import AiAgentsSwd.Planning.Runs
import AiAgentsSwd.ReadCommitted.Client

/-!
# Planning.Executable — which accepted plans can be executed

`parse_plan`, `validate_dependencies` and the constraints of the tables each say what a plan may
be. This file compares them, for plans that have a step and no cycle.

- `validatePlanGraph_iff`: the validator asks for one thing more, that no step lists a
  dependency twice;
- `succeeds_insertUnits_iff`: the tables ask for one thing more, that no step key is blank;
- `materializes_iff`: nothing else is asked for.
-/

namespace AiAgentsSwd.Planning

open Digraph
open Keyed (Table)
open ReadCommitted ReadCommitted.Txn ReadCommitted.Client

/-! ## The validator -/

/-- The step `a` lists the step `b` as a dependency. -/
def StepDependsOn (plan : PlanContent) (a b : String) : Prop :=
  ∃ step ∈ plan.steps, step.stepKey = a ∧ b ∈ step.dependsOn

/-- The `depends_on` relation has no cycle. -/
def PlanContent.Acyclic (plan : PlanContent) : Prop :=
  ∀ k, ¬ Relation.TransGen (StepDependsOn plan) k k

/-- No step lists a dependency twice. -/
def PlanContent.NoRepeats (plan : PlanContent) : Prop :=
  ∀ step ∈ plan.steps, step.dependsOn.Nodup

variable {plan : PlanContent}

theorem mem_planDependencyEdges {a b : String} :
    (a, b) ∈ planDependencyEdges plan ↔ StepDependsOn plan a b := by
  unfold planDependencyEdges StepDependsOn
  simp only [List.mem_flatMap, List.mem_map, Prod.mk.injEq]
  constructor
  · rintro ⟨step, hstep, parent, hparent, rfl, rfl⟩
    exact ⟨step, hstep, rfl, hparent⟩
  · rintro ⟨step, hstep, rfl, hb⟩
    exact ⟨step, hstep, b, hb, rfl, rfl⟩

theorem dependencyPairs_asTaskGraph :
    dependencyPairs (asTaskGraph plan) = planDependencyEdges plan := by
  simp [dependencyPairs, asTaskGraph, Function.comp_def]

theorem dependsOn_asTaskGraph {a b : String} :
    DependsOn (asTaskGraph plan) a b ↔ StepDependsOn plan a b := by
  rw [← mem_planDependencyEdges, ← dependencyPairs_asTaskGraph]
  unfold DependsOn dependencyPairs
  simp only [List.mem_map, Prod.mk.injEq]

/-- The edges of a plan repeat only where a step repeats a dependency. -/
theorem nodup_planDependencyEdges : (planDependencyEdges plan).Nodup ↔ plan.NoRepeats := by
  unfold planDependencyEdges PlanContent.NoRepeats
  rw [List.nodup_flatMap]
  have hmap : ∀ step : PlanStep,
      (step.dependsOn.map fun parent => (step.stepKey, parent)).Nodup ↔ step.dependsOn.Nodup :=
    fun step => List.nodup_map_iff fun a b h => (Prod.mk.inj h).2
  simp only [hmap]
  refine and_iff_left ((List.pairwise_map.mp plan.nodup).imp fun {s t} hne => ?_)
  -- the edges of two steps start at different keys
  intro e hs ht
  obtain ⟨p, -, rfl⟩ := List.mem_map.mp hs
  obtain ⟨q, -, hq⟩ := List.mem_map.mp ht
  exact hne (Prod.mk.inj hq).1.symm

theorem sound_asTaskGraph_iff (hacyclic : plan.Acyclic) :
    Sound (asTaskGraph plan) ↔ plan.NoRepeats := by
  rw [← nodup_planDependencyEdges, ← dependencyPairs_asTaskGraph]
  refine ⟨fun h => h.distinct, fun h => ⟨fun d hd => ?_, fun d hd => ?_, h, fun k hk => ?_⟩⟩
  · obtain ⟨step, hstep, hkey, hmem⟩ := dependsOn_asTaskGraph.mp ⟨d, hd, rfl, rfl⟩
    rw [← hkey]
    exact (plan.known step hstep _ hmem).2.symm
  · obtain ⟨step, hstep, hkey, hmem⟩ := dependsOn_asTaskGraph.mp ⟨d, hd, rfl, rfl⟩
    have hkeys : (asTaskGraph plan).workItems.map (·.workItemKey) =
        plan.steps.map PlanStep.stepKey := by
      simp [asTaskGraph, Function.comp_def]
    rw [hkeys, ← hkey]
    exact ⟨List.mem_map_of_mem hstep, (plan.known step hstep _ hmem).1⟩
  · have hmono : ∀ a b, DependsOn (asTaskGraph plan) a b → StepDependsOn plan a b :=
      fun a b => dependsOn_asTaskGraph.mp
    exact hacyclic k (Relation.TransGen.mono hmono _ _ hk)

/-- The order of first appearance. -/
def firstAppearance (graph : TaskGraph) :
    Arrangement (graph.workItems.map (·.workItemKey)) where
  nodes := nodeKeys graph
  nodup := List.nodup_dedup _
  mem_nodes _ := List.mem_dedup

/-- An acyclic plan with a step has one that waits for none. -/
theorem rootStepKeys_ne_nil (hsteps : plan.steps ≠ [])
    (hvalid : (validateDependencies (asTaskGraph plan)).status ≠ .invalid) :
    rootStepKeys plan ≠ [] := by
  obtain ⟨rank, hrank⟩ := validateDependencies_rank hvalid
  obtain ⟨first, hfirst⟩ := List.exists_mem_of_ne_nil _ hsteps
  have hlower : ∀ a b, a ∈ plan.steps.map PlanStep.stepKey → StepDependsOn plan a b →
      rank b < rank a := by
    intro a b _ hab
    obtain ⟨d, hd, rfl, rfl⟩ := dependsOn_asTaskGraph.mpr hab
    exact (hrank d hd).2.2
  obtain ⟨key, hkey, hminimal⟩ :=
    exists_minimal hlower ⟨first.stepKey, List.mem_map_of_mem hfirst⟩
  obtain ⟨step, hstep, rfl⟩ := List.mem_map.mp hkey
  have hroot : step.dependsOn = [] := by
    rw [List.eq_nil_iff_forall_not_mem]
    intro d hd
    exact hminimal d ⟨step, hstep, rfl, hd⟩ (plan.known step hstep d hd).1
  refine List.ne_nil_of_mem (a := step.stepKey) (List.mem_map_of_mem ?_)
  exact List.mem_filter.mpr ⟨hstep, by simpa using hroot⟩

/-- **What the validator asks of an acyclic plan with a step**: no repeated dependency. -/
theorem validatePlanGraph_iff (hsteps : plan.steps ≠ []) (hacyclic : plan.Acyclic) :
    validatePlanGraph plan = .ok () ↔ plan.NoRepeats := by
  have haccepts : (validateDependencies (asTaskGraph plan)).status ≠ .invalid ↔
      Sound (asTaskGraph plan) :=
    validateDependenciesIn_accepts_iff (asTaskGraph plan) (firstAppearance _)
  rw [← sound_asTaskGraph_iff hacyclic, ← haccepts]
  unfold validatePlanGraph
  rw [if_neg hsteps]
  dsimp only
  by_cases hinvalid : (validateDependencies (asTaskGraph plan)).status = .invalid
  · simp [hinvalid]
  · simp [hinvalid, rootStepKeys_ne_nil hsteps hinvalid]

/-! ## The tables -/

/-- The ids the database draws for a plan are new, and no two are the same. -/
structure MaterializeIds.Fresh (ids : MaterializeIds) (keys : List String) (s : Db) : Prop where
  items : ∀ k ∈ keys, s.projectWorkItems.find? (ids.workItemId k) = none
  units : ∀ k ∈ keys, s.planExecutionUnits.find? (ids.executionUnitId k) = none
  item_inj : (keys.map ids.workItemId).Nodup
  unit_inj : (keys.map ids.executionUnitId).Nodup

variable {s : Db} {ids : MaterializeIds}

/-- Taking one id leaves those of the later keys new. -/
theorem MaterializeIds.Fresh.tail {k : String} {ks : List String} (h : ids.Fresh (k :: ks) s)
    (w : WorkItem) (x : ExecutionUnit) :
    ids.Fresh ks { s with
      projectWorkItems := s.projectWorkItems.insert (ids.workItemId k) w
      planExecutionUnits := s.planExecutionUnits.insert (ids.executionUnitId k) x } := by
  have hitems := List.nodup_cons.mp (List.map_cons ▸ h.item_inj)
  have hunits := List.nodup_cons.mp (List.map_cons ▸ h.unit_inj)
  refine ⟨fun j hj => ?_, fun j hj => ?_, hitems.2, hunits.2⟩
  · have hne : ids.workItemId j ≠ ids.workItemId k :=
      fun heq => hitems.1 (heq ▸ List.mem_map_of_mem hj)
    exact (Table.find?_insert_of_ne _ _ hne).trans (h.items j (List.mem_cons_of_mem _ hj))
  · have hne : ids.executionUnitId j ≠ ids.executionUnitId k :=
      fun heq => hunits.1 (heq ▸ List.mem_map_of_mem hj)
    exact (Table.find?_insert_of_ne _ _ hne).trans (h.units j (List.mem_cons_of_mem _ hj))

/-- **What the tables ask of the steps of a plan**: no blank key. -/
theorem succeeds_insertUnits_iff {m : MaterializeContext} {steps : List PlanStep}
    (h : m.ids.Fresh (steps.map PlanStep.stepKey) s) :
    Succeeds (insertUnits m steps) s ↔ ∀ step ∈ steps, btrimNonempty step.stepKey := by
  induction steps generalizing s with
  | nil => exact iff_of_true ⟨_, rfl⟩ (by simp)
  | cons step steps ih =>
    have hitem := h.items step.stepKey (by simp)
    have hunit := h.units step.stepKey (by simp)
    have hrest := ih (h.tail (m.workItem step) (m.unit step))
    rw [List.forall_mem_cons, ← hrest]
    simp only [insertUnits, bind_eq, succeeds_bind, exec_insertWorkItem, exec_insertExecutionUnit]
    constructor
    · rintro ⟨_, ⟨-, rfl⟩, _, ⟨hkey, -, rfl⟩, o, ho, -⟩
      exact ⟨hkey, o, ho⟩
    · rintro ⟨hkey, o, ho⟩
      exact ⟨_, ⟨hitem, rfl⟩, _, ⟨hkey, hunit, rfl⟩, o, ho, by simp⟩

theorem succeeds_insertDependency (d : Dependency) (s : Db) : Succeeds (insertDependency d) s := by
  simp only [insertDependency, bind_eq, lockRow_bind, select_bind, succeeds_lock, succeeds_query]
  split
  · exact succeeds_done _ _
  · exact (succeeds_write _ _ _).mpr (succeeds_done _ _)

/-- The edges of known steps never violate a constraint. -/
theorem succeeds_insertDependencies {p : Uuid} {byStep : List (String × Uuid)}
    {edges : List (String × String)}
    (h : ∀ e ∈ edges, (byStep.lookup e.1).isSome ∧ (byStep.lookup e.2).isSome) (s : Db) :
    Succeeds (insertDependencies p byStep edges) s := by
  induction edges generalizing s with
  | nil => exact succeeds_done _ _
  | cons e edges ih =>
    obtain ⟨⟨hchild, hparent⟩, hrest⟩ := List.forall_mem_cons.mp h
    obtain ⟨child, hchild⟩ := Option.isSome_iff_exists.mp hchild
    obtain ⟨parent, hparent⟩ := Option.isSome_iff_exists.mp hparent
    simp only [insertDependencies, hchild, hparent, bind_eq, succeeds_bind]
    obtain ⟨o, ho⟩ := succeeds_insertDependency ⟨p, child, parent, "blocks"⟩ s
    exact ⟨o, ho, ih hrest o.state⟩

/-- The root of a goal is found or made. -/
theorem succeeds_ensureExecutionLineage {g p w : Uuid} {statement : String}
    (hnew : s.projectWorkItems.find? w = none) :
    Succeeds (ensureExecutionLineage g p statement w) s := by
  simp only [ensureExecutionLineage, bind_eq, select_bind, succeeds_query]
  cases hlineage : s.goalExecutionLineage.find? g with
  | some row => exact succeeds_done _ _
  | none =>
    dsimp only
    rw [succeeds_bind]
    simp only [exec_insertWorkItem]
    refine ⟨_, ⟨hnew, rfl⟩, ?_⟩
    simp only [lockRow_bind, succeeds_lock, succeeds_query, hlineage, Option.isSome_none,
      Bool.false_eq_true, if_false, modify_bind, succeeds_write]
    exact succeeds_done _ _

/-- At most the work item of the root is written. -/
theorem ensureExecutionLineage_find {g p w k : Uuid} {statement : String}
    {o : Outcome Db RowKey ExecutionLineage} (hk : k ≠ w)
    (h : exec (ensureExecutionLineage g p statement w) s = .ok o) :
    o.state.projectWorkItems.find? k = s.projectWorkItems.find? k := by
  simp only [ensureExecutionLineage, bind_eq, select_bind, exec_query] at h
  cases hlineage : s.goalExecutionLineage.find? g with
  | some row =>
    simp only [hlineage, pure_eq, exec_done, Except.ok.injEq] at h
    rw [← h]
  | none =>
    simp only [hlineage, exec_bind_ok (p := insertWorkItem _ _), exec_insertWorkItem] at h
    obtain ⟨_, _, ⟨-, rfl⟩, h, rfl⟩ := h
    simp only [lockRow_bind, exec_lock_ok, exec_query, hlineage, Option.isSome_none,
      Bool.false_eq_true, if_false, modify_bind, exec_write, pure_eq, exec_done,
      Except.ok.injEq] at h
    obtain ⟨_, rfl, rfl⟩ := h
    exact Table.find?_insert_of_ne _ _ hk

/-! ## The store -/

/-- The ids drawn for a plan, with that of the goal's root. -/
structure MaterializeIds.New (ids : MaterializeIds) (plan : PlanContent) (s : Db) : Prop where
  root : s.projectWorkItems.find? ids.primaryWorkItemId = none
  root_ne : ∀ step ∈ plan.steps, ids.workItemId step.stepKey ≠ ids.primaryWorkItemId
  steps : ids.Fresh (plan.steps.map PlanStep.stepKey) s

theorem lookup_stepItems_isSome {f : String → Uuid} {steps : List PlanStep} {k : String} :
    ((steps.map fun st => (st.stepKey, f st.stepKey)).lookup k).isSome ↔
      k ∈ steps.map PlanStep.stepKey := by
  rw [List.lookup_isSome_iff]
  simp only [List.mem_map, beq_iff_eq]
  constructor
  · rintro ⟨_, ⟨step, hstep, rfl⟩, hk⟩
    exact ⟨step, hstep, hk.symm⟩
  · rintro ⟨step, hstep, rfl⟩
    exact ⟨_, ⟨step, hstep, rfl⟩, rfl⟩

section Materialize

variable {r b : Uuid} {rev : PlanRevision}

/-- The units and the edges of a plan go in exactly when no step key is blank. -/
theorem succeeds_insertGraph_iff {m : MaterializeContext}
    (answer : List (String × Uuid) × List (Uuid × ExecutionUnit) → MaterializedGraph)
    (h : m.ids.Fresh (plan.steps.map PlanStep.stepKey) s) :
    Succeeds ((insertUnits m plan.steps).bind fun x =>
        (insertDependencies m.projectId x.1 (planDependencyEdges plan)).bind fun _ =>
          done (answer x)) s ↔ ∀ step ∈ plan.steps, btrimNonempty step.stepKey := by
  rw [← succeeds_insertUnits_iff h, succeeds_bind]
  constructor
  · rintro ⟨o, ho, -⟩
    exact ⟨o, ho⟩
  · rintro ⟨o, ho⟩
    refine ⟨o, ho, succeeds_bind.mpr ?_⟩
    have hedges : ∀ e ∈ planDependencyEdges plan,
        (o.value.1.lookup e.1).isSome ∧ (o.value.1.lookup e.2).isSome := by
      rintro ⟨a, c⟩ he
      obtain ⟨step, hstep, rfl, hc⟩ := mem_planDependencyEdges.mp he
      rw [(exec_insertUnits ho).2.1, lookup_stepItems_isSome, lookup_stepItems_isSome]
      exact ⟨List.mem_map_of_mem hstep, (plan.known step hstep c hc).1⟩
    obtain ⟨o', ho'⟩ := succeeds_insertDependencies hedges o.state
    exact ⟨o', ho', succeeds_done _ _⟩

/-- The graph that is answered is the one that is stored. -/
theorem exec_materialize_graph {goalId : Uuid} {o : Outcome Db RowKey MaterializedGraph}
    (h : exec (materialize goalId r b ids) s = .ok o) :
    o.state.planExecutionGraphs.find? r = some o.value.graph := by
  simp only [materialize, bind_eq, select_bind, exec_query] at h
  cases hgoal : s.goals.find? goalId with
  | none => simp [hgoal] at h
  | some goal =>
    simp only [hgoal, lockProject, lockRow_bind, exec_lock_ok, exec_bind_ok] at h
    obtain ⟨_, ⟨_, _, -, h, rfl⟩, rfl⟩ := h
    split at h
    · cases h
    · simp only [exec_bind_ok, exec_insertExecutionGraph] at h
      obtain ⟨_, _, -, ⟨_, _, ⟨-, rfl⟩, ⟨o₁, _, h₁, ⟨o₂, _, h₂, h₃, rfl⟩, rfl⟩, rfl⟩, rfl⟩ := h
      simp only [pure_eq, exec_done, Except.ok.injEq] at h₃
      subst h₃
      obtain ⟨⟨new, hnew, -⟩, -⟩ := exec_insertDependencies h₂
      obtain ⟨W, U, hunits⟩ := (exec_insertUnits h₁).1.state
      dsimp only at hnew hunits ⊢
      rw [hnew, hunits]
      exact Table.find?_insert_self ..

variable (hinv : Inv s) (hrev : s.planRevisions.find? r = some rev)
  (haccepted : rev.status = .accepted) (hcurrent : s.successorOf r = none)
include hinv hrev haccepted hcurrent

/-- Where the revision has no graph yet, one transaction builds it. -/
theorem succeeds_materialize_iff (hgraph : s.planExecutionGraphs.find? r = none)
    (hparse : parsePlan rev.plan = .ok plan) (hsteps : plan.steps ≠ [])
    (hacyclic : plan.Acyclic) (hids : ids.New plan s) :
    Succeeds (materialize rev.goalId r b ids) s ↔
      plan.NoRepeats ∧ ∀ step ∈ plan.steps, btrimNonempty step.stepKey := by
  obtain ⟨goal, hgoal, -⟩ := hinv.revisions.goal r rev hrev
  have hconfirm : exec (confirmDispatchableRevision rev.goalId r) s =
      .ok ⟨rev, s, [.planRevision r]⟩ :=
    exec_confirmDispatchableRevision.mpr ⟨rev, hrev, rfl, hcurrent, haccepted, rfl⟩
  rw [← validatePlanGraph_iff hsteps hacyclic]
  simp only [materialize, bind_eq, select_bind, succeeds_query, hgoal, lockProject, lockRow_bind,
    succeeds_lock]
  rw [succeeds_bind]
  simp only [hconfirm, Except.ok.injEq, exists_eq_left']
  cases hvalid : validatePlanGraph plan with
  | error e => simp [planFromRevision, hparse, hvalid]
  | ok u =>
    rw [planFromRevision_eq_ok.mpr ⟨hparse, hvalid⟩]
    dsimp only
    obtain ⟨o, ho⟩ : Succeeds (ensureExecutionLineage rev.goalId goal.projectId goal.statement
        ids.primaryWorkItemId) s := succeeds_ensureExecutionLineage hids.root
    have hensured := exec_ensureExecutionLineage ho
    obtain ⟨W, L, hstate⟩ := (exec_ensureExecutionLineage ho).state
    have hfresh : ids.Fresh (plan.steps.map PlanStep.stepKey) o.state := by
      refine { hids.steps with items := fun k hk => ?_, units := fun k hk => ?_ }
      · obtain ⟨step, hstep, rfl⟩ := List.mem_map.mp hk
        rw [ensureExecutionLineage_find (hids.root_ne step hstep) ho]
        exact hids.steps.items _ hk
      · rw [hstate]
        exact hids.steps.units k hk
    have hgraph' : o.state.planExecutionGraphs.find? r = none := by
      rw [hstate]
      exact hgraph
    rw [succeeds_bind]
    simp only [ho, Except.ok.injEq, exists_eq_left']
    rw [succeeds_bind]
    simp only [exec_insertExecutionGraph, hgraph', true_and, exists_eq_left]
    exact succeeds_insertGraph_iff (fun x => ⟨_, _, x.2, true⟩)
      ⟨hfresh.items, hfresh.units, hfresh.item_inj, hfresh.unit_inj⟩

/-- Where the revision has its graph, the transaction is rolled back on it. -/
theorem exec_materialize_of_graph {graph : ExecutionGraph}
    (hgraph : s.planExecutionGraphs.find? r = some graph) (ids : MaterializeIds) :
    exec (materialize rev.goalId r b ids) s = .error (.uniqueViolation "uq_peg_plan_revision") := by
  obtain ⟨goal, hgoal, -⟩ := hinv.revisions.goal r rev hrev
  obtain ⟨rev', plan, hrev', hgoalId, -, hplan, -⟩ := hinv.shape.materialized r graph hgraph
  obtain rfl : rev = rev' := Option.some.inj (hrev.symm.trans hrev')
  obtain ⟨lineage, hlineage⟩ := Option.isSome_iff_exists.mp (hinv.shape.lineage r graph hgraph)
  have hconfirm : exec (confirmDispatchableRevision rev.goalId r) s =
      .ok ⟨rev, s, [.planRevision r]⟩ :=
    exec_confirmDispatchableRevision.mpr ⟨rev, hrev, rfl, hcurrent, haccepted, rfl⟩
  simp only [materialize, bind_eq, select_bind, exec_query, hgoal, lockProject, lockRow_bind]
  apply exec_lock_error
  apply exec_bind_error hconfirm
  simp only [hplan, ensureExecutionLineage, bind_eq, select_bind, query_bind, exec_query, hgoalId,
    hlineage, pure_eq, done_bind, insertExecutionGraph, lockRow_bind, lock_bind]
  apply exec_lock_error
  simp only [exec_query, hgraph, Option.isSome_some, if_true, raise_bind, exec_raise]

omit hrev haccepted hcurrent in
/-- The graph of a revision is read back. -/
theorem exec_readGraph_of_graph {graph : ExecutionGraph}
    (hgraph : s.planExecutionGraphs.find? r = some graph) :
    ∃ g : MaterializedGraph, g.graph = graph ∧ exec (readGraph r) s = .ok ⟨some g, s, []⟩ := by
  obtain ⟨lineage, hlineage⟩ := Option.isSome_iff_exists.mp (hinv.shape.lineage r graph hgraph)
  simp only [readGraph, bind_eq, select_bind, exec_query, hgraph, hlineage, pure_eq, exec_done]
  exact ⟨_, rfl, rfl⟩

end Materialize

/-- What `materialize` raises. -/
inductive MaterializeFailure where
  | raised (e : Exn)
  | runtimeError
deriving Repr, DecidableEq

/-- `_GRAPH_PER_REVISION` and `_UNIT_PER_STEP`: the constraints a lost race violates. -/
def Exn.isLostRace : Exn → Bool
  | .uniqueViolation c => c = "uq_peg_plan_revision" ∨ c = "uq_peu_revision_step"
  | _ => false

/-- `materialize(goal_id, plan_revision_id, materialized_by)` -/
def materializePlan (goalId planRevisionId materializedBy : Uuid) (ids : MaterializeIds) :
    Client Db MaterializeFailure MaterializedGraph := fun s =>
  match (materialize goalId planRevisionId materializedBy ids).exec s with
  | .ok o => (.ok o.value, o.state)
  | .error e =>
    if e.isLostRace then
      -- the transaction rolled back, and the graph of the winner is read
      match (readGraph planRevisionId).exec s with
      | .error e => (.error (.raised e), s)
      | .ok o =>
        match o.value with
        | none => (.error .runtimeError, s)
        | some graph => (.ok graph, s)
    else (.error (.raised e), s)

theorem materializePlan_of_error {g r b : Uuid} {e : Exn}
    (h : (materialize g r b ids).exec s = .error e) : (materializePlan g r b ids s).2 = s := by
  unfold materializePlan
  rw [h]
  dsimp only
  split_ifs
  · cases (readGraph r).exec s with
    | error e => rfl
    | ok o => cases hvalue : o.value <;> simp only [hvalue]
  · rfl

/-- `materialize` answers with the graph of the revision, and the graph is stored. -/
def Materializes (goalId planRevisionId materializedBy : Uuid) (ids : MaterializeIds) (s : Db) :
    Prop :=
  (materializePlan goalId planRevisionId materializedBy ids).Returns s fun g t =>
    t.planExecutionGraphs.find? planRevisionId = some g.graph

/-- The accepted, current revision `r` carries the plan, which has a step and no cycle. -/
structure Db.Carries (s : Db) (r : Uuid) (rev : PlanRevision) (plan : PlanContent) : Prop where
  revision : s.planRevisions.find? r = some rev
  accepted : rev.status = .accepted
  current : s.successorOf r = none
  parsed : parsePlan rev.plan = .ok plan
  steps : plan.steps ≠ []
  acyclic : plan.Acyclic

/-- A plan of two steps, of which the second lists the first `n` times. -/
def pairPlan (first : String) (n : Nat) : Json.Value :=
  let step (key : String) (dependsOn : List String) : Json.Value :=
    .obj [("step_key", .str key), ("title", .str key), ("depends_on", .arr (dependsOn.map .str))]
  .obj [("objective", .str "ship"),
    ("steps", .arr [step first [], step "b" (List.replicate n first)])]

/-- A goal whose plan is accepted. -/
def accepting (plan : Json.Value) : PlanSys Unit := Sys.calls program freshDb [
  .createGoal ⟨1⟩ { projectId := ⟨0⟩, statement := "ship", createdBy := ⟨7⟩ },
  .createInitialRevision ⟨2⟩ { goalId := ⟨1⟩, createdBy := ⟨7⟩, plan := plan },
  .acceptRevision ⟨2⟩]

theorem reachable_accepting (plan : Json.Value) : PlanReachable (accepting plan) :=
  reachable_calls initial_freshDb _

def pairIds : MaterializeIds where
  primaryWorkItemId := ⟨10⟩
  planExecutionGraphId := ⟨11⟩
  workItemId key := if key = "b" then ⟨22⟩ else ⟨21⟩
  executionUnitId key := if key = "b" then ⟨32⟩ else ⟨31⟩

instance (keys : List String) : Decidable (ids.Fresh keys s) :=
  decidable_of_iff ((∀ k ∈ keys, (s.projectWorkItems.find? (ids.workItemId k)).isNone) ∧
      (∀ k ∈ keys, (s.planExecutionUnits.find? (ids.executionUnitId k)).isNone) ∧
      (keys.map ids.workItemId).Nodup ∧ (keys.map ids.executionUnitId).Nodup)
    ⟨fun h => ⟨fun k hk => Option.isNone_iff_eq_none.mp (h.1 k hk),
        fun k hk => Option.isNone_iff_eq_none.mp (h.2.1 k hk), h.2.2.1, h.2.2.2⟩,
      fun h => ⟨fun k hk => Option.isNone_iff_eq_none.mpr (h.items k hk),
        fun k hk => Option.isNone_iff_eq_none.mpr (h.units k hk), h.item_inj, h.unit_inj⟩⟩

instance : Decidable (ids.New plan s) :=
  decidable_of_iff ((s.projectWorkItems.find? ids.primaryWorkItemId).isNone ∧
      (∀ step ∈ plan.steps, ids.workItemId step.stepKey ≠ ids.primaryWorkItemId) ∧
      ids.Fresh (plan.steps.map PlanStep.stepKey) s)
    ⟨fun h => ⟨Option.isNone_iff_eq_none.mp h.1, h.2.1, h.2.2⟩,
      fun h => ⟨Option.isNone_iff_eq_none.mpr h.root, h.root_ne, h.steps⟩⟩

/-- Only `b` waits, and for others; its ids are new. -/
def PlanContent.isPair (plan : PlanContent) (s : Db) : Bool :=
  plan.steps ≠ [] ∧ (∀ step ∈ plan.steps, ∀ d ∈ step.dependsOn, d ≠ "b" ∧ step.stepKey = "b") ∧
    pairIds.New plan s

/-- The accepted revision of the goal carries such a plan, of which `good` holds. -/
def Db.carriesPair (s : Db) (good : PlanContent → Bool) : Bool :=
  (s.planRevisions.find? ⟨2⟩).any fun rev =>
    rev.status = .accepted ∧ rev.goalId = ⟨1⟩ ∧ s.successorOf ⟨2⟩ = none ∧
      (match parsePlan rev.plan with
        | .error _ => false
        | .ok plan => plan.isPair s ∧ good plan) = true

theorem Db.carries_of_carriesPair {good : PlanContent → Bool} (h : s.carriesPair good = true) :
    ∃ rev plan, rev.goalId = ⟨1⟩ ∧ s.Carries ⟨2⟩ rev plan ∧ pairIds.New plan s ∧
      good plan = true := by
  obtain ⟨rev, hrev, hdec⟩ := (Option.any_eq_true _ _).mp h
  obtain ⟨haccepted, hgoal, hcurrent, hplan⟩ := of_decide_eq_true hdec
  cases hparse : parsePlan rev.plan with
  | error e => simp [hparse] at hplan
  | ok plan =>
    rw [hparse] at hplan
    obtain ⟨hpair, hgood⟩ := of_decide_eq_true hplan
    obtain ⟨hsteps, hrank, hids⟩ := of_decide_eq_true hpair
    refine ⟨rev, plan, hgoal, ⟨hrev, haccepted, hcurrent, hparse, hsteps, ?_⟩, hids, hgood⟩
    apply not_transGen_of_rank (r := fun k => if k = "b" then 1 else 0)
    rintro a d ⟨step, hstep, rfl, hd⟩
    obtain ⟨hother, hb⟩ := hrank step hstep d hd
    simp [hother, hb]

/-- What a call raises. -/
def failureOf : Except MaterializeFailure MaterializedGraph → Option MaterializeFailure
  | .error e => some e
  | .ok _ => none

theorem not_materializes_of_failure {g r b : Uuid} {e : MaterializeFailure}
    (h : failureOf (materializePlan g r b ids s).1 = some e) : ¬ Materializes g r b ids s := by
  rintro ⟨graph, t, hrun, -⟩
  rw [hrun] at h
  cases h

/-- The plan is accepted in a reachable database and carried by its revision, and a call with new
ids does not materialize it. -/
def Unexecutable (p : Json.Value) : Prop :=
  PlanReachable (accepting p) ∧
    (∃ rev plan, rev.goalId = ⟨1⟩ ∧ (accepting p).db.Carries ⟨2⟩ rev plan ∧
      pairIds.New plan (accepting p).db) ∧
    ¬ Materializes ⟨1⟩ ⟨2⟩ ⟨7⟩ pairIds (accepting p).db

theorem unexecutable_of_failure {p : Json.Value} {e : MaterializeFailure}
    (hcarries : (accepting p).db.carriesPair (fun _ => true) = true)
    (hfailure : failureOf (materializePlan ⟨1⟩ ⟨2⟩ ⟨7⟩ pairIds (accepting p).db).1 = some e) :
    Unexecutable p := by
  refine ⟨reachable_accepting p, ?_, not_materializes_of_failure hfailure⟩
  obtain ⟨rev, plan, hgoal, h, hids, -⟩ := Db.carries_of_carriesPair hcarries
  exact ⟨rev, plan, hgoal, h, hids⟩

end AiAgentsSwd.Planning
