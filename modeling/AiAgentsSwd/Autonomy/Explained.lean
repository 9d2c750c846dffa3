import AiAgentsSwd.Autonomy.Overview
import AiAgentsSwd.Planning.Passes

/-!
# Autonomy.Explained — what an overview says of a goal that stands still

The phase, the blockers and the scheduler are three readings of the same rows. A page of an
overview is never too short for the units of a plan, so `goal_completed_iff` says of the tables when
a goal is called completed. `unexplained_iff` says which goals stand still without a blocker: next
to those that never got as far as a graph, the goals whose units are all over, and those whose
next unit has a routing decision that can not be written.
-/

namespace AiAgentsSwd.Autonomy

open Keyed (Table)
open Planning
open ReadCommitted

/-! ## The page -/

/-- The two parts of a sequence. -/
theorem bind_eq_ok {ε α β : Type} {x : Except ε α} {f : α → Except ε β} {b : β}
    (h : x >>= f = .ok b) : ∃ a, x = .ok a ∧ f a = .ok b := by
  cases x with
  | error e => cases h
  | ok a => exact ⟨a, rfl, h⟩

theorem length_of_mapM {ε α β : Type} {f : α → Except ε β} {l : List α} {l' : List β}
    (h : l.mapM f = .ok l') : l'.length = l.length := by
  induction l generalizing l' with
  | nil =>
    rw [List.mapM_nil] at h
    cases h
    rfl
  | cons a l ih =>
    rw [List.mapM_cons] at h
    rcases bind_eq_ok h with ⟨b, -, h⟩
    rcases bind_eq_ok h with ⟨bs, hbs, h⟩
    cases h
    rw [List.length_cons, List.length_cons, ih hbs]

theorem length_stepsField {v : Option Json.Value} {steps : List PlanStep}
    (h : stepsField v = .ok steps) : steps.length ≤ MAX_PLAN_STEPS := by
  unfold stepsField at h
  split at h
  · cases h
    exact Nat.zero_le _
  · split_ifs at h with hmax
    rw [length_of_mapM h]
    exact hmax
  · cases h

theorem length_steps_of_parsePlan {payload : Json.Value} {plan : PlanContent}
    (h : parsePlan payload = .ok plan) : plan.steps.length ≤ MAX_PLAN_STEPS := by
  rcases bind_eq_ok h with ⟨m, -, h⟩
  rcases bind_eq_ok h with ⟨objective, -, h⟩
  rcases bind_eq_ok h with ⟨steps, hsteps, h⟩
  rcases bind_eq_ok h with ⟨constraints, -, h⟩
  rcases bind_eq_ok h with ⟨acceptanceCriteria, -, h⟩
  split at h
  · cases h
  · cases h
    exact length_stepsField hsteps

/-! ## A sample goal -/

/-- A plan of one step. -/
def soloPlan : Json.Value :=
  .obj [("objective", .str "ship"),
    ("steps", .arr [.obj [("step_key", .str "api"), ("title", .str "api")]])]

/-- The one step of a plan is handed over and its result recorded. -/
def solo (disposition : Disposition) : PlanSys Unit := Sys.calls program freshDb [
  .createGoal ⟨1⟩ { projectId := ⟨0⟩, statement := "ship", createdBy := ⟨7⟩ },
  .createInitialRevision ⟨2⟩ { goalId := ⟨1⟩, createdBy := ⟨7⟩, plan := soloPlan },
  .acceptRevision ⟨2⟩,
  .materialize ⟨1⟩ ⟨2⟩ ⟨7⟩ fanInIds,
  .applyAssignment ⟨31⟩ fanInDecision none ⟨41⟩ 1,
  .createDispatch ⟨31⟩ none ⟨51⟩ 2,
  .markDispatchPublished ⟨31⟩ 3,
  .recordResult ⟨31⟩ disposition none 4]

theorem reachable_solo (disposition : Disposition) : PlanReachable (solo disposition) :=
  reachable_calls initial_freshDb _

/-- The team is there, and its discussion converged to a decision. -/
def settled (db : Db) : World where
  db := db
  discussionSessions := [⟨⟨61⟩, ⟨1⟩, ⟨62⟩, .converged, some .convergenceReached, 1, 0⟩]
  planningDecisions := [⟨⟨63⟩, ⟨1⟩, 0⟩]
  teamMemberships := [⟨⟨64⟩, ⟨0⟩, .active, 0⟩]
  reasoningInvocations := []

def plainText (c : Char) : Bool := ' ' ≤ c

section Snapshot

variable {w : World} {g r : Uuid}

/-- The page of units holds all units of a graph. -/
theorem listUnits_perm (hinv : Inv w.db) {graph : ExecutionGraph}
    (hgraph : w.db.planExecutionGraphs.find? r = some graph) :
    (listUnits w r).Perm (w.db.unitsOf r) ∧ (w.db.unitsOf r).length = graph.stepCount := by
  have hitems : (w.db.planExecutionUnits.rows.filter fun e => e.2.planRevisionId = r ∧
      (w.db.projectWorkItems.find? e.2.workItemId).isSome) = w.db.unitsOf r := by
    unfold Db.unitsOf
    refine List.filter_congr fun e he => ?_
    have hitem := hinv.shape.item e.1 e.2 (Table.mem_rows.mp he)
    simp [hitem]
  rcases hinv.shape.materialized r graph hgraph with ⟨rev, plan, -, -, -, hplan, hcount, hperm⟩
  have heq := hperm.length_eq
  rw [List.length_map, List.length_map, ← hcount] at heq
  have hlength : (w.db.unitsOf r).length ≤ maxPage := by
    have hsteps := length_steps_of_parsePlan (planFromRevision_eq_ok.mp hplan).1
    unfold MAX_PLAN_STEPS at hsteps
    unfold maxPage
    omega
  refine ⟨?_, heq⟩
  unfold listUnits
  rw [hitems, List.take_of_length_le (by rw [List.length_insertionSort]; exact hlength)]
  exact List.perm_insertionSort _ _

theorem mem_listUnits (hinv : Inv w.db) {graph : ExecutionGraph}
    (hgraph : w.db.planExecutionGraphs.find? r = some graph) {e : Uuid × ExecutionUnit} :
    e ∈ listUnits w r ↔
      w.db.planExecutionUnits.find? e.1 = some e.2 ∧ e.2.planRevisionId = r := by
  rw [(listUnits_perm hinv hgraph).1.mem_iff, Db.unitsOf, List.mem_filter, decide_eq_true_eq]
  exact and_congr_left fun _ => Table.mem_rows

theorem current_of_getCurrentRevision {rev : PlanRevision}
    (h : w.db.getCurrentRevision g = some (r, rev)) :
    w.db.planRevisions.find? r = some rev ∧ rev.goalId = g ∧ w.db.successorOf r = none := by
  unfold Db.getCurrentRevision Db.currentRevisions at h
  have hmem := List.mem_of_mem_head? (Option.mem_def.mpr h)
  rw [List.mem_filter, decide_eq_true_eq] at hmem
  exact ⟨Table.mem_rows.mp hmem.1, hmem.2.1, hmem.2.2⟩

theorem currentGraph_eq (hinv : Inv w.db) {rev : PlanRevision}
    (h : w.db.getCurrentRevision g = some (r, rev)) :
    currentGraph w g r = w.db.planExecutionGraphs.find? r := by
  rcases current_of_getCurrentRevision h with ⟨hrev, hgoal, -⟩
  unfold currentGraph
  cases hgraph : w.db.planExecutionGraphs.find? r with
  | none => rfl
  | some graph =>
    rcases hinv.shape.materialized r graph hgraph with ⟨rev', plan, hrev', hgoal', -⟩
    have heq : rev = rev' := Option.some.inj (hrev.symm.trans hrev')
    rw [Option.filter_some, if_pos]
    simp [hrev, ← hgoal', ← heq, hgoal]

variable {printable : Char → Bool} {snap : Snapshot}

/-- What a snapshot reads. -/
structure Snapshot.Reads (snap : Snapshot) (printable : Char → Bool) (w : World) (g : Uuid) :
    Prop where
  lineage : snap.lineage = getExecutionLineage w g
  revision : snap.currentRevision = getCurrentRevision w g
  noRevision : w.db.getCurrentRevision g = none → snap.currentUnits = []
  graph : ∀ r rev, w.db.getCurrentRevision g = some (r, rev) →
    snap.currentGraph = w.db.planExecutionGraphs.find? r
  units : ∀ r rev graph, w.db.getCurrentRevision g = some (r, rev) →
    w.db.planExecutionGraphs.find? r = some graph →
    snap.currentUnits = unitsWithTopology w printable r
  discussion : ∀ d, snap.discussion = some d →
    ∃ row ∈ w.discussionSessions, row.goalId = g ∧ row.state = d.state

theorem reads_goalSnapshot (hinv : Inv w.db) (h : goalSnapshot w printable g = some snap) :
    snap.Reads printable w g := by
  rcases Option.bind_eq_some_iff.mp h with ⟨goal, -, h⟩
  cases h
  refine ⟨rfl, rfl, fun hnone => ?_, fun r rev hcur => ?_, fun r rev graph hcur hgraph => ?_,
    fun d hd => ?_⟩
  · simp [getCurrentRevision, hnone]
  · simp [getCurrentRevision, hcur, currentGraph_eq hinv hcur]
  · simp [getCurrentRevision, hcur, currentGraph_eq hinv hcur, hgraph]
  · rcases Option.map_eq_some_iff.mp hd with ⟨row, hrow, rfl⟩
    have hmem := List.mem_of_mem_head? (Option.mem_def.mpr hrow)
    have hfilter := (List.mergeSort_perm _ _).mem_iff.mp (List.mem_of_mem_take hmem)
    rw [List.mem_filter, decide_eq_true_eq] at hfilter
    exact ⟨row, hfilter.1, hfilter.2, rfl⟩

/-! ## Completed -/

theorem graphPhase_eq_completed {units : List UnitView} :
    (graphPhase units).1 = .completed ↔
      units ≠ [] ∧ ∀ v ∈ units, v.row.unit.state = .completed := by
  unfold graphPhase
  dsimp only
  split_ifs with hall
  · refine iff_of_true rfl ⟨hall.1, fun v hv => ?_⟩
    exact of_decide_eq_true (List.all_eq_true.mp hall.2 _ (List.mem_map_of_mem hv))
  all_goals
    refine iff_of_false (by simp) fun hunits => hall ⟨hunits.1, List.all_eq_true.mpr ?_⟩
    simpa using hunits.2

/-- No rule before the graph applies: the lineage is not cancelled, the team has an active member
and the latest discussion is over. -/
def Snapshot.PastDiscussion (snap : Snapshot) : Prop :=
  snap.lineage.any LineageView.isCancelled = false ∧ snap.teamActiveMemberCount ≠ 0 ∧
    ∃ d, snap.discussion = some d ∧ d.state ≠ .open

theorem phaseOf_eq_completed :
    (phaseOf printable snap).1 = .completed ↔
      snap.PastDiscussion ∧ (∃ r, snap.currentRevision = some r ∧ r.status = .accepted) ∧
        snap.currentGraph ≠ none ∧ snap.currentUnits ≠ [] ∧
        ∀ v ∈ snap.currentUnits, v.row.unit.state = .completed := by
  unfold phaseOf Snapshot.PastDiscussion
  cases hcancelled : snap.lineage.any LineageView.isCancelled with
  | true => simp
  | false =>
    by_cases hteam : snap.teamActiveMemberCount = 0
    · simp [hteam]
    cases hroom : snap.discussion with
    | none => simp [hteam]
    | some d =>
      by_cases hopen : d.state = .open
      · simp [hteam, hopen]
      cases hrevision : snap.currentRevision with
      | none =>
        by_cases hconverged : d.state = .converged <;> simp [hteam, hopen, hconverged]
      | some r =>
        by_cases haccepted : r.status = .accepted
        · by_cases hgraph : snap.currentGraph = none
          · simp [hteam, hopen, haccepted, hgraph]
          · simp [hteam, hopen, haccepted, hgraph, graphPhase_eq_completed]
        · simp [hteam, hopen, haccepted]

/-- A graph has a unit. -/
theorem unitsOf_ne_nil (hinv : Inv w.db) {graph : ExecutionGraph}
    (hgraph : w.db.planExecutionGraphs.find? r = some graph) : w.db.unitsOf r ≠ [] := by
  rcases hinv.shape.materialized r graph hgraph with ⟨rev, plan, -, -, -, hplan, -, hperm⟩
  intro hnil
  rw [hnil, List.map_nil] at hperm
  have hsteps : plan.steps = [] := List.map_eq_nil_iff.mp hperm.nil_eq.symm
  have hvalid := (planFromRevision_eq_ok.mp hplan).2
  unfold validatePlanGraph at hvalid
  rw [if_pos hsteps] at hvalid
  cases hvalid

theorem units_completed_iff (hinv : Inv w.db) {graph : ExecutionGraph}
    (hgraph : w.db.planExecutionGraphs.find? r = some graph) :
    (unitsWithTopology w printable r ≠ [] ∧
      ∀ v ∈ unitsWithTopology w printable r, v.row.unit.state = .completed) ↔
        w.db.AllCompleted r := by
  have hmem : ∀ e, e ∈ listUnits w r ↔ _ := fun e => mem_listUnits hinv hgraph
  constructor
  · rintro ⟨-, hall⟩ u x hx hr
    exact hall _ (List.mem_map_of_mem ((hmem (u, x)).mpr ⟨hx, hr⟩))
  · intro hall
    constructor
    · rcases List.exists_mem_of_ne_nil _ (unitsOf_ne_nil hinv hgraph) with ⟨e, he⟩
      unfold Db.unitsOf at he
      rw [List.mem_filter, decide_eq_true_eq] at he
      have hlisted := (hmem e).mpr ⟨Table.mem_rows.mp he.1, he.2⟩
      exact List.ne_nil_of_mem (List.mem_map_of_mem hlisted)
    · intro v hv
      rcases List.mem_map.mp hv with ⟨e, he, rfl⟩
      rcases (hmem e).mp he with ⟨hx, hr⟩
      exact hall e.1 e.2 hx hr

/-- **When a goal is called completed**: no earlier rule applies, and its current revision is
accepted and has a graph, of which every unit is completed. -/
theorem goal_completed_iff {ι : Type} [DecidableEq ι] {y : PlanSys ι} (hy : PlanReachable y)
    (hw : w.db = y.db) (hsnap : goalSnapshot w printable g = some snap) :
    (autonomyPhase printable snap).phase = .completed ↔
      snap.PastDiscussion ∧ ∃ r rev graph, y.db.getCurrentRevision g = some (r, rev) ∧
        rev.status = .accepted ∧ y.db.planExecutionGraphs.find? r = some graph ∧
        y.db.AllCompleted r := by
  have hinv := inv_of_reachable hy
  rw [← hw] at hinv ⊢
  have hreads := reads_goalSnapshot hinv hsnap
  show (phaseOf printable snap).1 = .completed ↔ _
  rw [phaseOf_eq_completed]
  refine and_congr_right fun _ => ?_
  cases hcur : w.db.getCurrentRevision g with
  | none => simp [hreads.revision, getCurrentRevision, hcur]
  | some e =>
    rcases e with ⟨r, rev⟩
    have hrevision : snap.currentRevision = some ⟨r, rev.revisionNumber, rev.status⟩ := by
      rw [hreads.revision, getCurrentRevision, hcur, Option.map_some]
    cases hgraph : w.db.planExecutionGraphs.find? r with
    | none =>
      rw [hrevision, hreads.graph r rev hcur, hgraph]
      refine iff_of_false (fun h => h.2.1 rfl) ?_
      rintro ⟨r', rev', graph, heq, -, hsome, -⟩
      cases heq
      rw [hgraph] at hsome
      cases hsome
    | some graph =>
      rw [hrevision, hreads.graph r rev hcur, hgraph, hreads.units r rev graph hcur hgraph,
        units_completed_iff hinv hgraph]
      constructor
      · rintro ⟨⟨_, hr, haccepted⟩, -, hall⟩
        cases hr
        exact ⟨r, rev, graph, rfl, haccepted, hgraph, hall⟩
      · rintro ⟨r', rev', graph', heq, haccepted, -, hall⟩
        cases heq
        exact ⟨⟨_, rfl, haccepted⟩, by simp, hall⟩

theorem goal_completed_iff_solo :
    ∃ snap, goalSnapshot (settled (solo .succeeded).db) plainText ⟨1⟩ = some snap ∧
      snap.PastDiscussion ∧ ∃ r rev graph,
        (solo .succeeded).db.getCurrentRevision ⟨1⟩ = some (r, rev) ∧ rev.status = .accepted ∧
        (solo .succeeded).db.planExecutionGraphs.find? r = some graph ∧
        (solo .succeeded).db.AllCompleted r := by
  have hany : (goalSnapshot (settled (solo .succeeded).db) plainText ⟨1⟩).any
      (fun snap => (autonomyPhase plainText snap).phase = .completed) = true := by decide +kernel
  rcases (Option.any_eq_true _ _).mp hany with ⟨snap, hsnap, hphase⟩
  exact ⟨snap, hsnap,
    (goal_completed_iff (reachable_solo .succeeded) rfl hsnap).mp (of_decide_eq_true hphase)⟩

/-! ## Progress -/

theorem countP_states (units : List UnitView) :
    (graphProgress units).blocked + (graphProgress units).ready + (graphProgress units).assigned +
      (graphProgress units).dispatched + (graphProgress units).completed +
      (graphProgress units).failed + (graphProgress units).cancelled =
        (graphProgress units).totalUnits := by
  unfold graphProgress
  dsimp only
  induction units with
  | nil => rfl
  | cons v units ih =>
    simp only [List.countP_cons, List.length_cons]
    cases v.row.unit.state <;> simp <;> omega

/-- **The progress of a graph**: the seven states are counted against the steps of the plan, no
unit is cancelled, and only a ready unit is unavailable. -/
theorem progress_of_graph {ι : Type} [DecidableEq ι] {y : PlanSys ι} (hy : PlanReachable y)
    (hw : w.db = y.db) (hsnap : goalSnapshot w printable g = some snap) {rev : PlanRevision}
    (hcur : y.db.getCurrentRevision g = some (r, rev)) {graph : ExecutionGraph}
    (hgraph : y.db.planExecutionGraphs.find? r = some graph) :
    (graphProgress snap.currentUnits).blocked + (graphProgress snap.currentUnits).ready +
        (graphProgress snap.currentUnits).assigned + (graphProgress snap.currentUnits).dispatched +
        (graphProgress snap.currentUnits).completed + (graphProgress snap.currentUnits).failed =
      graph.stepCount ∧
    (graphProgress snap.currentUnits).cancelled = 0 ∧
    (graphProgress snap.currentUnits).unavailable ≤ (graphProgress snap.currentUnits).ready := by
  have hinv := inv_of_reachable hy
  rw [← hw] at hinv hcur hgraph
  have hunits := (reads_goalSnapshot hinv hsnap).units r rev graph hcur hgraph
  rcases listUnits_perm hinv hgraph with ⟨hperm, hlength⟩
  have htotal : (graphProgress snap.currentUnits).totalUnits = graph.stepCount := by
    rw [← hlength, ← hperm.length_eq, hunits]
    exact List.length_map ..
  have hcancelled : (graphProgress snap.currentUnits).cancelled = 0 := by
    refine List.countP_eq_zero.mpr fun v hv hstate => ?_
    rw [hunits] at hv
    rcases List.mem_map.mp hv with ⟨e, he, rfl⟩
    exact hinv.books.live e.1 e.2 ((mem_listUnits hinv hgraph).mp he).1 (of_decide_eq_true hstate)
  have hsum := countP_states snap.currentUnits
  refine ⟨by omega, hcancelled, List.countP_mono_left fun v _ hv => ?_⟩
  rw [decide_eq_true_eq] at hv ⊢
  exact hv.1

theorem progress_of_graph_fanIn :
    ∃ snap, goalSnapshot (settled (fanIn 8).db) plainText ⟨1⟩ = some snap ∧
      (graphProgress snap.currentUnits).blocked + (graphProgress snap.currentUnits).ready +
        (graphProgress snap.currentUnits).assigned + (graphProgress snap.currentUnits).dispatched +
        (graphProgress snap.currentUnits).completed + (graphProgress snap.currentUnits).failed = 3 ∧
      (graphProgress snap.currentUnits).cancelled = 0 ∧
      (graphProgress snap.currentUnits).unavailable ≤
        (graphProgress snap.currentUnits).ready := by
  have hsome : (goalSnapshot (settled (fanIn 8).db) plainText ⟨1⟩).isSome = true := by
    decide +kernel
  have hcurrent : ((fanIn 8).db.getCurrentRevision ⟨1⟩).any (fun e =>
      ((fanIn 8).db.planExecutionGraphs.find? e.1).any fun graph => graph.stepCount = 3) = true := by
    decide +kernel
  rcases Option.isSome_iff_exists.mp hsome with ⟨snap, hsnap⟩
  rcases (Option.any_eq_true _ _).mp hcurrent with ⟨e, hcur, hany⟩
  rcases (Option.any_eq_true _ _).mp hany with ⟨graph, hgraph, hcount⟩
  have hprogress := progress_of_graph (reachable_fanIn 8) rfl hsnap hcur hgraph
  rw [of_decide_eq_true hcount] at hprogress
  exact ⟨snap, hsnap, hprogress⟩

/-! ## Standing still -/

/-- Nothing of the unit is a blocker. -/
def Silent (s : Db) (u : Uuid) (x : ExecutionUnit) : Prop :=
  x.state ≠ .blocked ∧ truthy x.unavailableReason = false ∧
    ∀ d, s.planExecutionDispatches.find? u = some d → d.publishedAt ≠ none

/-- The latest discussion, if there is one, converged, and its outcome is recorded. -/
def Snapshot.Settled (snap : Snapshot) : Prop :=
  ∀ d, snap.discussion = some d → d.state = .converged ∧
    (snap.planningDecision ≠ none ∨ snap.currentRevision ≠ none)

/-- The goal stands still: it is neither completed nor cancelled, no discussion of it is open, no
unit of its current revision is dispatched, and a pass changes the state and the reason of none of
them. -/
structure Stalled (printable : Char → Bool) (env : Environment) (w : World) (g : Uuid)
    (snap : Snapshot) : Prop where
  completed : (autonomyPhase printable snap).phase ≠ .completed
  cancelled : (autonomyPhase printable snap).phase ≠ .cancelled
  closed : ∀ d ∈ w.discussionSessions, d.goalId = g → d.state ≠ .open
  idle : ∀ r rev, w.db.getCurrentRevision g = some (r, rev) → ∀ u x,
    w.db.planExecutionUnits.find? u = some x → x.planRevisionId = r → x.state ≠ .dispatched
  still : ∀ r rev, w.db.getCurrentRevision g = some (r, rev) → ∀ u x,
    w.db.planExecutionUnits.find? u = some x → x.planRevisionId = r →
      ∀ y, (scheduleReadyWork env r w.db).2.planExecutionUnits.find? u = some y →
        y.state = x.state ∧ y.unavailableReason = x.unavailableReason

/-- Every unit of the revision has come to an end. -/
def Over (s : Db) (r : Uuid) : Prop :=
  ∀ u x, s.planExecutionUnits.find? u = some x → x.planRevisionId = r →
    x.state = .completed ∨ x.state = .failed

/-- The next due unit is ready, and its routing decision can not be written. -/
def Stuck (env : Environment) (s : Db) (r : Uuid) : Prop :=
  ∃ e rest, s.schedulableUnits r = e :: rest ∧ e.2.state = .ready ∧
    ¬ (env.decisionFor e.2).Assignable s

theorem unitBlockers_eq_nil {s : Db} {row : UnitRow}
    (hdispatch : row.dispatch = s.planExecutionDispatches.find? row.executionUnitId) :
    unitBlockers printable row true = [] ↔ Silent s row.executionUnitId row.unit := by
  have hif : ∀ {c : Prop} [Decidable c] (b : Blocker), (if c then [b] else []) = [] ↔ ¬c := by
    intro c _ b
    split_ifs with hc <;> simp [hc]
  have hstate : unitDispatchState row.dispatch = .recordedUnpublished ↔
      ∃ d, row.dispatch = some d ∧ d.publishedAt = none := by
    unfold unitDispatchState
    cases row.dispatch with
    | none => simp
    | some d => by_cases hd : d.publishedAt = none <;> simp [hd]
  unfold unitBlockers Silent
  rw [← hdispatch, List.append_eq_nil_iff, List.append_eq_nil_iff, List.append_eq_nil_iff, hif, hif,
    hif, hif, hstate, Bool.not_eq_true]
  constructor
  · rintro ⟨⟨⟨hblocked, hreason⟩, hpublished⟩, -⟩
    exact ⟨hblocked, hreason, fun d hd hnone => hpublished ⟨d, hd, hnone⟩⟩
  · rintro ⟨hblocked, hreason, hpublished⟩
    refine ⟨⟨⟨hblocked, hreason⟩, ?_⟩, by simp⟩
    rintro ⟨d, hd, hnone⟩
    exact hpublished d hd hnone

theorem discussionBlockers_eq_nil (hreads : snap.Reads printable w g)
    (hclosed : ∀ d ∈ w.discussionSessions, d.goalId = g → d.state ≠ .open) :
    (snap.discussion.map (discussionBlockers printable snap)).getD [] = [] ↔ snap.Settled := by
  unfold Snapshot.Settled
  cases hd : snap.discussion with
  | none => simp
  | some d =>
    rcases hreads.discussion d hd with ⟨row, hrow, hgoal, hstate⟩
    have hopen : d.state ≠ .open := hstate ▸ hclosed row hrow hgoal
    simp only [Option.map_some, Option.getD_some, Option.some.injEq, forall_eq']
    by_cases hconverged : d.state = .converged
    · simp only [discussionBlockers, hconverged]
      by_cases hdecision : snap.planningDecision = none <;>
        by_cases hrevision : snap.currentRevision = none <;> simp [hdecision, hrevision]
    · simp [discussionBlockers, hconverged, hopen]

theorem cancelledBlocker_eq_none (hcancelled : snap.lineage.any LineageView.isCancelled = false) :
    (snap.lineage.filter LineageView.isCancelled).map cancelledBlocker = none := by
  rw [Option.map_eq_none_iff, Option.filter_eq_none_iff]
  intro l hl hc
  rw [hl, Option.any_some, hc] at hcancelled
  cases hcancelled

/-- The blockers of the units of a graph are those of the rows. -/
theorem unitsBlockers_eq_nil (hinv : Inv w.db) {graph : ExecutionGraph}
    (hgraph : w.db.planExecutionGraphs.find? r = some graph) :
    ((unitsWithTopology w printable r).flatMap fun u =>
        u.blockers.getD (unitBlockers printable u.row true)) = [] ↔
      ∀ u x, w.db.planExecutionUnits.find? u = some x → x.planRevisionId = r →
        Silent w.db u x := by
  rw [List.flatMap_eq_nil_iff]
  constructor
  · intro hall u x hx hr
    have hmem := (mem_listUnits hinv hgraph (e := (u, x))).mpr ⟨hx, hr⟩
    exact (unitBlockers_eq_nil rfl).mp (hall _ (List.mem_map_of_mem hmem))
  · intro hall v hv
    rcases List.mem_map.mp hv with ⟨e, he, rfl⟩
    rcases (mem_listUnits hinv hgraph).mp he with ⟨hx, hr⟩
    exact (unitBlockers_eq_nil rfl).mpr (hall e.1 e.2 hx hr)

theorem goalBlockers_eq_nil (hinv : Inv w.db) (hsnap : goalSnapshot w printable g = some snap)
    (hcancelled : snap.lineage.any LineageView.isCancelled = false)
    (hclosed : ∀ d ∈ w.discussionSessions, d.goalId = g → d.state ≠ .open) :
    goalBlockers printable snap = [] ↔
      snap.Settled ∧ ∀ r rev, w.db.getCurrentRevision g = some (r, rev) → rev.status = .accepted ∧
        (w.db.planExecutionGraphs.find? r).isSome ∧
        ∀ u x, w.db.planExecutionUnits.find? u = some x → x.planRevisionId = r →
          Silent w.db u x := by
  have hreads := reads_goalSnapshot hinv hsnap
  unfold goalBlockers
  rw [cancelledBlocker_eq_none hcancelled, Option.toList_none, List.nil_append,
    List.append_eq_nil_iff, List.append_eq_nil_iff, discussionBlockers_eq_nil hreads hclosed,
    and_assoc]
  refine and_congr_right fun _ => ?_
  cases hcur : w.db.getCurrentRevision g with
  | none =>
    have hunits := hreads.noRevision hcur
    simp [revisionBlockers, hreads.revision, getCurrentRevision, hcur, hunits]
  | some e =>
    rcases e with ⟨r, rev⟩
    have hrevision : snap.currentRevision = some ⟨r, rev.revisionNumber, rev.status⟩ := by
      rw [hreads.revision, getCurrentRevision, hcur, Option.map_some]
    have hone : (∀ r' rev', some (r, rev) = some (r', rev') → rev'.status = .accepted ∧
        (w.db.planExecutionGraphs.find? r').isSome ∧
          ∀ u x, w.db.planExecutionUnits.find? u = some x → x.planRevisionId = r' →
            Silent w.db u x) ↔ rev.status = .accepted ∧
        (w.db.planExecutionGraphs.find? r).isSome ∧
          ∀ u x, w.db.planExecutionUnits.find? u = some x → x.planRevisionId = r →
            Silent w.db u x := by
      constructor
      · intro hall
        exact hall r rev rfl
      · intro hall r' rev' heq
        cases heq
        exact hall
    rw [hone]
    unfold revisionBlockers
    rw [hrevision]
    by_cases haccepted : rev.status = .accepted
    · cases hgraph : w.db.planExecutionGraphs.find? r with
      | none =>
        rw [hreads.graph r rev hcur, hgraph]
        simp [haccepted]
      | some graph =>
        rw [hreads.graph r rev hcur, hgraph, hreads.units r rev graph hcur hgraph,
          unitsBlockers_eq_nil hinv hgraph]
        simp [haccepted]
    · simp [haccepted]

/-- An accepted current revision with a graph takes new work, unless its lineage is cancelled. -/
theorem open_of_current (hinv : Inv w.db) (hreads : snap.Reads printable w g)
    (hcancelled : snap.lineage.any LineageView.isCancelled = false) {rev : PlanRevision}
    (hcur : w.db.getCurrentRevision g = some (r, rev)) (haccepted : rev.status = .accepted)
    {graph : ExecutionGraph} (hgraph : w.db.planExecutionGraphs.find? r = some graph) :
    w.db.Open r := by
  rcases current_of_getCurrentRevision hcur with ⟨hrev, hgoal, hsucc⟩
  rcases hinv.shape.materialized r graph hgraph with ⟨rev', -, hrev', hgoal', -⟩
  have heq : rev = rev' := Option.some.inj (hrev.symm.trans hrev')
  have hg : graph.goalId = g := by
    rw [← hgoal', ← heq]
    exact hgoal
  rcases Option.isSome_iff_exists.mp (hinv.shape.lineage r graph hgraph) with ⟨lin, hlin⟩
  rcases Option.isSome_iff_exists.mp (hinv.shape.lineage_item _ lin hlin) with ⟨item, hitem⟩
  rw [hg] at hlin
  have hview : snap.lineage = some ⟨lin.primaryWorkItemId, item.status, item.lifecycleState,
      item.isCancelled⟩ := by
    rw [hreads.lineage, getExecutionLineage]
    simp [hlin, hitem]
  rw [hview, Option.any_some] at hcancelled
  rw [← hgoal] at hlin
  exact ⟨hsucc, rev, lin, item, hrev, haccepted, hlin, hitem, hcancelled⟩

/-- An unassignable unit gets a text for a reason. -/
theorem truthy_unavailableReasonFor {d : RoutingDecision} (h : d.outcome ≠ .selected) :
    truthy (unavailableReasonFor d) = true := by
  unfold unavailableReasonFor
  cases hd : d.outcome with
  | selected => exact absurd hd h
  | noEligibleAgent => rfl
  | requiresHumanApproval => rfl

/-- When the units of an open revision are silent, none is dispatched and a pass moves none, they
are over or the next one is stuck. -/
theorem over_or_stuck {env : Environment} (hinv : Inv w.db) (ho : w.db.Open r)
    (hsilent : ∀ u x, w.db.planExecutionUnits.find? u = some x → x.planRevisionId = r →
      Silent w.db u x)
    (hidle : ∀ u x, w.db.planExecutionUnits.find? u = some x → x.planRevisionId = r →
      x.state ≠ .dispatched)
    (hstill : ∀ u x, w.db.planExecutionUnits.find? u = some x → x.planRevisionId = r →
      ∀ y, (scheduleReadyWork env r w.db).2.planExecutionUnits.find? u = some y →
        y.state = x.state ∧ y.unavailableReason = x.unavailableReason) :
    Over w.db r ∨ Stuck env w.db r := by
  cases hunits : w.db.schedulableUnits r with
  | nil =>
    refine Or.inl fun u x hx hr => ?_
    have hnot : (u, x) ∉ w.db.schedulableUnits r := by simp [hunits]
    rw [mem_schedulableUnits] at hnot
    have hblocked := (hsilent u x hx hr).1
    have hdispatched := hidle u x hx hr
    have hlive := hinv.books.live u x hx
    cases hstate : x.state <;> simp_all
  | cons e rest =>
    rcases e with ⟨u, x⟩
    have hmem : (u, x) ∈ w.db.schedulableUnits r := hunits ▸ List.mem_cons_self ..
    rcases mem_schedulableUnits.mp hmem with ⟨hx, hr, hdue⟩
    have ho' : w.db.Open x.planRevisionId := hr ▸ ho
    rcases hdue with hready | hassigned | ⟨hdispatched, -⟩
    · refine Or.inr ⟨(u, x), rest, hunits, hready, fun hd => ?_⟩
      -- the pass would have given the unit an owner or a reason
      rcases scheduleReadyWork_first hinv hunits (advanceUnit_ready hinv hx hready ho' hd) with
        ⟨y, hy, hmoved⟩
      rcases hstill u x hx hr y hy with ⟨hstate, hreason⟩
      rcases hmoved with hne | ⟨hne, hwhy⟩
      · exact hne (hstate.trans hready)
      · have htrue := truthy_unavailableReasonFor hne
        rw [← hwhy, hreason, (hsilent u x hx hr).2.1] at htrue
        cases htrue
    · rcases scheduleReadyWork_first hinv hunits (advanceUnit_assigned hinv hx hassigned ho') with
        ⟨y, hy, hmoved⟩
      have hstate := (hstill u x hx hr y hy).1
      rw [hmoved, hassigned] at hstate
      cases hstate
    · exact absurd hdispatched (hidle u x hx hr)

/-- **Which goals stand still without a blocker.** -/
theorem unexplained_iff {ι : Type} [DecidableEq ι] {y : PlanSys ι} (hy : PlanReachable y)
    (hw : w.db = y.db) (hsnap : goalSnapshot w printable g = some snap) {env : Environment}
    (h : Stalled printable env w g snap) :
    goalBlockers printable snap = [] ↔
      snap.Settled ∧ ∀ r rev, w.db.getCurrentRevision g = some (r, rev) → rev.status = .accepted ∧
        (w.db.planExecutionGraphs.find? r).isSome ∧
        (∀ u x, w.db.planExecutionUnits.find? u = some x → x.planRevisionId = r →
          Silent w.db u x) ∧ (Over w.db r ∨ Stuck env w.db r) := by
  have hinv := inv_of_reachable hy
  rw [← hw] at hinv
  have hreads := reads_goalSnapshot hinv hsnap
  have hcancelled : snap.lineage.any LineageView.isCancelled = false := by
    by_contra hc
    rw [Bool.not_eq_false] at hc
    refine h.cancelled ?_
    show (phaseOf printable snap).1 = .cancelled
    unfold phaseOf
    rw [if_pos hc]
  rw [goalBlockers_eq_nil hinv hsnap hcancelled h.closed]
  refine and_congr_right fun _ => ?_
  constructor
  · intro hall r rev hcur
    rcases hall r rev hcur with ⟨haccepted, hgraph, hsilent⟩
    rcases Option.isSome_iff_exists.mp hgraph with ⟨graph, hgraph'⟩
    have ho := open_of_current hinv hreads hcancelled hcur haccepted hgraph'
    exact ⟨haccepted, hgraph, hsilent,
      over_or_stuck hinv ho hsilent (h.idle r rev hcur) (h.still r rev hcur)⟩
  · intro hall r rev hcur
    rcases hall r rev hcur with ⟨haccepted, hgraph, hsilent, -⟩
    exact ⟨haccepted, hgraph, hsilent⟩

/-- The only step failed: the goal stands still, and no blocker says so. -/
theorem unexplained_iff_solo :
    ∃ snap, goalSnapshot (settled (solo .failed).db) plainText ⟨1⟩ = some snap ∧
      (autonomyPhase plainText snap).phase = .partiallyCompleted ∧
      goalBlockers plainText snap = [] := by
  have hany : (goalSnapshot (settled (solo .failed).db) plainText ⟨1⟩).any (fun snap =>
      (autonomyPhase plainText snap).phase = .partiallyCompleted ∧
        snap.planningDecision ≠ none ∧ snap.currentRevision ≠ none) = true := by decide +kernel
  have hcurrent : ((solo .failed).db.getCurrentRevision ⟨1⟩).any (fun e =>
      e.1 = ⟨2⟩ ∧ e.2.status = .accepted) = true := by decide +kernel
  have hgraph : ((solo .failed).db.planExecutionGraphs.find? ⟨2⟩).isSome = true := by
    decide +kernel
  have hrows : (solo .failed).db.planExecutionUnits.rows.all (fun e =>
      e.2.state = .failed ∧ truthy e.2.unavailableReason = false ∧
        ((solo .failed).db.planExecutionDispatches.find? e.1).all fun d => d.publishedAt ≠ none) =
        true := by decide +kernel
  have hidle : (solo .failed).db.schedulableUnits ⟨2⟩ = [] := by
    have hnil : ((solo .failed).db.schedulableUnits ⟨2⟩).isEmpty = true := by decide +kernel
    exact List.isEmpty_iff.mp hnil
  rcases (Option.any_eq_true _ _).mp hany with ⟨snap, hsnap, hdec⟩
  rcases of_decide_eq_true hdec with ⟨hphase, hdecision, hrevision⟩
  have hrev : ∀ r rev, (solo .failed).db.getCurrentRevision ⟨1⟩ = some (r, rev) →
      r = ⟨2⟩ ∧ rev.status = .accepted := by
    intro r rev hcur
    rw [hcur, Option.any_some] at hcurrent
    exact of_decide_eq_true hcurrent
  have hunit := fun u x hx => of_decide_eq_true (Table.all_rows_eq_true.mp hrows u x hx)
  have hreads := reads_goalSnapshot (inv_of_reachable (reachable_solo .failed)) hsnap
  have hclosed : ∀ d ∈ (settled (solo .failed).db).discussionSessions, d.state = .converged := by
    intro d hd
    rw [List.mem_singleton.mp hd]
  have hsame : (scheduleReadyWork (oneAgent "dev") ⟨2⟩ (solo .failed).db).2 = (solo .failed).db :=
    scheduleReadyWork_idle (inv_of_reachable (reachable_solo .failed)) hidle
  have hstalled : Stalled plainText (oneAgent "dev") (settled (solo .failed).db) ⟨1⟩ snap := by
    refine ⟨by rw [hphase]; simp, by rw [hphase]; simp, ?_, ?_, ?_⟩
    · intro d hd _
      rw [hclosed d hd]
      simp
    · intro r rev _ u x hx _
      rw [(hunit u x hx).1]
      simp
    · intro r rev hcur u x hx _ z hz
      rcases hrev r rev hcur with ⟨rfl, -⟩
      change (scheduleReadyWork _ _ (solo .failed).db).2.planExecutionUnits.find? u = some z at hz
      rw [hsame] at hz
      rw [Option.some.inj (hz.symm.trans hx)]
      exact ⟨rfl, rfl⟩
  refine ⟨snap, hsnap, hphase,
    (unexplained_iff (reachable_solo .failed) rfl hsnap hstalled).mpr ⟨?_, ?_⟩⟩
  · intro d hd
    rcases hreads.discussion d hd with ⟨row, hrow, -, hstate⟩
    exact ⟨hstate ▸ hclosed row hrow, Or.inl hdecision⟩
  · intro r rev hcur
    rcases hrev r rev hcur with ⟨rfl, haccepted⟩
    refine ⟨haccepted, hgraph, fun u x hx _ => ?_, Or.inl fun u x hx _ => Or.inr (hunit u x hx).1⟩
    rcases hunit u x hx with ⟨hstate, hreason, hpublished⟩
    refine ⟨by rw [hstate]; simp, hreason, fun d hd => ?_⟩
    exact of_decide_eq_true ((Option.all_eq_true _ _).mp hpublished d hd)

end Snapshot

end AiAgentsSwd.Autonomy
