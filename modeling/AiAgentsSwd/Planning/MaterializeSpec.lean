import AiAgentsSwd.Planning.ResultSpec

/-!
# Planning.MaterializeSpec — a plan becomes an execution graph

What `materialize` does. Each helper has its own inversion lemma; `Materialization` puts them
together: the rows of the new graph are fresh, everything older is as it was, and the new
edges are the plan's dependencies. The invariant then follows from the plan alone: its
rank makes the new edges acyclic (`validatePlanGraph_rank`), and a unit starts blocked
exactly when its step has a dependency.
-/

namespace AiAgentsSwd.Planning

open Keyed (Table Evolves)
open ReadCommitted ReadCommitted.Txn

/-! ## Helpers that insert one row -/

theorem exec_insertWorkItem {w : Uuid} {row : WorkItem} {s : Db} {o : Outcome Db RowKey Unit} :
    exec (insertWorkItem w row) s = .ok o ↔
      s.projectWorkItems.find? w = none ∧
        o = ⟨(), { s with projectWorkItems := s.projectWorkItems.insert w row }, [.workItem w]⟩ := by
  simp only [insertWorkItem, bind_eq, lockRow_bind, select_bind, exec_lock_ok, exec_query]
  cases s.projectWorkItems.find? w with
  | none => simp [Txn.modify]
  | some i => simp

theorem exec_insertExecutionGraph {r : Uuid} {row : ExecutionGraph} {s : Db}
    {o : Outcome Db RowKey Unit} :
    exec (insertExecutionGraph r row) s = .ok o ↔
      s.planExecutionGraphs.find? r = none ∧
        o = ⟨(), { s with planExecutionGraphs := s.planExecutionGraphs.insert r row },
          [.executionGraph r]⟩ := by
  simp only [insertExecutionGraph, bind_eq, lockRow_bind, select_bind, exec_lock_ok, exec_query]
  cases s.planExecutionGraphs.find? r with
  | none => simp [Txn.modify]
  | some g => simp

theorem exec_insertExecutionUnit {u : Uuid} {row : ExecutionUnit} {s : Db}
    {o : Outcome Db RowKey Unit} :
    exec (insertExecutionUnit u row) s = .ok o ↔
      btrimNonempty row.stepKey ∧ s.planExecutionUnits.find? u = none ∧
        o = ⟨(), { s with planExecutionUnits := s.planExecutionUnits.insert u row },
          [.executionUnit u]⟩ := by
  unfold insertExecutionUnit
  by_cases hk : btrimNonempty row.stepKey
  swap
  · simp [hk]
  simp only [hk, not_true, if_false, bind_eq, lockRow_bind, select_bind, exec_lock_ok, exec_query]
  cases s.planExecutionUnits.find? u with
  | none => simp [Txn.modify]
  | some x => simp

/-- The lineage of the goal after `_ensure_execution_lineage`. -/
structure LineageEnsured (s t : Db) (l : List RowKey) (goalId projectId : Uuid)
    (row : ExecutionLineage) : Prop where
  state : ∃ W L, t = { s with projectWorkItems := W, goalExecutionLineage := L }
  row : t.goalExecutionLineage.find? goalId = some row
  lineages : Evolves RowKey.executionLineage (fun x y => y = x) l
    s.goalExecutionLineage t.goalExecutionLineage
  items : Evolves RowKey.workItem (fun x y => y = x) l s.projectWorkItems t.projectWorkItems
  lineage_new : ∀ g x, s.goalExecutionLineage.find? g = none →
    t.goalExecutionLineage.find? g = some x → g = goalId ∧ x.projectId = projectId ∧
      (t.projectWorkItems.find? x.primaryWorkItemId).isSome

theorem exec_ensureExecutionLineage {g p w : Uuid} {statement : String} {s : Db}
    {o : Outcome Db RowKey ExecutionLineage}
    (h : exec (ensureExecutionLineage g p statement w) s = .ok o) :
    LineageEnsured s o.state o.locks g p o.value := by
  simp only [ensureExecutionLineage, bind_eq, select_bind, exec_query] at h
  cases hl : s.goalExecutionLineage.find? g with
  | some row =>
    simp only [hl, pure_eq, exec_done, Except.ok.injEq] at h
    subst h
    refine ⟨⟨_, _, rfl⟩, hl, .refl fun _ => rfl, .refl fun _ => rfl, ?_⟩
    intro g' x hn hx
    rw [hn] at hx
    cases hx
  | none =>
    simp only [hl, exec_bind_ok (p := insertWorkItem _ _), exec_insertWorkItem] at h
    rcases h with ⟨_, _, ⟨hw, rfl⟩, h, rfl⟩
    simp only [lockRow_bind, exec_lock_ok, exec_query, hl, Option.isSome_none,
      Bool.false_eq_true, if_false, modify_bind, exec_write, pure_eq, exec_done,
      Except.ok.injEq] at h
    rcases h with ⟨_, rfl, rfl⟩
    refine ⟨⟨_, _, rfl⟩, Table.find?_insert_self .., .insert (fun _ => rfl) hl (by simp),
      .insert (fun _ => rfl) hw (by simp), ?_⟩
    intro g' x hn hx
    by_cases hg : g' = g
    · subst hg
      rw [Table.find?_insert_self] at hx
      cases hx
      exact ⟨rfl, rfl, by simp⟩
    · rw [Table.find?_insert_of_ne _ _ hg, hn] at hx
      cases hx

/-! ## The two loops -/

/-- What inserting the units of `steps` does. -/
structure UnitsInserted (m : MaterializeContext) (steps : List PlanStep) (s t : Db)
    (l : List RowKey) : Prop where
  state : ∃ W U, t = { s with projectWorkItems := W, planExecutionUnits := U }
  items : Evolves RowKey.workItem (fun x y => y = x) l s.projectWorkItems t.projectWorkItems
  units : Evolves RowKey.executionUnit (fun x y => y = x) l
    s.planExecutionUnits t.planExecutionUnits
  step_item : ∀ st ∈ steps, s.projectWorkItems.find? (m.ids.workItemId st.stepKey) = none ∧
    t.projectWorkItems.find? (m.ids.workItemId st.stepKey) = some (m.workItem st)
  step_unit : ∀ st ∈ steps, s.planExecutionUnits.find? (m.ids.executionUnitId st.stepKey) = none ∧
    t.planExecutionUnits.find? (m.ids.executionUnitId st.stepKey) = some (m.unit st)
  unit_back : ∀ u y, t.planExecutionUnits.find? u = some y →
    s.planExecutionUnits.find? u = some y ∨
      ∃ st ∈ steps, u = m.ids.executionUnitId st.stepKey ∧ y = m.unit st
  item_inj : (steps.map fun st => m.ids.workItemId st.stepKey).Nodup
  unit_inj : (steps.map fun st => m.ids.executionUnitId st.stepKey).Nodup

/-- Inserting the unit of one more step first. -/
theorem UnitsInserted.cons {m : MaterializeContext} {st : PlanStep} {steps : List PlanStep}
    {s t : Db} {l l' : List RowKey}
    (hw : s.projectWorkItems.find? (m.ids.workItemId st.stepKey) = none)
    (hu : s.planExecutionUnits.find? (m.ids.executionUnitId st.stepKey) = none)
    (h : UnitsInserted m steps { s with
      projectWorkItems := s.projectWorkItems.insert (m.ids.workItemId st.stepKey) (m.workItem st)
      planExecutionUnits :=
        s.planExecutionUnits.insert (m.ids.executionUnitId st.stepKey) (m.unit st) } t l')
    (hl : l' ⊆ l) (hlw : .workItem (m.ids.workItemId st.stepKey) ∈ l)
    (hlu : .executionUnit (m.ids.executionUnitId st.stepKey) ∈ l) :
    UnitsInserted m (st :: steps) s t l := by
  have hi₁ : Evolves RowKey.workItem (fun x y => y = x) l s.projectWorkItems
      (s.projectWorkItems.insert (m.ids.workItemId st.stepKey) (m.workItem st)) :=
    .insert (fun _ => rfl) hw hlw
  have hu₁ : Evolves RowKey.executionUnit (fun x y => y = x) l s.planExecutionUnits
      (s.planExecutionUnits.insert (m.ids.executionUnitId st.stepKey) (m.unit st)) :=
    .insert (fun _ => rfl) hu hlu
  have htrans : ∀ {R : Type} (x y z : R), y = x → z = y → z = x := by
    intro R x y z hxy hyz
    exact hyz.trans hxy
  refine ⟨?_, hi₁.trans htrans (h.items.mono hl), hu₁.trans htrans (h.units.mono hl),
    ?_, ?_, ?_, ?_, ?_⟩
  · rcases h.state with ⟨W, U, rfl⟩
    exact ⟨W, U, rfl⟩
  · intro st' hst'
    rcases List.mem_cons.mp hst' with rfl | hst'
    · exact ⟨hw, h.items.find_eq (Table.find?_insert_self ..)⟩
    · rcases h.step_item st' hst' with ⟨hn, hs⟩
      exact ⟨hi₁.find_none hn, hs⟩
  · intro st' hst'
    rcases List.mem_cons.mp hst' with rfl | hst'
    · exact ⟨hu, h.units.find_eq (Table.find?_insert_self ..)⟩
    · rcases h.step_unit st' hst' with ⟨hn, hs⟩
      exact ⟨hu₁.find_none hn, hs⟩
  · intro u y hy
    rcases h.unit_back u y hy with hy | ⟨st', hst', heq⟩
    · by_cases hk : u = m.ids.executionUnitId st.stepKey
      · subst hk
        rw [Table.find?_insert_self] at hy
        cases hy
        exact Or.inr ⟨st, List.mem_cons_self .., rfl, rfl⟩
      · rw [Table.find?_insert_of_ne _ _ hk] at hy
        exact Or.inl hy
    · exact Or.inr ⟨st', List.mem_cons_of_mem _ hst', heq⟩
  · -- the later ids were still free after the first insert
    rw [List.map_cons, List.nodup_cons]
    refine ⟨?_, h.item_inj⟩
    intro hmem
    rcases List.mem_map.mp hmem with ⟨st', hst', heq⟩
    have hn := (h.step_item st' hst').1
    rw [heq, Table.find?_insert_self] at hn
    cases hn
  · rw [List.map_cons, List.nodup_cons]
    refine ⟨?_, h.unit_inj⟩
    intro hmem
    rcases List.mem_map.mp hmem with ⟨st', hst', heq⟩
    have hn := (h.step_unit st' hst').1
    rw [heq, Table.find?_insert_self] at hn
    cases hn

theorem exec_insertUnits {m : MaterializeContext} {steps : List PlanStep} {s : Db}
    {o : Outcome Db RowKey (List (String × Uuid) × List (Uuid × ExecutionUnit))}
    (h : exec (insertUnits m steps) s = .ok o) :
    UnitsInserted m steps s o.state o.locks ∧
      o.value.1 = steps.map (fun st => (st.stepKey, m.ids.workItemId st.stepKey)) ∧
      o.value.2 = steps.map (fun st => (m.ids.executionUnitId st.stepKey, m.unit st)) := by
  induction steps generalizing s o with
  | nil =>
    simp only [insertUnits, pure_eq, exec_done, Except.ok.injEq] at h
    subst h
    refine ⟨⟨⟨_, _, rfl⟩, .refl fun _ => rfl, .refl fun _ => rfl, by simp, by simp,
      fun _ _ h => Or.inl h, by simp, by simp⟩, rfl, rfl⟩
  | cons st steps ih =>
    simp only [insertUnits, bind_eq, exec_bind_ok, exec_insertWorkItem,
      exec_insertExecutionUnit] at h
    rcases h with ⟨_, _, ⟨hw, rfl⟩, ⟨_, _, ⟨-, hu, rfl⟩, ⟨o₁, _, h₁, h₂, rfl⟩, rfl⟩, rfl⟩
    simp only [pure_eq, exec_done, Except.ok.injEq] at h₂
    subst h₂
    dsimp only at hu h₁
    rcases ih h₁ with ⟨hi, hv₁, hv₂⟩
    refine ⟨?_, by simp [hv₁], by simp [hv₂]⟩
    apply UnitsInserted.cons hw hu hi
    · intro k hk
      simp [hk]
    · simp
    · simp

theorem exec_insertDependency {d : Dependency} {s : Db} {o : Outcome Db RowKey Unit}
    (h : exec (insertDependency d) s = .ok o) :
    (o.state = s ∨ o.state =
      { s with workItemDependencies := s.workItemDependencies ++ [d] }) ∧
      o.state.DependsOn d.workItemId d.dependsOnWorkItemId := by
  simp only [insertDependency, bind_eq, lockRow_bind, select_bind, exec_lock_ok,
    exec_query] at h
  rcases h with ⟨_, h, rfl⟩
  cases hc : s.workItemDependencies.any fun e =>
      e.workItemId = d.workItemId ∧ e.dependsOnWorkItemId = d.dependsOnWorkItemId with
  | true =>
    simp only [hc, if_true, pure_eq, exec_done, Except.ok.injEq] at h
    subst h
    rcases List.any_eq_true.mp hc with ⟨e, he, heq⟩
    exact ⟨Or.inl rfl, e, he, of_decide_eq_true heq⟩
  | false =>
    simp only [hc, Bool.false_eq_true, if_false, Txn.modify, exec_write, exec_done,
      Except.ok.injEq] at h
    subst h
    exact ⟨Or.inr rfl, d, by simp, rfl, rfl⟩

/-- The edges the second loop leaves: exactly the declared ones are new. -/
theorem exec_insertDependencies {p : Uuid} {byStep : List (String × Uuid)}
    {edges : List (String × String)} {s : Db} {o : Outcome Db RowKey Unit}
    (h : exec (insertDependencies p byStep edges) s = .ok o) :
    (∃ new, o.state = { s with workItemDependencies := s.workItemDependencies ++ new } ∧
      ∀ d ∈ new, ∃ e ∈ edges, byStep.lookup e.1 = some d.workItemId ∧
        byStep.lookup e.2 = some d.dependsOnWorkItemId) ∧
      ∀ e ∈ edges, ∃ w d, byStep.lookup e.1 = some w ∧ byStep.lookup e.2 = some d ∧
        o.state.DependsOn w d := by
  induction edges generalizing s o with
  | nil =>
    simp only [insertDependencies, pure_eq, exec_done, Except.ok.injEq] at h
    subst h
    exact ⟨⟨[], by simp, by simp⟩, by simp⟩
  | cons e edges ih =>
    rcases e with ⟨k, parent⟩
    simp only [insertDependencies] at h
    cases hk : byStep.lookup k with
    | none => simp [hk] at h
    | some w =>
      cases hp : byStep.lookup parent with
      | none => simp [hk, hp] at h
      | some d =>
        simp only [hk, hp, bind_eq, exec_bind_ok] at h
        rcases h with ⟨o₁, o₂, h₁, h₂, rfl⟩
        rcases exec_insertDependency h₁ with ⟨hs₁, hdep⟩
        rcases ih h₂ with ⟨⟨new, hnew, hsrc⟩, hall⟩
        dsimp only at *
        refine ⟨?_, ?_⟩
        · rcases hs₁ with hs₁ | hs₁
          · refine ⟨new, by rw [hnew, hs₁], fun d' hd' => ?_⟩
            rcases hsrc d' hd' with ⟨e, he, heq⟩
            exact ⟨e, List.mem_cons_of_mem _ he, heq⟩
          · refine ⟨⟨p, w, d, "blocks"⟩ :: new, by rw [hnew, hs₁]; simp, fun d' hd' => ?_⟩
            rcases List.mem_cons.mp hd' with rfl | hd'
            · exact ⟨(k, parent), List.mem_cons_self .., hk, hp⟩
            · rcases hsrc d' hd' with ⟨e, he, heq⟩
              exact ⟨e, List.mem_cons_of_mem _ he, heq⟩
        · intro e he
          rcases List.mem_cons.mp he with rfl | he
          · refine ⟨w, d, hk, hp, ?_⟩
            rcases hdep with ⟨x, hx, heq⟩
            refine ⟨x, ?_, heq⟩
            rw [hnew]
            exact List.mem_append_left _ hx
          · exact hall e he

/-! ## The whole transaction -/

/-- What materializing `plan` does. -/
structure Materialization (m : MaterializeContext) (plan : PlanContent) (s t : Db)
    (l : List RowKey) : Prop where
  goal : ∃ goal, s.goals.find? m.goalId = some goal ∧ goal.projectId = m.projectId
  revision : ∃ rev, s.planRevisions.find? m.planRevisionId = some rev ∧
    rev.goalId = m.goalId ∧ rev.status = .accepted ∧ planFromRevision rev = .ok plan
  current : s.successorOf m.planRevisionId = none
  no_graph : s.planExecutionGraphs.find? m.planRevisionId = none
  state : ∃ W L U new b, t = { s with
    projectWorkItems := W
    goalExecutionLineage := L
    planExecutionGraphs := s.planExecutionGraphs.insert m.planRevisionId
      ⟨m.ids.planExecutionGraphId, m.projectId, m.goalId, plan.steps.length, b⟩
    planExecutionUnits := U
    workItemDependencies := s.workItemDependencies ++ new } ∧
    ∀ d ∈ new, ∃ st ∈ plan.steps, ∃ p ∈ st.dependsOn,
      d.workItemId = m.ids.workItemId st.stepKey ∧ d.dependsOnWorkItemId = m.ids.workItemId p
  edges : ∀ st ∈ plan.steps, ∀ p ∈ st.dependsOn,
    t.DependsOn (m.ids.workItemId st.stepKey) (m.ids.workItemId p)
  items : Evolves RowKey.workItem (fun x y => y = x) l s.projectWorkItems t.projectWorkItems
  units : Evolves RowKey.executionUnit (fun x y => y = x) l
    s.planExecutionUnits t.planExecutionUnits
  lineages : Evolves RowKey.executionLineage (fun x y => y = x) l
    s.goalExecutionLineage t.goalExecutionLineage
  lineage_row : (t.goalExecutionLineage.find? m.goalId).isSome
  lineage_new : ∀ g x, s.goalExecutionLineage.find? g = none →
    t.goalExecutionLineage.find? g = some x → g = m.goalId ∧ x.projectId = m.projectId ∧
      (t.projectWorkItems.find? x.primaryWorkItemId).isSome
  step_item : ∀ st ∈ plan.steps, s.projectWorkItems.find? (m.ids.workItemId st.stepKey) = none ∧
    t.projectWorkItems.find? (m.ids.workItemId st.stepKey) = some (m.workItem st)
  step_unit : ∀ st ∈ plan.steps,
    s.planExecutionUnits.find? (m.ids.executionUnitId st.stepKey) = none ∧
      t.planExecutionUnits.find? (m.ids.executionUnitId st.stepKey) = some (m.unit st)
  unit_back : ∀ u y, t.planExecutionUnits.find? u = some y →
    s.planExecutionUnits.find? u = some y ∨
      ∃ st ∈ plan.steps, u = m.ids.executionUnitId st.stepKey ∧ y = m.unit st
  item_inj : (plan.steps.map fun st => m.ids.workItemId st.stepKey).Nodup
  unit_inj : (plan.steps.map fun st => m.ids.executionUnitId st.stepKey).Nodup
  locks : .project m.projectId ∈ l ∧ .executionGraph m.planRevisionId ∈ l

/-- The map from step keys to work items finds a step's own work item. -/
theorem lookup_stepItems {f : String → Uuid} {steps : List PlanStep} {k : String} {w : Uuid}
    (h : (steps.map fun st => (st.stepKey, f st.stepKey)).lookup k = some w) : w = f k := by
  induction steps with
  | nil => simp at h
  | cons st steps ih =>
    rw [List.map_cons, List.lookup_cons] at h
    by_cases hk : k = st.stepKey
    · subst hk
      simpa using h.symm
    · have hb : (k == st.stepKey) = false := by simpa using hk
      rw [hb] at h
      exact ih h

theorem exec_materialize {goalId r b : Uuid} {ids : MaterializeIds} {s : Db}
    {o : Outcome Db RowKey MaterializedGraph}
    (h : exec (materialize goalId r b ids) s = .ok o) :
    ∃ m plan, m.goalId = goalId ∧ m.planRevisionId = r ∧ m.ids = ids ∧
      Materialization m plan s o.state o.locks ∧ o.value.created = true := by
  simp only [materialize, bind_eq, select_bind, exec_query] at h
  cases hg : s.goals.find? goalId with
  | none => simp [hg] at h
  | some goal =>
    simp only [hg, lockProject, lockRow_bind, exec_lock_ok, exec_bind_ok,
      exec_confirmDispatchableRevision] at h
    rcases h with ⟨_, ⟨_, _, ⟨row, hrow, hgoal, hcur, hacc, rfl⟩, h, rfl⟩, rfl⟩
    dsimp only at h
    cases hplan : planFromRevision row with
    | error e => simp [hplan] at h
    | ok plan =>
      simp only [hplan, exec_bind_ok, exec_insertExecutionGraph] at h
      rcases h with ⟨o₁, _, h₁, ⟨_, _, ⟨hng, rfl⟩, ⟨o₂, _, h₂, ⟨o₃, _, h₃, h₄, rfl⟩, rfl⟩, rfl⟩, rfl⟩
      simp only [pure_eq, exec_done, Except.ok.injEq] at h₄
      subst h₄
      rcases o₁ with ⟨lineage, t₁, l₁⟩
      rcases o₂ with ⟨byStep, t₂, l₂⟩
      rcases o₃ with ⟨u₃, t₃, l₃⟩
      dsimp only at h₁ h₂ h₃ hng ⊢
      have hle := exec_ensureExecutionLineage h₁
      rcases hle.state with ⟨W₁, L, hs₁⟩
      rcases exec_insertUnits h₂ with ⟨hui, hv₁, -⟩
      rcases hui.state with ⟨W, U, hs₂⟩
      rcases exec_insertDependencies h₃ with ⟨⟨new, hs₃, hsrc⟩, hall⟩
      dsimp only at hs₁ hs₂ hs₃ hv₁ hsrc hall
      rw [hv₁] at hsrc hall
      subst hs₁
      subst hs₂
      subst hs₃
      refine ⟨⟨goalId, r, goal.projectId, row.revisionNumber, lineage.primaryWorkItemId, ids⟩,
        plan, rfl, rfl, rfl, ?_, rfl⟩
      have htrans : ∀ {R : Type} (x y z : R), y = x → z = y → z = x := by
        intro R x y z hxy hyz
        exact hyz.trans hxy
      have hitems : Evolves RowKey.workItem (fun x y => y = x) (l₁ ++ l₂) s.projectWorkItems W :=
        (hle.items.mono (List.subset_append_left _ _)).trans htrans
          (hui.items.mono (List.subset_append_right _ _))
      refine
        { goal := ⟨goal, hg, rfl⟩
          revision := ⟨row, hrow, hgoal, hacc, hplan⟩
          current := hcur
          no_graph := hng
          state := ⟨W, L, U, new, b, rfl, ?_⟩
          edges := ?_
          items := hitems.mono ?_
          units := hui.units.mono ?_
          lineages := hle.lineages.mono ?_
          lineage_row := ?_
          lineage_new := ?_
          step_item := ?_
          step_unit := hui.step_unit
          unit_back := hui.unit_back
          item_inj := hui.item_inj
          unit_inj := hui.unit_inj
          locks := ?_ }
      · intro d hd
        rcases hsrc d hd with ⟨e, he, h1, h2⟩
        rcases List.mem_flatMap.mp he with ⟨st, hst, hmem⟩
        rcases List.mem_map.mp hmem with ⟨p, hp, rfl⟩
        exact ⟨st, hst, p, hp, lookup_stepItems h1, lookup_stepItems h2⟩
      · intro st hst p hp
        have he : (st.stepKey, p) ∈ planDependencyEdges plan :=
          List.mem_flatMap.mpr ⟨st, hst, List.mem_map.mpr ⟨p, hp, rfl⟩⟩
        rcases hall _ he with ⟨w, d, h1, h2, hdep⟩
        rw [lookup_stepItems h1, lookup_stepItems h2] at hdep
        exact hdep
      · intro k hk
        rcases List.mem_append.mp hk with hk | hk <;> simp [hk]
      · intro k hk
        simp [hk]
      · intro k hk
        simp [hk]
      · rw [Option.isSome_iff_exists]
        exact ⟨_, hle.row⟩
      · intro g x hn hx
        rcases hle.lineage_new g x hn hx with ⟨rfl, hp, hw⟩
        refine ⟨rfl, hp, ?_⟩
        rcases Option.isSome_iff_exists.mp hw with ⟨i, hi⟩
        exact Option.isSome_iff_exists.mpr ⟨i, hui.items.find_eq hi⟩
      · intro st hst
        rcases hui.step_item st hst with ⟨hn, hs⟩
        exact ⟨hle.items.find_none hn, hs⟩
      · simp

/-! ## The guarantee -/

theorem Materialization.guarantee {m : MaterializeContext} {plan : PlanContent} {s t : Db}
    {l : List RowKey} (h : Materialization m plan s t l) : Guarantee l s t := by
  have hitem : ∀ st ∈ plan.steps, .workItem (m.ids.workItemId st.stepKey) ∈ l := by
    intro st hst
    rcases h.step_item st hst with ⟨hn, hs⟩
    exact h.items.locks _ _ hn hs
  have hunits := h.units
  have hitems := h.items
  have hlineages := h.lineages
  have hlnew := h.lineage_new
  have hback := h.unit_back
  rcases h.state with ⟨W, L, U, new, b, rfl, hnew⟩
  -- a unit of the old state is unchanged
  have hold : ∀ u x y, s.planExecutionUnits.find? u = some x → U.find? u = some y → y = x := by
    intro u x y hx hy
    have hy' := hunits.find_eq hx
    rw [hy] at hy'
    exact Option.some.inj hy'
  refine { Guarantee.refl l s with
    items := ⟨fun w x hx => ?_, hitems.locks⟩
    edges := ⟨new, rfl, ?_⟩
    lineages := hlineages
    lineage_new := ?_
    graphs := .insert (fun _ => rfl) h.no_graph h.locks.2
    graph_new := ?_
    units := ⟨fun u x hx => ?_, hunits.locks⟩
    unit_new := ?_
    assign := ?_
    complete := ?_ }
  · rcases hitems.keeps w x hx with ⟨y, hy, -, hch⟩
    exact ⟨y, hy, trivial, hch⟩
  · intro d hd
    rcases hnew d hd with ⟨st, hst, p, -, hw, -⟩
    rw [hw]
    exact ⟨hitem st hst, (h.step_item st hst).1⟩
  · intro g x hn hx
    rcases hlnew g x hn hx with ⟨-, hp, -⟩
    rw [hp]
    exact h.locks.1
  · intro r g hn hg
    by_cases hr : r = m.planRevisionId
    · rw [hr]
      exact h.current
    · rw [Table.find?_insert_of_ne _ _ hr, hn] at hg
      cases hg
  · exact ⟨x, hunits.find_eq hx, .refl x, Or.inl rfl⟩
  · intro u y hn hy
    rcases hback u y hy with hy | ⟨st, hst, rfl, rfl⟩
    · rw [hn] at hy
      cases hy
    · exact ⟨h.no_graph, (h.step_item st hst).1⟩
  · intro u x y hx hy hready hne
    rw [hold u x y hx hy] at hne
    exact absurd hready hne
  · intro u x y hx hy hne hdone
    rw [hold u x y hx hy] at hdone
    exact absurd hdone hne

/-! ## The invariant -/

namespace Materialization

variable {m : MaterializeContext} {plan : PlanContent} {s t : Db} {l : List RowKey}

/-- A step of the plan has one work item, and no other step has it. -/
theorem step_eq (h : Materialization m plan s t l) {st st' : PlanStep} (hst : st ∈ plan.steps)
    (hst' : st' ∈ plan.steps)
    (heq : m.ids.workItemId st.stepKey = m.ids.workItemId st'.stepKey) : st = st' :=
  List.inj_on_of_nodup_map h.item_inj hst hst' heq

/-- A declared dependency is a step. -/
theorem step_of_dependency {st : PlanStep} {p : String} (hst : st ∈ plan.steps)
    (hp : p ∈ st.dependsOn) : ∃ st' ∈ plan.steps, st'.stepKey = p :=
  List.mem_map.mp (plan.known st hst p hp).1

theorem dependsOn (h : Materialization m plan s t l) (w d : Uuid) :
    t.DependsOn w d ↔ s.DependsOn w d ∨ ∃ st ∈ plan.steps, ∃ p ∈ st.dependsOn,
      w = m.ids.workItemId st.stepKey ∧ d = m.ids.workItemId p := by
  have hedges := h.edges
  rcases h.state with ⟨W, L, U, new, b, rfl, hnew⟩
  constructor
  · rintro ⟨e, he, rfl, rfl⟩
    rcases List.mem_append.mp he with he | he
    · exact Or.inl ⟨e, he, rfl, rfl⟩
    · exact Or.inr (hnew e he)
  · rintro (⟨e, he, heq⟩ | ⟨st, hst, p, hp, rfl, rfl⟩)
    · exact ⟨e, List.mem_append_left _ he, heq⟩
    · exact hedges st hst p hp

/-- A work item that was there before has the edges it had. -/
theorem dependsOn_old (h : Materialization m plan s t l) {w : Uuid}
    (hw : (s.projectWorkItems.find? w).isSome) (d : Uuid) : t.DependsOn w d ↔ s.DependsOn w d := by
  rw [h.dependsOn]
  constructor
  · rintro (hd | ⟨st, hst, p, hp, rfl, rfl⟩)
    · exact hd
    · rw [(h.step_item st hst).1] at hw
      cases hw
  · exact Or.inl

/-- The work item of a step has the edges its step declares. -/
theorem dependsOn_step (h : Materialization m plan s t l) (hs : Shape s) {st : PlanStep}
    (hst : st ∈ plan.steps) (d : Uuid) :
    t.DependsOn (m.ids.workItemId st.stepKey) d ↔ ∃ p ∈ st.dependsOn, d = m.ids.workItemId p := by
  rw [h.dependsOn]
  constructor
  · rintro (hd | ⟨st', hst', p, hp, heq, rfl⟩)
    · have hw := (hs.edge_items _ _ hd).1
      rw [(h.step_item st hst).1] at hw
      cases hw
    · rw [h.step_eq hst hst' heq]
      exact ⟨p, hp, rfl⟩
  · rintro ⟨p, hp, rfl⟩
    exact Or.inr ⟨st, hst, p, hp, rfl, rfl⟩

theorem item_isSome (h : Materialization m plan s t l) {w : Uuid}
    (hw : (s.projectWorkItems.find? w).isSome) : (t.projectWorkItems.find? w).isSome := by
  rcases Option.isSome_iff_exists.mp hw with ⟨i, hi⟩
  exact Option.isSome_iff_exists.mpr ⟨i, h.items.find_eq hi⟩

theorem step_item_isSome (h : Materialization m plan s t l) {st : PlanStep}
    (hst : st ∈ plan.steps) :
    (t.projectWorkItems.find? (m.ids.workItemId st.stepKey)).isSome := by
  rw [(h.step_item st hst).2]
  rfl

theorem dependency_item_isSome (h : Materialization m plan s t l) {st : PlanStep} {p : String}
    (hst : st ∈ plan.steps) (hp : p ∈ st.dependsOn) :
    (t.projectWorkItems.find? (m.ids.workItemId p)).isSome := by
  rcases step_of_dependency hst hp with ⟨st', hst', rfl⟩
  exact h.step_item_isSome hst'

/-- A new unit is not completed, so no work item becomes completed. -/
theorem completedItem (h : Materialization m plan s t l) (w : Uuid) :
    t.CompletedItem w ↔ s.CompletedItem w := by
  constructor
  · rintro ⟨v, y, hy, hw, hc⟩
    rcases h.unit_back v y hy with hy | ⟨st, hst, rfl, rfl⟩
    · exact ⟨v, y, hy, hw, hc⟩
    · have hst : (m.unit st).state = initialState st := rfl
      rw [hst, initialState] at hc
      split_ifs at hc
  · rintro ⟨v, y, hy, hw, hc⟩
    exact ⟨v, y, h.units.find_eq hy, hw, hc⟩

/-- The rank of the new graph, over that of the older ones. -/
theorem acyclic (h : Materialization m plan s t l) (hs : Shape s)
    (hplan : validatePlanGraph plan = .ok ()) :
    ∃ rank : Uuid → Nat, ∀ u x d, t.planExecutionUnits.find? u = some x →
      t.DependsOn x.workItemId d → rank d < rank x.workItemId := by
  rcases hs.acyclic with ⟨rank, hrank⟩
  rcases (validatePlanGraph_rank hplan).2 with ⟨r, hr⟩
  let step? (w : Uuid) := plan.steps.find? fun st => m.ids.workItemId st.stepKey = w
  have hnew : ∀ st ∈ plan.steps, step? (m.ids.workItemId st.stepKey) = some st := by
    intro st hst
    cases hf : step? (m.ids.workItemId st.stepKey) with
    | none =>
      have hno := List.find?_eq_none.mp hf st hst
      simp at hno
    | some st' =>
      have hmem := List.mem_of_find?_eq_some hf
      have heq : m.ids.workItemId st'.stepKey = m.ids.workItemId st.stepKey := by
        simpa using List.find?_some hf
      rw [h.step_eq hmem hst heq]
  have hold : ∀ w, (s.projectWorkItems.find? w).isSome → step? w = none := by
    intro w hw
    apply List.find?_eq_none.mpr
    intro st hst heq
    have heq : m.ids.workItemId st.stepKey = w := by simpa using heq
    rw [← heq, (h.step_item st hst).1] at hw
    cases hw
  refine ⟨fun w => ((step? w).map fun st => r st.stepKey).getD (rank w), ?_⟩
  intro u x d hx hd
  rcases h.unit_back u x hx with hx | ⟨st, hst, rfl, rfl⟩
  · have hd' := (h.dependsOn_old (hs.item u x hx) d).mp hd
    simp only [hold _ (hs.item u x hx), hold _ (hs.edge_items _ _ hd').2, Option.map_none,
      Option.getD_none]
    exact hrank u x d hx hd'
  · have hw : (m.unit st).workItemId = m.ids.workItemId st.stepKey := rfl
    rw [hw] at hd ⊢
    rcases (h.dependsOn_step hs hst d).mp hd with ⟨p, hp, rfl⟩
    rcases step_of_dependency hst hp with ⟨st', hst', rfl⟩
    simp only [hnew st hst, hnew st' hst', Option.map_some, Option.getD_some]
    exact hr st hst _ hp

/-- Two tables with the same units of a revision list the same rows for it, up to order. -/
theorem unitsOf_perm {s t : Db} {r : Uuid}
    (h : ∀ u y, y.planRevisionId = r →
      (t.planExecutionUnits.find? u = some y ↔ s.planExecutionUnits.find? u = some y)) :
    (t.unitsOf r).Perm (s.unitsOf r) := by
  unfold Db.unitsOf
  rw [List.perm_ext_iff_of_nodup (t.planExecutionUnits.nodup_rows.filter _)
    (s.planExecutionUnits.nodup_rows.filter _)]
  rintro ⟨u, y⟩
  simp only [List.mem_filter, Table.mem_rows, decide_eq_true_eq]
  constructor
  · rintro ⟨hy, hr⟩
    exact ⟨(h u y hr).mp hy, hr⟩
  · rintro ⟨hy, hr⟩
    exact ⟨(h u y hr).mpr hy, hr⟩

/-- The units of the new graph are those of the plan's steps. -/
theorem unitsOf_new (h : Materialization m plan s t l) (hs : Shape s) :
    (t.unitsOf m.planRevisionId).Perm
      (plan.steps.map fun st => (m.ids.executionUnitId st.stepKey, m.unit st)) := by
  unfold Db.unitsOf
  have hnd : (plan.steps.map fun st => (m.ids.executionUnitId st.stepKey, m.unit st)).Nodup := by
    apply List.Nodup.of_map Prod.fst
    rw [List.map_map]
    exact h.unit_inj
  rw [List.perm_ext_iff_of_nodup (t.planExecutionUnits.nodup_rows.filter _) hnd]
  rintro ⟨u, y⟩
  simp only [List.mem_filter, Table.mem_rows, decide_eq_true_eq, List.mem_map, Prod.mk.injEq]
  constructor
  · rintro ⟨hy, hr⟩
    rcases h.unit_back u y hy with hy | ⟨st, hst, rfl, rfl⟩
    · -- the revision had no graph before, so no older unit is its own
      rcases hs.graph u y hy with ⟨g, hg, -⟩
      rw [hr, h.no_graph] at hg
      cases hg
    · exact ⟨st, hst, rfl, rfl⟩
  · rintro ⟨st, hst, rfl, rfl⟩
    exact ⟨(h.step_unit st hst).2, rfl⟩

theorem shape (h : Materialization m plan s t l) (hs : Shape s)
    (hplan : validatePlanGraph plan = .ok ()) : Shape t where
  item := by
    intro u x hx
    rcases h.unit_back u x hx with hx | ⟨st, hst, rfl, rfl⟩
    · exact h.item_isSome (hs.item u x hx)
    · exact h.step_item_isSome hst
  item_inj := by
    -- an old unit's work item is old and a new unit's is new
    have hne : ∀ u x st, s.planExecutionUnits.find? u = some x → st ∈ plan.steps →
        x.workItemId ≠ (m.unit st).workItemId := by
      intro u x st hx hst heq
      have hw := hs.item u x hx
      rw [heq] at hw
      rw [show (m.unit st).workItemId = m.ids.workItemId st.stepKey from rfl,
        (h.step_item st hst).1] at hw
      cases hw
    intro u v x y hx hy heq
    rcases h.unit_back u x hx with hx | ⟨st, hst, rfl, rfl⟩
    · rcases h.unit_back v y hy with hy | ⟨st', hst', rfl, rfl⟩
      · exact hs.item_inj u v x y hx hy heq
      · exact absurd heq (hne u x st' hx hst')
    · rcases h.unit_back v y hy with hy | ⟨st', hst', rfl, rfl⟩
      · exact absurd heq.symm (hne v y st hy hst)
      · rw [h.step_eq hst hst' heq]
  edge_items := by
    intro w d hd
    rcases (h.dependsOn w d).mp hd with hd | ⟨st, hst, p, hp, rfl, rfl⟩
    · rcases hs.edge_items w d hd with ⟨hw, hd⟩
      exact ⟨h.item_isSome hw, h.item_isSome hd⟩
    · exact ⟨h.step_item_isSome hst, h.dependency_item_isSome hst hp⟩
  edge_unit := by
    intro u x d hx hd
    rcases h.unit_back u x hx with hx | ⟨st, hst, rfl, rfl⟩
    · rcases hs.edge_unit u x d hx ((h.dependsOn_old (hs.item u x hx) d).mp hd) with
        ⟨v, y, hy, hw, hr⟩
      exact ⟨v, y, h.units.find_eq hy, hw, hr⟩
    · rcases (h.dependsOn_step hs hst d).mp hd with ⟨p, hp, rfl⟩
      rcases step_of_dependency hst hp with ⟨st', hst', rfl⟩
      exact ⟨_, m.unit st', (h.step_unit st' hst').2, rfl, rfl⟩
  acyclic := h.acyclic hs hplan
  graph := by
    intro u x hx
    rcases h.state with ⟨W, L, U, new, b, ht, -⟩
    have hgraphs : t.planExecutionGraphs = s.planExecutionGraphs.insert m.planRevisionId
        ⟨m.ids.planExecutionGraphId, m.projectId, m.goalId, plan.steps.length, b⟩ := by rw [ht]
    rw [hgraphs]
    rcases h.unit_back u x hx with hx | ⟨st, hst, rfl, rfl⟩
    · rcases hs.graph u x hx with ⟨g, hg, hgoal⟩
      have hne : x.planRevisionId ≠ m.planRevisionId := by
        intro heq
        rw [heq, h.no_graph] at hg
        cases hg
      exact ⟨g, (Table.find?_insert_of_ne _ _ hne).trans hg, hgoal⟩
    · exact ⟨_, Table.find?_insert_self .., rfl⟩
  materialized := by
    intro r g hg
    rcases h.state with ⟨W, L, U, new, b, ht, -⟩
    have hrev : t.planRevisions = s.planRevisions := by rw [ht]
    have hgraphs : t.planExecutionGraphs = s.planExecutionGraphs.insert m.planRevisionId
        ⟨m.ids.planExecutionGraphId, m.projectId, m.goalId, plan.steps.length, b⟩ := by rw [ht]
    rw [hgraphs] at hg
    by_cases hr : r = m.planRevisionId
    · subst hr
      rw [Table.find?_insert_self] at hg
      cases hg
      rcases h.revision with ⟨rev, hfind, hgoal, hacc, hpl⟩
      refine ⟨rev, plan, by rw [hrev, hfind], hgoal, hacc, hpl, rfl, ?_⟩
      have hperm := (h.unitsOf_new hs).map fun e => e.2.stepKey
      rw [List.map_map] at hperm
      exact hperm
    · rw [Table.find?_insert_of_ne _ _ hr] at hg
      rcases hs.materialized r g hg with ⟨rev, pl, hfind, hgoal, hacc, hpl, hcount, hperm⟩
      refine ⟨rev, pl, by rw [hrev, hfind], hgoal, hacc, hpl, hcount, ?_⟩
      refine List.Perm.trans ((unitsOf_perm fun u y hy => ?_).map _) hperm
      constructor
      · intro hfind
        rcases h.unit_back u y hfind with hfind | ⟨st, hst, -, rfl⟩
        · exact hfind
        · exact absurd hy.symm hr
      · exact h.units.find_eq
  lineage := by
    intro r g hg
    rcases h.state with ⟨W, L, U, new, b, ht, -⟩
    have hgraphs : t.planExecutionGraphs = s.planExecutionGraphs.insert m.planRevisionId
        ⟨m.ids.planExecutionGraphId, m.projectId, m.goalId, plan.steps.length, b⟩ := by rw [ht]
    rw [hgraphs] at hg
    by_cases hr : r = m.planRevisionId
    · subst hr
      rw [Table.find?_insert_self] at hg
      cases hg
      exact h.lineage_row
    · rw [Table.find?_insert_of_ne _ _ hr] at hg
      rcases Option.isSome_iff_exists.mp (hs.lineage r g hg) with ⟨x, hx⟩
      exact Option.isSome_iff_exists.mpr ⟨x, h.lineages.find_eq hx⟩
  lineage_item := by
    intro g x hx
    cases hold : s.goalExecutionLineage.find? g with
    | none => exact (h.lineage_new g x hold hx).2.2
    | some x' =>
      rw [h.lineages.find_eq hold] at hx
      cases hx
      exact h.item_isSome (hs.lineage_item g x hold)
  lineage_goal := by
    intro g x hx
    have hgoals : t.goals = s.goals := by
      rcases h.state with ⟨W, L, U, new, b, rfl, -⟩
      rfl
    rw [hgoals]
    cases hold : s.goalExecutionLineage.find? g with
    | none =>
      rcases h.lineage_new g x hold hx with ⟨rfl, hp, -⟩
      rcases h.goal with ⟨goal, hgoal, hproj⟩
      exact ⟨goal, hgoal, hproj.trans hp.symm⟩
    | some x' =>
      rw [h.lineages.find_eq hold] at hx
      cases hx
      exact hs.lineage_goal g x hold
  routing_items := by
    intro rec hrec w hw
    have hrouting : t.agentRoutingDecisions = s.agentRoutingDecisions := by
      rcases h.state with ⟨W, L, U, new, b, rfl, -⟩
      rfl
    rw [hrouting] at hrec
    exact h.item_isSome (hs.routing_items rec hrec w hw)

/-- A new unit is blocked exactly when its step depends on something. -/
theorem gate (h : Materialization m plan s t l) (hs : Shape s) (hg : Gate s) : Gate t := by
  intro u x hx
  rcases h.unit_back u x hx with hx | ⟨st, hst, rfl, rfl⟩
  · have hiff : t.Unlocked x.workItemId ↔ s.Unlocked x.workItemId := by
      unfold Db.Unlocked
      simp only [h.dependsOn_old (hs.item u x hx), h.completedItem]
    rw [hiff]
    exact hg u x hx
  · have hstate : (m.unit st).state = initialState st := rfl
    have hw : (m.unit st).workItemId = m.ids.workItemId st.stepKey := rfl
    rw [hstate, hw, initialState]
    by_cases hdep : st.dependsOn = []
    · have hun : t.Unlocked (m.ids.workItemId st.stepKey) := by
        intro d hd
        rcases (h.dependsOn_step hs hst d).mp hd with ⟨p, hp, -⟩
        rw [hdep] at hp
        cases hp
      simp [hdep, hun]
    · simp only [hdep, if_false, true_iff]
      intro hun
      rcases List.exists_mem_of_ne_nil _ hdep with ⟨p, hp⟩
      have hc := (h.completedItem _).mp
        (hun _ ((h.dependsOn_step hs hst _).mpr ⟨p, hp, rfl⟩))
      -- the dependency's work item is new, so no older unit carries it
      rcases hc with ⟨v, y, hy, hwy, -⟩
      have hitem := hs.item v y hy
      rcases step_of_dependency hst hp with ⟨st', hst', rfl⟩
      rw [hwy, (h.step_item st' hst').1] at hitem
      cases hitem

theorem books (h : Materialization m plan s t l) (hs : Shape s) (hb : Books s) : Books t := by
  have hdisp : t.planExecutionDispatches = s.planExecutionDispatches := by
    rcases h.state with ⟨W, L, U, new, b, rfl, -⟩
    rfl
  have hsel : ∀ w, t.selectedDecisions w = s.selectedDecisions w := by
    intro w
    rcases h.state with ⟨W, L, U, new, b, rfl, -⟩
    rfl
  have hinit : ∀ st, (m.unit st).state.unowned = true ∧ (m.unit st).state ≠ .cancelled ∧
      (m.unit st).state.handedOver = false := by
    intro st
    have hstate : (m.unit st).state = initialState st := rfl
    rw [hstate, initialState]
    split_ifs <;> simp [UnitState.unowned, UnitState.handedOver]
  refine ⟨?_, ?_, ?_, ?_, ?_, ?_, ?_⟩
  · intro u x i hx hi
    rcases h.unit_back u x hx with hx | ⟨st, hst, rfl, rfl⟩
    · rcases Option.isSome_iff_exists.mp (hs.item u x hx) with ⟨i', hi'⟩
      rw [h.items.find_eq hi'] at hi
      cases hi
      exact hb.mirrored u x i hx hi'
    · have hw : (m.unit st).workItemId = m.ids.workItemId st.stepKey := rfl
      rw [hw, (h.step_item st hst).2] at hi
      cases hi
      rfl
  · intro u x hx
    rcases h.unit_back u x hx with hx | ⟨st, hst, rfl, rfl⟩
    · exact hb.live u x hx
    · exact (hinit st).2.1
  · intro u x hx hun
    rcases h.unit_back u x hx with hx | ⟨st, hst, rfl, rfl⟩
    · exact hb.owned u x hx hun
    · rw [(hinit st).1] at hun
      cases hun
  · intro u d hd
    rw [hdisp] at hd
    rcases hb.dispatch_unit u d hd with ⟨x, hx, hh, hof⟩
    exact ⟨x, h.units.find_eq hx, hh, hof⟩
  · intro u x hx hh
    rw [hdisp]
    rcases h.unit_back u x hx with hx | ⟨st, hst, rfl, rfl⟩
    · exact hb.unit_dispatch u x hx hh
    · rw [(hinit st).2.2] at hh
      cases hh
  · intro u x hx hun
    rw [hsel]
    rcases h.unit_back u x hx with hx | ⟨st, hst, rfl, rfl⟩
    · exact hb.unrouted u x hx hun
    · -- no decision was recorded for a work item that did not exist
      apply List.filter_eq_nil_iff.mpr
      intro rec hrec hsel'
      have hw : rec.workItemId = some (m.ids.workItemId st.stepKey) :=
        (of_decide_eq_true hsel').1
      have hitem := hs.routing_items rec hrec _ hw
      rw [(h.step_item st hst).1] at hitem
      cases hitem
  · intro u x hx hun
    rw [hsel]
    rcases h.unit_back u x hx with hx | ⟨st, hst, rfl, rfl⟩
    · exact hb.routed u x hx hun
    · rw [(hinit st).1] at hun
      cases hun

theorem inv (h : Materialization m plan s t l) (hinv : Inv s)
    (hplan : validatePlanGraph plan = .ok ()) : Inv t := by
  have hl : Lineage t := by
    rcases h.state with ⟨W, L, U, new, b, rfl, -⟩
    exact { hinv.revisions with }
  exact ⟨hl, h.shape hinv.shape hplan, h.gate hinv.shape hinv.gate, h.books hinv.shape hinv.books⟩

end Materialization

theorem planFromRevision_eq_ok {rev : PlanRevision} {plan : PlanContent} :
    planFromRevision rev = .ok plan ↔
      parsePlan rev.plan = .ok plan ∧ validatePlanGraph plan = .ok () := by
  unfold planFromRevision
  cases hp : parsePlan rev.plan with
  | error e => simp
  | ok plan' =>
    simp only [Except.ok.injEq]
    constructor
    · intro h
      cases hv : validatePlanGraph plan' with
      | error e => simp [hv] at h
      | ok u =>
        simp only [hv, Except.ok.injEq] at h
        subst h
        exact ⟨rfl, hv⟩
    · rintro ⟨rfl, hv⟩
      simp [hv]

theorem inv_materialize {goalId r b : Uuid} {ids : MaterializeIds} {s : Db}
    {o : Outcome Db RowKey MaterializedGraph} (hinv : Inv s)
    (h : exec (materialize goalId r b ids) s = .ok o) : Inv o.state := by
  rcases exec_materialize h with ⟨m, plan, -, -, -, hm, -⟩
  rcases hm.revision with ⟨rev, -, -, -, hplan⟩
  exact hm.inv hinv (planFromRevision_eq_ok.mp hplan).2

/-- The replay read writes nothing. -/
theorem exec_readGraph {r : Uuid} {s : Db} {o : Outcome Db RowKey (Option MaterializedGraph)}
    (h : exec (readGraph r) s = .ok o) : o.state = s := by
  simp only [readGraph, bind_eq, select_bind, exec_query] at h
  cases hg : s.planExecutionGraphs.find? r with
  | none =>
    simp only [hg, pure_eq, exec_done, Except.ok.injEq] at h
    rw [← h]
  | some g =>
    simp only [hg, exec_query] at h
    cases hl : s.goalExecutionLineage.find? g.goalId with
    | none =>
      simp only [hl, pure_eq, exec_done, Except.ok.injEq] at h
      rw [← h]
    | some x =>
      simp only [hl, pure_eq, exec_done, Except.ok.injEq] at h
      rw [← h]

end AiAgentsSwd.Planning
