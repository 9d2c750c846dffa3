import AiAgentsSwd.Planning.Isolation

/-!
# Planning.DelegationIsolation — why assignments, dispatches and materializations commit as
if alone

Every authorizing call passes the same two gates first (`stable_authorized`): it holds the
revision's lock and the primary work item's lock from then on, and the unit's own lock after
that. A materialization reads only rows under locks it has taken and edges out of work
items it has just inserted (`Framed`).
-/

namespace AiAgentsSwd.Planning

open Keyed (Table Evolves)
open ReadCommitted ReadCommitted.Txn

/-! ## The gates -/

theorem isolated_confirmDispatchableRevision {g r : Uuid} {L : List RowKey} {s : Db} :
    Isolated (confirmDispatchableRevision g r) L id s fun _ _ w _ => w = id := by
  simp only [confirmDispatchableRevision, bind_eq]
  apply isolated_confirmCurrentRevision.bind
  rintro row L' w t ⟨rfl, -⟩
  split_ifs
  · trivial
  · exact fun _ _ => rfl

theorem isolated_assertLineageNotCancelled {g : Uuid} {L : List RowKey} {s : Db} :
    Isolated (assertLineageNotCancelled g) L id s fun _ _ w _ => w = id := by
  simp only [assertLineageNotCancelled, bind_eq, select_bind]
  apply stable_query
  intro t _
  cases hl : t.goalExecutionLineage.find? g with
  | none =>
    left
    simp only [id_eq, hl]
    exact .raise _
  | some lineage =>
    right
    constructor
    · intro t' ht'
      have heq := rely_lineage ht' hl
      simp only [id_eq, hl, heq]
    · simp only [id_eq, hl, lockRow_bind, stable_lock]
      intro t _
      apply stable_query
      intro t _
      right
      constructor
      · intro t' ht'
        have heq := rely_item_locked ht' (w := lineage.primaryWorkItemId) (by simp)
        simp only [id_eq, heq]
      · cases hw : t.projectWorkItems.find? lineage.primaryWorkItemId with
        | none =>
          simp only [id_eq, hw]
          trivial
        | some w =>
          simp only [id_eq, hw]
          split_ifs
          · trivial
          · exact fun _ _ => rfl

/-- The start every authorizing call shares. Before the unit is locked only its identity
is used, which never changes. -/
theorem stable_authorized {α : Type} {Quiet : α → Prop} {u : Uuid}
    {k : Option ExecutionUnit → PlanTxn α} {s : Db} {Q : Post Db RowKey α}
    (hk : ∀ L t, .executionUnit u ∈ L →
      Stable Inv Guarantee Quiet (k (t.planExecutionUnits.find? u)) L id t Q) :
    Stable Inv Guarantee Quiet ((requireUnit u).bind fun unit =>
      (confirmDispatchableRevision unit.goalId unit.planRevisionId).bind fun _ =>
        (assertLineageNotCancelled unit.goalId).bind fun _ => (lockUnit u).bind k)
      [] id s Q := by
  simp only [requireUnit, bind_eq, select_bind, query_bind]
  apply stable_query
  intro t _
  cases hu : t.planExecutionUnits.find? u with
  | none =>
    left
    simp only [id_eq, hu, raise_bind]
    exact .raise _
  | some x =>
    right
    constructor
    · intro t' ht'
      rcases rely_unit ht' hu with ⟨y, hy, hid, -⟩
      have hg : y.goalId = x.goalId := congrArg UnitIdentity.goalId hid
      have hr : y.planRevisionId = x.planRevisionId :=
        congrArg UnitIdentity.planRevisionId hid
      simp only [id_eq, hu, hy, pure_eq, done_bind, hg, hr]
    · simp only [id_eq, hu, pure_eq, done_bind]
      apply isolated_confirmDispatchableRevision.bind
      rintro _ L₁ _ t₁ rfl
      apply isolated_assertLineageNotCancelled.bind
      rintro _ L₂ _ t₂ rfl
      simp only [lockUnit, bind_eq, lockRow_bind, lock_bind, select, query_bind, done_bind,
        stable_lock]
      intro t₃ _
      apply stable_query
      intro t₄ _
      right
      constructor
      · intro t' ht'
        have heq := rely_unit_locked ht' (u := u) (by simp)
        simp only [id_eq, heq]
      · exact hk _ t₄ (by simp)

/-! ## Writes under held locks -/

/-- A guarded update of a unit whose lock is held, over writes that keep to the unit. -/
theorem isolated_updateUnit {u : Uuid} {st : UnitState} {f : ExecutionUnit → ExecutionUnit}
    {L : List RowKey} {w : Db → Db} {s : Db} (hl : .executionUnit u ∈ L)
    (hw : ∀ t t', t.planExecutionUnits.find? u = t'.planExecutionUnits.find? u →
      (w t).planExecutionUnits.find? u = (w t').planExecutionUnits.find? u) :
    Isolated (updateUnit u st f) L w s fun b L' w' t => L ⊆ L' ∧
      ((b = none ∧ w' = w ∧
          ((w t).planExecutionUnits.find? u).any (fun x => x.state = st) = false) ∨
        (b = ((w t).planExecutionUnits.find? u).map f ∧
          w' = (fun s => { s with planExecutionUnits := s.planExecutionUnits.modify u f }) ∘ w ∧
          ((w t).planExecutionUnits.find? u).any (fun x => x.state = st) = true)) := by
  have hrow : ∀ t t', Rely Inv Guarantee L t t' →
      (w t').planExecutionUnits.find? u = (w t).planExecutionUnits.find? u := by
    intro t t' h
    exact hw t' t (rely_unit_locked h hl)
  unfold updateUnit
  refine (stable_updateWhere hrow fun t t' h => ?_).mono fun b L' w' t hq => ?_
  · simp only [Table.find?_modify_self, hrow t t' h]
  · simpa only [Table.find?_modify_self] using hq

theorem isolated_mirrorWorkItem {i : Uuid} {st : UnitState} {a r : Option String} {now : Time}
    {L : List RowKey} {w : Db → Db} {s : Db} :
    Isolated (mirrorWorkItem i st a r now) L w s fun _ L' w' _ =>
      L' = L ++ [.workItem i] ∧ w' = (fun s => { s with
        projectWorkItems := s.projectWorkItems.modify i (mirrorRow st a r now) }) ∘ w := by
  simp only [mirrorWorkItem, bind_eq, lockRow_bind, Txn.modify, stable_lock, stable_write]
  exact fun _ _ _ _ => ⟨rfl, rfl⟩

/-! ## The calls -/

theorem isolated_applyAssignment {u : Uuid} {decision : RoutingDecision}
    {auditRef : Option String} {rid : Uuid} {now : Time} {s : Db} :
    Isolated (applyAssignment u decision auditRef rid now) [] id s anyResult := by
  unfold applyAssignment
  simp only [bind_eq]
  apply stable_authorized
  intro L t hl
  cases t.planExecutionUnits.find? u with
  | none => trivial
  | some locked =>
    dsimp only
    by_cases hready : locked.state = .ready
    swap
    · rw [if_pos hready]
      exact fun _ _ => trivial
    rw [if_neg (not_not.mpr hready)]
    simp only [recordRoutingDecision, bind_eq, select_bind, query_bind]
    apply stable_query
    intro t _
    cases hv : t.routingViolation decision with
    | some e =>
      left
      simp only [id_eq, hv]
      exact .raise _
    | none =>
      right
      constructor
      · intro t' ht'
        have heq : t'.routingViolation decision = t.routingViolation decision := by
          simp only [Db.routingViolation, rely_principals ht']
        simp only [id_eq, heq]
      · simp only [id_eq, hv, modify_bind, write_bind, pure_eq, done_bind, stable_write]
        by_cases hsel : decision.outcome = .selected
        swap
        · rw [if_pos hsel]
          refine Stable.bind (isolated_updateUnit hl ?_) ?_
          · exact fun _ _ h => h
          intro b L' w' t' _
          cases b with
          | none => trivial
          | some x => exact fun _ _ => trivial
        · rw [if_neg (not_not.mpr hsel)]
          split
          · trivial
          · trivial
          · refine Stable.bind (isolated_updateUnit hl ?_) ?_
            · exact fun _ _ h => h
            intro b L' w' t' _
            cases b with
            | none => trivial
            | some x =>
              apply isolated_mirrorWorkItem.bind
              intro _ L'' w'' t'' _
              exact fun _ _ => trivial

/-- A replayed dispatch is read without its lock, since it may just be being published. -/
theorem stable_createDispatch {u : Uuid} {auditRef : Option String} {c : Uuid} {now : Time}
    {s : Db} :
    Stable Inv Guarantee Quiet (program (.createDispatch u auditRef c now)) [] id s
      fun _ _ _ _ => True := by
  unfold program createDispatch
  simp only [bind_eq, bind_assoc]
  apply stable_authorized
  intro L t hl
  cases t.planExecutionUnits.find? u with
  | none => trivial
  | some locked =>
    dsimp only
    by_cases hdisp : locked.state = .dispatched
    · simp only [hdisp, if_true, select_bind, query_bind]
      apply ReadsOnly.stable _ fun _ => rfl
      exact .query _ fun s => .done _ trivial
    rw [if_neg hdisp]
    by_cases hass : locked.state = .assigned
    swap
    · rw [if_pos hass]
      trivial
    rw [if_neg (not_not.mpr hass)]
    split
    swap
    · trivial
    simp only [insertDispatch, bind_eq, lockRow_bind, select_bind, lock_bind, query_bind,
      stable_lock]
    intro t _
    apply stable_query
    intro t _
    cases hd : t.planExecutionDispatches.find? u with
    | some d =>
      left
      simp only [id_eq, hd, Option.isSome_some, if_true, raise_bind]
      exact .raise _
    | none =>
      right
      constructor
      · intro t' ht'
        have heq := rely_dispatch_locked ht' (u := u) (by simp)
        simp only [id_eq, heq]
      · simp only [id_eq, hd, Option.isSome_none, Bool.false_eq_true, if_false, Txn.modify,
          write_bind, done_bind, stable_write, bind_assoc]
        have hlu : RowKey.executionUnit u ∈ L ++ [RowKey.dispatch u] :=
          List.mem_append_left _ hl
        refine Stable.bind (isolated_updateUnit hlu ?_) ?_
        · exact fun _ _ h => h
        intro b L' w' t' _
        cases b with
        | none => trivial
        | some x =>
          simp only [bind_assoc]
          apply isolated_mirrorWorkItem.bind
          intro _ L'' w'' t'' _
          exact fun _ _ => trivial

/-! ## Materialization -/

/-- Private writes that keep to rows: what they leave of a row depends on that row alone. -/
structure Framed (w : Db → Db) : Prop where
  items : ∀ k t t', t.projectWorkItems.find? k = t'.projectWorkItems.find? k →
    (w t).projectWorkItems.find? k = (w t').projectWorkItems.find? k
  lineages : ∀ k t t', t.goalExecutionLineage.find? k = t'.goalExecutionLineage.find? k →
    (w t).goalExecutionLineage.find? k = (w t').goalExecutionLineage.find? k
  graphs : ∀ k t t', t.planExecutionGraphs.find? k = t'.planExecutionGraphs.find? k →
    (w t).planExecutionGraphs.find? k = (w t').planExecutionGraphs.find? k
  units : ∀ k t t', t.planExecutionUnits.find? k = t'.planExecutionUnits.find? k →
    (w t).planExecutionUnits.find? k = (w t').planExecutionUnits.find? k
  edges : ∃ new, ∀ t, (w t).workItemDependencies = t.workItemDependencies ++ new

theorem Framed.id : Framed id where
  items := fun _ _ _ h => h
  lineages := fun _ _ _ h => h
  graphs := fun _ _ _ h => h
  units := fun _ _ _ h => h
  edges := ⟨[], by simp⟩

/-- Inserting a row keeps to that row. -/
theorem find?_insert_congr {R : Type} {T T' : Table Uuid R} {k : Uuid} (j : Uuid) (r : R)
    (h : T.find? k = T'.find? k) : (T.insert j r).find? k = (T'.insert j r).find? k := by
  rw [Table.find?_insert, Table.find?_insert, h]

theorem isolated_insertWorkItem {i : Uuid} {row : WorkItem} {L : List RowKey} {w : Db → Db}
    {s : Db} (hw : Framed w) : Isolated (insertWorkItem i row) L w s fun _ L' w' _ =>
      L' = L ++ [.workItem i] ∧ Framed w' := by
  simp only [insertWorkItem, bind_eq, lockRow_bind, select_bind, stable_lock]
  intro t _
  apply stable_query
  intro t _
  cases hi : (w t).projectWorkItems.find? i with
  | some x =>
    left
    simp only [Option.isSome_some, if_true]
    exact .raise _
  | none =>
    right
    constructor
    · intro t' ht'
      have heq := hw.items i t' t (rely_item_locked ht' (by simp))
      simp only [heq, hi]
    · simp only [Option.isSome_none, Bool.false_eq_true, if_false, Txn.modify, stable_write]
      refine fun _ _ => ⟨rfl, { hw with items := ?_ }⟩
      intro k t t' h
      exact find?_insert_congr i row (hw.items k t t' h)

theorem isolated_insertExecutionGraph {r : Uuid} {row : ExecutionGraph} {L : List RowKey}
    {w : Db → Db} {s : Db} (hw : Framed w) :
    Isolated (insertExecutionGraph r row) L w s fun _ _ w' _ => Framed w' := by
  simp only [insertExecutionGraph, bind_eq, lockRow_bind, select_bind, stable_lock]
  intro t _
  apply stable_query
  intro t _
  cases hi : (w t).planExecutionGraphs.find? r with
  | some x =>
    left
    simp only [Option.isSome_some, if_true]
    exact .raise _
  | none =>
    right
    constructor
    · intro t' ht'
      have heq := hw.graphs r t' t (rely_graph_locked ht' (by simp))
      simp only [heq, hi]
    · simp only [Option.isSome_none, Bool.false_eq_true, if_false, Txn.modify, stable_write]
      refine fun _ _ => { hw with graphs := ?_ }
      intro k t t' h
      exact find?_insert_congr r row (hw.graphs k t t' h)

theorem isolated_insertExecutionUnit {u : Uuid} {row : ExecutionUnit} {L : List RowKey}
    {w : Db → Db} {s : Db} (hw : Framed w) :
    Isolated (insertExecutionUnit u row) L w s fun _ _ w' _ => Framed w' := by
  unfold insertExecutionUnit
  by_cases hk : btrimNonempty row.stepKey
  swap
  · rw [if_pos hk]
    trivial
  rw [if_neg (not_not.mpr hk)]
  simp only [bind_eq, lockRow_bind, select_bind, stable_lock]
  intro t _
  apply stable_query
  intro t _
  cases hi : (w t).planExecutionUnits.find? u with
  | some x =>
    left
    simp only [Option.isSome_some, if_true]
    exact .raise _
  | none =>
    right
    constructor
    · intro t' ht'
      have heq := hw.units u t' t (rely_unit_locked ht' (by simp))
      simp only [heq, hi]
    · simp only [Option.isSome_none, Bool.false_eq_true, if_false, Txn.modify, stable_write]
      refine fun _ _ => { hw with units := ?_ }
      intro k t t' h
      exact find?_insert_congr u row (hw.units k t t' h)

/-- The goal's lineage is read under the project lock, which nobody else can root it
without. -/
theorem isolated_ensureExecutionLineage {g i : Uuid} {goal : Goal} {statement : String}
    {L : List RowKey} {s : Db} (hgoal : s.goals.find? g = some goal)
    (hl : .project goal.projectId ∈ L) :
    Isolated (ensureExecutionLineage g goal.projectId statement i) L id s
      fun _ _ w' _ => Framed w' := by
  simp only [ensureExecutionLineage, bind_eq, select_bind]
  apply stable_query
  intro t ht
  right
  cases hx : t.goalExecutionLineage.find? g with
  | some x =>
    constructor
    · intro t' ht'
      have heq := rely_lineage ht' hx
      simp only [id_eq, hx, heq]
    · simp only [id_eq, hx]
      exact fun _ _ => .id
  | none =>
    constructor
    · intro t' ht'
      have heq := rely_no_lineage ht' (rely_goal ht hgoal) hl hx
      simp only [id_eq, hx, heq]
    · simp only [id_eq, hx]
      apply (isolated_insertWorkItem .id).bind
      rintro _ L' w' t' ⟨-, hw'⟩
      simp only [lockRow_bind, stable_lock]
      intro t₁ _
      apply stable_query
      intro t₂ _
      cases hy : (w' t₂).goalExecutionLineage.find? g with
      | some y =>
        left
        simp only [Option.isSome_some, if_true]
        exact .raise _
      | none =>
        right
        constructor
        · intro t₃ ht₃
          have heq := hw'.lineages g t₃ t₂ (rely_lineage_locked ht₃ (by simp))
          simp only [heq, hy]
        · simp only [Option.isSome_none, Bool.false_eq_true, if_false, modify_bind,
            stable_write]
          refine fun _ _ => { hw' with lineages := ?_ }
          intro k t t' h
          exact find?_insert_congr g _ (hw'.lineages k t t' h)

/-- The first loop ends with the lock of every work item it inserted. -/
theorem isolated_insertUnits {m : MaterializeContext} {steps : List PlanStep} {L : List RowKey}
    {w : Db → Db} {s : Db} (hw : Framed w) :
    Isolated (insertUnits m steps) L w s fun b L' w' _ =>
      Framed w' ∧ ∀ e ∈ b.1, .workItem e.2 ∈ L' := by
  induction steps generalizing L w s with
  | nil => exact fun _ _ => ⟨hw, by simp⟩
  | cons st steps ih =>
    simp only [insertUnits, bind_eq]
    apply (isolated_insertWorkItem hw).bind
    rintro _ L₁ w₁ t₁ ⟨hL₁, hw₁⟩
    apply (isolated_insertExecutionUnit hw₁).bind_rely
    rintro _ L₂ w₂ t₂ hw₂ - hL₂
    apply (ih hw₂).bind_rely
    rintro ⟨byStep, units⟩ L₃ w₃ t₃ ⟨hw₃, hlocks⟩ - hL₃
    refine fun _ _ => ⟨hw₃, fun e he => ?_⟩
    rcases List.mem_cons.mp he with rfl | he
    · apply hL₃
      apply hL₂
      rw [hL₁]
      simp
    · exact hlocks e he

/-- Only a session that inserted a work item adds edges out of it. -/
theorem rely_dependsOn {L : List RowKey} {s t : Db} (h : Rely Inv Guarantee L s t) {w : Uuid}
    (hl : .workItem w ∈ L) (d : Uuid) : t.DependsOn w d ↔ s.DependsOn w d := by
  apply h.keeps (P := fun t => t.DependsOn w d ↔ s.DependsOn w d) _ Iff.rfl
  intro a b l _ _ hg hout hab
  rw [← hab]
  rcases hg.edges with ⟨new, hnew, hlocks⟩
  unfold Db.DependsOn
  rw [hnew]
  constructor
  · rintro ⟨e, he, rfl, rfl⟩
    rcases List.mem_append.mp he with he | he
    · exact ⟨e, he, rfl, rfl⟩
    · exact absurd hl (hout _ (hlocks e he).1)
  · rintro ⟨e, he, heq⟩
    exact ⟨e, List.mem_append_left _ he, heq⟩

theorem isolated_insertDependency {d : Dependency} {L : List RowKey} {w : Db → Db} {s : Db}
    (hw : Framed w) (hl : .workItem d.workItemId ∈ L) :
    Isolated (insertDependency d) L w s fun _ _ w' _ => Framed w' := by
  simp only [insertDependency, bind_eq, lockRow_bind, select_bind, stable_lock]
  intro t _
  apply stable_query
  intro t _
  right
  rcases hw.edges with ⟨new, hnew⟩
  constructor
  · intro t' ht'
    have hiff := rely_dependsOn ht' (w := d.workItemId) (by simp [hl]) d.dependsOnWorkItemId
    have hread : ∀ x : Db, x.workItemDependencies.any (fun e => e.workItemId = d.workItemId ∧
        e.dependsOnWorkItemId = d.dependsOnWorkItemId) = true ↔
          x.DependsOn d.workItemId d.dependsOnWorkItemId := by
      intro x
      simp [Db.DependsOn, List.any_eq_true]
    have heq : t'.workItemDependencies.any (fun e => e.workItemId = d.workItemId ∧
        e.dependsOnWorkItemId = d.dependsOnWorkItemId) =
          t.workItemDependencies.any fun e => e.workItemId = d.workItemId ∧
            e.dependsOnWorkItemId = d.dependsOnWorkItemId := by
      rw [Bool.eq_iff_iff, hread, hread, hiff]
    simp only [hnew, List.any_append, heq]
  · split_ifs
    · exact fun _ _ => hw
    · simp only [Txn.modify, stable_write]
      refine fun _ _ => { hw with edges := ⟨new ++ [d], fun t => ?_⟩ }
      simp only [Function.comp_apply, hnew, List.append_assoc]

theorem isolated_insertDependencies {p : Uuid} {byStep : List (String × Uuid)}
    {edges : List (String × String)} {L : List RowKey} {w : Db → Db} {s : Db} (hw : Framed w)
    (hl : ∀ e ∈ byStep, .workItem e.2 ∈ L) :
    Isolated (insertDependencies p byStep edges) L w s anyResult := by
  induction edges generalizing L w s with
  | nil => exact fun _ _ => trivial
  | cons e edges ih =>
    rcases e with ⟨k, parent⟩
    simp only [insertDependencies]
    cases hk : byStep.lookup k with
    | none => trivial
    | some child =>
      cases hp : byStep.lookup parent with
      | none => trivial
      | some d =>
        have hchild : .workItem child ∈ L := by
          rcases List.lookup_eq_some_iff.mp hk with ⟨l₁, l₂, heq, -⟩
          exact hl (k, child) (by simp [heq])
        simp only [bind_eq]
        apply (isolated_insertDependency hw hchild).bind_rely
        intro _ L' w' t hw' _ hL'
        exact ih hw' fun e he => hL' (hl e he)

theorem isolated_materialize {g r b : Uuid} {ids : MaterializeIds} {s : Db} :
    Isolated (materialize g r b ids) [] id s anyResult := by
  simp only [materialize, bind_eq, select_bind]
  apply stable_query
  intro t _
  cases hg : t.goals.find? g with
  | none =>
    left
    simp only [id_eq, hg]
    exact .raise _
  | some goal =>
    right
    constructor
    · intro t' ht'
      have heq := rely_goal ht' hg
      simp only [id_eq, hg, heq]
    · simp only [id_eq, hg, lockProject, lockRow_bind, stable_lock, List.nil_append]
      intro t₁ ht₁
      apply isolated_confirmDispatchableRevision.bind_rely
      rintro revision L₂ _ t₂ rfl ht₂ hL₂
      have hgoal := rely_goal (ht₁.trans (ht₂.mono (by simp))) hg
      cases hplan : planFromRevision revision with
      | error e => trivial
      | ok plan =>
        apply (isolated_ensureExecutionLineage hgoal (hL₂ (by simp))).bind
        intro lineage L₃ w₃ t₃ hw₃
        apply (isolated_insertExecutionGraph hw₃).bind
        intro _ L₄ w₄ t₄ hw₄
        apply (isolated_insertUnits hw₄).bind
        rintro ⟨byStep, units⟩ L₅ w₅ t₅ ⟨hw₅, hlocks⟩
        exact (isolated_insertDependencies hw₅ hlocks).bind fun _ _ _ _ _ _ _ => trivial

end AiAgentsSwd.Planning
