import AiAgentsSwd.Planning.Completion

/-!
# Planning.Passes — what a pass changes, also when it raises

A pass works on the due units in the order of their step keys, and the first error ends it. What
becomes of the first due unit is left alone by the rest of the pass (`scheduleReadyWork_first`): a
ready one is answered, when its routing decision can be written (`advanceUnit_ready`), and an
assigned one is dispatched (`advanceUnit_assigned`).
-/

namespace AiAgentsSwd.Planning

open Keyed (Table)
open ReadCommitted ReadCommitted.Txn ReadCommitted.Client

/-! ## One row -/

/-- The row of the unit is untouched. -/
def SameUnit (u : Uuid) (s t : Db) : Prop :=
  t.planExecutionUnits.find? u = s.planExecutionUnits.find? u

instance (u : Uuid) : Std.Refl (SameUnit u) := ⟨fun _ => rfl⟩

instance (u : Uuid) : IsTrans Db (SameUnit u) := ⟨fun _ _ _ h h' => Eq.trans h' h⟩

/-- What holds of the unit's row still does. -/
def KeepsUnit (u : Uuid) (P : ExecutionUnit → Prop) (s t : Db) : Prop :=
  (∃ x, s.planExecutionUnits.find? u = some x ∧ P x) →
    ∃ y, t.planExecutionUnits.find? u = some y ∧ P y

instance (u : Uuid) (P : ExecutionUnit → Prop) : Std.Refl (KeepsUnit u P) := ⟨fun _ h => h⟩

instance (u : Uuid) (P : ExecutionUnit → Prop) : IsTrans Db (KeepsUnit u P) :=
  ⟨fun _ _ _ h h' hx => h' (h hx)⟩

theorem SameUnit.keepsUnit {u : Uuid} {P : ExecutionUnit → Prop} {s t : Db}
    (h : SameUnit u s t) : KeepsUnit u P s t := by
  intro hx
  rw [h]
  exact hx

theorem sameUnit_modify {u v : Uuid} (huv : u ≠ v) {s t : Db} {f : ExecutionUnit → ExecutionUnit}
    (ht : t.planExecutionUnits = s.planExecutionUnits.modify v f) : SameUnit u s t := by
  unfold SameUnit
  rw [ht, Table.find?_modify_of_ne _ _ huv]

section Pass

variable {env : Environment} {u v : Uuid} {x : ExecutionUnit}

/-! ## The transactions of a pass -/

theorem within_applyAssignment (huv : u ≠ v) (d : RoutingDecision) (a : Option String) (i : Uuid)
    (now : Time) : (transact (applyAssignment v d a i now)).Within (SameUnit u) := by
  apply within_transact
  intro s o ho
  rcases exec_applyAssignment ho with ⟨x, -, -, -, ⟨-, -, hstate⟩ | ⟨-, -, hstate⟩ |
    ⟨-, -, -, p, st, -, hstate⟩⟩
  · rw [hstate]
    exact Std.Refl.refl s
  · rw [hstate]
    exact sameUnit_modify huv rfl
  · rw [hstate]
    exact sameUnit_modify huv rfl

theorem within_createDispatch (huv : u ≠ v) (a : Option String) (c : Uuid) (now : Time) :
    (transact (createDispatch v a c now)).Within (SameUnit u) := by
  apply within_transact
  intro s o ho
  rcases exec_createDispatch ho with ⟨x, -, -, -, ⟨-, hstate, -⟩ |
    ⟨-, -, -, -, p, st, E, -, -, -, hstate⟩⟩
  · rw [hstate]
    exact Std.Refl.refl s
  · rw [hstate]
    exact sameUnit_modify huv rfl

theorem keepsUnit_createDispatch {P : ExecutionUnit → Prop} (hP : ∀ y, P y → P (dispatchUnit y))
    (a : Option String) (c : Uuid) (now : Time) :
    (transact (createDispatch u a c now)).Within (KeepsUnit u P) := by
  apply within_transact
  intro s o ho hrow
  rcases exec_createDispatch ho with ⟨x, hx, -, -, ⟨-, hstate, -⟩ |
    ⟨-, -, -, -, p, st, E, -, -, -, hstate⟩⟩
  · rw [hstate]
    exact hrow
  · rcases hrow with ⟨y, hy, hPy⟩
    refine ⟨dispatchUnit y, ?_, hP y hPy⟩
    rw [hstate]
    show (s.planExecutionUnits.modify u dispatchUnit).find? u = _
    rw [Table.find?_modify_self, hy]
    rfl

theorem within_markDispatchPublished (now : Time) :
    (transact (markDispatchPublished v now)).Within (SameUnit u) := by
  apply within_transact
  intro s o ho
  rcases exec_markDispatchPublished.mp ho with ⟨d, -, -, rfl⟩ | ⟨-, rfl⟩
  · exact rfl
  · exact rfl

/-! ## One unit of a pass -/

theorem within_finishAdvance (d : Option Dispatch) (replay : Bool) :
    (finishAdvance env v x d replay).Within (SameUnit u) := by
  unfold finishAdvance
  refine within_bind (R := SameUnit u) ?_ fun _ => within_pure _
  unfold publishIfDue
  split_ifs
  · unfold publishDispatch
    refine within_bind (within_fetch (R := SameUnit u) _) ?_
    intro lineage
    cases lineage with
    | none => exact within_fail _
    | some _ =>
      dsimp only
      split_ifs
      · exact within_bind (within_markDispatchPublished _) fun _ => within_pure _
      · exact within_pure _
  · exact within_pure _

/-- What is done once the owner is settled. -/
theorem within_dispatchUnitOnce {R : Db → Db → Prop} [Std.Refl R] [IsTrans Db R]
    (hsame : ∀ s t, SameUnit u s t → R s t)
    (hcreate : (transact (createDispatch v none (env.correlationId v) env.now)).Within R) :
    (dispatchUnitOnce env v x).Within R := by
  unfold dispatchUnitOnce
  split_ifs
  · apply within_bind hcreate
    intro o
    cases o with
    | replay y d => exact (within_finishAdvance _ _).mono hsame
    | dispatched y d => exact (within_finishAdvance _ _).mono hsame
  · refine within_bind (within_fetch (R := R) _) ?_
    intro d
    exact (within_finishAdvance _ _).mono hsame
  · exact within_pure _

/-- The units a pass does not come to keep their rows. -/
theorem within_advanceUnit (huv : u ≠ v) : (advanceUnit env v x).Within (SameUnit u) := by
  have honce : ∀ y, (dispatchUnitOnce env v y).Within (SameUnit u) := fun y =>
    within_dispatchUnitOnce (fun _ _ h => h) (within_createDispatch huv _ _ _)
  unfold advanceUnit
  split_ifs
  · apply within_bind (within_applyAssignment huv _ _ _ _)
    intro o
    cases o with
    | replay y => exact honce y
    | unassignable y rec => exact within_pure _
    | assigned y rec => exact honce y
  · exact honce x

/-! ## Writing a routing decision -/

/-- The tables and the transport take the decision. -/
def RoutingDecision.Assignable (s : Db) (d : RoutingDecision) : Prop :=
  s.routingViolation d = none ∧
    (d.outcome = .selected → isSafeAgentKey (d.selectedAgentKey.getD "") = true)

/-- The decision for a ready unit of an open revision is applied exactly when the tables and the
transport take it. -/
theorem succeeds_applyAssignment_iff {s : Db} (hinv : Inv s)
    (hx : s.planExecutionUnits.find? u = some x) (hready : x.state = .ready)
    (ho : s.Open x.planRevisionId) (d : RoutingDecision) (a : Option String) (i : Uuid)
    (now : Time) : Succeeds (applyAssignment u d a i now) s ↔ d.Assignable s := by
  simp only [applyAssignment, bind_eq, requireUnit, select_bind, query_bind, succeeds_query, hx,
    pure_eq, done_bind]
  rw [succeeds_gates hinv hx ho]
  simp only [lockUnit, bind_eq, lockRow_bind, lock_bind, select, query_bind, done_bind,
    succeeds_lock, succeeds_query, hx]
  rw [if_neg (not_not.mpr hready)]
  simp only [recordRoutingDecision, bind_eq, select_bind, query_bind, succeeds_query]
  cases hviol : s.routingViolation d with
  | some e => simp [RoutingDecision.Assignable, hviol]
  | none =>
    simp only [modify_bind, write_bind, pure_eq, done_bind, succeeds_write]
    by_cases hsel : d.outcome = .selected
    · rw [if_neg (not_not.mpr hsel)]
      have hprincipal : d.selectedPrincipalId.isSome = true := by
        unfold Db.routingViolation at hviol
        by_contra hnone
        rw [if_pos (by simp [hsel, hnone])] at hviol
        cases hviol
      rcases Option.isSome_iff_exists.mp hprincipal with ⟨p, hp⟩
      by_cases hkey : isSafeAgentKey (d.selectedAgentKey.getD "") = true
      · refine iff_of_true ?_ ⟨hviol, fun _ => hkey⟩
        simp only [hp, delegationStreamFor, if_pos hkey]
        refine (succeeds_updateUnit_bind (x := x) ?_ hready).mpr ?_
        · exact hx
        · rw [succeeds_mirrorWorkItem_bind]
          exact succeeds_done _ _
      · refine iff_of_false ?_ fun h => hkey (h.2 hsel)
        simp [hp, delegationStreamFor, if_neg hkey]
    · rw [if_pos hsel]
      refine iff_of_true ?_ ⟨hviol, fun h => absurd h hsel⟩
      refine (succeeds_updateUnit_bind (x := x) ?_ hready).mpr ?_
      · exact hx
      · exact succeeds_done _ _

/-! ## A whole pass -/

/-- The due units are steps of the plan that the pass reads. -/
theorem scheduleReadyWork_snd {s : Db} {r : Uuid} (hinv : Inv s) :
    (scheduleReadyWork env r s).2 =
      (forEach (fun e => advanceUnit env e.1 e.2) (s.schedulableUnits r) s).2 := by
  cases hunits : s.schedulableUnits r with
  | nil =>
    show (ReadCommitted.Client.bind _ _ s).2 = s
    simp only [ReadCommitted.Client.bind, fetch, hunits, if_true]
    rfl
  | cons e rest =>
    have hmem : e ∈ s.schedulableUnits r := by
      rw [hunits]
      exact List.mem_cons_self ..
    rcases mem_schedulableUnits.mp hmem with ⟨hx, rfl, -⟩
    rcases hinv.revisionPlan hx with ⟨plan, hplan, hsteps⟩
    have hkeys : ∀ b ∈ s.schedulableUnits e.2.planRevisionId,
        b.2.stepKey ∈ plan.steps.map PlanStep.stepKey := by
      intro b hb
      rcases mem_schedulableUnits.mp hb with ⟨hz, hr, -⟩
      exact hsteps b.1 b.2 hz hr
    rw [hunits] at hkeys
    have hloop : forEach (fun e => if e.2.stepKey ∈ plan.steps.map PlanStep.stepKey then
        advanceUnit env e.1 e.2 else fail (.keyError e.2.stepKey)) (e :: rest) =
        forEach (fun e => advanceUnit env e.1 e.2) (e :: rest) :=
      forEach_congr fun b hb => if_pos (hkeys b hb)
    rw [← hloop]
    show (ReadCommitted.Client.bind _ _ s).2 = _
    simp only [ReadCommitted.Client.bind, fetch, hunits]
    rw [if_neg (List.cons_ne_nil _ _)]
    show (ReadCommitted.Client.bind _ _ s).2 = _
    simp only [ReadCommitted.Client.bind, fetch, hplan]

/-- Without a due unit a pass does nothing. -/
theorem scheduleReadyWork_idle {s : Db} {r : Uuid} (hinv : Inv s)
    (hnone : s.schedulableUnits r = []) : (scheduleReadyWork env r s).2 = s := by
  rw [scheduleReadyWork_snd hinv, hnone]
  rfl

/-- The units after the first are others. -/
theorem within_rest {s : Db} {r : Uuid} {rest : List (Uuid × ExecutionUnit)}
    (hunits : s.schedulableUnits r = (u, x) :: rest) :
    (forEach (fun e => advanceUnit env e.1 e.2) rest).Within (SameUnit u) := by
  apply within_forEach
  intro e he
  refine within_advanceUnit ?_
  have hnodup : ((s.schedulableUnits r).map Prod.fst).Nodup := by
    have hkeys := s.planExecutionUnits.nodup_keys_filter fun e =>
      decide (e.2.planRevisionId = r ∧ (e.2.state = .ready ∨ e.2.state = .assigned ∨
        (e.2.state = .dispatched ∧
          (s.planExecutionDispatches.find? e.1).any fun d => d.publishedAt = none)))
    exact ((List.perm_insertionSort _ _).map Prod.fst).nodup_iff.mpr hkeys
  rw [hunits, List.map_cons, List.nodup_cons] at hnodup
  intro heq
  rw [heq] at hnodup
  exact hnodup.1 (List.mem_map.mpr ⟨e, he, rfl⟩)

/-- What the first due unit has become is left alone by the rest of the pass. -/
theorem scheduleReadyWork_first {s : Db} {r : Uuid} (hinv : Inv s)
    {rest : List (Uuid × ExecutionUnit)} (hunits : s.schedulableUnits r = (u, x) :: rest)
    {P : ExecutionUnit → Prop}
    (h : ∃ y, (advanceUnit env u x s).2.planExecutionUnits.find? u = some y ∧ P y) :
    ∃ y, (scheduleReadyWork env r s).2.planExecutionUnits.find? u = some y ∧ P y := by
  rw [scheduleReadyWork_snd hinv, hunits]
  unfold forEach
  refine snd_bind (R := SameUnit u)
    (Q := fun t => ∃ y, t.planExecutionUnits.find? u = some y ∧ P y) h ?_ ?_
  · intro t t' hsame
    exact hsame.keepsUnit
  · intro a
    exact within_bind (within_rest hunits) fun _ => within_pure _

/-- An assigned unit that comes first is dispatched. -/
theorem advanceUnit_assigned {s : Db} (hinv : Inv s) (hx : s.planExecutionUnits.find? u = some x)
    (hass : x.state = .assigned) (ho : s.Open x.planRevisionId) :
    ∃ y, (advanceUnit env u x s).2.planExecutionUnits.find? u = some y ∧
      y.state = .dispatched := by
  have hreturns : (dispatchUnitOnce env u x).Returns s fun _ t =>
      ∃ y, y.state = .dispatched ∧ Moves x.planRevisionId u y s t :=
    dispatchUnitOnce_returns hinv ho hx (Or.inl hass)
  rcases hreturns.snd with ⟨-, y, hy, hm⟩
  unfold advanceUnit
  rw [if_neg (by simp [hass])]
  exact ⟨y, hm.row, hy⟩

/-- The unit has an owner, or the reason why it has none. -/
def Answered (d : RoutingDecision) (y : ExecutionUnit) : Prop :=
  y.state ≠ .ready ∨ (d.outcome ≠ .selected ∧ y.unavailableReason = unavailableReasonFor d)

/-- A ready unit that comes first gets an owner or a reason, when its decision can be written. -/
theorem advanceUnit_ready {s : Db} (hinv : Inv s) (hx : s.planExecutionUnits.find? u = some x)
    (hready : x.state = .ready) (ho : s.Open x.planRevisionId)
    (hd : (env.decisionFor x).Assignable s) :
    ∃ y, (advanceUnit env u x s).2.planExecutionUnits.find? u = some y ∧
      Answered (env.decisionFor x) y := by
  rcases (succeeds_applyAssignment_iff hinv hx hready ho (env.decisionFor x) (env.auditRef u)
    (env.routingDecisionId u) env.now).mpr hd with ⟨o, hexec⟩
  unfold advanceUnit
  rw [if_pos hready]
  refine snd_bind (R := KeepsUnit u (Answered (env.decisionFor x))) (Q := fun t =>
    ∃ y, t.planExecutionUnits.find? u = some y ∧ Answered (env.decisionFor x) y) ?_ ?_ ?_
  · have hsnd : (transact (applyAssignment u (env.decisionFor x) (env.auditRef u)
        (env.routingDecisionId u) env.now) s).2 = o.state := by
      unfold transact
      rw [hexec]
    show ∃ y, (transact (applyAssignment u (env.decisionFor x) (env.auditRef u)
        (env.routingDecisionId u) env.now) s).2.planExecutionUnits.find? u = some y ∧ _
    rw [hsnd]
    rcases exec_applyAssignment hexec with ⟨x', hx', -, -, ⟨hne, -, -⟩ | ⟨-, hne, hstate⟩ |
      ⟨-, -, -, p, st, -, hstate⟩⟩
    · rw [hx] at hx'
      cases hx'
      exact absurd hready hne
    · refine ⟨unassignableRow (env.decisionFor x) (env.routingDecisionId u) x, ?_,
        Or.inr ⟨hne, rfl⟩⟩
      rw [hstate]
      show (s.planExecutionUnits.modify u _).find? u = _
      rw [Table.find?_modify_self, hx]
      rfl
    · refine ⟨assignRow (env.decisionFor x) p st (env.routingDecisionId u) env.now x, ?_,
        Or.inl ?_⟩
      · rw [hstate]
        show (s.planExecutionUnits.modify u _).find? u = _
        rw [Table.find?_modify_self, hx]
        rfl
      · simp [assignRow]
  · exact fun t t' hkeep => hkeep
  · have honce : ∀ y, (dispatchUnitOnce env u y).Within
        (KeepsUnit u (Answered (env.decisionFor x))) := fun y =>
      within_dispatchUnitOnce (fun _ _ h => h.keepsUnit)
        (keepsUnit_createDispatch (fun y _ => Or.inl (by simp [dispatchUnit])) _ _ _)
    intro o'
    cases o' with
    | replay y => exact honce y
    | unassignable y rec => exact within_pure _
    | assigned y rec => exact honce y

end Pass

end AiAgentsSwd.Planning
