import AiAgentsSwd.Planning.Frames

/-!
# Planning.DelegationSpec — transitions of a single unit

What `apply_assignment`, `create_dispatch`, `mark_dispatch_published` and
`set_lifecycle_state` do, that they keep the invariant, and that they stay within the
guarantee.
-/

namespace AiAgentsSwd.Planning

open Keyed (Table Evolves)
open ReadCommitted ReadCommitted.Txn

/-! ## Runs of the helpers -/

@[simp] theorem mirrorRow_status (st : UnitState) (a r : Option String) (now : Time)
    (w : WorkItem) : (mirrorRow st a r now w).status = workItemStatusFor st := rfl

theorem exec_confirmDispatchableRevision {g r : Uuid} {s : Db}
    {o : Outcome Db RowKey PlanRevision} :
    exec (confirmDispatchableRevision g r) s = .ok o ↔
      ∃ row, s.planRevisions.find? r = some row ∧ row.goalId = g ∧ s.successorOf r = none ∧
        row.status = .accepted ∧ o = ⟨row, s, [.planRevision r]⟩ := by
  simp only [confirmDispatchableRevision, bind_eq, exec_bind_ok, exec_confirmCurrentRevision]
  constructor
  · rintro ⟨_, o₂, ⟨row, hrow, hg, hs, rfl⟩, h, rfl⟩
    by_cases hst : row.status = .accepted
    · simp only [hst, ne_eq, not_true, if_false, pure_eq, exec_done, Except.ok.injEq] at h
      subst h
      exact ⟨row, hrow, hg, hs, hst, rfl⟩
    · simp [hst] at h
  · rintro ⟨row, hrow, hg, hs, hst, rfl⟩
    exact ⟨_, ⟨row, s, []⟩, ⟨row, hrow, hg, hs, rfl⟩, by simp [hst], rfl⟩

theorem exec_assertLineageNotCancelled {g : Uuid} {s : Db} {o : Outcome Db RowKey Unit} :
    exec (assertLineageNotCancelled g) s = .ok o ↔
      ∃ lin w, s.goalExecutionLineage.find? g = some lin ∧
        s.projectWorkItems.find? lin.primaryWorkItemId = some w ∧ w.isCancelled = false ∧
        o = ⟨(), s, [.workItem lin.primaryWorkItemId]⟩ := by
  simp only [assertLineageNotCancelled, bind_eq, select_bind, exec_query]
  cases hl : s.goalExecutionLineage.find? g with
  | none => simp
  | some lin =>
    cases hw : s.projectWorkItems.find? lin.primaryWorkItemId with
    | none => simp [hw]
    | some w =>
      cases hc : w.isCancelled with
      | true => simp [hw, hc]
      | false => simp [hw, hc]

theorem exec_requireUnit {u : Uuid} {s : Db} {o : Outcome Db RowKey ExecutionUnit} :
    exec (requireUnit u) s = .ok o ↔
      ∃ x, s.planExecutionUnits.find? u = some x ∧ o = ⟨x, s, []⟩ := by
  simp only [requireUnit, bind_eq, select_bind, exec_query]
  cases s.planExecutionUnits.find? u with
  | none => simp
  | some x => simp [eq_comm]

theorem exec_lockUnit {u : Uuid} {s : Db} {o : Outcome Db RowKey (Option ExecutionUnit)} :
    exec (lockUnit u) s = .ok o ↔ o = ⟨s.planExecutionUnits.find? u, s, [.executionUnit u]⟩ := by
  simp [lockUnit, select]

theorem exec_mirrorWorkItem {w : Uuid} {st : UnitState} {a r : Option String} {now : Time}
    {s : Db} {o : Outcome Db RowKey Unit} :
    exec (mirrorWorkItem w st a r now) s = .ok o ↔
      o = ⟨(), { s with projectWorkItems := s.projectWorkItems.modify w (mirrorRow st a r now) },
        [.workItem w]⟩ := by
  simp [mirrorWorkItem, Txn.modify]

theorem exec_recordRoutingDecision {i p w : Uuid} {d : RoutingDecision} {a : Option String}
    {s : Db} {o : Outcome Db RowKey RoutingRecord} :
    exec (recordRoutingDecision i p w d a) s = .ok o ↔
      s.routingViolation d = none ∧
        o = ⟨⟨i, p, some w, d, a⟩,
          { s with agentRoutingDecisions := s.agentRoutingDecisions ++ [⟨i, p, some w, d, a⟩] },
          []⟩ := by
  simp only [recordRoutingDecision, bind_eq, select_bind, exec_query]
  cases s.routingViolation d with
  | none => simp [eq_comm]
  | some e => simp

/-- A guarded update of a unit known to be in the guarded state. -/
theorem exec_updateUnit_bind {α : Type} {u : Uuid} {st : UnitState}
    {f : ExecutionUnit → ExecutionUnit} {g : Option ExecutionUnit → PlanTxn α} {s : Db}
    {x : ExecutionUnit} {o : Outcome Db RowKey α}
    (h : exec ((updateUnit u st f).bind g) s = .ok o)
    (hx : s.planExecutionUnits.find? u = some x) (hst : x.state = st) :
    ∃ o', exec (g (some (f x)))
        { s with planExecutionUnits := s.planExecutionUnits.modify u f } = .ok o' ∧
      o = { o' with locks := .executionUnit u :: o'.locks } := by
  simpa [updateUnit, exec_bind_ok, exec_updateWhere_ok, hx, hst] using h

/-- The update goes through when the unit is in the guarded state. -/
theorem succeeds_updateUnit_bind {α : Type} {u : Uuid} {st : UnitState}
    {f : ExecutionUnit → ExecutionUnit} {g : Option ExecutionUnit → PlanTxn α} {s : Db}
    {x : ExecutionUnit} (hx : s.planExecutionUnits.find? u = some x) (hst : x.state = st) :
    Succeeds ((updateUnit u st f).bind g) s ↔ Succeeds (g (some (f x)))
      { s with planExecutionUnits := s.planExecutionUnits.modify u f } := by
  simp [updateUnit, updateWhere, hx, hst]

/-- The update is passed over when the unit is in another state. -/
theorem succeeds_updateUnit_skip {α : Type} {u : Uuid} {st : UnitState}
    {f : ExecutionUnit → ExecutionUnit} {g : Option ExecutionUnit → PlanTxn α} {s : Db}
    (hc : (s.planExecutionUnits.find? u).any (fun x => x.state = st) = false) :
    Succeeds ((updateUnit u st f).bind g) s ↔ Succeeds (g none) s := by
  simp [updateUnit, updateWhere, hc]

@[simp] theorem succeeds_mirrorWorkItem_bind {α : Type} {w : Uuid} {st : UnitState}
    {a r : Option String} {now : Time} {g : Unit → PlanTxn α} {s : Db} :
    Succeeds ((mirrorWorkItem w st a r now).bind g) s ↔ Succeeds (g ()) { s with
      projectWorkItems := s.projectWorkItems.modify w (mirrorRow st a r now) } := by
  simp [mirrorWorkItem, Txn.modify]

/-- What the two gates in front of new work establish. -/
structure Authorized (s : Db) (l : List RowKey) (x : ExecutionUnit) : Prop where
  current : s.successorOf x.planRevisionId = none
  revision : ∃ row, s.planRevisions.find? x.planRevisionId = some row ∧ row.goalId = x.goalId ∧
    row.status = .accepted
  lineage : ∃ lin w, s.goalExecutionLineage.find? x.goalId = some lin ∧
    s.projectWorkItems.find? lin.primaryWorkItemId = some w ∧ w.isCancelled = false
  locked : .planRevision x.planRevisionId ∈ l

/-! ## `apply_assignment` -/

/-- The record an assignment leaves. -/
def routingRecord (x : ExecutionUnit) (decision : RoutingDecision) (auditRef : Option String)
    (routingDecisionId : Uuid) : RoutingRecord :=
  ⟨routingDecisionId, x.projectId, some x.workItemId, decision, auditRef⟩

/-- The state after an unassignable decision. -/
def unassignableState (s : Db) (u : Uuid) (x : ExecutionUnit) (decision : RoutingDecision)
    (auditRef : Option String) (routingDecisionId : Uuid) : Db :=
  { s with
    agentRoutingDecisions := s.agentRoutingDecisions ++
      [routingRecord x decision auditRef routingDecisionId]
    planExecutionUnits :=
      s.planExecutionUnits.modify u (unassignableRow decision routingDecisionId) }

/-- The state after an assignment. -/
def assignedState (s : Db) (u : Uuid) (x : ExecutionUnit) (decision : RoutingDecision)
    (auditRef : Option String) (routingDecisionId : Uuid) (now : Time) (principal : Uuid)
    (stream : String) : Db :=
  { s with
    agentRoutingDecisions := s.agentRoutingDecisions ++
      [routingRecord x decision auditRef routingDecisionId]
    planExecutionUnits := s.planExecutionUnits.modify u
      (assignRow decision principal stream routingDecisionId now)
    projectWorkItems := s.projectWorkItems.modify x.workItemId
      (mirrorRow .assigned decision.selectedAgentKey decision.selectedRole now) }

theorem exec_applyAssignment {u : Uuid} {decision : RoutingDecision} {auditRef : Option String}
    {rid : Uuid} {now : Time} {s : Db} {o : Outcome Db RowKey AssignmentOutcome}
    (h : exec (applyAssignment u decision auditRef rid now) s = .ok o) :
    ∃ x, s.planExecutionUnits.find? u = some x ∧ Authorized s o.locks x ∧
      .executionUnit u ∈ o.locks ∧
      ((x.state ≠ .ready ∧ o.value = .replay x ∧ o.state = s) ∨
        (x.state = .ready ∧ decision.outcome ≠ .selected ∧
          o.state = unassignableState s u x decision auditRef rid) ∨
        (x.state = .ready ∧ decision.outcome = .selected ∧ .workItem x.workItemId ∈ o.locks ∧
          ∃ p st, o.value = .assigned (assignRow decision p st rid now x)
              (routingRecord x decision auditRef rid) ∧
            o.state = assignedState s u x decision auditRef rid now p st)) := by
  simp only [applyAssignment, bind_eq, exec_bind_ok, exec_requireUnit,
    exec_confirmDispatchableRevision, exec_assertLineageNotCancelled, exec_lockUnit] at h
  rcases h with ⟨_, _, ⟨x, hx, rfl⟩, ⟨_, _, ⟨row, hrow, hgoal, hcur, hacc, rfl⟩, ⟨_, _,
    ⟨lin, w, hlin, hw, hnc, rfl⟩, ⟨_, _, rfl, h, rfl⟩, rfl⟩, rfl⟩, rfl⟩
  dsimp only at *
  refine ⟨x, hx, ⟨hcur, ⟨row, hrow, hgoal, hacc⟩, ⟨lin, w, hlin, hw, hnc⟩, by simp⟩, by simp, ?_⟩
  simp only [hx] at h
  by_cases hready : x.state = .ready
  swap
  · -- somebody decided already
    simp only [hready, ne_eq, not_false_eq_true, if_true, pure_eq, exec_done,
      Except.ok.injEq] at h
    subst h
    exact Or.inl ⟨hready, rfl, rfl⟩
  simp only [hready, ne_eq, not_true, if_false, exec_bind_ok, exec_recordRoutingDecision] at h
  rcases h with ⟨_, _, ⟨hviol, rfl⟩, h, rfl⟩
  dsimp only at *
  right
  by_cases hsel : decision.outcome = .selected
  swap
  · left
    rw [if_pos hsel] at h
    rcases exec_updateUnit_bind h hx hready with ⟨_, h', rfl⟩
    simp only [pure_eq, exec_done, Except.ok.injEq] at h'
    subst h'
    exact ⟨hready, hsel, rfl⟩
  right
  rw [if_neg (not_not.mpr hsel)] at h
  cases hp : decision.selectedPrincipalId with
  | none => simp [hp] at h
  | some p =>
    cases hst : delegationStreamFor (decision.selectedAgentKey.getD "") with
    | none => simp [hp, hst] at h
    | some st =>
      simp only [hp, hst] at h
      rcases exec_updateUnit_bind h hx hready with ⟨_, h', rfl⟩
      simp only [exec_bind_ok, exec_mirrorWorkItem] at h'
      rcases h' with ⟨_, _, rfl, h', rfl⟩
      simp only [pure_eq, exec_done, Except.ok.injEq] at h'
      subst h'
      exact ⟨hready, hsel, by simp [assignRow], p, st, rfl, rfl⟩

/-! ## `create_dispatch` -/

/-- The row a dispatch inserts. -/
def dispatchRow (x : ExecutionUnit) (principal : Uuid) (stream : String) (correlationId : Uuid)
    (auditRef : Option String) : Dispatch where
  planRevisionId := x.planRevisionId
  stepKey := x.stepKey
  projectId := x.projectId
  workItemId := x.workItemId
  assignedPrincipalId := principal
  routingDecisionId := x.routingDecisionId
  targetStream := stream
  correlationId := correlationId
  publishedAt := none
  auditRef := auditRef

/-- The unit's columns a dispatch sets. -/
def dispatchUnit (x : ExecutionUnit) : ExecutionUnit := { x with state := .dispatched }

theorem exec_insertDispatch {u : Uuid} {row : Dispatch} {s : Db} {o : Outcome Db RowKey Unit} :
    exec (insertDispatch u row) s = .ok o ↔
      s.planExecutionDispatches.find? u = none ∧
        o = ⟨(), { s with planExecutionDispatches := s.planExecutionDispatches.insert u row },
          [.dispatch u]⟩ := by
  simp only [insertDispatch, bind_eq, lockRow_bind, select_bind, exec_lock_ok, exec_query]
  cases s.planExecutionDispatches.find? u with
  | none => simp [Txn.modify]
  | some d => simp

theorem exec_recordWorkItemEvent {x : ExecutionUnit} {e reason : String} {a b : UnitState}
    {c : Uuid} {s : Db} {o : Outcome Db RowKey Unit}
    (h : exec (recordWorkItemEvent x e a b reason c) s = .ok o) :
    ∃ E, o = ⟨(), { s with workItemEvents := E }, []⟩ := by
  simp only [recordWorkItemEvent, Txn.modify, exec_write, exec_done, Except.ok.injEq] at h
  exact ⟨_, h.symm⟩

theorem exec_createDispatch {u : Uuid} {auditRef : Option String} {c : Uuid} {now : Time} {s : Db}
    {o : Outcome Db RowKey DispatchOutcome}
    (h : exec (createDispatch u auditRef c now) s = .ok o) :
    ∃ x, s.planExecutionUnits.find? u = some x ∧ Authorized s o.locks x ∧
      .executionUnit u ∈ o.locks ∧
      ((x.state = .dispatched ∧ o.state = s ∧
          o.value = .replay x (s.planExecutionDispatches.find? u)) ∨
        (x.state = .assigned ∧ s.planExecutionDispatches.find? u = none ∧
          .dispatch u ∈ o.locks ∧ .workItem x.workItemId ∈ o.locks ∧
          ∃ p st E, x.assignedPrincipalId = some p ∧ x.assignedStream = some st ∧
            o.value = .dispatched (dispatchUnit x) (dispatchRow x p st c auditRef) ∧
            o.state = { s with
              planExecutionDispatches :=
                s.planExecutionDispatches.insert u (dispatchRow x p st c auditRef)
              planExecutionUnits := s.planExecutionUnits.modify u dispatchUnit
              projectWorkItems :=
                s.projectWorkItems.modify x.workItemId (mirrorRow .dispatched none none now)
              workItemEvents := E })) := by
  simp only [createDispatch, bind_eq, exec_bind_ok, exec_requireUnit,
    exec_confirmDispatchableRevision, exec_assertLineageNotCancelled, exec_lockUnit] at h
  rcases h with ⟨_, _, ⟨x, hx, rfl⟩, ⟨_, _, ⟨row, hrow, hgoal, hcur, hacc, rfl⟩, ⟨_, _,
    ⟨lin, w, hlin, hw, hnc, rfl⟩, ⟨_, _, rfl, h, rfl⟩, rfl⟩, rfl⟩, rfl⟩
  dsimp only at *
  refine ⟨x, hx, ⟨hcur, ⟨row, hrow, hgoal, hacc⟩, ⟨lin, w, hlin, hw, hnc⟩, by simp⟩, by simp, ?_⟩
  simp only [hx] at h
  by_cases hdisp : x.state = .dispatched
  · -- somebody dispatched already
    simp only [hdisp, if_true, select_bind, exec_query, pure_eq, exec_done, Except.ok.injEq] at h
    subst h
    exact Or.inl ⟨hdisp, rfl, rfl⟩
  right
  by_cases hass : x.state = .assigned
  swap
  · simp [hdisp, hass] at h
  rw [if_neg hdisp, if_neg (not_not.mpr hass)] at h
  cases hp : x.assignedPrincipalId with
  | none => simp [hp] at h
  | some p =>
    cases hst : x.assignedStream with
    | none => simp [hp, hst] at h
    | some st =>
      simp only [hp, hst, exec_bind_ok (p := insertDispatch _ _), exec_insertDispatch] at h
      rcases h with ⟨_, _, ⟨hn, rfl⟩, h, rfl⟩
      rcases exec_updateUnit_bind h hx hass with ⟨_, h', rfl⟩
      simp only [exec_bind_ok, exec_mirrorWorkItem] at h'
      rcases h' with ⟨_, _, rfl, ⟨_, _, hev, h', rfl⟩, rfl⟩
      rcases exec_recordWorkItemEvent hev with ⟨E, rfl⟩
      simp only [pure_eq, exec_done, Except.ok.injEq] at h'
      subst h'
      exact ⟨hass, hn, by simp, by simp, p, st, E, rfl, rfl, rfl, rfl⟩

/-! ## `mark_dispatch_published` and `set_lifecycle_state` -/

theorem exec_markDispatchPublished {u : Uuid} {now : Time} {s : Db} {o : Outcome Db RowKey Bool} :
    exec (markDispatchPublished u now) s = .ok o ↔
      (∃ d, s.planExecutionDispatches.find? u = some d ∧ d.publishedAt = none ∧
        o = ⟨true, { s with
          planExecutionDispatches := s.planExecutionDispatches.modify u fun d =>
            { d with publishedAt := some now } }, [.dispatch u]⟩) ∨
      ((∀ d, s.planExecutionDispatches.find? u = some d → d.publishedAt ≠ none) ∧
        o = ⟨false, s, []⟩) := by
  simp only [markDispatchPublished, bind_eq, exec_bind_ok, exec_updateWhere_ok]
  cases hd : s.planExecutionDispatches.find? u with
  | none => simp [eq_comm]
  | some d =>
    by_cases hp : d.publishedAt = none
    · simp [hd, hp, eq_comm]
    · simp [hp, eq_comm]

theorem exec_setLifecycleState {w : Uuid} {st : String} {now : Time} {s : Db}
    {o : Outcome Db RowKey Unit} :
    exec (setLifecycleState w st now) s = .ok o ↔
      o = ⟨(), { s with
        projectWorkItems := s.projectWorkItems.modify w fun w =>
          { w with
            lifecycleState := st
            completedAt := if st = "completed" then some now else w.completedAt } },
        [.workItem w]⟩ := by
  simp [setLifecycleState, Txn.modify]

/-! ## The guarantee -/

/-- The guarantee of a call that moves one unit. -/
theorem guarantee_unit {l : List RowKey} {s : Db} {u : Uuid} {x : ExecutionUnit}
    {f : ExecutionUnit → ExecutionUnit} {W : Table Uuid WorkItem} {D : Table Uuid Dispatch}
    {R : List RoutingRecord} {E : List WorkItemEvent}
    (hx : s.planExecutionUnits.find? u = some x) (hf : x.Same (f x)) (hl : .executionUnit u ∈ l)
    (hW : Evolves RowKey.workItem (fun _ _ => True) l s.projectWorkItems W)
    (hD : Evolves RowKey.dispatch Dispatch.Same l s.planExecutionDispatches D)
    (hnew : ∀ v d, s.planExecutionDispatches.find? v = none → D.find? v = some d →
      .executionUnit v ∈ l ∧ ∃ x, s.planExecutionUnits.find? v = some x ∧
        d.planRevisionId = x.planRevisionId ∧ s.successorOf x.planRevisionId = none)
    (hR : s.agentRoutingDecisions <+: R)
    (hassign : x.state = .ready → (f x).state ≠ .ready → s.successorOf x.planRevisionId = none)
    (hcomplete : (f x).state = .completed → x.state = .completed) :
    Guarantee l s { s with
      planExecutionUnits := s.planExecutionUnits.modify u f
      projectWorkItems := W
      planExecutionDispatches := D
      agentRoutingDecisions := R
      workItemEvents := E } := by
  -- a unit of the new state comes from one of the old
  have hback : ∀ v y, (s.planExecutionUnits.modify u f).find? v = some y →
      ∃ z, s.planExecutionUnits.find? v = some z ∧ ((v = u ∧ z = x ∧ y = f x) ∨ y = z) := by
    intro v y hy
    rcases Table.exists_of_find?_modify hy with ⟨z, hz, rfl⟩
    refine ⟨z, hz, ?_⟩
    split_ifs with heq
    · subst heq
      rw [hx] at hz
      cases hz
      exact Or.inl ⟨rfl, rfl, rfl⟩
    · exact Or.inr rfl
  refine { Guarantee.refl l s with
    units := .modify ExecutionUnit.Same.refl ?_ hl
    items := hW
    dispatches := hD
    dispatch_new := hnew
    routing := hR
    unit_new := ?_
    assign := ?_
    complete := ?_ }
  · intro z hz
    rw [hx] at hz
    cases hz
    exact hf
  · intro v y hn hy
    rcases hback v y hy with ⟨z, hz, -⟩
    rw [hn] at hz
    cases hz
  · intro v z y hz hy hready hne
    rcases hback v y hy with ⟨z', hz', ⟨rfl, rfl, rfl⟩ | rfl⟩
    · rw [hz'] at hz
      cases hz
      exact hassign hready hne
    · rw [hz'] at hz
      cases hz
      exact absurd hready hne
  · intro v z y hz hy hne hdone
    rcases hback v y hy with ⟨z', hz', ⟨rfl, rfl, rfl⟩ | rfl⟩
    · rw [hz'] at hz
      cases hz
      exact absurd (hcomplete hdone) hne
    · rw [hz'] at hz
      cases hz
      exact absurd hdone hne

theorem evolves_mirror {l : List RowKey} {s : Db} {w : Uuid} {f : WorkItem → WorkItem}
    (hl : .workItem w ∈ l) : Evolves RowKey.workItem (fun _ _ => True) l s.projectWorkItems
      (s.projectWorkItems.modify w f) :=
  .modify (fun _ => trivial) (fun _ _ => trivial) hl

theorem guarantee_applyAssignment {u : Uuid} {decision : RoutingDecision}
    {auditRef : Option String} {rid : Uuid} {now : Time} {s : Db}
    {o : Outcome Db RowKey AssignmentOutcome}
    (h : exec (applyAssignment u decision auditRef rid now) s = .ok o) :
    Guarantee o.locks s o.state := by
  rcases exec_applyAssignment h with ⟨x, hx, hauth, hl, ⟨-, -, hs⟩ | ⟨hready, -, hs⟩ |
    ⟨hready, -, hlw, p, st, -, hs⟩⟩
  · rw [hs]
    exact Guarantee.refl _ _
  · rw [hs]
    apply guarantee_unit hx ⟨rfl, ?_⟩ hl (.refl fun _ => trivial) (.refl Dispatch.Same.refl)
    · intro v d hn hd
      rw [hn] at hd
      cases hd
    · exact List.prefix_append _ _
    · intro _ _
      exact hauth.current
    · exact id
    · simp [hready]
  · rw [hs]
    apply guarantee_unit hx ⟨rfl, ?_⟩ hl (evolves_mirror hlw) (.refl Dispatch.Same.refl)
    · intro v d hn hd
      rw [hn] at hd
      cases hd
    · exact List.prefix_append _ _
    · intro _ _
      exact hauth.current
    · simp [assignRow]
    · simp [hready]

theorem guarantee_createDispatch {u : Uuid} {auditRef : Option String} {c : Uuid} {now : Time}
    {s : Db} {o : Outcome Db RowKey DispatchOutcome}
    (h : exec (createDispatch u auditRef c now) s = .ok o) : Guarantee o.locks s o.state := by
  rcases exec_createDispatch h with ⟨x, hx, hauth, hl, ⟨-, hs, -⟩ |
    ⟨hass, hn, hld, hlw, p, st, E, -, -, -, hs⟩⟩
  · rw [hs]
    exact Guarantee.refl _ _
  · rw [hs]
    apply guarantee_unit hx ⟨rfl, ?_⟩ hl (evolves_mirror hlw) (.insert Dispatch.Same.refl hn hld)
    · intro v d hnv hd
      by_cases hv : v = u
      · subst hv
        rw [Table.find?_insert_self] at hd
        cases hd
        exact ⟨hl, x, hx, rfl, hauth.current⟩
      · rw [Table.find?_insert_of_ne _ _ hv, hnv] at hd
        cases hd
    · exact List.prefix_refl _
    · simp [hass]
    · simp [dispatchUnit]
    · simp [hass]

theorem guarantee_markDispatchPublished {u : Uuid} {now : Time} {s : Db}
    {o : Outcome Db RowKey Bool} (h : exec (markDispatchPublished u now) s = .ok o) :
    Guarantee o.locks s o.state := by
  rcases exec_markDispatchPublished.mp h with ⟨d, hd, hp, rfl⟩ | ⟨-, rfl⟩
  · refine { Guarantee.refl [.dispatch u] s with
      dispatches := .modify Dispatch.Same.refl ?_ (by simp)
      dispatch_new := ?_ }
    · intro d' hd'
      rw [hd] at hd'
      cases hd'
      exact ⟨some now, rfl, fun hne => absurd hp hne⟩
    · intro v d' hn hd'
      rcases Table.exists_of_find?_modify hd' with ⟨z, hz, -⟩
      rw [hn] at hz
      cases hz
  · exact Guarantee.refl _ _

theorem guarantee_setLifecycleState {w : Uuid} {st : String} {now : Time} {s : Db}
    {o : Outcome Db RowKey Unit} (h : exec (setLifecycleState w st now) s = .ok o) :
    Guarantee o.locks s o.state := by
  rw [exec_setLifecycleState] at h
  subst h
  exact { Guarantee.refl [.workItem w] s with items := evolves_mirror (by simp) }

/-! ## The invariant -/

theorem isSome_find?_modify {R : Type} (T : Table Uuid R) (w k : Uuid) (f : R → R) :
    ((T.modify w f).find? k).isSome = (T.find? k).isSome := by
  rw [Table.find?_modify]
  split_ifs with h
  · rw [h, Option.isSome_map]
  · rfl

/-- Moving a unit changes no structure. -/
theorem sameShape_unit {s : Db} {u : Uuid} {x : ExecutionUnit} {f : ExecutionUnit → ExecutionUnit}
    {W : Table Uuid WorkItem} {D : Table Uuid Dispatch} {R : List RoutingRecord}
    {E : List WorkItemEvent} (hx : s.planExecutionUnits.find? u = some x)
    (hf : (f x).identity = x.identity)
    (hW : ∀ w, (W.find? w).isSome = (s.projectWorkItems.find? w).isSome)
    (hR : ∀ rec ∈ R, rec ∈ s.agentRoutingDecisions ∨ rec.workItemId = some x.workItemId) :
    SameShape s { s with
      planExecutionUnits := s.planExecutionUnits.modify u f
      projectWorkItems := W
      planExecutionDispatches := D
      agentRoutingDecisions := R
      workItemEvents := E } where
  goals := rfl
  revisions := rfl
  lineages := rfl
  graphs := rfl
  edges := rfl
  units := by
    intro v
    rw [Table.find?_modify]
    split_ifs with hv
    · subst hv
      simp [hx, hf]
    · rfl
  items := hW
  routing := by
    intro rec hrec
    rcases hR rec hrec with h | h
    · exact Or.inl h
    · exact Or.inr ⟨u, x, hx, h⟩

/-- A move that neither blocks, unblocks nor completes the unit keeps the invariant when the
books still balance. -/
theorem UnitMoves.inv {s t : Db} {u : Uuid} {x y : ExecutionUnit} (h : UnitMoves s t u x y)
    (hsh : SameShape s t) (hinv : Inv s) (hb : y.state = .blocked ↔ x.state = .blocked)
    (hc : y.state = .completed ↔ x.state = .completed) (hbooks : Books t) : Inv t := by
  refine ⟨hsh.lineage hinv.revisions, hsh.shape hinv.shape, ?_, hbooks⟩
  refine hinv.gate.of_sameShape hsh fun v z z' hz hz' => ?_
  rw [h.units] at hz'
  split_ifs at hz' with hv
  · subst hv
    cases hz'
    have heq : z = x := Option.some.inj (hz.symm.trans h.row)
    rw [heq]
    exact ⟨hb, hc⟩
  · rw [hz] at hz'
    cases hz'
    exact ⟨Iff.rfl, Iff.rfl⟩

/-- The moves of one unit, as a table update with or without the mirror. -/
theorem unitMoves_modify {s t : Db} {u : Uuid} {x : ExecutionUnit}
    {f : ExecutionUnit → ExecutionUnit} (hx : s.planExecutionUnits.find? u = some x)
    (hf : (f x).identity = x.identity)
    (hu : t.planExecutionUnits = s.planExecutionUnits.modify u f)
    (hmirror : ∀ i, t.projectWorkItems.find? x.workItemId = some i →
      i.status = workItemStatusFor (f x).state)
    (hitems : ∀ w, w ≠ x.workItemId →
      t.projectWorkItems.find? w = s.projectWorkItems.find? w) : UnitMoves s t u x (f x) where
  row := hx
  identity := hf
  units := by
    intro v
    rw [hu, Table.find?_modify, hx]
    rfl
  mirror := hmirror
  items := hitems

theorem selectedDecisions_append {s t : Db} (rec : RoutingRecord)
    (h : t.agentRoutingDecisions = s.agentRoutingDecisions ++ [rec]) (w : Uuid) :
    t.selectedDecisions w = s.selectedDecisions w ++
      if rec.workItemId = some w ∧ rec.decision.outcome = .selected then [rec] else [] := by
  simp [Db.selectedDecisions, h, List.filter_append, List.filter_singleton]

/-- A unit that was never handed over has no dispatch. -/
theorem Books.no_dispatch {s : Db} (hb : Books s) {u : Uuid} {x : ExecutionUnit}
    (hx : s.planExecutionUnits.find? u = some x) (hst : x.state.handedOver = false) :
    s.planExecutionDispatches.find? u = none := by
  cases hd : s.planExecutionDispatches.find? u with
  | none => rfl
  | some d =>
    rcases hb.dispatch_unit u d hd with ⟨x', hx', hh, -⟩
    rw [hx] at hx'
    cases hx'
    rw [hst] at hh
    cases hh

theorem inv_unassignable {s : Db} {u : Uuid} {x : ExecutionUnit} {decision : RoutingDecision}
    {auditRef : Option String} {rid : Uuid} (hinv : Inv s)
    (hx : s.planExecutionUnits.find? u = some x) (hready : x.state = .ready)
    (hsel : decision.outcome ≠ .selected) :
    Inv (unassignableState s u x decision auditRef rid) := by
  have hb := hinv.books
  have hmove : UnitMoves s (unassignableState s u x decision auditRef rid) u x
      (unassignableRow decision rid x) :=
    unitMoves_modify hx rfl rfl (fun i hi => hb.mirrored u x i hx hi) (fun _ _ => rfl)
  have hroute : ∀ w, (unassignableState s u x decision auditRef rid).selectedDecisions w =
      s.selectedDecisions w := by
    intro w
    rw [selectedDecisions_append (routingRecord x decision auditRef rid) rfl]
    simp [routingRecord, hsel]
  have hshape : SameShape s (unassignableState s u x decision auditRef rid) := by
    apply sameShape_unit hx rfl (fun _ => rfl)
    intro rec hrec
    rcases List.mem_append.mp hrec with hrec | hrec
    · exact Or.inl hrec
    · rw [List.mem_singleton.mp hrec]
      exact Or.inr rfl
  apply hmove.inv hshape hinv Iff.rfl Iff.rfl
  have hstate : (unassignableRow decision rid x).state = .ready := hready
  apply hmove.books hinv.shape hb
  · simp [hstate]
  · simp [hstate, UnitState.unowned]
  · intro v _
    rfl
  · intro d hd
    have hno := hb.no_dispatch hx (by simp [hready, UnitState.handedOver])
    exact absurd (hno.symm.trans hd) (by simp)
  · simp [hstate, UnitState.handedOver]
  · intro w _
    exact hroute w
  · intro _
    rw [hroute]
    exact hb.unrouted u x hx (by simp [hready, UnitState.unowned])
  · simp [hstate, UnitState.unowned]

theorem inv_assigned {s : Db} {u : Uuid} {x : ExecutionUnit} {decision : RoutingDecision}
    {auditRef : Option String} {rid : Uuid} {now : Time} {p : Uuid} {st : String} (hinv : Inv s)
    (hx : s.planExecutionUnits.find? u = some x) (hready : x.state = .ready)
    (hsel : decision.outcome = .selected) :
    Inv (assignedState s u x decision auditRef rid now p st) := by
  have hb := hinv.books
  have hmove : UnitMoves s (assignedState s u x decision auditRef rid now p st) u x
      (assignRow decision p st rid now x) := by
    apply unitMoves_modify hx rfl rfl
    · intro i hi
      rcases Table.exists_of_find?_modify hi with ⟨i₀, -, rfl⟩
      simp [assignRow]
    · intro w hw
      exact Table.find?_modify_of_ne _ _ hw
  have hroute := selectedDecisions_append (routingRecord x decision auditRef rid)
    (s := s) (t := assignedState s u x decision auditRef rid now p st) rfl
  have hshape : SameShape s (assignedState s u x decision auditRef rid now p st) := by
    apply sameShape_unit hx rfl
    · exact fun w => isSome_find?_modify _ _ _ _
    · intro rec hrec
      rcases List.mem_append.mp hrec with hrec | hrec
      · exact Or.inl hrec
      · rw [List.mem_singleton.mp hrec]
        exact Or.inr rfl
  apply hmove.inv hshape hinv (by simp [assignRow, hready]) (by simp [assignRow, hready])
  apply hmove.books hinv.shape hb
  · simp [assignRow]
  · exact fun _ => ⟨p, st, rfl, rfl⟩
  · intro v _
    rfl
  · intro d hd
    have hno := hb.no_dispatch hx (by simp [hready, UnitState.handedOver])
    exact absurd (hno.symm.trans hd) (by simp)
  · simp [assignRow, UnitState.handedOver]
  · intro w hw
    rw [hroute]
    simp [routingRecord, hw.symm]
  · simp [assignRow, UnitState.unowned]
  · intro _
    refine ⟨routingRecord x decision auditRef rid, ?_, rfl⟩
    rw [hroute, hb.unrouted u x hx (by simp [hready, UnitState.unowned])]
    simp [routingRecord, hsel]

theorem inv_applyAssignment {u : Uuid} {decision : RoutingDecision}
    {auditRef : Option String} {rid : Uuid} {now : Time} {s : Db}
    {o : Outcome Db RowKey AssignmentOutcome} (hinv : Inv s)
    (h : exec (applyAssignment u decision auditRef rid now) s = .ok o) : Inv o.state := by
  rcases exec_applyAssignment h with ⟨x, hx, -, -, ⟨-, -, hs⟩ | ⟨hready, hsel, hs⟩ |
    ⟨hready, hsel, -, p, st, -, hs⟩⟩
  · rw [hs]
    exact hinv
  · rw [hs]
    exact inv_unassignable hinv hx hready hsel
  · rw [hs]
    exact inv_assigned hinv hx hready hsel

theorem inv_createDispatch {u : Uuid} {auditRef : Option String} {c : Uuid} {now : Time}
    {s : Db} {o : Outcome Db RowKey DispatchOutcome} (hinv : Inv s)
    (h : exec (createDispatch u auditRef c now) s = .ok o) : Inv o.state := by
  rcases exec_createDispatch h with ⟨x, hx, -, -, ⟨-, hs, -⟩ |
    ⟨hass, -, -, -, p, st, E, hp, hst, -, hs⟩⟩
  · rw [hs]
    exact hinv
  have hb := hinv.books
  rw [hs]
  have hmove : UnitMoves s o.state u x (dispatchUnit x) := by
    rw [hs]
    apply unitMoves_modify hx rfl rfl
    · intro i hi
      rcases Table.exists_of_find?_modify hi with ⟨i₀, -, rfl⟩
      simp [dispatchUnit]
    · intro w hw
      exact Table.find?_modify_of_ne _ _ hw
  rw [hs] at hmove
  have hshape := sameShape_unit (f := dispatchUnit)
    (W := s.projectWorkItems.modify x.workItemId (mirrorRow .dispatched none none now))
    (D := s.planExecutionDispatches.insert u (dispatchRow x p st c auditRef))
    (R := s.agentRoutingDecisions) (E := E) hx rfl (fun w => isSome_find?_modify _ _ _ _)
    (fun _ h => Or.inl h)
  apply hmove.inv hshape hinv (by simp [dispatchUnit, hass]) (by simp [dispatchUnit, hass])
  apply hmove.books hinv.shape hb
  · simp [dispatchUnit]
  · exact fun _ => ⟨p, st, hp, hst⟩
  · intro v hv
    exact Table.find?_insert_of_ne _ _ hv
  · intro d hd
    rw [Table.find?_insert_self] at hd
    cases hd
    exact ⟨rfl, hp, hst, rfl⟩
  · intro _
    exact ⟨_, Table.find?_insert_self ..⟩
  · intro w _
    rfl
  · simp [dispatchUnit, UnitState.unowned]
  · intro _
    exact hb.routed u x hx (by simp [hass, UnitState.unowned])

theorem inv_markDispatchPublished {u : Uuid} {now : Time} {s : Db}
    {o : Outcome Db RowKey Bool} (hinv : Inv s)
    (h : exec (markDispatchPublished u now) s = .ok o) : Inv o.state := by
  rcases exec_markDispatchPublished.mp h with ⟨d, hd, hp, rfl⟩ | ⟨-, rfl⟩
  swap
  · exact hinv
  refine ⟨{ hinv.revisions with }, { hinv.shape with }, hinv.gate, { hinv.books with
    dispatch_unit := ?_
    unit_dispatch := ?_ }⟩
  · intro v d' hd'
    rcases Table.exists_of_find?_modify hd' with ⟨d₀, hd₀, rfl⟩
    rcases hinv.books.dispatch_unit v d₀ hd₀ with ⟨x, hx, hh, hof⟩
    refine ⟨x, hx, hh, ?_⟩
    split_ifs
    · exact hof
    · exact hof
  · intro v x hx hh
    rcases hinv.books.unit_dispatch v x hx hh with ⟨d₀, hd₀⟩
    by_cases hv : v = u
    · subst hv
      exact ⟨_, by rw [Table.find?_modify_self, hd₀]; rfl⟩
    · exact ⟨d₀, by rw [Table.find?_modify_of_ne _ _ hv, hd₀]⟩

theorem inv_setLifecycleState {w : Uuid} {st : String} {now : Time} {s : Db}
    {o : Outcome Db RowKey Unit} (hinv : Inv s)
    (h : exec (setLifecycleState w st now) s = .ok o) : Inv o.state := by
  rw [exec_setLifecycleState] at h
  subst h
  have hsh : SameShape s { s with
      projectWorkItems := s.projectWorkItems.modify w fun w =>
        { w with
          lifecycleState := st
          completedAt := if st = "completed" then some now else w.completedAt } } :=
    { SameShape.refl s with items := fun k => isSome_find?_modify _ _ _ _ }
  refine ⟨hsh.lineage hinv.revisions, hsh.shape hinv.shape, hinv.gate,
    { hinv.books with mirrored := ?_ }⟩
  intro u x i hx hi
  rcases Table.exists_of_find?_modify hi with ⟨i₀, hi₀, rfl⟩
  have hm := hinv.books.mirrored u x i₀ hx hi₀
  by_cases heq : x.workItemId = w
  · rw [if_pos heq]
    exact hm
  · rw [if_neg heq]
    exact hm

end AiAgentsSwd.Planning
