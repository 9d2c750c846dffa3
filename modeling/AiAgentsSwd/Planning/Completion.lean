import AiAgentsSwd.Planning.Dependencies
import AiAgentsSwd.Planning.Service

/-!
# Planning.Completion — no stuck graph

A graph without a failed unit always has work to do until it is completed, and a driver
that schedules the graph and reports every dispatched unit as succeeded completes it in at
most as many rounds as its plan has steps.

- `Inv.exists_active`: in a graph that is neither failed nor completed some unit is ready,
  assigned or dispatched, by the rank of its dependencies;
- `advanceUnit_returns`, `scheduleReadyWork_returns`: a pass dispatches everything due;
- `completionRound_spec`: a round completes every unit that was active;
- `no_stuck_graph`: the result for every reachable database.
-/

namespace AiAgentsSwd.Planning

open Keyed (Table Evolves)
open ReadCommitted ReadCommitted.Txn ReadCommitted.Client

/-! ## Something is always active -/

/-- The unit waits for the scheduler or for its result. -/
def UnitState.active : UnitState → Bool
  | .ready | .assigned | .dispatched => true
  | _ => false

/-- Every unit of the revision is completed. -/
def Db.AllCompleted (s : Db) (r : Uuid) : Prop :=
  ∀ u x, s.planExecutionUnits.find? u = some x → x.planRevisionId = r → x.state = .completed

/-- No unit of the revision is failed. -/
def Db.NoneFailed (s : Db) (r : Uuid) : Prop :=
  ∀ u x, s.planExecutionUnits.find? u = some x → x.planRevisionId = r → x.state ≠ .failed

/-- A minimal unit among those not completed has all its dependencies completed. -/
theorem Inv.exists_active {s : Db} (h : Inv s) {r : Uuid} (hf : s.NoneFailed r)
    (hc : ¬ s.AllCompleted r) :
    ∃ u x, s.planExecutionUnits.find? u = some x ∧ x.planRevisionId = r ∧
      x.state.active = true := by
  let open' (w : Uuid) := ∃ u x, s.planExecutionUnits.find? u = some x ∧ x.planRevisionId = r ∧
    x.workItemId = w ∧ x.state ≠ .completed
  have hex : ∃ w, open' w := by
    unfold Db.AllCompleted at hc
    push Not at hc
    rcases hc with ⟨u, x, hx, hr, hne⟩
    exact ⟨x.workItemId, u, x, hx, hr, rfl, hne⟩
  rcases h.shape.acyclic with ⟨rank, hrank⟩
  have hlower : ∀ w d, open' w → s.DependsOn w d → rank d < rank w := by
    rintro w d ⟨u, x, hx, -, rfl, -⟩ hd
    exact hrank u x d hx hd
  rcases Digraph.exists_minimal hlower hex with ⟨w, ⟨u, x, hx, hr, rfl, hne⟩, hmin⟩
  -- every dependency of the minimal unit is a unit of the graph, hence completed
  have hunlocked : s.Unlocked x.workItemId := by
    intro d hd
    rcases h.shape.edge_unit u x d hx hd with ⟨v, z, hz, hzd, hzr⟩
    by_contra hnot
    apply hmin d hd
    refine ⟨v, z, hz, hzr.trans hr, hzd, fun hdone => hnot ⟨v, z, hz, hzd, hdone⟩⟩
  have hblocked : x.state ≠ .blocked := by
    intro hb
    exact (h.gate u x hx).mp hb hunlocked
  refine ⟨u, x, hx, hr, ?_⟩
  have hfailed := hf u x hx hr
  have hlive := h.books.live u x hx
  cases hst : x.state <;> simp_all [UnitState.active]

/-! ## What lets new work through -/

/-- New work may be authorized for the revision: it is current and accepted, and the
primary work item of its goal is not cancelled. -/
structure Db.Open (s : Db) (r : Uuid) : Prop where
  current : s.successorOf r = none
  lineage : ∃ rev lin w, s.planRevisions.find? r = some rev ∧ rev.status = .accepted ∧
    s.goalExecutionLineage.find? rev.goalId = some lin ∧
    s.projectWorkItems.find? lin.primaryWorkItemId = some w ∧ w.isCancelled = false

/-- The decision selects a principal and the tables and the transport admit it. -/
structure RoutingDecision.Admissible (s : Db) (d : RoutingDecision) : Prop where
  selected : d.outcome = .selected
  admitted : s.routingViolation d = none
  safeKey : isSafeAgentKey (d.selectedAgentKey.getD "") = true

/-- The decision the pass takes for a unit. -/
def Environment.decisionFor (env : Environment) (x : ExecutionUnit) : RoutingDecision :=
  env.resolveStepAssignment x.requiredCapabilities x.projectId x.intendedOwnerRole x.workItemId

/-- Every unit of the revision would be routed to an admissible principal. -/
def Environment.Admits (env : Environment) (s : Db) (r : Uuid) : Prop :=
  ∀ u x, s.planExecutionUnits.find? u = some x → x.planRevisionId = r →
    (env.decisionFor x).Admissible s

theorem WorkItem.Kept.not_cancelled {w w' : WorkItem} (h : w.Kept w')
    (hw : w.isCancelled = false) : w'.isCancelled = false := by
  unfold WorkItem.isCancelled at *
  simp only [decide_eq_false_iff_not, not_or] at *
  rw [h.1]
  exact ⟨fun hc => hw.1 (h.2 hc), hw.2⟩

/-- Moving units cancels nothing. -/
theorem Db.Open.of_sameShape {s t : Db} {r : Uuid} (ho : s.Open r) (h : SameShape s t)
    (hitems : ∀ w x, s.projectWorkItems.find? w = some x →
      ∃ y, t.projectWorkItems.find? w = some y ∧ x.Kept y) : t.Open r where
  current := by
    have hc := ho.current
    unfold Db.successorOf at hc ⊢
    rw [h.revisions]
    exact hc
  lineage := by
    rcases ho.lineage with ⟨rev, lin, w, hrev, hacc, hlin, hw, hnc⟩
    rcases hitems _ w hw with ⟨w', hw', hkept⟩
    rw [h.revisions, h.lineages]
    exact ⟨rev, lin, w', hrev, hacc, hlin, hw', hkept.not_cancelled hnc⟩

/-- A unit belongs to the goal of its revision. -/
theorem Inv.unit_goal {s : Db} (h : Inv s) {u : Uuid} {x : ExecutionUnit} {rev : PlanRevision}
    (hx : s.planExecutionUnits.find? u = some x)
    (hrev : s.planRevisions.find? x.planRevisionId = some rev) : rev.goalId = x.goalId := by
  rcases h.shape.graph u x hx with ⟨g, hg, hgoal⟩
  rcases h.shape.materialized _ g hg with ⟨rev', plan, hrev', hgoal', -⟩
  have heq : rev' = rev := Option.some.inj (hrev'.symm.trans hrev)
  rw [← heq, hgoal', hgoal]

/-- The gates in front of new work let an open revision through. -/
theorem succeeds_gates {s : Db} (hinv : Inv s) {u : Uuid} {x : ExecutionUnit}
    (hx : s.planExecutionUnits.find? u = some x) (ho : s.Open x.planRevisionId) {α : Type}
    (p : PlanTxn α) :
    Succeeds ((confirmDispatchableRevision x.goalId x.planRevisionId).bind fun _ =>
      (assertLineageNotCancelled x.goalId).bind fun _ => p) s ↔ Succeeds p s := by
  rcases ho.lineage with ⟨rev, lin, w, hrev, hacc, hlin, hw, hnc⟩
  have hgoal := hinv.unit_goal hx hrev
  rw [hgoal] at hlin
  have hconfirm : exec (confirmDispatchableRevision x.goalId x.planRevisionId) s =
      .ok ⟨rev, s, [.planRevision x.planRevisionId]⟩ :=
    exec_confirmDispatchableRevision.mpr ⟨rev, hrev, hgoal, ho.current, hacc, rfl⟩
  have hassert : exec (assertLineageNotCancelled x.goalId) s =
      .ok ⟨(), s, [.workItem lin.primaryWorkItemId]⟩ :=
    exec_assertLineageNotCancelled.mpr ⟨lin, w, hlin, hw, hnc, rfl⟩
  simp only [succeeds_bind, hconfirm, hassert, Except.ok.injEq, exists_eq_left']

/-- An admissible decision for a ready unit of an open revision is applied. -/
theorem succeeds_applyAssignment {s : Db} (hinv : Inv s) {u : Uuid} {x : ExecutionUnit}
    (hx : s.planExecutionUnits.find? u = some x) (hready : x.state = .ready)
    (ho : s.Open x.planRevisionId) {d : RoutingDecision} (hd : d.Admissible s)
    (a : Option String) (i : Uuid) (now : Time) :
    Succeeds (applyAssignment u d a i now) s := by
  have hprincipal : d.selectedPrincipalId.isSome = true := by
    have hviol := hd.admitted
    unfold Db.routingViolation at hviol
    by_contra hnone
    rw [if_pos (by simp [hd.selected, hnone])] at hviol
    cases hviol
  rcases Option.isSome_iff_exists.mp hprincipal with ⟨p, hp⟩
  have hstream : ∃ st, delegationStreamFor (d.selectedAgentKey.getD "") = some st := by
    unfold delegationStreamFor
    rw [if_pos hd.safeKey]
    exact ⟨_, rfl⟩
  rcases hstream with ⟨st, hst⟩
  simp only [applyAssignment, bind_eq, requireUnit, select_bind, query_bind, succeeds_query, hx,
    pure_eq, done_bind]
  rw [succeeds_gates hinv hx ho]
  simp only [lockUnit, bind_eq, lockRow_bind, lock_bind, select, query_bind, done_bind,
    succeeds_lock, succeeds_query, hx]
  rw [if_neg (not_not.mpr hready)]
  simp only [recordRoutingDecision, bind_eq, select_bind, query_bind, succeeds_query, hd.admitted,
    modify_bind, write_bind, pure_eq, done_bind, succeeds_write]
  rw [if_neg (not_not.mpr hd.selected)]
  simp only [hp, hst]
  refine (succeeds_updateUnit_bind (x := x) ?_ hready).mpr ?_
  · exact hx
  · rw [succeeds_mirrorWorkItem_bind]
    exact succeeds_done _ _

/-- An assigned unit of an open revision is dispatched. -/
theorem succeeds_createDispatch {s : Db} (hinv : Inv s) {u : Uuid} {x : ExecutionUnit}
    (hx : s.planExecutionUnits.find? u = some x) (hass : x.state = .assigned)
    (ho : s.Open x.planRevisionId) (a : Option String) (c : Uuid) (now : Time) :
    Succeeds (createDispatch u a c now) s := by
  rcases hinv.books.owned u x hx (by simp [hass, UnitState.unowned]) with ⟨p, st, hp, hst⟩
  have hno := hinv.books.no_dispatch hx (by simp [hass, UnitState.handedOver])
  simp only [createDispatch, bind_eq, requireUnit, select_bind, query_bind, succeeds_query, hx,
    pure_eq, done_bind]
  rw [succeeds_gates hinv hx ho]
  simp only [lockUnit, bind_eq, lockRow_bind, lock_bind, select, query_bind, done_bind,
    succeeds_lock, succeeds_query, hx]
  rw [if_neg (by simp [hass]), if_neg (not_not.mpr hass)]
  simp only [hp, hst, insertDispatch, bind_eq, lockRow_bind, lock_bind, select_bind, query_bind,
    succeeds_lock, succeeds_query, hno, Option.isSome_none, Bool.false_eq_true, if_false,
    write_bind, done_bind, succeeds_write, Txn.modify]
  refine (succeeds_updateUnit_bind (x := x) ?_ hass).mpr ?_
  · exact hx
  · simp only [succeeds_mirrorWorkItem_bind, recordWorkItemEvent, modify_bind, succeeds_write,
      succeeds_done]

/-! ## What the driver keeps -/

/-- What holds from the start of a stretch of the driver to its end. -/
structure Drives (r : Uuid) (s t : Db) : Prop where
  inv : Inv t
  opened : t.Open r
  principals : t.actorPrincipals = s.actorPrincipals
  shape : SameShape s t
  completed : ∀ u x, s.planExecutionUnits.find? u = some x → x.state = .completed →
    t.planExecutionUnits.find? u = some x
  failed : ∀ u y, t.planExecutionUnits.find? u = some y → y.state = .failed →
    s.planExecutionUnits.find? u = some y

theorem Drives.refl {r : Uuid} {s : Db} (h : Inv s) (ho : s.Open r) : Drives r s s :=
  ⟨h, ho, rfl, .refl s, fun _ _ hx _ => hx, fun _ _ hy _ => hy⟩

theorem Drives.trans {r : Uuid} {s t u : Db} (h : Drives r s t) (h' : Drives r t u) :
    Drives r s u where
  inv := h'.inv
  opened := h'.opened
  principals := h'.principals.trans h.principals
  shape := h.shape.trans h'.shape
  completed := fun v x hx hc => h'.completed v x (h.completed v x hx hc) hc
  failed := fun v y hy hf => h.failed v y (h'.failed v y hy hf) hf

/-- The stretch moved the one unit `u`, to the row `y`. -/
structure Moves (r u : Uuid) (y : ExecutionUnit) (s t : Db) : Prop extends Drives r s t where
  row : t.planExecutionUnits.find? u = some y
  others : ∀ v, v ≠ u → t.planExecutionUnits.find? v = s.planExecutionUnits.find? v

/-- A transaction that moves a unit which is not completed to a state that is not failed. -/
theorem Moves.of_modify {r u : Uuid} {x : ExecutionUnit} {f : ExecutionUnit → ExecutionUnit}
    {s t : Db} (hinv : Inv t) (ho : s.Open r) (hp : t.actorPrincipals = s.actorPrincipals)
    (hsh : SameShape s t) (hitems : ∀ w i, s.projectWorkItems.find? w = some i →
      ∃ j, t.projectWorkItems.find? w = some j ∧ i.Kept j)
    (hx : s.planExecutionUnits.find? u = some x) (hxc : x.state ≠ .completed)
    (hf : (f x).state ≠ .failed)
    (hu : t.planExecutionUnits = s.planExecutionUnits.modify u f) : Moves r u (f x) s t := by
  have hrow : t.planExecutionUnits.find? u = some (f x) := by
    rw [hu, Table.find?_modify_self, hx]
    rfl
  have hothers : ∀ v, v ≠ u → t.planExecutionUnits.find? v = s.planExecutionUnits.find? v := by
    intro v hv
    rw [hu, Table.find?_modify_of_ne _ _ hv]
  refine ⟨⟨hinv, ho.of_sameShape hsh hitems, hp, hsh, ?_, ?_⟩, hrow, hothers⟩
  · intro v z hz hc
    have hv : v ≠ u := by
      rintro rfl
      rw [hx] at hz
      cases hz
      exact hxc hc
    rw [hothers v hv]
    exact hz
  · intro v z hz hfail
    have hv : v ≠ u := by
      rintro rfl
      rw [hrow] at hz
      cases hz
      exact hf hfail
    rw [← hothers v hv]
    exact hz

/-- Mirroring a live unit's state keeps every work item as cancelled as it was. -/
theorem kept_modify {s : Db} {w₀ : Uuid} {st : UnitState} (hst : st ≠ .cancelled)
    (a role : Option String) (now : Time) (w : Uuid) (i : WorkItem)
    (hi : s.projectWorkItems.find? w = some i) :
    ∃ j, (s.projectWorkItems.modify w₀ (mirrorRow st a role now)).find? w = some j ∧ i.Kept j := by
  rw [Table.find?_modify]
  split_ifs with hw
  · subst hw
    exact ⟨_, by rw [hi]; rfl, WorkItem.kept_mirrorRow hst a role now i⟩
  · exact ⟨i, hi, .refl i⟩

/-! ## One unit of a pass -/

section Pass

variable {env : Environment} {s : Db} {r u : Uuid} {x : ExecutionUnit}

theorem applyAssignment_returns (hinv : Inv s) (ho : s.Open x.planRevisionId)
    (hx : s.planExecutionUnits.find? u = some x) (hready : x.state = .ready)
    {d : RoutingDecision} (hd : d.Admissible s) (a : Option String) (i : Uuid) (now : Time) :
    Returns (transact (applyAssignment u d a i now)) s fun o t =>
      ∃ y rec, o = .assigned y rec ∧ y.state = .assigned ∧ Moves x.planRevisionId u y s t := by
  rcases succeeds_applyAssignment hinv hx hready ho hd a i now with ⟨o, h⟩
  apply returns_transact h
  have hinv' := inv_applyAssignment hinv h
  rcases exec_applyAssignment h with ⟨x', hx', -, -, ⟨hne, -, -⟩ | ⟨-, hne, -⟩ |
    ⟨-, -, -, p, st, hvalue, hstate⟩⟩
  · rw [hx] at hx'
    cases hx'
    exact absurd hready hne
  · exact absurd hd.selected hne
  rw [hx] at hx'
  cases hx'
  refine ⟨_, _, hvalue, rfl, ?_⟩
  rw [hstate] at hinv' ⊢
  apply Moves.of_modify hinv' ho rfl _ (kept_modify (by simp) _ _ _) hx (by simp [hready])
    (by simp [assignRow]) rfl
  apply sameShape_unit hx rfl (fun w => isSome_find?_modify _ _ _ _)
  intro rec hrec
  rcases List.mem_append.mp hrec with hrec | hrec
  · exact Or.inl hrec
  · rw [List.mem_singleton.mp hrec]
    exact Or.inr rfl

theorem createDispatch_returns (hinv : Inv s) (ho : s.Open x.planRevisionId)
    (hx : s.planExecutionUnits.find? u = some x) (hass : x.state = .assigned)
    (a : Option String) (c : Uuid) (now : Time) :
    Returns (transact (createDispatch u a c now)) s fun o t =>
      ∃ d, o = .dispatched (dispatchUnit x) d ∧
        Moves x.planRevisionId u (dispatchUnit x) s t := by
  rcases succeeds_createDispatch hinv hx hass ho a c now with ⟨o, h⟩
  apply returns_transact h
  have hinv' := inv_createDispatch hinv h
  rcases exec_createDispatch h with ⟨x', hx', -, -, ⟨hdisp, -, -⟩ |
    ⟨-, -, -, -, p, st, E, -, -, hvalue, hstate⟩⟩
  · rw [hx] at hx'
    cases hx'
    rw [hass] at hdisp
    cases hdisp
  rw [hx] at hx'
  cases hx'
  refine ⟨_, hvalue, ?_⟩
  rw [hstate] at hinv' ⊢
  apply Moves.of_modify hinv' ho rfl _ (kept_modify (by simp) _ _ _) hx (by simp [hass])
    (by simp [dispatchUnit]) rfl
  exact sameShape_unit hx rfl (fun w => isSome_find?_modify _ _ _ _) fun _ h => Or.inl h

/-- Publishing moves no unit. -/
theorem markDispatchPublished_returns (hinv : Inv s) (ho : s.Open r) (u : Uuid) (now : Time) :
    Returns (transact (markDispatchPublished u now)) s fun _ t =>
      Drives r s t ∧ t.planExecutionUnits = s.planExecutionUnits := by
  by_cases hd : ∃ d, s.planExecutionDispatches.find? u = some d ∧ d.publishedAt = none
  · rcases hd with ⟨d, hd, hp⟩
    have h : exec (markDispatchPublished u now) s = .ok _ :=
      exec_markDispatchPublished.mpr (Or.inl ⟨d, hd, hp, rfl⟩)
    apply returns_transact h
    have hsh : SameShape s { s with
        planExecutionDispatches := s.planExecutionDispatches.modify u fun d =>
          { d with publishedAt := some now } } := { SameShape.refl s with }
    refine ⟨⟨inv_markDispatchPublished hinv h, ?_, rfl, hsh, fun _ _ hx _ => hx,
      fun _ _ hy _ => hy⟩, rfl⟩
    exact ho.of_sameShape hsh fun w i hi => ⟨i, hi, .refl i⟩
  · have hnone : ∀ d, s.planExecutionDispatches.find? u = some d → d.publishedAt ≠ none :=
      fun d hx hp => hd ⟨d, hx, hp⟩
    have h : exec (markDispatchPublished u now) s = .ok _ :=
      exec_markDispatchPublished.mpr (Or.inr ⟨hnone, rfl⟩)
    exact returns_transact h ⟨.refl hinv ho, rfl⟩

theorem publishDispatch_returns (hinv : Inv s) (ho : s.Open r)
    (hx : s.planExecutionUnits.find? u = some x) :
    (publishDispatch env u x).Returns s fun _ t =>
      Drives r s t ∧ t.planExecutionUnits = s.planExecutionUnits := by
  -- the goal of a unit has its lineage row
  rcases hinv.shape.graph u x hx with ⟨g, hg, hgoal⟩
  have hlin := hinv.shape.lineage _ g hg
  rw [hgoal] at hlin
  rcases Option.isSome_iff_exists.mp hlin with ⟨lin, hlin⟩
  unfold publishDispatch
  apply returns_bind (Q := fun a t => a = some lin ∧ t = s)
  · exact returns_fetch ⟨hlin, rfl⟩
  rintro a t ⟨rfl, rfl⟩
  dsimp only
  by_cases hpub : env.publish u = true
  · rw [if_neg (not_not.mpr hpub)]
    apply returns_bind (markDispatchPublished_returns hinv ho u env.now)
    intro _ t ht
    exact returns_pure ht
  · rw [if_pos hpub]
    exact returns_pure ⟨.refl hinv ho, rfl⟩

theorem finishAdvance_returns (hinv : Inv s) (ho : s.Open r)
    (hx : s.planExecutionUnits.find? u = some x) (d : Option Dispatch) (replay : Bool) :
    (finishAdvance env u x d replay).Returns s fun _ t =>
      Drives r s t ∧ t.planExecutionUnits = s.planExecutionUnits := by
  unfold finishAdvance
  apply returns_bind (Q := fun _ t => Drives r s t ∧ t.planExecutionUnits = s.planExecutionUnits)
  · unfold publishIfDue
    split_ifs
    · exact publishDispatch_returns hinv ho hx
    · exact returns_pure ⟨.refl hinv ho, rfl⟩
  · intro _ t ht
    exact returns_pure ht

/-- A stretch that moves no unit extends one that moved `u`. -/
theorem Moves.then_same {t t' : Db} {y : ExecutionUnit} (h : Moves r u y s t)
    (h' : Drives r t t') (hu : t'.planExecutionUnits = t.planExecutionUnits) :
    Moves r u y s t' := by
  refine ⟨h.toDrives.trans h', ?_, ?_⟩
  · rw [hu]
    exact h.row
  · intro v hv
    rw [hu]
    exact h.others v hv

/-- Two moves of the unit in a row. -/
theorem Moves.trans {t t' : Db} {y z : ExecutionUnit} (h : Moves r u y s t)
    (h' : Moves r u z t t') : Moves r u z s t' :=
  ⟨h.toDrives.trans h'.toDrives, h'.row, fun v hv => (h'.others v hv).trans (h.others v hv)⟩

theorem Moves.refl (hinv : Inv s) (ho : s.Open r) (hx : s.planExecutionUnits.find? u = some x) :
    Moves r u x s s :=
  ⟨.refl hinv ho, hx, fun _ _ => rfl⟩

/-- A unit with an owner ends up dispatched. -/
theorem dispatchUnitOnce_returns (hinv : Inv s) (ho : s.Open x.planRevisionId)
    (hx : s.planExecutionUnits.find? u = some x)
    (hst : x.state = .assigned ∨ x.state = .dispatched) :
    (dispatchUnitOnce env u x).Returns s fun _ t =>
      ∃ y, y.state = .dispatched ∧ Moves x.planRevisionId u y s t := by
  unfold dispatchUnitOnce
  by_cases hass : x.state = .assigned
  · rw [if_pos hass]
    apply returns_bind (createDispatch_returns hinv ho hx hass _ _ _)
    rintro o t ⟨d, rfl, hm⟩
    apply (finishAdvance_returns hm.inv hm.opened hm.row (some d) false).mono
    rintro _ t' ⟨hd, hu⟩
    exact ⟨dispatchUnit x, rfl, hm.then_same hd hu⟩
  · have hdisp := hst.resolve_left hass
    rw [if_neg hass, if_pos hdisp]
    apply returns_bind (Q := fun _ t => t = s)
    · exact returns_fetch rfl
    rintro d t rfl
    apply (finishAdvance_returns hinv ho hx d true).mono
    rintro _ t' ⟨hd, hu⟩
    exact ⟨x, hdisp, (Moves.refl hinv ho hx).then_same hd hu⟩

/-- A pass dispatches the active unit it comes to, and moves no other. -/
theorem advanceUnit_returns (hinv : Inv s) (ho : s.Open x.planRevisionId)
    (hx : s.planExecutionUnits.find? u = some x) (hact : x.state.active = true)
    (hd : (env.decisionFor x).Admissible s) :
    (advanceUnit env u x).Returns s fun _ t =>
      ∃ y, y.state = .dispatched ∧ Moves x.planRevisionId u y s t := by
  unfold advanceUnit
  by_cases hready : x.state = .ready
  · rw [if_pos hready]
    apply returns_bind (applyAssignment_returns hinv ho hx hready hd _ _ _)
    rintro o t ⟨y, rec, rfl, hy, hm⟩
    -- the assigned unit is of the same revision, which is still open
    have hr : y.planRevisionId = x.planRevisionId := by
      rcases hm.shape.unit_back hm.row with ⟨x', hx', hid⟩
      rw [hx] at hx'
      cases hx'
      exact congrArg UnitIdentity.planRevisionId hid
    have ho' := hm.opened
    rw [← hr] at ho'
    apply (dispatchUnitOnce_returns hm.inv ho' hm.row (Or.inl hy)).mono
    rintro _ t' ⟨z, hz, hm'⟩
    rw [hr] at hm'
    exact ⟨z, hz, hm.trans hm'⟩
  · rw [if_neg hready]
    apply dispatchUnitOnce_returns hinv ho hx
    cases hst : x.state <;> simp_all [UnitState.active]

end Pass

/-! ## A whole pass -/

theorem mem_schedulableUnits {s : Db} {r u : Uuid} {x : ExecutionUnit} :
    (u, x) ∈ s.schedulableUnits r ↔
      s.planExecutionUnits.find? u = some x ∧ x.planRevisionId = r ∧
        (x.state = .ready ∨ x.state = .assigned ∨
          (x.state = .dispatched ∧
            (s.planExecutionDispatches.find? u).any fun d => d.publishedAt = none)) := by
  simp only [Db.schedulableUnits, List.mem_insertionSort, List.mem_filter, Table.mem_rows,
    decide_eq_true_eq]

/-- An active unit that no pass has to look at is dispatched. -/
theorem dispatched_of_not_listed {s : Db} {r u : Uuid} {x : ExecutionUnit}
    (hx : s.planExecutionUnits.find? u = some x) (hr : x.planRevisionId = r)
    (hact : x.state.active = true) (hnot : (u, x) ∉ s.schedulableUnits r) :
    x.state = .dispatched := by
  rw [mem_schedulableUnits] at hnot
  cases hst : x.state <;> simp_all [UnitState.active]

/-- The units of a materialized revision are steps of the plan the pass reads. -/
theorem Inv.revisionPlan {s : Db} (h : Inv s) {u : Uuid} {x : ExecutionUnit}
    (hx : s.planExecutionUnits.find? u = some x) :
    ∃ plan, s.getRevisionPlan x.planRevisionId = some (.ok plan) ∧
      ∀ v z, s.planExecutionUnits.find? v = some z → z.planRevisionId = x.planRevisionId →
        z.stepKey ∈ plan.steps.map PlanStep.stepKey := by
  rcases h.shape.graph u x hx with ⟨g, hg, -⟩
  rcases h.shape.materialized _ g hg with ⟨rev, plan, hrev, -, -, hplan, -, hperm⟩
  have hparse := (planFromRevision_eq_ok.mp hplan).1
  refine ⟨plan, ?_, fun v z hz hr => ?_⟩
  · unfold Db.getRevisionPlan
    rw [hrev, Option.map_some, hparse]
  · apply hperm.subset
    refine List.mem_map.mpr ⟨(v, z), List.mem_filter.mpr ⟨Table.mem_rows.mpr hz, ?_⟩, rfl⟩
    simp [hr]

theorem RoutingDecision.Admissible.of_principals {s t : Db} {d : RoutingDecision}
    (h : d.Admissible s) (hp : t.actorPrincipals = s.actorPrincipals) : d.Admissible t where
  selected := h.selected
  admitted := by
    have hadm := h.admitted
    unfold Db.routingViolation at hadm ⊢
    rw [hp]
    exact hadm
  safeKey := h.safeKey

/-- A pass over an open revision returns, and leaves every active unit dispatched. -/
theorem scheduleReadyWork_returns {env : Environment} {s : Db} {r : Uuid} (hinv : Inv s)
    (ho : s.Open r) (henv : env.Admits s r) :
    (scheduleReadyWork env r).Returns s fun _ t => Drives r s t ∧
      ∀ u x, s.planExecutionUnits.find? u = some x → x.planRevisionId = r →
        x.state.active = true →
        ∃ y, t.planExecutionUnits.find? u = some y ∧ y.state = .dispatched := by
  unfold scheduleReadyWork
  apply returns_bind (Q := fun us t => us = s.schedulableUnits r ∧ t = s)
  · exact returns_fetch ⟨rfl, rfl⟩
  rintro us t ⟨rfl, rfl⟩
  by_cases hempty : t.schedulableUnits r = []
  · rw [if_pos hempty]
    refine returns_pure ⟨.refl hinv ho, fun u x hx hr hact => ⟨x, hx, ?_⟩⟩
    exact dispatched_of_not_listed hx hr hact (by simp [hempty])
  rw [if_neg hempty]
  -- some unit is listed, so the revision is materialized and its plan can be read
  rcases List.exists_mem_of_ne_nil _ hempty with ⟨⟨u₀, x₀⟩, hmem₀⟩
  rcases mem_schedulableUnits.mp hmem₀ with ⟨hx₀, rfl, -⟩
  rcases hinv.revisionPlan hx₀ with ⟨plan, hplan, hsteps⟩
  apply returns_bind (Q := fun a t' => a = some (.ok plan) ∧ t' = t)
  · exact returns_fetch ⟨hplan, rfl⟩
  rintro a t' ⟨rfl, rfl⟩
  dsimp only
  -- the listed units not reached yet still have the rows the pass has read
  let I (bs : List (Uuid × ExecutionUnit)) (t : Db) : Prop :=
    Drives x₀.planRevisionId t' t ∧ (bs.map Prod.fst).Nodup ∧
      (∀ e ∈ bs, e ∈ t'.schedulableUnits x₀.planRevisionId ∧
        t.planExecutionUnits.find? e.1 = some e.2) ∧
      ∀ u x, t'.planExecutionUnits.find? u = some x → x.planRevisionId = x₀.planRevisionId →
        x.state.active = true →
        (∃ y, t.planExecutionUnits.find? u = some y ∧ y.state = .dispatched) ∨ (u, x) ∈ bs
  have hstep : ∀ e bs t, I (e :: bs) t →
      Returns (if e.2.stepKey ∈ plan.steps.map PlanStep.stepKey then advanceUnit env e.1 e.2
        else fail (.keyError e.2.stepKey)) t fun _ t' => I bs t' := by
    rintro ⟨u, x⟩ bs t ⟨hdr, hnd, hlist, hdone⟩
    rcases hlist _ (List.mem_cons_self ..) with ⟨hmem, hxt⟩
    rcases mem_schedulableUnits.mp hmem with ⟨hx, hr, hst⟩
    have hact : x.state.active = true := by
      rcases hst with h | h | ⟨h, -⟩ <;> simp [h, UnitState.active]
    have hadm : (env.decisionFor x).Admissible t :=
      (henv u x hx hr).of_principals hdr.principals
    have hopen : t.Open x.planRevisionId := by
      rw [hr]
      exact hdr.opened
    dsimp only
    rw [if_pos (hsteps u x hx hr)]
    apply (advanceUnit_returns hdr.inv hopen hxt hact hadm).mono
    rintro _ t₂ ⟨y, hy, hm⟩
    rw [hr] at hm
    rw [List.map_cons, List.nodup_cons] at hnd
    have hne : ∀ e ∈ bs, e.1 ≠ u := by
      intro e he heq
      exact hnd.1 (List.mem_map.mpr ⟨e, he, heq⟩)
    refine ⟨hdr.trans hm.toDrives, hnd.2, fun e he => ?_, fun v z hz hzr hza => ?_⟩
    · rcases hlist e (List.mem_cons_of_mem _ he) with ⟨hmem', hrow⟩
      exact ⟨hmem', (hm.others _ (hne e he)).trans hrow⟩
    · by_cases hv : v = u
      · rw [hv]
        exact Or.inl ⟨y, hm.row, hy⟩
      · rcases hdone v z hz hzr hza with ⟨w, hw, hwd⟩ | hmem'
        · exact Or.inl ⟨w, (hm.others v hv).trans hw, hwd⟩
        · rcases List.mem_cons.mp hmem' with heq | htail
          · exact absurd (congrArg Prod.fst heq) hv
          · exact Or.inr htail
  apply (returns_forEach hstep _).mono
  · rintro _ t₂ ⟨hdr, -, -, hdone⟩
    refine ⟨hdr, fun u x hx hr hact => ?_⟩
    exact (hdone u x hx hr hact).resolve_right (by simp)
  · refine ⟨.refl hinv ho, ?_, fun e he => ⟨he, ?_⟩, fun u x hx hr hact => ?_⟩
    · -- a listing repeats no unit
      exact ((List.perm_insertionSort _ _).map Prod.fst).nodup_iff.mpr
        (t'.planExecutionUnits.nodup_keys_filter _)
    · exact (mem_schedulableUnits.mp he).1
    · by_cases hmem : (u, x) ∈ t'.schedulableUnits x₀.planRevisionId
      · exact Or.inr hmem
      · exact Or.inl ⟨x, hx, dispatched_of_not_listed hx hr hact hmem⟩

/-! ## A round of the driver -/

/-- The dispatched units of the revision. -/
def Db.dispatchedUnits (s : Db) (r : Uuid) : List Uuid :=
  (s.planExecutionUnits.rows.filter fun e =>
    e.2.planRevisionId = r ∧ e.2.state = .dispatched).map Prod.fst

theorem mem_dispatchedUnits {s : Db} {r u : Uuid} :
    u ∈ s.dispatchedUnits r ↔ ∃ x, s.planExecutionUnits.find? u = some x ∧
      x.planRevisionId = r ∧ x.state = .dispatched := by
  simp only [Db.dispatchedUnits, List.mem_map, List.mem_filter, decide_eq_true_eq, Prod.exists,
    exists_and_right, exists_eq_right, Table.mem_rows]

/-- Report the units as succeeded, one after the other; a report that raises is passed over. -/
def reportAll (env : Environment) : List Uuid → Db → Db
  | [], s => s
  | u :: us, s => reportAll env us (recordInternalResult env u .succeeded s).2

/-- One round: schedule the revision's graph and report every dispatched unit as
succeeded. -/
def completionRound (r : Uuid) (s : Db) (env : Environment) : Db :=
  let t := (scheduleReadyWork env r s).2
  reportAll env (t.dispatchedUnits r) t

/-- Rounds, each in its own environment. -/
def completionRounds (r : Uuid) (s : Db) (envs : List Environment) : Db :=
  envs.foldl (completionRound r) s

/-- A reported unit is completed; the others that are dispatched stay so. -/
theorem recordInternalResult_returns (env : Environment) {s : Db} {r u : Uuid}
    {x : ExecutionUnit} (hinv : Inv s) (ho : s.Open r)
    (hx : s.planExecutionUnits.find? u = some x) (hdisp : x.state = .dispatched) :
    (recordInternalResult env u .succeeded).Returns s fun _ t => Drives r s t ∧
      (∃ y, t.planExecutionUnits.find? u = some y ∧ y.state = .completed) ∧
      ∀ v z, v ≠ u → s.planExecutionUnits.find? v = some z → z.state = .dispatched →
        t.planExecutionUnits.find? v = some z := by
  unfold recordInternalResult
  rcases succeeds_recordResult hinv.books hx hdisp .succeeded (env.evidenceRef u) env.now with
    ⟨o, h⟩
  apply returns_transact h
  have hinv' := inv_recordResult hinv h
  rcases exec_recordResult hinv.shape hinv.books h with
    ⟨x', hx', -, -, ⟨hterm, -, -⟩ | ⟨-, -, -, E, cs, hp, -, -⟩⟩
  · rw [hx] at hx'
    cases hx'
    rw [hdisp] at hterm
    cases hterm
  rw [hx] at hx'
  cases hx'
  have hsh := (sameShape_terminalDb hx).trans hp.shape
  -- what a unit of before is after: reported, promoted, or the same
  have hunit : ∀ v z, s.planExecutionUnits.find? v = some z →
      ∃ y, o.state.planExecutionUnits.find? v = some y ∧
        ((v = u ∧ y = terminalUnit .succeeded (env.evidenceRef u) env.now z) ∨
          (z.state = .blocked ∧ y = readyUnit z) ∨ (v ≠ u ∧ y = z)) := by
    intro v z hz
    rcases hsh.unit_forth hz with ⟨y, hy, -⟩
    exact ⟨y, hy, unit_of_promotes hx hp hz hy⟩
  have hitems : ∀ w i, s.projectWorkItems.find? w = some i →
      ∃ j, o.state.projectWorkItems.find? w = some j ∧ i.Kept j := by
    intro w i hi
    have hkept : ∃ j, (s.projectWorkItems.modify x.workItemId
        (mirrorRow (terminalState .succeeded) none none env.now)).find? w = some j ∧ i.Kept j :=
      kept_modify (by simp [terminalState]) none none env.now w i hi
    rcases hkept with ⟨j, hj, hij⟩
    rcases hp.item_locks.find_same hj with ⟨k, hk, hjk⟩
    exact ⟨k, hk, hij.trans hjk⟩
  refine ⟨⟨hinv', ho.of_sameShape hsh hitems, ?_, hsh, ?_, ?_⟩, ?_, ?_⟩
  · rcases hp.state with ⟨U, W, hs⟩
    rw [hs]
    rfl
  · intro v z hz hc
    rcases hunit v z hz with ⟨y, hy, ⟨rfl, -⟩ | ⟨hbl, -⟩ | ⟨-, rfl⟩⟩
    · rw [hx] at hz
      cases hz
      rw [hdisp] at hc
      cases hc
    · rw [hbl] at hc
      cases hc
    · exact hy
  · intro v y hy hfail
    rcases hsh.unit_back hy with ⟨z, hz, -⟩
    rcases hunit v z hz with ⟨y', hy', hcase⟩
    rw [hy] at hy'
    cases hy'
    rcases hcase with ⟨-, rfl⟩ | ⟨-, rfl⟩ | ⟨-, rfl⟩
    · cases hfail
    · cases hfail
    · exact hz
  · rcases hunit u x hx with ⟨y, hy, ⟨-, rfl⟩ | ⟨hbl, -⟩ | ⟨hne, -⟩⟩
    · exact ⟨_, hy, rfl⟩
    · rw [hdisp] at hbl
      cases hbl
    · exact absurd rfl hne
  · intro v z hv hz hzd
    rcases hunit v z hz with ⟨y, hy, ⟨rfl, -⟩ | ⟨hbl, -⟩ | ⟨-, rfl⟩⟩
    · exact absurd rfl hv
    · rw [hzd] at hbl
      cases hbl
    · exact hy

/-- Reporting a list of dispatched units completes them all. -/
theorem reportAll_spec (env : Environment) {r : Uuid} {us : List Uuid} {s : Db} (hinv : Inv s)
    (ho : s.Open r) (hnd : us.Nodup)
    (hus : ∀ u ∈ us, ∃ x, s.planExecutionUnits.find? u = some x ∧ x.state = .dispatched) :
    Drives r s (reportAll env us s) ∧
      ∀ u ∈ us, ∃ y, (reportAll env us s).planExecutionUnits.find? u = some y ∧
        y.state = .completed := by
  induction us generalizing s with
  | nil => exact ⟨.refl hinv ho, by simp⟩
  | cons u us ih =>
    rw [List.nodup_cons] at hnd
    rcases hus u (List.mem_cons_self ..) with ⟨x, hx, hdisp⟩
    rcases (recordInternalResult_returns env hinv ho hx hdisp).snd with
      ⟨_, hdr, ⟨y, hy, hyc⟩, hothers⟩
    have hrest : ∀ v ∈ us, ∃ z, (recordInternalResult env u .succeeded s).2.planExecutionUnits.find?
        v = some z ∧ z.state = .dispatched := by
      intro v hv
      rcases hus v (List.mem_cons_of_mem _ hv) with ⟨z, hz, hzd⟩
      have hne : v ≠ u := fun heq => hnd.1 (heq ▸ hv)
      exact ⟨z, hothers v z hne hz hzd, hzd⟩
    rcases ih hdr.inv hdr.opened hnd.2 hrest with ⟨hdr', hdone⟩
    refine ⟨hdr.trans hdr', fun v hv => ?_⟩
    rcases List.mem_cons.mp hv with rfl | hv
    · exact ⟨y, hdr'.completed _ y hy hyc, hyc⟩
    · exact hdone v hv

/-- A round completes every unit that was active before it. -/
theorem completionRound_spec {env : Environment} {s : Db} {r : Uuid} (hinv : Inv s)
    (ho : s.Open r) (henv : env.Admits s r) :
    Drives r s (completionRound r s env) ∧
      ∀ u x, s.planExecutionUnits.find? u = some x → x.planRevisionId = r →
        x.state.active = true →
        ∃ y, (completionRound r s env).planExecutionUnits.find? u = some y ∧
          y.state = .completed := by
  rcases (scheduleReadyWork_returns hinv ho henv).snd with ⟨_, hdr, hpass⟩
  unfold completionRound
  generalize (scheduleReadyWork env r s).2 = t at hdr hpass
  have hus : ∀ u ∈ t.dispatchedUnits r,
      ∃ x, t.planExecutionUnits.find? u = some x ∧ x.state = .dispatched := by
    intro u hu
    rcases mem_dispatchedUnits.mp hu with ⟨x, hx, -, hd⟩
    exact ⟨x, hx, hd⟩
  rcases reportAll_spec env hdr.inv hdr.opened
    (t.planExecutionUnits.nodup_keys_filter _) hus with ⟨hdr', hdone⟩
  refine ⟨hdr.trans hdr', fun u x hx hr hact => ?_⟩
  rcases hpass u x hx hr hact with ⟨y, hy, hyd⟩
  rcases hdr.shape.unit_forth hx with ⟨y', hy', hid⟩
  rw [hy] at hy'
  cases hy'
  have hyr : y.planRevisionId = r := (congrArg UnitIdentity.planRevisionId hid).trans hr
  exact hdone u (mem_dispatchedUnits.mpr ⟨y, hy, hyr, hyd⟩)

/-! ## Rounds until completion -/

/-- The units of the revision still to be completed. -/
def Db.remaining (s : Db) (r : Uuid) : List Uuid :=
  (s.planExecutionUnits.rows.filter fun e =>
    e.2.planRevisionId = r ∧ e.2.state ≠ .completed).map Prod.fst

theorem mem_remaining {s : Db} {r u : Uuid} :
    u ∈ s.remaining r ↔ ∃ x, s.planExecutionUnits.find? u = some x ∧ x.planRevisionId = r ∧
      x.state ≠ .completed := by
  simp only [Db.remaining, List.mem_map, List.mem_filter, decide_eq_true_eq, Prod.exists,
    exists_and_right, exists_eq_right, Table.mem_rows]

theorem nodup_remaining (s : Db) (r : Uuid) : (s.remaining r).Nodup :=
  s.planExecutionUnits.nodup_keys_filter _

theorem allCompleted_iff {s : Db} {r : Uuid} : s.AllCompleted r ↔ s.remaining r = [] := by
  rw [List.eq_nil_iff_forall_not_mem]
  simp only [mem_remaining]
  constructor
  · rintro h u ⟨x, hx, hr, hne⟩
    exact hne (h u x hx hr)
  · intro h u x hx hr
    by_contra hne
    exact h u ⟨x, hx, hr, hne⟩

/-- Nothing completed is reopened. -/
theorem Drives.remaining_subset {r : Uuid} {s t : Db} (h : Drives r s t) :
    t.remaining r ⊆ s.remaining r := by
  intro u hu
  rcases mem_remaining.mp hu with ⟨y, hy, hr, hne⟩
  rcases h.shape.unit_back hy with ⟨x, hx, hid⟩
  have hxr : y.planRevisionId = x.planRevisionId := congrArg UnitIdentity.planRevisionId hid
  refine mem_remaining.mpr ⟨x, hx, hxr.symm.trans hr, fun hc => ?_⟩
  have hkept := h.completed u x hx hc
  rw [hy] at hkept
  cases hkept
  exact hne hc

theorem Drives.noneFailed {r : Uuid} {s t : Db} (h : Drives r s t) (hf : s.NoneFailed r) :
    t.NoneFailed r := by
  intro u y hy hr hfail
  exact hf u y (h.failed u y hy hfail) hr hfail

theorem Drives.admits {r : Uuid} {s t : Db} (h : Drives r s t) {env : Environment}
    (henv : env.Admits s r) : env.Admits t r := by
  intro u y hy hr
  rcases h.shape.unit_back hy with ⟨x, hx, hid⟩
  have hxr : y.planRevisionId = x.planRevisionId := congrArg UnitIdentity.planRevisionId hid
  -- the router is asked about columns that never change
  have heq : env.decisionFor y = env.decisionFor x := by
    have hc : y.requiredCapabilities = x.requiredCapabilities :=
      congrArg UnitIdentity.requiredCapabilities hid
    have hp : y.projectId = x.projectId := congrArg UnitIdentity.projectId hid
    have ho : y.intendedOwnerRole = x.intendedOwnerRole :=
      congrArg UnitIdentity.intendedOwnerRole hid
    have hw : y.workItemId = x.workItemId := congrArg UnitIdentity.workItemId hid
    unfold Environment.decisionFor
    rw [hc, hp, ho, hw]
  rw [heq]
  exact (henv u x hx (hxr.symm.trans hr)).of_principals h.principals

/-- Every round shortens what remains. -/
theorem completionRound_lt {env : Environment} {s : Db} {r : Uuid} (hinv : Inv s)
    (ho : s.Open r) (henv : env.Admits s r) (hf : s.NoneFailed r) (hc : ¬ s.AllCompleted r) :
    ((completionRound r s env).remaining r).length < (s.remaining r).length := by
  rcases completionRound_spec hinv ho henv with ⟨hdr, hround⟩
  rcases hinv.exists_active hf hc with ⟨u, x, hx, hr, hact⟩
  rcases hround u x hx hr hact with ⟨y, hy, hyc⟩
  have hmem : u ∈ s.remaining r := by
    refine mem_remaining.mpr ⟨x, hx, hr, fun hdone => ?_⟩
    rw [hdone] at hact
    cases hact
  have hgone : u ∉ (completionRound r s env).remaining r := by
    intro hu
    rcases mem_remaining.mp hu with ⟨z, hz, -, hne⟩
    rw [hy] at hz
    cases hz
    exact hne hyc
  have hsub : (completionRound r s env).remaining r ⊆ (s.remaining r).erase u := by
    intro v hv
    have hne : v ≠ u := by
      intro heq
      rw [heq] at hv
      exact hgone hv
    exact (List.mem_erase_of_ne hne).mpr (hdr.remaining_subset hv)
  have hle := (List.subperm_of_subset (nodup_remaining _ r) hsub).length_le
  rw [List.length_erase_of_mem hmem] at hle
  have hpos := List.length_pos_of_mem hmem
  omega

/-- Rounds complete the graph once there are as many as units remain. -/
theorem completionRounds_complete {envs : List Environment} {s : Db} {r : Uuid} (hinv : Inv s)
    (ho : s.Open r) (henvs : ∀ env ∈ envs, env.Admits s r) (hf : s.NoneFailed r)
    (hlen : (s.remaining r).length ≤ envs.length) : (completionRounds r s envs).AllCompleted r := by
  unfold completionRounds
  induction envs generalizing s with
  | nil =>
    rw [List.length_nil, Nat.le_zero, List.length_eq_zero_iff] at hlen
    exact allCompleted_iff.mpr hlen
  | cons env envs ih =>
    have henv := henvs env (List.mem_cons_self ..)
    rcases completionRound_spec hinv ho henv with ⟨hdr, -⟩
    apply ih hdr.inv hdr.opened
    · exact fun e he => hdr.admits (henvs e (List.mem_cons_of_mem _ he))
    · exact hdr.noneFailed hf
    · rw [List.length_cons] at hlen
      by_cases hc : s.AllCompleted r
      · have hnil := allCompleted_iff.mp hc
        have hle := hdr.remaining_subset
        rw [hnil, List.subset_nil] at hle
        rw [hle]
        exact Nat.zero_le _
      · have hlt := completionRound_lt hinv ho henv hf hc
        omega

/-- There are never more units than steps. -/
theorem remaining_le {s : Db} {r : Uuid} {g : ExecutionGraph} {rev : PlanRevision}
    {plan : PlanContent} (h : s.Materialized r g) (hrev : s.planRevisions.find? r = some rev)
    (hplan : planFromRevision rev = .ok plan) : (s.remaining r).length ≤ plan.steps.length := by
  rcases h with ⟨rev', plan', hrev', -, -, hplan', -, hperm⟩
  rw [hrev] at hrev'
  cases hrev'
  rw [hplan] at hplan'
  cases hplan'
  have hlen := hperm.length_eq
  rw [List.length_map, List.length_map] at hlen
  rw [← hlen, Db.remaining, List.length_map, Db.unitsOf, ← List.countP_eq_length_filter,
    ← List.countP_eq_length_filter]
  refine List.countP_mono_left fun e _ he => ?_
  rw [decide_eq_true_eq] at he ⊢
  exact he.1

/-- In every reachable database: a materialized graph in which no unit is failed and not
every unit is completed has a unit that is ready, assigned or dispatched. When moreover its
revision is current and accepted, its lineage is not cancelled, and every routing decision
is admissible, then the driver completes it in at most as many rounds as the plan has
steps. -/
theorem no_stuck_graph {ι : Type} [DecidableEq ι] {y : PlanSys ι} (hy : PlanReachable y)
    {r : Uuid} {g : ExecutionGraph} (hg : y.db.planExecutionGraphs.find? r = some g)
    (hf : y.db.NoneFailed r) :
    (¬ y.db.AllCompleted r → ∃ u x, y.db.planExecutionUnits.find? u = some x ∧
      x.planRevisionId = r ∧ (x.state = .ready ∨ x.state = .assigned ∨ x.state = .dispatched)) ∧
    ∃ rev plan, y.db.planRevisions.find? r = some rev ∧ parsePlan rev.plan = .ok plan ∧
      validatePlanGraph plan = .ok () ∧
      (y.db.Open r → ∀ envs : List Environment, (∀ env ∈ envs, env.Admits y.db r) →
        plan.steps.length ≤ envs.length → (completionRounds r y.db envs).AllCompleted r) := by
  have hinv := inv_of_reachable hy
  refine ⟨fun hc => ?_, ?_⟩
  · rcases hinv.exists_active hf hc with ⟨u, x, hx, hr, hact⟩
    refine ⟨u, x, hx, hr, ?_⟩
    cases hst : x.state <;> simp_all [UnitState.active]
  · have hmat := hinv.shape.materialized r g hg
    rcases hmat with ⟨rev, plan, hrev, -, -, hplan, -⟩
    rcases planFromRevision_eq_ok.mp hplan with ⟨hparse, hvalid⟩
    refine ⟨rev, plan, hrev, hparse, hvalid, fun ho envs henvs hlen => ?_⟩
    have hle := remaining_le (hinv.shape.materialized r g hg) hrev hplan
    exact completionRounds_complete hinv ho henvs hf (hle.trans hlen)

/-- A pass whose router gives every step to the one agent of this key. -/
def oneAgent (agentKey : String) : Environment where
  resolveStepAssignment _ _ _ _ := { fanInDecision with selectedAgentKey := some agentKey }
  routingDecisionId u := u
  correlationId u := u
  publish _ := true
  now := 0

theorem noneFailed_fanIn : (fanIn 4).db.NoneFailed ⟨2⟩ := by
  have hall : (fanIn 4).db.planExecutionUnits.rows.all fun e => e.2.state ≠ .failed := by
    decide +kernel
  intro u x hx _
  exact of_decide_eq_true (Table.all_rows_eq_true.mp hall u x hx)

theorem open_fanIn : (fanIn 4).db.Open ⟨2⟩ := by
  have hcur : (fanIn 4).db.successorOf ⟨2⟩ = none := by decide +kernel
  have hlin : ((fanIn 4).db.planRevisions.find? ⟨2⟩).any (fun rev => rev.status = .accepted ∧
      ((fanIn 4).db.goalExecutionLineage.find? rev.goalId).any fun lin =>
        ((fanIn 4).db.projectWorkItems.find? lin.primaryWorkItemId).any fun w =>
          w.isCancelled = false) := by decide +kernel
  rcases (Option.any_eq_true _ _).mp hlin with ⟨rev, hrev, hdec⟩
  rcases of_decide_eq_true hdec with ⟨hacc, hany⟩
  rcases (Option.any_eq_true _ _).mp hany with ⟨lin, hl, hany'⟩
  rcases (Option.any_eq_true _ _).mp hany' with ⟨w, hw, hnc⟩
  exact ⟨hcur, rev, lin, w, hrev, hacc, hl, hw, of_decide_eq_true hnc⟩

/-- Three rounds complete the three steps of the sample plan. -/
theorem no_stuck_graph_fanIn :
    (completionRounds ⟨2⟩ (fanIn 4).db (List.replicate 3 (oneAgent "dev"))).AllCompleted ⟨2⟩ := by
  have hsome : ((fanIn 4).db.planExecutionGraphs.find? ⟨2⟩).isSome := by decide +kernel
  rcases Option.isSome_iff_exists.mp hsome with ⟨g, hg⟩
  rcases (no_stuck_graph (reachable_fanIn 4) hg noneFailed_fanIn).2 with
    ⟨rev, plan, hrev, hparse, -, hrounds⟩
  apply hrounds open_fanIn
  · intro env henv u x _ _
    rw [List.eq_of_mem_replicate henv]
    have hkey : isSafeAgentKey "dev" = true := by decide +kernel
    refine ⟨rfl, ?_, hkey⟩
    show (fanIn 4).db.routingViolation { fanInDecision with selectedAgentKey := some "dev" } = none
    decide +kernel
  · have hplan : ((fanIn 4).db.planRevisions.find? ⟨2⟩).any (fun rev =>
        match parsePlan rev.plan with
        | .ok plan => plan.steps.length = 3
        | .error _ => false) := by decide +kernel
    rw [hrev, Option.any_some, hparse] at hplan
    rw [List.length_replicate, of_decide_eq_true hplan]

/-- That every decision selects an existing principal is not enough: the router may select
an agent whose key names no delegation stream, and then every pass stops at its first step
and nothing is ever dispatched. -/
theorem unsafe_agent_key_stalls :
    PlanReachable (fanIn 4) ∧
    ((fanIn 4).db.planExecutionGraphs.find? ⟨2⟩).any (fun g => g.stepCount = 3) ∧
    (fanIn 4).db.NoneFailed ⟨2⟩ ∧ (fanIn 4).db.Open ⟨2⟩ ∧
    (∀ x, ((oneAgent "dev agent").decisionFor x).outcome = .selected ∧
      (fanIn 4).db.routingViolation ((oneAgent "dev agent").decisionFor x) = none) ∧
    ∀ k ≤ 3, ¬ (completionRounds ⟨2⟩ (fanIn 4).db
      (List.replicate k (oneAgent "dev agent"))).AllCompleted ⟨2⟩ := by
  refine ⟨reachable_fanIn 4, by decide +kernel, noneFailed_fanIn, open_fanIn, fun x => ⟨rfl, ?_⟩,
    fun k hk hall => ?_⟩
  · show (fanIn 4).db.routingViolation
      { fanInDecision with selectedAgentKey := some "dev agent" } = none
    decide +kernel
  · have hready : ∀ k ≤ 3, ((completionRounds ⟨2⟩ (fanIn 4).db
        (List.replicate k (oneAgent "dev agent"))).planExecutionUnits.find? ⟨31⟩).any
          (fun x => x.planRevisionId = ⟨2⟩ ∧ x.state = .ready) = true := by
      decide +kernel
    rcases (Option.any_eq_true _ _).mp (hready k hk) with ⟨x, hx, hdec⟩
    rcases of_decide_eq_true hdec with ⟨hr, hst⟩
    have hdone := hall _ x hx hr
    rw [hst] at hdone
    cases hdone

end AiAgentsSwd.Planning
