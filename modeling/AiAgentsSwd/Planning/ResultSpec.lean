import AiAgentsSwd.Planning.DelegationSpec

/-!
# Planning.ResultSpec — recording a result and promoting dependents

What `record_result` and the `_unblock_dependents` inside it do. The unit becomes
terminal first; in that intermediate state the gate may be open for a unit that is still
blocked, and the promotion loop closes exactly that gap (`gate_promotes`).

Main results:

- `outstanding_eq_zero`: the counted query is 0 exactly when every dependency is completed;
- `exec_promote`: the loop promotes exactly the unlocked candidates;
- `inv_recordResult`, `guarantee_recordResult`.
-/

namespace AiAgentsSwd.Planning

open Keyed (Table Evolves)
open ReadCommitted ReadCommitted.Txn

/-! ## The count -/

/-- A dependency target is outstanding unless it carries a completed unit. -/
theorem isOutstanding_eq_false {s : Db} (hinj : ∀ u v x y, s.planExecutionUnits.find? u = some x →
    s.planExecutionUnits.find? v = some y → x.workItemId = y.workItemId → u = v) {w : Uuid} :
    s.isOutstanding w = false ↔ s.CompletedItem w := by
  unfold Db.isOutstanding Db.unitOfWorkItem
  cases hf : s.planExecutionUnits.rows.find? fun e => e.2.workItemId = w with
  | none =>
    simp only [Bool.true_eq_false, false_iff]
    rintro ⟨v, y, hy, hw, -⟩
    have hno := List.find?_eq_none.mp hf (v, y) (Table.mem_rows.mpr hy)
    simp [hw] at hno
  | some e =>
    have hw : e.2.workItemId = w := by simpa using List.find?_some hf
    have he := Table.mem_rows.mp (List.mem_of_find?_eq_some hf)
    simp only [ne_eq, decide_not, Bool.not_eq_eq_eq_not, Bool.not_false, decide_eq_true_eq]
    constructor
    · intro hc
      exact ⟨e.1, e.2, he, hw, hc⟩
    · rintro ⟨v, y, hy, hwy, hc⟩
      -- one unit per work item, so the scan found this one
      have hv : v = e.1 := hinj v e.1 y e.2 hy he (hwy.trans hw.symm)
      rw [hv, he] at hy
      cases hy
      exact hc

theorem outstanding_eq_zero {s : Db} (hs : Shape s) {u : Uuid} {x : ExecutionUnit}
    (hx : s.planExecutionUnits.find? u = some x) :
    s.outstanding u = 0 ↔ s.Unlocked x.workItemId := by
  simp only [Db.outstanding, hx, List.countP_eq_zero, List.mem_filter, decide_eq_true_eq,
    Bool.not_eq_true]
  constructor
  · rintro h w ⟨d, hd, hdw, rfl⟩
    exact (isOutstanding_eq_false hs.item_inj).mp (h d ⟨hd, hdw⟩)
  · rintro h d ⟨hd, hdw⟩
    exact (isOutstanding_eq_false hs.item_inj).mpr (h _ ⟨d, hd, hdw, rfl⟩)

theorem mem_blockedDependents {s : Db} {w c : Uuid} :
    c ∈ s.blockedDependents w ↔ ∃ z, s.planExecutionUnits.find? c = some z ∧ z.state = .blocked ∧
      s.DependsOn z.workItemId w := by
  simp only [Db.blockedDependents, List.mem_insertionSort, List.mem_map, List.mem_filter,
    decide_eq_true_eq, Prod.exists, exists_and_right, exists_eq_right, Table.mem_rows,
    Db.DependsOn]

/-! ## The promotion loop -/

theorem ExecutionUnit.Same.trans {x y z : ExecutionUnit} (h : x.Same y) (h' : y.Same z) :
    x.Same z := by
  refine ⟨h'.1.trans h.1, fun hx => ?_⟩
  have hy := h.2 hx
  rw [hy] at h'
  exact h'.2 hx

/-- The columns a promotion sets. -/
def readyUnit (x : ExecutionUnit) : ExecutionUnit := { x with state := .ready }

theorem exec_lockCandidates {cs : List Uuid} {s : Db} {o : Outcome Db RowKey (List Uuid)} :
    exec (lockCandidates cs) s = .ok o ↔
      o = ⟨cs.filter fun c => (s.planExecutionUnits.find? c).any fun u => u.state = .blocked, s,
        cs.map .executionUnit⟩ := by
  induction cs generalizing o with
  | nil => simp [lockCandidates, eq_comm]
  | cons c cs ih =>
    simp only [lockCandidates, bind_eq, lockRow_bind, select_bind, exec_lock_ok, exec_query,
      exec_bind_ok, ih, pure_eq, exec_done, Except.ok.injEq]
    constructor
    · rintro ⟨_, ⟨_, _, rfl, rfl, rfl⟩, rfl⟩
      simp [List.filter_cons]
    · rintro rfl
      exact ⟨_, ⟨_, _, rfl, rfl, rfl⟩, by simp [List.filter_cons]⟩

/-- The work item is as cancelled as before. -/
def WorkItem.Kept (w w' : WorkItem) : Prop :=
  w'.lifecycleState = w.lifecycleState ∧ (w'.status = .cancelled → w.status = .cancelled)

theorem WorkItem.Kept.refl (w : WorkItem) : w.Kept w := ⟨rfl, fun h => h⟩

theorem WorkItem.Kept.trans {w w' w'' : WorkItem} (h : w.Kept w') (h' : w'.Kept w'') :
    w.Kept w'' :=
  ⟨h'.1.trans h.1, fun hc => h.2 (h'.2 hc)⟩

/-- Mirroring the state of a live unit cancels nothing. -/
theorem WorkItem.kept_mirrorRow {st : UnitState} (hst : st ≠ .cancelled) (a r : Option String)
    (now : Time) (w : WorkItem) : w.Kept (mirrorRow st a r now w) := by
  refine ⟨rfl, fun hc => ?_⟩
  rw [mirrorRow_status] at hc
  cases st <;> simp [workItemStatusFor] at hc hst

/-- What promoting the candidates `cs` does. -/
structure Promotes (s t : Db) (cs : List Uuid) (l : List RowKey) : Prop where
  state : ∃ U W, t = { s with planExecutionUnits := U, projectWorkItems := W }
  shape : SameShape s t
  books : Books t
  units : ∀ v x, s.planExecutionUnits.find? v = some x →
    ∃ y, t.planExecutionUnits.find? v = some y ∧
      ((v ∈ cs ∧ x.state = .blocked ∧ s.Unlocked x.workItemId ∧ y = readyUnit x) ∨
        (y = x ∧ ¬ (v ∈ cs ∧ x.state = .blocked ∧ s.Unlocked x.workItemId)))
  unit_locks : Evolves RowKey.executionUnit ExecutionUnit.Same l
    s.planExecutionUnits t.planExecutionUnits
  item_locks : Evolves RowKey.workItem WorkItem.Kept l s.projectWorkItems t.projectWorkItems

theorem Promotes.nil {s : Db} (hb : Books s) (l : List RowKey) : Promotes s s [] l where
  state := ⟨_, _, rfl⟩
  shape := .refl s
  books := hb
  units := fun _ x hx => ⟨x, hx, Or.inr ⟨rfl, by simp⟩⟩
  unit_locks := .refl ExecutionUnit.Same.refl
  item_locks := .refl WorkItem.Kept.refl

/-- A promotion completes nothing. -/
theorem completedItem_of_units {s t : Db} (h : SameShape s t)
    (hstate : ∀ v x y, s.planExecutionUnits.find? v = some x →
      t.planExecutionUnits.find? v = some y → (y.state = .completed ↔ x.state = .completed))
    (w : Uuid) : t.CompletedItem w ↔ s.CompletedItem w := by
  constructor
  · rintro ⟨v, y, hy, hw, hc⟩
    rcases h.unit_back hy with ⟨x, hx, hid⟩
    have hw' : y.workItemId = x.workItemId := congrArg UnitIdentity.workItemId hid
    exact ⟨v, x, hx, hw'.symm.trans hw, (hstate v x y hx hy).mp hc⟩
  · rintro ⟨v, x, hx, hw, hc⟩
    rcases h.unit_forth hx with ⟨y, hy, hid⟩
    have hw' : y.workItemId = x.workItemId := congrArg UnitIdentity.workItemId hid
    exact ⟨v, y, hy, hw'.trans hw, (hstate v x y hx hy).mpr hc⟩

/-- The state after promoting one unit. -/
def promotedState (s : Db) (c : Uuid) (x : ExecutionUnit) (now : Time) : Db :=
  { s with
    planExecutionUnits := s.planExecutionUnits.modify c readyUnit
    projectWorkItems := s.projectWorkItems.modify x.workItemId (mirrorRow .ready none none now) }

theorem sameShape_promotedState {s : Db} {c : Uuid} {x : ExecutionUnit} {now : Time}
    (hx : s.planExecutionUnits.find? c = some x) : SameShape s (promotedState s c x now) :=
  sameShape_unit hx rfl (fun _ => isSome_find?_modify _ _ _ _) fun _ h => Or.inl h

theorem books_promotedState {s : Db} {c : Uuid} {x : ExecutionUnit} {now : Time} (hs : Shape s)
    (hb : Books s) (hx : s.planExecutionUnits.find? c = some x) (hst : x.state = .blocked) :
    Books (promotedState s c x now) := by
  have hmove : UnitMoves s (promotedState s c x now) c x (readyUnit x) := by
    apply unitMoves_modify hx rfl rfl
    · intro i hi
      rcases Table.exists_of_find?_modify hi with ⟨i₀, -, rfl⟩
      simp [readyUnit]
    · intro w hw
      exact Table.find?_modify_of_ne _ _ hw
  apply hmove.books hs hb
  · simp [readyUnit]
  · simp [readyUnit, UnitState.unowned]
  · intro v _
    rfl
  · intro d hd
    have hno := hb.no_dispatch hx (by simp [hst, UnitState.handedOver])
    exact absurd (hno.symm.trans hd) (by simp)
  · simp [readyUnit, UnitState.handedOver]
  · intro w _
    rfl
  · intro _
    exact hb.unrouted c x hx (by simp [hst, UnitState.unowned])
  · simp [readyUnit, UnitState.unowned]

/-- Promoting one more unit first. -/
theorem Promotes.cons {s t : Db} {c : Uuid} {x : ExecutionUnit} {now : Time} {cs : List Uuid}
    {l l' : List RowKey} (hx : s.planExecutionUnits.find? c = some x) (hst : x.state = .blocked)
    (hun : s.Unlocked x.workItemId) (h : Promotes (promotedState s c x now) t cs l')
    (hl : l' ⊆ l) (hlc : .executionUnit c ∈ l) (hlw : .workItem x.workItemId ∈ l) :
    Promotes s t (c :: cs) l where
  state := by
    rcases h.state with ⟨U, W, rfl⟩
    exact ⟨U, W, rfl⟩
  shape := (sameShape_promotedState hx).trans h.shape
  books := h.books
  units := by
    intro v y hy
    by_cases hv : v = c
    · -- the unit promoted first is no longer blocked for the rest of the loop
      subst hv
      rw [hx] at hy
      cases hy
      have hx' : (promotedState s v x now).planExecutionUnits.find? v = some (readyUnit x) := by
        simp [promotedState, hx]
      rcases h.units v _ hx' with ⟨z, hz, ⟨-, hbl, -⟩ | ⟨rfl, -⟩⟩
      · simp [readyUnit] at hbl
      · exact ⟨_, hz, Or.inl ⟨List.mem_cons_self .., hst, hun, rfl⟩⟩
    · have hy' : (promotedState s c x now).planExecutionUnits.find? v = some y := by
        rw [← hy]
        exact Table.find?_modify_of_ne _ _ hv
      have hiff : (promotedState s c x now).Unlocked y.workItemId ↔ s.Unlocked y.workItemId := by
        have hsh : SameShape s (promotedState s c x now) := sameShape_promotedState hx
        have hdone := completedItem_of_units hsh fun v z z' hz hz' => by
          rcases Table.exists_of_find?_modify hz' with ⟨z₀, hz₀, rfl⟩
          rw [hz] at hz₀
          cases hz₀
          split_ifs with hvc
          · rw [hvc, hx] at hz
            cases hz
            simp [readyUnit, hst]
          · rfl
        unfold Db.Unlocked
        simp only [hsh.dependsOn, hdone]
      rcases h.units v y hy' with ⟨z, hz, hcase⟩
      refine ⟨z, hz, ?_⟩
      simpa [List.mem_cons, hv, hiff] using hcase
  unit_locks := by
    have h₁ : Evolves RowKey.executionUnit ExecutionUnit.Same l s.planExecutionUnits
        (s.planExecutionUnits.modify c readyUnit) := by
      apply Evolves.modify ExecutionUnit.Same.refl _ hlc
      intro z hz
      rw [hx] at hz
      cases hz
      refine ⟨rfl, ?_⟩
      simp [hst]
    exact h₁.trans (fun _ _ _ => ExecutionUnit.Same.trans) (h.unit_locks.mono hl)
  item_locks := by
    have h₁ : Evolves RowKey.workItem WorkItem.Kept l s.projectWorkItems
        (s.projectWorkItems.modify x.workItemId (mirrorRow .ready none none now)) :=
      .modify WorkItem.Kept.refl
        (fun _ _ => WorkItem.kept_mirrorRow (by simp) _ _ _ _) hlw
    exact h₁.trans (fun _ _ _ => WorkItem.Kept.trans) (h.item_locks.mono hl)

/-- A unit that is blocked when the loop starts is promoted exactly when it is a candidate
and unlocked. -/
theorem exec_promote {now : Time} {cs : List Uuid} {s : Db}
    {o : Outcome Db RowKey (List (Uuid × ExecutionUnit))} (hs : Shape s) (hb : Books s)
    (h : exec (promote now cs) s = .ok o) : Promotes s o.state cs o.locks := by
  induction cs generalizing s o with
  | nil =>
    simp only [promote, pure_eq, exec_done, Except.ok.injEq] at h
    subst h
    exact .nil hb _
  | cons c cs ih =>
    -- a candidate that is passed over leaves the rest of the loop to do everything
    have hskip : ∀ {o'}, exec (promote now cs) s = .ok o' →
        (∀ x, s.planExecutionUnits.find? c = some x →
          ¬ (x.state = .blocked ∧ s.Unlocked x.workItemId)) →
        Promotes s o'.state (c :: cs) o'.locks := by
      intro o' ho' hc
      have hp := ih hs hb ho'
      refine { hp with units := fun v x hx => ?_ }
      rcases hp.units v x hx with ⟨y, hy, ⟨hv, hst, hun, rfl⟩ | ⟨rfl, hno⟩⟩
      · exact ⟨_, hy, Or.inl ⟨List.mem_cons_of_mem _ hv, hst, hun, rfl⟩⟩
      · refine ⟨_, hy, Or.inr ⟨rfl, ?_⟩⟩
        rintro ⟨hv, hst, hun⟩
        rcases List.mem_cons.mp hv with rfl | hv
        · exact hc y hx ⟨hst, hun⟩
        · exact hno ⟨hv, hst, hun⟩
    simp only [promote, bind_eq, select_bind, exec_query] at h
    by_cases hpos : 0 < s.outstanding c
    · rw [if_pos hpos] at h
      apply hskip h
      rintro x hx ⟨-, hun⟩
      have hzero := (outstanding_eq_zero hs hx).mpr hun
      omega
    rw [if_neg hpos] at h
    cases hx : s.planExecutionUnits.find? c with
    | none =>
      simp only [updateUnit, exec_bind_ok, exec_updateWhere_ok, hx, Option.any_none,
        Bool.false_eq_true, false_and, true_and, false_or] at h
      rcases h with ⟨_, o₂, rfl, h, rfl⟩
      exact hskip h (by simp [hx])
    | some x =>
      by_cases hst : x.state = .blocked
      swap
      · simp only [updateUnit, exec_bind_ok, exec_updateWhere_ok, hx, Option.any_some, hst,
          decide_false, Bool.false_eq_true, false_and, true_and, false_or] at h
        rcases h with ⟨_, o₂, rfl, h, rfl⟩
        refine hskip h fun x' hx' hbl => hst ?_
        rw [hx] at hx'
        cases hx'
        exact hbl.1
      rcases exec_updateUnit_bind h hx hst with ⟨_, h', rfl⟩
      simp only [exec_bind_ok, exec_mirrorWorkItem] at h'
      rcases h' with ⟨_, _, rfl, ⟨o₁, _, ho₁, h', rfl⟩, rfl⟩
      simp only [pure_eq, exec_done, Except.ok.injEq] at h'
      subst h'
      have hun : s.Unlocked x.workItemId := (outstanding_eq_zero hs hx).mp (by omega)
      have hsh : SameShape s (promotedState s c x now) := sameShape_promotedState hx
      have hp := ih (hsh.shape hs) (books_promotedState hs hb hx hst) ho₁
      apply Promotes.cons hx hst hun hp
      · intro k hk
        simp [hk]
      · simp
      · simp

theorem Promotes.mono {s t : Db} {cs : List Uuid} {l l' : List RowKey} (hl : l ⊆ l')
    (h : Promotes s t cs l) : Promotes s t cs l' :=
  { h with unit_locks := h.unit_locks.mono hl, item_locks := h.item_locks.mono hl }

theorem exec_unblockDependents {w : Uuid} {now : Time} {s : Db}
    {o : Outcome Db RowKey (List (Uuid × ExecutionUnit))} (hs : Shape s) (hb : Books s)
    (h : exec (unblockDependents w now) s = .ok o) :
    Promotes s o.state (s.blockedDependents w) o.locks ∧
      ∀ c ∈ s.blockedDependents w, .executionUnit c ∈ o.locks := by
  simp only [unblockDependents, bind_eq, select_bind, exec_query, exec_bind_ok,
    exec_lockCandidates] at h
  rcases h with ⟨_, o₂, rfl, h, rfl⟩
  -- run alone, the recheck under the locks drops nobody
  have hkeep : (s.blockedDependents w).filter (fun c =>
      (s.planExecutionUnits.find? c).any fun u => u.state = .blocked) = s.blockedDependents w := by
    rw [List.filter_eq_self]
    intro c hc
    rcases mem_blockedDependents.mp hc with ⟨z, hz, hst, -⟩
    simp [hz, hst]
  dsimp only at h
  rw [hkeep] at h
  refine ⟨(exec_promote hs hb h).mono ?_, ?_⟩
  · intro k hk
    simp [hk]
  · intro c hc
    simp [hc]

/-! ## `record_result` -/

/-- The columns a result sets. -/
def terminalUnit (disposition : Disposition) (resultRef : Option String) (now : Time)
    (x : ExecutionUnit) : ExecutionUnit :=
  { x with
    state := terminalState disposition
    disposition := some disposition
    resultRef := resultRef
    completedAt := some now }

/-- The state once the unit is terminal and before any promotion. -/
def terminalDb (s : Db) (u : Uuid) (x : ExecutionUnit) (disposition : Disposition)
    (resultRef : Option String) (now : Time) (E : List WorkItemEvent) : Db :=
  { s with
    planExecutionUnits := s.planExecutionUnits.modify u (terminalUnit disposition resultRef now)
    projectWorkItems := s.projectWorkItems.modify x.workItemId
      (mirrorRow (terminalState disposition) none none now)
    workItemEvents := E }

theorem sameShape_terminalDb {s : Db} {u : Uuid} {x : ExecutionUnit} {disposition : Disposition}
    {resultRef : Option String} {now : Time} {E : List WorkItemEvent}
    (hx : s.planExecutionUnits.find? u = some x) :
    SameShape s (terminalDb s u x disposition resultRef now E) :=
  sameShape_unit hx rfl (fun _ => isSome_find?_modify _ _ _ _) fun _ h => Or.inl h

theorem handedOver_terminalState (d : Disposition) : (terminalState d).handedOver := by
  cases d <;> rfl

theorem books_terminalDb {s : Db} {u : Uuid} {x : ExecutionUnit} {disposition : Disposition}
    {resultRef : Option String} {now : Time} {E : List WorkItemEvent} (hs : Shape s)
    (hb : Books s) (hx : s.planExecutionUnits.find? u = some x) (hst : x.state = .dispatched) :
    Books (terminalDb s u x disposition resultRef now E) := by
  have hmove : UnitMoves s (terminalDb s u x disposition resultRef now E) u x
      (terminalUnit disposition resultRef now x) := by
    apply unitMoves_modify hx rfl rfl
    · intro i hi
      rcases Table.exists_of_find?_modify hi with ⟨i₀, -, rfl⟩
      simp [terminalUnit]
    · intro w hw
      exact Table.find?_modify_of_ne _ _ hw
  have howned : (terminalUnit disposition resultRef now x).state.unowned = false := by
    cases disposition <;> rfl
  have hun : x.state.unowned = false := by simp [hst, UnitState.unowned]
  apply hmove.books hs hb
  · cases disposition <;> simp [terminalUnit, terminalState]
  · exact fun _ => hb.owned u x hx hun
  · intro v _
    rfl
  · intro d hd
    rcases hb.dispatch_unit u d hd with ⟨z, hz, -, hof⟩
    rw [hx] at hz
    cases hz
    exact ⟨handedOver_terminalState disposition, hof⟩
  · intro _
    exact hb.unit_dispatch u x hx (by simp [hst, UnitState.handedOver])
  · intro w _
    rfl
  · simp [howned]
  · intro _
    exact hb.routed u x hx hun

/-- What a successful `record_result` did: nothing, or the unit became terminal and, when it
completed, its dependents were promoted under their locks. -/
theorem exec_recordResult {u : Uuid} {disposition : Disposition} {resultRef : Option String}
    {now : Time} {s : Db} {o : Outcome Db RowKey ResultOutcome} (hs : Shape s) (hb : Books s)
    (h : exec (recordResult u disposition resultRef now) s = .ok o) :
    ∃ x, s.planExecutionUnits.find? u = some x ∧
      (s.planExecutionDispatches.find? u).isSome ∧ .executionUnit u ∈ o.locks ∧
      ((x.state = terminalState disposition ∧ o.value = .replay x ∧ o.state = s) ∨
        (x.state = .dispatched ∧ .workItem x.workItemId ∈ o.locks ∧
          (∃ unblocked, o.value =
            .recorded (terminalUnit disposition resultRef now x) unblocked) ∧
          ∃ E cs, Promotes (terminalDb s u x disposition resultRef now E) o.state cs o.locks ∧
            (disposition = .succeeded → cs =
              (terminalDb s u x disposition resultRef now E).blockedDependents x.workItemId ∧
              ∀ c ∈ cs, .executionUnit c ∈ o.locks) ∧
            (disposition = .failed → cs = []))) := by
  simp only [recordResult, bind_eq, exec_bind_ok, exec_lockUnit] at h
  rcases h with ⟨_, _, rfl, h, rfl⟩
  dsimp only at *
  cases hx : s.planExecutionUnits.find? u with
  | none => simp [hx] at h
  | some x =>
    simp only [hx, select_bind, exec_query] at h
    refine ⟨x, rfl, ?_⟩
    cases hd : s.planExecutionDispatches.find? u with
    | none => simp [hd] at h
    | some d =>
      simp only [hd] at h
      refine ⟨rfl, by simp, ?_⟩
      by_cases hterm : x.state = .completed ∨ x.state = .failed
      · -- a replay, or a conflicting report that raises
        left
        rw [if_pos hterm] at h
        by_cases hsame : x.state = terminalState disposition
        · simp only [hsame, ne_eq, not_true, if_false, pure_eq, exec_done, Except.ok.injEq] at h
          subst h
          exact ⟨hsame, rfl, rfl⟩
        · simp [hsame] at h
      right
      rw [if_neg hterm] at h
      by_cases hst : x.state = .dispatched
      swap
      · simp [hst] at h
      rw [if_neg (not_not.mpr hst)] at h
      refine ⟨hst, ?_⟩
      rcases exec_updateUnit_bind h hx hst with ⟨_, h', rfl⟩
      simp only [exec_bind_ok, exec_mirrorWorkItem] at h'
      rcases h' with ⟨_, _, rfl, ⟨_, _, hev, h', rfl⟩, rfl⟩
      rcases exec_recordWorkItemEvent hev with ⟨E, rfl⟩
      dsimp only at h'
      have hbooks : Books (terminalDb s u x disposition resultRef now E) :=
        books_terminalDb hs hb hx hst
      cases disposition with
      | failed =>
        simp only [terminalState, reduceCtorEq, if_false, pure_eq, exec_done,
          Except.ok.injEq] at h'
        subst h'
        refine ⟨by simp, ⟨_, rfl⟩, E, [], .nil hbooks _, by simp, fun _ => rfl⟩
      | succeeded =>
        have hrun : exec ((unblockDependents x.workItemId now).bind fun unblocked =>
            done (ResultOutcome.recorded (terminalUnit .succeeded resultRef now x) unblocked))
            (terminalDb s u x .succeeded resultRef now E) = .ok _ := h'
        rcases exec_bind_ok.mp hrun with ⟨o₁, o₂, h₁, h₂, rfl⟩
        rcases exec_unblockDependents ((sameShape_terminalDb hx).shape hs) hbooks h₁ with
          ⟨hp, hlocks⟩
        simp only [exec_done, Except.ok.injEq] at h₂
        subst h₂
        refine ⟨by simp, ⟨_, rfl⟩, E, _, hp.mono ?_, fun _ => ⟨rfl, fun c hc => ?_⟩, by simp⟩
        · intro k hk
          simp [hk]
        · have hk := hlocks c hc
          simp [hk]

/-! ## The gate -/

theorem terminalDb_find?_of_ne {s : Db} {u v : Uuid} {x : ExecutionUnit}
    {disposition : Disposition} {resultRef : Option String} {now : Time} {E : List WorkItemEvent}
    (hv : v ≠ u) :
    (terminalDb s u x disposition resultRef now E).planExecutionUnits.find? v =
      s.planExecutionUnits.find? v :=
  Table.find?_modify_of_ne _ _ hv

theorem terminalDb_find?_self {s : Db} {u : Uuid} {x : ExecutionUnit}
    {disposition : Disposition} {resultRef : Option String} {now : Time} {E : List WorkItemEvent}
    (hx : s.planExecutionUnits.find? u = some x) :
    (terminalDb s u x disposition resultRef now E).planExecutionUnits.find? u =
      some (terminalUnit disposition resultRef now x) := by
  simp [terminalDb, hx]

/-- Recording a result completes at most the unit's own work item. -/
theorem completedItem_terminalDb {s : Db} {u : Uuid} {x : ExecutionUnit}
    {disposition : Disposition} {resultRef : Option String} {now : Time} {E : List WorkItemEvent}
    (hx : s.planExecutionUnits.find? u = some x) (hst : x.state = .dispatched) (w : Uuid) :
    (terminalDb s u x disposition resultRef now E).CompletedItem w ↔
      s.CompletedItem w ∨ (disposition = .succeeded ∧ w = x.workItemId) := by
  constructor
  · rintro ⟨v, y, hy, hw, hc⟩
    by_cases hv : v = u
    · subst hv
      rw [terminalDb_find?_self hx] at hy
      cases hy
      cases disposition with
      | succeeded => exact Or.inr ⟨rfl, hw.symm⟩
      | failed => simp [terminalUnit, terminalState] at hc
    · rw [terminalDb_find?_of_ne hv] at hy
      exact Or.inl ⟨v, y, hy, hw, hc⟩
  · rintro (⟨v, y, hy, hw, hc⟩ | ⟨rfl, rfl⟩)
    · have hv : v ≠ u := by
        rintro rfl
        rw [hx] at hy
        cases hy
        rw [hst] at hc
        cases hc
      exact ⟨v, y, by rw [terminalDb_find?_of_ne hv, hy], hw, hc⟩
    · exact ⟨u, _, terminalDb_find?_self hx, rfl, rfl⟩

/-- The loop restores the gate when only candidates were blocked for no reason. -/
theorem gate_promotes {s t : Db} {cs : List Uuid} {l : List RowKey} (h : Promotes s t cs l)
    (hblocked : ∀ v z, s.planExecutionUnits.find? v = some z → z.state = .blocked → v ∉ cs →
      ¬ s.Unlocked z.workItemId)
    (hopen : ∀ v z, s.planExecutionUnits.find? v = some z → z.state ≠ .blocked →
      s.Unlocked z.workItemId) : Gate t := by
  have hdone := completedItem_of_units h.shape fun v x y hx hy => by
    rcases h.units v x hx with ⟨y', hy', ⟨-, hst, -, rfl⟩ | ⟨rfl, -⟩⟩
    · rw [hy'] at hy
      cases hy
      simp [readyUnit, hst]
    · rw [hy'] at hy
      cases hy
      rfl
  have hiff : ∀ w, t.Unlocked w ↔ s.Unlocked w := by
    intro w
    unfold Db.Unlocked
    simp only [h.shape.dependsOn, hdone]
  intro v y hy
  rcases h.shape.unit_back hy with ⟨z, hz, -⟩
  rcases h.units v z hz with ⟨y', hy', hcase⟩
  rw [hy] at hy'
  cases hy'
  rcases hcase with ⟨-, -, hun, rfl⟩ | ⟨rfl, hno⟩
  · simp [readyUnit, hiff, hun]
  · rw [hiff]
    by_cases hst : y.state = .blocked
    · simp only [hst, true_iff]
      by_cases hv : v ∈ cs
      · intro hun
        exact hno ⟨hv, hst, hun⟩
      · exact hblocked v y hz hst hv
    · simp only [hst, false_iff, not_not]
      exact hopen v y hz hst

theorem inv_recordResult {u : Uuid} {disposition : Disposition} {resultRef : Option String}
    {now : Time} {s : Db} {o : Outcome Db RowKey ResultOutcome} (hinv : Inv s)
    (h : exec (recordResult u disposition resultRef now) s = .ok o) : Inv o.state := by
  rcases exec_recordResult hinv.shape hinv.books h with
    ⟨x, hx, -, -, ⟨-, -, hs⟩ | ⟨hst, -, -, E, cs, hp, hsucc, hfail⟩⟩
  · rw [hs]
    exact hinv
  have hsh := (sameShape_terminalDb hx).trans hp.shape
  refine ⟨hsh.lineage hinv.revisions, hsh.shape hinv.shape, ?_, hp.books⟩
  have hdone : ∀ w, (terminalDb s u x disposition resultRef now E).CompletedItem w ↔
      s.CompletedItem w ∨ (disposition = .succeeded ∧ w = x.workItemId) :=
    completedItem_terminalDb hx hst
  have hdep : ∀ w d, (terminalDb s u x disposition resultRef now E).DependsOn w d ↔
      s.DependsOn w d := (sameShape_terminalDb hx).dependsOn
  apply gate_promotes hp
  · -- a unit left blocked has a dependency that this result did not complete
    intro v z hz hbl hv hun
    have hvu : v ≠ u := by
      rintro rfl
      rw [terminalDb_find?_self hx] at hz
      cases hz
      cases disposition <;> simp [terminalUnit, terminalState] at hbl
    have hz' := hz
    rw [terminalDb_find?_of_ne hvu] at hz
    apply (hinv.gate v z hz).mp hbl
    intro d hd
    rcases (hdone d).mp (hun d ((hdep _ _).mpr hd)) with hc | ⟨hds, rfl⟩
    · exact hc
    · exfalso
      apply hv
      rw [(hsucc hds).1]
      exact mem_blockedDependents.mpr ⟨z, hz', hbl, (hdep _ _).mpr hd⟩
  · -- an open gate stays open
    intro v z hz hbl d hd
    have hopen : ∀ v' z', s.planExecutionUnits.find? v' = some z' → z'.state ≠ .blocked →
        ∀ d, s.DependsOn z'.workItemId d → s.CompletedItem d := by
      intro v' z' hz' hne
      by_contra hun
      exact hne ((hinv.gate v' z' hz').mpr hun)
    have hd' := (hdep _ _).mp hd
    apply (hdone d).mpr
    left
    by_cases hvu : v = u
    · subst hvu
      rw [terminalDb_find?_self hx] at hz
      cases hz
      exact hopen v x hx (by simp [hst]) d hd'
    · rw [terminalDb_find?_of_ne hvu] at hz
      exact hopen v z hz hbl d hd'

/-! ## The guarantee -/

/-- A unit that changed is the one reported on or a promoted one. -/
theorem unit_of_promotes {s t : Db} {u : Uuid} {x : ExecutionUnit} {disposition : Disposition}
    {resultRef : Option String} {now : Time} {E : List WorkItemEvent} {cs : List Uuid}
    {l : List RowKey} (hx : s.planExecutionUnits.find? u = some x)
    (hp : Promotes (terminalDb s u x disposition resultRef now E) t cs l)
    {v : Uuid} {z y : ExecutionUnit} (hz : s.planExecutionUnits.find? v = some z)
    (hy : t.planExecutionUnits.find? v = some y) :
    (v = u ∧ y = terminalUnit disposition resultRef now z) ∨
      (z.state = .blocked ∧ y = readyUnit z) ∨ (v ≠ u ∧ y = z) := by
  by_cases hv : v = u
  · subst hv
    rw [hx] at hz
    cases hz
    rcases hp.units v _ (terminalDb_find?_self hx) with ⟨y', hy', ⟨-, hbl, -⟩ | ⟨rfl, -⟩⟩
    · cases disposition <;> simp [terminalUnit, terminalState] at hbl
    · rw [hy] at hy'
      cases hy'
      exact Or.inl ⟨rfl, rfl⟩
  · rcases hp.units v z (by rw [terminalDb_find?_of_ne hv, hz]) with
      ⟨y', hy', ⟨-, hbl, -, rfl⟩ | ⟨rfl, -⟩⟩
    · rw [hy] at hy'
      cases hy'
      exact Or.inr (Or.inl ⟨hbl, rfl⟩)
    · rw [hy] at hy'
      cases hy'
      exact Or.inr (Or.inr ⟨hv, rfl⟩)

theorem guarantee_recordResult {u : Uuid} {disposition : Disposition}
    {resultRef : Option String} {now : Time} {s : Db} {o : Outcome Db RowKey ResultOutcome}
    (hinv : Inv s) (h : exec (recordResult u disposition resultRef now) s = .ok o) :
    Guarantee o.locks s o.state := by
  rcases exec_recordResult hinv.shape hinv.books h with
    ⟨x, hx, -, hl, ⟨-, -, hs⟩ | ⟨hst, hlw, -, E, cs, hp, hsucc, hfail⟩⟩
  · rw [hs]
    exact Guarantee.refl _ _
  have hsh := (sameShape_terminalDb hx).trans hp.shape
  rcases hp.state with ⟨U, W, hstate⟩
  have hunits : Evolves RowKey.executionUnit ExecutionUnit.Same o.locks s.planExecutionUnits
      o.state.planExecutionUnits := by
    have h₁ : Evolves RowKey.executionUnit ExecutionUnit.Same o.locks s.planExecutionUnits
        (terminalDb s u x disposition resultRef now E).planExecutionUnits := by
      apply Evolves.modify ExecutionUnit.Same.refl _ hl
      intro z hz
      rw [hx] at hz
      cases hz
      exact ⟨rfl, by simp [hst]⟩
    exact h₁.trans (fun _ _ _ => ExecutionUnit.Same.trans) hp.unit_locks
  have hitems : Evolves RowKey.workItem (fun _ _ => True) o.locks s.projectWorkItems
      o.state.projectWorkItems :=
    (evolves_mirror hlw).trans (fun _ _ _ _ _ => trivial)
      (hp.item_locks.imp fun _ _ _ => trivial)
  have hassign : ∀ v z y, s.planExecutionUnits.find? v = some z →
      o.state.planExecutionUnits.find? v = some y → z.state = .ready → y.state = .ready := by
    intro v z y hz hy hready
    rcases unit_of_promotes hx hp hz hy with ⟨rfl, rfl⟩ | ⟨hbl, rfl⟩ | ⟨-, rfl⟩
    · rw [hx] at hz
      cases hz
      rw [hst] at hready
      cases hready
    · rfl
    · exact hready
  have hcomplete : ∀ v z y, s.planExecutionUnits.find? v = some z →
      o.state.planExecutionUnits.find? v = some y → z.state ≠ .completed →
      y.state = .completed → v = u ∧ disposition = .succeeded := by
    intro v z y hz hy hne hdone
    rcases unit_of_promotes hx hp hz hy with ⟨rfl, rfl⟩ | ⟨hbl, rfl⟩ | ⟨-, rfl⟩
    · refine ⟨rfl, ?_⟩
      cases disposition with
      | succeeded => rfl
      | failed => simp [terminalUnit, terminalState] at hdone
    · simp [readyUnit] at hdone
    · exact absurd hdone hne
  have hback := fun v y (hy : o.state.planExecutionUnits.find? v = some y) => hsh.unit_back hy
  rw [hstate] at hunits hitems hassign hcomplete hback ⊢
  refine { Guarantee.refl o.locks s with
    units := hunits
    items := hitems
    unit_new := ?_
    assign := ?_
    complete := ?_ }
  · intro v y hn hy
    rcases hback v y hy with ⟨z, hz, -⟩
    rw [hn] at hz
    cases hz
  · intro v z y hz hy hready hne
    exact absurd (hassign v z y hz hy hready) hne
  · intro v z y hz hy hne hdone c w hw hbl hdep
    rcases hcomplete v z y hz hy hne hdone with ⟨rfl, hds⟩
    rw [hx] at hz
    cases hz
    rcases hsucc hds with ⟨hcs, hlocks⟩
    apply hlocks
    rw [hcs]
    have hc : c ≠ v := by
      rintro rfl
      rw [hx] at hw
      cases hw
      rw [hst] at hbl
      cases hbl
    exact mem_blockedDependents.mpr ⟨w, by rw [terminalDb_find?_of_ne hc, hw], hbl, hdep⟩

/-! ## A result can always be recorded -/

/-- The loop never raises. -/
theorem succeeds_promote (now : Time) (cs : List Uuid) (s : Db) :
    Succeeds (promote now cs) s := by
  induction cs generalizing s with
  | nil => exact succeeds_done _ _
  | cons c cs ih =>
    simp only [promote, bind_eq, select_bind, succeeds_query]
    split_ifs with hpos
    · exact ih s
    · cases hc : (s.planExecutionUnits.find? c).any fun x => x.state = .blocked with
      | false =>
        rw [succeeds_updateUnit_skip hc]
        exact ih s
      | true =>
        rcases (Option.any_eq_true _ _).mp hc with ⟨x, hx, hst⟩
        rw [succeeds_updateUnit_bind hx (of_decide_eq_true hst)]
        rw [succeeds_mirrorWorkItem_bind, succeeds_bind]
        rcases ih _ with ⟨o, ho⟩
        exact ⟨o, ho, succeeds_done _ _⟩

theorem succeeds_unblockDependents (w : Uuid) (now : Time) (s : Db) :
    Succeeds (unblockDependents w now) s := by
  simp only [unblockDependents, bind_eq, select_bind, succeeds_query, succeeds_bind,
    exec_lockCandidates, exists_eq_left]
  exact succeeds_promote now _ s

/-- A dispatched unit's result is recorded, whatever happened to its revision. -/
theorem succeeds_recordResult {u : Uuid} {x : ExecutionUnit} {s : Db} (hb : Books s)
    (hx : s.planExecutionUnits.find? u = some x) (hst : x.state = .dispatched)
    (disposition : Disposition) (resultRef : Option String) (now : Time) :
    Succeeds (recordResult u disposition resultRef now) s := by
  rcases hb.unit_dispatch u x hx (by simp [hst, UnitState.handedOver]) with ⟨d, hd⟩
  simp only [recordResult, bind_eq, lockUnit, lockRow_bind, lock_bind, select, query_bind,
    done_bind, succeeds_lock, succeeds_query, hx, hd]
  rw [if_neg (by simp [hst]), if_neg (by simp [hst]), succeeds_updateUnit_bind hx hst]
  simp only [succeeds_mirrorWorkItem_bind, recordWorkItemEvent, modify_bind, succeeds_write]
  split_ifs
  · rw [succeeds_bind]
    rcases succeeds_unblockDependents x.workItemId now _ with ⟨o, ho⟩
    exact ⟨o, ho, succeeds_done _ _⟩
  · exact succeeds_done _ _

/-- What recording a dispatched unit's result achieves: the unit is terminal, and every
blocked unit whose dependencies are then all completed is ready. -/
theorem recordResult_effect {u : Uuid} {x : ExecutionUnit} {disposition : Disposition}
    {resultRef : Option String} {now : Time} {s : Db} {o : Outcome Db RowKey ResultOutcome}
    (hinv : Inv s) (hx : s.planExecutionUnits.find? u = some x) (hst : x.state = .dispatched)
    (h : exec (recordResult u disposition resultRef now) s = .ok o) :
    o.state.planExecutionUnits.find? u = some (terminalUnit disposition resultRef now x) ∧
      ∀ c z, s.planExecutionUnits.find? c = some z → z.state = .blocked →
        o.state.Unlocked z.workItemId →
        o.state.planExecutionUnits.find? c = some (readyUnit z) := by
  have hinv' := inv_recordResult hinv h
  rcases exec_recordResult hinv.shape hinv.books h with
    ⟨x', hx', -, -, ⟨hterm, -, -⟩ | ⟨-, -, -, E, cs, hp, -, -⟩⟩
  · rw [hx] at hx'
    cases hx'
    rw [hst] at hterm
    cases disposition <;> cases hterm
  rw [hx] at hx'
  cases hx'
  have hsh := (sameShape_terminalDb hx).trans hp.shape
  constructor
  · rcases hsh.unit_forth hx with ⟨y, hy, -⟩
    rcases unit_of_promotes hx hp hx hy with ⟨-, rfl⟩ | ⟨hbl, -⟩ | ⟨hne, -⟩
    · exact hy
    · rw [hst] at hbl
      cases hbl
    · exact absurd rfl hne
  · intro c z hz hbl hun
    rcases hsh.unit_forth hz with ⟨y, hy, -⟩
    rcases unit_of_promotes hx hp hz hy with ⟨rfl, -⟩ | ⟨-, rfl⟩ | ⟨-, rfl⟩
    · rw [hx] at hz
      cases hz
      rw [hst] at hbl
      cases hbl
    · exact hy
    · -- left blocked, although the gate is open
      exact absurd hun ((hinv'.gate c y hy).mp hbl)

end AiAgentsSwd.Planning
