import AiAgentsSwd.Migrations.Body

/-!
# Migrations.Cleanup — what the cleanup does

The cleanup runs every step, whatever became of those before it, and closes the connection when
one of them failed. So it undoes what it knows of, or it closes the connection
(`cleanup_triple`), it starts with `ROLLBACK` (`cleanup_starts`), and it reports what failed of
it (`cleanup_run`).
-/

namespace AiAgentsSwd.Migrations

open Faults

variable {c : Call}

/-! ## The cleanup -/

/-- The settings after their values were set again. -/
def restored (saved : List (Setting × Nat)) (t : Timeouts) : Timeouts :=
  saved.foldl (fun t e => Function.update t e.1 e.2) t

/-- The ledger after the pending update. -/
def marked (ledger : Ledger) : Option (Nat × Status) → Ledger
  | none => ledger
  | some (id, status) => ledger.modify id fun r => { r with status := status }

/-- The state after `ROLLBACK`. -/
def State.rolledBack (s : State) : State := { s with session.aborted := false }

/-- The state after `ROLLBACK` and the pending update. -/
def State.undone (s : State) : State :=
  { s.rolledBack with ledger := marked s.ledger s.pendingLedgerUpdate }

/-- No step is struck of the cleanup that a run in this state attempts. -/
structure Spared (c : Call) (s : State) : Prop where
  rollback : c.strikes .rollback = none
  mark : s.pendingLedgerUpdate ≠ none → c.strikes .mark = none
  restore : ∀ saved, s.savedTimeouts = some saved → ∀ e ∈ saved, c.strikes (.restore e.1) = none
  unlock : c.strikes .unlock = none

/-- What a cleanup leaves none of whose steps failed. -/
structure Cleaned (s s' : State) : Prop where
  session : s'.session = ⟨false, false, s.session.closed,
    restored (s.savedTimeouts.getD []) s.session.timeouts⟩
  ledger : s'.ledger = marked s.ledger s.pendingLedgerUpdate

section Cleanup

variable {E : Failure Point Err → State → Prop} {s₀ : State}

theorem rollback_triple :
    Triple (fun s => s = s₀) (rollback c)
      (fun _ s => c.strikes .rollback = none ∧ s = s₀.rolledBack) fun _ _ => ¬Spared c s₀ := by
  have hstruck : ∀ x, c.strikes .rollback = some x → ¬Spared c s₀ := by
    intro x hx hspared
    rw [hspared.rollback] at hx
    cases hx
  refine Triple.step ?_ ?_ ?_ ?_
  · intro s hs hstrike
    subst hs
    exact ⟨hstrike, rfl⟩
  · intro s e _ hstrike
    exact hstruck _ hstrike
  · intro s e _ hstrike
    exact hstruck _ hstrike
  · intro s e _ hstrike
    exact hstruck _ hstrike

theorem markPending_triple {id : Nat} {status : Status}
    (hpending : s₀.pendingLedgerUpdate = some (id, status)) :
    Triple (fun s => s = s₀.rolledBack) (markPending c id status)
      (fun _ s => c.strikes .mark = none ∧ s = s₀.undone) fun _ _ => ¬Spared c s₀ := by
  have hstruck : ∀ x, c.strikes .mark = some x → ¬Spared c s₀ := by
    intro x hx hspared
    rw [hspared.mark (by rw [hpending]; exact Option.some_ne_none _)] at hx
    cases hx
  refine execute_triple ?_ ?_ ?_ ?_
  · intro s hs
    rw [hs]
    rfl
  · intro s hs hstrike
    refine ⟨hstrike, ?_⟩
    rw [hs]
    unfold State.undone
    rw [hpending]
    rfl
  · intro how e s _ hstrike _
    exact hstruck _ hstrike
  · intro e s _ hstrike
    exact hstruck _ hstrike

/-- Both go through, or one of them was struck. -/
theorem undo_triple (s₀ : State) :
    Triple (fun s => s = s₀) (undo c s₀.pendingLedgerUpdate)
      (fun es s => es = [] ∧ c.strikes .rollback = none ∧
          (s₀.pendingLedgerUpdate ≠ none → c.strikes .mark = none) ∧ s = s₀.undone ∨
        es ≠ [] ∧ ¬Spared c s₀) E := by
  refine Triple.next (Q := fun es s => es = [] ∧ c.strikes .rollback = none ∧
    s = s₀.rolledBack ∨ es ≠ [] ∧ ¬Spared c s₀) ?_ ?_ ?_
  · refine Triple.safely rollback_triple (fun s hs => Or.inl ⟨rfl, hs.1, hs.2⟩) fun f s hs => ?_
    exact Or.inr ⟨List.cons_ne_nil _ _, hs⟩
  · refine Triple.assuming (p := c.strikes .rollback = none) (fun s hs => ?_) fun hrollback => ?_
    · rcases hs with ⟨-, h, -⟩ | ⟨h, -⟩
      · exact h
      · exact absurd rfl h
    have hdrop : ∀ s, ([] = ([] : List (Failure Point Err)) ∧ c.strikes .rollback = none ∧
        s = s₀.rolledBack ∨ [] ≠ ([] : List (Failure Point Err)) ∧ ¬Spared c s₀) →
        s = s₀.rolledBack := by
      intro s hs
      rcases hs with ⟨-, -, h⟩ | ⟨h, -⟩
      · exact h
      · exact absurd rfl h
    cases hpending : s₀.pendingLedgerUpdate with
    | none =>
      refine Triple.pure fun s hs => Or.inl ⟨rfl, hrollback, fun h => absurd rfl h, ?_⟩
      rw [hdrop s hs]
      unfold State.undone
      rw [hpending]
      rfl
    | some pending =>
      rcases pending with ⟨id, status⟩
      have hmark := (markPending_triple (c := c) hpending).conseq hdrop (fun _ _ hq => hq)
        fun _ _ he => he
      refine Triple.safely hmark (fun s hs => Or.inl ⟨rfl, hrollback, fun _ => hs.1, hs.2⟩)
        fun f s hs => ?_
      exact Or.inr ⟨List.cons_ne_nil _ _, hs⟩
  · intro es s hes hs
    rcases hs with ⟨hnil, -⟩ | hs
    · exact absurd hnil hes
    · exact Or.inr hs

theorem restoreTimeouts_triple (s₁ : State) (hruns : s₁.session.aborted = false)
    (saved : List (Setting × Nat)) :
    Triple (fun s => s = s₁) (restoreTimeouts c saved)
      (fun _ s => (∀ e ∈ saved, c.strikes (.restore e.1) = none) ∧
        s = { s₁ with session.timeouts := restored saved s₁.session.timeouts })
      fun _ _ => ∃ e ∈ saved, c.strikes (.restore e.1) ≠ none := by
  induction saved generalizing s₁ with
  | nil =>
    refine Triple.pure fun s hs => ⟨?_, hs⟩
    intro e he
    cases he
  | cons e saved ih =>
    have hset : Triple (fun s => s = s₁) (setTimeout c (.restore e.1) e.1 e.2)
        (fun _ s => c.strikes (.restore e.1) = none ∧ s = { s₁ with
          session.timeouts := Function.update s₁.session.timeouts e.1 e.2 })
        fun _ _ => ∃ e' ∈ e :: saved, c.strikes (.restore e'.1) ≠ none := by
      have hstruck : ∀ x, c.strikes (.restore e.1) = some x →
          ∃ e' ∈ e :: saved, c.strikes (.restore e'.1) ≠ none := by
        intro x hx
        refine ⟨e, List.mem_cons_self, ?_⟩
        rw [hx]
        exact Option.some_ne_none x
      refine execute_triple ?_ ?_ ?_ ?_
      · intro s hs
        rw [hs, hruns]
      · intro s hs hstrike
        rw [hs]
        exact ⟨hstrike, rfl⟩
      · intro how e' s _ hstrike _
        exact hstruck _ hstrike
      · intro e' s _ hstrike
        exact hstruck _ hstrike
    refine Triple.bind hset fun _ => Triple.assuming (fun _ hs => hs.1) fun hnone => ?_
    have hrest := ih { s₁ with
      session.timeouts := Function.update s₁.session.timeouts e.1 e.2 } hruns
    refine hrest.conseq (fun _ hs => hs.2) (fun _ s hq => ⟨?_, hq.2⟩) fun _ _ he => ?_
    · intro e' he'
      rcases List.mem_cons.mp he' with h | h
      · rw [h]
        exact hnone
      · exact hq.1 e' h
    · obtain ⟨e', he', hne⟩ := he
      exact ⟨e', List.mem_cons_of_mem e he', hne⟩

/-- The state after the settings are restored as well. -/
def State.restored (s : State) : State :=
  { s.undone with session.timeouts :=
      Migrations.restored (s.savedTimeouts.getD []) s.session.timeouts }

/-- What a part of the cleanup does once another one has failed does not matter. -/
theorem after_failure {es : List (Failure Point Err)} {m : Program (List (Failure Point Err))}
    {Q : List (Failure Point Err) → State → Prop}
    (hm : Triple (fun _ => True) m (fun _ _ => True) E)
    (hQ : ∀ es' s, es ≠ [] → ¬Spared c s₀ → Q es' s) :
    Triple (fun _ => es ≠ [] ∧ ¬Spared c s₀) m Q E := by
  refine Triple.assuming (p := es ≠ [] ∧ ¬Spared c s₀) (fun _ hs => hs) fun h => ?_
  exact hm.conseq (fun _ _ => trivial) (fun es' s _ => hQ es' s h.1 h.2) fun _ _ he => he

theorem restoreSaved_triple (s₀ : State) (es : List (Failure Point Err)) :
    Triple (fun s => es = [] ∧ c.strikes .rollback = none ∧
          (s₀.pendingLedgerUpdate ≠ none → c.strikes .mark = none) ∧ s = s₀.undone ∨
        es ≠ [] ∧ ¬Spared c s₀)
      (restoreSaved c s₀.savedTimeouts)
      (fun es' s => es ++ es' = [] ∧ (c.strikes .unlock = none → Spared c s₀) ∧ s = s₀.restored ∨
        es ++ es' ≠ [] ∧ ¬Spared c s₀) E := by
  refine Triple.or ?_ (after_failure ?_ ?_)
  · refine Triple.assuming (p := es = [] ∧ c.strikes .rollback = none ∧
      (s₀.pendingLedgerUpdate ≠ none → c.strikes .mark = none))
      (fun s hs => ⟨hs.1, hs.2.1, hs.2.2.1⟩) fun hundo => ?_
    rw [hundo.1]
    simp only [List.nil_append]
    cases hsaved : s₀.savedTimeouts with
    | none =>
      refine Triple.pure fun s hs => Or.inl ⟨rfl, fun hunlock => ?_, ?_⟩
      · refine ⟨hundo.2.1, hundo.2.2, ?_, hunlock⟩
        intro saved h
        rw [hsaved] at h
        cases h
      · rw [hs.2.2.2]
        unfold State.restored
        rw [hsaved]
        rfl
    | some saved =>
      have hrestore := restoreTimeouts_triple (c := c) s₀.undone rfl saved
      refine Triple.safely (hrestore.conseq (fun _ hs => hs.2.2.2) (fun _ _ hq => hq)
        fun _ _ he => he) (fun s hs => Or.inl ⟨rfl, fun hunlock => ?_, ?_⟩) fun f s hs => Or.inr ?_
      · refine ⟨hundo.2.1, hundo.2.2, ?_, hunlock⟩
        intro saved' h
        rw [hsaved] at h
        cases h
        exact hs.1
      · rw [hs.2]
        unfold State.restored
        rw [hsaved]
        rfl
      · refine ⟨List.cons_ne_nil _ _, fun hspared => ?_⟩
        obtain ⟨e, he, hne⟩ := hs
        exact hne (hspared.restore saved hsaved e he)
  · unfold restoreSaved
    cases s₀.savedTimeouts with
    | none => exact Triple.pure fun _ _ => trivial
    | some saved =>
      exact Triple.safely Triple.trivial (fun _ _ => trivial) fun _ _ _ => trivial
  · intro es' s hes hspared
    refine Or.inr ⟨fun happend => hes (List.append_eq_nil_iff.mp happend).1, hspared⟩

theorem unlock_triple (s₀ : State) (es : List (Failure Point Err)) :
    Triple (fun s => es = [] ∧ (c.strikes .unlock = none → Spared c s₀) ∧ s = s₀.restored ∨
        es ≠ [] ∧ ¬Spared c s₀)
      (unlock c)
      (fun es' s => es ++ es' = [] ∧ Spared c s₀ ∧ Cleaned s₀ s ∨
        es ++ es' ≠ [] ∧ ¬Spared c s₀) E := by
  refine Triple.or ?_ (after_failure ?_ ?_)
  · refine Triple.assuming (p := es = [] ∧ (c.strikes .unlock = none → Spared c s₀))
      (fun s hs => ⟨hs.1, hs.2.1⟩) fun hrest => ?_
    rw [hrest.1]
    simp only [List.nil_append]
    have hunlock : Triple (fun s => s = s₀.restored)
        (execute c .unlock fun s => { s with session.holds := false })
        (fun _ s => Spared c s₀ ∧ Cleaned s₀ s) fun _ _ => ¬Spared c s₀ := by
      have hstruck : ∀ x, c.strikes .unlock = some x → ¬Spared c s₀ := by
        intro x hx hspared
        rw [hspared.unlock] at hx
        cases hx
      refine execute_triple ?_ ?_ ?_ ?_
      · intro s hs
        rw [hs]
        rfl
      · intro s hs hstrike
        subst hs
        exact ⟨hrest.2 hstrike, rfl, rfl⟩
      · intro how e s _ hstrike _
        exact hstruck _ hstrike
      · intro e s _ hstrike
        exact hstruck _ hstrike
    refine Triple.safely (hunlock.conseq (fun _ hs => hs.2.2) (fun _ _ hq => hq) fun _ _ he => he)
      (fun s hs => Or.inl ⟨rfl, hs.1, hs.2⟩) fun f s hs => Or.inr ⟨List.cons_ne_nil _ _, hs⟩
  · exact Triple.safely Triple.trivial (fun _ _ => trivial) fun _ _ _ => trivial
  · intro es' s hes hspared
    refine Or.inr ⟨fun happend => hes (List.append_eq_nil_iff.mp happend).1, hspared⟩

/-- **The cleanup undoes what it knows of, or it closes the connection.** -/
theorem cleanup_triple (s₀ : State) :
    Triple (fun s => s = s₀) (cleanup c true)
      (fun es s => es = [] ∧ Spared c s₀ ∧ Cleaned s₀ s ∨
        es ≠ [] ∧ ¬Spared c s₀ ∧ s.session.closed = true) E := by
  have hget : Triple (fun s => s = s₀) (Prog.get : Program State)
      (fun s s' => s = s₀ ∧ s' = s₀) E := Triple.get fun s hs => ⟨hs, hs⟩
  refine Triple.bind hget fun s => Triple.assuming (fun _ hs => hs.1) fun hs => ?_
  subst hs
  have hboth := Triple.both (E := E) (R := fun es s' => es = [] ∧ Spared c s ∧ Cleaned s s' ∨
      es ≠ [] ∧ ¬Spared c s) (undo_triple s) fun es =>
    Triple.both (restoreSaved_triple s es) fun es' =>
      (unlock_triple s (es ++ es')).conseq (fun _ hs => hs)
        (fun es'' _ hq => by rw [← List.append_assoc]; exact hq) fun _ _ he => he
  refine Triple.bind (hboth.conseq (fun _ hs => hs.2) (fun _ _ hq => hq) fun _ _ he => he)
    fun es => Triple.ite (fun hnil => ?_) fun hnil => ?_
  · refine Triple.pure fun s' hs' => ?_
    rcases hs' with h | ⟨hne, -⟩
    · exact Or.inl h
    · exact absurd (List.isEmpty_iff.mp hnil) hne
  · have hclose : Triple (fun _ => True) (close c) (fun _ s' => s'.session.closed = true) E := by
      refine Triple.bind (Q := fun _ _ => True) ?_ fun _ => Triple.note fun s' _ => rfl
      exact Triple.safely Triple.trivial (fun _ _ => True.intro) fun _ _ _ => True.intro
    refine Triple.assuming (p := es ≠ [] ∧ ¬Spared c s) (fun s' hs' => ?_) fun hfailed => ?_
    · rcases hs' with ⟨h, -⟩ | h
      · exact absurd (List.isEmpty_iff.mpr h) hnil
      · exact h
    · refine Triple.bind (hclose.conseq (fun _ _ => True.intro) (fun _ _ hq => hq)
        fun _ _ he => he) fun _ => ?_
      exact Triple.pure fun s' hs' => Or.inr ⟨hfailed.1, hfailed.2, hs'⟩

end Cleanup

/-! ## The trace of the cleanup -/

abbrev Reporting (m : Program (List (Failure Point Err))) : Prop :=
  Reports (fun p => p.isCleanup = true) m

theorem undo_reports {pending : Option (Nat × Status)} : Reporting (undo c pending) := by
  refine Reports.next (Reports.safely (Within.step rfl)) ?_
  cases pending with
  | none => exact Reports.nil
  | some pending => exact Reports.safely (statement_within rfl)

theorem undo_starts {pending : Option (Nat × Status)} : Starts .rollback (undo c pending) := by
  have hrollback : Reporting (Prog.safely (rollback c)) := Reports.safely (Within.step rfl)
  refine Starts.next (Starts.safely Starts.step) hrollback ?_
  cases pending with
  | none => exact Reports.nil
  | some pending => exact Reports.safely (statement_within rfl)

theorem restoreSaved_reports {saved : Option (List (Setting × Nat))} :
    Reporting (restoreSaved c saved) := by
  cases saved with
  | none => exact Reports.nil
  | some saved => exact Reports.safely (Within.forEach fun _ => statement_within rfl)

theorem unlock_reports : Reporting (unlock c) := Reports.safely (statement_within rfl)

/-- The steps whose failures the cleanup reports. -/
def reporting (c : Call) (failed : Bool) (s : State) : Program (List (Failure Point Err)) :=
  Prog.both (if failed then undo c s.pendingLedgerUpdate else pure [])
    (Prog.both (restoreSaved c s.savedTimeouts) (unlock c))

theorem reporting_reports (failed : Bool) (s : State) : Reporting (reporting c failed s) := by
  refine Reports.both ?_ (Reports.both restoreSaved_reports unlock_reports)
  cases failed with
  | false => exact Reports.nil
  | true => exact undo_reports

/-- After that the connection is closed if there is something to report. -/
theorem cleanup_closes (failed : Bool) (r : Run State Point Err) :
    ∃ es t, (reporting c failed r.now r).1 = .ok es ∧ (cleanup c failed r).1 = .ok es ∧
      (cleanup c failed r).2.trace = (reporting c failed r.now r).2.trace ++ t ∧
      (∀ e ∈ t, e.point.isCleanup = true) ∧ (es = [] → t = []) := by
  obtain ⟨es, -, hes, -⟩ := reporting_reports (c := c) failed r.now r
  obtain ⟨r₁, hr₁⟩ : ∃ r₁, (reporting c failed r.now r).2 = r₁ := ⟨_, rfl⟩
  have hrun : reporting c failed r.now r = (.ok es, r₁) := by rw [← hes, ← hr₁]
  have hcleanup : cleanup c failed r =
      (if es.isEmpty then pure es else do close c; pure es) r₁ := by
    show (reporting c failed r.now >>= _) r = _
    rw [Prog.bind_ok hrun]
  rw [hcleanup, hr₁]
  by_cases hnil : es.isEmpty = true
  · rw [if_pos hnil]
    refine ⟨es, [], hes, rfl, (List.append_nil _).symm, ?_, fun _ => rfl⟩
    intro e he
    cases he
  · rw [if_neg hnil]
    have hclose : Reporting (Prog.safely (await c .close)) := Reports.safely (Within.step rfl)
    obtain ⟨es', t, hes', htrace, hpoints, -⟩ := hclose r₁
    obtain ⟨r₂, hr₂⟩ : ∃ r₂, (Prog.safely (await c .close) r₁).2 = r₂ := ⟨_, rfl⟩
    have hsafely : Prog.safely (await c .close) r₁ = (.ok es', r₂) := by rw [← hes', ← hr₂]
    have hrest : close c r₁ = (.ok (), ⟨{ r₂.now with session.closed := true }, r₂.trace⟩) := by
      unfold close
      rw [Prog.bind_ok hsafely]
      rfl
    rw [Prog.bind_ok hrest]
    refine ⟨es, t, hes, rfl, ?_, hpoints, fun h => absurd (List.isEmpty_iff.mpr h) hnil⟩
    rw [← htrace, hr₂]
    rfl

/-- A cleanup reports what it leaves in the trace, up to the closing of the connection. -/
theorem cleanup_run (failed : Bool) (r : Run State Point Err) :
    ∃ es t, (cleanup c failed r).1 = .ok es ∧ (cleanup c failed r).2.trace = r.trace ++ t ∧
      (∀ e ∈ t, e.point.isCleanup = true) ∧ (∀ f ∈ es, f ∈ failures t) ∧
      (es = [] → failures t = []) := by
  obtain ⟨es, t, hes, htrace, hpoints, hfail⟩ := reporting_reports (c := c) failed r.now r
  obtain ⟨es', t', hes', hcleanup, htrace', hpoints', hclosed⟩ := cleanup_closes (c := c) failed r
  have heq : es' = es := by
    rw [hes] at hes'
    cases hes'
    rfl
  subst heq
  refine ⟨es', t ++ t', hcleanup, ?_, ?_, ?_, ?_⟩
  · rw [htrace', htrace, List.append_assoc]
  · intro e he
    rcases List.mem_append.mp he with h | h
    · exact hpoints e h
    · exact hpoints' e h
  · intro f hf
    unfold failures at hfail ⊢
    rw [List.filterMap_append, hfail]
    exact List.mem_append_left _ hf
  · intro hnil
    rw [hclosed hnil, List.append_nil, hfail, hnil]

/-- The cleanup of a failed run starts with `ROLLBACK`. -/
theorem cleanup_starts (r : Run State Point Err) :
    ∃ e t, (cleanup c true r).2.trace = r.trace ++ e :: t ∧ e.point = .rollback := by
  have hstarts : Starts .rollback (reporting c true r.now) :=
    Starts.both undo_starts undo_reports (Reports.both restoreSaved_reports unlock_reports)
  obtain ⟨e, t, htrace, he⟩ := hstarts r
  obtain ⟨es, t', -, -, htrace', -⟩ := cleanup_closes (c := c) true r
  refine ⟨e, t ++ t', ?_, he⟩
  rw [htrace', htrace, List.append_assoc]
  rfl

end AiAgentsSwd.Migrations
