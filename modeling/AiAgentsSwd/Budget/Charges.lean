import AiAgentsSwd.Budget.Ledger

/-!
# Budget.Charges — one attempt is charged once

What the calls on one key come to is said without the ledger (`attempt`): the first reservation
counts, and the first settlement or release after it. The ledger of every run holds exactly
these attempts, one row each, and the usage queries sum them up.
-/

namespace AiAgentsSwd.Budget

open Keyed
open Planning (Uuid)

/-! ## Runs -/

/-- One of the three calls, when its write reaches the database; a reservation comes with
the identifier and the time the database gives the row. -/
inductive Call where
  | reserve (id : Uuid) (now : Int) (r : Reserve)
  | settle (s : Settle)
  | release (r : Release)

/-- The values of the call fit their columns. -/
def Call.Fits : Call → Prop
  | reserve _ _ r => r.Fits
  | settle s => s.Fits
  | release _ => True

instance : DecidablePred Call.Fits
  | .reserve _ _ r => inferInstanceAs (Decidable r.Fits)
  | .settle s => inferInstanceAs (Decidable s.Fits)
  | .release _ => inferInstanceAs (Decidable True)

/-- What a call does to the ledger. -/
def Ledger.call (L : Ledger) : Call → Ledger
  | .reserve id now r => L.reserveAttemptCost id now r
  | .settle s => L.settleAttemptCost s
  | .release r => L.releaseAttemptReservation r

/-- The calls of any number of callers, in the order of their writes. -/
def Ledger.run (L : Ledger) (cs : List Call) : Ledger := cs.foldl Ledger.call L

@[simp] theorem Ledger.run_nil (L : Ledger) : L.run [] = L := rfl

@[simp] theorem Ledger.run_append_singleton (L : Ledger) (cs : List Call) (c : Call) :
    L.run (cs ++ [c]) = (L.run cs).call c := by
  unfold run
  rw [List.foldl_append]
  rfl

/-! ## Attempts -/

/-- How a reservation ended. -/
inductive Outcome where
  | settled (s : Settle)
  | released (r : Release)

/-- An attempt: its reservation, and how that ended. -/
structure Attempt where
  id : Uuid
  reservedAt : Int
  reservation : Reserve
  outcome : Option Outcome

/-- The end the call puts to a reservation of the key. -/
def Call.outcome? (k : String) : Call → Option Outcome
  | .reserve _ _ _ => none
  | .settle s => if s.reservationKey = k then some (.settled s) else none
  | .release r => if r.reservationKey = k then some (.released r) else none

/-- The attempt of the key: the first reservation, and the first end after it. -/
def attempt (k : String) : List Call → Option Attempt
  | [] => none
  | .reserve id now r :: cs =>
    if r.reservationKey = k then some ⟨id, now, r, cs.findSome? (Call.outcome? k)⟩
    else attempt k cs
  | .settle _ :: cs => attempt k cs
  | .release _ :: cs => attempt k cs

namespace Attempt

/-- The row as it was reserved. -/
def reserved (a : Attempt) : LLMBudgetEvent := a.reservation.row a.id a.reservedAt

/-- The row of the attempt. -/
def row (a : Attempt) : LLMBudgetEvent :=
  match a.outcome with
  | none => a.reserved
  | some (.settled s) => a.reserved.settled s
  | some (.released r) => a.reserved.released r

/-- What the attempt costs: the estimate, the actual cost, or nothing. -/
def costUsd (a : Attempt) : Int :=
  match a.outcome with
  | none => a.reservation.estimatedCostUsd
  | some (.settled s) => s.actualCostUsd
  | some (.released _) => 0

/-- The tokens the attempt counts for. -/
def totalTokens (a : Attempt) : Int :=
  match a.outcome with
  | none => a.reservation.estimatedPromptTokens + a.reservation.estimatedCompletionTokens
  | some (.settled s) => s.actualPromptTokens + s.actualCompletionTokens
  | some (.released _) => 0

/-- The attempt after one more call: only the first end counts. -/
def next (a : Attempt) (c : Call) : Attempt :=
  { a with outcome := a.outcome.or (c.outcome? a.reservation.reservationKey) }

end Attempt

/-- A further call ends the attempt, or starts it. -/
theorem attempt_append_singleton (k : String) (cs : List Call) (c : Call) :
    attempt k (cs ++ [c]) = (attempt k cs).elim (attempt k [c]) fun a => some (a.next c) := by
  induction cs with
  | nil => rfl
  | cons d cs ih =>
    cases d with
    | reserve id now r =>
      rw [List.cons_append, attempt, attempt]
      by_cases hk : r.reservationKey = k
      · rw [if_pos hk, if_pos hk, List.findSome?_append]
        simp only [Option.elim_some, Attempt.next, hk]
        cases hc : c.outcome? k <;> simp [hc]
      · rw [if_neg hk, if_neg hk]
        exact ih
    | settle s => exact ih
    | release r => exact ih

/-! ## The ledger of a run -/

/-- The calls whose values fit: the others raise. -/
def written (cs : List Call) : List Call := cs.filter fun c => c.Fits

theorem Ledger.call_of_not_fits (L : Ledger) {c : Call} (h : ¬ c.Fits) : L.call c = L := by
  cases c with
  | reserve id now r =>
    unfold call reserveAttemptCost
    exact dif_neg fun hr => h hr.1
  | settle s =>
    unfold call settleAttemptCost
    exact if_neg h
  | release r => exact absurd trivial h

theorem Ledger.run_written (L : Ledger) (cs : List Call) : L.run cs = L.run (written cs) := by
  induction cs using List.reverseRecOn with
  | nil => rfl
  | append_singleton cs c ih =>
    unfold written
    rw [List.filter_append]
    by_cases hc : c.Fits
    · have hkeep : [c].filter (fun c => c.Fits) = [c] := by simp [hc]
      rw [hkeep, run_append_singleton, run_append_singleton, ih]
      rfl
    · have hdrop : [c].filter (fun c => c.Fits) = [] := by simp [hc]
      rw [hdrop, List.append_nil, run_append_singleton, call_of_not_fits _ hc, ih]
      rfl

/-- The update of a settlement, on the row of an attempt. -/
theorem updateReserved_settled (a : Attempt) (s : Settle) :
    updateReserved s.reservationKey (·.settled s) a.row = (a.next (.settle s)).row := by
  obtain ⟨id, t, r, outcome⟩ := a
  cases outcome with
  | none =>
    by_cases hk : s.reservationKey = r.reservationKey
    · simp [updateReserved, Attempt.row, Attempt.next, Attempt.reserved, Call.outcome?, hk,
        Reserve.row]
    · simp [updateReserved, Attempt.row, Attempt.next, Attempt.reserved, Call.outcome?, hk,
        Ne.symm hk, Reserve.row]
  | some o =>
    -- the row is not reserved any more
    cases o <;> simp [updateReserved, Attempt.row, Attempt.next, LLMBudgetEvent.settled,
      LLMBudgetEvent.released]

/-- The update of a release, on the row of an attempt. -/
theorem updateReserved_released (a : Attempt) (r : Release) :
    updateReserved r.reservationKey (·.released r) a.row = (a.next (.release r)).row := by
  obtain ⟨id, t, p, outcome⟩ := a
  cases outcome with
  | none =>
    by_cases hk : r.reservationKey = p.reservationKey
    · simp [updateReserved, Attempt.row, Attempt.next, Attempt.reserved, Call.outcome?, hk,
        Reserve.row]
    · simp [updateReserved, Attempt.row, Attempt.next, Attempt.reserved, Call.outcome?, hk,
        Ne.symm hk, Reserve.row]
  | some o =>
    cases o <;> simp [updateReserved, Attempt.row, Attempt.next, LLMBudgetEvent.settled,
      LLMBudgetEvent.released]

/-- The rows of one key hold its attempt. -/
def Holds (L : Ledger) (k : String) (a : Option Attempt) : Prop :=
  attemptRows k L.rows = (a.map Attempt.row).toList

theorem Holds.mem_keys {L : Ledger} {k : String} {a : Option Attempt} (h : Holds L k a) :
    k ∈ keys LLMBudgetEvent.reservationKey L.rows ↔ a ≠ none := by
  rw [mem_keys_iff]
  unfold Holds at h
  unfold attemptRows at h
  rw [h]
  cases a <;> simp

/-- An update on the rows does to the row of an attempt what the call does to the attempt. -/
theorem Holds.update {L : Ledger} {k j : String} {a : Option Attempt} (h : Holds L k a) {c : Call}
    {f : LLMBudgetEvent → LLMBudgetEvent} (hf : ∀ e, (f e).reservationKey = e.reservationKey)
    (hrow : ∀ x : Attempt, updateReserved j f x.row = (x.next c).row)
    (hnone : attempt k [c] = none) :
    Holds (L.update j f hf) k (a.elim (attempt k [c]) fun x => some (x.next c)) := by
  unfold Holds at h ⊢
  show ofKey _ k (L.rows.map (updateReserved j f)) = _
  rw [ofKey_map (updateReserved_reservationKey hf)]
  unfold attemptRows at h
  rw [h]
  cases a with
  | none => simp [hnone]
  | some x => simp [hrow x]

/-- **The step lemma**: a call moves the row of a key as it moves the attempt of the key. -/
theorem Holds.call {L : Ledger} {attempts : String → Option Attempt}
    (h : ∀ k, Holds L k (attempts k)) {c : Call} (hc : c.Fits) (k : String) :
    Holds (L.call c) k ((attempts k).elim (attempt k [c]) fun a => some (a.next c)) := by
  cases c with
  | settle s =>
    have hcall : L.call (.settle s) = L.update s.reservationKey (·.settled s) fun _ => rfl :=
      if_pos hc
    rw [hcall]
    exact (h k).update (c := .settle s) (f := (·.settled s)) (fun _ => rfl)
      (fun x => updateReserved_settled x s) rfl
  | release r =>
    exact (h k).update (c := .release r) (f := (·.released r)) (fun _ => rfl)
      (fun x => updateReserved_released x r) rfl
  | reserve id now r =>
    have hsame : ∀ a : Attempt, a.next (.reserve id now r) = a := by
      intro a
      simp [Attempt.next, Call.outcome?]
    by_cases hk : r.reservationKey ∈ keys LLMBudgetEvent.reservationKey L.rows
    · -- somebody reserved the attempt first
      have hcall : L.call (.reserve id now r) = L := dif_neg fun hr => hr.2 hk
      rw [hcall]
      cases ha : attempts k with
      | some a =>
        rw [Option.elim_some, hsame, ← ha]
        exact h k
      | none =>
        have hne : r.reservationKey ≠ k := by
          rintro rfl
          exact (h _).mem_keys.mp hk ha
        rw [Option.elim_none, attempt, if_neg hne, attempt, ← ha]
        exact h k
    · have hcall : (L.call (.reserve id now r)).rows = L.rows ++ [r.row id now] := by
        show (L.reserveAttemptCost id now r).rows = _
        unfold Ledger.reserveAttemptCost
        rw [dif_pos ⟨hc, hk⟩]
      have hrows := h k
      unfold Holds attemptRows at hrows ⊢
      rw [hcall, ofKey_append, hrows]
      by_cases hne : r.reservationKey = k
      · subst hne
        have hnone : attempts r.reservationKey = none := by
          by_contra hsome
          exact hk ((h _).mem_keys.mpr hsome)
        rw [hnone]
        simp [attempt, ofKey, Reserve.row, Attempt.row, Attempt.reserved]
      · have hnil : ofKey LLMBudgetEvent.reservationKey k [r.row id now] = [] := by
          simp [ofKey, Reserve.row, hne]
        rw [hnil, List.append_nil]
        cases ha : attempts k with
        | some a => rw [Option.elim_some, hsame]
        | none => rw [Option.elim_none, attempt, if_neg hne, attempt]

variable (history : List LLMBudgetEvent)

theorem holds_run_of_fits (cs : List Call) (hfits : ∀ c ∈ cs, c.Fits) (k : String) :
    Holds ((Ledger.ofHistory history).run cs) k (attempt k cs) := by
  induction cs using List.reverseRecOn generalizing k with
  | nil => simp [Holds, ofKey, Ledger.ofHistory, attempt]
  | append_singleton cs c ih =>
    rw [Ledger.run_append_singleton, attempt_append_singleton]
    have hholds : ∀ k, Holds ((Ledger.ofHistory history).run cs) k (attempt k cs) :=
      ih fun d hd => hfits d (List.mem_append_left _ hd)
    exact Holds.call hholds (hfits c (by simp)) k

/-- **The run lemma**: one row for every attempt, and it is the attempt's. -/
theorem holds_run (cs : List Call) (k : String) :
    Holds ((Ledger.ofHistory history).run cs) k (attempt k (written cs)) := by
  rw [Ledger.run_written]
  refine holds_run_of_fits history _ (fun c hc => ?_) k
  have hfits := (List.mem_filter.mp hc).2
  exact of_decide_eq_true hfits

/-- An update reaches no row without a key. -/
theorem unkeyed_update (L : Ledger) (j : String) (f : LLMBudgetEvent → LLMBudgetEvent)
    (hf : ∀ e, (f e).reservationKey = e.reservationKey) :
    unkeyed LLMBudgetEvent.reservationKey (L.update j f hf).rows =
      unkeyed LLMBudgetEvent.reservationKey L.rows := by
  show unkeyed _ (L.rows.map (updateReserved j f)) = _
  rw [unkeyed_map (updateReserved_reservationKey hf)]
  have hid : ∀ e ∈ unkeyed LLMBudgetEvent.reservationKey L.rows, updateReserved j f e = id e := by
    intro e he
    have hnone : e.reservationKey = none := of_decide_eq_true (List.mem_filter.mp he).2
    simp [updateReserved, hnone]
  rw [List.map_congr_left hid, List.map_id]

theorem unkeyed_call (L : Ledger) (c : Call) :
    unkeyed LLMBudgetEvent.reservationKey (L.call c).rows =
      unkeyed LLMBudgetEvent.reservationKey L.rows := by
  cases c with
  | reserve id now r =>
    show unkeyed _ (L.reserveAttemptCost id now r).rows = _
    unfold Ledger.reserveAttemptCost
    split
    · show unkeyed _ (L.rows ++ [r.row id now]) = _
      rw [unkeyed_append]
      exact List.append_nil _
    · rfl
  | settle s =>
    show unkeyed _ (L.settleAttemptCost s).rows = _
    unfold Ledger.settleAttemptCost
    split
    · exact unkeyed_update L _ (·.settled s) fun _ => rfl
    · rfl
  | release r => exact unkeyed_update L _ (·.released r) fun _ => rfl

/-- The rows without a key stay as they were. -/
theorem unkeyed_run (cs : List Call) :
    unkeyed LLMBudgetEvent.reservationKey ((Ledger.ofHistory history).run cs).rows =
      (Ledger.ofHistory history).rows := by
  induction cs using List.reverseRecOn with
  | nil => simp [unkeyed, Ledger.ofHistory]
  | append_singleton cs c ih => rw [Ledger.run_append_singleton, unkeyed_call, ih]

/-! ## Usage -/

/-- What a row adds to a usage. -/
def share (selects : LLMBudgetEvent → Bool) (amount : LLMBudgetEvent → Int)
    (e : LLMBudgetEvent) : Int :=
  if e.eventType ∈ countedEventTypes ∧ selects e then amount e else 0

theorem usage_eq_sum (selects : LLMBudgetEvent → Bool) (amount : LLMBudgetEvent → Int)
    (rows : List LLMBudgetEvent) :
    usage selects amount rows = (rows.map (share selects amount)).sum := by
  unfold usage
  induction rows with
  | nil => rfl
  | cons e rows ih =>
    rw [List.map_cons, List.sum_cons, ← ih, List.filter_cons]
    unfold share
    by_cases h : e.eventType ∈ countedEventTypes ∧ selects e
    · rw [if_pos (decide_eq_true h), if_pos h, List.map_cons, List.sum_cons]
    · rw [if_neg (fun hd => h (of_decide_eq_true hd)), if_neg h, zero_add]

/-- The keys that were reserved. -/
def reservedKeys (cs : List Call) : Finset String :=
  (cs.filterMap fun c => match c with
    | .reserve _ _ r => some r.reservationKey
    | _ => none).toFinset

theorem mem_reservedKeys {k : String} {cs : List Call} :
    k ∈ reservedKeys cs ↔ attempt k cs ≠ none := by
  unfold reservedKeys
  rw [List.mem_toFinset]
  induction cs with
  | nil => simp [attempt]
  | cons c cs ih =>
    cases c with
    | reserve id now r =>
      rw [attempt, List.filterMap_cons]
      simp only [List.mem_cons]
      by_cases hk : r.reservationKey = k
      · simp [hk]
      · rw [if_neg hk, ih]
        simp [Ne.symm hk]
    | settle s => exact ih
    | release r => exact ih

/-- **A usage counts every reserved attempt once**, next to the rows without a key. -/
theorem usage_run (selects : LLMBudgetEvent → Bool) (amount : LLMBudgetEvent → Int)
    (cs : List Call) :
    usage selects amount ((Ledger.ofHistory history).run cs).rows =
      usage selects amount (Ledger.ofHistory history).rows +
        ∑ k ∈ reservedKeys (written cs),
          ((attempt k (written cs)).map fun a => share selects amount a.row).getD 0 := by
  have hholds := holds_run history cs
  rw [usage_eq_sum, sum_eq_sum_keys LLMBudgetEvent.reservationKey, unkeyed_run, ← usage_eq_sum]
  have hkeys : (keys LLMBudgetEvent.reservationKey
      ((Ledger.ofHistory history).run cs).rows).toFinset = reservedKeys (written cs) := by
    ext k
    rw [List.mem_toFinset, (hholds k).mem_keys, mem_reservedKeys]
  rw [hkeys]
  congr 1
  refine Finset.sum_congr rfl fun k _ => ?_
  have hrows := hholds k
  unfold Holds attemptRows at hrows
  rw [hrows]
  cases attempt k (written cs) <;> simp

/-- A selection that only reads what a reservation fixes. -/
def Stable (selects : LLMBudgetEvent → Bool) : Prop :=
  (∀ e s, selects (LLMBudgetEvent.settled e s) = selects e) ∧
    ∀ e r, selects (LLMBudgetEvent.released e r) = selects e

/-- An attempt counts at its cost where its reservation is selected. -/
theorem share_row {selects : LLMBudgetEvent → Bool} (h : Stable selects) (a : Attempt) :
    share selects LLMBudgetEvent.costUsd a.row =
        (if selects a.reserved then a.costUsd else 0) ∧
      share selects LLMBudgetEvent.totalTokens a.row =
        (if selects a.reserved then a.totalTokens else 0) := by
  obtain ⟨id, t, r, outcome⟩ := a
  cases outcome with
  | none =>
    have hcounted : (r.row id t).eventType ∈ countedEventTypes := by simp [Reserve.row,
      countedEventTypes]
    simp [share, Attempt.row, Attempt.reserved, Attempt.costUsd, Attempt.totalTokens, hcounted]
    exact ⟨rfl, rfl⟩
  | some o =>
    cases o with
    | settled s =>
      have hcounted : ((r.row id t).settled s).eventType ∈ countedEventTypes := by
        simp [LLMBudgetEvent.settled, countedEventTypes]
      simp [share, Attempt.row, Attempt.reserved, Attempt.costUsd, Attempt.totalTokens, hcounted,
        h.1]
      exact ⟨rfl, rfl⟩
    | released p =>
      have hfree : ((r.row id t).released p).eventType ∉ countedEventTypes := by
        simp [LLMBudgetEvent.released, countedEventTypes]
      simp [share, Attempt.row, Attempt.reserved, Attempt.costUsd, Attempt.totalTokens, hfree]
      exact (ite_self (0 : Int)).symm

/-- What the attempt of a key adds to a usage. -/
def charge (k : String) (cs : List Call) (selects : LLMBudgetEvent → Bool)
    (amount : Attempt → Int) : Int :=
  ((attempt k cs).map fun a => if selects a.reserved then amount a else 0).getD 0

/-- The two usages of a selection, attempt by attempt. -/
theorem usage_charges {selects : LLMBudgetEvent → Bool} (h : Stable selects) (cs : List Call) :
    usage selects LLMBudgetEvent.costUsd ((Ledger.ofHistory history).run cs).rows =
        usage selects LLMBudgetEvent.costUsd (Ledger.ofHistory history).rows +
          ∑ k ∈ reservedKeys (written cs), charge k (written cs) selects Attempt.costUsd ∧
      usage selects LLMBudgetEvent.totalTokens ((Ledger.ofHistory history).run cs).rows =
        usage selects LLMBudgetEvent.totalTokens (Ledger.ofHistory history).rows +
          ∑ k ∈ reservedKeys (written cs), charge k (written cs) selects Attempt.totalTokens := by
  rw [usage_run, usage_run]
  unfold charge
  constructor
  · congr 1
    refine Finset.sum_congr rfl fun k _ => ?_
    simp only [(share_row h _).1]
  · congr 1
    refine Finset.sum_congr rfl fun k _ => ?_
    simp only [(share_row h _).2]

theorem stable_inPeriod (p : Periods) (provider : Option String) (t : Int) :
    Stable (inPeriod p provider t) := ⟨fun _ _ => rfl, fun _ _ => rfl⟩

theorem stable_ofTask (taskId : String) : Stable (ofTask taskId) := ⟨fun _ _ => rfl, fun _ _ => rfl⟩

/-- An attempt that ended stays as it is. -/
theorem attempt_append_of_ended {k : String} {cs : List Call} {a : Attempt}
    (h : attempt k cs = some a) (hend : a.outcome ≠ none) (more : List Call) :
    attempt k (cs ++ more) = some a := by
  induction more using List.reverseRecOn with
  | nil => rwa [List.append_nil]
  | append_singleton more c ih =>
    rw [← List.append_assoc, attempt_append_singleton, ih, Option.elim_some]
    obtain ⟨o, ho⟩ := Option.ne_none_iff_exists'.mp hend
    unfold Attempt.next
    rw [ho, Option.some_or, ← ho]

/-- **One attempt is charged once.** For every order of the calls: a key has the row of its
attempt and no other; every usage counts each reserved key once, at what its attempt costs;
and a row that is not reserved any more stays as it is. -/
theorem charged_once (cal : Calendar) (cs : List Call) :
    (∀ k, attemptRows k ((Ledger.ofHistory history).run cs).rows =
      ((attempt k (written cs)).map Attempt.row).toList) ∧
    (∀ provider day, ((Ledger.ofHistory history).run cs).getDailyUsageUsd cal provider day =
      (Ledger.ofHistory history).getDailyUsageUsd cal provider day +
        ∑ k ∈ reservedKeys (written cs),
          charge k (written cs) (inPeriod cal.day provider day) Attempt.costUsd) ∧
    (∀ provider month, ((Ledger.ofHistory history).run cs).getMonthlyUsageUsd cal provider month =
      (Ledger.ofHistory history).getMonthlyUsageUsd cal provider month +
        ∑ k ∈ reservedKeys (written cs),
          charge k (written cs) (inPeriod cal.month provider month) Attempt.costUsd) ∧
    (∀ taskId, (((Ledger.ofHistory history).run cs).getTaskUsage taskId).costUsd =
        ((Ledger.ofHistory history).getTaskUsage taskId).costUsd +
          ∑ k ∈ reservedKeys (written cs), charge k (written cs) (ofTask taskId) Attempt.costUsd ∧
      (((Ledger.ofHistory history).run cs).getTaskUsage taskId).tokens =
        ((Ledger.ofHistory history).getTaskUsage taskId).tokens +
          ∑ k ∈ reservedKeys (written cs),
            charge k (written cs) (ofTask taskId) Attempt.totalTokens) ∧
    ∀ k, ∀ e ∈ attemptRows k ((Ledger.ofHistory history).run cs).rows,
      e.eventType ≠ .reservedUsage → ∀ more,
        attemptRows k ((Ledger.ofHistory history).run (cs ++ more)).rows = [e] := by
  refine ⟨holds_run history cs, ?_, ?_, ?_, ?_⟩
  · exact fun provider day => (usage_charges history (stable_inPeriod _ _ _) cs).1
  · exact fun provider month => (usage_charges history (stable_inPeriod _ _ _) cs).1
  · exact fun taskId => usage_charges history (stable_ofTask taskId) cs
  · intro k e he hend more
    have hrows := holds_run history cs k
    unfold Holds at hrows
    rw [hrows, Option.mem_toList, Option.map_eq_some_iff] at he
    obtain ⟨a, ha, rfl⟩ := he
    have hended : a.outcome ≠ none := by
      intro hnone
      unfold Attempt.row at hend
      rw [hnone] at hend
      exact hend rfl
    have hmore := holds_run history (cs ++ more) k
    unfold Holds at hmore
    have hwritten : written (cs ++ more) = written cs ++ written more := List.filter_append _ _
    rw [hmore, hwritten, attempt_append_of_ended ha hended]
    rfl

end AiAgentsSwd.Budget
