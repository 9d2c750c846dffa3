import AiAgentsSwd.Tasks.OutboxSteps

/-!
# Tasks.Attempts — the relay fails a bounded number of times

`Tally` is what one row of the outbox says about the log: how often its publish has failed and
how often it was returned to `pending`. A step of the row keeps it (`Tally.step`), so it holds in
every state of a run, and `attempts_bounded` reads the bounds off it.
-/

namespace AiAgentsSwd.Tasks

open Keyed (Table)
open Planning (Uuid Time)
open ReadCommitted

variable {cfg : Settings} {Inv : Db → Prop} {c : Call} {r : Reply} {s t : Db} {k : Uuid}

theorem maxPublishAttempts_eq : maxPublishAttempts = 5 := rfl

/-- A failed publish is an attempt. -/
theorem Reply.attempt_of_failure (h : r.failure c = some k) : r.attempt c = some k := by
  unfold attempt
  split
  · cases h
  · exact h

/-- The row goes from `dead` to `pending`. -/
def revives (o o' : Option OutboxEvent) : Bool :=
  o.any (·.status == .dead) && o'.any (·.status == .pending)

/-- What a row says about its failed publishes and its replays. -/
structure Tally (o : Option OutboxEvent) (failures replays : Nat) : Prop where
  absent : o = none → failures = 0
  attempts : ∀ x, o = some x → x.attempts = failures
  dead : ∀ x, o = some x → x.status = .dead → maxPublishAttempts ≤ failures
  bound : failures ≤ maxPublishAttempts + replays
  next : ∀ x, o = some x → x.status = .pending → failures + 1 ≤ maxPublishAttempts + replays
  aside : ∀ x, o = some x → auditRelayClaimable x.eventType = false → x.asInserted = x

theorem OutboxEvent.claimable_iff {o : OutboxEvent} {now : Time} : o.claimable now = true ↔
    o.status = .pending ∧ o.availableAt ≤ now ∧ auditRelayClaimable o.eventType = true := by
  unfold claimable
  simp only [Bool.and_eq_true, beq_iff_eq, decide_eq_true_eq, and_assoc]

/-- No row and no failure. -/
theorem tally_none : Tally none 0 0 where
  absent _ := rfl
  attempts x hx := by cases hx
  dead x hx := by cases hx
  bound := Nat.zero_le _
  next x hx := by cases hx
  aside x hx := by cases hx

/-- One row at a time. -/
theorem tally_some {x : OutboxEvent} {failures replays : Nat} (hattempts : x.attempts = failures)
    (hdead : x.status = .dead → maxPublishAttempts ≤ failures)
    (hbound : failures ≤ maxPublishAttempts + replays)
    (hnext : x.status = .pending → failures + 1 ≤ maxPublishAttempts + replays)
    (haside : auditRelayClaimable x.eventType = false → x.asInserted = x) :
    Tally (some x) failures replays where
  absent := nofun
  attempts := by
    intro y hy
    rw [← Option.some.inj hy]
    exact hattempts
  dead := by
    intro y hy
    rw [← Option.some.inj hy]
    exact hdead
  bound := hbound
  next := by
    intro y hy
    rw [← Option.some.inj hy]
    exact hnext
  aside := by
    intro y hy
    rw [← Option.some.inj hy]
    exact haside

/-- **The step lemma**: the tally follows the row. -/
theorem Tally.step {o o' : Option OutboxEvent} {failures replays : Nat}
    (h : OutboxEvent.Moves s k c r o o') (ht : Tally o failures replays) :
    Tally o' (failures + (r.failure c == some k).toNat) (replays + (revives o o').toNat) := by
  have hfive := maxPublishAttempts_eq
  have hno : r.attempt c ≠ some k → (r.failure c == some k).toNat = 0 := by
    intro hne
    have hfailure : r.failure c ≠ some k := fun heq => hne (Reply.attempt_of_failure heq)
    rw [beq_eq_false_iff_ne.mpr hfailure]
    rfl
  cases h with
  | same _ hne =>
    rw [hno hne, Nat.add_zero]
    have hbound := ht.bound
    refine ⟨ht.absent, ht.attempts, ht.dead, by omega, fun x hx hpending => ?_, ht.aside⟩
    have hnext := ht.next x hx hpending
    omega
  | inserted hne hnew =>
    rw [hno hne, ht.absent rfl]
    refine tally_some ?_ (fun hd => ?_) (by omega) (fun _ => by omega) fun _ => hnew
    · rw [← hnew]
      rfl
    · rw [← hnew] at hd
      cases hd
  | @published _ _ x now now₁ hclaim _ _ =>
    have hclaim' := OutboxEvent.claimable_iff.mp hclaim
    have hbound := ht.bound
    refine tally_some (ht.attempts x rfl) nofun ?_ nofun fun hno => ?_
    · show failures + 0 ≤ _
      omega
    · rw [show (x.publishedRow now₁).eventType = x.eventType from rfl, hclaim'.2.2] at hno
      cases hno
  | @retried skipped reason x now now₁ hclaim _ _ hplan =>
    have hclaim' := OutboxEvent.claimable_iff.mp hclaim
    have hcount := planRetryState_attempts x.attempts (some reason)
    have hattempts := ht.attempts x rfl
    -- a retry is planned below the last attempt only
    have hlast : x.attempts + 1 < maxPublishAttempts := by
      rw [planRetryState_setDeadAt, decide_eq_false_iff_not] at hplan
      omega
    have hone : (Reply.failure (.publishOne skipped (.failed reason)) (.relay (.retry k)) ==
        some k) = true := beq_self_eq_true _
    rw [hone]
    refine tally_some ?_ (fun hd => ?_) ?_ (fun _ => ?_) fun hno => ?_
    · show (planRetryState x.attempts (some reason)).attempts = failures + 1
      omega
    · rw [show (x.retryRow _ _).status = x.status from rfl, hclaim'.1] at hd
      cases hd
    · show failures + 1 ≤ _
      omega
    · show failures + 1 + 1 ≤ _
      omega
    · rw [show (x.retryRow _ _).eventType = x.eventType from rfl, hclaim'.2.2] at hno
      cases hno
  | @died skipped reason x now now₁ hclaim _ _ hplan =>
    have hclaim' := OutboxEvent.claimable_iff.mp hclaim
    have hcount := planRetryState_attempts x.attempts (some reason)
    have hattempts := ht.attempts x rfl
    have hnext := ht.next x rfl hclaim'.1
    have hlast : maxPublishAttempts ≤ x.attempts + 1 := by
      rw [planRetryState_setDeadAt, decide_eq_true_eq] at hplan
      exact hplan
    have hone : (Reply.failure (.publishOne skipped (.failed reason)) (.relay (.dead k)) ==
        some k) = true := beq_self_eq_true _
    rw [hone]
    refine tally_some ?_ (fun _ => ?_) ?_ nofun fun hno => ?_
    · show (planRetryState x.attempts (some reason)).attempts = failures + 1
      omega
    · show _ ≤ failures + 1
      omega
    · show failures + 1 ≤ _
      omega
    · rw [show (x.deadRow _ _).eventType = x.eventType from rfl, hclaim'.2.2] at hno
      cases hno
  | @replayed _ _ x now hne hdead =>
    rw [hno hne, Nat.add_zero]
    have hbound := ht.bound
    have hone : revives (some x) (some (x.replayedRow x.attempts now)) = true := by
      simp [revives, hdead, OutboxEvent.replayedRow]
    rw [hone]
    refine tally_some (ht.attempts x rfl) nofun ?_ (fun _ => ?_) fun haside => ?_
    · show failures ≤ _ + (replays + 1)
      omega
    · show failures + 1 ≤ _ + (replays + 1)
      omega
    · -- a row that the relay leaves aside is never dead
      have hnew := ht.aside x rfl haside
      rw [← hnew] at hdead
      cases hdead

/-! ## Runs -/

/-- No event has been inserted. -/
def NoEvents (s : Db) : Prop := ∀ k, s.outbox.find? k = none

variable {ms ns : List TaskCommit} {m : TaskCommit}

/-- The commit recorded a failed publish of the row. -/
def Fails (k : Uuid) (m : TaskCommit) : Bool := m.reply.failure m.call == some k

/-- The commit recorded what the bus answered to a publish of the row. -/
def Attempts (k : Uuid) (m : TaskCommit) : Bool := m.reply.attempt m.call == some k

/-- The commit returned the dead row to `pending`. -/
def Revives (k : Uuid) (m : TaskCommit) : Bool :=
  revives (m.before.outbox.find? k) (m.after.outbox.find? k)

/-- **The run lemma**: every row tallies with the log. -/
theorem tally_of_run (h : Commits (IsEffect cfg Inv fun c => c) s ms t) (hs : NoEvents s)
    (k : Uuid) : Tally (t.outbox.find? k) (ms.countP (Fails k)) (ms.countP (Revives k)) := by
  refine h.history (J := fun ms t => Tally (t.outbox.find? k) (ms.countP (Fails k))
    (ms.countP (Revives k))) ?_ ?_
  · intro ms m _ hm ih
    have hstep := ih.step (hm.effect.outboxMoves k)
    have hone : ∀ b : Bool, (if b = true then 1 else 0) = b.toNat := by decide
    rw [List.countP_append, List.countP_append, List.countP_singleton, List.countP_singleton,
      hone, hone]
    exact hstep
  · rw [hs k]
    exact tally_none

/-- The row stays for good once it is published, and where it is no business of the relay. -/
theorem OutboxEvent.Moves.fixed {o : OutboxEvent} {x : Option OutboxEvent}
    (h : Moves s k c r (some o) x) (ho : o.status = .published ∨
      auditRelayClaimable o.eventType = false ∧ o.status = .pending) :
    x = some o ∧ r.attempt c ≠ some k := by
  have hno : ∀ {now}, o.claimable now = true → False := by
    intro now hclaim
    have hclaim' := claimable_iff.mp hclaim
    rcases ho with hpub | ⟨haside, -⟩
    · rw [hclaim'.1] at hpub
      cases hpub
    · rw [hclaim'.2.2] at haside
      cases haside
  cases h with
  | same _ hne => exact ⟨rfl, hne⟩
  | published hclaim _ _ => exact (hno hclaim).elim
  | retried hclaim _ _ _ => exact (hno hclaim).elim
  | died hclaim _ _ _ => exact (hno hclaim).elim
  | replayed _ hdead =>
    rcases ho with hpub | ⟨-, hpending⟩
    · rw [hdead] at hpub
      cases hpub
    · rw [hdead] at hpending
      cases hpending

/-- A row comes to be published when the bus has returned the id of a message. -/
theorem OutboxEvent.Moves.publishes {o : Option OutboxEvent} {x : OutboxEvent}
    (h : Moves s k c r o (some x)) (hx : x.status = .published) :
    o = some x ∨ ∃ skipped messageId, c = .publishOne skipped (.ok messageId) ∧
      r = .relay (.published k) := by
  cases h with
  | same _ _ => exact Or.inl rfl
  | inserted _ hnew =>
    rw [← hnew] at hx
    cases hx
  | published _ _ _ => exact Or.inr ⟨_, _, rfl, rfl⟩
  | @retried _ _ x _ _ hclaim _ _ _ =>
    have hpub : x.status = .published := hx
    rw [(claimable_iff.mp hclaim).1] at hpub
    cases hpub
  | died _ _ _ _ => cases hx
  | replayed _ _ => cases hx

theorem OutboxEvent.Moves.attempts_le {o : OutboxEvent} {x : Option OutboxEvent}
    (h : Moves s k c r (some o) x) : ∃ o', x = some o' ∧ o.attempts ≤ o'.attempts := by
  cases h with
  | same _ _ => exact ⟨o, rfl, Nat.le_refl _⟩
  | published _ _ _ => exact ⟨_, rfl, Nat.le_refl _⟩
  | @retried _ reason _ _ _ _ _ _ _ =>
    refine ⟨_, rfl, ?_⟩
    have hcount := planRetryState_attempts o.attempts (some reason)
    show o.attempts ≤ (planRetryState o.attempts (some reason)).attempts
    omega
  | @died _ reason _ _ _ _ _ _ _ =>
    refine ⟨_, rfl, ?_⟩
    have hcount := planRetryState_attempts o.attempts (some reason)
    show o.attempts ≤ (planRetryState o.attempts (some reason)).attempts
    omega
  | replayed _ _ => exact ⟨_, rfl, Nat.le_refl _⟩

/-! ### Backoff -/

/-- The row is not due before `w`. -/
def Waits (w : Time) (o : OutboxEvent) : Prop := o.status = .pending → w ≤ o.availableAt

/-- Without a replay a row that waits goes on waiting. -/
theorem OutboxEvent.Moves.waits {w : Time} {o : OutboxEvent} {x : Option OutboxEvent}
    (h : Moves s k c r (some o) x) (hrevives : revives (some o) x = false) (hw : Waits w o) :
    ∃ o', x = some o' ∧ Waits w o' := by
  cases h with
  | same _ _ => exact ⟨o, rfl, hw⟩
  | published _ _ _ => exact ⟨_, rfl, nofun⟩
  | @retried _ reason _ now now₁ hclaim hnow _ _ =>
    refine ⟨_, rfl, fun _ => ?_⟩
    have hclaim' := claimable_iff.mp hclaim
    have hwait := hw hclaim'.1
    have hdue := hclaim'.2.1
    show w ≤ now₁ + (planRetryState o.attempts (some reason)).backoffSeconds.getD 0 * second
    exact Nat.le_trans (Nat.le_trans (Nat.le_trans hwait hdue) hnow) (Nat.le_add_right _ _)
  | died _ _ _ _ => exact ⟨_, rfl, nofun⟩
  | replayed _ hdead => simp [revives, hdead, OutboxEvent.replayedRow] at hrevives

theorem waits_of_run {w : Time} {o : OutboxEvent} (h : Commits (IsEffect cfg Inv fun c => c) s ms t)
    (hno : ∀ n ∈ ms, Revives k n = false) (ho : s.outbox.find? k = some o) (hw : Waits w o) :
    ∃ o', t.outbox.find? k = some o' ∧ Waits w o' := by
  refine h.history (J := fun ms t => (∀ n ∈ ms, Revives k n = false) →
    ∃ o', t.outbox.find? k = some o' ∧ Waits w o') ?_ (fun _ => ⟨o, ho, hw⟩) hno
  intro ms m _ hm ih hno
  rcases ih fun n hn => hno n (List.mem_append_left _ hn) with ⟨x, hx, hwx⟩
  have hmove := hm.effect.outboxMoves k
  have hrevives := hno m (by simp)
  unfold Revives at hrevives
  rw [hx] at hmove hrevives
  exact hmove.waits hrevives hwx

/-- An attempt claims the row, and says when the row is due again if it is. -/
theorem OutboxEvent.Moves.attempt {o x : Option OutboxEvent} (h : Moves s k c r o x)
    (hr : r.attempt c = some k) : ∃ o₁ x₁ now now₁, o = some o₁ ∧ x = some x₁ ∧
      o₁.claimable now = true ∧ now ≤ now₁ ∧ now₁ ≤ s.now ∧
      (x₁.status = .pending → ∃ backoff, retryBackoffSeconds[o₁.attempts]? = some backoff ∧
        x₁.availableAt = now₁ + backoff * second) := by
  cases h with
  | same _ hne => exact absurd hr hne
  | inserted hne _ => exact absurd hr hne
  | published hclaim hnow hnow₁ => exact ⟨_, _, _, _, rfl, rfl, hclaim, hnow, hnow₁, nofun⟩
  | @retried _ reason o₁ _ now₁ hclaim hnow hnow₁ hplan =>
    refine ⟨_, _, _, _, rfl, rfl, hclaim, hnow, hnow₁, fun _ => ?_⟩
    rw [planRetryState_setDeadAt, decide_eq_false_iff_not] at hplan
    have hshort : o₁.attempts < retryBackoffSeconds.length := by
      have hmax : maxPublishAttempts = retryBackoffSeconds.length + 1 := rfl
      omega
    have hbackoff : (planRetryState o₁.attempts (some reason)).backoffSeconds =
        retryBackoffSeconds[o₁.attempts]? := by
      unfold planRetryState
      rw [if_neg hplan]
    refine ⟨retryBackoffSeconds[o₁.attempts], List.getElem?_eq_getElem hshort, ?_⟩
    show now₁ + (planRetryState o₁.attempts (some reason)).backoffSeconds.getD 0 * second = _
    rw [hbackoff, List.getElem?_eq_getElem hshort, Option.getD_some]
  | died hclaim hnow hnow₁ _ => exact ⟨_, _, _, _, rfl, rfl, hclaim, hnow, hnow₁, nofun⟩
  | replayed hne _ => exact absurd hr hne

/-- A publish fails, and the next one after the backoff succeeds. -/
def retryCalls : List Call := [
  .insertLifecycleOutboxEvent ⟨20⟩ ⟨5⟩ ⟨3⟩ .resumeRequested "e1" [],
  .publishOne (fun _ => false) (.failed "down"),
  .publishOne (fun _ => false) (.ok "1-0"),
  .tick (30 * second),
  .publishOne (fun _ => false) (.ok "1-0")]

def retryRun : TaskSys Unit := Sys.calls (program openGates) emptyDb retryCalls

end AiAgentsSwd.Tasks
