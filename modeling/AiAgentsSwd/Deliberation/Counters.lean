import AiAgentsSwd.Deliberation.Runs

/-!
# Deliberation.Counters — when the counters agree with the ledger

`complete_turn` writes the turn, the counters of the session and the count of the participant in
one transaction, but the update of the session asks for an open discussion and the other two do
not. `recordsLate` is the one step where that matters: a turn is recorded after the discussion
was closed. Without such a step the counters agree with the ledger in every state; after the
first one they never do again.
-/

namespace AiAgentsSwd.Deliberation

open Keyed (Table)
open Transition

variable {ι α : Type} [DecidableEq ι] {cfg : Config α} {room room' : Room}

/-- The recorded turns of the discussion. -/
def recordedTurns (room : Room) : Nat := room.turns.rows.countP fun e => e.2.status = .recorded

/-- The three counters are the number of recorded turns, and the count of every participant is
that of its seat. -/
structure CountersAgree (room : Room) : Prop where
  turnsTaken : room.session.turnsTaken = recordedTurns room
  messagesPosted : room.session.messagesPosted = recordedTurns room
  invocationsStarted : room.session.invocationsStarted = recordedTurns room
  seats : ∀ (seat : Nat) p, room.participants[seat]? = some p → p.turnsTaken = seatTurns room seat

/-- The call is about to record a turn of a discussion that is not open any more. -/
def Phase.recordsLate (room : Room) : Phase α → Bool
  | .recording call _ _ _ =>
    room.session.state ≠ .open ∧ (room.turns.find? call.slot).any fun t => t.status = .claimed
  | _ => false

/-- The step records a turn of a discussion that is not open any more. -/
def recordsLate (w : World ι α) (a : Act ι α) : Bool :=
  (statementOf w a).any fun p => p.recordsLate w.room

/-! ## Recorded turns -/

/-- Recorded turns stay recorded. -/
theorem recordedTurns_later (h : Later room room') : recordedTurns room ≤ recordedTurns room' := by
  unfold recordedTurns
  refine Table.countP_rows_le (p := fun t : DiscussionTurn => decide (t.status = .recorded))
    (q := fun t : DiscussionTurn => decide (t.status = .recorded)) ?_
  intro slot t ht hr
  exact ⟨t, h.recorded ht (of_decide_eq_true hr), hr⟩

theorem recordedTurns_modify {slot : Slot} {t : DiscussionTurn}
    (ht : room.turns.find? slot = some t) (hs : t.status = .claimed)
    (f : DiscussionTurn → DiscussionTurn) :
    recordedTurns { room with turns := room.turns.modify slot f } =
      recordedTurns room + if (f t).status = .recorded then 1 else 0 := by
  unfold recordedTurns
  have hcount := Table.countP_rows_modify
    (p := fun e : Slot × DiscussionTurn => decide (e.2.status = .recorded)) ht f
  have hbefore : ¬ t.status = .recorded := by
    rw [hs]
    decide
  simp only [hbefore, decide_false, Bool.false_eq_true, if_false, decide_eq_true_eq] at hcount
  omega

theorem recordedTurns_insert {slot : Slot} {t : DiscussionTurn}
    (hnew : room.turns.find? slot = none) (hs : t.status = .claimed) :
    recordedTurns { room with turns := room.turns.insert slot t } = recordedTurns room := by
  unfold recordedTurns
  have hcount := Table.countP_rows_insert
    (p := fun e : Slot × DiscussionTurn => decide (e.2.status = .recorded)) hnew t
  have hclaimed : ¬ t.status = .recorded := by
    rw [hs]
    decide
  simp only [hclaimed, decide_false, Bool.false_eq_true, if_false] at hcount
  omega

/-- Recording a turn adds one to the ledger, and one to the session while it is open. -/
theorem recordedTurns_recorded {slot : Slot} {t : DiscussionTurn}
    (ht : room.turns.find? slot = some t) (hs : t.status = .claimed)
    {f : DiscussionTurn → DiscussionTurn} (hf : (f t).status = .recorded) :
    recordedTurns (room.recorded slot f) = recordedTurns room + 1 ∧
      (room.recorded slot f).session.turnsTaken =
        room.session.turnsTaken + if room.session.state = .open then 1 else 0 := by
  constructor
  · have hmore := recordedTurns_modify ht hs f
    rw [if_pos hf] at hmore
    exact hmore
  · show room.session.charged.turnsTaken = _
    unfold DiscussionSession.charged
    split <;> rfl

/-! ## Steps -/

variable {w w' w₀ v : World ι α} {a : Act ι α} {clock : Int}

/-- A step moves the ledger and the session's count by as much, or it records late. -/
theorem step_counts (h : step cfg w a = some w') :
    w'.room.session.turnsTaken + recordedTurns w.room =
        w.room.session.turnsTaken + recordedTurns w'.room ∨ recordsLate w a = true := by
  rcases step_write h with ⟨-, hroom⟩ | ⟨now, p, hp, hwrite⟩
  · rw [hroom]
    exact Or.inl rfl
  · generalize w'.room = room' at hwrite
    cases hwrite with
    | nothing => exact Or.inl rfl
    | claimed hphase hnew =>
      rw [recordedTurns_insert hnew rfl]
      exact Or.inl rfl
    | posted hphase => exact Or.inl rfl
    | abandoned hphase ht hs =>
      rw [recordedTurns_modify ht hs]
      exact Or.inl rfl
    | advanced hphase hopen => exact Or.inl rfl
    | closed hphase hopen hguard => exact Or.inl rfl
    | @recorded call message count m t hphase ht hs =>
      obtain ⟨hturns, hcount⟩ := recordedTurns_recorded ht hs (f := fun t =>
        t.completed message.intent count m message.reasoningInvocationId) rfl
      by_cases hopen : w.room.session.state = .open
      · rw [if_pos hopen] at hcount
        left
        omega
      · -- the session is not charged for this turn
        right
        unfold recordsLate
        rw [hp, hphase, Option.any_some]
        refine decide_eq_true ⟨hopen, ?_⟩
        rw [ht, Option.any_some]
        exact decide_eq_true hs

/-- A late recording moves the ledger alone. -/
theorem step_late (h : step cfg w a = some w') (hlate : recordsLate w a = true) :
    w.room.session.state ≠ .open ∧ w'.room.session = w.room.session ∧
      recordedTurns w'.room = recordedTurns w.room + 1 := by
  obtain ⟨p, hp, hrecords⟩ := (Option.any_eq_true _ _).mp hlate
  cases a with
  | run i now =>
    have hi : w.workers i = some p := hp
    cases p with
    | recording call message count m =>
      obtain ⟨hclosed, hturn⟩ := of_decide_eq_true hrecords
      obtain ⟨t, ht, hs⟩ := (Option.any_eq_true _ _).mp hturn
      have hs : t.status = .claimed := of_decide_eq_true hs
      have hcomplete : w.room.completeTurn call.slot message.intent count m
          message.reasoningInvocationId = some (w.room.recorded call.slot fun t =>
            t.completed message.intent count m message.reasoningInvocationId) := by
        unfold Room.completeTurn
        rw [ht]
        exact if_pos hs
      rw [step, hi] at h
      simp only [statement, hcomplete] at h
      split at h
      · obtain rfl := Option.some.inj h
        refine ⟨hclosed, DiscussionSession.charged_eq_self hclosed, ?_⟩
        exact (recordedTurns_recorded ht hs rfl).1
      · cases h
    | _ => cases hrecords
  | _ => cases hp

/-- No session counts more turns than the ledger has. -/
theorem turnsTaken_le (hopened : Opened clock w₀) (h : Reaches (step cfg) w₀ w) :
    w.room.session.turnsTaken ≤ recordedTurns w.room := by
  induction h with
  | refl =>
    cases hopened with
    | session principals => exact Nat.zero_le _
    | failedSession stopReason hreason now => exact Nat.zero_le _
  | tail h a ha ih =>
    rcases step_counts ha with hcounts | hlate
    · omega
    · obtain ⟨-, hsession, hturns⟩ := step_late ha hlate
      rw [hsession, hturns]
      omega

/-- A run without a late recording counts every recorded turn. -/
theorem turnsTaken_eq (hopened : Opened clock w₀)
    (h : Reaches (guard (fun w a => recordsLate w a = false) (step cfg)) w₀ w) :
    w.room.session.turnsTaken = recordedTurns w.room := by
  induction h with
  | refl =>
    cases hopened with
    | session principals => rfl
    | failedSession stopReason hreason now => rfl
  | tail h a ha ih =>
    obtain ⟨hok, hstep⟩ := guard_eq_some.mp ha
    rcases step_counts hstep with hcounts | hlate
    · omega
    · rw [hok] at hlate
      cases hlate

/-- **The ledger and its counters.** In every run in which no turn is recorded after the
discussion was closed, the counters agree with the ledger in every state; and after the first
such recording they never agree again. -/
theorem counters_agree (hopened : Opened clock w₀) :
    (∀ w, Reaches (guard (fun w a => recordsLate w a = false) (step cfg)) w₀ w →
      CountersAgree w.room) ∧
    ∀ w a w', Reaches (step cfg) w₀ w → step cfg w a = some w' → recordsLate w a = true →
      ∀ v, Reaches (step cfg) w' v → ¬ CountersAgree v.room := by
  constructor
  · intro w h
    have hledger := (reachable_sound hopened h.of_guard).ledger
    have hturns := turnsTaken_eq hopened h
    obtain ⟨hmessages, hinvocations⟩ := hledger.counters
    exact ⟨hturns, by omega, by omega, hledger.seats⟩
  · intro w a w' h hstep hlate v hv hagree
    have hle := turnsTaken_le hopened h
    obtain ⟨hclosed, hsession, hturns⟩ := step_late hstep hlate
    have hlater := run_later hv
    have hclosed' : w'.room.session.state ≠ .open := by
      rw [hsession]
      exact hclosed
    -- the closed session keeps its count while the ledger only grows
    have hfrozen := hlater.terminal hclosed'
    have hgrows := recordedTurns_later hlater
    have heq := hagree.turnsTaken
    rw [hfrozen, hsession] at heq
    omega

/-! ## Two runs -/

theorem counters_agree_agreeing :
    ∃ w, runActs (guard (fun w a => recordsLate w a = false) (step twoRounds)) openedByTwo
        (turn 1 .proposal ++ turn 2 (.critique ["c"] []) ++ [.cancel 3, .run 3 0]) = some w ∧
      w.room.session.turnsTaken = 2 ∧ w.room.session.state = .cancelled ∧
      CountersAgree w.room := by
  have hrun : ((runActs (guard (fun w a => recordsLate w a = false) (step twoRounds)) openedByTwo
      (turn 1 .proposal ++ turn 2 (.critique ["c"] []) ++ [.cancel 3, .run 3 0])).any fun w =>
        w.room.session.turnsTaken = 2 ∧ w.room.session.state = .cancelled) = true := by
    decide +kernel
  obtain ⟨w, hw, hstate⟩ := (Option.any_eq_true _ _).mp hrun
  obtain ⟨hturns, hcancelled⟩ := of_decide_eq_true hstate
  exact ⟨w, hw, hturns, hcancelled,
    (counters_agree openedByTwo_opened).1 w (reaches_of_runActs hw)⟩

/-- The discussion is cancelled after the second turn's message was posted, and then the turn is
recorded. -/
def cancelledMeanwhile : List (Act Nat Reply) :=
  turn 1 .proposal ++ claims 2 ++ reasons 2 (.critique [] []) ++ runs 2 2 ++
    [.cancel 3, .run 3 0] ++ runs 2 1

theorem not_counters_agree : ¬ ∀ w, Reaches (step twoRounds) openedByTwo w →
    CountersAgree w.room := by
  intro hall
  have hrun : ((runActs (step twoRounds) openedByTwo cancelledMeanwhile).any fun w =>
      w.room.session.turnsTaken = 1 ∧ recordedTurns w.room = 2) = true := by decide +kernel
  obtain ⟨w, hw, hstate⟩ := (Option.any_eq_true _ _).mp hrun
  obtain ⟨hturns, hrecorded⟩ := of_decide_eq_true hstate
  have hagree := (hall w (reaches_of_runActs hw)).turnsTaken
  omega

end AiAgentsSwd.Deliberation
