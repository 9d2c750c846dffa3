import AiAgentsSwd.Deliberation.Voices

/-!
# Deliberation.Bounds — which bounds a discussion keeps

The rounds and the turns of a participant stay within their bounds in every run. The messages and
the reasoning invocations do where every slot is claimed while the ledger still has room for it.
`advance` looks at the counters of a session it read before, so another worker may have claimed
the last turn meanwhile; and it does not look at all before it claims the slot of the summary.
-/

namespace AiAgentsSwd.Deliberation

open Keyed (Table)
open Transition

variable {ι α : Type} {cfg : Config α}

variable (cfg) in
/-- The four limits of a discussion. -/
structure BoundsRespected (w : World ι α) : Prop where
  messages : w.room.messages.length ≤ cfg.bounds.maxMessages
  invocations : {slot | (w.reasoning slot).row ≠ none}.encard ≤ cfg.bounds.maxInvocations
  turns : ∀ seat, seat < w.room.participants.length →
    seatTurns w.room seat ≤ cfg.bounds.maxTurnsPerParticipant
  rounds : ∀ slot t, w.room.turns.find? slot = some t → slot.round ≤ cfg.bounds.maxRounds

variable (cfg) in
/-- A call that claims a new slot finds fewer turns in the ledger than messages and invocations
are allowed. -/
def Phase.claimsWithin (room : Room) : Phase α → Bool
  | .claiming call =>
    (room.turns.find? call.slot).isSome ||
      (room.turns.rows.length < cfg.bounds.maxMessages &&
        room.turns.rows.length < cfg.bounds.maxInvocations)
  | _ => true

variable (cfg) in
/-- The step claims no slot the budgets have no room for. -/
def claimsWithin (w : World ι α) (a : Act ι α) : Bool :=
  (statementOf w a).all fun p => p.claimsWithin cfg w.room

variable [DecidableEq ι] {w w' w₀ : World ι α} {a : Act ι α} {clock : Int}

/-! ## Turns and rounds -/

/-- A seat's recorded turns are in distinct rounds, none beyond the participant's limit. -/
theorem Ledger.seatTurns_le {room : Room} (h : Ledger cfg room) {seat : Nat}
    (hseat : seat < room.participants.length) :
    seatTurns room seat ≤ cfg.bounds.maxTurnsPerParticipant := by
  have hlen := Table.countP_rows_le_length (t := room.turns)
    (p := fun e => decide (e.1.seat = seat ∧ e.2.status = .recorded))
    ((List.range' 1 cfg.bounds.maxTurnsPerParticipant).map fun r => ⟨r, seat⟩) ?_
  · rwa [List.length_map, List.length_range'] at hlen
  · intro slot t ht hp
    obtain ⟨hslot, -⟩ := of_decide_eq_true hp
    obtain ⟨hpos, -, -, hround⟩ := h.slots slot t ht
    have hle := hround (hslot ▸ hseat)
    refine List.mem_map.mpr ⟨slot.round, ?_, ?_⟩
    · rw [List.mem_range'_1]
      omega
    · rw [← hslot]

theorem Ledger.round_le_maxRounds {room : Room} (h : Ledger cfg room) {slot : Slot}
    {t : DiscussionTurn} (ht : room.turns.find? slot = some t) :
    slot.round ≤ cfg.bounds.maxRounds := by
  obtain ⟨-, hle, -⟩ := h.slots slot t ht
  have hmax := h.round_le
  omega

/-! ## Messages and invocations -/

/-- A claim within the budgets keeps the ledger within them. -/
theorem step_rows (h : step cfg w a = some w') (hok : claimsWithin cfg w a = true)
    (hrows : w.room.turns.rows.length ≤ cfg.bounds.maxMessages ∧
      w.room.turns.rows.length ≤ cfg.bounds.maxInvocations) :
    w'.room.turns.rows.length ≤ cfg.bounds.maxMessages ∧
      w'.room.turns.rows.length ≤ cfg.bounds.maxInvocations := by
  rcases step_write h with ⟨-, hroom⟩ | ⟨now, p, hp, hwrite⟩
  · rw [hroom]
    exact hrows
  · have hwithin : p.claimsWithin cfg w.room = true := by
      unfold claimsWithin at hok
      rw [hp, Option.all_some] at hok
      exact hok
    generalize w'.room = room' at hwrite
    cases hwrite with
    | nothing => exact hrows
    | posted hphase => exact hrows
    | advanced hphase hopen => exact hrows
    | closed hphase hopen hguard => exact hrows
    | recorded hphase ht hs =>
      show (w.room.turns.modify _ _).rows.length ≤ _ ∧ (w.room.turns.modify _ _).rows.length ≤ _
      rw [Table.length_rows_modify]
      exact hrows
    | abandoned hphase ht hs =>
      show (w.room.turns.modify _ _).rows.length ≤ _ ∧ (w.room.turns.modify _ _).rows.length ≤ _
      rw [Table.length_rows_modify]
      exact hrows
    | claimed hphase hnew =>
      subst hphase
      simp only [Phase.claimsWithin, hnew, Option.isSome_none, Bool.false_or, Bool.and_eq_true,
        decide_eq_true_eq] at hwithin
      obtain ⟨hmessages, hinvocations⟩ := hwithin
      rw [Table.length_rows_insert hnew]
      constructor
      · omega
      · omega

theorem rows_within (hopened : Opened clock w₀)
    (h : Reaches (guard (fun w a => claimsWithin cfg w a = true) (step cfg)) w₀ w) :
    w.room.turns.rows.length ≤ cfg.bounds.maxMessages ∧
      w.room.turns.rows.length ≤ cfg.bounds.maxInvocations := by
  induction h with
  | refl =>
    cases hopened with
    | session principals => exact ⟨Nat.zero_le _, Nat.zero_le _⟩
    | failedSession stopReason hreason now => exact ⟨Nat.zero_le _, Nat.zero_le _⟩
  | tail h a ha ih =>
    obtain ⟨hok, hstep⟩ := guard_eq_some.mp ha
    exact step_rows hstep hok ih

omit [DecidableEq ι] in
/-- There are no more messages than turns in the ledger. -/
theorem Voices.messages_le (h : Voices w) :
    w.room.messages.length ≤ w.room.turns.rows.length := by
  have hlen := Table.length_le_rows (t := w.room.turns) h.once ?_
  · rwa [List.length_map] at hlen
  · intro slot hslot
    obtain ⟨x, hx, rfl⟩ := List.mem_map.mp hslot
    exact h.taken x hx

/-- **The bounds of a discussion.** In every run in which each new slot is claimed while the
ledger has room for it, all four limits are kept; and those of rounds and of participants' turns
are kept in every run. -/
theorem bounds_respected (hopened : Opened clock w₀) :
    (∀ w, Reaches (guard (fun w a => claimsWithin cfg w a = true) (step cfg)) w₀ w →
      BoundsRespected cfg w) ∧
    ∀ w, Reaches (step cfg) w₀ w →
      (∀ seat, seat < w.room.participants.length →
        seatTurns w.room seat ≤ cfg.bounds.maxTurnsPerParticipant) ∧
      ∀ slot t, w.room.turns.find? slot = some t → slot.round ≤ cfg.bounds.maxRounds := by
  constructor
  · intro w h
    obtain ⟨hsound, hvoices⟩ := reachable_voices hopened h.of_guard
    obtain ⟨hmessages, hinvocations⟩ := rows_within hopened h
    refine ⟨?_, ?_, fun seat hseat => hsound.ledger.seatTurns_le hseat,
      fun slot t ht => hsound.ledger.round_le_maxRounds ht⟩
    · have hle := hvoices.messages_le
      omega
    · calc {slot | (w.reasoning slot).row ≠ none}.encard
          ≤ w.room.turns.rows.length := Table.encard_le_rows hvoices.invocations
        _ ≤ cfg.bounds.maxInvocations := by exact_mod_cast hinvocations
  · intro w h
    have hledger := (reachable_sound hopened h).ledger
    exact ⟨fun seat hseat => hledger.seatTurns_le hseat,
      fun slot t ht => hledger.round_le_maxRounds ht⟩

/-! ## Two runs -/

/-- Both participants speak, and the summary too. -/
def summarized : List (Act Nat Reply) :=
  turn 1 .proposal ++ turn 1 (.critique [] []) ++ claimsSummary 1 ++
    reasons 1 .decisionSummary ++ runs 1 4

theorem bounds_respected_summarized :
    ∃ w, runActs (guard (fun w a => claimsWithin twoRounds w a = true) (step twoRounds))
        openedByTwo summarized = some w ∧
      w.room.messages.length = 3 ∧ BoundsRespected twoRounds w := by
  have hrun : ((runActs (guard (fun w a => claimsWithin twoRounds w a = true) (step twoRounds))
      openedByTwo summarized).any fun w => w.room.messages.length = 3) = true := by
    decide +kernel
  obtain ⟨w, hw, hlength⟩ := (Option.any_eq_true _ _).mp hrun
  exact ⟨w, hw, of_decide_eq_true hlength,
    (bounds_respected openedByTwo_opened).1 w (reaches_of_runActs hw)⟩

/-- At most two messages. -/
def twoMessages : Config Reply :=
  { twoRounds with bounds := ⟨2, 2, 24, 3, 60, one_le_two, one_le_two, one_le_twentyFour, one_le_three⟩ }

/-- One worker alone: the budget is spent, and the summary is posted all the same. -/
theorem not_bounds_respected : ¬ ∀ w, Reaches (step twoMessages) openedByTwo w →
    BoundsRespected twoMessages w := by
  intro hall
  have hrun : ((runActs (step twoMessages) openedByTwo summarized).any fun w =>
      w.room.messages.length = 3) = true := by decide +kernel
  obtain ⟨w, hw, hlength⟩ := (Option.any_eq_true _ _).mp hrun
  have hlength := of_decide_eq_true hlength
  have hle : w.room.messages.length ≤ 2 := (hall w (reaches_of_runActs hw)).messages
  omega

end AiAgentsSwd.Deliberation
