import AiAgentsSwd.Deliberation.Service

/-!
# Deliberation.Ledger — what the rows of a discussion always say

1. `Settled`, `Unopposed`: the turns of a round, once all of them are recorded, and what they
   left open; neither changes any more;
2. `Phase.Knows`: what a call knows of the rows from what it has read, and nobody undoes;
3. `Ledger`: the invariant of the rows, and `statement_keeps`, that every statement keeps both.
-/

namespace AiAgentsSwd.Deliberation

open Keyed (Table)
open Planning (Uuid)
open Reasoning (InvocationStatus)

variable {α : Type} {room room' : Room} {round : Nat}

/-! ## Settled rounds -/

/-- Every participant's turn of the round is recorded. -/
def Settled (room : Room) (round : Nat) : Prop :=
  ∀ seat, seat < room.participants.length →
    ∃ t, room.turns.find? ⟨round, seat⟩ = some t ∧ t.status = .recorded

/-- No participant's turn of the round leaves a concern, and one of them stands. -/
def Unopposed (room : Room) (round : Nat) : Prop :=
  (∀ seat t, seat < room.participants.length → room.turns.find? ⟨round, seat⟩ = some t →
    t.unresolved = 0) ∧
  ∃ seat t, seat < room.participants.length ∧ room.turns.find? ⟨round, seat⟩ = some t ∧
    t.stands = true

theorem Settled.later (hs : Settled room round) (h : Later room room') : Settled room' round := by
  intro seat hseat
  rw [h.seats] at hseat
  obtain ⟨t, ht, hr⟩ := hs seat hseat
  exact ⟨t, h.recorded ht hr, hr⟩

/-- The turns of a settled round are what they will be. -/
theorem Settled.turn (hs : Settled room round) (h : Later room room') {seat : Nat}
    (hseat : seat < room.participants.length) :
    room'.turns.find? ⟨round, seat⟩ = room.turns.find? ⟨round, seat⟩ := by
  obtain ⟨t, ht, hr⟩ := hs seat hseat
  rw [ht]
  exact h.recorded ht hr

theorem Settled.unopposed_iff (hs : Settled room round) (h : Later room room') :
    Unopposed room' round ↔ Unopposed room round := by
  unfold Unopposed
  rw [h.seats]
  constructor
  · rintro ⟨hall, seat, t, hseat, ht, hstands⟩
    constructor
    · intro seat' t' hseat' ht'
      rw [← hs.turn h hseat'] at ht'
      exact hall seat' t' hseat' ht'
    · rw [hs.turn h hseat] at ht
      exact ⟨seat, t, hseat, ht, hstands⟩
  · rintro ⟨hall, seat, t, hseat, ht, hstands⟩
    constructor
    · intro seat' t' hseat' ht'
      rw [hs.turn h hseat'] at ht'
      exact hall seat' t' hseat' ht'
    · rw [← hs.turn h hseat] at ht
      exact ⟨seat, t, hseat, ht, hstands⟩

/-- The verdict on a settled round. -/
theorem verdict_iff (hs : Settled room round) :
    (evaluateConvergence (((room.listTurns round).filter fun e =>
        e.1 < room.participants.length).map Prod.snd)).converged = true ↔ Unopposed room round := by
  have hmem : ∀ t, t ∈ ((room.listTurns round).filter fun e =>
      e.1 < room.participants.length).map Prod.snd ↔
      ∃ seat, seat < room.participants.length ∧ room.turns.find? ⟨round, seat⟩ = some t := by
    intro t
    rw [List.mem_map]
    constructor
    · rintro ⟨⟨seat, u⟩, he, rfl⟩
      obtain ⟨hlist, hseat⟩ := List.mem_filter.mp he
      exact ⟨seat, of_decide_eq_true hseat, mem_listTurns.mp hlist⟩
    · rintro ⟨seat, hseat, ht⟩
      exact ⟨(seat, t), List.mem_filter.mpr ⟨mem_listTurns.mpr ht, decide_eq_true hseat⟩, rfl⟩
  rw [evaluateConvergence_converged]
  constructor
  · rintro ⟨-, hall, t, ht, hstands⟩
    obtain ⟨seat, hseat, hfind⟩ := (hmem t).mp ht
    refine ⟨?_, seat, t, hseat, hfind, hstands⟩
    intro seat' t' hseat' ht'
    exact hall t' ((hmem t').mpr ⟨seat', hseat', ht'⟩)
  · rintro ⟨hall, seat, t, hseat, ht, hstands⟩
    refine ⟨?_, ?_, t, (hmem t).mpr ⟨seat, hseat, ht⟩, hstands⟩
    · intro t' ht'
      obtain ⟨seat', hseat', hfind⟩ := (hmem t').mp ht'
      obtain ⟨u, hu, hr⟩ := hs seat' hseat'
      rw [hfind] at hu
      obtain rfl := Option.some.inj hu
      exact hr
    · intro t' ht'
      obtain ⟨seat', hseat', hfind⟩ := (hmem t').mp ht'
      exact hall seat' t' hseat' hfind

/-! ## What a call knows -/

variable (cfg : Config α)

/-- The slot of a turn lies within the bounds, and a summary closes a round that converged. -/
structure TurnCall.Fits (room : Room) (call : TurnCall) : Prop where
  pos : 1 ≤ call.slot.round
  round : call.slot.round ≤ room.session.currentRound
  participant : call.converging = false → call.slot.seat < room.participants.length ∧
    call.slot.round ≤ cfg.bounds.maxTurnsPerParticipant
  summary : call.converging = true → call.slot.seat = room.participants.length ∧
    Settled room call.slot.round ∧ Unopposed room call.slot.round

/-- A round converged, and its summary is recorded with the message. -/
def Concluded (room : Room) (round : Nat) (result : Option Nat) : Prop :=
  Settled room round ∧ Unopposed room round ∧
    ∃ t, room.turns.find? ⟨round, room.participants.length⟩ = some t ∧ t.status = .recorded ∧
      t.messageId = result

/-- The message with the identifier was posted for the slot. -/
def PostedFor (room : Room) (m : Nat) (slot : Slot) : Prop :=
  ∃ x, room.messages[m]? = some x ∧ x.slot = slot

/-- An intent is unresolved exactly when concerns are counted under it. -/
def Counts (intent : TurnIntent) (count : Nat) : Prop := intent ∈ unresolvedIntents ↔ 0 < count

/-- What a call knows of the rows. -/
def Phase.Knows (room : Room) : Phase α → Prop
  | .reading => True
  | .listingParticipants session =>
    1 ≤ session.currentRound ∧ session.currentRound ≤ room.session.currentRound
  | .listingTurns session participants =>
    1 ≤ session.currentRound ∧ session.currentRound ≤ room.session.currentRound ∧
      participants.length = room.participants.length ∧
      ∀ (seat : Nat) p, participants[seat]? = some p → session.currentRound ≤ p.turnsTaken + 1
  | .checkingAvailable call => call.Fits cfg room
  | .atBoundary roundIndex converged participants =>
    1 ≤ roundIndex ∧ roundIndex ≤ room.session.currentRound ∧
      participants.length = room.participants.length ∧ Settled room roundIndex ∧
      (converged = true ↔ Unopposed room roundIndex)
  | .advancingRound roundIndex =>
    roundIndex < cfg.bounds.maxRounds ∧ Settled room roundIndex ∧ ¬ Unopposed room roundIndex
  | .claiming call => call.Fits cfg room
  | .fetching call => call.Fits cfg room ∧ room.turns.find? call.slot ≠ none
  | .resolving call => call.Fits cfg room ∧ room.turns.find? call.slot ≠ none
  | .waiting _ => True
  | .starting call => call.Fits cfg room ∧ room.turns.find? call.slot ≠ none
  | .invoking call => call.Fits cfg room ∧ room.turns.find? call.slot ≠ none
  | .checkpoint call _ _ => call.Fits cfg room ∧ room.turns.find? call.slot ≠ none
  | .posting call message count =>
    call.Fits cfg room ∧ room.turns.find? call.slot ≠ none ∧ Counts message.intent count
  | .recording call message count messageId =>
    call.Fits cfg room ∧ room.turns.find? call.slot ≠ none ∧ Counts message.intent count ∧
      PostedFor room messageId call.slot
  | .failing _ _ next => next ≠ some .convergenceReached
  | .closing stopReason result =>
    (stopReason = .convergenceReached →
      ∃ round, 1 ≤ round ∧ round ≤ room.session.currentRound ∧ Concluded room round result) ∧
      (stopReason ≠ .convergenceReached → result = none)
  | .reclosing => True

variable {cfg}

theorem TurnCall.Fits.later {call : TurnCall} (hf : call.Fits cfg room) (h : Later room room') :
    call.Fits cfg room' where
  pos := hf.pos
  round := hf.round.trans h.round
  participant hc := by
    rw [h.seats]
    exact hf.participant hc
  summary hc := by
    obtain ⟨hseat, hs, hu⟩ := hf.summary hc
    rw [h.seats]
    exact ⟨hseat, hs.later h, (hs.unopposed_iff h).mpr hu⟩

theorem Concluded.later {result : Option Nat} (hc : Concluded room round result)
    (h : Later room room') : Concluded room' round result := by
  obtain ⟨hs, hu, t, ht, hr, hm⟩ := hc
  refine ⟨hs.later h, (hs.unopposed_iff h).mpr hu, t, ?_, hr, hm⟩
  rw [h.seats]
  exact h.recorded ht hr

theorem PostedFor.later {m : Nat} {slot : Slot} (hp : PostedFor room m slot)
    (h : Later room room') : PostedFor room' m slot := by
  obtain ⟨x, hx, hslot⟩ := hp
  exact ⟨x, h.message m x hx, hslot⟩

/-- **Nobody undoes what a call knows.** -/
theorem Phase.Knows.later {p : Phase α} (hk : p.Knows cfg room) (h : Later room room') :
    p.Knows cfg room' := by
  cases p with
  | reading => trivial
  | listingParticipants session => exact ⟨hk.1, hk.2.trans h.round⟩
  | listingTurns session participants =>
    obtain ⟨hpos, hle, hlen, hturns⟩ := hk
    exact ⟨hpos, hle.trans h.round, hlen.trans h.seats.symm, hturns⟩
  | checkingAvailable call => exact TurnCall.Fits.later hk h
  | atBoundary roundIndex converged participants =>
    obtain ⟨hpos, hle, hlen, hs, hv⟩ := hk
    exact ⟨hpos, hle.trans h.round, hlen.trans h.seats.symm, hs.later h,
      hv.trans (hs.unopposed_iff h).symm⟩
  | advancingRound roundIndex =>
    obtain ⟨hlt, hs, hu⟩ := hk
    refine ⟨hlt, hs.later h, ?_⟩
    rw [hs.unopposed_iff h]
    exact hu
  | claiming call => exact TurnCall.Fits.later hk h
  | fetching call => exact ⟨hk.1.later h, h.taken hk.2⟩
  | resolving call => exact ⟨hk.1.later h, h.taken hk.2⟩
  | waiting call => trivial
  | starting call => exact ⟨hk.1.later h, h.taken hk.2⟩
  | invoking call => exact ⟨hk.1.later h, h.taken hk.2⟩
  | checkpoint call artifact inv => exact ⟨hk.1.later h, h.taken hk.2⟩
  | posting call message count => exact ⟨hk.1.later h, h.taken hk.2.1, hk.2.2⟩
  | recording call message count m =>
    obtain ⟨hf, htaken, hcounts, hposted⟩ := hk
    exact ⟨hf.later h, h.taken htaken, hcounts, hposted.later h⟩
  | failing slot inv next => exact hk
  | closing stopReason result =>
    refine ⟨?_, hk.2⟩
    intro hreason
    obtain ⟨round, hpos, hle, hc⟩ := hk.1 hreason
    exact ⟨round, hpos, hle.trans h.round, hc.later h⟩
  | reclosing => trivial

/-! ## The invariant of the rows -/

/-- The recorded turns of a seat. -/
def seatTurns (room : Room) (seat : Nat) : Nat :=
  room.turns.rows.countP fun e => e.1.seat = seat ∧ e.2.status = .recorded

variable (cfg)

/-- What the rows always say. -/
structure Ledger (room : Room) : Prop where
  round_pos : 1 ≤ room.session.currentRound
  round_le : room.session.currentRound ≤ cfg.bounds.maxRounds
  passed : ∀ r, 1 ≤ r → r < room.session.currentRound → Settled room r ∧ ¬ Unopposed room r
  slots : ∀ slot t, room.turns.find? slot = some t →
    1 ≤ slot.round ∧ slot.round ≤ room.session.currentRound ∧
      slot.seat ≤ room.participants.length ∧
      (slot.seat < room.participants.length → slot.round ≤ cfg.bounds.maxTurnsPerParticipant)
  messages : ∀ slot t, room.turns.find? slot = some t → t.status = .recorded →
    Counts t.intent t.concernCount ∧ ∃ m, t.messageId = some m ∧ PostedFor room m slot
  seats : ∀ (seat : Nat) p, room.participants[seat]? = some p → p.turnsTaken = seatTurns room seat
  counters : room.session.turnsTaken = room.session.messagesPosted ∧
    room.session.messagesPosted = room.session.invocationsStarted
  outcome : room.session.state = .converged →
    Concluded room room.session.currentRound room.session.resultMessageId ∧
      ∃ closed, room.session.closedAt = some closed ∧ closed < cfg.bounds.deadlineAt
  noResult : room.session.state ≠ .converged → room.session.resultMessageId = none

variable {cfg} {slot : Slot}

/-- The turns of a seat when one turn changes. -/
theorem seatTurns_modify {t : DiscussionTurn} (ht : room.turns.find? slot = some t)
    (hs : t.status = .claimed) (f : DiscussionTurn → DiscussionTurn) (seat : Nat) :
    seatTurns { room with turns := room.turns.modify slot f } seat =
      seatTurns room seat + if slot.seat = seat ∧ (f t).status = .recorded then 1 else 0 := by
  unfold seatTurns
  have hcount := Table.countP_rows_modify
    (p := fun e => decide (e.1.seat = seat ∧ e.2.status = .recorded)) ht f
  have hbefore : ¬ (slot.seat = seat ∧ t.status = .recorded) := by
    rw [hs]
    simp
  simp only [hbefore, decide_false, Bool.false_eq_true, if_false, decide_eq_true_eq] at hcount
  omega

theorem seatTurns_insert {t : DiscussionTurn} (hnew : room.turns.find? slot = none)
    (hs : t.status = .claimed) (seat : Nat) :
    seatTurns { room with turns := room.turns.insert slot t } seat = seatTurns room seat := by
  unfold seatTurns
  have hcount := Table.countP_rows_insert
    (p := fun e => decide (e.1.seat = seat ∧ e.2.status = .recorded)) hnew t
  have hclaimed : ¬ (slot.seat = seat ∧ t.status = .recorded) := by
    rw [hs]
    simp
  simp only [hclaimed, decide_false, Bool.false_eq_true, if_false] at hcount
  omega

theorem Ledger.passed_later (h : Ledger cfg room) (hl : Later room room') {r : Nat}
    (hpos : 1 ≤ r) (hlt : r < room.session.currentRound) :
    Settled room' r ∧ ¬ Unopposed room' r := by
  obtain ⟨hs, hu⟩ := h.passed r hpos hlt
  refine ⟨hs.later hl, ?_⟩
  rw [hs.unopposed_iff hl]
  exact hu

/-- A round that converged is not over. -/
theorem Ledger.round_eq (h : Ledger cfg room) (hpos : 1 ≤ round)
    (hle : round ≤ room.session.currentRound) (hu : Unopposed room round) :
    round = room.session.currentRound := by
  by_contra hne
  have hlt : round < room.session.currentRound := by omega
  exact (h.passed round hpos hlt).2 hu

theorem Ledger.claimed (h : Ledger cfg room) {call : TurnCall} (hf : call.Fits cfg room)
    (hnew : room.turns.find? call.slot = none) :
    Ledger cfg { room with turns := room.turns.insert call.slot call.turn } := by
  have hl := later_claimed hnew call.turn
  have hseat : call.slot.seat ≤ room.participants.length ∧
      (call.slot.seat < room.participants.length →
        call.slot.round ≤ cfg.bounds.maxTurnsPerParticipant) := by
    cases hc : call.converging with
    | false =>
      obtain ⟨hlt, hround⟩ := hf.participant hc
      exact ⟨hlt.le, fun _ => hround⟩
    | true =>
      obtain ⟨heq, -⟩ := hf.summary hc
      exact ⟨heq.le, fun hlt => absurd heq hlt.ne⟩
  refine ⟨h.round_pos, h.round_le, fun r hpos hlt => h.passed_later hl hpos hlt, ?_, ?_, ?_,
    h.counters, ?_, h.noResult⟩
  · intro slot t ht
    by_cases heq : slot = call.slot
    · rw [heq]
      exact ⟨hf.pos, hf.round, hseat⟩
    · rw [Table.find?_insert_of_ne room.turns call.turn heq] at ht
      exact h.slots slot t ht
  · intro slot t ht hr
    by_cases heq : slot = call.slot
    · -- the new turn is only claimed
      rw [heq, Table.find?_insert_self] at ht
      obtain rfl := Option.some.inj ht
      cases hr
    · rw [Table.find?_insert_of_ne room.turns call.turn heq] at ht
      exact h.messages slot t ht hr
  · intro seat p hp
    rw [seatTurns_insert hnew rfl]
    exact h.seats seat p hp
  · intro hstate
    obtain ⟨hc, hat⟩ := h.outcome hstate
    exact ⟨hc.later hl, hat⟩

theorem Ledger.abandoned (h : Ledger cfg room) {t : DiscussionTurn}
    (ht : room.turns.find? slot = some t) (hs : t.status = .claimed)
    {f : DiscussionTurn → DiscussionTurn} (hf : (f t).status = .failed) :
    Ledger cfg { room with turns := room.turns.modify slot f } := by
  have hl := later_abandoned ht hs f
  refine ⟨h.round_pos, h.round_le, fun r hpos hlt => h.passed_later hl hpos hlt, ?_, ?_, ?_,
    h.counters, ?_, h.noResult⟩
  · intro slot' t' ht'
    obtain ⟨t₀, ht₀, -⟩ := Table.exists_of_find?_modify ht'
    exact h.slots slot' t₀ ht₀
  · intro slot' t' ht' hr
    obtain ⟨t₀, ht₀, rfl⟩ := Table.exists_of_find?_modify ht'
    by_cases heq : slot' = slot
    · subst heq
      rw [ht] at ht₀
      obtain rfl := Option.some.inj ht₀
      rw [if_pos rfl, hf] at hr
      cases hr
    · rw [if_neg heq] at hr ⊢
      exact h.messages slot' t₀ ht₀ hr
  · intro seat p hp
    have hsame := seatTurns_modify ht hs f seat
    rw [hf] at hsame
    simp only [reduceCtorEq, and_false, if_false, Nat.add_zero] at hsame
    rw [hsame]
    exact h.seats seat p hp
  · intro hstate
    obtain ⟨hc, hat⟩ := h.outcome hstate
    exact ⟨hc.later hl, hat⟩

theorem DiscussionSession.charged_counters {s : DiscussionSession}
    (h : s.turnsTaken = s.messagesPosted ∧ s.messagesPosted = s.invocationsStarted) :
    s.charged.turnsTaken = s.charged.messagesPosted ∧
      s.charged.messagesPosted = s.charged.invocationsStarted := by
  obtain ⟨h₁, h₂⟩ := h
  unfold charged
  split
  · constructor
    · show s.turnsTaken + 1 = s.messagesPosted + 1
      omega
    · show s.messagesPosted + 1 = s.invocationsStarted + 1
      omega
  · exact ⟨h₁, h₂⟩

theorem Ledger.recorded (h : Ledger cfg room) {t : DiscussionTurn}
    (ht : room.turns.find? slot = some t) (hs : t.status = .claimed)
    {f : DiscussionTurn → DiscussionTurn} {m : Nat} (hf : (f t).status = .recorded)
    (hcounts : Counts (f t).intent (f t).concernCount) (hm : (f t).messageId = some m)
    (hposted : PostedFor room m slot) :
    Ledger cfg (room.recorded slot f) := by
  have hl := later_recorded ht hs f
  refine ⟨?_, ?_, ?_, ?_, ?_, ?_, DiscussionSession.charged_counters h.counters, ?_, ?_⟩
  · simpa [Room.recorded] using h.round_pos
  · simpa [Room.recorded] using h.round_le
  · intro r hpos hlt
    have hlt' : r < room.session.currentRound := by simpa [Room.recorded] using hlt
    exact h.passed_later hl hpos hlt'
  · intro slot' t' ht'
    obtain ⟨t₀, ht₀, -⟩ := Table.exists_of_find?_modify ht'
    have hslot := h.slots slot' t₀ ht₀
    rw [← hl.seats] at hslot
    simpa [Room.recorded] using hslot
  · intro slot' t' ht' hr
    obtain ⟨t₀, ht₀, rfl⟩ := Table.exists_of_find?_modify ht'
    by_cases heq : slot' = slot
    · subst heq
      rw [ht] at ht₀
      obtain rfl := Option.some.inj ht₀
      rw [if_pos rfl]
      exact ⟨hcounts, m, hm, hposted⟩
    · rw [if_neg heq] at hr ⊢
      exact h.messages slot' t₀ ht₀ hr
  · intro seat p hp
    have hmore := seatTurns_modify ht hs f seat
    simp only [hf, and_true] at hmore
    show p.turnsTaken = seatTurns { room with turns := room.turns.modify slot f } seat
    rw [hmore]
    have hp' : (room.participants.modify slot.seat DiscussionParticipant.charged)[seat]? =
        some p := hp
    rw [List.getElem?_modify] at hp'
    obtain ⟨p₀, hp₀, heq⟩ := Option.map_eq_some_iff.mp hp'
    have htaken := h.seats seat p₀ hp₀
    by_cases hseat : slot.seat = seat
    · rw [if_pos hseat] at heq ⊢
      rw [← heq, ← htaken]
      rfl
    · rw [if_neg hseat] at heq ⊢
      rw [← heq, htaken]
      rfl
  · intro hstate
    have hstate' : room.session.state = .converged := by simpa [Room.recorded] using hstate
    obtain ⟨hc, hat⟩ := h.outcome hstate'
    have hc := hc.later hl
    simpa [Room.recorded] using ⟨hc, hat⟩
  · intro hstate
    have hstate' : room.session.state ≠ .converged := by simpa [Room.recorded] using hstate
    simpa [Room.recorded] using h.noResult hstate'

theorem Ledger.posted (h : Ledger cfg room) (slot : Slot) (message : TeamMessage) :
    Ledger cfg (room.postMessage slot message) := by
  have hl : Later room (room.postMessage slot message) := later_posted slot message
  refine ⟨h.round_pos, h.round_le, h.passed, h.slots, ?_, h.seats, h.counters, h.outcome,
    h.noResult⟩
  intro slot' t ht hr
  obtain ⟨hcounts, m, hm, hposted⟩ := h.messages slot' t ht hr
  exact ⟨hcounts, m, hm, hposted.later hl⟩

/-- The round moves on only from a settled round that was opposed. -/
theorem Ledger.advanced (h : Ledger cfg room) (hopen : room.session.state = .open)
    (hlt : room.session.currentRound < cfg.bounds.maxRounds)
    (hs : Settled room room.session.currentRound)
    (hu : ¬ Unopposed room room.session.currentRound) :
    Ledger cfg { room with
      session := { room.session with currentRound := room.session.currentRound + 1 } } := by
  refine ⟨?_, ?_, ?_, ?_, h.messages, h.seats, h.counters, ?_, h.noResult⟩
  · show 1 ≤ room.session.currentRound + 1
    omega
  · show room.session.currentRound + 1 ≤ cfg.bounds.maxRounds
    omega
  · intro r hpos hle
    have hle : r < room.session.currentRound + 1 := hle
    by_cases heq : r = room.session.currentRound
    · rw [heq]
      exact ⟨hs, hu⟩
    · exact h.passed r hpos (by omega)
  · intro slot t ht
    obtain ⟨hpos, hle, hseat⟩ := h.slots slot t ht
    refine ⟨hpos, ?_, hseat⟩
    show slot.round ≤ room.session.currentRound + 1
    omega
  · intro hstate
    have hstate : room.session.state = .converged := hstate
    rw [hopen] at hstate
    cases hstate

/-- A closure with its reason; as converged only with the summary of the current round. -/
theorem Ledger.closed (h : Ledger cfg room) {now : Int} {stopReason : StopReason}
    {result : Option Nat}
    (hconverged : stopReason = .convergenceReached → now < cfg.bounds.deadlineAt ∧
      ∃ round, 1 ≤ round ∧ round ≤ room.session.currentRound ∧ Concluded room round result)
    (hnone : stopReason ≠ .convergenceReached → result = none) :
    Ledger cfg { room with session := room.session.closed now stopReason result } := by
  refine ⟨h.round_pos, h.round_le, h.passed, h.slots, h.messages, h.seats, h.counters, ?_, ?_⟩
  · intro hstate
    have hreason : stopReason = .convergenceReached := stateForStopReason_eq_converged.mp hstate
    obtain ⟨hlt, round, hpos, hle, hc⟩ := hconverged hreason
    have heq := h.round_eq hpos hle hc.2.1
    rw [heq] at hc
    exact ⟨hc, now, rfl, hlt⟩
  · intro hstate
    refine hnone ?_
    intro hreason
    exact hstate (stateForStopReason_eq_converged.mpr hreason)

/-! ## What a statement writes -/

variable (cfg)

/-- Everything a statement of a call in the phase can write. -/
inductive Write (now : Int) (room : Room) (p : Phase α) : Room → Prop where
  | nothing : Write now room p room
  | claimed {call : TurnCall} (hp : p = .claiming call)
      (hnew : room.turns.find? call.slot = none) :
      Write now room p { room with turns := room.turns.insert call.slot call.turn }
  | posted {call : TurnCall} {message : TeamMessage} {count : Nat}
      (hp : p = .posting call message count) :
      Write now room p (room.postMessage call.slot message)
  | recorded {call : TurnCall} {message : TeamMessage} {count m : Nat} {t : DiscussionTurn}
      (hp : p = .recording call message count m) (ht : room.turns.find? call.slot = some t)
      (hs : t.status = .claimed) :
      Write now room p (room.recorded call.slot fun t =>
        t.completed message.intent count m message.reasoningInvocationId)
  | abandoned {slot : Slot} {inv : Option Uuid} {next : Option StopReason} {t : DiscussionTurn}
      (hp : p = .failing slot inv next) (ht : room.turns.find? slot = some t)
      (hs : t.status = .claimed) :
      Write now room p { room with turns := room.turns.modify slot fun t => t.abandoned inv }
  | advanced (hp : p = .advancingRound room.session.currentRound)
      (hopen : room.session.state = .open) :
      Write now room p { room with
        session := { room.session with currentRound := room.session.currentRound + 1 } }
  | closed {stopReason : StopReason} {result : Option Nat} (hp : p = .closing stopReason result)
      (hopen : room.session.state = .open)
      (hguard : closeGuard cfg.bounds now stopReason
        (decide (stopReason ∉ unguardedCloseReasons)) = true) :
      Write now room p { room with session := room.session.closed now stopReason result }

variable {cfg} {now : Int} {invocation : Slot → Option InvocationStatus} {p : Phase α}
  {p' : Option (Phase α)}

/-- **A statement writes nothing else.** -/
theorem statement_write (h : statement cfg now invocation room p = some (room', p')) :
    Write cfg now room p room' := by
  cases p with
  | checkingAvailable call => cases h
  | starting call => cases h
  | invoking call => cases h
  | advancingRound r =>
    obtain ⟨rfl, rfl⟩ := Prod.mk.inj (Option.some.inj h)
    cases hadv : room.advanceRound r with
    | none => exact .nothing
    | some x =>
      obtain ⟨rfl, hopen, rfl⟩ := advanceRound_eq_some hadv
      exact .advanced rfl hopen
  | claiming call =>
    rw [statement] at h
    split at h
    · next x hclaim =>
      obtain ⟨rfl, rfl⟩ := Prod.mk.inj (Option.some.inj h)
      obtain ⟨hnew, rfl⟩ := claimTurn_eq_some hclaim
      exact .claimed rfl hnew
    · obtain ⟨rfl, rfl⟩ := Prod.mk.inj (Option.some.inj h)
      exact .nothing
  | posting call message count =>
    obtain ⟨rfl, rfl⟩ := Prod.mk.inj (Option.some.inj h)
    exact .posted rfl
  | recording call message count m =>
    rw [statement] at h
    split at h
    · next x hcomplete =>
      obtain ⟨rfl, rfl⟩ := Prod.mk.inj (Option.some.inj h)
      obtain ⟨t, ht, hs, rfl⟩ := completeTurn_eq_some hcomplete
      exact .recorded rfl ht hs
    · obtain ⟨rfl, rfl⟩ := Prod.mk.inj (Option.some.inj h)
      exact .nothing
  | failing slot inv next =>
    obtain ⟨rfl, rfl⟩ := Prod.mk.inj (Option.some.inj h)
    rcases failTurn_cases room slot inv with hsame | ⟨t, ht, hs, hfail⟩
    · rw [hsame]
      exact .nothing
    · rw [hfail]
      exact .abandoned rfl ht hs
  | closing stopReason result =>
    simp only [statement] at h
    split at h
    · next x hclose =>
      obtain ⟨rfl, rfl⟩ := Prod.mk.inj (Option.some.inj h)
      obtain ⟨hopen, hguard, rfl⟩ := closeSession_eq_some hclose
      exact .closed rfl hopen hguard
    · obtain ⟨rfl, rfl⟩ := Prod.mk.inj (Option.some.inj h)
      exact .nothing
  | reading =>
    obtain ⟨rfl, rfl⟩ := Prod.mk.inj (Option.some.inj h)
    exact .nothing
  | listingParticipants session =>
    obtain ⟨rfl, rfl⟩ := Prod.mk.inj (Option.some.inj h)
    exact .nothing
  | listingTurns session participants =>
    obtain ⟨rfl, rfl⟩ := Prod.mk.inj (Option.some.inj h)
    exact .nothing
  | atBoundary r converged participants =>
    obtain ⟨rfl, rfl⟩ := Prod.mk.inj (Option.some.inj h)
    exact .nothing
  | fetching call =>
    obtain ⟨rfl, rfl⟩ := Prod.mk.inj (Option.some.inj h)
    exact .nothing
  | resolving call =>
    obtain ⟨rfl, rfl⟩ := Prod.mk.inj (Option.some.inj h)
    exact .nothing
  | waiting call =>
    obtain ⟨rfl, rfl⟩ := Prod.mk.inj (Option.some.inj h)
    exact .nothing
  | checkpoint call artifact inv =>
    obtain ⟨rfl, rfl⟩ := Prod.mk.inj (Option.some.inj h)
    exact .nothing
  | reclosing =>
    obtain ⟨rfl, rfl⟩ := Prod.mk.inj (Option.some.inj h)
    exact .nothing

theorem Write.later (h : Write cfg now room p room') : Later room room' := by
  cases h with
  | nothing => exact .refl room
  | claimed hp hnew => exact later_claimed hnew _
  | posted hp => exact later_posted _ _
  | recorded hp ht hs => exact later_recorded ht hs _
  | abandoned hp ht hs => exact later_abandoned ht hs _
  | advanced hp hopen => exact later_session hopen (Nat.le_succ _)
  | closed hp hopen hguard => exact later_session hopen (Nat.le_refl _)

/-- What the writer knows keeps the rows in order. -/
theorem Write.ledger (h : Write cfg now room p room') (hledger : Ledger cfg room)
    (hk : p.Knows cfg room) : Ledger cfg room' := by
  cases h with
  | nothing => exact hledger
  | claimed hp hnew =>
    subst hp
    exact hledger.claimed hk hnew
  | posted hp => exact hledger.posted _ _
  | recorded hp ht hs =>
    subst hp
    obtain ⟨-, -, hcounts, hposted⟩ := hk
    exact hledger.recorded ht hs rfl hcounts rfl hposted
  | abandoned hp ht hs => exact hledger.abandoned ht hs rfl
  | advanced hp hopen =>
    subst hp
    obtain ⟨hlt, hs, hu⟩ := hk
    exact hledger.advanced hopen hlt hs hu
  | @closed stopReason result hp hopen hguard =>
    subst hp
    refine hledger.closed ?_ hk.2
    intro hreason
    refine ⟨?_, hk.1 hreason⟩
    -- the write itself asks for an open deadline
    subst hreason
    have hdeadline : ¬ cfg.bounds.deadlineAt ≤ now := by
      simpa [closeGuard, unguardedCloseReasons, DiscussionBounds.deadlineExpired] using hguard
    omega

/-! ## What a call learns -/

/-- The participants of the rounds that are over have all spoken in them. -/
theorem Ledger.round_le_seatTurns (h : Ledger cfg room) {seat : Nat}
    (hseat : seat < room.participants.length) :
    room.session.currentRound ≤ seatTurns room seat + 1 := by
  have hnodup : ((List.range' 1 (room.session.currentRound - 1)).map fun r =>
      (⟨r, seat⟩ : Slot)).Nodup := by
    refine List.Nodup.map ?_ List.nodup_range'
    intro r r' heq
    exact (Slot.mk.inj heq).1
  have hlen := Table.length_le_countP_rows (t := room.turns)
    (p := fun e => decide (e.1.seat = seat ∧ e.2.status = .recorded)) hnodup ?_
  · rw [List.length_map, List.length_range'] at hlen
    unfold seatTurns
    omega
  · intro slot hslot
    obtain ⟨r, hr, rfl⟩ := List.mem_map.mp hslot
    rw [List.mem_range'_1] at hr
    obtain ⟨hs, -⟩ := h.passed r hr.1 (by omega)
    obtain ⟨t, ht, hrecorded⟩ := hs seat hseat
    exact ⟨t, ht, decide_eq_true ⟨rfl, hrecorded⟩⟩

/-- After the listing of the turns the call knows the round settled, or has found a seat that may
still speak. -/
theorem afterListing_knows {session : DiscussionSession} {participants : List DiscussionParticipant}
    (hk : (Phase.listingTurns session participants : Phase α).Knows cfg room)
    {q : Phase α}
    (h : afterListing cfg session participants (room.listTurns session.currentRound) = some q) :
    q.Knows cfg room := by
  obtain ⟨hpos, hle, hlen, hturns⟩ := hk
  have hrecorded : ∀ seat, seat ∈ ((room.listTurns session.currentRound).filter fun e =>
      e.2.status = .recorded).map Prod.fst ↔
      ∃ t, room.turns.find? ⟨session.currentRound, seat⟩ = some t ∧ t.status = .recorded := by
    intro seat
    rw [List.mem_map]
    constructor
    · rintro ⟨⟨seat', t⟩, he, rfl⟩
      obtain ⟨hmem, hs⟩ := List.mem_filter.mp he
      exact ⟨t, mem_listTurns.mp hmem, of_decide_eq_true hs⟩
    · rintro ⟨t, ht, hs⟩
      exact ⟨(seat, t), List.mem_filter.mpr ⟨mem_listTurns.mpr ht, decide_eq_true hs⟩, rfl⟩
  unfold afterListing at h
  simp only at h
  split at h
  · next hnone =>
    obtain rfl := Option.some.inj h
    have hsettled : Settled room session.currentRound := by
      intro seat hseat
      rw [← hlen] at hseat
      have hseen := List.find?_eq_none.mp hnone seat (List.mem_range.mpr hseat)
      simp only [Bool.not_eq_true', Bool.not_eq_false, List.contains_iff_mem] at hseen
      exact (hrecorded seat).mp hseen
    refine ⟨hpos, hle, hlen, hsettled, ?_⟩
    rw [hlen]
    exact verdict_iff hsettled
  · next seat hfind =>
    have hseat : seat < room.participants.length := by
      rw [← hlen]
      exact List.mem_range.mp (List.mem_of_find?_eq_some hfind)
    split at h
    · next exceeded hexceeded =>
      obtain rfl := Option.some.inj h
      have hreason : exceeded ≠ .convergenceReached := by
        unfold budgetExceeded at hexceeded
        split at hexceeded
        · obtain rfl := Option.some.inj hexceeded
          decide
        · split at hexceeded
          · obtain rfl := Option.some.inj hexceeded
            decide
          · cases hexceeded
      exact ⟨fun heq => absurd heq hreason, fun _ => rfl⟩
    · obtain ⟨participant, hp, h⟩ := Option.bind_eq_some_iff.mp h
      split at h
      · obtain rfl := Option.some.inj h
        exact ⟨fun heq => (by cases heq), fun _ => rfl⟩
      · next hlimit =>
        obtain ⟨plan, -, rfl⟩ := Option.map_eq_some_iff.mp h
        have htaken := hturns seat participant hp
        refine ⟨hpos, hle, fun _ => ⟨hseat, ?_⟩, fun hc => by cases hc⟩
        show session.currentRound ≤ cfg.bounds.maxTurnsPerParticipant
        omega

/-- A closure for another reason than convergence needs to know nothing. -/
theorem knows_closing {reason : StopReason} (h : reason ≠ .convergenceReached) :
    (Phase.closing reason none : Phase α).Knows cfg room :=
  ⟨fun heq => absurd heq h, fun _ => rfl⟩

/-- A summary that is recorded concludes its round. -/
theorem afterRecorded_knows {call : TurnCall} (hf : call.Fits cfg room) {result : Option Nat}
    {t : DiscussionTurn} (ht : room.turns.find? call.slot = some t) (hr : t.status = .recorded)
    (hm : t.messageId = result) {q : Phase α} (h : call.afterRecorded result = some q) :
    q.Knows cfg room := by
  unfold TurnCall.afterRecorded at h
  split at h
  · next hc =>
    obtain rfl := Option.some.inj h
    obtain ⟨hseat, hs, hu⟩ := hf.summary hc
    refine ⟨?_, fun hne => absurd rfl hne⟩
    intro _
    refine ⟨call.slot.round, hf.pos, hf.round, hs, hu, t, ?_, hr, hm⟩
    rw [← hseat]
    exact ht
  · cases h

/-- What a turn turned out to mean counts its concerns. -/
theorem messageFor_counts {call : TurnCall} {artifact : α} {inv : Uuid} {message : TeamMessage}
    {count : Nat} (h : messageFor cfg call artifact inv = some (message, count)) :
    Counts message.intent count := by
  obtain ⟨⟨intent, n⟩, hclassify, h⟩ := Option.bind_eq_some_iff.mp h
  have hcounts := classifyIntent_counts hclassify
  simp only at h
  split at h
  · cases h
  · obtain ⟨rfl, rfl⟩ := Prod.mk.inj (Option.some.inj h)
    exact hcounts

/-- **What a call knows after its statement.** -/
theorem statement_knows (hledger : Ledger cfg room) (hk : p.Knows cfg room)
    (hstep : statement cfg now invocation room p = some (room', p')) {q : Phase α}
    (hq : p' = some q) : q.Knows cfg room' := by
  subst hq
  have hlater := (statement_write hstep).later
  have htimeout : (Phase.closing .timeoutReached none : Phase α).Knows cfg room :=
    knows_closing (by decide)
  cases p with
  | checkingAvailable call => cases hstep
  | starting call => cases hstep
  | invoking call => cases hstep
  | reading =>
    obtain ⟨rfl, h⟩ := Prod.mk.inj (Option.some.inj hstep)
    split at h
    · cases h
    · split at h
      · obtain rfl := Option.some.inj h
        exact htimeout
      · obtain rfl := Option.some.inj h
        exact ⟨hledger.round_pos, Nat.le_refl _⟩
  | listingParticipants session =>
    obtain ⟨rfl, h⟩ := Prod.mk.inj (Option.some.inj hstep)
    split at h
    · obtain rfl := Option.some.inj h
      exact knows_closing (by decide)
    · obtain rfl := Option.some.inj h
      refine ⟨hk.1, hk.2, rfl, ?_⟩
      intro seat participant hp
      have hseat : seat < room.participants.length := (List.getElem?_eq_some_iff.mp hp).1
      have hspoken := hledger.round_le_seatTurns hseat
      have hle := hk.2
      rw [hledger.seats seat participant hp]
      omega
  | listingTurns session participants =>
    obtain ⟨rfl, h⟩ := Prod.mk.inj (Option.some.inj hstep)
    exact afterListing_knows hk h
  | atBoundary r converged participants =>
    obtain ⟨rfl, h⟩ := Prod.mk.inj (Option.some.inj hstep)
    obtain ⟨hpos, hle, hlen, hs, hv⟩ := hk
    split at h
    · cases h
    · split at h
      · obtain rfl := Option.some.inj h
        exact htimeout
      · split at h
        · next hc =>
          obtain ⟨call, hcall, rfl⟩ := Option.map_eq_some_iff.mp h
          obtain ⟨speaker, -, rfl⟩ := Option.map_eq_some_iff.mp hcall
          exact ⟨hpos, hle, fun hno => (by cases hno), fun _ => ⟨hlen, hs, hv.mp hc⟩⟩
        · next hc =>
          split at h
          · obtain rfl := Option.some.inj h
            exact knows_closing (by decide)
          · next hlimit =>
            obtain rfl := Option.some.inj h
            exact ⟨by omega, hs, fun hu => hc (hv.mpr hu)⟩
  | advancingRound r =>
    obtain ⟨-, h⟩ := Prod.mk.inj (Option.some.inj hstep)
    cases h
  | claiming call =>
    rw [statement] at hstep
    split at hstep
    · next x hclaim =>
      obtain ⟨rfl, h⟩ := Prod.mk.inj (Option.some.inj hstep)
      obtain rfl := Option.some.inj h
      obtain ⟨hnew, rfl⟩ := claimTurn_eq_some hclaim
      refine ⟨TurnCall.Fits.later hk hlater, ?_⟩
      rw [Table.find?_insert_self]
      exact Option.some_ne_none _
    · next hclaim =>
      obtain ⟨rfl, h⟩ := Prod.mk.inj (Option.some.inj hstep)
      obtain rfl := Option.some.inj h
      refine ⟨hk, ?_⟩
      intro hnone
      unfold Room.claimTurn at hclaim
      rw [hnone] at hclaim
      cases hclaim
  | fetching call =>
    obtain ⟨rfl, h⟩ := Prod.mk.inj (Option.some.inj hstep)
    split at h
    · cases h
    · next t ht =>
      split at h
      · next hs => exact afterRecorded_knows hk.1 ht hs rfl h
      · cases h
      · obtain rfl := Option.some.inj h
        exact hk
  | resolving call =>
    obtain ⟨rfl, h⟩ := Prod.mk.inj (Option.some.inj hstep)
    split at h
    · obtain rfl := Option.some.inj h
      exact hk
    · obtain rfl := Option.some.inj h
      trivial
    · obtain rfl := Option.some.inj h
      show some StopReason.reasoningProviderFailure ≠ some .convergenceReached
      decide
  | waiting call =>
    obtain ⟨rfl, h⟩ := Prod.mk.inj (Option.some.inj hstep)
    split at h
    · cases h
    · split at h
      · obtain rfl := Option.some.inj h
        exact htimeout
      · cases h
  | checkpoint call artifact inv =>
    obtain ⟨rfl, h⟩ := Prod.mk.inj (Option.some.inj hstep)
    unfold afterCheckpoint at h
    split at h
    · obtain rfl := Option.some.inj h
      show none ≠ some StopReason.convergenceReached
      exact (Option.some_ne_none _).symm
    · split at h
      · obtain rfl := Option.some.inj h
        show some StopReason.timeoutReached ≠ some .convergenceReached
        decide
      · obtain ⟨⟨message, count⟩, hmessage, rfl⟩ := Option.map_eq_some_iff.mp h
        exact ⟨hk.1, hk.2, messageFor_counts hmessage⟩
  | posting call message count =>
    obtain ⟨rfl, h⟩ := Prod.mk.inj (Option.some.inj hstep)
    obtain rfl := Option.some.inj h
    obtain ⟨hf, htaken, hcounts⟩ := hk
    refine ⟨hf.later hlater, hlater.taken htaken, hcounts,
      ⟨message, call.slot, room.session.state⟩, ?_, rfl⟩
    show (room.messages ++ [_])[room.messages.length]? = some _
    rw [List.getElem?_append_right (Nat.le_refl _), Nat.sub_self]
    exact List.getElem?_cons_zero
  | recording call message count m =>
    rw [statement] at hstep
    split at hstep
    · next x hcomplete =>
      obtain ⟨rfl, h⟩ := Prod.mk.inj (Option.some.inj hstep)
      obtain ⟨t, ht, hs, rfl⟩ := completeTurn_eq_some hcomplete
      have hrow : (room.recorded call.slot fun t => t.completed message.intent count m
          message.reasoningInvocationId).turns.find? call.slot =
          some (t.completed message.intent count m message.reasoningInvocationId) := by
        show (room.turns.modify _ _).find? call.slot = _
        rw [Table.find?_modify_row ht, if_pos rfl]
      exact afterRecorded_knows (hk.1.later hlater) hrow rfl rfl h
    · obtain ⟨-, h⟩ := Prod.mk.inj (Option.some.inj hstep)
      cases h
  | failing slot inv next =>
    obtain ⟨rfl, h⟩ := Prod.mk.inj (Option.some.inj hstep)
    obtain ⟨reason, hnext, rfl⟩ := Option.map_eq_some_iff.mp h
    refine knows_closing ?_
    intro hreason
    rw [hreason] at hnext
    exact hk hnext
  | closing stopReason result =>
    simp only [statement] at hstep
    split at hstep
    · obtain ⟨-, h⟩ := Prod.mk.inj (Option.some.inj hstep)
      cases h
    · obtain ⟨rfl, h⟩ := Prod.mk.inj (Option.some.inj hstep)
      split at h
      · obtain rfl := Option.some.inj h
        trivial
      · cases h
  | reclosing =>
    obtain ⟨rfl, h⟩ := Prod.mk.inj (Option.some.inj hstep)
    split at h
    · obtain rfl := Option.some.inj h
      exact htimeout
    · cases h

end AiAgentsSwd.Deliberation
