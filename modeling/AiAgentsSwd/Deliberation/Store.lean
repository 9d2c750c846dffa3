import AiAgentsSwd.Deliberation.Models
import AiAgentsSwd.Keyed.Counts
import Mathlib.Data.List.Sort

/-!
# Deliberation.Store — the rows of one discussion and the statements on them

Model of `shared/sdk/agent_deliberation/store.py` over `discussion_sessions`,
`discussion_participants` and `discussion_turns` (`039`), and of `post_message` of
`shared/sdk/agent_team/store.py`. Every function is one transaction.

`Later` says what no statement undoes: a recorded turn, a slot once claimed, a posted message, a
closed session.
-/

namespace AiAgentsSwd.Deliberation

open Keyed (Table)
open Planning (Uuid)
open Reasoning (Verb Payload)

/-! ## Rows -/

/-- `discussion_sessions`: the columns that change. -/
structure DiscussionSession where
  currentRound : Nat := 1
  turnsTaken : Nat := 0
  messagesPosted : Nat := 0
  invocationsStarted : Nat := 0
  state : DiscussionState := .open
  stopReason : Option StopReason := none
  resultMessageId : Option Nat := none
  closedAt : Option Int := none
deriving DecidableEq

/-- `team_messages`: what a discussion posts. -/
structure TeamMessage where
  senderPrincipalId : Uuid
  recipientPrincipalId : Option Uuid
  recipientTeam : Bool
  messageType : MessageType
  summary : String
  content : Payload
  round : Nat
  intent : TurnIntent
  reasoningInvocationId : Uuid

/-- A message as it was committed. The turn it was posted for and the state the discussion was in
are no columns: nothing reads them but the statements about the ledger. -/
structure Posted where
  message : TeamMessage
  slot : Slot
  room : DiscussionState

/-- The rows of one discussion. A message is identified by its position. -/
structure Room where
  session : DiscussionSession
  participants : List DiscussionParticipant
  turns : Table Slot DiscussionTurn
  messages : List Posted

/-! ## Opening -/

/-- `create_session(data, participants)` -/
def createSession (principals : List Uuid) : Room :=
  { session := {}
    participants := principals.map fun p => ⟨p, 0⟩
    turns := Table.empty
    messages := [] }

/-- `create_failed_session(data, stop_reason)` -/
def createFailedSession (stopReason : StopReason) (now : Int) : Room :=
  { session :=
      { state := stateForStopReason stopReason, stopReason := some stopReason
        closedAt := some now }
    participants := []
    turns := Table.empty
    messages := [] }

/-! ## Statements -/

/-- `list_turns(discussion_id, round_index)`: the seats of the round and their turns. -/
def Room.listTurns (room : Room) (round : Nat) : List (Nat × DiscussionTurn) :=
  ((room.turns.rows.filter fun e => e.1.round = round).map fun e => (e.1.seat, e.2)).insertionSort
    fun x y => x.1 ≤ y.1

/-- The `INSERT` of `claim_turn(data)`; `none` is a conflict. -/
def Room.claimTurn (room : Room) (slot : Slot) (turn : DiscussionTurn) : Option Room :=
  match room.turns.find? slot with
  | none => some { room with turns := room.turns.insert slot turn }
  | some _ => none

/-- The turn `complete_turn` writes. -/
def DiscussionTurn.completed (t : DiscussionTurn) (intent : TurnIntent) (concernCount : Nat)
    (messageId : Nat) (reasoningInvocationId : Uuid) : DiscussionTurn :=
  { t with
    status := .recorded
    intent := intent
    concernCount := concernCount
    messageId := some messageId
    reasoningInvocationId := some reasoningInvocationId }

/-- The counters of an open session, with one turn more. -/
def DiscussionSession.charged (s : DiscussionSession) : DiscussionSession :=
  if s.state = .open then
    { s with
      turnsTaken := s.turnsTaken + 1
      messagesPosted := s.messagesPosted + 1
      invocationsStarted := s.invocationsStarted + 1 }
  else s

def DiscussionParticipant.charged (p : DiscussionParticipant) : DiscussionParticipant :=
  { p with turnsTaken := p.turnsTaken + 1 }

/-- The rows once a turn is recorded: of the three updates only that of the session asks
whether the discussion is still open. -/
def Room.recorded (room : Room) (slot : Slot) (f : DiscussionTurn → DiscussionTurn) : Room :=
  { room with
    turns := room.turns.modify slot f
    session := room.session.charged
    participants := room.participants.modify slot.seat DiscussionParticipant.charged }

/-- `complete_turn(turn_id, …)`; `none` when the turn was no longer claimed. -/
def Room.completeTurn (room : Room) (slot : Slot) (intent : TurnIntent) (concernCount : Nat)
    (messageId : Nat) (reasoningInvocationId : Uuid) : Option Room :=
  match room.turns.find? slot with
  | none => none
  | some t =>
    if t.status = .claimed then
      some (room.recorded slot fun t =>
        t.completed intent concernCount messageId reasoningInvocationId)
    else none

/-- The turn `fail_turn` writes. -/
def DiscussionTurn.abandoned (t : DiscussionTurn) (reasoningInvocationId : Option Uuid) :
    DiscussionTurn :=
  { t with
    status := .failed
    reasoningInvocationId := reasoningInvocationId <|> t.reasoningInvocationId }

/-- `fail_turn(turn_id, reasoning_invocation_id)` -/
def Room.failTurn (room : Room) (slot : Slot) (reasoningInvocationId : Option Uuid) : Room :=
  match room.turns.find? slot with
  | none => room
  | some t =>
    if t.status = .claimed then
      { room with turns := room.turns.modify slot fun t => t.abandoned reasoningInvocationId }
    else room

/-- `advance_round(discussion_id, observed_round)` -/
def Room.advanceRound (room : Room) (observedRound : Nat) : Option Room :=
  if room.session.currentRound = observedRound ∧ room.session.state = .open then
    some { room with
      session := { room.session with currentRound := room.session.currentRound + 1 } }
  else none

/-- The guard of `close_session`. -/
def closeGuard (b : DiscussionBounds) (now : Int) (stopReason : StopReason)
    (requireOpenDeadline : Bool) : Bool :=
  if stopReason = .timeoutReached then b.deadlineExpired now
  else if requireOpenDeadline then !b.deadlineExpired now
  else true

/-- The session as `close_session` writes it. -/
def DiscussionSession.closed (s : DiscussionSession) (now : Int) (stopReason : StopReason)
    (resultMessageId : Option Nat) : DiscussionSession :=
  { s with
    state := stateForStopReason stopReason
    stopReason := some stopReason
    resultMessageId := resultMessageId
    closedAt := some now }

/-- `close_session(discussion_id, stop_reason, result_message_id, require_open_deadline)` -/
def Room.closeSession (room : Room) (b : DiscussionBounds) (now : Int) (stopReason : StopReason)
    (resultMessageId : Option Nat) (requireOpenDeadline : Bool) : Option Room :=
  if room.session.state = .open ∧ closeGuard b now stopReason requireOpenDeadline = true then
    some { room with session := room.session.closed now stopReason resultMessageId }
  else none

/-- `post_message(message)`: it does not look at the discussion. -/
def Room.postMessage (room : Room) (slot : Slot) (message : TeamMessage) : Room :=
  { room with messages := room.messages ++ [⟨message, slot, room.session.state⟩] }

/-! ## What no statement undoes -/

theorem DiscussionSession.charged_eq_self {s : DiscussionSession} (h : s.state ≠ .open) :
    s.charged = s := by
  unfold charged
  rw [if_neg h]

@[simp] theorem DiscussionSession.charged_currentRound (s : DiscussionSession) :
    s.charged.currentRound = s.currentRound := by
  unfold charged
  split <;> rfl

@[simp] theorem DiscussionSession.charged_state (s : DiscussionSession) :
    s.charged.state = s.state := by
  unfold charged
  split <;> rfl

@[simp] theorem DiscussionSession.charged_resultMessageId (s : DiscussionSession) :
    s.charged.resultMessageId = s.resultMessageId := by
  unfold charged
  split <;> rfl

@[simp] theorem DiscussionSession.charged_closedAt (s : DiscussionSession) :
    s.charged.closedAt = s.closedAt := by
  unfold charged
  split <;> rfl

/-- The second room may follow the first one. -/
structure Later (room room' : Room) : Prop where
  seats : room'.participants.length = room.participants.length
  round : room.session.currentRound ≤ room'.session.currentRound
  turn : ∀ slot t, room.turns.find? slot = some t →
    ∃ t', room'.turns.find? slot = some t' ∧ (t.status ≠ .claimed → t' = t)
  message : ∀ (m : Nat) x, room.messages[m]? = some x → room'.messages[m]? = some x
  terminal : room.session.state ≠ .open → room'.session = room.session

theorem Later.refl (room : Room) : Later room room :=
  ⟨rfl, Nat.le_refl _, fun _ t h => ⟨t, h, fun _ => rfl⟩, fun _ _ h => h, fun _ => rfl⟩

theorem Later.trans {x y z : Room} (h : Later x y) (h' : Later y z) : Later x z where
  seats := h'.seats.trans h.seats
  round := h.round.trans h'.round
  turn slot t ht := by
    obtain ⟨u, hu, hut⟩ := h.turn slot t ht
    obtain ⟨v, hv, hvu⟩ := h'.turn slot u hu
    refine ⟨v, hv, ?_⟩
    intro hne
    have hsame := hut hne
    subst hsame
    exact hvu hne
  message m x hx := h'.message m x (h.message m x hx)
  terminal hne := by
    have hsame := h.terminal hne
    have hne' : y.session.state ≠ .open := by
      rw [hsame]
      exact hne
    exact (h'.terminal hne').trans hsame

variable {room room' : Room} {slot : Slot}

/-- A turn that is no longer claimed stays as it is. -/
theorem Later.kept (h : Later room room') {t : DiscussionTurn}
    (ht : room.turns.find? slot = some t) (hne : t.status ≠ .claimed) :
    room'.turns.find? slot = some t := by
  obtain ⟨t', ht', hsame⟩ := h.turn slot t ht
  rw [ht', hsame hne]

theorem Later.recorded (h : Later room room') {t : DiscussionTurn}
    (ht : room.turns.find? slot = some t) (hr : t.status = .recorded) :
    room'.turns.find? slot = some t := by
  refine h.kept ht ?_
  rw [hr]
  decide

/-- A slot stays taken. -/
theorem Later.taken (h : Later room room') (ht : room.turns.find? slot ≠ none) :
    room'.turns.find? slot ≠ none := by
  obtain ⟨t, ht⟩ := Option.ne_none_iff_exists'.mp ht
  obtain ⟨t', ht', -⟩ := h.turn slot t ht
  rw [ht']
  exact Option.some_ne_none t'

/-- Changing a claimed turn undoes nothing. -/
theorem modify_turn {t : DiscussionTurn} (ht : room.turns.find? slot = some t)
    (hs : t.status = .claimed) (f : DiscussionTurn → DiscussionTurn) (slot' : Slot)
    (u : DiscussionTurn) (hu : room.turns.find? slot' = some u) :
    ∃ u', (room.turns.modify slot f).find? slot' = some u' ∧ (u.status ≠ .claimed → u' = u) := by
  by_cases heq : slot' = slot
  · subst heq
    rw [ht] at hu
    obtain rfl := Option.some.inj hu
    refine ⟨f t, ?_, fun hne => absurd hs hne⟩
    rw [Table.find?_modify, if_pos rfl, ht, Option.map_some]
  · refine ⟨u, ?_, fun _ => rfl⟩
    rw [Table.find?_modify_of_ne room.turns f heq]
    exact hu

theorem later_recorded {t : DiscussionTurn} (ht : room.turns.find? slot = some t)
    (hs : t.status = .claimed) (f : DiscussionTurn → DiscussionTurn) :
    Later room (room.recorded slot f) where
  seats := List.length_modify _ _ _
  round := by simp [Room.recorded]
  turn := modify_turn ht hs f
  message _ _ h := h
  terminal h := DiscussionSession.charged_eq_self h

theorem later_abandoned {t : DiscussionTurn} (ht : room.turns.find? slot = some t)
    (hs : t.status = .claimed) (f : DiscussionTurn → DiscussionTurn) :
    Later room { room with turns := room.turns.modify slot f } where
  seats := rfl
  round := Nat.le_refl _
  turn := modify_turn ht hs f
  message _ _ h := h
  terminal _ := rfl

theorem later_claimed (h : room.turns.find? slot = none) (turn : DiscussionTurn) :
    Later room { room with turns := room.turns.insert slot turn } where
  seats := rfl
  round := Nat.le_refl _
  turn slot' t ht := by
    have hne : slot' ≠ slot := by
      intro heq
      rw [heq, h] at ht
      cases ht
    refine ⟨t, ?_, fun _ => rfl⟩
    rw [Table.find?_insert_of_ne room.turns turn hne]
    exact ht
  message _ _ h := h
  terminal _ := rfl

theorem later_session {s : DiscussionSession} (hopen : room.session.state = .open)
    (hround : room.session.currentRound ≤ s.currentRound) :
    Later room { room with session := s } where
  seats := rfl
  round := hround
  turn _ t ht := ⟨t, ht, fun _ => rfl⟩
  message _ _ h := h
  terminal h := absurd hopen h

theorem later_posted (slot : Slot) (message : TeamMessage) :
    Later room (room.postMessage slot message) where
  seats := rfl
  round := Nat.le_refl _
  turn _ t ht := ⟨t, ht, fun _ => rfl⟩
  message m x h := by
    have hlt : m < room.messages.length := (List.getElem?_eq_some_iff.mp h).1
    rw [Room.postMessage, List.getElem?_append_left hlt]
    exact h
  terminal _ := rfl

/-! ## What a statement did -/

theorem claimTurn_eq_some {turn : DiscussionTurn} (h : room.claimTurn slot turn = some room') :
    room.turns.find? slot = none ∧ room' = { room with turns := room.turns.insert slot turn } := by
  unfold Room.claimTurn at h
  split at h
  · next hnone => exact ⟨hnone, (Option.some.inj h).symm⟩
  · cases h

theorem completeTurn_eq_some {intent : TurnIntent} {concernCount messageId : Nat}
    {reasoningInvocationId : Uuid}
    (h : room.completeTurn slot intent concernCount messageId reasoningInvocationId = some room') :
    ∃ t, room.turns.find? slot = some t ∧ t.status = .claimed ∧
      room' = room.recorded slot fun t =>
        t.completed intent concernCount messageId reasoningInvocationId := by
  unfold Room.completeTurn at h
  split at h
  · cases h
  · next t ht =>
    split at h
    · next hs => exact ⟨t, ht, hs, (Option.some.inj h).symm⟩
    · cases h

/-- `fail_turn` abandons a claimed turn or does nothing. -/
theorem failTurn_cases (room : Room) (slot : Slot) (inv : Option Uuid) :
    room.failTurn slot inv = room ∨ ∃ t, room.turns.find? slot = some t ∧ t.status = .claimed ∧
      room.failTurn slot inv =
        { room with turns := room.turns.modify slot fun t => t.abandoned inv } := by
  unfold Room.failTurn
  cases ht : room.turns.find? slot with
  | none => exact Or.inl rfl
  | some t =>
    by_cases hs : t.status = .claimed
    · exact Or.inr ⟨t, rfl, hs, if_pos hs⟩
    · exact Or.inl (if_neg hs)

theorem advanceRound_eq_some {observedRound : Nat}
    (h : room.advanceRound observedRound = some room') :
    room.session.currentRound = observedRound ∧ room.session.state = .open ∧
      room' = { room with
        session := { room.session with currentRound := room.session.currentRound + 1 } } := by
  unfold Room.advanceRound at h
  split at h
  · next hguard => exact ⟨hguard.1, hguard.2, (Option.some.inj h).symm⟩
  · cases h

theorem closeSession_eq_some {b : DiscussionBounds} {now : Int} {stopReason : StopReason}
    {resultMessageId : Option Nat} {requireOpenDeadline : Bool}
    (h : room.closeSession b now stopReason resultMessageId requireOpenDeadline = some room') :
    room.session.state = .open ∧ closeGuard b now stopReason requireOpenDeadline = true ∧
      room' = { room with session := room.session.closed now stopReason resultMessageId } := by
  unfold Room.closeSession at h
  split at h
  · next hguard => exact ⟨hguard.1, hguard.2, (Option.some.inj h).symm⟩
  · cases h

theorem mem_listTurns {round seat : Nat} {t : DiscussionTurn} :
    (seat, t) ∈ room.listTurns round ↔ room.turns.find? ⟨round, seat⟩ = some t := by
  unfold Room.listTurns
  rw [List.mem_insertionSort, List.mem_map, ← Table.mem_rows]
  constructor
  · rintro ⟨⟨slot, u⟩, he, heq⟩
    obtain ⟨hmem, hround⟩ := List.mem_filter.mp he
    obtain ⟨rfl, rfl⟩ := Prod.mk.inj heq
    have hround : slot.round = round := of_decide_eq_true hround
    subst hround
    exact hmem
  · intro hmem
    exact ⟨(⟨round, seat⟩, t), List.mem_filter.mpr ⟨hmem, decide_eq_true rfl⟩, rfl⟩

end AiAgentsSwd.Deliberation
