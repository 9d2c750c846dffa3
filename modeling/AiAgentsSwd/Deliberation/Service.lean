import AiAgentsSwd.Deliberation.Store
import AiAgentsSwd.Reasoning.Canonical

/-!
# Deliberation.Service — `advance` and `cancel` and their interleavings

Model of `DiscussionService` in `shared/sdk/agent_deliberation/service.py` for the calls on one
discussion. A call is a worker in a `Phase`: between two statements, and around the reasoning
call, every other worker may act and the worker may die. `run` is `advance` again and again;
what `advance` returns decides nothing but that, so a worker may always start it again.

`reasoning.invoke` is the system of `Reasoning.Service`, one for each slot: a slot's
`correlation_id` is derived from it. Whether a participant is still an active member is up to
the environment. The reading of the context for a reasoning call, the audit trail and the
session as it is returned are left out.
-/

namespace AiAgentsSwd.Deliberation

open Planning (Uuid)
open Reasoning (Verb Payload ReasoningResult InvocationStatus)

variable {ι α : Type}

/-! ## A call, step by step -/

/-- The arguments of `_take_turn`; `converging` when `_converge` calls it. -/
structure TurnCall where
  slot : Slot
  speaker : Uuid
  addressee : Option Uuid
  addressedTeam : Bool
  reasoningVerb : Verb
  converging : Bool

/-- Where a call stands. -/
inductive Phase (α : Type) where
  /-- `get_session`, first of all. -/
  | reading
  /-- `list_participants`. -/
  | listingParticipants (session : DiscussionSession)
  /-- `list_turns`. -/
  | listingTurns (session : DiscussionSession) (participants : List DiscussionParticipant)
  /-- `_participant_available`. -/
  | checkingAvailable (call : TurnCall)
  /-- `_close_round`: its `get_session`, after the verdict. -/
  | atBoundary (roundIndex : Nat) (converged : Bool) (participants : List DiscussionParticipant)
  /-- `advance_round`. -/
  | advancingRound (roundIndex : Nat)
  /-- The `INSERT` of `claim_turn`. -/
  | claiming (call : TurnCall)
  /-- Its `SELECT`, after the conflict. -/
  | fetching (call : TurnCall)
  /-- `_resolve_unowned_turn`: `invocation_status`. -/
  | resolving (call : TurnCall)
  /-- `_resolve_unowned_turn`: `get_session`. -/
  | waiting (call : TurnCall)
  /-- `_reason_and_record`, before `invoke`. -/
  | starting (call : TurnCall)
  /-- `_reason_and_record`, awaiting `invoke`. -/
  | invoking (call : TurnCall)
  /-- `_reason_and_record`: `get_session`, once the artifact is there. -/
  | checkpoint (call : TurnCall) (artifact : α) (reasoningInvocationId : Uuid)
  /-- `post_message`. -/
  | posting (call : TurnCall) (message : TeamMessage) (concernCount : Nat)
  /-- `complete_turn`. -/
  | recording (call : TurnCall) (message : TeamMessage) (concernCount : Nat) (messageId : Nat)
  /-- `fail_turn`, and then `_close` where a reason follows. -/
  | failing (slot : Slot) (reasoningInvocationId : Option Uuid) (next : Option StopReason)
  /-- `close_session`. -/
  | closing (stopReason : StopReason) (resultMessageId : Option Nat)
  /-- `_close`: `get_session`, when the guarded `UPDATE` matched no row. -/
  | reclosing

/-- What the service is given. -/
structure Config (α : Type) where
  bounds : DiscussionBounds
  store : Reasoning.StoreConfig
  artifacts : DiscussionArtifacts α
  providerName : String

variable (cfg : Config α)

/-- `_UNGUARDED_CLOSE_REASONS` -/
def unguardedCloseReasons : List StopReason := [.cancelled, .timeoutReached]

/-- `_budget_exceeded(session)` -/
def budgetExceeded (session : DiscussionSession) : Option StopReason :=
  if cfg.bounds.maxMessages ≤ session.messagesPosted then some .messageLimitReached
  else if cfg.bounds.maxInvocations ≤ session.invocationsStarted then some .invocationLimitReached
  else none

/-- `advance` from `list_turns` on: the boundary of the round, or the turn of the first seat
that has none. -/
def afterListing (session : DiscussionSession) (participants : List DiscussionParticipant)
    (roundTurns : List (Nat × DiscussionTurn)) : Option (Phase α) :=
  let count := participants.length
  let recordedSeats := (roundTurns.filter fun e => e.2.status = .recorded).map Prod.fst
  match (List.range count).find? fun seat => !recordedSeats.contains seat with
  | none =>
    let participantTurns := (roundTurns.filter fun e => e.1 < count).map Prod.snd
    some (.atBoundary session.currentRound (evaluateConvergence participantTurns).converged
      participants)
  | some seat =>
    match budgetExceeded cfg session with
    | some exceeded => some (.closing exceeded none)
    | none =>
      participants[seat]?.bind fun participant =>
        if cfg.bounds.maxTurnsPerParticipant ≤ participant.turnsTaken then
          some (.closing .participantTurnLimitReached none)
        else
          (planTurn ⟨session.currentRound, seat⟩ count).map fun plan =>
            .checkingAvailable
              { slot := ⟨session.currentRound, seat⟩
                speaker := participant.principalId
                addressee := plan.addressesSeat.bind fun s =>
                  participants[s]?.map DiscussionParticipant.principalId
                addressedTeam := plan.addressesTeam
                reasoningVerb := plan.reasoningVerb
                converging := false }

/-- The turn `_converge` takes: the summary, spoken by seat 0. -/
def summaryCall (roundIndex : Nat) (participants : List DiscussionParticipant) :
    Option TurnCall :=
  participants[0]?.map fun speaker =>
    { slot := ⟨roundIndex, summarySeat participants.length⟩
      speaker := speaker.principalId
      addressee := none
      addressedTeam := true
      reasoningVerb := .summarizeDecision
      converging := true }

/-- `_PROVISIONAL_INTENT` -/
def provisionalIntent : Verb → TurnIntent
  | .propose => .proposal
  | .summarizeDecision => .convergenceSummary
  | _ => .challenge

/-- The row `claim_turn` inserts. -/
def TurnCall.turn (call : TurnCall) : DiscussionTurn :=
  { speakerPrincipalId := call.speaker
    addressedPrincipalId := call.addressee
    addressedTeam := call.addressedTeam
    intent := provisionalIntent call.reasoningVerb
    reasoningVerb := call.reasoningVerb
    reasoningInvocationId := none
    messageId := none
    status := .claimed
    concernCount := 0 }

/-- `_converge` once its turn is recorded; any other turn just ends the call. -/
def TurnCall.afterRecorded (call : TurnCall) (messageId : Option Nat) : Option (Phase α) :=
  if call.converging then some (.closing .convergenceReached messageId) else none

/-- `_reason_and_record` once `invoke` has returned. -/
def afterInvoke (call : TurnCall) (result : ReasoningResult α) : Option (Phase α) :=
  if result.disposition ≠ .fresh then none
  else
    match result.artifact with
    | none =>
      some (.failing call.slot (some result.invocation.invocationId)
        (some .reasoningProviderFailure))
    | some artifact => some (.checkpoint call artifact result.invocation.invocationId)

/-- The message of a turn; `none` is an exception. -/
def messageFor (call : TurnCall) (artifact : α) (reasoningInvocationId : Uuid) :
    Option (TeamMessage × Nat) :=
  (classifyIntent cfg.artifacts call.reasoningVerb artifact call.slot).bind fun (intent, count) =>
    match cfg.artifacts.asSafeDict artifact with
    | .error _ => none
    | .ok content =>
      some
        ({ senderPrincipalId := call.speaker
           recipientPrincipalId := call.addressee
           recipientTeam := call.addressee.isNone
           messageType := messageTypeForIntent intent
           summary := String.ofList ((cfg.artifacts.summary artifact).toList.take 2000)
           content := content
           round := call.slot.round
           intent := intent
           reasoningInvocationId := reasoningInvocationId }, count)

/-- `_reason_and_record` once the session is read again: the turn is abandoned when the room
has closed or the deadline has passed. -/
def afterCheckpoint (now : Int) (session : DiscussionSession) (call : TurnCall) (artifact : α)
    (reasoningInvocationId : Uuid) : Option (Phase α) :=
  if session.state ≠ .open then some (.failing call.slot (some reasoningInvocationId) none)
  else if cfg.bounds.deadlineExpired now then
    some (.failing call.slot (some reasoningInvocationId) (some .timeoutReached))
  else
    (messageFor cfg call artifact reasoningInvocationId).map fun (message, count) =>
      .posting call message count

/-- The next statement of a call, begun at `now`: the rows after it, and where the call stands
then. `invocation` is the status of the slot's reasoning call. -/
def statement (now : Int) (invocation : Slot → Option InvocationStatus) (room : Room) :
    Phase α → Option (Room × Option (Phase α))
  | .reading =>
    some (room,
      if room.session.state ≠ .open then none
      else if cfg.bounds.deadlineExpired now then some (.closing .timeoutReached none)
      else some (.listingParticipants room.session))
  | .listingParticipants session =>
    some (room,
      if room.participants.length < minParticipants then
        some (.closing .insufficientParticipants none)
      else some (.listingTurns session room.participants))
  | .listingTurns session participants =>
    some (room, afterListing cfg session participants (room.listTurns session.currentRound))
  | .atBoundary roundIndex converged participants =>
    some (room,
      if room.session.state ≠ .open then none
      else if cfg.bounds.deadlineExpired now then some (.closing .timeoutReached none)
      else if converged then (summaryCall roundIndex participants).map .claiming
      else if cfg.bounds.maxRounds ≤ roundIndex then some (.closing .roundLimitReached none)
      else some (.advancingRound roundIndex))
  | .advancingRound roundIndex => some ((room.advanceRound roundIndex).getD room, none)
  | .claiming call =>
    match room.claimTurn call.slot call.turn with
    | some room' => some (room', some (.starting call))
    | none => some (room, some (.fetching call))
  | .fetching call =>
    some (room,
      match room.turns.find? call.slot with
      | none => none
      | some turn =>
        match turn.status with
        | .recorded => call.afterRecorded turn.messageId
        | .failed => none
        | .claimed => some (.resolving call))
  | .resolving call =>
    some (room,
      match invocation call.slot with
      | none => some (.starting call)
      | some .started => some (.waiting call)
      | some _ => some (.failing call.slot none (some .reasoningProviderFailure)))
  | .waiting _ =>
    some (room,
      if room.session.state ≠ .open then none
      else if cfg.bounds.deadlineExpired now then some (.closing .timeoutReached none)
      else none)
  | .checkpoint call artifact reasoningInvocationId =>
    some (room, afterCheckpoint cfg now room.session call artifact reasoningInvocationId)
  | .posting call message count =>
    some (room.postMessage call.slot message,
      some (.recording call message count room.messages.length))
  | .recording call message count messageId =>
    match room.completeTurn call.slot message.intent count messageId
        message.reasoningInvocationId with
    | some room' => some (room', call.afterRecorded (some messageId))
    | none => some (room, none)
  | .failing slot reasoningInvocationId next =>
    some (room.failTurn slot reasoningInvocationId, next.map fun reason => .closing reason none)
  | .closing stopReason resultMessageId =>
    let guarded := stopReason ∉ unguardedCloseReasons
    match room.closeSession cfg.bounds now stopReason resultMessageId guarded with
    | some room' => some (room', none)
    | none => some (room, if guarded then some .reclosing else none)
  | .reclosing =>
    some (room,
      if room.session.state = .open ∧ cfg.bounds.deadlineExpired now = true then
        some (.closing .timeoutReached none)
      else none)
  | .checkingAvailable _ => none
  | .starting _ => none
  | .invoking _ => none

/-! ## Workers -/

/-- The rows of the discussion, the reasoning call of every slot, and the workers. -/
structure World (ι α : Type) where
  /-- The database clock. -/
  clock : Int
  room : Room
  reasoning : Slot → Reasoning.World ι α
  workers : ι → Option (Phase α)

/-- What may happen next. -/
inductive Act (ι α : Type) where
  /-- The clock moves forward. -/
  | tick (t : Int)
  /-- A call of `advance` starts. -/
  | advance (worker : ι)
  /-- A call of `cancel` starts. -/
  | cancel (worker : ι)
  /-- The worker dies, or an exception leaves its call. -/
  | crash (worker : ι)
  /-- The worker's next statement, begun at `now`. -/
  | run (worker : ι) (now : Int)
  /-- The team's roster answers. -/
  | roster (worker : ι) (available : Bool)
  /-- The worker calls `invoke`. -/
  | invoke (worker : ι)
  /-- The worker's call of `invoke` goes on. -/
  | reason (worker : ι) (act : Reasoning.Act ι α)

/-- The worker whose call of `invoke` goes on by the action. -/
def continues : Reasoning.Act ι α → Option ι
  | .run i _ _ _ => some i
  | .preflight i _ => some i
  | .call i _ => some i
  | .answer i _ => some i
  | _ => none

/-- What `invoke` returned in the last step, if it did. -/
def returned (before after : Reasoning.World ι α) : Option (ReasoningResult α) :=
  match (after.history.drop before.history.length).getLast? with
  | some (.returned _ result) => some result
  | _ => none

section Machine

variable [DecidableEq ι]

namespace World

/-- The worker goes on, or is done. -/
def goto (w : World ι α) (i : ι) (phase : Option (Phase α)) : World ι α :=
  { w with workers := fun j => if j = i then phase else w.workers j }

def setReasoning (w : World ι α) (slot : Slot) (r : Reasoning.World ι α) : World ι α :=
  { w with reasoning := fun s => if s = slot then r else w.reasoning s }

end World

/-- The status `invocation_status` reads. -/
def World.invocation (w : World ι α) (slot : Slot) : Option InvocationStatus :=
  (w.reasoning slot).row.map Reasoning.Invocation.status

/-- The worker goes on when its call of `invoke` is over. -/
def World.afterReason (w : World ι α) (i : ι) (call : TurnCall) (before : Reasoning.World ι α) :
    World ι α :=
  let after := w.reasoning call.slot
  match after.callers i with
  | some _ => w
  | none => w.goto i ((returned before after).bind (afterInvoke call))

/-- One step. -/
def step (w : World ι α) : Act ι α → Option (World ι α)
  | .tick t =>
    if w.clock ≤ t then
      some { w with clock := t, reasoning := fun s => { w.reasoning s with clock := t } }
    else none
  | .advance i =>
    match w.workers i with
    | none => some (w.goto i (some .reading))
    | some _ => none
  | .cancel i =>
    match w.workers i with
    | none => some (w.goto i (some (.closing .cancelled none)))
    | some _ => none
  | .crash i =>
    match w.workers i with
    | some (.invoking call) =>
      some ((w.setReasoning call.slot ((w.reasoning call.slot).setCaller i none)).goto i none)
    | _ => some (w.goto i none)
  | .run i now =>
    match w.workers i with
    | some phase =>
      if now ≤ w.clock then
        (statement cfg now w.invocation w.room phase).map fun (room, phase') =>
          { w with room := room }.goto i phase'
      else none
    | none => none
  | .roster i available =>
    match w.workers i with
    | some (.checkingAvailable call) =>
      some (w.goto i (some (if available then .claiming call
        else .closing .participantUnavailable none)))
    | _ => none
  | .invoke i =>
    match w.workers i with
    | some (.starting call) =>
      (Reasoning.step cfg.artifacts.toArtifactModels cfg.store (w.reasoning call.slot)
          (.start i ⟨call.reasoningVerb, cfg.providerName⟩)).map fun r =>
        (w.setReasoning call.slot r).goto i (some (.invoking call))
    | _ => none
  | .reason i act =>
    match w.workers i with
    | some (.invoking call) =>
      if continues act = some i then
        (Reasoning.step cfg.artifacts.toArtifactModels cfg.store (w.reasoning call.slot) act).map
          fun r => (w.setReasoning call.slot r).afterReason i call (w.reasoning call.slot)
      else none
    | _ => none

/-- A discussion that has just been opened, or that could not be: no call on it yet. -/
inductive Opened (clock : Int) : World ι α → Prop where
  | session (principals : List Uuid) :
      Opened clock ⟨clock, createSession principals, fun _ => .initial ι α clock, fun _ => none⟩
  | failedSession (stopReason : StopReason)
      (h : stopReason ∈
        [StopReason.insufficientCapabilityCoverage, StopReason.insufficientParticipants])
      (now : Int) :
      Opened clock
        ⟨clock, createFailedSession stopReason now, fun _ => .initial ι α clock, fun _ => none⟩

end Machine

end AiAgentsSwd.Deliberation
