import AiAgentsSwd.Reasoning.Store
import AiAgentsSwd.Transition.Basic

/-!
# Reasoning.Service — `invoke` and its interleavings

Model of `ReasoningService` in `shared/sdk/agent_reasoning/service.py` for the calls that
share one `correlation_id`. A call is a state machine (`Phase`): between two statements
on the database, and around the call of the provider, every other caller may act and the
worker may crash.

What the provider answers, when it answers and what pre-flight says are up to the
environment. The artifact classes and their schemas are a parameter
(`ArtifactModels`): pydantic dumps and validates them. The audit trail, the token counts and
the timestamps that nothing reads are left out.
-/

namespace AiAgentsSwd.Reasoning

open Json (Value)
open Planning (Uuid)
open Transition

/-! ## Artifacts and answers -/

/-- The artifact classes: the verb whose class an artifact has, `as_safe_dict` (or the
text of its `ValueError`) and `model_validate` of a verb's class. What is stored
validates back to the artifact it was made of. -/
structure ArtifactModels (α : Type) where
  verb : α → Verb
  asSafeDict : α → Except String Payload
  modelValidate : Verb → Payload → Option α
  dict_ne_nil {a : α} {d : Payload} : asSafeDict a = .ok d → d ≠ []
  validate_dict {a : α} {d : Payload} : asSafeDict a = .ok d → modelValidate (verb a) d = some a

/-- What awaiting the provider's verb comes to. -/
inductive Answer (α : Type) where
  /-- It returned an artifact. -/
  | artifact (a : α)
  /-- It returned something else, of the named type. -/
  | other (typeName : String)
  /-- It raised `LiveProviderError`. -/
  | liveProviderError (message : String) (failureCategory : FailureCategory)
  /-- It raised `ReasoningProviderError`. -/
  | reasoningProviderError (message : String)
  /-- It raised another exception, of the named class. -/
  | exception (className : String)

/-- `LiveProviderError`. -/
structure LiveProviderError where
  message : String
  failureCategory : FailureCategory

/-- What awaiting `provider.preflight(request)` comes to. -/
inductive Preflight where
  | passed
  | liveProviderError (e : LiveProviderError)
  | reasoningProviderError (message : String)
  | exception (className : String)

/-- `_preflight(provider, request)`: the refusal, if any. -/
def preflight : Preflight → Option LiveProviderError
  | .passed => none
  | .liveProviderError e => some e
  | .reasoningProviderError message => some ⟨message, .providerUnauthorized⟩
  | .exception className =>
    some ⟨"unexpected_provider_preflight_error:" ++ className, .providerUnavailable⟩

/-- `_AttemptOutcome`. -/
structure AttemptOutcome (α : Type) where
  status : TerminalStatus := .failed
  failureCategory : Option FailureCategory := none
  failureReason : Option String := none
  artifact : Option α := none
  artifactPayload : Option Payload := none

/-- `MAX_ARTIFACT_BYTES`. -/
def maxArtifactBytes : Nat := 256 * 1024

/-- `artifact_payload_size(payload)`. -/
def artifactPayloadSize (payload : Payload) : Nat := (Json.dumps (.obj payload)).utf8ByteSize

/-- `assert_artifact_within_size(payload)`: the text of the `ValueError`. -/
def artifactSizeError (payload : Payload) : Option String :=
  if maxArtifactBytes < artifactPayloadSize payload then
    some ("artifact is " ++ toString (artifactPayloadSize payload) ++
      " bytes, which exceeds the durable maximum of " ++ toString maxArtifactBytes ++ " bytes")
  else none

/-- Python's `part in text`. -/
def contains (part text : String) : Bool :=
  text.toList.tails.any fun suffix => part.toList.isPrefixOf suffix

/-- A caller's request and the provider it resolved. -/
structure Request where
  verb : Verb
  providerName : String
deriving DecidableEq

variable {α : Type} (M : ArtifactModels α)

/-- The failure of an artifact that may not be stored. -/
def unstorable (error : String) : AttemptOutcome α :=
  { failureCategory :=
      some (if contains "exceeds" error then .malformedOutput else .contentSafetyRejected)
    failureReason := some error }

/-- `_attempt` from the provider's answer on. -/
def classify (request : Request) : Answer α → AttemptOutcome α
  | .liveProviderError message c => { failureCategory := some c, failureReason := some message }
  | .reasoningProviderError message =>
    { failureCategory := some
        (if request.providerName = "disabled" then .providerDisabled else .providerUnauthorized)
      failureReason := some message }
  | .exception className =>
    { failureCategory := some .providerUnavailable
      failureReason := some ("unexpected_provider_error:" ++ className) }
  | .other typeName =>
    { failureCategory := some .malformedOutput
      failureReason := some ("expected " ++ artifactTypeForVerb request.verb ++ ", got " ++
        typeName) }
  | .artifact a =>
    if M.verb a ≠ request.verb then
      { failureCategory := some .malformedOutput
        failureReason := some ("expected " ++ artifactTypeForVerb request.verb ++ ", got " ++
          artifactTypeForVerb (M.verb a)) }
    else
      match M.asSafeDict a with
      | .error error => unstorable error
      | .ok payload =>
        match artifactSizeError payload with
        | some error => unstorable error
        | none => { status := .succeeded, artifact := some a, artifactPayload := some payload }

/-- The outcome of an attempt refused by pre-flight. -/
def LiveProviderError.outcome (e : LiveProviderError) : AttemptOutcome α :=
  { failureCategory := some e.failureCategory, failureReason := some e.message }

/-- The outcome of an attempt on a provider without the verb. -/
def missingVerb (verbName : String) : AttemptOutcome α :=
  { failureCategory := some .providerUnavailable
    failureReason := some ("provider has no '" ++ verbName ++ "' verb") }

/-- The terminal outcome `invoke` writes. -/
def AttemptOutcome.terminal (o : AttemptOutcome α) (request : Request) : Terminal :=
  { status := o.status
    failureCategory := o.failureCategory
    failureReason := o.failureReason
    artifactType := if o.status = .succeeded then some (artifactTypeForVerb request.verb) else none
    artifact := if o.status = .succeeded then o.artifactPayload else none }

/-! ## Results -/

/-- `ExecutionDisposition`. -/
inductive Disposition where
  | fresh
  | replay
  | inProgress
deriving DecidableEq

/-- `ReasoningResult`. -/
structure ReasoningResult (α : Type) where
  artifact : Option α
  invocation : Invocation
  disposition : Disposition

/-- `rehydrate(row)`; `none` is `ReasoningArtifactCorruptError`. -/
def rehydrate (row : Invocation) : Option (Option α) :=
  if row.status ≠ .succeeded then some none
  else
    match row.artifact with
    | none => some none
    | some payload =>
      if payload = [] then some none else (M.modelValidate row.reasoningVerb payload).map some

/-- `_settled(row)`; `none` when the artifact is corrupt. -/
def settled (row : Invocation) : Option (ReasoningResult α) :=
  if row.status = .started then some ⟨none, row, .inProgress⟩
  else (rehydrate M row).map fun artifact => ⟨artifact, row, .replay⟩

/-! ## A call, step by step -/

/-- Where a call stands. `refusal` is what pre-flight said; `row` is the row the call owns or
last read, as it was then. -/
inductive Phase (α : Type) where
  /-- `get_by_correlation_id`, before anything else. -/
  | reading
  /-- Awaiting `_preflight`. -/
  | preflighting
  /-- The `INSERT` of `try_begin_invocation`. -/
  | claiming (refusal : Option LiveProviderError)
  /-- Its `SELECT`, after the conflict. -/
  | conflicted (refusal : Option LiveProviderError)
  /-- `_recover`: `try_take_over_invocation`. -/
  | takingOver (refusal : Option LiveProviderError) (row : Invocation)
  /-- `_recover`: `get_by_correlation_id`. -/
  | rereading (row : Invocation)
  /-- `_recover`: the `UPDATE` of `fail_exhausted_invocation`. -/
  | exhausting (row : Invocation)
  /-- Its `SELECT`, when the `UPDATE` matched no row. -/
  | exhaustReading (row : Invocation)
  /-- `_attempt`, before the provider is called. -/
  | attempting (refusal : Option LiveProviderError) (row : Invocation)
  /-- `_attempt`, awaiting the provider. -/
  | awaiting (row : Invocation)
  /-- `advance_retryable_attempt`. -/
  | advancing (row : Invocation) (outcome : AttemptOutcome α) (failureCategory : FailureCategory)
  /-- The `UPDATE` of `complete_invocation`. -/
  | completing (row : Invocation) (outcome : AttemptOutcome α)
  /-- Its `SELECT`, when the `UPDATE` matched no row. -/
  | completeReading (row : Invocation) (outcome : AttemptOutcome α)

/-- A running call. -/
structure Caller (α : Type) where
  request : Request
  phase : Phase α

/-- What has happened, oldest first. -/
inductive Event (ι α : Type) where
  /-- The caller came to own the attempt, with the token. -/
  | claimed (caller : ι) (attempt : Nat) (token : Uuid)
  /-- The provider's verb was called for the attempt. -/
  | called (caller : ι) (attempt : Nat)
  /-- The caller wrote the terminal outcome of the attempt. -/
  | completed (caller : ι) (attempt : Nat)
  /-- The caller ended the row without owning it. -/
  | exhausted (caller : ι)
  /-- `invoke` returned. -/
  | returned (caller : ι) (result : ReasoningResult α)

/-- The row of the correlation id, the calls on it and what has happened. -/
structure World (ι α : Type) where
  /-- The database clock. -/
  clock : Int
  row : Option Invocation
  callers : ι → Option (Caller α)
  /-- The identifiers given out so far. -/
  issued : List Uuid
  history : List (Event ι α)

/-- Before the first call. -/
def World.initial (ι α : Type) (clock : Int) : World ι α := ⟨clock, none, fun _ => none, [], []⟩

/-- What may happen next. -/
inductive Act (ι α : Type) where
  /-- The clock moves forward. -/
  | tick (t : Int)
  /-- A call of `invoke` starts. -/
  | start (caller : ι) (request : Request)
  /-- The worker dies, or an exception leaves `invoke`. -/
  | crash (caller : ι)
  /-- The call's next statement, begun at `now`; a random identifier for each use. -/
  | run (caller : ι) (now : Int) (invocationId token : Uuid)
  /-- Pre-flight answers. -/
  | preflight (caller : ι) (answer : Preflight)
  /-- The provider's verb is looked up and called. -/
  | call (caller : ι) (hasVerb : Bool)
  /-- The provider answers. -/
  | answer (caller : ι) (answer : Answer α)

section Machine

variable {ι : Type} [DecidableEq ι] (cfg : StoreConfig)

namespace World

/-- Replace one caller. -/
def setCaller (w : World ι α) (i : ι) (c : Option (Caller α)) : World ι α :=
  { w with callers := fun j => if j = i then c else w.callers j }

/-- The caller goes on. -/
def goto (w : World ι α) (i : ι) (request : Request) (phase : Phase α) : World ι α :=
  w.setCaller i (some ⟨request, phase⟩)

/-- The caller is done: with a result, or with an exception. -/
def finish (w : World ι α) (i : ι) (result : Option (ReasoningResult α)) : World ι α :=
  match result with
  | none => w.setCaller i none
  | some r => { w.setCaller i none with history := w.history ++ [.returned i r] }

/-- The caller has written the row of an attempt it now owns. -/
def claim (w : World ι α) (i : ι) (row : Invocation) : World ι α :=
  { w with
    row := some row
    issued := row.attemptToken :: row.invocationId :: w.issued
    history := w.history ++ [.claimed i row.attempt row.attemptToken] }

end World

/-- What `invoke` does with the outcome of an attempt: end, or try again. -/
def afterAttempt (row : Invocation) (refused : Bool) (o : AttemptOutcome α) : Phase α :=
  match o.status, o.failureCategory with
  | .failed, some c =>
    if ¬ refused ∧ c ∈ retryableFailureCategories ∧ row.attempt < cfg.maxAttempts then
      .advancing row o c
    else .completing row o
  | _, _ => .completing row o

/-- `_recover(row)` once no takeover happened: `current` is the row now. -/
def recovered (w : World ι α) (i : ι) (request : Request) (current : Invocation) : World ι α :=
  if current.status ≠ .started then w.finish i (settled M current)
  else if cfg.maxAttempts ≤ current.attempt then w.goto i request (.exhausting current)
  else w.finish i (some ⟨none, current, .inProgress⟩)

/-- The text of the failure of an exhausted invocation. -/
def exhaustedReason (current : Invocation) : String :=
  "attempt budget exhausted after " ++ toString current.attempt ++
    " attempt(s); every owner's lease expired without a terminal outcome"

/-- The result of `invoke` once `complete_invocation` has returned the row: of the caller's
own attempt, or of the attempt that superseded it. -/
def concluded (row : Invocation) (o : AttemptOutcome α) (completed : Invocation) :
    Option (ReasoningResult α) :=
  if completed.attemptToken ≠ row.attemptToken then settled M completed
  else some ⟨o.artifact, completed, .fresh⟩

/-- The next statement of a call. -/
def runStatement (w : World ι α) (i : ι) (now : Int) (invocationId token : Uuid)
    (request : Request) : Phase α → Option (World ι α)
  | .reading =>
    some <| match w.row with
      | none => w.goto i request .preflighting
      | some r =>
        if r.status ≠ .started then w.finish i (settled M r)
        else w.goto i request .preflighting
  | .claiming refusal =>
    some <| match w.row with
      | none =>
        let row := newInvocation cfg now request.verb invocationId token
        (w.claim i row).goto i request (.attempting refusal row)
      | some _ => w.goto i request (.conflicted refusal)
  | .conflicted refusal =>
    some <| match w.row with
      | none => w.finish i none
      | some r =>
        if r.status ≠ .started then w.finish i (settled M r)
        else w.goto i request (.takingOver refusal r)
  | .takingOver refusal row =>
    some <| match tryTakeOverInvocation cfg now token w.row with
      | some taken => (w.claim i taken).goto i request (.attempting refusal taken)
      | none => w.goto i request (.rereading row)
  | .rereading row => some (recovered M cfg w i request (w.row.getD row))
  | .exhausting current =>
    some <| match failExhaustedInvocation cfg now current.invocationId
        (exhaustedReason current) w.row with
      | some row =>
        { w with row := some row, history := w.history ++ [Event.exhausted i] }.finish i (settled M row)
      | none => w.goto i request (.exhaustReading current)
  | .exhaustReading current => some (w.finish i (settled M (w.row.getD current)))
  | .advancing row o c =>
    some <| match advanceRetryableAttempt cfg now token row.invocationId row.attemptToken c
        w.row with
      | some advanced => (w.claim i advanced).goto i request (.attempting none advanced)
      | none => w.goto i request (.completing row o)
  | .completing row o =>
    some <| match completeInvocation cfg row.invocationId row.attemptToken (o.terminal request)
        w.row with
      | .wrote row' =>
        { w with row := some row', history := w.history ++ [Event.completed i row.attempt] }.finish i
          (concluded M row o row')
      | .violation => w.finish i none
      | .noRow => w.goto i request (.completeReading row o)
  | .completeReading row o =>
    some <| match w.row with
      | none => w.finish i none
      | some r => w.finish i (concluded M row o r)
  | .preflighting => none
  | .attempting _ _ => none
  | .awaiting _ => none

/-- One step of the world. -/
def step (w : World ι α) : Act ι α → Option (World ι α)
  | .tick t => if w.clock ≤ t then some { w with clock := t } else none
  | .start i request =>
    match w.callers i with
    | none => some (w.goto i request .reading)
    | some _ => none
  | .crash i => some (w.setCaller i none)
  | .run i now invocationId token =>
    match w.callers i with
    | some c =>
      if now ≤ w.clock ∧ token ∉ w.issued ∧ invocationId ∉ w.issued then
        runStatement M cfg w i now invocationId token c.request c.phase
      else none
    | none => none
  | .preflight i answer =>
    match w.callers i with
    | some ⟨request, .preflighting⟩ => some (w.goto i request (.claiming (preflight answer)))
    | _ => none
  | .call i hasVerb =>
    match w.callers i with
    | some ⟨request, .attempting (some e) row⟩ =>
      some (w.goto i request (afterAttempt cfg row true e.outcome))
    | some ⟨request, .attempting none row⟩ =>
      if hasVerb then
        some { w.goto i request (.awaiting row) with
          history := w.history ++ [.called i row.attempt] }
      else
        some (w.goto i request (afterAttempt cfg row false (missingVerb (verbName request.verb))))
    | _ => none
  | .answer i answer =>
    match w.callers i with
    | some ⟨request, .awaiting row⟩ =>
      some (w.goto i request (afterAttempt cfg row false (classify M request answer)))
    | _ => none
where
  /-- `request.verb`. -/
  verbName : Verb → String
    | .propose => "propose"
    | .critique => "critique"
    | .summarizeDecision => "summarize_decision"
    | .decomposePlan => "decompose_plan"

end Machine

end AiAgentsSwd.Reasoning
