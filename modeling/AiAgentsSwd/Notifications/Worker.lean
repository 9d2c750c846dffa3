import AiAgentsSwd.Notifications.DeliveryPolicy
import AiAgentsSwd.Transition.Basic
import Mathlib.Logic.Function.Basic

/-!
# Notifications.Worker — workers that post the notifications of a stream

Model of `NotificationWorker` of `apps/notification-worker/src/worker.py`, of the client and the
store it uses (`discord_client.py`, `shared/sdk/notifications/store.py`) and of the unique index of
`migrations/006_notification_delivery.sql`. A call of `handle` stops at each of its requests: the
insert, the post, the update, the dead letter. Any worker may be handed any message at any time, a
message that was handed out before included.

- `step`: a request of one of the workers, or the end of one of them.
-/

namespace AiAgentsSwd.Notifications

open ApprovalPolicy (Unicode)
open Json (Value field?)
open Python (Runtime get orElse)

/-! ## The client -/

/-- `NotificationDiscordClient` -/
structure NotificationDiscordClient where
  hasToken : Bool
  channelId : String
  realEnabled : Bool
deriving Repr, DecidableEq

namespace NotificationDiscordClient

variable (client : NotificationDiscordClient)

/-- `has_test_channel` -/
def hasTestChannel : Bool := client.channelId != ""

/-- `can_deliver()` -/
def canDeliver : Bool := client.hasToken && client.hasTestChannel && client.realEnabled

/-- A request to the API of Discord. -/
structure Request where
  channel : String
  content : String
deriving Repr, DecidableEq

/-- The request of `send_test_message(content)`, or the `DiscordDeliverySafetyError`. -/
def sendTestMessage (content : String) : Except String Request :=
  if !client.hasToken then .error "DISCORD_BOT_TOKEN is not set"
  else if !client.hasTestChannel then .error "DISCORD_TEST_CHANNEL_ID is not set"
  else if !client.realEnabled then .error "RUN_REAL_DISCORD_TEST is not 'true'"
  else .ok ⟨client.channelId, "[AI-Agents-SWD sandbox] " ++ content⟩

end NotificationDiscordClient

/-- `_PLACEHOLDER_MARKER` -/
def placeholderMarker : String := "PLACEHOLDER_DO_NOT_COMMIT_REAL_VALUE"

/-- `get_secret(name).present`, of the text that the provider looks up. -/
def present (raw : Option String) : Bool :=
  match raw with
  | none => false
  | some raw => stripped raw != "" && stripped raw != placeholderMarker

section Config

variable (u : Unicode)

/-- `NotificationDiscordClient()` -/
def clientFromEnv (env : Env) (token : Option String) : NotificationDiscordClient where
  hasToken := present token
  channelId := stripped ((env "DISCORD_TEST_CHANNEL_ID").getD "")
  realEnabled := reads u ((env "RUN_REAL_DISCORD_TEST").getD "false") "true"

/-- What a worker is made with. -/
structure Config where
  client : NotificationDiscordClient
  policy : RealDeliveryPolicy
  orchestratorPublicUrl : String
deriving Repr, DecidableEq

/-- `NotificationWorker.__init__`, where no policy is given. -/
def Config.load (env : Env) (client : NotificationDiscordClient) : Config :=
  let loaded := loadPolicyFromEnv u env (some client.canDeliver)
  { client := client
    policy :=
      if loaded.testChannelId = "" ∧ client.channelId ≠ "" then
        { loaded with testChannelId := client.channelId }
      else loaded
    orchestratorPublicUrl := (env "ORCHESTRATOR_PUBLIC_URL").getD "" }

end Config

/-! ## The table -/

inductive Status where
  | pending
  | simulated
  | skipped
  | delivered
  | failed
deriving Repr, DecidableEq

/-- A row of `notification_deliveries`; its `id` is its place in the table. -/
structure Row where
  taskId : Option String
  eventType : String
  channel : String
  target : String
  status : Status
  sandbox : Bool
  externalSent : Bool
  messageId : Option String
  error : Option String
  sourceMessageId : Option String
  metadata : Payload

/-- `INSERT … ON CONFLICT (source_message_id) DO NOTHING RETURNING …`; nulls do not conflict. -/
def createDelivery (rows : List Row) (row : Row) : Option (Nat × List Row) :=
  if row.sourceMessageId ≠ none ∧ rows.any (fun r => r.sourceMessageId = row.sourceMessageId) then
    none
  else some (rows.length, rows ++ [row])

/-- `mark_delivered(delivery_id, message_id=…, external_sent=True)` -/
def markDelivered (rows : List Row) (deliveryId : Nat) (messageId : String) : List Row :=
  rows.modify deliveryId fun row =>
    { row with status := .delivered, messageId := some messageId, externalSent := true }

/-- `mark_failed(delivery_id, error=…)` -/
def markFailed (rows : List Row) (deliveryId : Nat) (error : String) : List Row :=
  rows.modify deliveryId fun row => { row with status := .failed, error := some error }

/-! ## What `handle` makes of a payload -/

section Handle

variable (rt : Runtime) (u : Unicode) (c : Config)

/-- `payload.get("pr_url") or payload["github"].get("pr_url")`, where `github` is a dictionary. -/
def prUrl (payload : Payload) : Option Value :=
  match field? payload "github" with
  | some (.obj github) =>
    some (orElse (field? payload "pr_url") ((field? github "pr_url").getD .null))
  | _ => none

/-- `render_discord_message(payload)` -/
def renderDiscordMessage (payload : Payload) : String :=
  let textOr (name default : String) := rt.text (orElse (field? payload name) (.str default))
  let taskId := textOr "task_id" "unknown"
  let message := textOr "message" ""
  let status := textOr "status" ""
  " | ".intercalate <|
    ["[" ++ textOf rt payload "event_type" "event" "unknown" ++ "]", taskId] ++
    (if status = "" then [] else ["status=" ++ status]) ++
    ["production_executed=false",
      "ops=" ++ c.orchestratorPublicUrl ++ "/operations/workflows/" ++ taskId] ++
    ((prUrl payload).filter Audit.truthy).toList.map (fun url => "pr=" ++ rt.text url) ++
    (if message = "" then []
    else if message.length ≤ 200 then ["msg=" ++ message]
    else ["msg=" ++ String.ofList (message.toList.take 200) ++ "…"])

/-- The event type that `handle` reads. -/
def handledType (payload : Payload) : String := textOf rt payload "event_type" "event" "unknown"

/-- `external_send_enabled` -/
def externalSendEnabled (payload : Payload) : Bool :=
  (classifyRealDelivery rt u payload c.policy).decision = .realAllowed && c.client.canDeliver

/-- The decision of the policy, or the one that takes its place if the client cannot deliver. -/
def decisionFor (payload : Payload) : RealDeliveryDecision :=
  let decision := classifyRealDelivery rt u payload c.policy
  if decision.decision = .realAllowed ∧ c.client.canDeliver = false then
    { decision := .skipped
      reason := .clientCannotDeliver
      eventType := handledType rt payload
      targetChannel := decision.targetChannel
      sandbox := true
      externalSent := false }
  else decision

/-- `policy.test_channel_id or "sandbox-channel"` -/
def policyTarget : String :=
  if c.policy.testChannelId = "" then "sandbox-channel" else c.policy.testChannelId

/-- The target, the status and the flag of a new row. -/
def initialState (payload : Payload) : String × Status × Bool :=
  if externalSendEnabled rt u c payload then (c.client.channelId, .pending, false)
  else
    match (decisionFor rt u c payload).decision with
    | .realBlocked => (policyTarget c, .skipped, false)
    | .skipped => (policyTarget c, .skipped, true)
    | _ => ("sandbox-channel", .simulated, true)

/-- `str(task_id).strip() or None`, where there is one. -/
def taskIdOf (payload : Payload) : Option String :=
  match field? payload "task_id" with
  | none | some .null => none
  | some v => if stripped (rt.text v) = "" then none else some (stripped (rt.text v))

/-- The row that `handle` inserts. -/
def newRow (messageId : String) (payload : Payload) : Row :=
  let decision := decisionFor rt u c payload
  let state := initialState rt u c payload
  { taskId := taskIdOf rt payload
    eventType := handledType rt payload
    channel := "discord"
    target := state.1
    status := state.2.1
    sandbox := state.2.2
    externalSent := false
    messageId := none
    error := none
    sourceMessageId := some messageId
    metadata := [
      ("rendered_message", .str (renderDiscordMessage rt c payload)),
      ("original_event", .obj payload),
      ("delivery_decision", .str decision.decision.text),
      ("blocked_reason", .str decision.reason.text),
      ("event_type", .str (handledType rt payload)),
      ("sandbox", .bool (classifyRealDelivery rt u payload c.policy).sandbox),
      ("external_sent", .bool false)] }

/-- How a call ends. -/
inductive Outcome where
  | simulated (deliveryId : Nat)
  | delivered (deliveryId : Nat) (messageId : String)
  | realBlocked (deliveryId : Nat) (reason : Reason)
  | skipped (deliveryId : Nat) (reason : Reason)
  | nonDictPayload
  | duplicate
  | deadlettered (reason : String)
  | retry (reason : String)
deriving Repr, DecidableEq

/-- The `ack` of an outcome. -/
def Outcome.ack : Outcome → Bool
  | .retry _ => false
  | _ => true

/-- The outcome for a row that was inserted and that nothing is posted for. -/
def quietOutcome (deliveryId : Nat) (decision : RealDeliveryDecision) : Outcome :=
  match decision.decision with
  | .realBlocked => .realBlocked deliveryId decision.reason
  | .skipped => .skipped deliveryId decision.reason
  | _ => .simulated deliveryId

/-! ## The workers -/

/-- The request that a call of `handle` waits for. -/
inductive Stage where
  | recording
  | sending (deliveryId : Nat)
  | sent (deliveryId : Nat) (messageId : String)
  | refused (deliveryId : Nat) (error : String)
  | deadlettering (reason : String)
  | returned (outcome : Outcome)
deriving Repr, DecidableEq

/-- What a worker keeps in its process, and the message it is at. -/
structure Process where
  /-- `_retry_counts` -/
  retryCounts : List (String × Nat)
  call : Option (String × Stage)
deriving Repr, DecidableEq

def Process.fresh : Process where
  retryCounts := []
  call := none

/-- `MAX_FAILURES_BEFORE_DEADLETTER` -/
def maxFailuresBeforeDeadletter : Nat := 3

namespace Process

variable (p : Process)

/-- `_retry_counts.get(message_id, 0)` -/
def retries (messageId : String) : Nat := (p.retryCounts.lookup messageId).getD 0

/-- `_retry_counts.pop(message_id, None)` -/
def popRetries (messageId : String) : List (String × Nat) :=
  p.retryCounts.filter fun e => e.1 ≠ messageId

/-- The call goes on to another stage. -/
def goto (messageId : String) (stage : Stage) : Process :=
  { p with call := some (messageId, stage) }

/-- A failure is counted, and the call dead-letters or asks for a retry. -/
def fail (messageId reason : String) : Process :=
  let attempts := p.retries messageId + 1
  { retryCounts := (messageId, attempts) :: p.popRetries messageId
    call := some (messageId,
      if maxFailuresBeforeDeadletter ≤ attempts then .deadlettering reason
      else .returned (.retry reason)) }

end Process

/-- The envelope of `_publish_deadletter`. -/
def deadletterEnvelope (messageId : String) (payload : Payload) (reason : String)
    (retryCount : Nat) : Payload := [
  ("event", .str "notification.deadlettered"),
  ("event_type", .str "notification.deadlettered"),
  ("task_id", get payload "task_id" .null),
  ("workflow_id", get payload "workflow_id" (.str "")),
  ("original_stream", .str "stream.notifications"),
  ("original_message_id", .str messageId),
  ("failure_reason", .str reason),
  ("original_event", .obj payload),
  ("retry_count", .int retryCount),
  ("max_retries", .int maxFailuresBeforeDeadletter)]

/-! ## Runs -/

/-- A request that was sent, for which message, and whether Discord took it. -/
structure Post (ω : Type) where
  worker : ω
  message : String
  request : NotificationDiscordClient.Request
  accepted : Bool
deriving Repr, DecidableEq

structure World (ω : Type) where
  rows : List Row
  workers : ω → Process
  posts : List (Post ω)
  /-- The messages of dead letters, and the letters. -/
  deadLetters : List (String × Payload)
  /-- The messages whose dead letter could not be published. -/
  lostLetters : List String
  acked : List String

/-- How a write to the table ends: an error may come after the write was done. -/
inductive Write where
  | done
  | notDone (error : String)
  | doneButRaised (error : String)
deriving Repr, DecidableEq

/-- How a post ends: the answer may be lost after Discord took the message. -/
inductive Answer where
  | ok (messageId : String)
  | lost (error : String)
  | refused (error : String)
deriving Repr, DecidableEq

inductive Act (ω : Type) where
  | receive (worker : ω) (messageId : String)
  | record (worker : ω) (result : Write)
  | send (worker : ω) (answer : Answer)
  | mark (worker : ω) (result : Write)
  | deadletter (worker : ω) (published : Bool)
  | finish (worker : ω) (acked : Bool)
  | crash (worker : ω)
  /-- A row of another writer, which names no message. -/
  | other (row : Row)

end Handle

section Step

variable {ω : Type} [DecidableEq ω]

/-- The world after a worker went on to another state. -/
def World.put (w : World ω) (k : ω) (p : Process) : World ω :=
  { w with workers := Function.update w.workers k p }

variable (rt : Runtime) (u : Unicode) (conf : ω → Config) (payloads : String → Value)

/-- The stage of a call that has inserted its row. -/
def stageAfterInsert (c : Config) (payload : Payload) (deliveryId : Nat) : Stage :=
  if externalSendEnabled rt u c payload then .sending deliveryId
  else .returned (quietOutcome deliveryId (decisionFor rt u c payload))

/-- The insert of a call. -/
def recordStep (w : World ω) (k : ω) (m : String) (payload : Payload) (result : Write) : World ω :=
  let p := w.workers k
  let row := newRow rt u (conf k) m payload
  match result, createDelivery w.rows row with
  | .done, none => w.put k (p.goto m (.returned .duplicate))
  | .done, some (deliveryId, rows) =>
    { w with rows := rows }.put k (p.goto m (stageAfterInsert rt u (conf k) payload deliveryId))
  | .notDone error, _ => w.put k (p.fail m error)
  | .doneButRaised error, none => w.put k (p.fail m error)
  | .doneButRaised error, some (_, rows) => { w with rows := rows }.put k (p.fail m error)

/-- The post of a call. -/
def sendStep (w : World ω) (k : ω) (m : String) (payload : Payload) (deliveryId : Nat)
    (answer : Answer) : World ω :=
  let p := w.workers k
  match (conf k).client.sendTestMessage (renderDiscordMessage rt (conf k) payload) with
  | .error error => w.put k (p.goto m (.refused deliveryId ("safety: " ++ error)))
  | .ok request =>
    match answer with
    | .ok messageId =>
      { w with posts := ⟨k, m, request, true⟩ :: w.posts }.put k
        (p.goto m (.sent deliveryId messageId))
    | .lost error =>
      { w with posts := ⟨k, m, request, true⟩ :: w.posts }.put k
        (p.goto m (.refused deliveryId error))
    | .refused error =>
      { w with posts := ⟨k, m, request, false⟩ :: w.posts }.put k
        (p.goto m (.refused deliveryId error))

/-- The table after an update. -/
def Write.apply (result : Write) (rows rows' : List Row) : List Row :=
  match result with
  | .notDone _ => rows
  | _ => rows'

/-- The state of a worker after an update that it asked for. -/
def Write.next (result : Write) (p : Process) (m : String) (done : Process) : Process :=
  match result with
  | .done => done
  | .notDone error | .doneButRaised error => p.fail m error

/-- A payload that is a dictionary. -/
def dictOf : Value → Option Payload
  | .obj payload => some payload
  | _ => none

/-- The dead letter of a call. -/
def deadletterStep (w : World ω) (k : ω) (m reason : String) (published : Bool) : World ω :=
  let p := w.workers k
  let letter := (dictOf (payloads m)).map fun payload =>
    (m, deadletterEnvelope m payload reason (p.retries m))
  { w with
    deadLetters := if published then letter.toList ++ w.deadLetters else w.deadLetters
    lostLetters := if published then w.lostLetters else m :: w.lostLetters }.put k
      ⟨p.popRetries m, some (m, .returned (.deadlettered reason))⟩

/-- One request of a worker, or what happens to one. -/
def step (w : World ω) : Act ω → Option (World ω)
  | .receive k m =>
    if (w.workers k).call ≠ none then none
    else
      match dictOf (payloads m) with
      | some _ => some (w.put k ((w.workers k).goto m .recording))
      | none => some (w.put k ((w.workers k).goto m (.returned .nonDictPayload)))
  | .record k result =>
    match (w.workers k).call with
    | some (m, .recording) =>
      (dictOf (payloads m)).map fun payload => recordStep rt u conf w k m payload result
    | _ => none
  | .send k answer =>
    match (w.workers k).call with
    | some (m, .sending deliveryId) =>
      (dictOf (payloads m)).map fun payload => sendStep rt conf w k m payload deliveryId answer
    | _ => none
  | .mark k result =>
    let p := w.workers k
    match p.call with
    | some (m, .sent deliveryId messageId) =>
      some ({ w with
          rows := result.apply w.rows (markDelivered w.rows deliveryId messageId) }.put k
        (result.next p m (p.goto m (.returned (.delivered deliveryId messageId)))))
    | some (m, .refused deliveryId error) =>
      some ({ w with rows := result.apply w.rows (markFailed w.rows deliveryId error) }.put k
        (result.next p m (p.fail m error)))
    | _ => none
  | .deadletter k published =>
    match (w.workers k).call with
    | some (m, .deadlettering reason) => some (deadletterStep payloads w k m reason published)
    | _ => none
  | .finish k acked =>
    let p := w.workers k
    match p.call with
    | some (m, .returned outcome) =>
      some ({ w with acked := if outcome.ack && acked then m :: w.acked else w.acked }.put k
        { p with call := none })
    | _ => none
  | .crash k => some (w.put k .fresh)
  | .other row =>
    if row.sourceMessageId = none then some { w with rows := w.rows ++ [row] } else none

/-- Before anything ran. -/
def World.start : World ω where
  rows := []
  workers := fun _ => .fresh
  posts := []
  deadLetters := []
  lostLetters := []
  acked := []

end Step

end AiAgentsSwd.Notifications
