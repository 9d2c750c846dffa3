import AiAgentsSwd.Tasks.Schema

/-!
# Tasks.Outbox — the lifecycle outbox and its relay

Model of `shared/sdk/tasks/lifecycle_outbox.py` and of `ClarificationOutboxRelay` in
`shared/sdk/tasks/outbox_relay.py`.

A row is `pending` until a publish succeeds (`published`) or the last attempt fails (`dead`);
an operator may return a dead row to `pending`. The checks on the payload of an event are left
out: they only raise. What the bus answers to a publish is an argument; a cancelled publish
ends the transaction, as any session may at any point.
-/

namespace AiAgentsSwd.Tasks

open Planning (Uuid Time)
open ReadCommitted

/-- A second on the clock of the database, which counts microseconds. -/
def second : Time := 1000000

/-! ## Destinations -/

/-- `EVENT_DESTINATIONS`: no destination for any other text. -/
def destinationForEventType : EventType → Option Destination
  | .resumeExecutionRequested => some .orchestratorCommand
  | .other _ => none
  | _ => some .audit

/-- `event_type in audit_relay_claimable_event_types()`. -/
def auditRelayClaimable (e : EventType) : Bool := destinationForEventType e == some .audit

/-! ## Retry and replay plans -/

/-- `RETRY_BACKOFF_SECONDS`. -/
def retryBackoffSeconds : List Nat := [30, 120, 600, 3600]

/-- `MAX_RETRIES`. -/
def maxRetries : Nat := retryBackoffSeconds.length

/-- `MAX_PUBLISH_ATTEMPTS`. -/
def maxPublishAttempts : Nat := maxRetries + 1

/-- What `plan_retry_state` returns. -/
structure RetryPlan where
  attempts : Nat
  backoffSeconds : Option Nat
  lastError : Option String
  setDeadAt : Bool
deriving Repr, DecidableEq

/-- `plan_retry_state(attempts, error)`. -/
def planRetryState (attempts : Nat) (error : Option String) : RetryPlan :=
  if attempts + 1 ≥ maxPublishAttempts then ⟨attempts + 1, none, error, true⟩
  else ⟨attempts + 1, retryBackoffSeconds[attempts]?, error, false⟩

/-- `plan_replay_state(attempts)`: the attempts of the row after a replay. -/
def planReplayState (attempts : Nat) : Nat := attempts

theorem planRetryState_attempts (n : Nat) (e : Option String) :
    (planRetryState n e).attempts = n + 1 := by
  unfold planRetryState
  split_ifs <;> rfl

theorem planRetryState_setDeadAt (n : Nat) (e : Option String) :
    (planRetryState n e).setDeadAt = decide (maxPublishAttempts ≤ n + 1) := by
  unfold planRetryState
  by_cases h : n + 1 ≥ maxPublishAttempts
  · rw [if_pos h]
    exact (decide_eq_true h).symm
  · rw [if_neg h]
    exact (decide_eq_false h).symm

/-! ## Inserting an event -/

/-- The failure of a statement on the outbox whose new row is invalid. -/
def outboxViolation : Failure := .checkViolation "clarification_lifecycle_outbox"

/-- `insert_lifecycle_outbox_event(conn, …)`. -/
def insertLifecycleOutboxEvent (id clarificationId taskId : Uuid) (eventType : EventType)
    (idempotencyKey : String) (payload : List (String × PayloadValue)) :
    TaskTxn (Uuid × OutboxEvent) := do
  let now ← statementTimestamp
  let row : OutboxEvent :=
    { clarificationId, taskId, eventType, idempotencyKey, payload
      createdAt := now
      availableAt := now }
  if !row.check then Txn.raise outboxViolation
  else if ← At.outbox.taken id then
    Txn.raise (.uniqueViolation "clarification_lifecycle_outbox_pkey")
  else if ← At.outbox.conflict (.outboxKey idempotencyKey)
      (fun o => o.idempotencyKey == idempotencyKey) then
    Txn.raise (.uniqueViolation "uq_clarification_lifecycle_outbox_idempotency_key")
  else
    Txn.modify (At.outbox.insert id row)
    return (id, row)

/-! ## The relay -/

/-- What the bus answered to a publish: the id of the message, or why there is none. -/
inductive PublishResult where
  | ok (messageId : String)
  | failed (reason : String)
deriving Repr, DecidableEq

/-- What `publish_one` returns, with the row it claimed. -/
inductive RelayOutcome where
  | published (id : Uuid)
  | retry (id : Uuid)
  | dead (id : Uuid)
  | nothing
deriving Repr, DecidableEq

namespace OutboxEvent

/-- The rows the relay may claim. -/
def claimable (now : Time) (o : OutboxEvent) : Bool :=
  o.status == .pending && decide (o.availableAt ≤ now) && auditRelayClaimable o.eventType

/-- `ORDER BY available_at, created_at`. -/
def before (a b : OutboxEvent) : Bool :=
  decide (a.availableAt < b.availableAt) ||
    a.availableAt == b.availableAt && decide (a.createdAt ≤ b.createdAt)

/-- What a successful publish sets. -/
def publishedRow (now : Time) (o : OutboxEvent) : OutboxEvent :=
  { o with
    status := .published
    publishedAt := some now
    lastError := none }

/-- What the last failed publish sets. -/
def deadRow (plan : RetryPlan) (now : Time) (o : OutboxEvent) : OutboxEvent :=
  { o with
    status := .dead
    attempts := plan.attempts
    deadAt := some now
    lastError := plan.lastError
    publishedAt := none }

/-- What an earlier failed publish sets. -/
def retryRow (plan : RetryPlan) (now : Time) (o : OutboxEvent) : OutboxEvent :=
  { o with
    attempts := plan.attempts
    availableAt := now + plan.backoffSeconds.getD 0 * second
    lastError := plan.lastError }

/-- What a replay sets. -/
def replayedRow (attempts : Nat) (now : Time) (o : OutboxEvent) : OutboxEvent :=
  { o with
    status := .pending
    attempts := attempts
    availableAt := now
    deadAt := none
    lastError := none }

end OutboxEvent

/-- `UPDATE clarification_lifecycle_outbox SET … WHERE id=…`. -/
def updateOutbox (id : Uuid) (set : Time → OutboxEvent → OutboxEvent) :
    TaskTxn (Option OutboxEvent) := do
  let now ← statementTimestamp
  At.outbox.update id (fun _ => true) (set now) OutboxEvent.check outboxViolation

/-- `publish_one(conn)`: claim one eligible row and record what the bus answered. -/
def publishOne (skipped : Uuid → Bool) (result : PublishResult) : TaskTxn RelayOutcome := do
  let now ← statementTimestamp
  match ← At.outbox.claimFirst (OutboxEvent.claimable now) OutboxEvent.before skipped with
  | none => return .nothing
  | some (id, row) =>
    match result with
    | .ok _ =>
      let _ ← updateOutbox id OutboxEvent.publishedRow
      return .published id
    | .failed reason =>
      let plan := planRetryState row.attempts (some reason)
      if plan.setDeadAt then
        let _ ← updateOutbox id (OutboxEvent.deadRow plan)
        return .dead id
      else
        let _ ← updateOutbox id (OutboxEvent.retryRow plan)
        return .retry id

/-- `replay_dead(event_id)`. -/
def replayDead (eventId : Uuid) : TaskTxn Bool := do
  match ← At.outbox.selectForUpdate eventId (fun o => o.status == .dead) with
  | none => return false
  | some row =>
    let _ ← updateOutbox eventId (OutboxEvent.replayedRow (planReplayState row.attempts))
    return true

end AiAgentsSwd.Tasks
