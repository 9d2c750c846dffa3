import AiAgentsSwd.Tasks.Outbox

/-!
# Tasks.Workroom — clarifications, their answers and the lifecycle poller

Model of `create_clarification` and `answer_clarification` in
`apps/orchestrator/src/workroom_api.py`, of what they call in
`shared/sdk/tasks/workroom_store.py` and `shared/sdk/tasks/store.py`, and of
`ClarificationLifecyclePoller` in `shared/sdk/tasks/lifecycle_poller.py`.

Neither of the two requests is one transaction: each of their statements commits by itself,
and a crash may come between any two. Messages of the workroom are left out; an answer
message is the id that its insertion draws.
-/

namespace AiAgentsSwd.Tasks

open Planning (Uuid Time)
open ReadCommitted

/-- `models.TERMINAL_TASK_STATUSES`, less the two texts that no row of `operator_tasks` holds. -/
def closedTaskStatuses : List TaskStatus := [.accepted, .rejected, .canceled, .archived, .failed]

/-! ## The workroom store -/

/-- `create_clarification(task_id, …)`; the two times come from the clock of the service. -/
def createClarification (clarificationId taskId : Uuid) (dueAt reminderAt : Time) :
    TaskTxn Unit := do
  if ← At.clarifications.taken clarificationId then
    Txn.raise (.uniqueViolation "operator_clarification_requests_pkey")
  else Txn.modify (At.clarifications.insert clarificationId { taskId, dueAt, reminderAt })

/-- What `claim_clarification_answer` sets. -/
def Clarification.answeredRow (now : Time) (c : Clarification) : Clarification :=
  { c with
    status := .answered
    answeredAt := some now }

/-- `claim_clarification_answer(clarification_id)`. -/
def claimClarificationAnswer (clarificationId : Uuid) : TaskTxn (Option Clarification) := do
  let now ← statementTimestamp
  At.clarifications.update clarificationId
    (fun c => c.status == .open && c.answeredAt.isNone && decide (now < c.dueAt))
    (Clarification.answeredRow now) Clarification.check
    (.checkViolation "operator_clarification_requests")

/-- What `set_answer_message` sets. -/
def Clarification.messagedRow (answerMessageId : Uuid) (c : Clarification) : Clarification :=
  { c with answerMessageId := some answerMessageId }

/-- `set_answer_message(clarification_id, answer_message_id)`. -/
def setAnswerMessage (clarificationId answerMessageId : Uuid) :
    TaskTxn (Option Clarification) := do
  if 2 ^ 128 ≤ answerMessageId.value then
    Txn.raise (.valueError "badly formed hexadecimal UUID string")
  else
    At.clarifications.update clarificationId (fun _ => true)
      (Clarification.messagedRow answerMessageId) Clarification.check
      (.checkViolation "operator_clarification_requests")

/-- What `set_clarification_state` sets. -/
def Task.clarificationRow (status : TaskStatus) (clarificationStatus : TaskClarificationStatus)
    (t : Task) : Task :=
  { t with
    status := status
    clarificationStatus := clarificationStatus }

/-- `set_clarification_state(task_id, status, clarification_status)`. -/
def setClarificationState (taskId : Uuid) (status : TaskStatus)
    (clarificationStatus : TaskClarificationStatus) : TaskTxn (Option Task) :=
  At.tasks.update taskId (fun _ => true) (Task.clarificationRow status clarificationStatus)
    (fun _ => true) (.checkViolation "operator_tasks")

/-- The last statement of `create_clarification`. -/
def openTaskClarification (taskId : Uuid) : TaskTxn (Option Task) :=
  setClarificationState taskId .clarificationNeeded .open

/-- The last statement of `answer_clarification`. -/
def answerTaskClarification (taskId : Uuid) : TaskTxn (Option Task) :=
  setClarificationState taskId .intakeReview .answered

/-! ## The poller -/

/-- The rows a reminder cycle claims. -/
def Clarification.remindable (now : Time) (c : Clarification) : Bool :=
  c.status == .open && c.answeredAt.isNone && c.reminderSentAt.isNone &&
    decide (c.reminderAt ≤ now) && decide (now < c.dueAt)

/-- The rows an expiry cycle claims. -/
def Clarification.overdue (now : Time) (c : Clarification) : Bool :=
  c.status == .open && c.answeredAt.isNone && decide (c.dueAt ≤ now)

/-- What a reminder sets. -/
def Clarification.remindedRow (now : Time) (c : Clarification) : Clarification :=
  { c with reminderSentAt := some now }

/-- What an expiry sets. -/
def Clarification.expiredRow (now : Time) (c : Clarification) : Clarification :=
  { c with
    status := .expired
    expiredAt := some now }

/-- What one claim of a poller did. -/
inductive PollOutcome where
  | nothing
  | committed (id : Uuid)
deriving Repr, DecidableEq

/-- `_claim_one_reminder(conn, skip)`. Every branch that rolls back raises; a row is `skipped`
when the cycle leaves it out or another worker holds it. -/
def claimOneReminder (skipped : Uuid → Bool) (eventId : Uuid) : TaskTxn PollOutcome := do
  let now ← statementTimestamp
  match ← At.clarifications.claimFirst (Clarification.remindable now)
      (fun a b => a.reminderAt ≤ b.reminderAt) skipped with
  | none => return .nothing
  | some (id, row) =>
    let now ← statementTimestamp
    let _ ← At.clarifications.update id (fun _ => true) (Clarification.remindedRow now)
      Clarification.check (.checkViolation "operator_clarification_requests")
    -- a collision of the key rolls back, as `insert_lifecycle_outbox_event` raises
    let _ ← insertLifecycleOutboxEvent eventId id row.taskId .clarificationReminderRecorded
      (toString id ++ ":reminder") [("reason", .text "reminder_recorded")]
    return .committed id

/-- `_claim_one_expiry(conn, skip)`, in the same way: the task is locked after the
clarification, and the three writes are one transaction. -/
def claimOneExpiry (skipped : Uuid → Bool) (eventId : Uuid) : TaskTxn PollOutcome := do
  let now ← statementTimestamp
  match ← At.clarifications.claimFirst (Clarification.overdue now)
      (fun a b => a.dueAt ≤ b.dueAt) skipped with
  | none => return .nothing
  | some (id, row) =>
    match ← At.tasks.selectForUpdate row.taskId (fun _ => true) with
    | none => Txn.raise (.rolledBack "reconcile")
    | some task =>
      if closedTaskStatuses.contains task.status then
        Txn.raise (.rolledBack "suppressed_terminal")
      else if task.status ≠ .clarificationNeeded then Txn.raise (.rolledBack "reconcile")
      else
        match ← At.tasks.update row.taskId (fun t => t.status == .clarificationNeeded)
            (fun t => { t with status := .clarificationExpired }) (fun _ => true)
            (.checkViolation "operator_tasks") with
        | none => Txn.raise (.rolledBack "reconcile")
        | some _ =>
          let now ← statementTimestamp
          let _ ← At.clarifications.update id (fun _ => true) (Clarification.expiredRow now)
            Clarification.check (.checkViolation "operator_clarification_requests")
          let _ ← insertLifecycleOutboxEvent eventId id row.taskId .clarificationExpired
            (toString id ++ ":expired") [("reason", .text "expired")]
          return .committed id

end AiAgentsSwd.Tasks
