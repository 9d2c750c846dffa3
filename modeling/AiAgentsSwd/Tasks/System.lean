import AiAgentsSwd.Tasks.ReplayService
import AiAgentsSwd.Tasks.Workroom

/-!
# Tasks.System — the transactions of controlled resume and replay

One `Call` for each transaction that the services, the relay, the poller and the workroom run
on the task database, and for what the rest of the program does to it: the clock moves on, a
task is written by its own API, a clarification becomes eligible for a resume.
-/

namespace AiAgentsSwd.Tasks

open Planning (Uuid Time)
open ReadCommitted

/-- A transaction, with the ids it draws. -/
inductive Call where
  | requestAuthorization (id : Uuid) (actor : Actor) (actorScope resourceScope : Scope)
      (actionType : ActionType) (resourceType : ResourceType) (resourceId : Uuid)
      (resourceStateVersion : String) (expiresAt : Time) (idempotencyKey : String)
      (productionEffect : Bool) (productionApprovalReference : Option Reference)
  | authorize (id : Uuid) (actor : Actor) (actorScope : Scope) (policyVersion : String)
  | decideSimple (op : SimpleOp) (id : Uuid) (actor : Actor) (actorScope : Scope)
  | consume (id : Uuid) (actor : Actor) (actorScope : Scope) (resourceStateVersion : String)
  | expireDueAuthorizations (limit : Nat) (rank : Uuid → Nat)
  | grantProductionApproval (id : Uuid) (actor : Actor) (actorScope : Scope)
      (actionType : ActionType) (resourceType : ResourceType) (resourceId : Uuid)
      (resourceStateVersion : String) (expiresAt : Time) (idempotencyKey : String)
      (reasonCode : Option ReasonCode)
  | revokeProductionApproval (id : Uuid) (actor : Actor) (actorScope : Scope)
      (reasonCode : ReasonCode)
  | requestResume (ids : ResumeIds) (actor : Actor) (actorScope : Scope) (clarificationId : Uuid)
      (idempotencyKey : String) (expiresAt : Time)
      (productionApprovalReference : Option Reference)
  | authorizeResume (eventId id : Uuid) (actor : Actor) (actorScope : Scope)
      (policyVersion : String)
  | rejectResume (eventId id : Uuid) (actor : Actor) (actorScope : Scope)
      (reasonCode : ReasonCode)
  | cancelResume (eventId id : Uuid) (actor : Actor) (actorScope : Scope)
  | prepareExecution (eventId id : Uuid) (actor : Actor) (actorScope : Scope)
  | confirmResumed (eventId id commandId : Uuid)
  | confirmFailed (eventId id commandId : Uuid) (reasonCode : ReasonCode)
  | expireDueRequests (before : Time) (limit : Nat) (rank : Uuid → Nat)
  | requestReplay (ids : ReplayIds) (actor : Actor) (actorScope : Scope) (outboxEventId : Uuid)
      (idempotencyKey : String) (expiresAt : Time)
      (productionApprovalReference : Option Reference)
  | authorizeReplay (eventId id : Uuid) (actor : Actor) (actorScope : Scope)
      (policyVersion : String)
  | rejectReplay (eventId id : Uuid) (actor : Actor) (actorScope : Scope)
      (reasonCode : ReasonCode)
  | cancelReplay (eventId id : Uuid) (actor : Actor) (actorScope : Scope)
  | executeAuthorizedReplay (eventId id : Uuid) (actor : Actor) (actorScope : Scope)
      (readinessProvider : Destination → Readiness)
  | expireDueReplayRequests (before : Time) (limit : Nat) (rank : Uuid → Nat)
  | insertLifecycleOutboxEvent (eventId clarificationId taskId : Uuid) (eventType : EventType)
      (idempotencyKey : String) (payload : List (String × PayloadValue))
  | publishOne (skipped : Uuid → Bool) (result : PublishResult)
  | replayDead (eventId : Uuid)
  | createClarification (id taskId : Uuid) (dueAt reminderAt : Time)
  | openTaskClarification (taskId : Uuid)
  | claimClarificationAnswer (id : Uuid)
  | setAnswerMessage (id answerMessageId : Uuid)
  | answerTaskClarification (taskId : Uuid)
  | claimOneReminder (skipped : Uuid → Bool) (eventId : Uuid)
  | claimOneExpiry (skipped : Uuid → Bool) (eventId : Uuid)
  /-- The clock of the database moves on. -/
  | tick (elapsed : Time)
  /-- The task API creates or changes a task. -/
  | saveTask (id : Uuid) (row : Task)
  /-- A clarification becomes eligible for a resume. -/
  | markResumeEligible (id : Uuid) (eligibleAt : Time)

/-- What a transaction returns. -/
inductive Reply where
  | service (r : ServiceResult)
  | approval (r : ApprovalResult)
  | resume (r : ResumeResult)
  | replay (r : ReplayResult)
  | relay (r : RelayOutcome)
  | replayed (r : Bool)
  | poll (r : PollOutcome)
  | clarification (r : Option Clarification)
  | task (r : Option Task)
  | count (n : Nat)
  | done
deriving Repr, DecidableEq

/-- The clock moves on by `elapsed`. -/
def tick (elapsed : Time) : TaskTxn Unit :=
  Txn.modify fun s => { s with now := s.now + elapsed }

/-- The task API writes a row. -/
def saveTask (id : Uuid) (row : Task) : TaskTxn Unit := do
  Txn.lockRow (.task id)
  Txn.modify (At.tasks.insert id row)

/-- What becoming eligible sets. -/
def Clarification.eligibleRow (eligibleAt : Time) (c : Clarification) : Clarification :=
  { c with resumeEligibleAt := some eligibleAt }

/-- A clarification becomes eligible for a resume. -/
def markResumeEligible (id : Uuid) (eligibleAt : Time) : TaskTxn (Option Clarification) :=
  At.clarifications.update id (fun _ => true) (Clarification.eligibleRow eligibleAt)
    Clarification.check clarificationsViolation

/-- The program of each transaction. -/
def program (cfg : Settings) : Call → TaskTxn Reply
  | .requestAuthorization id actor actorScope resourceScope actionType resourceType resourceId
      version expiresAt key productionEffect reference => do
    let r ← requestAuthorization id actor actorScope resourceScope actionType resourceType
      resourceId version expiresAt key productionEffect reference
    return .service r
  | .authorize id actor actorScope policyVersion => do
    let r ← authorize id actor actorScope policyVersion
    return .service r
  | .decideSimple op id actor actorScope => do
    let r ← decideSimple op id actor actorScope
    return .service r
  | .consume id actor actorScope version => do
    let r ← consume id actor actorScope version
    return .service r
  | .expireDueAuthorizations limit rank => do
    let n ← expireDueAuthorizations limit rank
    return .count n
  | .grantProductionApproval id actor actorScope actionType resourceType resourceId version
      expiresAt key reasonCode => do
    let r ← grantProductionApproval id actor actorScope actionType resourceType resourceId version
      expiresAt key reasonCode
    return .approval r
  | .revokeProductionApproval id actor actorScope reasonCode => do
    let r ← revokeProductionApproval id actor actorScope reasonCode
    return .approval r
  | .requestResume ids actor actorScope clarificationId key expiresAt reference => do
    let r ← requestResume cfg ids actor actorScope clarificationId key expiresAt reference
    return .resume r
  | .authorizeResume eventId id actor actorScope policyVersion => do
    let r ← authorizeResume cfg eventId id actor actorScope policyVersion
    return .resume r
  | .rejectResume eventId id actor actorScope reasonCode => do
    let r ← rejectResume cfg eventId id actor actorScope reasonCode
    return .resume r
  | .cancelResume eventId id actor actorScope => do
    let r ← cancelResume cfg eventId id actor actorScope
    return .resume r
  | .prepareExecution eventId id actor actorScope => do
    let r ← prepareExecution cfg eventId id actor actorScope
    return .resume r
  | .confirmResumed eventId id commandId => do
    let r ← confirmResumed eventId id commandId
    return .resume r
  | .confirmFailed eventId id commandId reasonCode => do
    let r ← confirmFailed eventId id commandId reasonCode
    return .resume r
  | .expireDueRequests before limit rank => do
    let n ← expireDueRequests before limit rank
    return .count n
  | .requestReplay ids actor actorScope outboxEventId key expiresAt reference => do
    let r ← requestReplay cfg ids actor actorScope outboxEventId key expiresAt reference
    return .replay r
  | .authorizeReplay eventId id actor actorScope policyVersion => do
    let r ← authorizeReplay cfg eventId id actor actorScope policyVersion
    return .replay r
  | .rejectReplay eventId id actor actorScope reasonCode => do
    let r ← rejectReplay cfg eventId id actor actorScope reasonCode
    return .replay r
  | .cancelReplay eventId id actor actorScope => do
    let r ← cancelReplay cfg eventId id actor actorScope
    return .replay r
  | .executeAuthorizedReplay eventId id actor actorScope readinessProvider => do
    let r ← executeAuthorizedReplay cfg eventId id actor actorScope readinessProvider
    return .replay r
  | .expireDueReplayRequests before limit rank => do
    let n ← expireDueReplayRequests before limit rank
    return .count n
  | .insertLifecycleOutboxEvent eventId clarificationId taskId eventType key payload => do
    let _ ← insertLifecycleOutboxEvent eventId clarificationId taskId eventType key payload
    return .done
  | .publishOne skipped result => do
    let r ← publishOne skipped result
    return .relay r
  | .replayDead eventId => do
    let r ← replayDead eventId
    return .replayed r
  | .createClarification id taskId dueAt reminderAt => do
    createClarification id taskId dueAt reminderAt
    return .done
  | .openTaskClarification taskId => do
    let r ← openTaskClarification taskId
    return .task r
  | .claimClarificationAnswer id => do
    let r ← claimClarificationAnswer id
    return .clarification r
  | .setAnswerMessage id answerMessageId => do
    let r ← setAnswerMessage id answerMessageId
    return .clarification r
  | .answerTaskClarification taskId => do
    let r ← answerTaskClarification taskId
    return .task r
  | .claimOneReminder skipped eventId => do
    let r ← claimOneReminder skipped eventId
    return .poll r
  | .claimOneExpiry skipped eventId => do
    let r ← claimOneExpiry skipped eventId
    return .poll r
  | .tick elapsed => do
    tick elapsed
    return .done
  | .saveTask id row => do
    saveTask id row
    return .done
  | .markResumeEligible id eligibleAt => do
    let r ← markResumeEligible id eligibleAt
    return .clarification r

/-- A system of sessions over the task database. -/
abbrev TaskSys (ι : Type) := Sys Db Lock Failure Reply Call ι

/-- A commit of one. -/
abbrev TaskCommit := Commit Db Reply Call

end AiAgentsSwd.Tasks
