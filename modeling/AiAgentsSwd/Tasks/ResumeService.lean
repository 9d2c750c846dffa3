import AiAgentsSwd.Tasks.AuthorizationService
import AiAgentsSwd.Tasks.Outbox

/-!
# Tasks.ResumeService — operator-controlled resume of a clarification

Model of `shared/sdk/tasks/resume_request_model.py`,
`shared/sdk/tasks/resume_request_repository.py` and `shared/sdk/tasks/resume_service.py`.

A clarification's `resume_requested_at` is the live marker of its current request:
`request_resume` claims it, `release_clarification_resume_markers` clears it.
-/

namespace AiAgentsSwd.Tasks

open Planning (Uuid Time)
open ReadCommitted

/-- The server-side gates and limits, which come from the environment. -/
structure Settings where
  resumeApiEnabled : Bool
  resumeCommandEnabled : Bool
  replayApiEnabled : Bool
  replayExecutionEnabled : Bool
  maxSuccessfulReplaysPerEvent : Nat := 3
  rateLimitWindowHours : Nat := 24
  maxRequestsPerActorPerWindow : Nat := 10

/-- `ResumeResult`. -/
structure ResumeResult where
  ok : Bool
  resultKind : ResultKind
  reasonCode : ReasonCode
  resumeRequest : Option (Uuid × ResumeRequest) := none
  commandId : Option Uuid := none
deriving Repr, DecidableEq

def ResumeResult.deny (kind : ResultKind) (reason : ReasonCode) : ResumeResult :=
  ⟨false, kind, reason, none, none⟩

/-! ## Model -/

/-- `TERMINAL_TASK_STATUSES`. -/
def terminalTaskStatuses : List TaskStatus :=
  [.canceled, .rejected, .archived, .failed, .accepted, .clarificationExpired]

/-- `BLOCKING_CLARIFICATION_STATUSES`. -/
def blockingClarificationStatuses : List ClarificationStatus := [.expired, .canceled]

/-- `resource_state_version(clarification_row, task_row)`. -/
def resourceStateVersion (clar : Clarification) (task : Task) : String :=
  toString clar.status ++ ":" ++ (clar.answerMessageId.map toString).getD "-" ++ ":" ++
    (if task.productionEffect then "True" else "False")

/-- `_eligibility_denial(clar, task)`. -/
def eligibilityDenial (clar : Clarification) (task : Task) : Option ReasonCode :=
  if blockingClarificationStatuses.contains clar.status then some .clarificationBlocked
  else if clar.status ≠ .answered then some .clarificationNotAnswered
  else if clar.resumeEligibleAt.isNone then some .resumeNotEligible
  else if terminalTaskStatuses.contains task.status then some .resourceTerminal
  else none

/-! ## Repository -/

/-- The failures of the statements on `operator_clarification_requests` and `resume_requests`
whose new row is invalid. -/
def clarificationsViolation : Failure := .checkViolation "operator_clarification_requests"

def resumeRequestsViolation : Failure := .checkViolation "resume_requests"

/-- `lock_clarification(conn, clarification_id)`. -/
def lockClarification (clarificationId : Uuid) : TaskTxn (Option Clarification) :=
  At.clarifications.selectForUpdate clarificationId fun _ => true

/-- `lock_task(conn, task_id)`. -/
def lockTask (taskId : Uuid) : TaskTxn (Option Task) :=
  At.tasks.selectForUpdate taskId fun _ => true

/-- What `claim_clarification_resume_requested` sets. -/
def Clarification.claimedRow (requestedBy : String) (now : Time) (c : Clarification) :
    Clarification :=
  { c with
    resumeRequestedAt := some now
    resumeRequestedBy := some requestedBy }

/-- `claim_clarification_resume_requested(conn, clarification_id, requested_by)`. -/
def claimClarificationResumeRequested (clarificationId : Uuid) (requestedBy : String) :
    TaskTxn (Option Clarification) := do
  let now ← statementTimestamp
  At.clarifications.update clarificationId (fun c => c.resumeRequestedAt.isNone)
    (Clarification.claimedRow requestedBy now) Clarification.check clarificationsViolation

/-- What `mark_clarification_resume_authorized` sets. -/
def Clarification.authorizedRow (now : Time) (c : Clarification) : Clarification :=
  { c with resumeAuthorizedAt := some now }

/-- `mark_clarification_resume_authorized(conn, clarification_id)`. -/
def markClarificationResumeAuthorized (clarificationId : Uuid) :
    TaskTxn (Option Clarification) := do
  let now ← statementTimestamp
  At.clarifications.update clarificationId
    (fun c => c.resumeAuthorizedAt.isNone && c.resumeEligibleAt.isSome)
    (Clarification.authorizedRow now) Clarification.check clarificationsViolation

/-- What `release_clarification_resume_markers` sets. -/
def Clarification.releasedRow (c : Clarification) : Clarification :=
  { c with
    resumeRequestedAt := none
    resumeRequestedBy := none
    resumeAuthorizedAt := none }

/-- `release_clarification_resume_markers(conn, clarification_id)`. -/
def releaseClarificationResumeMarkers (clarificationId : Uuid) : TaskTxn Unit := do
  let _ ← At.clarifications.update clarificationId (fun _ => true) Clarification.releasedRow
    Clarification.check clarificationsViolation

/-- `insert_resume_request(conn, …)`. -/
def insertResumeRequest (id : Uuid) (row : ResumeRequest) : TaskTxn Unit := do
  if !row.check then Txn.raise resumeRequestsViolation
  else if ← At.resumeRequests.taken id then Txn.raise (.uniqueViolation "resume_requests_pkey")
  else if ← At.resumeRequests.conflict (.resumeRequestKey row.idempotencyKey)
      (fun r => r.idempotencyKey == row.idempotencyKey) then
    Txn.raise (.uniqueViolation "uq_rr_idempotency_key")
  else if ← At.resumeRequests.conflict (.activeResumeRequest row.clarificationId)
      (fun r => r.active && r.clarificationId == row.clarificationId) then
    Txn.raise (.uniqueViolation "uq_rr_active_per_clarification")
  else Txn.modify (At.resumeRequests.insert id row)

/-- `lock_resume_request(conn, resume_request_id, …)`. -/
def lockResumeRequest (resumeRequestId : Uuid) (scope : Scope) : TaskTxn (Option ResumeRequest) :=
  At.resumeRequests.selectForUpdate resumeRequestId fun r => inScope scope r.scope

/-- `UPDATE resume_requests SET … WHERE resume_request_id=… AND state=… AND <scope>`: what the
actor-facing transitions share. -/
def transitionResumeRequest (resumeRequestId : Uuid) (source : ResumeState) (scope : Scope)
    (set : Time → ResumeRequest → ResumeRequest) : TaskTxn (Option ResumeRequest) := do
  let now ← statementTimestamp
  At.resumeRequests.update resumeRequestId (fun r => r.state == source && inScope scope r.scope)
    (set now) ResumeRequest.check resumeRequestsViolation

/-- What `transition_to_authorized` sets. -/
def ResumeRequest.authorizedRow (now : Time) (r : ResumeRequest) : ResumeRequest :=
  { r with
    state := .authorized
    authorizedAt := some now }

/-- What `transition_to_rejected` sets. -/
def ResumeRequest.rejectedRow (reasonCode : ReasonCode) (_ : Time) (r : ResumeRequest) :
    ResumeRequest :=
  { r with
    state := .rejected
    failureReasonCode := some reasonCode }

/-- What `transition_to_canceled` sets. -/
def ResumeRequest.canceledRow (now : Time) (r : ResumeRequest) : ResumeRequest :=
  { r with
    state := .canceled
    canceledAt := some now }

/-- What `transition_to_execution_pending` sets. -/
def ResumeRequest.executionPendingRow (commandId : Uuid) (now : Time) (r : ResumeRequest) :
    ResumeRequest :=
  { r with
    state := .executionPending
    executionRequestedAt := some now
    commandId := some commandId }

/-- `UPDATE resume_requests SET … WHERE resume_request_id=… AND state='execution_pending' AND
command_id=…`: what the two confirmations share. -/
def confirmResumeRequest (resumeRequestId commandId : Uuid)
    (set : Time → ResumeRequest → ResumeRequest) : TaskTxn (Option ResumeRequest) := do
  let now ← statementTimestamp
  At.resumeRequests.update resumeRequestId
    (fun r => r.state == .executionPending && r.commandId == some commandId)
    (set now) ResumeRequest.check resumeRequestsViolation

/-- What `confirm_resumed` sets. -/
def ResumeRequest.resumedRow (now : Time) (r : ResumeRequest) : ResumeRequest :=
  { r with
    state := .resumed
    resumedAt := some now }

/-- What `confirm_failed` sets. -/
def ResumeRequest.failedRow (reasonCode : ReasonCode) (now : Time) (r : ResumeRequest) :
    ResumeRequest :=
  { r with
    state := .failed
    failedAt := some now
    failureReasonCode := some reasonCode }

/-- The rows the inner `SELECT` of `expire_due_requests` takes. -/
def ResumeRequest.expirable (r : ResumeRequest) : Bool :=
  r.state == .authorizationPending || r.state == .authorized

/-- The rows whose authorization has expired by `before`: the join of `expire_due_requests`. -/
def ResumeRequest.due (authorizations : Keyed.Table Uuid Authorization) (before : Time)
    (r : ResumeRequest) : Bool :=
  r.expirable && (authorizations.find? r.authorizationId).any fun a => a.expiresAt ≤ before

/-- What `expire_due_requests` sets. -/
def ResumeRequest.expiredRow (now : Time) (r : ResumeRequest) : ResumeRequest :=
  { r with
    state := .expired
    expiredAt := some now }

/-- `expire_due_requests(conn, before, limit)`; `rank` is the order in which the inner `SELECT`
meets the rows. -/
def expireDueRequests (before : Time) (limit : Nat) (rank : Uuid → Nat) : TaskTxn Nat := do
  let now ← statementTimestamp
  let authorizations ← Txn.select Db.authorizations
  let ids ← Txn.select (At.resumeRequests.selectLimit ResumeRequest.expirable rank limit)
  At.resumeRequests.updateEach (ResumeRequest.due authorizations before)
    (ResumeRequest.expiredRow now) ResumeRequest.check resumeRequestsViolation ids

/-! ## Service -/

section Service

variable (cfg : Settings)

/-- The ids that one `request_resume` draws. -/
structure ResumeIds where
  authorizationId : Uuid
  resumeRequestId : Uuid
  eventId : Uuid
deriving Repr, DecidableEq

/-- `request_resume(conn, actor, actor_scope, clarification_id, …)`. -/
def requestResume (ids : ResumeIds) (actor : Actor) (actorScope : Scope) (clarificationId : Uuid)
    (idempotencyKey : String) (expiresAt : Time)
    (productionApprovalReference : Option Reference) : TaskTxn ResumeResult := do
  if !cfg.resumeApiEnabled then return .deny .featureDisabled .featureDisabled
  else
    match ← At.resumeRequests.selectBy (fun r => r.idempotencyKey == idempotencyKey) with
    | some existing =>
      if existing.2.scope = actorScope then
        return ⟨true, .ok, .operatorRequested, some existing, none⟩
      else return .deny .notFoundMasked .resourceNotFound
    | none =>
      let pre := evaluate (.request .resume) actor actorScope actorScope
      if !pre.allowed then return .deny pre.resultKind pre.reasonCode
      else
        match ← lockClarification clarificationId with
        | none => return .deny .notFoundMasked .resourceNotFound
        | some clar =>
          match ← lockTask clar.taskId with
          | none => return .deny .notFoundMasked .resourceNotFound
          | some task =>
            if task.projectId.isSome ∧ task.projectId ≠ actorScope.projectId then
              return .deny .notFoundMasked .resourceNotFound
            else
              match eligibilityDenial clar task with
              | some reason => return .deny .notEligible reason
              | none =>
                -- the marker is the atomic guard: the loser of a race ends here
                match ← claimClarificationResumeRequested clarificationId actor.principalId with
                | none => return .deny .conflict .activeRequestExists
                | some _ =>
                  let version := resourceStateVersion clar task
                  let auth ← requestAuthorization ids.authorizationId actor actorScope actorScope
                    .resume .clarification clarificationId version expiresAt
                    ("resume-auth:" ++ toString clarificationId ++ ":" ++ idempotencyKey)
                    task.productionEffect productionApprovalReference
                  match auth.authorization with
                  | none =>
                    if auth.resultKind = .conflict then
                      return .deny .conflict .activeRequestExists
                    else return .deny auth.resultKind auth.reasonCode
                  | some (authorizationId, _) =>
                    match actorScope with
                    | ⟨some teamId, some projectId⟩ =>
                      let now ← statementTimestamp
                      let row : ResumeRequest :=
                        { authorizationId, clarificationId, teamId, projectId, idempotencyKey
                          taskId := clar.taskId
                          resourceStateVersion := version
                          requestedBy := actor.principalId
                          requestedAt := now }
                      insertResumeRequest ids.resumeRequestId row
                      let _ ← insertLifecycleOutboxEvent ids.eventId clarificationId clar.taskId
                        .resumeRequested (toString clarificationId ++ ":resume_requested:" ++
                          toString ids.resumeRequestId)
                        [("resume_request_id", .id ids.resumeRequestId),
                          ("resource_state_version", .text version),
                          ("resume_requested_by", .text actor.principalId),
                          ("reason", .text "operator_requested")]
                      return ⟨true, .ok, .operatorRequested,
                        some (ids.resumeRequestId, row), none⟩
                    | _ => Txn.raise (.notNullViolation "resume_requests")

/-- `authorize_resume(conn, resume_request_id, …)`. -/
def authorizeResume (eventId resumeRequestId : Uuid) (actor : Actor) (actorScope : Scope)
    (policyVersion : String) : TaskTxn ResumeResult := do
  if !cfg.resumeApiEnabled then return .deny .featureDisabled .featureDisabled
  else
    match ← lockResumeRequest resumeRequestId actorScope with
    | none => return .deny .notFoundMasked .resourceNotFound
    | some rr =>
      if rr.state ≠ .authorizationPending then
        return .deny .invalidTransition (.alreadyResume rr.state)
      else
        let clar ← lockClarification rr.clarificationId
        let task ← lockTask rr.taskId
        match clar, task with
        | some clar, some task =>
          if terminalTaskStatuses.contains task.status then return .deny .conflict .resourceTerminal
          else if resourceStateVersion clar task ≠ rr.resourceStateVersion then
            return .deny .staleState .staleState
          else
            let outcome ← authorize rr.authorizationId actor actorScope policyVersion
            if !outcome.ok then return .deny outcome.resultKind outcome.reasonCode
            else
              let _ ← markClarificationResumeAuthorized rr.clarificationId
              match ← transitionResumeRequest resumeRequestId .authorizationPending actorScope
                  ResumeRequest.authorizedRow with
              | none => return .deny .conflict .conflict
              | some updated =>
                let _ ← insertLifecycleOutboxEvent eventId rr.clarificationId rr.taskId
                  .resumeAuthorized (toString rr.clarificationId ++ ":resume_authorized:" ++
                    toString resumeRequestId)
                  [("resume_request_id", .id resumeRequestId),
                    ("authorization_id", .id rr.authorizationId), ("reason", .text "policy_allow")]
                return ⟨true, .ok, .policyAllow, some (resumeRequestId, updated), none⟩
        | _, _ => return .deny .notFoundMasked .resourceNotFound

/-- What `reject_resume` and `cancel_resume` do once the request may be declined: decide the
authorization, end the request, release the markers. -/
def declineResume (eventId resumeRequestId : Uuid) (rr : ResumeRequest) (actor : Actor)
    (actorScope : Scope) (op : SimpleOp) (set : Time → ResumeRequest → ResumeRequest)
    (eventType : EventType) (keyInfix reasonText : String) (reason : ReasonCode) :
    TaskTxn ResumeResult := do
  let outcome ← decideSimple op rr.authorizationId actor actorScope
  if !outcome.ok then return .deny outcome.resultKind outcome.reasonCode
  else
    match ← transitionResumeRequest resumeRequestId .authorizationPending actorScope set with
    | none => return .deny .conflict .conflict
    | some updated =>
      releaseClarificationResumeMarkers rr.clarificationId
      let _ ← insertLifecycleOutboxEvent eventId rr.clarificationId rr.taskId eventType
        (toString rr.clarificationId ++ keyInfix ++ toString resumeRequestId)
        [("resume_request_id", .id resumeRequestId), ("reason", .text reasonText)]
      return ⟨true, .ok, reason, some (resumeRequestId, updated), none⟩

/-- `reject_resume(conn, resume_request_id, …)`. -/
def rejectResume (eventId resumeRequestId : Uuid) (actor : Actor) (actorScope : Scope)
    (reasonCode : ReasonCode) : TaskTxn ResumeResult := do
  if !cfg.resumeApiEnabled then return .deny .featureDisabled .featureDisabled
  else
    match ← lockResumeRequest resumeRequestId actorScope with
    | none => return .deny .notFoundMasked .resourceNotFound
    | some rr =>
      if rr.state ≠ .authorizationPending then
        return .deny .invalidTransition (.alreadyResume rr.state)
      else
        declineResume eventId resumeRequestId rr actor actorScope .reject
          (ResumeRequest.rejectedRow reasonCode) .resumeRejected ":resume_rejected:"
          (toString reasonCode) reasonCode

/-- `cancel_resume(conn, resume_request_id, …)`: an operator its own request, a platform admin
any. -/
def cancelResume (eventId resumeRequestId : Uuid) (actor : Actor) (actorScope : Scope) :
    TaskTxn ResumeResult := do
  if !cfg.resumeApiEnabled then return .deny .featureDisabled .featureDisabled
  else
    match ← lockResumeRequest resumeRequestId actorScope with
    | none => return .deny .notFoundMasked .resourceNotFound
    | some rr =>
      if actor.role ≠ .platformAdmin ∧ rr.requestedBy ≠ actor.principalId then
        return .deny .forbidden .rbacDenied
      else if rr.state ≠ .authorizationPending then
        return .deny .invalidTransition (.alreadyResume rr.state)
      else
        declineResume eventId resumeRequestId rr actor actorScope .cancel
          ResumeRequest.canceledRow .resumeCanceled ":resume_canceled:" "operator_canceled"
          .operatorCanceled

/-- `prepare_execution(conn, resume_request_id, …)`. -/
def prepareExecution (eventId resumeRequestId : Uuid) (actor : Actor) (actorScope : Scope) :
    TaskTxn ResumeResult := do
  if !cfg.resumeCommandEnabled then return .deny .commandGateDisabled .commandGateDisabled
  else
    match ← lockResumeRequest resumeRequestId actorScope with
    | none => return .deny .notFoundMasked .resourceNotFound
    | some rr =>
      if rr.state ≠ .authorized then
        return .deny .invalidTransition (.invalidResume rr.state)
      else
        let clar ← lockClarification rr.clarificationId
        let task ← lockTask rr.taskId
        match clar, task with
        | some clar, some task =>
          if terminalTaskStatuses.contains task.status then return .deny .conflict .resourceTerminal
          else if resourceStateVersion clar task ≠ rr.resourceStateVersion then
            return .deny .staleState .staleState
          else
            let consumed ← consume rr.authorizationId actor actorScope rr.resourceStateVersion
            if !consumed.ok then return .deny consumed.resultKind consumed.reasonCode
            else
              let command ← insertLifecycleOutboxEvent eventId rr.clarificationId rr.taskId
                .resumeExecutionRequested (toString rr.clarificationId ++ ":resume_dispatched:" ++
                  toString resumeRequestId)
                [("resume_request_id", .id resumeRequestId),
                  ("authorization_id", .id rr.authorizationId),
                  ("resource_state_version", .text rr.resourceStateVersion)]
              match ← transitionResumeRequest resumeRequestId .authorized actorScope
                  (ResumeRequest.executionPendingRow command.1) with
              | none => return .deny .conflict .conflict
              | some updated =>
                return ⟨true, .ok, .policyAllow, some (resumeRequestId, updated), some command.1⟩
        | _, _ => return .deny .notFoundMasked .resourceNotFound

/-- `_classify_confirm_failure(conn, resume_request_id, command_id, …)`. -/
def classifyConfirmFailure (resumeRequestId commandId : Uuid) (target : ResumeState)
    (okReason : ReasonCode) : TaskTxn ResumeResult := do
  match ← At.resumeRequests.select resumeRequestId (fun _ => true) with
  | none => return .deny .notFoundMasked .resourceNotFound
  | some current =>
    if current.commandId.isSome ∧ current.commandId ≠ some commandId then
      return .deny .conflict .conflict
    else if current.state = target then
      return ⟨true, .ok, okReason, some (resumeRequestId, current), none⟩
    else if current.state = .resumed ∨ current.state = .failed then
      return .deny .conflict .conflict
    else return .deny .invalidTransition .invalidTransition

/-- What `confirm_resumed` and `confirm_failed` share. -/
def confirm (eventId resumeRequestId commandId : Uuid)
    (set : Time → ResumeRequest → ResumeRequest) (target : ResumeState) (eventType : EventType)
    (keyInfix : String) (okReason : ReasonCode) : TaskTxn ResumeResult := do
  match ← confirmResumeRequest resumeRequestId commandId set with
  | none => classifyConfirmFailure resumeRequestId commandId target okReason
  | some updated =>
    let _ ← insertLifecycleOutboxEvent eventId updated.clarificationId updated.taskId eventType
      (toString updated.clarificationId ++ keyInfix ++ toString resumeRequestId)
      [("resume_request_id", .id resumeRequestId), ("command_id", .id commandId)]
    return ⟨true, .ok, okReason, some (resumeRequestId, updated), none⟩

/-- `confirm_resumed(conn, resume_request_id, command_id)`. -/
def confirmResumed (eventId resumeRequestId commandId : Uuid) : TaskTxn ResumeResult :=
  confirm eventId resumeRequestId commandId ResumeRequest.resumedRow .resumed .resumeResumed
    ":resume_resumed:" .orchestratorConfirmedResumed

/-- `confirm_failed(conn, resume_request_id, command_id, reason_code)`. -/
def confirmFailed (eventId resumeRequestId commandId : Uuid) (reasonCode : ReasonCode) :
    TaskTxn ResumeResult :=
  confirm eventId resumeRequestId commandId (ResumeRequest.failedRow reasonCode) .failed
    .resumeFailed ":resume_failed:" .orchestratorConfirmedFailed

end Service

end AiAgentsSwd.Tasks
