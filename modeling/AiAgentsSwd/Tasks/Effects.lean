import AiAgentsSwd.Tasks.Guarantee

/-!
# Tasks.Effects — what a committed transaction has done

`Effect c r s t` says what a commit of the call `c` with the reply `r` may do to the
committed database `s`: one constructor for each way a transaction writes, with everything it
knows about `s` at its commit. Later proofs are by cases on it and never look at a program.

The parts that several transactions share come first.
-/

namespace AiAgentsSwd.Tasks

open Planning (Uuid Time)
open ReadCommitted

/-! ## The parts -/

/-- The row of a new request. -/
def requestedAuthorization (actor : Actor) (teamId projectId : Uuid) (actionType : ActionType)
    (resourceType : ResourceType) (resourceId : Uuid) (resourceStateVersion : String)
    (expiresAt : Time) (idempotencyKey : String) (productionEffect : Bool)
    (productionApprovalReference : Option Reference) (now : Time) : Authorization :=
  { actionType, resourceType, resourceId, teamId, projectId
    requestedBy := actor.principalId
    requestedRole := actor.role
    requestedAt := now
    resourceStateVersion, productionEffect, productionApprovalReference, expiresAt
    idempotencyKey }

/-- What is known when a new authorization goes in. -/
structure Requests (s : Db) (id : Uuid) (actor : Actor) (scope : Scope) (a : Authorization) :
    Prop where
  absent : s.authorizations.find? id = none
  allowed : (evaluate (.request a.actionType) actor scope a.scope).allowed = true
  key_free : ∀ k x, s.authorizations.find? k = some x →
    (x.idempotencyKey == a.idempotencyKey) = false
  active_free : ∀ k x, s.authorizations.find? k = some x →
    (x.active && x.actionType == a.actionType && x.resourceId == a.resourceId) = false
  check : a.check = true
  requested_le : a.requestedAt ≤ s.now

/-- What is known when `authorize` decides the row `a`. -/
structure Approves (s : Db) (id : Uuid) (actor : Actor) (scope : Scope) (policyVersion : String)
    (now : Time) (a : Authorization) : Prop where
  row : s.authorizations.find? id = some a
  undecided : a.undecided scope = true
  allowed : (evaluate (.authorize a.actionType) actor scope a.scope
    (some a.requestedBy)).allowed = true
  check : (a.approvedRow actor policyVersion now).check = true
  now_le : now ≤ s.now

namespace SimpleOp

/-- The guard of each statement. -/
def guard : SimpleOp → Scope → Authorization → Bool
  | revoke, scope, a => a.open && inScope scope a.scope
  | _, scope, a => a.undecided scope

/-- What each statement sets. -/
def row : SimpleOp → Actor → Time → Authorization → Authorization
  | reject, actor, now, a => a.declinedRow .rejected actor reject.reasonCode now
  | cancel, actor, now, a => a.declinedRow .canceled actor cancel.reasonCode now
  | revoke, actor, now, a => a.revokedRow actor.principalId revoke.reasonCode now

end SimpleOp

/-- What is known when `reject`, `cancel` or `revoke` decides the row `a`. -/
structure Decides (s : Db) (op : SimpleOp) (id : Uuid) (actor : Actor) (scope : Scope)
    (now : Time) (a : Authorization) : Prop where
  row : s.authorizations.find? id = some a
  guard : op.guard scope a = true
  allowed : (evaluate (op.action a.actionType) actor scope a.scope).allowed = true
  check : (op.row actor now a).check = true
  now_le : now ≤ s.now

/-- What is known when `consume` takes the row `a`. -/
structure Consumes (s : Db) (id : Uuid) (actor : Actor) (scope : Scope) (version : String)
    (now : Time) (a : Authorization) : Prop where
  row : s.authorizations.find? id = some a
  consumable : a.consumable version scope now = true
  allowed : (evaluate (.consume a.actionType) actor scope a.scope none a.productionEffect
    a.productionApprovalReference).allowed = true
  check : (a.consumedRow actor.principalId now).check = true
  now_le : now ≤ s.now

/-- What is known when an approval is used for the authorization `a`. -/
structure Spends (s : Db) (id : Uuid) (a : Authorization) (version : String) (now : Time)
    (p : Approval) : Prop where
  row : s.approvals.find? id = some p
  state : p.state = .granted
  unconsumed : p.consumedAt = none
  unrevoked : p.revokedAt = none
  unexpired : now < p.expiresAt
  bound : p.boundTo a version = true
  now_le : now ≤ s.now

/-- The writes of `consume`: the authorization alone, or with the approval that a production
effect needs. -/
inductive Consumption (s : Db) (id : Uuid) (actor : Actor) (scope : Scope) (version : String) :
    (Db → Db) → Prop where
  | plain {a : Authorization} {now : Time} (h : Consumes s id actor scope version now a)
      (hp : a.productionEffect = false) :
      Consumption s id actor scope version
        (At.authorizations.modify id (Authorization.consumedRow actor.principalId now))
  | approved {a : Authorization} {now now' : Time} {approvalId : Uuid} {p : Approval}
      (h : Consumes s id actor scope version now a) (hp : a.productionEffect = true)
      (href : a.productionApprovalReference = some (.approval approvalId))
      (hspend : Spends s approvalId a version now' p) :
      Consumption s id actor scope version
        (At.authorizations.modify id (Authorization.consumedRow actor.principalId now) ∘
          At.approvals.modify approvalId (Approval.consumedRow actor.principalId id now'))

/-- The row of a new event. -/
def newOutboxEvent (clarificationId taskId : Uuid) (eventType : EventType)
    (idempotencyKey : String) (payload : List (String × PayloadValue)) (now : Time) : OutboxEvent :=
  { clarificationId, taskId, eventType, idempotencyKey, payload
    createdAt := now
    availableAt := now }

/-- What is known when a new event goes in. -/
structure Emits (s : Db) (id : Uuid) (o : OutboxEvent) : Prop where
  absent : s.outbox.find? id = none
  created_le : o.createdAt ≤ s.now

/-- What is known about the rows that a resume transaction has locked. -/
structure ResumeLocked (s : Db) (id : Uuid) (scope : Scope) (rr : ResumeRequest)
    (clar : Clarification) (task : Task) : Prop where
  request : s.resumeRequests.find? id = some rr
  in_scope : inScope scope rr.scope = true
  clarification : s.clarifications.find? rr.clarificationId = some clar
  task_row : s.tasks.find? rr.taskId = some task
  open_task : terminalTaskStatuses.contains task.status = false
  version : resourceStateVersion clar task = rr.resourceStateVersion

/-- How `request_authorization` ends for the two request services: with a new row, or with one
of the same key. -/
inductive Obtains (s : Db) (id : Uuid) (actor : Actor) (scope : Scope) (a : Authorization) :
    Uuid → (Db → Db) → Prop where
  | new (h : Requests s id actor scope a) :
      Obtains s id actor scope a id (At.authorizations.insert id a)
  | same_key {existing : Uuid} {x : Authorization}
      (h : s.authorizations.find? existing = some x)
      (hkey : x.idempotencyKey = a.idempotencyKey) :
      Obtains s id actor scope a existing fun s => s

/-- `reject_resume` and `cancel_resume`: the operation on the authorization, what the request
becomes and the event. -/
inductive ResumeDecline : Call → Uuid → Uuid → Actor → Scope → SimpleOp →
    (Time → ResumeRequest → ResumeRequest) → EventType → Prop where
  | reject (eventId id : Uuid) (actor : Actor) (scope : Scope) (reasonCode : ReasonCode) :
      ResumeDecline (.rejectResume eventId id actor scope reasonCode) eventId id actor scope
        .reject (ResumeRequest.rejectedRow reasonCode) .resumeRejected
  | cancel (eventId id : Uuid) (actor : Actor) (scope : Scope) :
      ResumeDecline (.cancelResume eventId id actor scope) eventId id actor scope
        .cancel ResumeRequest.canceledRow .resumeCanceled

/-- `confirm_resumed` and `confirm_failed`: what the request becomes and the event. -/
inductive ResumeConfirm : Call → Uuid → Uuid → Uuid → (Time → ResumeRequest → ResumeRequest) →
    EventType → Prop where
  | resumed (eventId id commandId : Uuid) :
      ResumeConfirm (.confirmResumed eventId id commandId) eventId id commandId
        ResumeRequest.resumedRow .resumeResumed
  | failed (eventId id commandId : Uuid) (reasonCode : ReasonCode) :
      ResumeConfirm (.confirmFailed eventId id commandId reasonCode) eventId id commandId
        (ResumeRequest.failedRow reasonCode) .resumeFailed

/-- `reject_replay` and `cancel_replay`. -/
inductive ReplayDecline : Call → Uuid → Uuid → Actor → Scope → SimpleOp →
    (Time → ReplayRequest → ReplayRequest) → EventType → Prop where
  | reject (eventId id : Uuid) (actor : Actor) (scope : Scope) (reasonCode : ReasonCode) :
      ReplayDecline (.rejectReplay eventId id actor scope reasonCode) eventId id actor scope
        .reject (ReplayRequest.rejectedRow reasonCode) .replayRejected
  | cancel (eventId id : Uuid) (actor : Actor) (scope : Scope) :
      ReplayDecline (.cancelReplay eventId id actor scope) eventId id actor scope
        .cancel ReplayRequest.canceledRow .replayCanceled

/-- What a reply says about a commit that wrote nothing. -/
def Quiet : Call → Reply → Prop
  | .consume _ _ _ _, r => ∀ x, r = .service x → x.ok = false
  | .requestResume _ _ _ _ _ _ _, r => r ≠ .resume (.deny .conflict .activeRequestExists)
  | .executeAuthorizedReplay _ _ _ _ _, r => ∀ x, r = .replay x → x.ok = false
  | .publishOne _ _, r => r = .relay .nothing
  | .replayDead _, r => r = .replayed false
  | .claimOneReminder _ _, r => r = .poll .nothing
  | .claimOneExpiry _ _, r => r = .poll .nothing
  | _, _ => True

/-! ## The effects -/

/-- What a commit has done. `Inv` is what held of every committed state on the way. -/
inductive Effect (cfg : Settings) (Inv : Db → Prop) : Call → Reply → Db → Db → Prop where
  | quiet {c : Call} {r : Reply} {s : Db} (h : Quiet c r) : Effect cfg Inv c r s s
  -- the rest of the program
  | ticked {s : Db} (elapsed : Time) :
      Effect cfg Inv (.tick elapsed) .done s { s with now := s.now + elapsed }
  | taskSaved {s : Db} (id : Uuid) (row : Task) :
      Effect cfg Inv (.saveTask id row) .done s (At.tasks.insert id row s)
  | madeEligible {s : Db} {r : Reply} {c : Clarification} (id : Uuid) (eligibleAt : Time)
      (hc : s.clarifications.find? id = some c) :
      Effect cfg Inv (.markResumeEligible id eligibleAt) r s
        (At.clarifications.modify id (Clarification.eligibleRow eligibleAt) s)
  -- authorizations and approvals
  | requested {s : Db} {r : Reply} {id : Uuid} {actor : Actor} {actorScope : Scope}
      {teamId projectId : Uuid} {t : ActionType} {resourceType : ResourceType} {resourceId : Uuid}
      {version key : String} {expiresAt now : Time} {production : Bool}
      {reference : Option Reference}
      (h : Requests s id actor actorScope (requestedAuthorization actor teamId projectId t
        resourceType resourceId version expiresAt key production reference now)) :
      Effect cfg Inv (.requestAuthorization id actor actorScope ⟨some teamId, some projectId⟩ t
          resourceType resourceId version expiresAt key production reference) r s
        (At.authorizations.insert id (requestedAuthorization actor teamId projectId t
          resourceType resourceId version expiresAt key production reference now) s)
  | authorized {s : Db} {r : Reply} {id : Uuid} {actor : Actor} {scope : Scope}
      {policyVersion : String} {now : Time} {a : Authorization}
      (h : Approves s id actor scope policyVersion now a) :
      Effect cfg Inv (.authorize id actor scope policyVersion) r s
        (At.authorizations.modify id (Authorization.approvedRow actor policyVersion now) s)
  | decided {s : Db} {r : Reply} {op : SimpleOp} {id : Uuid} {actor : Actor} {scope : Scope}
      {now : Time} {a : Authorization} (h : Decides s op id actor scope now a) :
      Effect cfg Inv (.decideSimple op id actor scope) r s
        (At.authorizations.modify id (op.row actor now) s)
  | consumed {s : Db} {r : Reply} {id : Uuid} {actor : Actor} {scope : Scope} {version : String}
      {u : Db → Db} (h : Consumption s id actor scope version u) :
      Effect cfg Inv (.consume id actor scope version) r s (u s)
  | authorizationsExpired {s : Db} {r : Reply} {limit : Nat} {rank : Uuid → Nat}
      {ids : List Uuid} {now : Time} (hnd : ids.Nodup) (hnow : now ≤ s.now)
      (h : ∀ k ∈ ids, ∃ a, s.authorizations.find? k = some a ∧ a.due now = true) :
      Effect cfg Inv (.expireDueAuthorizations limit rank) r s
        (At.authorizations.modifyAll ids (Authorization.expiredRow now) s)
  | granted {s : Db} {r : Reply} {id : Uuid} {actor : Actor} {teamId projectId : Uuid}
      {t : ActionType} {resourceType : ResourceType} {resourceId : Uuid} {version key : String}
      {expiresAt now : Time} {reason : Option ReasonCode}
      (habsent : s.approvals.find? id = none) (hcan : canGrant actor.role = true) :
      Effect cfg Inv (.grantProductionApproval id actor ⟨some teamId, some projectId⟩ t
          resourceType resourceId version expiresAt key reason) r s
        (At.approvals.insert id
          { actionType := t
            resourceType, resourceId, teamId, projectId
            resourceStateVersion := version
            grantedBy := actor.principalId
            grantedRole := actor.role
            grantedAt := now
            reasonCode := reason
            expiresAt
            idempotencyKey := key } s)
  | approvalRevoked {s : Db} {r : Reply} {id : Uuid} {actor : Actor} {scope : Scope}
      {reason : ReasonCode} {now : Time} {p : Approval} (hp : s.approvals.find? id = some p)
      (hstate : p.state = .granted) (hunconsumed : p.consumedAt = none) :
      Effect cfg Inv (.revokeProductionApproval id actor scope reason) r s
        (At.approvals.modify id (Approval.revokedRow actor.principalId reason now) s)
  -- resume
  | resumeRequested {s : Db} {r : Reply} {ids : ResumeIds} {actor : Actor} {teamId projectId : Uuid}
      {cid : Uuid} {key eventKey : String} {expiresAt now now₁ now₂ now₃ : Time}
      {reference : Option Reference} {clar : Clarification} {task : Task} {authorizationId : Uuid}
      {u : Db → Db} {row : ResumeRequest}
      (hc : s.clarifications.find? cid = some clar) (ht : s.tasks.find? clar.taskId = some task)
      (heligible : eligibilityDenial clar task = none) (hmarker : clar.resumeRequestedAt = none)
      (hauth : Obtains s ids.authorizationId actor ⟨some teamId, some projectId⟩
        (requestedAuthorization actor teamId projectId .resume .clarification cid
          (resourceStateVersion clar task) expiresAt
          ("resume-auth:" ++ toString cid ++ ":" ++ key) task.productionEffect reference now₁)
        authorizationId u)
      (hrow : row =
        { authorizationId, teamId, projectId
          clarificationId := cid
          idempotencyKey := key
          taskId := clar.taskId
          resourceStateVersion := resourceStateVersion clar task
          requestedBy := actor.principalId
          requestedAt := now₂ })
      (habsent : s.resumeRequests.find? ids.resumeRequestId = none)
      (hkey : ∀ k x, s.resumeRequests.find? k = some x → (x.idempotencyKey == key) = false)
      (hactive : ∀ k x, s.resumeRequests.find? k = some x →
        (x.active && x.clarificationId == cid) = false)
      (hcheck : row.check = true) (hr : r ≠ .resume (.deny .conflict .activeRequestExists))
      (hemit : Emits s ids.eventId (newOutboxEvent cid clar.taskId .resumeRequested eventKey
        [("resume_request_id", .id ids.resumeRequestId),
          ("resource_state_version", .text (resourceStateVersion clar task)),
          ("resume_requested_by", .text actor.principalId),
          ("reason", .text "operator_requested")] now₃)) :
      Effect cfg Inv (.requestResume ids actor ⟨some teamId, some projectId⟩ cid key expiresAt
          reference) r s
        (At.outbox.insert ids.eventId (newOutboxEvent cid clar.taskId .resumeRequested eventKey
          [("resume_request_id", .id ids.resumeRequestId),
            ("resource_state_version", .text (resourceStateVersion clar task)),
            ("resume_requested_by", .text actor.principalId),
            ("reason", .text "operator_requested")] now₃)
          (At.resumeRequests.insert ids.resumeRequestId row
            (u (At.clarifications.modify cid (Clarification.claimedRow actor.principalId now) s))))
  | resumeRefused {s : Db} {r : Reply} {ids : ResumeIds} {actor : Actor} {scope : Scope}
      {cid : Uuid} {key : String} {expiresAt : Time} {reference : Option Reference}
      {clar : Clarification} (hc : s.clarifications.find? cid = some clar)
      (hmarker : clar.resumeRequestedAt ≠ none) :
      Effect cfg Inv (.requestResume ids actor scope cid key expiresAt reference) r s s
  | resumeLate {s : Db} {r : Reply} {ids : ResumeIds} {actor : Actor} {scope : Scope}
      {cid : Uuid} {key : String} {expiresAt now : Time} {reference : Option Reference}
      {clar : Clarification} {t₁ : Db} {a : Authorization} {id : Uuid}
      (hc : s.clarifications.find? cid = some clar) (hinv : Inv t₁)
      (hc₁ : t₁.clarifications.find? cid = some clar) (hmarker : clar.resumeRequestedAt = none)
      (ha : t₁.authorizations.find? id = some a)
      (hactive : (a.active && a.actionType == .resume && a.resourceId == cid) = true) :
      Effect cfg Inv (.requestResume ids actor scope cid key expiresAt reference) r s
        (At.clarifications.modify cid (Clarification.claimedRow actor.principalId now) s)
  | resumeAuthorized {s : Db} {r : Reply} {eventId id : Uuid} {actor : Actor} {scope : Scope}
      {policyVersion eventKey : String} {now now₁ now₂ now₃ : Time} {rr : ResumeRequest}
      {clar : Clarification} {task : Task} {a : Authorization} {v : Db → Db}
      {payload : List (String × PayloadValue)}
      (h : ResumeLocked s id scope rr clar task) (hstate : rr.state = .authorizationPending)
      (hauth : Approves s rr.authorizationId actor scope policyVersion now a)
      (hmark : v = (fun s => s) ∨
        v = At.clarifications.modify rr.clarificationId (Clarification.authorizedRow now₁))
      (hcheck : (rr.authorizedRow now₂).check = true)
      (hemit : Emits s eventId (newOutboxEvent rr.clarificationId rr.taskId .resumeAuthorized
        eventKey payload now₃)) :
      Effect cfg Inv (.authorizeResume eventId id actor scope policyVersion) r s
        (At.outbox.insert eventId (newOutboxEvent rr.clarificationId rr.taskId .resumeAuthorized
            eventKey payload now₃)
          (At.resumeRequests.modify id (ResumeRequest.authorizedRow now₂)
            (v (At.authorizations.modify rr.authorizationId
              (Authorization.approvedRow actor policyVersion now) s))))
  | resumeDeclined {c : Call} {s : Db} {r : Reply} {eventId id : Uuid} {actor : Actor}
      {scope : Scope} {op : SimpleOp} {set : Time → ResumeRequest → ResumeRequest}
      {type : EventType} {eventKey : String} {now now₁ now₂ : Time} {rr : ResumeRequest}
      {a : Authorization} {payload : List (String × PayloadValue)} {v : Db → Db}
      (hc : ResumeDecline c eventId id actor scope op set type)
      (hrr : s.resumeRequests.find? id = some rr) (hscope : inScope scope rr.scope = true)
      (hstate : rr.state = .authorizationPending)
      (hauth : Decides s op rr.authorizationId actor scope now a)
      (hrelease : v = At.clarifications.modify rr.clarificationId Clarification.releasedRow ∨
        v = (fun s => s) ∧ ∃ t₁, Inv t₁ ∧ t₁.resumeRequests.find? id = some rr ∧
          t₁.clarifications.find? rr.clarificationId = none)
      (hcheck : (set now₁ rr).check = true)
      (hemit : Emits s eventId (newOutboxEvent rr.clarificationId rr.taskId type eventKey payload
        now₂)) :
      Effect cfg Inv c r s
        (At.outbox.insert eventId (newOutboxEvent rr.clarificationId rr.taskId type eventKey
            payload now₂)
          (v (At.resumeRequests.modify id (set now₁)
              (At.authorizations.modify rr.authorizationId (op.row actor now) s))))
  | executionPrepared {s : Db} {r : Reply} {eventId id : Uuid} {actor : Actor} {scope : Scope}
      {eventKey : String} {now₁ now₂ : Time} {rr : ResumeRequest} {clar : Clarification}
      {task : Task} {u : Db → Db}
      (h : ResumeLocked s id scope rr clar task) (hstate : rr.state = .authorized)
      (hauth : Consumption s rr.authorizationId actor scope rr.resourceStateVersion u)
      (hcheck : (rr.executionPendingRow eventId now₂).check = true)
      (hemit : Emits s eventId (newOutboxEvent rr.clarificationId rr.taskId
        .resumeExecutionRequested eventKey
        [("resume_request_id", .id id), ("authorization_id", .id rr.authorizationId),
          ("resource_state_version", .text rr.resourceStateVersion)] now₁)) :
      Effect cfg Inv (.prepareExecution eventId id actor scope) r s
        (At.resumeRequests.modify id (ResumeRequest.executionPendingRow eventId now₂)
          (At.outbox.insert eventId (newOutboxEvent rr.clarificationId rr.taskId
              .resumeExecutionRequested eventKey
              [("resume_request_id", .id id), ("authorization_id", .id rr.authorizationId),
                ("resource_state_version", .text rr.resourceStateVersion)] now₁)
            (u s)))
  | resumeConfirmed {c : Call} {s : Db} {r : Reply} {eventId id commandId : Uuid}
      {set : Time → ResumeRequest → ResumeRequest} {type : EventType} {eventKey : String}
      {now now₁ : Time} {rr : ResumeRequest} {payload : List (String × PayloadValue)}
      (hc : ResumeConfirm c eventId id commandId set type)
      (hrr : s.resumeRequests.find? id = some rr) (hstate : rr.state = .executionPending)
      (hcommand : rr.commandId = some commandId) (hcheck : (set now rr).check = true)
      (hemit : Emits s eventId (newOutboxEvent rr.clarificationId rr.taskId type eventKey payload
        now₁)) :
      Effect cfg Inv c r s
        (At.outbox.insert eventId (newOutboxEvent rr.clarificationId rr.taskId type eventKey
            payload now₁)
          (At.resumeRequests.modify id (set now) s))
  | resumesExpired {s : Db} {r : Reply} {before : Time} {limit : Nat} {rank : Uuid → Nat}
      {ids : List Uuid} {now : Time} (hnd : ids.Nodup) (hnow : now ≤ s.now)
      (h : ∀ k ∈ ids, ∃ rr, s.resumeRequests.find? k = some rr ∧ rr.expirable = true ∧
        (rr.expiredRow now).check = true) :
      Effect cfg Inv (.expireDueRequests before limit rank) r s
        (At.resumeRequests.modifyAll ids (ResumeRequest.expiredRow now) s)
  -- replay
  | replayRequested {s : Db} {r : Reply} {ids : ReplayIds} {actor : Actor} {teamId projectId : Uuid}
      {oid : Uuid} {key eventKey version : String} {expiresAt now₁ now₂ now₃ countedAt : Time}
      {reference : Option Reference} {o : OutboxEvent} {production : Bool} {authorizationId : Uuid}
      {u : Db → Db} {row : ReplayRequest} {destination : Destination}
      {payload : List (String × PayloadValue)}
      (ho : s.outbox.find? oid = some o) (hdead : o.status = .dead)
      (hversion : o.episode = some version)
      (hauth : Obtains s ids.authorizationId actor ⟨some teamId, some projectId⟩
        (requestedAuthorization actor teamId projectId .replay .outboxEvent oid version expiresAt
          ("replay-auth:" ++ toString oid ++ ":" ++ key) production reference now₁)
        authorizationId u)
      (hrow : row =
        { authorizationId, teamId, projectId, destination
          outboxEventId := oid
          eventType := o.eventType
          idempotencyKey := key
          resourceStateVersion := version
          requestedBy := actor.principalId
          requestedAt := now₂ })
      (habsent : s.replayRequests.find? ids.replayRequestId = none)
      (hkey : ∀ k x, s.replayRequests.find? k = some x → (x.idempotencyKey == key) = false)
      (hactive : ∀ k x, s.replayRequests.find? k = some x →
        (x.active && x.outboxEventId == oid) = false)
      (hcheck : row.check = true) (hcounted : countedAt ≤ now₂) (hnow : now₂ ≤ s.now)
      (hactor : (s.replayRequests.rows.countP fun e => e.2.recentBy actor.principalId
        ⟨some teamId, some projectId⟩ cfg.rateLimitWindowHours countedAt) <
        cfg.maxRequestsPerActorPerWindow)
      (hevent : ∃ successAt, successAt ≤ now₂ ∧ (s.replayRequests.rows.countP fun e =>
        e.2.recentSuccess oid cfg.rateLimitWindowHours successAt) <
          cfg.maxSuccessfulReplaysPerEvent)
      (hemit : Emits s ids.eventId (newOutboxEvent o.clarificationId o.taskId .replayRequested
        eventKey payload now₃)) :
      Effect cfg Inv (.requestReplay ids actor ⟨some teamId, some projectId⟩ oid key expiresAt
          reference) r s
        (At.outbox.insert ids.eventId (newOutboxEvent o.clarificationId o.taskId .replayRequested
            eventKey payload now₃)
          (At.replayRequests.insert ids.replayRequestId row (u s)))
  | replayAuthorized {s : Db} {r : Reply} {eventId id : Uuid} {actor : Actor} {scope : Scope}
      {policyVersion eventKey : String} {now now₁ now₂ : Time} {rr : ReplayRequest}
      {o : OutboxEvent} {a : Authorization} {payload : List (String × PayloadValue)}
      (hrr : s.replayRequests.find? id = some rr) (hscope : inScope scope rr.scope = true)
      (hstate : rr.state = .authorizationPending) (ho : s.outbox.find? rr.outboxEventId = some o)
      (hdead : o.status = .dead) (hversion : o.episode = some rr.resourceStateVersion)
      (hauth : Approves s rr.authorizationId actor scope policyVersion now a)
      (hcheck : (rr.authorizedRow now₁).check = true)
      (hemit : Emits s eventId (newOutboxEvent o.clarificationId o.taskId .replayAuthorized
        eventKey payload now₂)) :
      Effect cfg Inv (.authorizeReplay eventId id actor scope policyVersion) r s
        (At.outbox.insert eventId (newOutboxEvent o.clarificationId o.taskId .replayAuthorized
            eventKey payload now₂)
          (At.replayRequests.modify id (ReplayRequest.authorizedRow now₁)
            (At.authorizations.modify rr.authorizationId
              (Authorization.approvedRow actor policyVersion now) s)))
  | replayDeclined {c : Call} {s : Db} {r : Reply} {eventId id : Uuid} {actor : Actor}
      {scope : Scope} {op : SimpleOp} {set : Time → ReplayRequest → ReplayRequest}
      {type : EventType} {eventKey : String} {now now₁ now₂ : Time} {rr : ReplayRequest}
      {a : Authorization} {cid tid : Uuid} {payload : List (String × PayloadValue)}
      (hc : ReplayDecline c eventId id actor scope op set type)
      (hrr : s.replayRequests.find? id = some rr) (hscope : inScope scope rr.scope = true)
      (hstate : rr.state = .authorizationPending)
      (hauth : Decides s op rr.authorizationId actor scope now a)
      (hcheck : (set now₁ rr).check = true)
      (hemit : Emits s eventId (newOutboxEvent cid tid type eventKey payload now₂)) :
      Effect cfg Inv c r s
        (At.outbox.insert eventId (newOutboxEvent cid tid type eventKey payload now₂)
          (At.replayRequests.modify id (set now₁)
            (At.authorizations.modify rr.authorizationId (op.row actor now) s)))
  | replayBlocked {s : Db} {x : ReplayResult} {eventId id : Uuid} {actor : Actor} {scope : Scope}
      {readinessProvider : Destination → Readiness} {eventKey : String} {now : Time}
      {cid tid : Uuid} {payload : List (String × PayloadValue)} (hx : x.ok = false)
      (hemit : Emits s eventId (newOutboxEvent cid tid .replayExecutionBlocked eventKey payload
        now)) :
      Effect cfg Inv (.executeAuthorizedReplay eventId id actor scope readinessProvider)
        (.replay x) s
        (At.outbox.insert eventId (newOutboxEvent cid tid .replayExecutionBlocked eventKey payload
          now) s)
  | replayExecuted {s : Db} {r : Reply} {eventId id : Uuid} {actor : Actor} {scope : Scope}
      {readinessProvider : Destination → Readiness} {eventKey : String}
      {now₁ now₂ now₃ : Time} {rr : ReplayRequest} {o : OutboxEvent} {u : Db → Db}
      {payload : List (String × PayloadValue)}
      (hrr : s.replayRequests.find? id = some rr) (hscope : inScope scope rr.scope = true)
      (hstate : rr.state = .authorized) (ho : s.outbox.find? rr.outboxEventId = some o)
      (hdead : o.status = .dead) (hversion : o.episode = some rr.resourceStateVersion)
      (hauth : Consumption s rr.authorizationId actor scope rr.resourceStateVersion u)
      (hcheck : (rr.executedRow now₂).check = true)
      (hnow : now₂ ≤ s.now ∧ ∃ t₁, Inv t₁ ∧ t₁.replayRequests.find? id = some rr ∧ t₁.now ≤ now₂)
      (hemit : Emits s eventId (newOutboxEvent o.clarificationId o.taskId .replayExecuted eventKey
        payload now₃)) :
      Effect cfg Inv (.executeAuthorizedReplay eventId id actor scope readinessProvider) r s
        (At.outbox.insert eventId (newOutboxEvent o.clarificationId o.taskId .replayExecuted
            eventKey payload now₃)
          (At.replayRequests.modify id (ReplayRequest.executedRow now₂)
            (At.outbox.modify rr.outboxEventId (OutboxEvent.replayedRow o.attempts now₁) (u s))))
  | replaysExpired {s : Db} {r : Reply} {before : Time} {limit : Nat} {rank : Uuid → Nat}
      {ids : List Uuid} {now : Time} (hnd : ids.Nodup) (hnow : now ≤ s.now)
      (h : ∀ k ∈ ids, ∃ rr, s.replayRequests.find? k = some rr ∧ rr.active = true ∧
        (rr.expiredRow now).check = true) :
      Effect cfg Inv (.expireDueReplayRequests before limit rank) r s
        (At.replayRequests.modifyAll ids (ReplayRequest.expiredRow now) s)
  -- the relay
  | published {s : Db} {skipped : Uuid → Bool} {messageId : String} {id : Uuid} {o : OutboxEvent}
      {now now₁ : Time} (ho : s.outbox.find? id = some o) (hclaim : o.claimable now = true)
      (hnow : now ≤ now₁) (hnow₁ : now₁ ≤ s.now) :
      Effect cfg Inv (.publishOne skipped (.ok messageId)) (.relay (.published id)) s
        (At.outbox.modify id (OutboxEvent.publishedRow now₁) s)
  | retried {s : Db} {skipped : Uuid → Bool} {reason : String} {id : Uuid} {o : OutboxEvent}
      {now now₁ : Time} (ho : s.outbox.find? id = some o) (hclaim : o.claimable now = true)
      (hnow : now ≤ now₁) (hnow₁ : now₁ ≤ s.now)
      (hplan : (planRetryState o.attempts (some reason)).setDeadAt = false) :
      Effect cfg Inv (.publishOne skipped (.failed reason)) (.relay (.retry id)) s
        (At.outbox.modify id (OutboxEvent.retryRow (planRetryState o.attempts (some reason)) now₁) s)
  | died {s : Db} {skipped : Uuid → Bool} {reason : String} {id : Uuid} {o : OutboxEvent}
      {now now₁ : Time} (ho : s.outbox.find? id = some o) (hclaim : o.claimable now = true)
      (hnow : now ≤ now₁) (hnow₁ : now₁ ≤ s.now)
      (hplan : (planRetryState o.attempts (some reason)).setDeadAt = true) :
      Effect cfg Inv (.publishOne skipped (.failed reason)) (.relay (.dead id)) s
        (At.outbox.modify id (OutboxEvent.deadRow (planRetryState o.attempts (some reason)) now₁) s)
  | revived {s : Db} {id : Uuid} {o : OutboxEvent} {now : Time}
      (ho : s.outbox.find? id = some o) (hdead : o.status = .dead) :
      Effect cfg Inv (.replayDead id) (.replayed true) s
        (At.outbox.modify id (OutboxEvent.replayedRow o.attempts now) s)
  | emitted {s : Db} {r : Reply} {eventId clarificationId taskId : Uuid} {eventType : EventType}
      {eventKey : String} {payload : List (String × PayloadValue)} {now : Time}
      (hemit : Emits s eventId (newOutboxEvent clarificationId taskId eventType eventKey payload
        now)) :
      Effect cfg Inv (.insertLifecycleOutboxEvent eventId clarificationId taskId eventType eventKey
          payload) r s
        (At.outbox.insert eventId (newOutboxEvent clarificationId taskId eventType eventKey payload
          now) s)
  -- the workroom and the poller
  | clarificationCreated {s : Db} {id taskId : Uuid} {dueAt reminderAt : Time}
      (habsent : s.clarifications.find? id = none) :
      Effect cfg Inv (.createClarification id taskId dueAt reminderAt) .done s
        (At.clarifications.insert id { taskId, dueAt, reminderAt } s)
  | taskOpened {s : Db} {r : Reply} {id : Uuid} {task : Task} (ht : s.tasks.find? id = some task) :
      Effect cfg Inv (.openTaskClarification id) r s
        (At.tasks.modify id (Task.clarificationRow .clarificationNeeded .open) s)
  | answered {s : Db} {r : Reply} {id : Uuid} {clar : Clarification} {now : Time}
      (hc : s.clarifications.find? id = some clar) (hopen : clar.status = .open)
      (hfirst : clar.answeredAt = none) (hdue : now < clar.dueAt) (hnow : now ≤ s.now) :
      Effect cfg Inv (.claimClarificationAnswer id) r s
        (At.clarifications.modify id (Clarification.answeredRow now) s)
  | messaged {s : Db} {r : Reply} {id answerMessageId : Uuid} {clar : Clarification}
      (hc : s.clarifications.find? id = some clar) (hid : answerMessageId.value < 2 ^ 128) :
      Effect cfg Inv (.setAnswerMessage id answerMessageId) r s
        (At.clarifications.modify id (Clarification.messagedRow answerMessageId) s)
  | taskAnswered {s : Db} {r : Reply} {id : Uuid} {task : Task}
      (ht : s.tasks.find? id = some task) :
      Effect cfg Inv (.answerTaskClarification id) r s
        (At.tasks.modify id (Task.clarificationRow .intakeReview .answered) s)
  | reminded {s : Db} {skipped : Uuid → Bool} {eventId id : Uuid} {clar : Clarification}
      {eventKey : String} {payload : List (String × PayloadValue)} {now now₁ now₂ : Time}
      (hc : s.clarifications.find? id = some clar) (hclaim : clar.remindable now = true)
      (hemit : Emits s eventId (newOutboxEvent id clar.taskId .clarificationReminderRecorded
        eventKey payload now₂)) :
      Effect cfg Inv (.claimOneReminder skipped eventId) (.poll (.committed id)) s
        (At.outbox.insert eventId (newOutboxEvent id clar.taskId .clarificationReminderRecorded
            eventKey payload now₂)
          (At.clarifications.modify id (Clarification.remindedRow now₁) s))
  | clarificationExpired {s : Db} {skipped : Uuid → Bool} {eventId id : Uuid}
      {clar : Clarification} {task : Task} {eventKey : String}
      {payload : List (String × PayloadValue)} {now now₁ now₂ : Time}
      (hc : s.clarifications.find? id = some clar) (hclaim : clar.overdue now = true)
      (hnow : now ≤ now₁) (hnow₁ : now₁ ≤ s.now)
      (ht : s.tasks.find? clar.taskId = some task) (hopen : task.status = .clarificationNeeded)
      (hemit : Emits s eventId (newOutboxEvent id clar.taskId .clarificationExpired eventKey
        payload now₂)) :
      Effect cfg Inv (.claimOneExpiry skipped eventId) (.poll (.committed id)) s
        (At.outbox.insert eventId (newOutboxEvent id clar.taskId .clarificationExpired eventKey
            payload now₂)
          (At.clarifications.modify id (Clarification.expiredRow now₁)
            (At.tasks.modify clar.taskId (fun t => { t with status := .clarificationExpired })
              s)))

end AiAgentsSwd.Tasks
