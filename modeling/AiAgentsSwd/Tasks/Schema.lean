import AiAgentsSwd.ReadCommitted.Statements
import AiAgentsSwd.Tasks.Policy
import Mathlib.Algebra.Ring.Nat

/-!
# Tasks.Schema — the tables of controlled resume and replay

Model of migrations `029` to `035`, as far as the resume and replay services read or write
them. Every row type has its CHECK constraints as one predicate, `check`, which every
`INSERT` and `UPDATE` of the model evaluates on the new row. The bookkeeping columns
`created_at`, `updated_at` and `request_id` are left out.

`Db.now` is the clock of the database: `statement_timestamp()` reads it, and only `tick`
moves it, forward.
-/

namespace AiAgentsSwd.Tasks

open Keyed (Table)
open Planning (Uuid Time)
open ReadCommitted

/-- `length(btrim(s)) = 0`. -/
def blank (s : String) : Bool := s.toList.all (· == ' ')

/-- The bounds on an idempotency key. -/
def keyCheck (key : String) : Bool := key.length ≤ 256 && !blank key

/-! ## `resume_replay_authorizations` -/

/-- `decision`. -/
inductive Decision where
  | pending
  | authorized
  | rejected
  | canceled
deriving Repr, DecidableEq

/-- `policy_result`. -/
inductive PolicyResult where
  | allow
  | deny
  | notApplicable
deriving Repr, DecidableEq

/-- A row of `resume_replay_authorizations` (migration `032`). -/
structure Authorization where
  actionType : ActionType
  resourceType : ResourceType
  resourceId : Uuid
  teamId : Uuid
  projectId : Uuid
  requestedBy : String
  requestedRole : Role
  requestedAt : Time
  decision : Decision := .pending
  decidedBy : Option String := none
  decidedRole : Option Role := none
  decidedAt : Option Time := none
  decisionReasonCode : Option ReasonCode := none
  policyResult : Option PolicyResult := none
  policyVersion : Option String := none
  resourceStateVersion : String
  productionEffect : Bool
  productionApprovalReference : Option Reference
  expiresAt : Time
  consumedAt : Option Time := none
  consumedBy : Option String := none
  revokedAt : Option Time := none
  revokedBy : Option String := none
  revocationReasonCode : Option ReasonCode := none
  expiredAt : Option Time := none
  idempotencyKey : String
deriving Repr, DecidableEq

namespace Authorization

/-- The scope of the row. -/
def scope (a : Authorization) : Scope := ⟨some a.teamId, some a.projectId⟩

/-- The predicate of `uq_rra_active_request`. -/
def active (a : Authorization) : Bool :=
  (a.decision == .pending || a.decision == .authorized) &&
    a.consumedAt.isNone && a.revokedAt.isNone && a.expiredAt.isNone

/-- The CHECK constraints of migration `032`. -/
def check (a : Authorization) : Bool :=
  decide (a.requestedAt < a.expiresAt) &&
  (a.consumedAt.isNone || a.decision == .authorized) &&
  (a.revokedAt.isNone || a.decision == .authorized) &&
  a.consumedAt.isNone == a.consumedBy.isNone &&
  a.revokedAt.isNone == a.revokedBy.isNone &&
  (a.consumedAt.isNone || a.revokedAt.isNone) &&
  (a.decision == .pending || a.decidedBy.isSome && a.decidedAt.isSome) &&
  (a.actionType != .replay || a.decision != .authorized || a.decidedBy != some a.requestedBy) &&
  !blank a.resourceStateVersion && decide (a.requestedBy.length ≤ 128) &&
  keyCheck a.idempotencyKey

end Authorization

/-! ## `production_action_approvals` -/

/-- `state`. -/
inductive ApprovalState where
  | granted
  | revoked
  | consumed
deriving Repr, DecidableEq

/-- A row of `production_action_approvals` (migration `035`). -/
structure Approval where
  actionType : ActionType
  resourceType : ResourceType
  resourceId : Uuid
  teamId : Uuid
  projectId : Uuid
  resourceStateVersion : String
  state : ApprovalState := .granted
  grantedBy : String
  grantedRole : Role
  grantedAt : Time
  reasonCode : Option ReasonCode := none
  expiresAt : Time
  consumedAt : Option Time := none
  consumedBy : Option String := none
  consumedByAuthorizationId : Option Uuid := none
  revokedAt : Option Time := none
  revokedBy : Option String := none
  revocationReasonCode : Option ReasonCode := none
  idempotencyKey : String
deriving Repr, DecidableEq

namespace Approval

/-- The scope of the row. -/
def scope (p : Approval) : Scope := ⟨some p.teamId, some p.projectId⟩

/-- The CHECK constraints of migration `035`. -/
def check (p : Approval) : Bool :=
  decide (p.grantedAt < p.expiresAt) &&
  p.consumedAt.isNone == p.consumedBy.isNone &&
  p.revokedAt.isNone == p.revokedBy.isNone &&
  (p.consumedAt.isNone || p.state == .consumed) &&
  (p.revokedAt.isNone || p.state == .revoked) &&
  (p.consumedAt.isNone || p.revokedAt.isNone) &&
  !blank p.resourceStateVersion && decide (p.grantedBy.length ≤ 128) &&
  keyCheck p.idempotencyKey

end Approval

/-! ## `operator_tasks`, `operator_clarification_requests` -/

/-- `operator_tasks.status`. -/
inductive TaskStatus where
  | draft
  | submitted
  | intakeReview
  | clarificationNeeded
  | clarificationExpired
  | approvedForExecution
  | running
  | waitingApproval
  | blocked
  | failed
  | deliveryReady
  | changesRequested
  | qaRerunRequested
  | accepted
  | rejected
  | archived
  | canceled
deriving Repr, DecidableEq

/-- `operator_tasks.clarification_status`, as the workroom sets it. -/
inductive TaskClarificationStatus where
  | none
  | open
  | answered
deriving Repr, DecidableEq

/-- A row of `operator_tasks` (migration `029`). -/
structure Task where
  status : TaskStatus
  clarificationStatus : TaskClarificationStatus := .none
  projectId : Option Uuid
  productionEffect : Bool
deriving Repr, DecidableEq

/-- `operator_clarification_requests.status`. -/
inductive ClarificationStatus where
  | open
  | answered
  | expired
  | canceled
deriving Repr, DecidableEq

instance : ToString ClarificationStatus where
  toString
    | .open => "open"
    | .answered => "answered"
    | .expired => "expired"
    | .canceled => "canceled"

/-- A row of `operator_clarification_requests` (migrations `030` and `031`). -/
structure Clarification where
  taskId : Uuid
  status : ClarificationStatus := .open
  dueAt : Time
  reminderAt : Time
  answeredAt : Option Time := none
  answerMessageId : Option Uuid := none
  reminderSentAt : Option Time := none
  expiredAt : Option Time := none
  resumeEligibleAt : Option Time := none
  resumeRequestedAt : Option Time := none
  resumeRequestedBy : Option String := none
  resumeAuthorizedAt : Option Time := none
deriving Repr, DecidableEq

/-- `chk_ocr_resume_authorized_requires_eligible`. -/
def Clarification.check (c : Clarification) : Bool :=
  c.resumeAuthorizedAt.isNone || c.resumeEligibleAt.isSome

/-! ## `clarification_lifecycle_outbox` -/

/-- The keys of `EVENT_DESTINATIONS`, and any other text. -/
inductive EventType where
  | clarificationReminderDue
  | clarificationReminderRecorded
  | clarificationExpired
  | clarificationResumeEligible
  | clarificationResumeRequested
  | clarificationResumeAuthorized
  | resumeRequested
  | resumeAuthorized
  | resumeRejected
  | resumeCanceled
  | resumeResumed
  | resumeFailed
  | resumeExecutionRequested
  | replayRequested
  | replayAuthorized
  | replayRejected
  | replayCanceled
  | replayExecutionBlocked
  | replayExecuted
  | replayFailed
  | other (name : String)
deriving Repr, DecidableEq

/-- The values of `EVENT_DESTINATIONS`. -/
inductive Destination where
  | audit
  | orchestratorCommand
deriving Repr, DecidableEq

/-- `clarification_lifecycle_outbox.status`. -/
inductive OutboxStatus where
  | pending
  | published
  | dead
deriving Repr, DecidableEq

/-- A value of an event's payload: a text, or an id in its canonical spelling. -/
inductive PayloadValue where
  | text (s : String)
  | id (u : Uuid)
deriving Repr, DecidableEq

/-- A row of `clarification_lifecycle_outbox` (migration `031`). -/
structure OutboxEvent where
  clarificationId : Uuid
  taskId : Uuid
  eventType : EventType
  idempotencyKey : String
  payload : List (String × PayloadValue)
  status : OutboxStatus := .pending
  attempts : Nat := 0
  createdAt : Time
  availableAt : Time
  publishedAt : Option Time := none
  deadAt : Option Time := none
  lastError : Option String := none
deriving Repr, DecidableEq

/-- The CHECK constraints of migration `031`. -/
def OutboxEvent.check (o : OutboxEvent) : Bool :=
  (match o.status with
    | .pending => o.publishedAt.isNone && o.deadAt.isNone
    | .published => o.publishedAt.isSome && o.deadAt.isNone
    | .dead => o.deadAt.isSome && o.publishedAt.isNone) &&
  !blank o.idempotencyKey && o.lastError.all (fun e => e.length ≤ 500)

/-! ## `resume_requests` -/

/-- A row of `resume_requests` (migration `033`). -/
structure ResumeRequest where
  authorizationId : Uuid
  clarificationId : Uuid
  taskId : Uuid
  teamId : Uuid
  projectId : Uuid
  resourceStateVersion : String
  state : ResumeState := .authorizationPending
  requestedBy : String
  requestedAt : Time
  authorizedAt : Option Time := none
  executionRequestedAt : Option Time := none
  resumedAt : Option Time := none
  failedAt : Option Time := none
  canceledAt : Option Time := none
  expiredAt : Option Time := none
  commandId : Option Uuid := none
  failureReasonCode : Option ReasonCode := none
  idempotencyKey : String
deriving Repr, DecidableEq

namespace ResumeRequest

/-- The scope of the row. -/
def scope (r : ResumeRequest) : Scope := ⟨some r.teamId, some r.projectId⟩

/-- The predicate of `uq_rr_active_per_clarification`. -/
def active (r : ResumeRequest) : Bool :=
  r.state == .authorizationPending || r.state == .authorized || r.state == .executionPending

/-- The CHECK constraints of migration `033`. -/
def check (r : ResumeRequest) : Bool :=
  (r.authorizedAt.isNone ||
    [.authorized, .executionPending, .resumed, .failed].contains r.state) &&
  r.executionRequestedAt.isNone == r.commandId.isNone &&
  (r.commandId.isNone || [.executionPending, .resumed, .failed].contains r.state) &&
  (r.resumedAt.isNone || r.state == .resumed) &&
  (r.failedAt.isNone || r.state == .failed) &&
  (r.canceledAt.isNone || r.state == .canceled) &&
  decide (r.requestedBy.length ≤ 128) && !blank r.resourceStateVersion &&
  keyCheck r.idempotencyKey

end ResumeRequest

/-! ## `replay_requests` -/

/-- A row of `replay_requests` (migration `034`). -/
structure ReplayRequest where
  authorizationId : Uuid
  outboxEventId : Uuid
  eventType : EventType
  destination : Destination
  teamId : Uuid
  projectId : Uuid
  resourceStateVersion : String
  state : ReplayState := .authorizationPending
  requestedBy : String
  requestedAt : Time
  authorizedAt : Option Time := none
  executedAt : Option Time := none
  rejectedAt : Option Time := none
  canceledAt : Option Time := none
  expiredAt : Option Time := none
  failureReasonCode : Option ReasonCode := none
  idempotencyKey : String
deriving Repr, DecidableEq

namespace ReplayRequest

/-- The scope of the row. -/
def scope (r : ReplayRequest) : Scope := ⟨some r.teamId, some r.projectId⟩

/-- The predicate of `uq_rpr_active_per_event`. -/
def active (r : ReplayRequest) : Bool :=
  r.state == .authorizationPending || r.state == .authorized

/-- The CHECK constraints of migration `034`. -/
def check (r : ReplayRequest) : Bool :=
  (r.authorizedAt.isNone || [.authorized, .executed, .failed].contains r.state) &&
  (r.executedAt.isNone || r.state == .executed) &&
  (r.rejectedAt.isNone || r.state == .rejected) &&
  (r.canceledAt.isNone || r.state == .canceled) &&
  (r.expiredAt.isNone || r.state == .expired) &&
  decide (r.requestedBy.length ≤ 128) && !blank r.resourceStateVersion &&
  keyCheck r.idempotencyKey

end ReplayRequest

/-! ## The database -/

structure Db where
  now : Time
  authorizations : Table Uuid Authorization
  approvals : Table Uuid Approval
  tasks : Table Uuid Task
  clarifications : Table Uuid Clarification
  outbox : Table Uuid OutboxEvent
  resumeRequests : Table Uuid ResumeRequest
  replayRequests : Table Uuid ReplayRequest

/-- A row, an entry of a unique index, or the advisory lock of an actor. -/
inductive Lock where
  | authorization (id : Uuid)
  | authorizationKey (key : String)
  | activeAuthorization (actionType : ActionType) (resourceId : Uuid)
  | approval (id : Uuid)
  | approvalKey (key : String)
  | task (id : Uuid)
  | clarification (id : Uuid)
  | outboxEvent (id : Uuid)
  | outboxKey (key : String)
  | resumeRequest (id : Uuid)
  | resumeRequestKey (key : String)
  | activeResumeRequest (clarificationId : Uuid)
  | replayRequest (id : Uuid)
  | replayRequestKey (key : String)
  | activeReplayRequest (outboxEventId : Uuid)
  | actorRate (teamId projectId : Option Uuid) (actorId : String)
deriving Repr, DecidableEq

/-- What a transaction raises. -/
inductive Failure where
  | checkViolation (table : String)
  | notNullViolation (table : String)
  | uniqueViolation (constraint : String)
  | valueError (text : String)
  | runtimeError (text : String)
  /-- the function rolls back itself and returns this outcome -/
  | rolledBack (outcome : String)
deriving Repr, DecidableEq

/-- A transaction over the task database. -/
abbrev TaskTxn := Txn Db Lock Failure

/-- `SELECT statement_timestamp()`, and the timestamp of a statement that uses one. -/
def statementTimestamp : TaskTxn Time := Txn.select Db.now

namespace At

/-- `resume_replay_authorizations`. -/
def authorizations : TableAt Db Lock Uuid Authorization where
  get := Db.authorizations
  set := fun s t => { s with authorizations := t }
  lock := .authorization
  get_set := fun _ _ => rfl

/-- `production_action_approvals`. -/
def approvals : TableAt Db Lock Uuid Approval where
  get := Db.approvals
  set := fun s t => { s with approvals := t }
  lock := .approval
  get_set := fun _ _ => rfl

/-- `operator_tasks`. -/
def tasks : TableAt Db Lock Uuid Task where
  get := Db.tasks
  set := fun s t => { s with tasks := t }
  lock := .task
  get_set := fun _ _ => rfl

/-- `operator_clarification_requests`. -/
def clarifications : TableAt Db Lock Uuid Clarification where
  get := Db.clarifications
  set := fun s t => { s with clarifications := t }
  lock := .clarification
  get_set := fun _ _ => rfl

/-- `clarification_lifecycle_outbox`. -/
def outbox : TableAt Db Lock Uuid OutboxEvent where
  get := Db.outbox
  set := fun s t => { s with outbox := t }
  lock := .outboxEvent
  get_set := fun _ _ => rfl

/-- `resume_requests`. -/
def resumeRequests : TableAt Db Lock Uuid ResumeRequest where
  get := Db.resumeRequests
  set := fun s t => { s with resumeRequests := t }
  lock := .resumeRequest
  get_set := fun _ _ => rfl

/-- `replay_requests`. -/
def replayRequests : TableAt Db Lock Uuid ReplayRequest where
  get := Db.replayRequests
  set := fun s t => { s with replayRequests := t }
  lock := .replayRequest
  get_set := fun _ _ => rfl

end At

/-- The scope predicate of every actor-facing statement: exact equality, so that a missing
scope matches no row. -/
def inScope (actorScope rowScope : Scope) : Bool := actorScope == rowScope

theorem inScope_iff {a r : Scope} : inScope a r = true ↔ a = r := by
  simp [inScope]

end AiAgentsSwd.Tasks
