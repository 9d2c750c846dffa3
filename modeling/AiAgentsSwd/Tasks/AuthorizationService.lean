import AiAgentsSwd.Tasks.ProductionApproval

/-!
# Tasks.AuthorizationService — requesting, deciding and consuming authorizations

Model of `shared/sdk/tasks/authorization_repository.py` and
`shared/sdk/tasks/authorization_service.py`.

Every transition is one guarded `UPDATE`: the service reads the row, checks the policy on
what it read, and the statement checks its own guard again on the row it locks. The audit
payloads are left out: building one only reads the row, or raises.
-/

namespace AiAgentsSwd.Tasks

open Planning (Uuid Time)
open ReadCommitted

/-- `ServiceResult`. -/
structure ServiceResult where
  ok : Bool
  resultKind : ResultKind
  reasonCode : ReasonCode
  authorization : Option (Uuid × Authorization) := none
deriving Repr, DecidableEq

def ServiceResult.deny (kind : ResultKind) (reason : ReasonCode) : ServiceResult :=
  ⟨false, kind, reason, none⟩

/-- `_deny(outcome)`. -/
def PolicyOutcome.denied (outcome : PolicyOutcome) : ServiceResult :=
  .deny outcome.resultKind outcome.reasonCode

/-- The failure of a statement on `resume_replay_authorizations` whose new row is invalid. -/
def authorizationsViolation : Failure := .checkViolation "resume_replay_authorizations"

/-! ## Repository -/

/-- What a failed `INSERT` reports: the first of its unique indexes that is taken. -/
inductive AuthorizationConflict where
  | idempotencyKey
  /-- `uq_rra_active_request` -/
  | activeRequest
deriving Repr, DecidableEq

/-- `create_request(conn, …)` up to the write: a conflict, or `none` when the row may go in. A
primary key is drawn unused (`uuid_generate_v4()`); a session for which it is not ends here. -/
def createRequest (authorizationId : Uuid) (row : Authorization) :
    TaskTxn (Option AuthorizationConflict) := do
  if !row.check then Txn.raise authorizationsViolation
  else if ← At.authorizations.taken authorizationId then
    Txn.raise (.uniqueViolation "resume_replay_authorizations_pkey")
  else if ← At.authorizations.conflict (.authorizationKey row.idempotencyKey)
      (fun a => a.idempotencyKey == row.idempotencyKey) then
    return some .idempotencyKey
  else if ← At.authorizations.conflict (.activeAuthorization row.actionType row.resourceId)
      (fun a => a.active && a.actionType == row.actionType && a.resourceId == row.resourceId) then
    return some .activeRequest
  else return none

/-- `get_authorization(conn, authorization_id, …)`. -/
def getAuthorization (authorizationId : Uuid) (scope : Scope) : TaskTxn (Option Authorization) :=
  At.authorizations.select authorizationId fun a => inScope scope a.scope

/-- The guard of a decision: the row is pending, not expired, and in scope. -/
def Authorization.undecided (scope : Scope) (a : Authorization) : Bool :=
  a.decision == .pending && a.expiredAt.isNone && inScope scope a.scope

/-- What `approve` sets. -/
def Authorization.approvedRow (actor : Actor) (policyVersion : String) (now : Time)
    (a : Authorization) : Authorization :=
  { a with
    decision := .authorized
    decidedBy := some actor.principalId
    decidedRole := some actor.role
    decidedAt := some now
    decisionReasonCode := some .policyAllow
    policyResult := some .allow
    policyVersion := some policyVersion }

/-- `approve(conn, authorization_id, …)`. -/
def approve (authorizationId : Uuid) (actor : Actor) (policyVersion : String) (scope : Scope) :
    TaskTxn (Option Authorization) := do
  let now ← statementTimestamp
  At.authorizations.update authorizationId (Authorization.undecided scope)
    (Authorization.approvedRow actor policyVersion now) Authorization.check
    authorizationsViolation

/-- What `reject` and `cancel` set. -/
def Authorization.declinedRow (decision : Decision) (actor : Actor) (reasonCode : ReasonCode)
    (now : Time) (a : Authorization) : Authorization :=
  { a with
    decision := decision
    decidedBy := some actor.principalId
    decidedRole := some actor.role
    decidedAt := some now
    decisionReasonCode := some reasonCode }

/-- `reject(conn, …)` and `cancel(conn, …)`, which differ in the decision they set. -/
def decline (decision : Decision) (authorizationId : Uuid) (actor : Actor)
    (reasonCode : ReasonCode) (scope : Scope) : TaskTxn (Option Authorization) := do
  let now ← statementTimestamp
  At.authorizations.update authorizationId (Authorization.undecided scope)
    (Authorization.declinedRow decision actor reasonCode now) Authorization.check
    authorizationsViolation

/-- The row is authorized, and not yet consumed, revoked or expired. -/
def Authorization.open (a : Authorization) : Bool :=
  a.decision == .authorized && a.consumedAt.isNone && a.revokedAt.isNone && a.expiredAt.isNone

/-- What `revoke` sets. -/
def Authorization.revokedRow (revokedBy : String) (reasonCode : ReasonCode) (now : Time)
    (a : Authorization) : Authorization :=
  { a with
    revokedAt := some now
    revokedBy := some revokedBy
    revocationReasonCode := some reasonCode }

/-- `revoke(conn, authorization_id, …)`. -/
def revokeAuthorization (authorizationId : Uuid) (actor : Actor) (reasonCode : ReasonCode)
    (scope : Scope) : TaskTxn (Option Authorization) := do
  let now ← statementTimestamp
  At.authorizations.update authorizationId (fun a => a.open && inScope scope a.scope)
    (Authorization.revokedRow actor.principalId reasonCode now) Authorization.check
    authorizationsViolation

/-- The guard of `consume`. -/
def Authorization.consumable (resourceStateVersion : String) (scope : Scope) (now : Time)
    (a : Authorization) : Bool :=
  a.open && decide (now < a.expiresAt) && a.resourceStateVersion == resourceStateVersion &&
    inScope scope a.scope

/-- What `consume` sets. -/
def Authorization.consumedRow (consumedBy : String) (now : Time) (a : Authorization) :
    Authorization :=
  { a with
    consumedAt := some now
    consumedBy := some consumedBy }

/-- `consume(conn, authorization_id, …)`. -/
def consumeAuthorization (authorizationId : Uuid) (consumedBy resourceStateVersion : String)
    (scope : Scope) : TaskTxn (Option Authorization) := do
  let now ← statementTimestamp
  At.authorizations.update authorizationId
    (Authorization.consumable resourceStateVersion scope now)
    (Authorization.consumedRow consumedBy now) Authorization.check authorizationsViolation

/-- The rows `expire_due_authorizations` looks for. -/
def Authorization.due (now : Time) (a : Authorization) : Bool :=
  a.active && decide (a.expiresAt ≤ now)

/-- What `expire_due_authorizations` sets. -/
def Authorization.expiredRow (now : Time) (a : Authorization) : Authorization :=
  { a with expiredAt := some now }

/-- `expire_due_authorizations(conn, limit)`; `rank` is the order in which the inner `SELECT`
meets the rows. -/
def expireDueAuthorizations (limit : Nat) (rank : Uuid → Nat) : TaskTxn Nat := do
  let now ← statementTimestamp
  let ids ← Txn.select (At.authorizations.selectLimit (Authorization.due now) rank limit)
  At.authorizations.updateEach (Authorization.due now) (Authorization.expiredRow now)
    Authorization.check authorizationsViolation ids

/-! ## The state a caller sees -/

/-- `STATES`. -/
inductive AuthorizationState where
  | pending
  | authorized
  | rejected
  | canceled
  | expired
  | revoked
  | consumed
deriving Repr, DecidableEq

/-- `project_state(row, now)`. -/
def projectState (a : Authorization) (now : Time) : AuthorizationState :=
  if a.consumedAt.isSome then .consumed
  else if a.revokedAt.isSome then .revoked
  else if a.expiredAt.isSome then .expired
  else if (a.decision == .pending || a.decision == .authorized) && decide (a.expiresAt ≤ now) then
    .expired
  else
    match a.decision with
    | .rejected => .rejected
    | .canceled => .canceled
    | .authorized => .authorized
    | .pending => .pending

/-! ## Service -/

/-- The savepoint of `request_authorization`: its outcome, and the writes that its release
publishes to the transaction. -/
def requestAuthorizationSavepoint (authorizationId : Uuid) (actor : Actor)
    (actorScope resourceScope : Scope) (actionType : ActionType) (resourceType : ResourceType)
    (resourceId : Uuid) (resourceStateVersion : String) (expiresAt : Time)
    (idempotencyKey : String) (productionEffect : Bool)
    (productionApprovalReference : Option Reference) :
    TaskTxn (ServiceResult × (Db → Db)) := do
  let outcome := evaluate (.request actionType) actor actorScope resourceScope
  if !outcome.allowed then return (outcome.denied, fun s => s)
  else
    match resourceScope with
    | ⟨some teamId, some projectId⟩ =>
      let now ← statementTimestamp
      let row : Authorization :=
        { actionType, resourceType, resourceId, teamId, projectId
          requestedBy := actor.principalId
          requestedRole := actor.role
          requestedAt := now
          resourceStateVersion, productionEffect, productionApprovalReference, expiresAt
          idempotencyKey }
      match ← createRequest authorizationId row with
      | none =>
        return (⟨true, .ok, .policyAllow, some (authorizationId, row)⟩,
          At.authorizations.insert authorizationId row)
      | some violation =>
        -- the same key again confirms the request; otherwise an active request exists
        match ← At.authorizations.selectBy (fun a => a.idempotencyKey == idempotencyKey) with
        | some existing =>
          let reason := if violation = .activeRequest then .conflict else .ok
          return (⟨true, .ok, reason, some existing⟩, fun s => s)
        | none => return (.deny .conflict .conflict, fun s => s)
    | _ => Txn.raise (.notNullViolation "resume_replay_authorizations")

/-- `request_authorization(conn, actor, actor_scope, …)`. -/
def requestAuthorization (authorizationId : Uuid) (actor : Actor)
    (actorScope resourceScope : Scope) (actionType : ActionType) (resourceType : ResourceType)
    (resourceId : Uuid) (resourceStateVersion : String) (expiresAt : Time)
    (idempotencyKey : String) (productionEffect : Bool)
    (productionApprovalReference : Option Reference) : TaskTxn ServiceResult := do
  let (result, release) ← requestAuthorizationSavepoint authorizationId actor actorScope
    resourceScope actionType resourceType resourceId resourceStateVersion expiresAt
    idempotencyKey productionEffect productionApprovalReference
  Txn.modify release
  return result

/-- `authorize(conn, authorization_id, …)`. -/
def authorize (authorizationId : Uuid) (actor : Actor) (actorScope : Scope)
    (policyVersion : String) : TaskTxn ServiceResult := do
  match ← getAuthorization authorizationId actorScope with
  | none => return .deny .notFoundMasked .resourceNotFound
  | some row =>
    let outcome := evaluate (.authorize row.actionType) actor actorScope row.scope
      (some row.requestedBy)
    if !outcome.allowed then return outcome.denied
    else
      match ← approve authorizationId actor policyVersion actorScope with
      | none => return .deny .alreadyDecided .alreadyDecided
      | some updated => return ⟨true, .ok, .policyAllow, some (authorizationId, updated)⟩

/-- The `op` argument of `_decide_simple`. -/
inductive SimpleOp where
  | reject
  | cancel
  | revoke
deriving Repr, DecidableEq

namespace SimpleOp

/-- The action that the policy is asked about. -/
def action : SimpleOp → ActionType → Action
  | reject, t => .reject t
  | cancel, t => .cancel t
  | revoke, _ => .revoke

/-- The `reason_code` that `reject`, `cancel` and `revoke` pass on. -/
def reasonCode : SimpleOp → ReasonCode
  | reject => .policyDeny
  | cancel => .operatorCanceled
  | revoke => .operatorRevoked

/-- The statement of each operation. -/
def statement (op : SimpleOp) (authorizationId : Uuid) (actor : Actor) (scope : Scope) :
    TaskTxn (Option Authorization) :=
  match op with
  | reject => decline .rejected authorizationId actor op.reasonCode scope
  | cancel => decline .canceled authorizationId actor op.reasonCode scope
  | revoke => revokeAuthorization authorizationId actor op.reasonCode scope

end SimpleOp

/-- `_decide_simple(conn, authorization_id, op, …)`. -/
def decideSimple (op : SimpleOp) (authorizationId : Uuid) (actor : Actor) (actorScope : Scope) :
    TaskTxn ServiceResult := do
  match ← getAuthorization authorizationId actorScope with
  | none => return .deny .notFoundMasked .resourceNotFound
  | some row =>
    let outcome := evaluate (op.action row.actionType) actor actorScope row.scope
    if !outcome.allowed then return outcome.denied
    else
      match ← op.statement authorizationId actor actorScope with
      | none => return .deny .invalidTransition .invalidTransition
      | some updated => return ⟨true, .ok, op.reasonCode, some (authorizationId, updated)⟩

/-- `reject(conn, authorization_id, …)`. -/
def reject : Uuid → Actor → Scope → TaskTxn ServiceResult := decideSimple .reject

/-- `cancel(conn, authorization_id, …)`. -/
def cancel : Uuid → Actor → Scope → TaskTxn ServiceResult := decideSimple .cancel

/-- `revoke(conn, authorization_id, …)`. -/
def revoke : Uuid → Actor → Scope → TaskTxn ServiceResult := decideSimple .revoke

/-- Why the row could not be consumed, from a later reading of it. -/
def consumeDenial (current : Authorization) (resourceStateVersion : String) (now : Time) :
    ServiceResult :=
  if current.consumedAt.isSome then .deny .alreadyConsumed .alreadyConsumed
  else if current.revokedAt.isSome then .deny .revoked .revoked
  else if projectState current now = .expired then .deny .expired .expired
  else if current.decision ≠ .authorized then .deny .invalidTransition .invalidTransition
  else if current.resourceStateVersion ≠ resourceStateVersion then .deny .staleState .staleState
  else .deny .conflict .conflict

/-- A later reading of the row only says why it was refused. -/
theorem consumeDenial_ok (current : Authorization) (version : String) (now : Time) :
    (consumeDenial current version now).ok = false := by
  unfold consumeDenial
  split_ifs <;> rfl

/-- The text of the exception that undoes the use of an approval. -/
def consumeFailure : Failure :=
  .runtimeError "authorization consume CAS failed after a successful production-approval consume"

/-- `consume(conn, authorization_id, …)`. -/
def consume (authorizationId : Uuid) (actor : Actor) (actorScope : Scope)
    (resourceStateVersion : String) : TaskTxn ServiceResult := do
  match ← getAuthorization authorizationId actorScope with
  | none => return .deny .notFoundMasked .resourceNotFound
  | some row =>
    let outcome := evaluate (.consume row.actionType) actor actorScope row.scope none
      row.productionEffect row.productionApprovalReference
    if !outcome.allowed then return outcome.denied
    else
      let refused ←
        if row.productionEffect then
          resolveAndConsumeApproval row.productionApprovalReference row resourceStateVersion
            actor.principalId authorizationId
        else pure none
      match refused with
      | some reason => return .deny .productionApprovalRequired (.productionApproval reason)
      | none =>
        match ← consumeAuthorization authorizationId actor.principalId resourceStateVersion
            actorScope with
        | some updated => return ⟨true, .ok, .policyAllow, some (authorizationId, updated)⟩
        | none =>
          -- the approval is consumed by now: only a rollback of both leaves them paired
          if row.productionEffect then Txn.raise consumeFailure
          else
            let current ← getAuthorization authorizationId actorScope
            let now ← statementTimestamp
            match current with
            | none => return .deny .notFoundMasked .resourceNotFound
            | some current => return consumeDenial current resourceStateVersion now

end AiAgentsSwd.Tasks
