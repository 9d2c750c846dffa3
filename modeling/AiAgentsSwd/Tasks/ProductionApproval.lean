import AiAgentsSwd.Tasks.Schema

/-!
# Tasks.ProductionApproval — granting, revoking and using production approvals

Model of `shared/sdk/tasks/production_approval_model.py`,
`shared/sdk/tasks/production_approval_repository.py` and
`shared/sdk/tasks/production_approval_service.py`.

An id that the schema draws with `uuid_generate_v4()` is an argument. The audit payloads are
left out: building one only reads the row, or raises.
-/

namespace AiAgentsSwd.Tasks

open Planning (Uuid Time)
open ReadCommitted

/-- `GRANTER_ROLES`. -/
def granterRoles : List Role := [.reviewerApprover, .platformAdmin]

/-- `can_grant(role)`. -/
def canGrant (role : Role) : Bool := taskRoles.contains role && granterRoles.contains role

/-- `ApprovalResult`. -/
structure ApprovalResult where
  ok : Bool
  resultKind : ResultKind
  reasonCode : ReasonCode
  approval : Option (Uuid × Approval) := none
deriving Repr, DecidableEq

def ApprovalResult.deny (kind : ResultKind) (reason : ReasonCode) : ApprovalResult :=
  ⟨false, kind, reason, none⟩

/-- The failure of a statement on `production_action_approvals` whose new row is invalid. -/
def approvalsViolation : Failure := .checkViolation "production_action_approvals"

/-! ## Repository -/

/-- What `revoke_approval` sets. -/
def Approval.revokedRow (revokedBy : String) (reasonCode : ReasonCode) (now : Time)
    (p : Approval) : Approval :=
  { p with
    state := .revoked
    revokedAt := some now
    revokedBy := some revokedBy
    revocationReasonCode := some reasonCode }

/-- `revoke_approval(conn, approval_id, …)`. -/
def revokeApproval (approvalId : Uuid) (revokedBy : String) (reasonCode : ReasonCode)
    (scope : Scope) : TaskTxn (Option Approval) := do
  let now ← statementTimestamp
  At.approvals.update approvalId
    (fun p => p.state == .granted && p.consumedAt.isNone && p.revokedAt.isNone &&
      inScope scope p.scope)
    (Approval.revokedRow revokedBy reasonCode now) Approval.check approvalsViolation

/-- What the approval must be bound to: the action, resource, scope and state version of the
authorization it is used for. -/
def Approval.boundTo (p : Approval) (a : Authorization) (resourceStateVersion : String) : Bool :=
  p.actionType == a.actionType && p.resourceType == a.resourceType &&
    p.resourceId == a.resourceId && p.teamId == a.teamId && p.projectId == a.projectId &&
    p.resourceStateVersion == resourceStateVersion

/-- What `resolve_and_consume_approval` sets. -/
def Approval.consumedRow (consumedBy : String) (authorizationId : Uuid) (now : Time)
    (p : Approval) : Approval :=
  { p with
    state := .consumed
    consumedAt := some now
    consumedBy := some consumedBy
    consumedByAuthorizationId := some authorizationId }

/-- The checks of `resolve_and_consume_approval` on the locked row, in their order. -/
def Approval.refusal (p : Approval) (a : Authorization) (resourceStateVersion : String)
    (now : Time) : Option ApprovalReason :=
  if p.consumedAt.isSome then some .alreadyConsumed
  else if p.revokedAt.isSome then some .alreadyRevoked
  else if p.expiresAt ≤ now then some .expired
  else if p.actionType ≠ a.actionType then some .wrongAction
  else if p.resourceType ≠ a.resourceType ∨ p.resourceId ≠ a.resourceId then some .wrongResource
  else if p.teamId ≠ a.teamId ∨ p.projectId ≠ a.projectId then some .wrongScope
  else if p.resourceStateVersion ≠ resourceStateVersion then some .staleState
  else none

/-- `resolve_and_consume_approval(conn, reference, …)` for the authorization `a`; returns why
not, or `none` when the approval is now consumed. -/
def resolveAndConsumeApproval (reference : Option Reference) (a : Authorization)
    (resourceStateVersion consumedBy : String) (authorizationId : Uuid) :
    TaskTxn (Option ApprovalReason) :=
  match reference with
  | none => return some .notFound
  | some .empty => return some .notFound
  | some (.malformed _) => return some .invalidReference
  | some (.approval approvalId) => do
    match ← At.approvals.selectForUpdate approvalId (fun _ => true) with
    | none => return some .notFound
    | some row =>
      let now ← statementTimestamp
      match row.refusal a resourceStateVersion now with
      | some reason => return some reason
      | none =>
        let now ← statementTimestamp
        let updated ← At.approvals.update approvalId
          (fun p => p.state == .granted && p.consumedAt.isNone && p.revokedAt.isNone &&
            decide (now < p.expiresAt) && p.boundTo a resourceStateVersion)
          (Approval.consumedRow consumedBy authorizationId now) Approval.check approvalsViolation
        match updated with
        | none => return some .conflict
        | some _ => return none

/-! ## Service -/

/-- `grant_production_approval(conn, actor, actor_scope, …)`. -/
def grantProductionApproval (approvalId : Uuid) (actor : Actor) (actorScope : Scope)
    (actionType : ActionType) (resourceType : ResourceType) (resourceId : Uuid)
    (resourceStateVersion : String) (expiresAt : Time) (idempotencyKey : String)
    (reasonCode : Option ReasonCode) : TaskTxn ApprovalResult := do
  if !canGrant actor.role then return .deny .forbidden .rbacDenied
  else
    match ← At.approvals.selectBy (fun p => p.idempotencyKey == idempotencyKey) with
    | some existing =>
      if existing.2.scope = actorScope then return ⟨true, .ok, .granted, some existing⟩
      else return .deny .notFoundMasked .notFound
    | none =>
      match actorScope with
      | ⟨some teamId, some projectId⟩ =>
        let now ← statementTimestamp
        let row : Approval :=
          { actionType, resourceType, resourceId, teamId, projectId, resourceStateVersion
            grantedBy := actor.principalId
            grantedRole := actor.role
            grantedAt := now
            reasonCode, expiresAt, idempotencyKey }
        if !row.check then Txn.raise approvalsViolation
        else if ← At.approvals.taken approvalId then return .deny .conflict .conflict
        else if ← At.approvals.conflict (.approvalKey idempotencyKey)
            (fun p => p.idempotencyKey == idempotencyKey) then
          return .deny .conflict .conflict
        else
          Txn.modify (At.approvals.insert approvalId row)
          return ⟨true, .ok, .granted, some (approvalId, row)⟩
      | _ => Txn.raise (.valueError "invalid input for query argument")

/-- `revoke_production_approval(conn, approval_id, …)`. -/
def revokeProductionApproval (approvalId : Uuid) (actor : Actor) (actorScope : Scope)
    (reasonCode : ReasonCode) : TaskTxn ApprovalResult := do
  if !canGrant actor.role then return .deny .forbidden .rbacDenied
  else
    match ← At.approvals.select approvalId (fun p => inScope actorScope p.scope) with
    | none => return .deny .notFoundMasked .notFound
    | some _ =>
      match ← revokeApproval approvalId actor.principalId reasonCode actorScope with
      | none => return .deny .invalidTransition .invalidTransition
      | some updated => return ⟨true, .ok, reasonCode, some (approvalId, updated)⟩

end AiAgentsSwd.Tasks
