import AiAgentsSwd.Keyed.Table
import AiAgentsSwd.Planning.Models
import AiAgentsSwd.Transition.Basic

/-!
# Operator.Actions — operator actions, their confirmations and their execution

Model of `_create_action`, `issue_confirmation`, `execute_action`, `verification_run` and
`_execute_action` in `apps/orchestrator/src/operator_actions_api.py`, with the catalog, the roles,
the policy gate, the confirmations and the store of `shared/sdk/operator_actions`.

Each call of the store commits by itself. A request is in a `Phase`, which carries what it has
read, and `next` makes the one call that comes next; requests interleave at will, and a worker
may die between any two calls. Signed tokens and the policy engine are what the environment
answers (`Draw`); the digest of a nonce is a parameter.
-/

namespace AiAgentsSwd.Operator

open Keyed (Table)
open Planning (Uuid)

/-- Seconds. -/
abbrev Time := Nat

/-! ## Roles and the catalog -/

/-- `operator_role_assignments.role` -/
inductive Role where
  | viewer
  | reviewer
  | operator
  | platformAdmin
deriving Repr, DecidableEq

/-- `ROLE_RANK` -/
def Role.rank : Role → Int
  | viewer => 0
  | reviewer => 1
  | operator => 2
  | platformAdmin => 2

/-- `highest_role(roles)` -/
def highestRole (roles : List Role) : Role :=
  (roles.foldl (fun best r => if best.2 < r.rank then (r, r.rank) else best)
    (Role.viewer, (-1 : Int))).1

/-- `ActionPolicyEntry`, without the action type. -/
structure ActionPolicyEntry where
  allowedRoles : List Role
  riskLevel : String
  requiresReason : Bool := true
  requiresConfirmation : Bool
  requiresApprovalEngine : Bool
  executionEnabled : Bool
deriving Repr, DecidableEq

/-- `ENABLED_ACTIONS` -/
def enabledActions : List (String × ActionPolicyEntry) := [
  ("operator_review.add_note",
    { allowedRoles := [.reviewer, .operator, .platformAdmin]
      riskLevel := "low"
      requiresConfirmation := false
      requiresApprovalEngine := false
      executionEnabled := true }),
  ("delivery_package.request_changes",
    { allowedRoles := [.reviewer, .operator, .platformAdmin]
      riskLevel := "low"
      requiresConfirmation := true
      requiresApprovalEngine := false
      executionEnabled := true }),
  ("delivery_package.accept",
    { allowedRoles := [.operator, .platformAdmin]
      riskLevel := "medium"
      requiresConfirmation := true
      requiresApprovalEngine := false
      executionEnabled := true }),
  ("delivery_package.reject",
    { allowedRoles := [.operator, .platformAdmin]
      riskLevel := "medium"
      requiresConfirmation := true
      requiresApprovalEngine := false
      executionEnabled := true }),
  ("verification.rerun",
    { allowedRoles := [.operator, .platformAdmin]
      riskLevel := "medium"
      requiresConfirmation := true
      requiresApprovalEngine := false
      executionEnabled := true })]

/-- `DISABLED_ACTION_TYPES` -/
def disabledActionTypes : List String := [
  "workflow.pause", "workflow.resume", "workflow.dispatch", "work_item.update_status",
  "project.cancel", "github.create_pr", "github.merge_pr", "deployment.execute",
  "backup.production_run", "backup.production_restore", "policy.update", "model_policy.update",
  "budget.update", "incident.real_escalate"]

/-- The entry of a disabled action. -/
def disabledEntry : ActionPolicyEntry :=
  { allowedRoles := []
    riskLevel := "critical"
    requiresConfirmation := true
    requiresApprovalEngine := true
    executionEnabled := false }

/-- `get_action_entry(action_type)` -/
def getActionEntry (actionType : String) : Option ActionPolicyEntry :=
  match enabledActions.lookup actionType with
  | some entry => some entry
  | none => if disabledActionTypes.contains actionType then some disabledEntry else none

/-- `is_enabled(action_type)` -/
def isEnabled (actionType : String) : Bool :=
  (enabledActions.lookup actionType).any (·.executionEnabled)

/-- `role_can(role, action_type)` -/
def roleCan (role : Role) (actionType : String) : Bool :=
  (getActionEntry actionType).any fun entry =>
    entry.executionEnabled && entry.allowedRoles.contains role

/-! ## The policy gate -/

/-- What the policy engine answers. -/
inductive Verdict where
  /-- There is no client. -/
  | absent
  | unavailable
  | restricted
  | fine
deriving Repr, DecidableEq

structure PolicyDecision where
  allowed : Bool
  policyStatus : String
  reason : String
  riskLevel : String := "low"
  requiresConfirmation : Bool := false
deriving Repr, DecidableEq

/-- `evaluate_action(…)` of the gate. -/
def evaluateAction (actionType : String) (role : Role) (verdict : Verdict) : PolicyDecision :=
  match getActionEntry actionType with
  | none => { allowed := false, policyStatus := "policy_blocked", reason := "unknown_action_type",
              riskLevel := "critical" }
  | some entry =>
    let refusal (policyStatus reason : String) : PolicyDecision :=
      { allowed := false
        policyStatus := policyStatus
        reason := reason
        riskLevel := entry.riskLevel
        requiresConfirmation := entry.requiresConfirmation }
    if !isEnabled actionType then refusal "action_disabled" "action_disabled"
    else if !roleCan role actionType then refusal "policy_blocked" "rbac_denied"
    else
      match verdict with
      | .unavailable => refusal "policy_blocked" "policy_engine_unavailable"
      | .restricted => refusal "policy_blocked" "policy_engine_restricted"
      | _ => { allowed := true
               policyStatus := "allowed"
               reason := "ok"
               riskLevel := entry.riskLevel
               requiresConfirmation := entry.requiresConfirmation }

/-! ## The tables -/

/-- A row of `operator_identities` with its active roles. -/
structure Identity where
  active : Bool := true
  roles : List Role
deriving Repr, DecidableEq

/-- A row of `admin_console_sessions`. -/
structure Session where
  identityKey : String
  active : Bool := true
deriving Repr, DecidableEq

/-- `operator_action_requests.status` -/
inductive ActionStatus where
  | requested
  | policyBlocked
  | confirmationRequired
  | approved
  | executing
  | completed
  | failed
deriving Repr, DecidableEq

/-- The payload of a review request, as far as the effects read it. -/
structure Payload where
  noteType : String := "general"
  requestedChanges : List String := []
deriving Repr, DecidableEq

/-- A row of `operator_action_requests`. -/
structure ActionRow where
  identityKey : String
  actionType : String
  targetType : Option String
  targetId : Option String
  reason : String
  requestedPayload : Payload
  riskLevel : String
  policyStatus : String
  confirmationStatus : String
  idempotencyKey : String
  status : ActionStatus
deriving Repr, DecidableEq

/-- A row of `operator_action_confirmations`. -/
structure Confirmation where
  action : Uuid
  identityKey : String
  nonceHash : String
  expiresAt : Time
  used : Bool := false
deriving Repr, DecidableEq

/-- A row of `operator_action_executions`. -/
structure Execution where
  action : Uuid
  executionType : String
  status : ActionStatus
deriving Repr, DecidableEq

/-- `CONFIRMATION_TTL_SECONDS` -/
def confirmationTtlSeconds : Time := 300

/-- `confirmation_valid(…)`: the reason of a refusal, if there is one. -/
def confirmationRefusal (hash : String → String) (providedNonce : String) (c : Confirmation)
    (identityKey : String) (now : Time) : Option String :=
  if c.used then some "confirmation_already_used"
  else if c.identityKey ≠ identityKey then some "confirmation_identity_mismatch"
  else if c.expiresAt ≤ now then some "confirmation_expired"
  else if providedNonce = "" ∨ hash providedNonce ≠ c.nonceHash then some "confirmation_invalid"
  else none

/-! ## Effects -/

/-- What an action does outside its own tables. -/
inductive Effect where
  | reviewNote (packageId : Option String) (identityKey noteType summary : String)
  | decision (packageId : Option String)
      (reviewStatus humanAcceptanceStatus packageStatus summary : String)
      (requestedChanges : List String)
  | verification (scriptKey : Option String)
deriving Repr, DecidableEq

/-- `_apply_effect(…)`; `acceptable` is what `_assert_acceptable` finds. -/
def applyEffect (actionType : String) (targetId : Option String) (reason : String)
    (payload : Payload) (identityKey : String) (acceptable : Bool) : Except String Effect :=
  if actionType = "operator_review.add_note" then
    .ok (.reviewNote targetId identityKey payload.noteType reason)
  else if actionType = "delivery_package.request_changes" then
    .ok (.decision targetId "changes_requested" "pending" "ready_for_review" reason
      payload.requestedChanges)
  else if actionType = "delivery_package.accept" then
    if acceptable then .ok (.decision targetId "accepted" "accepted" "accepted" reason [])
    else .error "package_not_ready_for_review"
  else if actionType = "delivery_package.reject" then
    .ok (.decision targetId "rejected" "rejected" "rejected" reason [])
  else .error ("unsupported_effect:" ++ actionType)

/-- The keys of `ALLOWLISTED_SCRIPTS`. -/
def allowlistedScripts : List String :=
  ["delivery_package_acceptance_gate", "admin_console_v0", "backup_dr_gap_closure",
    "audit_integrity", "full_regression"]

/-! ## Requests -/

/-- What `_authenticate` resolves a session to. -/
structure Ctx where
  identityKey : String
  roles : List Role
deriving Repr, DecidableEq

def Ctx.role (c : Ctx) : Role := highestRole c.roles

/-- What `_create_action` is called with. -/
structure CreateAsk where
  actionType : String
  targetType : Option String
  targetId : Option String
  reason : String
  payload : Payload
  idempotencyKey : String
deriving Repr, DecidableEq

/-- `execute_action` or `verification_run`. -/
inductive Kind where
  | execute
  | verification
deriving Repr, DecidableEq

/-- A request of the API. -/
inductive Ask where
  | create (a : CreateAsk)
  | confirm (action : Uuid)
  | execute (kind : Kind) (action : Uuid) (nonce : String)
deriving Repr, DecidableEq

/-- An execution, with what the request knows of its action. -/
structure Run where
  kind : Kind
  ctx : Ctx
  action : Uuid
  actionType : String
  targetId : Option String
  reason : String
  payload : Payload
  confirmation : Option Uuid
deriving Repr, DecidableEq

/-- A statement that follows the effect. -/
inductive Op where
  | createRerun
  | createExecution (status : ActionStatus)
  | setStatus (status : ActionStatus)
  | linkAudit
deriving Repr, DecidableEq

/-- Where a request stands: the call that comes next. -/
inductive Phase where
  /-- `find_action_by_idempotency` -/
  | creating (ctx : Ctx) (a : CreateAsk)
  /-- `evaluate_action` and `create_action_request` -/
  | deciding (ctx : Ctx) (a : CreateAsk)
  /-- `create_confirmation` -/
  | confirming (ctx : Ctx) (action : Uuid)
  /-- `get_action` of `issue_confirmation` -/
  | issuing (ctx : Ctx) (action : Uuid)
  /-- `get_action` -/
  | fetching (kind : Kind) (ctx : Ctx) (action : Uuid) (nonce : String)
  /-- `get_latest_confirmation` and `confirmation_valid` -/
  | checking (run : Run) (nonce : String)
  /-- `mark_confirmation_used` -/
  | marking (run : Run)
  /-- `update_action_status` after it -/
  | confirmed (run : Run)
  /-- `update_action_status(status="executing")` of `_execute_action` -/
  | approved (run : Run)
  /-- `_apply_effect` or `run_verification` -/
  | applying (run : Run)
  /-- What follows, and what an exception makes follow instead. -/
  | finishing (run : Run) (rest onError : List Op)
  | over
deriving Repr, DecidableEq

/-- What the environment gives a call: a fresh id, a nonce, the verdict of the policy engine,
whether the package is acceptable or the script can be run, and whether the call raises. -/
structure Draw where
  id : Uuid := ⟨0⟩
  nonce : String := ""
  verdict : Verdict := .fine
  able : Bool := true
  raises : Bool := false
deriving Repr, DecidableEq

/-- An execution that came to its effect, with the row of the action and the roles of the
identity it found then. -/
structure Attempt where
  action : Uuid
  confirmation : Option Uuid
  identityKey : String
  effect : Option Effect
  found : Option ActionRow
  roles : List Role
deriving Repr, DecidableEq

/-- A confirmation that was found valid. -/
structure Validation where
  action : Uuid
  confirmation : Uuid
  row : Confirmation
  time : Time
deriving Repr, DecidableEq

/-- The tables, the requests, and what has happened so far. -/
structure World (ρ : Type) [DecidableEq ρ] where
  now : Time
  identities : Table String Identity
  sessions : Table String Session
  actions : Table Uuid ActionRow
  confirmations : Table Uuid Confirmation
  executions : List Execution
  requests : Table ρ Phase
  validations : List Validation
  attempts : List Attempt

variable {ρ : Type} [DecidableEq ρ] (hash : String → String)

/-- `_authenticate`, once the signature of the session's token is verified. -/
def World.authenticate (s : World ρ) (sessionHash : String) : Option Ctx :=
  (s.sessions.find? sessionHash).bind fun session =>
    if !session.active then none
    else
      (s.identities.find? session.identityKey).bind fun identity =>
        if identity.active then some ⟨session.identityKey, identity.roles⟩ else none

/-- `get_latest_confirmation(action_id)`: `ORDER BY c.id DESC LIMIT 1`. -/
def World.latestConfirmation (s : World ρ) (action : Uuid) : Option (Uuid × Confirmation) :=
  (s.confirmations.rows.filter fun e => e.2.action == action).foldl
    (fun best e =>
      match best with
      | none => some e
      | some b => if b.1.value < e.1.value then some e else some b) none

/-- The phase after a call. -/
def World.goto (s : World ρ) (r : ρ) (p : Phase) : World ρ :=
  { s with requests := s.requests.insert r p }

/-- `_create_action` up to its first read. `strip` has been applied to the reason; the key is
checked to be well formed elsewhere, an empty one is refused. -/
def firstPhase (ctx : Ctx) : Ask → Phase
  | .create a => if a.reason = "" ∨ a.idempotencyKey = "" then .over else .creating ctx a
  | .confirm action => .issuing ctx action
  | .execute kind action nonce => .fetching kind ctx action nonce

/-- The row that `_create_action` inserts. -/
def newAction (ctx : Ctx) (a : CreateAsk) (d : PolicyDecision) : ActionRow :=
  let needsConf := d.requiresConfirmation && d.allowed
  { identityKey := ctx.identityKey
    actionType := a.actionType
    targetType := a.targetType
    targetId := a.targetId
    reason := a.reason
    requestedPayload := a.payload
    riskLevel := d.riskLevel
    policyStatus := d.policyStatus
    confirmationStatus := if needsConf then "pending" else "not_required"
    idempotencyKey := a.idempotencyKey
    status := if !d.allowed then .policyBlocked
      else if needsConf then .confirmationRequired else .requested }

/-- What `_create_action` executes at once. -/
def CreateAsk.run (a : CreateAsk) (ctx : Ctx) (action : Uuid) : Run :=
  { kind := .execute
    ctx := ctx
    action := action
    actionType := a.actionType
    targetId := a.targetId
    reason := a.reason
    payload := a.payload
    confirmation := none }

/-- What `execute_action` and `verification_run` execute. -/
def ActionRow.run (row : ActionRow) (kind : Kind) (ctx : Ctx) (action : Uuid) : Run :=
  { kind := kind
    ctx := ctx
    action := action
    actionType := row.actionType
    targetId := row.targetId
    reason := row.reason
    payload := {}
    confirmation := none }

/-- `update_action_status(action_id, status=…)` -/
def World.setStatus (s : World ρ) (action : Uuid) (status : ActionStatus) : World ρ :=
  { s with actions := s.actions.modify action ({ · with status := status }) }

/-- The same with `confirmation_status='confirmed'`. -/
def World.approve (s : World ρ) (action : Uuid) : World ρ :=
  { s with actions := s.actions.modify action fun row =>
      { row with
        status := .approved
        confirmationStatus := "confirmed" } }

/-- The effect of an execution, if it comes to one. -/
def Run.effect (run : Run) (able : Bool) : Option Effect :=
  match run.kind with
  | .execute =>
    (applyEffect run.actionType run.targetId run.reason run.payload run.ctx.identityKey
      able).toOption
  | .verification =>
    if able && (run.targetId.any allowlistedScripts.contains) then some (.verification run.targetId)
    else none

/-- What follows the effect, and what follows an exception in it. -/
def Run.follow (run : Run) (effect : Option Effect) : List Op × List Op :=
  match run.kind, effect with
  | .execute, some _ => ([.createExecution .completed, .setStatus .completed, .linkAudit],
      [.createExecution .failed, .setStatus .failed])
  | .execute, none => ([.createExecution .failed, .setStatus .failed], [])
  | .verification, some _ =>
    ([.createRerun, .createExecution .completed, .setStatus .completed], [])
  | .verification, none => ([.setStatus .failed], [])

/-- One statement that follows the effect. -/
def World.perform (s : World ρ) (run : Run) : Op → World ρ
  | .createRerun => s
  | .createExecution status =>
    { s with executions := s.executions ++ [⟨run.action, run.actionType, status⟩] }
  | .setStatus status => s.setStatus run.action status
  | .linkAudit => s

/-- The effect of an execution, and its record. -/
def World.apply (s : World ρ) (run : Run) (able : Bool) : World ρ :=
  { s with attempts := s.attempts ++ [
      { action := run.action
        confirmation := run.confirmation
        identityKey := run.ctx.identityKey
        effect := run.effect able
        found := s.actions.find? run.action
        roles := ((s.identities.find? run.ctx.identityKey).map Identity.roles).getD [] }] }

/-- `create_action_request(req)` -/
def World.createActionRequest (s : World ρ) (id : Uuid) (row : ActionRow) : World ρ :=
  { s with actions := s.actions.insert id row }

/-- `create_confirmation(action_id, …)` -/
def World.createConfirmation (s : World ρ) (id action : Uuid) (identityKey nonceHash : String) :
    World ρ :=
  let row : Confirmation :=
    { action := action
      identityKey := identityKey
      nonceHash := nonceHash
      expiresAt := s.now + confirmationTtlSeconds }
  { s with confirmations := s.confirmations.insert id row }

/-- `mark_confirmation_used(confirmation_id)` -/
def World.markConfirmationUsed (s : World ρ) (id : Uuid) : World ρ :=
  { s with confirmations := s.confirmations.modify id ({ · with used := true }) }

/-- A confirmation is found valid. -/
def World.validate (s : World ρ) (action id : Uuid) (c : Confirmation) : World ρ :=
  { s with validations := s.validations ++ [⟨action, id, c, s.now⟩] }

/-- The next call of a request. -/
def World.next (s : World ρ) (r : ρ) (d : Draw) : Phase → World ρ
  | .creating ctx a =>
    if s.actions.rows.any fun e => e.2.idempotencyKey == a.idempotencyKey then s.goto r .over
    else if (getActionEntry a.actionType).isNone then s.goto r .over
    else s.goto r (.deciding ctx a)
  | .deciding ctx a =>
    let decision := evaluateAction a.actionType ctx.role d.verdict
    -- the two UNIQUE constraints and the primary key
    if d.raises || (s.actions.find? d.id).isSome ||
        s.actions.rows.any fun e => e.2.idempotencyKey == a.idempotencyKey then s.goto r .over
    else
      let t := s.createActionRequest d.id (newAction ctx a decision)
      if !decision.allowed then t.goto r .over
      else if decision.requiresConfirmation then t.goto r (.confirming ctx d.id)
      else t.goto r (.approved (a.run ctx d.id))
  | .confirming ctx action =>
    if d.raises || (s.confirmations.find? d.id).isSome then s.goto r .over
    else
      (s.createConfirmation d.id action ctx.identityKey (hash d.nonce)).goto r .over
  | .issuing ctx action =>
    match s.actions.find? action with
    | none => s.goto r .over
    | some _ => s.goto r (.confirming ctx action)
  | .fetching kind ctx action nonce =>
    match s.actions.find? action with
    | none => s.goto r .over
    | some row =>
      match kind with
      | .execute =>
        if row.status ≠ .confirmationRequired then s.goto r .over
        else s.goto r (.checking (row.run kind ctx action) nonce)
      | .verification =>
        if row.actionType ≠ "verification.rerun" then s.goto r .over
        else s.goto r (.checking (row.run kind ctx action) nonce)
  | .checking run nonce =>
    match s.latestConfirmation run.action with
    | none => s.goto r .over
    | some (id, c) =>
      match confirmationRefusal hash nonce c run.ctx.identityKey s.now with
      | some _ => s.goto r .over
      | none =>
        (s.validate run.action id c).goto r (.marking { run with confirmation := some id })
  | .marking run =>
    match run.confirmation with
    | none => s.goto r .over
    | some id => (s.markConfirmationUsed id).goto r (.confirmed run)
  | .confirmed run =>
    match run.kind with
    | .execute => (s.approve run.action).goto r (.approved run)
    | .verification => (s.setStatus run.action .executing).goto r (.applying run)
  | .approved run => (s.setStatus run.action .executing).goto r (.applying run)
  | .applying run =>
    let follow := run.follow (run.effect d.able)
    (s.apply run d.able).goto r (.finishing run follow.1 follow.2)
  | .finishing _ [] _ => s.goto r .over
  | .finishing run (op :: rest) onError =>
    if d.raises then s.goto r (.finishing run onError [])
    else (s.perform run op).goto r (.finishing run rest onError)
  | .over => s

/-- What may happen next. -/
inductive Act (ρ : Type) where
  /-- `test_login`: an identity comes by a role and a session. -/
  | login (identityKey : String) (role : Role) (sessionHash : String)
  /-- `logout` -/
  | logout (sessionHash : String)
  | tick (elapsed : Time)
  /-- A request comes in with a verified session and CSRF token. -/
  | start (r : ρ) (sessionHash : String) (ask : Ask)
  | next (r : ρ) (d : Draw)
  /-- The worker dies. -/
  | stop (r : ρ)
deriving Repr, DecidableEq

/-- `upsert_identity(identity_key, roles=[role])` -/
def World.upsertIdentity (s : World ρ) (identityKey : String) (role : Role) :
    Table String Identity :=
  match s.identities.find? identityKey with
  | none => s.identities.insert identityKey { roles := [role] }
  | some identity =>
    s.identities.insert identityKey { identity with roles := role :: identity.roles }

def step (s : World ρ) : Act ρ → Option (World ρ)
  | .login identityKey role sessionHash =>
    some { s with
      identities := s.upsertIdentity identityKey role
      sessions := s.sessions.insert sessionHash { identityKey := identityKey } }
  | .logout sessionHash =>
    some { s with
      sessions := s.sessions.modify sessionHash fun session => { session with active := false } }
  | .tick elapsed => some { s with now := s.now + elapsed }
  | .start r sessionHash ask =>
    match s.requests.find? r with
    | some _ => none
    | none =>
      match s.authenticate sessionHash with
      | none => some (s.goto r .over)
      | some ctx => some (s.goto r (firstPhase ctx ask))
  | .next r d => (s.requests.find? r).map (s.next hash r d ·)
  | .stop r => (s.requests.find? r).map fun _ => s.goto r .over

/-- Some identities and sessions, and no action yet. -/
def World.start (identities : Table String Identity) (sessions : Table String Session) : World ρ :=
  { now := 0
    identities := identities
    sessions := sessions
    actions := .empty
    confirmations := .empty
    executions := []
    requests := .empty
    validations := []
    attempts := [] }

end AiAgentsSwd.Operator
