import AiAgentsSwd.ApprovalPolicy.Evaluator
import AiAgentsSwd.Keyed.Table
import AiAgentsSwd.Planning.Models
import AiAgentsSwd.Transition.Basic
import Mathlib.Data.List.Sort

/-!
# ApprovalPolicy.Promotion — policies, approvals and the promotion of proposals

Model of `apps/orchestrator/src/approval_policy_api.py` with the tables of
`shared/sdk/approval_policy/store.py` and the safety policy of `shared/sdk/llm/policy.py`.

Each call of a store commits by itself. A request is in a `Phase`, which carries what it has
read, and `next` makes the one call that comes next. An exception that nothing catches ends a
request as the death of its worker does. The order of `created_at` is that of a serial number.
-/

namespace AiAgentsSwd.ApprovalPolicy

open Keyed (Table)
open Planning (Uuid)

/-! ## The safety policy of proposals -/

/-- `LLMFileChange` -/
structure LlmFileChange where
  filePath : String
  changeType : String
  proposedContent : String
deriving Repr, DecidableEq

/-- An entry of `proposed_files`, with the texts that `str(entry.get(…) or "")` gives. -/
inductive ProposedFile where
  | file (filePath changeType proposedContent : String)
  /-- Not a dict. -/
  | other
deriving Repr, DecidableEq

/-- A violation of the safety policy. -/
structure Violation where
  rule : String
  filePath : Option String := none
  reason : String
deriving Repr, DecidableEq

/-- `max_files_changed` of `DEFAULT_POLICY_LIMITS` -/
def maxFilesChanged : Nat := 5

/-- `max_content_chars_per_file` -/
def maxContentCharsPerFile : Nat := 20000

/-- `_ALLOWED_CHANGE_TYPES`, and `ALLOWED_CHANGE_TYPES` of the proposals. -/
def allowedChangeTypes : List String := ["create", "update"]

/-- `validate_change_type(change_type)` -/
def validateChangeType (u : Unicode) (changeType : String) : Bool × String :=
  let ct := String.ofList (u.lower (strip changeType.toList))
  if allowedChangeTypes.contains ct then (true, "change_type:" ++ ct)
  else (false, "disallowed_change_type:" ++ if ct = "" then "empty" else ct)

/-- A violation, where a check has refused. -/
def violation (rule : String) (filePath : String) (check : Bool × String) : List Violation :=
  if check.1 then [] else [{ rule := rule, filePath := some filePath, reason := check.2 }]

/-- `_check_path(path, policy)` -/
def checkPath (u : Unicode) (path : String) : Bool × String :=
  validateAllowedPath u path defaultAllowedPaths defaultDeniedPaths

/-- `_check_change(change, policy)` -/
def checkChange (u : Unicode) (change : LlmFileChange) : List Violation :=
  let changeType := validateChangeType u change.changeType
  let chars := change.proposedContent.length
  violation "path_blocked" change.filePath (checkPath u change.filePath) ++
  violation "change_type_blocked" change.filePath
    (changeType.1 && allowedChangeTypes.contains change.changeType, changeType.2) ++
  violation "secret_like_content" change.filePath
    (validateNoSecretContent u change.proposedContent) ++
  violation "destructive_content" change.filePath
    (validateNoDestructiveChange u change.proposedContent) ++
  violation "content_too_large" change.filePath
    (decide (chars ≤ maxContentCharsPerFile), "content_chars=" ++ toString chars ++ " > max=" ++
      toString maxContentCharsPerFile)

/-- `apply_llm_safety_policy(patch)`: the violations, none of an allowed patch. -/
def applyLlmSafetyPolicy (u : Unicode) (changes : List LlmFileChange)
    (proposedFiles : List String) : List Violation :=
  (if changes.length ≤ maxFilesChanged then []
    else [{ rule := "too_many_files"
            reason := "changes=" ++ toString changes.length ++ " > max=" ++
              toString maxFilesChanged }]) ++
  changes.flatMap (checkChange u) ++
  proposedFiles.flatMap fun path => violation "path_blocked" path (checkPath u path)

/-- `_proposal_to_patch(proposal_row)`: its changes; `proposed_files` are their paths. -/
def proposalToPatch (files : List ProposedFile) : List LlmFileChange :=
  files.filterMap fun
    | .other => none
    | .file filePath changeType proposedContent =>
      if filePath = "" then none
      else some
        { filePath := filePath
          changeType := if changeType = "" then "create" else changeType
          proposedContent := proposedContent }

/-! ## The tables -/

/-- A row of `llm_proposal_artifacts`. -/
structure LlmProposal where
  taskId : String
  status : String
  proposedFiles : List ProposedFile
  createdAt : Nat
deriving Repr, DecidableEq

/-- A row of `human_approval_policies` with its place in the order of creation. -/
structure PolicyRow where
  policy : HumanApprovalPolicy
  createdAt : Nat
deriving Repr, DecidableEq

/-- `llm_proposal_approvals.status` -/
inductive ApprovalStatus where
  | pending
  | approved
  | rejected
deriving Repr, DecidableEq

/-- A row of `llm_proposal_approvals`. -/
structure LlmProposalApproval where
  proposal : Uuid
  taskId : String
  status : ApprovalStatus := .pending
  createdAt : Nat
deriving Repr, DecidableEq

/-- The statuses that a promotion is given here. -/
inductive PromotionStatus where
  | promoted
  | validationFailed
  | blockedByPolicy
deriving Repr, DecidableEq

/-- `decision_source` -/
inductive DecisionSource where
  | explicitApproval
  | policyAllows
deriving Repr, DecidableEq

/-- A row of `llm_proposal_promotions`. The last two fields are history: the row that the
approval had when the promotion was written, and whether the policy had been revoked by then. -/
structure LlmProposalPromotion where
  proposal : Uuid
  taskId : String
  approvalId : Option Uuid
  policyId : Option String
  workspaceId : Option Uuid := none
  status : PromotionStatus
  promotedBy : String
  promotionMode : String
  promotedFiles : List String := []
  decisionSource : Option DecisionSource := none
  evaluation : Option EvaluationResult
  found : Option LlmProposalApproval := none
  revoked : Bool := false
deriving Repr, DecidableEq

/-! ## Requests -/

/-- `APPROVAL_MODES` -/
def approvalModes : List String := ["per_action", "per_feature", "per_stage", "delegated"]

/-- `SCOPE_TYPES` -/
def scopeTypes : List String := ["action", "feature", "stage", "workflow", "task"]

/-- `CreatePolicyIn`, as far as the policy is read. -/
structure CreatePolicyIn where
  taskId : String
  scopeType : String := "task"
  approvalMode : String := "per_action"
  allowedStages : List String := []
  allowedAgents : List String := []
  allowedActions : List String := []
  allowedPaths : List String := []
  deniedPaths : List String := []
  maxActions : Option Int := none
  maxFilesChanged : Option Int := none
  maxAutoFixAttempts : Option Int := none
  expiresAt : Option String := none
  activate : Bool := true
deriving Repr, DecidableEq

/-- `_validate_create_payload(payload)`: the detail of the 400. -/
def validateCreatePayload (p : CreatePolicyIn) : Option String :=
  let delegated := p.approvalMode == "delegated"
  let perStage := p.approvalMode == "per_stage"
  let confined := p.approvalMode == "per_feature" || perStage
  (([(!approvalModes.contains p.approvalMode, "unknown approval_mode:" ++ p.approvalMode),
      (!scopeTypes.contains p.scopeType, "unknown scope_type:" ++ p.scopeType),
      (delegated && p.allowedActions.isEmpty, "delegated_missing:allowed_actions"),
      (delegated && p.allowedPaths.isEmpty, "delegated_missing:allowed_paths"),
      (delegated && p.deniedPaths.isEmpty, "delegated_missing:denied_paths"),
      (delegated && p.maxActions.all (decide <| · ≤ 0), "delegated_missing:max_actions"),
      (delegated && p.maxFilesChanged.all (decide <| · ≤ 0),
        "delegated_missing:max_files_changed"),
      (delegated && p.maxAutoFixAttempts.all (decide <| · < 0),
        "delegated_missing:max_auto_fix_attempts"),
      (delegated && p.expiresAt.all (· == ""), "delegated_missing:expires_at"),
      (confined && p.allowedActions.isEmpty, p.approvalMode ++ "_missing:allowed_actions"),
      (confined && p.allowedPaths.isEmpty, p.approvalMode ++ "_missing:allowed_paths"),
      (perStage && p.allowedStages.isEmpty, "per_stage_missing:allowed_stages")] :
    List (Bool × String)).find? (·.1)).map (·.2)

/-- `raw.replace("Z", "+00:00")` of `_parse_expires_at`, which the column gives back in some
spelling of the same instant. -/
def expiresColumn (raw : Option String) : Option String :=
  (raw.filter (· != "")).map fun s =>
    String.ofList (s.toList.flatMap fun c => if c = 'Z' then "+00:00".toList else [c])

/-- The row that `create_policy` inserts. -/
def CreatePolicyIn.policy (p : CreatePolicyIn) (id : String) : HumanApprovalPolicy :=
  { policyId := id
    taskId := p.taskId
    approvalMode := p.approvalMode
    status := if p.activate then "active" else "pending"
    expiresAt := expiresColumn p.expiresAt
    maxActions := p.maxActions
    maxFilesChanged := p.maxFilesChanged
    maxAutoFixAttempts := p.maxAutoFixAttempts
    actionsUsed := 0
    allowedStages := p.allowedStages
    allowedAgents := p.allowedAgents
    allowedActions := p.allowedActions
    allowedPaths := p.allowedPaths
    deniedPaths := p.deniedPaths }

/-- What `request_proposal_approval` is called with. -/
structure ApprovalAsk where
  proposal : Uuid
  taskId : String
  approvalMode : String := "per_action"
deriving Repr, DecidableEq

/-- `approve_proposal` or `reject_proposal`. -/
inductive Verdict where
  | approve
  | reject
deriving Repr, DecidableEq

def Verdict.status : Verdict → ApprovalStatus
  | approve => .approved
  | reject => .rejected

/-- What `promote_proposal` is called with: the id of the proposal and `PromoteIn`. -/
structure PromoteIn where
  proposal : Uuid
  taskId : String
  workflowId : Option String := none
  promotedBy : String := "operator"
  approvalId : Option Uuid := none
  policyId : Option String := none
  promotionMode : String := "manual"
deriving Repr, DecidableEq

/-- The policy that the payload names; the empty text names none. -/
def PromoteIn.named (c : PromoteIn) : Option String := c.policyId.filter (· != "")

/-- What `_select_authorising_policy` asks of the evaluator. -/
def PromoteIn.action (c : PromoteIn) (changes : List LlmFileChange) : Action :=
  { taskId := c.taskId
    workflowId := c.workflowId
    actionType := "llm_proposal_promote"
    stage := "code_generation"
    agent := c.promotedBy
    paths := changes.map LlmFileChange.filePath
    filesChanged := changes.length
    contentSamples := changes.map LlmFileChange.proposedContent }

/-- What a promotion has found out when its gates are passed. -/
structure Decision where
  call : PromoteIn
  changes : List LlmFileChange
  chosen : Option HumanApprovalPolicy
  result : EvaluationResult
  approval : Option (Uuid × LlmProposalApproval)
deriving Repr, DecidableEq

namespace Decision

variable (d : Decision)

/-- `explicit_ok` -/
def explicitOk : Bool := d.approval.any (·.2.status == .approved)

/-- `effective_policy_id` -/
def effectivePolicyId : Option String :=
  d.call.named.or (d.chosen.map HumanApprovalPolicy.policyId)

/-- `decision_source` -/
def decisionSource : DecisionSource := if d.explicitOk then .explicitApproval else .policyAllows

/-- `effective_mode` -/
def effectiveMode : String :=
  if d.result.allowed && !d.explicitOk then
    if d.chosen.any (·.approvalMode == "delegated") then "delegated_agent" else "policy_allowed"
  else d.call.promotionMode

end Decision

/-- Where a request stands: the call that comes next. -/
inductive Phase where
  /-- `list_proposals` of `request_proposal_approval` -/
  | asking (a : ApprovalAsk)
  /-- `request_approval` -/
  | requesting (a : ApprovalAsk)
  /-- `get_latest_approval` of `approve_proposal` and `reject_proposal` -/
  | finding (proposal : Uuid) (verdict : Verdict)
  /-- the `UPDATE` of that approval -/
  | settling (approval : Uuid) (verdict : Verdict)
  /-- `list_proposals` of `promote_proposal`, and the safety policy -/
  | loading (c : PromoteIn)
  /-- `create_promotion(status="blocked_by_policy")` -/
  | refusing (c : PromoteIn) (evaluation : Option EvaluationResult)
  /-- `_select_authorising_policy` -/
  | selecting (c : PromoteIn) (changes : List LlmFileChange)
  /-- `list_approvals` or `get_latest_approval` -/
  | approving (c : PromoteIn) (changes : List LlmFileChange)
      (chosen : Option HumanApprovalPolicy) (result : EvaluationResult)
  /-- `get_workspace` -/
  | locating (d : Decision)
  /-- `add_code_change_artifact`, one change after the other -/
  | materialising (d : Decision) (workspace : Option Uuid) (rest : List LlmFileChange)
      (accepted : List String)
  /-- `create_promotion` -/
  | promoting (d : Decision) (workspace : Option Uuid) (accepted : List String)
  /-- `update_promotion`, which sets `promoted_at` and the status once more -/
  | stamping (d : Decision) (status : PromotionStatus)
  /-- `increment_actions_used` -/
  | counting (d : Decision) (status : PromotionStatus)
  /-- `record_decision` and `update_proposal_status` -/
  | marking (d : Decision) (status : PromotionStatus)
  | over
deriving Repr, DecidableEq

/-- What the environment gives a call: a fresh id, the clock of the database and the clock of the
evaluator, the workspace of the task, and whether a call whose exceptions are suppressed raises. -/
structure Draw where
  id : Uuid := ⟨0⟩
  now : Time := 0
  clock : Nat → Time := fun _ => 0
  workspace : Option Uuid := none
  raises : Bool := false

/-- The tables, the requests, and the policies revoked so far. -/
structure World (ρ : Type) [DecidableEq ρ] where
  serial : Nat
  proposals : Table Uuid LlmProposal
  policies : Table String PolicyRow
  approvals : Table Uuid LlmProposalApproval
  promotions : List LlmProposalPromotion
  requests : Table ρ Phase
  revoked : List String

variable {ρ : Type} [DecidableEq ρ]

/-- `ORDER BY created_at DESC` -/
def newestFirst {K R : Type} (createdAt : R → Nat) (rows : List (K × R)) : List (K × R) :=
  rows.insertionSort fun a b => createdAt b.2 ≤ createdAt a.2

namespace World

variable (s : World ρ)

/-- `list_proposals(task_id=…, limit=200)` -/
def listProposals (taskId : String) : List (Uuid × LlmProposal) :=
  (newestFirst LlmProposal.createdAt
    (s.proposals.rows.filter fun e => e.2.taskId == taskId)).take 200

/-- A policy as it is read: `policy_id` is the key. -/
def readPolicy (e : String × PolicyRow) : HumanApprovalPolicy :=
  { e.2.policy with policyId := e.1 }

/-- `get_policy(policy_id)` -/
def getPolicy (id : String) : Option HumanApprovalPolicy :=
  (s.policies.find? id).map fun row => readPolicy (id, row)

/-- `list_active_policies_for(task_id=…)` -/
def listActivePolicies (rt : Runtime) (taskId : String) (now : Time) : List HumanApprovalPolicy :=
  (newestFirst PolicyRow.createdAt (s.policies.rows.filter fun e =>
    e.2.policy.taskId == taskId && e.2.policy.status == "active" &&
      !policyExpired rt e.2.policy now)).map readPolicy

/-- `get_latest_approval(proposal_id)` -/
def getLatestApproval (proposal : Uuid) : Option (Uuid × LlmProposalApproval) :=
  (newestFirst LlmProposalApproval.createdAt
    (s.approvals.rows.filter fun e => e.2.proposal == proposal)).head?

/-- `list_approvals(task_id=…, proposal_id=…, limit=20)` -/
def listApprovals (taskId : String) (proposal : Uuid) : List (Uuid × LlmProposalApproval) :=
  (newestFirst LlmProposalApproval.createdAt
    (s.approvals.rows.filter fun e => e.2.taskId == taskId && e.2.proposal == proposal)).take 20

/-- `explicit_approval` -/
def explicitApproval (c : PromoteIn) : Option (Uuid × LlmProposalApproval) :=
  match c.approvalId with
  | some id => (s.listApprovals c.taskId c.proposal).find? (·.1 == id)
  | none => s.getLatestApproval c.proposal

/-- The candidates of `_select_authorising_policy`. -/
def candidates (rt : Runtime) (c : PromoteIn) (now : Time) : List HumanApprovalPolicy :=
  match c.named with
  | some id => (s.getPolicy id).toList
  | none => s.listActivePolicies rt c.taskId now

/-- `_select_authorising_policy(…)` -/
def select (rt : Runtime) (c : PromoteIn) (changes : List LlmFileChange) (d : Draw) :
    Option HumanApprovalPolicy × EvaluationResult :=
  let candidates := s.candidates rt c d.now
  let result := evaluateAction { rt with now := d.clock } (c.action changes) candidates
  (if result.allowed && result.policyId != "" then
    candidates.find? (·.policyId == result.policyId) else none, result)

/-- The decision of a promotion. -/
def decision (c : PromoteIn) (changes : List LlmFileChange)
    (chosen : Option HumanApprovalPolicy) (result : EvaluationResult) : Decision :=
  { call := c
    changes := changes
    chosen := chosen
    result := result
    approval := s.explicitApproval c }

/-- The phase after a call. -/
def goto (r : ρ) (p : Phase) : World ρ :=
  { s with requests := s.requests.modify r fun _ => p }

/-- `create_promotion(…)` -/
def createPromotion (p : LlmProposalPromotion) : World ρ :=
  { s with promotions := s.promotions ++ [p] }

/-- `update_policy_status(policy_id, status=…)` -/
def updatePolicyStatus (id status : String) : World ρ :=
  { s with policies := s.policies.modify id fun row =>
      { row with policy := { row.policy with status := status } } }

/-- `increment_actions_used(policy_id)` -/
def incrementActionsUsed (id : String) : World ρ :=
  { s with policies := s.policies.modify id fun row =>
      { row with policy := { row.policy with actionsUsed := row.policy.actionsUsed + 1 } } }

/-- `request_approval(…)` -/
def requestApproval (id : Uuid) (a : ApprovalAsk) : World ρ :=
  let row : LlmProposalApproval :=
    { proposal := a.proposal
      taskId := a.taskId
      createdAt := s.serial }
  { s with
    serial := s.serial + 1
    approvals := s.approvals.insert id row }

/-- The `UPDATE` of `approve_proposal` and `reject_proposal`. -/
def settleApproval (id : Uuid) (verdict : Verdict) : World ρ :=
  { s with approvals := s.approvals.modify id fun row => { row with status := verdict.status } }

/-- `update_proposal_status(proposal_id, status=…)` -/
def updateProposalStatus (id : Uuid) (status : String) : World ρ :=
  { s with proposals := s.proposals.modify id fun row => { row with status := status } }

end World

/-- The promotion that is refused. -/
def PromoteIn.refused (c : PromoteIn) (evaluation : Option EvaluationResult) :
    LlmProposalPromotion :=
  { proposal := c.proposal
    taskId := c.taskId
    approvalId := c.approvalId
    policyId := c.policyId
    status := .blockedByPolicy
    promotedBy := c.promotedBy
    promotionMode := c.promotionMode
    evaluation := evaluation }

/-- The promotion that is made. -/
def Decision.promotion (d : Decision) (s : World ρ) (workspace : Option Uuid)
    (accepted : List String) : LlmProposalPromotion :=
  let approvalId := d.call.approvalId.or (d.approval.map (·.1))
  { proposal := d.call.proposal
    taskId := d.call.taskId
    approvalId := approvalId
    policyId := d.effectivePolicyId
    workspaceId := workspace
    status := if accepted.isEmpty then .validationFailed else .promoted
    promotedBy := d.call.promotedBy
    promotionMode := d.effectiveMode
    promotedFiles := accepted
    decisionSource := some d.decisionSource
    evaluation := some d.result
    found := approvalId.bind s.approvals.find?
    revoked := d.effectivePolicyId.any s.revoked.contains }

/-- What `update_proposal_status` is told after a promotion. -/
def PromotionStatus.proposalStatus : PromotionStatus → String
  | promoted => "accepted_for_workspace"
  | _ => "policy_passed"

variable (rt : Runtime)

/-- The next call of a request. -/
def World.next (s : World ρ) (r : ρ) (d : Draw) : Phase → World ρ
  | .asking a =>
    if approvalModes.contains a.approvalMode &&
        (s.listProposals a.taskId).any (·.1 == a.proposal) then s.goto r (.requesting a)
    else s.goto r .over
  | .requesting a =>
    if (s.approvals.find? d.id).isSome then s.goto r .over
    else (s.requestApproval d.id a).goto r .over
  | .finding proposal verdict =>
    match s.getLatestApproval proposal with
    | none => s.goto r .over
    | some existing => s.goto r (.settling existing.1 verdict)
  | .settling approval verdict => (s.settleApproval approval verdict).goto r .over
  | .loading c =>
    match (s.listProposals c.taskId).find? (·.1 == c.proposal) with
    | none => s.goto r .over
    | some e =>
      let changes := proposalToPatch e.2.proposedFiles
      let violations := applyLlmSafetyPolicy rt.unicode changes (changes.map LlmFileChange.filePath)
      if e.2.status == "blocked" || !violations.isEmpty then s.goto r (.refusing c none)
      else s.goto r (.selecting c changes)
  | .refusing c evaluation => (s.createPromotion (c.refused evaluation)).goto r .over
  | .selecting c changes =>
    let selected := s.select rt c changes d
    s.goto r (.approving c changes selected.1 selected.2)
  | .approving c changes chosen result =>
    let decision := s.decision c changes chosen result
    if !result.allowed && !decision.explicitOk then s.goto r (.refusing c (some result))
    else s.goto r (.locating decision)
  | .locating decision =>
    let workspace := if d.raises then none else d.workspace
    s.goto r (.materialising decision workspace decision.changes [])
  | .materialising decision workspace [] accepted =>
    s.goto r (.promoting decision workspace accepted)
  | .materialising decision workspace (change :: rest) accepted =>
    if !(checkPath rt.unicode change.filePath).1 || workspace.isNone || d.raises then
      s.goto r (.materialising decision workspace rest accepted)
    else s.goto r (.materialising decision workspace rest (accepted ++ [change.filePath]))
  | .promoting decision workspace accepted =>
    let promotion := decision.promotion s workspace accepted
    (s.createPromotion promotion).goto r (.stamping decision promotion.status)
  | .stamping decision status => s.goto r (.counting decision status)
  | .counting decision status =>
    match decision.effectivePolicyId with
    | none => s.goto r (.marking decision status)
    | some id =>
      if d.raises then s.goto r (.marking decision status)
      else (s.incrementActionsUsed id).goto r (.marking decision status)
  | .marking decision status =>
    if d.raises then s.goto r .over
    else (s.updateProposalStatus decision.call.proposal status.proposalStatus).goto r .over
  | .over => s

/-- A request of the API that takes several calls. -/
inductive Ask where
  | requestApproval (a : ApprovalAsk)
  | settle (proposal : Uuid) (verdict : Verdict)
  | promote (c : PromoteIn)
deriving Repr, DecidableEq

/-- The first call of a request. -/
def Ask.phase : Ask → Phase
  | requestApproval a => .asking a
  | settle proposal verdict => .finding proposal verdict
  | promote c => .loading c

/-- What may happen next. -/
inductive Act (ρ : Type) where
  /-- The planner stores a proposal. -/
  | propose (id : Uuid) (taskId status : String) (proposedFiles : List ProposedFile)
  /-- The planner sets the status of a proposal. -/
  | restate (id : Uuid) (status : String)
  | createPolicy (id : String) (payload : CreatePolicyIn)
  | activatePolicy (id : String)
  | revokePolicy (id : String)
  /-- A request comes in. -/
  | start (r : ρ) (ask : Ask)
  | next (r : ρ) (d : Draw)
  /-- The worker dies. -/
  | stop (r : ρ)

/-- `create_policy(payload)`; the id is a fresh one, and no id is empty. -/
def World.createPolicy (s : World ρ) (id : String) (payload : CreatePolicyIn) : World ρ :=
  let unparsable := (expiresColumn payload.expiresAt).any fun raw => (rt.fromisoformat raw).isNone
  if (validateCreatePayload payload).isSome || unparsable || id == "" ||
      (s.policies.find? id).isSome then s
  else
    { s with
      serial := s.serial + 1
      policies := s.policies.insert id ⟨payload.policy id, s.serial⟩ }

def step (s : World ρ) : Act ρ → Option (World ρ)
  | .propose id taskId status proposedFiles =>
    match s.proposals.find? id with
    | some _ => none
    | none => some { s with
        serial := s.serial + 1
        proposals := s.proposals.insert id ⟨taskId, status, proposedFiles, s.serial⟩ }
  | .restate id status => some (s.updateProposalStatus id status)
  | .createPolicy id payload => some (s.createPolicy rt id payload)
  | .activatePolicy id => some (s.updatePolicyStatus id "active")
  | .revokePolicy id =>
    match s.policies.find? id with
    | none => some s
    | some _ => some { s.updatePolicyStatus id "revoked" with revoked := id :: s.revoked }
  | .start r ask =>
    match s.requests.find? r with
    | some _ => none
    | none => some { s with requests := s.requests.insert r ask.phase }
  | .next r d => (s.requests.find? r).map (s.next rt r d ·)
  | .stop r => (s.requests.find? r).map fun _ => s.goto r .over

/-- Nothing is stored yet. -/
def World.start : World ρ :=
  { serial := 0
    proposals := .empty
    policies := .empty
    approvals := .empty
    promotions := []
    requests := .empty
    revoked := [] }

end AiAgentsSwd.ApprovalPolicy
