import AiAgentsSwd.ApprovalPolicy.PathPolicy

/-!
# ApprovalPolicy.Evaluator — which policy authorises an action

Model of `shared/sdk/approval_policy/evaluator.py`. The hard rails are looked at first, then the
candidate policies in their order. What the code asks of the Python runtime is a parameter: the
Unicode tables, `datetime.fromisoformat`, and the clock, which is read once for each candidate.
-/

namespace AiAgentsSwd.ApprovalPolicy

/-- An instant. -/
abbrev Time := Int

/-- What the code asks of the runtime. -/
structure Runtime where
  unicode : Unicode
  /-- `datetime.fromisoformat`; a time without a zone is in UTC. -/
  fromisoformat : String → Option Time
  /-- What the clock says when the candidate at this position is looked at. -/
  now : Nat → Time

/-- `HARD_SAFETY_ACTIONS` -/
def hardSafetyActions : List String := [
  "production_deploy", "real_github_write", "real_github_pr_merge",
  "branch_protection_modification", "force_push", "delete_file", "secret_write",
  "destructive_command", "real_llm_network_call", "denylist_path_mutation"]

/-- A row of `human_approval_policies`. -/
structure HumanApprovalPolicy where
  policyId : String
  taskId : String
  approvalMode : String := "per_action"
  status : String := "pending"
  expiresAt : Option String := none
  maxActions : Option Int := none
  maxFilesChanged : Option Int := none
  maxAutoFixAttempts : Option Int := none
  actionsUsed : Int := 0
  allowedStages : List String := []
  allowedAgents : List String := []
  allowedActions : List String := []
  allowedPaths : List String := []
  deniedPaths : List String := []
deriving Repr, DecidableEq

/-- What is asked of `evaluate_action`. -/
structure Action where
  taskId : String
  workflowId : Option String
  actionType : String
  stage : String
  agent : String
  paths : List String := []
  filesChanged : Int := 0
  contentSamples : List String := []
  riskLevel : String := "low"
deriving Repr, DecidableEq

/-- The `safety_snapshot` of a result. -/
structure SafetySnapshot where
  taskId : String
  workflowId : Option String
  actionType : String
  stage : String
  agent : String
  paths : List String
  filesChanged : Int
  riskLevel : String
  productionExecuted : Bool := false
  realCall : Bool := false
deriving Repr, DecidableEq

def Action.snapshot (a : Action) : SafetySnapshot :=
  { taskId := a.taskId
    workflowId := a.workflowId
    actionType := a.actionType
    stage := a.stage
    agent := a.agent
    paths := a.paths
    filesChanged := a.filesChanged
    riskLevel := a.riskLevel }

structure EvaluationResult where
  allowed : Bool := false
  reason : String := ""
  policyId : String := ""
  approvalMode : String := ""
  hardPolicyBlock : Bool := false
  requiresExplicitApproval : Bool := false
  safetySnapshot : SafetySnapshot
deriving Repr, DecidableEq

variable (rt : Runtime)

/-- `_parse_dt(value)` -/
def parseDt (value : Option String) : Option Time :=
  value.bind fun s =>
    match s.toList.reverse with
    | 'Z' :: rest => rt.fromisoformat (String.ofList rest.reverse ++ "+00:00")
    | _ => rt.fromisoformat s

/-- `_policy_expired(policy, now)`; what cannot be parsed never expires. -/
def policyExpired (policy : HumanApprovalPolicy) (now : Time) : Bool :=
  match parseDt rt policy.expiresAt with
  | none => false
  | some expires => decide (expires ≤ now)

/-- `_path_blocked_by_denylist(path, denylist)`: the reason of a denied path. -/
def pathBlockedByDenylist (path : String) (denylist : List String) : Option String :=
  match validateAllowedPath rt.unicode path defaultAllowedPaths (defaultDeniedPaths ++ denylist) with
  | (true, _) => none
  | (false, why) => if startsWith why "denied:" then some why else none

/-- What the hard rails say to one path. -/
def pathRail (path : String) : Option String :=
  match validateAllowedPath rt.unicode path defaultAllowedPaths defaultDeniedPaths with
  | (true, _) => none
  | (false, why) =>
    if startsWith why "denied:" then some ("hard_safety:denylist_path:" ++ path)
    else if why = "path_traversal" then some ("hard_safety:path_traversal:" ++ path)
    else none

/-- What the hard rails say to one content. -/
def contentRail (sample : String) : Option String :=
  match validateNoSecretContent rt.unicode sample with
  | (false, why) => some ("hard_safety:" ++ why)
  | (true, _) =>
    match validateNoDestructiveChange rt.unicode sample with
    | (false, why) => some ("hard_safety:" ++ why)
    | (true, _) => none

/-- `_hard_safety_check(…)`: the reason of a block. -/
def hardSafetyCheck (actionType : String) (paths contentSamples : List String) : Option String :=
  if hardSafetyActions.contains actionType then some ("hard_safety:" ++ actionType)
  else
    match paths.findSome? (pathRail rt) with
    | some why => some why
    | none => contentSamples.findSome? (contentRail rt)

/-- `if refused: return False, why`, and what follows it. -/
def refuseIf (refused : Bool) (why : String) (next : Bool × String) : Bool × String :=
  if refused then (false, why) else next

@[simp] theorem refuseIf_fst {refused : Bool} {why : String} {next : Bool × String} :
    (refuseIf refused why next).1 = true ↔ refused = false ∧ next.1 = true := by
  cases refused <;> simp [refuseIf]

/-- `_policy_constraints_ok(policy)` -/
def policyConstraintsOk (policy : HumanApprovalPolicy) : Bool × String :=
  if policy.approvalMode ≠ "delegated" then (true, "n/a")
  else
    refuseIf policy.expiresAt.isNone "delegated_missing:expires_at" <|
    refuseIf policy.allowedActions.isEmpty "delegated_missing:allowed_actions" <|
    refuseIf policy.allowedPaths.isEmpty "delegated_missing:allowed_paths" <|
    refuseIf policy.deniedPaths.isEmpty "delegated_missing:denied_paths" <|
    refuseIf (policy.maxActions.all (decide <| · ≤ 0)) "delegated_missing:max_actions" <|
    refuseIf (policy.maxFilesChanged.all (decide <| · ≤ 0))
      "delegated_missing:max_files_changed" <|
    refuseIf (policy.maxAutoFixAttempts.all (decide <| · < 0))
      "delegated_missing:max_auto_fix_attempts" (true, "ok")

/-- `path.replace("\\", "/").lstrip("./")` -/
def lstripDotSlash (path : String) : List Char :=
  (slashes path).dropWhile fun c => c == '.' || c == '/'

/-- What one policy says against one path. -/
def pathRefusal (policy : HumanApprovalPolicy) (path : String) : Option String :=
  match pathBlockedByDenylist rt path policy.deniedPaths with
  | some why => some ("policy_denied_path:" ++ path ++ ":" ++ why)
  | none =>
    if !policy.allowedPaths.isEmpty && !policy.allowedPaths.any fun root =>
        (lstripDotSlash root).isPrefixOf (lstripDotSlash path) then
      some ("path_not_in_policy_allowlist:" ++ path)
    else none

/-- `_policy_authorises(policy, …)`, `now` being what the clock says. -/
def policyAuthorises (policy : HumanApprovalPolicy) (a : Action) (now : Time) : Bool × String :=
  refuseIf (policy.status != "active") ("policy_not_active:" ++ policy.status) <|
  refuseIf (policyExpired rt policy now) "policy_expired" <|
  refuseIf (!(policyConstraintsOk policy).1) (policyConstraintsOk policy).2 <|
  refuseIf (policy.taskId != "" && policy.taskId != a.taskId) "policy_task_mismatch" <|
  refuseIf (policy.approvalMode == "per_stage" && !policy.allowedStages.isEmpty && a.stage != "" &&
    !policy.allowedStages.contains a.stage) ("stage_not_allowed:" ++ a.stage) <|
  refuseIf (!policy.allowedActions.isEmpty && !policy.allowedActions.contains a.actionType)
    ("action_not_allowed:" ++ a.actionType) <|
  refuseIf (!policy.allowedAgents.isEmpty && a.agent != "" &&
    !policy.allowedAgents.contains a.agent) ("agent_not_allowed:" ++ a.agent) <|
  match a.paths.findSome? (pathRefusal rt policy) with
  | some why => (false, why)
  | none =>
    refuseIf (policy.maxFilesChanged.any (decide <| · < a.filesChanged))
      ("max_files_changed_exceeded:" ++ toString a.filesChanged ++ ">" ++
        toString (policy.maxFilesChanged.getD 0)) <|
    refuseIf (policy.maxActions.any (decide <| · ≤ policy.actionsUsed)) "max_actions_exceeded"
      (true, "ok")

/-- The candidates from position `i` on, after the last refusal. -/
def tryPolicies (a : Action) : (i : Nat) → (lastRefusal : String) → List HumanApprovalPolicy →
    EvaluationResult
  | _, lastRefusal, [] =>
    let explicit := lastRefusal == "per_action_requires_explicit_approval"
    { reason := lastRefusal
      approvalMode := if explicit then "per_action" else ""
      requiresExplicitApproval := explicit
      safetySnapshot := a.snapshot }
  | i, _, policy :: rest =>
    if policy.approvalMode = "per_action" then
      tryPolicies a (i + 1) "per_action_requires_explicit_approval" rest
    else
      match policyAuthorises rt policy a (rt.now i) with
      | (true, _) =>
        { allowed := true
          reason := "policy_allows"
          policyId := policy.policyId
          approvalMode := policy.approvalMode
          safetySnapshot := a.snapshot }
      | (false, reason) => tryPolicies a (i + 1) reason rest

/-- `evaluate_action(…)` -/
def evaluateAction (a : Action) (candidatePolicies : List HumanApprovalPolicy) :
    EvaluationResult :=
  match hardSafetyCheck rt a.actionType a.paths a.contentSamples with
  | some why =>
    { reason := why
      hardPolicyBlock := true
      safetySnapshot := a.snapshot }
  | none => tryPolicies rt a 0 "no_active_policy" candidatePolicies

end AiAgentsSwd.ApprovalPolicy
