import Mathlib.Data.List.Basic
import Mathlib.Tactic.Common

/-!
# Routing.Router — which model answers a request

Model of `ModelRouter.route` of `shared/sdk/llm_routing/router.py` and of the predicates of
`evaluator.py`. The registry is the rows of `llm_model_registry`; the lookup of the active policy,
the estimate of a cost and what the budget's preflight answers are parameters, costs being values
of an ordered type. The router reads and does not write: a decision that is persisted is the one
that is returned.
-/

namespace AiAgentsSwd.Routing

/-! ## Rows and decisions -/

/-- `llm_model_registry.status` -/
inductive ModelStatus where
  | active
  | inactive
  | deprecated
  | blocked
deriving Repr, DecidableEq

/-- `LLMRoutingDecision.decision`, as the router fills it in. -/
inductive DecisionKind where
  | selected
  | mockSelected
  | fallbackSelected
  | blocked
  | budgetBlocked
  | providerUnavailable
  | policyNotFound
  | humanApprovalRequired
  | directModelRejected
deriving Repr, DecidableEq

/-- `LLMCapabilityRequest` -/
structure CapabilityRequest where
  agentName : String
  capability : String
  taskId : Option String := none
  workflowId : Option String := none
  taskType : String := "default"
  riskLevel : String := "low"
  requestedSchema : Option String := none
  requestedModelAlias : Option String := none
  estimatedInputTokens : Int := 0
  maxOutputTokens : Option Int := none
  allowRealLlmRequested : Bool := false
  allowPatchGenerationRequested : Bool := false
  allowWorkspaceWriteRequested : Bool := false

variable {κ : Type}

/-- `LLMModelEntry` -/
structure ModelEntry (κ : Type) where
  modelId : String
  provider : String
  modelName : String
  modelAlias : String
  modelTier : String := "tier_3_documentation_classification"
  capabilities : List String := []
  supportedSchemas : List String := []
  defaultMaxOutputTokens : Option Int := none
  costPer1kInputTokens : κ
  costPer1kOutputTokens : κ
  status : ModelStatus := .active
  requiresHumanReview : Bool := true

/-- `AgentModelPolicy` -/
structure AgentModelPolicy (κ : Type) where
  policyId : String
  preferredModelAlias : Option String := none
  allowedModelTiers : List String := []
  allowedProviders : List String := []
  fallbackModelAliases : List String := []
  maxCostPerTaskUsd : Option κ := none
  maxTokensPerTask : Option Int := none
  requiresHumanReview : Bool := false
  allowRealLlm : Bool := false

/-- `LLMRoutingDecision`: the cost is none where the source leaves the default of zero. -/
structure RoutingDecision (κ : Type) where
  decision : DecisionKind
  reason : String
  agentName : String
  capability : String
  taskType : String
  riskLevel : String
  selectedProvider : Option String := none
  selectedModelName : Option String := none
  selectedModelAlias : Option String := none
  selectedModelTier : Option String := none
  requestedSchema : Option String
  requestedModelAlias : Option String
  fallbackUsed : Bool := false
  requiresHumanReview : Bool := false
  realLlmAllowed : Bool := false
  patchGenerationAllowed : Bool := false
  workspaceWriteAllowed : Bool := false
  estimatedInputTokens : Int := 0
  estimatedOutputTokens : Int := 0
  estimatedCostUsd : Option κ := none
  budgetPolicyId : Option String := none
  policyId : Option String := none
  modelId : Option String := none
  violations : List String := []

/-- `decision.is_select` -/
def RoutingDecision.isSelect (d : RoutingDecision κ) : Bool :=
  match d.decision with
  | .selected => true
  | .mockSelected => true
  | .fallbackSelected => true
  | _ => false

/-- `ModelRouterStore`, as far as the router reads it. -/
structure Store (κ : Type) where
  models : List (ModelEntry κ)
  /-- Of the agent, the capability, the task type and the risk level. -/
  getActivePolicy : String → String → String → String → Option (AgentModelPolicy κ)

/-- `store.get_model_by_alias(alias)` -/
def Store.getModelByAlias (store : Store κ) (modelAlias : String) : Option (ModelEntry κ) :=
  store.models.find? fun model => model.modelAlias = modelAlias

/-- What becomes of a call of the budget's preflight. -/
inductive Preflight where
  | raised
  | answered (allowed : Bool) (reason : String) (policyId : Option String)
deriving Repr, DecidableEq

/-- `preflight(provider, model_name, task_id, workflow_id)` -/
abbrev BudgetEvaluator := String → String → String → Option String → Preflight

/-- What is there and not empty. -/
def truthy (s : Option String) : Option String := s.filter (· ≠ "")

/-! ## The gates -/

/-- `_evaluate_model(model, request, policy)` -/
def evaluateModel (model : ModelEntry κ) (request : CapabilityRequest)
    (policy : AgentModelPolicy κ) : List String :=
  (match model.status with
    | .active => []
    | .blocked => ["model_status_blocked"]
    | .deprecated => ["model_status_deprecated"]
    | .inactive => ["model_status_not_active"]) ++
  (if policy.allowedProviders ≠ [] ∧ model.provider ∉ policy.allowedProviders
    then ["provider_not_in_policy_allow_list"] else []) ++
  (if policy.allowedModelTiers ≠ [] ∧ model.modelTier ∉ policy.allowedModelTiers
    then ["tier_not_in_policy_allow_list"] else []) ++
  (if request.capability ∈ model.capabilities then [] else ["model_does_not_support_capability"]) ++
  -- a schema that is missing is no constraint
  (if (truthy request.requestedSchema).all fun schema => decide (schema ∈ model.supportedSchemas)
    then [] else ["model_does_not_support_requested_schema"])

/-- `_alias_allowed_by_policy(alias, policy)` -/
def aliasAllowedByPolicy (modelAlias : String) (policy : AgentModelPolicy κ) : Bool :=
  decide (policy.preferredModelAlias = some modelAlias) || decide (modelAlias ∈ policy.fallbackModelAliases)

/-- The fallbacks of `_candidate_models`, after those already seen. -/
def fallbackModels (store : Store κ) : (seen : List String) → List String →
    List (ModelEntry κ × Bool)
  | _, [] => []
  | seen, modelAlias :: rest =>
    if modelAlias ∈ seen then fallbackModels store seen rest
    else match store.getModelByAlias modelAlias with
      | none => fallbackModels store seen rest
      | some model => (model, true) :: fallbackModels store (model.modelAlias :: seen) rest

/-- `_candidate_models(request, policy)`: the models, and whether each is a fallback. -/
def candidateModels (store : Store κ) (policy : AgentModelPolicy κ) : List (ModelEntry κ × Bool) :=
  match (truthy policy.preferredModelAlias).bind store.getModelByAlias with
  | none => fallbackModels store [] policy.fallbackModelAliases
  | some preferred =>
    (preferred, false) ::
      fallbackModels store [preferred.modelAlias] policy.fallbackModelAliases

/-- `_build_blocked(request, decision, reason)` -/
def buildBlocked (request : CapabilityRequest) (decision : DecisionKind) (reason : String) :
    RoutingDecision κ where
  decision := decision
  reason := reason
  agentName := request.agentName
  capability := request.capability
  taskType := request.taskType
  riskLevel := request.riskLevel
  requestedSchema := request.requestedSchema
  requestedModelAlias := request.requestedModelAlias
  violations := [reason]

/-! ## One candidate -/

variable (estimateCostUsd : ModelEntry κ → Int → Int → κ) (evaluator : Option BudgetEvaluator)
variable (request : CapabilityRequest)

/-- The tokens of the answer: a default of zero counts as none. -/
def outputTokens (model : ModelEntry κ) : Int :=
  match request.maxOutputTokens with
  | some n => n
  | none =>
    let n := model.defaultMaxOutputTokens.getD 0
    if n = 0 then 512 else n

/-- What the model is expected to cost. -/
def expectedCost (model : ModelEntry κ) : κ :=
  estimateCostUsd model request.estimatedInputTokens (outputTokens request model)

variable [LT κ] [DecidableLT κ]

/-- `_within_policy_caps(policy, tokens, cost)` -/
def withinPolicyCaps (policy : AgentModelPolicy κ) (tokens : Int) (cost : κ) : Bool :=
  (policy.maxCostPerTaskUsd.all fun cap => decide ¬ cap < cost) &&
    policy.maxTokensPerTask.all fun cap => decide ¬ cap < tokens

/-- What the preflight answers, where the model is one that it is asked about. -/
def consult (model : ModelEntry κ) : Option Preflight :=
  if model.provider = "mock" then none
  else evaluator.map fun preflight =>
    preflight model.provider model.modelName (request.taskId.getD "") request.workflowId

/-- The block of `_budget_preflight`: none where the model may be selected. -/
def budgetPreflight (model : ModelEntry κ) : Option (RoutingDecision κ) :=
  match consult evaluator request model with
  | none => none
  -- `except Exception: return None`
  | some .raised => none
  | some (.answered true _ _) => none
  | some (.answered false reason policyId) =>
    some { (buildBlocked request .budgetBlocked reason : RoutingDecision κ) with
      estimatedInputTokens := request.estimatedInputTokens
      estimatedOutputTokens := outputTokens request model
      estimatedCostUsd := some (expectedCost estimateCostUsd request model)
      budgetPolicyId := policyId }

/-- The body of the loop of `route` for a model that passed the gates. -/
def decideModel (policy : AgentModelPolicy κ) (model : ModelEntry κ) (isFallback : Bool) :
    RoutingDecision κ :=
  let cost := expectedCost estimateCostUsd request model
  let output := outputTokens request model
  if ¬ withinPolicyCaps policy (request.estimatedInputTokens + output) cost then
    { (buildBlocked request .budgetBlocked "estimated_cost_exceeds_policy_max" :
        RoutingDecision κ) with
      policyId := some policy.policyId
      modelId := some model.modelId
      selectedProvider := some model.provider
      selectedModelName := some model.modelName
      selectedModelAlias := some model.modelAlias
      selectedModelTier := some model.modelTier
      estimatedInputTokens := request.estimatedInputTokens
      estimatedOutputTokens := output
      estimatedCostUsd := some cost
      requiresHumanReview := policy.requiresHumanReview }
  else match budgetPreflight estimateCostUsd evaluator request model with
    | some block =>
      { block with
        policyId := some policy.policyId
        modelId := some model.modelId
        selectedProvider := some model.provider
        selectedModelAlias := some model.modelAlias }
    | none =>
      { decision :=
          if isFallback then .fallbackSelected
          else if model.provider = "mock" then .mockSelected
          else .selected
        reason := if isFallback then "fallback_selected_by_policy" else "selected_by_policy"
        agentName := request.agentName
        capability := request.capability
        taskType := request.taskType
        riskLevel := request.riskLevel
        selectedProvider := some model.provider
        selectedModelName := some model.modelName
        selectedModelAlias := some model.modelAlias
        selectedModelTier := some model.modelTier
        requestedSchema := request.requestedSchema
        requestedModelAlias := request.requestedModelAlias
        fallbackUsed := isFallback
        requiresHumanReview := policy.requiresHumanReview || model.requiresHumanReview ||
          decide (request.riskLevel = "high" ∨ request.riskLevel = "critical")
        realLlmAllowed := request.allowRealLlmRequested && policy.allowRealLlm &&
          decide (model.provider ≠ "mock" ∧ model.status = .active)
        estimatedInputTokens := request.estimatedInputTokens
        estimatedOutputTokens := output
        estimatedCostUsd := some cost
        policyId := some policy.policyId
        modelId := some model.modelId }

/-! ## The route -/

/-- The loop over the candidates: none where no candidate passes the gates. -/
def walk (policy : AgentModelPolicy κ) : List (ModelEntry κ × Bool) → Option (RoutingDecision κ)
  | [] => none
  | (model, isFallback) :: rest =>
    if evaluateModel model request policy ≠ [] then walk policy rest
    else some (decideModel estimateCostUsd evaluator request policy model isFallback)

/-- `_load_policy(request)` -/
def loadPolicy (store : Option (Store κ)) : Option (AgentModelPolicy κ) :=
  store.bind fun store => store.getActivePolicy request.agentName request.capability
    request.taskType request.riskLevel

/-- `ModelRouter.route(request)` -/
def route (store : Option (Store κ)) : RoutingDecision κ :=
  if request.allowPatchGenerationRequested then
    buildBlocked request .blocked "patch_generation_hard_disabled"
  else if request.allowWorkspaceWriteRequested then
    buildBlocked request .blocked "workspace_write_hard_disabled"
  else match loadPolicy request store with
    | none => buildBlocked request .policyNotFound "no_active_policy_for_capability"
    | some policy =>
      if (truthy request.requestedModelAlias).any fun modelAlias =>
          !aliasAllowedByPolicy modelAlias policy then
        { (buildBlocked request .directModelRejected "agent_direct_model_selection_rejected") with
          policyId := some policy.policyId
          requiresHumanReview := policy.requiresHumanReview }
      else if request.riskLevel = "critical" ∧ policy.allowRealLlm = false then
        { (buildBlocked request .humanApprovalRequired
            "critical_risk_requires_human_approval") with
          policyId := some policy.policyId
          requiresHumanReview := true }
      else
        let candidates := (store.map fun store => candidateModels store policy).getD []
        if candidates = [] then
          { (buildBlocked request .providerUnavailable "no_model_passed_all_gates") with
            policyId := some policy.policyId
            requiresHumanReview := policy.requiresHumanReview }
        else match walk estimateCostUsd evaluator request policy candidates with
          | some decision => decision
          | none =>
            { (buildBlocked request .blocked "no_model_passed_all_gates") with
              policyId := some policy.policyId
              requiresHumanReview := policy.requiresHumanReview }

end AiAgentsSwd.Routing
