import AiAgentsSwd.Routing.Router

/-!
# Routing.ByPolicy — a route is what the policy says

The candidates of a policy are its preferred model and then its fallbacks, as far as the registry
has them. The first of them that passes the gates decides: where it is over a cap, or where the
preflight refuses it, no later candidate is tried. An alias that is asked for has to be one of the
policy's, and makes no difference otherwise.
-/

namespace AiAgentsSwd.Routing

variable {κ : Type}

/-! ## The policy's own terms -/

/-- The gates that a model has to pass. -/
structure Admissible (request : CapabilityRequest) (policy : AgentModelPolicy κ)
    (model : ModelEntry κ) : Prop where
  active : model.status = .active
  provider : policy.allowedProviders = [] ∨ model.provider ∈ policy.allowedProviders
  tier : policy.allowedModelTiers = [] ∨ model.modelTier ∈ policy.allowedModelTiers
  capability : request.capability ∈ model.capabilities
  schema : ∀ schema, truthy request.requestedSchema = some schema →
    schema ∈ model.supportedSchemas

/-- The candidates in the policy's order. -/
def policyOrder (store : Store κ) (policy : AgentModelPolicy κ) : List (ModelEntry κ) :=
  ((truthy policy.preferredModelAlias).toList ++ policy.fallbackModelAliases).filterMap
    store.getModelByAlias

/-- The first candidate that passes the gates. -/
def Deciding (store : Store κ) (request : CapabilityRequest) (policy : AgentModelPolicy κ)
    (model : ModelEntry κ) : Prop :=
  Admissible request policy model ∧ ∃ before after,
    policyOrder store policy = before ++ model :: after ∧ ∀ m ∈ before, ¬ Admissible request policy m

/-- The preflight refuses the model. -/
def Refused (evaluator : Option BudgetEvaluator) (request : CapabilityRequest)
    (model : ModelEntry κ) : Prop :=
  ∃ reason policyId, consult evaluator request model = some (.answered false reason policyId)

/-- What the request has to meet before a candidate is looked at. -/
structure Opened (request : CapabilityRequest) (store : Store κ) (policy : AgentModelPolicy κ) :
    Prop where
  noPatch : request.allowPatchGenerationRequested = false
  noWrite : request.allowWorkspaceWriteRequested = false
  policyActive : loadPolicy request (some store) = some policy
  ofPolicy : ∀ modelAlias, truthy request.requestedModelAlias = some modelAlias →
    policy.preferredModelAlias = some modelAlias ∨ modelAlias ∈ policy.fallbackModelAliases
  notCritical : ¬ (request.riskLevel = "critical" ∧ policy.allowRealLlm = false)

variable (estimateCostUsd : ModelEntry κ → Int → Int → κ)

/-- What the request, the policy and the model it decides for have to meet. -/
structure Cleared [LT κ] (evaluator : Option BudgetEvaluator) (request : CapabilityRequest)
    (store : Store κ) (policy : AgentModelPolicy κ) (model : ModelEntry κ) : Prop
    extends Opened request store policy where
  deciding : Deciding store request policy model
  withinCost : ∀ cap, policy.maxCostPerTaskUsd = some cap →
    ¬ cap < expectedCost estimateCostUsd request model
  withinTokens : ∀ cap, policy.maxTokensPerTask = some cap →
    ¬ cap < request.estimatedInputTokens + outputTokens request model
  notRefused : ¬ Refused evaluator request model

/-! ## Gates and candidates -/

variable {request : CapabilityRequest} {policy : AgentModelPolicy κ} {model : ModelEntry κ}

theorem evaluateModel_eq_nil : evaluateModel model request policy = [] ↔
    Admissible request policy model := by
  have hlist : ∀ (c : Prop) [Decidable c] (reason : String),
      (if c then [reason] else []) = [] ↔ ¬ c := by
    intro c _ reason
    by_cases hc : c
    · simp [hc]
    · simp [hc]
  unfold evaluateModel
  simp only [List.append_eq_nil_iff]
  constructor
  · rintro ⟨⟨⟨⟨hstatus, hprovider⟩, htier⟩, hcapability⟩, hschema⟩
    rw [hlist, not_and_not_right] at hprovider htier
    refine ⟨?_, ?_, ?_, ?_, ?_⟩
    · cases hs : model.status with
      | active => rfl
      | inactive | deprecated | blocked =>
        rw [hs] at hstatus
        cases hstatus
    · exact or_iff_not_imp_left.mpr hprovider
    · exact or_iff_not_imp_left.mpr htier
    · by_contra hnone
      rw [if_neg hnone] at hcapability
      cases hcapability
    · intro schema hsome
      by_contra hnone
      rw [if_neg (by simp [hsome, hnone])] at hschema
      cases hschema
  · intro h
    refine ⟨⟨⟨⟨?_, ?_⟩, ?_⟩, ?_⟩, ?_⟩
    · rw [h.active]
    · rw [hlist, not_and_not_right]
      exact or_iff_not_imp_left.mp h.provider
    · rw [hlist, not_and_not_right]
      exact or_iff_not_imp_left.mp h.tier
    · rw [if_pos h.capability]
    · rw [if_pos]
      cases hs : truthy request.requestedSchema with
      | none => rfl
      | some schema => exact decide_eq_true (h.schema schema hs)

variable {store : Store κ}

theorem alias_of_getModelByAlias {modelAlias : String}
    (h : store.getModelByAlias modelAlias = some model) : model.modelAlias = modelAlias := by
  simpa using List.find?_some h

/-- A fallback is one that was not seen. -/
theorem mem_fallbackModels {seen aliases : List String} {isFallback : Bool}
    (h : (model, isFallback) ∈ fallbackModels store seen aliases) :
    isFallback = true ∧ model.modelAlias ∉ seen ∧
      store.getModelByAlias model.modelAlias = some model := by
  induction aliases generalizing seen with
  | nil => cases h
  | cons modelAlias rest ih =>
    unfold fallbackModels at h
    split at h
    · exact ih h
    · case isFalse hseen =>
      split at h
      · exact ih h
      · case h_2 found hfound =>
        rcases List.mem_cons.mp h with heq | h
        · obtain ⟨rfl, rfl⟩ := Prod.mk.inj heq
          have halias := alias_of_getModelByAlias hfound
          rw [halias]
          exact ⟨rfl, hseen, hfound⟩
        · rcases ih h with ⟨hfallback, hnew, hget⟩
          exact ⟨hfallback, fun hmem => hnew (List.mem_cons_of_mem _ hmem), hget⟩

/-- What was seen before and does not pass makes no difference to what is found. -/
theorem find?_fallbackModels (p : ModelEntry κ → Bool) {seen aliases : List String}
    (hseen : ∀ modelAlias ∈ seen, ∀ m, store.getModelByAlias modelAlias = some m → p m = false) :
    ((fallbackModels store seen aliases).map Prod.fst).find? p =
      (aliases.filterMap store.getModelByAlias).find? p := by
  induction aliases generalizing seen with
  | nil => rfl
  | cons modelAlias rest ih =>
    unfold fallbackModels
    cases hget : store.getModelByAlias modelAlias with
    | none =>
      rw [List.filterMap_cons_none hget]
      split
      · exact ih hseen
      · exact ih hseen
    | some m =>
      rw [List.filterMap_cons_some hget, List.find?_cons]
      by_cases hmem : modelAlias ∈ seen
      · rw [if_pos hmem, hseen modelAlias hmem m hget]
        exact ih hseen
      · rw [if_neg hmem]
        show ((m :: (fallbackModels store (m.modelAlias :: seen) rest).map Prod.fst).find? p) = _
        rw [List.find?_cons]
        cases hp : p m with
        | true => rfl
        | false =>
          refine ih ?_
          intro other hother m' hm'
          rcases List.mem_cons.mp hother with rfl | hother
          · rw [alias_of_getModelByAlias hget, hget] at hm'
            rw [← Option.some.inj hm', hp]
          · exact hseen other hother m' hm'

/-- The candidates are found in the policy's order. -/
theorem find?_candidateModels (p : ModelEntry κ → Bool) :
    ((candidateModels store policy).map Prod.fst).find? p = (policyOrder store policy).find? p := by
  unfold candidateModels policyOrder
  have hnone : ∀ modelAlias ∈ ([] : List String), ∀ m,
      store.getModelByAlias modelAlias = some m → p m = false :=
    fun _ hmem => absurd hmem List.not_mem_nil
  cases hpreferred : truthy policy.preferredModelAlias with
  | none => exact find?_fallbackModels p hnone
  | some preferred =>
    rw [Option.bind_some, Option.toList_some, List.singleton_append]
    cases hget : store.getModelByAlias preferred with
    | none =>
      rw [List.filterMap_cons_none hget]
      exact find?_fallbackModels p hnone
    | some m =>
      rw [List.filterMap_cons_some hget, List.find?_cons]
      show ((m :: (fallbackModels store [m.modelAlias] policy.fallbackModelAliases).map
        Prod.fst).find? p) = _
      rw [List.find?_cons]
      cases hp : p m with
      | true => rfl
      | false =>
        refine find?_fallbackModels p ?_
        intro modelAlias hmem m' hm'
        rw [List.mem_singleton.mp hmem, alias_of_getModelByAlias hget, hget] at hm'
        rw [← Option.some.inj hm', hp]

/-- A fallback is a candidate that is not the preferred model. -/
theorem isFallback_iff {isFallback : Bool}
    (h : (model, isFallback) ∈ candidateModels store policy) :
    isFallback = true ↔ truthy policy.preferredModelAlias ≠ some model.modelAlias := by
  unfold candidateModels at h
  cases hpreferred : truthy policy.preferredModelAlias with
  | none =>
    rw [hpreferred] at h
    rw [(mem_fallbackModels h).1]
    simp
  | some preferred =>
    rw [hpreferred, Option.bind_some] at h
    cases hget : store.getModelByAlias preferred with
    | none =>
      rw [hget] at h
      rcases mem_fallbackModels h with ⟨hfallback, -, hfound⟩
      -- the registry has no model of the preferred alias
      have hne : preferred ≠ model.modelAlias := by
        rintro rfl
        rw [hget] at hfound
        cases hfound
      simp [hfallback, hne]
    | some m =>
      rw [hget] at h
      have halias := alias_of_getModelByAlias hget
      rcases List.mem_cons.mp h with heq | h
      · obtain ⟨rfl, rfl⟩ := Prod.mk.inj heq
        simp [halias]
      · rcases mem_fallbackModels h with ⟨hfallback, hnew, -⟩
        have hne : preferred ≠ model.modelAlias := by
          rintro rfl
          exact hnew (by rw [halias]; exact List.mem_singleton_self _)
        simp [hfallback, hne]

/-- The candidate that decides, with its flag. -/
def decidingCandidate (store : Store κ) (request : CapabilityRequest)
    (policy : AgentModelPolicy κ) : Option (ModelEntry κ × Bool) :=
  (candidateModels store policy).find? fun c => decide (evaluateModel c.1 request policy = [])

theorem map_decidingCandidate :
    (decidingCandidate store request policy).map Prod.fst =
      (policyOrder store policy).find? fun m => decide (evaluateModel m request policy = []) := by
  rw [← find?_candidateModels, decidingCandidate, List.find?_map]
  rfl

theorem deciding_iff : Deciding store request policy model ↔
    (decidingCandidate store request policy).map Prod.fst = some model := by
  rw [map_decidingCandidate, List.find?_eq_some_iff_append, decide_eq_true_eq, evaluateModel_eq_nil]
  have hbefore : ∀ before : List (ModelEntry κ),
      (∀ m ∈ before, ¬ Admissible request policy m) ↔
        ∀ m ∈ before, (!decide (evaluateModel m request policy = [])) = true := by
    intro before
    simp only [Bool.not_eq_true', decide_eq_false_iff_not, evaluateModel_eq_nil]
  unfold Deciding
  simp only [hbefore]

/-- The check of the alias that is asked for. -/
theorem rejected_iff : (truthy request.requestedModelAlias).any
      (fun modelAlias => !aliasAllowedByPolicy modelAlias policy) = true ↔
    ¬ ∀ modelAlias, truthy request.requestedModelAlias = some modelAlias →
      policy.preferredModelAlias = some modelAlias ∨ modelAlias ∈ policy.fallbackModelAliases := by
  cases truthy request.requestedModelAlias with
  | none => simp
  | some modelAlias => simp [aliasAllowedByPolicy]

variable {evaluator : Option BudgetEvaluator}

/-- A model is blocked by the preflight exactly when the preflight refuses it. -/
theorem budgetPreflight_eq_none :
    budgetPreflight estimateCostUsd evaluator request model = none ↔
      ¬ Refused evaluator request model := by
  unfold budgetPreflight Refused
  cases hanswer : consult evaluator request model with
  | none => simp
  | some answer =>
    cases answer with
    | raised => simp
    | answered allowed reason policyId =>
      cases allowed with
      | true => simp
      | false => simp

/-- A block is not a selection. -/
theorem isSelect_of_budgetPreflight {block : RoutingDecision κ}
    (h : budgetPreflight estimateCostUsd evaluator request model = some block) :
    block.decision = .budgetBlocked := by
  unfold budgetPreflight at h
  split at h
  · cases h
  · cases h
  · cases h
  · rw [← Option.some.inj h]
    rfl

variable [LT κ] [DecidableLT κ]

/-- The loop stops at the first candidate that passes the gates. -/
theorem walk_eq (candidates : List (ModelEntry κ × Bool)) :
    walk estimateCostUsd evaluator request policy candidates =
      (candidates.find? fun c => decide (evaluateModel c.1 request policy = [])).map fun c =>
        decideModel estimateCostUsd evaluator request policy c.1 c.2 := by
  induction candidates with
  | nil => rfl
  | cons c rest ih =>
    unfold walk
    rw [List.find?_cons]
    by_cases hpass : evaluateModel c.1 request policy = []
    · rw [if_neg (not_not.mpr hpass), decide_eq_true hpass]
      rfl
    · rw [if_pos hpass, decide_eq_false hpass]
      exact ih

/-! ## The deciding candidate -/

theorem withinPolicyCaps_iff {tokens : Int} {cost : κ} :
    withinPolicyCaps policy tokens cost = true ↔
      (∀ cap, policy.maxCostPerTaskUsd = some cap → ¬ cap < cost) ∧
        ∀ cap, policy.maxTokensPerTask = some cap → ¬ cap < tokens := by
  unfold withinPolicyCaps
  rw [Bool.and_eq_true]
  cases policy.maxCostPerTaskUsd with
  | none =>
    cases policy.maxTokensPerTask with
    | none => simp
    | some tokenCap => simp
  | some costCap =>
    cases policy.maxTokensPerTask with
    | none => simp
    | some tokenCap => simp

theorem decideModel_isSelect (isFallback : Bool) :
    (decideModel estimateCostUsd evaluator request policy model isFallback).isSelect = true ↔
      withinPolicyCaps policy (request.estimatedInputTokens + outputTokens request model)
        (expectedCost estimateCostUsd request model) = true ∧ ¬ Refused evaluator request model := by
  rw [← budgetPreflight_eq_none estimateCostUsd]
  unfold decideModel
  by_cases hcaps : withinPolicyCaps policy (request.estimatedInputTokens + outputTokens request model)
      (expectedCost estimateCostUsd request model) = true
  · simp only [hcaps, not_true_eq_false, if_false, true_and]
    cases hblock : budgetPreflight estimateCostUsd evaluator request model with
    | some block => simp [RoutingDecision.isSelect, isSelect_of_budgetPreflight _ hblock]
    | none =>
      by_cases hmock : model.provider = "mock"
      · cases isFallback with
        | true => simp [RoutingDecision.isSelect]
        | false => simp [RoutingDecision.isSelect, hmock]
      · cases isFallback with
        | true => simp [RoutingDecision.isSelect]
        | false => simp [RoutingDecision.isSelect, hmock]
  · simp [hcaps, RoutingDecision.isSelect, buildBlocked]

/-- A selection is of the model it was decided for. -/
theorem decideModel_selected {isFallback : Bool}
    (h : (decideModel estimateCostUsd evaluator request policy model isFallback).isSelect = true) :
    (decideModel estimateCostUsd evaluator request policy model isFallback).fallbackUsed =
        isFallback ∧
      (decideModel estimateCostUsd evaluator request policy model isFallback).selectedModelAlias =
        some model.modelAlias ∧
      (decideModel estimateCostUsd evaluator request policy model isFallback).selectedProvider =
        some model.provider ∧
      (decideModel estimateCostUsd evaluator request policy model isFallback).modelId =
        some model.modelId := by
  rw [decideModel_isSelect, ← budgetPreflight_eq_none estimateCostUsd] at h
  unfold decideModel
  simp only [h.1, not_true_eq_false, if_false, h.2, and_self]

/-! ## The route -/

/-- Past the checks of the request, the deciding candidate makes the decision. -/
theorem route_of_opened (hopen : Opened request store policy) {c : ModelEntry κ × Bool}
    (hc : decidingCandidate store request policy = some c) :
    route estimateCostUsd evaluator request (some store) =
      decideModel estimateCostUsd evaluator request policy c.1 c.2 := by
  have hrejected := mt rejected_iff.mp (not_not.mpr hopen.ofPolicy)
  have hsome : candidateModels store policy ≠ [] := by
    intro hnil
    rw [decidingCandidate, hnil] at hc
    cases hc
  have hwalk : walk estimateCostUsd evaluator request policy (candidateModels store policy) = _ :=
    walk_eq estimateCostUsd _
  rw [decidingCandidate] at hc
  rw [hc, Option.map_some] at hwalk
  unfold route
  rw [hopen.noPatch, hopen.noWrite, hopen.policyActive]
  simp only [Bool.false_eq_true, if_false, hrejected, hopen.notCritical, Option.map_some,
    Option.getD_some, hsome, hwalk]

/-- A route that selects has passed the checks of the request, and has a deciding candidate. -/
theorem opened_of_isSelect
    (h : (route estimateCostUsd evaluator request (some store)).isSelect = true) :
    ∃ policy, Opened request store policy ∧
      ∃ c, decidingCandidate store request policy = some c := by
  unfold route at h
  split at h
  · cases h
  case isFalse hpatch =>
    split at h
    · cases h
    case isFalse hwrite =>
      split at h
      · cases h
      case h_2 policy hpolicy =>
        split at h
        · cases h
        case isFalse hrejected =>
          split at h
          · cases h
          case isFalse hcritical =>
            refine ⟨policy, ⟨by simpa using hpatch, by simpa using hwrite, hpolicy,
              not_not.mp (mt rejected_iff.mpr hrejected), hcritical⟩, ?_⟩
            simp only [Option.map_some, Option.getD_some] at h
            split at h
            · cases h
            · rw [walk_eq] at h
              cases hc : decidingCandidate store request policy with
              | some c => exact ⟨c, rfl⟩
              | none =>
                rw [decidingCandidate] at hc
                rw [hc] at h
                cases h

/-- The route selects exactly where everything is met. -/
theorem route_isSelect_iff :
    (route estimateCostUsd evaluator request (some store)).isSelect = true ↔
      ∃ policy model, Cleared estimateCostUsd evaluator request store policy model := by
  constructor
  · intro h
    rcases opened_of_isSelect estimateCostUsd h with ⟨policy, hopen, c, hc⟩
    rw [route_of_opened estimateCostUsd hopen hc, decideModel_isSelect, withinPolicyCaps_iff] at h
    have hdeciding : Deciding store request policy c.1 := by
      rw [deciding_iff, hc]
      rfl
    exact ⟨policy, c.1, { hopen with
      deciding := hdeciding
      withinCost := h.1.1
      withinTokens := h.1.2
      notRefused := h.2 }⟩
  · rintro ⟨policy, model, h⟩
    rcases Option.map_eq_some_iff.mp (deciding_iff.mp h.deciding) with ⟨c, hc, rfl⟩
    rw [route_of_opened estimateCostUsd h.toOpened hc, decideModel_isSelect, withinPolicyCaps_iff]
    exact ⟨⟨h.withinCost, h.withinTokens⟩, h.notRefused⟩

/-- What is selected is the model that decides. -/
theorem route_selected (h : (route estimateCostUsd evaluator request (some store)).isSelect = true)
    (hcleared : Cleared estimateCostUsd evaluator request store policy model) :
    (route estimateCostUsd evaluator request (some store)).selectedModelAlias =
        some model.modelAlias ∧
      (route estimateCostUsd evaluator request (some store)).selectedProvider =
        some model.provider ∧
      (route estimateCostUsd evaluator request (some store)).modelId = some model.modelId ∧
      ((route estimateCostUsd evaluator request (some store)).fallbackUsed = true ↔
        truthy policy.preferredModelAlias ≠ some model.modelAlias) := by
  rcases Option.map_eq_some_iff.mp (deciding_iff.mp hcleared.deciding) with ⟨c, hc, rfl⟩
  have hmem : (c.1, c.2) ∈ candidateModels store policy := List.mem_of_find?_eq_some hc
  rw [route_of_opened estimateCostUsd hcleared.toOpened hc] at h ⊢
  rcases decideModel_selected estimateCostUsd h with ⟨hfallback, halias, hprovider, hid⟩
  rw [hfallback]
  exact ⟨halias, hprovider, hid, isFallback_iff hmem⟩

/-- **A route is what the policy says.** Where the preflight of the deciding model raises, only
the first part speaks of the route. -/
theorem route_by_policy (estimateCostUsd : ModelEntry κ → Int → Int → κ)
    (evaluator : Option BudgetEvaluator) (request : CapabilityRequest) (store : Store κ) :
    ((route estimateCostUsd evaluator request (some store)).isSelect = true →
      ∃ policy model, Cleared estimateCostUsd evaluator request store policy model ∧
        (route estimateCostUsd evaluator request (some store)).selectedModelAlias =
            some model.modelAlias ∧
          (route estimateCostUsd evaluator request (some store)).selectedProvider =
            some model.provider ∧
          (route estimateCostUsd evaluator request (some store)).modelId = some model.modelId ∧
          ((route estimateCostUsd evaluator request (some store)).fallbackUsed = true ↔
            truthy policy.preferredModelAlias ≠ some model.modelAlias)) ∧
      ∀ policy model, Cleared estimateCostUsd evaluator request store policy model →
        consult evaluator request model ≠ some .raised →
          (route estimateCostUsd evaluator request (some store)).isSelect = true := by
  constructor
  · intro h
    rcases (route_isSelect_iff estimateCostUsd).mp h with ⟨policy, model, hcleared⟩
    exact ⟨policy, model, hcleared, route_selected estimateCostUsd h hcleared⟩
  · intro policy model hcleared _
    exact (route_isSelect_iff estimateCostUsd).mpr ⟨policy, model, hcleared⟩

/-! ## An alias that is asked for -/

/-- A real model of the given alias and cost. -/
def realModel (modelAlias : String) (cost : Nat) : ModelEntry Nat where
  modelId := modelAlias
  provider := "external_openai"
  modelName := "gpt-4o-mini"
  modelAlias := modelAlias
  capabilities := ["development_plan"]
  costPer1kInputTokens := cost
  costPer1kOutputTokens := cost

/-- `large` is preferred, `small` is the fallback. -/
def twoModels (cap : Option Nat) : Store Nat where
  models := [realModel "large" 50, realModel "small" 1]
  getActivePolicy := fun _ _ _ _ => some {
    policyId := "p"
    preferredModelAlias := some "large"
    fallbackModelAliases := ["small"]
    maxCostPerTaskUsd := cap
    allowRealLlm := true }

/-- A request that asks for `small`. -/
def asksForSmall : CapabilityRequest where
  agentName := "development-agent"
  capability := "development_plan"
  requestedModelAlias := some "small"

/-- What the request costs on a model. -/
def flatCost (model : ModelEntry Nat) (_ _ : Int) : Nat := model.costPer1kInputTokens

/-- `small` passes every gate and is within the cap: the route does not select where `large` is
over the cap, and selects `large` where nothing is; and it selects a real model where the preflight
raises. -/
theorem route_of_small :
    (∀ policy, loadPolicy asksForSmall (some (twoModels (some 10))) = some policy →
      Admissible asksForSmall policy (realModel "small" 1) ∧
        withinPolicyCaps policy 512 (expectedCost flatCost asksForSmall (realModel "small" 1))) ∧
    (route flatCost none asksForSmall (some (twoModels (some 10)))).isSelect = false ∧
    (route flatCost none asksForSmall (some (twoModels none))).selectedModelAlias = some "large" ∧
    (route flatCost none asksForSmall (some (twoModels none))).isSelect = true ∧
    (route flatCost (some fun _ _ _ _ => .raised) asksForSmall
      (some (twoModels none))).selectedProvider = some "external_openai" ∧
    (route flatCost (some fun _ _ _ _ => .raised) asksForSmall
      (some (twoModels none))).isSelect = true := by
  refine ⟨?_, by decide, by decide, by decide, by decide, by decide⟩
  intro policy hpolicy
  obtain rfl := Option.some.inj hpolicy
  exact ⟨evaluateModel_eq_nil.mp (by decide), by decide⟩

end AiAgentsSwd.Routing
