import AiAgentsSwd.Budget.Caps
import Mathlib.Data.List.Sort

/-!
# Budget.Preflight — the policy that gates a call, and what it counts

Model of `BudgetPolicyStore.get_active_policy` in `shared/sdk/llm_budget/store.py` and of
`BudgetPolicyEvaluator.preflight` and `_check_caps` in `shared/sdk/llm_budget/policy.py`. Each cap
is checked in a statement of its own, so every one reads a ledger of its own.

The row of a policy names a provider, and the caps of the day and of the month count that one.
`gate_counts_iff`: they bound the spending of the provider that is called exactly when it is the
same, and the policy blocks.
-/

namespace AiAgentsSwd.Budget

open Planning (Uuid)

/-! ## Policies -/

/-- `scope_type` -/
inductive ScopeType where
  | global
  | task
  | workflow
  | user
  | provider
deriving Repr, DecidableEq

/-- `enforcement_mode` -/
inductive EnforcementMode where
  | block
  | warnOnly
deriving Repr, DecidableEq

/-- `status` -/
inductive PolicyStatus where
  | active
  | inactive
  | expired
deriving Repr, DecidableEq

/-- A row of `llm_budget_policies`. -/
structure PolicyRow where
  policy : LLMBudgetPolicy
  policyName : String
  scopeType : ScopeType
  scopeId : Option String
  enforcementMode : EnforcementMode
  status : PolicyStatus
  createdAt : Int

/-- Who calls which provider. -/
structure Caller where
  provider : String
  taskId : Option String
  workflowId : Option String
  userId : Option String
deriving Repr, DecidableEq

/-- `scope_rank` -/
def scopeRank : ScopeType → Nat
  | .task => 1
  | .workflow => 2
  | .user => 3
  | .provider => 4
  | .global => 5

/-- The row is about this caller. -/
def PolicyRow.inScope (row : PolicyRow) (c : Caller) : Bool :=
  match row.scopeType with
  | .task => row.scopeId = c.taskId ∧ row.policy.provider = c.provider
  | .workflow => row.scopeId = c.workflowId ∧ row.policy.provider = c.provider
  | .user => row.scopeId = c.userId ∧ row.policy.provider = c.provider
  | .provider => row.policy.provider = c.provider
  | .global => true

/-- The `WHERE` of `get_active_policy`. -/
def PolicyRow.applies (row : PolicyRow) (c : Caller) : Bool :=
  row.status = .active ∧ row.inScope c = true ∧
    (row.policy.provider = c.provider ∨ row.scopeType = .global)

/-- `ORDER BY scope_rank ASC, created_at DESC` -/
def PolicyRow.Precedes (a b : PolicyRow) : Prop :=
  scopeRank a.scopeType < scopeRank b.scopeType ∨
    (scopeRank a.scopeType = scopeRank b.scopeType ∧ b.createdAt ≤ a.createdAt)

instance : DecidableRel PolicyRow.Precedes := fun _ _ => inferInstanceAs (Decidable (_ ∨ _ ∧ _))

/-- `get_active_policy(provider, task_id, workflow_id, user_id)` -/
def getActivePolicy (rows : List PolicyRow) (c : Caller) : Option PolicyRow :=
  ((rows.filter fun row => row.applies c).insertionSort PolicyRow.Precedes).head?

/-! ## The gate -/

/-- `cap_breached` -/
inductive Cap where
  | tokenPerTask
  | costPerTask
  | costPerDay
  | costPerMonth
  | noPolicy
  | unknownProvider
deriving Repr, DecidableEq

/-- What the reason of a breach names. -/
structure Breach where
  cap : Cap
  used : Int
  estimated : Int
  limit : Int
deriving Repr, DecidableEq

/-- The ledgers that the statements of `_check_caps` read, and the times they ask for. -/
structure Reads where
  taskTokens : Ledger
  taskCost : Ledger
  day : Ledger
  dayAt : Int
  month : Ledger
  monthAt : Int

/-- The usage of a task that is named. -/
def ofTruthyTask (taskId : Option String) (used : String → Int) : Int :=
  match taskId.filter (· ≠ "") with
  | none => 0
  | some t => used t

/-- A cap that is looked at, and exceeded. -/
def breach (cap : Cap) (limit : Option Int) (used estimated : Int) : Option Breach :=
  if exceeds limit used estimated then some ⟨cap, used, estimated, limit.getD 0⟩ else none

section Gate

variable (cal : Calendar)

/-- `_check_caps(policy, task_id, estimated_total_tokens, estimated_cost_usd)` -/
def checkCaps (policy : LLMBudgetPolicy) (taskId : Option String) (e : Estimate) (reads : Reads) :
    Option Breach :=
  (breach .tokenPerTask policy.maxTokensPerTask
      (ofTruthyTask taskId fun t => (reads.taskTokens.getTaskUsage t).tokens)
      (e.promptTokens + e.completionTokens)).or <|
    (breach .costPerTask policy.maxCostPerTaskUsd
        (ofTruthyTask taskId fun t => (reads.taskCost.getTaskUsage t).costUsd) e.costUsd).or <|
      (breach .costPerDay policy.maxCostPerDayUsd
          (reads.day.getDailyUsageUsd cal (some policy.provider) reads.dayAt) e.costUsd).or <|
        breach .costPerMonth policy.maxCostPerMonthUsd
          (reads.month.getMonthlyUsageUsd cal (some policy.provider) reads.monthAt) e.costUsd

/-- `reason` -/
inductive Reason where
  /-- `str(exc)` of the estimator's `ValueError` -/
  | estimator (message : String)
  | mockProviderExempt
  | noActiveBudgetPolicy
  | capExceeded (breach : Breach)
deriving Repr, DecidableEq

/-- `BudgetDecision` -/
structure BudgetDecision where
  decision : Decision
  reason : Option Reason
  enforcementMode : EnforcementMode
  policyId : Option Uuid
  policyName : Option String
  provider : String
  modelName : String
  capBreached : Option Cap

/-- `preflight(provider, model_name, …)`, from the estimate on. -/
def preflight (rows : List PolicyRow) (c : Caller) (modelName : String)
    (estimate : Except String Estimate) (reads : Reads) : BudgetDecision :=
  match estimate with
  | .error message =>
    { decision := .blocked, reason := some (.estimator message), enforcementMode := .block
      policyId := none, policyName := none, provider := c.provider, modelName := modelName
      capBreached := some .unknownProvider }
  | .ok e =>
    if c.provider = "mock" then
      { decision := .allowed, reason := some .mockProviderExempt, enforcementMode := .block
        policyId := none, policyName := none, provider := c.provider, modelName := e.modelName
        capBreached := none }
    else
      match getActivePolicy rows c with
      | none =>
        { decision := .blocked, reason := some .noActiveBudgetPolicy, enforcementMode := .block
          policyId := none, policyName := none, provider := c.provider, modelName := e.modelName
          capBreached := some .noPolicy }
      | some row =>
        match checkCaps cal row.policy c.taskId e reads with
        | some b =>
          { decision := if row.enforcementMode = .block then .blocked else .warning
            reason := some (.capExceeded b), enforcementMode := row.enforcementMode
            policyId := some row.policy.policyId, policyName := some row.policyName
            provider := c.provider, modelName := e.modelName, capBreached := some b.cap }
        | none =>
          { decision := .allowed, reason := none, enforcementMode := row.enforcementMode
            policyId := some row.policy.policyId, policyName := some row.policyName
            provider := c.provider, modelName := e.modelName, capBreached := none }

end Gate

/-! ## Which policy gates -/

variable {cal : Calendar} {rows : List PolicyRow} {c : Caller} {row : PolicyRow} {e : Estimate}
  {modelName : String} {reads : Reads}

instance : Std.Total PolicyRow.Precedes where
  total a b := by
    unfold PolicyRow.Precedes
    omega

instance : IsTrans PolicyRow PolicyRow.Precedes where
  trans a b d hab hbd := by
    unfold PolicyRow.Precedes at *
    omega

/-- The policy that gates a call is active, applies, and precedes all others that do. -/
theorem getActivePolicy_eq_some (h : getActivePolicy rows c = some row) :
    row ∈ rows ∧ row.applies c = true ∧
      ∀ other ∈ rows, other.applies c = true → other = row ∨ row.Precedes other := by
  unfold getActivePolicy at h
  rcases List.head?_eq_some_iff.mp h with ⟨rest, hrest⟩
  have hsorted := List.pairwise_insertionSort PolicyRow.Precedes
    (rows.filter fun row => row.applies c)
  have hmem : ∀ other, other ∈ row :: rest ↔ other ∈ rows ∧ other.applies c = true := by
    intro other
    rw [← hrest, List.mem_insertionSort, List.mem_filter]
  rw [hrest, List.pairwise_cons] at hsorted
  have hrow := (hmem row).mp (List.mem_cons_self ..)
  refine ⟨hrow.1, hrow.2, fun other hother happlies => ?_⟩
  rcases List.mem_cons.mp ((hmem other).mpr ⟨hother, happlies⟩) with heq | hin
  · exact Or.inl heq
  · exact Or.inr (hsorted.1 other hin)

/-- Only a global policy may name another provider than the one that is called. -/
theorem provider_of_applies (h : row.applies c = true) (hscope : row.scopeType ≠ .global) :
    row.policy.provider = c.provider := by
  have hall := of_decide_eq_true h
  exact hall.2.2.resolve_right hscope

/-! ## What the gate bounds -/

/-- The two caps that count over time. -/
inductive Window where
  | day
  | month
deriving Repr, DecidableEq

def Window.cap : Window → LLMBudgetPolicy → Option Int
  | .day, policy => policy.maxCostPerDayUsd
  | .month, policy => policy.maxCostPerMonthUsd

/-- The usage that the check of the cap reads, of any provider. -/
def Window.usage (cal : Calendar) (reads : Reads) (provider : String) : Window → Int
  | .day => reads.day.getDailyUsageUsd cal (some provider) reads.dayAt
  | .month => reads.month.getMonthlyUsageUsd cal (some provider) reads.monthAt

/-- The call fits when nothing was used. -/
def LLMBudgetPolicy.HasRoom (policy : LLMBudgetPolicy) (e : Estimate) : Prop :=
  exceeds policy.maxTokensPerTask 0 (e.promptTokens + e.completionTokens) = false ∧
    exceeds policy.maxCostPerTaskUsd 0 e.costUsd = false ∧
    exceeds policy.maxCostPerDayUsd 0 e.costUsd = false ∧
    exceeds policy.maxCostPerMonthUsd 0 e.costUsd = false

theorem breach_eq_none {cap : Cap} {limit : Option Int} {used estimated : Int} :
    breach cap limit used estimated = none ↔ exceeds limit used estimated = false := by
  unfold breach
  cases exceeds limit used estimated <;> simp

theorem checkCaps_eq_none {policy : LLMBudgetPolicy} {taskId : Option String} :
    checkCaps cal policy taskId e reads = none ↔
      exceeds policy.maxTokensPerTask
          (ofTruthyTask taskId fun t => (reads.taskTokens.getTaskUsage t).tokens)
          (e.promptTokens + e.completionTokens) = false ∧
        exceeds policy.maxCostPerTaskUsd
          (ofTruthyTask taskId fun t => (reads.taskCost.getTaskUsage t).costUsd) e.costUsd = false ∧
        ∀ win : Window,
          exceeds (win.cap policy) (win.usage cal reads policy.provider) e.costUsd = false := by
  unfold checkCaps
  rw [Option.or_eq_none_iff, Option.or_eq_none_iff, Option.or_eq_none_iff, breach_eq_none,
    breach_eq_none, breach_eq_none, breach_eq_none]
  refine and_congr_right fun _ => and_congr_right fun _ => ?_
  constructor
  · rintro ⟨hday, hmonth⟩ win
    cases win with
    | day => exact hday
    | month => exact hmonth
  · exact fun hall => ⟨hall .day, hall .month⟩

/-- A provider other than the mock is called unless its policy blocks and a cap is exceeded. -/
theorem preflight_ne_blocked_iff (hmock : c.provider ≠ "mock")
    (hpolicy : getActivePolicy rows c = some row) :
    (preflight cal rows c modelName (.ok e) reads).decision ≠ .blocked ↔
      row.enforcementMode = .block → checkCaps cal row.policy c.taskId e reads = none := by
  unfold preflight
  dsimp only
  rw [if_neg hmock, hpolicy]
  dsimp only
  cases checkCaps cal row.policy c.taskId e reads with
  | none => simp
  | some b => cases row.enforcementMode <;> simp

/-- A ledger of one paid call. -/
def spent (provider : String) (costUsd : Int) : Ledger :=
  Ledger.ofHistory [{
    budgetEventId := ⟨0⟩, taskId := none, workflowId := none, policyId := none
    provider := provider, modelName := "", eventType := .recordedUsage
    estimatedPromptTokens := 0, estimatedCompletionTokens := 0, estimatedTotalTokens := 0
    actualPromptTokens := none, actualCompletionTokens := none, actualTotalTokens := none
    estimatedCostUsd := 0, actualCostUsd := some costUsd, decision := .recorded, reason := none
    createdAt := 0, metadata := [], reservationKey := none }]

theorem spent_usage {p : Periods} {provider q : String} {costUsd : Int} :
    usage (inPeriod p (some q) 0) LLMBudgetEvent.costUsd (spent provider costUsd).rows =
      if provider = q then costUsd else 0 := by
  have hmem := p.mem 0
  unfold usage spent Ledger.ofHistory inPeriod countedEventTypes Periods.Same
  by_cases hq : provider = q
  · simp [hq, hmem, LLMBudgetEvent.costUsd]
  · simp [hq]

theorem spent_taskUsage {provider t : String} {costUsd : Int} :
    ((spent provider costUsd).getTaskUsage t).tokens = 0 ∧
      ((spent provider costUsd).getTaskUsage t).costUsd = 0 := by
  unfold Ledger.getTaskUsage usage spent Ledger.ofHistory ofTask
  simp

theorem ofTruthyTask_zero {taskId : Option String} {used : String → Int} (h : ∀ t, used t = 0) :
    ofTruthyTask taskId used = 0 := by
  unfold ofTruthyTask
  split
  · rfl
  · exact h _

/-- **What the gate counts.** A policy other than a global one names the provider that is called.
Over all ledgers, a call that is not blocked fits its cap on top of what its provider has used,
exactly when the policy that gates it blocks and names that provider. -/
theorem gate_counts_iff (cal : Calendar) (hmock : c.provider ≠ "mock")
    (hpolicy : getActivePolicy rows c = some row) (modelName : String) (win : Window) {cap : Int}
    (hcap : positive (win.cap row.policy) = some cap) (hroom : row.policy.HasRoom e) :
    (row.scopeType ≠ .global → row.policy.provider = c.provider) ∧
    ((∀ reads, (preflight cal rows c modelName (.ok e) reads).decision ≠ .blocked →
        win.usage cal reads c.provider + e.costUsd ≤ cap) ↔
      row.enforcementMode = .block ∧ row.policy.provider = c.provider) := by
  refine ⟨provider_of_applies (getActivePolicy_eq_some hpolicy).2.1, ?_⟩
  constructor
  · intro hall
    -- on this ledger the called provider has spent more than the cap, and no other one anything
    let L := spent c.provider (cap + 1)
    let reads : Reads := ⟨L, L, L, 0, L, 0⟩
    have husage : ∀ (win : Window) q, win.usage cal reads q =
        if c.provider = q then cap + 1 else 0 := by
      intro win q
      cases win with
      | day => exact spent_usage
      | month => exact spent_usage
    have hblocked : ¬ (preflight cal rows c modelName (.ok e) reads).decision ≠ .blocked := by
      intro hgoes
      have hle := hall reads hgoes
      rw [husage win, if_pos rfl] at hle
      omega
    rw [preflight_ne_blocked_iff hmock hpolicy, Classical.not_imp] at hblocked
    refine ⟨hblocked.1, ?_⟩
    by_contra hne
    apply hblocked.2
    rw [checkCaps_eq_none, ofTruthyTask_zero fun _ => spent_taskUsage.1,
      ofTruthyTask_zero fun _ => spent_taskUsage.2]
    refine ⟨hroom.1, hroom.2.1, fun win => ?_⟩
    rw [husage win, if_neg (Ne.symm hne)]
    cases win with
    | day => exact hroom.2.2.1
    | month => exact hroom.2.2.2
  · rintro ⟨hmode, heq⟩ reads hgoes
    have hnone := (preflight_ne_blocked_iff hmock hpolicy).mp hgoes hmode
    have hfits := (checkCaps_eq_none.mp hnone).2.2 win
    rw [heq] at hfits
    unfold exceeds at hfits
    rw [hcap, Option.any_some, decide_eq_false_iff_not] at hfits
    omega

/-- A global policy that names the live provider. -/
def livePolicy : PolicyRow := ⟨pilotPolicy, "pilot", .global, none, .block, .active, 0⟩

/-- It lets calls of another provider through, whatever they have spent. -/
theorem gate_counts_iff_mistral :
    ¬ ∀ reads, (preflight january [livePolicy] ⟨"mistral", none, none, none⟩ "large"
        (.ok (estimateOf 1)) reads).decision ≠ .blocked →
          Window.day.usage january reads "mistral" + (estimateOf 1).costUsd ≤ 300000 := by
  have hmock : (Caller.mk "mistral" none none none).provider ≠ "mock" := by decide
  have hpolicy : getActivePolicy [livePolicy] ⟨"mistral", none, none, none⟩ = some livePolicy := rfl
  have hcap : positive (Window.day.cap livePolicy.policy) = some 300000 := rfl
  have hroom : livePolicy.policy.HasRoom (estimateOf 1) := ⟨rfl, rfl, rfl, rfl⟩
  have hiff := gate_counts_iff january hmock hpolicy "large" .day hcap hroom
  intro hall
  have hnames := (hiff.2.mp hall).2
  exact absurd hnames (by decide)

end AiAgentsSwd.Budget
