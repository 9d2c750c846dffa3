import AiAgentsSwd.ApprovalPolicy.PathPolicy
import Mathlib.Algebra.Order.Field.Rat
import Mathlib.Data.List.MinMax
import Mathlib.Tactic.Linarith

/-!
# Budget.Estimator — the cost estimate of a model the table does not know

Model of `LLMCostEstimator.estimate_cost` of `shared/sdk/llm_budget/estimator.py`, over an
arithmetic of rates and costs with the laws that floating point has on rates that are not
negative: `part` and `total` keep the order, nothing is charged for no tokens, and a thousand
tokens cost the rate. The costs are those before `round`.

A name outside the table is charged as the entry whose two rates have the largest sum. Main
result: `estimate_conservative_iff`, that is conservative exactly when the entry has the
highest of both rates.
-/

namespace AiAgentsSwd.Budget

open ApprovalPolicy (strip)

/-! ## Arithmetic -/

/-- Rates of type `R` and costs of type `C`. -/
structure Arithmetic (R C : Type) [LinearOrder R] [LinearOrder C] where
  /-- the rate `0.0` -/
  zeroRate : R
  /-- the cost `0.0` -/
  zeroCost : C
  /-- `prompt + completion`, of rates -/
  rateSum : R → R → R
  /-- `(float(tokens) / 1000.0) * float(rate)` -/
  part : Nat → R → C
  /-- `prompt_cost + completion_cost` -/
  total : C → C → C
  part_mono : ∀ {n a b}, a ≤ b → part n a ≤ part n b
  total_mono : ∀ {x x' y y'}, x ≤ x' → y ≤ y' → total x y ≤ total x' y'
  part_none : ∀ a b, part 0 a = part 0 b
  part_thousand : ∀ {a b}, a < b → part 1000 a < part 1000 b
  total_left : ∀ {x x'} (a : R), x < x' → total x (part 0 a) < total x' (part 0 a)
  total_right : ∀ {y y'} (a : R), y < y' → total (part 0 a) y < total (part 0 a) y'

theorem exact_part_mono {n : Nat} {a b : ℚ} (h : a ≤ b) :
    (n : ℚ) / 1000 * a ≤ (n : ℚ) / 1000 * b :=
  mul_le_mul_of_nonneg_left h (div_nonneg (Nat.cast_nonneg n) (by norm_num))

theorem exact_part_none (a b : ℚ) : ((0 : Nat) : ℚ) / 1000 * a = ((0 : Nat) : ℚ) / 1000 * b := by
  simp

theorem exact_part_thousand {a b : ℚ} (h : a < b) :
    ((1000 : Nat) : ℚ) / 1000 * a < ((1000 : Nat) : ℚ) / 1000 * b := by
  linarith

/-- Exact arithmetic. -/
def exactArithmetic : Arithmetic ℚ ℚ where
  zeroRate := 0
  zeroCost := 0
  rateSum := (· + ·)
  part n rate := (n : ℚ) / 1000 * rate
  total := (· + ·)
  part_mono := exact_part_mono
  total_mono := add_le_add
  part_none := exact_part_none
  part_thousand := exact_part_thousand
  total_left _ h := add_lt_add_left h _
  total_right _ h := add_lt_add_right h _

/-! ## The estimator -/

/-- An entry of the pricing table: its `prompt` and its `completion`, if it has them. -/
structure Rates (R : Type) where
  prompt : Option R
  completion : Option R
deriving Repr, DecidableEq

/-- The entries of a provider by model, and those of all providers. -/
abbrev Models (R : Type) := List (String × Rates R)

abbrev PricingTable (R : Type) := List (String × Models R)

/-- What `estimate_cost` returns, the costs before they are rounded. -/
structure CostEstimate (C : Type) where
  provider : String
  modelName : String
  promptTokens : Nat
  completionTokens : Nat
  totalTokens : Nat
  promptCostUsd : C
  completionCostUsd : C
  costUsd : C
  modelKnown : Bool
  fallbackUsed : Bool

/-- What `estimate_cost` raises. -/
inductive EstimateError where
  /-- `ValueError("unknown_provider:{provider}")` -/
  | unknownProvider (provider : String)
  /-- `ValueError("no_models_for_provider:{provider}")` -/
  | noModelsForProvider (provider : String)
  /-- `KeyError` of an entry without one of its rates -/
  | keyError (key : String)
deriving Repr, DecidableEq

/-- `(provider or "").strip()` -/
def normalProvider (provider : String) : String := String.ofList (strip provider.toList)

/-- `(model_name or "").strip().lower()`, where `lower` is that of the Unicode database. -/
def normalModel (lower : List Char → List Char) (modelName : String) : String :=
  String.ofList (lower (strip modelName.toList))

section Estimate

variable {R C : Type} [LinearOrder R] [LinearOrder C] (A : Arithmetic R C)
  (lower : List Char → List Char)

/-- The key of the fallback: `entry.get("prompt", 0.0) + entry.get("completion", 0.0)`. -/
def Rates.sum (e : Rates R) : R :=
  A.rateSum (e.prompt.getD A.zeroRate) (e.completion.getD A.zeroRate)

/-- The first entry of the largest sum. -/
def mostExpensive (models : Models R) : Option (String × Rates R) :=
  models.argmax fun m => m.2.sum A

/-- The entry a name is charged as, with its label and whether it is the fallback. -/
def chosenEntry (models : Models R) (modelName : String) : Option (String × Rates R × Bool) :=
  match models.lookup modelName with
  | some entry => some (modelName, entry, false)
  | none => (mostExpensive A models).map fun m => (m.1, m.2, true)

/-- `estimate_cost(provider, model_name, prompt_tokens, completion_tokens)` -/
def estimateCost (table : PricingTable R) (provider modelName : String)
    (promptTokens completionTokens : Nat) : Except EstimateError (CostEstimate C) :=
  let provider := normalProvider provider
  let modelName := normalModel lower modelName
  if provider = "mock" then
    .ok {
      provider := provider
      modelName := if modelName = "" then "mock-deterministic" else modelName
      promptTokens := promptTokens
      completionTokens := completionTokens
      totalTokens := promptTokens + completionTokens
      promptCostUsd := A.zeroCost
      completionCostUsd := A.zeroCost
      costUsd := A.zeroCost
      modelKnown := true
      fallbackUsed := false }
  else
    match table.lookup provider with
    | none => .error (.unknownProvider provider)
    | some models =>
      match chosenEntry A models modelName with
      | none => .error (.noModelsForProvider provider)
      | some (label, entry, fallback) =>
        match entry.prompt, entry.completion with
        | none, _ => .error (.keyError "prompt")
        | some _, none => .error (.keyError "completion")
        | some prompt, some completion =>
          .ok {
            provider := provider
            modelName := label
            promptTokens := promptTokens
            completionTokens := completionTokens
            totalTokens := promptTokens + completionTokens
            promptCostUsd := A.part promptTokens prompt
            completionCostUsd := A.part completionTokens completion
            costUsd := A.total (A.part promptTokens prompt) (A.part completionTokens completion)
            modelKnown := !fallback
            fallbackUsed := fallback }

/-! ## When the fallback is conservative -/

/-- An entry that has both its rates. -/
def Rates.Priced (e : Rates R) (prompt completion : R) : Prop :=
  e.prompt = some prompt ∧ e.completion = some completion

/-- What a call costs at two rates; the mock provider charges nothing. -/
def modelCost (provider : String) (prompt completion : R)
    (promptTokens completionTokens : Nat) : C :=
  if normalProvider provider = "mock" then A.zeroCost
  else A.total (A.part promptTokens prompt) (A.part completionTokens completion)

/-- The entry a name is charged as has the highest prompt rate and the highest completion
rate of the table. -/
def Dominates (models : Models R) (modelName : String) : Prop :=
  ∃ label entry fallback, chosenEntry A models (normalModel lower modelName) =
      some (label, entry, fallback) ∧
    ∀ prompt completion, entry.Priced prompt completion →
      ∀ m ∈ models, ∀ p c, m.2.Priced p c → p ≤ prompt ∧ c ≤ completion

variable {A lower}

/-- A table with a model has an entry for every name, and it is one of the table's. -/
theorem chosenEntry_mem {models : Models R} (hne : models ≠ []) (modelName : String) :
    ∃ label entry fallback, chosenEntry A models modelName = some (label, entry, fallback) ∧
      ∃ m ∈ models, m.2 = entry := by
  unfold chosenEntry
  rcases hfound : models.lookup modelName with - | entry
  · rcases hmax : mostExpensive A models with - | m
    · exact absurd (List.argmax_eq_none.mp hmax) hne
    · exact ⟨m.1, m.2, true, rfl, m, List.argmax_mem hmax, rfl⟩
  · obtain ⟨l₁, l₂, hsplit, -⟩ := List.lookup_eq_some_iff.mp hfound
    exact ⟨modelName, entry, false, rfl, (modelName, entry), by simp [hsplit], rfl⟩

/-- What is charged for a name, outside the mock provider. -/
theorem estimateCost_eq {table : PricingTable R} {provider modelName label : String}
    {models : Models R} {entry : Rates R} {fallback : Bool} {prompt completion : R}
    (hmock : normalProvider provider ≠ "mock")
    (hmodels : table.lookup (normalProvider provider) = some models)
    (hentry : chosenEntry A models (normalModel lower modelName) = some (label, entry, fallback))
    (hpriced : entry.Priced prompt completion) (promptTokens completionTokens : Nat) :
    ∃ e, estimateCost A lower table provider modelName promptTokens completionTokens = .ok e ∧
      e.costUsd = A.total (A.part promptTokens prompt) (A.part completionTokens completion) := by
  unfold estimateCost
  dsimp only
  rw [if_neg hmock, hmodels]
  simp only [hentry, hpriced.1, hpriced.2]
  exact ⟨_, rfl, rfl⟩

/-- The mock provider charges nothing. -/
theorem estimateCost_mock {table : PricingTable R} {provider modelName : String}
    (hmock : normalProvider provider = "mock") (promptTokens completionTokens : Nat) :
    ∃ e, estimateCost A lower table provider modelName promptTokens completionTokens = .ok e ∧
      e.costUsd = A.zeroCost := by
  unfold estimateCost
  dsimp only
  rw [if_pos hmock]
  exact ⟨_, rfl, rfl⟩

/-- **When the estimate is conservative.** For a provider whose models all have both rates,
the estimate for a name is at least the cost of every model at all token counts exactly when
the provider is the mock, or the entry the name is charged as has the highest prompt rate and
the highest completion rate. -/
theorem estimate_conservative_iff {table : PricingTable R} {provider : String}
    {models : Models R} (hmodels : table.lookup (normalProvider provider) = some models)
    (hne : models ≠ []) (hpriced : ∀ m ∈ models, ∃ prompt completion, m.2.Priced prompt completion)
    (modelName : String) :
    (∀ promptTokens completionTokens, ∃ e,
      estimateCost A lower table provider modelName promptTokens completionTokens = .ok e ∧
        ∀ m ∈ models, ∀ prompt completion, m.2.Priced prompt completion →
          modelCost A provider prompt completion promptTokens completionTokens ≤ e.costUsd) ↔
      normalProvider provider = "mock" ∨ Dominates A lower models modelName := by
  by_cases hmock : normalProvider provider = "mock"
  · refine iff_of_true (fun promptTokens completionTokens => ?_) (Or.inl hmock)
    have hfree : ∃ e, estimateCost A lower table provider modelName promptTokens
        completionTokens = .ok e ∧ e.costUsd = A.zeroCost :=
      estimateCost_mock hmock promptTokens completionTokens
    obtain ⟨e, he, hcost⟩ := hfree
    exact ⟨e, he, fun m _ p c _ => by rw [modelCost, if_pos hmock, hcost]⟩
  · obtain ⟨label, entry, fallback, hentry, m₀, hm₀, rfl⟩ :=
      chosenEntry_mem (A := A) hne (normalModel lower modelName)
    obtain ⟨prompt, completion, hrates⟩ := hpriced m₀ hm₀
    have hcharge := estimateCost_eq (A := A) hmock hmodels hentry hrates
    rw [or_iff_right hmock]
    constructor
    · intro h
      refine ⟨label, m₀.2, fallback, hentry, fun prompt' completion' hrates' m hm p c hpc => ?_⟩
      obtain rfl : prompt = prompt' := Option.some.inj (hrates.1.symm.trans hrates'.1)
      obtain rfl : completion = completion' := Option.some.inj (hrates.2.symm.trans hrates'.2)
      have hle : ∀ n k, A.total (A.part n p) (A.part k c) ≤
          A.total (A.part n prompt) (A.part k completion) := by
        intro n k
        obtain ⟨e, he, hall⟩ := h n k
        obtain ⟨e', he', hcost⟩ := hcharge n k
        obtain rfl : e = e' := Except.ok.inj (he.symm.trans he')
        have hm' := hall m hm p c hpc
        rwa [modelCost, if_neg hmock, hcost] at hm'
      constructor
      · -- a thousand prompt tokens alone tell the prompt rates apart
        by_contra hlt
        have hstrict := A.total_left completion (A.part_thousand (not_le.mp hlt))
        have hsame := hle 1000 0
        rw [A.part_none c completion] at hsame
        exact absurd hstrict (not_lt.mpr hsame)
      · by_contra hlt
        have hstrict := A.total_right prompt (A.part_thousand (not_le.mp hlt))
        have hsame := hle 0 1000
        rw [A.part_none p prompt] at hsame
        exact absurd hstrict (not_lt.mpr hsame)
    · rintro ⟨label', entry', fallback', hentry', hdominates⟩ promptTokens completionTokens
      obtain ⟨-, rfl, -⟩ : label = label' ∧ m₀.2 = entry' ∧ fallback = fallback' := by
        simpa using hentry.symm.trans hentry'
      obtain ⟨e, he, hcost⟩ := hcharge promptTokens completionTokens
      refine ⟨e, he, fun m hm p c hpc => ?_⟩
      obtain ⟨hp, hc⟩ := hdominates prompt completion hrates m hm p c hpc
      rw [modelCost, if_neg hmock, hcost]
      exact A.total_mono (A.part_mono hp) (A.part_mono hc)

end Estimate

/-! ### Two models, each dear in its own way -/

/-- One model charges for prompts alone, the other, less in sum, for completions alone. -/
def crossedModels : Models ℚ := [("a", ⟨some 2, some 0⟩), ("b", ⟨some 0, some 1⟩)]

theorem crossedModels_priced :
    ∀ m ∈ crossedModels, ∃ prompt completion, m.2.Priced prompt completion := by
  intro m hm
  simp only [crossedModels, List.mem_cons, List.not_mem_nil, or_false] at hm
  rcases hm with rfl | rfl
  · exact ⟨2, 0, rfl, rfl⟩
  · exact ⟨0, 1, rfl, rfl⟩

theorem estimate_conservative_iff_crossed :
    (∀ promptTokens completionTokens, ∃ e,
      estimateCost exactArithmetic id [("acme", crossedModels)] "acme" "c" promptTokens
          completionTokens = .ok e ∧
        ∀ m ∈ crossedModels, ∀ prompt completion, m.2.Priced prompt completion →
          modelCost exactArithmetic "acme" prompt completion promptTokens completionTokens ≤
            e.costUsd) ↔
      normalProvider "acme" = "mock" ∨ Dominates exactArithmetic id crossedModels "c" :=
  estimate_conservative_iff (by decide +kernel) (by decide) crossedModels_priced "c"

/-- A thousand completion tokens of an unknown model are estimated at nothing, where a model
of the table charges one dollar for them. -/
theorem crossed_estimate_short :
    ∃ e, estimateCost exactArithmetic id [("acme", crossedModels)] "acme" "c" 0 1000 = .ok e ∧
      e.costUsd = 0 ∧ modelCost exactArithmetic "acme" 0 1 0 1000 = 1 := by
  have hentry : chosenEntry exactArithmetic crossedModels (normalModel id "c") =
      some ("a", ⟨some 2, some 0⟩, true) := by
    decide +kernel
  obtain ⟨e, he, hcost⟩ := estimateCost_eq (show normalProvider "acme" ≠ "mock" by decide +kernel)
    (show [("acme", crossedModels)].lookup (normalProvider "acme") = some crossedModels by
      decide +kernel) hentry ⟨rfl, rfl⟩ 0 1000
  refine ⟨e, he, ?_, by decide +kernel⟩
  rw [hcost]
  decide +kernel

end AiAgentsSwd.Budget
