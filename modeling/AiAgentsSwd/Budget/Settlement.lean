import AiAgentsSwd.Budget.Caps
import AiAgentsSwd.Python.Dicts

/-!
# Budget.Settlement — what an untrusted response does to the ledger

Model of `AnthropicReasoningProvider._invoke` from the reservation on, in
`shared/sdk/agent_reasoning/anthropic_provider.py`: `_call`, `_read_response`, `_usage_from`,
`_settle`, and `BudgetPolicyEvaluator.settle`. `ratesOf` are the prices of the live model.

`paid_call_counts`: every call is counted at its estimate, unless its response reports tokens; and
then at what these cost, be it nothing or less.
-/

namespace AiAgentsSwd.Budget

open Json (Value)
open Keyed
open Planning (Uuid)
open Python (Truncation intOfValue)

/-! ## Responses -/

/-- An HTTP response; the body is `none` where `response.json()` raises. -/
structure Response where
  statusCode : Int
  body : Option Value

/-- What `_usage_from` finds. -/
structure ProviderUsage where
  inputTokens : Option Int
  outputTokens : Option Int
  providerRequestId : Option String
deriving Repr, DecidableEq

/-- How `_call` ends without a usage that is settled. -/
inductive CallFailure where
  | live (failureCategory : String) (usage : Option ProviderUsage)
  /-- `int` of an infinity raises an `OverflowError`, which nobody expects. -/
  | overflowError
deriving Repr, DecidableEq

/-- What becomes of the request. -/
inductive Wire where
  /-- The worker dies before it has an answer, or with it. -/
  | died
  | timedOut
  | unreachable
  | responded (response : Response)

/-- `_http_failure_category(status_code)` -/
def httpFailureCategory (statusCode : Int) : String :=
  if statusCode = 429 then "rate_limited"
  else if 500 ≤ statusCode ∧ statusCode < 600 then "provider_unavailable"
  else if 400 ≤ statusCode ∧ statusCode < 500 then "provider_unauthorized"
  else "provider_unavailable"

section Reading

variable (trunc : Json.FloatText → Truncation)

/-- `_int_or_none(value)` of a member that may be missing. -/
def intOrNone : Option Value → Except CallFailure (Option Int)
  | none => .ok none
  | some value =>
    match intOfValue trunc value with
    | .ok i => .ok (some i)
    | .error .typeError => .ok none
    | .error .valueError => .ok none
    | .error .overflowError => .error .overflowError

/-- `raw_id[:120]` of a text that is not empty. -/
def requestId : Option Value → Option String
  | some (.str s) => if s = "" then none else some (String.ofList (s.toList.take 120))
  | _ => none

/-- `_usage_from(body)` -/
def usageFrom : Option Value → Except CallFailure ProviderUsage
  | some (.obj body) => do
    let (inputTokens, outputTokens) ← match Json.field? body "usage" with
      | some (.obj rawUsage) => do
        let i ← intOrNone trunc (Json.field? rawUsage "input_tokens")
        let o ← intOrNone trunc (Json.field? rawUsage "output_tokens")
        pure (i, o)
      | _ => pure (none, none)
    return ⟨inputTokens, outputTokens, requestId (Json.field? body "id")⟩
  | _ => .ok ⟨none, none, none⟩

/-- `_read_response(response)` -/
def readResponse (response : Response) : Except CallFailure ProviderUsage := do
  let usage ← usageFrom trunc response.body
  if response.statusCode < 200 ∨ 300 ≤ response.statusCode then
    throw (.live (httpFailureCategory response.statusCode) (some usage))
  else
    match response.body with
    | some (.obj _) => return usage
    | _ => throw (.live "malformed_output" (some usage))

/-- `_call(payload, api_key)` -/
def callProvider : Wire → Except CallFailure ProviderUsage
  | .died => .error (.live "provider_unavailable" none)
  | .timedOut => .error (.live "provider_timeout" none)
  | .unreachable => .error (.live "provider_unavailable" none)
  | .responded response => readResponse trunc response

end Reading

/-! ## Settlement -/

/-- What `estimate_cost` makes of token counts. -/
inductive Priced where
  | cost (costUsd : Int)
  | valueError
  | raises
deriving Repr, DecidableEq

/-- The prices of the live model: two millionths of a dollar for a token that goes in, and ten for
one that comes out. -/
def ratesOf (inputTokens outputTokens : Int) : Int := 2 * inputTokens + 10 * outputTokens

/-- The estimator knows the live model and these prices. -/
def LiveRates (estimate : Int → Int → Priced) : Prop :=
  ∀ i o, FitsInteger i → FitsInteger o → estimate i o = .cost (ratesOf i o)

section Settling

variable (estimate : Int → Int → Priced)

/-- What `settle` calls the ledger with. -/
def settlement (reservationKey : String) (usage : ProviderUsage) : Option Settle :=
  let i := usage.inputTokens.getD 0
  let o := usage.outputTokens.getD 0
  let metadata := [("provider_request_id", (usage.providerRequestId.map Value.str).getD .null)]
  match estimate i o with
  | .cost c => some ⟨reservationKey, i, o, c, metadata⟩
  | .valueError => some ⟨reservationKey, i, o, 0, metadata⟩
  | .raises => none

/-- `_settle(usage)`: the ledger, and `settled`. -/
def Ledger.settle (L : Ledger) (reservationKey : String) (usage : ProviderUsage) :
    Ledger × Bool :=
  match settlement estimate reservationKey usage with
  | none => (L, false)
  | some s => (L.settleAttemptCost s, decide s.Fits)

variable (trunc : Json.FloatText → Truncation)

/-- The ledger after `_invoke` has reserved, called and settled. -/
def Ledger.invoke (L : Ledger) (id : Uuid) (now : Int) (r : Reserve) (wire : Wire) : Ledger :=
  let L := L.reserveAttemptCost id now r
  match callProvider trunc wire with
  | .error _ => L
  | .ok usage => (L.settle estimate r.reservationKey usage).1

/-- The tokens a response reports, where they fit their columns; what is missing is zero. -/
def reported (wire : Wire) : Option (Int × Int) :=
  match callProvider trunc wire with
  | .error _ => none
  | .ok usage =>
    let i := usage.inputTokens.getD 0
    let o := usage.outputTokens.getD 0
    if FitsInteger i ∧ FitsInteger o ∧ FitsInteger (i + o) then some (i, o) else none

/-- What a call is counted at. -/
def callCharge (wire : Wire) (estimatedCostUsd : Int) : Int :=
  match reported trunc wire with
  | some (i, o) => ratesOf i o
  | none => estimatedCostUsd

end Settling

/-! ## What a call adds to a day -/

section Counting

variable {estimate : Int → Int → Priced} {trunc : Json.FloatText → Truncation} {L : Ledger}
  {id : Uuid} {now : Int} {r : Reserve}

theorem fitsNumeric_ratesOf {i o : Int} (hi : FitsInteger i) (ho : FitsInteger o) :
    FitsNumeric (ratesOf i o) := by
  unfold FitsInteger at hi ho
  unfold FitsNumeric ratesOf
  omega

theorem rows_reserve (hfits : r.Fits)
    (hfresh : r.reservationKey ∉ keys LLMBudgetEvent.reservationKey L.rows) :
    (L.reserveAttemptCost id now r).rows = L.rows ++ [r.row id now] := by
  unfold Ledger.reserveAttemptCost
  rw [dif_pos ⟨hfits, hfresh⟩]

/-- A settlement changes the one row of its key. -/
theorem rows_settle (hfits : r.Fits)
    (hfresh : r.reservationKey ∉ keys LLMBudgetEvent.reservationKey L.rows) {s : Settle}
    (hs : s.Fits) (hkey : s.reservationKey = r.reservationKey) :
    ((L.reserveAttemptCost id now r).settleAttemptCost s).rows =
      L.rows ++ [(r.row id now).settled s] := by
  have hold : ∀ e ∈ L.rows, updateReserved s.reservationKey (·.settled s) e = e := by
    intro e he
    unfold updateReserved
    refine if_neg fun hmatch => hfresh ?_
    rw [← hkey]
    exact List.mem_filterMap.mpr ⟨e, he, hmatch.1⟩
  have hnew : updateReserved s.reservationKey (·.settled s) (r.row id now) =
      (r.row id now).settled s := by
    unfold updateReserved
    exact if_pos ⟨congrArg some hkey.symm, rfl⟩
  unfold Ledger.settleAttemptCost
  rw [if_pos hs]
  show (L.reserveAttemptCost id now r).rows.map _ = _
  rw [rows_reserve hfits hfresh, List.map_append, List.map_singleton, hnew,
    List.map_congr_left hold, List.map_id']

/-- Tokens that do not fit their columns are not settled. -/
theorem settle_of_not_fits {k : String} {usage : ProviderUsage}
    (h : ¬(FitsInteger (usage.inputTokens.getD 0) ∧ FitsInteger (usage.outputTokens.getD 0) ∧
      FitsInteger (usage.inputTokens.getD 0 + usage.outputTokens.getD 0))) :
    (L.settle estimate k usage).1 = L := by
  have hkept : ∀ {c m}, L.settleAttemptCost
      ⟨k, usage.inputTokens.getD 0, usage.outputTokens.getD 0, c, m⟩ = L := by
    intro c m
    unfold Ledger.settleAttemptCost
    refine if_neg fun hs => h ?_
    exact ⟨hs.1, hs.2.1, hs.2.2.1⟩
  unfold Ledger.settle settlement
  dsimp only
  cases estimate (usage.inputTokens.getD 0) (usage.outputTokens.getD 0) with
  | cost c => exact hkept
  | valueError => exact hkept
  | raises => rfl

/-- The others are, at the prices of the live model. -/
theorem settle_of_fits (hrates : LiveRates estimate) {k : String} {usage : ProviderUsage}
    (h : FitsInteger (usage.inputTokens.getD 0) ∧ FitsInteger (usage.outputTokens.getD 0) ∧
      FitsInteger (usage.inputTokens.getD 0 + usage.outputTokens.getD 0)) :
    ∃ s : Settle, (L.settle estimate k usage).1 = L.settleAttemptCost s ∧ s.Fits ∧
      s.reservationKey = k ∧
      s.actualCostUsd = ratesOf (usage.inputTokens.getD 0) (usage.outputTokens.getD 0) := by
  unfold Ledger.settle settlement
  dsimp only
  rw [hrates _ _ h.1 h.2.1]
  exact ⟨_, rfl, ⟨h.1, h.2.1, h.2.2, fitsNumeric_ratesOf h.1 h.2.1⟩, rfl, rfl⟩

/-- After the call the ledger has one more row, which counts the charge. -/
theorem rows_invoke (hrates : LiveRates estimate) (hfits : r.Fits)
    (hfresh : r.reservationKey ∉ keys LLMBudgetEvent.reservationKey L.rows) (wire : Wire) :
    ∃ e, (L.invoke estimate trunc id now r wire).rows = L.rows ++ [e] ∧
      e.eventType ∈ countedEventTypes ∧ e.provider = r.provider ∧ e.createdAt = now ∧
      e.costUsd = callCharge trunc wire r.estimatedCostUsd := by
  have hkept : reported trunc wire = none →
      (L.invoke estimate trunc id now r wire).rows = L.rows ++ [r.row id now] →
      ∃ e, (L.invoke estimate trunc id now r wire).rows = L.rows ++ [e] ∧
        e.eventType ∈ countedEventTypes ∧ e.provider = r.provider ∧ e.createdAt = now ∧
        e.costUsd = callCharge trunc wire r.estimatedCostUsd := by
    intro hnone hrows
    refine ⟨r.row id now, hrows, by simp [Reserve.row, countedEventTypes], rfl, rfl, ?_⟩
    rw [callCharge, hnone]
    rfl
  cases hcall : callProvider trunc wire with
  | error f =>
    refine hkept (by rw [reported, hcall]) ?_
    rw [Ledger.invoke, hcall]
    exact rows_reserve hfits hfresh
  | ok usage =>
    by_cases htokens : FitsInteger (usage.inputTokens.getD 0) ∧
        FitsInteger (usage.outputTokens.getD 0) ∧
          FitsInteger (usage.inputTokens.getD 0 + usage.outputTokens.getD 0)
    · -- the estimate is replaced
      have hreported : reported trunc wire =
          some (usage.inputTokens.getD 0, usage.outputTokens.getD 0) := by
        rw [reported, hcall]
        exact if_pos htokens
      rcases settle_of_fits (L := L.reserveAttemptCost id now r) hrates htokens with
        ⟨s, hsettle, hs, hkey, hcost⟩
      refine ⟨(r.row id now).settled s, ?_, by simp [LLMBudgetEvent.settled, countedEventTypes],
        rfl, rfl, ?_⟩
      · rw [Ledger.invoke, hcall]
        show ((L.reserveAttemptCost id now r).settle estimate r.reservationKey usage).1.rows = _
        rw [hsettle]
        exact rows_settle hfits hfresh hs hkey
      · rw [callCharge, hreported]
        exact hcost
    · refine hkept (by rw [reported, hcall]; exact if_neg htokens) ?_
      rw [Ledger.invoke, hcall]
      show ((L.reserveAttemptCost id now r).settle estimate r.reservationKey usage).1.rows = _
      rw [settle_of_not_fits htokens]
      exact rows_reserve hfits hfresh

end Counting

end AiAgentsSwd.Budget
