import AiAgentsSwd.Budget.Charges
import AiAgentsSwd.Transition.Basic
import Mathlib.Algebra.Order.BigOperators.Group.List

/-!
# Budget.Caps — the caps and the attempts that are checked against them

Model of `BudgetPolicyEvaluator._check_caps` in `shared/sdk/llm_budget/policy.py` and of
`AnthropicReasoningProvider._invoke`, for attempts under one active policy in block mode. An
attempt reads the usage of the day and of the month, each in a statement of its own, and
reserves in a third one that looks at no cap.

1. `step`: attempts in any interleaving;
2. `Safe`: what a step keeps, if no reservation is made on a reading that the ledger has
   outgrown;
3. `caps_hold`, and a run without that condition.
-/

namespace AiAgentsSwd.Budget

open Json (Value)
open Keyed
open Planning (Uuid)
open Transition

/-! ## The policy -/

/-- The columns of `LLMBudgetPolicy` the caps are read from. -/
structure LLMBudgetPolicy where
  policyId : Uuid
  provider : String
  maxTokensPerTask : Option Int
  maxCostPerTaskUsd : Option Int
  maxCostPerDayUsd : Option Int
  maxCostPerMonthUsd : Option Int

/-- The estimate an attempt is gated on. -/
structure Estimate where
  modelName : String
  promptTokens : Nat
  completionTokens : Nat
  costUsd : Nat
  metadata : List (String × Value)

/-- `LIVE_PROVIDER_NAME`. -/
def liveProviderName : String := "anthropic"

/-- `MAX_COST_PER_CALL_USD`. -/
def maxCostPerCallUsd : Nat := 500000

/-- `cap is not None and cap > 0`: a cap that is looked at. -/
def positive (cap : Option Int) : Option Int := cap.filter fun c => 0 < c

/-- `used + estimated > cap`, for a cap that is looked at. -/
def exceeds (cap : Option Int) (used estimated : Int) : Bool :=
  (positive cap).any fun c => c < used + estimated

/-- What the provider charged. -/
structure Usage where
  inputTokens : Int
  outputTokens : Int
  costUsd : Int

/-! ## Attempts -/

/-- Where an attempt stands. `daily` and `monthly` are the usages it has read, where the policy
has such a cap. -/
inductive Phase where
  | idle
  /-- `_check_caps`: `get_daily_usage_usd`. -/
  | checkingDay (e : Estimate)
  /-- `_check_caps`: `get_monthly_usage_usd`. -/
  | checkingMonth (e : Estimate) (daily : Option Int)
  /-- `_reserve`. -/
  | reserving (e : Estimate) (daily monthly : Option Int)
  /-- `_resolve_credential`. -/
  | reserved (e : Estimate)
  /-- `_release`. -/
  | releasing (e : Estimate)
  /-- `_call`. -/
  | calling (e : Estimate)
  /-- `_settle`; the estimate bounds the actual cost. -/
  | settling (e : Estimate) (u : Usage) (bounded : u.costUsd ≤ e.costUsd)
  | over

/-- The ledger, and the attempts by their reservation keys. -/
structure World where
  ledger : Ledger
  attempts : String → Phase

/-- Before the first attempt. -/
def World.initial (L : Ledger) : World := ⟨L, fun _ => .idle⟩

/-- The attempt goes on. -/
def World.goto (w : World) (k : String) (p : Phase) : World :=
  { w with attempts := Function.update w.attempts k p }

/-- What may happen next; every time is the clock of the machine that reads it. -/
inductive Act where
  /-- Pre-flight of an attempt with its estimate. -/
  | start (k : String) (e : Estimate)
  | readDay (k : String) (day : Int)
  | readMonth (k : String) (month : Int)
  | reserve (k : String) (id : Uuid) (now : Int)
  | credential (k : String) (found : Bool)
  | release (k : String)
  /-- The provider answers, or the call fails. -/
  | answer (k : String) (usage : Option Usage)
  | settle (k : String)
  /-- The worker dies, or a statement raises. -/
  | crash (k : String)

/-- What `_reserve` calls the ledger with. -/
def Estimate.reserve (e : Estimate) (policy : LLMBudgetPolicy) (k : String) : Reserve :=
  { reservationKey := k
    provider := liveProviderName
    modelName := e.modelName
    policyId := some policy.policyId
    estimatedPromptTokens := e.promptTokens
    estimatedCompletionTokens := e.completionTokens
    estimatedCostUsd := e.costUsd
    taskId := none
    workflowId := none
    metadata := e.metadata }

/-- What `_settle` calls the ledger with. -/
def Usage.settle (u : Usage) (k : String) : Settle := ⟨k, u.inputTokens, u.outputTokens, u.costUsd, []⟩

/-- `_release(reservation, "credential_unavailable_before_any_request")`. -/
def credentialRelease (k : String) : Release :=
  ⟨k, some "credential_unavailable_before_any_request"⟩

/-- `_assert_budget_policy_authorized` and the caps of `_check_caps` on a task; a live attempt
names no task, so nothing was used. -/
def authorized (policy : LLMBudgetPolicy) (e : Estimate) : Bool :=
  policy.maxCostPerDayUsd.isSome && policy.maxCostPerMonthUsd.isSome &&
    !exceeds policy.maxTokensPerTask 0 (e.promptTokens + e.completionTokens) &&
    !exceeds policy.maxCostPerTaskUsd 0 e.costUsd

variable (cal : Calendar) (policy : LLMBudgetPolicy)

/-- `get_daily_usage_usd(provider=policy.provider)`. -/
def World.daily (w : World) (t : Int) : Int :=
  w.ledger.getDailyUsageUsd cal (some policy.provider) t

/-- `get_monthly_usage_usd(provider=policy.provider)`. -/
def World.monthly (w : World) (t : Int) : Int :=
  w.ledger.getMonthlyUsageUsd cal (some policy.provider) t

/-- One step of an attempt. -/
def step (w : World) : Act → Option World
  | .start k e =>
    match w.attempts k with
    | .idle => some (w.goto k (if authorized policy e then .checkingDay e else .over))
    | _ => none
  | .readDay k t =>
    match w.attempts k with
    | .checkingDay e =>
      match positive policy.maxCostPerDayUsd with
      | none => some (w.goto k (.checkingMonth e none))
      | some cap =>
        some (w.goto k (if cap < w.daily cal policy t + e.costUsd then .over
          else .checkingMonth e (some (w.daily cal policy t))))
    | _ => none
  | .readMonth k t =>
    match w.attempts k with
    | .checkingMonth e daily =>
      if maxCostPerCallUsd < e.costUsd then some (w.goto k .over)
      else
        match positive policy.maxCostPerMonthUsd with
        | none => some (w.goto k (.reserving e daily none))
        | some cap =>
          some (w.goto k (if cap < w.monthly cal policy t + e.costUsd then .over
            else .reserving e daily (some (w.monthly cal policy t))))
    | _ => none
  | .reserve k id now =>
    match w.attempts k with
    | .reserving e _ _ =>
      if (e.reserve policy k).Fits then
        some ({ w with ledger := w.ledger.reserveAttemptCost id now (e.reserve policy k) }.goto k
          (.reserved e))
      else some (w.goto k .over)
    | _ => none
  | .credential k found =>
    match w.attempts k with
    | .reserved e => some (w.goto k (if found then .calling e else .releasing e))
    | _ => none
  | .release k =>
    match w.attempts k with
    | .releasing _ =>
      some ({ w with ledger := w.ledger.releaseAttemptReservation (credentialRelease k) }.goto k
        .over)
    | _ => none
  | .answer k usage =>
    match w.attempts k with
    | .calling e =>
      match usage with
      | none => some (w.goto k .over)
      | some u => if h : u.costUsd ≤ e.costUsd then some (w.goto k (.settling e u h)) else none
    | _ => none
  | .settle k =>
    match w.attempts k with
    | .settling _ u _ =>
      some ({ w with ledger := w.ledger.settleAttemptCost (u.settle k) }.goto k .over)
    | _ => none
  | .crash k => some (w.goto k .over)

/-- The counted costs of the policy's provider are within the caps, in every day and month. -/
structure WithinCaps (L : Ledger) : Prop where
  day : ∀ cap ∈ policy.maxCostPerDayUsd, ∀ t,
    L.getDailyUsageUsd cal (some policy.provider) t ≤ cap
  month : ∀ cap ∈ policy.maxCostPerMonthUsd, ∀ t,
    L.getMonthlyUsageUsd cal (some policy.provider) t ≤ cap

/-- The attempt reserves though the usage of the day or of the month has grown beyond what
it has read. -/
def outgrown (w : World) : Act → Bool
  | .reserve k _ now =>
    match w.attempts k with
    | .reserving _ daily monthly =>
      daily.any (fun d => d < w.daily cal policy now) ||
        monthly.any fun m => m < w.monthly cal policy now
    | _ => false
  | _ => false

/-! ## Usage after a write -/

theorem usage_append (selects : LLMBudgetEvent → Bool) (amount : LLMBudgetEvent → Int)
    (rows : List LLMBudgetEvent) (e : LLMBudgetEvent) :
    usage selects amount (rows ++ [e]) = usage selects amount rows + share selects amount e := by
  rw [usage_eq_sum, usage_eq_sum, List.map_append, List.sum_append]
  simp

/-- Rows that do not count for more afterwards do not add to a usage. -/
theorem usage_map_le {selects : LLMBudgetEvent → Bool} {amount : LLMBudgetEvent → Int}
    {rows : List LLMBudgetEvent} {f : LLMBudgetEvent → LLMBudgetEvent}
    (h : ∀ e ∈ rows, share selects amount (f e) ≤ share selects amount e) :
    usage selects amount (rows.map f) ≤ usage selects amount rows := by
  rw [usage_eq_sum, usage_eq_sum, List.map_map]
  exact List.sum_le_sum h

/-- All times of a period select the same rows. -/
theorem inPeriod_of_same {p : Periods} {provider : Option String} {t u : Int} (h : p.Same t u) :
    inPeriod p provider t = inPeriod p provider u := by
  obtain ⟨hstart, hstop⟩ := p.same h.1 h.2
  funext e
  have hsame : p.Same t e.createdAt ↔ p.Same u e.createdAt := by
    unfold Periods.Same
    rw [hstart, hstop]
  exact decide_eq_decide.mpr (and_congr_right fun _ => hsame)

/-- A reservation that fits into its own period breaks the cap of no period. -/
theorem usage_reserve_le {p : Periods} {provider : String} {cap now : Int} {r : Reserve}
    {rows : List LLMBudgetEvent} (id : Uuid)
    (hold : ∀ t, usage (inPeriod p (some provider) t) LLMBudgetEvent.costUsd rows ≤ cap)
    (hnew : usage (inPeriod p (some provider) now) LLMBudgetEvent.costUsd rows +
      r.estimatedCostUsd ≤ cap) (t : Int) :
    usage (inPeriod p (some provider) t) LLMBudgetEvent.costUsd (rows ++ [r.row id now]) ≤ cap := by
  rw [usage_append]
  unfold share
  by_cases hsel : inPeriod p (some provider) t (r.row id now) = true
  · have hsame : p.Same t now := by
      have hboth := of_decide_eq_true hsel
      exact hboth.2
    have hcost : (r.row id now).costUsd = r.estimatedCostUsd := rfl
    rw [inPeriod_of_same hsame]
    split
    · rw [hcost]
      exact hnew
    · rw [add_zero]
      exact hold now
  · rw [if_neg fun h => hsel h.2, add_zero]
    exact hold t

/-! ## The invariant -/

/-- The estimate and what was read of the day. -/
def Phase.sawDay : Phase → Option (Estimate × Option Int)
  | .checkingMonth e daily => some (e, daily)
  | .reserving e daily _ => some (e, daily)
  | _ => none

/-- The estimate and what was read of the month. -/
def Phase.sawMonth : Phase → Option (Estimate × Option Int)
  | .reserving e _ monthly => some (e, monthly)
  | _ => none

/-- The attempt has not reserved yet. -/
def Phase.unreserved : Phase → Bool
  | .idle => true
  | .checkingDay _ => true
  | .checkingMonth _ _ => true
  | .reserving _ _ _ => true
  | _ => false

/-- The estimate the attempt has reserved and may still settle or release. -/
def Phase.charged : Phase → Option Estimate
  | .reserved e => some e
  | .releasing e => some e
  | .calling e => some e
  | .settling e _ _ => some e
  | _ => none

/-- A positive cap was read, and the estimate fits on top of what was read. -/
def Fits (cap : Option Int) (saw : Estimate × Option Int) : Prop :=
  ∀ c ∈ positive cap, ∃ used, saw.2 = some used ∧ used + saw.1.costUsd ≤ c

/-- What a step keeps. -/
structure Safe (w : World) : Prop where
  within : WithinCaps cal policy w.ledger
  day : ∀ k x, (w.attempts k).sawDay = some x → Fits policy.maxCostPerDayUsd x
  month : ∀ k x, (w.attempts k).sawMonth = some x → Fits policy.maxCostPerMonthUsd x
  fresh : ∀ k, (w.attempts k).unreserved = true →
    k ∉ keys LLMBudgetEvent.reservationKey w.ledger.rows
  charged : ∀ k e, (w.attempts k).charged = some e → ∀ r ∈ attemptRows k w.ledger.rows,
    r.estimatedCostUsd = e.costUsd ∧ r.actualCostUsd = none

section Steps

variable {cal policy} {w w' : World} {k : String} {p : Phase}

theorem safe_initial {L : Ledger} (h : WithinCaps cal policy L)
    (hkeys : keys LLMBudgetEvent.reservationKey L.rows = []) : Safe cal policy (World.initial L) where
  within := h
  day k x hx := by cases hx
  month k x hx := by cases hx
  fresh k _ := by
    show k ∉ keys _ L.rows
    rw [hkeys]
    exact List.not_mem_nil
  charged k e he := by cases he

/-- The attempts after a step of one of them. -/
theorem goto_cases (w : World) (k : String) (p : Phase) (j : String) :
    (j = k ∧ (w.goto k p).attempts j = p) ∨
      (j ≠ k ∧ (w.goto k p).attempts j = w.attempts j) := by
  by_cases hj : j = k
  · subst hj
    exact Or.inl ⟨rfl, Function.update_self _ _ _⟩
  · exact Or.inr ⟨hj, Function.update_of_ne hj _ _⟩

/-- A step of one attempt that leaves the rows of the others alone keeps the invariant. -/
theorem Safe.advance (h : Safe cal policy w) {L : Ledger} (hwithin : WithinCaps cal policy L)
    (hrows : ∀ j, j ≠ k → attemptRows j L.rows = attemptRows j w.ledger.rows)
    (hday : ∀ x, p.sawDay = some x → Fits policy.maxCostPerDayUsd x)
    (hmonth : ∀ x, p.sawMonth = some x → Fits policy.maxCostPerMonthUsd x)
    (hfresh : p.unreserved = true → k ∉ keys LLMBudgetEvent.reservationKey L.rows)
    (hcharged : ∀ e, p.charged = some e → ∀ r ∈ attemptRows k L.rows,
      r.estimatedCostUsd = e.costUsd ∧ r.actualCostUsd = none) :
    Safe cal policy ({ w with ledger := L }.goto k p) := by
  refine ⟨hwithin, ?_, ?_, ?_, ?_⟩
  · intro j x hx
    rcases goto_cases { w with ledger := L } k p j with ⟨rfl, heq⟩ | ⟨hj, heq⟩
    · rw [heq] at hx
      exact hday x hx
    · rw [heq] at hx
      exact h.day j x hx
  · intro j x hx
    rcases goto_cases { w with ledger := L } k p j with ⟨rfl, heq⟩ | ⟨hj, heq⟩
    · rw [heq] at hx
      exact hmonth x hx
    · rw [heq] at hx
      exact h.month j x hx
  · intro j hun
    rcases goto_cases { w with ledger := L } k p j with ⟨rfl, heq⟩ | ⟨hj, heq⟩
    · rw [heq] at hun
      exact hfresh hun
    · rw [heq] at hun
      have hold := h.fresh j hun
      rw [mem_keys_iff, not_not] at hold ⊢
      exact (hrows j hj).trans hold
  · intro j e he r hr
    rcases goto_cases { w with ledger := L } k p j with ⟨rfl, heq⟩ | ⟨hj, heq⟩
    · rw [heq] at he
      exact hcharged e he r hr
    · rw [heq] at he
      refine h.charged j e he r ?_
      rw [← hrows j hj]
      exact hr

/-- A step without a write. -/
theorem Safe.goto (h : Safe cal policy w)
    (hday : ∀ x, p.sawDay = some x → Fits policy.maxCostPerDayUsd x)
    (hmonth : ∀ x, p.sawMonth = some x → Fits policy.maxCostPerMonthUsd x)
    (hfresh : p.unreserved = true → (w.attempts k).unreserved = true)
    (hcharged : ∀ e, p.charged = some e → (w.attempts k).charged = some e) :
    Safe cal policy (w.goto k p) :=
  h.advance (L := w.ledger) h.within (fun _ _ => rfl) hday hmonth (fun hp => h.fresh k (hfresh hp))
    fun e he => h.charged k e (hcharged e he)

/-- The end of an attempt. -/
theorem Safe.over (h : Safe cal policy w) : Safe cal policy (w.goto k .over) :=
  h.goto (fun x hx => by cases hx) (fun x hx => by cases hx) (fun hp => by cases hp)
    (fun e he => by cases he)

/-- An update of the row of one key leaves the rows of the others alone. -/
theorem attemptRows_update {L : Ledger} {j : String} (hj : j ≠ k)
    {f : LLMBudgetEvent → LLMBudgetEvent} (hf : ∀ e, (f e).reservationKey = e.reservationKey) :
    attemptRows j (L.update k f hf).rows = attemptRows j L.rows := by
  show ofKey _ j (L.rows.map (updateReserved k f)) = _
  rw [ofKey_map (updateReserved_reservationKey hf)]
  have hid : ∀ e ∈ ofKey LLMBudgetEvent.reservationKey j L.rows,
      updateReserved k f e = id e := by
    intro e he
    have hkey : e.reservationKey = some j := of_decide_eq_true (List.mem_filter.mp he).2
    unfold updateReserved
    rw [if_neg]
    · rfl
    · intro hboth
      exact hj (Option.some.inj (hkey.symm.trans hboth.1))
  rw [List.map_congr_left hid, List.map_id]

/-- An update that makes no row count for more keeps the usages within the caps. -/
theorem WithinCaps.update {L : Ledger} (h : WithinCaps cal policy L)
    {f : LLMBudgetEvent → LLMBudgetEvent} (hf : ∀ e, (f e).reservationKey = e.reservationKey)
    (hle : ∀ e ∈ attemptRows k L.rows, e.eventType = .reservedUsage → ∀ selects,
      Stable selects → share selects LLMBudgetEvent.costUsd (f e) ≤
        share selects LLMBudgetEvent.costUsd e) :
    WithinCaps cal policy (L.update k f hf) := by
  have hshare : ∀ selects, Stable selects → ∀ e ∈ L.rows,
      share selects LLMBudgetEvent.costUsd (updateReserved k f e) ≤
        share selects LLMBudgetEvent.costUsd e := by
    intro selects hstable e he
    unfold updateReserved
    split
    · next hboth =>
      exact hle e (List.mem_filter.mpr ⟨he, decide_eq_true hboth.1⟩) hboth.2 selects hstable
    · exact le_refl _
  constructor
  · intro cap hcap t
    exact (usage_map_le (hshare _ (stable_inPeriod _ _ _))).trans (h.day cap hcap t)
  · intro cap hcap t
    exact (usage_map_le (hshare _ (stable_inPeriod _ _ _))).trans (h.month cap hcap t)

/-- A step of an attempt that has reserved. -/
theorem Safe.owner (h : Safe cal policy w) {e : Estimate} (he : (w.attempts k).charged = some e)
    (hp : p.charged = some e) (hday : p.sawDay = none) (hmonth : p.sawMonth = none)
    (hun : p.unreserved = false) : Safe cal policy (w.goto k p) := by
  refine h.goto (fun x hx => ?_) (fun x hx => ?_) (fun hp => ?_) (fun x hx => ?_)
  · rw [hday] at hx
    cases hx
  · rw [hmonth] at hx
    cases hx
  · rw [hun] at hp
    cases hp
  · rw [he, ← hp, hx]

/-- The end of an attempt, with an update of its row. -/
theorem Safe.ended (h : Safe cal policy w) {f : LLMBudgetEvent → LLMBudgetEvent}
    (hf : ∀ e, (f e).reservationKey = e.reservationKey)
    (hle : ∀ e ∈ attemptRows k w.ledger.rows, e.eventType = .reservedUsage → ∀ selects,
      Stable selects → share selects LLMBudgetEvent.costUsd (f e) ≤
        share selects LLMBudgetEvent.costUsd e) :
    Safe cal policy ({ w with ledger := w.ledger.update k f hf }.goto k .over) :=
  h.advance (h.within.update hf hle) (fun j hj => attemptRows_update hj hf)
    (fun x hx => by cases hx) (fun x hx => by cases hx) (fun hun => by cases hun)
    (fun e he => by cases he)

/-- A settlement at no more than the estimate does not make the row count for more. -/
theorem share_settled_le {e : LLMBudgetEvent} {s : Settle} {selects : LLMBudgetEvent → Bool}
    (hstable : Stable selects) (htype : e.eventType = .reservedUsage) (hnone : e.actualCostUsd = none)
    (hle : s.actualCostUsd ≤ e.estimatedCostUsd) :
    share selects LLMBudgetEvent.costUsd (e.settled s) ≤ share selects LLMBudgetEvent.costUsd e := by
  have hcounted : e.eventType ∈ countedEventTypes := by simp [htype, countedEventTypes]
  have hcounted' : (e.settled s).eventType ∈ countedEventTypes := by
    simp [LLMBudgetEvent.settled, countedEventTypes]
  have hcost : e.costUsd = e.estimatedCostUsd := by
    unfold LLMBudgetEvent.costUsd
    rw [hnone, Option.getD_none]
  have hcost' : (e.settled s).costUsd = s.actualCostUsd := rfl
  unfold share
  rw [hstable.1]
  by_cases hsel : selects e = true
  · rw [if_pos ⟨hcounted', hsel⟩, if_pos ⟨hcounted, hsel⟩, hcost, hcost']
    exact hle
  · rw [if_neg fun h => hsel h.2, if_neg fun h => hsel h.2]

/-- A release takes the row out. -/
theorem share_released_le {e : LLMBudgetEvent} {r : Release} {selects : LLMBudgetEvent → Bool}
    (hcost : 0 ≤ e.costUsd) :
    share selects LLMBudgetEvent.costUsd (e.released r) ≤ share selects LLMBudgetEvent.costUsd e := by
  have hzero : share selects LLMBudgetEvent.costUsd (e.released r) = 0 := by
    simp [share, LLMBudgetEvent.released, countedEventTypes]
  rw [hzero]
  unfold share
  split
  · exact hcost
  · exact le_refl 0

/-- A reservation that fits into its day and its month keeps the usages within the caps. -/
theorem WithinCaps.reserve {L : Ledger} (h : WithinCaps cal policy L) {id : Uuid} {now : Int}
    {r : Reserve}
    (hday : ∀ cap ∈ policy.maxCostPerDayUsd,
      L.getDailyUsageUsd cal (some policy.provider) now + r.estimatedCostUsd ≤ cap)
    (hmonth : ∀ cap ∈ policy.maxCostPerMonthUsd,
      L.getMonthlyUsageUsd cal (some policy.provider) now + r.estimatedCostUsd ≤ cap) :
    WithinCaps cal policy (L.reserveAttemptCost id now r) := by
  unfold Ledger.reserveAttemptCost
  split
  · constructor
    · intro cap hcap t
      exact usage_reserve_le id (h.day cap hcap) (hday cap hcap) t
    · intro cap hcap t
      exact usage_reserve_le id (h.month cap hcap) (hmonth cap hcap) t
  · exact h

/-- A reading that the ledger has not outgrown leaves room for the estimate. -/
theorem Fits.room {cap : Option Int} {e : Estimate} {saw : Option Int} {now c : Int}
    (h : Fits cap (e, saw)) (hcap : c ∈ cap) (hpos : 0 < c)
    (hok : ¬ saw.any (fun u => u < now) = true) : now + e.costUsd ≤ c := by
  have hmem : c ∈ positive cap := by
    unfold positive
    rw [Option.mem_def] at hcap ⊢
    rw [hcap]
    simp [hpos]
  obtain ⟨used, hsaw, hle⟩ := h c hmem
  have hsaw : saw = some used := hsaw
  have hle : used + (e.costUsd : Int) ≤ c := hle
  rw [hsaw, Option.any_some, decide_eq_true_eq] at hok
  omega

/-- **The step lemma.** -/
theorem Safe.step (hday : ∀ cap ∈ policy.maxCostPerDayUsd, 0 < cap)
    (hmonth : ∀ cap ∈ policy.maxCostPerMonthUsd, 0 < cap) (h : Safe cal policy w) {a : Act}
    (hok : ¬ outgrown cal policy w a = true) (hs : step cal policy w a = some w') :
    Safe cal policy w' := by
  cases a with
  | start k e =>
    rw [Budget.step] at hs
    split at hs
    · next hidle =>
      obtain rfl := Option.some.inj hs
      split
      · refine h.goto (fun x hx => by cases hx) (fun x hx => by cases hx) (fun _ => ?_)
          (fun e he => by cases he)
        rw [hidle]
        rfl
      · exact h.over
    · cases hs
  | readDay k t =>
    rw [Budget.step] at hs
    split at hs
    · next e hphase =>
      -- the next phase has read the day and still owns nothing
      have hnext : ∀ saw, Fits policy.maxCostPerDayUsd (e, saw) →
          Safe cal policy (w.goto k (.checkingMonth e saw)) := by
        intro saw hfits
        refine h.goto (fun x hx => ?_) (fun x hx => by cases hx) (fun _ => ?_)
          (fun e he => by cases he)
        · obtain rfl := Option.some.inj hx
          exact hfits
        · rw [hphase]
          rfl
      split at hs
      · next hnone =>
        obtain rfl := Option.some.inj hs
        refine hnext none fun c hc => ?_
        rw [hnone] at hc
        cases hc
      · next cap hcap =>
        obtain rfl := Option.some.inj hs
        split
        · exact h.over
        · next hle =>
          refine hnext _ fun c hc => ⟨_, rfl, ?_⟩
          obtain rfl : cap = c := Option.some.inj (hcap.symm.trans hc)
          exact not_lt.mp hle
    · cases hs
  | readMonth k t =>
    rw [Budget.step] at hs
    split at hs
    · next e daily hphase =>
      have hdaily : Fits policy.maxCostPerDayUsd (e, daily) := by
        refine h.day k _ ?_
        rw [hphase]
        rfl
      have hnext : ∀ saw, Fits policy.maxCostPerMonthUsd (e, saw) →
          Safe cal policy (w.goto k (.reserving e daily saw)) := by
        intro saw hfits
        refine h.goto (fun x hx => ?_) (fun x hx => ?_) (fun _ => ?_) (fun e he => by cases he)
        · obtain rfl := Option.some.inj hx
          exact hdaily
        · obtain rfl := Option.some.inj hx
          exact hfits
        · rw [hphase]
          rfl
      split at hs
      · obtain rfl := Option.some.inj hs
        exact h.over
      · split at hs
        · next hnone =>
          obtain rfl := Option.some.inj hs
          refine hnext none fun c hc => ?_
          rw [hnone] at hc
          cases hc
        · next cap hcap =>
          obtain rfl := Option.some.inj hs
          split
          · exact h.over
          · next hle =>
            refine hnext _ fun c hc => ⟨_, rfl, ?_⟩
            obtain rfl : cap = c := Option.some.inj (hcap.symm.trans hc)
            exact not_lt.mp hle
    · cases hs
  | reserve k id now =>
    rw [Budget.step] at hs
    split at hs
    · next e daily monthly hphase =>
      split at hs
      · next hfits =>
        obtain rfl := Option.some.inj hs
        have hfresh : k ∉ keys LLMBudgetEvent.reservationKey w.ledger.rows := by
          refine h.fresh k ?_
          rw [hphase]
          rfl
        have hinsert : (w.ledger.reserveAttemptCost id now (e.reserve policy k)).rows =
            w.ledger.rows ++ [(e.reserve policy k).row id now] := by
          unfold Ledger.reserveAttemptCost
          rw [dif_pos ⟨hfits, hfresh⟩]
        unfold outgrown at hok
        simp only [hphase, Bool.or_eq_true, not_or] at hok
        have hsawDay : Fits policy.maxCostPerDayUsd (e, daily) := by
          refine h.day k _ ?_
          rw [hphase]
          rfl
        have hsawMonth : Fits policy.maxCostPerMonthUsd (e, monthly) := by
          refine h.month k _ ?_
          rw [hphase]
          rfl
        refine h.advance ?_ ?_ (fun x hx => by cases hx) (fun x hx => by cases hx)
          (fun hun => by cases hun) ?_
        · refine h.within.reserve ?_ ?_
          · exact fun cap hcap => hsawDay.room hcap (hday cap hcap) hok.1
          · exact fun cap hcap => hsawMonth.room hcap (hmonth cap hcap) hok.2
        · intro j hj
          have hnil : ofKey LLMBudgetEvent.reservationKey j [(e.reserve policy k).row id now] =
              [] := by
            simp [ofKey, Reserve.row, Estimate.reserve, Ne.symm hj]
          unfold attemptRows
          rw [hinsert, ofKey_append, hnil, List.append_nil]
        · intro e' he r hr
          obtain rfl := Option.some.inj he
          have hnil : ofKey LLMBudgetEvent.reservationKey k w.ledger.rows = [] := by
            rw [mem_keys_iff, not_not] at hfresh
            exact hfresh
          unfold attemptRows at hr
          rw [hinsert, ofKey_append, hnil, List.nil_append] at hr
          obtain rfl := List.mem_singleton.mp (List.mem_filter.mp hr).1
          exact ⟨rfl, rfl⟩
      · obtain rfl := Option.some.inj hs
        exact h.over
    · cases hs
  | credential k found =>
    rw [Budget.step] at hs
    split at hs
    · next e hphase =>
      obtain rfl := Option.some.inj hs
      have hcharged : (w.attempts k).charged = some e := by
        rw [hphase]
        rfl
      cases found with
      | true => exact h.owner hcharged rfl rfl rfl rfl
      | false => exact h.owner hcharged rfl rfl rfl rfl
    · cases hs
  | release k =>
    rw [Budget.step] at hs
    split at hs
    · next e hphase =>
      obtain rfl := Option.some.inj hs
      have hcharged := h.charged k e (by rw [hphase]; rfl)
      refine h.ended (f := (·.released (credentialRelease k))) (fun _ => rfl) ?_
      intro r hr _ selects _
      obtain ⟨hestimate, hnone⟩ := hcharged r hr
      refine share_released_le ?_
      unfold LLMBudgetEvent.costUsd
      rw [hnone, Option.getD_none, hestimate]
      exact Int.natCast_nonneg _
    · cases hs
  | answer k u =>
    rw [Budget.step] at hs
    split at hs
    · next e hphase =>
      have hcharged : (w.attempts k).charged = some e := by
        rw [hphase]
        rfl
      cases u with
      | none =>
        obtain rfl := Option.some.inj hs
        exact h.over
      | some u =>
        simp only at hs
        split at hs
        · obtain rfl := Option.some.inj hs
          exact h.owner hcharged rfl rfl rfl rfl
        · cases hs
    · cases hs
  | settle k =>
    rw [Budget.step] at hs
    split at hs
    · next e u hbounded hphase =>
      obtain rfl := Option.some.inj hs
      have hcharged := h.charged k e (by rw [hphase]; rfl)
      unfold Ledger.settleAttemptCost
      split
      · refine h.ended (f := (·.settled (u.settle k))) (fun _ => rfl) ?_
        intro r hr htype selects hstable
        obtain ⟨hestimate, hnone⟩ := hcharged r hr
        refine share_settled_le hstable htype hnone ?_
        rw [hestimate]
        exact hbounded
      · exact h.over
    · cases hs
  | crash k =>
    obtain rfl := Option.some.inj hs
    exact h.over

end Steps

/-- **The caps hold along every run** in which no attempt reserves on a reading that the ledger
has outgrown, if the policy's caps are positive and the ledger starts within them. -/
theorem caps_hold {cal : Calendar} {policy : LLMBudgetPolicy} {history : List LLMBudgetEvent}
    {w : World} (hday : ∀ cap ∈ policy.maxCostPerDayUsd, 0 < cap)
    (hmonth : ∀ cap ∈ policy.maxCostPerMonthUsd, 0 < cap)
    (hstart : WithinCaps cal policy (Ledger.ofHistory history))
    (h : Reaches (guard (fun w a => ¬ outgrown cal policy w a = true) (step cal policy))
      (World.initial (Ledger.ofHistory history)) w) : WithinCaps cal policy w.ledger := by
  have hkeys : keys LLMBudgetEvent.reservationKey (Ledger.ofHistory history).rows = [] := by
    simp [keys, Ledger.ofHistory, List.filterMap_map]
  have hsafe : Safe cal policy w := by
    refine h.invariant (P := Safe cal policy) ?_ (safe_initial hstart hkeys)
    intro s a t hs hst
    obtain ⟨hok, hst⟩ := guard_eq_some.mp hst
    exact hs.step hday hmonth hok hst
  exact hsafe.within

/-! ## Two attempts -/

/-- Periods of one length. -/
def Periods.every (n : Int) (hn : 0 < n) : Periods where
  start t := t / n * n
  stop t := t / n * n + n
  mem t := by
    have hdiv := Int.mul_ediv_add_emod t n
    have hnonneg := Int.emod_nonneg t hn.ne'
    have hlt := Int.emod_lt_of_pos t hn
    rw [mul_comm] at hdiv
    omega
  same {t u} hle hlt := by
    have heq : u / n = t / n := (Int.ediv_eq_iff_of_pos hn).mpr ⟨hle, hlt⟩
    exact ⟨by rw [heq], by rw [heq]⟩

/-- January 1970, in seconds. -/
def january : Calendar := ⟨.every 86400 (by decide), .every (31 * 86400) (by decide)⟩

def pilotPolicy : LLMBudgetPolicy :=
  ⟨⟨1⟩, liveProviderName, none, none, some 300000, some 5000000⟩

def estimateOf (costUsd : Nat) : Estimate := ⟨"claude-sonnet-5", 1000, 1500, costUsd, []⟩

/-- An attempt up to its reservation. -/
def gateActs (k : String) (costUsd t : Nat) : List Act :=
  [.start k (estimateOf costUsd), .readDay k t, .readMonth k t]

theorem within_nothing : WithinCaps january pilotPolicy (Ledger.ofHistory []) where
  day cap hcap t := by
    obtain rfl := Option.some.inj hcap
    show (0 : Int) ≤ 300000
    decide
  month cap hcap t := by
    obtain rfl := Option.some.inj hcap
    show (0 : Int) ≤ 5000000
    decide

theorem caps_hold_sequential :
    ∃ w, runActs (guard (fun w a => ¬ outgrown january pilotPolicy w a = true)
        (step january pilotPolicy)) (World.initial (Ledger.ofHistory []))
          (gateActs "a:1" 200000 10 ++ [.reserve "a:1" ⟨2⟩ 11, .credential "a:1" true,
            .answer "a:1" (some ⟨1000, 900, 150000⟩), .settle "a:1"] ++
            gateActs "b:1" 100000 20 ++ [.reserve "b:1" ⟨3⟩ 21]) = some w ∧
      WithinCaps january pilotPolicy w.ledger ∧ w.daily january pilotPolicy 20 = 250000 := by
  have hrun : (runActs (guard (fun w a => ¬ outgrown january pilotPolicy w a = true)
      (step january pilotPolicy)) (World.initial (Ledger.ofHistory []))
        (gateActs "a:1" 200000 10 ++ [.reserve "a:1" ⟨2⟩ 11, .credential "a:1" true,
          .answer "a:1" (some ⟨1000, 900, 150000⟩), .settle "a:1"] ++
          gateActs "b:1" 100000 20 ++ [.reserve "b:1" ⟨3⟩ 21])).map
            (fun w => w.daily january pilotPolicy 20) = some 250000 := by decide +kernel
  obtain ⟨w, hw, hdaily⟩ := Option.map_eq_some_iff.mp hrun
  refine ⟨w, hw, caps_hold ?_ ?_ within_nothing (reaches_of_runActs hw), hdaily⟩
  · intro cap hcap
    obtain rfl := Option.some.inj hcap
    decide
  · intro cap hcap
    obtain rfl := Option.some.inj hcap
    decide

/-- Both attempts read the usage before either reserves. -/
theorem overlapping_attempts_break_the_cap :
    ∃ w, Reaches (step january pilotPolicy) (World.initial (Ledger.ofHistory [])) w ∧
      ¬ WithinCaps january pilotPolicy w.ledger := by
  have hrun : (runActs (step january pilotPolicy) (World.initial (Ledger.ofHistory []))
      (gateActs "a:1" 200000 10 ++ gateActs "b:1" 200000 10 ++
        [.reserve "a:1" ⟨2⟩ 11, .reserve "b:1" ⟨3⟩ 11])).map
          (fun w => w.daily january pilotPolicy 11) = some 400000 := by decide +kernel
  obtain ⟨w, hw, hdaily⟩ := Option.map_eq_some_iff.mp hrun
  refine ⟨w, reaches_of_runActs hw, fun hwithin => ?_⟩
  have hle : w.daily january pilotPolicy 11 ≤ 300000 := hwithin.day 300000 rfl 11
  omega

end AiAgentsSwd.Budget
