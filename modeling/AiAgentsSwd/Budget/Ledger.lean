import AiAgentsSwd.Json.Loads
import AiAgentsSwd.Keyed.Sums
import AiAgentsSwd.Planning.Models

/-!
# Budget.Ledger — the usage ledger and its three writes

Model of `shared/sdk/llm_budget/store.py` over `llm_budget_events` (`013`, `045`). Every
write is one statement that commits by itself. Amounts are in millionths of a dollar: the
columns are `NUMERIC(12, 6)`, and the estimator rounds every cost to six places.

- `Ledger`: the rows, with the unique index on `reservation_key`;
- `reserveAttemptCost`, `settleAttemptCost`, `releaseAttemptReservation`;
- the usage of a day, of a month and of a task.
-/

namespace AiAgentsSwd.Budget

open Json (Value)
open Keyed
open Planning (Uuid)

/-! ## Rows -/

/-- `event_type`. -/
inductive EventType where
  | preflight
  | recordedUsage
  | budgetExceeded
  | budgetWarning
  | reservedUsage
  | releasedReservation
deriving DecidableEq

/-- `COUNTED_EVENT_TYPES`. -/
def countedEventTypes : List EventType := [.recordedUsage, .reservedUsage]

/-- `decision`. -/
inductive Decision where
  | allowed
  | blocked
  | warning
  | recorded
deriving DecidableEq

/-- `LLMBudgetEvent`. -/
structure LLMBudgetEvent where
  budgetEventId : Uuid
  taskId : Option String
  workflowId : Option String
  policyId : Option Uuid
  provider : String
  modelName : String
  eventType : EventType
  estimatedPromptTokens : Int
  estimatedCompletionTokens : Int
  estimatedTotalTokens : Int
  actualPromptTokens : Option Int
  actualCompletionTokens : Option Int
  actualTotalTokens : Option Int
  estimatedCostUsd : Int
  actualCostUsd : Option Int
  decision : Decision
  reason : Option String
  createdAt : Int
  metadata : List (String × Value)
  reservationKey : Option String

/-- `llm_budget_events`, with `uq_llm_budget_events_reservation_key`. -/
structure Ledger where
  rows : List LLMBudgetEvent
  unique : (keys LLMBudgetEvent.reservationKey rows).Nodup

/-- The rows of one attempt. -/
abbrev attemptRows (k : String) (rows : List LLMBudgetEvent) : List LLMBudgetEvent :=
  ofKey LLMBudgetEvent.reservationKey k rows

/-- The ledger as `045` finds it: none of its rows has a key. -/
def Ledger.ofHistory (rows : List LLMBudgetEvent) : Ledger where
  rows := rows.map fun e => { e with reservationKey := none }
  unique := by simp [keys, List.filterMap_map]

/-! ## The writes -/

/-- What `reserve_attempt_cost` is called with. -/
structure Reserve where
  reservationKey : String
  provider : String
  modelName : String
  policyId : Option Uuid
  estimatedPromptTokens : Int
  estimatedCompletionTokens : Int
  estimatedCostUsd : Int
  taskId : Option String
  workflowId : Option String
  metadata : List (String × Value)

/-- What `settle_attempt_cost` is called with. -/
structure Settle where
  reservationKey : String
  actualPromptTokens : Int
  actualCompletionTokens : Int
  actualCostUsd : Int
  metadata : List (String × Value)

/-- What `release_attempt_reservation` is called with. -/
structure Release where
  reservationKey : String
  reason : Option String

/-- The value fits an `INTEGER` column. -/
def FitsInteger (n : Int) : Prop := -2 ^ 31 ≤ n ∧ n < 2 ^ 31

/-- The value fits a `NUMERIC(12, 6)` column. -/
def FitsNumeric (n : Int) : Prop := -10 ^ 12 < n ∧ n < 10 ^ 12

instance (n : Int) : Decidable (FitsInteger n) := inferInstanceAs (Decidable (_ ∧ _))

instance (n : Int) : Decidable (FitsNumeric n) := inferInstanceAs (Decidable (_ ∧ _))

/-- The statement's values fit their columns; it raises when they do not. -/
def Reserve.Fits (r : Reserve) : Prop :=
  FitsInteger r.estimatedPromptTokens ∧ FitsInteger r.estimatedCompletionTokens ∧
    FitsInteger (r.estimatedPromptTokens + r.estimatedCompletionTokens) ∧
    FitsNumeric r.estimatedCostUsd

/-- The statement's values fit their columns; it raises when they do not. -/
def Settle.Fits (s : Settle) : Prop :=
  FitsInteger s.actualPromptTokens ∧ FitsInteger s.actualCompletionTokens ∧
    FitsInteger (s.actualPromptTokens + s.actualCompletionTokens) ∧ FitsNumeric s.actualCostUsd

instance (r : Reserve) : Decidable r.Fits := inferInstanceAs (Decidable (_ ∧ _ ∧ _ ∧ _))

instance (s : Settle) : Decidable s.Fits := inferInstanceAs (Decidable (_ ∧ _ ∧ _ ∧ _))

/-- The row `reserve_attempt_cost` inserts. -/
def Reserve.row (r : Reserve) (id : Uuid) (now : Int) : LLMBudgetEvent :=
  { budgetEventId := id
    taskId := r.taskId
    workflowId := r.workflowId
    policyId := r.policyId
    provider := r.provider
    modelName := r.modelName
    eventType := .reservedUsage
    estimatedPromptTokens := r.estimatedPromptTokens
    estimatedCompletionTokens := r.estimatedCompletionTokens
    estimatedTotalTokens := r.estimatedPromptTokens + r.estimatedCompletionTokens
    actualPromptTokens := none
    actualCompletionTokens := none
    actualTotalTokens := none
    estimatedCostUsd := r.estimatedCostUsd
    actualCostUsd := none
    decision := .allowed
    reason := none
    createdAt := now
    metadata := r.metadata
    reservationKey := some r.reservationKey }

/-- The row after the `UPDATE` of `settle_attempt_cost`. -/
def LLMBudgetEvent.settled (e : LLMBudgetEvent) (s : Settle) : LLMBudgetEvent :=
  { e with
    eventType := .recordedUsage
    decision := .recorded
    actualPromptTokens := some s.actualPromptTokens
    actualCompletionTokens := some s.actualCompletionTokens
    actualTotalTokens := some (s.actualPromptTokens + s.actualCompletionTokens)
    actualCostUsd := some s.actualCostUsd
    metadata := s.metadata.foldl (fun d m => Json.dictSet d m.1 m.2) e.metadata }

/-- The row after the `UPDATE` of `release_attempt_reservation`. -/
def LLMBudgetEvent.released (e : LLMBudgetEvent) (r : Release) : LLMBudgetEvent :=
  { e with eventType := .releasedReservation, reason := r.reason }

/-- `UPDATE … WHERE reservation_key = k AND event_type = 'reserved_usage'`, on one row. -/
def updateReserved (k : String) (f : LLMBudgetEvent → LLMBudgetEvent) (e : LLMBudgetEvent) :
    LLMBudgetEvent :=
  if e.reservationKey = some k ∧ e.eventType = .reservedUsage then f e else e

/-- The `INSERT … ON CONFLICT DO NOTHING` of `reserve_attempt_cost`. -/
def Ledger.reserveAttemptCost (L : Ledger) (id : Uuid) (now : Int) (r : Reserve) : Ledger :=
  if h : r.Fits ∧ r.reservationKey ∉ keys LLMBudgetEvent.reservationKey L.rows then
    { rows := L.rows ++ [r.row id now]
      unique := by
        have hkeys : keys LLMBudgetEvent.reservationKey (L.rows ++ [r.row id now]) =
            keys LLMBudgetEvent.reservationKey L.rows ++ [r.reservationKey] :=
          List.filterMap_append
        rw [hkeys, List.nodup_append]
        exact ⟨L.unique, List.nodup_singleton _, fun k hk j hj heq => h.2
          (List.mem_singleton.mp hj ▸ heq ▸ hk)⟩ }
  else L

theorem updateReserved_reservationKey {k : String} {f : LLMBudgetEvent → LLMBudgetEvent}
    (hf : ∀ e, (f e).reservationKey = e.reservationKey) (e : LLMBudgetEvent) :
    (updateReserved k f e).reservationKey = e.reservationKey := by
  unfold updateReserved
  split
  · exact hf e
  · rfl

/-- An `UPDATE` of the reserved row of one key. -/
def Ledger.update (L : Ledger) (k : String) (f : LLMBudgetEvent → LLMBudgetEvent)
    (hf : ∀ e, (f e).reservationKey = e.reservationKey) : Ledger where
  rows := L.rows.map (updateReserved k f)
  unique := by
    rw [keys_map (updateReserved_reservationKey hf)]
    exact L.unique

/-- The `UPDATE` of `settle_attempt_cost`. -/
def Ledger.settleAttemptCost (L : Ledger) (s : Settle) : Ledger :=
  if s.Fits then L.update s.reservationKey (·.settled s) fun _ => rfl else L

/-- The `UPDATE` of `release_attempt_reservation`. -/
def Ledger.releaseAttemptReservation (L : Ledger) (r : Release) : Ledger :=
  L.update r.reservationKey (·.released r) fun _ => rfl

/-- `get_reservation(reservation_key)`, and what the first two calls return. -/
def Ledger.getReservation (L : Ledger) (k : String) : Option LLMBudgetEvent :=
  (attemptRows k L.rows).head?

/-! ## Usage -/

/-- A division of time into periods, as by `date_trunc`. -/
structure Periods where
  start : Int → Int
  stop : Int → Int
  mem (t : Int) : start t ≤ t ∧ t < stop t
  same {t u : Int} : start t ≤ u → u < stop t → start u = start t ∧ stop u = stop t

/-- `u` is in the period of `t`. -/
def Periods.Same (p : Periods) (t u : Int) : Prop := p.start t ≤ u ∧ u < p.stop t

instance (p : Periods) (t u : Int) : Decidable (p.Same t u) := inferInstanceAs (Decidable (_ ∧ _))

/-- The days and the months, in the time zone of the database session. -/
structure Calendar where
  day : Periods
  month : Periods

/-- `COALESCE(actual_cost_usd, estimated_cost_usd, 0)`. -/
def LLMBudgetEvent.costUsd (e : LLMBudgetEvent) : Int := e.actualCostUsd.getD e.estimatedCostUsd

/-- `COALESCE(actual_total_tokens, estimated_total_tokens, 0)`. -/
def LLMBudgetEvent.totalTokens (e : LLMBudgetEvent) : Int :=
  e.actualTotalTokens.getD e.estimatedTotalTokens

/-- The sum of the counted rows that are selected. -/
def usage (selects : LLMBudgetEvent → Bool) (amount : LLMBudgetEvent → Int)
    (rows : List LLMBudgetEvent) : Int :=
  ((rows.filter fun e => e.eventType ∈ countedEventTypes ∧ selects e).map amount).sum

/-- `($2::text IS NULL OR provider = $2)` and a period. -/
def inPeriod (p : Periods) (provider : Option String) (t : Int) (e : LLMBudgetEvent) : Bool :=
  (∀ q ∈ provider, e.provider = q) ∧ p.Same t e.createdAt

/-- `task_id = $2`. -/
def ofTask (taskId : String) (e : LLMBudgetEvent) : Bool := e.taskId = some taskId

/-- `get_daily_usage_usd(provider, day)`. -/
def Ledger.getDailyUsageUsd (L : Ledger) (cal : Calendar) (provider : Option String) (day : Int) :
    Int := usage (inPeriod cal.day provider day) LLMBudgetEvent.costUsd L.rows

/-- `get_monthly_usage_usd(provider, month)`. -/
def Ledger.getMonthlyUsageUsd (L : Ledger) (cal : Calendar) (provider : Option String)
    (month : Int) : Int := usage (inPeriod cal.month provider month) LLMBudgetEvent.costUsd L.rows

/-- `get_task_usage(task_id)`. -/
structure TaskUsage where
  tokens : Int
  costUsd : Int

def Ledger.getTaskUsage (L : Ledger) (taskId : String) : TaskUsage where
  tokens := usage (ofTask taskId) LLMBudgetEvent.totalTokens L.rows
  costUsd := usage (ofTask taskId) LLMBudgetEvent.costUsd L.rows

end AiAgentsSwd.Budget
