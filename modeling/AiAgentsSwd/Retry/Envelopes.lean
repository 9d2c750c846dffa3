import AiAgentsSwd.Python.Dicts

/-!
# Retry.Envelopes — an event, its dead letter and its second life

Model of the envelope helpers of `shared/sdk/event_bus/redis_streams.py`, of
`StreamAgent._handle_failure` in `shared/sdk/base_agent/stream_agent.py`, and of the decisions of
`RetryScheduler.handle` and `replay` in `apps/retry-scheduler/src/scheduler.py`.

The two counters of an event go through three envelopes: the event itself, the dead letter around
it and the event that is queued again. `handleFailure_counted` and `handle_letter` say what becomes
of them at either end.
-/

namespace AiAgentsSwd.Retry

open Audit (truthy)
open Json (Value field?)
open Python (Runtime field?_setItem get intOfValue orElse setItem)

abbrev Event := List (String × Value)

variable (rt : Runtime)

/-! ## The counters -/

/-- `int(…)` with a default for what is no number; an infinity raises an `OverflowError`, which
nobody expects. -/
def intOr (default : Int) : Option Value → Option Int
  | none => some default
  | some value =>
    match intOfValue rt.trunc value with
    | .ok i => some i
    | .error .typeError => some default
    | .error .valueError => some default
    | .error .overflowError => none

/-- `get_retry_count(event)` -/
def getRetryCount (event : Event) : Option Int := intOr rt 0 (field? event "retry_count")

/-- `DEFAULT_MAX_RETRIES` -/
def defaultMaxRetries : Int := 3

/-- `get_max_retries(event)` -/
def getMaxRetries (event : Event) : Option Int :=
  intOr rt defaultMaxRetries (field? event "max_retries")

/-- `with_incremented_retry(event)` -/
def withIncrementedRetry (event : Event) : Option Event := do
  let count ← getRetryCount rt event
  let most ← getMaxRetries rt event
  return setItem (setItem event "retry_count" (.int (count + 1))) "max_retries" (.int most)

/-- `is_retry_exhausted(event)` -/
def isRetryExhausted (event : Event) : Option Bool := do
  let count ← getRetryCount rt event
  let most ← getMaxRetries rt event
  return decide (most ≤ count)

/-- `build_dead_letter_event(original_stream, event, failure_reason, retry_after_seconds)` -/
def buildDeadLetterEvent (originalStream : String) (event : Event) (failureReason : String)
    (retryAfterSeconds : Json.FloatText) (now : String) : Option Event := do
  let count ← getRetryCount rt event
  let most ← getMaxRetries rt event
  return [
    ("event", .str "deadletter"),
    ("task_id", get event "task_id" (.str "unknown")),
    ("workflow_id", get event "workflow_id" (.str "")),
    ("original_stream", .str originalStream),
    ("failure_reason", .str failureReason),
    ("retry_count", .int count),
    ("max_retries", .int most),
    ("retry_after_seconds", .float retryAfterSeconds),
    ("failed_at", .str now),
    ("original_event", .obj event)]

/-! ## The agent -/

/-- `retry_after_seconds=1.0` -/
def retryAfterSeconds : Json.FloatText := ⟨"1.0", by decide, by decide⟩

/-- What `_handle_failure` publishes. -/
inductive Publication where
  | retry (event : Event)
  | deadLetter (letter : Event)

/-- `_handle_failure(payload, exc)` of an agent with this input stream: `none` where an exception
gets out of it, `some none` where one is swallowed. -/
def handleFailure (inputStream : String) (payload : Event) (reason now : String) :
    Option (Option Publication) := do
  let attempted ← withIncrementedRetry rt payload
  return do
    if ← isRetryExhausted rt attempted then
      return .deadLetter
        (← buildDeadLetterEvent rt inputStream attempted reason retryAfterSeconds now)
    else
      return .retry attempted

/-! ## The scheduler -/

/-- `_original_stream(payload)` -/
def originalStream (payload : Event) : String :=
  rt.text (orElse (field? payload "original_stream")
    (orElse (field? payload "source_stream") (.str "")))

/-- `_is_terminal(payload)` -/
def isTerminal (payload : Event) : Option Bool := do
  let count ← getRetryCount rt payload
  let most ← getMaxRetries rt payload
  return decide (most < count)

/-- `_build_requeue_event(payload, event_name)` -/
def buildRequeueEvent (payload : Event) (eventName now : String) : Option Event := do
  let event := match field? payload "original_event" with
    | some (.obj original) => original
    | _ => []
  let event := setItem event "event" (.str eventName)
  let event := setItem event "task_id"
    (orElse (field? event "task_id") (get payload "task_id" (.str "unknown")))
  let event := setItem event "workflow_id"
    (orElse (field? event "workflow_id") (get payload "workflow_id" (.str "")))
  let event := setItem event "retry_count" (.int (← getRetryCount rt payload))
  let event := setItem event "max_retries" (.int (← getMaxRetries rt payload))
  let event := setItem event "original_stream" (.str (originalStream rt payload))
  return setItem event "retry_requeued_at" (.str now)

/-- `_build_terminal_event(payload, message_id)` -/
def buildTerminalEvent (payload : Event) (messageId now : String) : Option Event := do
  let count ← getRetryCount rt payload
  let most ← getMaxRetries rt payload
  return [
    ("event", .str "retry.terminal_failure"),
    ("task_id", get payload "task_id" (.str "unknown")),
    ("workflow_id", get payload "workflow_id" (.str "")),
    ("original_stream", .str (originalStream rt payload)),
    ("original_message_id", .str messageId),
    ("terminal_failure", .bool true),
    ("retry_count", .int count),
    ("max_retries", .int most),
    ("failed_at", get payload "failed_at" .null),
    ("failure_reason", get payload "failure_reason" (.str "")),
    ("marked_terminal_at", .str now)]

/-- What `handle` publishes, and where. -/
inductive Handling where
  | terminalFailure (event : Event)
  | requeued (target : String) (event : Event)
  | noOriginalStream

/-- `handle(message_id, payload)`, `none` where it raises. -/
def handle (payload : Event) (messageId now : String) : Option Handling := do
  if ← isTerminal rt payload then
    return .terminalFailure (← buildTerminalEvent rt payload messageId now)
  else if originalStream rt payload = "" then
    return .noOriginalStream
  else
    return .requeued (originalStream rt payload)
      (← buildRequeueEvent rt payload "retry.requeued" now)

/-- `replay(message_id)` of a dead letter. -/
def replay (payload : Event) (now : String) : Option (String × Event) :=
  if originalStream rt payload = "" then none
  else
    (buildRequeueEvent rt payload "retry.manual_replay" now).map (originalStream rt payload, ·)

/-! ## The counters through the envelopes -/

variable {rt}

/-- The retry count and the maximum of an event. -/
def counters (rt : Runtime) (event : Event) : Option (Int × Int) := do
  let count ← getRetryCount rt event
  let most ← getMaxRetries rt event
  return (count, most)

variable {event : Event} {count most : Int} {stream reason now messageId : String}

theorem counters_eq_some : counters rt event = some (count, most) ↔
    getRetryCount rt event = some count ∧ getMaxRetries rt event = some most := by
  unfold counters
  cases getRetryCount rt event <;> cases getMaxRetries rt event <;> simp

/-- A dead letter from an agent with this input stream. -/
structure Letter (rt : Runtime) (stream : String) (count most : Int) (letter : Event) : Prop where
  counted : counters rt letter = some (count, most)
  target : originalStream rt letter = stream

theorem withIncrementedRetry_counted (h : counters rt event = some (count, most)) :
    ∃ attempted, withIncrementedRetry rt event = some attempted ∧
      counters rt attempted = some (count + 1, most) := by
  rcases counters_eq_some.mp h with ⟨hcount, hmost⟩
  refine ⟨_, by rw [withIncrementedRetry, hcount, hmost]; rfl, counters_eq_some.mpr ⟨?_, ?_⟩⟩
  · simp [getRetryCount, field?_setItem, intOr, intOfValue]
  · simp [getMaxRetries, field?_setItem, intOr, intOfValue]

theorem withIncrementedRetry_uncounted (h : counters rt event = none) :
    withIncrementedRetry rt event = none := by
  unfold counters at h
  unfold withIncrementedRetry
  cases hcount : getRetryCount rt event with
  | none => rfl
  | some count =>
    cases hmost : getMaxRetries rt event with
    | none => rfl
    | some most => simp [hcount, hmost] at h

theorem buildDeadLetterEvent_counted (hstream : stream ≠ "")
    (h : counters rt event = some (count, most)) (reason : String) (retryAfter : Json.FloatText)
    (now : String) :
    ∃ letter, buildDeadLetterEvent rt stream event reason retryAfter now = some letter ∧
      Letter rt stream count most letter := by
  rcases counters_eq_some.mp h with ⟨hcount, hmost⟩
  refine ⟨_, by rw [buildDeadLetterEvent, hcount, hmost]; rfl, ?_, ?_⟩
  · exact counters_eq_some.mpr ⟨rfl, rfl⟩
  · have htruthy : truthy (.str stream) = true := decide_eq_true hstream
    have hkept : (some (Value.str stream)).filter truthy = some (.str stream) := by
      rw [Option.filter_some, if_pos htruthy]
    simp [originalStream, field?, orElse, hkept, Runtime.text]

/-- A failure is retried with one more attempt counted, or becomes a dead letter. -/
theorem handleFailure_counted (hstream : stream ≠ "") (h : counters rt event = some (count, most)) :
    (count + 1 < most ∧ ∃ attempted,
      handleFailure rt stream event reason now = some (some (.retry attempted)) ∧
        counters rt attempted = some (count + 1, most)) ∨
    (most ≤ count + 1 ∧ ∃ letter,
      handleFailure rt stream event reason now = some (some (.deadLetter letter)) ∧
        Letter rt stream (count + 1) most letter) := by
  rcases withIncrementedRetry_counted h with ⟨attempted, hattempted, hcounted⟩
  rcases counters_eq_some.mp hcounted with ⟨hcount, hmost⟩
  have hexhausted : isRetryExhausted rt attempted = some (decide (most ≤ count + 1)) := by
    rw [isRetryExhausted, hcount, hmost]
    rfl
  by_cases hle : most ≤ count + 1
  · right
    rcases buildDeadLetterEvent_counted hstream hcounted reason retryAfterSeconds now with
      ⟨letter, hletter, hwf⟩
    refine ⟨hle, letter, ?_, hwf⟩
    simp [handleFailure, hattempted, hexhausted, hle, hletter]
  · left
    refine ⟨by omega, attempted, ?_, hcounted⟩
    simp [handleFailure, hattempted, hexhausted, hle]

theorem handleFailure_uncounted (h : counters rt event = none) :
    handleFailure rt stream event reason now = none := by
  rw [handleFailure, withIncrementedRetry_uncounted h]
  rfl

theorem buildRequeueEvent_counted (h : counters rt event = some (count, most))
    (eventName now : String) :
    ∃ again, buildRequeueEvent rt event eventName now = some again ∧
      counters rt again = some (count, most) := by
  rcases counters_eq_some.mp h with ⟨hcount, hmost⟩
  refine ⟨_, by rw [buildRequeueEvent, hcount, hmost]; rfl, counters_eq_some.mpr ⟨?_, ?_⟩⟩
  · simp [getRetryCount, field?_setItem, intOr, intOfValue]
  · simp [getMaxRetries, field?_setItem, intOr, intOfValue]

/-- A dead letter ends as a terminal failure, or is queued again with the counters it carries. -/
theorem handle_letter (hstream : stream ≠ "") (h : Letter rt stream count most event) :
    (most < count ∧ ∃ ending, handle rt event messageId now = some (.terminalFailure ending)) ∨
    (count ≤ most ∧ ∃ again, handle rt event messageId now = some (.requeued stream again) ∧
      counters rt again = some (count, most)) := by
  rcases counters_eq_some.mp h.counted with ⟨hcount, hmost⟩
  have hterminal : isTerminal rt event = some (decide (most < count)) := by
    rw [isTerminal, hcount, hmost]
    rfl
  by_cases hlt : most < count
  · left
    have hending : ∃ ending, buildTerminalEvent rt event messageId now = some ending := by
      rw [buildTerminalEvent, hcount, hmost]
      exact ⟨_, rfl⟩
    rcases hending with ⟨ending, hending⟩
    refine ⟨hlt, ending, ?_⟩
    simp [handle, hterminal, hlt, hending]
  · right
    rcases buildRequeueEvent_counted h.counted "retry.requeued" now with ⟨again, hagain, hcounted⟩
    refine ⟨by omega, again, ?_, hcounted⟩
    simp [handle, hterminal, hlt, h.target, hstream, hagain]

theorem replay_letter (hstream : stream ≠ "") (h : Letter rt stream count most event)
    (now : String) :
    ∃ again, replay rt event now = some (stream, again) ∧
      counters rt again = some (count, most) := by
  rcases buildRequeueEvent_counted h.counted "retry.manual_replay" now with
    ⟨again, hagain, hcounted⟩
  refine ⟨again, ?_, hcounted⟩
  rw [replay, h.target, if_neg hstream, hagain]
  rfl

end AiAgentsSwd.Retry
