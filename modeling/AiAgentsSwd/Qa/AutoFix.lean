import AiAgentsSwd.Qa.Agent
import AiAgentsSwd.Transition.Basic

/-!
# Qa.AutoFix — the auto-fix agent, and the messages between the two agents

Model of `CodeAutoFixAgent` of `agents/development-agent/src/agent.py` and of the part of
`shared/sdk/base_agent/stream_agent.py` that consumes a stream: a message whose handling raises
is published again until its retries are exhausted, and then dead-lettered.

What a fix does to the workspace is not followed: the calls of `_fix_pr_draft_sections` and of
`_fix_missing_generated_file` end as the step says, and the next validation loads what the step
says.
-/

namespace AiAgentsSwd.Qa

/-- A `code.auto_fix_request`. -/
structure FixRequest where
  /-- `qa_run_id`, the place of the run -/
  qaRun : Nat
  findingIds : List Nat
  attemptNumber : Nat
deriving Repr, DecidableEq

/-- What `_apply_one` returns. -/
inductive FixResult where
  | applied
  | refused (reason : String)
deriving Repr, DecidableEq

/-- `_apply_one(finding=…)`; `result` is what the deterministic fix returns, where there is one. -/
def applyOne (f : Finding) (result : FixResult) : FixResult :=
  if f.category = .documentation ∧ f.missingSections.isSome = true then result
  else if f.category = .test then result
  else if f.category = .syntaxError ∧ (f.reason.any fun r => r != "") = true then result
  else .refused "unhandled_category"

/-- The findings of a request: at most 200 of its run are listed. -/
def requestedFindings (runs : List ValidationRun) (r : FixRequest) : List (Finding × Nat) :=
  let listed := (((runs[r.qaRun]?).map ValidationRun.findings).getD []).zipIdx.take 200
  if r.findingIds = [] then listed else listed.filter fun e => r.findingIds.contains e.2

/-- The results of a request, one for each finding. -/
def fixResults (runs : List ValidationRun) (r : FixRequest) (results : Nat → FixResult) :
    List FixResult :=
  (requestedFindings runs r).map fun e =>
    if e.1.autoFixable then applyOne e.1 (results e.2) else .refused "not_auto_fixable"

/-- `completed_ok` of `CodeAutoFixAgent.handle`: no refusal carries a severity. -/
def completedOk (results : List FixResult) : Bool := results.contains .applied

/-- The event that `CodeAutoFixAgent.handle` publishes to `stream.qa`. -/
def autoFixEvent (runs : List ValidationRun) (r : FixRequest) (results : Nat → FixResult) : Event :=
  if completedOk (fixResults runs r results) then .autoFixCompleted else .autoFixFailed

/-! ## The streams -/

/-- A message on `stream.qa`. -/
structure QaMessage where
  payload : Payload
  retryCount : Nat
  maxRetries : Nat
deriving Repr, DecidableEq

/-- A message as an agent publishes it. -/
def freshMessage (event : Event) : QaMessage where
  payload := { event := event, template := "" }
  retryCount := 0
  maxRetries := 3

/-- `with_incremented_retry(event)` -/
def QaMessage.retried (msg : QaMessage) : QaMessage := { msg with retryCount := msg.retryCount + 1 }

/-- `is_retry_exhausted(event)` -/
def QaMessage.exhausted (msg : QaMessage) : Bool := decide (msg.maxRetries ≤ msg.retryCount)

/-- The messages about one task, and its runs, the oldest first. `issued`, `completions`,
`blocks` and `deadLetters` are the history. -/
structure World where
  qaStream : List QaMessage
  autofixStream : List FixRequest
  runs : List ValidationRun
  issued : List FixRequest
  completions : Nat
  blocks : Nat
  deadLetters : List QaMessage
deriving Repr, DecidableEq

/-- One message of a call of `handle` goes out. -/
def World.deliver (w : World) : Published → World
  | .completed => { w with completions := w.completions + 1 }
  | .autoFixRequest findingIds attemptNumber =>
    let r : FixRequest :=
      { qaRun := w.runs.length - 1, findingIds := findingIds, attemptNumber := attemptNumber }
    { w with autofixStream := w.autofixStream ++ [r], issued := w.issued ++ [r] }
  | .autoFixRequested => { w with qaStream := w.qaStream ++ [freshMessage .autoFixRequested] }
  | .blocked _ =>
    { w with
      qaStream := w.qaStream ++ [freshMessage .blockedForHumanReview]
      blocks := w.blocks + 1 }

/-- `_handle_failure(payload, exc)` -/
def World.fail (w : World) (msg : QaMessage) : World :=
  if msg.retried.exhausted then { w with deadLetters := w.deadLetters ++ [msg.retried] }
  else { w with qaStream := w.qaStream ++ [msg.retried] }

/-- What a call leaves is done to the world. -/
def World.after (w : World) (msg : QaMessage) (e : Effects) : World :=
  let w := e.published.foldl World.deliver { w with runs := w.runs ++ e.run.toList }
  if e.raised then w.fail msg else w

inductive Act where
  /-- The quality gate takes its next message, and loads this. -/
  | validate (m : Machine) (loads : Loads)
  /-- The auto-fix agent takes its next request, and the fixes end like this. -/
  | fix (results : Nat → FixResult)

variable (maxAttempts : Nat)

/-- `QAAgent.process` of the next message. -/
def World.validate (w : World) (m : Machine) (loads : Loads) : Option World :=
  match w.qaStream with
  | [] => none
  | msg :: rest =>
    some <| World.after { w with qaStream := rest } msg <|
      handle maxAttempts m .none msg.payload loads w.runs.getLast?

/-- `CodeAutoFixAgent.process` of the next request. -/
def World.fix (w : World) (results : Nat → FixResult) : Option World :=
  match w.autofixStream with
  | [] => none
  | r :: rest =>
    some { w with
      autofixStream := rest
      qaStream := w.qaStream ++ [freshMessage (autoFixEvent w.runs r results)] }

def step (w : World) : Act → Option World
  | .validate m loads => w.validate maxAttempts m loads
  | .fix results => w.fix results

/-- The last `development.completed` of a task is delivered, after whatever was before. -/
def start (msg : QaMessage) (runs : List ValidationRun) : World where
  qaStream := [msg]
  autofixStream := []
  runs := runs
  issued := []
  completions := 0
  blocks := 0
  deadLetters := []

/-- No message is left. -/
def World.Idle (w : World) : Prop := w.qaStream = [] ∧ w.autofixStream = []

/-- The outcomes so far. -/
def World.outcomes (w : World) : Nat := w.completions + w.blocks

end AiAgentsSwd.Qa
