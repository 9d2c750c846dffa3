import AiAgentsSwd.Qa.Rules
import Mathlib.Data.List.TakeWhile

/-!
# Qa.Agent — the quality gate handles one message

Model of `QAAgent.handle` of `agents/qa-agent/src/agent.py`. The four reads of the code store and
the task store are suppressed where they fail; every other call of a store, and every
publication, raises where it fails, and what was written or published before stays.
-/

namespace AiAgentsSwd.Qa

open ApprovalPolicy (Unicode)

/-- The event of a message on `stream.qa`. -/
inductive Event where
  /-- `development.completed` -/
  | developmentCompleted
  /-- `development.auto_fix_completed` -/
  | autoFixCompleted
  /-- `development.auto_fix_failed` -/
  | autoFixFailed
  /-- `qa.completed` -/
  | completed
  /-- `qa.auto_fix_requested` -/
  | autoFixRequested
  /-- `qa.blocked_for_human_review` -/
  | blockedForHumanReview
  | other (name : String)
deriving Repr, DecidableEq

/-- One of the events that the agent publishes itself. -/
def Event.isOwn : Event → Bool
  | .completed => true
  | .autoFixRequested => true
  | .blockedForHumanReview => true
  | _ => false

/-- What `handle` reads of a message: `template` is `code_generation.template`, or empty. -/
structure Payload where
  event : Event
  template : String
deriving Repr, DecidableEq

/-- The statuses of a workspace that count here. -/
inductive WorkspaceStatus where
  | blocked
  | validationFailed
  | canceled
  | other (name : String)
deriving Repr, DecidableEq

/-- QA has nothing to validate there. -/
def WorkspaceStatus.isClosed : WorkspaceStatus → Bool
  | .blocked => true
  | .validationFailed => true
  | .canceled => true
  | .other _ => false

/-- What the four suppressed reads leave. -/
structure Loads where
  workspace : Option WorkspaceStatus
  artifacts : List Artifact
  prDraft : Option PrDraft
  workItem : Option WorkItem
deriving Repr, DecidableEq

/-- Nothing was loaded, or the workspace is closed: `_legacy_passthrough`. -/
def Loads.passesThrough (loads : Loads) : Bool :=
  (loads.workspace.isNone && loads.artifacts.isEmpty) ||
    loads.workspace.any WorkspaceStatus.isClosed

/-- `_template_hint_from_payload(payload, artifacts)` -/
def templateHint (u : Unicode) (payload : Payload) (artifacts : List Artifact) : String :=
  if payload.template ≠ "" then payload.template
  else
    let hint (a : Artifact) : Option String :=
      let path := u.lower a.filePath.toList
      if endsWith path "_api.py".toList || contains "/_api".toList path ||
          (contains "/test_".toList path && contains "api".toList path) then some "demo_api"
      else if "docs/generated/".toList.isPrefixOf path then some "documentation"
      else if endsWith path "_utility.py".toList then some "simple_utility"
      else none
    (artifacts.findSome? hint).getD ""

inductive RunStatus where
  | started
  | passed
  | autoFixRequested
  | blockedForHumanReview
deriving Repr, DecidableEq

/-- A row of `qa_validation_runs`, with its rows of `qa_findings`. -/
structure ValidationRun where
  status : RunStatus
  autoFixAttempts : Nat
  maxAutoFixAttempts : Nat
  findings : List Finding
deriving Repr, DecidableEq

/-- `_max_auto_fix_attempts()`; `raw` is what `int` makes of the environment variable. -/
def maxAutoFixAttempts (raw : Option Int) : Nat :=
  match raw with
  | none => 2
  | some value => (max 1 (min value 10)).toNat

inductive BlockReason where
  | unfixableBlockingFindings
  | maxAttemptsExceeded
deriving Repr, DecidableEq

inductive Decision where
  | pass
  | autoFix
  | blocked (reason : BlockReason)
deriving Repr, DecidableEq

/-- `_decide(…)`, of the blocking findings. -/
def decideOn (findings : List Finding) (currentAttempts maxAttempts : Nat) : Decision :=
  let blocking := findings.filter isBlocking
  if blocking = [] then .pass
  else if blocking.any fun f => !f.autoFixable then .blocked .unfixableBlockingFindings
  else if maxAttempts ≤ currentAttempts then .blocked .maxAttemptsExceeded
  else .autoFix

def Decision.runStatus : Decision → RunStatus
  | .pass => .passed
  | .autoFix => .autoFixRequested
  | .blocked _ => .blockedForHumanReview

/-- What the agent publishes, and where. -/
inductive Published where
  /-- `qa.completed`, to the next stage -/
  | completed
  /-- `code.auto_fix_request`, to the auto-fix agent -/
  | autoFixRequest (findingIds : List Nat) (attemptNumber : Nat)
  /-- `qa.auto_fix_requested`, to `stream.qa` -/
  | autoFixRequested
  /-- `qa.blocked_for_human_review`, to `stream.qa` -/
  | blocked (reason : BlockReason)
deriving Repr, DecidableEq

/-- The ids of the blocking findings that can be fixed: a finding is named by its place. -/
def autoFixableBlockingIds (findings : List Finding) : List Nat :=
  (findings.zipIdx.filter fun e => isBlocking e.1 && e.1.autoFixable).map Prod.snd

/-- `_emit_pass`, `_emit_auto_fix` and `_emit_blocked` -/
def emit (findings : List Finding) (currentAttempts : Nat) : Decision → List Published
  | .pass => [.completed]
  | .autoFix =>
    [.autoFixRequest (autoFixableBlockingIds findings) (currentAttempts + 1), .autoFixRequested]
  | .blocked reason => [.blocked reason]

/-- How `complete_validation_run` ends: an error of the database itself is caught in it. -/
inductive Completion where
  | written
  | refused
  | raised
deriving Repr, DecidableEq

/-- The calls that raise. -/
structure Faults where
  latestRun : Bool
  createRun : Bool
  addFinding : Nat → Bool
  completeRun : Completion
  createRequest : Bool
  publish : Nat → Bool

def Faults.none : Faults where
  latestRun := false
  createRun := false
  addFinding := fun _ => false
  completeRun := .written
  createRequest := false
  publish := fun _ => false

/-- What a call leaves: the row of its run, what it published, and whether it raised. -/
structure Effects where
  run : Option ValidationRun
  published : List Published
  raised : Bool
deriving Repr, DecidableEq

/-- The messages go out one after the other, up to the first that fails. -/
def publishAll (fails : Nat → Bool) (run : Option ValidationRun) (messages : List Published) :
    Effects :=
  let sent := (messages.zipIdx.takeWhile fun e => !fails e.2).map Prod.fst
  { run := run, published := sent, raised := decide (sent.length < messages.length) }

/-- The findings that the rules report of what was loaded; `none` where they raise. -/
def inspect (m : Machine) (payload : Payload) (loads : Loads) : Option (List Finding) := do
  let t ← materialiseArtifacts m loads.artifacts
  applyQaRules m t loads.artifacts ((loads.artifacts.map Artifact.filePath).filter (· ≠ ""))
    loads.prDraft loads.workItem (templateHint m.unicode payload loads.artifacts)

/-- The attempts that count for a message, after those of the latest run. -/
def currentAttempts (payload : Payload) (prior : Option ValidationRun) : Nat :=
  let priorAttempts := (prior.map ValidationRun.autoFixAttempts).getD 0
  if payload.event = .autoFixCompleted then priorAttempts + 1 else priorAttempts

/-- The findings are stored, the run is completed, and the decision goes out. -/
def settle (faults : Faults) (run : ValidationRun) (findings : List Finding) : Effects :=
  let stored := (findings.zipIdx.takeWhile fun e => !faults.addFinding e.2).map Prod.fst
  let run := { run with findings := stored }
  if stored.length < findings.length then { run := some run, published := [], raised := true }
  else
    let decision := decideOn findings run.autoFixAttempts run.maxAutoFixAttempts
    let messages := emit findings run.autoFixAttempts decision
    if faults.completeRun = .raised then { run := some run, published := [], raised := true }
    else
      let run :=
        if faults.completeRun = .refused then run else { run with status := decision.runStatus }
      if decision = .autoFix ∧ faults.createRequest = true then
        { run := some run, published := [], raised := true }
      else publishAll faults.publish (some run) messages

/-- `QAAgent.handle(payload)`; `prior` is the latest run of the task. -/
def handle (maxAttempts : Nat) (m : Machine) (faults : Faults) (payload : Payload) (loads : Loads)
    (prior : Option ValidationRun) : Effects :=
  if payload.event.isOwn then { run := none, published := [], raised := false }
  else if loads.passesThrough then publishAll faults.publish none [.completed]
  else if faults.latestRun then { run := none, published := [], raised := true }
  else if faults.createRun then { run := none, published := [], raised := true }
  else
    let run : ValidationRun :=
      { status := .started, autoFixAttempts := currentAttempts payload prior,
        maxAutoFixAttempts := maxAttempts, findings := [] }
    match inspect m payload loads with
    | none => { run := some run, published := [], raised := true }
    | some findings => settle faults run findings

/-! ## What a call decides -/

/-- An automatic fix is only asked for while attempts are left. -/
theorem lt_of_decideOn_autoFix {findings : List Finding} {current maxAttempts : Nat}
    (h : decideOn findings current maxAttempts = .autoFix) : current < maxAttempts := by
  unfold decideOn at h
  simp only at h
  by_cases hnone : findings.filter isBlocking = []
  · rw [if_pos hnone] at h
    cases h
  rw [if_neg hnone] at h
  by_cases hfix : ((findings.filter isBlocking).any fun f => !f.autoFixable) = true
  · rw [if_pos hfix] at h
    cases h
  rw [if_neg hfix] at h
  by_cases hmax : maxAttempts ≤ current
  · rw [if_pos hmax] at h
    cases h
  · omega

theorem takeWhile_zipIdx_fst {α : Type} (l : List α) {fails : Nat → Bool}
    (h : ∀ i, fails i = false) :
    (l.zipIdx.takeWhile fun e => !fails e.2).map Prod.fst = l := by
  have hall : (l.zipIdx.takeWhile fun e => !fails e.2) = l.zipIdx := by
    rw [List.takeWhile_eq_self_iff]
    intro e _
    rw [h, Bool.not_false]
  rw [hall, List.zipIdx_map_fst]

theorem publishAll_of_not_fails (run : Option ValidationRun) (messages : List Published)
    {fails : Nat → Bool} (h : ∀ i, fails i = false) :
    publishAll fails run messages = { run := run, published := messages, raised := false } := by
  unfold publishAll
  rw [takeWhile_zipIdx_fst messages h]
  simp

/-- Where no store fails, the decision goes out as it is. -/
theorem settle_none (run : ValidationRun) (findings : List Finding) :
    settle .none run findings =
      { run := some { run with
          findings := findings
          status := (decideOn findings run.autoFixAttempts run.maxAutoFixAttempts).runStatus }
        published := emit findings run.autoFixAttempts
          (decideOn findings run.autoFixAttempts run.maxAutoFixAttempts)
        raised := false } := by
  unfold settle
  have hadd : ∀ i, Faults.none.addFinding i = false := fun _ => rfl
  rw [takeWhile_zipIdx_fst findings hadd]
  simp only [Nat.lt_irrefl, if_false]
  have hraised : ¬Faults.none.completeRun = .raised := by decide
  have hrefused : ¬Faults.none.completeRun = .refused := by decide
  have hrequest : Faults.none.createRequest = false := rfl
  rw [if_neg hraised, if_neg hrefused, hrequest]
  simp only [Bool.false_eq_true, and_false, if_false]
  have hpublish : ∀ i, Faults.none.publish i = false := fun _ => rfl
  exact publishAll_of_not_fails _ _ hpublish

end AiAgentsSwd.Qa
