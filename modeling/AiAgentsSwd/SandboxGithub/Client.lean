import AiAgentsSwd.Json.Basic
import AiAgentsSwd.SandboxGithub.Policy
import AiAgentsSwd.Text.Regex

/-!
# SandboxGithub.Client — asking for a sandbox draft PR

Model of `client.py`, `audit.py` and `redaction.py` of `shared/sdk/sandbox_github`. GitHub answers
each call with a document or by raising; what the client catches becomes a failed result. The calls
are kept beside the result, and so is an error that leaves the client.
-/

namespace AiAgentsSwd.SandboxGithub

open Text (Regex)

/-! ## Audit -/

/-- `EVENTS` -/
inductive EventType where
  | requested
  | policyChecked
  | branchCreated
  | evidenceCommitted
  | created
  | blocked
  | failed
deriving Repr, DecidableEq

/-- What is recorded of a step. The number of a created PR is left out. -/
structure AuditEvent where
  eventType : EventType
  actor : String
  role : String
  reason : String
  projectId : String
  workItemId : String
  repositoryKey : String
  mode : Mode
  correlationId : String
  extra : List (String × String)
deriving Repr, DecidableEq

section Redaction

open Text.Regex
open ApprovalPolicy (exactly isAlnum isUpper)

/-- `_SECRET_SHAPES` -/
def secretShapes : Regex :=
  oneOf (sequence [exactly "ghp_", atLeast isAlnum 20]) [
    sequence [exactly "github_pat_", atLeast (fun c => isAlnum c || c == '_') 20],
    sequence [exactly "gho_", atLeast isAlnum 20],
    sequence [exactly "BEGIN ", .many fun c => isUpper c || c == ' ', exactly "PRIVATE KEY"],
    exactly "-----BEGIN",
    sequence [exactly "eyJ", atLeast (fun c => isAlnum c || c == '_' || c == '-') 10, exactly "."]]

/-- `redact` of a text. -/
def redacted (s : String) : String := if secretShapes.search s.toList then "[redacted]" else s

end Redaction

/-- Who asks, and why. -/
structure Asker where
  actor : String
  role : String
  reason : String
deriving Repr, DecidableEq

/-- `self._audit(event_type, …)` -/
def auditEvent (asker : Asker) (r : Request) (mode : Mode) (eventType : EventType)
    (extra : List (String × String)) : AuditEvent where
  eventType := eventType
  actor := redacted asker.actor
  role := redacted asker.role
  reason := redacted asker.reason
  projectId := redacted r.projectId
  workItemId := redacted r.workItemId
  repositoryKey := redacted r.repositoryKey
  mode := mode
  correlationId := redacted r.correlationId
  extra := extra.map fun e => (e.1, redacted e.2)

/-! ## Results -/

inductive Status where
  | planned
  | blocked
  | created
  | failed
deriving Repr, DecidableEq

/-- `DraftPrResult` -/
structure DraftPrResult where
  status : Status
  mode : Mode
  repositoryKey : String
  projectId : String
  workItemId : String
  correlationId : String
  branchName : Option String := none
  draftPrUrl : Option Json.Value := none
  draftPrNumber : Option Json.Value := none
  reason : Option String := none
  plan : Option DraftPrPlan := none
  auditEvents : List AuditEvent

/-! ## GitHub -/

/-- The calls of `_create_live`, with their paths and bodies. -/
inductive GhCall where
  | getRef (owner repo base : String)
  | createRef (owner repo head : String) (sha : Json.Value)
  | putEvidence (owner repo path message content branch : String)
  | createPull (owner repo title head base body : String)

/-- How a call ends: with a document, with one of the errors that the client catches, or with
another. -/
inductive Answer where
  | document (value : Json.Value)
  | caught (name : String)
  | other (name : String)

/-- GitHub, and the network before it, answers the last of the calls made so far. -/
abbrev GitHub := List GhCall → Answer

/-- An error, caught by the client or not. -/
inductive GhError where
  | caught (name : String)
  | other (name : String)

/-- `value[key]` -/
def subscript (value : Json.Value) (key : String) : Except GhError Json.Value :=
  match value with
  | .obj members =>
    match Json.field? members key with
    | some v => .ok v
    | none => .error (.caught "KeyError")
  | _ => .error (.other "TypeError")

/-- `self._gh(method, path, body)`, after the calls `before`. -/
def call (github : GitHub) (before : List GhCall) (c : GhCall) : Except GhError Json.Value :=
  match github (before ++ [c]) with
  | .document value => .ok value
  | .caught name => .error (.caught name)
  | .other name => .error (.other name)

/-- How far the exchange of `_create_live` came: the calls, the events, and at the end the document
of the PR or the error. -/
structure Exchange where
  calls : List GhCall
  events : List AuditEvent
  answer : Except GhError (List (String × Json.Value))

/-- The document of the PR, whose `get` is called. -/
def prDocument (value : Json.Value) : Except GhError (List (String × Json.Value)) :=
  match value with
  | .obj members => .ok members
  | _ => .error (.other "AttributeError")

/-- `sandbox-evidence/{correlation_id}.md` -/
def evidencePath (plan : DraftPrPlan) : String := "sandbox-evidence/" ++ plan.correlationId ++ ".md"

def evidenceBody (plan : DraftPrPlan) (r : Request) : String :=
  "# Sandbox draft PR evidence (non-production)\n\n" ++
    "- repository_key: " ++ plan.repositoryKey ++ "\n- project_id: " ++ r.projectId ++
    "\n- work_item_id: " ++ r.workItemId ++ "\n- correlation_id: " ++ plan.correlationId ++
    "\n- head_branch: " ++ plan.headBranch ++ "\n- base_branch: " ++ plan.baseBranch ++
    "\n- mode: live_sandbox\n\n" ++
    "Non-production sandbox evidence only. No production action.\n"

section Client

variable (asker : Asker) (github : GitHub)

/-- The body of the `try` of `_create_live`. The evidence is sent in base64. -/
def exchange (plan : DraftPrPlan) (r : Request) : Exchange :=
  let event := fun eventType extra =>
    auditEvent asker { r with repositoryKey := plan.repositoryKey
                              correlationId := plan.correlationId } .liveSandbox eventType extra
  let c₁ := GhCall.getRef plan.owner plan.repo plan.baseBranch
  match call github [] c₁ >>= (subscript · "object") >>= (subscript · "sha") with
  | .error e => ⟨[c₁], [], .error e⟩
  | .ok sha =>
    let c₂ := GhCall.createRef plan.owner plan.repo plan.headBranch sha
    match call github [c₁] c₂ with
    | .error e => ⟨[c₁, c₂], [], .error e⟩
    | .ok _ =>
      let e₁ := event .branchCreated [("head_branch", plan.headBranch)]
      let c₃ := GhCall.putEvidence plan.owner plan.repo (evidencePath plan)
        ("[Sandbox] evidence for " ++ plan.headBranch) (evidenceBody plan r) plan.headBranch
      match call github [c₁, c₂] c₃ with
      | .error e => ⟨[c₁, c₂, c₃], [e₁], .error e⟩
      | .ok _ =>
        let e₂ := event .evidenceCommitted [("evidence_path", evidencePath plan)]
        let c₄ := GhCall.createPull plan.owner plan.repo plan.title plan.headBranch plan.baseBranch
          plan.body
        ⟨[c₁, c₂, c₃, c₄], [e₁, e₂], call github [c₁, c₂, c₃] c₄ >>= prDocument⟩

/-- What a request leads to: the result or the error that leaves the client, and the calls. -/
structure Outcome where
  result : Except String DraftPrResult
  calls : List GhCall

/-- `_create_live(plan, project_id, work_item_id, events)` -/
def createLive (plan : DraftPrPlan) (r : Request) (events : List AuditEvent) : Outcome :=
  let x := exchange asker github plan r
  let event := fun eventType extra =>
    auditEvent asker { r with repositoryKey := plan.repositoryKey
                              correlationId := plan.correlationId } .liveSandbox eventType extra
  let result : DraftPrResult := {
    status := .created
    mode := .liveSandbox
    repositoryKey := plan.repositoryKey
    projectId := r.projectId
    workItemId := r.workItemId
    correlationId := plan.correlationId
    branchName := some plan.headBranch
    plan := some plan
    auditEvents := events ++ x.events }
  match x.answer with
  | .ok pr => ⟨.ok { result with
      draftPrUrl := Json.field? pr "html_url"
      draftPrNumber := Json.field? pr "number"
      auditEvents := events ++ x.events ++ [event .created []] }, x.calls⟩
  | .error (.caught name) => ⟨.ok { result with
      status := .failed
      reason := some ("live_sandbox_error:" ++ name)
      auditEvents := events ++ x.events ++ [event .failed [("failure", name)]] }, x.calls⟩
  | .error (.other name) => ⟨.error name, x.calls⟩

variable (rt : Runtime) (config : Config) (env : Environ)

/-- `request_draft_pr(…)` -/
def requestDraftPr (r : Request) : Outcome :=
  let resolved := resolveMode rt.unicode config.policy env r.requestedMode
  let mode := resolved.1
  let event := auditEvent asker r mode
  let requested := event .requested []
  let blockedResult := fun (reason : String) (events : List AuditEvent) => ({
    status := .blocked
    mode := mode
    repositoryKey := r.repositoryKey
    projectId := r.projectId
    workItemId := r.workItemId
    correlationId := r.correlationId
    reason := some reason
    auditEvents := events ++ [event .blocked [("block_reason", reason)]] } : DraftPrResult)
  if r.productionEffect then
    ⟨.ok (blockedResult "production_effect_requires_approval" [requested]), []⟩
  else
    match buildPlan rt config r mode with
    | .error (.refused reason) => ⟨.ok (blockedResult reason [requested]), []⟩
    | .error (.branchPolicy _) => ⟨.error "BranchPolicyError", []⟩
    | .error .titleFormat => ⟨.error "str.format", []⟩
    | .error (.prMetadata _) => ⟨.error "PrMetadataError", []⟩
    | .ok plan =>
      let events := [requested, event .policyChecked
        [("head_branch", plan.headBranch), ("base_branch", plan.baseBranch)]]
      match mode, resolved.2 with
      | .liveSandbox, some reason => ⟨.ok { blockedResult reason events with
          branchName := some plan.headBranch
          plan := some plan }, []⟩
      | .dryRun, _ => ⟨.ok {
          status := .planned
          mode := .dryRun
          repositoryKey := r.repositoryKey
          projectId := r.projectId
          workItemId := r.workItemId
          correlationId := r.correlationId
          branchName := some plan.headBranch
          plan := some plan
          auditEvents := events }, []⟩
      | .liveSandbox, none => createLive asker github plan r events

end Client

end AiAgentsSwd.SandboxGithub
