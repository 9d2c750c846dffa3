import AiAgentsSwd.ApprovalPolicy.PathPolicy
import AiAgentsSwd.Python.Values

/-!
# SandboxGithub.Policy — what a sandbox draft PR may be

Model of `policy.py`, `allowlist.py`, `branch.py`, `pr_metadata.py` and `dry_run.py` of
`shared/sdk/sandbox_github`. The committed YAML files are read into records, whose defaults are
those of the code. Planning refuses with a `PlanError`, or raises one of the errors of the modules
below it, which are no `PlanError`s.
-/

namespace AiAgentsSwd.SandboxGithub

open ApprovalPolicy (Unicode isSpace strip)

inductive Mode where
  | dryRun
  | liveSandbox
deriving Repr, DecidableEq

def Mode.text : Mode → String
  | .dryRun => "dry_run"
  | .liveSandbox => "live_sandbox"

/-- `ALLOWED_MODES` -/
def modeOf (s : String) : Option Mode :=
  if s = "dry_run" then some .dryRun else if s = "live_sandbox" then some .liveSandbox else none

/-! ## The configuration -/

/-- `sandboxGitHub` of the draft PR policy. -/
structure DraftPrPolicy where
  defaultMode : String := "dry_run"
  allowedMode : List String := []
  forbiddenBaseBranches : List String := []
deriving Repr, DecidableEq

/-- `sandboxDraftBranch` -/
structure BranchPolicy where
  start : String := "sandbox/ai-agents/"
  shortCorrelationIdLength : Int := 12
  maxLength : Int := 200
  forbiddenBranchNames : List String := []
  forbiddenPrefixes : List String := []
deriving Repr, DecidableEq

/-- `sandboxDraftPrMetadata` -/
structure MetadataModel where
  titlePattern : String := "[Sandbox][Draft] \x7bproject_key\x7d: \x7bwork_item_title\x7d"
  bodyRequiredSections : List String := []
  bodyForbiddenContent : List String := []
  nonProduction : String := "Non-production sandbox draft."
  noProductionApproval : String := "No production approval."
  noMerge : String := "No merge authorization."
  generatedBy : String := "Generated by AI Agents sandbox flow."
deriving Repr, DecidableEq

/-- An entry of the allowlist, as far as the code reads it. -/
structure SandboxRepo where
  key : String
  owner : String
  repo : String
  allowed : Bool
  sandboxOnly : Bool
  allowedBaseBranches : List String
  allowedHeadPrefixes : List String
  allowDraftPr : Bool
deriving Repr, DecidableEq

structure Config where
  policy : DraftPrPolicy
  branch : BranchPolicy
  metadata : MetadataModel
  repositories : List SandboxRepo
deriving Repr, DecidableEq

/-- `SANDBOX_GITHUB_LIVE` and `SANDBOX_GITHUB_TOKEN` -/
structure Environ where
  live : Option String
  token : Option String
deriving Repr, DecidableEq

/-- `s.strip()` -/
def stripped (s : String) : String := String.ofList (strip s.toList)

/-- `s or default` -/
def orElse (s : Option String) (default_ : String) : String :=
  if s.getD "" = "" then default_ else s.getD ""

/-- `s[:n]` -/
def upTo (n : Int) (s : List Char) : List Char :=
  if 0 ≤ n then s.take n.toNat else s.take (s.length - (-n).toNat)

/-- `part in s` -/
def within (part s : List Char) : Bool := s.tails.any part.isPrefixOf

section Policy

variable (u : Unicode)

/-- `live_mode_requested_enabled()` -/
def liveModeEnabled (env : Environ) : Bool :=
  u.lower (strip (env.live.getD "false").toList) == "true".toList

/-- `has_credential()` -/
def hasCredential (env : Environ) : Bool := strip (env.token.getD "").toList != []

/-- The mode that is asked for, before it is looked up. -/
def askedMode (policy : DraftPrPolicy) (requested : Option String) : String :=
  stripped (orElse requested policy.defaultMode)

/-- `resolve_mode(requested)` -/
def resolveMode (policy : DraftPrPolicy) (env : Environ) (requested : Option String) :
    Mode × Option String :=
  match modeOf (askedMode policy requested) with
  | none => (.dryRun, some ("invalid_mode:" ++ askedMode policy requested))
  | some .dryRun => (.dryRun, none)
  | some .liveSandbox =>
    if !policy.allowedMode.contains "live_sandbox" then
      (.liveSandbox, some "live_sandbox_not_allowed_by_policy")
    else if !liveModeEnabled u env then (.liveSandbox, some "live_sandbox_not_enabled")
    else if !hasCredential env then (.liveSandbox, some "live_sandbox_no_credential")
    else (.liveSandbox, none)

/-! ## The allowlist -/

/-- `_repos().get(key)`; of entries with one key, the last. -/
def getRepo (repositories : List SandboxRepo) (key : String) : Option SandboxRepo :=
  (repositories.reverse.find? fun r => stripped r.key = key ∧ key ≠ "").map fun r =>
    { r with key := stripped r.key, owner := stripped r.owner, repo := stripped r.repo }

/-- `resolve_repository(repository_key)` -/
def resolveRepository (repositories : List SandboxRepo) (repositoryKey : String) :
    Option SandboxRepo :=
  (getRepo repositories (stripped repositoryKey)).filter fun r => r.allowed && r.sandboxOnly

/-- `base_branch_allowed(repo, base)` -/
def baseBranchAllowed (repo : SandboxRepo) (base : String) : Bool :=
  repo.allowedBaseBranches.contains base

/-- `head_prefix_allowed(repo, head)` -/
def headPrefixAllowed (repo : SandboxRepo) (head : List Char) : Bool :=
  repo.allowedHeadPrefixes.any fun p => p.toList.isPrefixOf head

/-! ## The branch -/

/-- `[a-z0-9-]` -/
def branchChar (c : Char) : Bool :=
  decide ('a' ≤ c) && decide (c ≤ 'z') || decide ('0' ≤ c) && decide (c ≤ '9') || c == '-'

/-- `_SANITIZE_RE.sub("-", s)`; `inRun` when the last character was replaced. -/
def subOthers : (inRun : Bool) → List Char → List Char
  | _, [] => []
  | inRun, c :: s =>
    if branchChar c then c :: subOthers false s
    else if inRun then subOthers true s
    else '-' :: subOthers true s

/-- `_DASHES_RE.sub("-", s)`; `after` when the last character was a dash. -/
def subDashes : (after : Bool) → List Char → List Char
  | _, [] => []
  | after, c :: s =>
    if c = '-' then if after then subDashes true s else '-' :: subDashes true s
    else c :: subDashes false s

/-- `s.strip("-")` -/
def stripDashes (s : List Char) : List Char :=
  ((s.dropWhile (· == '-')).reverse.dropWhile (· == '-')).reverse

/-- `sanitize(value)` -/
def sanitize (value : String) : List Char :=
  stripDashes (subDashes false (subOthers false (u.lower (strip value.toList))))

/-- `s or default` for a sanitized text -/
def orText (s : List Char) (default_ : String) : List Char := if s = [] then default_.toList else s

/-- `[;|&$`()<>\\]` -/
def shellChar (c : Char) : Bool := ";|&$`()<>\\".toList.contains c

/-- `name.rsplit("/", 1)[-1]` -/
def lastSegment (name : List Char) : List Char := (name.splitOn '/').getLastD []

/-- `validate_branch_name(name)`: the message of the error that is raised. -/
def validateBranchName (printable : Char → Bool) (policy : BranchPolicy) (name : List Char) :
    Option String :=
  let start := policy.start.toList
  let names := policy.forbiddenBranchNames.map String.toList
  if !start.isPrefixOf name then
    some ("branch must start with " ++ String.ofList (Python.repr printable start).text)
  else if within "..".toList name then some "path traversal not allowed"
  else if name.any isSpace then some "spaces not allowed"
  else if name.any shellChar then some "shell metacharacters not allowed"
  else if names.contains name || names.contains (lastSegment name) then
    some "protected branch name not allowed"
  else
    (policy.forbiddenPrefixes.find? fun p =>
      p.toList.isPrefixOf (name.drop start.length)).map ("forbidden branch prefix: " ++ ·)

/-- The name before it is checked. -/
def branchName (policy : BranchPolicy) (projectKey workItemKey correlationId : String) :
    List Char :=
  let proj := orText (sanitize u projectKey) "project"
  let wi := orText (sanitize u workItemKey) "item"
  let cid := orText (upTo policy.shortCorrelationIdLength (sanitize u correlationId)) "0"
  let name := policy.start.toList ++ proj ++ ['/'] ++ wi ++ ['/'] ++ cid
  if policy.maxLength < name.length then
    (upTo policy.maxLength name).rdropWhile fun c => c == '-' || c == '/'
  else name

/-! ## The title and the body -/

/-- The text that `build_body` checks. -/
def bodyText (model : MetadataModel) (projectKey projectId workItemKey workItemTitle workItemId :
    String) (dispatchId : Option String) (correlationId summary : String) : String :=
  "\n\n".intercalate [
    "## Project\n" ++ projectKey ++ " (" ++ projectId ++ ")",
    "## Work item\n" ++ workItemKey ++ ": " ++ workItemTitle ++ " (" ++ workItemId ++ ")",
    "## Dispatch\n" ++ orElse dispatchId "n/a",
    "## Correlation ID\n" ++ correlationId,
    "## Summary\n" ++ summary,
    "## Safety scope\nSandbox-only draft PR. No merge, no ready-for-review, " ++
      "no production action.",
    "## Non-production caveat\n" ++ model.nonProduction,
    "## No production approval\n" ++ model.noProductionApproval,
    "## No merge authorization\n" ++ model.noMerge,
    "## Generated by AI Agents sandbox flow\n" ++ model.generatedBy]

/-- `validate_body(body)`: the message of the error that is raised. -/
def validateBody (model : MetadataModel) (body : String) : Option String :=
  let low := u.lower body.toList
  match model.bodyRequiredSections.find? fun s => !within (u.lower s.toList) low with
  | some section_ => some ("body missing required section: " ++ section_)
  | none =>
    (model.bodyForbiddenContent.find? fun s => within (u.lower s.toList) low).map
      ("body contains forbidden content: " ++ ·)

end Policy

/-! ## The plan -/

/-- What `request_draft_pr` is called with. -/
structure Request where
  repositoryKey : String
  projectId : String
  projectKey : String
  workItemId : String
  workItemKey : String
  workItemTitle : String
  correlationId : String
  dispatchId : Option String := none
  baseBranch : Option String := none
  summary : String := ""
  requestedMode : Option String := none
  productionEffect : Bool := false
deriving Repr, DecidableEq

/-- `DraftPrPlan` -/
structure DraftPrPlan where
  repositoryKey : String
  owner : String
  repo : String
  baseBranch : String
  headBranch : String
  title : String
  body : String
  projectKey : String
  workItemKey : String
  correlationId : String
  mode : Mode
deriving Repr, DecidableEq

/-- How planning ends without a plan: with a `PlanError` and its reason, or with another error. -/
inductive PlanFailure where
  | refused (reason : String)
  /-- `BranchPolicyError` -/
  | branchPolicy (message : String)
  /-- what `str.format` raises for the pattern of the title -/
  | titleFormat
  /-- `PrMetadataError` -/
  | prMetadata (message : String)
deriving Repr, DecidableEq

/-- What the code takes from outside: the Unicode tables, and `str.format` of the pattern of a
title, with what it makes of the project key and the title. -/
structure Runtime where
  unicode : Unicode
  printable : Char → Bool
  format : (pattern projectKey workItemTitle : String) → Option String

section Plan

variable (rt : Runtime) (config : Config)

/-- The base branch of a request; the first of the repository when it names none. -/
def chosenBase (repo : SandboxRepo) (r : Request) : String :=
  orElse r.baseBranch (repo.allowedBaseBranches.headD "")

/-- The head branch of a request. -/
def headBranch (r : Request) : List Char :=
  branchName rt.unicode config.branch r.projectKey r.workItemKey r.correlationId

def summaryOf (r : Request) : String :=
  orElse (some r.summary) ("Sandbox draft PR for " ++ r.workItemKey ++ ".")

def bodyOf (r : Request) : String :=
  bodyText config.metadata r.projectKey r.projectId r.workItemKey r.workItemTitle r.workItemId
    r.dispatchId r.correlationId (summaryOf r)

/-- The second half of `build_plan`: the branch, the title and the body. -/
def planFor (repo : SandboxRepo) (r : Request) (mode : Mode) : Except PlanFailure DraftPrPlan :=
  match validateBranchName rt.printable config.branch (headBranch rt config r) with
  | some message => .error (.branchPolicy message)
  | none =>
    if !headPrefixAllowed repo (headBranch rt config r) then
      .error (.refused "head_branch_prefix_not_allowed")
    else
      match rt.format config.metadata.titlePattern r.projectKey r.workItemTitle with
      | none => .error .titleFormat
      | some title =>
        match validateBody rt.unicode config.metadata (bodyOf config r) with
        | some message => .error (.prMetadata message)
        | none => .ok {
            repositoryKey := repo.key
            owner := repo.owner
            repo := repo.repo
            baseBranch := chosenBase repo r
            headBranch := String.ofList (headBranch rt config r)
            title := title
            body := bodyOf config r
            projectKey := r.projectKey
            workItemKey := r.workItemKey
            correlationId := r.correlationId
            mode := mode }

/-- `build_plan(…)` -/
def buildPlan (r : Request) (mode : Mode) : Except PlanFailure DraftPrPlan :=
  match resolveRepository config.repositories r.repositoryKey with
  | none => .error (.refused "repository_not_allowlisted")
  | some repo =>
    if !repo.allowDraftPr then .error (.refused "draft_pr_not_allowed_for_repo")
    else if chosenBase repo r = "" ∨ baseBranchAllowed repo (chosenBase repo r) = false then
      .error (.refused "base_branch_not_allowed")
    else if config.policy.forbiddenBaseBranches.contains (chosenBase repo r) then
      .error (.refused "base_branch_forbidden")
    else planFor rt config repo r mode

end Plan

end AiAgentsSwd.SandboxGithub
