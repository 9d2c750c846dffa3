import AiAgentsSwd.ApprovalPolicy.PathPolicy
import AiAgentsSwd.CodeGen.Templates

/-!
# CodeGen.Generator — which files a request makes

Model of `plan_generation` of `development-agent/src/code_generator.py`: the template is chosen by
the words of the description and of the request type, and the files are named by a slug of the
task id, but for a document, which is named by the task id itself.
-/

namespace AiAgentsSwd.CodeGen

open ApprovalPolicy (Unicode strip)
open Python (Source)

/-- The `template` of a plan. -/
inductive Family where
  | documentation
  | demoApi
  | simpleUtility
  | blocked
deriving Repr, DecidableEq

def Family.text : Family → String
  | .documentation => "documentation"
  | .demoApi => "demo_api"
  | .simpleUtility => "simple_utility"
  | .blocked => "blocked"

/-- `DOC_KEYWORDS` -/
def docKeywords : List String := ["docs", "doc", "document", "readme", "文件", "說明", "說明文件"]

/-- `API_KEYWORDS` -/
def apiKeywords : List String := [
  "api", "endpoint", "endpoints", "/healthz", "/health", "rest", "service", "service endpoint"]

/-- `UTILITY_KEYWORDS` -/
def utilityKeywords : List String := [
  "utility", "helper", "function", "工具", "函式", "fn", "util", "format", "parse"]

/-- `word in text` -/
def isIn (word text : List Char) : Bool := text.tails.any word.isPrefixOf

section Names

variable (u : Unicode)

/-- `_norm(s)` -/
def norm (s : List Char) : List Char := u.lower (strip s)

/-- `_hits(text, words)` -/
def hits (text : List Char) (words : List String) : Bool :=
  text != [] && words.any fun w => isIn (u.lower w.toList) (u.lower text)

/-- `_classify(description, request_type)`; of what matches, the first in `_PRIORITY`. -/
def classify (description requestType : List Char) : Family :=
  let text := norm u description
  let rt := norm u requestType
  if text = [] then .blocked
  else if hits u text docKeywords || isIn "doc".toList rt then .documentation
  else if hits u text apiKeywords || isIn "api".toList rt then .demoApi
  else if hits u text utilityKeywords || isIn "util".toList rt || isIn "helper".toList rt then
    .simpleUtility
  else .blocked

/-- `[a-z0-9_]` -/
def isSlug (c : Char) : Bool :=
  decide ('a' ≤ c) && decide (c ≤ 'z') || decide ('0' ≤ c) && decide (c ≤ '9') || c == '_'

/-- `_SAFE_SLUG.sub("_", s)`; `inRun` when the last character was replaced. -/
def subUnsafe : (inRun : Bool) → List Char → List Char
  | _, [] => []
  | inRun, c :: s =>
    if isSlug c then c :: subUnsafe false s
    else if inRun then subUnsafe true s
    else '_' :: subUnsafe true s

/-- `s.strip("_")` -/
def stripUnderscores (s : List Char) : List Char :=
  ((s.dropWhile (· == '_')).reverse.dropWhile (· == '_')).reverse

def orTask (slug : List Char) : List Char := if slug = [] then "task".toList else slug

/-- `_slugify(value)` -/
def slugify (value : List Char) : List Char :=
  if value = [] then "task".toList
  else
    let slug := orTask (stripUnderscores (subUnsafe false (u.lower value)))
    if slug.head?.any ApprovalPolicy.isDigit then "t_".toList ++ slug else slug

end Names

/-! ## Contents -/

/-- `s.replace('"""', "'''")` -/
def replaceQuotes : List Char → List Char
  | a :: b :: c :: s =>
    if a = Python.doubleQuote ∧ b = Python.doubleQuote ∧ c = Python.doubleQuote then
      Python.apostrophe :: Python.apostrophe :: Python.apostrophe :: replaceQuotes s
    else a :: replaceQuotes (b :: c :: s)
  | s => s

/-- The text of the description between the quotes of `ORIGINAL_DESCRIPTION`. -/
def describedText (description : List Char) : List Char :=
  let desc := replaceQuotes (strip description)
  if desc = [] then "(no description provided)".toList else desc

/-- `_docs_template(task_id, description, request_type=…)` -/
def docsTemplate (taskId description requestType : List Char) : List Char :=
  let desc := if strip description = [] then "(no description provided)".toList
    else strip description
  let kind := if requestType = [] then "unknown".toList else requestType
  "# Task `".toList ++ taskId ++ "` — generated documentation\n\n".toList ++
    "Generated by the deterministic Stage 28 code generator.\n".toList ++
    "This file lives under `docs/generated/` and is owned by the\n".toList ++
    "controlled code generation workspace.\n\n## Metadata\n\n- task_id: `".toList ++ taskId ++
    "`\n- request_type: `".toList ++ kind ++ "`\n- generated_by: development-agent\n".toList ++
    "- generator_mode: deterministic_template\n- production_executed: false\n\n".toList ++
    "## Original request\n\n```\n".toList ++ desc ++ "\n```\n\n## Assumptions\n\n".toList ++
    "- The generator has no domain knowledge — this document is\n".toList ++
    "  a controlled stub. A human reviewer must replace the\n".toList ++
    "  placeholder sections before the PR draft is merged.\n\n## TODO (operator)\n\n".toList ++
    "- [ ] Replace this stub with the real documentation body.\n".toList ++
    "- [ ] Confirm the file path is correct under `docs/generated/`.\n".toList ++
    "- [ ] Validate that no real secret has been pasted into the doc.\n".toList

section Plan

variable (u : Unicode) (printable : Char → Bool)

/-- What a request fills in the Python templates. -/
def envOf (taskId description requestType : List Char) : Env
  | .taskId => taskId
  | .requestType => requestType
  | .slug => slugify u taskId
  | .described => describedText description

/-- `GeneratedFile` -/
structure GeneratedFile where
  relativePath : String
  content : String
  changeType : String := "create"
deriving Repr, DecidableEq

/-- The parts of `classify_change_risk` that do not repeat its argument. -/
structure Risk where
  level : String
  reason : String
  docsCount : Nat
  testsCount : Nat
  appCount : Nat
  outsideAllow : Nat
deriving Repr, DecidableEq

/-- `classify_change_risk(changed_files)`, of the paths of the files. -/
def classifyChangeRisk (paths : List String) : Risk :=
  if paths = [] then ⟨"low", "no_files", 0, 0, 0, 0⟩
  else
    let inside := paths.filter fun p => (ApprovalPolicy.validateAllowedPath u p
      ApprovalPolicy.defaultAllowedPaths ApprovalPolicy.defaultDeniedPaths).1
    let starts := fun (root p : String) => root.toList.isPrefixOf (ApprovalPolicy.normalise p)
    let docs := inside.countP (starts "docs/generated/")
    let tests := inside.countP (starts "tests/generated/")
    let app := inside.countP fun p =>
      starts "apps/demo-generated/" p || starts "source/generated/" p
    let outside := paths.length - inside.length
    let graded : String × String :=
      if 0 < outside then ("high", "outside_allowlist:" ++ toString outside)
      else if 0 < app then ("medium", "app_code:" ++ toString app)
      else if 0 < tests ∧ docs = 0 then ("low", "tests_only")
      else ("low", "docs_only")
    let final : String × String :=
      if 10 < paths.length then ("high", "too_many_files:" ++ toString paths.length) else graded
    ⟨final.1, final.2, docs, tests, app, outside⟩

/-- `GenerationPlan` -/
structure GenerationPlan where
  template : Family
  status : String
  reason : String
  files : List GeneratedFile := []
  summary : String
  risk : Option Risk := none
  rollbackPlan : String
  title : String
deriving Repr, DecidableEq

/-- The Python sources of a template, a module and its test. -/
def sources (family : Family) (env : Env) : List Source :=
  match family with
  | .demoApi => [sourceOf printable env apiTemplate, sourceOf printable env apiTestTemplate]
  | .simpleUtility =>
    [sourceOf printable env utilityTemplate, sourceOf printable env utilityTestTemplate]
  | _ => []

/-- The paths of the Python files: `apps/demo-generated/{slug}_{kind}.py` and
`tests/generated/test_{slug}_{kind}.py`. -/
def pythonPaths (slug : List Char) (kind : String) : List String := [
  String.ofList ("apps/demo-generated/".toList ++ slug ++ kind.toList ++ ".py".toList),
  String.ofList ("tests/generated/test_".toList ++ slug ++ kind.toList ++ ".py".toList)]

/-- The files of a template. -/
def generate (family : Family) (taskId description requestType : List Char) : List GeneratedFile :=
  let env := envOf u taskId description requestType
  let python := fun kind => List.zipWith
    (fun path (src : Source) => { relativePath := path, content := String.ofList src.render })
    (pythonPaths (slugify u taskId) kind) (sources printable family env)
  match family with
  | .documentation => [{
      relativePath := String.ofList ("docs/generated/".toList ++ taskId ++ ".md".toList)
      content := String.ofList (docsTemplate taskId description requestType) }]
  | .demoApi => python "_api"
  | .simpleUtility => python "_utility"
  | .blocked => []

/-- `plan_generation(task_id=…, description=…, request_type=…, work_item_status=…)` -/
def planGeneration (taskId description requestType : String) (workItemStatus : Option String) :
    GenerationPlan :=
  let blockedTitle := "[ai-agents-swd][BLOCKED] " ++ taskId
  let status := workItemStatus.getD ""
  if status ≠ "" ∧ status ≠ "ready_for_development" then
    { template := .blocked
      status := "blocked"
      reason := "work_item_status:" ++ status
      summary := "work item is not ready_for_development"
      rollbackPlan := "No artifacts written — workspace marked blocked."
      title := blockedTitle }
  else
    let family := classify u description.toList requestType.toList
    if family = .blocked then
      { template := .blocked
        status := "blocked"
        reason := "unclassifiable_description"
        summary := "deterministic generator could not match the description " ++
          "to docs / api / utility templates"
        rollbackPlan := "No artifacts written — operator should attach more context " ++
          "via /discord/clarifications and rerun the workflow."
        title := blockedTitle }
    else
      let files := generate u printable family taskId.toList description.toList requestType.toList
      { template := family
        status := "ready"
        reason := "template:" ++ family.text
        files := files
        summary := "deterministic generator produced " ++ toString files.length ++
          " file(s) for task " ++ taskId ++ " (template=" ++ family.text ++ ")"
        risk := some (classifyChangeRisk u (files.map (·.relativePath)))
        rollbackPlan := "Dry-run / draft only: revert by deleting the generated paths " ++
          "in the operator's clone — nothing was committed."
        title := "[ai-agents-swd] " ++ family.text ++ " — " ++ taskId }

end Plan

end AiAgentsSwd.CodeGen
