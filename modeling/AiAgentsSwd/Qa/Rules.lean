import AiAgentsSwd.ApprovalPolicy.PathPolicy
import Mathlib.Data.List.Basic
import Mathlib.Tactic.Common

/-!
# Qa.Rules — the deterministic rules of the quality gate

Model of `shared/sdk/qa/rules.py` with the checks of `shared/sdk/code_workspace/validator.py`
that it calls, and of `_materialise_artifacts` of `agents/qa-agent/src/agent.py`: the stored
artifacts are written to a directory of their own, and the rules look at that directory and at
the rows.
-/

namespace AiAgentsSwd.Qa

open ApprovalPolicy (Unicode validateAllowedPath validateNoSecretContent
  validateNoDestructiveChange defaultDeniedPaths segments slashes strip startsWith)

/-! ## Findings -/

inductive Severity where
  | warning
  | error
  | critical
deriving Repr, DecidableEq

inductive Category where
  | syntaxError
  | test
  | policy
  | security
  | documentation
  | acceptance
  | regression
deriving Repr, DecidableEq

/-- A finding, with the two keys of its metadata that an automatic fix reads. -/
structure Finding where
  severity : Severity
  category : Category
  title : String
  filePath : Option String := none
  autoFixable : Bool := false
  reason : Option String := none
  missingSections : Option (List String) := none
deriving Repr, DecidableEq

/-- `is_blocking(finding)` -/
def isBlocking (f : Finding) : Bool :=
  match f.severity with
  | .warning => false
  | .error => true
  | .critical => true

/-- `_NON_AUTO_FIXABLE_CATEGORIES` -/
def nonAutoFixableCategories : List Category := [.security, .policy, .regression]

/-- `classify_finding_auto_fixable(finding)` -/
def classifyFindingAutoFixable (f : Finding) : Bool :=
  f.autoFixable && !nonAutoFixableCategories.contains f.category

/-! ## What the rules look at -/

/-- A row of `code_change_artifacts`. -/
structure Artifact where
  filePath : String
  diffText : String
  generatedContentPreview : String
deriving Repr, DecidableEq

/-- A row of `pr_draft_artifacts`. -/
structure PrDraft where
  body : String
deriving Repr, DecidableEq

/-- A work item; a criterion that is not a text is `none`. -/
structure WorkItem where
  acceptanceCriteria : Option (List (Option String))
deriving Repr, DecidableEq

/-- The files below a directory, under the names on the way to each, the last written first. -/
abbrev Tree := List (List (List Char) × String)

/-- What stands at a path. -/
inductive Entry where
  | text (content : String)
  /-- A file that is not text in UTF-8. -/
  | binary
  /-- A file that cannot be opened. -/
  | locked
  | directory
  | absent
deriving Repr, DecidableEq

/-- Where the rules run. -/
structure Machine where
  unicode : Unicode
  /-- What stands at a path that is absolute or climbs, seen from a directory with these files. -/
  outside : Tree → String → Entry
  /-- The error of `py_compile` on a source. -/
  compileError : Entry → Option String
  /-- The system refuses to write under these names. -/
  refuses : List (List Char) → Bool

/-- The path is absolute or climbs. -/
def leaves (rel : String) : Bool :=
  startsWith rel "/" || (segments rel.toList).contains ['.', '.']

/-- The names on the way to the file. -/
def namesOf (rel : String) : List (List Char) :=
  (segments rel.toList).filter fun s => !(s == [] || s == ['.'])

/-- A file can be written there: no file is in the way, and it is not a directory. -/
def Tree.admits (t : Tree) (rel : String) : Bool :=
  let names := namesOf rel
  -- a path that ends in a slash or in a dot is a directory
  ((segments rel.toList).getLast? == names.getLast?) &&
    t.all fun e => e.1 == names || !(e.1.isPrefixOf names || names.isPrefixOf e.1)

/-- One round of the loop of `_materialise_artifacts`; `none` where it raises. -/
def materialiseOne (m : Machine) (t : Tree) (a : Artifact) : Option Tree :=
  if a.filePath = "" ∨ leaves a.filePath = true then some t
  else if t.admits a.filePath && !m.refuses (namesOf a.filePath) then
    some ((namesOf a.filePath, a.generatedContentPreview) :: t)
  else none

/-- `_materialise_artifacts(target_root, artifacts)` -/
def materialiseArtifacts (m : Machine) (artifacts : List Artifact) : Option Tree :=
  artifacts.foldlM (materialiseOne m) []

/-- What stands at `os.path.join(workspace_path, rel)`. -/
def entryAt (m : Machine) (t : Tree) (rel : String) : Entry :=
  if leaves rel then m.outside t rel
  else
    match t.lookup (namesOf rel) with
    | some content => .text content
    | none => .absent

/-- `os.path.isfile` -/
def Entry.isFile : Entry → Bool
  | .text _ => true
  | .binary => true
  | .locked => true
  | .directory => false
  | .absent => false

/-- The ends of lines as a file opened for text gives them. -/
def universalNewlines : List Char → List Char
  | [] => []
  | '\r' :: '\n' :: s => '\n' :: universalNewlines s
  | '\r' :: s => '\n' :: universalNewlines s
  | c :: s => c :: universalNewlines s

/-- `fh.read()` -/
def readText (content : String) : String := String.ofList (universalNewlines content.toList)

/-- `s.endswith(end)` -/
def endsWith (s tail : List Char) : Bool := tail.isSuffixOf s

/-- `part in s` -/
def contains (part s : List Char) : Bool := s.tails.any part.isPrefixOf

/-! ## The rules -/

section Rules

variable (m : Machine) (t : Tree)

/-- `validate_generated_files_exist(workspace_path, file_paths)` -/
def validateGeneratedFilesExist (filePaths : List String) : List Finding :=
  filePaths.flatMap fun rel =>
    if rel = "" ∨ (entryAt m t rel).isFile = true then []
    else [{ severity := .error, category := .syntaxError, title := "generated file missing",
            filePath := some rel, autoFixable := true }]

/-- `_py_compile_one(full_path)`; `none` where it raises. -/
def pyCompileOne (e : Entry) : Option (Bool × String) :=
  match e with
  | .absent => some (false, "missing_file")
  | .directory => none
  | .locked => none
  | e =>
    match m.compileError e with
    | some error => some (false, "py_compile_error:" ++ error)
    | none => some (true, "py_compile_ok")

/-- `validate_python_syntax_if_py(workspace_path, file_paths)` of paths that end in `.py`. -/
def validatePythonSyntaxIfPy : List String → Option (Bool × String)
  | [] => some (true, "all_py_compile_ok")
  | rel :: rest =>
    match pyCompileOne m (entryAt m t rel) with
    | none => none
    | some (false, reason) => some (false, rel ++ ":" ++ reason)
    | some (true, _) => validatePythonSyntaxIfPy rest

/-- `validate_python_syntax(workspace_path, file_paths)` -/
def validatePythonSyntax (filePaths : List String) : Option (List Finding) :=
  match validatePythonSyntaxIfPy m t (filePaths.filter fun p => endsWith p.toList ".py".toList) with
  | none => none
  | some (true, _) => some []
  | some (false, reason) =>
    some [{ severity := .critical, category := .syntaxError, title := "python syntax error",
            autoFixable := true, reason := some reason }]

/-- `_norm_path(p)` -/
def normPath (p : String) : List Char := strip (slashes p)

/-- `validate_test_files_exist_for_api_task(workspace_path, file_paths, template_hint=…)` -/
def validateTestFilesExistForApiTask (filePaths : List String) (templateHint : String) :
    List Finding :=
  let rels := (filePaths.filter (· ≠ "")).map normPath
  let hasApiApp := rels.any fun p =>
    "apps/demo-generated/".toList.isPrefixOf p && endsWith p "_api.py".toList
  let hasApiTest := rels.any fun p =>
    "tests/generated/".toList.isPrefixOf p && endsWith p "_api.py".toList &&
      contains "test_".toList p
  if templateHint = "demo_api" ∧ hasApiApp = true ∧ hasApiTest = false then
    [{ severity := .error, category := .test, title := "missing generated test file for demo API",
       autoFixable := true }]
  else []

/-- The characters at which `str.splitlines()` ends a line. -/
def isLineEnd (c : Char) : Bool :=
  let n := c.toNat
  decide (10 ≤ n ∧ n ≤ 13 ∨ 28 ≤ n ∧ n ≤ 30 ∨ n = 0x85 ∨ n = 0x2028 ∨ n = 0x2029)

/-- A line after the first one starts with the marker of a hunk. -/
def hasLaterHunk : List Char → Bool
  | [] => false
  | c :: s => (isLineEnd c && "@@".toList.isPrefixOf s) || hasLaterHunk s

/-- `any(line.startswith("@@") for line in diff_text.splitlines())` -/
def hasHunk (s : List Char) : Bool := "@@".toList.isPrefixOf s || hasLaterHunk s

/-- `validate_diff_not_empty(diff_text)` -/
def validateDiffNotEmpty (diffText : String) : Bool × String :=
  if strip diffText.toList = [] then (false, "empty_diff")
  else if !hasHunk diffText.toList then (false, "no_hunks")
  else (true, "diff_non_empty")

/-- `validate_diff_present(artifacts)` -/
def validateDiffPresent (artifacts : List Artifact) : List Finding :=
  artifacts.flatMap fun a =>
    match validateDiffNotEmpty a.diffText with
    | (true, _) => []
    | (false, reason) =>
      [{ severity := .warning, category := .syntaxError, title := "empty diff",
         filePath := some a.filePath, autoFixable := true, reason := some reason }]

/-- `validate_no_denied_paths(file_paths)` -/
def validateNoDeniedPaths (u : Unicode) (filePaths : List String) : List Finding :=
  filePaths.flatMap fun rel =>
    if rel = "" then []
    else
      match validateAllowedPath u rel [""] defaultDeniedPaths with
      | (true, _) => []
      | (false, reason) =>
        if startsWith reason "denied:" then
          [{ severity := .critical, category := .policy,
             title := "denied path written by generator", filePath := some rel,
             reason := some reason }]
        else []

/-- The finding of `validate_no_secret_patterns` about one path; `none` where it raises. -/
def secretFinding (rel : String) : Option (List Finding) :=
  match entryAt m t rel with
  | .binary => none
  | .text content =>
    match validateNoSecretContent m.unicode (readText content) with
    | (true, _) => some []
    | (false, reason) =>
      some [{ severity := .critical, category := .security, title := "secret-like content detected",
              filePath := some rel, reason := some reason }]
  -- an `OSError` is passed over
  | .locked => some []
  | .directory => some []
  | .absent => some []

/-- `validate_no_secret_patterns(workspace_path, file_paths)` -/
def validateNoSecretPatterns : List String → Option (List Finding)
  | [] => some []
  | rel :: rest =>
    if rel = "" then validateNoSecretPatterns rest
    else do
      let found ← secretFinding m t rel
      let later ← validateNoSecretPatterns rest
      return found ++ later

/-- `_PR_DRAFT_REQUIRED_SECTIONS` -/
def prDraftRequiredSections : List String :=
  ["## Summary", "## Changed Files", "## Generated Diff Summary", "## Validation Result",
    "## Risk Assessment", "## Rollback Plan", "## Safety Notes"]

/-- The required sections that the body does not mention. -/
def missingSections (body : String) : List String :=
  prDraftRequiredSections.filter fun s => !contains s.toList body.toList

/-- `validate_pr_draft_sections(pr_draft)` -/
def validatePrDraftSections : Option PrDraft → List Finding
  | none =>
    [{ severity := .error, category := .documentation, title := "missing PR draft",
       reason := some "pr_draft_missing" }]
  | some draft =>
    if missingSections draft.body = [] then []
    else
      [{ severity := .error, category := .documentation,
         title := "PR draft missing required sections", autoFixable := true,
         missingSections := some (missingSections draft.body) }]

/-- `validate_destructive_diff(artifacts)` -/
def validateDestructiveDiff (u : Unicode) (artifacts : List Artifact) : List Finding :=
  artifacts.flatMap fun a =>
    match validateNoDestructiveChange u a.diffText with
    | (true, _) => []
    | (false, reason) =>
      [{ severity := .critical, category := .security,
         title := "destructive payload in generated diff", filePath := some a.filePath,
         reason := some reason }]

/-- The words that `_ACCEPTANCE_KEYWORD_PATTERN` looks for. -/
def acceptanceKeywords : List String :=
  ["test", "endpoint", "doc", "documentation", "api", "helper", "utility"]

/-- `_ACCEPTANCE_KEYWORD_PATTERN.findall(criterion)`: a keyword stands between two boundaries, so
that it is a whole word. -/
def keywordsIn (u : Unicode) (criterion : List Char) : List (List Char) :=
  (criterion.splitOnP fun c => !u.isWord c).filter fun word =>
    acceptanceKeywords.any fun keyword =>
      word.length == keyword.length &&
        (keyword.toList.zip word).all fun e => (u.variants e.1).contains e.2

/-- `validate_acceptance_alignment(work_item=…, artifacts=…, template_hint=…)` -/
def validateAcceptanceAlignment (u : Unicode) (workItem : Option WorkItem)
    (artifacts : List Artifact) (templateHint : String) : List Finding :=
  let criteria := ((workItem.bind WorkItem.acceptanceCriteria).getD []).filterMap id
  let delivered := u.lower <|
    [' '].intercalate <| artifacts.map fun a => (a.filePath ++ " " ++ templateHint).toList
  let unmet := criteria.filter fun criterion =>
    let hits := keywordsIn u criterion.toList
    !hits.isEmpty && !hits.any fun keyword => contains (u.lower keyword) delivered
  if unmet = [] then []
  else
    [{ severity := .warning, category := .acceptance,
       title := "acceptance criteria not visibly satisfied" }]

/-- The last loop of `apply_qa_rules`. -/
def reconcile (f : Finding) : Finding :=
  if classifyFindingAutoFixable f then f else { f with autoFixable := false }

/-- `apply_qa_rules(…)`; `none` where a rule raises. -/
def applyQaRules (artifacts : List Artifact) (filePaths : List String) (prDraft : Option PrDraft)
    (workItem : Option WorkItem) (templateHint : String) : Option (List Finding) := do
  let syntaxFindings ← validatePythonSyntax m t filePaths
  let secretFindings ← validateNoSecretPatterns m t filePaths
  return (validateGeneratedFilesExist m t filePaths ++ syntaxFindings ++
    validateTestFilesExistForApiTask filePaths templateHint ++ validateDiffPresent artifacts ++
    validateNoDeniedPaths m.unicode filePaths ++ secretFindings ++
    validatePrDraftSections prDraft ++ validateDestructiveDiff m.unicode artifacts ++
    validateAcceptanceAlignment m.unicode workItem artifacts templateHint).map reconcile

end Rules

/-- A machine that knows the letters of ASCII, whose compiler reports this of every source. -/
def asciiMachine (error : Option String) : Machine where
  unicode :=
    { isWord := fun c => ApprovalPolicy.isAlnum c || c == '_'
      variants := fun c => [c.toLower, c.toUpper]
      lower := List.map Char.toLower }
  outside := fun _ _ => .absent
  compileError := fun _ => error
  refuses := fun _ => false

/-- A body with every required section. -/
def fullBody : String := "\n".intercalate prDraftRequiredSections

example : missingSections fullBody = [] := by decide +kernel

end AiAgentsSwd.Qa
