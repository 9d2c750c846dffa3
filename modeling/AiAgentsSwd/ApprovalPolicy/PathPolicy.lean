import AiAgentsSwd.Text.Glob
import AiAgentsSwd.Text.Regex
import Mathlib.Data.List.Basic

/-!
# ApprovalPolicy.PathPolicy — which paths and contents may be written

Model of `shared/sdk/code_workspace/policy.py`: how a path is normalised, the allowed prefixes,
the denied globs, and the signatures of secrets and of destructive commands. A refusal gives its
reason as a text, which callers read.
-/

namespace AiAgentsSwd.ApprovalPolicy

open Text (Regex)

/-- The tables of the Unicode database that `str` and `re` consult. -/
structure Unicode where
  /-- `\w` -/
  isWord : Char → Bool
  /-- The characters that `re.IGNORECASE` takes for the same, the character included. -/
  variants : Char → List Char
  /-- `str.lower()` -/
  lower : List Char → List Char

/-- `str.isspace()` of a character, `\s` for `re`. -/
def isSpace (c : Char) : Bool :=
  let n := c.toNat
  decide (9 ≤ n ∧ n ≤ 13 ∨ 28 ≤ n ∧ n ≤ 32 ∨ n = 0x85 ∨ n = 0xA0 ∨ n = 0x1680 ∨
    0x2000 ≤ n ∧ n ≤ 0x200A ∨ n = 0x2028 ∨ n = 0x2029 ∨ n = 0x202F ∨ n = 0x205F ∨ n = 0x3000)

/-- `s.startswith(start)` -/
def startsWith (s start : String) : Bool := start.toList.isPrefixOf s.toList

/-! ## Paths -/

/-- `DEFAULT_ALLOWED_PATHS` -/
def defaultAllowedPaths : List String :=
  ["docs/generated/", "apps/demo-generated/", "tests/generated/", "source/generated/"]

/-- `DEFAULT_DENIED_PATHS` -/
def defaultDeniedPaths : List String := [
  ".github/*", ".github/**", "infra/*", "infra/**", "migrations/*", "migrations/**",
  "shared/sdk/secrets/*", "shared/sdk/secrets/**", "docs/operations/secrets-management.md",
  "docker-compose*.yml", "infra/docker-compose/*", "infra/docker-compose/**", "*secret*", "*.pem",
  "*.key", "*.env", "*.env.*", "source/progress.md"]

/-- `s.replace("\\", "/")` -/
def slashes (s : String) : List Char := s.toList.map fun c => if c = '\\' then '/' else c

/-- `s.strip()` -/
def strip (s : List Char) : List Char :=
  ((s.dropWhile isSpace).reverse.dropWhile isSpace).reverse

/-- The leading `./` go, one after the other. -/
def dropDotSlash : List Char → List Char
  | '.' :: '/' :: rest => dropDotSlash rest
  | s => s

/-- `_normalise(file_path)` -/
def normalise (filePath : String) : List Char := dropDotSlash (strip (slashes filePath))

/-- The path begins with a slash or with a drive. -/
def isAbsolute : List Char → Bool
  | '/' :: _ => true
  | _ :: ':' :: _ => true
  | _ => false

/-- `p.split("/")` -/
def segments (p : List Char) : List (List Char) := p.splitOn '/'

/-- `p.rsplit("/", 1)[-1]` -/
def basename (p : List Char) : List Char := (segments p).getLastD []

/-- The glob matches the path or its last segment, as they are or in lower case. -/
def globHits (u : Unicode) (p : List Char) (pattern : String) : Bool :=
  let glob := pattern.toList
  (Text.Glob.fnmatch p glob || Text.Glob.fnmatch (u.lower p) (u.lower glob)) ||
    (Text.Glob.fnmatch (basename p) glob || Text.Glob.fnmatch (u.lower (basename p)) (u.lower glob))

/-- `validate_allowed_path(file_path, allowed=…, denied=…)` -/
def validateAllowedPath (u : Unicode) (filePath : String) (allowed denied : List String) :
    Bool × String :=
  let p := normalise filePath
  if p = [] then (false, "empty_path")
  else if isAbsolute p then (false, "absolute_path")
  else if (segments p).contains ['.', '.'] then (false, "path_traversal")
  else
    match denied.find? (globHits u p) with
    | some pattern => (false, "denied:" ++ pattern)
    | none =>
      match allowed.find? fun root => !(normalise root).isEmpty && (normalise root).isPrefixOf p with
      | some root => (true, "allowed:" ++ String.ofList (normalise root))
      | none => (false, "not_in_allowlist")

/-! ## Contents -/

section Signatures

open Text.Regex

def isUpper (c : Char) : Bool := decide ('A' ≤ c) && decide (c ≤ 'Z')
def isLower (c : Char) : Bool := decide ('a' ≤ c) && decide (c ≤ 'z')
def isDigit (c : Char) : Bool := decide ('0' ≤ c) && decide (c ≤ '9')

/-- `[A-Za-z0-9]` -/
def isAlnum (c : Char) : Bool := isUpper c || isLower c || isDigit c

/-- A quotation mark, single or double. -/
def isQuote (c : Char) : Bool := c.toNat == 39 || c.toNat == 34

variable (u : Unicode)

/-- The text as it is. -/
def exactly (s : String) : Regex := literal (fun c d => c == d) s

/-- The text under `(?i)`. -/
def anyCase (s : String) : Regex := literal (fun c d => (u.variants d).contains c) s

/-- `\b` -/
def wordBoundary : Regex := .boundary u.isWord

/-- `\s+` -/
def spaces : Regex := atLeast isSpace 1

/-- `_SECRET_PATTERNS` -/
def secretPatterns : List (String × Regex) := [
  ("github_token", sequence
    [wordBoundary u, exactly "ghp_", atLeast isAlnum 20, wordBoundary u]),
  ("github_token_pat", sequence
    [wordBoundary u, exactly "github_pat_", atLeast (fun c => isAlnum c || c == '_') 20,
      wordBoundary u]),
  ("aws_access_key", sequence
    [wordBoundary u, exactly "AKIA", atLeast (fun c => isDigit c || isUpper c) 12,
      wordBoundary u]),
  ("slack_token", sequence
    [wordBoundary u, exactly "xox", .char fun c => "abprs".toList.contains c, exactly "-",
      atLeast (fun c => isAlnum c || c == '-') 10, wordBoundary u]),
  ("private_key", sequence
    [exactly "-----BEGIN ", .many fun c => isUpper c || c == ' ', exactly "PRIVATE KEY-----"]),
  ("password_assignment", sequence
    [oneOf (anyCase u "password") [anyCase u "passwd", anyCase u "pwd"], .many isSpace,
      exactly "=", .many isSpace, .char isQuote, atLeast (fun c => !isQuote c) 4, .char isQuote]),
  ("bearer_token", sequence
    [anyCase u "bearer", spaces,
      atLeast (fun c => (u.variants c).any fun c => isAlnum c || "_-.=".toList.contains c) 20]),
  ("openai_key", sequence [wordBoundary u, exactly "sk-", atLeast isAlnum 20, wordBoundary u]),
  ("hashicorp_token", sequence
    [wordBoundary u, exactly "hvs.", atLeast (fun c => isAlnum c || c == '_' || c == '-') 20,
      wordBoundary u])]

/-- `_DESTRUCTIVE_PATTERNS` -/
def destructivePatterns : List (String × Regex) := [
  ("rm_rf", sequence [wordBoundary u, exactly "rm", spaces, exactly "-rf", wordBoundary u]),
  ("rm_rf_quoted", sequence
    [.char isQuote, exactly "rm", .char isQuote, .many isSpace, exactly ",", .many isSpace,
      .char isQuote, exactly "-rf", .char isQuote]),
  ("drop_database", sequence
    [wordBoundary u, anyCase u "drop", spaces,
      oneOf (anyCase u "database") [anyCase u "schema", anyCase u "table"], wordBoundary u]),
  ("truncate_table", sequence
    [wordBoundary u, anyCase u "truncate", spaces, anyCase u "table", wordBoundary u]),
  ("force_push", sequence
    [wordBoundary u, exactly "git", spaces, exactly "push", spaces, .many fun c => c != '\n',
      exactly "--force", wordBoundary u]),
  ("kubectl_delete_ns", sequence
    [wordBoundary u, exactly "kubectl", spaces, exactly "delete", spaces,
      oneOf (exactly "ns") [exactly "namespace"], wordBoundary u]),
  ("shutdown", sequence
    [wordBoundary u, oneOf (exactly "shutdown") [exactly "halt", exactly "reboot"], spaces,
      oneOf .empty [exactly "-"], .many u.isWord])]

/-- The name of the first pattern found in the content. -/
def signature (patterns : List (String × Regex)) (content : String) : Option String :=
  (patterns.find? fun e => e.2.search content.toList).map Prod.fst

end Signatures

/-- `validate_no_secret_content(content)` -/
def validateNoSecretContent (u : Unicode) (content : String) : Bool × String :=
  match signature (secretPatterns u) content with
  | some name => (false, "secret_like:" ++ name)
  | none => (true, "no_secret_signature")

/-- `validate_no_destructive_change(diff)` -/
def validateNoDestructiveChange (u : Unicode) (diff : String) : Bool × String :=
  if diff = "" then (true, "empty_diff")
  else
    match signature (destructivePatterns u) diff with
    | some name => (false, "destructive:" ++ name)
    | none => (true, "no_destructive_signature")

/-! ## What the checks mean -/

/-- The content has none of the signatures. -/
def Clean (patterns : List (String × Regex)) (content : String) : Prop :=
  ∀ e ∈ patterns, e.2.search content.toList = false

theorem signature_eq_none {patterns : List (String × Regex)} {content : String} :
    signature patterns content = none ↔ Clean patterns content := by
  unfold signature Clean
  rw [Option.map_eq_none_iff, List.find?_eq_none]
  simp

theorem clean_of_validateNoSecretContent {u : Unicode} {content : String}
    (h : (validateNoSecretContent u content).1 = true) : Clean (secretPatterns u) content := by
  unfold validateNoSecretContent at h
  rw [← signature_eq_none]
  cases hs : signature (secretPatterns u) content with
  | none => rfl
  | some name =>
    rw [hs] at h
    cases h

/-- No destructive pattern matches the empty text, so that `if not diff` decides nothing. -/
theorem consumes_destructivePatterns (u : Unicode) :
    ∀ e ∈ destructivePatterns u, e.2.consumes = true := by
  unfold destructivePatterns
  simp only [List.forall_mem_cons]
  exact ⟨rfl, rfl, rfl, rfl, rfl, rfl, rfl, (by intro e h; cases h)⟩

theorem clean_of_validateNoDestructiveChange {u : Unicode} {diff : String}
    (h : (validateNoDestructiveChange u diff).1 = true) : Clean (destructivePatterns u) diff := by
  unfold validateNoDestructiveChange at h
  by_cases hdiff : diff = ""
  · intro e he
    rw [hdiff]
    exact Text.Regex.search_nil (consumes_destructivePatterns u e he)
  · rw [if_neg hdiff] at h
    rw [← signature_eq_none]
    cases hs : signature (destructivePatterns u) diff with
    | none => rfl
    | some name =>
      rw [hs] at h
      cases h

/-- The path is relative, as far as the checks of a path go. -/
def Relative (filePath : String) : Prop :=
  normalise filePath ≠ [] ∧ isAbsolute (normalise filePath) = false

theorem startsWith_append (s t : String) : startsWith (s ++ t) s = true := by
  unfold startsWith
  rw [String.toList_append, List.isPrefixOf_iff_prefix]
  exact List.prefix_append _ _

section Refusals

variable {u : Unicode} {filePath : String} {allowed denied : List String}

theorem validateAllowedPath_of_traversal (hrel : Relative filePath)
    (hup : ['.', '.'] ∈ segments (normalise filePath)) :
    validateAllowedPath u filePath allowed denied = (false, "path_traversal") := by
  have hrelative : ¬isAbsolute (normalise filePath) = true := by
    rw [hrel.2]
    exact nofun
  unfold validateAllowedPath
  rw [if_neg hrel.1, if_neg hrelative, if_pos (List.contains_iff_mem.mpr hup)]

/-- Of a relative path that climbs nowhere, a denied glob is the reason it is refused for. -/
theorem validateAllowedPath_of_denied (hrel : Relative filePath)
    (hup : ['.', '.'] ∉ segments (normalise filePath)) {pattern : String} (hmem : pattern ∈ denied)
    (hhits : globHits u (normalise filePath) pattern = true) :
    ∃ pattern, validateAllowedPath u filePath allowed denied = (false, "denied:" ++ pattern) := by
  have hrelative : ¬isAbsolute (normalise filePath) = true := by
    rw [hrel.2]
    exact nofun
  have hno : ¬(segments (normalise filePath)).contains ['.', '.'] = true :=
    fun h => hup (List.contains_iff_mem.mp h)
  unfold validateAllowedPath
  rw [if_neg hrel.1, if_neg hrelative, if_neg hno]
  cases hfind : denied.find? (globHits u (normalise filePath)) with
  | some pattern' => exact ⟨pattern', rfl⟩
  | none => exact absurd hhits (List.find?_eq_none.mp hfind pattern hmem)

end Refusals

end AiAgentsSwd.ApprovalPolicy
