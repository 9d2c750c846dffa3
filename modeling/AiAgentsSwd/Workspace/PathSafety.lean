import AiAgentsSwd.ApprovalPolicy.PathPolicy
import AiAgentsSwd.Symlinks.Basic

/-!
# Workspace.PathSafety — where a workspace file may be written

Model of `shared/sdk/workspace_operator/path_safety.py`. A path is a text, as in the source; the
file system is a layout of symbolic links with a current directory, and `realpath` reads a text
against it. The characters that are not ASCII are put into lower case by a table.
-/

namespace AiAgentsSwd.Workspace

open ApprovalPolicy (slashes strip segments)
open Symlinks (Layout Step)

/-! ## Texts -/

/-- What `str.lower` makes of a character that is not ASCII, between these others. -/
abbrev LowerTable := (before : List Char) → Char → (after : List Char) → List Char

def lowerAfter (table : LowerTable) : (before : List Char) → List Char → List Char
  | _, [] => []
  | before, c :: rest =>
    (if c.toNat < 128 then [c.toLower] else table before c rest) ++
      lowerAfter table (c :: before) rest

/-- `s.lower()` -/
def lower (table : LowerTable) (s : List Char) : List Char := lowerAfter table [] s

/-- `s.rstrip("/")` -/
def rstripSlash (s : List Char) : List Char := (s.reverse.dropWhile (· == '/')).reverse

/-! ## The file system -/

/-- The name of a directory entry. -/
@[ext] structure Name where
  val : List Char
  ne_nil : val ≠ []
  ne_dot : val ≠ ['.']
  ne_up : val ≠ ['.', '.']
  slash_not_mem : '/' ∉ val
deriving DecidableEq

/-- The symbolic links and the current directory. -/
structure FileSystem extends Layout Name where
  cwd : List Name
  cwd_resolved : toLayout.Resolved cwd

/-- A component of a path. -/
def component (s : List Char) : Step Name :=
  if s = ['.', '.'] then .up
  else if h : s ≠ [] ∧ s ≠ ['.'] ∧ s ≠ ['.', '.'] ∧ '/' ∉ s then
    .into ⟨s, h.1, h.2.1, h.2.2.1, h.2.2.2⟩
  else .stay

/-- The components of a path. -/
def components (s : List Char) : List (Step Name) := (segments s).map component

/-- The absolute path with these names. -/
def render (p : List Name) : List Char :=
  if p = [] then ['/'] else p.flatMap fun name => '/' :: name.val

/-- `os.path.isabs(s)` -/
def isAbs (s : List Char) : Bool := s.head? == some '/'

/-- Where a path leads. -/
def FileSystem.resolve (fs : FileSystem) (s : List Char) : List Name :=
  fs.walk (if isAbs s then [] else fs.cwd) (components s)

/-- `os.path.realpath(s)` -/
def FileSystem.realpath (fs : FileSystem) (s : List Char) : List Char := render (fs.resolve s)

/-- `os.path.join(a, b)` -/
def pathJoin (a b : List Char) : List Char :=
  if isAbs b then b
  else if a = [] ∨ a.getLast? = some '/' then a ++ b
  else a ++ '/' :: b

/-! ## The safety policy -/

/-- What the module knows of its surroundings: the directory of its file, and the environment
variable `WORKSPACE_OPERATOR_ALLOWED_ROOTS`. -/
structure Surroundings where
  fs : FileSystem
  table : LowerTable
  here : List Char
  allowedRootsVar : Option (List Char)

/-- `_DISALLOWED_SEGMENTS` -/
def disallowedSegments : List (List Char) :=
  [".git".toList, ".env".toList, "secrets".toList, ".ssh".toList]

/-- `_DISALLOWED_SUFFIXES` -/
def disallowedSuffixes : List (List Char) :=
  [".key".toList, ".pem".toList, ".p12".toList, ".secret".toList]

/-- `_DISALLOWED_NAMES` -/
def disallowedNames : List (List Char) :=
  ["credentials.json".toList, "id_rsa".toList, ".npmrc".toList, ".pypirc".toList,
    ".netrc".toList]

/-- `WorkspacePathError`, one for each place where it is raised. -/
inductive WorkspacePathError where
  /-- workspace_root must not be empty -/
  | rootEmpty
  /-- workspace_root must not be the filesystem root -/
  | filesystemRoot
  /-- workspace_root must not be the repo root -/
  | repoRoot
  /-- workspace_root must not contain the repo root -/
  | containsRepo
  /-- workspace_root is not under an allowlisted root -/
  | notAllowlisted (candidate : List Char)
  /-- disallowed relative path -/
  | disallowedRelpath (relativePath : List Char)
  /-- path escapes workspace root -/
  | escapes (relativePath target : List Char)
deriving Repr, DecidableEq

variable (w : Surroundings)

/-- `REPO_ROOT` -/
def Surroundings.repoRoot : List Char :=
  w.fs.realpath (pathJoin (pathJoin (pathJoin w.here "..".toList) "..".toList) "..".toList)

/-- `DEFAULT_WORKSPACE_ROOTS` -/
def Surroundings.defaultWorkspaceRoots : List (List Char) :=
  ["/tmp/aiagents-workspaces".toList, pathJoin w.repoRoot ".generated-workspaces".toList]

/-- `allowed_roots(env)` -/
def Surroundings.allowedRoots : List (List Char) :=
  let raw := strip (w.allowedRootsVar.getD [])
  let roots :=
    if raw = [] then w.defaultWorkspaceRoots
    else ((raw.splitOn ',').map strip).filter (· ≠ [])
  roots.map w.fs.realpath

/-- `_under(child, parent)` -/
def under (child parent : List Char) : Bool :=
  let p := rstripSlash parent
  child == p || (p ++ ['/']).isPrefixOf child

/-- `validate_workspace_root(root, env=env)` -/
def Surroundings.validateWorkspaceRoot (root : List Char) :
    Except WorkspacePathError (List Char) :=
  if strip root = [] then .error .rootEmpty
  else
    let candidate := w.fs.realpath root
    if candidate = w.fs.realpath ['/'] then .error .filesystemRoot
    else if candidate = w.repoRoot then .error .repoRoot
    else if under w.repoRoot candidate then .error .containsRepo
    else if !w.allowedRoots.any (under candidate) then .error (.notAllowlisted candidate)
    else .ok candidate

/-- `is_disallowed_relpath(relative_path)` -/
def Surroundings.isDisallowedRelpath (relativePath : List Char) : Bool :=
  let rel := strip (slashes (String.ofList relativePath))
  if rel = [] then true
  else if rel.head? = some '/' ∨ rel.head? = some '~' then true
  else
    let parts := (segments rel).filter fun p => !(p == [] || p == ['.'])
    if parts.any (· == ['.', '.']) then true
    else
      let lowered := parts.map (lower w.table)
      if disallowedSegments.any lowered.contains then true
      else
        let name := lowered.getLastD []
        disallowedNames.contains name || disallowedSuffixes.any (·.isSuffixOf name)

/-- `safe_join(workspace_root, relative_path, env=env)` -/
def Surroundings.safeJoin (workspaceRoot relativePath : List Char) :
    Except WorkspacePathError (List Char) := do
  let root ← w.validateWorkspaceRoot workspaceRoot
  if w.isDisallowedRelpath relativePath then .error (.disallowedRelpath relativePath)
  else
    let target := w.fs.realpath (pathJoin root relativePath)
    if !under target root then .error (.escapes relativePath target)
    else .ok target

end AiAgentsSwd.Workspace
