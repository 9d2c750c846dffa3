import AiAgentsSwd.CodeGen.DataOnly
import AiAgentsSwd.CodeGen.WritePlan
import Mathlib.Data.List.Nodup

/-!
# CodeGen.Separate — whether tasks keep to their own workspaces

Paths are read with `.` and `..` taken out, and relative to a current directory. A file that passes
the checks lies below one of the allowed prefixes in its task's root, whatever the task id; but the
root itself is not checked. So files keep to their own workspaces exactly when no task id leads out
of the base directory, and no two ids share a root and a name (`workspaces_iff`).
-/

namespace AiAgentsSwd.CodeGen

open ApprovalPolicy (Unicode segments isSpace)
open Symlinks (Layout Step)
open Workspace (Name FileSystem pathJoin isAbs components component namesOf parts)

/-- A file system without symbolic links, in which `.` and `..` are all there is to a path. -/
def flat (cwd : List Name) : FileSystem where
  link _ := none
  ends := by
    intro p t h
    cases h
  cwd := cwd
  cwd_resolved := by
    intro q hq
    rfl

/-- The names of a path, from the root of the file system on. -/
def located (cwd : List Name) (path : List Char) : List Name := (flat cwd).resolve path

/-- Strictly below. -/
def Below (p q : List Name) : Prop := p <+: q ∧ p ≠ q

/-- The path is where a file of a task may be. -/
structure Own (cwd : List Name) (base root path : List Char) : Prop where
  inBase : Below (located cwd base) (located cwd path)
  inPrefix : ∃ allowed ∈ ApprovalPolicy.defaultAllowedPaths,
    Below (located cwd (pathJoin root allowed.toList)) (located cwd path)

section Claim

variable (u : Unicode) (printable : Char → Bool) (cwd : List Name) (env : Option String)

/-- Two requests keep to their own workspaces, and their files apart when the tasks are two. -/
structure Separate (r s : Request) : Prop where
  left : ∀ w ∈ writes u printable env r,
    Own cwd (baseDirectory env) (workspaceRootFor env r.taskId) w.fullPath
  right : ∀ w ∈ writes u printable env s,
    Own cwd (baseDirectory env) (workspaceRootFor env s.taskId) w.fullPath
  apart : r.taskId ≠ s.taskId → ∀ w ∈ writes u printable env r, ∀ v ∈ writes u printable env s,
    located cwd w.fullPath ≠ located cwd v.fullPath

/-- The task's root is the base directory or below it; or else it is above it, and the way back
down to the base directory and further is the path of every file that is written. -/
def Keeps (r : Request) : Prop :=
  ∀ f, Accepted u printable env r f →
    located cwd (baseDirectory env) <+: located cwd (workspaceRootFor env r.taskId) ∨
      ∃ rest, located cwd (baseDirectory env) =
          located cwd (workspaceRootFor env r.taskId) ++ rest ∧
        Below rest (namesOf f.relativePath.toList)

/-- Two requests have the same template and a file of the same role passes for both, and: the roots
and the slugs are the same; or, for documents, the roots and the paths, one after the other, spell
the same names. -/
def Clash (r s : Request) : Prop :=
  (planOf u printable r).template = (planOf u printable s).template ∧
    ∃ (k : Nat) (f g : GeneratedFile), (planOf u printable r).files[k]? = some f ∧
      (planOf u printable s).files[k]? = some g ∧ Accepted u printable env r f ∧
        Accepted u printable env s g ∧
          if (planOf u printable r).template = .documentation then
            located cwd (workspaceRootFor env r.taskId) ++ namesOf f.relativePath.toList =
              located cwd (workspaceRootFor env s.taskId) ++ namesOf g.relativePath.toList
          else located cwd (workspaceRootFor env r.taskId) =
              located cwd (workspaceRootFor env s.taskId) ∧
            slugify u r.taskId.toList = slugify u s.taskId.toList

end Claim

/-! ## Names -/

section Names

variable {cwd : List Name}

theorem flat_resolved (p : List Name) : (flat cwd).Resolved p := fun _ _ => rfl

theorem components_cons_slash (a b : List Char) :
    components (a ++ '/' :: b) = components a ++ components b := by
  unfold components segments
  rw [List.splitOn_append_cons_self, List.map_append]

theorem namesOf_cons_slash (a b : List Char) :
    namesOf (a ++ '/' :: b) = namesOf a ++ namesOf b := by
  unfold namesOf
  rw [components_cons_slash, List.filterMap_append]

/-- A relative path is walked from where the first one leads. -/
theorem located_pathJoin (a : List Char) {b : List Char} (hb : isAbs b = false) :
    located cwd (pathJoin a b) = (flat cwd).walk (located cwd a) (components b) := by
  unfold pathJoin
  rw [hb, if_neg Bool.false_ne_true]
  split_ifs with hend
  · rcases hend with hnil | hslash
    · rw [hnil, List.nil_append]
      unfold located FileSystem.resolve
      rw [hb]
      rfl
    · -- the last component of `a` is empty
      rcases List.getLast?_eq_some_iff.1 hslash with ⟨a', ha'⟩
      have hcomponents : components (a' ++ ['/']) = components a' ++ [.stay] :=
        components_cons_slash a' []
      have habs : isAbs (a' ++ '/' :: b) = isAbs (a' ++ ['/']) := by
        cases a' with
        | nil => rfl
        | cons c a' => rfl
      unfold located FileSystem.resolve
      rw [ha', List.append_assoc, List.singleton_append, habs, components_cons_slash,
        hcomponents, Layout.walk_append, Layout.walk_append]
      rfl
  · have hne : a ≠ [] := fun h => hend (Or.inl h)
    have habs : isAbs (a ++ '/' :: b) = isAbs a := by
      cases a with
      | nil => exact absurd rfl hne
      | cons c a => rfl
    unfold located FileSystem.resolve
    rw [habs, components_cons_slash, Layout.walk_append]

/-- A path that only goes down ends at its names below the first one. -/
theorem located_down (a : List Char) {b : List Char} (hb : isAbs b = false)
    (hdown : ['.', '.'] ∉ segments b) :
    located cwd (pathJoin a b) = located cwd a ++ namesOf b := by
  rw [located_pathJoin a hb, (Workspace.names_of_down hdown).2]
  exact Layout.walk_names (flat_resolved _)

/-- The names of a text that is one name. -/
theorem namesOf_name {s : List Char} (h : s ≠ [] ∧ s ≠ ['.'] ∧ s ≠ ['.', '.'] ∧ '/' ∉ s) :
    namesOf s = [⟨s, h.1, h.2.1, h.2.2.1, h.2.2.2⟩] := by
  have hsegments : segments s = [s] := List.splitOn_eq_singleton h.2.2.2
  have hcomponent : component s = .into ⟨s, h.1, h.2.1, h.2.2.1, h.2.2.2⟩ := by
    unfold component
    rw [if_neg h.2.2.1, dif_pos h]
  unfold namesOf components
  rw [hsegments, List.map_singleton, hcomponent]
  rfl

theorem below_append_iff {p q n : List Name} (hn : n ≠ []) : Below p (q ++ n) ↔
    p <+: q ∨ ∃ rest, p = q ++ rest ∧ Below rest n := by
  constructor
  · intro h
    rcases h.1 with ⟨t, ht⟩
    rcases List.append_eq_append_iff.1 ht with ⟨rest, hq, -⟩ | ⟨rest, hp, hrest⟩
    · exact Or.inl ⟨rest, hq.symm⟩
    · refine Or.inr ⟨rest, hp, ⟨t, hrest.symm⟩, ?_⟩
      intro heq
      exact h.2 (by rw [hp, heq])
  · intro h
    rcases h with hp | ⟨rest, hp, hrest⟩
    · refine ⟨hp.trans (List.prefix_append q n), ?_⟩
      intro heq
      have hlen := hp.length_le
      rw [heq, List.length_append] at hlen
      have hpos := List.length_pos_iff.2 hn
      omega
    · rw [hp]
      refine ⟨(List.prefix_append_right_inj q).2 hrest.1, ?_⟩
      intro heq
      exact hrest.2 (List.append_cancel_left heq)

end Names

/-! ## The files of a plan -/

/-- Where a template puts a file: two directories, and what stands before and after the name. -/
structure Place where
  top : String
  sub : String
  before : String
  ending : String
deriving Repr, DecidableEq

def places : Family → List Place
  | .documentation => [⟨"docs", "generated", "", ".md"⟩]
  | .demoApi => [⟨"apps", "demo-generated", "", "_api.py"⟩, ⟨"tests", "generated", "test_", "_api.py"⟩]
  | .simpleUtility =>
    [⟨"apps", "demo-generated", "", "_utility.py"⟩, ⟨"tests", "generated", "test_", "_utility.py"⟩]
  | .blocked => []

/-- The directories, with a slash at the end. -/
def Place.directory (p : Place) : List Char :=
  p.top.toList ++ '/' :: (p.sub.toList ++ '/' :: [])

def Place.last (p : Place) (core : List Char) : List Char :=
  p.before.toList ++ core ++ p.ending.toList

def Place.path (p : Place) (core : List Char) : List Char :=
  p.top.toList ++ '/' :: (p.sub.toList ++ '/' :: p.last core)

section Files

variable {u : Unicode} {printable : Char → Bool} {cwd : List Name} {env : Option String}

/-- What a file is named by. -/
def coreOf (u : Unicode) (family : Family) (taskId : List Char) : List Char :=
  if family = .documentation then taskId else slugify u taskId

theorem paths_generate (u : Unicode) (printable : Char → Bool) (family : Family) (taskId description requestType : List Char) :
    (generate u printable family taskId description requestType).map
        (fun f => f.relativePath.toList) =
      (places family).map fun p => p.path (coreOf u family taskId) := by
  have hdocs : "docs/generated/".toList = "docs".toList ++ '/' :: ("generated".toList ++ ['/']) := by
    decide
  have happs : "apps/demo-generated/".toList =
      "apps".toList ++ '/' :: ("demo-generated".toList ++ ['/']) := by decide
  have htests : "tests/generated/test_".toList =
      "tests".toList ++ '/' :: ("generated".toList ++ '/' :: "test_".toList) := by decide
  have hslash : "/".toList = ['/'] := by decide
  have hapi : "_api.py".toList = "_api".toList ++ ".py".toList := by decide
  have hutility : "_utility.py".toList = "_utility".toList ++ ".py".toList := by decide
  cases family with
  | documentation =>
    simp [generate, places, Place.path, Place.last, coreOf, hdocs, hslash,
      -String.reduceToList]
  | demoApi =>
    simp [generate, places, Place.path, Place.last, coreOf, pythonPaths, sources, happs, htests,
      hapi, hslash, -String.reduceToList]
  | simpleUtility =>
    simp [generate, places, Place.path, Place.last, coreOf, pythonPaths, sources, happs, htests,
      hutility, hslash, -String.reduceToList]
  | blocked => rfl

theorem files_planOf (r : Request) : (planOf u printable r).files =
    generate u printable (planOf u printable r).template r.taskId.toList r.description.toList
      r.requestType.toList := by
  unfold planOf planGeneration
  dsimp only
  split_ifs
  · rfl
  · rfl
  · rfl

/-- Every file of a plan is at its place. -/
theorem place_of_file {r : Request} {k : Nat} {f : GeneratedFile}
    (h : (planOf u printable r).files[k]? = some f) :
    ∃ p, (places (planOf u printable r).template)[k]? = some p ∧
      f.relativePath.toList = p.path (coreOf u (planOf u printable r).template r.taskId.toList) := by
  have hpaths := congrArg (·[k]?) (paths_generate u printable
    (planOf u printable r).template r.taskId.toList r.description.toList r.requestType.toList)
  rw [← files_planOf, List.getElem?_map, List.getElem?_map, h, Option.map_some] at hpaths
  rcases Option.map_eq_some_iff.1 hpaths.symm with ⟨p, hp, hpath⟩
  exact ⟨p, hp, hpath.symm⟩

/-- The place of a file whose directories are among the allowed prefixes. -/
structure Place.Good (p : Place) : Prop where
  top : p.top.toList ≠ [] ∧ p.top.toList ≠ ['.'] ∧ p.top.toList ≠ ['.', '.'] ∧ '/' ∉ p.top.toList
  sub : p.sub.toList ≠ [] ∧ p.sub.toList ≠ ['.'] ∧ p.sub.toList ≠ ['.', '.'] ∧ '/' ∉ p.sub.toList
  first : ∃ c s, p.top.toList = c :: s ∧ isSpace c = false ∧ c ≠ '.'
  ending : '/' ∉ p.ending.toList ∧ 3 ≤ p.ending.toList.length
  allowed : String.ofList p.directory ∈ ApprovalPolicy.defaultAllowedPaths

theorem good_places (family : Family) : ∀ p ∈ places family, p.Good := by
  cases family with
  | documentation =>
    intro p hp
    rw [List.mem_singleton.1 hp]
    exact ⟨by decide, by decide, ⟨'d', "ocs".toList, by decide⟩, by decide, by decide⟩
  | demoApi =>
    intro p hp
    rcases List.mem_pair.1 hp with hp | hp
    · rw [hp]
      exact ⟨by decide, by decide, ⟨'a', "pps".toList, by decide⟩, by decide, by decide⟩
    · rw [hp]
      exact ⟨by decide, by decide, ⟨'t', "ests".toList, by decide⟩, by decide, by decide⟩
  | simpleUtility =>
    intro p hp
    rcases List.mem_pair.1 hp with hp | hp
    · rw [hp]
      exact ⟨by decide, by decide, ⟨'a', "pps".toList, by decide⟩, by decide, by decide⟩
    · rw [hp]
      exact ⟨by decide, by decide, ⟨'t', "ests".toList, by decide⟩, by decide, by decide⟩
  | blocked =>
    intro p hp
    cases hp

/-! ### The names of a path -/

/-- The last name of a path ends as the path does. -/
theorem namesOf_ending (a : List Char) {e : List Char} (he : '/' ∉ e) (hlen : 3 ≤ e.length) :
    ∃ init z name, namesOf (a ++ e) = init ++ [name] ∧ name.val = z ++ e := by
  rcases Text.splitOn_append_of_not_mem a he with ⟨init, z, ha, hae⟩
  have hz : '/' ∉ z := by
    have hmem : z ∈ a.splitOn '/' := by
      rw [ha]
      simp
    exact Text.not_mem_of_mem_splitOn hmem
  have hlong : 3 ≤ (z ++ e).length := by
    rw [List.length_append]
    omega
  have hname : z ++ e ≠ [] ∧ z ++ e ≠ ['.'] ∧ z ++ e ≠ ['.', '.'] ∧ '/' ∉ z ++ e := by
    refine ⟨?_, ?_, ?_, ?_⟩
    · intro h
      rw [h] at hlong
      simp at hlong
    · intro h
      rw [h] at hlong
      simp at hlong
    · intro h
      rw [h] at hlong
      simp at hlong
    · intro h
      rcases List.mem_append.1 h with h | h
      · exact hz h
      · exact he h
  have hcomponent : component (z ++ e) =
      .into ⟨z ++ e, hname.1, hname.2.1, hname.2.2.1, hname.2.2.2⟩ := by
    unfold component
    rw [if_neg hname.2.2.1, dif_pos hname]
  refine ⟨(init.map component).filterMap Step.name?, z,
    ⟨z ++ e, hname.1, hname.2.1, hname.2.2.1, hname.2.2.2⟩, ?_, rfl⟩
  unfold namesOf components segments
  rw [hae, List.map_append, List.filterMap_append, List.map_singleton, hcomponent]
  rfl

variable {p : Place}

/-- The two directories of a place. -/
def Place.Good.names (h : p.Good) : List Name := [
  ⟨p.top.toList, h.top.1, h.top.2.1, h.top.2.2.1, h.top.2.2.2⟩,
  ⟨p.sub.toList, h.sub.1, h.sub.2.1, h.sub.2.2.1, h.sub.2.2.2⟩]

theorem namesOf_path (h : p.Good) (core : List Char) :
    namesOf (p.path core) = h.names ++ namesOf (p.last core) := by
  unfold Place.path
  rw [namesOf_cons_slash, namesOf_cons_slash, namesOf_name h.top, namesOf_name h.sub]
  rfl

theorem namesOf_directory (h : p.Good) : namesOf p.directory = h.names := by
  unfold Place.directory
  rw [namesOf_cons_slash, namesOf_cons_slash, namesOf_name h.top, namesOf_name h.sub]
  rfl

theorem namesOf_last (h : p.Good) (core : List Char) :
    ∃ init z name, namesOf (p.last core) = init ++ [name] ∧
      name.val = z ++ p.ending.toList :=
  namesOf_ending (p.before.toList ++ core) h.ending.1 h.ending.2

theorem namesOf_last_ne_nil (h : p.Good) (core : List Char) : namesOf (p.last core) ≠ [] := by
  rcases namesOf_last h core with ⟨init, z, name, heq, -⟩
  rw [heq]
  simp

theorem isAbs_path (h : p.Good) (rest : List Char) : isAbs (p.top.toList ++ rest) = false := by
  rcases h.first with ⟨c, s, htop, -⟩
  have hc : c ≠ '/' := by
    intro hc
    apply h.top.2.2.2
    rw [htop, hc]
    exact List.mem_cons_self
  rw [htop, List.cons_append]
  simpa [isAbs] using hc

theorem down_directory (h : p.Good) : ['.', '.'] ∉ segments p.directory := by
  have hsegments : segments p.directory = [p.top.toList, p.sub.toList, []] := by
    unfold segments Place.directory
    rw [List.splitOn_append_cons_self_of_not_mem h.top.2.2.2,
      List.splitOn_append_cons_self_of_not_mem h.sub.2.2.2]
    rfl
  rw [hsegments]
  intro hup
  simp only [List.mem_cons, List.not_mem_nil, or_false] at hup
  rcases hup with hup | hup | hup
  · exact h.top.2.2.1 hup.symm
  · exact h.sub.2.2.1 hup.symm
  · cases hup

theorem dropDotSlash_of_ne {c : Char} (hc : c ≠ '.') (s : List Char) :
    ApprovalPolicy.dropDotSlash (c :: s) = c :: s := by
  unfold ApprovalPolicy.dropDotSlash
  split
  · next heq =>
    rw [List.cons.injEq] at heq
    exact absurd heq.1 hc
  · rfl

/-- Nothing is cut off at the front of a path that a template makes. -/
theorem normalise_path (h : p.Good) {core : List Char} {path : String}
    (hpath : path.toList = p.path core) :
    ApprovalPolicy.normalise path = Workspace.tested (p.path core) := by
  rcases h.first with ⟨c, s, htop, hspace, hdot⟩
  have hslashed : ∃ c' rest, Workspace.slashed (p.path core) = c' :: rest ∧ isSpace c' = false ∧
      c' ≠ '.' := by
    refine ⟨if c = '\\' then '/' else c,
      Workspace.slashed (s ++ '/' :: (p.sub.toList ++ '/' :: p.last core)), ?_, ?_, ?_⟩
    · rw [Place.path, htop, Workspace.slashed_eq, Workspace.slashed_eq, List.cons_append,
        List.map_cons]
    · split_ifs
      · decide
      · exact hspace
    · split_ifs
      · decide
      · exact hdot
  rcases hslashed with ⟨c', rest, heq, hspace', hdot'⟩
  have htested : Workspace.tested (p.path core) =
      c' :: (rest.reverse.dropWhile isSpace).reverse := by
    have hstrip := Workspace.strip_append [] (List.cons_ne_nil c' [])
      (by simpa using hspace') rest
    rw [Workspace.tested, heq]
    simpa using hstrip
  have hnormalise : ApprovalPolicy.normalise path =
      ApprovalPolicy.dropDotSlash (Workspace.tested (p.path core)) := by
    unfold ApprovalPolicy.normalise Workspace.tested Workspace.slashed
    rw [← hpath, String.ofList_toList]
  rw [hnormalise, htested, dropDotSlash_of_ne hdot']

/-- A path that is let pass does not go up. -/
theorem down_of_allowed (h : p.Good) {core : List Char} {path : String}
    (hpath : path.toList = p.path core)
    (hok : (ApprovalPolicy.validateAllowedPath u path ApprovalPolicy.defaultAllowedPaths
      ApprovalPolicy.defaultDeniedPaths).1 = true) :
    ['.', '.'] ∉ segments (p.path core) := by
  intro hup
  have htested := Workspace.mem_segments_tested hup Workspace.legible_dots
  rw [← normalise_path h hpath] at htested
  have hcontains : (segments (ApprovalPolicy.normalise path)).contains ['.', '.'] = true :=
    List.contains_iff_mem.2 htested
  unfold ApprovalPolicy.validateAllowedPath at hok
  dsimp only at hok
  rw [if_pos hcontains] at hok
  split_ifs at hok

/-! ### Where the files are -/

/-- A file that passes the checks is below its task's root, at its place. -/
theorem located_accepted (cwd : List Name) {r : Request} {k : Nat} {f : GeneratedFile}
    (hfile : (planOf u printable r).files[k]? = some f) (haccepted : Accepted u printable env r f) :
    ∃ p, (places (planOf u printable r).template)[k]? = some p ∧ ∃ hgood : p.Good,
      namesOf f.relativePath.toList = hgood.names ++
        namesOf (p.last (coreOf u (planOf u printable r).template r.taskId.toList)) ∧
      located cwd (pathJoin (workspaceRootFor env r.taskId) f.relativePath.toList) =
        located cwd (workspaceRootFor env r.taskId) ++ namesOf f.relativePath.toList := by
  rcases place_of_file hfile with ⟨p, hp, hpath⟩
  have hgood := good_places _ p (List.mem_of_getElem? hp)
  have hallowed : (ApprovalPolicy.validateAllowedPath u f.relativePath
      ApprovalPolicy.defaultAllowedPaths ApprovalPolicy.defaultDeniedPaths).1 = true := by
    have hnone := haccepted.2.2
    unfold refusal at hnone
    by_contra hno
    rw [Bool.not_eq_true] at hno
    simp [hno] at hnone
  refine ⟨p, hp, hgood, ?_, ?_⟩
  · rw [hpath]
    exact namesOf_path hgood _
  · rw [hpath]
    exact located_down _ (isAbs_path hgood _) (down_of_allowed hgood hpath hallowed)

theorem own_accepted_iff {r : Request} {f : GeneratedFile}
    (haccepted : Accepted u printable env r f) :
    Own cwd (baseDirectory env) (workspaceRootFor env r.taskId)
        (pathJoin (workspaceRootFor env r.taskId) f.relativePath.toList) ↔
      located cwd (baseDirectory env) <+: located cwd (workspaceRootFor env r.taskId) ∨
        ∃ rest, located cwd (baseDirectory env) =
            located cwd (workspaceRootFor env r.taskId) ++ rest ∧
          Below rest (namesOf f.relativePath.toList) := by
  rcases List.getElem?_of_mem haccepted.2.1 with ⟨k, hfile⟩
  rcases located_accepted cwd hfile haccepted with ⟨p, hp, hgood, hnames, hlocated⟩
  have hlast := namesOf_last_ne_nil hgood
    (coreOf u (planOf u printable r).template r.taskId.toList)
  have hne : namesOf f.relativePath.toList ≠ [] := by
    rw [hnames]
    simp [Place.Good.names]
  rw [← below_append_iff hne, ← hlocated]
  constructor
  · intro h
    exact h.inBase
  · intro h
    refine ⟨h, String.ofList p.directory, hgood.allowed, ?_⟩
    have hdirectory : located cwd (pathJoin (workspaceRootFor env r.taskId) p.directory) =
        located cwd (workspaceRootFor env r.taskId) ++ hgood.names := by
      rw [← namesOf_directory hgood]
      exact located_down _ (isAbs_path hgood _) (down_directory hgood)
    rw [String.toList_ofList, hdirectory, hlocated, hnames, ← List.append_assoc]
    refine ⟨List.prefix_append _ _, ?_⟩
    intro heq
    exact hlast (List.append_right_eq_self.1 heq.symm)

theorem nul_mem_pathJoin {a b : List Char} (h : Python.nul ∈ b) : Python.nul ∈ pathJoin a b := by
  unfold pathJoin
  split_ifs
  · exact h
  · exact List.mem_append_right _ h
  · exact List.mem_append_right _ (List.mem_cons_of_mem _ h)

theorem nul_of_mem_pathJoin {a b : List Char} (h : Python.nul ∈ pathJoin a b) :
    Python.nul ∈ a ∨ Python.nul ∈ b := by
  unfold pathJoin at h
  split_ifs at h
  · exact Or.inr h
  · exact List.mem_append.1 h
  · rcases List.mem_append.1 h with h | h
    · exact Or.inl h
    · rcases List.mem_cons.1 h with h | h
      · exact absurd h (by decide)
      · exact Or.inr h

/-- A NUL in the path of a file comes from the task id, and is in the root too. -/
theorem nul_path {r : Request} (hroot : Python.nul ∉ workspaceRootFor env r.taskId)
    {f : GeneratedFile} (hf : f ∈ (planOf u printable r).files) :
    Python.nul ∉ pathJoin (workspaceRootFor env r.taskId) f.relativePath.toList := by
  intro hnul
  rcases List.getElem?_of_mem hf with ⟨k, hfile⟩
  rcases place_of_file hfile with ⟨p, hp, hpath⟩
  have hcore : Python.nul ∉ coreOf u (planOf u printable r).template r.taskId.toList := by
    unfold coreOf
    split_ifs
    · exact fun h => hroot (nul_mem_pathJoin h)
    · intro h
      exact absurd (mem_slugify h) (by decide)
  have hplaces : ∀ family, ∀ p ∈ places family, Python.nul ∉ p.top.toList ∧
      Python.nul ∉ p.sub.toList ∧ Python.nul ∉ p.before.toList ∧
        Python.nul ∉ p.ending.toList := by
    intro family
    cases family <;> decide
  rcases hplaces _ p (List.mem_of_getElem? hp) with ⟨htop, hsub, hbefore, hending⟩
  have hslash : Python.nul ≠ '/' := by decide
  rcases nul_of_mem_pathJoin hnul with h | h
  · exact hroot h
  · rw [hpath] at h
    simp [Place.path, Place.last, htop, hsub, hbefore, hending, hslash, hcore] at h

theorem mem_writes {r : Request} (w : WrittenFile) : w ∈ writes u printable env r ↔
    ∃ f, Accepted u printable env r f ∧ w = ⟨f.relativePath,
      pathJoin (workspaceRootFor env r.taskId) f.relativePath.toList, f.changeType, f.content⟩ := by
  have hdefault : ApprovalPolicy.defaultAllowedPaths ≠ [] := by decide
  unfold writes writePlan
  dsimp only
  rw [Option.getD_some, if_neg hdefault]
  split_ifs with hroot
  · constructor
    · intro h
      cases h
    · intro h
      rcases h with ⟨f, haccepted, -⟩
      exact absurd hroot haccepted.1
  · rw [mem_writeFiles fun f hf => nul_path hroot hf]
    constructor
    · intro h
      rcases h with ⟨f, hf, hnone, hw⟩
      exact ⟨f, ⟨hroot, hf, hnone⟩, hw⟩
    · intro h
      rcases h with ⟨f, haccepted, hw⟩
      exact ⟨f, haccepted.2.1, haccepted.2.2, hw⟩

theorem own_writes_iff (r : Request) : (∀ w ∈ writes u printable env r,
    Own cwd (baseDirectory env) (workspaceRootFor env r.taskId) w.fullPath) ↔
      Keeps u printable cwd env r := by
  constructor
  · intro h f haccepted
    exact (own_accepted_iff haccepted).1 (h _ ((mem_writes _).2 ⟨f, haccepted, rfl⟩))
  · intro h w hw
    rcases (mem_writes w).1 hw with ⟨f, haccepted, heq⟩
    rw [heq]
    exact (own_accepted_iff haccepted).2 (h f haccepted)

/-! ### Two files in one place -/

def endingOf : Family → String
  | .documentation => ".md"
  | .demoApi => "_api.py"
  | .simpleUtility => "_utility.py"
  | .blocked => ""

theorem ending_place {family : Family} {p : Place} (hp : p ∈ places family) :
    p.ending = endingOf family ∧ family ≠ .blocked := by
  cases family with
  | documentation =>
    rw [List.mem_singleton.1 hp]
    exact ⟨rfl, by decide⟩
  | demoApi =>
    rcases List.mem_pair.1 hp with hp | hp
    · rw [hp]
      exact ⟨rfl, by decide⟩
    · rw [hp]
      exact ⟨rfl, by decide⟩
  | simpleUtility =>
    rcases List.mem_pair.1 hp with hp | hp
    · rw [hp]
      exact ⟨rfl, by decide⟩
    · rw [hp]
      exact ⟨rfl, by decide⟩
  | blocked => cases hp

/-- The endings of the templates differ. -/
theorem ending_inj {family family' : Family} (h : family ≠ .blocked) (h' : family' ≠ .blocked)
    {a b : List Char} (heq : a ++ (endingOf family).toList = b ++ (endingOf family').toList) :
    family = family' := by
  have hreverse := congrArg List.reverse heq
  cases family
  all_goals cases family'
  all_goals first
    | rfl
    | exact absurd rfl h
    | exact absurd rfl h'
    | simp [endingOf] at hreverse

/-- The two files of a template of Python are in different directories. -/
theorem place_inj {family : Family} {k k' : Nat} {p p' : Place}
    (hp : (places family)[k]? = some p) (hp' : (places family)[k']? = some p')
    (htop : p.top = p'.top) : k = k' := by
  have hnodup : ∀ family, ((places family).map Place.top).Nodup := by
    intro family
    cases family <;> decide
  have hk : ((places family).map Place.top)[k]? = some p.top := by
    rw [List.getElem?_map, hp]
    rfl
  have hk' : ((places family).map Place.top)[k']? = some p.top := by
    rw [List.getElem?_map, hp', htop]
    rfl
  rcases List.getElem?_eq_some_iff.1 hk with ⟨hlt, heq⟩
  rcases List.getElem?_eq_some_iff.1 hk' with ⟨hlt', heq'⟩
  exact (hnodup family).getElem_inj_iff.1 (heq.trans heq'.symm)

/-- The last part of a file named by a slug is one name. -/
theorem namesOf_last_slug {family : Family} {p : Place}
    (hp : p ∈ places family) (value : List Char) :
    ∃ name : Name, namesOf (p.last (slugify u value)) = [name] ∧
      name.val = p.last (slugify u value) := by
  have hplaces : ∀ family, ∀ p ∈ places family, '/' ∉ p.before.toList ∧ '/' ∉ p.ending.toList ∧
      3 ≤ p.ending.toList.length := by
    intro family
    cases family <;> decide
  rcases hplaces family p hp with ⟨hbefore, hending, hlen⟩
  have hslug : '/' ∉ slugify u value := by
    intro h
    exact absurd (mem_slugify h) (by decide)
  have hlong : 3 ≤ (p.last (slugify u value)).length := by
    rw [Place.last, List.length_append]
    omega
  have hname : p.last (slugify u value) ≠ [] ∧ p.last (slugify u value) ≠ ['.'] ∧
      p.last (slugify u value) ≠ ['.', '.'] ∧ '/' ∉ p.last (slugify u value) := by
    refine ⟨?_, ?_, ?_, ?_⟩
    · intro h
      rw [h] at hlong
      simp at hlong
    · intro h
      rw [h] at hlong
      simp at hlong
    · intro h
      rw [h] at hlong
      simp at hlong
    · simp [Place.last, hbefore, hending, hslug]
  exact ⟨_, namesOf_name hname, rfl⟩

/-- When two files are one: of the same template and role, and for documents the names are the
same, for code the roots and the slugs. -/
theorem located_eq_iff {r s : Request} {k k' : Nat} {f g : GeneratedFile}
    (hfile : (planOf u printable r).files[k]? = some f) (hf : Accepted u printable env r f)
    (hfile' : (planOf u printable s).files[k']? = some g) (hg : Accepted u printable env s g) :
    located cwd (pathJoin (workspaceRootFor env r.taskId) f.relativePath.toList) =
        located cwd (pathJoin (workspaceRootFor env s.taskId) g.relativePath.toList) ↔
      (planOf u printable r).template = (planOf u printable s).template ∧ k = k' ∧
        if (planOf u printable r).template = .documentation then
          located cwd (workspaceRootFor env r.taskId) ++ namesOf f.relativePath.toList =
            located cwd (workspaceRootFor env s.taskId) ++ namesOf g.relativePath.toList
        else located cwd (workspaceRootFor env r.taskId) =
            located cwd (workspaceRootFor env s.taskId) ∧
          slugify u r.taskId.toList = slugify u s.taskId.toList := by
  rcases located_accepted cwd hfile hf with ⟨p, hp, hgood, hnames, hlocated⟩
  rcases located_accepted cwd hfile' hg with ⟨p', hp', hgood', hnames', hlocated'⟩
  rw [hlocated, hlocated']
  constructor
  · intro heq
    -- the last names end as their templates do
    have hfamily : (planOf u printable r).template = (planOf u printable s).template := by
      rcases namesOf_last hgood (coreOf u (planOf u printable r).template r.taskId.toList)
        with ⟨init, z, name, hlast, hval⟩
      rcases namesOf_last hgood' (coreOf u (planOf u printable s).template s.taskId.toList)
        with ⟨init', z', name', hlast', hval'⟩
      have hboth := congrArg List.getLast? heq
      rw [hnames, hnames', hlast, hlast'] at hboth
      simp only [← List.append_assoc, List.getLast?_append, List.getLast?_singleton,
        Option.some_or, Option.some.injEq] at hboth
      have hends := ending_place (List.mem_of_getElem? hp)
      have hends' := ending_place (List.mem_of_getElem? hp')
      apply ending_inj hends.2 hends'.2
      rw [← hends.1, ← hends'.1, ← hval, ← hval', hboth]
    refine ⟨hfamily, ?_⟩
    split_ifs with hdoc
    · refine ⟨?_, heq⟩
      rw [hdoc] at hp
      rw [← hfamily, hdoc] at hp'
      have hk : k < 1 := (List.getElem?_eq_some_iff.1 hp).1
      have hk' : k' < 1 := (List.getElem?_eq_some_iff.1 hp').1
      omega
    · rw [← hfamily] at hp'
      rw [← hfamily, coreOf, if_neg hdoc] at hnames'
      rw [coreOf, if_neg hdoc] at hnames
      rcases namesOf_last_slug (u := u) (List.mem_of_getElem? hp) r.taskId.toList
        with ⟨name, hname, hval⟩
      rcases namesOf_last_slug (u := u) (List.mem_of_getElem? hp') s.taskId.toList
        with ⟨name', hname', hval'⟩
      rw [hnames, hnames', hname, hname'] at heq
      have hparts := List.append_inj' heq (by simp [Place.Good.names])
      have htops := hparts.2
      simp only [Place.Good.names, List.cons_append, List.nil_append, List.cons.injEq,
        Workspace.Name.mk.injEq, and_true] at htops
      have hk := place_inj hp hp' (String.toList_injective htops.1)
      refine ⟨hk, hparts.1, ?_⟩
      rw [hk] at hp
      have hplace : p = p' := Option.some.inj (hp.symm.trans hp')
      have hlast := congrArg Workspace.Name.val htops.2.2
      rw [hval, hval', hplace, Place.last, Place.last] at hlast
      exact List.append_cancel_left (List.append_cancel_right hlast)
  · intro h
    rcases h with ⟨hfamily, hk, hrest⟩
    split_ifs at hrest with hdoc
    · exact hrest
    · rw [hk, hfamily] at hp
      have hplace : p = p' := Option.some.inj (hp.symm.trans hp')
      rw [hrest.1, hnames, hnames', ← hfamily, coreOf, coreOf, if_neg hdoc, if_neg hdoc, hrest.2]
      subst hplace
      rfl

end Files

/-- Two requests keep to their own workspaces and apart exactly when neither id leads out of the
base directory and two different ids do not clash. -/
theorem workspaces_iff (u : Unicode) (printable : Char → Bool) (cwd : List Name)
    (env : Option String) (r s : Request) : Separate u printable cwd env r s ↔
      Keeps u printable cwd env r ∧ Keeps u printable cwd env s ∧
        (r.taskId ≠ s.taskId → ¬Clash u printable cwd env r s) := by
  constructor
  · intro h
    refine ⟨(own_writes_iff r).1 h.left, (own_writes_iff s).1 h.right, ?_⟩
    intro hne hclash
    rcases hclash with ⟨hfamily, k, f, g, hfile, hfile', hf, hg, hsame⟩
    refine h.apart hne _ ((mem_writes _).2 ⟨f, hf, rfl⟩) _ ((mem_writes _).2 ⟨g, hg, rfl⟩) ?_
    exact (located_eq_iff hfile hf hfile' hg).2 ⟨hfamily, rfl, hsame⟩
  · intro h
    refine ⟨(own_writes_iff r).2 h.1, (own_writes_iff s).2 h.2.1, ?_⟩
    intro hne w hw v hv heq
    rcases (mem_writes w).1 hw with ⟨f, hf, hwf⟩
    rcases (mem_writes v).1 hv with ⟨g, hg, hvg⟩
    rcases List.getElem?_of_mem hf.2.1 with ⟨k, hfile⟩
    rcases List.getElem?_of_mem hg.2.1 with ⟨k', hfile'⟩
    rw [hwf, hvg] at heq
    rcases (located_eq_iff hfile hf hfile' hg).1 heq with ⟨hfamily, hk, hsame⟩
    rw [← hk] at hfile'
    exact h.2.2 hne ⟨hfamily, k, f, g, hfile, hfile', hf, hg, hsame⟩

/-! ### A run -/

section Escape

/-- A text is the letters it is written with. -/
theorem text_eq (letters : List Char) : (String.ofList letters).toList = letters :=
  String.toList_ofList

theorem append_eq {a b a' b' : List Char} (ha : a = a') (hb : b = b') : a ++ b = a' ++ b' := by
  rw [ha, hb]

theorem accepts_of_letters {content letters : List Char} (h : content = letters)
    (hclean : ∀ e ∈ ApprovalPolicy.secretPatterns ascii, e.2.search letters = false) :
    (ApprovalPolicy.validateNoSecretContent ascii (String.ofList content)).1 = true := by
  have hnone : ApprovalPolicy.signature (ApprovalPolicy.secretPatterns ascii)
      (String.ofList content) = none := by
    rw [ApprovalPolicy.signature_eq_none]
    unfold ApprovalPolicy.Clean
    rw [String.toList_ofList, h]
    exact hclean
  unfold ApprovalPolicy.validateNoSecretContent
  rw [hnone]

/-- A task whose id is an absolute path. -/
def srvRequest : Request := ⟨"/srv/x", "docs", "docs", none⟩

theorem clean_srvRequest : (ApprovalPolicy.validateNoSecretContent ascii (String.ofList
    (docsTemplate "/srv/x".toList "docs".toList "docs".toList))).1 = true := by
  have hdesc : ApprovalPolicy.strip "docs".toList = "docs".toList := by decide +kernel
  have hne : "docs".toList ≠ [] := by decide +kernel
  unfold docsTemplate
  dsimp only
  simp only [hdesc, if_neg hne]
  apply accepts_of_letters
  · repeat' first
      | exact text_eq _
      | apply append_eq
  · decide +kernel

/-- The document of an absolute id is written where the id says. -/
theorem srvRequest_escapes :
    ¬Separate ascii asciiPrintable [] none srvRequest srvRequest := by
  have hfiles : (planOf ascii asciiPrintable srvRequest).files = [{
      relativePath := String.ofList ("docs/generated/".toList ++ "/srv/x".toList ++ ".md".toList)
      content := String.ofList (docsTemplate "/srv/x".toList "docs".toList "docs".toList) }] := by
    have htemplate : (planOf ascii asciiPrintable srvRequest).template = .documentation := by
      decide +kernel
    rw [files_planOf, htemplate]
    rfl
  have hrefusal : refusal ascii ApprovalPolicy.defaultAllowedPaths {
      relativePath := String.ofList ("docs/generated/".toList ++ "/srv/x".toList ++ ".md".toList)
      content := String.ofList (docsTemplate "/srv/x".toList "docs".toList "docs".toList) } =
        none := by
    unfold refusal
    dsimp only
    rw [clean_srvRequest, if_neg (by decide +kernel), if_neg (by decide +kernel),
      if_neg (by decide)]
  have haccepted : Accepted ascii asciiPrintable none srvRequest _ :=
    ⟨by decide +kernel, by rw [hfiles]; exact List.mem_singleton_self _, hrefusal⟩
  intro h
  have hown := h.left _ ((mem_writes _).2 ⟨_, haccepted, rfl⟩)
  have hbase := hown.inBase.1
  exact absurd hbase (by decide +kernel)

end Escape

end AiAgentsSwd.CodeGen
