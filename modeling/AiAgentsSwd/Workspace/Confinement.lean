import AiAgentsSwd.Workspace.Paths
import AiAgentsSwd.Workspace.RelativePath

/-!
# Workspace.Confinement — when a joined path stays inside its workspace

What the check of a relative path lets pass has no forbidden name among its own names. The check
knows neither that a path may name nothing, so that the workspace itself is returned, nor where
a symbolic link leads: `Harmless` says of the last link on the way what is asked of a name.
-/

namespace AiAgentsSwd.Workspace

open ApprovalPolicy (strip segments)
open Symlinks (Layout Step)

/-! ## What is promised -/

/-- The names that must not be written as they stand. -/
def Name.Forbidden (name : Name) : Prop := name.val ∈ disallowedSegments

/-- The names a file must not have. -/
def Name.Disallowed (name : Name) : Prop :=
  name.val ∈ disallowedNames ∨ ∃ suffix ∈ disallowedSuffixes, suffix <:+ name.val

/-- The repository. -/
def Surroundings.repo (w : Surroundings) : List Name :=
  w.fs.resolve (pathJoin (pathJoin (pathJoin w.here "..".toList) "..".toList) "..".toList)

/-- What is promised of the path `below` a workspace root. -/
structure Confined (w : Surroundings) (root below : List Name) : Prop where
  strict : below ≠ []
  allowlisted : ∃ allowed, render allowed ∈ w.allowedRoots ∧ allowed <+: root
  notFilesystemRoot : root ≠ []
  notRepository : ¬root <+: w.repo
  segments : ∀ name ∈ below, ¬name.Forbidden
  last : ∀ name, below.getLast? = some name → ¬name.Disallowed

/-- The names of a path that only goes down. -/
def namesOf (s : List Char) : List Name :=
  (components s).filterMap Step.name?

/-- The last symbolic link on the way from the root leads neither into a forbidden directory nor,
at the end of the path, to a file of a disallowed name, and the path does not end at the root. -/
structure Harmless (fs : FileSystem) (root : List Name) (relativePath : List Char) : Prop where
  past : root.length < (fs.landing root [] (namesOf relativePath)).1.length +
    (fs.landing root [] (namesOf relativePath)).2.length
  segments : ∀ name ∈ (fs.landing root [] (namesOf relativePath)).1.drop root.length,
    ¬name.Forbidden
  last : (fs.landing root [] (namesOf relativePath)).2 = [] →
    ∀ name, (fs.landing root [] (namesOf relativePath)).1.getLast? = some name → ¬name.Disallowed

/-! ## Walking -/

theorem component_cases {s : List Char} (hs : '/' ∉ s) (hup : s ≠ ['.', '.']) :
    (∃ name : Name, component s = .into name ∧ name.val = s ∧
      proper s = true) ∨ (component s = .stay ∧ proper s = false) := by
  unfold component
  rw [if_neg hup]
  by_cases hproper : s ≠ [] ∧ s ≠ ['.'] ∧ s ≠ ['.', '.'] ∧ '/' ∉ s
  · rw [dif_pos hproper]
    exact Or.inl ⟨_, rfl, rfl, by simp [proper, hproper.1, hproper.2.1]⟩
  · rw [dif_neg hproper]
    have hdull : s = [] ∨ s = ['.'] := by
      by_contra hneither
      rw [not_or] at hneither
      exact hproper ⟨hneither.1, hneither.2, hup, hs⟩
    refine Or.inr ⟨rfl, ?_⟩
    rcases hdull with rfl | rfl <;> rfl

/-- The names of a path that only goes down are the segments that name something. -/
theorem names_of_down {s : List Char} (hdown : ['.', '.'] ∉ segments s) :
    (namesOf s).map Name.val = parts s ∧
      ∀ (l : Layout Name) p, l.walk p (components s) = l.walk p ((namesOf s).map .into) := by
  have hall : ∀ segs : List (List Char), (∀ seg ∈ segs, '/' ∉ seg ∧ seg ≠ ['.', '.']) →
      ((segs.map component).filterMap Step.name?).map Name.val = segs.filter proper ∧
      ∀ (l : Layout Name) p, l.walk p (segs.map component) =
        l.walk p (((segs.map component).filterMap Step.name?).map .into) := by
    intro segs
    induction segs with
    | nil => exact fun _ => ⟨rfl, fun _ _ => rfl⟩
    | cons seg segs ih =>
      intro hsegs
      have hseg := hsegs seg List.mem_cons_self
      have ih := ih fun seg' h' => hsegs seg' (List.mem_cons_of_mem _ h')
      rcases component_cases hseg.1 hseg.2 with ⟨name, hc, hval, hproper⟩ | ⟨hc, hdull⟩
      · rw [List.map_cons, hc, List.filter_cons_of_pos hproper]
        simp only [List.filterMap_cons, Step.name?, List.map_cons, hval, Layout.walk]
        exact ⟨by rw [ih.1], fun l p => ih.2 l _⟩
      · rw [List.map_cons, hc, List.filter_cons_of_neg (by rw [hdull]; exact Bool.false_ne_true)]
        simp only [List.filterMap_cons, Step.name?, Layout.walk]
        exact ih
  refine hall (segments s) fun seg hseg => ⟨Text.not_mem_of_mem_splitOn hseg, ?_⟩
  rintro rfl
  exact hdown hseg

theorem FileSystem.resolved_resolve (fs : FileSystem) (s : List Char) :
    fs.Resolved (fs.resolve s) := by
  unfold FileSystem.resolve
  split
  · exact Layout.resolved_walk Layout.resolved_nil
  · exact Layout.resolved_walk fs.cwd_resolved

theorem isAbs_render (p : List Name) (s : List Char) : isAbs (render p ++ s) = true := by
  cases p with
  | nil => rfl
  | cons name p =>
    rw [render_of_ne (List.cons_ne_nil _ _)]
    rfl

theorem FileSystem.resolve_render {fs : FileSystem} {p : List Name} (hp : fs.Resolved p) :
    fs.resolve (render p) = p := by
  have habs := isAbs_render p []
  rw [List.append_nil] at habs
  unfold FileSystem.resolve
  rw [habs, if_pos rfl]
  by_cases hne : p = []
  · rw [hne]
    rfl
  · have hwalk : fs.walk [] (p.map .into) = [] ++ p := Layout.walk_names hp
    rw [render_of_ne hne, components_flatMap, Layout.walk, hwalk, List.nil_append]

/-- A resolved path stays as it is. -/
theorem FileSystem.realpath_realpath (fs : FileSystem) (s : List Char) :
    fs.realpath (fs.realpath s) = fs.realpath s := by
  unfold FileSystem.realpath
  rw [FileSystem.resolve_render (fs.resolved_resolve s)]

/-- Below a resolved root, a path leads where a walk from the root does. -/
theorem FileSystem.resolve_pathJoin {fs : FileSystem} {root : List Name}
    (hroot : fs.Resolved root) (hne : root ≠ []) {s : List Char} (hs : isAbs s = false) :
    fs.resolve (pathJoin (render root) s) = fs.walk root (components s) := by
  have hjoin : pathJoin (render root) s = render root ++ '/' :: s := by
    have hstrip := rstripSlash_render hne
    unfold pathJoin
    rw [hs, if_neg Bool.false_ne_true, if_neg]
    rintro (hnil | hslash)
    · rw [render_of_ne hne] at hnil
      cases root with
      | nil => exact hne rfl
      | cons name root => simp at hnil
    · -- a slash at the end would be stripped
      rcases List.getLast?_eq_some_iff.mp hslash with ⟨t, ht⟩
      have hlen := congrArg List.length hstrip
      rw [ht] at hlen
      unfold rstripSlash at hlen
      rw [List.reverse_append, List.reverse_singleton, List.singleton_append,
        List.dropWhile_cons_of_pos (by rfl), List.length_reverse] at hlen
      have hle := (List.dropWhile_sublist (l := t.reverse) (p := (· == '/'))).length_le
      rw [List.length_reverse] at hle
      rw [List.length_append, List.length_singleton] at hlen
      omega
  have habs := isAbs_render root ('/' :: s)
  have hcomponents : components (render root ++ '/' :: s) =
      (.stay :: root.map .into) ++ components s := by
    have hleft := components_flatMap root
    rw [← render_of_ne hne] at hleft
    unfold components segments at *
    rw [List.splitOn_append_cons_self, List.map_append, hleft]
  have hwalk : fs.walk [] (root.map .into) = [] ++ root := Layout.walk_names hroot
  unfold FileSystem.resolve
  rw [hjoin, habs, if_pos rfl, hcomponents, Layout.walk_append, Layout.walk, hwalk,
    List.nil_append]

/-! ## Confinement -/

/-- What `validate_workspace_root` makes sure of. -/
theorem root_of_validateWorkspaceRoot {w : Surroundings} {workspaceRoot root : List Char}
    (h : w.validateWorkspaceRoot workspaceRoot = .ok root) :
    root = render (w.fs.resolve workspaceRoot) ∧ w.fs.resolve workspaceRoot ≠ [] ∧
      ¬w.fs.resolve workspaceRoot <+: w.repo ∧
      ∃ allowed, render allowed ∈ w.allowedRoots ∧ allowed <+: w.fs.resolve workspaceRoot := by
  unfold Surroundings.validateWorkspaceRoot at h
  by_cases hempty : strip workspaceRoot = []
  · rw [if_pos hempty] at h
    cases h
  rw [if_neg hempty] at h
  dsimp only at h
  by_cases hslash : w.fs.realpath workspaceRoot = w.fs.realpath ['/']
  · rw [if_pos hslash] at h
    cases h
  rw [if_neg hslash] at h
  by_cases hrepo : w.fs.realpath workspaceRoot = w.repoRoot
  · rw [if_pos hrepo] at h
    cases h
  rw [if_neg hrepo] at h
  by_cases hcontains : under w.repoRoot (w.fs.realpath workspaceRoot) = true
  · rw [if_pos hcontains] at h
    cases h
  rw [if_neg hcontains] at h
  by_cases hallowed : (!w.allowedRoots.any (under (w.fs.realpath workspaceRoot))) = true
  · rw [if_pos hallowed] at h
    cases h
  rw [if_neg hallowed, Except.ok.injEq] at h
  refine ⟨h.symm, fun hnil => hslash ?_, fun hprefix => hcontains (under_render.mpr hprefix), ?_⟩
  · have htop : w.fs.resolve ['/'] = [] := rfl
    unfold FileSystem.realpath
    rw [hnil, htop]
  · rw [Bool.not_eq_true', Bool.not_eq_false, List.any_eq_true] at hallowed
    rcases hallowed with ⟨allowed, hmem, hunder⟩
    have hmap := hmem
    unfold Surroundings.allowedRoots at hmap
    rcases List.mem_map.mp hmap with ⟨raw, -, rfl⟩
    exact ⟨w.fs.resolve raw, hmem, under_render.mp hunder⟩

/-- The workspace, as `safe_join` resolves it, and the path below it. -/
theorem target_of_safeJoin {w : Surroundings} {workspaceRoot relativePath target : List Char}
    (h : w.safeJoin workspaceRoot relativePath = .ok target) :
    Passed relativePath ∧ w.fs.resolve workspaceRoot ≠ [] ∧
      ¬w.fs.resolve workspaceRoot <+: w.repo ∧
      (∃ allowed, render allowed ∈ w.allowedRoots ∧ allowed <+: w.fs.resolve workspaceRoot) ∧
      ∃ below, target = render (w.fs.resolve workspaceRoot ++ below) ∧
        w.fs.resolve workspaceRoot ++ below =
          (w.fs.landing (w.fs.resolve workspaceRoot) [] (namesOf relativePath)).1 ++
            (w.fs.landing (w.fs.resolve workspaceRoot) [] (namesOf relativePath)).2 := by
  unfold Surroundings.safeJoin at h
  cases hvalid : w.validateWorkspaceRoot workspaceRoot with
  | error e =>
    rw [hvalid] at h
    cases h
  | ok root =>
    rcases root_of_validateWorkspaceRoot hvalid with ⟨rfl, hne, hrepo, hallowed⟩
    rw [hvalid] at h
    change (if w.isDisallowedRelpath relativePath then .error (.disallowedRelpath relativePath)
      else if !under (w.fs.realpath (pathJoin (render (w.fs.resolve workspaceRoot)) relativePath))
        (render (w.fs.resolve workspaceRoot)) then .error (.escapes relativePath
          (w.fs.realpath (pathJoin (render (w.fs.resolve workspaceRoot)) relativePath)))
      else .ok (w.fs.realpath (pathJoin (render (w.fs.resolve workspaceRoot)) relativePath)) :
        Except WorkspacePathError (List Char)) = .ok target at h
    by_cases hdisallowed : w.isDisallowedRelpath relativePath = true
    · rw [if_pos hdisallowed] at h
      cases h
    rw [if_neg hdisallowed] at h
    have hpassed := passed_of_isDisallowedRelpath (Bool.not_eq_true _ ▸ hdisallowed)
    have hresolve := FileSystem.resolve_pathJoin (w.fs.resolved_resolve workspaceRoot) hne
      hpassed.relative
    unfold FileSystem.realpath at h
    split at h
    · cases h
    · rename_i hunder
      rw [Bool.not_eq_true', Bool.not_eq_false, under_render, hresolve] at hunder
      rw [Except.ok.injEq, hresolve] at h
      rcases hunder with ⟨below, hbelow⟩
      refine ⟨hpassed, hne, hrepo, hallowed, below, by rw [hbelow]; exact h.symm, ?_⟩
      have hlanding := Layout.walk_eq_landing (l := w.fs.toLayout) (w.fs.resolve workspaceRoot) []
        (namesOf relativePath)
      rw [List.append_nil] at hlanding
      rw [hbelow, (names_of_down hpassed.down).2, hlanding]

/-- **A joined path is confined to its workspace exactly when the last link on its way is
harmless.** -/
theorem confined_iff (w : Surroundings) (workspaceRoot relativePath target : List Char)
    (h : w.safeJoin workspaceRoot relativePath = .ok target) :
    (∃ below, target = render (w.fs.resolve workspaceRoot ++ below) ∧
      Confined w (w.fs.resolve workspaceRoot) below) ↔
      Harmless w.fs (w.fs.resolve workspaceRoot) relativePath := by
  rcases target_of_safeJoin h with ⟨hpassed, hne, hrepo, hallowed, below, rfl, heq⟩
  have hunique : ∀ below', render (w.fs.resolve workspaceRoot ++ below) =
      render (w.fs.resolve workspaceRoot ++ below') → below' = below := fun below' hrender =>
    (List.append_cancel_left (render_inj hrender)).symm
  have hsuffix := Layout.landing_suffix (l := w.fs.toLayout) (w.fs.resolve workspaceRoot) []
    (namesOf relativePath)
  rw [List.nil_append] at hsuffix
  have hvals := (names_of_down hpassed.down).1
  generalize hroot : w.fs.resolve workspaceRoot = root at *
  generalize hlanding : w.fs.landing root [] (namesOf relativePath) = landed at *
  rcases landed with ⟨t, after⟩
  dsimp only at heq hsuffix
  have hlength : root.length + below.length = t.length + after.length := by
    have hlen := congrArg List.length heq
    rwa [List.length_append, List.length_append] at hlen
  have hbelow : below = t.drop root.length ++ after.drop (root.length - t.length) := by
    have hdrop := congrArg (List.drop root.length) heq
    rwa [List.drop_left, List.drop_append] at hdrop
  -- the names after the link are names of the relative path, which has been checked
  have hafter : ∀ name ∈ after, ¬name.Forbidden := by
    intro name hname
    refine hpassed.segments name.val ?_
    rw [← hvals]
    exact List.mem_map_of_mem (hsuffix.subset hname)
  have hlast : ∀ name, after.getLast? = some name → ¬name.Disallowed := by
    intro name hname hdis
    have hget : (parts relativePath).getLast? = some name.val := by
      rcases hsuffix with ⟨init, hinit⟩
      have hnil : after ≠ [] := by
        rintro rfl
        cases hname
      rw [← hvals, List.getLast?_map, ← hinit, List.getLast?_append_of_ne_nil _ hnil, hname]
      rfl
    rcases hdis with hnamed | ⟨suffix, hmem, hsuffix⟩
    · exact hpassed.names _ hget hnamed
    · exact hpassed.suffixes _ hget suffix hmem hsuffix
  have hgetLast : below ≠ [] → below.getLast? = (t ++ after).getLast? := by
    intro hnil
    rw [← heq, List.getLast?_append_of_ne_nil _ hnil]
  constructor
  · rintro ⟨below', hrender, hc⟩
    obtain rfl := hunique below' hrender
    have hpos := List.length_pos_iff.mpr hc.strict
    refine ⟨by rw [hlanding]; dsimp only; omega, fun name hname => ?_, fun hnil name hname => ?_⟩
    · rw [hlanding] at hname
      refine hc.segments name ?_
      rw [hbelow]
      exact List.mem_append_left _ hname
    · rw [hlanding] at hnil hname
      dsimp only at hnil hname
      refine hc.last name ?_
      rw [hgetLast hc.strict, hnil, List.append_nil, hname]
  · rintro ⟨hpast, hsegments, hlink⟩
    rw [hlanding] at hpast hsegments hlink
    dsimp only at hpast hsegments hlink
    have hstrict : below ≠ [] := by
      rintro rfl
      rw [List.length_nil] at hlength
      omega
    refine ⟨below, rfl, hstrict, hallowed, hne, hrepo, fun name hname => ?_, fun name hname => ?_⟩
    · rw [hbelow] at hname
      rcases List.mem_append.mp hname with hname | hname
      · exact hsegments name hname
      · exact hafter name (List.mem_of_mem_drop hname)
    · rw [hgetLast hstrict] at hname
      by_cases hnil : after = []
      · rw [hnil, List.append_nil] at hname
        exact hlink hnil name hname
      · rw [List.getLast?_append_of_ne_nil _ hnil] at hname
        exact hlast name hname

/-! ### Runs -/

def nameTmp : Name := ⟨"tmp".toList, by decide, by decide, by decide, by decide⟩
def nameWorkspaces : Name :=
  ⟨"aiagents-workspaces".toList, by decide, by decide, by decide, by decide⟩
def nameWs : Name := ⟨"ws".toList, by decide, by decide, by decide, by decide⟩
def nameConf : Name := ⟨"conf".toList, by decide, by decide, by decide, by decide⟩
def nameGit : Name := ⟨".git".toList, by decide, by decide, by decide, by decide⟩

/-- In the workspace `ws`, `conf` is a symbolic link to `.git`. -/
def confLink (p : List Name) : Option (List Name) :=
  if p = [nameTmp, nameWorkspaces, nameWs, nameConf] then
    some [nameTmp, nameWorkspaces, nameWs, nameGit]
  else none

theorem confLink_ends (p t : List Name) (h : confLink p = some t) (q : List Name) (hq : q <+: t) :
    confLink q = none := by
  unfold confLink at h ⊢
  split at h
  · obtain rfl := Option.some.inj h
    have hall : ∀ q ∈ [nameTmp, nameWorkspaces, nameWs, nameGit].inits,
        q ≠ [nameTmp, nameWorkspaces, nameWs, nameConf] := by decide
    exact if_neg (hall q ((List.mem_inits _ _).mpr hq))
  · cases h

/-- The module is installed in the root directory, and the variable is not set. -/
def confSurroundings : Surroundings where
  fs := { link := confLink
          ends := confLink_ends
          cwd := []
          cwd_resolved := Layout.resolved_nil }
  table := fun _ c _ => [c]
  here := "/app/shared/sdk/workspace_operator".toList
  allowedRootsVar := none

def wsRoot : List Char := "/tmp/aiagents-workspaces/ws".toList

theorem resolve_wsRoot :
    confSurroundings.fs.resolve wsRoot = [nameTmp, nameWorkspaces, nameWs] := by
  decide +kernel

theorem safeJoin_main : confSurroundings.safeJoin wsRoot "app/main.py".toList =
    .ok "/tmp/aiagents-workspaces/ws/app/main.py".toList := by
  decide +kernel

/-- A generated file is confined. -/
theorem confined_main : ∃ below, "/tmp/aiagents-workspaces/ws/app/main.py".toList =
    render (confSurroundings.fs.resolve wsRoot ++ below) ∧
      Confined confSurroundings (confSurroundings.fs.resolve wsRoot) below := by
  refine (confined_iff _ _ _ _ safeJoin_main).mpr ⟨?_, ?_, ?_⟩
  · decide +kernel
  · rw [resolve_wsRoot]
    unfold Name.Forbidden
    decide +kernel
  · -- no link is met, so that both names come after the root
    have hafter : (confSurroundings.fs.landing (confSurroundings.fs.resolve wsRoot) []
        (namesOf "app/main.py".toList)).2 ≠ [] := by decide +kernel
    exact fun hnil => absurd hnil hafter

/-- **The workspace itself is returned for `.`, and a file of `.git` for a path through a
link.** -/
theorem not_confined :
    (confSurroundings.safeJoin wsRoot ".".toList = .ok wsRoot ∧
      ¬∃ below, wsRoot = render (confSurroundings.fs.resolve wsRoot ++ below) ∧
        Confined confSurroundings (confSurroundings.fs.resolve wsRoot) below) ∧
    confSurroundings.safeJoin wsRoot "conf/config".toList =
        .ok "/tmp/aiagents-workspaces/ws/.git/config".toList ∧
      ¬∃ below, "/tmp/aiagents-workspaces/ws/.git/config".toList =
        render (confSurroundings.fs.resolve wsRoot ++ below) ∧
        Confined confSurroundings (confSurroundings.fs.resolve wsRoot) below := by
  have hroot : render [nameTmp, nameWorkspaces, nameWs] = wsRoot := by decide +kernel
  refine ⟨⟨by decide +kernel, ?_⟩, by decide +kernel, ?_⟩
  · rintro ⟨below, hrender, hc⟩
    rw [resolve_wsRoot, ← hroot] at hrender
    have heq := render_inj hrender
    exact hc.strict (List.append_right_eq_self.mp heq.symm)
  · rintro ⟨below, hrender, hc⟩
    have hgit : ∃ name : Name, render [nameTmp, nameWorkspaces, nameWs, nameGit, name] =
        "/tmp/aiagents-workspaces/ws/.git/config".toList :=
      ⟨⟨"config".toList, by decide, by decide, by decide, by decide⟩, by decide +kernel⟩
    rcases hgit with ⟨name, hname⟩
    rw [resolve_wsRoot, ← hname] at hrender
    have heq : [nameTmp, nameWorkspaces, nameWs] ++ [nameGit, name] =
        [nameTmp, nameWorkspaces, nameWs] ++ below := render_inj hrender
    have hcancel := List.append_cancel_left heq
    refine hc.segments nameGit ?_ (by unfold Name.Forbidden; decide)
    rw [← hcancel]
    exact List.mem_cons_self

end AiAgentsSwd.Workspace
