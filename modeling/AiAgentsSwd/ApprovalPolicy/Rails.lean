import AiAgentsSwd.ApprovalPolicy.Evaluator

/-!
# ApprovalPolicy.Rails — what an authorised action is known to satisfy

`Permits` is what a policy has said yes to, `Guarded` what is known of a path. A relative path is
inside every rail; the checks of the globs and of `..` say nothing about any other path, since
they come after the check that it is relative, and the callers look only for the reasons they
know. The scope of a policy compares texts: it is a directory where it ends in a slash.
-/

namespace AiAgentsSwd.ApprovalPolicy

variable {rt : Runtime} {a : Action} {policy : HumanApprovalPolicy}

/-! ## Paths -/

/-- The texts of the path and of the allowed path are compared as they stand: neither is padded,
absolute, or begins with a dot. -/
def Plain (path : String) : Prop := lstripDotSlash path = normalise path

/-- The directories of a text that ends in a slash. -/
def directories (root : List Char) : List (List Char) := (segments root).dropLast

/-- What is known of a path of an authorised action. -/
structure Guarded (rt : Runtime) (policy : HumanApprovalPolicy) (path : String) : Prop where
  traversal : Relative path → ['.', '.'] ∉ segments (normalise path)
  denied : Relative path → ∀ pattern ∈ defaultDeniedPaths ++ policy.deniedPaths,
    globHits rt.unicode (normalise path) pattern = false
  scope : policy.allowedPaths ≠ [] → ∃ root ∈ policy.allowedPaths,
    lstripDotSlash root <+: lstripDotSlash path ∧
    (Plain path → Plain root → (normalise root).getLast? = some '/' →
      directories (normalise root) <+: segments (normalise path))

/-- A text that ends in a slash and begins another gives the first segments of it. -/
theorem directories_prefix {root p : List Char} (h : root <+: p)
    (hslash : root.getLast? = some '/') : directories root <+: segments p := by
  rcases h with ⟨rest, rfl⟩
  have hroot : root = root.dropLast ++ ['/'] := by
    rcases List.getLast?_eq_some_iff.mp hslash with ⟨init, rfl⟩
    rw [List.dropLast_concat]
  have hleft : directories root = segments root.dropLast := by
    unfold directories segments
    conv_lhs => rw [hroot]
    rw [List.splitOn_append_cons_self, List.splitOn_nil, List.dropLast_concat]
  have hright : segments (root ++ rest) = segments root.dropLast ++ segments rest := by
    unfold segments
    conv_lhs => rw [hroot]
    rw [List.append_assoc, List.singleton_append, List.splitOn_append_cons_self]
  rw [hleft, hright]
  exact List.prefix_append _ _

theorem safe_of_pathRail {path : String} (h : pathRail rt path = none) (hrel : Relative path) :
    ['.', '.'] ∉ segments (normalise path) ∧
      ∀ pattern ∈ defaultDeniedPaths, globHits rt.unicode (normalise path) pattern = false := by
  have hup : ['.', '.'] ∉ segments (normalise path) := by
    intro hmem
    unfold pathRail at h
    rw [validateAllowedPath_of_traversal hrel hmem] at h
    cases h
  refine ⟨hup, fun pattern hmem => ?_⟩
  by_contra hhits
  rw [Bool.not_eq_false] at hhits
  rcases validateAllowedPath_of_denied hrel hup hmem hhits with ⟨pattern', heq⟩
  unfold pathRail at h
  rw [heq] at h
  simp only [startsWith_append, if_true] at h
  cases h

/-- The globs of the policy are looked at together with the default ones. -/
theorem denied_of_pathBlockedByDenylist {path : String} {denylist : List String}
    (h : pathBlockedByDenylist rt path denylist = none) (hrel : Relative path)
    (hup : ['.', '.'] ∉ segments (normalise path)) :
    ∀ pattern ∈ defaultDeniedPaths ++ denylist,
      globHits rt.unicode (normalise path) pattern = false := by
  intro pattern hmem
  by_contra hhits
  rw [Bool.not_eq_false] at hhits
  rcases validateAllowedPath_of_denied hrel hup hmem hhits with ⟨pattern', heq⟩
  unfold pathBlockedByDenylist at h
  rw [heq] at h
  simp only [startsWith_append, if_true] at h
  cases h

theorem guarded_of_rails {path : String} (hrail : pathRail rt path = none)
    (hpolicy : pathRefusal rt policy path = none) : Guarded rt policy path := by
  unfold pathRefusal at hpolicy
  cases hdenied : pathBlockedByDenylist rt path policy.deniedPaths with
  | some why =>
    rw [hdenied] at hpolicy
    cases hpolicy
  | none =>
    rw [hdenied] at hpolicy
    refine ⟨fun hrel => (safe_of_pathRail hrail hrel).1,
      fun hrel => denied_of_pathBlockedByDenylist hdenied hrel (safe_of_pathRail hrail hrel).1,
      fun hne => ?_⟩
    have hany : ∃ root ∈ policy.allowedPaths, lstripDotSlash root <+: lstripDotSlash path := by
      simpa [hne] using hpolicy
    rcases hany with ⟨root, hroot, hstarts⟩
    refine ⟨root, hroot, hstarts, fun hpath hplain hslash => ?_⟩
    unfold Plain at hpath hplain
    rw [hpath, hplain] at hstarts
    exact directories_prefix hstarts hslash

/-! ## The action and the policy -/

/-- What a policy has said yes to. -/
structure Permits (rt : Runtime) (policy : HumanApprovalPolicy) (a : Action) (now : Time) :
    Prop where
  mode : policy.approvalMode ≠ "per_action"
  active : policy.status = "active"
  unexpired : policyExpired rt policy now = false
  constraints : (policyConstraintsOk policy).1 = true
  task : policy.taskId = "" ∨ policy.taskId = a.taskId
  stage : policy.approvalMode = "per_stage" → policy.allowedStages = [] ∨ a.stage = "" ∨
    a.stage ∈ policy.allowedStages
  actionType : policy.allowedActions = [] ∨ a.actionType ∈ policy.allowedActions
  agent : policy.allowedAgents = [] ∨ a.agent = "" ∨ a.agent ∈ policy.allowedAgents
  paths : ∀ path ∈ a.paths, pathRefusal rt policy path = none
  files : ∀ most, policy.maxFilesChanged = some most → a.filesChanged ≤ most
  actions : ∀ most, policy.maxActions = some most → policy.actionsUsed < most

theorem permits_of_policyAuthorises {now : Time} (hmode : policy.approvalMode ≠ "per_action")
    (h : (policyAuthorises rt policy a now).1 = true) : Permits rt policy a now := by
  unfold policyAuthorises at h
  simp only [refuseIf_fst] at h
  rcases h with ⟨hactive, hexpired, hconstraints, htask, hstage, haction, hagent, h⟩
  cases hpaths : a.paths.findSome? (pathRefusal rt policy) with
  | some why =>
    rw [hpaths] at h
    cases h
  | none =>
    rw [hpaths] at h
    simp only [refuseIf_fst] at h
    rcases h with ⟨hfiles, hactions, -⟩
    exact
      { mode := hmode
        active := by simpa using hactive
        unexpired := hexpired
        constraints := by simpa using hconstraints
        task := by
          by_cases hempty : policy.taskId = ""
          · exact Or.inl hempty
          · simp [hempty] at htask
            exact Or.inr htask
        stage := by
          intro hper
          by_cases hnone : policy.allowedStages = []
          · exact Or.inl hnone
          by_cases hempty : a.stage = ""
          · exact Or.inr (Or.inl hempty)
          · simp [hper, hnone, hempty] at hstage
            exact Or.inr (Or.inr hstage)
        actionType := by
          by_cases hnone : policy.allowedActions = []
          · exact Or.inl hnone
          · simp [hnone] at haction
            exact Or.inr haction
        agent := by
          by_cases hnone : policy.allowedAgents = []
          · exact Or.inl hnone
          by_cases hempty : a.agent = ""
          · exact Or.inr (Or.inl hempty)
          · simp [hnone, hempty] at hagent
            exact Or.inr (Or.inr hagent)
        paths := List.findSome?_eq_none_iff.mp hpaths
        files := by
          intro most hmost
          rw [hmost] at hfiles
          simpa using hfiles
        actions := by
          intro most hmost
          rw [hmost] at hactions
          simpa using hactions }

/-- The loop over the candidates authorises by one of them only. -/
theorem permits_of_tryPolicies {candidates : List HumanApprovalPolicy} {i : Nat} {last : String}
    (h : (tryPolicies rt a i last candidates).allowed = true) : ∃ j policy,
      candidates[j]? = some policy ∧ Permits rt policy a (rt.now (i + j)) ∧
      (tryPolicies rt a i last candidates).policyId = policy.policyId := by
  induction candidates generalizing i last with
  | nil => cases h
  | cons policy rest ih =>
    unfold tryPolicies at h ⊢
    -- a candidate further on
    have hrest : ∀ {last}, (tryPolicies rt a (i + 1) last rest).allowed = true → ∃ j policy',
        (policy :: rest)[j]? = some policy' ∧ Permits rt policy' a (rt.now (i + j)) ∧
        (tryPolicies rt a (i + 1) last rest).policyId = policy'.policyId := by
      intro last hallowed
      rcases ih hallowed with ⟨j, policy', hj, hpermits, hid⟩
      refine ⟨j + 1, policy', hj, ?_, hid⟩
      rw [show i + (j + 1) = i + 1 + j from by omega]
      exact hpermits
    by_cases hmode : policy.approvalMode = "per_action"
    · rw [if_pos hmode] at h ⊢
      exact hrest h
    · rw [if_neg hmode] at h ⊢
      rcases hauth : policyAuthorises rt policy a (rt.now i) with ⟨authorises, reason⟩
      rw [hauth] at h
      cases authorises with
      | false => exact hrest h
      | true =>
        refine ⟨0, policy, rfl, permits_of_policyAuthorises hmode ?_, rfl⟩
        rw [Nat.add_zero, hauth]

theorem clean_of_contentRail {sample : String} (h : contentRail rt sample = none) :
    Clean (secretPatterns rt.unicode) sample ∧ Clean (destructivePatterns rt.unicode) sample := by
  unfold contentRail at h
  rcases hsecret : validateNoSecretContent rt.unicode sample with ⟨ok, why⟩
  rcases hdestructive : validateNoDestructiveChange rt.unicode sample with ⟨ok', why'⟩
  rw [hsecret, hdestructive] at h
  cases ok with
  | false => cases h
  | true =>
    cases ok' with
    | false => cases h
    | true =>
      exact ⟨clean_of_validateNoSecretContent (by rw [hsecret]),
        clean_of_validateNoDestructiveChange (by rw [hdestructive])⟩

/-- What the hard rails have let pass. -/
theorem rails_of_hardSafetyCheck (h : hardSafetyCheck rt a.actionType a.paths a.contentSamples = none) :
    a.actionType ∉ hardSafetyActions ∧ (∀ path ∈ a.paths, pathRail rt path = none) ∧
      ∀ sample ∈ a.contentSamples, contentRail rt sample = none := by
  unfold hardSafetyCheck at h
  by_cases hhard : hardSafetyActions.contains a.actionType = true
  · rw [if_pos hhard] at h
    cases h
  · rw [if_neg hhard] at h
    cases hpaths : a.paths.findSome? (pathRail rt) with
    | some why =>
      rw [hpaths] at h
      cases h
    | none =>
      rw [hpaths] at h
      exact ⟨fun hmem => hhard (List.contains_iff_mem.mpr hmem),
        List.findSome?_eq_none_iff.mp hpaths, List.findSome?_eq_none_iff.mp h⟩

/-- A runtime that knows the letters of ASCII, at midnight. -/
def asciiRuntime : Runtime where
  unicode :=
    { isWord := fun c => isAlnum c || c == '_'
      variants := fun c => [c.toLower, c.toUpper]
      lower := List.map Char.toLower }
  fromisoformat := fun _ => some 1
  now := fun _ => 0

/-- A delegated policy for one directory. -/
def docsPolicy (root : String) : HumanApprovalPolicy :=
  { policyId := "p1"
    taskId := "t1"
    approvalMode := "delegated"
    status := "active"
    expiresAt := some "2026-01-01T00:00:00+00:00"
    maxActions := some 5
    maxFilesChanged := some 3
    maxAutoFixAttempts := some 0
    allowedActions := ["write_file"]
    allowedPaths := [root]
    deniedPaths := ["*.pem"] }

def writeTo (path : String) : Action :=
  { taskId := "t1"
    workflowId := none
    actionType := "write_file"
    stage := ""
    agent := ""
    paths := [path]
    filesChanged := 1
    contentSamples := ["hello"] }

/-- What one might expect of every path of an authorised action. -/
def Inside (policy : HumanApprovalPolicy) (path : String) : Prop :=
  Relative path ∧ ['.', '.'] ∉ segments (normalise path) ∧
    ∃ root ∈ policy.allowedPaths, directories (normalise root) <+: segments (normalise path)

/-- A policy of another mode need not list any path, and then every path will do. -/
def unscopedPolicy : HumanApprovalPolicy :=
  { docsPolicy "" with
    approvalMode := "per_feature"
    allowedPaths := [] }

/-- The path is absolute, and climbs into a denied directory. -/
def climbing : String := "/docs/generated/../../infra/main.tf"

end AiAgentsSwd.ApprovalPolicy
