import AiAgentsSwd.SandboxGithub.Client

/-!
# SandboxGithub.Refusals — which requests end as a recorded refusal

A request that the allowlist or the policy refuses is blocked, and recorded as such. One that they
admit may still raise: the name of its branch, the pattern of the title and the forbidden contents
raise errors that the client does not catch. A mode that is not known is planned like a dry run,
and a live request is not kept from a head branch that is a base branch. Without these, every
request is as promised (`recorded_iff`).
-/

namespace AiAgentsSwd.SandboxGithub

section Claim

variable (asker : Asker) (github : GitHub) (rt : Runtime) (config : Config) (env : Environ)
  (r : Request)

/-- What a call to GitHub takes. -/
def LiveAllowed : Prop :=
  resolveMode rt.unicode config.policy env r.requestedMode = (.liveSandbox, none) ∧
    ∃ repo, resolveRepository config.repositories r.repositoryKey = some repo ∧
      repo.allowed = true ∧ repo.sandboxOnly = true ∧
      chosenBase repo r ∈ repo.allowedBaseBranches ∧
      chosenBase repo r ∉ config.policy.forbiddenBaseBranches ∧
      config.branch.start.toList <+: headBranch rt config r ∧
      validateBranchName rt.printable config.branch (headBranch rt config r) = none ∧
      String.ofList (headBranch rt config r) ∉ repo.allowedBaseBranches

/-- The mode that is asked for is one of the two. -/
def KnownMode : Prop := (modeOf (askedMode config.policy r.requestedMode)).isSome

/-- A result without a call to GitHub: blocked and recorded as blocked, or the plan of a dry run
that was asked for. -/
def Settled (result : DraftPrResult) : Prop :=
  (result.status = .blocked ∧ ∃ e ∈ result.auditEvents, e.eventType = .blocked) ∨
    (result.status = .planned ∧
      resolveMode rt.unicode config.policy env r.requestedMode = (.dryRun, none) ∧
        ∃ plan, buildPlan rt config r .dryRun = .ok plan)

/-- A request ends as promised. -/
structure Recorded (outcome : Outcome) : Prop where
  returns : ∃ result, outcome.result = .ok result ∧
    (outcome.calls = [] → Settled rt config env r result) ∧
      (¬KnownMode config r → result.status ≠ .planned)
  live : outcome.calls ≠ [] → LiveAllowed rt config env r

/-- The allowlist and the policy admit the repository and the base branch. -/
def Admitted (repo : SandboxRepo) : Prop :=
  resolveRepository config.repositories r.repositoryKey = some repo ∧ repo.allowDraftPr = true ∧
    chosenBase repo r ≠ "" ∧ baseBranchAllowed repo (chosenBase repo r) = true ∧
      config.policy.forbiddenBaseBranches.contains (chosenBase repo r) = false

/-- A document that is as it should be, or an error that the client catches. -/
def Answer.Fine (ok : Json.Value → Prop) : Answer → Prop
  | .document value => ok value
  | .caught _ => True
  | .other _ => False

/-- The value is an object, and what it has under a key is as it should be. -/
def HasMember (key : String) (ok : Json.Value → Prop) (value : Json.Value) : Prop :=
  ∃ members, value = .obj members ∧ ∀ v, Json.field? members key = some v → ok v

/-- GitHub answers the calls for a plan with objects where objects are read, and the network raises
no error but those that the client catches. -/
def Orderly (plan : DraftPrPlan) : Prop :=
  let c₁ := GhCall.getRef plan.owner plan.repo plan.baseBranch
  let c₂ := GhCall.createRef plan.owner plan.repo plan.headBranch
  let c₃ := GhCall.putEvidence plan.owner plan.repo (evidencePath plan)
    ("[Sandbox] evidence for " ++ plan.headBranch) (evidenceBody plan r) plan.headBranch
  let c₄ := GhCall.createPull plan.owner plan.repo plan.title plan.headBranch plan.baseBranch
    plan.body
  (github [c₁]).Fine (HasMember "object" (HasMember "sha" fun sha =>
    (github [c₁, c₂ sha]).Fine fun _ => (github [c₁, c₂ sha, c₃]).Fine fun _ =>
      (github [c₁, c₂ sha, c₃, c₄]).Fine fun pr => ∃ members, pr = .obj members))

/-- The request reaches nothing that goes wrong: it has a production effect, or is not admitted; or
the name of its branch passes, and then the prefix of the branch is not allowed for the repository,
or the title and the body can be made, the mode is known, and for a live request the branch is no
base branch and GitHub answers in order. -/
def Untroubled : Prop :=
  r.productionEffect = true ∨ ∀ repo, Admitted config r repo →
    validateBranchName rt.printable config.branch (headBranch rt config r) = none ∧
      (headPrefixAllowed repo (headBranch rt config r) = true →
        (rt.format config.metadata.titlePattern r.projectKey r.workItemTitle).isSome ∧
        validateBody rt.unicode config.metadata (bodyOf config r) = none ∧
        KnownMode config r ∧
        (resolveMode rt.unicode config.policy env r.requestedMode = (.liveSandbox, none) →
          String.ofList (headBranch rt config r) ∉ repo.allowedBaseBranches ∧
            ∀ plan, buildPlan rt config r .liveSandbox = .ok plan → Orderly github r plan))

end Claim

/-! ## Planning -/

section Planning

variable {rt : Runtime} {config : Config} {r : Request} {repo : SandboxRepo}

theorem buildPlan_of_not_admitted (rt : Runtime) (h : ∀ repo, ¬Admitted config r repo) :
    ∃ reason, ∀ mode, buildPlan rt config r mode = .error (.refused reason) := by
  unfold buildPlan
  cases hrepo : resolveRepository config.repositories r.repositoryKey with
  | none => exact ⟨_, fun _ => rfl⟩
  | some repo =>
    dsimp only
    split_ifs with hdraft hbase hforbidden
    · exact ⟨_, fun _ => rfl⟩
    · exact ⟨_, fun _ => rfl⟩
    · exact ⟨_, fun _ => rfl⟩
    · rw [not_or] at hbase
      exact absurd ⟨hrepo, by simpa using hdraft, hbase.1, by simpa using hbase.2,
        by simpa using hforbidden⟩ (h repo)

/-- What is planned for an admitted request depends on the branch, the title and the body. -/
theorem buildPlan_of_admitted (rt : Runtime) (h : Admitted config r repo) (mode : Mode) :
    buildPlan rt config r mode = planFor rt config repo r mode := by
  rcases h with ⟨hrepo, hdraft, hne, hbase, hforbidden⟩
  unfold buildPlan
  rw [hrepo]
  dsimp only
  rw [if_neg (by simp [hdraft]), if_neg (by simp [hne, hbase]), if_neg (by rw [hforbidden]; simp)]

theorem planFor_of_invalid {message : String}
    (hbranch : validateBranchName rt.printable config.branch (headBranch rt config r) =
      some message) (mode : Mode) :
    planFor rt config repo r mode = .error (.branchPolicy message) := by
  simp [planFor, hbranch]

section Valid

variable (hbranch : validateBranchName rt.printable config.branch (headBranch rt config r) = none)
include hbranch

theorem planFor_of_other_start (hstart : headPrefixAllowed repo (headBranch rt config r) = false)
    (mode : Mode) :
    planFor rt config repo r mode = .error (.refused "head_branch_prefix_not_allowed") := by
  simp [planFor, hbranch, hstart]

variable (hstart : headPrefixAllowed repo (headBranch rt config r) = true)
include hstart

theorem planFor_of_no_title
    (htitle : rt.format config.metadata.titlePattern r.projectKey r.workItemTitle = none)
    (mode : Mode) : planFor rt config repo r mode = .error .titleFormat := by
  simp [planFor, hbranch, hstart, htitle]

variable {title : String}
  (htitle : rt.format config.metadata.titlePattern r.projectKey r.workItemTitle = some title)
include htitle

theorem planFor_of_bad_body {message : String}
    (hbody : validateBody rt.unicode config.metadata (bodyOf config r) = some message)
    (mode : Mode) : planFor rt config repo r mode = .error (.prMetadata message) := by
  simp [planFor, hbranch, hstart, htitle, hbody]

theorem planFor_of_valid
    (hbody : validateBody rt.unicode config.metadata (bodyOf config r) = none) (mode : Mode) :
    ∃ plan, planFor rt config repo r mode = .ok plan := by
  simp [planFor, hbranch, hstart, htitle, hbody]

end Valid

end Planning

/-! ## The branch and the repository -/

theorem start_of_valid {printable : Char → Bool} {policy : BranchPolicy} {name : List Char}
    (h : validateBranchName printable policy name = none) : policy.start.toList <+: name := by
  unfold validateBranchName at h
  dsimp only at h
  split_ifs at h with hstart
  simpa using hstart

theorem allowed_of_resolved {repositories : List SandboxRepo} {key : String} {repo : SandboxRepo}
    (h : resolveRepository repositories key = some repo) :
    repo.allowed = true ∧ repo.sandboxOnly = true := by
  have hboth := (Option.filter_eq_some_iff.mp h).2
  simpa using hboth

/-! ## The exchange with GitHub -/

/-- No error but those that the client catches, and a value that is as it should be. -/
def Contained {α : Type} (ok : α → Prop) : Except GhError α → Prop
  | .ok v => ok v
  | .error (.caught _) => True
  | .error (.other _) => False

section Exchange

variable {α β : Type} {github : GitHub}

theorem contained_bind {ok : β → Prop} (x : Except GhError α) (f : α → Except GhError β) :
    Contained ok (x >>= f) ↔ Contained (fun v => Contained ok (f v)) x := by
  cases x with
  | ok v => exact Iff.rfl
  | error e => cases e <;> exact Iff.rfl

theorem contained_call {ok : Json.Value → Prop} (before : List GhCall) (c : GhCall) :
    Contained ok (call github before c) ↔ (github (before ++ [c])).Fine ok := by
  unfold call
  cases github (before ++ [c]) <;> exact Iff.rfl

theorem contained_subscript {ok : Json.Value → Prop} (value : Json.Value) (key : String) :
    Contained ok (subscript value key) ↔ HasMember key ok value := by
  cases value with
  | obj members =>
    cases hfield : Json.field? members key with
    | none => simp [subscript, hfield, Contained, HasMember]
    | some v => simp [subscript, hfield, Contained, HasMember]
  | _ => simp [subscript, Contained, HasMember]

theorem contained_prDocument (value : Json.Value) :
    Contained (fun _ => True) (prDocument value) ↔ ∃ members, value = .obj members := by
  cases value <;> simp [prDocument, Contained]

/-- The answer of the exchange is that of the calls, one after the other. -/
theorem exchange_answer (asker : Asker) (plan : DraftPrPlan) (r : Request) :
    (exchange asker github plan r).answer =
      (call github [] (.getRef plan.owner plan.repo plan.baseBranch) >>= (subscript · "object")
        >>= (subscript · "sha")) >>= fun sha =>
      call github [.getRef plan.owner plan.repo plan.baseBranch]
        (.createRef plan.owner plan.repo plan.headBranch sha) >>= fun _ =>
      call github [.getRef plan.owner plan.repo plan.baseBranch,
          .createRef plan.owner plan.repo plan.headBranch sha]
        (.putEvidence plan.owner plan.repo (evidencePath plan)
          ("[Sandbox] evidence for " ++ plan.headBranch) (evidenceBody plan r) plan.headBranch)
        >>= fun _ =>
      call github [.getRef plan.owner plan.repo plan.baseBranch,
          .createRef plan.owner plan.repo plan.headBranch sha,
          .putEvidence plan.owner plan.repo (evidencePath plan)
            ("[Sandbox] evidence for " ++ plan.headBranch) (evidenceBody plan r) plan.headBranch]
        (.createPull plan.owner plan.repo plan.title plan.headBranch plan.baseBranch plan.body)
        >>= prDocument := by
  unfold exchange
  dsimp only
  split
  · next e hsha =>
    rw [hsha]
    rfl
  · next sha hsha =>
    rw [hsha]
    split
    · next e href =>
      simp [bind, Except.bind, href]
    · next ref href =>
      split
      · next e hput => simp [bind, Except.bind, href, hput]
      · next document hput => simp [bind, Except.bind, href, hput]

theorem contained_exchange (asker : Asker) (plan : DraftPrPlan) (r : Request) :
    Contained (fun _ => True) (exchange asker github plan r).answer ↔ Orderly github r plan := by
  rw [exchange_answer]
  simp only [contained_bind, contained_call, contained_subscript, contained_prDocument,
    List.nil_append, List.cons_append, Orderly]

/-- A live request is answered when GitHub answers in order. -/
theorem createLive_returns_iff (asker : Asker) (plan : DraftPrPlan) (r : Request)
    (events : List AuditEvent) :
    (∃ result, (createLive asker github plan r events).result = .ok result) ↔
      Orderly github r plan := by
  rw [← contained_exchange asker]
  unfold createLive
  dsimp only
  cases (exchange asker github plan r).answer with
  | ok pr => simp [Contained]
  | error e => cases e <;> simp [Contained]

theorem createLive_not_planned {asker : Asker} {plan : DraftPrPlan} {r : Request}
    {events : List AuditEvent} {result : DraftPrResult}
    (h : (createLive asker github plan r events).result = .ok result) :
    result.status ≠ .planned := by
  unfold createLive at h
  dsimp only at h
  split at h
  · cases h
    simp
  · cases h
    simp
  · cases h

/-- Every live request begins with a call. -/
theorem createLive_calls (asker : Asker) (plan : DraftPrPlan) (r : Request)
    (events : List AuditEvent) : (createLive asker github plan r events).calls ≠ [] := by
  have hcalls : (createLive asker github plan r events).calls =
      (exchange asker github plan r).calls := by
    unfold createLive
    dsimp only
    split <;> rfl
  rw [hcalls]
  unfold exchange
  dsimp only
  split
  · simp
  split
  · simp
  split
  · simp
  · simp

end Exchange

/-! ## Requests -/

section Requests

variable {asker : Asker} {github : GitHub} {rt : Runtime} {config : Config} {env : Environ}
  {r : Request} {repo : SandboxRepo} {plan : DraftPrPlan}

/-- Blocked and recorded as blocked, without a call. -/
def Blocked (outcome : Outcome) : Prop :=
  outcome.calls = [] ∧ ∃ result, outcome.result = .ok result ∧ result.status = .blocked ∧
    ∃ e ∈ result.auditEvents, e.eventType = .blocked

theorem recorded_of_blocked {outcome : Outcome} (h : Blocked outcome) :
    Recorded rt config env r outcome := by
  rcases h with ⟨hcalls, result, hresult, hstatus, hevent⟩
  constructor
  · refine ⟨result, hresult, fun _ => Or.inl ⟨hstatus, hevent⟩, fun _ => ?_⟩
    rw [hstatus]
    decide
  · exact fun h => absurd hcalls h

theorem not_recorded_of_error {outcome : Outcome} {name : String}
    (h : outcome.result = .error name) : ¬Recorded rt config env r outcome := by
  intro hrecorded
  obtain ⟨result, hresult, -⟩ := hrecorded.returns
  rw [h] at hresult
  cases hresult

theorem blocked_of_effect (h : r.productionEffect = true) :
    Blocked (requestDraftPr asker github rt config env r) := by
  unfold requestDraftPr
  dsimp only
  rw [if_pos h]
  exact ⟨rfl, _, rfl, rfl, _, List.mem_append_right _ (List.mem_singleton_self _), rfl⟩

section Effectless

variable (heffect : r.productionEffect = false)
include heffect

theorem blocked_of_refused {reason : String}
    (h : ∀ mode, buildPlan rt config r mode = .error (.refused reason)) :
    Blocked (requestDraftPr asker github rt config env r) := by
  unfold requestDraftPr
  dsimp only
  rw [if_neg (by simp [heffect]), h]
  exact ⟨rfl, _, rfl, rfl, _, List.mem_append_right _ (List.mem_singleton_self _), rfl⟩

/-- An error of planning that is no refusal leaves the client. -/
theorem raised_of_failure (asker : Asker) (github : GitHub) (env : Environ)
    {failure : PlanFailure}
    (hfailure : ∀ reason, failure ≠ .refused reason)
    (h : ∀ mode, buildPlan rt config r mode = .error failure) :
    ∃ name, (requestDraftPr asker github rt config env r).result = .error name := by
  unfold requestDraftPr
  dsimp only
  rw [if_neg (by simp [heffect]), h]
  cases failure with
  | refused reason => exact absurd rfl (hfailure reason)
  | branchPolicy message => exact ⟨_, rfl⟩
  | titleFormat => exact ⟨_, rfl⟩
  | prMetadata message => exact ⟨_, rfl⟩

theorem planned_of_dryRun (asker : Asker) (github : GitHub) {reason : Option String}
    (hmode : resolveMode rt.unicode config.policy env r.requestedMode = (.dryRun, reason))
    (hplan : buildPlan rt config r .dryRun = .ok plan) :
    (requestDraftPr asker github rt config env r).calls = [] ∧
      ∃ result, (requestDraftPr asker github rt config env r).result = .ok result ∧
        result.status = .planned := by
  unfold requestDraftPr
  dsimp only
  rw [if_neg (by simp [heffect]), hmode]
  dsimp only
  rw [hplan]
  exact ⟨rfl, _, rfl, rfl⟩

theorem blocked_of_reason {reason : String}
    (hmode : resolveMode rt.unicode config.policy env r.requestedMode =
      (.liveSandbox, some reason))
    (hplan : buildPlan rt config r .liveSandbox = .ok plan) :
    Blocked (requestDraftPr asker github rt config env r) := by
  unfold requestDraftPr
  dsimp only
  rw [if_neg (by simp [heffect]), hmode]
  dsimp only
  rw [hplan]
  exact ⟨rfl, _, rfl, rfl, _, List.mem_append_right _ (List.mem_singleton_self _), rfl⟩

theorem request_of_live (asker : Asker) (github : GitHub)
    (hmode : resolveMode rt.unicode config.policy env r.requestedMode = (.liveSandbox, none))
    (hplan : buildPlan rt config r .liveSandbox = .ok plan) :
    ∃ events, requestDraftPr asker github rt config env r =
      createLive asker github plan r events := by
  unfold requestDraftPr
  dsimp only
  rw [if_neg (by simp [heffect]), hmode]
  dsimp only
  rw [hplan]
  exact ⟨_, rfl⟩

end Effectless

/-- A mode that is not known is a dry run with a reason; a known one is a dry run without, or is
live. -/
theorem resolveMode_of_unknown (rt : Runtime) (env : Environ) (h : ¬KnownMode config r) :
    ∃ reason, resolveMode rt.unicode config.policy env r.requestedMode =
      (.dryRun, some reason) := by
  unfold KnownMode at h
  unfold resolveMode
  rw [Option.not_isSome_iff_eq_none.mp h]
  exact ⟨_, rfl⟩

theorem resolveMode_of_known (rt : Runtime) (env : Environ) (h : KnownMode config r) :
    resolveMode rt.unicode config.policy env r.requestedMode = (.dryRun, none) ∨
      ∃ reason, resolveMode rt.unicode config.policy env r.requestedMode =
        (.liveSandbox, reason) := by
  unfold KnownMode at h
  unfold resolveMode
  cases hmode : modeOf (askedMode config.policy r.requestedMode) with
  | none =>
    rw [hmode] at h
    cases h
  | some mode =>
    cases mode with
    | dryRun => exact Or.inl rfl
    | liveSandbox =>
      right
      dsimp only
      split_ifs <;> exact ⟨_, rfl⟩

/-- Of a request whose plan is made, the mode decides, and GitHub. -/
theorem recorded_of_plan (heffect : r.productionEffect = false) (hadmitted : Admitted config r repo)
    (hbranch : validateBranchName rt.printable config.branch (headBranch rt config r) = none)
    (hplan : ∀ mode, ∃ plan, buildPlan rt config r mode = .ok plan) :
    Recorded rt config env r (requestDraftPr asker github rt config env r) ↔
      KnownMode config r ∧
        (resolveMode rt.unicode config.policy env r.requestedMode = (.liveSandbox, none) →
          String.ofList (headBranch rt config r) ∉ repo.allowedBaseBranches ∧
            ∀ plan, buildPlan rt config r .liveSandbox = .ok plan → Orderly github r plan) := by
  obtain ⟨dry, hdry⟩ := hplan .dryRun
  obtain ⟨live, hlive⟩ := hplan .liveSandbox
  by_cases hknown : KnownMode config r
  · rcases resolveMode_of_known rt env hknown with hmode | ⟨reason, hmode⟩
    · -- a dry run that was asked for
      rw [hmode]
      refine iff_of_true ?_ ⟨hknown, fun h => absurd h (by simp)⟩
      obtain ⟨hcalls, result, hresult, hstatus⟩ :=
        planned_of_dryRun heffect asker github hmode hdry
      constructor
      · exact ⟨result, hresult, fun _ => Or.inr ⟨hstatus, hmode, dry, hdry⟩,
          fun h => absurd hknown h⟩
      · exact fun h => absurd hcalls h
    · cases reason with
      | some reason =>
        rw [hmode]
        refine iff_of_true ?_ ⟨hknown, fun h => absurd h (by simp)⟩
        exact recorded_of_blocked (blocked_of_reason heffect hmode hlive)
      | none =>
        obtain ⟨events, hrequest⟩ :=
          request_of_live heffect asker github hmode hlive
        rw [hrequest]
        have hcalls : (createLive asker github live r events).calls ≠ [] :=
          createLive_calls asker live r events
        have hreturns : _ ↔ Orderly github r live := createLive_returns_iff asker live r events
        constructor
        · intro h
          refine ⟨hknown, fun _ => ⟨?_, ?_⟩⟩
          · obtain ⟨-, repo', hrepo', -, -, -, -, -, -, hhead⟩ := h.live hcalls
            rw [hadmitted.1] at hrepo'
            cases hrepo'
            exact hhead
          · intro plan hplan'
            rw [hlive] at hplan'
            cases hplan'
            obtain ⟨result, hresult, -⟩ := h.returns
            exact hreturns.mp ⟨result, hresult⟩
        · rintro ⟨-, h⟩
          obtain ⟨hhead, horderly⟩ := h hmode
          constructor
          · obtain ⟨result, hresult⟩ := hreturns.mpr (horderly live hlive)
            exact ⟨result, hresult, fun h => absurd h hcalls,
              fun _ => createLive_not_planned hresult⟩
          · intro _
            obtain ⟨hrepo, -, -, hbase, hforbidden⟩ := hadmitted
            obtain ⟨hallowed, honly⟩ := allowed_of_resolved hrepo
            refine ⟨hmode, repo, hrepo, hallowed, honly, ?_, ?_, start_of_valid hbranch, hbranch,
              hhead⟩
            · simpa [baseBranchAllowed] using hbase
            · simpa using hforbidden
  · -- an unknown mode is planned as a dry run
    obtain ⟨reason, hmode⟩ := resolveMode_of_unknown rt env hknown
    obtain ⟨-, result, hresult, hstatus⟩ :=
      planned_of_dryRun heffect asker github hmode hdry
    refine iff_of_false ?_ fun h => hknown h.1
    intro h
    obtain ⟨result', hresult', -, hunknown⟩ := h.returns
    rw [hresult] at hresult'
    cases hresult'
    exact hunknown hknown hstatus

/-- An admitted request is of one repository. -/
theorem untroubled_of_admitted (heffect : r.productionEffect = false)
    (hadmitted : Admitted config r repo) :
    Untroubled github rt config env r ↔
      validateBranchName rt.printable config.branch (headBranch rt config r) = none ∧
      (headPrefixAllowed repo (headBranch rt config r) = true →
        (rt.format config.metadata.titlePattern r.projectKey r.workItemTitle).isSome ∧
        validateBody rt.unicode config.metadata (bodyOf config r) = none ∧
        KnownMode config r ∧
        (resolveMode rt.unicode config.policy env r.requestedMode = (.liveSandbox, none) →
          String.ofList (headBranch rt config r) ∉ repo.allowedBaseBranches ∧
            ∀ plan, buildPlan rt config r .liveSandbox = .ok plan → Orderly github r plan)) := by
  constructor
  · intro h
    rcases h with h | h
    · rw [heffect] at h
      cases h
    · exact h repo hadmitted
  · intro h
    right
    intro repo' hadmitted'
    have hsame : some repo = some repo' := hadmitted.1.symm.trans hadmitted'.1
    cases hsame
    exact h

end Requests

/-- The property, and exactly when it holds. -/
theorem recorded_iff (asker : Asker) (github : GitHub) (rt : Runtime) (config : Config)
    (env : Environ) (r : Request) :
    Recorded rt config env r (requestDraftPr asker github rt config env r) ↔
      Untroubled github rt config env r := by
  cases heffect : r.productionEffect with
  | true => exact iff_of_true (recorded_of_blocked (blocked_of_effect heffect)) (Or.inl heffect)
  | false =>
    by_cases hadmitted : ∃ repo, Admitted config r repo
    · obtain ⟨repo, hadmitted⟩ := hadmitted
      rw [untroubled_of_admitted heffect hadmitted]
      have hplan := buildPlan_of_admitted rt hadmitted
      cases hbranch : validateBranchName rt.printable config.branch (headBranch rt config r) with
      | some message =>
        refine iff_of_false ?_ fun h => by simp at h
        obtain ⟨name, herror⟩ := raised_of_failure heffect asker github env
          (fun _ h => by cases h)
          fun mode => (hplan mode).trans (planFor_of_invalid hbranch mode)
        exact not_recorded_of_error herror
      | none =>
        cases hstart : headPrefixAllowed repo (headBranch rt config r) with
        | false =>
          refine iff_of_true ?_ ⟨rfl, fun h => by cases h⟩
          exact recorded_of_blocked (blocked_of_refused heffect
            fun mode => (hplan mode).trans (planFor_of_other_start hbranch hstart mode))
        | true =>
          cases htitle : rt.format config.metadata.titlePattern r.projectKey r.workItemTitle with
          | none =>
            refine iff_of_false ?_ fun h => by simpa using (h.2 rfl).1
            obtain ⟨name, herror⟩ := raised_of_failure heffect asker github env
              (fun _ h => by cases h)
              fun mode => (hplan mode).trans (planFor_of_no_title hbranch hstart htitle mode)
            exact not_recorded_of_error herror
          | some title =>
            cases hbody : validateBody rt.unicode config.metadata (bodyOf config r) with
            | some message =>
              refine iff_of_false ?_ fun h => by simpa using (h.2 rfl).2.1
              obtain ⟨name, herror⟩ := raised_of_failure heffect asker github env
                (fun _ h => by cases h) fun mode =>
                  (hplan mode).trans (planFor_of_bad_body hbranch hstart htitle hbody mode)
              exact not_recorded_of_error herror
            | none =>
              have hmade : ∀ mode, ∃ plan, buildPlan rt config r mode = .ok plan := by
                intro mode
                rw [hplan mode]
                exact planFor_of_valid hbranch hstart htitle hbody mode
              rw [recorded_of_plan heffect hadmitted hbranch hmade]
              constructor
              · exact fun h => ⟨rfl, fun _ => ⟨rfl, rfl, h⟩⟩
              · exact fun h => (h.2 rfl).2.2
    · refine iff_of_true ?_ (Or.inr fun repo h => absurd ⟨repo, h⟩ hadmitted)
      rw [not_exists] at hadmitted
      obtain ⟨reason, hrefused⟩ := buildPlan_of_not_admitted rt hadmitted
      exact recorded_of_blocked (blocked_of_refused heffect hrefused)

/-! ## The committed policy -/

/-- The committed YAML files. -/
def sandboxConfig : Config where
  policy := {
    allowedMode := ["dry_run", "live_sandbox"]
    forbiddenBaseBranches := ["production", "release", "hotfix"] }
  branch := {
    forbiddenBranchNames := ["main", "master", "production", "release", "hotfix"]
    forbiddenPrefixes := ["production", "release", "hotfix"] }
  metadata := {
    bodyRequiredSections := ["Project", "Work item", "Dispatch", "Correlation ID", "Summary",
      "Safety scope", "Non-production caveat", "No production approval", "No merge authorization",
      "Generated by AI Agents sandbox flow"]
    bodyForbiddenContent := ["secret", "token", "credential", "raw prompt", "chain-of-thought",
      "production approval claim", "customer data"]
    nonProduction :=
      "This is a non-production sandbox draft PR. It is not production approved."
    noProductionApproval := "No production approval is implied or granted by this PR."
    noMerge := "No merge authorization. This PR must not be merged by the platform."
    generatedBy := "Generated by AI Agents sandbox flow (Step 59, sandbox-only)." }
  repositories := [{
    key := "ai-agents-sandbox"
    owner := "coolerh250"
    repo := "AI-Agents-SWD-sandbox"
    allowed := true
    sandboxOnly := true
    allowedBaseBranches := ["main"]
    allowedHeadPrefixes := ["sandbox/ai-agents/"]
    allowDraftPr := true }]

/-- Python on ASCII, with the committed pattern of the title. -/
def asciiPython : Runtime where
  unicode := {
    isWord := fun c => c.isAlphanum || c == '_'
    variants := fun c => [c.toLower, c.toUpper]
    lower := List.map Char.toLower }
  printable := fun c => decide (32 ≤ c.toNat ∧ c.toNat < 127)
  format := fun _ projectKey workItemTitle =>
    some ("[Sandbox][Draft] " ++ projectKey ++ ": " ++ workItemTitle)

/-- A request for a work item of a project called production. -/
def productionRequest : Request where
  repositoryKey := "ai-agents-sandbox"
  projectId := "p1"
  projectKey := "Production"
  workItemId := "w1"
  workItemKey := "WI-1"
  workItemTitle := "Fix the login page"
  correlationId := "c0ffee"

/-- With the committed policy, a request for a project called production raises instead of being
blocked: the key passes the sanitising, and the policy of branches takes it for a prefix. -/
theorem production_key_raises :
    ¬Recorded asciiPython sandboxConfig ⟨none, none⟩ productionRequest
      (requestDraftPr ⟨"operator", "admin", "demo"⟩ (fun _ => .caught "URLError") asciiPython
        sandboxConfig ⟨none, none⟩ productionRequest) := by
  have hfailure : ∀ mode, buildPlan asciiPython sandboxConfig productionRequest mode =
      .error (.branchPolicy "forbidden branch prefix: production") := by
    intro mode
    have hadmitted : ∃ repo ∈ sandboxConfig.repositories,
        Admitted sandboxConfig productionRequest repo := by
      refine ⟨_, List.mem_singleton_self _, ?_, ?_, ?_, ?_, ?_⟩ <;> decide +kernel
    obtain ⟨repo, -, hadmitted⟩ := hadmitted
    rw [buildPlan_of_admitted _ hadmitted]
    exact planFor_of_invalid (by decide +kernel) mode
  obtain ⟨name, herror⟩ := raised_of_failure rfl _ _ _ (fun _ h => by cases h) hfailure
  exact not_recorded_of_error herror

end AiAgentsSwd.SandboxGithub
