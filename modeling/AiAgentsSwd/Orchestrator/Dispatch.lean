import AiAgentsSwd.Orchestrator.Graph

/-!
# Orchestrator.Dispatch — when a task is published once, and only if it may be

`dispatch_node` publishes what the graph's state allows. `_apply_approved` publishes whatever it
is called for: it looks neither at the stage nor at the approval request nor at the routing, and
it hands no team context over. `cleared` says what it would have to look at when it reads the
row; under it every publication is `Lawful`.
-/

namespace AiAgentsSwd.Orchestrator

open Keyed (Table)
open Transition

variable {ρ : Type} [DecidableEq ρ]

/-! ## What is promised -/

/-- The approval request of the workflow stands approved, and nothing has ended the workflow. -/
def Granted (log : List Entry) (request : String) : Prop :=
  .decided request .approved ∈ log ∧ .decided request .rejected ∉ log ∧
    ∀ t, .terminated t ∉ log

/-- What is promised of a publication after what came before, for the run that ended in `g`. -/
structure Publication.Lawful (g : WorkflowState) (before : List Entry) (p : Publication) :
    Prop where
  once : ∀ request, p.cause = some request →
    ∀ p', .published p' ∈ before → p'.cause ≠ some request
  granted : g.approvalRequired = true → Granted before g.approvalRequestId
  team : g.projectId ≠ "" → p.routing = some .selected ∧ p.teamContext = g.teamContext ∧
    p.teamContext.isSome

/-- Every publication is lawful after what came before it. -/
def Authorized (g : WorkflowState) (log : List Entry) : Prop :=
  ∀ before p after, log = before ++ .published p :: after → p.Lawful g before

/-! ## Cleared publications -/

/-- The approval on account of which the request is about to publish. -/
def Phase.publishes : Phase → Option String
  | .dispatching cause _ => some cause
  | _ => none

/-- `Granted`, decided. -/
def granted (log : List Entry) (request : String) : Bool :=
  log.contains (.decided request .approved) && !log.contains (.decided request .rejected) &&
    !log.contains (.terminated .canceled) && !log.contains (.terminated .aborted)

/-- `_apply_approved` reads the row for a run that names no project, for an approval for which
nothing was published and no other request is about to publish, and if the run asked for an
approval, while it is granted; and it is not revoked, nor the workflow terminated, before the task
is published. -/
def cleared (g : WorkflowState) (s : World ρ) : Act ρ → Bool
  | .next r d => d.raises || (s.requests.find? r).all fun p =>
    match p with
    | .applying cause => g.projectId == "" &&
      (s.log.all fun entry =>
        match entry with
        | .published p => p.cause != some cause
        | _ => true) &&
      (!s.requests.rows.any fun q => q.2.publishes == some cause) &&
      (!g.approvalRequired || granted s.log g.approvalRequestId)
    | .writing (.terminated _) _ _ =>
      !g.approvalRequired || !s.requests.rows.any fun q => q.2.publishes.isSome
    | _ => true
  | .decide request .rejected =>
    !g.approvalRequired || request != g.approvalRequestId ||
      !s.requests.rows.any fun q => q.2.publishes.isSome
  | _ => true

theorem granted_iff {log : List Entry} {request : String} :
    granted log request = true ↔ Granted log request := by
  unfold granted Granted
  simp only [Bool.and_eq_true, Bool.not_eq_true', List.contains_iff_mem,
    ← Bool.not_eq_true]
  constructor
  · rintro ⟨⟨⟨happroved, hrejected⟩, hcanceled⟩, haborted⟩
    refine ⟨happroved, hrejected, fun t ht => ?_⟩
    cases t with
    | canceled => exact hcanceled ht
    | aborted => exact haborted ht
  · rintro ⟨happroved, hrejected, hterminated⟩
    exact ⟨⟨⟨happroved, hrejected⟩, hterminated _⟩, hterminated _⟩

theorem Granted.append {log more : List Entry} {request : String} (h : Granted log request)
    (hrejected : .decided request .rejected ∉ more) (hterminated : ∀ t, .terminated t ∉ more) :
    Granted (log ++ more) request := by
  refine ⟨List.mem_append_left _ h.1, fun hm => ?_, fun t ht => ?_⟩
  · rcases List.mem_append.mp hm with hold | hnew
    · exact h.2.1 hold
    · exact hrejected hnew
  · rcases List.mem_append.mp ht with hold | hnew
    · exact h.2.2 t hold
    · exact hterminated t hnew

/-- What comes after a log without publications of its own. -/
theorem Authorized.append {g : WorkflowState} {log more : List Entry} (h : Authorized g log)
    (hmore : ∀ p, .published p ∉ more) : Authorized g (log ++ more) := by
  intro before p after hlog
  rcases List.append_eq_append_iff.mp hlog with ⟨mid, hbefore, hmid⟩ | ⟨mid, hlog', hmid⟩
  · exact absurd (by rw [hmid]; simp) (hmore p)
  · cases mid with
    | nil => exact absurd (by rw [← List.nil_append more, ← hmid]; simp) (hmore p)
    | cons entry mid =>
      rw [List.cons_append, List.cons.injEq] at hmid
      rw [← hmid.1] at hlog'
      exact h before p mid hlog'

/-- A lawful publication comes last. -/
theorem Authorized.publish {g : WorkflowState} {log : List Entry} {p : Publication}
    (h : Authorized g log) (hp : p.Lawful g log) : Authorized g (log ++ [.published p]) := by
  intro before p' after hlog
  rcases List.eq_nil_or_concat after with rfl | ⟨after', entry, rfl⟩
  · rcases List.append_inj' hlog rfl with ⟨hlog, hlast⟩
    rw [List.singleton_inj, Entry.published.injEq] at hlast
    rw [← hlog, ← hlast]
    exact hp
  · rw [List.concat_eq_append, ← List.cons_append, ← List.append_assoc] at hlog
    exact h before p' after' (List.append_inj' hlog rfl).1

/-! ## The run of the graph -/

/-- What the conditional edge finds. -/
structure Routed (g : WorkflowState) : Prop where
  pending : g.approvalRequired = true → g.approvalStatus = .pending
  team : g.projectId ≠ "" → g.routing.any dispatchableRoutingOutcomes.contains = true →
    g.routing = some .selected ∧ g.teamContext.isSome

theorem routedRun_state (env : Environment) (request : TaskRequest) (before : Option Workflow) :
    (routedRun env request before).state =
      routeNextNode env (approvalNode env (policyNode env (teamFormationNode env
        (requirementNode (intakeNode (initialState request)))))) := rfl

theorem routed_routedRun (env : Environment) (request : TaskRequest) (before : Option Workflow) :
    Routed (routedRun env request before).state := by
  rw [routedRun_state]
  generalize hg₀ : requirementNode (intakeNode (initialState request)) = g₀
  have happroval : ∀ g : WorkflowState, (approvalNode env g).approvalRequired = true →
      (approvalNode env g).approvalStatus = .pending := by
    intro g
    unfold approvalNode
    by_cases hrequired : g.approvalRequired = true
    · simp [hrequired]
    · simp [hrequired]
  have hroute : ∀ g : WorkflowState, (routeNextNode env g).approvalRequired = g.approvalRequired ∧
      (routeNextNode env g).approvalStatus = g.approvalStatus ∧
      (routeNextNode env g).projectId = g.projectId ∧
      (routeNextNode env g).teamContext = g.teamContext := by
    intro g
    unfold routeNextNode
    repeat' split
    all_goals exact ⟨rfl, rfl, rfl, rfl⟩
  have hkeep : ∀ g : WorkflowState,
      (approvalNode env (policyNode env g)).projectId = g.projectId ∧
      (approvalNode env (policyNode env g)).teamContext = g.teamContext ∧
      (approvalNode env (policyNode env g)).teamFormation = g.teamFormation := by
    intro g
    unfold approvalNode policyNode
    repeat' split
    all_goals exact ⟨rfl, rfl, rfl⟩
  constructor
  · intro hrequired
    rw [(hroute _).2.1]
    rw [(hroute _).1] at hrequired
    exact happroval _ hrequired
  · rw [(hroute _).2.2.1, (hroute _).2.2.2, (hkeep _).1, (hkeep _).2.1]
    generalize hg : approvalNode env (policyNode env (teamFormationNode env g₀)) = g
    have hcontext := (hkeep (teamFormationNode env g₀)).2
    rw [hg] at hcontext
    intro hproject hdispatchable
    have hnamed : g₀.projectId ≠ "" := by
      intro hnone
      unfold teamFormationNode at hproject
      rw [if_pos hnone] at hproject
      exact hproject hnone
    unfold teamFormationNode at hcontext ⊢
    rw [if_neg hnamed] at hcontext ⊢
    cases hteam : env.team with
    | none =>
      -- the team could not be formed: the routing is closed
      rw [hteam] at hcontext
      unfold routeNextNode at hdispatchable
      rw [if_pos hcontext.2] at hdispatchable
      cases hdispatchable
    | some threadId =>
      rw [hteam] at hcontext
      refine ⟨?_, rfl⟩
      have hformed : g.teamFormation ≠ .failed := by
        rw [hcontext.2]
        exact nofun
      have hid : ¬(g.teamContext.map TeamContext.projectId).getD "" = "" := by
        rw [hcontext.1]
        exact hnamed
      unfold routeNextNode at hdispatchable ⊢
      rw [if_neg hformed, if_neg hid] at hdispatchable ⊢
      cases heligible : env.eligible with
      | none =>
        rw [heligible] at hdispatchable
        cases hdispatchable
      | some eligible =>
        rw [heligible] at hdispatchable
        dsimp only at hdispatchable ⊢
        cases hout : route g.stage eligible <;> rw [hout] at hdispatchable <;>
          try first | rfl | cases hdispatchable
        unfold route at hout
        split at hout
        · cases hout
        · split at hout <;> cases hout

/-- The routing decision reaches the row. -/
def Environment.keepsRouting (env : Environment) (before : Option Workflow) : Bool :=
  (env.creates || before.isSome) && env.persists .routeNext

theorem node_row_isSome {run : GraphRun} {env : Environment} {node : Node} :
    (run.node env node).row.isSome = run.row.isSome := by
  unfold GraphRun.node
  by_cases hpersists : env.persists node = true
  · simp [hpersists]
  · simp [hpersists]

theorem routedRun_routing {env : Environment} {request : TaskRequest} {before : Option Workflow}
    (h : env.keepsRouting before = true) :
    (routedRun env request before).row.bind (·.state.routing) =
      (routedRun env request before).state.routing := by
  rw [Environment.keepsRouting, Bool.and_eq_true] at h
  unfold routedRun firstNodes
  rw [List.foldl_cons, List.foldl_cons, List.foldl_cons, List.foldl_cons, List.foldl_cons,
    List.foldl_cons, List.foldl_cons, List.foldl_nil]
  generalize hrun : GraphRun.node _ env .audit = run
  have hsome : run.row.isSome = true := by
    rw [← hrun]
    simp only [node_row_isSome]
    by_cases hcreates : env.creates = true
    · rw [if_pos hcreates]
      rfl
    · rw [if_neg hcreates]
      simpa [hcreates] using h.1
  rcases Option.isSome_iff_exists.mp hsome with ⟨w, hw⟩
  unfold GraphRun.node
  dsimp only
  rw [if_pos h.2, hw]
  rfl

theorem routedRun_log (env : Environment) (request : TaskRequest) (before : Option Workflow) :
    (routedRun env request before).log = [] := rfl

/-- What the graph itself publishes is lawful. -/
theorem authorized_runMockWorkflow {env : Environment} {request : TaskRequest}
    {before : Option Workflow}
    (h : (runMockWorkflow env request before).state.projectId = "" ∨
      env.keepsRouting before = true) :
    Authorized (runMockWorkflow env request before).state
      (runMockWorkflow env request before).log := by
  have hrouted := routed_routedRun env request before
  have hrouting := @routedRun_routing env request before
  have hlog := routedRun_log env request before
  unfold runMockWorkflow at h ⊢
  dsimp only at h ⊢
  generalize routedRun env request before = run at *
  have hempty : ∀ g, Authorized g [] := by
    intro g before' p after heq
    simp at heq
  by_cases hdispatchable : run.state.routing.any dispatchableRoutingOutcomes.contains = true
  · have hselect : selectRoute run.state = .dispatch := if_pos hdispatchable
    rw [hselect] at h ⊢
    unfold GraphRun.node GraphRun.publications
    dsimp only
    rw [hlog, List.nil_append]
    by_cases hquiet : (run.state.waits || !env.busUp) = true
    · rw [if_pos hquiet]
      exact hempty _
    rw [if_neg hquiet]
    simp only [Bool.or_eq_true, not_or] at hquiet
    have hfree : run.state.approvalRequired = false := by
      by_contra hrequired
      have hrequired : run.state.approvalRequired = true := by simpa using hrequired
      refine hquiet.1 ?_
      rw [WorkflowState.waits, hrequired, hrouted.pending hrequired]
      rfl
    have hstate : (dispatchNode run.state).projectId = run.state.projectId ∧
        (dispatchNode run.state).approvalRequired = run.state.approvalRequired ∧
        (dispatchNode run.state).teamContext = run.state.teamContext := by
      unfold dispatchNode
      split <;> exact ⟨rfl, rfl, rfl⟩
    have hlawful : ∀ p : Publication, p.cause = none →
        p.teamContext = run.state.teamContext → p.routing = run.row.bind (·.state.routing) →
        p.Lawful (dispatchNode run.state) [] := by
      intro p hcause hcontext hpersisted
      refine ⟨fun request' hsome => ?_, fun hrequired => ?_, fun hproject => ?_⟩
      · rw [hcause] at hsome
        cases hsome
      · rw [hstate.2.1, hfree] at hrequired
        cases hrequired
      · have hkeeps : env.keepsRouting before = true := by
          rcases h with hnone | hkeeps
          · exact absurd hnone hproject
          · exact hkeeps
        rw [hstate.1] at hproject
        have hteam := hrouted.team hproject hdispatchable
        rw [hpersisted, hrouting hkeeps, hcontext, hstate.2.2]
        exact ⟨hteam.1, rfl, hteam.2⟩
    have hpublished := (hempty (dispatchNode run.state)).publish (hlawful
      { cause := if run.state.approvalRequired then some run.state.approvalRequestId else none
        teamContext := run.state.teamContext
        routing := run.row.bind (·.state.routing) } (by rw [hfree]; rfl) rfl rfl)
    exact hpublished
  · have hselect : selectRoute run.state = .teamBlocked := if_neg hdispatchable
    rw [hselect]
    unfold GraphRun.node GraphRun.publications
    dsimp only
    rw [hlog]
    exact hempty _

/-! ## The invariant -/

/-- A request that is about to publish may do so. -/
structure Ready (g : WorkflowState) (log : List Entry) (cause : String) : Prop where
  nameless : g.projectId = ""
  first : ∀ p, .published p ∈ log → p.cause ≠ some cause
  granted : g.approvalRequired = true → Granted log g.approvalRequestId

structure DispatchInv (g : WorkflowState) (s : World ρ) : Prop where
  authorized : Authorized g s.log
  ready : ∀ r p cause, s.requests.find? r = some p → p.publishes = some cause →
    Ready g s.log cause
  alone : ∀ r r' p p' cause, s.requests.find? r = some p → s.requests.find? r' = some p' →
    p.publishes = some cause → p'.publishes = some cause → r = r'

/-- The request goes on, after `more` was noted. -/
theorem DispatchInv.goto {g : WorkflowState} {s t : World ρ} (hs : DispatchInv g s) {r : ρ}
    {p : Phase} (more : List Entry) (hrequests : t.requests = s.requests)
    (hlog : t.log = s.log ++ more) (hauthorized : Authorized g (s.log ++ more))
    (hothers : ∀ r' p' cause, r' ≠ r → s.requests.find? r' = some p' →
      p'.publishes = some cause → Ready g (s.log ++ more) cause)
    (hp : ∀ cause, p.publishes = some cause → Ready g (s.log ++ more) cause ∧
      ∀ r' p', r' ≠ r → s.requests.find? r' = some p' → p'.publishes ≠ some cause) :
    DispatchInv g (t.goto r p) := by
  have hputs : s.requests.Puts (t.goto r p).requests r p := by
    unfold World.goto
    rw [hrequests]
    exact Table.puts_insert _ _ _
  have hsame : (t.goto r p).log = s.log ++ more := hlog
  constructor
  · rw [hsame]
    exact hauthorized
  · rw [hsame]
    intro r' p' cause hp' hpublishes
    rcases hputs.find hp' with ⟨-, rfl⟩ | ⟨hne, hold⟩
    · exact (hp cause hpublishes).1
    · exact hothers r' p' cause hne hold hpublishes
  · intro r₁ r₂ p₁ p₂ cause hp₁ hp₂ hc₁ hc₂
    rcases hputs.find hp₁ with ⟨rfl, rfl⟩ | ⟨hne₁, hold₁⟩
    · rcases hputs.find hp₂ with ⟨rfl, rfl⟩ | ⟨hne₂, hold₂⟩
      · rfl
      · exact absurd hc₂ ((hp cause hc₁).2 r₂ p₂ hne₂ hold₂)
    · rcases hputs.find hp₂ with ⟨rfl, rfl⟩ | ⟨hne₂, hold₂⟩
      · exact absurd hc₁ ((hp cause hc₂).2 r₁ p₁ hne₁ hold₁)
      · exact hs.alone r₁ r₂ p₁ p₂ cause hold₁ hold₂ hc₁ hc₂

/-- A call that notes nothing, after which the request is not about to publish. -/
theorem DispatchInv.free {g : WorkflowState} {s t : World ρ} (hs : DispatchInv g s) {r : ρ}
    {p : Phase} (hrequests : t.requests = s.requests) (hlog : t.log = s.log)
    (hfree : p.publishes = none) : DispatchInv g (t.goto r p) := by
  refine hs.goto [] hrequests ?_ ?_ ?_ fun cause hcause => ?_
  · rw [List.append_nil]
    exact hlog
  · rw [List.append_nil]
    exact hs.authorized
  · rw [List.append_nil]
    exact fun r' p' cause _ hp' hcause => hs.ready r' p' cause hp' hcause
  · rw [hfree] at hcause
    cases hcause

/-- What a ready request needs of later entries. -/
theorem Ready.append {g : WorkflowState} {log : List Entry} {cause : String} {entry : Entry}
    (h : Ready g log cause) (hpublished : ∀ p, entry = .published p → p.cause ≠ some cause)
    (hgranted : g.approvalRequired = true →
      entry ≠ .decided g.approvalRequestId .rejected ∧ ∀ t, entry ≠ .terminated t) :
    Ready g (log ++ [entry]) cause := by
  refine ⟨h.nameless, fun p hp => ?_, fun hrequired => ?_⟩
  · rcases List.mem_append.mp hp with hold | hnew
    · exact h.first p hold
    · exact hpublished p (List.mem_singleton.mp hnew).symm
  · refine (h.granted hrequired).append (fun hm => ?_) fun t ht => ?_
    · exact (hgranted hrequired).1 (List.mem_singleton.mp hm).symm
    · exact (hgranted hrequired).2 t (List.mem_singleton.mp ht).symm

/-! ## The calls -/

/-- The task is published. -/
theorem DispatchInv.dispatch {g : WorkflowState} {s : World ρ} (hs : DispatchInv g s) {r : ρ}
    {cause : String} {found next : Workflow} {busUp : Bool}
    (hr : s.requests.find? r = some (.dispatching cause found)) :
    DispatchInv g ((s.dispatch cause busUp).goto r (.writing .resumed found next)) := by
  have hready := hs.ready r _ cause hr rfl
  unfold World.dispatch
  by_cases hup : busUp = true
  · rw [if_pos hup]
    refine hs.goto _ rfl rfl (hs.authorized.publish ?_) ?_ nofun
    · refine ⟨fun request hcause p' hp' => ?_, hready.granted, fun hproject => ?_⟩
      · rw [← Option.some.inj hcause]
        exact hready.first p' hp'
      · exact absurd hready.nameless hproject
    · intro r' p' cause' hne hp' hcause'
      have hother : cause ≠ cause' := by
        rintro rfl
        exact hne (hs.alone r' r p' _ cause hp' hr hcause' rfl)
      refine (hs.ready r' p' cause' hp' hcause').append (fun p hp => ?_) fun _ => ⟨nofun, nofun⟩
      rw [← Entry.published.inj hp]
      exact fun heq => hother (Option.some.inj heq)
  · rw [if_neg hup]
    exact hs.free rfl rfl rfl

/-- A cleared call of a request. -/
theorem DispatchInv.next {g : WorkflowState} {s : World ρ} (hs : DispatchInv g s) {r : ρ}
    {p : Phase} {d : Draw} (hr : s.requests.find? r = some p)
    (hok : cleared g s (.next r d) = true) : DispatchInv g (s.next r d p) := by
  have hover : DispatchInv g (s.goto r .over) := hs.free rfl rfl rfl
  have hfree : ∀ {p : Phase}, p.publishes = none → DispatchInv g (s.goto r p) :=
    fun hp => hs.free rfl rfl hp
  have hend : ∀ {writer : Writer}, DispatchInv g (s.finish r writer) := by
    intro writer
    cases writer <;> exact hs.free rfl rfl rfl
  simp only [cleared, hr, Option.all_some] at hok
  unfold World.next
  cases p with
  | dispatching cause found => exact hs.dispatch hr
  | applying cause =>
    dsimp only
    by_cases hraises : d.raises = true
    · rw [if_pos hraises]
      exact hover
    rw [if_neg hraises]
    cases hrow : s.row with
    | none => exact hover
    | some w =>
      simp only [hraises, Bool.false_or, Bool.and_eq_true, beq_iff_eq, List.all_eq_true,
        Bool.not_eq_true', Bool.or_eq_true] at hok
      rcases hok with ⟨⟨⟨hnameless, hfirst⟩, halone⟩, hgranted⟩
      have hready : Ready g s.log cause := by
        refine ⟨hnameless, fun p hp => ?_, fun hrequired => ?_⟩
        · simpa using hfirst _ hp
        · rcases hgranted with hnot | hgranted
          · rw [hrequired] at hnot
            cases hnot
          · exact granted_iff.mp hgranted
      refine hs.goto [] rfl (List.append_nil _).symm ?_ ?_ ?_
      · rw [List.append_nil]
        exact hs.authorized
      · rw [List.append_nil]
        exact fun r' p' cause' _ hp' hcause' => hs.ready r' p' cause' hp' hcause'
      · intro cause' hcause'
        rw [List.append_nil]
        obtain rfl : cause = cause' := Option.some.inj hcause'
        refine ⟨hready, fun r' p' _ hp' hpublishes => ?_⟩
        have hno := Table.any_rows_eq_false.mp halone r' p' hp'
        rw [hpublishes, beq_self_eq_true] at hno
        cases hno
  | writing writer found next =>
    dsimp only
    by_cases hraises : d.raises = true
    · rw [if_pos hraises]
      exact hend
    rw [if_neg hraises]
    cases writer with
    | event e => exact hs.free rfl (List.append_nil _) rfl
    | resumed => exact hs.free rfl (List.append_nil _) rfl
    | rejected => exact hs.free rfl (List.append_nil _) rfl
    | terminated t =>
      simp only [hraises, Bool.false_or, Bool.or_eq_true, Bool.not_eq_true'] at hok
      refine hs.goto _ rfl rfl (hs.authorized.append (by simp [Writer.entries])) ?_
        (by intro cause h; cases h)
      intro r' p' cause _ hp' hcause
      have hother : ∀ d, Entry.terminated t ≠ Entry.published d := by
        intro d h
        cases h
      refine (hs.ready r' p' cause hp' hcause).append (fun d h => absurd h (hother d))
        fun hrequired => ?_
      rcases hok with hnot | hnobody
      · rw [hrequired] at hnot
        cases hnot
      · have hno := Table.any_rows_eq_false.mp hnobody r' p' hp'
        rw [hcause] at hno
        cases hno
  | handling e =>
    dsimp only
    repeat' split
    all_goals first | exact hend | exact hfree rfl
  | «over» => exact hs
  | consulting cause verdict =>
    dsimp only
    repeat' split
    all_goals exact hfree rfl
  | resuming =>
    dsimp only
    repeat' split
    all_goals exact hfree rfl
  | asking cause =>
    dsimp only
    repeat' split
    all_goals exact hfree rfl
  | recovering =>
    dsimp only
    repeat' split
    all_goals exact hfree rfl
  | reconciling cause =>
    dsimp only
    repeat' split
    all_goals exact hfree rfl
  | rejecting =>
    dsimp only
    repeat' split
    all_goals exact hfree rfl
  | terminating t =>
    dsimp only
    repeat' split
    all_goals exact hfree rfl

/-- The approval engine decides, but revokes no approval on which a task is being published. -/
theorem DispatchInv.decide {g : WorkflowState} {s : World ρ} (hs : DispatchInv g s)
    {request : String} {verdict : Verdict} {approvals : Table String Verdict}
    (hok : cleared g s (.decide request verdict) = true) :
    DispatchInv g { s with
      approvals := approvals
      log := s.log ++ [.decided request verdict] } := by
  refine ⟨hs.authorized.append (by simp), fun r p cause hp hcause => ?_, hs.alone⟩
  refine (hs.ready r p cause hp hcause).append nofun fun hrequired => ⟨fun heq => ?_, nofun⟩
  rw [Entry.decided.injEq] at heq
  rcases heq with ⟨rfl, rfl⟩
  simp only [cleared, hrequired, Bool.not_true, Bool.false_or, bne_self_eq_false,
    Bool.not_eq_true'] at hok
  have hno := Table.any_rows_eq_false.mp hok r p hp
  rw [hcause] at hno
  cases hno

omit [DecidableEq ρ] in
theorem begins_publishes {a : Act ρ} {r : ρ} {p : Phase} (h : a.begins = some (r, p)) :
    p.publishes = none := by
  cases a <;> simp only [Act.begins, Option.some.injEq, Prod.mk.injEq, reduceCtorEq] at h
  all_goals
    rw [← h.2]
    rfl

/-- **The step lemma.** -/
theorem step_dispatch {g : WorkflowState} {s t : World ρ} {a : Act ρ} (hs : DispatchInv g s)
    (hok : cleared g s a = true) (h : step s a = some t) : DispatchInv g t := by
  rcases step_cases h with ⟨r, p, hbegins, -, rfl⟩ | ⟨request, verdict, rfl, rfl⟩ |
    ⟨r, d, p, rfl, hr, rfl⟩ | ⟨r, p, rfl, -, rfl⟩
  · exact hs.free rfl rfl (begins_publishes hbegins)
  · exact hs.decide hok
  · exact hs.next hr hok
  · exact hs.free rfl rfl rfl

/-! ## Runs -/

/-- The world after the run of the graph. -/
def World.after (run : GraphRun) : World ρ := World.idle run.row run.log

/-- After every run of the graph, cleared requests publish lawfully only. -/
theorem dispatches_authorized {env : Environment} {request : TaskRequest}
    {before : Option Workflow} {s : World ρ}
    (hrouting : (runMockWorkflow env request before).state.projectId = "" ∨
      env.keepsRouting before = true)
    (h : Reaches
      (guard (fun s a => cleared (runMockWorkflow env request before).state s a = true) step)
      (World.after (runMockWorkflow env request before)) s) :
    Authorized (runMockWorkflow env request before).state s.log := by
  generalize hrun : runMockWorkflow env request before = run at *
  have hstart : DispatchInv run.state (World.after run : World ρ) := by
    refine ⟨?_, ?_, ?_⟩
    · have hauthorized := @authorized_runMockWorkflow env request before
      rw [hrun] at hauthorized
      exact hauthorized hrouting
    · exact fun r p _ hp => absurd hp (by simp [World.after, World.idle])
    · exact fun r _ p _ _ hp => absurd hp (by simp [World.after, World.idle])
  refine (h.invariant (P := DispatchInv run.state) (fun s a t hs ha => ?_) hstart).authorized
  rcases guard_eq_some.mp ha with ⟨hok, hstep⟩
  exact step_dispatch hs hok hstep

/-! ### Two runs -/

/-- The services answer, the policy asks for an approval, and every write succeeds. -/
def services : Environment where
  creates := true
  persists := fun _ => true
  team := some none
  policy := some (true, "high")
  approval := some "request-1"
  eligible := some true
  busUp := true
  taskId := "task-1"

/-- The approval is granted, and its event handled. -/
def approvalRun (r : Nat) : List (Act Nat) :=
  ([.decide "request-1" .approved, .approvalEvent r "request-1" .approved] : List (Act Nat)) ++
    List.replicate 4 (.next r {})

/-- The event is delivered again. -/
def redelivery (r : Nat) : List (Act Nat) :=
  .approvalEvent r "request-1" .approved :: List.replicate 4 (.next r {})

/-- The publications of a log. -/
def published (log : List Entry) : List Publication :=
  log.filterMap fun entry =>
    match entry with
    | .published p => some p
    | _ => none

theorem approved_dispatch : ∃ s : World Nat,
    runActs (guard (fun s a => cleared (runMockWorkflow services {} none).state s a = true) step)
      (World.after (runMockWorkflow services {} none)) (approvalRun 1) = some s ∧
    (published s.log).length = 1 ∧ Authorized (runMockWorkflow services {} none).state s.log := by
  have h : (runActs (guard (fun s a => cleared (runMockWorkflow services {} none).state s a = true)
      step) (World.after (runMockWorkflow services {} none)) (approvalRun 1)).any
      (fun s : World Nat => (published s.log).length == 1) = true := by decide +kernel
  rcases (Option.any_eq_true _ _).mp h with ⟨s, hs, hlength⟩
  exact ⟨s, hs, beq_iff_eq.mp hlength,
    dispatches_authorized (Or.inl (by decide +kernel)) (reaches_of_runActs hs)⟩

/-- One approval publishes the task twice. -/
theorem dispatched_twice : ¬∀ s : World Nat,
    Reaches step (World.after (runMockWorkflow services {} none)) s →
      Authorized (runMockWorkflow services {} none).state s.log := by
  intro hall
  have h : (runActs step (World.after (runMockWorkflow services {} none))
      (approvalRun 1 ++ redelivery 2)).any (fun s : World Nat => s.log ==
        [.decided "request-1" .approved, .published ⟨some "request-1", none, some .notRouted⟩,
          .published ⟨some "request-1", none, some .notRouted⟩]) = true := by decide +kernel
  rcases (Option.any_eq_true _ _).mp h with ⟨s, hs, hlog⟩
  rw [beq_iff_eq] at hlog
  have hlawful := hall s (reaches_of_runActs hs) [.decided "request-1" .approved,
    .published ⟨some "request-1", none, some .notRouted⟩] _ [] hlog
  exact hlawful.once "request-1" rfl ⟨some "request-1", none, some .notRouted⟩ (by simp) rfl

end AiAgentsSwd.Orchestrator
