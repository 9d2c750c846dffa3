import AiAgentsSwd.AgentTeam.Router

/-!
# Planning.Assignment — who takes a plan step

Model of `resolve_step_assignment` and `_considered_against_all` of
`shared/sdk/plan_delegation/models.py`: the router's choice for a conjunction of
capabilities, with the evidence rebuilt over all candidates.

`resolveStepAssignment_choice` says what is chosen: nobody, where the step is gated or asks
for no capability first, and else the least of the candidates that fit the step. Main
results: `resolveStepAssignment_spec` and `evidenceAgrees_iff`.
-/

namespace AiAgentsSwd.Planning

open AgentTeam (RoutingCandidate Considered Choice requiresHumanApproval eligibleFor)

section Resolve

variable (printable : Char → Bool)

/-- `rejected`, as the loop of `_considered_against_all` leaves it. -/
def rejectedFor (c : RoutingCandidate) : List String → String
  | [] => ""
  | capability :: rest =>
    let reason := c.ineligibility capability
    if reason = "" then rejectedFor c rest
    else if reason ≠ "capability_not_declared" then reason
    else "missing:" ++ capability

/-- `_considered_against_all(candidate, capabilities)` -/
def consideredAgainstAll (capabilities : List String) (c : RoutingCandidate) : Considered :=
  c.entry (rejectedFor c capabilities)

/-- `gated` -/
def gatedCapability (capabilities : List String) : Option String :=
  capabilities.find? fun c => requiresHumanApproval c

/-- `primary`; a gated capability is never empty. -/
def primaryCapability (capabilities : List String) : String :=
  (gatedCapability capabilities).getD (capabilities.headD "")

/-- The candidates handed to the router. -/
def prefiltered (capabilities : List String) (candidates : List RoutingCandidate) :
    List RoutingCandidate :=
  if gatedCapability capabilities = none ∧ 1 < capabilities.length then
    let secondary := capabilities.filter fun c => c ≠ primaryCapability capabilities
    candidates.filter fun c => secondary.all fun capability => c.ineligibility capability = ""
  else candidates

/-- The texts that replace the router's reason. -/
def assignmentReason (capabilities : List String) (candidates : List RoutingCandidate)
    (decision : AgentTeam.RoutingDecision) : String :=
  let joined := ", ".intercalate capabilities
  if capabilities = [] then
    "the plan step declares no required capability, so no agent can be selected " ++
      "from capability"
  else if 1 < capabilities.length ∧ decision.outcome = .selected then
    decision.reason ++ "; covers all of " ++ joined
  else if 1 < capabilities.length ∧ decision.outcome = .noEligibleAgent then
    "no active team member covers all of " ++ joined ++ " (" ++ toString candidates.length ++
      " member(s) considered)"
  else decision.reason

/-- `resolve_step_assignment(required_capabilities, candidates, intended_owner_role)`: the
project and the work item reach no answer of the router. -/
def resolveStepAssignment (capabilities : List String) (candidates : List RoutingCandidate)
    (intendedOwnerRole : Option String) : AgentTeam.RoutingDecision :=
  let decision := AgentTeam.route printable
    { requestedCapability := primaryCapability capabilities, preferredRole := intendedOwnerRole }
    (prefiltered capabilities candidates)
  { decision with
    reason := assignmentReason capabilities candidates decision
    candidatesConsidered := candidates.map (consideredAgainstAll capabilities) }

end Resolve

/-! ## What is chosen -/

/-- The candidate can take a step that requires all of the capabilities. -/
def Fits (capabilities : List String) (c : RoutingCandidate) : Prop :=
  c.Active ∧ ∀ capability ∈ capabilities, capability ∈ c.capabilities

/-- Some required capability has production effect. -/
def Gated (capabilities : List String) : Prop :=
  ∃ c ∈ capabilities, requiresHumanApproval c = true

instance (capabilities : List String) : Decidable (Gated capabilities) :=
  inferInstanceAs (Decidable (∃ c ∈ capabilities, requiresHumanApproval c = true))

theorem gatedCapability_eq_none {capabilities : List String} :
    gatedCapability capabilities = none ↔ ¬ Gated capabilities := by
  simp [gatedCapability, Gated]

/-- All of a non-empty conjunction is a matter of the first conjunct and of the others. -/
theorem fits_iff {first : String} {rest : List String} {c : RoutingCandidate} :
    Fits (first :: rest) c ↔
      (∀ capability ∈ rest, capability ≠ first → c.ineligibility capability = "") ∧
        c.ineligibility first = "" := by
  simp only [AgentTeam.ineligibility_eq_empty, Fits, List.forall_mem_cons]
  constructor
  · rintro ⟨hactive, hfirst, hrest⟩
    exact ⟨fun capability hc _ => ⟨hactive, hrest capability hc⟩, hactive, hfirst⟩
  · rintro ⟨hrest, hactive, hfirst⟩
    refine ⟨hactive, hfirst, fun capability hc => ?_⟩
    by_cases heq : capability = first
    · exact heq ▸ hfirst
    · exact (hrest capability hc heq).2

/-- The prefilter and the router's own filter together leave the candidates that fit. -/
theorem mem_eligible {first : String} {rest : List String} (h : ¬ Gated (first :: rest))
    {candidates : List RoutingCandidate} {c : RoutingCandidate} :
    c ∈ eligibleFor first (prefiltered (first :: rest) candidates) ↔
      c ∈ candidates ∧ Fits (first :: rest) c := by
  have hgated := gatedCapability_eq_none.mpr h
  have hprimary : primaryCapability (first :: rest) = first := by
    simp [primaryCapability, hgated]
  rw [fits_iff]
  unfold eligibleFor prefiltered
  rw [List.mem_filter]
  rcases rest with - | ⟨second, rest⟩
  · simp
  · have hall : (((first :: second :: rest).filter fun x => x ≠ first).all fun capability =>
        c.ineligibility capability = "") = true ↔
        ∀ capability ∈ second :: rest, capability ≠ first → c.ineligibility capability = "" := by
      rw [List.all_eq_true]
      constructor
      · intro hrest capability hc hne
        have hmem := List.mem_cons_of_mem first hc
        simpa using hrest capability (List.mem_filter.mpr ⟨hmem, by simpa using hne⟩)
      · intro hrest capability hc
        obtain ⟨hmem, hne⟩ := List.mem_filter.mp hc
        have hne' : capability ≠ first := by simpa using hne
        simpa using hrest capability ((List.mem_cons.mp hmem).resolve_left hne') hne'
    rw [if_pos ⟨hgated, by simp⟩, hprimary, List.mem_filter, hall, decide_eq_true_eq, and_assoc]

theorem requiresHumanApproval_ne_empty {capability : String}
    (h : requiresHumanApproval capability = true) : capability ≠ "" := by
  rintro rfl
  exact absurd h (by decide)

/-- What is chosen: nobody for a gated step or one whose first capability is empty, and else
the least candidate that the prefilter and the router leave. -/
theorem resolveStepAssignment_choice (printable : Char → Bool) (capabilities : List String)
    (candidates : List RoutingCandidate) (role : Option String) :
    (resolveStepAssignment printable capabilities candidates role).choice =
      if gatedCapability capabilities ≠ none then .nobody .requiresHumanApproval
      else if capabilities.headD "" = "" then .nobody .noEligibleAgent
      else .least role
        (eligibleFor (capabilities.headD "") (prefiltered capabilities candidates)) := by
  have hroute := AgentTeam.route_choice printable
    (show (⟨primaryCapability capabilities, "", role⟩ : AgentTeam.RoutingRequest).workflowStage =
      "" from rfl)
    (prefiltered capabilities candidates)
  refine Eq.trans (show _ = (AgentTeam.route printable _ _).choice from rfl) (hroute.trans ?_)
  rcases hgated : gatedCapability capabilities with - | capability
  · have hprimary : primaryCapability capabilities = capabilities.headD "" := by
      simp [primaryCapability, hgated]
    simp only [hprimary, ne_eq, not_true_eq_false, if_false]
    split_ifs with hempty happroval
    · rfl
    · -- the first capability is one of the set, which is not gated
      rcases capabilities with - | ⟨first, rest⟩
      · exact absurd rfl hempty
      · exact absurd ⟨first, List.mem_cons_self, happroval⟩
          (gatedCapability_eq_none.mp hgated)
    · rfl
  · have happroval : requiresHumanApproval capability = true := List.find?_some hgated
    have hprimary : primaryCapability capabilities = capability := by
      simp [primaryCapability, hgated]
    simp [hprimary, happroval, requiresHumanApproval_ne_empty happroval]

/-- The least of some candidates: nobody where there are none, and else one that no other
precedes. -/
theorem least_cases (role : Option String) (eligible : List RoutingCandidate) :
    (eligible = [] ∧ Choice.least role eligible = .nobody .noEligibleAgent) ∨
      ∃ w ∈ eligible, Choice.least role eligible = .of w ∧
        ∀ c ∈ eligible, ¬ AgentTeam.Precedes role c w := by
  unfold Choice.least
  rcases hmin : eligible.argmin (AgentTeam.rank role) with - | w
  · exact Or.inl ⟨List.argmin_eq_none.mp hmin, rfl⟩
  · refine Or.inr ⟨w, List.argmin_mem hmin, rfl, fun c hc hprec => ?_⟩
    have hle := List.le_of_mem_argmin hc hmin
    exact absurd (AgentTeam.rank_lt_iff.mpr hprec) (not_lt.mpr hle)

/-- Among candidates with distinct keys, one that no other precedes precedes all others. -/
theorem precedes_of_not {candidates : List RoutingCandidate}
    (hkeys : (candidates.map (·.agentKey)).Nodup) {role : Option String}
    {w c : RoutingCandidate} (hw : w ∈ candidates) (hc : c ∈ candidates) (hne : c ≠ w)
    (h : ¬ AgentTeam.Precedes role c w) : AgentTeam.Precedes role w c := by
  rw [← AgentTeam.rank_lt_iff] at h ⊢
  refine lt_of_le_of_ne (not_lt.mp h) fun heq => hne ?_
  exact (List.inj_on_of_nodup_map hkeys hw hc (AgentTeam.agentKey_of_rank heq)).symm

/-- A step that names a capability first and is not gated is given to nobody where nobody fits
it, and else to one that fits and that no other that fits precedes. -/
theorem choice_of_ungated (printable : Char → Bool) {capabilities : List String}
    (hgated : ¬ Gated capabilities) (hfirst : capabilities.headD "" ≠ "")
    (candidates : List RoutingCandidate) (role : Option String) :
    ((∀ c ∈ candidates, ¬ Fits capabilities c) ∧
      (resolveStepAssignment printable capabilities candidates role).choice =
        .nobody .noEligibleAgent) ∨
    ∃ w ∈ candidates, Fits capabilities w ∧
      (resolveStepAssignment printable capabilities candidates role).choice = .of w ∧
      ∀ c ∈ candidates, Fits capabilities c → ¬ AgentTeam.Precedes role c w := by
  rw [resolveStepAssignment_choice, if_neg (by simpa using gatedCapability_eq_none.mpr hgated),
    if_neg hfirst]
  rcases capabilities with - | ⟨first, rest⟩
  · exact absurd rfl hfirst
  · rcases least_cases role (eligibleFor first (prefiltered (first :: rest) candidates)) with
      ⟨hnone, hchoice⟩ | ⟨w, hw, hchoice, hleast⟩
    · refine Or.inl ⟨fun c hc hfits => ?_, hchoice⟩
      have hmem := (mem_eligible hgated).mpr ⟨hc, hfits⟩
      rw [hnone] at hmem
      cases hmem
    · obtain ⟨hmem, hfits⟩ := (mem_eligible hgated).mp hw
      refine Or.inr ⟨w, hmem, hfits, hchoice, fun c hc hfits' => ?_⟩
      exact hleast c ((mem_eligible hgated).mpr ⟨hc, hfits'⟩)

/-- A step that is gated, or whose first capability is empty, is given to nobody. -/
theorem choice_of_refused (printable : Char → Bool) {capabilities : List String}
    (h : Gated capabilities ∨ capabilities.headD "" = "") (candidates : List RoutingCandidate)
    (role : Option String) :
    (resolveStepAssignment printable capabilities candidates role).choice =
      .nobody (if Gated capabilities then .requiresHumanApproval else .noEligibleAgent) := by
  rw [resolveStepAssignment_choice]
  by_cases hgated : Gated capabilities
  · rw [if_pos (fun hnone => gatedCapability_eq_none.mp hnone hgated), if_pos hgated]
  · rw [if_neg (by simpa using gatedCapability_eq_none.mpr hgated),
      if_pos (h.resolve_left hgated), if_neg hgated]

/-- A step is referred to a human when it is gated, and only then. -/
theorem outcome_gated_iff (printable : Char → Bool) {capabilities : List String}
    {candidates : List RoutingCandidate} {role : Option String} :
    (resolveStepAssignment printable capabilities candidates role).outcome =
      .requiresHumanApproval ↔ Gated capabilities := by
  constructor
  · intro h
    by_contra hgated
    by_cases hfirst : capabilities.headD "" = ""
    · have hchoice := choice_of_refused printable (Or.inr hfirst) candidates role
      rw [if_neg hgated] at hchoice
      cases h.symm.trans (congrArg Choice.outcome hchoice)
    · rcases choice_of_ungated printable hgated hfirst candidates role with
        ⟨-, hchoice⟩ | ⟨w, -, -, hchoice, -⟩
      · cases h.symm.trans (congrArg Choice.outcome hchoice)
      · cases h.symm.trans (congrArg Choice.outcome hchoice)
  · intro hgated
    have hchoice := choice_of_refused printable (Or.inl hgated) candidates role
    rw [if_pos hgated] at hchoice
    exact congrArg Choice.outcome hchoice

/-- Whoever is selected fits the step, and no other that fits precedes them. -/
theorem selected_fits {printable : Char → Bool} {capabilities : List String}
    {candidates : List RoutingCandidate} {role : Option String}
    (h : (resolveStepAssignment printable capabilities candidates role).outcome = .selected) :
    capabilities.headD "" ≠ "" ∧ ∃ w ∈ candidates, Fits capabilities w ∧
      (resolveStepAssignment printable capabilities candidates role).choice = .of w ∧
      ∀ c ∈ candidates, Fits capabilities c → ¬ AgentTeam.Precedes role c w := by
  have hgated : ¬ Gated capabilities := by
    intro hgated
    cases h.symm.trans ((outcome_gated_iff printable).mpr hgated)
  by_cases hfirst : capabilities.headD "" = ""
  · have hchoice := choice_of_refused printable (Or.inr hfirst) candidates role
    rw [if_neg hgated] at hchoice
    cases h.symm.trans (congrArg Choice.outcome hchoice)
  · rcases choice_of_ungated printable hgated hfirst candidates role with
      ⟨-, hchoice⟩ | hselected
    · cases h.symm.trans (congrArg Choice.outcome hchoice)
    · exact ⟨hfirst, hselected⟩

/-- Where the router finds nobody for a step that names a capability first, nobody fits. -/
theorem not_fits_of_noEligible {printable : Char → Bool} {capabilities : List String}
    {candidates : List RoutingCandidate} {role : Option String}
    (h : (resolveStepAssignment printable capabilities candidates role).outcome =
      .noEligibleAgent) (hfirst : capabilities.headD "" ≠ "") :
    ∀ c ∈ candidates, ¬ Fits capabilities c := by
  have hgated : ¬ Gated capabilities := by
    intro hgated
    cases h.symm.trans ((outcome_gated_iff printable).mpr hgated)
  rcases choice_of_ungated printable hgated hfirst candidates role with
    ⟨hnone, -⟩ | ⟨w, -, -, hchoice, -⟩
  · exact hnone
  · cases h.symm.trans (congrArg Choice.outcome hchoice)

/-- **Step assignment.** A step is referred to a human when one of its capabilities has
production effect, and only then. Any other step is given to a candidate when its first
capability is not empty and some candidate fits it, and only then: to the one that precedes
every other that fits. Permuting the candidates or the capabilities changes nothing, unless
it moves an empty capability to or from the first place. -/
theorem resolveStepAssignment_spec (printable : Char → Bool) (capabilities : List String)
    {candidates : List RoutingCandidate} (hkeys : (candidates.map (·.agentKey)).Nodup)
    (role : Option String) :
    ((resolveStepAssignment printable capabilities candidates role).outcome =
        .requiresHumanApproval ↔ Gated capabilities) ∧
    (¬ Gated capabilities →
      ((resolveStepAssignment printable capabilities candidates role).outcome = .selected ↔
        capabilities.headD "" ≠ "" ∧ ∃ c ∈ candidates, Fits capabilities c) ∧
      ((resolveStepAssignment printable capabilities candidates role).outcome = .selected →
        ∃ w ∈ candidates, Fits capabilities w ∧
          (resolveStepAssignment printable capabilities candidates role).choice = .of w ∧
          ∀ c ∈ candidates, Fits capabilities c → c ≠ w → AgentTeam.Precedes role w c)) ∧
    ∀ capabilities' candidates', capabilities'.Perm capabilities → candidates'.Perm candidates →
      (capabilities'.headD "" = "" ↔ capabilities.headD "" = "") →
      (resolveStepAssignment printable capabilities' candidates' role).choice =
        (resolveStepAssignment printable capabilities candidates role).choice := by
  refine ⟨outcome_gated_iff printable, fun hgated => ⟨⟨fun h => ?_, ?_⟩, fun h => ?_⟩,
    fun capabilities' candidates' hcaps hcands hheads => ?_⟩
  · obtain ⟨hfirst, w, hw, hfits, -⟩ := selected_fits h
    exact ⟨hfirst, w, hw, hfits⟩
  · rintro ⟨hfirst, c, hc, hfits⟩
    rcases choice_of_ungated printable hgated hfirst candidates role with
      ⟨hnone, -⟩ | ⟨w, -, -, hchoice, -⟩
    · exact absurd hfits (hnone c hc)
    · exact congrArg Choice.outcome hchoice
  · obtain ⟨-, w, hw, hfits, hchoice, hleast⟩ := selected_fits h
    exact ⟨w, hw, hfits, hchoice, fun c hc hfits' hne =>
      precedes_of_not hkeys hw hc hne (hleast c hc hfits')⟩
  · have hgated : Gated capabilities' ↔ Gated capabilities := by
      simp only [Gated, hcaps.mem_iff]
    have hfits : ∀ c, Fits capabilities' c ↔ Fits capabilities c := by
      simp only [Fits, hcaps.mem_iff, implies_true]
    by_cases hrefused : Gated capabilities ∨ capabilities.headD "" = ""
    · rw [choice_of_refused printable hrefused candidates role, choice_of_refused printable
        (by rw [hgated, hheads]; exact hrefused) candidates' role]
      simp only [hgated]
    · obtain ⟨hnot, hfirst⟩ := not_or.mp hrefused
      rcases choice_of_ungated printable hnot hfirst candidates role with
        ⟨hnone, hchoice⟩ | ⟨w, hw, hfit, hchoice, hleast⟩ <;>
      rcases choice_of_ungated printable (hgated.not.mpr hnot) (hheads.not.mpr hfirst)
          candidates' role with ⟨hnone', hchoice'⟩ | ⟨w', hw', hfit', hchoice', hleast'⟩
      · rw [hchoice, hchoice']
      · exact absurd ((hfits w').mp hfit') (hnone w' (hcands.mem_iff.mp hw'))
      · exact absurd ((hfits w).mpr hfit) (hnone' w (hcands.mem_iff.mpr hw))
      · -- of two candidates with distinct keys one precedes the other
        have hsame : w' = w := by
          by_contra hne
          have hw'' := hcands.mem_iff.mp hw'
          have hprec := precedes_of_not hkeys hw hw'' hne
            (hleast w' hw'' ((hfits w').mp hfit'))
          exact hleast' w (hcands.mem_iff.mpr hw) ((hfits w).mpr hfit) hprec
        rw [hchoice, hchoice', hsame]

/-- Two peers: the one with the lesser key takes the step, whatever their order. -/
def peers : List RoutingCandidate :=
  [{ principalId := "p1", agentKey := "alpha-agent", role := "development"
     capabilities := {"generate_code"}, transportStream := some "stream.alpha" },
   { principalId := "p2", agentKey := "beta-agent", role := "development"
     capabilities := {"generate_code"}, transportStream := some "stream.beta" }]

theorem resolveStepAssignment_spec_peers :
    (resolveStepAssignment (fun _ => true) ["generate_code"] peers.reverse none).choice =
      (resolveStepAssignment (fun _ => true) ["generate_code"] peers none).choice :=
  (resolveStepAssignment_spec (fun _ => true) ["generate_code"]
    (show (peers.map (·.agentKey)).Nodup by decide +kernel) none).2.2 _ _ (List.Perm.refl _)
    (List.reverse_perm _) Iff.rfl

/-- A member who declares the empty capability. -/
def blankMember : RoutingCandidate :=
  { principalId := "p1", agentKey := "alpha-agent", role := "development"
    capabilities := {""}, transportStream := some "stream.alpha" }

/-- A step that requires the empty capability is given to nobody, though a member who can take
work declares it: the router takes it as no capability at all. -/
theorem empty_capability_unassigned :
    Fits [""] blankMember ∧ ¬ Gated [""] ∧
      (resolveStepAssignment (fun _ => true) [""] [blankMember] none).outcome =
        .noEligibleAgent := by
  refine ⟨⟨⟨rfl, rfl, by decide +kernel⟩, by decide +kernel⟩, by decide +kernel, ?_⟩
  exact congrArg Choice.outcome
    (choice_of_refused (fun _ => true) (Or.inr (show [""].headD "" = "" from rfl)) [blankMember]
      none)

/-! ## The evidence -/

/-- The evidence of a decision over some candidates agrees with the decision. -/
structure EvidenceAgrees (candidates : List RoutingCandidate) (d : AgentTeam.RoutingDecision) :
    Prop where
  /-- the entry for the selected principal is marked eligible -/
  selected : d.outcome = .selected → ∃ e ∈ d.candidatesConsidered,
    d.selectedPrincipalId = some e.principalId ∧ d.selectedAgentKey = some e.agentKey ∧
      e.eligible = true
  /-- no entry is marked eligible where nobody is -/
  noEligible : d.outcome = .noEligibleAgent → ∀ e ∈ d.candidatesConsidered, e.eligible = false
  /-- a candidate whose membership or profile is not active is marked ineligible -/
  inactive : ∀ x ∈ candidates.zip d.candidatesConsidered,
    x.1.membershipState ≠ "active" ∨ x.1.profileStatus ≠ "active" → x.2.eligible = false

theorem rejectedFor_eq_empty {c : RoutingCandidate} {capabilities : List String} :
    rejectedFor c capabilities = "" ↔ ∀ x ∈ capabilities, c.ineligibility x = "" := by
  induction capabilities with
  | nil => simp [rejectedFor]
  | cons x rest ih =>
    rw [rejectedFor, List.forall_mem_cons]
    split_ifs with hx hdeclared
    · simp [hx, ih]
    · simp [hx]
    · simp [hx, String.append_eq_empty_iff]

/-- An entry is marked eligible when nothing is required, or when the candidate fits. -/
theorem eligible_iff {c : RoutingCandidate} {capabilities : List String} :
    (consideredAgainstAll capabilities c).eligible = true ↔
      capabilities = [] ∨ Fits capabilities c := by
  simp only [consideredAgainstAll, RoutingCandidate.entry, decide_eq_true_eq,
    rejectedFor_eq_empty, AgentTeam.ineligibility_eq_empty, Fits]
  rcases capabilities with - | ⟨first, rest⟩
  · simp
  · constructor
    · intro h
      exact Or.inr ⟨(h first List.mem_cons_self).1, fun x hx => (h x hx).2⟩
    · intro h x hx
      obtain ⟨hactive, hall⟩ := h.resolve_left (List.cons_ne_nil _ _)
      exact ⟨hactive, hall x hx⟩

theorem mem_zip_map {α β : Type} {f : α → β} {l : List α} {x : α × β}
    (h : x ∈ l.zip (l.map f)) : x.1 ∈ l ∧ x.2 = f x.1 := by
  induction l with
  | nil => cases h
  | cons a l ih =>
    rw [List.map_cons, List.zip_cons_cons] at h
    rcases List.mem_cons.mp h with rfl | h
    · exact ⟨List.mem_cons_self, rfl⟩
    · exact ⟨List.mem_cons_of_mem _ (ih h).1, (ih h).2⟩

/-- **When the evidence agrees with the decision.** Exactly when something is required of
whatever candidates there are, and an empty capability does not come first in a step that is
not gated and that some candidate fits. -/
theorem evidenceAgrees_iff (printable : Char → Bool) (capabilities : List String)
    (candidates : List RoutingCandidate) (role : Option String) :
    EvidenceAgrees candidates (resolveStepAssignment printable capabilities candidates role) ↔
      (capabilities = [] → candidates = []) ∧
      (capabilities.head? = some "" → Gated capabilities ∨
        ∀ c ∈ candidates, ¬ Fits capabilities c) := by
  constructor
  · intro h
    constructor
    · rintro rfl
      -- nothing is required: the loop rejects nobody, and the router chooses nobody
      have hchoice := choice_of_refused printable (Or.inr (show [].headD "" = "" from rfl))
        candidates role
      have hnone := h.noEligible (congrArg Choice.outcome hchoice)
      rcases candidates with - | ⟨c, candidates⟩
      · rfl
      · have hentry := hnone (consideredAgainstAll [] c) List.mem_cons_self
        rw [eligible_iff.mpr (Or.inl rfl)] at hentry
        cases hentry
    · intro hhead
      by_cases hgated : Gated capabilities
      · exact Or.inl hgated
      · refine Or.inr fun c hc hfits => ?_
        have hfirst : capabilities.headD "" = "" := by
          rw [List.headD_eq_head?_getD, hhead]
          rfl
        have hchoice := choice_of_refused printable (Or.inr hfirst) candidates role
        rw [if_neg hgated] at hchoice
        have hentry := h.noEligible (congrArg Choice.outcome hchoice)
          (consideredAgainstAll capabilities c) (List.mem_map_of_mem hc)
        rw [eligible_iff.mpr (Or.inr hfits)] at hentry
        cases hentry
  · rintro ⟨hempty, hblank⟩
    have hineligible : ∀ c ∈ candidates, ¬ Fits capabilities c →
        (consideredAgainstAll capabilities c).eligible = false := by
      intro c hc hfits
      rw [← Bool.not_eq_true, eligible_iff, not_or]
      refine ⟨fun hnil => ?_, hfits⟩
      rw [hempty hnil] at hc
      cases hc
    refine ⟨fun houtcome => ?_, fun houtcome e he => ?_, fun x hx hinactive => ?_⟩
    · obtain ⟨-, w, hw, hfits, hchoice, -⟩ := selected_fits houtcome
      refine ⟨consideredAgainstAll capabilities w, List.mem_map_of_mem hw, ?_, ?_, ?_⟩
      · exact congrArg Choice.principalId hchoice
      · exact congrArg Choice.agentKey hchoice
      · exact eligible_iff.mpr (Or.inr hfits)
    · obtain ⟨c, hc, rfl⟩ := List.mem_map.mp he
      refine hineligible c hc ?_
      by_cases hfirst : capabilities.headD "" = ""
      · rcases capabilities with - | ⟨first, rest⟩
        · rw [hempty rfl] at hc
          cases hc
        · refine (hblank (by simpa using hfirst)).resolve_left (fun hgated => ?_) c hc
          have hchoice := choice_of_refused printable (Or.inl hgated) candidates role
          rw [if_pos hgated] at hchoice
          exact absurd (houtcome.symm.trans (congrArg Choice.outcome hchoice)) (by decide)
      · exact not_fits_of_noEligible houtcome hfirst c hc
    · obtain ⟨hc, hentry⟩ := mem_zip_map hx
      rw [hentry]
      refine hineligible x.1 hc fun hfits => ?_
      exact hinactive.elim (· hfits.1.membership) (· hfits.1.profile)

/-- A paused member. -/
def pausedMember : RoutingCandidate :=
  { principalId := "p1", agentKey := "alpha-agent", role := "development"
    capabilities := {"generate_code"}, transportStream := some "stream.alpha"
    membershipState := "paused" }

/-- For a step without capabilities nobody is eligible, and yet every member is marked
eligible, a paused one too. -/
theorem no_capability_all_eligible :
    (resolveStepAssignment (fun _ => true) [] [pausedMember] none).outcome = .noEligibleAgent ∧
    ¬ EvidenceAgrees [pausedMember]
      (resolveStepAssignment (fun _ => true) [] [pausedMember] none) := by
  have houtcome := congrArg Choice.outcome
    (choice_of_refused (fun _ => true) (Or.inr (show [].headD "" = "" from rfl)) [pausedMember]
      none)
  refine ⟨houtcome, fun h => ?_⟩
  have hentry := h.noEligible houtcome (consideredAgainstAll [] pausedMember) List.mem_cons_self
  rw [eligible_iff.mpr (Or.inl rfl)] at hentry
  cases hentry

end AiAgentsSwd.Planning
