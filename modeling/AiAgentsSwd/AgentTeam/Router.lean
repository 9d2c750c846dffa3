import AiAgentsSwd.Planning.Models
import AiAgentsSwd.Python.Values
import Mathlib.Data.Finset.Card
import Mathlib.Data.List.MinMax
import Mathlib.Data.Prod.Lex
import Mathlib.Data.String.Basic

/-!
# AgentTeam.Router — choosing who takes a capability

Model of `shared/sdk/agent_team/router.py` with the policy boundary of `capabilities.py`:
the ineligibility of a candidate, the rank of the eligible ones and `route`.

Main results: `route_choice`, the answers of `route`, and `rank_lt_iff`, the order it prefers.
-/

namespace AiAgentsSwd.AgentTeam

open Planning (RoutingOutcome)

/-! ## Candidates -/

/-- `APPROVAL_REQUIRED_CAPABILITIES` -/
def APPROVAL_REQUIRED_CAPABILITIES : List String :=
  ["execute_production_action", "deploy_production", "publish_external_artifact"]

/-- `requires_human_approval(capability)` -/
def requiresHumanApproval (capability : String) : Bool :=
  APPROVAL_REQUIRED_CAPABILITIES.contains capability

/-- `NON_ROUTABLE_WORKFLOW_STAGES` -/
def NON_ROUTABLE_WORKFLOW_STAGES : List String :=
  ["waiting_approval", "halted", "blocked_pending_approval"]

/-- `RoutingCandidate` -/
structure RoutingCandidate where
  principalId : String
  agentKey : String
  role : String
  capabilities : Finset String
  transportStream : Option String := none
  membershipState : String := "active"
  profileStatus : String := "active"
deriving DecidableEq

/-- `not self.transport_stream` -/
def RoutingCandidate.noTransport (c : RoutingCandidate) : Bool :=
  c.transportStream = none || c.transportStream = some ""

/-- `RoutingCandidate.ineligibility(capability)`: empty when the candidate can take it. -/
def RoutingCandidate.ineligibility (c : RoutingCandidate) (capability : String) : String :=
  if c.membershipState ≠ "active" then "membership_state=" ++ c.membershipState
  else if c.profileStatus ≠ "active" then "profile_status=" ++ c.profileStatus
  else if capability ∉ c.capabilities then "capability_not_declared"
  else if c.noTransport then "no_transport_stream"
  else ""

/-- One entry of `candidates_considered`. -/
structure Considered where
  principalId : String
  agentKey : String
  role : String
  eligible : Bool
  rejectedBecause : Option String
deriving Repr, DecidableEq

/-- The entry of a candidate that is rejected for `reason`, or eligible when it is empty. -/
def RoutingCandidate.entry (c : RoutingCandidate) (reason : String) : Considered where
  principalId := c.principalId
  agentKey := c.agentKey
  role := c.role
  eligible := reason = ""
  rejectedBecause := if reason = "" then none else some reason

/-- `_considered(candidate, capability)` -/
def considered (c : RoutingCandidate) (capability : String) : Considered :=
  c.entry (c.ineligibility capability)

/-- `RoutingRequest`, as far as `route` reads it. -/
structure RoutingRequest where
  requestedCapability : String
  workflowStage : String := ""
  preferredRole : Option String := none

/-- `RoutingDecision` -/
structure RoutingDecision where
  outcome : RoutingOutcome
  requestedCapability : String
  reason : String
  selectedPrincipalId : Option String := none
  selectedRole : Option String := none
  selectedAgentKey : Option String := none
  selectedStream : Option String := none
  candidatesConsidered : List Considered
deriving Repr, DecidableEq

/-- `request.preferred_role and candidate.role == request.preferred_role` -/
def matchesRole (preferredRole : Option String) (c : RoutingCandidate) : Bool :=
  preferredRole ≠ some "" && preferredRole = some c.role

/-- `_rank(candidate, request)`, a tuple in Python's order of tuples. -/
def rank (preferredRole : Option String) (c : RoutingCandidate) : Nat ×ₗ Nat ×ₗ String :=
  toLex (if matchesRole preferredRole c then 0 else 1, toLex (c.capabilities.card, c.agentKey))

section Route

variable (printable : Char → Bool)

/-- `f"{s!r}"` -/
def quoted (s : String) : String := String.ofList (Python.repr printable s.toList).text

/-- `why` -/
def why (request : RoutingRequest) (eligible : List RoutingCandidate)
    (winner : RoutingCandidate) : String :=
  let capability := quoted printable request.requestedCapability
  if matchesRole request.preferredRole winner then
    "declares " ++ capability ++ " and matches the preferred role " ++
      quoted printable (request.preferredRole.getD "")
  else if eligible.length = 1 then "the only active team member declaring " ++ capability
  else
    "declares " ++ capability ++ " and is the most specialised of " ++ toString eligible.length ++
      " eligible members (" ++ toString winner.capabilities.card ++
      " declared capability/capabilities)"

/-- The candidates that `route` chooses among. -/
def eligibleFor (capability : String) (candidates : List RoutingCandidate) :
    List RoutingCandidate :=
  candidates.filter fun c => c.ineligibility capability = ""

/-- `route(request, candidates)` -/
def route (request : RoutingRequest) (candidates : List RoutingCandidate) : RoutingDecision :=
  let capability := request.requestedCapability
  let evidence := candidates.map fun c => considered c capability
  if capability = "" then
    { outcome := .noEligibleAgent
      requestedCapability := capability
      reason := "no capability was requested, so no agent can be selected"
      candidatesConsidered := evidence }
  else if requiresHumanApproval capability then
    { outcome := .requiresHumanApproval
      requestedCapability := capability
      reason := quoted printable capability ++ " has production effect; it is referred to the " ++
        "human approval boundary rather than routed to an agent"
      candidatesConsidered := evidence }
  else if NON_ROUTABLE_WORKFLOW_STAGES.contains request.workflowStage then
    { outcome := .noEligibleAgent
      requestedCapability := capability
      reason := "the workflow is at stage " ++ quoted printable request.workflowStage ++
        ", which is waiting on a human decision; nothing is routed until it clears"
      candidatesConsidered := evidence }
  else
    let eligible := eligibleFor capability candidates
    -- `min` takes the first of the least candidates
    match eligible.argmin (rank request.preferredRole) with
    | none =>
      { outcome := .noEligibleAgent
        requestedCapability := capability
        reason := "no active team member declares " ++ quoted printable capability ++ " (" ++
          toString candidates.length ++ " member(s) considered)"
        candidatesConsidered := evidence }
    | some winner =>
      { outcome := .selected
        requestedCapability := capability
        reason := winner.agentKey ++ " " ++ why printable request eligible winner
        selectedPrincipalId := some winner.principalId
        selectedRole := some winner.role
        selectedAgentKey := some winner.agentKey
        selectedStream := winner.transportStream
        candidatesConsidered := evidence }

end Route

/-! ## What the router decides -/

/-- A candidate that can take work at all. -/
structure RoutingCandidate.Active (c : RoutingCandidate) : Prop where
  membership : c.membershipState = "active"
  profile : c.profileStatus = "active"
  transport : c.noTransport = false

theorem ineligibility_eq_empty {c : RoutingCandidate} {capability : String} :
    c.ineligibility capability = "" ↔ c.Active ∧ capability ∈ c.capabilities := by
  unfold RoutingCandidate.ineligibility
  split_ifs with hmembership hprofile hcapability htransport
  · simp [String.append_eq_empty_iff, show ¬ c.Active from fun h => hmembership h.membership]
  · simp [String.append_eq_empty_iff, show ¬ c.Active from fun h => hprofile h.profile]
  · simp [show ¬ c.Active from fun h => Bool.false_ne_true (h.transport.symm.trans htransport)]
  · have hactive : c.Active :=
      ⟨not_not.mp hmembership, not_not.mp hprofile, by simpa using htransport⟩
    simp [hactive, hcapability]
  · simp [hcapability]

/-- Whom `route` selects, and that it selects at all. -/
structure Choice where
  outcome : RoutingOutcome
  principalId : Option String
  role : Option String
  agentKey : Option String
  stream : Option String
deriving Repr, DecidableEq

/-- The choice a decision records, without its texts and its evidence. -/
def RoutingDecision.choice (d : RoutingDecision) : Choice where
  outcome := d.outcome
  principalId := d.selectedPrincipalId
  role := d.selectedRole
  agentKey := d.selectedAgentKey
  stream := d.selectedStream

/-- The choice of nobody. -/
def Choice.nobody (outcome : RoutingOutcome) : Choice := ⟨outcome, none, none, none, none⟩

/-- The choice of a candidate. -/
def Choice.of (winner : RoutingCandidate) : Choice where
  outcome := .selected
  principalId := some winner.principalId
  role := some winner.role
  agentKey := some winner.agentKey
  stream := winner.transportStream

/-- The choice of the least of some candidates. -/
def Choice.least (preferredRole : Option String) (eligible : List RoutingCandidate) : Choice :=
  match eligible.argmin (rank preferredRole) with
  | none => .nobody .noEligibleAgent
  | some winner => .of winner

/-- The answers of `route` outside a workflow that waits on a human. -/
theorem route_choice (printable : Char → Bool) {request : RoutingRequest}
    (hstage : request.workflowStage = "") (candidates : List RoutingCandidate) :
    (route printable request candidates).choice =
      if request.requestedCapability = "" then .nobody .noEligibleAgent
      else if requiresHumanApproval request.requestedCapability then
        .nobody .requiresHumanApproval
      else .least request.preferredRole
        (eligibleFor request.requestedCapability candidates) := by
  have hroutable : NON_ROUTABLE_WORKFLOW_STAGES.contains request.workflowStage = false := by
    rw [hstage]
    decide
  unfold route Choice.least
  dsimp only
  simp only [hroutable, Bool.false_eq_true, if_false]
  split_ifs
  · rfl
  · rfl
  · split <;> rfl

/-! ## The order among the eligible -/

/-- The candidate has the preferred role; an empty preference is none. -/
def HasPreferredRole (preferredRole : Option String) (c : RoutingCandidate) : Prop :=
  preferredRole = some c.role ∧ c.role ≠ ""

/-- The order in which candidates are preferred: the preferred role first, then the fewest
declared capabilities, then the least agent key. -/
def Precedes (preferredRole : Option String) (a b : RoutingCandidate) : Prop :=
  (HasPreferredRole preferredRole a ∧ ¬ HasPreferredRole preferredRole b) ∨
    ((HasPreferredRole preferredRole a ↔ HasPreferredRole preferredRole b) ∧
      (a.capabilities.card < b.capabilities.card ∨
        (a.capabilities.card = b.capabilities.card ∧ a.agentKey < b.agentKey)))

theorem matchesRole_iff {preferredRole : Option String} {c : RoutingCandidate} :
    matchesRole preferredRole c = true ↔ HasPreferredRole preferredRole c := by
  unfold matchesRole HasPreferredRole
  constructor
  · intro h
    obtain ⟨hne, heq⟩ : preferredRole ≠ some "" ∧ preferredRole = some c.role := by simpa using h
    refine ⟨heq, fun hrole => hne ?_⟩
    rw [heq, hrole]
  · rintro ⟨heq, hrole⟩
    simp [heq, hrole]

theorem rank_lt_iff {preferredRole : Option String} {a b : RoutingCandidate} :
    rank preferredRole a < rank preferredRole b ↔ Precedes preferredRole a b := by
  unfold rank Precedes
  simp only [← matchesRole_iff]
  rcases matchesRole preferredRole a <;> rcases matchesRole preferredRole b <;>
    simp [Prod.Lex.toLex_lt_toLex]

/-- Candidates of one rank have one agent key. -/
theorem agentKey_of_rank {preferredRole : Option String} {a b : RoutingCandidate}
    (h : rank preferredRole a = rank preferredRole b) : a.agentKey = b.agentKey := by
  simp only [rank, EmbeddingLike.apply_eq_iff_eq, Prod.mk.injEq] at h
  exact h.2.2

end AiAgentsSwd.AgentTeam
