import AiAgentsSwd.Planning.Models

/-!
# Tasks.Policy — who may request, decide and consume

Model of `shared/sdk/tasks/rbac.py` and `shared/sdk/tasks/authorization_policy.py`.

`evaluate` is the fail-closed check that every authorization operation makes before it
writes. The lemmas say what an allowed outcome means, one for each kind of action; nothing
later unfolds `evaluate`.
-/

namespace AiAgentsSwd.Tasks

open Planning (Uuid)

/-! ## Vocabularies -/

/-- `TASK_ROLES`, and any other text a caller may present as its role. -/
inductive Role where
  | requester
  | pmEngineeringLead
  | reviewerApprover
  | platformAdmin
  | agentOperator
  | securityComplianceReviewer
  | other (name : String)
deriving Repr, DecidableEq

/-- `TASK_ROLES`. -/
def taskRoles : List Role :=
  [.requester, .pmEngineeringLead, .reviewerApprover, .platformAdmin, .agentOperator,
    .securityComplianceReviewer]

/-- `ACTION_TYPES`. -/
inductive ActionType where
  | resume
  | replay
deriving Repr, DecidableEq

/-- `RESOURCE_TYPES`. -/
inductive ResourceType where
  | clarification
  | outboxEvent
deriving Repr, DecidableEq

/-- The `action` argument of `evaluate`. -/
inductive Action where
  | request (t : ActionType)
  | authorize (t : ActionType)
  | reject (t : ActionType)
  | cancel (t : ActionType)
  | consume (t : ActionType)
  | revoke
deriving Repr, DecidableEq

/-- The `state` of a resume request (`REQUEST_STATES`). -/
inductive ResumeState where
  | authorizationPending
  | authorized
  | executionPending
  | resumed
  | rejected
  | canceled
  | failed
  | expired
deriving Repr, DecidableEq

/-- The `state` of a replay request (`REQUEST_STATES`). -/
inductive ReplayState where
  | authorizationPending
  | authorized
  | executed
  | rejected
  | canceled
  | expired
  | failed
deriving Repr, DecidableEq

/-- Why a production approval could not be used (`production_approval_model.REASON_CODES`). -/
inductive ApprovalReason where
  | invalidReference
  | notFound
  | alreadyConsumed
  | alreadyRevoked
  | expired
  | wrongAction
  | wrongResource
  | wrongScope
  | staleState
  | conflict
deriving Repr, DecidableEq

instance : ToString ResumeState where
  toString
    | .authorizationPending => "authorization_pending"
    | .authorized => "authorized"
    | .executionPending => "execution_pending"
    | .resumed => "resumed"
    | .rejected => "rejected"
    | .canceled => "canceled"
    | .failed => "failed"
    | .expired => "expired"

instance : ToString ReplayState where
  toString
    | .authorizationPending => "authorization_pending"
    | .authorized => "authorized"
    | .executed => "executed"
    | .rejected => "rejected"
    | .canceled => "canceled"
    | .expired => "expired"
    | .failed => "failed"

instance : ToString ApprovalReason where
  toString
    | .invalidReference => "invalid_reference"
    | .notFound => "not_found"
    | .alreadyConsumed => "already_consumed"
    | .alreadyRevoked => "already_revoked"
    | .expired => "expired"
    | .wrongAction => "wrong_action"
    | .wrongResource => "wrong_resource"
    | .wrongScope => "wrong_scope"
    | .staleState => "stale_state"
    | .conflict => "conflict"

/-- The reason codes of the task services. -/
inductive ReasonCode where
  | ok
  | policyAllow
  | policyDeny
  | rbacDenied
  | unknownActionType
  | crossTeamDenied
  | crossProjectDenied
  | resourceNotFound
  | notFound
  | twoPersonRequired
  | serviceIdentityCannotDecide
  | policyAuthorityRequired
  | policyAuthorityScope
  | productionApprovalRequired
  /-- `production_approval_<reason>` -/
  | productionApproval (reason : ApprovalReason)
  | granted
  | invalidTransition
  | alreadyDecided
  | alreadyConsumed
  | expired
  | staleState
  | conflict
  | revoked
  | operatorRevoked
  | operatorCanceled
  | operatorRequested
  | featureDisabled
  | commandGateDisabled
  | executionGateDisabled
  | activeRequestExists
  | clarificationBlocked
  | clarificationNotAnswered
  | resumeNotEligible
  | resourceTerminal
  /-- `already_<state>` -/
  | alreadyResume (state : ResumeState)
  | alreadyReplay (state : ReplayState)
  /-- `invalid_transition:<state>` -/
  | invalidResume (state : ResumeState)
  | invalidReplay (state : ReplayState)
  | orchestratorConfirmedResumed
  | orchestratorConfirmedFailed
  | alreadyPublished
  | notDead
  | unknownEventType
  | rateLimited
  | requesterCannotApprove
  | destinationUnavailable
deriving Repr, DecidableEq

instance : ToString ReasonCode where
  toString
    | .ok => "ok"
    | .policyAllow => "policy_allow"
    | .policyDeny => "policy_deny"
    | .rbacDenied => "rbac_denied"
    | .unknownActionType => "unknown_action_type"
    | .crossTeamDenied => "cross_team_denied"
    | .crossProjectDenied => "cross_project_denied"
    | .resourceNotFound => "resource_not_found"
    | .notFound => "not_found"
    | .twoPersonRequired => "two_person_required"
    | .serviceIdentityCannotDecide => "service_identity_cannot_decide"
    | .policyAuthorityRequired => "policy_authority_required"
    | .policyAuthorityScope => "policy_authority_scope"
    | .productionApprovalRequired => "production_approval_required"
    | .productionApproval reason => "production_approval_" ++ toString reason
    | .granted => "granted"
    | .invalidTransition => "invalid_transition"
    | .alreadyDecided => "already_decided"
    | .alreadyConsumed => "already_consumed"
    | .expired => "expired"
    | .staleState => "stale_state"
    | .conflict => "conflict"
    | .revoked => "revoked"
    | .operatorRevoked => "operator_revoked"
    | .operatorCanceled => "operator_canceled"
    | .operatorRequested => "operator_requested"
    | .featureDisabled => "feature_disabled"
    | .commandGateDisabled => "command_gate_disabled"
    | .executionGateDisabled => "execution_gate_disabled"
    | .activeRequestExists => "active_request_exists"
    | .clarificationBlocked => "clarification_blocked"
    | .clarificationNotAnswered => "clarification_not_answered"
    | .resumeNotEligible => "resume_not_eligible"
    | .resourceTerminal => "resource_terminal"
    | .alreadyResume state => "already_" ++ toString state
    | .alreadyReplay state => "already_" ++ toString state
    | .invalidResume state => "invalid_transition:" ++ toString state
    | .invalidReplay state => "invalid_transition:" ++ toString state
    | .orchestratorConfirmedResumed => "orchestrator_confirmed_resumed"
    | .orchestratorConfirmedFailed => "orchestrator_confirmed_failed"
    | .alreadyPublished => "already_published"
    | .notDead => "not_dead"
    | .unknownEventType => "unknown_event_type"
    | .rateLimited => "rate_limited"
    | .requesterCannotApprove => "requester_cannot_approve"
    | .destinationUnavailable => "destination_unavailable"

/-- The result kinds of the task services. -/
inductive ResultKind where
  | ok
  | forbidden
  | notFoundMasked
  | conflict
  | expired
  | staleState
  | alreadyDecided
  | alreadyConsumed
  | revoked
  | productionApprovalRequired
  | invalidTransition
  | featureDisabled
  | commandGateDisabled
  | executionGateDisabled
  | notEligible
  | rateLimited
  | destinationUnavailable
deriving Repr, DecidableEq

/-- A `production_approval_reference`, as the program tells them apart: empty, no UUID, or
the UUID of an approval. -/
inductive Reference where
  | empty
  | malformed (text : String)
  | approval (id : Uuid)
deriving Repr, DecidableEq

/-- A reference that is there and not empty. -/
def Reference.present : Option Reference → Bool
  | none => false
  | some .empty => false
  | some _ => true

/-! ## Principals -/

/-- A principal: a human role, the service identity, or the policy authority. -/
structure Actor where
  principalId : String
  role : Role
  isServiceIdentity : Bool := false
  isPolicyAuthority : Bool := false
deriving Repr, DecidableEq

/-- Team and project of an actor or a resource. -/
structure Scope where
  teamId : Option Uuid := none
  projectId : Option Uuid := none
deriving Repr, DecidableEq

structure PolicyOutcome where
  allowed : Bool
  resultKind : ResultKind
  reasonCode : ReasonCode
deriving Repr, DecidableEq

/-! ## The policy -/

/-- `_OPERATOR_ROLES`. -/
def operatorRoles : List Role := [.pmEngineeringLead, .platformAdmin, .agentOperator]

/-- `_REPLAY_APPROVER_ROLES`. -/
def replayApproverRoles : List Role := [.reviewerApprover, .platformAdmin]

/-- `_ACTION_ROLES`. -/
def actionRoles : Action → Option (List Role)
  | .request .resume => some operatorRoles
  | .cancel .resume => some operatorRoles
  | .request .replay => some operatorRoles
  | .authorize .replay => some replayApproverRoles
  | .reject .replay => some (operatorRoles ++ replayApproverRoles)
  | .cancel .replay => some operatorRoles
  | .revoke => some (operatorRoles ++ replayApproverRoles)
  | _ => none

/-- `_POLICY_AUTHORITY_ACTIONS`. -/
def policyAuthorityActions : List Action := [.authorize .resume, .reject .resume]

/-- `_CONSUME_ACTIONS`. -/
def consumeActions : List Action := [.consume .resume, .consume .replay]

/-- `None` when the actor may see the resource, else the denial reason. -/
def isolationOk (actorScope resourceScope : Scope) : Option ReasonCode :=
  if actorScope.teamId.isNone || resourceScope.teamId.isNone then some .crossTeamDenied
  else if actorScope.teamId ≠ resourceScope.teamId then some .crossTeamDenied
  else if actorScope.projectId.isNone || resourceScope.projectId.isNone then
    some .crossProjectDenied
  else if actorScope.projectId ≠ resourceScope.projectId then some .crossProjectDenied
  else none

def PolicyOutcome.allow : PolicyOutcome := ⟨true, .ok, .policyAllow⟩

def PolicyOutcome.deny (kind : ResultKind) (reason : ReasonCode) : PolicyOutcome :=
  ⟨false, kind, reason⟩

/-- Fail-closed permission evaluation for one authorization operation. -/
def evaluate (action : Action) (actor : Actor) (actorScope resourceScope : Scope)
    (requestedBy : Option String := none) (productionEffect : Bool := false)
    (productionApprovalReference : Option Reference := none) : PolicyOutcome :=
  if actor.isServiceIdentity then
    if action ∉ consumeActions then .deny .forbidden .serviceIdentityCannotDecide
    else
      match isolationOk actorScope resourceScope with
      | some iso => .deny .notFoundMasked iso
      | none =>
        if productionEffect && !Reference.present productionApprovalReference then
          .deny .productionApprovalRequired .productionApprovalRequired
        else .allow
  else if actor.isPolicyAuthority then
    if action ∉ policyAuthorityActions then .deny .forbidden .policyAuthorityScope
    else
      match isolationOk actorScope resourceScope with
      | some iso => .deny .notFoundMasked iso
      | none => .allow
  else if action ∈ consumeActions then .deny .forbidden .rbacDenied
  else if action ∈ policyAuthorityActions then .deny .forbidden .policyAuthorityRequired
  else
    match actionRoles action with
    | none => .deny .forbidden .unknownActionType
    | some roles =>
      if actor.role ∉ taskRoles then .deny .forbidden .rbacDenied
      else if actor.role ∉ roles then .deny .forbidden .rbacDenied
      else
        match isolationOk actorScope resourceScope with
        | some iso => .deny .notFoundMasked iso
        | none =>
          if action = .authorize .replay ∧ requestedBy = some actor.principalId then
            .deny .forbidden .twoPersonRequired
          else .allow

/-! ## What an allowed outcome means -/

/-- Isolation passes for one and the same team and project, both given. -/
theorem isolationOk_eq_none {a r : Scope} :
    isolationOk a r = none ↔ a = r ∧ a.teamId.isSome ∧ a.projectId.isSome := by
  unfold isolationOk
  constructor
  · intro h
    split_ifs at h with h₁ h₂ h₃ h₄
    have hteam : a.teamId = r.teamId := not_not.mp h₂
    have hproject : a.projectId = r.projectId := not_not.mp h₄
    refine ⟨?_, ?_, ?_⟩
    · cases a
      cases r
      simp_all
    · rw [Option.isSome_iff_ne_none]
      intro hn
      simp [hn] at h₁
    · rw [Option.isSome_iff_ne_none]
      intro hn
      simp [hn] at h₃
  · rintro ⟨rfl, ht, hp⟩
    rw [Option.isSome_iff_exists] at ht hp
    rcases ht with ⟨t, ht⟩
    rcases hp with ⟨p, hp⟩
    simp [ht, hp]

variable {actor : Actor} {a r : Scope} {by' : Option String} {production : Bool}
variable {reference : Option Reference}

@[simp] theorem PolicyOutcome.allow_allowed : PolicyOutcome.allow.allowed = true := rfl

@[simp] theorem PolicyOutcome.deny_allowed (k : ResultKind) (c : ReasonCode) :
    (PolicyOutcome.deny k c).allowed = false := rfl

/-- Every allowed action is one inside the actor's own team and project. -/
theorem isolated_of_allowed {action : Action}
    (h : (evaluate action actor a r by' production reference).allowed = true) :
    a = r ∧ a.teamId.isSome ∧ a.projectId.isSome := by
  rw [← isolationOk_eq_none]
  unfold evaluate at h
  cases hiso : isolationOk a r with
  | none => rfl
  | some iso =>
    rw [hiso] at h
    -- with the isolation check failing, every branch denies
    cases hroles : actionRoles action with
    | none => simp [hroles, apply_ite PolicyOutcome.allowed] at h
    | some roles => simp [hroles, apply_ite PolicyOutcome.allowed] at h

/-- The policy never answers with a conflict. -/
theorem evaluate_resultKind (action : Action) :
    (evaluate action actor a r by' production reference).resultKind ≠ .conflict := by
  unfold evaluate
  cases isolationOk a r with
  | none =>
    cases actionRoles action with
    | none => split_ifs <;> simp [PolicyOutcome.deny, PolicyOutcome.allow]
    | some roles =>
      by_cases hr : actor.role ∈ roles <;> simp only [hr] <;> split_ifs <;>
        simp [PolicyOutcome.deny, PolicyOutcome.allow]
  | some iso =>
    cases actionRoles action with
    | none => split_ifs <;> simp [PolicyOutcome.deny]
    | some roles =>
      by_cases hr : actor.role ∈ roles <;> simp only [hr] <;> split_ifs <;>
        simp [PolicyOutcome.deny]

/-- Only the service identity consumes, and a production effect needs a reference. -/
theorem service_of_consume_allowed {t : ActionType}
    (h : (evaluate (.consume t) actor a r by' production reference).allowed = true) :
    actor.isServiceIdentity = true ∧
      (production = true → Reference.present reference = true) := by
  have hmem : Action.consume t ∈ consumeActions := by cases t <;> decide
  have hiso := isolationOk_eq_none.mpr (isolated_of_allowed h)
  unfold evaluate at h
  rw [hiso] at h
  by_cases hs : actor.isServiceIdentity = true
  · refine ⟨hs, fun hp => ?_⟩
    cases hr : Reference.present reference with
    | true => rfl
    | false => simp [hs, hmem, hp, hr] at h
  · by_cases hpa : actor.isPolicyAuthority = true
    · have hno : Action.consume t ∉ policyAuthorityActions := by cases t <;> decide
      simp [hs, hpa, hno] at h
    · simp [hs, hpa, hmem] at h

/-- Who may authorize: the policy authority a resume, an approver other than the requester a
replay. -/
def MayAuthorize (actor : Actor) (requestedBy : String) : ActionType → Prop
  | .resume => actor.isPolicyAuthority = true
  | .replay => actor.role ∈ replayApproverRoles ∧ actor.principalId ≠ requestedBy

theorem mayAuthorize_of_allowed {t : ActionType} {requestedBy : String}
    (h : (evaluate (.authorize t) actor a r (some requestedBy) production reference).allowed
      = true) :
    MayAuthorize actor requestedBy t ∧ actor.isServiceIdentity = false := by
  have hno : Action.authorize t ∉ consumeActions := by cases t <;> decide
  have hiso := isolationOk_eq_none.mpr (isolated_of_allowed h)
  unfold evaluate at h
  rw [hiso] at h
  by_cases hs : actor.isServiceIdentity = true
  · simp [hs, hno] at h
  · refine ⟨?_, by simpa using hs⟩
    cases t with
    | resume =>
      by_cases hpa : actor.isPolicyAuthority = true
      · exact hpa
      · simp [hs, hpa, hno, policyAuthorityActions] at h
    | replay =>
      have hnp : Action.authorize .replay ∉ policyAuthorityActions := by decide
      by_cases hpa : actor.isPolicyAuthority = true
      · simp [hs, hpa, hnp] at h
      · by_cases hrole : actor.role ∈ replayApproverRoles
        · refine ⟨hrole, ?_⟩
          intro hp
          simp only [hs, hpa, hno, hnp, actionRoles, hrole, hp] at h
          simp at h
          split_ifs at h <;> cases h
        · simp [hs, hpa, hno, hnp, actionRoles, hrole] at h

end AiAgentsSwd.Tasks
