import AiAgentsSwd.AgentTeam.Store

/-!
# PlanningDecision.Admissibility — which discussion may be formalized

Model of `evaluate_admissibility` of `shared/sdk/agent_planning_decision/models.py`, and of the
beginning of `PlanningDecisionService.finalize` up to the message that a discussion names as its
result.
-/

namespace AiAgentsSwd.PlanningDecision

open Planning (Uuid)
open Deliberation (DiscussionState StopReason)
open AgentTeam (Message listMessages defaultLimit)

/-- The columns of `discussion_sessions` that the finalization reads. -/
structure Discussion where
  discussionId : Uuid
  projectId : Uuid
  goalId : Uuid
  planRevisionId : Option Uuid
  threadId : Uuid
  state : DiscussionState
  stopReason : Option StopReason
  resultMessageId : Option Uuid
deriving Repr, DecidableEq

/-- The `clause` of a verdict. -/
inductive Clause where
  | «exists»
  | state
  | stopReason
  | result
  | goal
  | currency
deriving Repr, DecidableEq

/-- `AdmissibilityVerdict`, without its detail. -/
structure AdmissibilityVerdict where
  admissible : Bool
  clause : Clause
deriving Repr, DecidableEq

/-- `evaluate_admissibility(discussion, goal_id, current_plan_revision_id)` -/
def evaluateAdmissibility (discussion : Option Discussion) (goalId : Uuid)
    (current : Option Uuid) : AdmissibilityVerdict :=
  match discussion with
  | none => ⟨false, .exists⟩
  | some d =>
    if d.state ≠ .converged then ⟨false, .state⟩
    else if d.stopReason ≠ some .convergenceReached then ⟨false, .stopReason⟩
    else if d.resultMessageId = none then ⟨false, .result⟩
    else if d.goalId ≠ goalId then ⟨false, .goal⟩
    else
      match d.planRevisionId with
      | none => if current ≠ none then ⟨false, .currency⟩ else ⟨true, .currency⟩
      | some bound => if current ≠ some bound then ⟨false, .currency⟩ else ⟨true, .currency⟩

/-- `finalize(goal_id, discussion_id)` up to `_resolve_planner`, of a discussion that has no
decision yet: the clause it is refused for, or the message of its result. -/
def resultMessage (order : List Message → List Message) (messages : List Message)
    (discussion : Option Discussion) (goalId : Uuid) (current : Option Uuid) :
    Except Clause Message :=
  let verdict := evaluateAdmissibility discussion goalId current
  match verdict.admissible, discussion with
  | true, some d =>
    let listed := listMessages order messages d.projectId (some d.threadId) defaultLimit
    match listed.find? fun m => some m.messageId == d.resultMessageId with
    | some m => .ok m
    | none => .error .result
  | _, _ => .error verdict.clause

variable {d : Discussion} {goalId : Uuid} {current : Option Uuid}

/-- An admissible discussion has converged and names a result. -/
theorem admissible_converged (h : (evaluateAdmissibility (some d) goalId current).admissible = true) :
    d.state = .converged ∧ d.stopReason = some .convergenceReached ∧
      ∃ id, d.resultMessageId = some id := by
  unfold evaluateAdmissibility at h
  simp only at h
  split at h
  · cases h
  next hstate =>
    split at h
    · cases h
    next hreason =>
      split at h
      · cases h
      next hresult =>
        exact ⟨not_ne_iff.mp hstate, not_ne_iff.mp hreason, Option.ne_none_iff_exists'.mp hresult⟩

end AiAgentsSwd.PlanningDecision
