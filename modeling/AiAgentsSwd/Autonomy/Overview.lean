import AiAgentsSwd.AgentTeam.Store
import AiAgentsSwd.Autonomy.Models
import AiAgentsSwd.Planning.DelegationStore

/-!
# Autonomy.Overview — the snapshot of a goal

Model of the queries of `shared/sdk/autonomy_observability/store.py` that `_goal_overview` makes,
and of the snapshot it builds from them, taken from one state of the database. Timestamps are
ordered as the server orders them, with the id of the row to break ties.
-/

namespace AiAgentsSwd.Autonomy

open AgentTeam (MembershipState)
open Deliberation (DiscussionState StopReason)
open Planning
open Reasoning (InvocationStatus)

/-- `MAX_PAGE` -/
def maxPage : Nat := 500

/-- `DEFAULT_PAGE` -/
def defaultPage : Nat := 100

/-! ## Rows -/

/-- A row of `discussion_sessions`. -/
structure DiscussionSession where
  discussionId : Uuid
  goalId : Uuid
  threadId : Uuid
  state : DiscussionState
  stopReason : Option StopReason
  currentRound : Nat
  createdAt : Time
deriving Repr, DecidableEq

/-- A row of `planning_decisions`. -/
structure PlanningDecision where
  planningDecisionId : Uuid
  goalId : Uuid
  createdAt : Time
deriving Repr, DecidableEq

/-- A row of `project_team_memberships`. -/
structure TeamMembership where
  membershipId : Uuid
  projectId : Uuid
  membershipState : MembershipState
  joinedAt : Time
deriving Repr, DecidableEq

/-- A row of `reasoning_invocations`. -/
structure ReasoningInvocation where
  threadId : Option Uuid
  status : InvocationStatus

/-- The tables that an overview reads. -/
structure World where
  db : Db
  discussionSessions : List DiscussionSession
  planningDecisions : List PlanningDecision
  teamMemberships : List TeamMembership
  reasoningInvocations : List ReasoningInvocation

/-! ## Queries -/

/-- `ORDER BY created_at DESC, id DESC` -/
def newestFirst {α : Type} (createdAt : α → Time) (id : α → Uuid) (rows : List α) : List α :=
  rows.mergeSort fun a b => decide (createdAt b < createdAt a ∨
    (createdAt a = createdAt b ∧ (id b).value ≤ (id a).value))

section Queries

variable (w : World)

/-- `get_execution_lineage(goal_id)` -/
def getExecutionLineage (goalId : Uuid) : Option LineageView := do
  let l ← w.db.goalExecutionLineage.find? goalId
  let item ← w.db.projectWorkItems.find? l.primaryWorkItemId
  return {
    primaryWorkItemId := l.primaryWorkItemId
    primaryWorkItemStatus := item.status
    primaryWorkItemLifecycleState := item.lifecycleState
    isCancelled := item.isCancelled }

/-- `team_members(project_id)` -/
def teamMembers (projectId : Uuid) : List TeamMembership :=
  ((w.teamMemberships.filter fun m => m.projectId = projectId).mergeSort fun a b =>
    decide (a.joinedAt < b.joinedAt ∨
      (a.joinedAt = b.joinedAt ∧ a.membershipId.value ≤ b.membershipId.value))).take maxPage

/-- `list_discussions(goal_id)` -/
def listDiscussions (goalId : Uuid) : List DiscussionSession :=
  (newestFirst DiscussionSession.createdAt DiscussionSession.discussionId
    (w.discussionSessions.filter fun d => d.goalId = goalId)).take defaultPage

/-- `list_planning_decisions(goal_id)` -/
def listPlanningDecisions (goalId : Uuid) : List PlanningDecision :=
  (newestFirst PlanningDecision.createdAt PlanningDecision.planningDecisionId
    (w.planningDecisions.filter fun d => d.goalId = goalId)).take defaultPage

/-- `open_reasoning_count(thread_id)` -/
def openReasoningCount (threadId : Uuid) : Nat :=
  w.reasoningInvocations.countP fun i => i.threadId = some threadId ∧ i.status = .started

/-- `get_current_revision(goal_id)` -/
def getCurrentRevision (goalId : Uuid) : Option RevisionView :=
  (w.db.getCurrentRevision goalId).map fun e => ⟨e.1, e.2.revisionNumber, e.2.status⟩

/-- The graph that `_goal_overview` picks from `list_graphs(goal_id)`. -/
def currentGraph (goalId planRevisionId : Uuid) : Option ExecutionGraph :=
  (w.db.planExecutionGraphs.find? planRevisionId).filter fun g =>
    g.goalId = goalId ∧ (w.db.planRevisions.find? planRevisionId).isSome

/-- The rows of `list_units(plan_revision_id)`, each joined with its work item and dispatch. -/
def listUnits (planRevisionId : Uuid) : List (Uuid × ExecutionUnit) :=
  ((w.db.planExecutionUnits.rows.filter fun e => e.2.planRevisionId = planRevisionId ∧
    (w.db.projectWorkItems.find? e.2.workItemId).isSome).insertionSort fun a b =>
      a.2.stepKey ≤ b.2.stepKey).take maxPage

/-- The edges of `list_edges(plan_revision_id)` that leave a unit. -/
def edgesOf (planRevisionId : Uuid) (e : Uuid × ExecutionUnit) : List Edge :=
  (w.db.workItemDependencies.filter fun d => d.workItemId = e.2.workItemId).flatMap fun d =>
    ((w.db.planExecutionUnits.rows.filter fun p => p.2.workItemId = d.dependsOnWorkItemId ∧
      p.2.planRevisionId = planRevisionId).map fun p =>
        { executionUnitId := e.1
          stepKey := e.2.stepKey
          dependsOnExecutionUnitId := p.1
          dependsOnStepKey := p.2.stepKey
          dependsOnState := p.2.state
          dependencyType := d.dependencyType })

/-! ## The snapshot -/

variable (printable : Char → Bool)

/-- `_unit_view(row, …)` -/
def unitView (planRevisionId : Uuid) (planIsCurrent : Bool) (e : Uuid × ExecutionUnit) :
    UnitView :=
  let row : UnitRow := {
    executionUnitId := e.1
    unit := e.2
    dispatch := w.db.planExecutionDispatches.find? e.1
    dependsOn := (edgesOf w planRevisionId e).mergeSort fun a b =>
      a.dependsOnStepKey ≤ b.dependsOnStepKey }
  { row := row
    hasRoutingDecision := e.2.routingDecisionId.isSome
    blockers := some (unitBlockers printable row planIsCurrent) }

/-- `_units_with_topology(plan_revision_id)` -/
def unitsWithTopology (planRevisionId : Uuid) : List UnitView :=
  (listUnits w planRevisionId).map (unitView w printable planRevisionId true)

/-- The snapshot of `_goal_overview`; `none` is `GoalNotFound`. -/
def goalSnapshot (goalId : Uuid) : Option Snapshot := do
  let goal ← w.db.goals.find? goalId
  let revision := getCurrentRevision w goalId
  let graph := revision.bind fun r => currentGraph w goalId r.planRevisionId
  return {
    lineage := getExecutionLineage w goalId
    teamActiveMemberCount :=
      (teamMembers w goal.projectId).countP fun m => m.membershipState = .active
    discussion := (listDiscussions w goalId).head?.map fun d => {
      discussionId := d.discussionId
      state := d.state
      stopReason := d.stopReason
      currentRound := d.currentRound
      openReasoningCount := openReasoningCount w d.threadId }
    planningDecision := (listPlanningDecisions w goalId).head?.map
      PlanningDecision.planningDecisionId
    currentRevision := revision
    currentGraph := graph
    currentUnits := match revision, graph with
      | some r, some _ => unitsWithTopology w printable r.planRevisionId
      | _, _ => [] }

end Queries

end AiAgentsSwd.Autonomy
