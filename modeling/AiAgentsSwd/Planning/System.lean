import AiAgentsSwd.Planning.DelegationStore
import AiAgentsSwd.ReadCommitted.Serializability

/-!
# Planning.System — the two stores as one system of transactions

Every call of the planning and the delegation store that writes is a `Call`; any number of
workers run them concurrently as READ COMMITTED transactions (`ReadCommitted.Step`). The
start is any database whose planning and delegation tables are empty; projects and the work
items, dependencies and routing decisions of other features may be there already.
-/

namespace AiAgentsSwd.Planning

open ReadCommitted ReadCommitted.Txn

/-- A call with its arguments. -/
inductive Call where
  | createGoal (goalId : Uuid) (data : GoalData)
  | createInitialRevision (planRevisionId : Uuid) (data : InitialRevisionData)
  | createSuccessorRevision (planRevisionId : Uuid) (data : SuccessorRevisionData)
  | acceptRevision (planRevisionId : Uuid)
  | materialize (goalId planRevisionId materializedBy : Uuid) (ids : MaterializeIds)
  | readGraph (planRevisionId : Uuid)
  | applyAssignment (executionUnitId : Uuid) (decision : RoutingDecision)
      (auditRef : Option String) (routingDecisionId : Uuid) (now : Time)
  | createDispatch (executionUnitId : Uuid) (auditRef : Option String) (correlationId : Uuid)
      (now : Time)
  | markDispatchPublished (executionUnitId : Uuid) (now : Time)
  | recordResult (executionUnitId : Uuid) (disposition : Disposition) (resultRef : Option String)
      (now : Time)
  | setLifecycleState (workItemId : Uuid) (newState : String) (now : Time)

/-- What a call returns. -/
inductive Reply where
  | goal (row : Goal)
  | revision (row : PlanRevision)
  | accepted (row : Option PlanRevision)
  | materialized (graph : MaterializedGraph)
  | graph (graph : Option MaterializedGraph)
  | assignment (outcome : AssignmentOutcome)
  | dispatch (outcome : DispatchOutcome)
  | published (moved : Bool)
  | result (outcome : ResultOutcome)
  | unit

/-- The transaction a call runs. -/
def program : Call → PlanTxn Reply
  | .createGoal g d => (createGoal g d).bind fun x => done (.goal x)
  | .createInitialRevision r d => (createInitialRevision r d).bind fun x => done (.revision x)
  | .createSuccessorRevision r d => (createSuccessorRevision r d).bind fun x => done (.revision x)
  | .acceptRevision r => (acceptRevision r).bind fun x => done (.accepted x)
  | .materialize g r b ids => (materialize g r b ids).bind fun x => done (.materialized x)
  | .readGraph r => (readGraph r).bind fun x => done (.graph x)
  | .applyAssignment u d a i now => (applyAssignment u d a i now).bind fun x => done (.assignment x)
  | .createDispatch u a c now => (createDispatch u a c now).bind fun x => done (.dispatch x)
  | .markDispatchPublished u now =>
    (markDispatchPublished u now).bind fun x => done (.published x)
  | .recordResult u d r now => (recordResult u d r now).bind fun x => done (.result x)
  | .setLifecycleState w st now => (setLifecycleState w st now).bind fun _ => done .unit

/-- The replies that may come back from a call that wrote nothing. -/
def Quiet : Reply → Prop
  | .accepted _ => True
  | .graph _ => True
  | .assignment (.replay _) => True
  | .dispatch (.replay _ _) => True
  | .published moved => moved = false
  | .result (.replay _) => True
  | _ => False

/-- `project_work_item_dependencies` has the pair. -/
def Db.DependsOn (s : Db) (w d : Uuid) : Prop :=
  ∃ e ∈ s.workItemDependencies, e.workItemId = w ∧ e.dependsOnWorkItemId = d

/-- The databases a run may start from. -/
structure Initial (s : Db) : Prop where
  goals : s.goals = .empty
  planRevisions : s.planRevisions = .empty
  goalExecutionLineage : s.goalExecutionLineage = .empty
  planExecutionGraphs : s.planExecutionGraphs = .empty
  planExecutionUnits : s.planExecutionUnits = .empty
  planExecutionDispatches : s.planExecutionDispatches = .empty
  edge_items : ∀ w d, s.DependsOn w d →
    (s.projectWorkItems.find? w).isSome ∧ (s.projectWorkItems.find? d).isSome
  routing_items : ∀ rec ∈ s.agentRoutingDecisions, ∀ w, rec.workItemId = some w →
    (s.projectWorkItems.find? w).isSome

/-- A state of the whole system. -/
abbrev PlanSys (ι : Type) := Sys Db RowKey Exn Reply Call ι

/-- What any interleaving of any number of workers reaches. -/
abbrev PlanReachable {ι : Type} [DecidableEq ι] (y : PlanSys ι) : Prop :=
  Reachable program Initial y

end AiAgentsSwd.Planning
