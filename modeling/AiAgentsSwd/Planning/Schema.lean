import AiAgentsSwd.Keyed.Table
import AiAgentsSwd.Planning.Models
import AiAgentsSwd.ReadCommitted.Basic

/-!
# Planning.Schema — the tables of planning and delegation

Model of migrations `017`, `024`, `036`, `038` and `042`, as far as the planning and the
delegation store read or write them.

- A table with a primary key is a `Table`. `plan_execution_graphs` is keyed by its unique
  `plan_revision_id`, `goal_execution_lineage` by its `goal_id`.
- Routing decisions, work item events and dependency pairs are append-only lists.
- A unique index is a lock on the index entry followed by a check for a conflict, which is
  how PostgreSQL makes the second inserter wait for the first.
- A constraint whose only effect is to make a statement raise is left out when no theorem
  needs it: a transaction may abort at any point in any case.
-/

namespace AiAgentsSwd.Planning

open Keyed (Table)
open ReadCommitted (Txn)

/-- A row of `goals`. -/
structure Goal where
  projectId : Uuid
  statement : String
  acceptanceCriteria : List String
  constraints : List String
  createdBy : Uuid
  status : GoalStatus
  auditRef : Option String
deriving Repr, DecidableEq

/-- A row of `plan_revisions`. -/
structure PlanRevision where
  projectId : Uuid
  goalId : Uuid
  revisionNumber : Nat
  createdBy : Uuid
  reason : PlanRevisionReason
  supersedesRevisionId : Option Uuid
  status : PlanRevisionStatus
  plan : Json.Value
  diff : Json.Value
  traceRef : Option String
  auditRef : Option String

/-- A row of `project_work_items`. -/
structure WorkItem where
  projectId : Uuid
  parentWorkItemId : Option Uuid
  workItemKey : Option String
  title : String
  description : Option String
  status : WorkItemStatus
  lifecycleState : String := "created"
  assignedAgent : Option String := none
  assignedAgentRole : Option String := none
  completedAt : Option Time := none
deriving Repr, DecidableEq

/-- A row of `project_work_item_dependencies`. -/
structure Dependency where
  projectId : Uuid
  workItemId : Uuid
  dependsOnWorkItemId : Uuid
  dependencyType : String
deriving Repr, DecidableEq

/-- A row of `goal_execution_lineage`. -/
structure ExecutionLineage where
  projectId : Uuid
  primaryWorkItemId : Uuid
deriving Repr, DecidableEq

/-- A row of `plan_execution_graphs`. -/
structure ExecutionGraph where
  planExecutionGraphId : Uuid
  projectId : Uuid
  goalId : Uuid
  stepCount : Nat
  materializedBy : Uuid
deriving Repr, DecidableEq

/-- A row of `plan_execution_units`. -/
structure ExecutionUnit where
  planExecutionGraphId : Uuid
  planRevisionId : Uuid
  stepKey : String
  projectId : Uuid
  goalId : Uuid
  workItemId : Uuid
  requiredCapabilities : List String
  expectedOutputs : List String
  intendedOwnerRole : Option String
  state : UnitState
  unavailableReason : Option String := none
  assignedPrincipalId : Option Uuid := none
  assignedRole : Option String := none
  assignedAgentKey : Option String := none
  assignedStream : Option String := none
  routingDecisionId : Option Uuid := none
  assignedAt : Option Time := none
  disposition : Option Disposition := none
  resultRef : Option String := none
  completedAt : Option Time := none
deriving Repr, DecidableEq

/-- A row of `plan_execution_dispatches`. -/
structure Dispatch where
  planRevisionId : Uuid
  stepKey : String
  projectId : Uuid
  workItemId : Uuid
  assignedPrincipalId : Uuid
  routingDecisionId : Option Uuid
  targetStream : String
  correlationId : Uuid
  publishedAt : Option Time
  auditRef : Option String
deriving Repr, DecidableEq

/-- A row of `agent_routing_decisions`. -/
structure RoutingRecord where
  routingDecisionId : Uuid
  projectId : Uuid
  workItemId : Option Uuid
  decision : RoutingDecision
  auditRef : Option String
deriving Repr, DecidableEq

/-- A row of `work_item_events`. -/
structure WorkItemEvent where
  projectId : Uuid
  workItemId : Uuid
  eventType : String
  fromState : String
  toState : String
  actor : Option String
  role : Option String
  reason : String
  correlationId : Option String
deriving Repr, DecidableEq

/-- The database. -/
structure Db where
  actorPrincipals : List Uuid
  goals : Table Uuid Goal
  planRevisions : Table Uuid PlanRevision
  projectWorkItems : Table Uuid WorkItem
  workItemDependencies : List Dependency
  goalExecutionLineage : Table Uuid ExecutionLineage
  planExecutionGraphs : Table Uuid ExecutionGraph
  planExecutionUnits : Table Uuid ExecutionUnit
  planExecutionDispatches : Table Uuid Dispatch
  agentRoutingDecisions : List RoutingRecord
  workItemEvents : List WorkItemEvent

/-- What a transaction can lock: a row, or an entry of a unique index. -/
inductive RowKey where
  | project (id : Uuid)
  | goal (id : Uuid)
  | planRevision (id : Uuid)
  | uqPlanRevisionsProjectNumber (projectId : Uuid) (revisionNumber : Nat)
  | uqPlanRevisionsOneRootPerGoal (goalId : Uuid)
  | uqPlanRevisionsOneSuccessor (supersedesRevisionId : Uuid)
  | workItem (id : Uuid)
  | uqProjectDepPair (workItemId dependsOnWorkItemId : Uuid)
  | executionLineage (goalId : Uuid)
  | executionGraph (planRevisionId : Uuid)
  | executionUnit (id : Uuid)
  | dispatch (executionUnitId : Uuid)
deriving Repr, DecidableEq

/-- The exceptions. -/
inductive Exn where
  | planLineageError (msg : String)
  | stalePlanRevisionError (expected actual : Option Uuid) (goalId : Uuid)
  | planRevisionLifecycleError (msg : String)
  | planRevisionAllocationError (msg : String)
  | planRevisionNotDispatchableError (msg : String)
  | planParseError (e : PlanParseError)
  | planGraphInvalidError (e : PlanGraphInvalidError)
  | executionLineageCancelledError (msg : String)
  | executionUnitStateError (msg : String)
  | dispatchLineageError (msg : String)
  | dispatchTransportError (agentKey : String)
  | uniqueViolation (constraint : String)
  | checkViolation (constraint : String)
  | notNullViolation (columns : String)
  | foreignKeyViolation (column : String)
  | valueError (msg : String)
  | keyError (key : String)
  | lookupError (msg : String)
deriving Repr, DecidableEq

/-- A transaction of the two stores. -/
abbrev PlanTxn := Txn Db RowKey Exn

end AiAgentsSwd.Planning
