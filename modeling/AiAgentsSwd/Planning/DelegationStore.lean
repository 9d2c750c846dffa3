import AiAgentsSwd.Planning.PlanningStore

/-!
# Planning.DelegationStore — execution graphs, assignments, dispatches, results

Model of `shared/sdk/plan_delegation/store.py` and of `set_lifecycle_state` in
`shared/sdk/work_items/store.py`, the writer through which a goal's primary work item is
cancelled or archived.

Ids that the schema draws with `uuid_generate_v4()` and the clock `now()` are arguments.
-/

namespace AiAgentsSwd.Planning

open Keyed (Table)
open ReadCommitted ReadCommitted.Txn

/-! ## Work items -/

/-- `INSERT INTO project_work_items …`. -/
def insertWorkItem (id : Uuid) (row : WorkItem) : PlanTxn Unit := do
  lockRow (.workItem id)
  if (← select fun s => s.projectWorkItems.find? id).isSome then
    raise (.uniqueViolation "project_work_items_pkey")
  else modify fun s => { s with projectWorkItems := s.projectWorkItems.insert id row }

/-- The columns `_mirror_work_item` sets. -/
def mirrorRow (state : UnitState) (assignedAgentKey assignedRole : Option String) (now : Time)
    (w : WorkItem) : WorkItem :=
  let status := workItemStatusFor state
  { w with
    status := status
    assignedAgent := assignedAgentKey.or w.assignedAgent
    assignedAgentRole := assignedRole.or w.assignedAgentRole
    completedAt := if status = .completed then some now else w.completedAt }

/-- `_mirror_work_item(connection, work_item_id, state, assigned_agent_key, assigned_role)`. -/
def mirrorWorkItem (workItemId : Uuid) (state : UnitState)
    (assignedAgentKey assignedRole : Option String) (now : Time) : PlanTxn Unit := do
  lockRow (.workItem workItemId)
  modify fun s => { s with
    projectWorkItems :=
      s.projectWorkItems.modify workItemId (mirrorRow state assignedAgentKey assignedRole now) }

/-- `_record_work_item_event(connection, unit, …)`. -/
def recordWorkItemEvent (unit : ExecutionUnit) (eventType : String) (fromState toState : UnitState)
    (reason : String) (correlationId : Uuid) : PlanTxn Unit :=
  modify fun s => { s with
    workItemEvents := s.workItemEvents ++ [
      { projectId := unit.projectId
        workItemId := unit.workItemId
        eventType := eventType
        fromState := toString fromState
        toState := toString toState
        actor := unit.assignedPrincipalId.map toString
        role := unit.assignedRole
        reason := reason
        correlationId := some (toString correlationId) }] }

/-- `set_lifecycle_state(work_item_id, new_state)`. -/
def setLifecycleState (workItemId : Uuid) (newState : String) (now : Time) : PlanTxn Unit := do
  lockRow (.workItem workItemId)
  modify fun s => { s with
    projectWorkItems := s.projectWorkItems.modify workItemId fun w =>
      { w with
        lifecycleState := newState
        completedAt := if newState = "completed" then some now else w.completedAt } }

/-! ## Lineage gates -/

/-- `_confirm_dispatchable_revision(connection, goal_id, plan_revision_id)`. -/
def confirmDispatchableRevision (goalId planRevisionId : Uuid) : PlanTxn PlanRevision := do
  let revision ← confirmCurrentRevision goalId planRevisionId
  if revision.status ≠ .accepted then
    raise (.planRevisionNotDispatchableError
      (s!"plan revision {planRevisionId} is '{revision.status}'; only an accepted " ++
        "revision may create or advance an execution graph"))
  else return revision

/-- `_plan_from_revision(revision)`. -/
def planFromRevision (revision : PlanRevision) : Except Exn PlanContent :=
  match parsePlan revision.plan with
  | .error e => .error (.planParseError e)
  | .ok plan =>
    match validatePlanGraph plan with
    | .error e => .error (.planGraphInvalidError e)
    | .ok () => .ok plan

/-- `_CANCELLED_STATUSES` and `_CANCELLED_LIFECYCLE_STATES`. -/
def WorkItem.isCancelled (w : WorkItem) : Bool :=
  w.status = .cancelled ∨ w.lifecycleState = "cancelled" ∨ w.lifecycleState = "archived"

/-- `_assert_lineage_not_cancelled(connection, goal_id)`. -/
def assertLineageNotCancelled (goalId : Uuid) : PlanTxn Unit := do
  match ← select fun s => s.goalExecutionLineage.find? goalId with
  | none =>
    raise (.planRevisionNotDispatchableError
      s!"goal {goalId} has no execution lineage; materialize its plan first")
  | some lineage => do
    lockRow (.workItem lineage.primaryWorkItemId)
    match ← select fun s => s.projectWorkItems.find? lineage.primaryWorkItemId with
    | none =>
      raise (.planRevisionNotDispatchableError
        s!"goal {goalId} has no execution lineage; materialize its plan first")
    | some w =>
      if w.isCancelled then
        raise (.executionLineageCancelledError
          (s!"the primary work item for goal {goalId} is " ++
            s!"status={w.status}/lifecycle_state={w.lifecycleState}; no new plan " ++
            "step may be assigned or dispatched"))
      else return ()

/-! ## Materialization -/

/-- The ids one materialization draws. -/
structure MaterializeIds where
  primaryWorkItemId : Uuid
  planExecutionGraphId : Uuid
  workItemId : String → Uuid
  executionUnitId : String → Uuid

/-- What `materialize` returns. -/
structure MaterializedGraph where
  graph : ExecutionGraph
  primaryWorkItemId : Uuid
  units : List (Uuid × ExecutionUnit)
  created : Bool

/-- `_ensure_execution_lineage(connection, goal_id, project_id, statement)`. -/
def ensureExecutionLineage (goalId projectId : Uuid) (statement : String)
    (primaryWorkItemId : Uuid) : PlanTxn ExecutionLineage := do
  match ← select fun s => s.goalExecutionLineage.find? goalId with
  | some existing => return existing
  | none => do
    insertWorkItem primaryWorkItemId
      { projectId := projectId
        parentWorkItemId := none
        workItemKey := some ("GOAL-" ++ String.ofList ((toString goalId).toList.take 8))
        title := "Goal execution lineage: " ++ String.ofList (statement.toList.take 240)
        description := some ("The single autonomous execution root for this Goal. Plan steps " ++
          "materialize as its children; it is never dispatched itself.")
        status := .inProgress }
    lockRow (.executionLineage goalId)
    if (← select fun s => s.goalExecutionLineage.find? goalId).isSome then
      raise (.uniqueViolation "goal_execution_lineage_pkey")
    else do
      let row : ExecutionLineage := ⟨projectId, primaryWorkItemId⟩
      modify fun s => { s with goalExecutionLineage := s.goalExecutionLineage.insert goalId row }
      return row

/-- `INSERT INTO plan_execution_graphs …`. -/
def insertExecutionGraph (planRevisionId : Uuid) (row : ExecutionGraph) : PlanTxn Unit := do
  lockRow (.executionGraph planRevisionId)
  if (← select fun s => s.planExecutionGraphs.find? planRevisionId).isSome then
    raise (.uniqueViolation "uq_peg_plan_revision")
  else modify fun s => { s with planExecutionGraphs := s.planExecutionGraphs.insert planRevisionId row }

/-- `INSERT INTO plan_execution_units …`. -/
def insertExecutionUnit (executionUnitId : Uuid) (row : ExecutionUnit) : PlanTxn Unit := do
  if ¬ btrimNonempty row.stepKey then raise (.checkViolation "chk_peu_step_key")
  else do
    lockRow (.executionUnit executionUnitId)
    if (← select fun s => s.planExecutionUnits.find? executionUnitId).isSome then
      raise (.uniqueViolation "plan_execution_units_pkey")
    else
      modify fun s =>
        { s with planExecutionUnits := s.planExecutionUnits.insert executionUnitId row }

/-- `UNIT_READY if not step.depends_on else UNIT_BLOCKED`. -/
def initialState (step : PlanStep) : UnitState :=
  if step.dependsOn = [] then .ready else .blocked

/-- What every unit of one materialization shares. -/
structure MaterializeContext where
  goalId : Uuid
  planRevisionId : Uuid
  projectId : Uuid
  revisionNumber : Nat
  primaryWorkItemId : Uuid
  ids : MaterializeIds

/-- The work item a step materializes into. -/
def MaterializeContext.workItem (m : MaterializeContext) (step : PlanStep) : WorkItem where
  projectId := m.projectId
  parentWorkItemId := some m.primaryWorkItemId
  workItemKey := some s!"R{m.revisionNumber}-{step.stepKey}"
  title := step.title
  description := step.description
  status := workItemStatusFor (initialState step)

/-- The unit a step materializes into. -/
def MaterializeContext.unit (m : MaterializeContext) (step : PlanStep) : ExecutionUnit where
  planExecutionGraphId := m.ids.planExecutionGraphId
  planRevisionId := m.planRevisionId
  stepKey := step.stepKey
  projectId := m.projectId
  goalId := m.goalId
  workItemId := m.ids.workItemId step.stepKey
  requiredCapabilities := step.requiredCapabilities
  expectedOutputs := step.expectedOutputs
  intendedOwnerRole := step.intendedOwnerRole
  state := initialState step

/-- The first loop over `plan.steps`: one work item and one unit per step. -/
def insertUnits (m : MaterializeContext) :
    List PlanStep → PlanTxn (List (String × Uuid) × List (Uuid × ExecutionUnit))
  | [] => return ([], [])
  | step :: steps => do
    insertWorkItem (m.ids.workItemId step.stepKey) (m.workItem step)
    insertExecutionUnit (m.ids.executionUnitId step.stepKey) (m.unit step)
    let (workItemByStep, units) ← insertUnits m steps
    return ((step.stepKey, m.ids.workItemId step.stepKey) :: workItemByStep,
      (m.ids.executionUnitId step.stepKey, m.unit step) :: units)

/-- `INSERT INTO project_work_item_dependencies … ON CONFLICT … DO NOTHING`. -/
def insertDependency (d : Dependency) : PlanTxn Unit := do
  lockRow (.uqProjectDepPair d.workItemId d.dependsOnWorkItemId)
  if ← select fun s => s.workItemDependencies.any fun e =>
      e.workItemId = d.workItemId ∧ e.dependsOnWorkItemId = d.dependsOnWorkItemId then
    return ()
  else modify fun s => { s with workItemDependencies := s.workItemDependencies ++ [d] }

/-- The second loop over `plan.steps`: one edge per declared dependency. -/
def insertDependencies (projectId : Uuid) (workItemByStep : List (String × Uuid)) :
    List (String × String) → PlanTxn Unit
  | [] => return ()
  | (stepKey, parent) :: edges =>
    match workItemByStep.lookup stepKey, workItemByStep.lookup parent with
    | some child, some dependsOn => do
      insertDependency ⟨projectId, child, dependsOn, "blocks"⟩
      insertDependencies projectId workItemByStep edges
    | _, _ => raise (.keyError parent)

/-- `_materialize_locked(connection, goal_id, plan_revision_id, materialized_by)`. -/
def materialize (goalId planRevisionId materializedBy : Uuid) (ids : MaterializeIds) :
    PlanTxn MaterializedGraph := do
  match ← select fun s => s.goals.find? goalId with
  | none => raise (.planRevisionNotDispatchableError s!"unknown goal {goalId}")
  | some goal => do
    lockProject goal.projectId
    let revision ← confirmDispatchableRevision goalId planRevisionId
    match planFromRevision revision with
    | .error e => raise e
    | .ok plan => do
      let lineage ← ensureExecutionLineage goalId goal.projectId goal.statement
        ids.primaryWorkItemId
      let graphRow : ExecutionGraph :=
        { planExecutionGraphId := ids.planExecutionGraphId
          projectId := goal.projectId
          goalId := goalId
          stepCount := plan.steps.length
          materializedBy := materializedBy }
      insertExecutionGraph planRevisionId graphRow
      let (workItemByStep, units) ← insertUnits
        ⟨goalId, planRevisionId, goal.projectId, revision.revisionNumber,
          lineage.primaryWorkItemId, ids⟩ plan.steps
      insertDependencies goal.projectId workItemByStep (planDependencyEdges plan)
      return ⟨graphRow, lineage.primaryWorkItemId, units, true⟩

/-- `_read_graph(connection, plan_revision_id)`: the replay of a lost materialization race,
after the transaction above rolled back on `uq_peg_plan_revision`. -/
def readGraph (planRevisionId : Uuid) : PlanTxn (Option MaterializedGraph) := do
  match ← select fun s => s.planExecutionGraphs.find? planRevisionId with
  | none => return none
  | some graph => do
    let units ← select fun s => (s.planExecutionUnits.rows.filter fun e =>
      e.2.planRevisionId = planRevisionId).insertionSort fun a b => a.2.stepKey ≤ b.2.stepKey
    match ← select fun s => s.goalExecutionLineage.find? graph.goalId with
    | none => return none
    | some lineage => return some ⟨graph, lineage.primaryWorkItemId, units, false⟩

/-! ## Assignment -/

/-- `_require_unit(connection, execution_unit_id)`. -/
def requireUnit (executionUnitId : Uuid) : PlanTxn ExecutionUnit := do
  match ← select fun s => s.planExecutionUnits.find? executionUnitId with
  | none => raise (.executionUnitStateError s!"unknown execution unit {executionUnitId}")
  | some unit => return unit

/-- `SELECT … FROM plan_execution_units WHERE execution_unit_id=$1 FOR UPDATE`. -/
def lockUnit (executionUnitId : Uuid) : PlanTxn (Option ExecutionUnit) := do
  lockRow (.executionUnit executionUnitId)
  select fun s => s.planExecutionUnits.find? executionUnitId

/-- `UPDATE plan_execution_units SET … WHERE execution_unit_id=$1 AND state=… RETURNING …`. -/
def updateUnit (executionUnitId : Uuid) (state : UnitState) (f : ExecutionUnit → ExecutionUnit) :
    PlanTxn (Option ExecutionUnit) :=
  updateWhere (.executionUnit executionUnitId)
    (fun s => s.planExecutionUnits.find? executionUnitId) (fun u => u.state = state)
    fun s => { s with planExecutionUnits := s.planExecutionUnits.modify executionUnitId f }

/-- The constraints `agent_routing_decisions` puts on a decision. -/
def Db.routingViolation (s : Db) (decision : RoutingDecision) : Option Exn :=
  if decide (decision.outcome = .selected) ≠ decision.selectedPrincipalId.isSome then
    some (.checkViolation "chk_routing_selected_consistency")
  else if ¬ btrimNonempty decision.requestedCapability then
    some (.checkViolation "chk_routing_capability")
  else if ¬ btrimNonempty decision.reason then some (.checkViolation "chk_routing_reason")
  else if ∃ p ∈ decision.selectedPrincipalId, p ∉ s.actorPrincipals then
    some (.foreignKeyViolation "selected_principal_id")
  else none

/-- `record_routing_decision(project_id, decision, work_item_id, audit_ref)`. -/
def recordRoutingDecision (routingDecisionId projectId workItemId : Uuid)
    (decision : RoutingDecision) (auditRef : Option String) : PlanTxn RoutingRecord := do
  match ← select fun s => s.routingViolation decision with
  | some e => raise e
  | none => do
    let record : RoutingRecord :=
      ⟨routingDecisionId, projectId, some workItemId, decision, auditRef⟩
    modify fun s => { s with agentRoutingDecisions := s.agentRoutingDecisions ++ [record] }
    return record

/-- What `apply_assignment` returns. -/
inductive AssignmentOutcome where
  | replay (unit : ExecutionUnit)
  | unassignable (unit : ExecutionUnit) (routingDecision : RoutingRecord)
  | assigned (unit : ExecutionUnit) (routingDecision : RoutingRecord)
deriving Repr, DecidableEq

/-- The columns an assignment sets. -/
def assignRow (decision : RoutingDecision) (principal : Uuid) (stream : String)
    (routingDecisionId : Uuid) (now : Time) (u : ExecutionUnit) : ExecutionUnit :=
  { u with
    state := .assigned
    assignedPrincipalId := some principal
    assignedRole := decision.selectedRole
    assignedAgentKey := decision.selectedAgentKey
    assignedStream := some stream
    routingDecisionId := some routingDecisionId
    unavailableReason := none
    assignedAt := some now }

/-- The columns an unassignable decision sets. -/
def unassignableRow (decision : RoutingDecision) (routingDecisionId : Uuid) (u : ExecutionUnit) :
    ExecutionUnit :=
  { u with
    unavailableReason := unavailableReasonFor decision
    routingDecisionId := some routingDecisionId }

/-- `apply_assignment(execution_unit_id, decision, audit_ref)`. -/
def applyAssignment (executionUnitId : Uuid) (decision : RoutingDecision)
    (auditRef : Option String) (routingDecisionId : Uuid) (now : Time) :
    PlanTxn AssignmentOutcome := do
  let unit ← requireUnit executionUnitId
  let _ ← confirmDispatchableRevision unit.goalId unit.planRevisionId
  assertLineageNotCancelled unit.goalId
  match ← lockUnit executionUnitId with
  | none => raise (.valueError "assert locked is not None")
  | some locked =>
    if locked.state ≠ .ready then return .replay locked
    else do
      let record ← recordRoutingDecision routingDecisionId locked.projectId locked.workItemId
        decision auditRef
      if decision.outcome ≠ .selected then
        match ← updateUnit executionUnitId .ready (unassignableRow decision routingDecisionId) with
        | none => raise (.valueError "assert updated is not None")
        | some updated => return .unassignable updated record
      else
        match decision.selectedPrincipalId, delegationStreamFor (decision.selectedAgentKey.getD "") with
        | none, _ => raise (.valueError "badly formed hexadecimal UUID string")
        | some _, none => raise (.dispatchTransportError (decision.selectedAgentKey.getD ""))
        | some principal, some stream => do
          match ← updateUnit executionUnitId .ready
              (assignRow decision principal stream routingDecisionId now) with
          | none => raise (.valueError "assert updated is not None")
          | some updated => do
            mirrorWorkItem updated.workItemId .assigned decision.selectedAgentKey
              decision.selectedRole now
            return .assigned updated record

/-! ## Dispatch -/

/-- What `create_dispatch` returns. -/
inductive DispatchOutcome where
  | replay (unit : ExecutionUnit) (dispatch : Option Dispatch)
  | dispatched (unit : ExecutionUnit) (dispatch : Dispatch)
deriving Repr, DecidableEq

/-- `INSERT INTO plan_execution_dispatches …`. -/
def insertDispatch (executionUnitId : Uuid) (row : Dispatch) : PlanTxn Unit := do
  lockRow (.dispatch executionUnitId)
  if (← select fun s => s.planExecutionDispatches.find? executionUnitId).isSome then
    raise (.uniqueViolation "plan_execution_dispatches_pkey")
  else
    modify fun s =>
      { s with planExecutionDispatches := s.planExecutionDispatches.insert executionUnitId row }

/-- `create_dispatch(execution_unit_id, audit_ref)`. -/
def createDispatch (executionUnitId : Uuid) (auditRef : Option String) (correlationId : Uuid)
    (now : Time) : PlanTxn DispatchOutcome := do
  let unit ← requireUnit executionUnitId
  let _ ← confirmDispatchableRevision unit.goalId unit.planRevisionId
  assertLineageNotCancelled unit.goalId
  match ← lockUnit executionUnitId with
  | none => raise (.valueError "assert locked is not None")
  | some locked =>
    if locked.state = .dispatched then do
      let existing ← select fun s => s.planExecutionDispatches.find? executionUnitId
      return .replay locked existing
    else if locked.state ≠ .assigned then
      raise (.executionUnitStateError (s!"execution unit {executionUnitId} is '{locked.state}'; " ++
        "only an assigned unit may be dispatched"))
    else
      match locked.assignedPrincipalId, locked.assignedStream with
      | some principal, some stream => do
        let dispatch : Dispatch :=
          { planRevisionId := locked.planRevisionId
            stepKey := locked.stepKey
            projectId := locked.projectId
            workItemId := locked.workItemId
            assignedPrincipalId := principal
            routingDecisionId := locked.routingDecisionId
            targetStream := stream
            correlationId := correlationId
            publishedAt := none
            auditRef := auditRef }
        insertDispatch executionUnitId dispatch
        match ← updateUnit executionUnitId .assigned fun u => { u with state := .dispatched } with
        | none => raise (.valueError "assert updated is not None")
        | some updated => do
          mirrorWorkItem updated.workItemId .dispatched none none now
          recordWorkItemEvent updated "plan_step.dispatched" .assigned .dispatched
            "capability-routed plan step dispatched to its assigned principal" correlationId
          return .dispatched updated dispatch
      | _, _ => raise (.notNullViolation "assigned_principal_id, target_stream")

/-- `mark_dispatch_published(execution_unit_id)`. -/
def markDispatchPublished (executionUnitId : Uuid) (now : Time) : PlanTxn Bool := do
  let row ← updateWhere (.dispatch executionUnitId)
    (fun s => s.planExecutionDispatches.find? executionUnitId) (fun d => d.publishedAt = none)
    fun s => { s with
      planExecutionDispatches := s.planExecutionDispatches.modify executionUnitId fun d =>
        { d with publishedAt := some now } }
  return row.isSome

/-! ## Completion -/

/-- The unit a work item carries. -/
def Db.unitOfWorkItem (s : Db) (workItemId : Uuid) : Option (Uuid × ExecutionUnit) :=
  s.planExecutionUnits.rows.find? fun e => e.2.workItemId = workItemId

/-- The candidates of `_unblock_dependents`: blocked units that depend on the work item, in
the order of their ids. -/
def Db.blockedDependents (s : Db) (workItemId : Uuid) : List Uuid :=
  ((s.planExecutionUnits.rows.filter fun e => e.2.state = .blocked ∧
    ∃ d ∈ s.workItemDependencies, d.workItemId = e.2.workItemId ∧
      d.dependsOnWorkItemId = workItemId).map Prod.fst).insertionSort fun a b => a.value ≤ b.value

/-- Whether a dependency target is still outstanding: it carries no unit, or one that is not
completed. -/
def Db.isOutstanding (s : Db) (workItemId : Uuid) : Bool :=
  match s.unitOfWorkItem workItemId with
  | none => true
  | some e => e.2.state ≠ .completed

/-- The `SELECT count(*)` of `_unblock_dependents`. -/
def Db.outstanding (s : Db) (executionUnitId : Uuid) : Nat :=
  match s.planExecutionUnits.find? executionUnitId with
  | none => 0
  | some u => (s.workItemDependencies.filter fun d => d.workItemId = u.workItemId).countP
      fun d => s.isOutstanding d.dependsOnWorkItemId

/-- `FOR UPDATE OF u` over the candidates: each row is locked in turn and kept when it is
still blocked. -/
def lockCandidates : List Uuid → PlanTxn (List Uuid)
  | [] => return []
  | c :: cs => do
    lockRow (.executionUnit c)
    let stillBlocked ← select fun s =>
      (s.planExecutionUnits.find? c).any fun u => u.state = .blocked
    let rest ← lockCandidates cs
    return if stillBlocked then c :: rest else rest

/-- The `for candidate in candidates` loop. -/
def promote (now : Time) : List Uuid → PlanTxn (List (Uuid × ExecutionUnit))
  | [] => return []
  | c :: cs => do
    let outstanding ← select fun s => s.outstanding c
    if 0 < outstanding then promote now cs
    else
      match ← updateUnit c .blocked fun u => { u with state := .ready } with
      | none => promote now cs
      | some row => do
        mirrorWorkItem row.workItemId .ready none none now
        let promoted ← promote now cs
        return (c, row) :: promoted

/-- `_unblock_dependents(connection, completed_work_item_id)`. -/
def unblockDependents (completedWorkItemId : Uuid) (now : Time) :
    PlanTxn (List (Uuid × ExecutionUnit)) := do
  let found ← select fun s => s.blockedDependents completedWorkItemId
  let candidates ← lockCandidates found
  promote now candidates

/-- What `record_result` returns. -/
inductive ResultOutcome where
  | replay (unit : ExecutionUnit)
  | recorded (unit : ExecutionUnit) (unblocked : List (Uuid × ExecutionUnit))
deriving Repr, DecidableEq

/-- `UNIT_COMPLETED if disposition == DISPOSITION_SUCCEEDED else UNIT_FAILED`. -/
def terminalState : Disposition → UnitState
  | .succeeded => .completed
  | .failed => .failed

/-- `record_result(execution_unit_id, disposition, result_ref)`. -/
def recordResult (executionUnitId : Uuid) (disposition : Disposition) (resultRef : Option String)
    (now : Time) : PlanTxn ResultOutcome := do
  match ← lockUnit executionUnitId with
  | none => raise (.executionUnitStateError s!"unknown execution unit {executionUnitId}")
  | some locked => do
    match ← select fun s => s.planExecutionDispatches.find? executionUnitId with
    | none =>
      raise (.dispatchLineageError (s!"execution unit {executionUnitId} has no canonical dispatch; " ++
        "a result cannot be reported for work that was never handed over"))
    | some dispatch =>
      let terminal := terminalState disposition
      if locked.state = .completed ∨ locked.state = .failed then
        if locked.state ≠ terminal then
          raise (.executionUnitStateError
            (s!"execution unit {executionUnitId} already terminalized as " ++
              s!"'{locked.state}' and may not be re-reported as '{terminal}'"))
        else return .replay locked
      else if locked.state ≠ .dispatched then
        raise (.executionUnitStateError
          (s!"execution unit {executionUnitId} is '{locked.state}'; only a " ++
            "dispatched unit may report a result"))
      else do
        match ← updateUnit executionUnitId .dispatched fun u =>
            { u with
              state := terminal
              disposition := some disposition
              resultRef := resultRef
              completedAt := some now } with
        | none => raise (.valueError "assert updated is not None")
        | some updated => do
          mirrorWorkItem updated.workItemId terminal none none now
          recordWorkItemEvent updated "plan_step.result_recorded" .dispatched terminal
            (toString disposition) dispatch.correlationId
          if terminal = .completed then do
            let unblocked ← unblockDependents updated.workItemId now
            return .recorded updated unblocked
          else return .recorded updated []

end AiAgentsSwd.Planning
