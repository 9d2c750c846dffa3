import AiAgentsSwd.Planning.DelegationStore
import AiAgentsSwd.ReadCommitted.Client

/-!
# Planning.Service — the delegation service

Model of `schedule_ready_work`, `_advance_unit`, `_publish_dispatch` and
`record_internal_result` in `shared/sdk/plan_delegation/service.py`, with the reads of the
store they make. The side channels `_observe` and `_audit` never raise and change no table;
`_publish` is a parameter.
-/

namespace AiAgentsSwd.Planning

open ReadCommitted ReadCommitted.Client

/-- A client of the store. -/
abbrev PlanClient := Client Db Exn

/-- What a service call takes from outside the database: the router over the roster of the
pass, the audit sink, the ids and the clock, and whether the broker takes a message. -/
structure Environment where
  /-- `resolve_step_assignment(…, candidates, …)` at the pass's candidates. -/
  resolveStepAssignment (requiredCapabilities : List String) (projectId : Uuid)
    (intendedOwnerRole : Option String) (workItemId : Uuid) : RoutingDecision
  auditRef : Uuid → Option String := fun _ => none
  routingDecisionId : Uuid → Uuid
  correlationId : Uuid → Uuid
  /-- `_publish(target_stream, envelope)`, by unit. -/
  publish : Uuid → Bool
  evidenceRef : Uuid → Option String := fun _ => none
  now : Time

/-- What `_advance_unit` reports. -/
inductive Advance where
  | unassignable (executionUnitId : Uuid) (stepKey : String) (reason : Option String)
      (routingReason : String)
  | unchanged (executionUnitId : Uuid) (stepKey : String) (reason : UnitState)
  | handedOver (executionUnitId : Uuid) (stepKey : String) (replay : Bool)
      (unit : ExecutionUnit) (dispatch : Option Dispatch) (published : Bool)
deriving Repr, DecidableEq

/-- `list_schedulable_units(plan_revision_id)`. -/
def Db.schedulableUnits (s : Db) (planRevisionId : Uuid) : List (Uuid × ExecutionUnit) :=
  (s.planExecutionUnits.rows.filter fun e =>
    e.2.planRevisionId = planRevisionId ∧
      (e.2.state = .ready ∨ e.2.state = .assigned ∨
        (e.2.state = .dispatched ∧
          (s.planExecutionDispatches.find? e.1).any fun d => d.publishedAt = none))).insertionSort
    fun a b => a.2.stepKey ≤ b.2.stepKey

/-- `_publish_dispatch(unit, step, dispatch, trace_id)`. -/
def publishDispatch (env : Environment) (executionUnitId : Uuid) (unit : ExecutionUnit) :
    PlanClient Bool := do
  match ← fetch fun s => s.goalExecutionLineage.find? unit.goalId with
  | none => fail (.lookupError s!"goal {unit.goalId} has no execution lineage")
  | some _ =>
    if ¬ env.publish executionUnitId then return false
    else do
      let _ ← transact (markDispatchPublished executionUnitId env.now)
      return true

/-- The publication of an unpublished dispatch. -/
def publishIfDue (env : Environment) (executionUnitId : Uuid) (unit : ExecutionUnit)
    (dispatch : Option Dispatch) : PlanClient Bool :=
  if dispatch.any fun d => d.publishedAt = none then publishDispatch env executionUnitId unit
  else return false

/-- What `_advance_unit` does once the unit has a dispatch. -/
def finishAdvance (env : Environment) (executionUnitId : Uuid) (unit : ExecutionUnit)
    (dispatch : Option Dispatch) (replay : Bool) : PlanClient Advance := do
  let published ← publishIfDue env executionUnitId unit dispatch
  return .handedOver executionUnitId unit.stepKey replay unit dispatch published

/-- What `_advance_unit` does once the unit's owner is settled. -/
def dispatchUnitOnce (env : Environment) (executionUnitId : Uuid) (unit : ExecutionUnit) :
    PlanClient Advance := do
  if unit.state = .assigned then
    match ← transact (createDispatch executionUnitId none (env.correlationId executionUnitId)
        env.now) with
    | .replay unit dispatch => finishAdvance env executionUnitId unit dispatch true
    | .dispatched unit dispatch => finishAdvance env executionUnitId unit (some dispatch) false
  else if unit.state = .dispatched then do
    let dispatch ← fetch fun s => s.planExecutionDispatches.find? executionUnitId
    finishAdvance env executionUnitId unit dispatch true
  else return .unchanged executionUnitId unit.stepKey unit.state

/-- `_advance_unit(unit, step, candidates, trace_id)`. -/
def advanceUnit (env : Environment) (executionUnitId : Uuid) (unit : ExecutionUnit) :
    PlanClient Advance := do
  if unit.state = .ready then
    let decision := env.resolveStepAssignment unit.requiredCapabilities unit.projectId
      unit.intendedOwnerRole unit.workItemId
    match ← transact (applyAssignment executionUnitId decision (env.auditRef executionUnitId)
        (env.routingDecisionId executionUnitId) env.now) with
    | .unassignable unit _ =>
      return .unassignable executionUnitId unit.stepKey unit.unavailableReason decision.reason
    | .assigned unit _ => dispatchUnitOnce env executionUnitId unit
    | .replay unit => dispatchUnitOnce env executionUnitId unit
  else dispatchUnitOnce env executionUnitId unit

/-- `get_revision_plan(plan_revision_id)`. -/
def Db.getRevisionPlan (s : Db) (planRevisionId : Uuid) :
    Option (Except PlanParseError PlanContent) :=
  (s.planRevisions.find? planRevisionId).map fun r => parsePlan r.plan

/-- `schedule_ready_work(plan_revision_id, trace_id)`. -/
def scheduleReadyWork (env : Environment) (planRevisionId : Uuid) : PlanClient (List Advance) := do
  let units ← fetch fun s => s.schedulableUnits planRevisionId
  if units = [] then return []
  else
    match ← fetch fun s => s.getRevisionPlan planRevisionId with
    | none => fail (.lookupError s!"plan revision {planRevisionId} no longer exists")
    | some (.error e) => fail (.planParseError e)
    | some (.ok plan) =>
      forEach (fun unit =>
        -- `steps[unit["step_key"]]`
        if unit.2.stepKey ∈ plan.steps.map PlanStep.stepKey then
          advanceUnit env unit.1 unit.2
        else fail (.keyError unit.2.stepKey)) units

/-- `record_internal_result(execution_unit_id, disposition, evidence_ref)`. -/
def recordInternalResult (env : Environment) (executionUnitId : Uuid) (disposition : Disposition) :
    PlanClient ResultOutcome :=
  transact (recordResult executionUnitId disposition (env.evidenceRef executionUnitId) env.now)

end AiAgentsSwd.Planning
