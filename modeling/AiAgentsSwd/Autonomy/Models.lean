import AiAgentsSwd.Deliberation.Models
import AiAgentsSwd.Planning.PlanningStore
import AiAgentsSwd.Python.Values

/-!
# Autonomy.Models — what the read surface derives

Model of `shared/sdk/autonomy_observability/models.py`: the blockers, the progress and the phase of
a goal, as functions of a snapshot of rows. The completion percentage, a float, is left out.
-/

namespace AiAgentsSwd.Autonomy

open Json (Value)
open Deliberation (DiscussionState StopReason)
open Planning

/-! ## Vocabularies -/

/-- `AUTONOMY_PHASES` -/
inductive Phase where
  | teamFormation
  | deliberating
  | planning
  | planAccepted
  | materialized
  | waitingForCapability
  | readyToDispatch
  | dispatched
  | partiallyCompleted
  | completed
  | cancelled
  | blocked
deriving Repr, DecidableEq

/-- `BLOCKER_CODES` -/
inductive BlockerCode where
  | cancelledLineage
  | discussionNotConverged
  | reasoningInProgress
  | reasoningFailed
  | plannerUnavailable
  | planNotAccepted
  | materializationNotStarted
  | dependencyBlocked
  | capabilityUnavailable
  | requiresHumanApproval
  | dispatchUnpublished
  | stalePlan
deriving Repr, DecidableEq

instance : ToString BlockerCode where
  toString
    | .cancelledLineage => "cancelled_lineage"
    | .discussionNotConverged => "discussion_not_converged"
    | .reasoningInProgress => "reasoning_in_progress"
    | .reasoningFailed => "reasoning_failed"
    | .plannerUnavailable => "planner_unavailable"
    | .planNotAccepted => "plan_not_accepted"
    | .materializationNotStarted => "materialization_not_started"
    | .dependencyBlocked => "dependency_blocked"
    | .capabilityUnavailable => "capability_unavailable"
    | .requiresHumanApproval => "requires_human_approval"
    | .dispatchUnpublished => "dispatch_unpublished"
    | .stalePlan => "stale_plan"

/-- `discussion_sessions.state` -/
def stateText : DiscussionState → String
  | .open => "open"
  | .converged => "converged"
  | .exhausted => "exhausted"
  | .failed => "failed"
  | .cancelled => "cancelled"

/-- `discussion_sessions.stop_reason` -/
def stopReasonText : StopReason → String
  | .convergenceReached => "convergence_reached"
  | .roundLimitReached => "round_limit_reached"
  | .messageLimitReached => "message_limit_reached"
  | .invocationLimitReached => "invocation_limit_reached"
  | .participantTurnLimitReached => "participant_turn_limit_reached"
  | .timeoutReached => "timeout_reached"
  | .participantUnavailable => "participant_unavailable"
  | .reasoningProviderFailure => "reasoning_provider_failure"
  | .cancelled => "cancelled"
  | .insufficientCapabilityCoverage => "insufficient_capability_coverage"
  | .insufficientParticipants => "insufficient_participants"

/-- `_STOP_REASON_TO_BLOCKER.get(stop_reason, BLOCKER_DISCUSSION_NOT_CONVERGED)` -/
def stopReasonBlocker : Option StopReason → BlockerCode
  | some .reasoningProviderFailure => .reasoningFailed
  | some .participantUnavailable => .plannerUnavailable
  | some .insufficientParticipants => .plannerUnavailable
  | some .insufficientCapabilityCoverage => .plannerUnavailable
  | _ => .discussionNotConverged

/-! ## The rows of a snapshot -/

/-- A row of `list_edges`. -/
structure Edge where
  executionUnitId : Uuid
  stepKey : String
  dependsOnExecutionUnitId : Uuid
  dependsOnStepKey : String
  dependsOnState : UnitState
  dependencyType : String
deriving Repr, DecidableEq

/-- A unit with its dispatch and its edges. -/
structure UnitRow where
  executionUnitId : Uuid
  unit : ExecutionUnit
  dispatch : Option Dispatch
  dependsOn : List Edge
deriving Repr, DecidableEq

/-- One reason why the lineage is not moving. -/
structure Blocker where
  code : BlockerCode
  entityType : String
  entityId : Option String
  canonicalReason : Option String
  detail : String
  evidence : List (String × Value) := []

/-- What the phase and the blockers read of an assembled unit. -/
structure UnitView where
  row : UnitRow
  hasRoutingDecision : Bool
  blockers : Option (List Blocker)

/-- The primary work item of a goal. -/
structure LineageView where
  primaryWorkItemId : Uuid
  primaryWorkItemStatus : WorkItemStatus
  primaryWorkItemLifecycleState : String
  isCancelled : Bool
deriving Repr, DecidableEq

/-- The latest discussion of a goal. -/
structure DiscussionView where
  discussionId : Uuid
  state : DiscussionState
  stopReason : Option StopReason
  currentRound : Nat
  openReasoningCount : Nat
deriving Repr, DecidableEq

/-- The revision that nothing supersedes. -/
structure RevisionView where
  planRevisionId : Uuid
  revisionNumber : Nat
  status : PlanRevisionStatus
deriving Repr, DecidableEq

/-- The snapshot that the derivations read. Of the latest planning decision only its presence is
read. -/
structure Snapshot where
  lineage : Option LineageView
  teamActiveMemberCount : Nat
  discussion : Option DiscussionView
  planningDecision : Option Uuid
  currentRevision : Option RevisionView
  currentGraph : Option ExecutionGraph
  currentUnits : List UnitView

/-! ## Units -/

/-- `unit_dispatch_state(unit)` -/
inductive DispatchState where
  | notDispatched
  | recordedUnpublished
  | toControlStream
deriving Repr, DecidableEq

def unitDispatchState (dispatch : Option Dispatch) : DispatchState :=
  match dispatch with
  | none => .notDispatched
  | some d => if d.publishedAt = none then .recordedUnpublished else .toControlStream

/-- A text as Python takes it in a condition. -/
def truthy (s : Option String) : Bool := s.any (· ≠ "")

/-- `unit_has_been_routed(unit)` of an assembled unit. -/
def unitHasBeenRouted (unit : UnitView) : Bool :=
  unit.hasRoutingDecision || truthy unit.row.unit.unavailableReason

section Units

variable (printable : Char → Bool)

/-- `f"{s!r}"` -/
def quoted (s : String) : String := String.ofList (Python.repr printable s.toList).text

/-- The evidence of every blocker of a unit. -/
def unitEvidence (row : UnitRow) : List (String × Value) := [
  ("execution_unit_id", .str (toString row.executionUnitId)),
  ("plan_revision_id", .str (toString row.unit.planRevisionId)),
  ("step_key", .str row.unit.stepKey),
  ("work_item_id", .str (toString row.unit.workItemId))]

/-- The steps that a blocked unit waits for. -/
def waitingOn (row : UnitRow) : List String :=
  (row.dependsOn.filter fun edge => edge.dependsOnState ≠ .completed).map Edge.dependsOnStepKey

def dependencyBlocker (row : UnitRow) : Blocker where
  code := .dependencyBlocked
  entityType := "execution_unit"
  entityId := some (toString row.executionUnitId)
  canonicalReason := some "blocked"
  detail := "step " ++ quoted printable row.unit.stepKey ++ " waits on " ++
    toString (waitingOn row).length ++ " dependency step(s) that have not completed"
  evidence := unitEvidence row ++ [("waiting_on_step_keys", .arr ((waitingOn row).map .str))]

/-- The code of a unit that nobody can take. -/
def unavailableCode (reason : String) : BlockerCode :=
  if reason = "requires_human_approval" then .requiresHumanApproval else .capabilityUnavailable

def unavailableBlocker (row : UnitRow) (reason : String) : Blocker where
  code := unavailableCode reason
  entityType := "execution_unit"
  entityId := some (toString row.executionUnitId)
  canonicalReason := some reason
  detail := "step " ++ quoted printable row.unit.stepKey ++
    " is ready and has no owner: plan_execution_units.unavailable_reason = " ++
    quoted printable reason
  evidence := unitEvidence row ++ [
    ("required_capabilities", .arr (row.unit.requiredCapabilities.map .str)),
    ("routing_decision_id", (row.unit.routingDecisionId.map fun r => Value.str (toString r)).getD
      .null)]

def unpublishedBlocker (row : UnitRow) : Blocker where
  code := .dispatchUnpublished
  entityType := "plan_execution_dispatch"
  entityId := some (toString row.executionUnitId)
  canonicalReason := none
  detail := "the canonical dispatch row exists and plan_execution_dispatches.published_at " ++
    "is NULL; the transport has not carried it yet"
  evidence := unitEvidence row ++ [("correlation_id",
    (row.dispatch.map fun d => Value.str (toString d.correlationId)).getD .null)]

def stalePlanBlocker (row : UnitRow) : Blocker where
  code := .stalePlan
  entityType := "plan_revision"
  entityId := some (toString row.unit.planRevisionId)
  canonicalReason := none
  detail := "a successor PlanRevision exists, so this revision authorizes no NEW dispatch; " ++
    "work it already dispatched stays historically valid"
  evidence := unitEvidence row

/-- `_UNIT_TERMINAL` -/
def unitTerminal : UnitState → Bool
  | .completed | .failed | .cancelled => true
  | _ => false

/-- `unit_blockers(unit, plan_is_current)` -/
def unitBlockers (row : UnitRow) (planIsCurrent : Bool) : List Blocker :=
  (if row.unit.state = .blocked then [dependencyBlocker printable row] else []) ++
  (if truthy row.unit.unavailableReason then
    [unavailableBlocker printable row (row.unit.unavailableReason.getD "")] else []) ++
  (if unitDispatchState row.dispatch = .recordedUnpublished then [unpublishedBlocker row]
    else []) ++
  (if !planIsCurrent && !unitTerminal row.unit.state then [stalePlanBlocker row] else [])

end Units

/-! ## Progress -/

/-- `graph_progress(units)` -/
structure GraphProgress where
  totalUnits : Nat
  blocked : Nat
  ready : Nat
  assigned : Nat
  dispatched : Nat
  completed : Nat
  failed : Nat
  cancelled : Nat
  unavailable : Nat
deriving Repr, DecidableEq

def graphProgress (units : List UnitView) : GraphProgress :=
  let count := fun state => units.countP fun u => u.row.unit.state = state
  { totalUnits := units.length
    blocked := count .blocked
    ready := count .ready
    assigned := count .assigned
    dispatched := count .dispatched
    completed := count .completed
    failed := count .failed
    cancelled := count .cancelled
    unavailable := units.countP fun u =>
      u.row.unit.state = .ready ∧ truthy u.row.unit.unavailableReason }

/-! ## The blockers of a goal -/

section Goal

variable (printable : Char → Bool)

def cancelledBlocker (lineage : LineageView) : Blocker where
  code := .cancelledLineage
  entityType := "work_item"
  entityId := some (toString lineage.primaryWorkItemId)
  canonicalReason := some (toString lineage.primaryWorkItemStatus)
  detail := "the Goal's primary work item is cancelled; AT-M3.5 refuses new work under a " ++
    "cancelled execution lineage"
  evidence := [("primary_work_item_id", .str (toString lineage.primaryWorkItemId)),
    ("lifecycle_state", .str lineage.primaryWorkItemLifecycleState)]

def reasoningBlocker (d : DiscussionView) : Blocker where
  code := .reasoningInProgress
  entityType := "discussion"
  entityId := some (toString d.discussionId)
  canonicalReason := some "started"
  detail := toString d.openReasoningCount ++ " reasoning invocation(s) on this " ++
    "discussion's thread are still in status 'started'"
  evidence := [("discussion_id", .str (toString d.discussionId))]

/-- `f"{stop_reason!r}"` -/
def quotedReason (stopReason : Option StopReason) : String :=
  (stopReason.map fun reason => quoted printable (stopReasonText reason)).getD "None"

def notConvergedBlocker (d : DiscussionView) : Blocker where
  code := stopReasonBlocker d.stopReason
  entityType := "discussion"
  entityId := some (toString d.discussionId)
  canonicalReason := d.stopReason.map stopReasonText
  detail := "discussion ended in state " ++ quoted printable (stateText d.state) ++
    " with stop_reason " ++ quotedReason printable d.stopReason ++ " and produced no convergence"
  evidence := [("discussion_id", .str (toString d.discussionId)),
    ("state", .str (stateText d.state))]

def undecidedBlocker (d : DiscussionView) : Blocker where
  code := .planNotAccepted
  entityType := "discussion"
  entityId := some (toString d.discussionId)
  canonicalReason := d.stopReason.map stopReasonText
  detail := "the discussion converged and no planning decision and no PlanRevision " ++
    "record its outcome"
  evidence := [("discussion_id", .str (toString d.discussionId))]

/-- The blockers of the latest discussion. -/
def discussionBlockers (snapshot : Snapshot) (d : DiscussionView) : List Blocker :=
  (if d.state = .open ∧ d.openReasoningCount ≠ 0 then [reasoningBlocker d] else []) ++
  (if d.state ≠ .open ∧ d.state ≠ .converged then [notConvergedBlocker printable d]
    else if d.state = .converged ∧ snapshot.planningDecision = none ∧
        snapshot.currentRevision = none then [undecidedBlocker d]
    else [])

def notAcceptedBlocker (r : RevisionView) : Blocker where
  code := .planNotAccepted
  entityType := "plan_revision"
  entityId := some (toString r.planRevisionId)
  canonicalReason := some (toString r.status)
  detail := "the current PlanRevision is " ++ quoted printable (toString r.status) ++
    "; only an accepted revision may be materialized"
  evidence := [("revision_number", .int r.revisionNumber)]

def notStartedBlocker (r : RevisionView) : Blocker where
  code := .materializationNotStarted
  entityType := "plan_revision"
  entityId := some (toString r.planRevisionId)
  canonicalReason := none
  detail := "the current PlanRevision is accepted and has no plan_execution_graphs row; " ++
    "nothing has materialized it yet"
  evidence := [("revision_number", .int r.revisionNumber)]

/-- The blockers of the current revision. -/
def revisionBlockers (snapshot : Snapshot) : List Blocker :=
  match snapshot.currentRevision with
  | none => []
  | some r =>
    if r.status ≠ .accepted then [notAcceptedBlocker printable r]
    else if snapshot.currentGraph = none then [notStartedBlocker r]
    else []

/-- `goal_blockers(snapshot)` -/
def goalBlockers (snapshot : Snapshot) : List Blocker :=
  ((snapshot.lineage.filter LineageView.isCancelled).map cancelledBlocker).toList ++
  (snapshot.discussion.map (discussionBlockers printable snapshot)).getD [] ++
  revisionBlockers printable snapshot ++
  snapshot.currentUnits.flatMap fun u => u.blockers.getD (unitBlockers printable u.row true)

/-! ## The phase -/

/-- `autonomy_phase(snapshot)` -/
structure PhaseAnswer where
  phase : Phase
  reason : String
  blockerCodes : List String
deriving Repr, DecidableEq

/-- Rules 9 to 15: the phase of the units of the current graph. -/
def graphPhase (units : List UnitView) : Phase × String :=
  let states := units.map fun u => u.row.unit.state
  let finished := states.countP fun state => state = .completed ∨ state = .failed
  let assignable := units.countP fun u => u.row.unit.state = .assigned ∨
    (u.row.unit.state = .ready ∧ truthy u.row.unit.unavailableReason = false)
  if units ≠ [] ∧ states.all (· = .completed) then
    (.completed, "every unit of the current execution graph is completed")
  else if finished ≠ 0 then
    (.partiallyCompleted, toString finished ++ " of " ++ toString units.length ++
      " unit(s) of the current graph reached a terminal state")
  else if !units.any unitHasBeenRouted then
    (.materialized, "the graph is materialized and no unit has been routed yet")
  else if .dispatched ∈ states then
    (.dispatched, toString (states.count .dispatched) ++ " unit(s) are dispatched to the " ++
      "control stream, which has no execution consumer")
  else if assignable ≠ 0 then
    (.readyToDispatch, toString assignable ++ " unit(s) are ready or assigned and owe a dispatch")
  else if units.any (fun u => u.row.unit.state = .ready ∧
      truthy u.row.unit.unavailableReason) then
    (.waitingForCapability,
      "every ready unit carries an unavailable_reason: the team cannot take the work")
  else
    (.blocked, "the graph has been scheduled, nothing has finished, and no unit is ready, " ++
      "assigned or dispatched, so it cannot advance on its own")

/-- The rules in their order; the first that matches wins. -/
def phaseOf (snapshot : Snapshot) : Phase × String :=
  if snapshot.lineage.any LineageView.isCancelled then
    (.cancelled, "the Goal's primary work item is cancelled")
  else if snapshot.teamActiveMemberCount = 0 then
    (.teamFormation, "the project has no active team membership")
  else
    match snapshot.discussion with
    | none => (.teamFormation, "a team exists and no discussion has been opened for this Goal")
    | some d =>
      if d.state = .open then
        (.deliberating, "discussion " ++ toString d.discussionId ++ " is open at round " ++
          toString d.currentRound)
      else
        match snapshot.currentRevision with
        | none =>
          if d.state ≠ .converged then
            (.blocked, "the discussion ended " ++ quoted printable (stateText d.state) ++ " (" ++
              quotedReason printable d.stopReason ++ ") and the Goal has no PlanRevision")
          else (.planning, "a discussion converged and no PlanRevision exists yet")
        | some r =>
          if r.status ≠ .accepted then
            (.blocked, "the current PlanRevision is " ++ quoted printable (toString r.status) ++
              ", not accepted")
          else if snapshot.currentGraph = none then
            (.planAccepted, "the current PlanRevision is accepted and has not been materialized")
          else graphPhase snapshot.currentUnits

/-- `sorted({b["code"] for b in blockers})` -/
def blockerCodes (blockers : List Blocker) : List String :=
  (blockers.map fun b => toString b.code).dedup.mergeSort fun a b => a ≤ b

def autonomyPhase (snapshot : Snapshot) : PhaseAnswer where
  phase := (phaseOf printable snapshot).1
  reason := (phaseOf printable snapshot).2
  blockerCodes := blockerCodes (goalBlockers printable snapshot)

end Goal

end AiAgentsSwd.Autonomy
