import AiAgentsSwd.Keyed.Table

/-!
# Orchestrator.AgentEvents — what an agent event does to its workflow

Model of `WorkflowEventConsumer._advance` and of the handlers it hands over to, in
`apps/orchestrator/src/workflow_events.py`, on a row of `workflow_states`. A handler decides from
the row it has read and the event alone, and answers the whole row to be written back.

Notifications, audit events, metrics and the requests published for the next stage follow the
write and are left out.
-/

namespace AiAgentsSwd.Orchestrator

open Keyed (Table)

/-! ## The row -/

/-- `workflow_states.stage` -/
inductive Stage where
  | intake
  | requirementAnalysis
  | policyCheck
  | approval
  | audit
  | waitingApproval
  | dispatched
  | inProgress
  | completed
  | qaAutoFix
  | blockedForHumanReview
  | blockedTeamUnavailable
  | blockedRequiresHumanApproval
  | blockedNoEligibleAgent
  | projectPlanned
  | planningFailed
  | projectClarificationRequired
  | designReviewed
  | designReviewedWithFindings
  | designReviewBlocked
  | workspaceExecutionFailed
  | workspaceTestsPassed
  | workspaceTestsFailed
  | workspaceGenerated
  | miniDeliveryPilotFailed
  | miniDeliveryPilotCompleted
  | deliveryPackageFailed
  | deliveryPackageReadyForReview
  | rejected
  | canceled
  | aborted
deriving Repr, DecidableEq

/-- `workflow_states.approval_status` -/
inductive ApprovalStatus where
  | none
  | notRequired
  | pending
  | approved
  | rejected
deriving Repr, DecidableEq

/-- The agents that report. -/
inductive Agent where
  | requirement
  | development
  | qa
  | devops
  | developmentAutofix
  | projectPlanner
  | designReview
  | workspaceOperator
  | miniDeliveryPilot
  | deliveryPackage
deriving Repr, DecidableEq

/-- An entry of `agent_progress`. -/
inductive Progress where
  | autoFixRequested
  | blocked
  | failed
  | completed
deriving Repr, DecidableEq

/-- `execution_result["status"]` -/
inductive ExecutionStatus where
  | at (stage : Stage)
  | awaitingAgents
  | blockedPendingApproval
deriving Repr, DecidableEq

/-- `execution_result` -/
structure ExecutionResult where
  status : Option ExecutionStatus := none
  agentProgress : Table Agent Progress := .empty

/-- `routing["outcome"]` -/
inductive RoutingOutcome where
  | selected
  | noEligibleAgent
  | requiresHumanApproval
  | teamUnavailable
  | notRouted
deriving Repr, DecidableEq

/-- `build_team_context(…)` -/
structure TeamContext where
  projectId : String
  goalRef : String
  threadId : Option String
deriving Repr, DecidableEq

/-- The persisted graph state, as far as it is read again or decides a dispatch. -/
structure PersistedState where
  approvalRequestId : String := ""
  projectId : String := ""
  teamContext : Option TeamContext := none
  routing : Option RoutingOutcome := none
deriving Repr, DecidableEq

/-- A row of `workflow_states`. -/
structure Workflow where
  stage : Stage
  state : PersistedState := {}
  approvalRequired : Bool := false
  approvalStatus : ApprovalStatus := .none
  riskLevel : String := "unknown"
  executionResult : ExecutionResult := {}

/-! ## Events -/

/-- The keys of `_AGENT_BY_EVENT`. -/
inductive EventName where
  | requirementCompleted
  | developmentCompleted
  | qaCompleted
  | devopsDeploymentSimulated
  | qaAutoFixRequested
  | qaBlockedForHumanReview
  | developmentAutoFixCompleted
  | developmentAutoFixFailed
  | projectPlanningCompleted
  | projectPlanningFailed
  | projectClarificationRequired
  | designReviewCompleted
  | designReviewBlocked
  | workspaceExecutionCompleted
  | workspaceExecutionFailed
  | deliveryPilotCompleted
  | deliveryPilotFailed
  | deliveryPackageReadyForReview
  | deliveryPackageBuildFailed
deriving Repr, DecidableEq

/-- `_AGENT_BY_EVENT` -/
def EventName.agent : EventName → Agent
  | requirementCompleted => .requirement
  | developmentCompleted => .development
  | qaCompleted => .qa
  | devopsDeploymentSimulated => .devops
  | qaAutoFixRequested => .qa
  | qaBlockedForHumanReview => .qa
  | developmentAutoFixCompleted => .developmentAutofix
  | developmentAutoFixFailed => .developmentAutofix
  | projectPlanningCompleted => .projectPlanner
  | projectPlanningFailed => .projectPlanner
  | projectClarificationRequired => .projectPlanner
  | designReviewCompleted => .designReview
  | designReviewBlocked => .designReview
  | workspaceExecutionCompleted => .workspaceOperator
  | workspaceExecutionFailed => .workspaceOperator
  | deliveryPilotCompleted => .miniDeliveryPilot
  | deliveryPilotFailed => .miniDeliveryPilot
  | deliveryPackageReadyForReview => .deliveryPackage
  | deliveryPackageBuildFailed => .deliveryPackage

/-- An event, with the texts of its payload that decide a stage (`""` where absent), and whether
`int(…)` accepts its counts. -/
structure AgentEvent where
  name : EventName
  validationStatus : String := ""
  decision : String := ""
  status : String := ""
  testsStatus : String := ""
  pilotStatus : String := ""
  packageStatus : String := ""
  countsParse : Bool := true
deriving Repr, DecidableEq

/-- The handler reads counts with `int(…)`. -/
def EventName.readsCounts : EventName → Bool
  | requirementCompleted => false
  | developmentCompleted => false
  | qaCompleted => false
  | devopsDeploymentSimulated => false
  | qaBlockedForHumanReview => false
  | developmentAutoFixCompleted => false
  | developmentAutoFixFailed => false
  | deliveryPackageReadyForReview => false
  | deliveryPackageBuildFailed => false
  | _ => true

/-- The handler raises, for a workflow that is neither finished nor terminated. -/
def AgentEvent.raises (e : AgentEvent) : Bool := e.name.readsCounts && !e.countsParse

/-- What a handler makes of an event. -/
inductive Outcome where
  /-- Nothing is written. -/
  | ignored
  /-- An exception, before anything is written. -/
  | raises
  | updates (next : Workflow)

/-- `str(value or default)` -/
def orElse (value default : String) : String := if value = "" then default else value

/-- The row with another stage and the status of that stage. -/
def Workflow.moveTo (w : Workflow) (stage : Stage) : Workflow :=
  { w with
    stage := stage
    executionResult := { w.executionResult with status := some (.at stage) } }

/-- `IGNORED_STAGES` -/
def ignoredStages : List Stage := [.aborted, .canceled]

/-! ## The handlers of the later stages -/

/-- What these handlers do with the stage they decide on; `counts` where they read counts. -/
def settleAt (w : Workflow) (e : AgentEvent) (stage : Stage) (counts : Bool) : Outcome :=
  if w.stage = .completed then .ignored
  else if counts && !e.countsParse then .raises
  else .updates (w.moveTo stage)

/-- `_advance_project(…)` -/
def advanceProject (w : Workflow) (e : AgentEvent) : Outcome :=
  let stage : Stage :=
    if e.name = .projectPlanningCompleted then
      if orElse e.validationStatus "valid" = "invalid" then .planningFailed else .projectPlanned
    else if e.name = .projectPlanningFailed then .planningFailed
    else .projectClarificationRequired
  settleAt w e stage true

/-- `_advance_design_review(…)` -/
def advanceDesignReview (w : Workflow) (e : AgentEvent) : Outcome :=
  let decision := orElse e.decision "planning_only"
  let stage : Stage :=
    if e.name = .designReviewBlocked ∨ decision = "no_go" ∨ decision = "needs_clarification" then
      .designReviewBlocked
    else if decision = "go_with_findings" then .designReviewedWithFindings
    else .designReviewed
  settleAt w e stage true

/-- `_advance_workspace(…)` -/
def advanceWorkspace (w : Workflow) (e : AgentEvent) : Outcome :=
  let stage : Stage :=
    if e.name = .workspaceExecutionFailed ∨ e.status = "failed" then .workspaceExecutionFailed
    else if e.status = "tests_passed" ∨ e.testsStatus = "passed" then .workspaceTestsPassed
    else if e.status = "tests_failed" ∨ e.testsStatus = "failed" then .workspaceTestsFailed
    else .workspaceGenerated
  settleAt w e stage true

/-- `_advance_delivery_pilot(…)` -/
def advanceDeliveryPilot (w : Workflow) (e : AgentEvent) : Outcome :=
  let stage : Stage :=
    if e.name = .deliveryPilotFailed ∨ e.pilotStatus = "failed" ∨ e.pilotStatus = "blocked" then
      .miniDeliveryPilotFailed
    else .miniDeliveryPilotCompleted
  settleAt w e stage true

/-- `_advance_delivery_package(…)` -/
def advanceDeliveryPackage (w : Workflow) (e : AgentEvent) : Outcome :=
  let stage : Stage :=
    if e.name = .deliveryPackageBuildFailed ∨ e.packageStatus = "failed" ∨
        e.packageStatus = "blocked" then
      .deliveryPackageFailed
    else .deliveryPackageReadyForReview
  settleAt w e stage false

/-! ## The agent pipeline -/

/-- What the event enters for its agent. -/
def EventName.progress : EventName → Progress
  | qaAutoFixRequested => .autoFixRequested
  | qaBlockedForHumanReview => .blocked
  | developmentAutoFixFailed => .failed
  | _ => .completed

/-- The row with the agent's entry. -/
def Workflow.enter (w : Workflow) (name : EventName) : Workflow :=
  { w with executionResult :=
      { w.executionResult with
        agentProgress := w.executionResult.agentProgress.insert name.agent name.progress } }

/-- The rest of `_advance`. -/
def advancePipeline (w : Workflow) (e : AgentEvent) : Outcome :=
  let entered := w.enter e.name
  if e.name = .devopsDeploymentSimulated then .updates (entered.moveTo .completed)
  else if w.stage = .completed then .updates entered
  else
    match e.name with
    | .qaAutoFixRequested =>
      if e.countsParse then .updates (entered.moveTo .qaAutoFix) else .raises
    | .qaBlockedForHumanReview => .updates (entered.moveTo .blockedForHumanReview)
    | _ => .updates (entered.moveTo .inProgress)

/-- `_advance(workflow, event, payload)` -/
def advance (w : Workflow) (e : AgentEvent) : Outcome :=
  if ignoredStages.contains w.stage then .ignored
  else
    match e.name with
    | .projectPlanningCompleted | .projectPlanningFailed | .projectClarificationRequired =>
      advanceProject w e
    | .designReviewCompleted | .designReviewBlocked => advanceDesignReview w e
    | .workspaceExecutionCompleted | .workspaceExecutionFailed => advanceWorkspace w e
    | .deliveryPilotCompleted | .deliveryPilotFailed => advanceDeliveryPilot w e
    | .deliveryPackageReadyForReview | .deliveryPackageBuildFailed => advanceDeliveryPackage w e
    | _ => advancePipeline w e

end AiAgentsSwd.Orchestrator
