import AiAgentsSwd.Orchestrator.Requests

/-!
# Orchestrator.Graph — the run of a workflow up to its dispatch

Model of `run_mock_workflow` in `apps/orchestrator/src/workflow.py`: the nodes in their order, the
one conditional edge, and what each node persists. A node's update goes to the graph's state in
memory and, where the store takes it, to the row. What the services answer is an `Environment`;
artifacts, audit references and assigned agents decide nothing and are left out.
-/

namespace AiAgentsSwd.Orchestrator

/-! ## The state of the graph -/

/-- `team_formation` -/
inductive TeamFormation where
  | notApplicable
  | formed
  | failed
deriving Repr, DecidableEq

/-- The task that a run is for. -/
structure TaskRequest where
  type : String := ""
  description : String := ""
  projectId : String := ""
deriving Repr, DecidableEq

/-- `WorkflowState` -/
structure WorkflowState where
  request : TaskRequest
  stage : Stage := .intake
  approvalRequired : Bool := false
  approvalStatus : ApprovalStatus := .none
  approvalRequestId : String := ""
  riskLevel : String := "unknown"
  executionResult : ExecutionResult := {}
  projectId : String
  teamContext : Option TeamContext := none
  teamFormation : TeamFormation := .notApplicable
  routing : Option RoutingOutcome := none

/-- The row that `_persist` writes. -/
def WorkflowState.row (g : WorkflowState) : Workflow :=
  { stage := g.stage
    state :=
      { approvalRequestId := g.approvalRequestId
        projectId := g.projectId
        teamContext := g.teamContext
        routing := g.routing }
    approvalRequired := g.approvalRequired
    approvalStatus := g.approvalStatus
    riskLevel := g.riskLevel
    executionResult := g.executionResult }

/-- `_initial_state(request)` -/
def initialState (request : TaskRequest) : WorkflowState :=
  { request := request
    projectId := request.projectId }

/-- The nodes of `build_workflow`. -/
inductive Node where
  | intake
  | requirement
  | teamFormation
  | policy
  | approval
  | audit
  | routeNext
  | dispatch
  | teamBlocked
deriving Repr, DecidableEq

/-- What the services answer; `none` where the call raises. -/
structure Environment where
  /-- `create_workflow_state` succeeds. -/
  creates : Bool
  /-- The node is persisted. -/
  persists : Node → Bool
  /-- The thread of the team that is formed. -/
  team : Option (Option String)
  /-- Whether the policy asks for an approval, and the risk level. -/
  policy : Option (Bool × String)
  /-- The id of the approval request. -/
  approval : Option String
  /-- Whether a team member is eligible for the work. -/
  eligible : Option Bool
  /-- `dispatch_task` publishes. -/
  busUp : Bool
  taskId : String

/-! ## The nodes -/

/-- `intake_node` -/
def intakeNode (g : WorkflowState) : WorkflowState := { g with stage := .requirementAnalysis }

/-- `requirement_node` -/
def requirementNode (g : WorkflowState) : WorkflowState := { g with stage := .policyCheck }

/-- `team_formation_node` -/
def teamFormationNode (env : Environment) (g : WorkflowState) : WorkflowState :=
  if g.projectId = "" then
    { g with
      stage := .policyCheck
      teamFormation := .notApplicable }
  else
    match env.team with
    | some threadId =>
      { g with
        stage := .policyCheck
        teamFormation := .formed
        teamContext := some
          { projectId := g.projectId
            goalRef := orElse g.request.description (orElse g.request.type "goal")
            threadId := threadId } }
    | none =>
      { g with
        stage := .policyCheck
        teamFormation := .failed
        teamContext := none }

/-- `policy_node` -/
def policyNode (env : Environment) (g : WorkflowState) : WorkflowState :=
  match env.policy with
  | some (approvalRequired, riskLevel) =>
    { g with
      stage := .approval
      approvalRequired := approvalRequired
      riskLevel := riskLevel }
  | none =>
    { g with
      stage := .approval
      approvalRequired := true
      riskLevel := "unknown" }

/-- `approval_node`; the approval engine answers a new request with `pending`. -/
def approvalNode (env : Environment) (g : WorkflowState) : WorkflowState :=
  if !g.approvalRequired then
    { g with
      stage := .audit
      approvalStatus := .notRequired }
  else
    { g with
      stage := .waitingApproval
      approvalStatus := .pending
      approvalRequestId := env.approval.getD ("approval-local:" ++ env.taskId) }

/-- `NON_ROUTABLE_WORKFLOW_STAGES`, as far as they are stages. -/
def nonRoutableWorkflowStages : List Stage := [.waitingApproval]

/-- The outcome of `decide_route(…)` for a capability that agents may have. -/
def route (stage : Stage) (eligible : Bool) : RoutingOutcome :=
  if nonRoutableWorkflowStages.contains stage then .noEligibleAgent
  else if eligible then .selected
  else .noEligibleAgent

/-- `route_next_node` -/
def routeNextNode (env : Environment) (g : WorkflowState) : WorkflowState :=
  if g.teamFormation = .failed then { g with routing := some .teamUnavailable }
  else if (g.teamContext.map TeamContext.projectId).getD "" = "" then
    { g with routing := some .notRouted }
  else
    match env.eligible with
    | some eligible => { g with routing := some (route g.stage eligible) }
    | none => { g with routing := some .noEligibleAgent }

/-- `DISPATCHABLE_ROUTING_OUTCOMES` -/
def dispatchableRoutingOutcomes : List RoutingOutcome := [.selected, .notRouted]

/-- `select_route(state)` -/
def selectRoute (g : WorkflowState) : Node :=
  if g.routing.any dispatchableRoutingOutcomes.contains then .dispatch else .teamBlocked

/-- `BLOCKED_STAGE_FOR_OUTCOME` -/
def blockedStageForOutcome : RoutingOutcome → Stage
  | .teamUnavailable => .blockedTeamUnavailable
  | .requiresHumanApproval => .blockedRequiresHumanApproval
  | _ => .blockedNoEligibleAgent

/-- `team_blocked_node` -/
def teamBlockedNode (g : WorkflowState) : WorkflowState :=
  let stage := blockedStageForOutcome (g.routing.getD .noEligibleAgent)
  { g with
    stage := stage
    executionResult := { status := some (.at stage) } }

/-- The restricted action has not been approved. -/
def WorkflowState.waits (g : WorkflowState) : Bool :=
  g.approvalRequired && g.approvalStatus != .approved

/-- `dispatch_node` -/
def dispatchNode (g : WorkflowState) : WorkflowState :=
  if g.waits then
    { g with
      stage := .waitingApproval
      executionResult := { status := some .blockedPendingApproval } }
  else
    { g with
      stage := .dispatched
      executionResult := { status := some .awaitingAgents } }

/-- What a node makes of the state. -/
def Node.update (env : Environment) (g : WorkflowState) : Node → WorkflowState
  | .intake => intakeNode g
  | .requirement => requirementNode g
  | .teamFormation => teamFormationNode env g
  | .policy => policyNode env g
  | .approval => approvalNode env g
  | .audit => g
  | .routeNext => routeNextNode env g
  | .dispatch => dispatchNode g
  | .teamBlocked => teamBlockedNode g

/-! ## The run -/

/-- The graph's state, the row, and what was published. -/
structure GraphRun where
  state : WorkflowState
  row : Option Workflow
  log : List Entry

/-- What `dispatch_node` publishes. -/
def GraphRun.publications (run : GraphRun) (env : Environment) : Node → List Entry
  | .dispatch =>
    if run.state.waits || !env.busUp then []
    else [.published
      { cause := if run.state.approvalRequired then some run.state.approvalRequestId else none
        teamContext := run.state.teamContext
        routing := run.row.bind (·.state.routing) }]
  | _ => []

/-- A node, and `_persist` after it. -/
def GraphRun.node (run : GraphRun) (env : Environment) (node : Node) : GraphRun :=
  let state := node.update env run.state
  { state := state
    row := if env.persists node then run.row.map fun _ => state.row else run.row
    log := run.log ++ run.publications env node }

/-- The nodes before the conditional edge. -/
def firstNodes : List Node :=
  [.intake, .requirement, .teamFormation, .policy, .approval, .audit, .routeNext]

/-- The row that `create_workflow_state` leaves. -/
def createWorkflowState (before : Option Workflow) : Workflow :=
  match before with
  | none => { stage := .intake }
  | some w =>
    { w with
      stage := .intake
      state := {} }

/-- The run up to the conditional edge. -/
def routedRun (env : Environment) (request : TaskRequest) (before : Option Workflow) : GraphRun :=
  firstNodes.foldl (fun run node => run.node env node)
    { state := initialState request
      row := if env.creates then some (createWorkflowState before) else before
      log := [] }

/-- `run_mock_workflow(request)`, with the row that the task had before. -/
def runMockWorkflow (env : Environment) (request : TaskRequest) (before : Option Workflow) :
    GraphRun :=
  let run := routedRun env request before
  run.node env (selectRoute run.state)

end AiAgentsSwd.Orchestrator
