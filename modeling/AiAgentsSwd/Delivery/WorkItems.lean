import AiAgentsSwd.Keyed.Table
import AiAgentsSwd.Planning.Models
import AiAgentsSwd.Transition.Basic

/-!
# Delivery.WorkItems — work items and the requests that dispatch them

Model of `dispatch_work_item` and `_advance` in `apps/orchestrator/src/multi_project_api.py`, of
`shared/sdk/work_items` and of the two policies under `infra/delivery`. A request reads its item
once; what it writes afterwards is settled by that reading, and each of its statements commits
by itself. So a request is the list of the statements it still has to make (`Request.rest`),
and `step` takes one of them, of any request.
-/

namespace AiAgentsSwd.Delivery

open Keyed (Table)
open Planning (Uuid)

/-! ## The lifecycle -/

/-- `workItemLifecycle.states` -/
inductive LifecycleState where
  | created
  | triaged
  | readyForDispatch
  | dispatched
  | inProgress
  | waitingApproval
  | blocked
  | completed
  | cancelled
  | failed
  | archived
deriving Repr, DecidableEq

/-- `workItemLifecycle.transitions` -/
def transitions : LifecycleState → List LifecycleState
  | .created => [.triaged, .blocked, .cancelled]
  | .triaged => [.readyForDispatch, .blocked, .cancelled]
  | .readyForDispatch => [.dispatched, .waitingApproval, .blocked, .cancelled]
  | .dispatched => [.inProgress, .blocked, .cancelled, .failed]
  | .inProgress => [.completed, .waitingApproval, .blocked, .cancelled, .failed]
  | .waitingApproval => [.inProgress, .completed, .blocked, .cancelled]
  | .blocked => [.triaged, .readyForDispatch, .inProgress, .cancelled]
  | .failed => [.readyForDispatch, .cancelled]
  | .completed => [.archived]
  | .cancelled => [.archived]
  | .archived => []

/-- `can_transition(from_state, to_state)` -/
def canTransition (fromState toState : LifecycleState) : Bool :=
  (transitions fromState).contains toState

/-! ## The dispatch policy -/

/-- `workItemDispatchPolicy.targetAgents` -/
def targetAgents : List String := [
  "intake-agent", "requirement-agent", "project-planner", "design-review", "development-agent",
  "qa-agent", "devops-agent", "delivery-package", "communication-gateway"]

/-- `workItemDispatchPolicy.rules`: a work type, its target and its stream. -/
def dispatchRules : List (String × String × String) := [
  ("requirement", "requirement-agent", "stream.work_items"),
  ("planning", "project-planner", "stream.work_items"),
  ("architecture", "project-planner", "stream.work_items"),
  ("design_review", "design-review", "stream.work_items"),
  ("implementation", "development-agent", "stream.work_items"),
  ("backend", "development-agent", "stream.work_items"),
  ("frontend", "development-agent", "stream.work_items"),
  ("qa", "qa-agent", "stream.work_items"),
  ("verification", "qa-agent", "stream.work_items"),
  ("deployment_simulation", "devops-agent", "stream.dispatches"),
  ("devops", "devops-agent", "stream.dispatches"),
  ("delivery_package", "delivery-package", "stream.dispatches"),
  ("notification", "communication-gateway", "stream.dispatches")]

/-- `workItemDispatchPolicy.forbiddenTargets` -/
def forbiddenTargets : List String :=
  ["github-write", "github-pr", "argocd-sync", "production-executor", "external-notification-send"]

/-- `resolve_target(work_type)`: the agent and its stream, or the text of the `DispatchError`. -/
def resolveTarget (workType : String) : Except String (String × String) :=
  match dispatchRules.lookup workType with
  | none => .error ("no dispatch rule for work type: " ++ workType)
  | some (agent, stream) =>
    if forbiddenTargets.contains agent || !targetAgents.contains agent then
      .error ("target not allowed: " ++ agent)
    else .ok (agent, stream)

/-- The payload of a dispatch. -/
structure DispatchEvent where
  projectId : Uuid
  projectKey : String
  workItemId : Uuid
  workItemKey : String
  dispatchKey : String
  targetAgent : String
  targetStream : String
  correlationId : Uuid
  productionEffect : Bool := false
  githubWrite : Bool := false
  argocdSync : Bool := false
  externalNotificationSend : Bool := false
  productionAction : Bool := false
deriving Repr, DecidableEq

/-- `build_dispatch_event(…)` -/
def buildDispatchEvent (projectId : Uuid) (projectKey : String) (workItemId : Uuid)
    (workItemKey dispatchKey workType : String) (correlationId : Uuid) (productionEffect : Bool) :
    Except String DispatchEvent :=
  if productionEffect then
    .error "production_effect work items must go to waiting_approval, not dispatch"
  else
    match resolveTarget workType with
    | .error e => .error e
    | .ok (targetAgent, targetStream) =>
      .ok { projectId, projectKey, workItemId, workItemKey, dispatchKey, targetAgent, targetStream,
            correlationId }

/-! ## The tables -/

/-- A row of `project_work_items`. -/
structure WorkItem where
  projectId : Uuid
  workItemKey : String
  workType : Option String
  lifecycleState : LifecycleState
  assignedAgent : Option String := none
  requiresHumanApproval : Bool := false
  productionEffect : Bool := false
deriving Repr, DecidableEq

/-- `work_item_events.event_type`, for the events written here. -/
inductive EventType where
  | workItemCreated
  | workItemTriaged
  | workItemBlocked
  | workItemDispatched
deriving Repr, DecidableEq

/-- A row of `work_item_events`. -/
structure Event where
  projectId : Uuid
  workItemId : Uuid
  eventType : EventType
  fromState : Option LifecycleState
  toState : Option LifecycleState
  actor : String
  role : String
  reason : String
  correlationId : Uuid
deriving Repr, DecidableEq

/-- A row of `work_item_dispatches`. -/
structure Dispatch where
  projectId : Uuid
  workItemId : Uuid
  dispatchKey : String
  targetAgent : String
  targetStream : String
  correlationId : Uuid
  productionEffect : Bool := false
deriving Repr, DecidableEq

/-! ## A request -/

/-- What a dispatch request comes with: its item, who makes it and why, and the random key of
its dispatch. -/
structure Ask where
  item : Uuid
  actor : String
  role : String
  reason : String
  dispatchKey : String
deriving Repr, DecidableEq

/-- One statement of a request. -/
inductive Op where
  | setLifecycleState (newState : LifecycleState)
  | recordEvent (event : Event)
  | setAssignedAgent (agent : String)
  | createDispatch (dispatch : Dispatch)
  | publish (stream : String) (event : DispatchEvent)
deriving Repr, DecidableEq

/-- The event of one hop. -/
def Ask.event (a : Ask) (w : WorkItem) (reason : String) (eventType : EventType)
    (fromState toState : LifecycleState) : Event :=
  { projectId := w.projectId
    workItemId := a.item
    eventType := eventType
    fromState := some fromState
    toState := some toState
    actor := a.actor
    role := a.role
    reason := reason
    correlationId := a.item }

/-- The loop of `_advance`, `current` being where the walk has come to. Hops that are no
transition are skipped. -/
def advance (a : Ask) (w : WorkItem) (target : LifecycleState) (reason : String)
    (eventType : EventType) : (current : LifecycleState) → List LifecycleState → List Op
  | _, [] => []
  | current, nxt :: path =>
    if current = nxt then advance a w target reason eventType current path
    else if !canTransition current nxt then advance a w target reason eventType current path
    else
      .setLifecycleState nxt ::
      .recordEvent (a.event w reason (if nxt = target then eventType else .workItemTriaged)
        current nxt) ::
      advance a w target reason eventType nxt path

/-- The three paths of `_advance`. -/
def toDispatched : List LifecycleState := [.triaged, .readyForDispatch, .dispatched]
def toWaitingApproval : List LifecycleState := [.triaged, .readyForDispatch, .waitingApproval]
def toBlocked : List LifecycleState := [.blocked]

/-- What a request that goes through does after its hops. -/
def handOver (a : Ask) (w : WorkItem) (e : DispatchEvent) : List Op := [
  .setAssignedAgent e.targetAgent,
  .createDispatch
    { projectId := w.projectId
      workItemId := a.item
      dispatchKey := e.dispatchKey
      targetAgent := e.targetAgent
      targetStream := e.targetStream
      correlationId := a.item },
  .publish e.targetStream e]

/-- `build_dispatch_event` as the request calls it. -/
def Ask.build (a : Ask) (w : WorkItem) (projectKey : String) : Except String DispatchEvent :=
  buildDispatchEvent w.projectId projectKey a.item w.workItemKey a.dispatchKey
    -- `wi["work_type"] or "task"`
    (match w.workType with
      | none => "task"
      | some t => if t = "" then "task" else t)
    a.item false

/-- `dispatch_work_item(…)` once it has read the item and its project: the statements to come.
An empty reason ends the request. -/
def dispatchWorkItem (a : Ask) (w : WorkItem) (projectKey : String) : List Op :=
  if a.reason = "" then []
  else if w.productionEffect then
    advance a w .waitingApproval a.reason .workItemBlocked w.lifecycleState toWaitingApproval
  else
    match a.build w projectKey with
    | .error e => advance a w .blocked e .workItemBlocked w.lifecycleState toBlocked
    | .ok e =>
      advance a w .dispatched a.reason .workItemDispatched w.lifecycleState toDispatched ++
        handOver a w e

/-! ## The system -/

/-- A request that has read its item. -/
structure Request where
  item : Uuid
  rest : List Op
deriving Repr, DecidableEq

/-- One statement that was made, and the row of the item it found. -/
structure Done (ρ : Type) where
  request : ρ
  item : Uuid
  op : Op
  found : WorkItem
deriving Repr, DecidableEq

/-- The tables, the streams and the requests; events and statements in the order they came. -/
structure World (ρ : Type) [DecidableEq ρ] where
  items : Table Uuid WorkItem
  events : List Event
  dispatches : List Dispatch
  published : List (String × DispatchEvent)
  requests : Table ρ Request
  log : List (Done ρ)

/-- What may happen next. -/
inductive Act (ρ : Type) where
  /-- A request comes in and reads its item and its project. -/
  | start (r : ρ) (a : Ask)
  /-- The next statement of a request; `_publish` goes through only if the bus is up. -/
  | run (r : ρ) (busUp : Bool)
  /-- The worker dies, or the statement raises. -/
  | stop (r : ρ)
deriving Repr, DecidableEq

variable {ρ : Type} [DecidableEq ρ]

/-- The row after a statement. -/
def Op.row : Op → WorkItem → WorkItem
  | .setLifecycleState newState, w => { w with lifecycleState := newState }
  | .setAssignedAgent agent, w => { w with assignedAgent := some agent }
  | _, w => w

/-- What a statement adds to the events. -/
def Op.events : Op → List Event
  | .recordEvent e => [e]
  | _ => []

def Op.dispatches : Op → List Dispatch
  | .createDispatch d => [d]
  | _ => []

def Op.published (busUp : Bool) : Op → List (String × DispatchEvent)
  | .publish stream e => if busUp then [(stream, e)] else []
  | _ => []

/-- The request `r` makes the statement `op` on its item, where it finds the row `w`. -/
def World.perform (s : World ρ) (r : ρ) (q : Request) (op : Op) (rest : List Op) (w : WorkItem)
    (busUp : Bool) : World ρ where
  items := s.items.insert q.item (op.row w)
  events := s.events ++ op.events
  dispatches := s.dispatches ++ op.dispatches
  published := s.published ++ op.published busUp
  requests := s.requests.insert r { q with rest := rest }
  log := s.log ++ [⟨r, q.item, op, w⟩]

/-- One step; `projectKey` is the table of the projects. -/
def step (projectKey : Uuid → Option String) (s : World ρ) : Act ρ → Option (World ρ)
  | .start r a =>
    match s.requests.find? r with
    | some _ => none
    | none =>
      let rest := match s.items.find? a.item with
        | none => []
        | some w =>
          match projectKey w.projectId with
          | none => []
          | some key => dispatchWorkItem a w key
      some { s with requests := s.requests.insert r ⟨a.item, rest⟩ }
  | .run r busUp =>
    match s.requests.find? r with
    | none => none
    | some q =>
      match q.rest, s.items.find? q.item with
      | op :: rest, some w => some (s.perform r q op rest w busUp)
      | _, _ => none
  | .stop r =>
    match s.requests.find? r with
    | none => none
    | some q => some { s with requests := s.requests.insert r { q with rest := [] } }

end AiAgentsSwd.Delivery
