import AiAgentsSwd.Orchestrator.AgentEvents
import AiAgentsSwd.Transition.Basic

/-!
# Orchestrator.Requests — everything that reads and writes a persisted workflow

Model of `WorkflowEventConsumer.handle_event` and `run`, of `ResumeEngine` (`resume_engine.py`),
of the approval listener and of `_terminate_workflow` (`main.py`), over the row that
`WorkflowStore` keeps of one task; no request reads or writes the row of another.

Every read and every write of the store is a step of its own, and so are the calls to the
approval engine and to the bus. What a request has read it carries in its `Phase`; requests
interleave at will. `approvals` is what the approval engine answers, `log` what has happened
outside of the row.
-/

namespace AiAgentsSwd.Orchestrator

open Keyed (Table)

/-- A decision of the approval engine. -/
inductive Verdict where
  | approved
  | rejected
deriving Repr, DecidableEq

/-- `canceled` or `aborted` -/
inductive Termination where
  | canceled
  | aborted
deriving Repr, DecidableEq

def Termination.stage : Termination → Stage
  | .canceled => .canceled
  | .aborted => .aborted

/-- `TERMINAL_STAGES` -/
def terminalStages : List Stage := [.completed, .canceled, .aborted, .rejected]

/-! ## What is written -/

/-- The row that `_terminate_workflow` writes. -/
def Workflow.terminate (w : Workflow) (t : Termination) : Workflow := w.moveTo t.stage

/-- The row that `mark_rejected` writes. -/
def Workflow.markRejected (w : Workflow) : Workflow :=
  { w with
    stage := .rejected
    approvalStatus := .rejected
    executionResult := { status := some (.at .rejected) } }

/-- The row that `_apply_approved` writes. -/
def Workflow.applyApproved (w : Workflow) : Workflow :=
  { w with
    stage := .dispatched
    approvalStatus := .approved
    executionResult := { status := some .awaitingAgents } }

/-- `_approval_request_id(workflow)` -/
def Workflow.requestId (w : Workflow) : String :=
  if "approval-local:".isPrefixOf w.state.approvalRequestId then "" else w.state.approvalRequestId

/-! ## Requests -/

/-- Who writes. -/
inductive Writer where
  | event (e : AgentEvent)
  | resumed
  | rejected
  | terminated (t : Termination)
deriving Repr, DecidableEq

/-- Where a request stands: the call that comes next. `cause` is the approval request on account
of which a task is published. -/
inductive Phase where
  /-- `get_workflow_state` of `handle_event` -/
  | handling (e : AgentEvent)
  /-- `get_workflow_state` of `on_approval_event` -/
  | consulting (cause : String) (verdict : Verdict)
  /-- `get_workflow_state` of `resume_workflow` -/
  | resuming
  /-- `get_approval` of `_approval_granted` -/
  | asking (cause : String)
  /-- `list_workflows` of `resume_approved_workflows` -/
  | recovering
  /-- `get_approval` of `resume_approved_workflows` -/
  | reconciling (cause : String)
  /-- `get_workflow_state` of `_apply_approved` -/
  | applying (cause : String)
  /-- `dispatch_task` -/
  | dispatching (cause : String) (found : Workflow)
  /-- `get_workflow_state` of `mark_rejected` -/
  | rejecting
  /-- `get_workflow_state` of `_terminate_workflow` -/
  | terminating (t : Termination)
  /-- `update_workflow_state` -/
  | writing (writer : Writer) (found next : Workflow)
  | over

/-- What a call meets: it raises, or the bus is down. -/
structure Draw where
  raises : Bool := false
  busUp : Bool := true
deriving Repr, DecidableEq

/-- A `task.created` event on `stream.tasks`, with the routing decision persisted then. -/
structure Publication where
  cause : Option String
  teamContext : Option TeamContext
  routing : Option RoutingOutcome
deriving Repr, DecidableEq

/-- What has happened outside of the row. -/
inductive Entry where
  | decided (request : String) (verdict : Verdict)
  | published (p : Publication)
  | terminated (t : Termination)
deriving Repr, DecidableEq

/-- The row of the workflow, the approval engine, the requests, and what has happened. -/
structure World (ρ : Type) [DecidableEq ρ] where
  row : Option Workflow
  approvals : Table String Verdict
  requests : Table ρ Phase
  acked : List AgentEvent
  log : List Entry

variable {ρ : Type} [DecidableEq ρ]

/-- The phase after a call. -/
def World.goto (s : World ρ) (r : ρ) (p : Phase) : World ρ :=
  { s with requests := s.requests.insert r p }

/-- The consumer acknowledges an event whatever became of it. -/
def World.ack (s : World ρ) (e : AgentEvent) : World ρ := { s with acked := s.acked ++ [e] }

/-- What is noted of a write that has succeeded. -/
def Writer.entries : Writer → List Entry
  | .terminated t => [.terminated t]
  | _ => []

/-- The request of a writer ends. -/
def World.finish (s : World ρ) (r : ρ) : Writer → World ρ
  | .event e => (s.ack e).goto r .over
  | _ => s.goto r .over

/-- `update_workflow_state(…)` -/
def World.update (s : World ρ) (writer : Writer) (next : Workflow) : World ρ :=
  { s with
    row := s.row.map fun _ => next
    log := s.log ++ writer.entries }

/-- `dispatch_task(…)` of `_apply_approved`, which hands no team context over. -/
def World.dispatch (s : World ρ) (cause : String) (busUp : Bool) : World ρ :=
  if busUp then
    { s with log := s.log ++
        [.published ⟨some cause, none, s.row.bind (·.state.routing)⟩] }
  else s

/-- The next call of a request. -/
def World.next (s : World ρ) (r : ρ) (d : Draw) : Phase → World ρ
  | .handling e =>
    if d.raises then s.finish r (.event e)
    else
      match s.row with
      | none => s.finish r (.event e)
      | some w =>
        match advance w e with
        | .updates next => s.goto r (.writing (.event e) w next)
        | _ => s.finish r (.event e)
  | .consulting cause verdict =>
    if d.raises || s.row.isNone then s.goto r .over
    else
      match verdict with
      | .approved => s.goto r (.applying cause)
      | .rejected => s.goto r .rejecting
  | .resuming =>
    if d.raises then s.goto r .over
    else
      match s.row with
      | none => s.goto r .over
      | some w =>
        if w.approvalStatus = .approved then s.goto r (.applying w.state.approvalRequestId)
        else if w.requestId = "" then s.goto r .over
        else s.goto r (.asking w.requestId)
  | .asking cause =>
    if !d.raises && s.approvals.find? cause == some .approved then s.goto r (.applying cause)
    else s.goto r .over
  | .recovering =>
    if d.raises then s.goto r .over
    else
      match s.row with
      | none => s.goto r .over
      | some w =>
        if w.stage = .waitingApproval ∧ w.requestId ≠ "" then s.goto r (.reconciling w.requestId)
        else s.goto r .over
  | .reconciling cause =>
    if d.raises then s.goto r .over
    else
      match s.approvals.find? cause with
      | some .approved => s.goto r (.applying cause)
      | some .rejected => s.goto r .rejecting
      | none => s.goto r .over
  | .applying cause =>
    if d.raises then s.goto r .over
    else
      match s.row with
      | none => s.goto r .over
      | some w => s.goto r (.dispatching cause w)
  | .dispatching cause found =>
    (s.dispatch cause d.busUp).goto r (.writing .resumed found found.applyApproved)
  | .rejecting =>
    if d.raises then s.goto r .over
    else
      match s.row with
      | none => s.goto r .over
      | some w => s.goto r (.writing .rejected w w.markRejected)
  | .terminating t =>
    if d.raises then s.goto r .over
    else
      match s.row with
      | none => s.goto r .over
      | some w =>
        if terminalStages.contains w.stage then s.goto r .over
        else s.goto r (.writing (.terminated t) w (w.terminate t))
  | .writing writer _ next =>
    if d.raises then s.finish r writer else (s.update writer next).finish r writer
  | .over => s

/-- What may happen next. -/
inductive Act (ρ : Type) where
  /-- An agent event is delivered. -/
  | deliver (r : ρ) (e : AgentEvent)
  /-- An approval event is delivered, perhaps again. -/
  | approvalEvent (r : ρ) (request : String) (verdict : Verdict)
  /-- `POST /workflow/resume/{task_id}` -/
  | resume (r : ρ)
  /-- The orchestrator starts up. -/
  | recover (r : ρ)
  /-- `POST /workflow/cancel/{task_id}` or `abort` -/
  | terminate (r : ρ) (t : Termination)
  /-- `POST /approval/approve` or `reject` -/
  | decide (request : String) (verdict : Verdict)
  | next (r : ρ) (d : Draw)
  /-- The process dies. -/
  | stop (r : ρ)
deriving Repr, DecidableEq

/-- A request comes in under an id of its own. -/
def World.begin (s : World ρ) (r : ρ) (p : Phase) : Option (World ρ) :=
  match s.requests.find? r with
  | some _ => none
  | none => some (s.goto r p)

def step (s : World ρ) : Act ρ → Option (World ρ)
  | .deliver r e => s.begin r (.handling e)
  | .approvalEvent r request verdict =>
    if s.log.contains (.decided request verdict) then s.begin r (.consulting request verdict)
    else none
  | .resume r => s.begin r .resuming
  | .recover r => s.begin r .recovering
  | .terminate r t => s.begin r (.terminating t)
  | .decide request verdict =>
    some { s with
      approvals := s.approvals.insert request verdict
      log := s.log ++ [.decided request verdict] }
  | .next r d => (s.requests.find? r).map (s.next r d ·)
  | .stop r => (s.requests.find? r).map fun _ => s.goto r .over

/-- The request that comes in, and its first call. -/
def Act.begins : Act ρ → Option (ρ × Phase)
  | .deliver r e => some (r, .handling e)
  | .approvalEvent r request verdict => some (r, .consulting request verdict)
  | .resume r => some (r, .resuming)
  | .recover r => some (r, .recovering)
  | .terminate r t => some (r, .terminating t)
  | _ => none

theorem begin_eq_some {s t : World ρ} {r : ρ} {p : Phase} (h : s.begin r p = some t) :
    s.requests.find? r = none ∧ t = s.goto r p := by
  unfold World.begin at h
  cases hr : s.requests.find? r with
  | some q => simp [hr] at h
  | none =>
    simp only [hr, Option.some.injEq] at h
    exact ⟨rfl, h.symm⟩

/-- **What a step can be**: a request comes in, the approval engine decides, a request makes its
next call, or one stops. -/
theorem step_cases {s t : World ρ} {a : Act ρ} (h : step s a = some t) :
    (∃ r p, a.begins = some (r, p) ∧ s.requests.find? r = none ∧ t = s.goto r p) ∨
    (∃ request verdict, a = .decide request verdict ∧ t =
      { s with
        approvals := s.approvals.insert request verdict
        log := s.log ++ [.decided request verdict] }) ∨
    (∃ r d p, a = .next r d ∧ s.requests.find? r = some p ∧ t = s.next r d p) ∨
    ∃ r p, a = .stop r ∧ s.requests.find? r = some p ∧ t = s.goto r .over := by
  cases a with
  | deliver r e => exact Or.inl ⟨r, _, rfl, begin_eq_some h⟩
  | approvalEvent r request verdict =>
    simp only [step] at h
    split at h
    · exact Or.inl ⟨r, _, rfl, begin_eq_some h⟩
    · cases h
  | resume r => exact Or.inl ⟨r, _, rfl, begin_eq_some h⟩
  | recover r => exact Or.inl ⟨r, _, rfl, begin_eq_some h⟩
  | terminate r t => exact Or.inl ⟨r, _, rfl, begin_eq_some h⟩
  | decide request verdict =>
    exact Or.inr (Or.inl ⟨request, verdict, rfl, (Option.some.inj h).symm⟩)
  | next r d =>
    rcases Option.map_eq_some_iff.mp h with ⟨p, hp, heq⟩
    exact Or.inr (Or.inr (Or.inl ⟨r, d, p, rfl, hp, heq.symm⟩))
  | stop r =>
    rcases Option.map_eq_some_iff.mp h with ⟨p, hp, heq⟩
    exact Or.inr (Or.inr (Or.inr ⟨r, p, rfl, hp, heq.symm⟩))

/-- A persisted workflow that no request is at work on. -/
def World.idle (row : Option Workflow) (log : List Entry) : World ρ :=
  { row := row
    approvals := .empty
    requests := .empty
    acked := []
    log := log }

end AiAgentsSwd.Orchestrator
