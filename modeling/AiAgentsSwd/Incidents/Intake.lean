import AiAgentsSwd.ApprovalPolicy.PathPolicy
import AiAgentsSwd.Json.Dumps
import AiAgentsSwd.Keyed.Table
import AiAgentsSwd.Planning.Models
import AiAgentsSwd.Transition.Basic

/-!
# Incidents.Intake — alerts, and the incidents they are linked to

Model of `_intake_alert` in `apps/orchestrator/src/alert_receiver.py`, of the incident routes in
`apps/orchestrator/src/operations.py` and of `shared/sdk/incidents`: the dedupe key, the alerts
and the incidents. A request takes in a list of normalised alerts, one after the other; each call
of a store commits by itself, and a worker may die between any two. SHA-256 is a parameter.
-/

namespace AiAgentsSwd.Incidents

open ApprovalPolicy (strip)
open Json (Value)
open Keyed (Table)
open Planning (Uuid)

/-! ## Alerts and their keys -/

/-- The labels of an alert, as `dict(…)` of a loaded document gives them. -/
structure Labels where
  members : List (String × Value)
  distinct : (Value.obj members).Distinct

/-- `NormalizedAlert`, as far as it is read. -/
structure NormalizedAlert where
  source : String
  alertName : String
  normalizedSeverity : String := "SEV3_MEDIUM"
  labels : Labels
  fingerprint : Option String := none
  /-- `firing` or `resolved` -/
  rawStatus : String := "firing"

/-- `str(text).strip()` -/
def stripped (text : String) : String := String.ofList (strip text.toList)

/-- `dict(sorted(labels.items()))` -/
def Labels.sorted (l : Labels) : List (String × Value) :=
  l.members.insertionSort fun m n => m.1 ≤ n.1

/-- What `compute_dedupe_key` dumps. -/
def NormalizedAlert.canonical (a : NormalizedAlert) : Value :=
  .obj [
    ("source", .str (stripped a.source)),
    ("alert_name", .str (stripped a.alertName)),
    ("fingerprint", .str (stripped (a.fingerprint.getD ""))),
    ("labels", .obj a.labels.sorted)]

/-- `compute_dedupe_key(…)` -/
def dedupeKey (sha256 : String → String) (a : NormalizedAlert) : String :=
  sha256 (Json.plainDumps a.canonical)

/-! ## The tables -/

/-- `INCIDENT_STATUSES` -/
inductive IncidentStatus where
  | «open»
  | acknowledged
  | investigating
  | mitigated
  | resolved
  | closed
  | reopened
  | suppressed
deriving Repr, DecidableEq

/-- `status IN ('resolved', 'closed')` -/
def IncidentStatus.ended : IncidentStatus → Bool
  | resolved => true
  | closed => true
  | _ => false

/-- A row of `incident_records`. -/
structure Incident where
  status : IncidentStatus := .open
  source : String
  normalizedSeverity : String
  summary : String
deriving Repr, DecidableEq

/-- A row of `incident_alerts`. -/
structure AlertRow where
  dedupeKey : String
  incidentId : Option Uuid
deriving Repr, DecidableEq

/-! ## Requests -/

/-- What an operator does to an incident. -/
inductive Operation where
  | acknowledge
  | resolve
  /-- With a reason, or without. -/
  | close (reason : Bool)
  | reopen
deriving Repr, DecidableEq

/-- The status that the `UPDATE` sets. -/
def Operation.status : Operation → IncidentStatus
  | acknowledge => .acknowledged
  | resolve => .resolved
  | close _ => .closed
  | reopen => .open

/-- The 409 of `operations_incident_close`. -/
def Operation.allowed : Operation → IncidentStatus → Bool
  | close reason, status => status == .resolved || status == .mitigated || reason
  | _, _ => true

/-- Where a request stands: the call that comes next. `rest` are the alerts after this one. -/
inductive Phase where
  /-- `find_open_incident_by_dedupe` -/
  | finding (a : NormalizedAlert) (rest : List NormalizedAlert)
  /-- `create_alert` for the incident found -/
  | linking (a : NormalizedAlert) (incident : Uuid) (rest : List NormalizedAlert)
  /-- `create_incident` -/
  | creating (a : NormalizedAlert) (rest : List NormalizedAlert)
  /-- `create_alert` for the incident created -/
  | storing (a : NormalizedAlert) (incident : Uuid) (rest : List NormalizedAlert)
  /-- `get_incident` -/
  | reviewing (incident : Uuid) (op : Operation)
  /-- `ack_incident`, `resolve_incident`, `close_incident` or `reopen_incident` -/
  | transiting (incident : Uuid) (op : Operation)
  | over

/-- What the environment gives a call: a fresh id, the row that a `LIMIT 1` without an order
returns, and whether the call raises. -/
structure Draw where
  id : Uuid := ⟨0⟩
  pick : Nat := 0
  raises : Bool := false
deriving Repr, DecidableEq

/-- The tables, the requests, and which alert each incident was created for. -/
structure World (ρ : Type) [DecidableEq ρ] where
  incidents : Table Uuid Incident
  alerts : List AlertRow
  requests : Table ρ Phase
  created : List (Uuid × NormalizedAlert)

variable {ρ : Type} [DecidableEq ρ]

/-- The next alert of a request; an exception leads there as well. -/
def nextAlert : List NormalizedAlert → Phase
  | [] => .over
  | a :: rest => .finding a rest

namespace World

variable (s : World ρ)

/-- The incident is not resolved or closed. -/
def isOpen (id : Uuid) : Bool := (s.incidents.find? id).any fun row => !row.status.ended

/-- The incidents that `find_open_incident_by_dedupe(dedupe_key)` may return. -/
def openFor (key : String) : List Uuid :=
  (s.alerts.filter fun a => a.dedupeKey == key).filterMap fun a => a.incidentId.filter s.isOpen

/-- `find_open_incident_by_dedupe(dedupe_key)` -/
def findOpenIncident (key : String) (pick : Nat) : Option Uuid :=
  ((s.openFor key)[pick]?).or (s.openFor key).head?

/-- The phase after a call. -/
def goto (r : ρ) (p : Phase) : World ρ := { s with requests := s.requests.insert r p }

/-- `create_alert(alert, incident_id=…)` -/
def createAlert (key : String) (incidentId : Uuid) : World ρ :=
  { s with alerts := s.alerts ++ [⟨key, some incidentId⟩] }

/-- `create_incident(…)` for an alert. -/
def createIncident (id : Uuid) (a : NormalizedAlert) : World ρ :=
  let row : Incident :=
    { source := a.source
      normalizedSeverity := a.normalizedSeverity
      summary := "[" ++ a.normalizedSeverity ++ "] " ++ a.alertName ++ " from " ++ a.source }
  { s with
    incidents := s.incidents.insert id row
    created := s.created ++ [(id, a)] }

/-- `_transition` and `reopen_incident`: whatever the status was. -/
def transition (id : Uuid) (status : IncidentStatus) : World ρ :=
  { s with incidents := s.incidents.modify id fun row => { row with status := status } }

end World

variable (sha256 : String → String)

/-- The next call of a request. -/
def World.next (s : World ρ) (r : ρ) (d : Draw) : Phase → World ρ
  | .finding a rest =>
    if d.raises then s.goto r (nextAlert rest)
    else
      match s.findOpenIncident (dedupeKey sha256 a) d.pick with
      | some incident => s.goto r (.linking a incident rest)
      | none => s.goto r (.creating a rest)
  | .linking a incident rest =>
    if d.raises then s.goto r (nextAlert rest)
    else (s.createAlert (dedupeKey sha256 a) incident).goto r (nextAlert rest)
  | .creating a rest =>
    if d.raises || (s.incidents.find? d.id).isSome then s.goto r (nextAlert rest)
    else (s.createIncident d.id a).goto r (.storing a d.id rest)
  | .storing a incident rest =>
    if d.raises then s.goto r (nextAlert rest)
    else (s.createAlert (dedupeKey sha256 a) incident).goto r (nextAlert rest)
  | .reviewing incident op =>
    match s.incidents.find? incident with
    | none => s.goto r .over
    | some row =>
      if op.allowed row.status then s.goto r (.transiting incident op) else s.goto r .over
  | .transiting incident op => (s.transition incident op.status).goto r .over
  | .over => s

/-- A request of the API. -/
inductive Ask where
  /-- `receive_alertmanager` and `receive_generic` -/
  | intake (alerts : List NormalizedAlert)
  /-- The routes of `operations.py`. -/
  | review (incident : Uuid) (op : Operation)
  /-- The routes of `main.py`, which acknowledge and resolve without a look. -/
  | update (incident : Uuid) (op : Operation)

/-- The first call of a request. -/
def Ask.phase : Ask → Phase
  | intake alerts => nextAlert alerts
  | review incident op => .reviewing incident op
  | update incident op => .transiting incident op

/-- What may happen next. -/
inductive Act (ρ : Type) where
  /-- An incident without an alert, from an operator or the retry scheduler. -/
  | report (id : Uuid) (row : Incident)
  | start (r : ρ) (ask : Ask)
  | next (r : ρ) (d : Draw)
  /-- The worker dies. -/
  | stop (r : ρ)

def step (s : World ρ) : Act ρ → Option (World ρ)
  | .report id row =>
    match s.incidents.find? id with
    | some _ => none
    | none => some { s with incidents := s.incidents.insert id row }
  | .start r ask =>
    match s.requests.find? r with
    | some _ => none
    | none => some (s.goto r ask.phase)
  | .next r d => (s.requests.find? r).map (s.next sha256 r d ·)
  | .stop r => (s.requests.find? r).map fun _ => s.goto r .over

/-- Nothing is stored yet. -/
def World.start : World ρ :=
  { incidents := .empty
    alerts := []
    requests := .empty
    created := [] }

end AiAgentsSwd.Incidents
