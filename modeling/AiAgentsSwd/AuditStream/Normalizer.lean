import AiAgentsSwd.Audit.Forensics

/-!
# AuditStream.Normalizer — one row for every kind of audit event

Model of `shared/sdk/audit/normalizer.py`. An event is what was loaded from the stream, with
whatever its producer put into it. The time of creation is left out: the store does not insert
it.
-/

namespace AiAgentsSwd.AuditStream

open Audit (truthy strip)
open Json (Value field? dictSet)

/-- What the normalizer takes from Python. -/
structure TextRuntime where
  float : List Char → Json.FloatText
  /-- `str(value)` of a value that is not a text. -/
  str : Value → String
  /-- `str.lower()` -/
  lower : List Char → List Char

abbrev Members := List (String × Value)

variable (rt : TextRuntime)

/-- `str(value)` -/
def TextRuntime.text : Value → String
  | .str s => s
  | v => rt.str v

/-- `str(event.get(name) or "")` -/
def textOrEmpty (event : Members) (name : String) : String :=
  match field? event name with
  | some v => if truthy v then rt.text v else ""
  | none => ""

/-- `_coerce_payload(payload)` -/
def coercePayload : Option Value → Members
  | some (.obj payload) => payload
  | some (.str text) =>
    match Json.loads rt.float text with
    | some (.obj decoded) => decoded
    | _ => []
  | _ => []

/-- `AUDIT_RECORDED_EVENTS` -/
def auditRecordedEvents : List (List Char) := ["audit.recorded".toList, "audit_recorded".toList]

/-- `AUDIT_RECORDED_DECISION_TYPES` -/
def auditRecordedDecisionTypes : List (List Char) := ["audit_recorded".toList]

/-- `AUDIT_SERVICE_NAMES` -/
def auditServiceNames : List (List Char) := ["audit-service".toList]

/-- `is_audit_recorded_echo(event)` -/
def isAuditRecordedEcho (event : Members) : Bool :=
  let value (name : String) : List Char := rt.lower (strip (textOrEmpty rt event name)).toList
  let hasAuditId := (field? event "audit_id").any truthy
  auditRecordedEvents.contains (value "event") ||
    auditRecordedEvents.contains (value "event_type") ||
    auditRecordedDecisionTypes.contains (value "decision_type") ||
    (auditServiceNames.contains (value "agent") && hasAuditId) ||
    ((auditServiceNames.contains (value "source") || auditServiceNames.contains (value "service")) &&
      hasAuditId)

/-- `merged.get(k) in (None, "")`, where the name is there or not. -/
def isVacant (merged : Members) (name : String) : Bool :=
  match field? merged name with
  | none => true
  | some .null => true
  | some (.str s) => s == ""
  | some _ => false

/-- One nested dictionary is merged: what is there already stays. -/
def mergeMembers (merged nested : Members) : Members :=
  nested.foldl (fun merged m => if isVacant merged m.1 then dictSet merged m.1 m.2 else merged) merged

/-- `_merge_nested_payload(event)` -/
def mergeNestedPayload (event : Members) : Members :=
  ["payload", "data"].foldl (fun merged key =>
    mergeMembers merged (coercePayload rt (field? event key))) event

/-- `_pick(*candidates)` -/
def pick : List (Option Value) → String
  | [] => ""
  | none :: rest => pick rest
  | some .null :: rest => pick rest
  | some v :: rest =>
    let text := strip (rt.text v)
    if text = "" then pick rest else text

/-- `d.setdefault(k, v)` -/
def setDefault (d : Members) (name : String) (v : Value) : Members :=
  if (field? d name).isSome then d else d ++ [(name, v)]

/-- What `normalize_audit_event` returns. -/
structure NormalizedAudit where
  taskId : String
  agent : String
  decisionType : String
  summary : String
  result : String
  artifactRefs : Members

/-- `_as_dict(merged.get("artifact_refs"))` -/
def producerRefs (event : Members) : Members :=
  match field? (mergeNestedPayload rt event) "artifact_refs" with
  | some (.obj refs) => refs
  | _ => []

/-- `normalize_audit_event(event, source_message_id=…)`, of an event that is a dictionary. -/
def normalizeAuditEvent (event : Members) (sourceMessageId : String) : NormalizedAudit :=
  let merged := mergeNestedPayload rt event
  let eventName := pick rt [field? merged "event", field? merged "event_type"]
  let decisionType :=
    pick rt [field? merged "decision_type", some (.str eventName), some (.str "unknown")]
  let refs := producerRefs rt event
  let refs := setDefault refs "source_message_id" (.str sourceMessageId)
  let refs := setDefault refs "source_stream" (.str "stream.audit")
  let refs := setDefault refs "normalized_by" (.str "audit-worker")
  { taskId := pick rt [field? merged "task_id", field? merged "workflow_id",
      field? merged "incident_id", some (.str "unknown")]
    agent := pick rt [field? merged "agent", field? merged "source", field? merged "service",
      some (.str "unknown")]
    decisionType := decisionType
    summary := pick rt [field? merged "summary", field? merged "message", some (.str decisionType)]
    result := pick rt [field? merged "result", field? merged "status", some (.str "recorded")]
    artifactRefs := setDefault refs "original_event" (.obj event) }

/-! ## The key of a message -/

theorem field?_append (d e : Members) (name : String) :
    field? (d ++ e) name = (field? d name).or (field? e name) := by
  unfold field?
  rw [List.find?_append, Option.map_or]

theorem field?_setDefault (d : Members) (name key : String) (v : Value) :
    field? (setDefault d name v) key =
      (field? d key).or (if name = key then some v else none) := by
  unfold setDefault
  cases hname : field? d name with
  | some w =>
    rw [Option.isSome_some, if_pos rfl]
    by_cases heq : name = key
    · rw [← heq, hname, Option.some_or]
    · rw [if_neg heq, Option.or_none]
  | none =>
    rw [Option.isSome_none, if_neg Bool.false_ne_true, field?_append]
    congr 1
    unfold field?
    by_cases heq : name = key
    · simp [heq]
    · simp [heq]

/-- What the producer gives for the id of the message, if it gives anything: a text, empty for a
value that counts as false. -/
def producerKey (event : Members) : Option String :=
  (field? (producerRefs rt event) "source_message_id").map fun v =>
    if truthy v then rt.text v else ""

/-- The key under which a message is remembered. -/
def dedupKey (event : Members) (sourceMessageId : String) : String :=
  (producerKey rt event).getD sourceMessageId

/-- `str(artifact_refs.get("source_message_id") or "")`, of a normalized event. -/
def sourceId (normalized : NormalizedAudit) : String :=
  textOrEmpty rt normalized.artifactRefs "source_message_id"

/-- The key is what the producer says, and the id of the message only where it says nothing. -/
theorem sourceId_normalize (event : Members) (id : String) :
    sourceId rt (normalizeAuditEvent rt event id) = dedupKey rt event id := by
  unfold sourceId normalizeAuditEvent textOrEmpty dedupKey producerKey
  simp only [field?_setDefault]
  have hstream : ¬"source_stream" = "source_message_id" := by decide
  have hby : ¬"normalized_by" = "source_message_id" := by decide
  have horiginal : ¬"original_event" = "source_message_id" := by decide
  rw [if_neg hstream, if_neg hby, if_neg horiginal]
  simp only [Option.or_none, if_true]
  cases field? (producerRefs rt event) "source_message_id" with
  | some v => rfl
  | none =>
    simp only [Option.none_or, Option.map_none, Option.getD_none]
    by_cases hid : id = ""
    · rw [hid]
      rfl
    · have htrue : truthy (.str id) = true := decide_eq_true hid
      rw [htrue, if_pos rfl]
      rfl

end AiAgentsSwd.AuditStream
