import AiAgentsSwd.Audit.Verifier
import AiAgentsSwd.ReadCommitted.Serializability

/-!
# Audit.Store — the three writers of the chain

Model of `create_integrity_record_in_txn` and its callers: the POST handler of the
audit service, `AuditWorker.handle` (`AuditStore.write_audit_log`, then a transaction of its
own for the integrity record) and `backfill_missing_integrity_records`.

Each writer builds the canonical payload from a dictionary of its own shape: `postRow`,
`rowToAudit` and `AuditLog.row`. The second transaction of the worker and those of the
backfill work on a row that an earlier statement returned; their call carries that row, and
a call with a row that was never committed is none a writer makes, so it raises.
-/

namespace AiAgentsSwd.Audit

open ReadCommitted ReadCommitted.Txn
open Keyed (Table)
open Planning (Uuid)
open Json (Value)

/-- What a transaction locks: the chain (`pg_advisory_xact_lock`), or the key of a log. -/
inductive AuditLock where
  | chain
  | auditLog (id : Uuid)
deriving DecidableEq

/-- The exceptions of the writers. -/
inductive AuditExn where
  | uniqueViolation
  | neverReturned
deriving DecidableEq

abbrev AuditTxn := Txn AuditDb AuditLock AuditExn

/-- `CHAIN_VERSION`. -/
def chainVersion : Int := 1

/-! ## Appending to the chain -/

/-- `ORDER BY sequence_number DESC LIMIT 1` over one chain. -/
def AuditDb.latest (db : AuditDb) (v : Int) : Option IntegrityRecord :=
  ((db.chain v).map Prod.snd).insertionSort
    (fun a b => b.sequenceNumber ≤ a.sequenceNumber) |>.head?

variable (p : Primitives)

/-- The record that follows `prev`. -/
def nextRecord (k : AuditHmacKeyring) (row : AuditLogRow) (prev : Option IntegrityRecord)
    (status : IntegrityStatus) : IntegrityRecord :=
  let canonicalHash := computePayloadHash p (buildCanonicalPayload p row)
  let sequenceNumber :=
    match prev with
    | none => 1
    | some r => r.sequenceNumber + 1
  let prevHash := prev.map IntegrityRecord.rowHash
  let rowHash := computeRowHash p chainVersion sequenceNumber row.auditLogId prevHash canonicalHash
  let s := sign p k rowHash
  { chainVersion, sequenceNumber, prevHash, rowHash, canonicalPayloadHash := canonicalHash,
    hmacSignature := s.signature, signingKeyId := some s.keyId, signatureStatus := s.status,
    integrityStatus := status }

/-- `INSERT INTO audit_integrity_records`, with its two unique constraints. -/
def insertRecord (id : Uuid) (r : IntegrityRecord) : AuditTxn Unit :=
  query fun db =>
    if (db.records.find? id).isSome ∨ db.records.rows.any (fun e =>
        e.2.chainVersion = r.chainVersion ∧ e.2.sequenceNumber = r.sequenceNumber) then
      raise .uniqueViolation
    else modify fun db => { db with records := db.records.insert id r }

/-- `create_integrity_record_in_txn(conn, audit_log_row, signer, integrity_status)`. -/
def createIntegrityRecordInTxn (k : AuditHmacKeyring) (row : AuditLogRow)
    (status : IntegrityStatus) : AuditTxn (Option IntegrityRecord) := do
  lockRow .chain
  let existing ← select fun db => (db.records.find? row.auditLogId).isSome
  if existing then return none
  else
    let prev ← select fun db => db.latest chainVersion
    insertRecord row.auditLogId (nextRecord p k row prev status)
    return some (nextRecord p k row prev status)

/-! ## The writers -/

/-- The event a writer stores. `artifactRefs` is the text PostgreSQL returns for the
references, which are an object in every event. -/
structure AuditEvent where
  taskId : Option String
  agent : Option String
  decisionType : Option String
  summary : Option String
  result : Option String
  artifactRefs : String
  refs_object : ∃ ms, Json.loads p.float artifactRefs = some (.obj ms)

variable {p}

/-- The stored log of an event. -/
def AuditEvent.log (e : AuditEvent p) (now : UtcDateTime) : AuditLog :=
  { taskId := e.taskId, agent := e.agent, decisionType := e.decisionType, summary := e.summary,
    result := e.result, artifactRefs := e.artifactRefs, createdAt := now }

variable (p)

/-- `INSERT INTO audit_logs … RETURNING …`. -/
def insertAuditLog (id : Uuid) (log : AuditLog) : AuditTxn Unit := do
  lockRow (.auditLog id)
  query fun db =>
    if (db.auditLogs.find? id).isSome then raise .uniqueViolation
    else modify fun db => { db with auditLogs := db.auditLogs.insert id log }

/-- `_row_to_audit(row)["artifact_refs"]`. -/
def parsedRefs (artifactRefs : String) : Value :=
  (Json.loads p.float artifactRefs).getD (.obj [])

/-- The `audit_log_row` of the POST handler: parsed references and a `datetime`. -/
def postRow (id : Uuid) (a : AuditLog) : AuditLogRow :=
  { a.row id with artifactRefs := parsedRefs p a.artifactRefs }

/-- `_row_to_audit(row)` of the worker: parsed references and the text of the timestamp. -/
def rowToAudit (id : Uuid) (a : AuditLog) : AuditLogRow :=
  { a.row id with
    artifactRefs := parsedRefs p a.artifactRefs
    createdAt := .text a.createdAt.isoformat }

/-- The transaction of `create_event`. -/
def createEvent (k : AuditHmacKeyring) (id : Uuid) (now : UtcDateTime) (e : AuditEvent p) :
    AuditTxn (Option IntegrityRecord) := do
  insertAuditLog id (e.log now)
  createIntegrityRecordInTxn p k (postRow p id (e.log now)) .active

/-- The transaction of `write_audit_log`. -/
def writeAuditLog (id : Uuid) (now : UtcDateTime) (e : AuditEvent p) :
    AuditTxn (Option IntegrityRecord) := do
  insertAuditLog id (e.log now)
  return none

/-- `create_integrity_record_for_audit_log(row)`, for the `row` a writer made of the log
`a` it was returned. -/
def createIntegrityRecordFor (k : AuditHmacKeyring) (id : Uuid) (a : AuditLog)
    (row : AuditLogRow) (status : IntegrityStatus) : AuditTxn (Option IntegrityRecord) :=
  query fun db =>
    if db.auditLogs.find? id = some a then createIntegrityRecordInTxn p k row status
    else raise .neverReturned

/-- A transaction of a writer, with its arguments and the keyring of the process that
runs it. -/
inductive AuditCall where
  | createEvent (keyring : AuditHmacKeyring) (id : Uuid) (now : UtcDateTime) (event : AuditEvent p)
  | writeAuditLog (id : Uuid) (now : UtcDateTime) (event : AuditEvent p)
  | workerIntegrity (keyring : AuditHmacKeyring) (id : Uuid) (now : UtcDateTime)
      (event : AuditEvent p)
  | backfillIntegrity (keyring : AuditHmacKeyring) (id : Uuid) (log : AuditLog)

/-- The transaction a call runs. -/
def auditProgram : AuditCall p → AuditTxn (Option IntegrityRecord)
  | .createEvent k id now e => createEvent p k id now e
  | .writeAuditLog id now e => writeAuditLog p id now e
  | .workerIntegrity k id now e =>
    createIntegrityRecordFor p k id (e.log now) (rowToAudit p id (e.log now)) .active
  | .backfillIntegrity k id a => createIntegrityRecordFor p k id a (a.row id) .backfilled

/-- The keyring the call signs with. -/
def AuditCall.keyring? : AuditCall p → Option AuditHmacKeyring
  | .createEvent k _ _ _ => some k
  | .writeAuditLog _ _ _ => none
  | .workerIntegrity k _ _ _ => some k
  | .backfillIntegrity k _ _ => some k

end AiAgentsSwd.Audit
