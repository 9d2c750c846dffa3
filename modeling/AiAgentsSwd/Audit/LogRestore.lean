import AiAgentsSwd.Audit.Repair
import AiAgentsSwd.Keyed.Counts
import AiAgentsSwd.Python.Values

/-!
# Audit.LogRestore — taking a marker off one summary

Model of `shared/sdk/audit_integrity/log_restore.py`. `precheck` reads one state of the
database, `apply` runs on a later one: its transaction ends with the advisory lock of the
chain and the row lock of the log held, so it is a function of the state it runs on.

- `precheck_ok`: what a passed precheck hands on;
- `completed_iff`: a restore completes exactly when every gate lets it pass;
- `linked_restoredDb_iff`: when the chain it leaves behind is linked;
- `restore_exact_iff`: when a restore is exact and atomic and mends the chain.
-/

namespace AiAgentsSwd.Audit.AuditLogRestorer

open HashChain (Scheme)
open Json (Value)
open Keyed (Table)
open Planning (Uuid)
open ReadCommitted ReadCommitted.Txn

/-! ## The precheck -/

/-- What the restorer reads of a forensic report. -/
structure ForensicReport where
  rootCauseClassification : Option String
  repairAllowed : Bool
  repairRisk : Option String
  /-- The `audit_log_id` of each failed record. -/
  failedRecords : List (Option Uuid)
  failedRecordsCount : Option Int
  firstFailedSequence : Option Int

/-- `RestorePrecheck`. -/
structure RestorePrecheck where
  ok : Bool := false
  reason : String := ""
  affectedAuditLogId : Option Uuid := none
  affectedSequenceNumber : Option Int := none
  rootCause : Option String := none
  restoreType : String := "test_tamper_residue"
  productionExecuted : Option Bool := none
  beforeContainsTamperMarker : Bool := false
  afterContainsTamperMarker : Bool := false
  beforeSummaryHash : Option String := none
  afterSummaryHash : Option String := none
  storedCanonicalPayloadHash : Option String := none
  recomputedAfterCanonicalPayloadHash : Option String := none
  hashMatchAfter : Bool := false
  missingIntegrityRecords : Option Nat := none
  prevChainLinkageIntact : Bool := false
  signatureBlocking : Bool := false
  restoredSummary : Option String := none
  currentSummary : Option String := none

section Reasons

variable (printable : Char → Bool)

/-- `repr` of a text that may be missing. -/
def reprText (text : Option String) : String :=
  match text with
  | none => "None"
  | some s => String.ofList (Python.repr printable s.toList).text

/-- `repr` of a flag that may be missing. -/
def reprFlag : Option Bool → String
  | none => "None"
  | some false => "False"
  | some true => "True"

/-- Python's `x or y` for numbers. -/
def orElse (x y : Option Int) : Option Int := if x = none ∨ x = some 0 then y else x

/-- The gates on the report: the sequence and the log to restore, or why there is none. -/
def resolveAffected (report : ForensicReport) (auditLogId : Option Uuid)
    (sequenceNumber : Option Int) : Except String (Int × Uuid) :=
  let reportId := report.firstFailedSequence
  let reportAuditId := report.failedRecords.head?.join
  if report.rootCauseClassification ≠ some "test_tamper_not_restored" then
    .error ("root_cause=" ++ reprText printable report.rootCauseClassification ++
      " != test_tamper_not_restored")
  else if ¬ report.repairAllowed then .error "forensic repair_allowed is not true"
  else if report.repairRisk ≠ some "low" then
    .error ("repair_risk=" ++ reprText printable report.repairRisk ++ " != low")
  else if orElse report.failedRecordsCount (some report.failedRecords.length) ≠ some 1 then
    .error "forensic report does not describe exactly one failed record"
  else
    match orElse sequenceNumber reportId, auditLogId.or reportAuditId with
    | some seq, some id =>
      if reportId ≠ none ∧ some seq ≠ reportId then
        .error ("sequence " ++ toString seq ++ " != forensic first_failed_sequence " ++
          toString (reportId.getD 0))
      else if reportAuditId ≠ none ∧ some id ≠ reportAuditId then
        .error "audit_log_id does not match forensic report"
      else .ok (seq, id)
    | _, _ => .error "could not resolve affected sequence / audit_log_id"

end Reasons

/-- The record of one number in a chain. -/
def recordAt (db : AuditDb) (v n : Int) : Option IntegrityRecord :=
  ((db.chain v).find? fun e => e.2.sequenceNumber = n).map Prod.snd

/-- `audit_logs LEFT JOIN audit_integrity_records … WHERE r.audit_log_id IS NULL`, counted. -/
def missingIntegrityRecords (db : AuditDb) : Nat :=
  db.auditLogs.rows.countP fun e => (db.records.find? e.1).isNone

/-- The hashes next to the record fit. -/
def prevChainLinkage (db : AuditDb) (v : Int) (r : IntegrityRecord) : Bool :=
  let prevRowHash := (recordAt db v (r.sequenceNumber - 1)).map IntegrityRecord.rowHash
  let nextPrevHash := (recordAt db v (r.sequenceNumber + 1)).bind IntegrityRecord.prevHash
  (r.sequenceNumber = 1 ∨ r.prevHash = prevRowHash) ∧
    (nextPrevHash = none ∨ nextPrevHash = some r.rowHash)

variable (p : Primitives)

/-- `_sha256(text)`. -/
def sha256 (text : Option String) : String := p.sha256 (text.getD "")

/-- The payload hash of a log that is stored with this summary. -/
def payloadHashWith (id : Uuid) (a : AuditLog) (summary : Option String) : String :=
  computePayloadHash p (buildCanonicalPayload p ({ a with summary := summary }.row id))

/-- The gates on the summary. -/
def precheckSummary (pc : RestorePrecheck) (row : JoinedRow) : RestorePrecheck :=
  let restored := stripKnownMarker row.log.summary
  let pc := { pc with beforeContainsTamperMarker := restored.isSome }
  match restored with
  | none => { pc with reason := "current summary does not contain a known tamper marker" }
  | some text =>
    let recomputed := payloadHashWith p row.auditLogId row.log (some text)
    let pc := { pc with
      storedCanonicalPayloadHash := some row.record.canonicalPayloadHash
      recomputedAfterCanonicalPayloadHash := some recomputed
      hashMatchAfter := recomputed = row.record.canonicalPayloadHash
      beforeSummaryHash := some (sha256 p row.log.summary)
      afterSummaryHash := some (sha256 p (some text))
      afterContainsTamperMarker := (stripKnownMarker (some text)).isSome
      restoredSummary := some text
      currentSummary := row.log.summary }
    if recomputed ≠ row.record.canonicalPayloadHash then
      { pc with reason := "restored summary does not reproduce the stored canonical hash" }
    else { pc with ok := true, reason := "all preconditions satisfied" }

/-- The gates on the database. -/
def precheckDb (db : AuditDb) (v : Int) (pc : RestorePrecheck) (seq : Int) (id : Uuid) :
    RestorePrecheck :=
  match (db.joined v).find? fun row => row.record.sequenceNumber = seq with
  | none => { pc with reason := "no integrity record at sequence " ++ toString seq }
  | some row =>
    if row.auditLogId ≠ id then { pc with reason := "integrity record audit_log_id mismatch" }
    else
      let missing := missingIntegrityRecords db
      let productionExecuted := extractProductionExecuted p row.log.artifactRefs
      let pc := { pc with missingIntegrityRecords := some missing, productionExecuted }
      if productionExecuted ≠ some false then
        { pc with
          reason := "production_executed=" ++ reprFlag productionExecuted ++ " (must be false)" }
      else if row.record.signatureStatus = .signed then
        { pc with
          signatureBlocking := true
          reason := "signed row -- signature issue must be handled separately" }
      else if missing ≠ 0 then
        { pc with
          reason := "missing_integrity_records=" ++ toString missing ++ " (must be 0)" }
      else
        let pc := { pc with prevChainLinkageIntact := prevChainLinkage db v row.record }
        if ¬ prevChainLinkage db v row.record then
          { pc with
            reason := "prev/next chain linkage not intact -- not a simple residue case" }
        else precheckSummary p pc row

/-- `AuditLogRestorer.precheck(forensic_report, audit_log_id, sequence_number, chain_version)`. -/
def precheck (printable : Char → Bool) (report : ForensicReport) (auditLogId : Option Uuid)
    (sequenceNumber : Option Int) (v : Int) (db : AuditDb) : RestorePrecheck :=
  let pc : RestorePrecheck := { rootCause := report.rootCauseClassification }
  match resolveAffected printable report auditLogId sequenceNumber with
  | .error reason => { pc with reason := reason }
  | .ok affected =>
    precheckDb p db v { pc with
      affectedSequenceNumber := some affected.1, affectedAuditLogId := some affected.2 }
      affected.1 affected.2

/-! ## The restore -/

/-- `RESTORE_STATUS_…` of a report. -/
inductive RestoreStatus where
  | dryRun
  | approvalRequired
  | rejectedUnsafe
  | completed
  | failed
deriving DecidableEq

/-- The report of `apply`; the fields it copies from the precheck are in `precheck`. -/
structure RestoreReport where
  dryRun : Bool
  approved : Bool
  precheck : RestorePrecheck
  auditLogsModifiedCount : Nat := 0
  auditIntegrityRecordsModifiedCount : Nat := 0
  restoreAuditEventId : Option Uuid := none
  status : RestoreStatus := .dryRun
  warnings : List String := []

/-- The statements of the transaction. -/
inductive RestoreStatement where
  | connect
  | advisoryLock
  | updateSummary
  | selectRow
  | insertAuditLog
  | appendRecord
deriving DecidableEq

/-- What surrounds a restore: the statements that raise, the time and the id of the row the
database adds, the text it gives a `JSONB` value, and the keyring of the process. -/
structure RestoreEnv where
  raises : RestoreStatement → Bool
  now : UtcDateTime
  newId : Uuid
  jsonb : Value → String
  keyring : AuditHmacKeyring

/-- What ends the transaction before its commit: `_RollbackRestore` with the warning of the
report, or any other exception. -/
inductive RestoreAbort where
  | rollback (warning : String)
  | raised
deriving DecidableEq

/-- A statement that may raise. -/
def RestoreEnv.run (env : RestoreEnv) (statement : RestoreStatement) : Except RestoreAbort Unit :=
  if env.raises statement then .error .raised else .ok ()

/-- `UPDATE audit_logs SET summary = $1 WHERE id = $2 AND summary = $3`: the row it changes,
if any. -/
def matching (db : AuditDb) (pc : RestorePrecheck) : Option (Uuid × AuditLog) :=
  pc.affectedAuditLogId.bind fun id => (db.auditLogs.find? id).bind fun a =>
    if pc.currentSummary ≠ none ∧ a.summary = pc.currentSummary then some (id, a) else none

def optText (text : Option String) : Value := (text.map Value.str).getD .null

/-- The `refs` of `_emit_restore_event`. -/
def restoreRefs (pc : RestorePrecheck) : Value :=
  .obj [("affected_audit_log_id", optText (pc.affectedAuditLogId.map toString)),
    ("affected_sequence_number", (pc.affectedSequenceNumber.map Value.int).getD .null),
    ("root_cause", optText pc.rootCause), ("restore_type", .str pc.restoreType),
    ("before_summary_hash", optText pc.beforeSummaryHash),
    ("after_summary_hash", optText pc.afterSummaryHash),
    ("production_executed", .bool false), ("dry_run", .bool false)]

/-- The log of the restore itself. -/
def restoreEvent (env : RestoreEnv) (pc : RestorePrecheck) : AuditLog :=
  { taskId := some "audit-log-restore", agent := some "orchestrator"
    decisionType := some "audit_log_restore_completed"
    summary := some "audit_log test-tamper residue restored", result := some "completed"
    artifactRefs := env.jsonb (restoreRefs pc), createdAt := env.now }

/-- `_emit_restore_event(conn, precheck)`. -/
def emitRestoreEvent (env : RestoreEnv) (pc : RestorePrecheck) :
    AuditTxn (Option IntegrityRecord) := do
  insertAuditLog env.newId (restoreEvent env pc)
  createIntegrityRecordInTxn p env.keyring ((restoreEvent env pc).row env.newId) .active

/-- The transaction of `apply`: the database it commits. -/
def restoreInTxn (env : RestoreEnv) (pc : RestorePrecheck) (db : AuditDb) :
    Except RestoreAbort AuditDb := do
  env.run .connect
  env.run .advisoryLock
  env.run .updateSummary
  match matching db pc with
  | none => .error (.rollback "expected to modify exactly 1 row, modified 0; rolled back")
  | some (id, a) =>
    env.run .selectRow
    match db.records.find? id with
    -- the join finds no row, and `None` has no columns
    | none => .error .raised
    | some r =>
      if payloadHashWith p id a pc.restoredSummary ≠ r.canonicalPayloadHash then
        .error (.rollback "post-restore canonical hash still mismatches; rolled back")
      else
        env.run .insertAuditLog
        env.run .appendRecord
        match exec (emitRestoreEvent p env pc)
            (db.setLog id { a with summary := pc.restoredSummary }) with
        | .error _ => .error .raised
        | .ok o => .ok o.state

/-- `AuditLogRestorer.apply(precheck, approved, dry_run)`: the report, unless an exception
leaves the method, and the database after it. -/
def apply (env : RestoreEnv) (pc : RestorePrecheck) (approved dryRun : Bool) (db : AuditDb) :
    Option RestoreReport × AuditDb :=
  let report : RestoreReport := { dryRun, approved, precheck := pc }
  if ¬ pc.ok then
    (some { report with
      status := .rejectedUnsafe, warnings := ["precheck failed: " ++ pc.reason] }, db)
  else if ¬ approved then
    (some { report with
      status := .approvalRequired
      warnings := ["AUDIT_LOG_RESTORE_APPROVED not set -- restore gated; no DB change"] }, db)
  else if dryRun then (some report, db)
  else
    match restoreInTxn p env pc db with
    | .error (.rollback warning) =>
      (some { report with status := .failed, warnings := [warning] }, db)
    | .error .raised => (none, db)
    | .ok db' =>
      (some { report with
        auditLogsModifiedCount := 1
        restoreAuditEventId := some env.newId
        status := .completed }, db')


/-! ## What a restore does -/

/-- What `apply` must find to carry the restore out on a database: the log `a` of the id, with
the record `r`. -/
structure Carried (p : Primitives) (env : RestoreEnv) (pc : RestorePrecheck)
    (approved dryRun : Bool) (db : AuditDb) (id : Uuid) (a : AuditLog) (r : IntegrityRecord) :
    Prop where
  ok : pc.ok = true
  approved : approved = true
  not_dryRun : dryRun = false
  quiet : ∀ statement, env.raises statement = false
  affected : pc.affectedAuditLogId = some id
  log : db.auditLogs.find? id = some a
  -- the log still carries the summary that was checked
  summary : a.summary = pc.currentSummary
  current : pc.currentSummary ≠ none
  record : db.records.find? id = some r
  hash : payloadHashWith p id a pc.restoredSummary = r.canonicalPayloadHash
  new : db.auditLogs.find? env.newId = none

/-- The database with the summary written back. -/
def restoredLogs (pc : RestorePrecheck) (id : Uuid) (a : AuditLog) (db : AuditDb) : AuditDb :=
  db.setLog id { a with summary := pc.restoredSummary }

/-- The record of the restore itself. -/
def eventRecord (p : Primitives) (env : RestoreEnv) (pc : RestorePrecheck) (db : AuditDb) :
    IntegrityRecord :=
  nextRecord p env.keyring ((restoreEvent env pc).row env.newId) (db.latest chainVersion) .active

/-- The database a completed restore leaves behind. -/
def restoredDb (p : Primitives) (env : RestoreEnv) (pc : RestorePrecheck) (id : Uuid)
    (a : AuditLog) (db : AuditDb) : AuditDb :=
  ((restoredLogs pc id a db).addLog env.newId (restoreEvent env pc)).addRecord env.newId
    (eventRecord p env pc db)

variable {p} {env : RestoreEnv} {pc : RestorePrecheck} {approved dryRun : Bool} {db : AuditDb}
  {id : Uuid} {a : AuditLog} {r : IntegrityRecord}

theorem stripKnownMarker_eq_some {summary : Option String} {text : String}
    (h : stripKnownMarker summary = some text) :
    ∃ marker ∈ knownTamperMarkers, summary = some (text ++ marker) := by
  obtain ⟨marker, hmarker, hstrip⟩ := List.exists_of_findSome?_eq_some h
  refine ⟨marker, hmarker, ?_⟩
  simp only at hstrip
  split at hstrip
  next hsuffix =>
    obtain rfl := Option.some.inj hstrip
    obtain ⟨hne, hmem⟩ := hsuffix
    obtain ⟨front, hfront⟩ := List.isSuffixOf_iff_suffix.mp hmem
    cases summary with
    | none => exact absurd rfl hne
    | some s =>
      have hs : s.toList = front ++ marker.toList := hfront.symm
      have hlen : s.toList.length - marker.length = front.length := by
        rw [hs, List.length_append, String.length_toList]
        omega
      rw [Option.getD_some, hlen, hs, List.take_left, Option.some.injEq]
      apply String.toList_inj.mp
      rw [String.toList_append, String.toList_ofList, hs]
  · cases hstrip

/-- A precheck is passed by the last gate only. -/
theorem precheckSummary_ok {row : JoinedRow} (hpc : pc.ok = false)
    (h : (precheckSummary p pc row).ok = true) :
    ∃ marker ∈ knownTamperMarkers, ∃ text,
      (precheckSummary p pc row).restoredSummary = some text ∧
        (precheckSummary p pc row).currentSummary = some (text ++ marker) := by
  unfold precheckSummary at h ⊢
  cases hstrip : stripKnownMarker row.log.summary with
  | none =>
    simp only [hstrip] at h
    rw [hpc] at h
    cases h
  | some text =>
    obtain ⟨marker, hmarker, hsummary⟩ := stripKnownMarker_eq_some hstrip
    simp only [hstrip] at h ⊢
    split at h
    · rw [hpc] at h
      cases h
    next hmatch =>
      rw [if_neg hmatch]
      exact ⟨marker, hmarker, text, rfl, hsummary⟩

theorem precheckDb_ok {v seq : Int} (hpc : pc.ok = false)
    (h : (precheckDb p db v pc seq id).ok = true) :
    ∃ marker ∈ knownTamperMarkers, ∃ text,
      (precheckDb p db v pc seq id).restoredSummary = some text ∧
        (precheckDb p db v pc seq id).currentSummary = some (text ++ marker) := by
  have hrejected : ∀ {q : Prop}, pc.ok = true → q := fun hok => by
    rw [hpc] at hok
    cases hok
  unfold precheckDb at h ⊢
  cases hrow : (db.joined v).find? fun row => row.record.sequenceNumber = seq with
  | none =>
    rw [hrow] at h
    exact hrejected h
  | some row =>
    rw [hrow] at h
    simp only at h ⊢
    split at h
    · exact hrejected h
    split at h
    · exact hrejected h
    split at h
    · exact hrejected h
    split at h
    · exact hrejected h
    split at h
    · exact hrejected h
    next h₁ h₂ h₃ h₄ h₅ =>
      rw [if_neg h₁, if_neg h₂, if_neg h₃, if_neg h₄, if_neg h₅]
      exact precheckSummary_ok hpc h

/-- The gates on the database, all of them passed. -/
theorem precheckDb_of_gates {v seq : Int} {row : JoinedRow} {text : String}
    (hrow : (db.joined v).find? (fun row => row.record.sequenceNumber = seq) = some row)
    (hid : row.auditLogId = id)
    (hproduction : extractProductionExecuted p row.log.artifactRefs = some false)
    (hsigned : row.record.signatureStatus ≠ .signed) (hmissing : missingIntegrityRecords db = 0)
    (hlinkage : prevChainLinkage db v row.record = true)
    (hmarker : stripKnownMarker row.log.summary = some text)
    (hhash : payloadHashWith p row.auditLogId row.log (some text) =
      row.record.canonicalPayloadHash) :
    (precheckDb p db v pc seq id).ok = true ∧
      (precheckDb p db v pc seq id).affectedAuditLogId = pc.affectedAuditLogId ∧
      (precheckDb p db v pc seq id).restoredSummary = some text ∧
      (precheckDb p db v pc seq id).currentSummary = row.log.summary := by
  unfold precheckDb precheckSummary
  simp only [hrow, hid, hproduction, if_neg hsigned, hmissing, hlinkage, hmarker, ne_eq,
    not_true_eq_false, if_false]
  rw [hid] at hhash
  rw [if_neg (not_not.mpr hhash)]
  exact ⟨rfl, rfl, rfl, rfl⟩

/-- The precheck of a report whose own gates are passed. -/
theorem precheck_resolved {printable : Char → Bool} {report : ForensicReport}
    {auditLogId : Option Uuid} {sequenceNumber : Option Int} {v seq : Int}
    (h : resolveAffected printable report auditLogId sequenceNumber = .ok (seq, id)) :
    precheck p printable report auditLogId sequenceNumber v db =
      precheckDb p db v
        { rootCause := report.rootCauseClassification
          affectedSequenceNumber := some seq
          affectedAuditLogId := some id } seq id := by
  unfold precheck
  rw [h]

/-- **What a passed precheck hands on**: the summary it read, and that summary without one
trailing marker. -/
theorem precheck_ok {printable : Char → Bool} {report : ForensicReport}
    {auditLogId : Option Uuid} {sequenceNumber : Option Int} {v : Int}
    (h : (precheck p printable report auditLogId sequenceNumber v db).ok = true) :
    ∃ marker ∈ knownTamperMarkers, ∃ text,
      (precheck p printable report auditLogId sequenceNumber v db).restoredSummary = some text ∧
        (precheck p printable report auditLogId sequenceNumber v db).currentSummary =
          some (text ++ marker) := by
  unfold precheck at h ⊢
  cases hresolved : resolveAffected printable report auditLogId sequenceNumber with
  | error reason =>
    rw [hresolved] at h
    cases h
  | ok affected =>
    rw [hresolved] at h
    exact precheckDb_ok rfl h

theorem matching_eq_some :
    matching db pc = some (id, a) ↔ pc.affectedAuditLogId = some id ∧
      db.auditLogs.find? id = some a ∧ a.summary = pc.currentSummary ∧
        pc.currentSummary ≠ none := by
  unfold matching
  simp only [Option.bind_eq_some_iff, Option.ite_none_right_eq_some, Option.some.injEq,
    Prod.mk.injEq]
  constructor
  · rintro ⟨id', hid, a', ha, ⟨hcurrent, hsummary⟩, rfl, rfl⟩
    exact ⟨hid, ha, hsummary, hcurrent⟩
  · rintro ⟨hid, ha, hsummary, hcurrent⟩
    exact ⟨id, hid, a, ha, ⟨hcurrent, hsummary⟩, rfl, rfl⟩

/-- Nothing in the chain is numbered as high as the next record. -/
theorem lt_eventRecord {e : Uuid × IntegrityRecord} (he : e ∈ db.chain chainVersion) :
    e.2.sequenceNumber < (eventRecord p env pc db).sequenceNumber := by
  unfold eventRecord nextRecord
  cases hlatest : db.latest chainVersion with
  | none =>
    rw [AuditDb.latest_eq_none hlatest] at he
    cases he
  | some last =>
    have hle := (AuditDb.latest_eq_some hlatest).2 e.1 e.2 he
    show _ < last.sequenceNumber + 1
    omega

theorem exec_insertRecord (hfree : ¬ ((db.records.find? id).isSome ∨ db.records.rows.any fun e =>
      e.2.chainVersion = r.chainVersion ∧ e.2.sequenceNumber = r.sequenceNumber)) :
    exec (insertRecord id r) db = .ok ⟨(), db.addRecord id r, []⟩ := by
  unfold insertRecord
  rw [exec_query, if_neg hfree]
  rfl

/-- The event and its record go to new rows. -/
theorem exec_emitRestoreEvent (hlog : db.auditLogs.find? env.newId = none)
    (hfresh : db.records.find? env.newId = none) :
    ∃ o, exec (emitRestoreEvent p env pc) db = .ok o ∧
      o.state = (db.addLog env.newId (restoreEvent env pc)).addRecord env.newId
        (eventRecord p env pc db) := by
  have hinsert : exec (insertAuditLog env.newId (restoreEvent env pc)) db =
      .ok ⟨(), db.addLog env.newId (restoreEvent env pc), [.auditLog env.newId]⟩ := by
    simp only [insertAuditLog, bind_eq, lockRow_bind, exec_lock_ok, exec_query, hlog,
      Option.isSome_none, Bool.false_eq_true, if_false, Txn.modify, exec_write, exec_done]
    exact ⟨_, rfl, rfl⟩
  have hfree : ∀ db' : AuditDb, db'.records = db.records →
      ¬ ((db'.records.find? env.newId).isSome ∨ db'.records.rows.any (fun e =>
        e.2.chainVersion = (eventRecord p env pc db).chainVersion ∧
          e.2.sequenceNumber = (eventRecord p env pc db).sequenceNumber)) := by
    intro db' hdb
    rw [hdb, hfresh, List.any_eq_true]
    rintro (hsome | ⟨e, hmem, htaken⟩)
    · cases hsome
    · rcases of_decide_eq_true htaken with ⟨hversion, hseq⟩
      have hlt : e.2.sequenceNumber < (eventRecord p env pc db).sequenceNumber :=
        lt_eventRecord (List.mem_filter.mpr ⟨hmem, decide_eq_true hversion⟩)
      omega
  have happend : exec (createIntegrityRecordInTxn p env.keyring
      ((restoreEvent env pc).row env.newId) .active) (db.addLog env.newId (restoreEvent env pc)) =
      .ok ⟨some (eventRecord p env pc db),
        (db.addLog env.newId (restoreEvent env pc)).addRecord env.newId
          (eventRecord p env pc db), [.chain]⟩ := by
    have hnone : ((db.addLog env.newId (restoreEvent env pc)).records.find?
        ((restoreEvent env pc).row env.newId).auditLogId).isSome = false := by
      show (db.records.find? env.newId).isSome = false
      rw [hfresh]
      rfl
    simp only [createIntegrityRecordInTxn, bind_eq, pure_eq, lockRow_bind, select_bind,
      exec_lock_ok, exec_query, hnone, Bool.false_eq_true, if_false]
    have hrecord := exec_insertRecord (hfree (db.addLog env.newId (restoreEvent env pc)) rfl)
    exact ⟨_, exec_bind_ok.mpr ⟨_, _, hrecord, rfl, rfl⟩, rfl⟩
  exact ⟨_, exec_bind_ok.mpr ⟨_, _, hinsert, happend, rfl⟩, rfl⟩

/-- **What commits**: the transaction of a restore commits what `restoredDb` says, when every
gate lets it pass. -/
theorem restoreInTxn_of_carried (h : Carried p env pc approved dryRun db id a r)
    (hfresh : db.records.find? env.newId = none) :
    restoreInTxn p env pc db = .ok (restoredDb p env pc id a db) := by
  have hrun : ∀ statement, env.run statement = .ok () := by
    intro statement
    unfold RestoreEnv.run
    rw [h.quiet]
    rfl
  have hmatching := matching_eq_some.mpr ⟨h.affected, h.log, h.summary, h.current⟩
  have hnew : (restoredLogs pc id a db).auditLogs.find? env.newId = none := by
    have hne : env.newId ≠ id := by
      intro heq
      have hnone := h.new
      rw [heq, h.log] at hnone
      cases hnone
    exact (Table.find?_insert_of_ne _ _ hne).trans h.new
  have hemit : ∃ o, exec (emitRestoreEvent p env pc) (restoredLogs pc id a db) = .ok o ∧
      o.state = restoredDb p env pc id a db := exec_emitRestoreEvent hnew hfresh
  obtain ⟨o, hexec, hstate⟩ := hemit
  unfold restoreInTxn
  simp only [hrun, hmatching, h.record, if_neg (not_not.mpr h.hash)]
  change exec _ (db.setLog id { a with summary := pc.restoredSummary }) = _ at hexec
  rw [hexec]
  exact congrArg Except.ok hstate

/-- A transaction that commits has passed every gate. -/
theorem carried_of_restoreInTxn {db' : AuditDb} (hok : pc.ok = true)
    (happroved : approved = true) (hdry : dryRun = false)
    (h : restoreInTxn p env pc db = .ok db') :
    ∃ id a r, Carried p env pc approved dryRun db id a r := by
  have hrun : ∀ {statement} {f : Unit → Except RestoreAbort AuditDb},
      (env.run statement >>= f) = .ok db' → env.raises statement = false ∧ f () = .ok db' := by
    intro statement f hf
    unfold RestoreEnv.run at hf
    cases hraises : env.raises statement with
    | true =>
      rw [hraises] at hf
      cases hf
    | false =>
      rw [hraises] at hf
      exact ⟨rfl, hf⟩
  unfold restoreInTxn at h
  obtain ⟨hconnect, h⟩ := hrun h
  obtain ⟨hlock, h⟩ := hrun h
  obtain ⟨hupdate, h⟩ := hrun h
  cases hmatching : matching db pc with
  | none =>
    rw [hmatching] at h
    cases h
  | some found =>
    rcases found with ⟨id, a⟩
    rw [hmatching] at h
    obtain ⟨hselect, h⟩ := hrun h
    obtain ⟨haffected, hlog, hsummary, hcurrent⟩ := matching_eq_some.mp hmatching
    cases hrecord : db.records.find? id with
    | none =>
      rw [hrecord] at h
      cases h
    | some r =>
      rw [hrecord] at h
      simp only at h
      split at h
      · cases h
      next hhash =>
        obtain ⟨hinsert, h⟩ := hrun h
        obtain ⟨happend, h⟩ := hrun h
        have hne : db.auditLogs.find? env.newId = none := by
          split at h
          · cases h
          next o ho =>
            obtain ⟨o₁, o₂, h₁, -, -⟩ := exec_bind_ok.mp ho
            have hnone : (db.setLog id { a with summary := pc.restoredSummary }).auditLogs.find?
                env.newId = none := (exec_insertAuditLog_ok h₁).1
            by_cases heq : env.newId = id
            · rw [heq] at hnone
              cases (Table.find?_insert_self _ _ _).symm.trans hnone
            · exact (Table.find?_insert_of_ne _ _ heq).symm.trans hnone
        have hquiet : ∀ statement, env.raises statement = false := by
          intro statement
          cases statement <;> assumption
        exact ⟨id, a, r, hok, happroved, hdry, hquiet, haffected, hlog, hsummary, hcurrent,
          hrecord, not_not.mp hhash, hne⟩

/-- The report says that the restore completed. -/
def Completed (out : Option RestoreReport × AuditDb) : Prop :=
  out.1.map RestoreReport.status = some .completed

/-- **A restore completes exactly when every gate lets it pass**, and then leaves behind what
`restoredDb` says. -/
theorem completed_iff (hfresh : db.records.find? env.newId = none) :
    Completed (apply p env pc approved dryRun db) ↔
      ∃ id a r, Carried p env pc approved dryRun db id a r := by
  constructor
  · intro h
    unfold Completed apply at h
    simp only at h
    split at h
    · cases h
    split at h
    · cases h
    split at h
    · cases h
    next hok happroved hdry =>
      cases hrestore : restoreInTxn p env pc db with
      | ok db' =>
        exact carried_of_restoreInTxn (not_not.mp hok) (not_not.mp happroved) (by simpa using hdry)
          hrestore
      | error abort =>
        rw [hrestore] at h
        cases abort <;> cases h
  · rintro ⟨id, a, r, h⟩
    unfold Completed apply
    simp only [h.ok, h.approved, h.not_dryRun, restoreInTxn_of_carried h hfresh]
    rfl

theorem apply_of_carried (h : Carried p env pc approved dryRun db id a r)
    (hfresh : db.records.find? env.newId = none) :
    (apply p env pc approved dryRun db).2 = restoredDb p env pc id a db := by
  unfold apply
  simp only [h.ok, h.approved, h.not_dryRun, restoreInTxn_of_carried h hfresh]
  rfl

/-- **A restore that does not complete changes nothing.** -/
theorem apply_of_not_completed (h : ¬ Completed (apply p env pc approved dryRun db)) :
    (apply p env pc approved dryRun db).2 = db := by
  unfold Completed apply at h
  unfold apply
  simp only at h ⊢
  split
  · rfl
  split
  · rfl
  split
  · rfl
  next h₁ h₂ h₃ =>
    rw [if_neg h₁, if_neg h₂, if_neg h₃] at h
    cases hrestore : restoreInTxn p env pc db with
    | error abort => cases abort <;> rfl
    | ok db' =>
      rw [hrestore] at h
      exact absurd rfl h

/-! ## What a restore changes -/

/-- The summary of one log lost one trailing marker, and nothing else changed but for one log and
one record that were added, the record past the end of the chain. -/
def ExactRestore (id : Uuid) (db db' : AuditDb) : Prop :=
  ∃ a text marker newId log r, db.auditLogs.find? id = some a ∧
    marker ∈ knownTamperMarkers ∧ a.summary = some (text ++ marker) ∧
    db.auditLogs.find? newId = none ∧ db.records.find? newId = none ∧
    (∀ j, db'.auditLogs.find? j =
      if j = newId then some log
      else if j = id then some { a with summary := some text } else db.auditLogs.find? j) ∧
    r.chainVersion = chainVersion ∧
    (∀ e ∈ db.chain chainVersion, e.2.sequenceNumber < r.sequenceNumber) ∧
    db.records.Puts db'.records newId r

theorem exactRestore_restoredDb (h : Carried p env pc approved dryRun db id a r)
    (hfresh : db.records.find? env.newId = none) {marker text : String}
    (hmarker : marker ∈ knownTamperMarkers) (hrestored : pc.restoredSummary = some text)
    (hcurrent : pc.currentSummary = some (text ++ marker)) :
    ExactRestore id db (restoredDb p env pc id a db) := by
  refine ⟨a, text, marker, env.newId, restoreEvent env pc, eventRecord p env pc db, h.log, hmarker,
    h.summary.trans hcurrent, h.new, hfresh, fun j => ?_, rfl, fun e he => lt_eventRecord he,
    Table.puts_insert _ _ _⟩
  show ((db.auditLogs.insert id _).insert env.newId _).find? j = _
  rw [Table.find?_insert, Table.find?_insert, hrestored]

/-! ## The chain after a restore -/

section Chain

variable {before : List JoinedRow} {row : JoinedRow}

/-- The rows of the restored chain: those there were, the log of one of them replaced, and the
event of the restore. -/
theorem joined_restoredDb (h : Carried p env pc approved dryRun db id a r)
    (hfresh : db.records.find? env.newId = none) :
    (restoredDb p env pc id a db).joined chainVersion =
      (db.joined chainVersion).map
          (JoinedRow.withLog id { a with summary := pc.restoredSummary }) ++
        [⟨env.newId, eventRecord p env pc db, restoreEvent env pc⟩] := by
  have hnone : (restoredLogs pc id a db).records.find? env.newId = none := hfresh
  have hlogged : ((restoredLogs pc id a db).addLog env.newId (restoreEvent env pc)).joined
      chainVersion = (db.joined chainVersion).map
        (JoinedRow.withLog id { a with summary := pc.restoredSummary }) :=
    (AuditDb.joined_addLog hnone).trans (AuditDb.joined_setLog h.log)
  have hevent : ((restoredLogs pc id a db).addLog env.newId (restoreEvent env pc)).auditLogs.find?
      env.newId = some (restoreEvent env pc) := Table.find?_insert_self _ _ _
  have hnorecord : ((restoredLogs pc id a db).addLog env.newId (restoreEvent env pc)).records.find?
      env.newId = none := hfresh
  have hversion : (eventRecord p env pc db).chainVersion = chainVersion := rfl
  unfold restoredDb
  rw [AuditDb.joined_addRecord hnorecord hevent hversion, hlogged]
  rw [hlogged]
  intro row' hrow'
  obtain ⟨row, hrow, rfl⟩ := List.mem_map.mp hrow'
  rw [row.record_withLog]
  obtain ⟨hr, hv, -⟩ := AuditDb.mem_joined.mp hrow
  exact lt_eventRecord (AuditDb.mem_chain.mpr ⟨hr, hv⟩)

theorem endSeq_withLog {rows : List JoinedRow} {b : AuditLog} {v n : Int} :
    (scheme p v).endSeq n (rows.map (JoinedRow.withLog id b)) = (scheme p v).endSeq n rows := by
  unfold Scheme.endSeq
  rw [List.getLast?_map, Option.map_map]
  congr 2
  funext row
  exact congrArg IntegrityRecord.sequenceNumber row.record_withLog

theorem endHash_withLog {rows : List JoinedRow} {b : AuditLog} {v : Int} {h : Option String} :
    (scheme p v).endHash h (rows.map (JoinedRow.withLog id b)) = (scheme p v).endHash h rows := by
  unfold Scheme.endHash
  rw [List.getLast?_map]
  cases rows.getLast? with
  | none => rfl
  | some row => exact congrArg (fun rec => some rec.rowHash) row.record_withLog

/-- What restoring the summary of a row leaves to be checked of its record. -/
def FitsAfter (p : Primitives) (before : List JoinedRow) (row : JoinedRow) : Prop :=
  row.record.sequenceNumber = (scheme p chainVersion).endSeq 0 before + 1 ∧
    computeRowHash p chainVersion row.record.sequenceNumber row.auditLogId row.record.prevHash
      row.record.canonicalPayloadHash = row.record.rowHash ∧
    (1 < row.record.sequenceNumber →
      row.record.prevHash = (scheme p chainVersion).endHash none before)

/-- With the summary restored the row follows when its record fits. -/
theorem follows_restored_iff (h : Carried p env pc approved dryRun db id a r)
    (hrow : row ∈ db.joined chainVersion) (hid : row.auditLogId = id) :
    (scheme p chainVersion).follows ((scheme p chainVersion).endSeq 0 before)
        ((scheme p chainVersion).endHash none before)
        (row.withLog id { a with summary := pc.restoredSummary }) = true ↔
      FitsAfter p before row := by
  subst hid
  obtain ⟨hrecord, -, -⟩ := AuditDb.mem_joined.mp hrow
  obtain rfl := Option.some.inj (hrecord.symm.trans h.record)
  have hwith : row.withLog row.auditLogId { a with summary := pc.restoredSummary } =
      { row with log := { a with summary := pc.restoredSummary } } := if_pos rfl
  have hpayload : ({ row with log := { a with summary := pc.restoredSummary } } :
      JoinedRow).payloadHash p = row.record.canonicalPayloadHash := h.hash
  rw [hwith, Scheme.follows_iff, valid_iff]
  unfold FitsAfter JoinedRow.recomputedRowHash
  rw [hpayload]
  simp only [scheme, true_and]

/-- The record at the end of the chain has its log. -/
def TailLogged (db : AuditDb) : Prop :=
  ∀ e ∈ db.chain chainVersion,
    (∀ f ∈ db.chain chainVersion, f.2.sequenceNumber ≤ e.2.sequenceNumber) →
      (db.auditLogs.find? e.1).isSome

/-- The event of a restore is linked to the chain when the record at its end has its log. -/
theorem follows_event_iff (hunique : db.UniqueSequences) (hne : db.joined chainVersion ≠ []) :
    (scheme p chainVersion).follows ((scheme p chainVersion).endSeq 0 (db.joined chainVersion))
        ((scheme p chainVersion).endHash none (db.joined chainVersion))
        ⟨env.newId, eventRecord p env pc db, restoreEvent env pc⟩ = true ↔ TailLogged db := by
  obtain ⟨rows, x, hrows⟩ : ∃ rows x, db.joined chainVersion = rows ++ [x] :=
    ⟨_, _, (List.dropLast_append_getLast hne).symm⟩
  have hx : x ∈ db.joined chainVersion := by simp [hrows]
  obtain ⟨hxrecord, hxversion, hxlog⟩ := AuditDb.mem_joined.mp hx
  have hxchain := AuditDb.mem_chain.mpr ⟨hxrecord, hxversion⟩
  have hendSeq : (scheme p chainVersion).endSeq 0 (db.joined chainVersion) =
      x.record.sequenceNumber := by
    unfold Scheme.endSeq
    rw [hrows, List.getLast?_concat]
    rfl
  have hendHash : (scheme p chainVersion).endHash none (db.joined chainVersion) =
      some x.record.rowHash := by
    unfold Scheme.endHash
    rw [hrows, List.getLast?_concat]
    rfl
  have hvalid : (scheme p chainVersion).valid
      ⟨env.newId, eventRecord p env pc db, restoreEvent env pc⟩ = true := valid_iff.mpr ⟨rfl, rfl⟩
  cases hlatest : db.latest chainVersion with
  | none =>
    rw [AuditDb.latest_eq_none hlatest] at hxchain
    cases hxchain
  | some last =>
    obtain ⟨⟨i, hlast⟩, hmax⟩ := AuditDb.latest_eq_some hlatest
    have hseq : (eventRecord p env pc db).sequenceNumber = last.sequenceNumber + 1 := by
      unfold eventRecord nextRecord
      rw [hlatest]
    have hprev : (eventRecord p env pc db).prevHash = some last.rowHash := by
      unfold eventRecord nextRecord
      rw [hlatest]
      rfl
    have hsame : ∀ e ∈ db.chain chainVersion,
        e.2.sequenceNumber = x.record.sequenceNumber → e.1 = x.auditLogId := by
      intro e he heq
      obtain ⟨hr, hv⟩ := AuditDb.mem_chain.mp he
      exact hunique _ _ _ _ hr hxrecord (hv.trans hxversion.symm) heq
    rw [Scheme.follows_iff, hendSeq, hendHash]
    show (eventRecord p env pc db).sequenceNumber = x.record.sequenceNumber + 1 ∧ _ ∧
      (1 < _ → (eventRecord p env pc db).prevHash = some x.record.rowHash) ↔ _
    rw [hseq, hprev]
    constructor
    · rintro ⟨hnext, -, -⟩ e he hhighest
      -- the highest number is that of the last row joined
      have hle := hhighest _ hlast
      have hge := hmax e.1 e.2 he
      rw [hsame e he (by show _ = _; simp only at hle; omega), hxlog]
      rfl
    · intro htail
      obtain ⟨log, hlog⟩ := Option.isSome_iff_exists.mp (htail _ hlast fun f hf => hmax f.1 f.2 hf)
      obtain ⟨hr, hv⟩ := AuditDb.mem_chain.mp hlast
      have hjoined : (⟨i, last, log⟩ : JoinedRow) ∈ rows ++ [x] := by
        rw [← hrows]
        exact AuditDb.mem_joined.mpr ⟨hr, hv, hlog⟩
      have hle := hmax _ _ hxchain
      -- nothing is joined after the record with the highest number
      have hlastrow : (⟨i, last, log⟩ : JoinedRow) = x := by
        rcases List.mem_append.mp hjoined with hin | hin
        · have hstrict := db.strict_joined (v := chainVersion) hunique
          rw [hrows] at hstrict
          have hlt := (List.pairwise_append.mp hstrict).2.2 _ hin x (by simp)
          simp only at hlt
          omega
        · exact List.mem_singleton.mp hin
      rw [← hlastrow]
      exact ⟨rfl, hvalid, fun _ => rfl⟩

/-- **The step of the claim**: the restored chain is linked when the restored row fits, no other
row breaks it, and the record at its end has its log. -/
theorem linked_restoredDb_iff (h : Carried p env pc approved dryRun db id a r)
    (hunique : db.UniqueSequences) (hfresh : db.records.find? env.newId = none)
    (hne : db.joined chainVersion ≠ [])
    (hothers : ∀ before row after, db.joined chainVersion = before ++ row :: after →
      row.auditLogId ≠ id →
        (scheme p chainVersion).follows ((scheme p chainVersion).endSeq 0 before)
          ((scheme p chainVersion).endHash none before) row = true) :
    (scheme p chainVersion).Linked 0 none ((restoredDb p env pc id a db).joined chainVersion) ↔
      (∀ before row after, db.joined chainVersion = before ++ row :: after →
        row.auditLogId = id → FitsAfter p before row) ∧ TailLogged db := by
  rw [joined_restoredDb h hfresh, Scheme.linked_append, endSeq_withLog, endHash_withLog,
    Scheme.linked_cons, follows_event_iff hunique hne]
  refine and_congr ?_ (and_iff_left Scheme.linked_nil)
  rw [Scheme.linked_iff_follows]
  constructor
  · intro hall before row after hrows hid
    have hfollows := hall (before.map _) (row.withLog id _) (after.map _)
      (by rw [hrows, List.map_append, List.map_cons])
    rw [endSeq_withLog, endHash_withLog] at hfollows
    exact (follows_restored_iff h (by simp [hrows]) hid).mp hfollows
  · intro hfits before' row' after' hmap
    obtain ⟨before, rest, hrows, rfl, hrest⟩ := List.map_eq_append_iff.mp hmap
    obtain ⟨row, after, rfl, rfl, rfl⟩ := List.map_eq_cons_iff.mp hrest
    rw [endSeq_withLog, endHash_withLog]
    by_cases hid : row.auditLogId = id
    · exact (follows_restored_iff h (by simp [hrows]) hid).mpr (hfits before row after hrows hid)
    · unfold JoinedRow.withLog
      rw [if_neg hid]
      exact hothers before row after hrows hid

end Chain

/-! ## Exact, atomic, and mending -/

/-- The record of the log is the one where the walk over the chain stops, and the only one. -/
def OnlyFailing (p : Primitives) (db : AuditDb) (id : Uuid) : Prop :=
  (∃ row ∈ db.joined chainVersion, row.auditLogId = id) ∧
    ∀ before row after, db.joined chainVersion = before ++ row :: after →
      ((scheme p chainVersion).follows ((scheme p chainVersion).endSeq 0 before)
          ((scheme p chainVersion).endHash none before) row = false ↔ row.auditLogId = id)

/-- Apart from the payload hash of the log nothing of the chain is wrong: the record of the log
fits, the record at the end of the chain has its log, and no log lacks a record. -/
structure Mendable (p : Primitives) (db : AuditDb) (id : Uuid) : Prop where
  fits : ∀ before row after, db.joined chainVersion = before ++ row :: after →
    row.auditLogId = id → FitsAfter p before row
  tail : TailLogged db
  covered : db.auditLogs.rows.length ≤ (db.chain chainVersion).length

/-- A restore that completes changes one summary exactly, and the chain passes when the record of
that log was the only one failing; any other restore changes nothing. -/
structure ExactAndAtomic (p : Primitives) (k : AuditHmacKeyring) (allow : Bool)
    (pc : RestorePrecheck) (db : AuditDb) (out : Option RestoreReport × AuditDb) : Prop where
  completed : Completed out → ∃ id, pc.affectedAuditLogId = some id ∧ ExactRestore id db out.2 ∧
    (OnlyFailing p db id → (verifyChain p k .chainOnly allow out.2 chainVersion).status = .passed)
  unchanged : ¬ Completed out → out.2 = db

/-- **The chain passes after a restore of its only failing record exactly when nothing but the
payload hash was wrong.** -/
theorem passes_restoredDb_iff {k : AuditHmacKeyring} {allow : Bool}
    (h : Carried p env pc approved dryRun db id a r) (hunique : db.UniqueSequences)
    (hfresh : db.records.find? env.newId = none) (honly : OnlyFailing p db id) :
    (verifyChain p k .chainOnly allow (restoredDb p env pc id a db) chainVersion).status = .passed ↔
      Mendable p db id := by
  obtain ⟨⟨row₀, hrow₀, -⟩, hfails⟩ := honly
  have hne : db.joined chainVersion ≠ [] := List.ne_nil_of_mem hrow₀
  have hlinked := linked_restoredDb_iff h hunique hfresh hne fun before row after hrows hid => by
    have hfollows := mt (hfails before row after hrows).mp hid
    simpa using hfollows
  -- one log and one record more
  have hlogs : (restoredDb p env pc id a db).auditLogs.rows.length =
      db.auditLogs.rows.length + 1 := by
    have hne : env.newId ≠ id := by
      intro heq
      have hnone := h.new
      rw [heq, h.log] at hnone
      cases hnone
    have hnew : (restoredLogs pc id a db).auditLogs.find? env.newId = none :=
      (Table.find?_insert_of_ne _ _ hne).trans h.new
    show ((restoredLogs pc id a db).auditLogs.insert env.newId _).rows.length = _
    rw [Table.length_rows_insert hnew]
    exact congrArg (· + 1) (Table.length_rows_overwrite h.log _)
  have hrecords : ((restoredDb p env pc id a db).chain chainVersion).length =
      (db.chain chainVersion).length + 1 := by
    have hversion : (eventRecord p env pc db).chainVersion = chainVersion := rfl
    unfold AuditDb.chain
    show ((db.records.insert env.newId (eventRecord p env pc db)).rows.filter _).length = _
    rw [Table.rows_insert hfresh, List.filter_cons, if_pos (by simp [hversion]), List.length_cons]
  rw [verifyChain_passed_iff, clean_chainOnly_iff, hlinked, hlogs, hrecords]
  constructor
  · rintro ⟨⟨hfits, htail⟩, hle, -⟩
    exact ⟨hfits, htail, by omega⟩
  · rintro ⟨hfits, htail, hle⟩
    exact ⟨⟨hfits, htail⟩, by omega, fun hmode => by cases hmode⟩

/-- **A restore is exact and atomic, and mends the chain, exactly when the restore is not carried
out, or the record is not the only one failing, or nothing but its payload hash is wrong.** -/
theorem restore_exact_iff (p : Primitives) (k : AuditHmacKeyring) (allow : Bool)
    (printable : Char → Bool) (report : ForensicReport) (auditLogId : Option Uuid)
    (sequenceNumber : Option Int) (checked : AuditDb) (env : RestoreEnv) (approved dryRun : Bool)
    {db : AuditDb} (hunique : db.UniqueSequences) (hfresh : db.records.find? env.newId = none) :
    ExactAndAtomic p k allow
        (precheck p printable report auditLogId sequenceNumber chainVersion checked) db
        (apply p env (precheck p printable report auditLogId sequenceNumber chainVersion checked)
          approved dryRun db) ↔
      ∀ id a r, Carried p env
          (precheck p printable report auditLogId sequenceNumber chainVersion checked)
          approved dryRun db id a r →
        OnlyFailing p db id → Mendable p db id := by
  generalize hpc : precheck p printable report auditLogId sequenceNumber chainVersion checked = pc
  constructor
  · intro hexact id a r hcarried honly
    obtain ⟨id', hid', -, hpasses⟩ :=
      hexact.completed ((completed_iff hfresh).mpr ⟨id, a, r, hcarried⟩)
    obtain rfl := Option.some.inj (hid'.symm.trans hcarried.affected)
    have hpassed := hpasses honly
    rw [apply_of_carried hcarried hfresh] at hpassed
    exact (passes_restoredDb_iff hcarried hunique hfresh honly).mp hpassed
  · intro hmends
    refine ⟨fun hcompleted => ?_, apply_of_not_completed⟩
    obtain ⟨id, a, r, hcarried⟩ := (completed_iff hfresh).mp hcompleted
    obtain ⟨marker, hmarker, text, hrestored, hcurrent⟩ := precheck_ok (hpc ▸ hcarried.ok)
    rw [hpc] at hrestored hcurrent
    rw [apply_of_carried hcarried hfresh]
    exact ⟨id, hcarried.affected,
      exactRestore_restoredDb hcarried hfresh hmarker hrestored hcurrent,
      fun honly => (passes_restoredDb_iff hcarried hunique hfresh honly).mpr
        (hmends id a r hcarried honly)⟩

/-! ## A record that is wrong itself -/

def markedLog : AuditLog :=
  { smokeEvent.log sampleTime with summary := some "ok [TAMPER-SIMULATION]" }

/-- The record of the log before it was marked, with this row hash. -/
def smokeRecord (rowHash : String) : IntegrityRecord :=
  { nextRecord openDigests .empty ((smokeEvent.log sampleTime).row ⟨1⟩) none .active with
    rowHash := rowHash }

/-- A chain of one unsigned record, whose log was marked after it was hashed. -/
def markedDb (rowHash : String) : AuditDb :=
  { auditLogs := Table.empty.insert ⟨1⟩ markedLog
    records := Table.empty.insert ⟨1⟩ (smokeRecord rowHash) }

theorem markedDb_joined (rowHash : String) :
    (markedDb rowHash).joined chainVersion = [⟨⟨1⟩, smokeRecord rowHash, markedLog⟩] := rfl

/-- What the scan of such a chain is reported as. -/
def smokeReport : ForensicReport :=
  { rootCauseClassification := some "test_tamper_not_restored"
    repairAllowed := true
    repairRisk := some "low"
    failedRecords := [some ⟨1⟩]
    failedRecordsCount := some 1
    firstFailedSequence := some 1 }

def quietEnv : RestoreEnv :=
  { raises := fun _ => false, now := sampleTime, newId := ⟨2⟩, jsonb := Json.dumps
    keyring := .empty }

/-- The precheck of the report on the chain. -/
def smokePrecheck (rowHash : String) : RestorePrecheck :=
  precheck openDigests (fun _ => true) smokeReport none none chainVersion (markedDb rowHash)

theorem markedDb_unique (rowHash : String) : (markedDb rowHash).UniqueSequences := by
  have hkey : ∀ id r, (markedDb rowHash).records.find? id = some r → id = ⟨1⟩ := by
    intro id r hr
    unfold markedDb at hr
    rw [Table.find?_insert, Table.find?_empty] at hr
    split at hr
    · assumption
    · cases hr
  intro id id' r r' hr hr' _ _
  rw [hkey id r hr, hkey id' r' hr']

/-- Without its marker the log hashes to its record. -/
theorem payloadHashWith_smoke (rowHash : String) :
    payloadHashWith openDigests ⟨1⟩ markedLog (some "ok") =
      (smokeRecord rowHash).canonicalPayloadHash := rfl

theorem smokePrecheck_passes (rowHash : String) :
    (smokePrecheck rowHash).ok = true ∧
      (smokePrecheck rowHash).affectedAuditLogId = some ⟨1⟩ ∧
      (smokePrecheck rowHash).restoredSummary = some "ok" ∧
      (smokePrecheck rowHash).currentSummary = some "ok [TAMPER-SIMULATION]" := by
  have hproduction : extractProductionExecuted openDigests markedLog.artifactRefs =
      some false := by decide +kernel
  have hmarker : stripKnownMarker markedLog.summary = some "ok" := by decide +kernel
  have hresolved : resolveAffected (fun _ => true) smokeReport none none = .ok (1, ⟨1⟩) := by
    decide +kernel
  have hrow : ((markedDb rowHash).joined chainVersion).find?
      (fun row => row.record.sequenceNumber = 1) =
        some ⟨⟨1⟩, smokeRecord rowHash, markedLog⟩ := by
    rw [markedDb_joined]
    rfl
  have hsigned : (smokeRecord rowHash).signatureStatus ≠ .signed := by
    intro h
    cases h
  rw [smokePrecheck, precheck_resolved hresolved]
  exact precheckDb_of_gates hrow rfl hproduction hsigned rfl rfl hmarker
    (payloadHashWith_smoke rowHash)

/-- The report is right: that record fails, and no other. -/
theorem markedDb_failing (rowHash : String) :
    OnlyFailing openDigests (markedDb rowHash) ⟨1⟩ := by
  have hpayload : (⟨⟨1⟩, smokeRecord rowHash, markedLog⟩ : JoinedRow).payloadHash openDigests ≠
      (smokeRecord rowHash).canonicalPayloadHash := by
    intro hhash
    -- the log no longer has the content that was hashed
    have hcontent : SameContent openDigests markedLog (smokeEvent.log sampleTime) :=
      canonicalJson_row_eq_iff.mp (openDigests_injective hhash)
    rcases hcontent.summary with hsummary | ⟨hempty, -⟩
    · exact (by decide : "ok [TAMPER-SIMULATION]" ≠ "ok") (Option.some.inj hsummary)
    · exact (by decide : "ok [TAMPER-SIMULATION]" ≠ "") hempty
  rw [OnlyFailing, markedDb_joined]
  refine ⟨⟨_, List.mem_singleton_self _, rfl⟩, fun before row after hsplit => ?_⟩
  have hrow : row ∈ [⟨⟨1⟩, smokeRecord rowHash, markedLog⟩] := by simp [hsplit]
  rw [List.mem_singleton.mp hrow]
  refine iff_of_true ?_ rfl
  by_contra hfollows
  have hvalid := (Scheme.follows_iff.mp (by simpa using hfollows)).2.1
  exact hpayload (valid_iff.mp hvalid).1

theorem sha256_ne_forged (text : String) : openDigests.sha256 text ≠ "forged" := by
  intro h
  have hhead : ("sha256:" ++ text).toList.head? = some 'f' := congrArg (fun s => s.toList.head?) h
  rw [String.toList_append] at hhead
  cases hhead

/-- A restore of the record whose own hash was forged is carried out. -/
theorem forged_carried : ∃ a r, Carried openDigests quietEnv (smokePrecheck "forged") true false
    (markedDb "forged") ⟨1⟩ a r := by
  obtain ⟨hok, haffected, hrestored, hcurrent⟩ := smokePrecheck_passes "forged"
  refine ⟨_, _, hok, rfl, rfl, fun _ => rfl, haffected, rfl, hcurrent.symm, ?_, rfl, ?_, rfl⟩
  · rw [hcurrent]
    exact Option.some_ne_none _
  · rw [hrestored]
    rfl

theorem forged_not_mended :
    ¬ ExactAndAtomic openDigests .empty false (smokePrecheck "forged") (markedDb "forged")
      (apply openDigests quietEnv (smokePrecheck "forged") true false (markedDb "forged")) := by
  intro hexact
  have hunique := markedDb_unique "forged"
  have hfresh : (markedDb "forged").records.find? quietEnv.newId = none := rfl
  obtain ⟨a, r, hcarried⟩ := forged_carried
  obtain ⟨id, hid, -, hpasses⟩ := hexact.completed ((completed_iff hfresh).mpr ⟨_, a, r, hcarried⟩)
  obtain rfl := Option.some.inj (hid.symm.trans hcarried.affected)
  have honly := markedDb_failing "forged"
  have hpassed := hpasses honly
  rw [apply_of_carried hcarried hfresh] at hpassed
  have hmendable := (passes_restoredDb_iff hcarried hunique hfresh honly).mp hpassed
  -- the row hash is still not that of the record
  have hhash := (hmendable.fits [] _ [] rfl rfl).2.1
  exact sha256_ne_forged _ hhash

theorem restore_exact_iff_forged :
    ExactAndAtomic openDigests .empty false (smokePrecheck "forged") (markedDb "forged")
        (apply openDigests quietEnv (smokePrecheck "forged") true false (markedDb "forged")) ↔
      ∀ id a r, Carried openDigests quietEnv (smokePrecheck "forged") true false (markedDb "forged")
          id a r →
        OnlyFailing openDigests (markedDb "forged") id →
          Mendable openDigests (markedDb "forged") id :=
  restore_exact_iff openDigests .empty false (fun _ => true) smokeReport none none
    (markedDb "forged") quietEnv true false (markedDb_unique "forged") rfl

end AiAgentsSwd.Audit.AuditLogRestorer
