import AiAgentsSwd.Migrations.Models
import Mathlib.Data.List.Sort
import Mathlib.Data.List.Dedup

/-!
# Migrations.Runner — applying a chain of migrations

`apply_chain_with_ledger` and `apply_chain_locked`, statement by statement: the wait for the
advisory lock, the body, and the cleanup that follows it whether or not it failed.
-/

namespace AiAgentsSwd.Migrations

open Faults Faults.Prog

variable (c : Call)

/-! ## Statements -/

/-- A statement. In a failed transaction block the server refuses every one. -/
def statement {α : Type} (p : Point) (effect : State → α × State) (spoil : State → State) :
    Program α := do
  let s ← get
  if s.session.aborted then
    raise p ⟨.inFailedSqlTransactionError, "current transaction is aborted, commands ignored " ++
      "until end of transaction block"⟩
  else
    step c.strikes p effect spoil

/-- A statement that reads. -/
def query {α : Type} (p : Point) (answer : State → α) : Program α :=
  statement c p (fun s => (answer s, s)) id

/-- A statement that writes. -/
def execute (p : Point) (effect : State → State) : Program Unit :=
  statement c p (fun s => ((), effect s)) id

/-- What is awaited, or read from the disk, without a statement. -/
def await (p : Point) : Program Unit := step c.strikes p (fun s => ((), s)) id

/-! ## The lock -/

/-- `_validate_timeout_config`. -/
def validateTimeoutConfig (statementTimeoutMs : Nat) : Program Unit :=
  if ¬(1 ≤ c.lockWaitTimeoutSeconds ∧ c.lockWaitTimeoutSeconds ≤ 300) then
    raise .config ⟨.migrationConfigError, "lock_wait_timeout_seconds=" ++
      c.showSeconds c.lockWaitTimeoutSeconds ++ " outside [1.0, 300.0]"⟩
  else if ¬(1 / 20 ≤ c.pollIntervalSeconds ∧ c.pollIntervalSeconds ≤ 5) then
    raise .config ⟨.migrationConfigError, "poll_interval_seconds=" ++
      c.showSeconds c.pollIntervalSeconds ++ " outside [0.05, 5.0]"⟩
  else if c.lockWaitTimeoutSeconds < c.pollIntervalSeconds then
    raise .config ⟨.migrationConfigError,
      "poll_interval_seconds must not exceed lock_wait_timeout_seconds"⟩
  else if ¬(1000 ≤ statementTimeoutMs ∧ statementTimeoutMs ≤ 600000) then
    raise .config ⟨.migrationConfigError, "statement_timeout_ms=" ++ toString statementTimeoutMs ++
      " outside [1000, 600000]"⟩
  else
    pure ()

/-- `SELECT pg_try_advisory_lock(…)`. -/
def tryLock (k : Nat) : Program Bool :=
  statement c (.probe k)
    (fun s => (c.free k, { s with session.holds := s.session.holds || c.free k })) id

/-- `_acquire_lock_bounded`, with `left` more tries before the deadline. -/
def acquireLockBounded : Nat → Nat → Program Bool
  | 0, k => tryLock c k
  | left + 1, k => do
    let got ← tryLock c k
    if got then
      pure true
    else do
      await c (.sleep k)
      acquireLockBounded left (k + 1)

/-- All that comes before the body: nothing of it is cleaned up. -/
def prelude (statementTimeoutMs : Nat) : Program Unit := do
  validateTimeoutConfig c statementTimeoutMs
  let got ← acquireLockBounded c c.polls 0
  if got then
    pure ()
  else
    raise .lockTimeout ⟨.migrationLockTimeoutError,
      "could not acquire the migration-chain advisory lock within " ++
        c.showSeconds c.lockWaitTimeoutSeconds ++ "s"⟩

/-! ## Timeouts -/

/-- `SHOW`, for one setting. -/
def showSetting (k : Setting) : Program (Setting × Nat) :=
  query c (.showSetting k) fun s => (k, s.session.timeouts k)

/-- `SET setting = value`. -/
def setTimeout (p : Point) (k : Setting) (value : Nat) : Program Unit :=
  execute c p fun s => { s with session.timeouts := Function.update s.session.timeouts k value }

/-- `_set_bounded_statement_timeouts`: what the settings were comes back last. -/
def setBoundedStatementTimeouts : Program (List (Setting × Nat)) := do
  let saved ← collect (showSetting c) settings
  forEach (fun k => setTimeout c (.setSetting k) k c.statementTimeoutMs) settings
  pure saved

/-- `_restore_timeouts`. -/
def restoreTimeouts (saved : List (Setting × Nat)) : Program Unit :=
  forEach (fun e => setTimeout c (.restore e.1) e.1 e.2) saved

/-! ## Files and manifests -/

/-- `_migration_version`: the digits before the first underscore. -/
def migrationVersion (i : Nat) (filename : String) : Program String :=
  let digits := filename.toList.takeWhile Char.isDigit
  if digits ≠ [] ∧ (filename.toList.drop digits.length).head? = some '_' then
    pure (String.ofList digits)
  else
    raise (.version i) ⟨.valueError, "cannot derive a migration version from filename: " ++
      filename⟩

/-- `_sha256_file`. -/
def sha256File (i : Nat) (filename : String) : Program String := do
  await c (.checksum i)
  match c.files filename with
  | none => raise (.checksum i) ⟨.fileNotFoundError, filename⟩
  | some text => pure (c.sha256 text)

def manifestError (text : String) : Err :=
  ⟨.migrationManifestError, "MIGRATION_MANIFEST_INVALID: " ++ text⟩

/-- `_load_manifest`. -/
def loadManifest (filename version : String) : Except Err MigrationManifest :=
  let name := version ++ ".json"
  match c.manifests version with
  | .missing => .error ⟨.migrationManifestError,
      "MIGRATION_MANIFEST_MISSING: no canonical manifest at " ++ name⟩
  | .notJson => .error (manifestError (name ++ " is not valid JSON"))
  | .invalidField => .error (manifestError (name ++ " is missing or has an invalid field"))
  | .manifest m =>
    let expectedOwned := ((migrationFingerprintTables ++ migrationCreatedTables).lookup
      filename).getD []
    if m.manifestFormatVersion ≠ manifestFormatVersion then
      .error (manifestError (name ++ " format version " ++ toString m.manifestFormatVersion ++
        " is not recognized (expected 1)"))
    else if m.migrationVersion ≠ version then
      .error (manifestError (name ++ " migration_version does not match its filename"))
    else if m.migrationFilename ≠ filename then
      .error (manifestError (name ++ " migration_filename does not match " ++ filename))
    -- as sets
    else if expectedOwned ≠ [] ∧
        ¬(m.ownedObjects ⊆ expectedOwned ∧ expectedOwned ⊆ m.ownedObjects) then
      .error (manifestError (name ++ " owned_objects does not match the runner's own catalog for "
        ++ filename))
    else
      .ok m

/-- `_validate_manifest`. -/
def validateManifest (i : Nat) (filename version checksum : String) :
    Program MigrationManifest := do
  await c (.manifest i)
  match loadManifest c filename version with
  | .error e => raise (.manifest i) e
  | .ok manifest =>
    if manifest.migrationSha256 ≠ checksum then
      raise (.manifest i) (manifestError (filename ++
        "'s on-disk checksum does not match its committed canonical manifest"))
    else if manifest.postgresMajorVersion ∉ supportedPostgresMajorVersions then
      raise (.manifest i) (manifestError ("manifest declares an unsupported PostgreSQL major " ++
        "version " ++ toString manifest.postgresMajorVersion))
    else do
      let num ← query c (.serverVersion i) fun _ => c.serverVersionNum
      if num / 10000 ≠ manifest.postgresMajorVersion then
        raise (.manifest i) (manifestError ("connected PostgreSQL major version " ++
          toString (num / 10000) ++ " does not match the manifest's " ++
          toString manifest.postgresMajorVersion))
      else
        pure manifest

/-! ## The schema -/

/-- `SELECT to_regclass(…) IS NOT NULL`, for every table of a list. -/
def tablesExist (i : Nat) (tables : List String) : Program (List Bool) :=
  collect (fun e => query c (.regclass i e.2) fun s => (s.schema e.1).isSome) tables.zipIdx

/-- What a catalogue query finds for a table. -/
def lookUp (field : TableShape → String) (table : String) (s : State) : String :=
  ((s.schema table).map field).getD ""

/-- One table of a fingerprint. -/
def tableFingerprint (place : Nat → Query → Point) (e : String × Nat) :
    Program (String × Option TableShape) := do
  let present ← query c (place e.2 .exists?) fun s => (s.schema e.1).isSome
  if present then do
    let columns ← query c (place e.2 .columns) (lookUp (·.columns) e.1)
    let constraints ← query c (place e.2 .constraints) (lookUp (·.constraints) e.1)
    let indexes ← query c (place e.2 .indexes) (lookUp (·.indexes) e.1)
    pure (e.1, some ⟨columns, constraints, indexes⟩)
  else
    pure (e.1, none)

/-- `_stable_json(schema_fingerprint(…))`: a table named twice is one key. -/
def schemaFingerprint (place : Nat → Query → Point) (tables : List String) : Program String := do
  let sorted := tables.insertionSort fun a b => a ≤ b
  let shapes ← collect (tableFingerprint c place) sorted.zipIdx
  pure (c.stableJson shapes.dedup)

/-- `apply_migration_file`: a file that fails leaves its own transaction block open. -/
def applyMigrationFile (i : Nat) (filename : String) : Program Unit :=
  match c.files filename with
  | none => raise (.applyFile i) ⟨.fileNotFoundError, filename⟩
  | some text =>
    statement c (.applyFile i) (fun s => ((), { s with schema := c.execute text s.schema }))
      fun s => { s with session.aborted := true }

/-! ## The ledger -/

/-- `_insert_applying_row`. -/
def insertApplyingRow (i : Nat) (version filename checksum expectedFingerprint : String) :
    Program Nat :=
  statement c (.insertApplying i)
    (fun s => (s.ledger.length, { s with ledger := s.ledger ++
      [⟨version, filename, checksum, .applying, some expectedFingerprint, none⟩] })) id

def State.setStatus (s : State) (id : Nat) (status : Status) : State :=
  { s with ledger := s.ledger.modify id fun r => { r with status := status } }

/-- `_mark_applied` and `_mark_reconciled`. -/
def markObserved (p : Point) (id : Nat) (status : Status) (observed : String) : Program Unit :=
  execute c p fun s => { s with ledger := s.ledger.modify id fun r =>
    { r with status := status, observedFingerprint := some observed } }

/-! ## The body -/

/-- Note what the exception will carry, and raise it. -/
def fail (p : Point) (report : Report → Report) (pending : Option (Nat × Status)) (e : Err) :
    Program Unit := do
  note fun s => { s with report := report s.report, pendingLedgerUpdate := pending }
  raise p e

/-- A version that the ledger says is applied: the schema is checked again. -/
def confirmApplied (i : Nat) (filename version checksum : String) (row : Row) : Program Unit :=
  if row.migrationSha256 ≠ checksum then
    fail (.compare i)
      (fun r => { r with
        failedVersion := some version, resultCode := "checksum_mismatch",
        ledgerStatus := some row.status, diagnosticCode := some "checksum_mismatch" })
      none ⟨.migrationChecksumMismatchError, "MIGRATION_CHECKSUM_MISMATCH: " ++ filename ++
        " ledger checksum does not match the file on disk"⟩
  else do
    let manifest ← validateManifest c i filename version checksum
    let observedNow ← schemaFingerprint c (.fingerprint i) manifest.ownedObjects
    if observedNow ≠ manifest.canonicalSemanticFingerprint then
      fail (.compare i)
        (fun r => { r with
          failedVersion := some version, resultCode := "ledger_schema_mismatch",
          ledgerStatus := some row.status,
          expectedFingerprint := some manifest.canonicalSemanticFingerprint,
          observedFingerprint := some observedNow,
          diagnosticCode := some "ledger_schema_mismatch" })
        none ⟨.ledgerSchemaMismatchError, "LEDGER_SCHEMA_MISMATCH: " ++ version ++
          ": ledger status=" ++ row.status.text ++ " but the actual schema no " ++
          "longer matches the canonical manifest fingerprint (missing, altered, or wrong-shaped " ++
          "object)"⟩
    else
      pure ()

/-- An attempt that did not come to an end: it is taken over only if everything matches. -/
def reconcile (i : Nat) (filename version checksum : String) (id : Nat) (row : Row) :
    Program Unit :=
  if row.migrationFilename ≠ filename ∨ row.migrationSha256 ≠ checksum then
    fail (.compare i)
      (fun r => { r with failedVersion := some version, resultCode := "drifted" })
      (some (id, .drifted)) ⟨.schemaDriftError, version ++
        ": ledger 'applying' row does not match this filename/checksum"⟩
  else match row.expectedFingerprint with
  | none =>
    fail (.compare i)
      (fun r => { r with
        failedVersion := some version, resultCode := "expected_fingerprint_missing",
        ledgerStatus := some row.status,
        diagnosticCode := some "expected_fingerprint_missing" })
      (some (id, .drifted)) ⟨.expectedFingerprintMissingError, version ++
        ": ledger 'applying' row has no recorded expected fingerprint; cannot safely reconcile"⟩
  | some expected => do
    let manifest ← validateManifest c i filename version checksum
    if expected ≠ manifest.canonicalSemanticFingerprint then
      fail (.compare i)
        (fun r => { r with
          failedVersion := some version, resultCode := "drifted",
          ledgerStatus := some row.status,
          expectedFingerprint := some manifest.canonicalSemanticFingerprint })
        (some (id, .drifted)) ⟨.schemaDriftError, version ++
          ": ledger's recorded expected fingerprint no longer matches the canonical manifest"⟩
    else do
      let complete ← tablesExist c i (createdTables filename)
      if ¬complete.all fun b => b then
        fail (.compare i)
          (fun r => { r with failedVersion := some version, resultCode := "drifted" })
          (some (id, .drifted)) ⟨.schemaDriftError, version ++
            ": ledger shows 'applying' but the target schema is incomplete"⟩
      else do
        let observed ← schemaFingerprint c (.fingerprint i) manifest.ownedObjects
        if observed ≠ expected then
          fail (.compare i)
            (fun r => { r with
              failedVersion := some version, resultCode := "drifted",
              ledgerStatus := some row.status, expectedFingerprint := some expected,
              observedFingerprint := some observed })
            (some (id, .drifted)) ⟨.schemaDriftError, version ++
              ": observed schema does not match the recorded expected fingerprint"⟩
        else do
          markObserved c (.markReconciled i) id .reconciledAfterAmbiguousCommit observed
          note fun s => { s with reconciled := s.reconciled ++ [version] }

/-- A version without a row, or whose last attempt failed. -/
def applyNew (i : Nat) (filename version checksum : String) : Program Unit := do
  let present ← tablesExist c i (createdTables filename)
  if present.any fun b => b then
    fail (.compare i)
      (fun r => { r with failedVersion := some version, resultCode := "untracked_schema" })
      none ⟨.untrackedSchemaError, "UNTRACKED_SCHEMA: " ++ filename ++ "'s target table(s) " ++
        "already exist with no ledger record; refusing to auto-adopt -- requires a separate, " ++
        "explicit adoption procedure"⟩
  else do
    let manifest ← validateManifest c i filename version checksum
    let expected := manifest.canonicalSemanticFingerprint
    let id ← insertApplyingRow c i version filename checksum expected
    onFailure (applyMigrationFile c i filename) fun s => { s with
      report.failedVersion := some version
      report.resultCode := "failed"
      pendingLedgerUpdate := some (id, .failed) }
    let observed ← schemaFingerprint c (.observe i) manifest.ownedObjects
    if observed ≠ expected then
      fail (.verify i)
        (fun r => { r with
          failedVersion := some version, resultCode := "fingerprint_mismatch",
          expectedFingerprint := some expected, observedFingerprint := some observed,
          diagnosticCode := some "fingerprint_mismatch" })
        (some (id, .drifted)) ⟨.schemaDriftError, version ++
          ": observed schema after apply does not match the canonical manifest fingerprint"⟩
    else do
      markObserved c (.markApplied i) id .applied observed
      note fun s => { s with applied := s.applied ++ [version] }

/-- One file of the chain. -/
def applyOne (e : String × Nat) : Program Unit := do
  let version ← migrationVersion e.2 e.1
  let checksum ← sha256File c e.2 e.1
  let existing ← query c (.readLedger e.2) fun s => newest s.ledger version
  match existing with
  | none => applyNew c e.2 e.1 version checksum
  | some (id, row) =>
    match row.status with
    | .applied => confirmApplied c e.2 e.1 version checksum row
    | .reconciledAfterAmbiguousCommit => confirmApplied c e.2 e.1 version checksum row
    | .applying => reconcile c e.2 e.1 version checksum id row
    | .failed => applyNew c e.2 e.1 version checksum
    | .drifted => applyNew c e.2 e.1 version checksum

/-- The body of `apply_chain_with_ledger`. -/
def ledgerBody : Program Unit := do
  execute c .bootstrap fun s => s
  let saved ← setBoundedStatementTimeouts c
  note fun s => { s with savedTimeouts := some saved }
  forEach (applyOne c) c.filenames.zipIdx

/-- The body of `apply_chain_locked`. -/
def lockedBody : Program Unit :=
  forEach (fun e => applyMigrationFile c e.2 e.1) c.filenames.zipIdx

/-! ## Cleanup -/

/-- `ROLLBACK` ends a failed transaction block. -/
def rollback : Program Unit :=
  step c.strikes .rollback (fun s => ((), { s with session.aborted := false })) id

/-- `_mark_failed` and `_mark_drifted`. -/
def markPending (id : Nat) (status : Status) : Program Unit :=
  execute c .mark fun s => s.setStatus id status

/-- After a failure: `ROLLBACK`, and then the row that was noted. -/
def undo (pending : Option (Nat × Status)) : Program (List (Failure Point Err)) :=
  next (safely (rollback c)) (match pending with
    | none => pure []
    | some (id, status) => safely (markPending c id status))

def restoreSaved (saved : Option (List (Setting × Nat))) :
    Program (List (Failure Point Err)) :=
  match saved with
  | none => pure []
  | some saved => safely (restoreTimeouts c saved)

/-- `SELECT pg_advisory_unlock(…)`. -/
def unlock : Program (List (Failure Point Err)) :=
  safely (execute c .unlock fun s => { s with session.holds := false })

/-- The connection is aborted when closing it fails, so it is gone either way. -/
def close : Program Unit := do
  let _ ← safely (await c .close)
  note fun s => { s with session.closed := true }

/-- The cleanup, which reports what of it failed. A step that ran into its time limit goes on by
itself, but then the connection is closed. -/
def cleanup (failed : Bool) : Program (List (Failure Point Err)) := do
  let s ← get
  let errors ← both (if failed then undo c s.pendingLedgerUpdate else pure [])
    (both (restoreSaved c s.savedTimeouts) (unlock c))
  if errors.isEmpty then
    pure errors
  else do
    close c
    pure errors

/-! ## The calls -/

structure MigrationRunResult where
  currentVersion : Option String
  targetVersion : Option String
  appliedVersions : List String
  reconciledVersions : List String
  resultCode : String

/-- What a call leaves. -/
structure Outcome where
  /-- The exception that propagates. -/
  raised : Option (Failure Point Err)
  /-- Its attribute `ra1b_connection_reusable`, if it has one. -/
  connectionReusable : Option Bool
  /-- Its attribute `ra1b_cleanup_errors`. -/
  cleanupErrors : List (Failure Point Err)
  final : Run State Point Err

/-- The errors a cleanup reports. -/
def reported : Except (Failure Point Err) (List (Failure Point Err)) → List (Failure Point Err)
  | .ok errors => errors
  | .error f => [f]

/-- `try: body … finally: cleanup`, after the lock was taken. -/
def locked (statementTimeoutMs : Nat) (body : Program Unit) : Outcome :=
  match prelude c statementTimeoutMs c.start with
  | (.error f, r) => ⟨some f, none, [], r⟩
  | (.ok _, r) =>
    match body r with
    | (.ok _, r) =>
      let cleaned := cleanup c false r
      ⟨none, none, reported cleaned.1, cleaned.2⟩
    | (.error f, r) =>
      let cleaned := cleanup c true r
      ⟨some f, some (reported cleaned.1).isEmpty, reported cleaned.1, cleaned.2⟩

/-- The version of the last file, `None` when there is none or it cannot be derived. -/
def targetVersion (filenames : List String) : Option String :=
  filenames.getLast?.map fun f => String.ofList (f.toList.takeWhile Char.isDigit)

/-- `apply_chain_with_ledger`. -/
def applyChainWithLedger : Outcome := locked c c.statementTimeoutMs (ledgerBody c)

/-- What `apply_chain_with_ledger` returns when it does not raise. -/
def Outcome.result (o : Outcome) : MigrationRunResult where
  currentVersion := match o.final.now.applied.getLast? with
    | some v => some v
    | none => o.final.now.reconciled.getLast?
  targetVersion := targetVersion c.filenames
  appliedVersions := o.final.now.applied
  reconciledVersions := o.final.now.reconciled
  resultCode := o.final.now.report.resultCode

def defaultStatementTimeoutMs : Nat := 30000

/-- `apply_chain_locked`: no ledger, and the timeouts stay as they are. -/
def applyChainLocked : Outcome := locked c defaultStatementTimeoutMs (lockedBody c)

end AiAgentsSwd.Migrations
