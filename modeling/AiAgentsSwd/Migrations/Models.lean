import AiAgentsSwd.Faults.Program
import Mathlib.Data.Rat.Defs
import Mathlib.Algebra.Order.Ring.Rat

/-!
# Migrations.Models — the migration runner's data

The session a migrator works on, the ledger of its attempts, the tables of the schema, the
canonical manifests, and the points of a run: one for every statement sent and every file read.
A missing ledger table is the empty ledger, the attempt id of a row is its place in the ledger,
and the rows stand in the order of `started_at`.
-/

namespace AiAgentsSwd.Migrations

open Faults

/-! ## The database -/

/-- The settings a run bounds, in the order it saves them. -/
inductive Setting
  | statementTimeout
  | lockTimeout
  | idleInTransactionSessionTimeout
  deriving DecidableEq

def settings : List Setting := [.statementTimeout, .lockTimeout, .idleInTransactionSessionTimeout]

/-- In milliseconds. -/
abbrev Timeouts := Setting → Nat

/-- `chk_psm_status`. -/
inductive Status
  | applying
  | applied
  | failed
  | drifted
  | reconciledAfterAmbiguousCommit
  deriving DecidableEq

/-- The value of the column. -/
def Status.text : Status → String
  | .applying => "applying"
  | .applied => "applied"
  | .failed => "failed"
  | .drifted => "drifted"
  | .reconciledAfterAmbiguousCommit => "reconciled_after_ambiguous_commit"

/-- A row of `platform_schema_migrations`. -/
structure Row where
  migrationVersion : String
  migrationFilename : String
  migrationSha256 : String
  status : Status
  expectedFingerprint : Option String
  observedFingerprint : Option String
  deriving DecidableEq

/-- The attempts, oldest first. -/
abbrev Ledger := List Row

/-- The last attempt for a version, with its id. -/
def newest (ledger : Ledger) (version : String) : Option (Nat × Row) :=
  ((ledger.zipIdx.filter fun e => e.1.migrationVersion = version).getLast?).map fun e =>
    (e.2, e.1)

/-- What the catalogue queries return for one table. -/
structure TableShape where
  columns : String
  constraints : String
  indexes : String
  deriving DecidableEq

/-- The tables of the schema `public`. -/
abbrev Schema := String → Option TableShape

/-- A database session. -/
structure Session where
  /-- The advisory lock of the migration chain. -/
  holds : Bool
  /-- A transaction block that failed and was not rolled back. -/
  aborted : Bool
  closed : Bool
  timeouts : Timeouts

/-! ## The catalogue and the manifests -/

def migrationCreatedTables : List (String × List String) :=
  [("031_clarification_lifecycle_outbox_foundation.sql", ["clarification_lifecycle_outbox"]),
   ("032_be3_resume_replay_authorization.sql", ["resume_replay_authorizations"]),
   ("033_be3_resume_requests.sql", ["resume_requests"]),
   ("034_be3_replay_requests.sql", ["replay_requests"]),
   ("035_be3_production_action_approvals.sql", ["production_action_approvals"])]

/-- With the tables that a migration only alters. -/
def migrationFingerprintTables : List (String × List String) :=
  ("031_clarification_lifecycle_outbox_foundation.sql",
    ["clarification_lifecycle_outbox", "operator_clarification_requests"]) ::
  migrationCreatedTables.filter fun e =>
    e.1 ≠ "031_clarification_lifecycle_outbox_foundation.sql"

def createdTables (filename : String) : List String :=
  (migrationCreatedTables.lookup filename).getD []

structure MigrationManifest where
  migrationVersion : String
  migrationFilename : String
  migrationSha256 : String
  postgresMajorVersion : Nat
  ownedObjects : List String
  canonicalSemanticFingerprint : String
  manifestFormatVersion : Nat
  deriving DecidableEq

/-- What is found where the manifest of a version should be. -/
inductive ManifestFile
  | missing
  | notJson
  | invalidField
  | manifest (m : MigrationManifest)

def manifestFormatVersion : Nat := 1
def supportedPostgresMajorVersions : List Nat := [16]

/-! ## Errors -/

inductive ErrorClass
  | migrationConfigError
  | migrationLockTimeoutError
  | migrationChecksumMismatchError
  | untrackedSchemaError
  | schemaDriftError
  | migrationManifestError
  | ledgerSchemaMismatchError
  | expectedFingerprintMissingError
  | valueError
  | fileNotFoundError
  | inFailedSqlTransactionError
  /-- A cancellation, a timeout, a lost connection, an error of the server or of a file. -/
  | outside
  deriving DecidableEq

structure Err where
  cls : ErrorClass
  text : String
  deriving DecidableEq

/-! ## The points of a run -/

/-- The queries of a fingerprint for one table. -/
inductive Query
  | exists?
  | columns
  | constraints
  | indexes
  deriving DecidableEq

/-- Where a run can fail. Files and tables are named by their place in the chain and in the
migration's own list. -/
inductive Point
  /-- `_validate_timeout_config`. -/
  | config
  | probe (k : Nat)
  | sleep (k : Nat)
  /-- The wait for the lock is over. -/
  | lockTimeout
  | bootstrap
  | showSetting (k : Setting)
  | setSetting (k : Setting)
  | version (i : Nat)
  | checksum (i : Nat)
  | readLedger (i : Nat)
  | manifest (i : Nat)
  | serverVersion (i : Nat)
  | regclass (i j : Nat)
  | fingerprint (i j : Nat) (q : Query)
  /-- The ledger, the manifest and the schema are compared. -/
  | compare (i : Nat)
  | markReconciled (i : Nat)
  | insertApplying (i : Nat)
  | applyFile (i : Nat)
  /-- The fingerprint after the file was applied. -/
  | observe (i j : Nat) (q : Query)
  /-- It is compared with the manifest's. -/
  | verify (i : Nat)
  | markApplied (i : Nat)
  | rollback
  | mark
  | restore (k : Setting)
  | unlock
  | close
  deriving DecidableEq

namespace Point

/-- A point of the cleanup. -/
def isCleanup : Point → Bool
  | rollback => true
  | mark => true
  | restore _ => true
  | unlock => true
  | close => true
  | _ => false

/-- A point before the lock is held. -/
def isPrelude : Point → Bool
  | config => true
  | probe _ => true
  | sleep _ => true
  | lockTimeout => true
  | _ => false

end Point

/-! ## The state of a run -/

/-- The attributes a failed run sets on its exception, besides those of the cleanup. -/
structure Report where
  resultCode : String
  failedVersion : Option String
  ledgerStatus : Option Status
  expectedFingerprint : Option String
  observedFingerprint : Option String
  diagnosticCode : Option String
  deriving DecidableEq

/-- The database, as the run sees it, and the run's own variables. -/
structure State where
  session : Session
  ledger : Ledger
  schema : Schema
  savedTimeouts : Option (List (Setting × Nat))
  pendingLedgerUpdate : Option (Nat × Status)
  applied : List String
  reconciled : List String
  report : Report

abbrev Program (α : Type) := Prog State Point Err α

/-- A call, with the database it finds and all that may happen to it. -/
structure Call where
  filenames : List String
  lockWaitTimeoutSeconds : Rat
  pollIntervalSeconds : Rat
  statementTimeoutMs : Nat
  /-- How a number of seconds is written out. -/
  showSeconds : Rat → String
  /-- How often the deadline lets the lock be tried again. -/
  polls : Nat
  /-- Nobody else holds the lock at the `k`-th try. -/
  free : Nat → Bool
  strikes : Strikes Point Err
  /-- The migration files. -/
  files : String → Option String
  sha256 : String → String
  /-- What a file's own transaction does to the schema. -/
  execute : String → Schema → Schema
  manifests : String → ManifestFile
  stableJson : List (String × Option TableShape) → String
  serverVersionNum : Nat
  timeouts : Timeouts
  ledger : Ledger
  schema : Schema

/-- The session as `asyncpg.connect` returns it. -/
def Call.start (c : Call) : Run State Point Err where
  now :=
    { session := { holds := false, aborted := false, closed := false, timeouts := c.timeouts }
      ledger := c.ledger
      schema := c.schema
      savedTimeouts := none
      pendingLedgerUpdate := none
      applied := []
      reconciled := []
      report := ⟨"success", none, none, none, none, none⟩ }
  trace := []

end AiAgentsSwd.Migrations
