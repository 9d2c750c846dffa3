import AiAgentsSwd.Audit.Keyring
import AiAgentsSwd.HashChain.Basic
import AiAgentsSwd.Keyed.Table

/-!
# Audit.Verifier — walking the chain

Model of `AuditChainVerifier.verify_chain` in `shared/sdk/audit_integrity/verifier.py`, over
the tables of `012_tamper_evident_audit.sql`.

The walk mixes two concerns, which the results of this file take apart: whether the
records are linked (`scheme`, an instance of `HashChain`) and whether each signature is
acceptable in the mode (`SignatureFails`).

- `walk_of_clean`, `walk_of_not_clean`: a walk fails exactly when the chain is not linked
  or some signature fails;
- `verifyChain_failed_iff`, `verifyChain_passed_iff`: the same for the final status;
- `verifyChain_chainOnly_first`: in `chain_only` mode the failure is at the first break.
-/

namespace AiAgentsSwd.Audit

open Keyed (Table)
open Planning (Uuid)
open HashChain (Scheme)

/-! ## The tables -/

/-- `INTEGRITY_STATUS_…`. -/
inductive IntegrityStatus where
  | active
  | backfilled
  | invalidated
deriving DecidableEq

/-- A row of `audit_integrity_records` beside its `audit_log_id`, which is unique. -/
structure IntegrityRecord where
  chainVersion : Int
  sequenceNumber : Int
  prevHash : Option String
  rowHash : String
  canonicalPayloadHash : String
  hmacSignature : Option String
  signingKeyId : Option String
  signatureStatus : SignatureStatus
  integrityStatus : IntegrityStatus
deriving DecidableEq

/-- The two tables of the chain. There is no foreign key between them. -/
structure AuditDb where
  auditLogs : Table Uuid AuditLog
  records : Table Uuid IntegrityRecord

/-- A row of `audit_integrity_records JOIN audit_logs`. -/
structure JoinedRow where
  auditLogId : Uuid
  record : IntegrityRecord
  log : AuditLog

/-- `FROM audit_integrity_records r JOIN audit_logs al … WHERE r.chain_version = $1
ORDER BY r.sequence_number`. -/
def AuditDb.joined (db : AuditDb) (chainVersion : Int) : List JoinedRow :=
  ((db.records.rows.filter fun e => e.2.chainVersion = chainVersion).filterMap fun e =>
    (db.auditLogs.find? e.1).map fun log => (⟨e.1, e.2, log⟩ : JoinedRow)).insertionSort
      fun a b => a.record.sequenceNumber ≤ b.record.sequenceNumber

/-- The records of one chain. -/
def AuditDb.chain (db : AuditDb) (chainVersion : Int) : List (Uuid × IntegrityRecord) :=
  db.records.rows.filter fun e => e.2.chainVersion = chainVersion

theorem AuditDb.mem_chain {db : AuditDb} {v : Int} {id : Uuid} {r : IntegrityRecord} :
    (id, r) ∈ db.chain v ↔ db.records.find? id = some r ∧ r.chainVersion = v := by
  simp [chain, Table.mem_rows]

theorem AuditDb.mem_joined {db : AuditDb} {v : Int} {row : JoinedRow} :
    row ∈ db.joined v ↔
      db.records.find? row.auditLogId = some row.record ∧ row.record.chainVersion = v ∧
        db.auditLogs.find? row.auditLogId = some row.log := by
  unfold joined
  rw [List.mem_insertionSort, List.mem_filterMap]
  constructor
  · rintro ⟨⟨id, r⟩, hmem, hmap⟩
    obtain ⟨hr, hv⟩ := mem_chain.mp hmem
    obtain ⟨log, hlog, rfl⟩ := Option.map_eq_some_iff.mp hmap
    exact ⟨hr, hv, hlog⟩
  · rintro ⟨hr, hv, hlog⟩
    refine ⟨(row.auditLogId, row.record), mem_chain.mpr ⟨hr, hv⟩, ?_⟩
    rw [hlog]
    rfl

variable (p : Primitives)

/-- The canonical payload hash of the log as it is now. -/
def JoinedRow.payloadHash (row : JoinedRow) : String :=
  computePayloadHash p (buildCanonicalPayload p (row.log.row row.auditLogId))

/-- The row hash of the log as it is now, over the stored `prev_hash`. -/
def JoinedRow.recomputedRowHash (chainVersion : Int) (row : JoinedRow) : String :=
  computeRowHash p chainVersion row.record.sequenceNumber row.auditLogId row.record.prevHash
    (row.payloadHash p)

/-! ## The result of a run -/

/-- `VERIFICATION_STATUS_…`; `partly` is the source's `partial`. -/
inductive VerificationStatus where
  | passed
  | failed
  | partly
  | error
deriving DecidableEq

/-- `VERIFY_MODE_…`. -/
inductive VerifyMode where
  | permissive
  | strict
  | chainOnly
deriving DecidableEq

/-- `VerificationResult`. -/
structure VerificationResult where
  status : VerificationStatus
  totalRecords : Nat
  verifiedRecords : Nat := 0
  failedRecords : Nat := 0
  firstFailureSequence : Option Int := none
  firstFailureAuditLogId : Option Uuid := none
  failureReason : Option String := none
  missingIntegrityRecords : Nat
  extraIntegrityRecords : Nat
  auditLogsCount : Nat
  integrityRecordsCount : Nat
  expectedHash : Option String := none
  actualHash : Option String := none
  signedRecords : Nat := 0
  unsignedRecords : Nat := 0
  keyMissingRecords : Nat := 0
  signatureFailedRecords : Nat := 0
  warnings : List String := []

/-- Why a row fails, with the hashes that are reported. -/
structure Failure where
  reason : String
  expectedHash : Option String := none
  actualHash : Option String := none

/-- The assignments of a failing branch. -/
def VerificationResult.fail (r : VerificationResult) (row : JoinedRow) (f : Failure) :
    VerificationResult :=
  { r with
    status := .failed
    failedRecords := r.failedRecords + 1
    firstFailureSequence := some row.record.sequenceNumber
    firstFailureAuditLogId := some row.auditLogId
    failureReason := some f.reason
    expectedHash := f.expectedHash
    actualHash := f.actualHash }

/-! ## The walk -/

/-- The checks of sequence, payload hash, row hash and previous hash, in this order. -/
def checkHashes (chainVersion : Int) (prevSeq : Int) (prevRowHash : Option String)
    (row : JoinedRow) : Option Failure :=
  if row.record.sequenceNumber ≠ prevSeq + 1 then
    some ⟨"sequence_gap: expected " ++ toString (prevSeq + 1) ++ ", got " ++
        toString row.record.sequenceNumber,
      some (toString (prevSeq + 1)), some (toString row.record.sequenceNumber)⟩
  else if row.payloadHash p ≠ row.record.canonicalPayloadHash then
    some ⟨"canonical_payload_hash_mismatch", some row.record.canonicalPayloadHash,
      some (row.payloadHash p)⟩
  else if row.recomputedRowHash p chainVersion ≠ row.record.rowHash then
    some ⟨"row_hash_mismatch", some row.record.rowHash,
      some (row.recomputedRowHash p chainVersion)⟩
  else if 1 < row.record.sequenceNumber ∧ row.record.prevHash ≠ prevRowHash then
    some ⟨"prev_hash_mismatch", some (prevRowHash.getD ""), some (row.record.prevHash.getD "")⟩
  else none

/-- The signature branches. The flag says that the row failed. -/
def checkSignature (k : AuditHmacKeyring) (mode : VerifyMode) (allowUnsignedLegacy : Bool)
    (r : VerificationResult) (row : JoinedRow) : VerificationResult × Bool :=
  if mode = .chainOnly then (r, false)
  else
    match row.record.signatureStatus with
    | .signed =>
      match verifyWith p k row.record.rowHash row.record.hmacSignature row.record.signingKeyId with
      | .ok => ({ r with signedRecords := r.signedRecords + 1 }, false)
      | .keyMissing =>
        let r := { r with keyMissingRecords := r.keyMissingRecords + 1 }
        if mode = .strict then (r.fail row ⟨"hmac_signing_key_missing", none, none⟩, true)
        else
          ({ r with warnings := r.warnings ++ ["seq=" ++ toString row.record.sequenceNumber ++
              " signing_key_id '" ++ row.record.signingKeyId.getD "None" ++
              "' missing from keyring"] }, false)
      | .noKeyring =>
        let r := { r with keyMissingRecords := r.keyMissingRecords + 1 }
        if mode = .strict then (r.fail row ⟨"hmac_keyring_not_configured", none, none⟩, true)
        else
          ({ r with warnings := r.warnings ++ ["seq=" ++ toString row.record.sequenceNumber ++
              " signed row found but no HMAC keyring is configured"] }, false)
      | .signatureFailed =>
        let r := { r with signatureFailedRecords := r.signatureFailedRecords + 1 }
        (r.fail row ⟨"hmac_signature_invalid", none, none⟩, true)
    | .signingKeyNotConfigured =>
      let r := { r with unsignedRecords := r.unsignedRecords + 1 }
      if mode = .strict ∧ allowUnsignedLegacy = false then
        (r.fail row ⟨"unsigned_row_under_strict_mode", none, none⟩, true)
      else (r, false)
    | .unsigned => ({ r with unsignedRecords := r.unsignedRecords + 1 }, false)

/-- The loop over the joined rows, up to its first `break`. -/
def walk (chainVersion : Int) (k : AuditHmacKeyring) (mode : VerifyMode)
    (allowUnsignedLegacy : Bool) :
    Int → Option String → VerificationResult → List JoinedRow → VerificationResult
  | _, _, r, [] => r
  | prevSeq, prevRowHash, r, row :: rows =>
    match checkHashes p chainVersion prevSeq prevRowHash row with
    | some f => r.fail row f
    | none =>
      match checkSignature p k mode allowUnsignedLegacy r row with
      | (r, true) => r
      | (r, false) =>
        walk chainVersion k mode allowUnsignedLegacy row.record.sequenceNumber
          (some row.record.rowHash) { r with verifiedRecords := r.verifiedRecords + 1 } rows

/-- The result before the walk. -/
def initialResult (db : AuditDb) (chainVersion : Int) : VerificationResult :=
  { status := .passed
    totalRecords := (db.joined chainVersion).length
    missingIntegrityRecords := db.auditLogs.rows.length - (db.chain chainVersion).length
    extraIntegrityRecords := (db.chain chainVersion).length - db.auditLogs.rows.length
    auditLogsCount := db.auditLogs.rows.length
    integrityRecordsCount := (db.chain chainVersion).length }

/-- The two downgrades after the walk. -/
def finalStatus (mode : VerifyMode) (r : VerificationResult) : VerificationResult :=
  let r :=
    if r.status = .passed ∧ 0 < r.missingIntegrityRecords then
      { r with
        status := .partly
        failureReason := some (toString r.missingIntegrityRecords ++
          " audit_logs row(s) lack an integrity record") }
    else r
  if r.status = .passed ∧ 0 < r.keyMissingRecords ∧ mode = .permissive then
    { r with
      status := .partly
      failureReason := some (toString r.keyMissingRecords ++
        " signed row(s) lack a known signing key") }
  else r

/-- `AuditChainVerifier.verify_chain(chain_version)`. -/
def verifyChain (k : AuditHmacKeyring) (mode : VerifyMode) (allowUnsignedLegacy : Bool)
    (db : AuditDb) (chainVersion : Int) : VerificationResult :=
  finalStatus mode
    (walk p chainVersion k mode allowUnsignedLegacy 0 none (initialResult db chainVersion)
      (db.joined chainVersion))

/-! ## What a run checks -/

/-- The records as a hash chain: an entry is valid when its log still hashes to it. -/
def scheme (chainVersion : Int) : Scheme JoinedRow String where
  seq row := row.record.sequenceNumber
  prev row := row.record.prevHash
  hash row := row.record.rowHash
  valid row := decide (row.payloadHash p = row.record.canonicalPayloadHash) &&
    decide (row.recomputedRowHash p chainVersion = row.record.rowHash)

/-- The signature of the row is one the mode does not accept. -/
def SignatureFails (k : AuditHmacKeyring) (mode : VerifyMode) (allowUnsignedLegacy : Bool)
    (row : JoinedRow) : Prop :=
  match row.record.signatureStatus with
  | .signed =>
    let outcome := verifyWith p k row.record.rowHash row.record.hmacSignature
      row.record.signingKeyId
    mode ≠ .chainOnly ∧ (outcome = .signatureFailed ∨ (mode = .strict ∧ outcome ≠ .ok))
  | .signingKeyNotConfigured => mode = .strict ∧ allowUnsignedLegacy = false
  | .unsigned => False

/-- The key of a signed row is not known to the keyring. -/
def KeyMissing (k : AuditHmacKeyring) (row : JoinedRow) : Prop :=
  row.record.signatureStatus = .signed ∧
    (verifyWith p k row.record.rowHash row.record.hmacSignature row.record.signingKeyId =
        .keyMissing ∨
      verifyWith p k row.record.rowHash row.record.hmacSignature row.record.signingKeyId =
        .noKeyring)

variable {p} {v : Int} {k : AuditHmacKeyring} {mode : VerifyMode} {allow : Bool}

theorem valid_iff {row : JoinedRow} :
    (scheme p v).valid row = true ↔ row.payloadHash p = row.record.canonicalPayloadHash ∧
      row.recomputedRowHash p v = row.record.rowHash := by
  unfold scheme
  rw [Bool.and_eq_true, decide_eq_true_eq, decide_eq_true_eq]

theorem checkHashes_eq_none_iff {n : Int} {h : Option String} {row : JoinedRow} :
    checkHashes p v n h row = none ↔ (scheme p v).follows n h row = true := by
  rw [Scheme.follows_iff, valid_iff]
  show _ ↔ row.record.sequenceNumber = n + 1 ∧ _ ∧ (1 < row.record.sequenceNumber →
    row.record.prevHash = h)
  unfold checkHashes
  by_cases hseq : row.record.sequenceNumber = n + 1
  · rw [if_neg (not_not.mpr hseq)]
    by_cases hpay : row.payloadHash p = row.record.canonicalPayloadHash
    · rw [if_neg (not_not.mpr hpay)]
      by_cases hrow : row.recomputedRowHash p v = row.record.rowHash
      · rw [if_neg (not_not.mpr hrow)]
        simp [hseq, hpay, hrow]
      · rw [if_pos hrow]
        simp [hrow]
    · rw [if_pos hpay]
      simp [hpay]
  · rw [if_pos hseq]
    simp [hseq]

/-- What the signature branches do to the result. -/
theorem checkSignature_cases (p : Primitives) (k : AuditHmacKeyring) (mode : VerifyMode)
    (allow : Bool) (r : VerificationResult) (row : JoinedRow) :
    (SignatureFails p k mode allow row ∧
        (checkSignature p k mode allow r row).2 = true ∧
        (checkSignature p k mode allow r row).1.status = .failed) ∨
      (¬ SignatureFails p k mode allow row ∧
        (checkSignature p k mode allow r row).2 = false ∧
        (checkSignature p k mode allow r row).1.status = r.status ∧
        (checkSignature p k mode allow r row).1.missingIntegrityRecords =
          r.missingIntegrityRecords ∧
        (checkSignature p k mode allow r row).1.firstFailureSequence = r.firstFailureSequence ∧
        (mode ≠ .chainOnly →
          (0 < (checkSignature p k mode allow r row).1.keyMissingRecords ↔
            0 < r.keyMissingRecords ∨ KeyMissing p k row))) := by
  unfold checkSignature SignatureFails KeyMissing
  by_cases hc : mode = .chainOnly
  · subst hc
    right
    cases row.record.signatureStatus <;> simp
  · rw [if_neg hc]
    cases hs : row.record.signatureStatus with
    | signed =>
      cases hv : verifyWith p k row.record.rowHash row.record.hmacSignature
          row.record.signingKeyId with
      | ok => simp [hc]
      | keyMissing => by_cases hst : mode = .strict <;> simp [hc, hst, VerificationResult.fail]
      | noKeyring => by_cases hst : mode = .strict <;> simp [hc, hst, VerificationResult.fail]
      | signatureFailed => simp [hc, VerificationResult.fail]
    | signingKeyNotConfigured =>
      by_cases hst : mode = .strict ∧ allow = false
      · simp [hst, VerificationResult.fail]
      · simp [hst]
    | unsigned => simp

/-- The chain is linked from the point `(n, h)` and every signature is acceptable. -/
def CleanFrom (p : Primitives) (v : Int) (k : AuditHmacKeyring) (mode : VerifyMode)
    (allow : Bool) (n : Int) (h : Option String) (rows : List JoinedRow) : Prop :=
  (scheme p v).Linked n h rows ∧ ∀ row ∈ rows, ¬ SignatureFails p k mode allow row

theorem cleanFrom_cons {n : Int} {h : Option String} {row : JoinedRow} {rows : List JoinedRow} :
    CleanFrom p v k mode allow n h (row :: rows) ↔
      ((scheme p v).follows n h row = true ∧ ¬ SignatureFails p k mode allow row) ∧
        CleanFrom p v k mode allow row.record.sequenceNumber (some row.record.rowHash) rows := by
  unfold CleanFrom
  rw [Scheme.linked_cons, List.forall_mem_cons]
  show _ ∧ _ ↔ (_ ∧ _) ∧ (scheme p v).Linked row.record.sequenceNumber (some row.record.rowHash)
    rows ∧ _
  tauto

/-- A walk over a clean chain ends with the status it began with. -/
theorem walk_of_clean {n : Int} {h : Option String} {r : VerificationResult}
    {rows : List JoinedRow} (hclean : CleanFrom p v k mode allow n h rows) :
    (walk p v k mode allow n h r rows).status = r.status ∧
      (walk p v k mode allow n h r rows).missingIntegrityRecords = r.missingIntegrityRecords ∧
      (walk p v k mode allow n h r rows).firstFailureSequence = r.firstFailureSequence ∧
      (mode ≠ .chainOnly →
        (0 < (walk p v k mode allow n h r rows).keyMissingRecords ↔
          0 < r.keyMissingRecords ∨ ∃ row ∈ rows, KeyMissing p k row)) := by
  induction rows generalizing n h r with
  | nil => simp [walk]
  | cons row rows ih =>
    obtain ⟨⟨hf, hs⟩, hrest⟩ := cleanFrom_cons.mp hclean
    rcases checkSignature_cases p k mode allow r row with
      ⟨hfail, -⟩ | ⟨-, hflag, hstatus, hmissing, hfirst, hkey⟩
    · exact absurd hfail hs
    · obtain ⟨h₁, h₂, h₃, h₄⟩ := ih (r := { (checkSignature p k mode allow r row).1 with
        verifiedRecords := (checkSignature p k mode allow r row).1.verifiedRecords + 1 }) hrest
      have hw : walk p v k mode allow n h r (row :: rows) =
          walk p v k mode allow row.record.sequenceNumber (some row.record.rowHash)
            { (checkSignature p k mode allow r row).1 with
              verifiedRecords := (checkSignature p k mode allow r row).1.verifiedRecords + 1 }
            rows := by
        rw [walk, checkHashes_eq_none_iff.mpr hf]
        cases hcs : checkSignature p k mode allow r row with
        | mk r' flag =>
          rw [hcs] at hflag
          subst hflag
          rfl
      rw [hw]
      refine ⟨h₁.trans hstatus, h₂.trans hmissing, h₃.trans hfirst, fun hm => ?_⟩
      rw [h₄ hm]
      show 0 < (checkSignature p k mode allow r row).1.keyMissingRecords ∨ _ ↔ _
      rw [hkey hm, or_assoc]
      simp

/-- A walk over a chain that is not clean fails. -/
theorem walk_of_not_clean {n : Int} {h : Option String} {r : VerificationResult}
    {rows : List JoinedRow} (hclean : ¬ CleanFrom p v k mode allow n h rows) :
    (walk p v k mode allow n h r rows).status = .failed := by
  induction rows generalizing n h r with
  | nil => exact absurd ⟨Scheme.linked_nil, by simp⟩ hclean
  | cons row rows ih =>
    rw [walk]
    cases hc : checkHashes p v n h row with
    | some f => rfl
    | none =>
      have hf := checkHashes_eq_none_iff.mp hc
      rcases checkSignature_cases p k mode allow r row with
        ⟨-, hflag, hstatus⟩ | ⟨hs, hflag, -⟩
      · cases hcs : checkSignature p k mode allow r row with
        | mk r' flag =>
          rw [hcs] at hflag hstatus
          subst hflag
          exact hstatus
      · have hrest : ¬ CleanFrom p v k mode allow row.record.sequenceNumber
            (some row.record.rowHash) rows :=
          fun hrest => hclean (cleanFrom_cons.mpr ⟨⟨hf, hs⟩, hrest⟩)
        cases hcs : checkSignature p k mode allow r row with
        | mk r' flag =>
          rw [hcs] at hflag
          subst hflag
          exact ih hrest

/-! ## What a run reports -/

/-- The chain of the database is linked and its signatures are acceptable. -/
def Clean (p : Primitives) (k : AuditHmacKeyring) (mode : VerifyMode) (allow : Bool)
    (db : AuditDb) (v : Int) : Prop :=
  CleanFrom p v k mode allow 0 none (db.joined v)

variable {db : AuditDb}

/-- **A run reports `failed` exactly when the chain is not clean.** -/
theorem verifyChain_failed_iff :
    (verifyChain p k mode allow db v).status = .failed ↔ ¬ Clean p k mode allow db v := by
  unfold verifyChain Clean
  constructor
  · intro hfailed hclean
    obtain ⟨hstatus, -⟩ := walk_of_clean (r := initialResult db v) hclean
    unfold finalStatus at hfailed
    simp only [hstatus] at hfailed
    split at hfailed <;> split at hfailed <;> simp_all [initialResult]
  · intro hclean
    have hstatus := walk_of_not_clean (r := initialResult db v) hclean
    unfold finalStatus
    simp [hstatus]

/-- **A run reports `passed` exactly when the chain is clean, no log is left over, and in
permissive mode no signed row's key is missing.** -/
theorem verifyChain_passed_iff :
    (verifyChain p k mode allow db v).status = .passed ↔
      Clean p k mode allow db v ∧ db.auditLogs.rows.length ≤ (db.chain v).length ∧
        (mode = .permissive → ∀ row ∈ db.joined v, ¬ KeyMissing p k row) := by
  by_cases hclean : Clean p k mode allow db v
  · obtain ⟨hstatus, hmissing, -, hkey⟩ := walk_of_clean (r := initialResult db v) hclean
    have hmiss : (initialResult db v).missingIntegrityRecords = 0 ↔
        db.auditLogs.rows.length ≤ (db.chain v).length := by
      show _ - _ = 0 ↔ _
      omega
    have hkey' : mode = .permissive →
        (0 < (walk p v k mode allow 0 none (initialResult db v) (db.joined v)).keyMissingRecords ↔
          ∃ row ∈ db.joined v, KeyMissing p k row) := by
      intro hm
      rw [hkey (by rw [hm]; simp)]
      simp [initialResult]
    unfold verifyChain finalStatus
    simp only [hstatus, hmissing]
    by_cases hle : db.auditLogs.rows.length ≤ (db.chain v).length
    · have hzero := hmiss.mpr hle
      have hpassed : (initialResult db v).status = .passed := rfl
      rw [hzero, hpassed]
      by_cases hm : mode = .permissive
      · by_cases hex : ∃ row ∈ db.joined v, KeyMissing p k row
        · have hpos := (hkey' hm).mpr hex
          simp_all
        · have hzero' := mt (hkey' hm).mp hex
          simp_all
      · simp_all
    · have hpos : 0 < (initialResult db v).missingIntegrityRecords :=
        Nat.pos_of_ne_zero fun h0 => hle (hmiss.mp h0)
      have hpassed : (initialResult db v).status = .passed := rfl
      rw [hpassed]
      simp [hpos, hle]
  · have hstatus : (verifyChain p k mode allow db v).status = .failed :=
      verifyChain_failed_iff.mpr hclean
    rw [hstatus]
    simp [hclean]

/-! ## Runs that check no signature -/

theorem clean_chainOnly_iff :
    Clean p k .chainOnly allow db v ↔ (scheme p v).Linked 0 none (db.joined v) := by
  unfold Clean CleanFrom
  constructor
  · exact fun h => h.1
  · intro h
    refine ⟨h, fun row _ hs => ?_⟩
    unfold SignatureFails at hs
    cases hst : row.record.signatureStatus <;> simp [hst] at hs

theorem walk_chainOnly_first {n : Int} {h : Option String} {r : VerificationResult}
    {rows : List JoinedRow} {row : JoinedRow}
    (hrow : (scheme p v).firstBroken n h rows = some row) :
    (walk p v k .chainOnly allow n h r rows).firstFailureSequence =
      some row.record.sequenceNumber := by
  induction rows generalizing n h r with
  | nil => cases hrow
  | cons x rows ih =>
    rw [Scheme.firstBroken] at hrow
    rw [walk]
    by_cases hf : (scheme p v).follows n h x = true
    · rw [if_pos hf] at hrow
      rw [checkHashes_eq_none_iff.mpr hf]
      exact ih hrow
    · rw [if_neg hf] at hrow
      obtain rfl := Option.some.inj hrow
      cases hc : checkHashes p v n h x with
      | none => exact absurd (checkHashes_eq_none_iff.mp hc) hf
      | some f => rfl

/-- **A run that checks no signature fails at the first break of the chain.** -/
theorem verifyChain_chainOnly_first {row : JoinedRow}
    (hrow : (scheme p v).firstBroken 0 none (db.joined v) = some row) :
    (verifyChain p k .chainOnly allow db v).firstFailureSequence =
      some row.record.sequenceNumber := by
  have hfirst : (walk p v k .chainOnly allow 0 none (initialResult db v)
      (db.joined v)).firstFailureSequence = some row.record.sequenceNumber :=
    walk_chainOnly_first hrow
  have hfinal : ∀ r, (finalStatus .chainOnly r).firstFailureSequence = r.firstFailureSequence := by
    intro r
    unfold finalStatus
    simp only [apply_ite VerificationResult.firstFailureSequence, ite_self]
  unfold verifyChain
  rw [hfinal, hfirst]

end AiAgentsSwd.Audit
