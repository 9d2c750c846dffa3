import AiAgentsSwd.Audit.Writers

/-!
# Audit.Forensics — finding every failing record and what may be repaired

Model of `shared/sdk/audit_integrity/forensics.py`: the analysis of one record
(`analyseRecord`), the scan that collects every failing record (`scan`) and the verdict on
the chain (`classifyChainRootCause`).

- `scan_agrees_iff`: when the scan finds what the verifier finds;
- `repair_allowed_iff`: when a verdict that allows a repair rests on repairable records.
-/

namespace AiAgentsSwd.Audit

open HashChain (Scheme)
open Json (Value)
open Keyed (Table)
open Planning (Uuid)

/-! ## Vocabulary -/

/-- `FAILURE_…`. -/
inductive FailureType where
  | canonicalPayloadHash
  | rowHash
  | prevHash
  | sequenceGap
  | signatureInvalid
  | signingKeyMissing
deriving DecidableEq

/-- `ROOT_CAUSE_…`. -/
inductive RootCause where
  | testTamperNotRestored
  | canonicalizationVersionDrift
  | directPostLegacyGap
  | integrityWriterBug
  | auditLogMutated
  | manualDatabaseChange
  | timestampSerializationDrift
  | jsonbOrderingDrift
  | hmacKeyMissingOnly
  | unknown
deriving DecidableEq

def RootCause.text : RootCause → String
  | .testTamperNotRestored => "test_tamper_not_restored"
  | .canonicalizationVersionDrift => "canonicalization_version_drift"
  | .directPostLegacyGap => "direct_post_legacy_gap"
  | .integrityWriterBug => "integrity_writer_bug"
  | .auditLogMutated => "audit_log_mutated_after_integrity"
  | .manualDatabaseChange => "manual_database_change"
  | .timestampSerializationDrift => "timestamp_serialization_drift"
  | .jsonbOrderingDrift => "jsonb_ordering_drift"
  | .hmacKeyMissingOnly => "hmac_key_missing_only"
  | .unknown => "unknown"

/-- `REPAIRABLE_ROOT_CAUSES`. -/
def repairableRootCauses : List RootCause :=
  [.testTamperNotRestored, .canonicalizationVersionDrift, .directPostLegacyGap]

/-- `REPAIR_RISK_…`. -/
inductive RepairRisk where
  | low
  | medium
  | high
deriving DecidableEq

/-- `KNOWN_TAMPER_MARKERS`. -/
def knownTamperMarkers : List String := [" [TAMPER-SIMULATION]"]

/-! ## Reading a log -/

variable (p : Primitives)

/-- Python's `bool(value)`. -/
def truthy : Value → Bool
  | .null => false
  | .bool b => b
  | .int i => i ≠ 0
  | .float x => x.text ≠ "0.0" ∧ x.text ≠ "-0.0"
  | .str s => s ≠ ""
  | .arr items => items ≠ []
  | .obj members => members ≠ []

/-- `_extract_production_executed(artifact_refs)`, for the text of a stored log. -/
def extractProductionExecuted (artifactRefs : String) : Option Bool :=
  match Json.loads p.float artifactRefs with
  | some (.obj refs) =>
    match Json.field? refs "production_executed" with
    | some value => some (truthy value)
    | none =>
      match Json.field? refs "original_event" with
      | some (.obj nested) => (Json.field? nested "production_executed").map truthy
      | _ => none
  | _ => none

/-- `_strip_known_marker(summary)`: the summary without its marker. -/
def stripKnownMarker (summary : Option String) : Option String :=
  knownTamperMarkers.findSome? fun marker =>
    let text := (summary.getD "").toList
    if text ≠ [] ∧ marker.toList.isSuffixOf text then
      some (String.ofList (text.take (text.length - marker.length)))
    else none

/-! ## Redaction -/

/-- The length of the match of `_SECRET_SCRUB` at the start of a text. -/
def secretLength : List Char → Option Nat
  | 'g' :: 'h' :: 'p' :: '_' :: rest => atLeast 4 (rest.takeWhile Char.isAlphanum).length
  | 's' :: 'k' :: '-' :: rest => atLeast 3 (rest.takeWhile Char.isAlphanum).length
  | 'x' :: 'o' :: 'x' :: c :: '-' :: rest =>
    if ['b', 'a', 'p', 'r', 's'].contains c then
      atLeast 5 (rest.takeWhile fun d => d.isAlphanum || d = '-').length
    else none
  | _ => none
where
  atLeast (start n : Nat) : Option Nat := if 8 ≤ n then some (start + n) else none

/-- `_SECRET_SCRUB.sub("[REDACTED]", …)`. The number counts the characters of a match that
are still to be dropped. -/
def scrub : Nat → List Char → List Char
  | _, [] => []
  | dropping + 1, _ :: cs => scrub dropping cs
  | 0, c :: cs =>
    match secretLength (c :: cs) with
    | some n => "[REDACTED]".toList ++ scrub (n - 1) cs
    | none => c :: scrub 0 cs

/-- `redact_summary(summary)`. -/
def redactSummary (summary : Option String) : String :=
  let scrubbed := scrub 0 (summary.getD "").toList
  if 160 < scrubbed.length then String.ofList (scrubbed.take 160) ++ "...[truncated]"
  else String.ofList scrubbed

/-! ## One record -/

/-- The arguments of `analyse_record`. -/
structure RecordEvidence where
  sequenceNumber : Int
  auditLogId : Uuid
  auditLogRow : AuditLog
  storedCanonicalPayloadHash : String
  storedRowHash : String
  storedPrevHash : Option String
  signatureStatus : SignatureStatus
  expectedPrevRecordHash : Option String
  signatureVerificationStatus : String := "n/a"
  chainVersion : Int

/-- `FailedRecordAnalysis`. -/
structure FailedRecordAnalysis where
  sequenceNumber : Int
  auditLogId : Uuid
  decisionType : String
  taskId : Option String
  createdAt : String
  storedCanonicalPayloadHash : String
  recomputedCanonicalPayloadHash : String
  storedRowHash : String
  recomputedRowHash : String
  storedPrevRecordHash : Option String
  expectedPrevRecordHash : Option String
  signatureStatus : SignatureStatus
  signatureVerificationStatus : String
  failureTypes : List FailureType
  summaryRedacted : String
  tamperMarkerDetected : Bool
  recoveredOriginalMatches : Bool
  productionExecuted : Option Bool
  suspectedRootCause : RootCause := .unknown
  repairable : Bool := false
  repairRisk : RepairRisk := .high

/-- `_classify_record(a)`. -/
def classifyRecord (a : FailedRecordAnalysis) : FailedRecordAnalysis :=
  let canonicalOk := .canonicalPayloadHash ∉ a.failureTypes
  let rowOk := .rowHash ∉ a.failureTypes
  let prevOk := .prevHash ∉ a.failureTypes
  let signatureFailed :=
    .signatureInvalid ∈ a.failureTypes ∨ .signingKeyMissing ∈ a.failureTypes
  if canonicalOk ∧ rowOk ∧ prevOk ∧ signatureFailed then
    { a with suspectedRootCause := .hmacKeyMissingOnly, repairable := false, repairRisk := .low }
  else if ¬ canonicalOk ∧ a.tamperMarkerDetected ∧ a.recoveredOriginalMatches ∧
      a.productionExecuted = some false then
    { a with suspectedRootCause := .testTamperNotRestored, repairable := true, repairRisk := .low }
  else if ¬ canonicalOk then
    { a with suspectedRootCause := .auditLogMutated, repairable := false, repairRisk := .high }
  else if ¬ prevOk then
    { a with suspectedRootCause := .manualDatabaseChange, repairable := false, repairRisk := .high }
  else
    { a with suspectedRootCause := .unknown, repairable := false, repairRisk := .high }

/-- The `failure_types` of `analyse_record`. -/
def failureTypes (e : RecordEvidence) (recomputedCanonical recomputedRow : String) :
    List FailureType :=
  (if recomputedCanonical ≠ e.storedCanonicalPayloadHash then
    [FailureType.canonicalPayloadHash] else []) ++
  (if recomputedRow ≠ e.storedRowHash then [FailureType.rowHash] else []) ++
  (if e.expectedPrevRecordHash ≠ none ∧ e.storedPrevHash ≠ none ∧
      e.storedPrevHash ≠ e.expectedPrevRecordHash then [FailureType.prevHash] else []) ++
  (if e.signatureVerificationStatus = "hmac_signature_invalid" ∨
      e.signatureVerificationStatus = "signature_failed" then [FailureType.signatureInvalid] else []) ++
  (if e.signatureVerificationStatus = "hmac_signing_key_missing" ∨
      e.signatureVerificationStatus = "key_missing" then [FailureType.signingKeyMissing] else [])

/-- `analyse_record(…)`. -/
def analyseRecord (e : RecordEvidence) : FailedRecordAnalysis :=
  let payloadHash := fun log : AuditLog =>
    computePayloadHash p (buildCanonicalPayload p (log.row e.auditLogId))
  let recomputedCanonical := payloadHash e.auditLogRow
  let recomputedRow := computeRowHash p e.chainVersion e.sequenceNumber e.auditLogId
    e.storedPrevHash recomputedCanonical
  let original := stripKnownMarker e.auditLogRow.summary
  classifyRecord
    { sequenceNumber := e.sequenceNumber
      auditLogId := e.auditLogId
      decisionType := e.auditLogRow.decisionType.getD ""
      taskId := e.auditLogRow.taskId
      createdAt := e.auditLogRow.createdAt.isoformat
      storedCanonicalPayloadHash := e.storedCanonicalPayloadHash
      recomputedCanonicalPayloadHash := recomputedCanonical
      storedRowHash := e.storedRowHash
      recomputedRowHash := recomputedRow
      storedPrevRecordHash := e.storedPrevHash
      expectedPrevRecordHash := e.expectedPrevRecordHash
      signatureStatus := e.signatureStatus
      signatureVerificationStatus := e.signatureVerificationStatus
      failureTypes := failureTypes e recomputedCanonical recomputedRow
      summaryRedacted := redactSummary e.auditLogRow.summary
      tamperMarkerDetected := original.isSome
      recoveredOriginalMatches := original.any fun s =>
        payloadHash { e.auditLogRow with summary := some s } = e.storedCanonicalPayloadHash
      productionExecuted := extractProductionExecuted p e.auditLogRow.artifactRefs }

/-- `analysis.failure_types.insert(0, FAILURE_SEQUENCE_GAP)`. -/
def FailedRecordAnalysis.withGap (a : FailedRecordAnalysis) : FailedRecordAnalysis :=
  { a with failureTypes := .sequenceGap :: a.failureTypes }

namespace FailedRecordAnalysis

variable {a : FailedRecordAnalysis}

theorem withGap_sequenceNumber : a.withGap.sequenceNumber = a.sequenceNumber := rfl

theorem withGap_failureTypes : a.withGap.failureTypes = .sequenceGap :: a.failureTypes := rfl

theorem withGap_tamperMarkerDetected :
    a.withGap.tamperMarkerDetected = a.tamperMarkerDetected := rfl

theorem withGap_repairable : a.withGap.repairable = a.repairable := rfl

theorem withGap_suspectedRootCause : a.withGap.suspectedRootCause = a.suspectedRootCause := rfl

end FailedRecordAnalysis

/-! ## The scan -/

/-- The evidence a joined row gives, after a row of hash `expectedPrev`. -/
def JoinedRow.evidence (v : Int) (expectedPrev : Option String) (row : JoinedRow) :
    RecordEvidence :=
  { sequenceNumber := row.record.sequenceNumber
    auditLogId := row.auditLogId
    auditLogRow := row.log
    storedCanonicalPayloadHash := row.record.canonicalPayloadHash
    storedRowHash := row.record.rowHash
    storedPrevHash := row.record.prevHash
    signatureStatus := row.record.signatureStatus
    expectedPrevRecordHash := expectedPrev
    chainVersion := v }

/-- The analysis of one row in the loop of `scan`. -/
def scanRow (v : Int) (prevSeq : Int) (prevRowHash : Option String) (row : JoinedRow) :
    FailedRecordAnalysis :=
  let expectedPrev := if 1 < row.record.sequenceNumber then prevRowHash else none
  let analysis := analyseRecord p (row.evidence v expectedPrev)
  if row.record.sequenceNumber ≠ prevSeq + 1 then analysis.withGap else analysis

/-- The loop of `scan`. -/
def scanRows (v : Int) : Int → Option String → List JoinedRow → List FailedRecordAnalysis
  | _, _, [] => []
  | prevSeq, prevRowHash, row :: rows =>
    let analysis := scanRow p v prevSeq prevRowHash row
    let failed := scanRows v row.record.sequenceNumber (some row.record.rowHash) rows
    if analysis.failureTypes ≠ [] then analysis :: failed else failed

/-- `AuditChainForensicAnalyzer.scan(chain_version)`. -/
def scan (db : AuditDb) (v : Int) : List FailedRecordAnalysis :=
  scanRows p v 0 none (db.joined v)

/-! ## The verdict on the chain -/

/-- The dictionary `classify_chain_root_cause` returns. -/
structure ChainClassification where
  rootCauseClassification : Option RootCause
  confidence : String
  repairAllowed : Bool
  repairRisk : RepairRisk
  repairPolicyReason : String
  affectedSequenceRange : Option (Int × Int)
  affectedDecisionTypes : List String
  productionExecutedInvolved : Bool

/-- `_aggregate_risk(failed)`. -/
def aggregateRisk (failed : List FailedRecordAnalysis) : RepairRisk :=
  if failed.any fun r => r.repairRisk = .high then .high
  else if 1 < failed.length then .medium else .low

/-- `_repair_reason(root, all_repairable, production_involved)`. -/
def repairReason (root : RootCause) (allRepairable productionInvolved : Bool) : String :=
  if productionInvolved then "production_executed involved -> repair blocked"
  else if root = .unknown then "unknown root cause -> repair blocked"
  else if root = .hmacKeyMissingOnly then
    "signature/key-only failure -> payload repair not applicable"
  else if root = .auditLogMutated then
    "audit_log mutated after integrity, not proven synthetic -> repair blocked"
  else if root = .manualDatabaseChange then "manual database change -> repair blocked"
  else if ¬ allRepairable then
    root.text ++ " present but not every record is repairable -> repair blocked"
  else if root ∈ repairableRootCauses then
    root.text ++ ": synthetic non-production artifact, deterministic repair"
  else "repair blocked"

/-- The distinct nonempty decision types, sorted. -/
def decisionTypes (failed : List FailedRecordAnalysis) : List String :=
  ((failed.map FailedRecordAnalysis.decisionType).filter fun s => s ≠ "").dedup.insertionSort
    fun a b => a ≤ b

/-- The smallest and the largest sequence number. -/
def seqRange (failed : List FailedRecordAnalysis) : Option (Int × Int) :=
  let seqs := failed.map FailedRecordAnalysis.sequenceNumber
  seqs.min?.bind fun lo => seqs.max?.map fun hi => (lo, hi)

/-- The distinct causes of the records. -/
def causes (failed : List FailedRecordAnalysis) : List RootCause :=
  (failed.map FailedRecordAnalysis.suspectedRootCause).dedup

/-- `production_involved`. -/
def productionInvolved (failed : List FailedRecordAnalysis) : Bool :=
  failed.any fun r => r.productionExecuted = some true

/-- The canonicalization drift heuristic. -/
def looksLikeDrift (failed : List FailedRecordAnalysis) : Bool :=
  3 ≤ failed.length ∧ (decisionTypes failed).length = 1 ∧
    (∀ r ∈ failed, .canonicalPayloadHash ∈ r.failureTypes ∧ ¬ r.tamperMarkerDetected) ∧
    ∀ c ∈ causes failed, c ∈ [RootCause.auditLogMutated, .canonicalizationVersionDrift]

/-- The text Python gives a sorted list of causes. -/
def sortedCauses (failed : List FailedRecordAnalysis) : String :=
  let texts := ((causes failed).map RootCause.text).insertionSort fun a b => a ≤ b
  "[" ++ String.intercalate ", " (texts.map fun s => "'" ++ s ++ "'") ++ "]"

/-- `classify_chain_root_cause(failed)`. -/
def classifyChainRootCause (failed : List FailedRecordAnalysis) : ChainClassification :=
  if failed = [] then
    { rootCauseClassification := none, confidence := "n/a", repairAllowed := false
      repairRisk := .low, repairPolicyReason := "no failed records"
      affectedSequenceRange := none, affectedDecisionTypes := []
      productionExecutedInvolved := false }
  else
    let verdict := fun root confidence allowed risk reason =>
      { rootCauseClassification := some root, confidence := confidence, repairAllowed := allowed
        repairRisk := risk, repairPolicyReason := reason
        affectedSequenceRange := seqRange failed, affectedDecisionTypes := decisionTypes failed
        productionExecutedInvolved := productionInvolved failed : ChainClassification }
    if looksLikeDrift failed then
      verdict .canonicalizationVersionDrift "medium" (!productionInvolved failed)
        (aggregateRisk failed)
        (if productionInvolved failed then "production_executed involved -> repair blocked"
          else "uniform canonicalization drift across one decision_type")
    else
      match causes failed with
      | [root] =>
        let allRepairable := failed.all FailedRecordAnalysis.repairable
        verdict root (if root ≠ .unknown then "high" else "low")
          (allRepairable && repairableRootCauses.contains root && !productionInvolved failed)
          (aggregateRisk failed) (repairReason root allRepairable (productionInvolved failed))
      | _ =>
        verdict .unknown "low" false .high
          ("mixed root causes " ++ sortedCauses failed ++ " -> cannot prove safe repair")

/-! ## What an analysis says -/

variable {p} {e : RecordEvidence}

/-- Classifying an analysis sets its three last fields only. -/
theorem classifyRecord_eq (a : FailedRecordAnalysis) :
    ∃ cause repairable risk, classifyRecord a =
      { a with suspectedRootCause := cause, repairable := repairable, repairRisk := risk } := by
  unfold classifyRecord
  simp only
  split
  · exact ⟨_, _, _, rfl⟩
  split
  · exact ⟨_, _, _, rfl⟩
  split
  · exact ⟨_, _, _, rfl⟩
  split <;> exact ⟨_, _, _, rfl⟩

theorem classifyRecord_repairable {a : FailedRecordAnalysis}
    (h : (classifyRecord a).repairable = true) : a.tamperMarkerDetected = true := by
  unfold classifyRecord at h
  simp only at h
  split at h
  · cases h
  split at h
  · next hproved => exact hproved.2.1
  split at h
  · cases h
  split at h <;> cases h

theorem classifyRecord_mutated {a : FailedRecordAnalysis}
    (hpayload : .canonicalPayloadHash ∈ a.failureTypes) (hmarker : a.tamperMarkerDetected = false) :
    (classifyRecord a).suspectedRootCause = .auditLogMutated := by
  simp [classifyRecord, hpayload, hmarker]

@[simp] theorem analyseRecord_sequenceNumber :
    (analyseRecord p e).sequenceNumber = e.sequenceNumber := by
  unfold analyseRecord
  obtain ⟨cause, rep, risk, heq⟩ := classifyRecord_eq _
  rw [heq]

theorem analyseRecord_failureTypes :
    (analyseRecord p e).failureTypes =
      let recomputed := computePayloadHash p
        (buildCanonicalPayload p (e.auditLogRow.row e.auditLogId))
      failureTypes e recomputed (computeRowHash p e.chainVersion e.sequenceNumber e.auditLogId
        e.storedPrevHash recomputed) := by
  unfold analyseRecord
  obtain ⟨cause, rep, risk, heq⟩ := classifyRecord_eq _
  rw [heq]

theorem analyseRecord_repairable (h : (analyseRecord p e).repairable = true) :
    (analyseRecord p e).tamperMarkerDetected = true := by
  unfold analyseRecord at h ⊢
  have hmarker := classifyRecord_repairable h
  obtain ⟨cause, rep, risk, heq⟩ := classifyRecord_eq _
  rw [heq]
  exact hmarker

theorem analyseRecord_mutated (hpayload : .canonicalPayloadHash ∈ (analyseRecord p e).failureTypes)
    (hmarker : (analyseRecord p e).tamperMarkerDetected = false) :
    (analyseRecord p e).suspectedRootCause = .auditLogMutated := by
  unfold analyseRecord at hpayload hmarker ⊢
  obtain ⟨cause, rep, risk, heq⟩ := classifyRecord_eq _
  rw [heq] at hpayload hmarker
  exact classifyRecord_mutated hpayload hmarker

/-! ## The verdict and the records -/

/-- An analysis as the scan hands it over: of some evidence, with or without a gap. -/
def Produced (p : Primitives) (a : FailedRecordAnalysis) : Prop :=
  ∃ e, a = analyseRecord p e ∨ a = (analyseRecord p e).withGap

theorem Produced.not_repairable {a : FailedRecordAnalysis} (h : Produced p a)
    (hmarker : a.tamperMarkerDetected = false) : a.repairable = false := by
  by_contra hrep
  have htrue : a.repairable = true := by simpa using hrep
  obtain ⟨e, rfl | rfl⟩ := h
  · rw [analyseRecord_repairable htrue] at hmarker
    cases hmarker
  · rw [FailedRecordAnalysis.withGap_repairable] at htrue
    rw [FailedRecordAnalysis.withGap_tamperMarkerDetected, analyseRecord_repairable htrue]
      at hmarker
    cases hmarker

theorem Produced.mutated {a : FailedRecordAnalysis} (h : Produced p a)
    (hpayload : .canonicalPayloadHash ∈ a.failureTypes) (hmarker : a.tamperMarkerDetected = false) :
    a.suspectedRootCause = .auditLogMutated := by
  obtain ⟨e, rfl | rfl⟩ := h
  · exact analyseRecord_mutated hpayload hmarker
  · rw [FailedRecordAnalysis.withGap_tamperMarkerDetected] at hmarker
    rw [FailedRecordAnalysis.withGap_suspectedRootCause]
    rw [FailedRecordAnalysis.withGap_failureTypes] at hpayload
    rcases List.mem_cons.mp hpayload with hgap | hmem
    · cases hgap
    · exact analyseRecord_mutated hmem hmarker

variable {failed : List FailedRecordAnalysis}

/-- Produced analyses look like drift exactly when there are three or more of one decision
type, all canonical mismatches without a marker. -/
theorem looksLikeDrift_iff (hproduced : ∀ a ∈ failed, Produced p a) :
    looksLikeDrift failed = true ↔
      3 ≤ failed.length ∧ (decisionTypes failed).length = 1 ∧
        ∀ a ∈ failed, .canonicalPayloadHash ∈ a.failureTypes ∧ a.tamperMarkerDetected = false := by
  unfold looksLikeDrift
  simp only [decide_eq_true_eq, Bool.not_eq_true]
  constructor
  · rintro ⟨hlen, htypes, hall, -⟩
    exact ⟨hlen, htypes, hall⟩
  · rintro ⟨hlen, htypes, hall⟩
    refine ⟨hlen, htypes, hall, fun c hc => ?_⟩
    -- every unmarked mismatch is classified as a mutation
    unfold causes at hc
    rw [List.mem_dedup, List.mem_map] at hc
    obtain ⟨a, ha, rfl⟩ := hc
    rw [(hproduced a ha).mutated (hall a ha).1 (hall a ha).2]
    exact List.mem_cons_self

/-- Away from the heuristic a verdict that allows a repair rests on repairable records. -/
theorem repairable_of_allowed (hdrift : looksLikeDrift failed = false)
    (hallowed : (classifyChainRootCause failed).repairAllowed = true) :
    ∀ a ∈ failed, a.repairable = true := by
  unfold classifyChainRootCause at hallowed
  by_cases hnil : failed = []
  · simp [hnil]
  · rw [if_neg hnil] at hallowed
    simp only [hdrift, Bool.false_eq_true, if_false] at hallowed
    split at hallowed
    · simp only [Bool.and_eq_true] at hallowed
      exact List.all_eq_true.mp hallowed.1.1
    · cases hallowed

theorem allowed_of_drift (hdrift : looksLikeDrift failed = true) :
    (classifyChainRootCause failed).repairAllowed = !productionInvolved failed := by
  unfold classifyChainRootCause
  have hne : failed ≠ [] := by
    intro hnil
    subst hnil
    simp [looksLikeDrift] at hdrift
  rw [if_neg hne]
  simp only [hdrift, if_true]

/-- **A verdict that allows a repair rests on repairable records exactly when the records
do not look like drift, or production was involved.** -/
theorem repair_allowed_iff (hproduced : ∀ a ∈ failed, Produced p a) :
    ((classifyChainRootCause failed).repairAllowed = true → ∀ a ∈ failed, a.repairable = true) ↔
      failed.length < 3 ∨ (decisionTypes failed).length ≠ 1 ∨
        (∃ a ∈ failed, .canonicalPayloadHash ∉ a.failureTypes ∨ a.tamperMarkerDetected = true) ∨
        ∃ a ∈ failed, a.productionExecuted = some true := by
  have hinvolved : productionInvolved failed = true ↔
      ∃ a ∈ failed, a.productionExecuted = some true := by
    simp [productionInvolved]
  cases hdrift : looksLikeDrift failed with
  | false =>
    have hnot := mt (looksLikeDrift_iff hproduced).mpr (by simp [hdrift])
    constructor
    · intro _
      by_contra hcon
      simp only [not_or, not_exists, not_and, not_lt, not_not, Bool.not_eq_true] at hcon
      exact hnot ⟨hcon.1, hcon.2.1, hcon.2.2.1⟩
    · intro _ hallowed
      exact repairable_of_allowed hdrift hallowed
  | true =>
    obtain ⟨hlen, htypes, hall⟩ := (looksLikeDrift_iff hproduced).mp hdrift
    rw [allowed_of_drift hdrift]
    constructor
    · intro h
      by_cases hprod : productionInvolved failed = true
      · exact Or.inr (Or.inr (Or.inr (hinvolved.mp hprod)))
      · -- the records are unmarked, so none of them is repairable
        have hrep := h (by simp [hprod])
        obtain ⟨a, ha⟩ := List.exists_mem_of_length_pos (by omega : 0 < failed.length)
        have hnot := (hproduced a ha).not_repairable (hall a ha).2
        rw [hrep a ha] at hnot
        cases hnot
    · rintro (hlt | hne | ⟨a, ha, hcanon | hmarked⟩ | hprod) hallowed
      · omega
      · exact absurd htypes hne
      · exact absurd (hall a ha).1 hcanon
      · rw [(hall a ha).2] at hmarked
        cases hmarked
      · rw [hinvolved.mpr hprod] at hallowed
        cases hallowed

/-- Three logs of one decision type, each changed after its record was written. -/
def driftRecords : List FailedRecordAnalysis :=
  [1, 2, 3].map fun n => analyseRecord openDigests
    { sequenceNumber := n
      auditLogId := ⟨n.toNat⟩
      auditLogRow :=
        { (sampleEvent "t1").log sampleTime with
          decisionType := some "qa", summary := some "rewritten" }
      storedCanonicalPayloadHash := "payload"
      storedRowHash := "row"
      storedPrevHash := none
      signatureStatus := .signed
      expectedPrevRecordHash := none
      chainVersion := chainVersion }

theorem driftRecords_produced : ∀ a ∈ driftRecords, Produced openDigests a := by
  intro a ha
  obtain ⟨n, -, rfl⟩ := List.mem_map.mp ha
  exact ⟨_, Or.inl rfl⟩

theorem drift_repair_allowed :
    (∀ a ∈ driftRecords, Produced openDigests a) ∧
      (classifyChainRootCause driftRecords).repairAllowed = true ∧
      ∀ a ∈ driftRecords, a.suspectedRootCause = .auditLogMutated ∧ a.repairable = false := by
  refine ⟨driftRecords_produced, ?_, ?_⟩
  · decide +kernel
  · decide +kernel

theorem repair_allowed_iff_drift :
    ((classifyChainRootCause driftRecords).repairAllowed = true →
        ∀ a ∈ driftRecords, a.repairable = true) ↔
      driftRecords.length < 3 ∨ (decisionTypes driftRecords).length ≠ 1 ∨
        (∃ a ∈ driftRecords,
          .canonicalPayloadHash ∉ a.failureTypes ∨ a.tamperMarkerDetected = true) ∨
        ∃ a ∈ driftRecords, a.productionExecuted = some true :=
  repair_allowed_iff driftRecords_produced

/-! ## The scan and the verifier -/

/-- `uq_audit_integrity_sequence`. -/
def AuditDb.UniqueSequences (db : AuditDb) : Prop :=
  ∀ id id' r r', db.records.find? id = some r → db.records.find? id' = some r' →
    r.chainVersion = r'.chainVersion → r.sequenceNumber = r'.sequenceNumber → id = id'

/-- After a linked stretch of the chain comes a record in order whose hashes are right, but
which names no record before it. -/
def MissingLink (p : Primitives) (db : AuditDb) (v : Int) : Prop :=
  ∃ before row after, db.joined v = before ++ row :: after ∧
    (scheme p v).Linked 0 none before ∧
    row.record.sequenceNumber = (scheme p v).endSeq 0 before + 1 ∧
    (scheme p v).valid row = true ∧ 1 < row.record.sequenceNumber ∧ row.record.prevHash = none

variable {v : Int} {n : Int} {h : Option String} {row : JoinedRow} {rows : List JoinedRow}
  {db : AuditDb}

@[simp] theorem scanRow_sequenceNumber :
    (scanRow p v n h row).sequenceNumber = row.record.sequenceNumber := by
  unfold scanRow
  simp only
  split
  · rw [FailedRecordAnalysis.withGap_sequenceNumber, analyseRecord_sequenceNumber]
    rfl
  · rw [analyseRecord_sequenceNumber]
    rfl

theorem failureTypes_eq_nil {x y : String} (hstatus : e.signatureVerificationStatus = "n/a") :
    failureTypes e x y = [] ↔ x = e.storedCanonicalPayloadHash ∧ y = e.storedRowHash ∧
      (e.expectedPrevRecordHash = none ∨ e.storedPrevHash = none ∨
        e.storedPrevHash = e.expectedPrevRecordHash) := by
  unfold failureTypes
  simp only [List.append_eq_nil_iff, ite_eq_right_iff, hstatus]
  simp
  tauto

/-- What the scan checks of a row: a link is missed only where both ends are there. -/
theorem scanRow_failureTypes :
    (scanRow p v n h row).failureTypes = [] ↔
      row.record.sequenceNumber = n + 1 ∧ (scheme p v).valid row = true ∧
        (1 < row.record.sequenceNumber → h = none ∨ row.record.prevHash = none ∨
          row.record.prevHash = h) := by
  rw [valid_iff]
  unfold scanRow
  by_cases hseq : row.record.sequenceNumber = n + 1
  · simp only [ne_eq, hseq, not_true_eq_false, if_false]
    rw [analyseRecord_failureTypes, failureTypes_eq_nil rfl, true_and, ← hseq]
    show _ ∧ _ ∧ ((if 1 < row.record.sequenceNumber then h else none) = none ∨
      row.record.prevHash = none ∨
      row.record.prevHash = if 1 < row.record.sequenceNumber then h else none) ↔ (_ ∧ _) ∧ _
    rw [and_assoc]
    refine and_congr Iff.rfl (and_congr Iff.rfl ?_)
    by_cases hlt : 1 < row.record.sequenceNumber
    · simp [hlt]
    · simp [hlt]
  · simp [hseq, FailedRecordAnalysis.withGap]

theorem scanRows_sequenceNumber {a : FailedRecordAnalysis} (ha : a ∈ scanRows p v n h rows) :
    ∃ row ∈ rows, a.sequenceNumber = row.record.sequenceNumber := by
  induction rows generalizing n h with
  | nil => cases ha
  | cons row rows ih =>
    rw [scanRows] at ha
    have hrest : a ∈ scanRows p v row.record.sequenceNumber (some row.record.rowHash) rows →
        ∃ x ∈ row :: rows, a.sequenceNumber = x.record.sequenceNumber := by
      intro hmem
      obtain ⟨x, hx, heq⟩ := ih hmem
      exact ⟨x, List.mem_cons_of_mem _ hx, heq⟩
    split at ha
    · rcases List.mem_cons.mp ha with rfl | hmem
      · exact ⟨row, List.mem_cons_self, scanRow_sequenceNumber⟩
      · exact hrest hmem
    · exact hrest ha

/-- The scan finds nothing in a linked stretch. -/
theorem scanRows_append {before after : List JoinedRow}
    (hl : (scheme p v).Linked n h before) :
    scanRows p v n h (before ++ after) =
      scanRows p v ((scheme p v).endSeq n before) ((scheme p v).endHash h before) after := by
  induction before generalizing n h with
  | nil => rfl
  | cons row before ih =>
    obtain ⟨hf, hl⟩ := Scheme.linked_cons.mp hl
    obtain ⟨hseq, hvalid, hprev⟩ := Scheme.follows_iff.mp hf
    have hnone : (scanRow p v n h row).failureTypes = [] :=
      scanRow_failureTypes.mpr ⟨hseq, hvalid, fun hlt => Or.inr (Or.inr (hprev hlt))⟩
    rw [List.cons_append, scanRows, if_neg (not_not.mpr hnone), Scheme.endSeq_cons,
      Scheme.endHash_cons]
    exact ih hl

theorem AuditDb.pairwise_joined :
    (db.joined v).Pairwise fun a b => a.record.sequenceNumber ≤ b.record.sequenceNumber :=
  List.pairwise_insertionSort _ _

theorem AuditDb.nodup_joined : ((db.joined v).map JoinedRow.auditLogId).Nodup := by
  have hpairwise : (db.joined v).Pairwise fun a b => a.auditLogId ≠ b.auditLogId := by
    unfold joined
    rw [(List.perm_insertionSort _ _).pairwise_iff fun hab => hab.symm, List.pairwise_filterMap]
    have hkeys := List.pairwise_map.mp (db.records.nodup_keys_filter fun e => e.2.chainVersion = v)
    refine hkeys.imp fun hab x hx y hy heq => hab ?_
    obtain ⟨_, -, rfl⟩ := Option.map_eq_some_iff.mp hx
    obtain ⟨_, -, rfl⟩ := Option.map_eq_some_iff.mp hy
    exact heq
  exact List.pairwise_map.mpr hpairwise

/-- With unique numbers the joined rows are in strict order. -/
theorem AuditDb.strict_joined (hunique : db.UniqueSequences) :
    (db.joined v).Pairwise fun a b => a.record.sequenceNumber < b.record.sequenceNumber := by
  have hids := List.pairwise_map.mp (db.nodup_joined (v := v))
  refine (List.pairwise_and_iff.mpr ⟨db.pairwise_joined (v := v), hids⟩).imp_of_mem ?_
  intro a b ha hb hab
  obtain ⟨hra, hva, -⟩ := mem_joined.mp ha
  obtain ⟨hrb, hvb, -⟩ := mem_joined.mp hb
  have hne : a.record.sequenceNumber ≠ b.record.sequenceNumber :=
    fun heq => hab.2 (hunique _ _ _ _ hra hrb (hva.trans hvb.symm) heq)
  have hle := hab.1
  omega

/-- A record without a link breaks the chain. -/
theorem follows_of_missing {before : List JoinedRow}
    (hseq : row.record.sequenceNumber = (scheme p v).endSeq 0 before + 1)
    (hlt : 1 < row.record.sequenceNumber) (hprev : row.record.prevHash = none) :
    (scheme p v).follows ((scheme p v).endSeq 0 before) ((scheme p v).endHash none before) row =
      false := by
  have hne : before ≠ [] := by
    intro hnil
    rw [hnil, Scheme.endSeq_nil] at hseq
    omega
  by_contra hf
  have hlink := (Scheme.follows_iff.mp (by simpa using hf)).2.2 hlt
  have hhash := Scheme.endHash_ne_none (S := scheme p v) (h := none) hne
  exact hhash (hlink.symm.trans hprev)

/-- The scan and the verifier find the same: both nothing, or the same first number. -/
def ScanAgrees (p : Primitives) (k : AuditHmacKeyring) (allow : Bool) (db : AuditDb) (v : Int) :
    Prop :=
  let result := verifyChain p k .chainOnly allow db v
  let seqs := (scan p db v).map FailedRecordAnalysis.sequenceNumber
  (scan p db v = [] ↔ result.status ≠ .failed) ∧
    (scan p db v ≠ [] → result.status = .failed → seqs.min? = result.firstFailureSequence)

/-- **The scan agrees with the verifier exactly when the chain has no missing link.** -/
theorem scan_agrees_iff (p : Primitives) (k : AuditHmacKeyring) (allow : Bool) {db : AuditDb}
    (v : Int) (hunique : db.UniqueSequences) :
    ScanAgrees p k allow db v ↔ ¬ MissingLink p db v := by
  have hfailed : (verifyChain p k .chainOnly allow db v).status = .failed ↔
      ¬ (scheme p v).Linked 0 none (db.joined v) := by
    rw [verifyChain_failed_iff, clean_chainOnly_iff]
  unfold ScanAgrees
  cases hbroken : (scheme p v).firstBroken 0 none (db.joined v) with
  | none =>
    -- the chain is linked: the scan finds nothing, and no link is missing
    have hlinked : (scheme p v).Linked 0 none (db.joined v) := hbroken
    have hscan : scan p db v = [] := by
      unfold scan
      rw [← List.append_nil (db.joined v), scanRows_append hlinked]
      rfl
    refine iff_of_true ⟨?_, ?_⟩ ?_
    · simp [hscan, hfailed, hlinked]
    · simp [hscan]
    · rintro ⟨before, row, after, hrows, -, hseq, -, hlt, hprev⟩
      have hcons := (Scheme.linked_append.mp (hrows ▸ hlinked)).2
      rw [Scheme.linked_cons, follows_of_missing hseq hlt hprev] at hcons
      cases hcons.1
  | some row =>
    obtain ⟨before, after, hrows, hl, hbreak⟩ := Scheme.firstBroken_eq_some.mp hbroken
    have hstatus : (verifyChain p k .chainOnly allow db v).status = .failed := by
      rw [hfailed]
      intro hlinked
      rw [Scheme.Linked, hbroken] at hlinked
      cases hlinked
    have hfirst : (verifyChain p k .chainOnly allow db v).firstFailureSequence =
        some row.record.sequenceNumber := verifyChain_chainOnly_first hbroken
    have hscan : scan p db v = scanRows p v ((scheme p v).endSeq 0 before)
        ((scheme p v).endHash none before) (row :: after) := by
      unfold scan
      rw [hrows, scanRows_append hl]
    have hafter : ∀ x ∈ after, row.record.sequenceNumber < x.record.sequenceNumber := by
      have hstrict := db.strict_joined (v := v) hunique
      rw [hrows] at hstrict
      exact fun x hx => List.rel_of_pairwise_cons (List.pairwise_append.mp hstrict).2.1 hx
    rw [scanRows] at hscan
    by_cases hnone : (scanRow p v ((scheme p v).endSeq 0 before)
        ((scheme p v).endHash none before) row).failureTypes = []
    · -- the scan lets the row pass, and what it finds later has a larger number
      obtain ⟨hseq, hvalid, hlink⟩ := scanRow_failureTypes.mp hnone
      rw [if_neg (not_not.mpr hnone)] at hscan
      refine iff_of_false ?_ (not_not.mpr ?_)
      · rintro ⟨hempty, hmin⟩
        have hne : scan p db v ≠ [] := fun hnil => hempty.mp hnil hstatus
        have hmem := List.min?_mem ((hmin hne hstatus).trans hfirst)
        obtain ⟨a, ha, heq⟩ := List.mem_map.mp hmem
        rw [hscan] at ha
        obtain ⟨x, hx, hax⟩ := scanRows_sequenceNumber ha
        have hlt := hafter x hx
        omega
      · have hlt : 1 < row.record.sequenceNumber := by
          by_contra hle
          have hf : (scheme p v).follows ((scheme p v).endSeq 0 before)
              ((scheme p v).endHash none before) row = true :=
            Scheme.follows_iff.mpr ⟨hseq, hvalid, fun hlt => absurd hlt hle⟩
          rw [hf] at hbreak
          cases hbreak
        have hne : before ≠ [] := by
          intro hnil
          rw [hnil, Scheme.endSeq_nil] at hseq
          omega
        refine ⟨before, row, after, hrows, hl, hseq, hvalid, hlt, ?_⟩
        rcases hlink hlt with hnil | hprev | heq
        · exact absurd hnil (Scheme.endHash_ne_none hne)
        · exact hprev
        · have hf : (scheme p v).follows ((scheme p v).endSeq 0 before)
              ((scheme p v).endHash none before) row = true :=
            Scheme.follows_iff.mpr ⟨hseq, hvalid, fun _ => heq⟩
          rw [hf] at hbreak
          cases hbreak
    · -- the scan reports the row first
      rw [if_pos hnone] at hscan
      refine iff_of_true ⟨?_, fun _ _ => ?_⟩ ?_
      · rw [hscan]
        simp [hstatus]
      · rw [hfirst, hscan, List.map_cons, scanRow_sequenceNumber]
        refine List.min?_eq_some_iff.mpr ⟨List.mem_cons_self, fun m hm => ?_⟩
        rcases List.mem_cons.mp hm with rfl | hm
        · exact le_refl _
        · obtain ⟨a, ha, rfl⟩ := List.mem_map.mp hm
          obtain ⟨x, hx, hax⟩ := scanRows_sequenceNumber ha
          have hlt := hafter x hx
          omega
      · rintro ⟨before', row', after', hrows', hl', hseq, hvalid, hlt, hprev⟩
        obtain ⟨rfl, rfl⟩ := Scheme.break_unique (hrows.symm.trans hrows') hl hbreak hl'
          (follows_of_missing hseq hlt hprev)
        exact hnone (scanRow_failureTypes.mpr ⟨hseq, hvalid, fun _ => Or.inr (Or.inl hprev)⟩)

/-- Two records, the second one re-hashed without the link to the first. -/
def unlinkedRecord (n : Nat) : IntegrityRecord :=
  let log := (sampleEvent "t1").log sampleTime
  let payloadHash := computePayloadHash openDigests (buildCanonicalPayload openDigests
    (log.row ⟨n⟩))
  { chainVersion := chainVersion
    sequenceNumber := n
    prevHash := none
    rowHash := computeRowHash openDigests chainVersion n ⟨n⟩ none payloadHash
    canonicalPayloadHash := payloadHash
    hmacSignature := none
    signingKeyId := none
    signatureStatus := .unsigned
    integrityStatus := .active }

def unlinkedDb : AuditDb :=
  { auditLogs := (Table.empty.insert ⟨1⟩ ((sampleEvent "t1").log sampleTime)).insert ⟨2⟩
      ((sampleEvent "t1").log sampleTime)
    records := (Table.empty.insert ⟨1⟩ (unlinkedRecord 1)).insert ⟨2⟩ (unlinkedRecord 2) }

/-- The rows of that chain. -/
def unlinkedRow (n : Nat) : JoinedRow := ⟨⟨n⟩, unlinkedRecord n, (sampleEvent "t1").log sampleTime⟩

theorem unlinkedDb_joined : unlinkedDb.joined chainVersion = [unlinkedRow 1, unlinkedRow 2] := rfl

theorem valid_unlinkedRow (n : Nat) :
    (scheme openDigests chainVersion).valid (unlinkedRow n) = true :=
  valid_iff.mpr ⟨rfl, rfl⟩

theorem unlinkedDb_unique : unlinkedDb.UniqueSequences := by
  have hfind : ∀ id r, unlinkedDb.records.find? id = some r → r.sequenceNumber = id.value := by
    intro id r hr
    unfold unlinkedDb at hr
    rw [Table.find?_insert, Table.find?_insert, Table.find?_empty] at hr
    split at hr
    · next hid =>
      obtain rfl := Option.some.inj hr
      rw [hid]
      rfl
    · split at hr
      · next hid =>
        obtain rfl := Option.some.inj hr
        rw [hid]
        rfl
      · cases hr
  intro id id' r r' hr hr' _ heq
  have hid := hfind id r hr
  have hid' := hfind id' r' hr'
  have hvalue : id.value = id'.value := by omega
  exact congrArg Uuid.mk hvalue

theorem unlinked_chain_escapes_scan :
    unlinkedDb.UniqueSequences ∧ scan openDigests unlinkedDb chainVersion = [] ∧
      (verifyChain openDigests firstRing .chainOnly false unlinkedDb chainVersion).status =
        .failed := by
  refine ⟨unlinkedDb_unique, ?_, ?_⟩
  · have hfirst : (scanRow openDigests chainVersion 0 none (unlinkedRow 1)).failureTypes = [] :=
      scanRow_failureTypes.mpr ⟨rfl, valid_unlinkedRow 1, fun _ => Or.inl rfl⟩
    have hsecond : (scanRow openDigests chainVersion 1 (some (unlinkedRow 1).record.rowHash)
        (unlinkedRow 2)).failureTypes = [] :=
      scanRow_failureTypes.mpr ⟨rfl, valid_unlinkedRow 2, fun _ => Or.inr (Or.inl rfl)⟩
    unfold scan
    rw [unlinkedDb_joined, scanRows, if_neg (not_not.mpr hfirst), scanRows]
    exact if_neg (not_not.mpr hsecond)
  · rw [verifyChain_failed_iff, clean_chainOnly_iff, unlinkedDb_joined, Scheme.linked_cons,
      Scheme.linked_cons]
    rintro ⟨-, hfollows, -⟩
    -- the verifier wants the hash of the first row
    have hlink := (Scheme.follows_iff.mp hfollows).2.2 (show (1 : Int) < 2 by omega)
    cases hlink

theorem scan_agrees_iff_unlinked :
    ScanAgrees openDigests firstRing false unlinkedDb chainVersion ↔
      ¬ MissingLink openDigests unlinkedDb chainVersion :=
  scan_agrees_iff openDigests firstRing false chainVersion unlinkedDb_unique

end AiAgentsSwd.Audit
