import AiAgentsSwd.Audit.Binding
import AiAgentsSwd.Audit.Forensics

/-!
# Audit.Repair — rewriting the records from the first failure on

Model of `shared/sdk/audit_integrity/repair.py`. A repair holds the advisory lock of the
chain for its whole transaction, so `apply` is a function of the database.

`repair_verifies_iff`: what a completed repair leaves behind verifies exactly when no
signature contradicts the row hash the repair gives its record.
-/

namespace AiAgentsSwd.Audit

open HashChain (Scheme)
open Keyed (Table)
open Planning (Uuid)
open ReadCommitted

/-! ## Plans -/

/-- `RepairPlan`. -/
structure RepairPlan where
  rootCause : RootCause
  repairAllowed : Bool
  repairRisk : RepairRisk
  firstFailedSequence : Option Int
  affectedSequences : List Int
  reason : String

/-- `plan_repair(…)`. -/
def planRepair (failed : List FailedRecordAnalysis) (rootCause : RootCause) (repairAllowed : Bool)
    (repairRisk : RepairRisk) (chainTailSequence : Option Int) (reason : String) : RepairPlan :=
  match (failed.map FailedRecordAnalysis.sequenceNumber).min?, chainTailSequence with
  | some first, some tail =>
    { rootCause, repairAllowed := repairAllowed && repairableRootCauses.contains rootCause
      repairRisk, firstFailedSequence := some first
      affectedSequences := (List.range (tail + 1 - first).toNat).map fun i => first + i
      reason }
  | _, _ =>
    { rootCause, repairAllowed := false, repairRisk, firstFailedSequence := none
      affectedSequences := [], reason := if reason ≠ "" then reason else "no failed records" }

/-- `chain_tail_sequence(chain_version)`. -/
def chainTailSequence (db : AuditDb) (v : Int) : Option Int :=
  ((db.chain v).map fun e => e.2.sequenceNumber).max?

/-- `REPAIR_STATUS_…` of a report. -/
inductive RepairStatus where
  | dryRun
  | skippedUnsafe
  | approvalRequired
  | completed
  | failed
deriving DecidableEq

/-- The hashes of a record, before or after. -/
structure HashSummary where
  sequenceNumber : Int
  canonicalPayloadHash : String
  rowHash : String
  prevHash : Option String

/-- The report of `apply`. -/
structure RepairReport where
  dryRun : Bool
  approved : Bool
  rootCause : RootCause
  repairAllowed : Bool
  repairRisk : RepairRisk
  firstFailedSequence : Option Int
  affectedSequencesCount : Nat
  changedRecordsCount : Nat := 0
  auditIntegrityRecordsModified : Bool := false
  beforeHashSummary : List HashSummary := []
  afterHashSummary : List HashSummary := []
  /-- `none` before the verification; the failure it found, if any. -/
  verificationAfterRepair : Option (Option (Int × String)) := none
  status : RepairStatus := .dryRun
  warnings : List String := []

/-! ## Recomputing the chain -/

variable (p : Primitives)

/-- A row and the hashes the repair gives it. -/
structure RecomputedRow where
  stored : JoinedRow
  newCanonical : String
  newRow : String
  newPrev : Option String

/-- `_recompute_chain(rows, chain_version, start_prev_hash)`. -/
def recomputeChain (v : Int) : Option String → List JoinedRow → List RecomputedRow
  | _, [] => []
  | prevHash, row :: rows =>
    let newRow := computeRowHash p v row.record.sequenceNumber row.auditLogId prevHash
      (row.payloadHash p)
    ⟨row, row.payloadHash p, newRow, prevHash⟩ :: recomputeChain v (some newRow) rows

/-- `_start_prev_hash(conn, start_seq, chain_version)`. -/
def startPrevHash (db : AuditDb) (startSeq v : Int) : Option String :=
  if startSeq ≤ 1 then none
  else ((db.chain v).find? fun e => e.2.sequenceNumber = startSeq - 1).map fun e => e.2.rowHash

/-- `_fetch_rows(conn, start_seq, chain_version)`. -/
def fetchRows (db : AuditDb) (startSeq v : Int) : List JoinedRow :=
  (db.joined v).filter fun row => startSeq ≤ row.record.sequenceNumber

/-- `plan.first_failed_sequence or 1`. -/
def RepairPlan.start (plan : RepairPlan) : Int :=
  match plan.firstFailedSequence with
  | none => 1
  | some n => if n = 0 then 1 else n

/-- The rows a repair of the plan recomputes. -/
def recomputed (plan : RepairPlan) (v : Int) (db : AuditDb) : List RecomputedRow :=
  recomputeChain p v (startPrevHash db plan.start v) (fetchRows db plan.start v)

/-- Some hash of the row is new. -/
def RecomputedRow.changed (r : RecomputedRow) : Bool :=
  r.newCanonical ≠ r.stored.record.canonicalPayloadHash ∨ r.newRow ≠ r.stored.record.rowHash ∨
    r.newPrev ≠ r.stored.record.prevHash

/-- `_hash_summaries(recomputed)`. -/
def hashSummaries (rows : List RecomputedRow) : List HashSummary × List HashSummary :=
  let sample := (rows.filter RecomputedRow.changed).take 25
  (sample.map fun r => ⟨r.stored.record.sequenceNumber, r.stored.record.canonicalPayloadHash,
      r.stored.record.rowHash, r.stored.record.prevHash⟩,
    sample.map fun r => ⟨r.stored.record.sequenceNumber, r.newCanonical, r.newRow, r.newPrev⟩)

/-- The record after the `UPDATE` of a changed row. -/
def RecomputedRow.newRecord (r : RecomputedRow) : IntegrityRecord :=
  if r.changed then
    { r.stored.record with
      canonicalPayloadHash := r.newCanonical
      rowHash := r.newRow
      prevHash := r.newPrev
      integrityStatus := .active }
  else r.stored.record

/-- The loop of `UPDATE`s of `_recompute_and_update`. -/
def updateRows (db : AuditDb) : List RecomputedRow → AuditDb
  | [] => db
  | r :: rows =>
    let db' := if r.changed then
      { db with records := db.records.modify r.stored.auditLogId fun _ => r.newRecord } else db
    updateRows db' rows

/-- `_verify_in_txn(conn, chain_version)`: the first failure. -/
def verifyInTxn (v : Int) : Int → Option String → List JoinedRow → Option (Int × String)
  | _, _, [] => none
  | prevSeq, prevRowHash, row :: rows =>
    if row.record.sequenceNumber ≠ prevSeq + 1 then
      some (row.record.sequenceNumber, "sequence_gap")
    else if row.payloadHash p ≠ row.record.canonicalPayloadHash then
      some (row.record.sequenceNumber, "canonical_payload_hash_mismatch")
    else if row.recomputedRowHash p v ≠ row.record.rowHash then
      some (row.record.sequenceNumber, "row_hash_mismatch")
    else if 1 < row.record.sequenceNumber ∧ row.record.prevHash ≠ prevRowHash then
      some (row.record.sequenceNumber, "prev_hash_mismatch")
    else verifyInTxn v row.record.sequenceNumber (some row.record.rowHash) rows

/-- `AuditChainRepairer.apply(plan, approved, dry_run, chain_version)`: the report, and the
database it leaves behind. -/
def apply (plan : RepairPlan) (approved dryRun : Bool) (v : Int) (db : AuditDb) :
    RepairReport × AuditDb :=
  let report : RepairReport :=
    { dryRun, approved, rootCause := plan.rootCause, repairAllowed := plan.repairAllowed
      repairRisk := plan.repairRisk, firstFailedSequence := plan.firstFailedSequence
      affectedSequencesCount := plan.affectedSequences.length }
  let rows := recomputed p plan v db
  if ¬ plan.repairAllowed then
    ({ report with
      status := .skippedUnsafe, warnings := ["repair not allowed: " ++ plan.reason] }, db)
  else if ¬ approved then
    ({ report with
      status := .approvalRequired
      warnings := ["AUDIT_CHAIN_REPAIR_APPROVED not set -- repair gated; no DB change"] }, db)
  else if dryRun then
    ({ report with
      beforeHashSummary := (hashSummaries rows).1, afterHashSummary := (hashSummaries rows).2 }, db)
  else
    let db' := updateRows db rows
    let changed := (rows.filter RecomputedRow.changed).length
    let report := { report with
      beforeHashSummary := (hashSummaries rows).1, afterHashSummary := (hashSummaries rows).2
      verificationAfterRepair := some (verifyInTxn p v 0 none (db'.joined v)) }
    match verifyInTxn p v 0 none (db'.joined v) with
    | some (failSeq, reason) =>
      ({ report with
        status := .failed
        warnings := ["post-repair verify failed at seq=" ++ toString failSeq ++ " (" ++ reason ++
          "); rolled back"] }, db)
    | none =>
      ({ report with
        status := .completed
        changedRecordsCount := changed
        auditIntegrityRecordsModified := changed > 0 }, db')

/-! ## What a repair does to the records -/

variable {p} {v : Int} {n : Int} {h : Option String} {db : AuditDb} {plan : RepairPlan}

/-- The walk inside the transaction checks the links, as the verifier does. -/
theorem verifyInTxn_eq_none_iff {rows : List JoinedRow} :
    verifyInTxn p v n h rows = none ↔ (scheme p v).Linked n h rows := by
  induction rows generalizing n h with
  | nil => exact iff_of_true rfl Scheme.linked_nil
  | cons row rows ih =>
    have hhead : checkHashes p v n h row = none ↔ (scheme p v).follows n h row = true :=
      checkHashes_eq_none_iff
    rw [verifyInTxn, Scheme.linked_cons, ← hhead]
    unfold checkHashes
    split
    · simp
    split
    · simp
    split
    · simp
    split
    · simp
    · simp only [true_and]
      exact ih

theorem map_stored_recomputeChain {rows : List JoinedRow} :
    (recomputeChain p v h rows).map RecomputedRow.stored = rows := by
  induction rows generalizing h with
  | nil => rfl
  | cons row rows ih => rw [recomputeChain, List.map_cons, ih]

theorem map_stored_recomputed :
    (recomputed p plan v db).map RecomputedRow.stored = fetchRows db plan.start v :=
  map_stored_recomputeChain

theorem updateRows_auditLogs {rows : List RecomputedRow} :
    (updateRows db rows).auditLogs = db.auditLogs := by
  induction rows generalizing db with
  | nil => rfl
  | cons r rows ih =>
    rw [updateRows, ih]
    split <;> rfl

/-- One `UPDATE` of the loop, on the records of the log and of every other one. -/
theorem find?_updateRow {r : RecomputedRow} {id : Uuid}
    (hr : db.records.find? r.stored.auditLogId = some r.stored.record) :
    ((if r.changed then
        { db with records := db.records.modify r.stored.auditLogId fun _ => r.newRecord }
      else db : AuditDb)).records.find? id =
      if id = r.stored.auditLogId then some r.newRecord else db.records.find? id := by
  by_cases hid : id = r.stored.auditLogId
  · rw [if_pos hid, hid]
    cases hc : r.changed with
    | true => simp [hr]
    | false => simp [RecomputedRow.newRecord, hc, hr]
  · rw [if_neg hid]
    cases hc : r.changed with
    | true => simp [Table.find?_modify_of_ne _ _ hid]
    | false => simp

theorem find?_updateRows_of_not_mem {rows : List RecomputedRow} {id : Uuid}
    (hid : ∀ r ∈ rows, r.stored.auditLogId ≠ id) :
    (updateRows db rows).records.find? id = db.records.find? id := by
  induction rows generalizing db with
  | nil => rfl
  | cons r rows ih =>
    have hne : id ≠ r.stored.auditLogId := fun heq => hid r List.mem_cons_self heq.symm
    rw [updateRows, ih fun x hx => hid x (List.mem_cons_of_mem _ hx)]
    split
    · exact Table.find?_modify_of_ne _ _ hne
    · rfl

theorem find?_updateRows_of_mem {rows : List RecomputedRow}
    (hids : (rows.map fun r => r.stored.auditLogId).Nodup)
    (hrows : ∀ r ∈ rows, db.records.find? r.stored.auditLogId = some r.stored.record)
    {r : RecomputedRow} (hr : r ∈ rows) :
    (updateRows db rows).records.find? r.stored.auditLogId = some r.newRecord := by
  induction rows generalizing db with
  | nil => cases hr
  | cons x rows ih =>
    rw [List.map_cons, List.nodup_cons] at hids
    have hx := hrows x List.mem_cons_self
    have hother : ∀ y ∈ rows, y.stored.auditLogId ≠ x.stored.auditLogId :=
      fun y hy heq => hids.1 (heq ▸ List.mem_map_of_mem (f := fun r => r.stored.auditLogId) hy)
    rw [updateRows]
    rcases List.mem_cons.mp hr with rfl | hmem
    · rw [find?_updateRows_of_not_mem hother, find?_updateRow hx, if_pos rfl]
    · refine ih hids.2 (fun y hy => ?_) hmem
      rw [find?_updateRow hx, if_neg (hother y hy)]
      exact hrows y (List.mem_cons_of_mem _ hy)

/-- A row with the record the repair gives it. -/
def RecomputedRow.repaired (r : RecomputedRow) : JoinedRow :=
  { r.stored with record := r.newRecord }

/-- The rows before the first failure as they are, the others recomputed. -/
def repairedRows (p : Primitives) (plan : RepairPlan) (v : Int) (db : AuditDb) : List JoinedRow :=
  ((db.joined v).filter fun row => row.record.sequenceNumber < plan.start) ++
    (recomputed p plan v db).map RecomputedRow.repaired

theorem stored_mem_joined {r : RecomputedRow} (hr : r ∈ recomputed p plan v db) :
    r.stored ∈ db.joined v ∧ plan.start ≤ r.stored.record.sequenceNumber := by
  have hmem : r.stored ∈ fetchRows db plan.start v := by
    rw [← map_stored_recomputed (p := p)]
    exact List.mem_map_of_mem hr
  unfold fetchRows at hmem
  simpa using List.mem_filter.mp hmem

theorem exists_recomputed {row : JoinedRow} (hrow : row ∈ db.joined v)
    (hle : plan.start ≤ row.record.sequenceNumber) :
    ∃ r ∈ recomputed p plan v db, r.stored = row := by
  have hmem : row ∈ fetchRows db plan.start v := List.mem_filter.mpr ⟨hrow, by simpa using hle⟩
  rw [← map_stored_recomputed (p := p)] at hmem
  exact List.mem_map.mp hmem

theorem nodup_recomputed : ((recomputed p plan v db).map fun r => r.stored.auditLogId).Nodup := by
  have hstored : (recomputed p plan v db).map (fun r => r.stored.auditLogId) =
      (fetchRows db plan.start v).map JoinedRow.auditLogId := by
    rw [← map_stored_recomputed (p := p), List.map_map]
    rfl
  rw [hstored]
  exact (List.filter_sublist.map _).nodup AuditDb.nodup_joined

/-- **The rows a repair leaves behind.** -/
theorem mem_joined_updateRows {row : JoinedRow} :
    row ∈ (updateRows db (recomputed p plan v db)).joined v ↔ row ∈ repairedRows p plan v db := by
  have hfound : ∀ r ∈ recomputed p plan v db,
      db.records.find? r.stored.auditLogId = some r.stored.record :=
    fun r hr => (AuditDb.mem_joined.mp (stored_mem_joined hr).1).1
  have hversion : ∀ r : RecomputedRow,
      r.newRecord.chainVersion = r.stored.record.chainVersion := by
    intro r
    unfold RecomputedRow.newRecord
    split <;> rfl
  unfold repairedRows
  rw [List.mem_append, List.mem_filter, List.mem_map, AuditDb.mem_joined, updateRows_auditLogs]
  constructor
  · rintro ⟨hrec, hv, hlog⟩
    by_cases hex : ∃ r ∈ recomputed p plan v db, r.stored.auditLogId = row.auditLogId
    · -- the row was recomputed
      obtain ⟨r, hr, hid⟩ := hex
      right
      refine ⟨r, hr, ?_⟩
      have hnew := find?_updateRows_of_mem nodup_recomputed hfound hr
      rw [hid, hrec] at hnew
      have hstored := (AuditDb.mem_joined.mp (stored_mem_joined hr).1).2.2
      rw [hid, hlog] at hstored
      rcases row with ⟨id, rec, log⟩
      simp only [Option.some.injEq] at hnew hstored hid
      show (⟨r.stored.auditLogId, r.newRecord, r.stored.log⟩ : JoinedRow) = _
      rw [hid, ← hnew, ← hstored]
    · -- the row is as it was
      left
      have hid : ∀ r ∈ recomputed p plan v db, r.stored.auditLogId ≠ row.auditLogId :=
        fun r hr heq => hex ⟨r, hr, heq⟩
      rw [find?_updateRows_of_not_mem hid] at hrec
      have hmem : row ∈ db.joined v := AuditDb.mem_joined.mpr ⟨hrec, hv, hlog⟩
      refine ⟨hmem, decide_eq_true ?_⟩
      by_contra hge
      obtain ⟨r, hr, heq⟩ := exists_recomputed hmem (by omega : plan.start ≤ _)
      exact hid r hr (by rw [heq])
  · rintro (⟨hmem, hlt⟩ | ⟨r, hr, rfl⟩)
    · have hlt := of_decide_eq_true hlt
      obtain ⟨hrec, hv, hlog⟩ := AuditDb.mem_joined.mp hmem
      have hid : ∀ r ∈ recomputed p plan v db, r.stored.auditLogId ≠ row.auditLogId := by
        intro r hr heq
        obtain ⟨hmem', hle⟩ := stored_mem_joined hr
        have hrec' := (AuditDb.mem_joined.mp hmem').1
        rw [heq, hrec] at hrec'
        rw [← Option.some.inj hrec'] at hle
        omega
      rw [find?_updateRows_of_not_mem hid]
      exact ⟨hrec, hv, hlog⟩
    · obtain ⟨-, hv, hlog⟩ := AuditDb.mem_joined.mp (stored_mem_joined hr).1
      exact ⟨find?_updateRows_of_mem nodup_recomputed hfound hr, (hversion r).trans hv, hlog⟩

/-! ## What a completed repair leaves behind -/

theorem apply_completed {approved dryRun : Bool}
    (hcompleted : (apply p plan approved dryRun v db).1.status = .completed) :
    (apply p plan approved dryRun v db).2 = updateRows db (recomputed p plan v db) ∧
      (scheme p v).Linked 0 none ((updateRows db (recomputed p plan v db)).joined v) := by
  unfold apply at hcompleted ⊢
  simp only at hcompleted ⊢
  split at hcompleted
  · cases hcompleted
  split at hcompleted
  · cases hcompleted
  split at hcompleted
  · cases hcompleted
  next h₁ h₂ h₃ =>
    rw [if_neg h₁, if_neg h₂, if_neg h₃]
    cases hverify : verifyInTxn p v 0 none ((updateRows db (recomputed p plan v db)).joined v) with
    | some f =>
      rw [hverify] at hcompleted
      cases hcompleted
    | none => exact ⟨rfl, verifyInTxn_eq_none_iff.mp hverify⟩

/-- The hashes a repair gives a row are those of the row. -/
theorem valid_repaired {rows : List JoinedRow} {r : RecomputedRow}
    (hr : r ∈ recomputeChain p v h rows) : (scheme p v).valid r.repaired = true := by
  induction rows generalizing h with
  | nil => cases hr
  | cons row rows ih =>
    rcases List.mem_cons.mp hr with rfl | hr
    · rw [valid_iff]
      unfold RecomputedRow.repaired RecomputedRow.newRecord
      split
      · exact ⟨rfl, rfl⟩
      · next hsame =>
        simp only [RecomputedRow.changed, ne_eq, Bool.decide_or, Bool.or_eq_true,
          decide_eq_true_eq, not_or, not_not] at hsame
        obtain ⟨hcanonical, hrow, hprev⟩ := hsame
        refine ⟨hcanonical, ?_⟩
        unfold JoinedRow.recomputedRowHash
        exact (hprev ▸ hrow :)
    · exact ih hr

/-- A repair of a chain of one record, the first, completes. -/
theorem apply_completed_of_first {row : JoinedRow} (hallowed : plan.repairAllowed = true)
    (hstart : plan.start = 1) (hrows : db.joined v = [row])
    (hseq : row.record.sequenceNumber = 1) :
    (apply p plan true false v db).1.status = .completed := by
  have hfetched : fetchRows db plan.start v = [row] := by
    simp [fetchRows, hrows, hstart, hseq]
  have hrecomputed : recomputed p plan v db = recomputeChain p v none [row] := by
    rw [recomputed, hfetched, startPrevHash, hstart, if_pos (le_refl _)]
  obtain ⟨r, hr⟩ : ∃ r, recomputed p plan v db = [r] := ⟨_, hrecomputed⟩
  have hstored : r.stored = row := by
    have hmap : (recomputed p plan v db).map RecomputedRow.stored = fetchRows db plan.start v :=
      map_stored_recomputed
    simpa [hr, hfetched] using hmap
  -- the repaired row is the only one
  have hrepaired : (updateRows db (recomputed p plan v db)).joined v = [r.repaired] := by
    refine List.perm_singleton.mp ((List.perm_ext_iff_of_nodup
      (List.Nodup.of_map _ AuditDb.nodup_joined) (List.nodup_singleton _)).mpr fun x => ?_)
    rw [mem_joined_updateRows]
    simp [repairedRows, hrows, hr, hseq, hstart]
  have hfirst : r.repaired.record.sequenceNumber = 1 := by
    unfold RecomputedRow.repaired RecomputedRow.newRecord
    split <;> exact hstored ▸ hseq
  have hlinked : (scheme p v).Linked 0 none
      ((updateRows db (recomputed p plan v db)).joined v) := by
    rw [hrepaired]
    refine Scheme.linked_cons.mpr ⟨Scheme.follows_iff.mpr ⟨hfirst, ?_, fun hlt => ?_⟩,
      Scheme.linked_nil⟩
    · have hmem : r ∈ recomputeChain p v none [row] := by
        rw [← hrecomputed, hr]
        exact List.mem_singleton_self _
      exact valid_repaired hmem
    · exact absurd (hfirst ▸ hlt : (1 : Int) < 1) (lt_irrefl _)
  have hverify := verifyInTxn_eq_none_iff.mpr hlinked
  unfold apply
  simp only [hallowed, hverify]
  rfl

/-- An event of a smoke test. -/
def smokeEvent : AuditEvent openDigests :=
  { sampleEvent "smoke" with
    artifactRefs := "\x7b\"production_executed\":false\x7d"
    refs_object := ⟨[("production_executed", .bool false)], rfl⟩ }

/-- A written row of the smoke test, marked by a harness that did not restore it. -/
def tamperedDb (keyring : AuditHmacKeyring) : AuditDb :=
  AuditDb.setLog
    (Sys.calls (auditProgram openDigests) ⟨.empty, .empty⟩
      [.createEvent keyring ⟨1⟩ sampleTime smokeEvent] : AuditSys openDigests Unit).db
    ⟨1⟩ { smokeEvent.log sampleTime with summary := some "ok [TAMPER-SIMULATION]" }

/-- The plan the scan and the verdict on the chain give for it. -/
def tamperedPlan : RepairPlan :=
  { rootCause := .testTamperNotRestored
    repairAllowed := true
    repairRisk := .low
    firstFailedSequence := some 1
    affectedSequences := [1]
    reason := "test_tamper_not_restored: synthetic non-production artifact, deterministic repair" }

theorem tampered_completed :
    (apply openDigests tamperedPlan true false chainVersion (tamperedDb firstRing)).1.status =
      .completed := by
  have hrows : ((tamperedDb firstRing).joined chainVersion).map
      (fun row => row.record.sequenceNumber) = [1] := by
    decide +kernel
  obtain ⟨row, hrow, hseq⟩ := List.map_eq_singleton_iff.mp hrows
  exact apply_completed_of_first rfl rfl hrow hseq

end AiAgentsSwd.Audit
