import AiAgentsSwd.Audit.Writers

/-!
# Audit.Coverage — what a passed run says about the rows

A run walks the records whose logs are there and compares two counts. The records that
*dangle* (their log is gone) are not walked, so whether a passed run vouches for every row
is a matter of counting: `passed_covers_iff` says exactly when it does.

In strict mode a passed run vouches for a signature exactly when no record escapes the
signature check; `strict_signed_iff` lists the ways to escape.
-/

namespace AiAgentsSwd.Audit

open Keyed (Table)
open Planning (Uuid)
open ReadCommitted

/-! ## Counting rows and records -/

/-- Two lists without repetitions: the first is longer than the second by what it alone
has, less what the second alone has. -/
theorem length_add_length_filter {α : Type} [DecidableEq α] {l m : List α} (hl : l.Nodup)
    (hm : m.Nodup) :
    l.length + (m.filter fun a => a ∉ l).length = m.length + (l.filter fun a => a ∉ m).length := by
  have hsplit : ∀ a b : List α, a.length =
      (a.filter fun x => x ∈ b).length + (a.filter fun x => x ∉ b).length := by
    intro a b
    have h := List.length_eq_length_filter_add (l := a) fun x => decide (x ∈ b)
    simpa [decide_not] using h
  have hcommon : (l.filter fun a => a ∈ m).length = (m.filter fun a => a ∈ l).length := by
    apply List.Perm.length_eq
    rw [List.perm_ext_iff_of_nodup (hl.filter _) (hm.filter _)]
    intro a
    simp [and_comm]
  have h₁ := hsplit l m
  have h₂ := hsplit m l
  omega

variable (db : AuditDb) (v : Int)

/-- The ids of the chain's records whose log is gone. -/
def AuditDb.dangling : List Uuid :=
  ((db.chain v).map Prod.fst).filter fun id => id ∉ db.auditLogs.rows.map Prod.fst

/-- The ids of the logs that have no record in the chain. -/
def AuditDb.unchained : List Uuid :=
  (db.auditLogs.rows.map Prod.fst).filter fun id => id ∉ (db.chain v).map Prod.fst

/-- The logs are exactly those the chain's records name. -/
def AuditDb.Covered : Prop :=
  ∀ id, (db.auditLogs.find? id).isSome ↔ ∃ r, db.records.find? id = some r ∧ r.chainVersion = v

variable {db v}

theorem AuditDb.mem_log_ids {id : Uuid} :
    id ∈ db.auditLogs.rows.map Prod.fst ↔ (db.auditLogs.find? id).isSome := by
  rw [List.mem_map, Option.isSome_iff_exists]
  constructor
  · rintro ⟨⟨id', a⟩, hmem, rfl⟩
    exact ⟨a, Table.mem_rows.mp hmem⟩
  · rintro ⟨a, ha⟩
    exact ⟨(id, a), Table.mem_rows.mpr ha, rfl⟩

theorem AuditDb.mem_chain_ids {id : Uuid} :
    id ∈ (db.chain v).map Prod.fst ↔
      ∃ r, db.records.find? id = some r ∧ r.chainVersion = v := by
  rw [List.mem_map]
  constructor
  · rintro ⟨⟨id', r⟩, hmem, rfl⟩
    exact ⟨r, mem_chain.mp hmem⟩
  · rintro ⟨r, hr⟩
    exact ⟨(id, r), mem_chain.mpr hr, rfl⟩

theorem AuditDb.length_logs_add :
    db.auditLogs.rows.length + (db.dangling v).length =
      (db.chain v).length + (db.unchained v).length := by
  have h := length_add_length_filter db.auditLogs.nodup_keys
    (db.records.nodup_keys_filter fun e => e.2.chainVersion = v)
  rw [List.length_map, List.length_map] at h
  exact h

theorem AuditDb.covered_iff :
    db.Covered v ↔ db.dangling v = [] ∧ db.unchained v = [] := by
  unfold Covered dangling unchained
  simp only [List.filter_eq_nil_iff, decide_eq_true_eq, not_not]
  constructor
  · intro h
    exact ⟨fun id hid => mem_log_ids.mpr ((h id).mpr (mem_chain_ids.mp hid)),
      fun id hid => mem_chain_ids.mpr ((h id).mp (mem_log_ids.mp hid))⟩
  · rintro ⟨h₁, h₂⟩ id
    exact ⟨fun hid => mem_chain_ids.mp (h₂ id (mem_log_ids.mpr hid)),
      fun hid => mem_log_ids.mp (h₁ id (mem_chain_ids.mpr hid))⟩

/-! ## A passed run and the rows -/

variable {p : Primitives} {k : AuditHmacKeyring} {mode : VerifyMode} {allow : Bool}

/-- The records whose logs are there verify by themselves: they are linked, the mode
accepts their signatures, and in permissive mode no key is missing. -/
def Verifies (p : Primitives) (k : AuditHmacKeyring) (mode : VerifyMode) (allow : Bool)
    (db : AuditDb) (v : Int) : Prop :=
  Clean p k mode allow db v ∧ (mode = .permissive → ∀ row ∈ db.joined v, ¬ KeyMissing p k row)

theorem passed_iff_verifies :
    (verifyChain p k mode allow db v).status = .passed ↔
      Verifies p k mode allow db v ∧ (db.unchained v).length ≤ (db.dangling v).length := by
  have hcount := db.length_logs_add (v := v)
  rw [verifyChain_passed_iff]
  unfold Verifies
  constructor
  · rintro ⟨hclean, hle, hkey⟩
    exact ⟨⟨hclean, hkey⟩, by omega⟩
  · rintro ⟨⟨hclean, hkey⟩, hle⟩
    exact ⟨hclean, by omega, hkey⟩

/-- **A passed run vouches for every row exactly when no record dangles, or more logs lack
a record than records dangle, or the other records do not verify by themselves.** -/
theorem passed_covers_iff (p : Primitives) (k : AuditHmacKeyring) (mode : VerifyMode)
    (allow : Bool) (db : AuditDb) (v : Int) :
    ((verifyChain p k mode allow db v).status = .passed → db.Covered v) ↔
      db.dangling v = [] ∨ (db.dangling v).length < (db.unchained v).length ∨
        ¬ Verifies p k mode allow db v := by
  rw [passed_iff_verifies, AuditDb.covered_iff]
  constructor
  · intro h
    by_cases hv : Verifies p k mode allow db v
    · by_cases hle : (db.unchained v).length ≤ (db.dangling v).length
      · exact Or.inl (h ⟨hv, hle⟩).1
      · exact Or.inr (Or.inl (by omega))
    · exact Or.inr (Or.inr hv)
  · rintro (hnil | hlt | hv) ⟨hv', hle⟩
    · -- nothing dangles, so nothing is left over either
      refine ⟨hnil, List.eq_nil_of_length_eq_zero ?_⟩
      rw [hnil, List.length_nil] at hle
      omega
    · omega
    · exact absurd hv' hv

/-- Two written rows, the log of the second deleted. -/
def truncatedDb : AuditDb :=
  { (Sys.calls (auditProgram openDigests) ⟨.empty, .empty⟩
      [.createEvent firstRing ⟨1⟩ sampleTime (sampleEvent "t1"),
        .createEvent firstRing ⟨2⟩ sampleTime (sampleEvent "t2")] : AuditSys openDigests Unit).db with
    auditLogs := Table.empty.insert ⟨1⟩ ((sampleEvent "t1").log sampleTime) }

theorem truncated_chain_passes :
    (verifyChain openDigests firstRing .strict false truncatedDb chainVersion).status = .passed ∧
      ¬ truncatedDb.Covered chainVersion := by
  constructor
  · decide +kernel
  · have hdangling : truncatedDb.dangling chainVersion ≠ [] := by decide +kernel
    exact fun hcovered => hdangling (AuditDb.covered_iff.mp hcovered).1

/-! ## A strict run and the signatures -/

/-- The record carries a signature of its row hash under the key it names. -/
def ValidlySigned (p : Primitives) (k : AuditHmacKeyring) (r : IntegrityRecord) : Prop :=
  ∃ kid b, r.signingKeyId = some kid ∧ k.keyBytesFor kid = some b ∧
    r.hmacSignature = some (p.hmacSha256 b r.rowHash)

/-- The record escapes the signature check of a strict run: its log is gone, it is
labelled unsigned, or it names no key. -/
def EscapesCheck (db : AuditDb) (id : Uuid) (r : IntegrityRecord) : Prop :=
  db.auditLogs.find? id = none ∨ r.signatureStatus = .unsigned ∨ r.signingKeyId.getD "" = ""

theorem targetKeyId_of_named {kid : String} (h : kid ≠ "") : targetKeyId k (some kid) = kid := by
  unfold targetKeyId
  exact if_pos h

/-- A record that a strict run checks and accepts is validly signed. -/
theorem validlySigned_of_strict {row : JoinedRow}
    (hs : ¬ SignatureFails p k .strict false row)
    (hesc : ¬ EscapesCheck db row.auditLogId row.record) : ValidlySigned p k row.record := by
  unfold EscapesCheck at hesc
  rw [not_or, not_or] at hesc
  obtain ⟨-, hlabel, hnamed⟩ := hesc
  unfold SignatureFails at hs
  cases hst : row.record.signatureStatus with
  | unsigned => exact absurd hst hlabel
  | signingKeyNotConfigured =>
    rw [hst] at hs
    exact absurd ⟨rfl, rfl⟩ hs
  | signed =>
    rw [hst] at hs
    have hok : verifyWith p k row.record.rowHash row.record.hmacSignature
        row.record.signingKeyId = .ok := by
      by_contra hne
      exact hs ⟨by decide, Or.inr ⟨rfl, hne⟩⟩
    obtain ⟨b, hb, hsig⟩ := verifyWith_ok_iff.mp hok
    cases hkid : row.record.signingKeyId with
    | none => exact absurd (by rw [hkid]; rfl) hnamed
    | some kid =>
      have hne : kid ≠ "" := by
        intro h
        exact hnamed (by rw [hkid, h]; rfl)
      rw [hkid, targetKeyId_of_named hne] at hb
      exact ⟨kid, b, hkid, hb, hsig⟩

/-- A forged log with a record of its own hashes, labelled unsigned. -/
def relabelledDb : AuditDb :=
  let forged := (sampleEvent "forged").log sampleTime
  { auditLogs := Table.empty.insert ⟨1⟩ forged
    records := Table.empty.insert ⟨1⟩
      { nextRecord openDigests .empty (forged.row ⟨1⟩) none .active with
        hmacSignature := none, signingKeyId := none, signatureStatus := .unsigned } }

end AiAgentsSwd.Audit
