import AiAgentsSwd.Audit.Repair

/-!
# Audit.RepairEffects — what a repair touches, and when it completes

A repair writes the records whose hashes are new, and only when it completes (`apply_frame`).
It completes exactly when no number is missing and the records before the first failure are
intact (`apply_completed_iff`), and a second one finds nothing to do (`apply_again`).
-/

namespace AiAgentsSwd.Audit

open HashChain (Scheme)
open Keyed (Table)
open Planning (Uuid)

variable {p : Primitives} {v : Int} {n : Int} {h : Option String} {db : AuditDb} {plan : RepairPlan}

/-! ## The frame -/

theorem newRecord_of_changed {r : RecomputedRow} (hr : r.changed = true) :
    r.newRecord = { r.stored.record with
      canonicalPayloadHash := r.newCanonical
      rowHash := r.newRow
      prevHash := r.newPrev
      integrityStatus := .active } := by
  unfold RecomputedRow.newRecord
  rw [if_pos hr]

theorem newRecord_of_unchanged {r : RecomputedRow} (hr : r.changed = false) :
    r.newRecord = r.stored.record := by
  unfold RecomputedRow.newRecord
  rw [if_neg (by simp [hr])]

/-- A changed row gets another record. -/
theorem newRecord_ne {r : RecomputedRow} (hr : r.changed = true) : r.newRecord ≠ r.stored.record := by
  intro heq
  rw [newRecord_of_changed hr] at heq
  have hcanonical := congrArg IntegrityRecord.canonicalPayloadHash heq
  have hrow := congrArg IntegrityRecord.rowHash heq
  have hprev := congrArg IntegrityRecord.prevHash heq
  simp only at hcanonical hrow hprev
  simp [RecomputedRow.changed, hcanonical, hrow, hprev] at hr

theorem find?_of_recomputed {r : RecomputedRow} (hr : r ∈ recomputed p plan v db) :
    db.records.find? r.stored.auditLogId = some r.stored.record :=
  (AuditDb.mem_joined.mp (stored_mem_joined hr).1).1

theorem find?_repaired {r : RecomputedRow} (hr : r ∈ recomputed p plan v db) :
    (updateRows db (recomputed p plan v db)).records.find? r.stored.auditLogId =
      some r.newRecord :=
  find?_updateRows_of_mem nodup_recomputed (fun _ => find?_of_recomputed) hr

/-- The records that differ after the updates are those of the changed rows. -/
theorem differs_iff {id : Uuid} {rec : IntegrityRecord} (hrec : db.records.find? id = some rec) :
    (updateRows db (recomputed p plan v db)).records.find? id ≠ some rec ↔
      ∃ r ∈ recomputed p plan v db, r.changed = true ∧ r.stored.auditLogId = id := by
  constructor
  · intro hne
    by_contra hnone
    push Not at hnone
    refine hne ?_
    by_cases hex : ∃ r ∈ recomputed p plan v db, r.stored.auditLogId = id
    · rcases hex with ⟨r, hr, rfl⟩
      have hsame : r.changed = false := by
        by_contra hc
        exact hnone r hr (by simpa using hc) rfl
      rw [find?_repaired hr, newRecord_of_unchanged hsame, ← find?_of_recomputed hr, hrec]
    · push Not at hex
      rw [find?_updateRows_of_not_mem hex, hrec]
  · rintro ⟨r, hr, hc, rfl⟩ heq
    rw [find?_repaired hr] at heq
    rw [find?_of_recomputed hr] at hrec
    exact newRecord_ne hc ((Option.some.inj heq).trans (Option.some.inj hrec).symm)

/-- The changed rows are counted by the records that differ. -/
theorem length_changed :
    ((recomputed p plan v db).filter RecomputedRow.changed).length =
      db.records.rows.countP fun e =>
        (updateRows db (recomputed p plan v db)).records.find? e.1 ≠ some e.2 := by
  rw [List.countP_eq_length_filter, ← List.length_map (f := fun r => r.stored.auditLogId),
    ← List.length_map (f := Prod.fst)]
  refine List.Perm.length_eq ((List.perm_ext_iff_of_nodup ?_ ?_).mpr fun id => ?_)
  · exact (List.filter_sublist.map _).nodup nodup_recomputed
  · exact db.records.nodup_keys_filter _
  · rw [List.mem_map, List.mem_map]
    constructor
    · rintro ⟨r, hr, rfl⟩
      rw [List.mem_filter] at hr
      have hrec := find?_of_recomputed hr.1
      refine ⟨(r.stored.auditLogId, r.stored.record), List.mem_filter.mpr ⟨?_, ?_⟩, rfl⟩
      · exact Table.mem_rows.mpr hrec
      · exact decide_eq_true ((differs_iff hrec).mpr ⟨r, hr.1, hr.2, rfl⟩)
    · rintro ⟨e, he, rfl⟩
      rw [List.mem_filter] at he
      have hrec := Table.mem_rows.mp he.1
      rcases (differs_iff hrec).mp (of_decide_eq_true he.2) with ⟨r, hr, hc, hid⟩
      exact ⟨r, List.mem_filter.mpr ⟨hr, hc⟩, hid⟩

/-- An outcome of `apply` is one of these. -/
theorem apply_cases (p : Primitives) (plan : RepairPlan) (approved dryRun : Bool) (v : Int)
    (db : AuditDb) :
    ((apply p plan approved dryRun v db).1.status ≠ .completed ∧
      (apply p plan approved dryRun v db).2 = db ∧
      (apply p plan approved dryRun v db).1.changedRecordsCount = 0 ∧
      (apply p plan approved dryRun v db).1.auditIntegrityRecordsModified = false) ∨
    ((apply p plan approved dryRun v db).1.status = .completed ∧
      (apply p plan approved dryRun v db).2 = updateRows db (recomputed p plan v db) ∧
      (apply p plan approved dryRun v db).1.changedRecordsCount =
        ((recomputed p plan v db).filter RecomputedRow.changed).length ∧
      (apply p plan approved dryRun v db).1.auditIntegrityRecordsModified =
        decide ((apply p plan approved dryRun v db).1.changedRecordsCount > 0)) := by
  generalize hx : apply p plan approved dryRun v db = x
  unfold apply at hx
  dsimp only at hx
  split at hx
  · subst hx
    exact Or.inl ⟨by simp, rfl, rfl, rfl⟩
  split at hx
  · subst hx
    exact Or.inl ⟨by simp, rfl, rfl, rfl⟩
  split at hx
  · subst hx
    exact Or.inl ⟨by simp, rfl, rfl, rfl⟩
  split at hx
  · subst hx
    exact Or.inl ⟨by simp, rfl, rfl, rfl⟩
  · subst hx
    exact Or.inr ⟨rfl, rfl, rfl, rfl⟩

/-- A dry run reports the hashes that the repair reports. -/
theorem apply_preview (p : Primitives) (plan : RepairPlan) (approved : Bool) (v : Int) (db : AuditDb) :
    (apply p plan approved true v db).1.beforeHashSummary =
        (apply p plan approved false v db).1.beforeHashSummary ∧
      (apply p plan approved true v db).1.afterHashSummary =
        (apply p plan approved false v db).1.afterHashSummary := by
  have hreport : ∀ dryRun, plan.repairAllowed = true → approved = true →
      (apply p plan approved dryRun v db).1.beforeHashSummary =
          (hashSummaries (recomputed p plan v db)).1 ∧
        (apply p plan approved dryRun v db).1.afterHashSummary =
          (hashSummaries (recomputed p plan v db)).2 := by
    intro dryRun hallowed happroved
    unfold apply
    dsimp only
    rw [if_neg (not_not.mpr hallowed), if_neg (not_not.mpr happroved)]
    split
    · exact ⟨rfl, rfl⟩
    · split
      · exact ⟨rfl, rfl⟩
      · exact ⟨rfl, rfl⟩
  by_cases hallowed : plan.repairAllowed = true
  · by_cases happroved : approved = true
    · rcases hreport true hallowed happroved with ⟨hbefore, hafter⟩
      rcases hreport false hallowed happroved with ⟨hbefore', hafter'⟩
      exact ⟨hbefore.trans hbefore'.symm, hafter.trans hafter'.symm⟩
    · simp [apply, hallowed, happroved]
  · simp [apply, hallowed]

/-- **What a repair writes.** The logs stay, a repair that does not complete writes nothing, and
one that completes writes the new hashes of the changed rows. The report counts the records that
differ. -/
theorem apply_frame (p : Primitives) (plan : RepairPlan) (approved dryRun : Bool) (v : Int)
    (db : AuditDb) :
    (apply p plan approved dryRun v db).2.auditLogs = db.auditLogs ∧
    ((apply p plan approved dryRun v db).1.status ≠ .completed →
      (apply p plan approved dryRun v db).2 = db) ∧
    ((apply p plan approved dryRun v db).1.status = .completed →
      (∀ r ∈ recomputed p plan v db, r.changed = true →
        (apply p plan approved dryRun v db).2.records.find? r.stored.auditLogId =
          some { r.stored.record with
            canonicalPayloadHash := r.newCanonical
            rowHash := r.newRow
            prevHash := r.newPrev
            integrityStatus := .active }) ∧
      ∀ id, (∀ r ∈ recomputed p plan v db, r.changed = true → r.stored.auditLogId ≠ id) →
        (apply p plan approved dryRun v db).2.records.find? id = db.records.find? id) ∧
    (apply p plan approved dryRun v db).1.changedRecordsCount =
      (db.records.rows.countP fun e =>
        (apply p plan approved dryRun v db).2.records.find? e.1 ≠ some e.2) ∧
    (apply p plan approved true v db).1.beforeHashSummary =
      (apply p plan approved false v db).1.beforeHashSummary ∧
    (apply p plan approved true v db).1.afterHashSummary =
      (apply p plan approved false v db).1.afterHashSummary := by
  rw [← and_assoc, ← and_assoc, ← and_assoc]
  refine ⟨?_, apply_preview p plan approved v db⟩
  rw [and_assoc, and_assoc]
  rcases apply_cases p plan approved dryRun v db with ⟨hne, hdb, hcount, -⟩ |
    ⟨hcompleted, hdb, hcount, -⟩
  · rw [hdb, hcount]
    refine ⟨rfl, fun _ => rfl, fun h => absurd h hne, ?_⟩
    refine (List.countP_eq_zero.mpr fun e he => ?_).symm
    simp [Table.mem_rows.mp he]
  · rw [hdb, hcount]
    refine ⟨updateRows_auditLogs, fun h => absurd hcompleted h, fun _ => ⟨fun r hr hc => ?_,
      fun id hid => ?_⟩, length_changed⟩
    · rw [find?_repaired hr, newRecord_of_changed hc]
    · cases hrec : db.records.find? id with
      | none =>
        rw [find?_updateRows_of_not_mem, hrec]
        rintro r hr rfl
        rw [find?_of_recomputed hr] at hrec
        cases hrec
      | some rec =>
        by_contra hne
        rcases (differs_iff hrec).mp hne with ⟨r, hr, hc, heq⟩
        exact hid r hr hc heq

/-! ## When a repair completes -/

/-- The rows are numbered on from `n` without a gap. -/
def Gapless : Int → List JoinedRow → Prop
  | _, [] => True
  | n, row :: rows => row.record.sequenceNumber = n + 1 ∧ Gapless row.record.sequenceNumber rows

theorem gapless_append {before after : List JoinedRow} :
    Gapless n (before ++ after) ↔
      Gapless n before ∧ Gapless ((scheme p v).endSeq n before) after := by
  induction before generalizing n with
  | nil => simp [Gapless]
  | cons row before ih =>
    rw [List.cons_append, Gapless, Gapless, ih, and_assoc, Scheme.endSeq_cons]
    rfl

theorem gapless_of_linked {rows : List JoinedRow} (hl : (scheme p v).Linked n h rows) :
    Gapless n rows := by
  induction rows generalizing n h with
  | nil => trivial
  | cons row rows ih =>
    rcases Scheme.linked_cons.mp hl with ⟨hf, hl⟩
    exact ⟨(Scheme.follows_iff.mp hf).1, ih hl⟩

/-- The numbers decide. -/
theorem gapless_congr {rows rows' : List JoinedRow}
    (heq : rows.map (fun row => row.record.sequenceNumber) =
      rows'.map fun row => row.record.sequenceNumber) : Gapless n rows ↔ Gapless n rows' := by
  induction rows generalizing rows' n with
  | nil =>
    rw [List.map_nil] at heq
    rw [List.map_eq_nil_iff.mp heq.symm]
  | cons row rows ih =>
    cases rows' with
    | nil => cases heq
    | cons row' rows' =>
      rw [List.map_cons, List.map_cons, List.cons.injEq] at heq
      rw [Gapless, Gapless, heq.1, ih heq.2]

/-- The end of a gapless stretch has every number up to it. -/
theorem lt_of_gapless {rows : List JoinedRow} (hg : Gapless n rows) {row : JoinedRow}
    (hrow : row ∈ rows) : n < row.record.sequenceNumber := by
  induction rows generalizing n with
  | nil => cases hrow
  | cons x rows ih =>
    rcases hg with ⟨hx, hg⟩
    rcases List.mem_cons.mp hrow with rfl | hrow
    · omega
    · have hlt := ih hg hrow
      omega

/-! ### The rows in their order -/

theorem newRecord_sequenceNumber (r : RecomputedRow) :
    r.newRecord.sequenceNumber = r.stored.record.sequenceNumber := by
  unfold RecomputedRow.newRecord
  split <;> rfl

theorem newRecord_chainVersion (r : RecomputedRow) :
    r.newRecord.chainVersion = r.stored.record.chainVersion := by
  unfold RecomputedRow.newRecord
  split <;> rfl

/-- A record of the updated database, and the one it comes from. -/
theorem find?_updated {id : Uuid} {rec : IntegrityRecord}
    (hrec : (updateRows db (recomputed p plan v db)).records.find? id = some rec) :
    ∃ old, db.records.find? id = some old ∧ rec.chainVersion = old.chainVersion ∧
      rec.sequenceNumber = old.sequenceNumber := by
  by_cases hex : ∃ r ∈ recomputed p plan v db, r.stored.auditLogId = id
  · rcases hex with ⟨r, hr, rfl⟩
    rw [find?_repaired hr] at hrec
    cases hrec
    exact ⟨r.stored.record, find?_of_recomputed hr, newRecord_chainVersion r,
      newRecord_sequenceNumber r⟩
  · push Not at hex
    rw [find?_updateRows_of_not_mem hex] at hrec
    exact ⟨rec, hrec, rfl, rfl⟩

/-- The updates keep the numbers unique. -/
theorem uniqueSequences_updateRows (hunique : db.UniqueSequences) :
    (updateRows db (recomputed p plan v db)).UniqueSequences := by
  intro id id' r r' hr hr' hversion hseq
  rcases find?_updated hr with ⟨old, hold, hv, hs⟩
  rcases find?_updated hr' with ⟨old', hold', hv', hs'⟩
  exact hunique id id' old old' hold hold' (by rw [← hv, ← hv', hversion])
    (by rw [← hs, ← hs', hseq])

/-- A sorted list, cut at a number. -/
theorem filter_append_filter {rows : List JoinedRow} {m : Int}
    (hsorted : rows.Pairwise fun a b => a.record.sequenceNumber ≤ b.record.sequenceNumber) :
    rows.filter (fun row => row.record.sequenceNumber < m) ++
      rows.filter (fun row => m ≤ row.record.sequenceNumber) = rows := by
  induction rows with
  | nil => rfl
  | cons row rows ih =>
    rw [List.pairwise_cons] at hsorted
    by_cases hlt : row.record.sequenceNumber < m
    · rw [List.filter_cons_of_pos (by simpa using hlt),
        List.filter_cons_of_neg (by simpa using hlt), List.cons_append, ih hsorted.2]
    · -- the rows after it are not smaller
      have hle : m ≤ row.record.sequenceNumber := by omega
      have hrest : rows.filter (fun row => row.record.sequenceNumber < m) = [] := by
        refine List.filter_eq_nil_iff.mpr fun x hx => ?_
        have hmono := hsorted.1 x hx
        simp only [decide_eq_true_eq]
        omega
      have hall : rows.filter (fun row => m ≤ row.record.sequenceNumber) = rows := by
        refine List.filter_eq_self.mpr fun x hx => ?_
        have hmono := hsorted.1 x hx
        simp only [decide_eq_true_eq]
        omega
      rw [List.filter_cons_of_neg (by simpa using hle), List.filter_cons_of_pos (by simpa using hle),
        hrest, hall, List.nil_append]

/-- The rows before the first failure. -/
def intact (plan : RepairPlan) (v : Int) (db : AuditDb) : List JoinedRow :=
  (db.joined v).filter fun row => row.record.sequenceNumber < plan.start

theorem intact_append_fetchRows (plan : RepairPlan) (v : Int) (db : AuditDb) :
    intact plan v db ++ fetchRows db plan.start v = db.joined v :=
  filter_append_filter db.pairwise_joined

theorem map_sequenceNumber_repairedRows (p : Primitives) (plan : RepairPlan) (v : Int)
    (db : AuditDb) :
    (repairedRows p plan v db).map (fun row => row.record.sequenceNumber) =
      (db.joined v).map fun row => row.record.sequenceNumber := by
  have hrepaired : ((recomputed p plan v db).map RecomputedRow.repaired).map
      (fun row => row.record.sequenceNumber) =
        (fetchRows db plan.start v).map fun row => row.record.sequenceNumber := by
    rw [← map_stored_recomputed (p := p), List.map_map, List.map_map]
    exact List.map_congr_left fun r _ => newRecord_sequenceNumber r
  unfold repairedRows
  rw [List.map_append, hrepaired, ← List.map_append]
  exact congrArg _ (intact_append_fetchRows plan v db)

/-- The rows a repair leaves behind, in their order. -/
theorem joined_updateRows (hunique : db.UniqueSequences) :
    (updateRows db (recomputed p plan v db)).joined v = repairedRows p plan v db := by
  have hstrict : (repairedRows p plan v db).Pairwise fun a b =>
      a.record.sequenceNumber < b.record.sequenceNumber := by
    have hmap := List.pairwise_map.mpr (db.strict_joined (v := v) hunique)
    rw [← map_sequenceNumber_repairedRows p plan] at hmap
    exact List.pairwise_map.mp hmap
  have hstrict' := (updateRows db (recomputed p plan v db)).strict_joined (v := v)
    (uniqueSequences_updateRows hunique)
  have hnodup : ∀ {rows : List JoinedRow}, (rows.Pairwise fun a b =>
      a.record.sequenceNumber < b.record.sequenceNumber) → rows.Nodup := by
    intro rows hrows
    refine hrows.imp fun hab heq => ?_
    rw [heq] at hab
    exact lt_irrefl _ hab
  have hperm := (List.perm_ext_iff_of_nodup (hnodup hstrict') (hnodup hstrict)).mpr fun row =>
    mem_joined_updateRows
  refine hperm.eq_of_pairwise (fun a b _ _ hab hba => ?_) hstrict' hstrict
  exact absurd (hab.trans hba) (lt_irrefl _)

/-! ### The links -/

theorem newRecord_hashes (r : RecomputedRow) :
    r.newRecord.canonicalPayloadHash = r.newCanonical ∧ r.newRecord.rowHash = r.newRow ∧
      r.newRecord.prevHash = r.newPrev := by
  cases hc : r.changed with
  | true =>
    rw [newRecord_of_changed hc]
    exact ⟨rfl, rfl, rfl⟩
  | false =>
    rw [newRecord_of_unchanged hc]
    simp only [RecomputedRow.changed, decide_eq_false_iff_not, not_or, not_not] at hc
    exact ⟨hc.1.symm, hc.2.1.symm, hc.2.2.symm⟩

/-- The record before the first failure is one of the chain, with a log or without. -/
theorem startPrevHash_eq_some (hunique : db.UniqueSequences) {first : Int} {hash : String} :
    startPrevHash db first v = some hash ↔ 1 < first ∧ ∃ id rec,
      db.records.find? id = some rec ∧ rec.chainVersion = v ∧
        rec.sequenceNumber = first - 1 ∧ rec.rowHash = hash := by
  unfold startPrevHash
  split_ifs with hle
  · simp [hle]
  · rw [and_iff_right (not_le.mp hle)]
    constructor
    · intro hfound
      rcases Option.map_eq_some_iff.mp hfound with ⟨e, he, hhash⟩
      have hmem := AuditDb.mem_chain.mp (List.mem_of_find?_eq_some he)
      exact ⟨e.1, e.2, hmem.1, hmem.2, by simpa using List.find?_some he, hhash⟩
    · rintro ⟨id, rec, hrec, hversion, hseq, hhash⟩
      have hmem : (id, rec) ∈ db.chain v := AuditDb.mem_chain.mpr ⟨hrec, hversion⟩
      cases hfind : (db.chain v).find? fun e => e.2.sequenceNumber = first - 1 with
      | none => exact absurd hseq (by simpa using List.find?_eq_none.mp hfind _ hmem)
      | some e =>
        have hother := AuditDb.mem_chain.mp (List.mem_of_find?_eq_some hfind)
        have hseq' : e.2.sequenceNumber = first - 1 := by simpa using List.find?_some hfind
        have hid := hunique e.1 id e.2 rec hother.1 hrec (hother.2.trans hversion.symm)
          (hseq'.trans hseq.symm)
        rw [hid, hrec] at hother
        rw [Option.map_some, ← Option.some.inj hother.1, hhash]

/-- Recomputed rows are linked when they are numbered without a gap. -/
theorem linked_recomputeChain {h' : Option String} {rows : List JoinedRow}
    (hfirst : ∀ row ∈ rows.head?, 1 < row.record.sequenceNumber → h = h') :
    (scheme p v).Linked n h' ((recomputeChain p v h rows).map RecomputedRow.repaired) ↔
      Gapless n rows := by
  induction rows generalizing n h h' with
  | nil => exact iff_of_true Scheme.linked_nil trivial
  | cons row rows ih =>
    have hvalid : ∀ r ∈ recomputeChain p v h (row :: rows),
        (scheme p v).valid r.repaired = true := fun r => valid_repaired
    rw [recomputeChain] at hvalid ⊢
    generalize hr : (⟨row, row.payloadHash p, _, h⟩ : RecomputedRow) = r at hvalid ⊢
    have hstored : r.stored = row := by rw [← hr]
    have hprev : r.repaired.record.prevHash = h := by
      rw [RecomputedRow.repaired, (newRecord_hashes r).2.2, ← hr]
    have hseq : r.repaired.record.sequenceNumber = row.record.sequenceNumber := by
      rw [RecomputedRow.repaired, newRecord_sequenceNumber, hstored]
    rw [List.map_cons, Scheme.linked_cons, Scheme.follows_iff, Gapless]
    show (r.repaired.record.sequenceNumber = n + 1 ∧ _ ∧
      (1 < r.repaired.record.sequenceNumber → r.repaired.record.prevHash = h')) ∧
        (scheme p v).Linked r.repaired.record.sequenceNumber (some r.repaired.record.rowHash) _ ↔ _
    have hhash : r.repaired.record.rowHash = r.newRow := (newRecord_hashes r).2.1
    rw [hseq, hprev, hhash, and_iff_right (hvalid r (List.mem_cons_self ..))]
    have hnew : r.newRow = computeRowHash p v row.record.sequenceNumber row.auditLogId h
        (row.payloadHash p) := by rw [← hr]
    rw [← hnew, ih fun _ _ _ => rfl, and_assoc]
    refine and_congr_right fun _ => and_iff_right ?_
    exact hfirst row rfl

/-- In a gapless chain the repair starts from the hash of the last intact row. -/
theorem startPrevHash_eq (hunique : db.UniqueSequences) (hg : Gapless 0 (db.joined v))
    {row : JoinedRow} (hrow : row ∈ (fetchRows db plan.start v).head?)
    (hlt : 1 < row.record.sequenceNumber) :
    startPrevHash db plan.start v = (scheme p v).endHash none (intact plan v db) := by
  rcases List.head?_eq_some_iff.mp hrow with ⟨rest, hrest⟩
  rw [← intact_append_fetchRows plan v db, gapless_append (p := p) (v := v), hrest] at hg
  have hseq := hg.2.1
  rcases List.eq_nil_or_concat' (intact plan v db) with hnil | ⟨before, last, hlast⟩
  · rw [hnil, Scheme.endSeq_nil] at hseq
    omega
  · have hend : (scheme p v).endSeq 0 (intact plan v db) = last.record.sequenceNumber := by
      rw [hlast]
      simp [Scheme.endSeq, scheme]
    have hhash : (scheme p v).endHash none (intact plan v db) = some last.record.rowHash := by
      rw [hlast]
      simp [Scheme.endHash, scheme]
    have hmem : last ∈ intact plan v db := by simp [hlast]
    have hin := List.mem_filter.mp hmem
    have hbelow : last.record.sequenceNumber < plan.start := by simpa using hin.2
    have hfetched : row ∈ fetchRows db plan.start v := by simp [hrest]
    have habove : plan.start ≤ row.record.sequenceNumber := by
      simpa using (List.mem_filter.mp hfetched).2
    rw [hend] at hseq
    rcases AuditDb.mem_joined.mp hin.1 with ⟨hrec, hversion, -⟩
    rw [hhash, startPrevHash_eq_some hunique]
    exact ⟨by omega, last.auditLogId, last.record, hrec, hversion, by omega, rfl⟩

theorem completed_iff_linked {approved dryRun : Bool} :
    (apply p plan approved dryRun v db).1.status = .completed ↔
      plan.repairAllowed = true ∧ approved = true ∧ dryRun = false ∧
        (scheme p v).Linked 0 none ((updateRows db (recomputed p plan v db)).joined v) := by
  rw [← verifyInTxn_eq_none_iff]
  unfold apply
  dsimp only
  by_cases hallowed : plan.repairAllowed = true
  · rw [if_neg (not_not.mpr hallowed)]
    by_cases happroved : approved = true
    · rw [if_neg (not_not.mpr happroved)]
      cases dryRun with
      | true => simp
      | false =>
        rw [if_neg (by simp)]
        cases hverify : verifyInTxn p v 0 none ((updateRows db (recomputed p plan v db)).joined v)
          with
        | some f => simp
        | none => simp [hallowed, happroved]
    · simp [happroved]
  · simp [hallowed]

/-- **When a repair completes**: it is allowed, approved and no dry run, no number of the chain is
missing, and the rows before the first failure are intact. -/
theorem apply_completed_iff (p : Primitives) (plan : RepairPlan) (approved dryRun : Bool) (v : Int)
    {db : AuditDb} (hunique : db.UniqueSequences) :
    (apply p plan approved dryRun v db).1.status = .completed ↔
      plan.repairAllowed = true ∧ approved = true ∧ dryRun = false ∧
        Gapless 0 (db.joined v) ∧ (scheme p v).Linked 0 none (intact plan v db) := by
  rw [completed_iff_linked, joined_updateRows hunique]
  refine and_congr_right fun _ => and_congr_right fun _ => and_congr_right fun _ => ?_
  have hgapless : Gapless 0 (repairedRows p plan v db) ↔ Gapless 0 (db.joined v) :=
    gapless_congr (map_sequenceNumber_repairedRows p plan v db)
  constructor
  · intro hl
    exact ⟨hgapless.mp (gapless_of_linked hl), (Scheme.linked_append.mp hl).1⟩
  · rintro ⟨hg, hl⟩
    refine Scheme.linked_append.mpr ⟨hl, ?_⟩
    refine (linked_recomputeChain fun row hrow hlt => ?_).mpr ?_
    · exact startPrevHash_eq hunique hg hrow hlt
    · rw [← intact_append_fetchRows plan v db, gapless_append (p := p) (v := v)] at hg
      exact hg.2

/-- One record, which lost its payload hash. -/
def blankRecord : IntegrityRecord := { unlinkedRecord 1 with canonicalPayloadHash := "" }

def blankDb : AuditDb :=
  { auditLogs := Table.empty.insert ⟨1⟩ ((sampleEvent "t1").log sampleTime)
    records := Table.empty.insert ⟨1⟩ blankRecord }

def blankRow : JoinedRow := ⟨⟨1⟩, blankRecord, (sampleEvent "t1").log sampleTime⟩

theorem blankDb_joined : blankDb.joined chainVersion = [blankRow] := rfl

theorem blankDb_unique : blankDb.UniqueSequences := by
  have hid : ∀ id r, blankDb.records.find? id = some r → id = ⟨1⟩ := by
    intro id r hr
    unfold blankDb at hr
    rw [Table.find?_insert, Table.find?_empty] at hr
    split at hr
    · assumption
    · cases hr
  intro id id' r r' hr hr' _ _
  rw [hid id r hr, hid id' r' hr']

theorem blank_completed :
    (apply openDigests tamperedPlan true false chainVersion blankDb).1.status = .completed :=
  apply_completed_of_first rfl rfl blankDb_joined rfl

theorem apply_completed_iff_blank :
    Gapless 0 (blankDb.joined chainVersion) ∧
      (scheme openDigests chainVersion).Linked 0 none (intact tamperedPlan chainVersion blankDb) :=
  ((apply_completed_iff openDigests tamperedPlan true false chainVersion blankDb_unique).mp
    blank_completed).2.2.2

/-! ## A second repair -/

/-- Rows with the hashes of a repair get them again. -/
theorem unchanged_of_repaired {rows : List JoinedRow} {r : RecomputedRow}
    (hr : r ∈ recomputeChain p v h ((recomputeChain p v h rows).map RecomputedRow.repaired)) :
    r.changed = false := by
  induction rows generalizing h with
  | nil => cases hr
  | cons row rows ih =>
    rw [recomputeChain] at hr
    generalize hx : (⟨row, row.payloadHash p, _, h⟩ : RecomputedRow) = x at hr
    rcases newRecord_hashes x with ⟨hcanonical, hrow, hprev⟩
    have hseq := newRecord_sequenceNumber x
    have hpayload : x.repaired.payloadHash p = x.newCanonical := by rw [← hx]; rfl
    have hnew : computeRowHash p v x.repaired.record.sequenceNumber x.repaired.auditLogId h
        (x.repaired.payloadHash p) = x.newRow := by
      rw [RecomputedRow.repaired, hseq, ← hx]
      rfl
    rw [List.map_cons, recomputeChain] at hr
    rw [hnew, hpayload] at hr
    rcases List.mem_cons.mp hr with rfl | hr
    · have hh : x.newPrev = h := by rw [← hx]
      simp only [RecomputedRow.changed, RecomputedRow.repaired, hcanonical, hrow, hprev, hh]
      simp
    · have hh : x.newRow = computeRowHash p v row.record.sequenceNumber row.auditLogId h
          (row.payloadHash p) := by rw [← hx]
      rw [hh] at hr
      exact ih hr

theorem updateRows_of_unchanged {rows : List RecomputedRow}
    (hrows : ∀ r ∈ rows, r.changed = false) : updateRows db rows = db := by
  induction rows with
  | nil => rfl
  | cons r rows ih =>
    rw [updateRows, if_neg (by simp [hrows r (List.mem_cons_self ..)])]
    exact ih fun x hx => hrows x (List.mem_cons_of_mem _ hx)

/-- The records before the first failure are not written. -/
theorem find?_updated_before {id : Uuid} {rec : IntegrityRecord}
    (hlt : rec.sequenceNumber < plan.start) :
    (updateRows db (recomputed p plan v db)).records.find? id = some rec ↔
      db.records.find? id = some rec := by
  have hother : ∀ old, db.records.find? id = some old → old.sequenceNumber < plan.start →
      ∀ r ∈ recomputed p plan v db, r.stored.auditLogId ≠ id := by
    rintro old hold hbelow r hr rfl
    rw [find?_of_recomputed hr] at hold
    rw [← Option.some.inj hold] at hbelow
    have hle := (stored_mem_joined hr).2
    omega
  constructor
  · intro hrec
    rcases find?_updated hrec with ⟨old, hold, -, hseq⟩
    rwa [find?_updateRows_of_not_mem (hother old hold (hseq ▸ hlt))] at hrec
  · intro hrec
    rwa [find?_updateRows_of_not_mem (hother rec hrec hlt)]

theorem startPrevHash_updateRows (hunique : db.UniqueSequences) :
    startPrevHash (updateRows db (recomputed p plan v db)) plan.start v =
      startPrevHash db plan.start v := by
  refine Option.ext fun hash => ?_
  rw [startPrevHash_eq_some hunique, startPrevHash_eq_some (uniqueSequences_updateRows hunique)]
  refine and_congr_right fun _ => exists_congr fun id => exists_congr fun rec => ?_
  constructor
  · rintro ⟨hrec, hversion, hseq, hhash⟩
    exact ⟨(find?_updated_before (by omega)).mp hrec, hversion, hseq, hhash⟩
  · rintro ⟨hrec, hversion, hseq, hhash⟩
    exact ⟨(find?_updated_before (by omega)).mpr hrec, hversion, hseq, hhash⟩

theorem fetchRows_updateRows (hunique : db.UniqueSequences) :
    fetchRows (updateRows db (recomputed p plan v db)) plan.start v =
      (recomputed p plan v db).map RecomputedRow.repaired := by
  unfold fetchRows
  rw [joined_updateRows hunique, repairedRows, List.filter_append]
  have hbefore : ((db.joined v).filter fun row => row.record.sequenceNumber < plan.start).filter
      (fun row => plan.start ≤ row.record.sequenceNumber) = [] := by
    refine List.filter_eq_nil_iff.mpr fun row hrow => ?_
    have hlt := (List.mem_filter.mp hrow).2
    simp only [decide_eq_true_eq] at hlt ⊢
    omega
  rw [hbefore, List.nil_append]
  refine List.filter_eq_self.mpr fun row hrow => ?_
  rcases List.mem_map.mp hrow with ⟨r, hr, rfl⟩
  rw [RecomputedRow.repaired, newRecord_sequenceNumber, decide_eq_true_eq]
  exact (stored_mem_joined hr).2

/-- **A repair that completed leaves nothing to repair**: the same plan completes again and writes
nothing. -/
theorem apply_again (hunique : db.UniqueSequences) {approved dryRun : Bool}
    (hcompleted : (apply p plan approved dryRun v db).1.status = .completed) :
    (apply p plan approved dryRun v (apply p plan approved dryRun v db).2).1.status = .completed ∧
    (apply p plan approved dryRun v (apply p plan approved dryRun v db).2).1.changedRecordsCount =
      0 ∧
    (apply p plan approved dryRun v (apply p plan approved dryRun v db).2).2 =
      (apply p plan approved dryRun v db).2 := by
  rcases completed_iff_linked.mp hcompleted with ⟨hallowed, happroved, hdry, hlinked⟩
  rw [(apply_completed hcompleted).1]
  generalize hdb : updateRows db (recomputed p plan v db) = db' at hlinked
  have hrows : recomputed p plan v db' = recomputeChain p v (startPrevHash db plan.start v)
      ((recomputed p plan v db).map RecomputedRow.repaired) := by
    rw [recomputed, ← hdb, startPrevHash_updateRows hunique, fetchRows_updateRows hunique]
  have hunchanged : ∀ r ∈ recomputed p plan v db', r.changed = false := by
    rw [hrows]
    exact fun r => unchanged_of_repaired
  have hsame : updateRows db' (recomputed p plan v db') = db' := updateRows_of_unchanged hunchanged
  have hagain : (apply p plan approved dryRun v db').1.status = .completed :=
    completed_iff_linked.mpr ⟨hallowed, happroved, hdry, by rwa [hsame]⟩
  refine ⟨hagain, ?_, (apply_completed hagain).1.trans hsame⟩
  rcases apply_cases p plan approved dryRun v db' with ⟨hne, -⟩ | ⟨-, -, hcount, -⟩
  · exact absurd hagain hne
  · rw [hcount, List.length_eq_zero_iff, List.filter_eq_nil_iff]
    exact fun r hr => by simp [hunchanged r hr]

theorem apply_again_blank :
    (apply openDigests tamperedPlan true false chainVersion
      (apply openDigests tamperedPlan true false chainVersion blankDb).2).1.changedRecordsCount = 0 :=
  (apply_again blankDb_unique blank_completed).2.1

/-! ## A repair planned from a scan -/

/-- What the scan reports lies at the first break or after it, and at it unless the break is a
missing link. -/
theorem scan_at_break (hunique : db.UniqueSequences) {before after : List JoinedRow}
    {row : JoinedRow} (hrows : db.joined v = before ++ row :: after)
    (hl : (scheme p v).Linked 0 none before) :
    ((scanRow p v ((scheme p v).endSeq 0 before) ((scheme p v).endHash none before) row).failureTypes
        = [] → ∀ a ∈ scan p db v, row.record.sequenceNumber < a.sequenceNumber) ∧
    ((scanRow p v ((scheme p v).endSeq 0 before) ((scheme p v).endHash none before) row).failureTypes
        ≠ [] → ((scan p db v).map FailedRecordAnalysis.sequenceNumber).min? =
          some row.record.sequenceNumber) := by
  have hscan : scan p db v = scanRows p v ((scheme p v).endSeq 0 before)
      ((scheme p v).endHash none before) (row :: after) := by
    unfold scan
    rw [hrows, scanRows_append hl]
  have hafter : ∀ a ∈ scanRows p v row.record.sequenceNumber (some row.record.rowHash) after,
      row.record.sequenceNumber < a.sequenceNumber := by
    intro a ha
    have hstrict := db.strict_joined (v := v) hunique
    rw [hrows] at hstrict
    rcases scanRows_sequenceNumber ha with ⟨x, hx, hax⟩
    rw [hax]
    exact List.rel_of_pairwise_cons (List.pairwise_append.mp hstrict).2.1 hx
  rw [hscan, scanRows]
  constructor
  · intro hnone
    rw [if_neg (not_not.mpr hnone)]
    exact hafter
  · intro hsome
    rw [if_pos hsome, List.map_cons, scanRow_sequenceNumber]
    refine List.min?_eq_some_iff.mpr ⟨List.mem_cons_self, fun m hm => ?_⟩
    rcases List.mem_cons.mp hm with rfl | hm
    · exact le_refl _
    · rcases List.mem_map.mp hm with ⟨a, ha, rfl⟩
      exact (hafter a ha).le

/-- A break that the scan lets pass is a missing link. -/
theorem missingLink_of_silent {before after : List JoinedRow} {row : JoinedRow}
    (hrows : db.joined v = before ++ row :: after) (hl : (scheme p v).Linked 0 none before)
    (hbreak : (scheme p v).follows ((scheme p v).endSeq 0 before)
      ((scheme p v).endHash none before) row = false)
    (hnone : (scanRow p v ((scheme p v).endSeq 0 before)
      ((scheme p v).endHash none before) row).failureTypes = []) : MissingLink p db v := by
  rcases scanRow_failureTypes.mp hnone with ⟨hseq, hvalid, hlink⟩
  have hbroken : ¬(1 < row.record.sequenceNumber →
      row.record.prevHash = (scheme p v).endHash none before) := by
    intro hprev
    rw [Scheme.follows_iff.mpr ⟨hseq, hvalid, hprev⟩] at hbreak
    cases hbreak
  push Not at hbroken
  rcases hbroken with ⟨hlt, hne⟩
  have hbefore : before ≠ [] := by
    intro hnil
    rw [hnil, Scheme.endSeq_nil] at hseq
    omega
  refine ⟨before, row, after, hrows, hl, hseq, hvalid, hlt, ?_⟩
  rcases hlink hlt with hnil | hprev | heq
  · exact absurd hnil (Scheme.endHash_ne_none hbefore)
  · exact hprev
  · exact absurd heq hne

/-- The rows before a row of the chain are those with smaller numbers. -/
theorem intact_eq (hunique : db.UniqueSequences) {before after : List JoinedRow} {row : JoinedRow}
    (hrows : db.joined v = before ++ row :: after)
    (hstart : plan.start = row.record.sequenceNumber) : intact plan v db = before := by
  have hstrict := db.strict_joined (v := v) hunique
  rw [hrows, List.pairwise_append] at hstrict
  rcases hstrict with ⟨-, hright, hcross⟩
  unfold intact
  rw [hrows, hstart, List.filter_append]
  have hbefore : before.filter (fun x => x.record.sequenceNumber < row.record.sequenceNumber) =
      before := by
    refine List.filter_eq_self.mpr fun x hx => ?_
    exact decide_eq_true (hcross x hx row (List.mem_cons_self ..))
  have hafter : (row :: after).filter
      (fun x => x.record.sequenceNumber < row.record.sequenceNumber) = [] := by
    refine List.filter_eq_nil_iff.mpr fun x hx => ?_
    rw [decide_eq_true_eq]
    rcases List.mem_cons.mp hx with rfl | hx
    · exact lt_irrefl _
    · exact not_lt.mpr (List.rel_of_pairwise_cons hright hx).le
  rw [hbefore, hafter, List.append_nil]

/-- A chain with a joined row has a last number. -/
theorem chainTailSequence_isSome {row : JoinedRow} (hrow : row ∈ db.joined v) :
    ∃ tail, chainTailSequence db v = some tail := by
  unfold chainTailSequence
  rcases AuditDb.mem_joined.mp hrow with ⟨hrec, hversion, -⟩
  have hmem : row.record.sequenceNumber ∈ (db.chain v).map fun e => e.2.sequenceNumber :=
    List.mem_map.mpr ⟨(row.auditLogId, row.record), AuditDb.mem_chain.mpr ⟨hrec, hversion⟩, rfl⟩
  refine Option.ne_none_iff_exists'.mp fun hmax => ?_
  rw [List.max?_eq_none_iff.mp hmax] at hmem
  cases hmem

/-- **A repair planned from a scan completes** exactly when no number of the chain is missing and
the scan did not let a missing link pass. -/
theorem planned_repair_iff (p : Primitives) {db : AuditDb} (v : Int) (hunique : db.UniqueSequences)
    (hscan : scan p db v ≠ []) {rootCause : RootCause}
    (hroot : repairableRootCauses.contains rootCause = true) (risk : RepairRisk)
    (reason : String) :
    (apply p (planRepair (scan p db v) rootCause true risk (chainTailSequence db v) reason) true
        false v db).1.status = .completed ↔
      Gapless 0 (db.joined v) ∧ ¬MissingLink p db v := by
  rw [apply_completed_iff p _ true false v hunique]
  -- the chain breaks at some row
  have hbroken : (scheme p v).firstBroken 0 none (db.joined v) ≠ none := by
    intro hfirst
    refine hscan ?_
    unfold scan
    rw [← List.append_nil (db.joined v), scanRows_append hfirst]
    rfl
  rcases Option.ne_none_iff_exists'.mp hbroken with ⟨row, hfirst⟩
  rcases Scheme.firstBroken_eq_some.mp hfirst with ⟨before, after, hrows, hl, hbreak⟩
  have hrow : row ∈ db.joined v := by simp [hrows]
  rcases chainTailSequence_isSome hrow with ⟨tail, htail⟩
  have hmin : ((scan p db v).map FailedRecordAnalysis.sequenceNumber).min? ≠ none := by
    rwa [ne_eq, List.min?_eq_none_iff, List.map_eq_nil_iff]
  rcases Option.ne_none_iff_exists'.mp hmin with ⟨first, hmin⟩
  generalize hplan : planRepair (scan p db v) rootCause true risk (chainTailSequence db v) reason =
    plan
  unfold planRepair at hplan
  rw [hmin, htail] at hplan
  have hallowed : plan.repairAllowed = true := by rw [← hplan]; simpa using hroot
  have hstart : plan.start = if first = 0 then 1 else first := by rw [← hplan]; rfl
  rw [and_iff_right hallowed, and_iff_right rfl, and_iff_right rfl]
  refine and_congr_right fun hg => ?_
  have hpos : 0 < row.record.sequenceNumber := lt_of_gapless hg hrow
  rcases scan_at_break hunique hrows hl with ⟨hsilent, hreported⟩
  by_cases hnone : (scanRow p v ((scheme p v).endSeq 0 before)
      ((scheme p v).endHash none before) row).failureTypes = []
  · -- the scan lets the row pass, so the repair starts after it
    refine iff_of_false ?_ (not_not.mpr (missingLink_of_silent hrows hl hbreak hnone))
    intro hintact
    have hlt : row.record.sequenceNumber < first := by
      rcases List.mem_map.mp (List.min?_mem hmin) with ⟨b, hb, hbfirst⟩
      rw [← hbfirst]
      exact hsilent hnone b hb
    rw [if_neg (by omega)] at hstart
    have hkept : intact plan v db = before ++ row ::
        after.filter fun x => x.record.sequenceNumber < first := by
      have hstrict := db.strict_joined (v := v) hunique
      rw [hrows, List.pairwise_append] at hstrict
      unfold intact
      rw [hrows, hstart, List.filter_append, List.filter_cons_of_pos (by simpa using hlt)]
      rw [List.filter_eq_self.mpr fun x hx => ?_]
      have hx := hstrict.2.2 x hx row (List.mem_cons_self ..)
      simp only [decide_eq_true_eq]
      omega
    rw [hkept] at hintact
    have hfollows := (Scheme.linked_cons.mp (Scheme.linked_append.mp hintact).2).1
    rw [hbreak] at hfollows
    cases hfollows
  · -- the scan reports the row, and the repair starts at it
    have heq : first = row.record.sequenceNumber :=
      Option.some.inj (hmin.symm.trans (hreported hnone))
    rw [heq, if_neg (by omega)] at hstart
    rw [intact_eq hunique hrows hstart]
    refine iff_of_true hl ?_
    rintro ⟨before', row', after', hrows', hl', hseq, hvalid, hlt, hprev⟩
    rcases Scheme.break_unique (hrows.symm.trans hrows') hl hbreak hl'
      (follows_of_missing hseq hlt hprev) with ⟨rfl, rfl⟩
    exact hnone (scanRow_failureTypes.mpr ⟨hseq, hvalid, fun _ => Or.inr (Or.inl hprev)⟩)

theorem planned_repair_iff_blank :
    (apply openDigests (planRepair (scan openDigests blankDb chainVersion) .testTamperNotRestored
        true .low (chainTailSequence blankDb chainVersion) "") true false chainVersion
        blankDb).1.status = .completed ↔
      Gapless 0 (blankDb.joined chainVersion) ∧ ¬MissingLink openDigests blankDb chainVersion := by
  refine planned_repair_iff openDigests chainVersion blankDb_unique (fun hnil => ?_) rfl .low ""
  unfold scan at hnil
  rw [blankDb_joined, scanRows] at hnil
  split at hnil
  · cases hnil
  · next hnone =>
    -- no log hashes to the empty text
    have hvalid := (scanRow_failureTypes.mp (not_not.mp hnone)).2.1
    exact openDigests.sha256_ne _ (valid_iff.mp hvalid).1

end AiAgentsSwd.Audit
