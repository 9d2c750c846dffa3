import AiAgentsSwd.Audit.Writers

/-!
# Audit.Binding — which changes of a row break the chain

A verified row is bound to its content through the canonical payload hash. The canonical
payload identifies some rows: a `NULL` text column with an empty one, and references that
load to the same document (`SameContent`). `content_binding` says that these are the only
changes a run does not notice, if SHA-256 is free of collisions.
-/

namespace AiAgentsSwd.Audit

open Keyed (Table)
open HashChain (Scheme)
open Planning (Uuid)
open ReadCommitted

variable {p : Primitives} {k : AuditHmacKeyring} {mode : VerifyMode} {allow : Bool} {db : AuditDb}
  {v : Int} {id : Uuid} {a b : AuditLog}

/-! ## Rows with one canonical payload -/

/-- The same text, a missing one counting as empty. -/
def SameText (x y : Option String) : Prop := x = y ∨ (x.getD "" = "" ∧ y.getD "" = "")

/-- Two versions of a log that the canonical payload does not tell apart. -/
structure SameContent (p : Primitives) (a b : AuditLog) : Prop where
  task_id : SameText a.taskId b.taskId
  agent : SameText a.agent b.agent
  decision_type : SameText a.decisionType b.decisionType
  summary : SameText a.summary b.summary
  result : SameText a.result b.result
  artifact_refs : Json.Same (canonicalRefs p (.str a.artifactRefs))
    (canonicalRefs p (.str b.artifactRefs))
  created_at : a.createdAt = b.createdAt

theorem coerceStr_eq_iff {x y : Option String} : coerceStr x = coerceStr y ↔ SameText x y := by
  unfold coerceStr SameText
  constructor
  · intro h
    cases x with
    | none =>
      rw [Option.getD_none] at h
      exact Or.inr ⟨rfl, h.symm⟩
    | some s =>
      cases y with
      | none =>
        rw [Option.getD_none] at h
        exact Or.inr ⟨h, rfl⟩
      | some t => exact Or.inl (congrArg some h)
  · rintro (rfl | ⟨hx, hy⟩)
    · rfl
    · rw [hx, hy]

theorem sameRow_iff : SameRow p (a.row id) (b.row id) ↔ SameContent p a b := by
  have hcreated : coerceCreatedAt (a.row id).createdAt = coerceCreatedAt (b.row id).createdAt ↔
      a.createdAt = b.createdAt := by
    constructor
    · exact isoformat_inj
    · intro h
      simp only [AuditLog.row, h]
  constructor
  · rintro ⟨h₁, h₂, h₃, h₄, h₅, h₆, h₇⟩
    exact ⟨coerceStr_eq_iff.mp h₁, coerceStr_eq_iff.mp h₂, coerceStr_eq_iff.mp h₃,
      coerceStr_eq_iff.mp h₄, coerceStr_eq_iff.mp h₅, h₆, hcreated.mp h₇⟩
  · rintro ⟨h₁, h₂, h₃, h₄, h₅, h₆, h₇⟩
    exact ⟨coerceStr_eq_iff.mpr h₁, coerceStr_eq_iff.mpr h₂, coerceStr_eq_iff.mpr h₃,
      coerceStr_eq_iff.mpr h₄, coerceStr_eq_iff.mpr h₅, h₆, hcreated.mpr h₇⟩

/-- The canonical text is the same exactly for rows of the same content. -/
theorem canonicalJson_row_eq_iff :
    canonicalJson (buildCanonicalPayload p (a.row id)) =
        canonicalJson (buildCanonicalPayload p (b.row id)) ↔ SameContent p a b := by
  have hdistinct : ∀ x : AuditLog, (x.row id).artifactRefs.Distinct := fun _ => trivial
  have hid : (a.row id).auditLogId = (b.row id).auditLogId := rfl
  rw [canonicalJson_eq_iff hid (hdistinct a) (hdistinct b), sameRow_iff]

/-! ## Changing a row -/

/-- `UPDATE audit_logs SET … WHERE id = $1`. -/
def AuditDb.setLog (db : AuditDb) (id : Uuid) (b : AuditLog) : AuditDb :=
  { db with auditLogs := db.auditLogs.insert id b }

/-- The joined row with another log. -/
def JoinedRow.withLog (id : Uuid) (b : AuditLog) (row : JoinedRow) : JoinedRow :=
  if row.auditLogId = id then { row with log := b } else row

theorem JoinedRow.record_withLog (row : JoinedRow) : (row.withLog id b).record = row.record := by
  unfold withLog
  split <;> rfl

theorem AuditDb.joined_setLog (ha : db.auditLogs.find? id = some a) :
    (db.setLog id b).joined v = (db.joined v).map (JoinedRow.withLog id b) := by
  unfold joined setLog
  rw [List.map_insertionSort (fun x y => x.record.sequenceNumber ≤ y.record.sequenceNumber)
    (fun x y => x.record.sequenceNumber ≤ y.record.sequenceNumber) (JoinedRow.withLog id b),
    List.map_filterMap]
  · congr 1
    apply List.filterMap_congr
    intro e _
    by_cases he : e.1 = id
    · subst he
      simp only [Table.find?_insert_self, ha, Option.map_some, JoinedRow.withLog, if_true]
    · rw [Table.find?_insert_of_ne _ _ he]
      cases db.auditLogs.find? e.1 with
      | none => rfl
      | some c => simp only [Option.map_some, JoinedRow.withLog, if_neg he]
  · intro x _ y _
    rw [JoinedRow.record_withLog, JoinedRow.record_withLog]

/-- A row of the same content has the same payload hash. -/
theorem payloadHash_withLog (hsame : SameContent p a b) {row : JoinedRow}
    (hrow : row.auditLogId = id → row.log = a) :
    (row.withLog id b).payloadHash p = row.payloadHash p := by
  unfold JoinedRow.withLog
  by_cases hid : row.auditLogId = id
  · rw [if_pos hid]
    show p.sha256 _ = p.sha256 _
    rw [hrow hid, canonicalJson_row_eq_iff.mpr hsame]
  · rw [if_neg hid]

theorem auditLogId_withLog (row : JoinedRow) : (row.withLog id b).auditLogId = row.auditLogId := by
  unfold JoinedRow.withLog
  split <;> rfl

theorem signatureFails_withLog (row : JoinedRow) :
    SignatureFails p k mode allow (row.withLog id b) ↔ SignatureFails p k mode allow row := by
  unfold SignatureFails
  rw [JoinedRow.record_withLog]

/-- A change that keeps the content keeps the chain as clean as it was. -/
theorem cleanFrom_withLog (hsame : SameContent p a b) {rows : List JoinedRow}
    (hrows : ∀ row ∈ rows, row.auditLogId = id → row.log = a) {n : Int} {h : Option String} :
    CleanFrom p v k mode allow n h (rows.map (JoinedRow.withLog id b)) ↔
      CleanFrom p v k mode allow n h rows := by
  induction rows generalizing n h with
  | nil => simp [CleanFrom]
  | cons row rows ih =>
    have hpayload := payloadHash_withLog hsame (hrows row List.mem_cons_self)
    have hrec : (row.withLog id b).record = row.record := row.record_withLog
    have hfollows : (scheme p v).follows n h (row.withLog id b) = true ↔
        (scheme p v).follows n h row = true := by
      have hrecomputed : (row.withLog id b).recomputedRowHash p v =
          row.recomputedRowHash p v := by
        unfold JoinedRow.recomputedRowHash
        rw [hpayload, hrec, auditLogId_withLog]
      rw [Scheme.follows_iff, Scheme.follows_iff]
      simp only [scheme, Bool.and_eq_true, decide_eq_true_eq, hrecomputed, hpayload, hrec]
    rw [List.map_cons, cleanFrom_cons, cleanFrom_cons, hfollows, signatureFails_withLog, hrec,
      ih fun x hx => hrows x (List.mem_cons_of_mem _ hx)]

theorem clean_setLog (ha : db.auditLogs.find? id = some a) (hsame : SameContent p a b) :
    Clean p k mode allow (db.setLog id b) v ↔ Clean p k mode allow db v := by
  unfold Clean
  rw [AuditDb.joined_setLog ha]
  apply cleanFrom_withLog hsame
  intro row hmem hid
  have hlog := (AuditDb.mem_joined.mp hmem).2.2
  rw [hid, ha] at hlog
  exact (Option.some.inj hlog).symm

/-- The run verified the row of a log: it came past it without a failure. -/
def VerifiedRow (p : Primitives) (k : AuditHmacKeyring) (mode : VerifyMode) (allow : Bool)
    (db : AuditDb) (v : Int) (id : Uuid) : Prop :=
  ∃ before row after, db.joined v = before ++ row :: after ∧ row.auditLogId = id ∧
    CleanFrom p v k mode allow 0 none (before ++ [row])

/-- **A run notices a change of a verified row exactly when the change is one of content**,
unless the chain failed already further on. -/
theorem content_binding (hsha : Function.Injective p.sha256)
    (hverified : VerifiedRow p k mode allow db v id) (ha : db.auditLogs.find? id = some a)
    (b : AuditLog) :
    (verifyChain p k mode allow (db.setLog id b) v).status = .failed ↔
      ¬ SameContent p a b ∨ ¬ Clean p k mode allow db v := by
  rw [verifyChain_failed_iff]
  by_cases hsame : SameContent p a b
  · rw [clean_setLog ha hsame]
    simp [hsame]
  · simp only [hsame, not_false_eq_true, true_or, iff_true]
    intro hclean
    obtain ⟨before, row, after, hrows, hid, hlinked, -⟩ := hverified
    have hmem : row ∈ db.joined v := by simp [hrows]
    have hlog : row.log = a := by
      have hfind := (AuditDb.mem_joined.mp hmem).2.2
      rw [hid, ha] at hfind
      exact (Option.some.inj hfind).symm
    -- both versions of the row hash to the stored payload hash
    have hvalid := hlinked.valid row (by simp)
    have hmem' : row.withLog id b ∈ (db.setLog id b).joined v := by
      rw [AuditDb.joined_setLog ha]
      exact List.mem_map_of_mem hmem
    have hvalid' := hclean.1.valid _ hmem'
    simp only [scheme, Bool.and_eq_true, decide_eq_true_eq] at hvalid hvalid'
    have hrec : (row.withLog id b).record = row.record := row.record_withLog
    rw [hrec] at hvalid'
    have heq := hsha (hvalid.1.trans hvalid'.1.symm)
    unfold JoinedRow.withLog at heq
    rw [if_pos hid, hlog, hid] at heq
    exact hsame (canonicalJson_row_eq_iff.mp heq)

theorem openDigests_injective : Function.Injective openDigests.sha256 := by
  intro s t h
  have hl : ("sha256:" ++ s).toList = ("sha256:" ++ t).toList := congrArg String.toList h
  rw [String.toList_append, String.toList_append] at hl
  exact String.toList_inj.mp (List.append_cancel_left hl)

/-- One written row. -/
def singleDb : AuditDb :=
  (Sys.calls (auditProgram openDigests) ⟨.empty, .empty⟩
    [.createEvent firstRing ⟨1⟩ sampleTime (sampleEvent "t1")] : AuditSys openDigests Unit).db

def singleLog : AuditLog := (sampleEvent "t1").log sampleTime

/-- The missing decision type of the row becomes an empty one. -/
def blankedLog : AuditLog := { singleLog with decisionType := some "" }

theorem singleDb_find : singleDb.auditLogs.find? ⟨1⟩ = some singleLog := by decide +kernel

theorem singleDb_clean : Clean openDigests firstRing .strict false singleDb chainVersion := by
  have hpassed : (verifyChain openDigests firstRing .strict false singleDb chainVersion).status =
      .passed := by decide +kernel
  exact (verifyChain_passed_iff.mp hpassed).1

theorem blanked_row_passes :
    singleDb.auditLogs.find? ⟨1⟩ = some singleLog ∧
      singleLog.decisionType ≠ blankedLog.decisionType ∧
      (verifyChain openDigests firstRing .strict false singleDb chainVersion).status = .passed ∧
      (verifyChain openDigests firstRing .strict false (singleDb.setLog ⟨1⟩ blankedLog)
        chainVersion).status = .passed := by
  refine ⟨singleDb_find, by decide +kernel, ?_, ?_⟩
  · exact verifyChain_passed_iff.mpr ⟨singleDb_clean, by decide +kernel, fun h => by cases h⟩
  · refine verifyChain_passed_iff.mpr ⟨?_, by decide +kernel, fun h => by cases h⟩
    have hpayload : buildCanonicalPayload openDigests (singleLog.row ⟨1⟩) =
        buildCanonicalPayload openDigests (blankedLog.row ⟨1⟩) := rfl
    have hsame : SameContent openDigests singleLog blankedLog :=
      canonicalJson_row_eq_iff.mp (congrArg canonicalJson hpayload)
    exact (clean_setLog singleDb_find hsame).mpr singleDb_clean

theorem content_binding_blanked :
    ∃ id a b, singleDb.auditLogs.find? id = some a ∧
      ((verifyChain openDigests firstRing .strict false (singleDb.setLog id b)
          chainVersion).status = .failed ↔
        ¬ SameContent openDigests a b ∨
          ¬ Clean openDigests firstRing .strict false singleDb chainVersion) := by
  have hfind : singleDb.auditLogs.find? ⟨1⟩ = some singleLog := by decide +kernel
  have hrows : (singleDb.joined chainVersion).map JoinedRow.auditLogId = [⟨1⟩] := by
    decide +kernel
  obtain ⟨row, hrow, hid⟩ := List.map_eq_singleton_iff.mp hrows
  have hverified : VerifiedRow openDigests firstRing .strict false singleDb chainVersion ⟨1⟩ := by
    refine ⟨[], row, [], hrow, hid, ?_⟩
    rw [List.nil_append, ← hrow]
    exact singleDb_clean
  exact ⟨⟨1⟩, singleLog, blankedLog, hfind,
    content_binding openDigests_injective hverified hfind blankedLog⟩

end AiAgentsSwd.Audit
