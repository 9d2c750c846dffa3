import AiAgentsSwd.Audit.Store
import AiAgentsSwd.ReadCommitted.Tables

/-!
# Audit.Writers — an untampered chain verifies

1. `exec_createIntegrity_ok`, `exec_insertAuditLog_ok`: what a writer's transaction does;
2. `auditProgram_stable`: why the writers commit as if alone. Every statement on the records
   runs under the chain's advisory lock, and a committed log never changes;
3. `payloadHash_eq`: the three dictionaries of a log have the canonical payload that the
   verifier rebuilds from the stored row;
4. `ChainInv`, kept by every commit, and from it `untampered_chain_verifies`.
-/

namespace AiAgentsSwd.Audit

open ReadCommitted ReadCommitted.Txn
open Keyed (Table Evolves)
open HashChain (Scheme)
open Planning (Uuid)
open Json (Value)

variable {p : Primitives}

/-! ## What a transaction does -/

/-- The database with one more record. -/
def AuditDb.addRecord (db : AuditDb) (id : Uuid) (r : IntegrityRecord) : AuditDb :=
  { db with records := db.records.insert id r }

/-- The database with one more log. -/
def AuditDb.addLog (db : AuditDb) (id : Uuid) (a : AuditLog) : AuditDb :=
  { db with auditLogs := db.auditLogs.insert id a }

/-- A transaction on a row either finds the row chained or appends the next record. -/
theorem exec_createIntegrity_ok {k : AuditHmacKeyring} {row : AuditLogRow}
    {st : IntegrityStatus} {s : AuditDb}
    {o : Outcome AuditDb AuditLock (Option IntegrityRecord)}
    (h : exec (createIntegrityRecordInTxn p k row st) s = .ok o) :
    ((s.records.find? row.auditLogId).isSome ∧ o = ⟨none, s, [.chain]⟩) ∨
      (s.records.find? row.auditLogId = none ∧
        o = ⟨some (nextRecord p k row (s.latest chainVersion) st),
          s.addRecord row.auditLogId (nextRecord p k row (s.latest chainVersion) st),
          [.chain]⟩) := by
  simp only [createIntegrityRecordInTxn, bind_eq, pure_eq, lockRow_bind, select_bind,
    exec_lock_ok, exec_query] at h
  obtain ⟨o', ho', rfl⟩ := h
  cases hf : (s.records.find? row.auditLogId).isSome with
  | true =>
    rw [hf, if_pos rfl, exec_done] at ho'
    obtain rfl := Except.ok.inj ho'
    exact Or.inl ⟨rfl, rfl⟩
  | false =>
    rw [hf] at ho'
    simp only [Bool.false_eq_true, if_false, exec_query, insertRecord, query_bind] at ho'
    split at ho'
    · cases ho'
    · simp only [modify_bind, exec_write, exec_done, Except.ok.injEq] at ho'
      subst ho'
      exact Or.inr ⟨by simpa using hf, rfl⟩

theorem exec_insertAuditLog_ok {id : Uuid} {a : AuditLog} {s : AuditDb}
    {o : Outcome AuditDb AuditLock Unit} (h : exec (insertAuditLog id a) s = .ok o) :
    s.auditLogs.find? id = none ∧ o = ⟨(), s.addLog id a, [.auditLog id]⟩ := by
  simp only [insertAuditLog, bind_eq, lockRow_bind, exec_lock_ok, exec_query] at h
  obtain ⟨o', ho', rfl⟩ := h
  split at ho'
  · cases ho'
  next hn =>
    simp only [Txn.modify, exec_write, exec_done, Except.ok.injEq] at ho'
    subst ho'
    exact ⟨by simpa using hn, rfl⟩

/-! ## The writers commit as if alone -/

/-- What a writer that took the locks `l` may have done: logs are only added, each under
its lock, and the records change only under the lock of the chain. -/
structure AuditGuar (l : List AuditLock) (s t : AuditDb) : Prop where
  logs : Evolves AuditLock.auditLog (fun x y => y = x) l s.auditLogs t.auditLogs
  records : t.records = s.records ∨ .chain ∈ l

theorem AuditGuar.refl (l : List AuditLock) (s : AuditDb) : AuditGuar l s s :=
  ⟨.refl fun _ => rfl, Or.inl rfl⟩

theorem AuditGuar.trans {l : List AuditLock} {s t u : AuditDb} (h : AuditGuar l s t)
    (h' : AuditGuar l t u) : AuditGuar l s u where
  logs := h.logs.trans (fun _ _ _ hxy hyz => hyz.trans hxy) h'.logs
  records := by
    rcases h.records with hr | hr
    · rcases h'.records with hr' | hr'
      · exact Or.inl (hr'.trans hr)
      · exact Or.inr hr'
    · exact Or.inr hr

theorem AuditGuar.mono {l l' : List AuditLock} {s t : AuditDb} (hl : l ⊆ l')
    (h : AuditGuar l s t) : AuditGuar l' s t :=
  ⟨h.logs.mono hl, h.records.imp_right fun hc => hl hc⟩

theorem guar_createIntegrity {k : AuditHmacKeyring} {row : AuditLogRow}
    {st : IntegrityStatus} {s : AuditDb}
    {o : Outcome AuditDb AuditLock (Option IntegrityRecord)}
    (h : exec (createIntegrityRecordInTxn p k row st) s = .ok o) :
    AuditGuar o.locks s o.state := by
  rcases exec_createIntegrity_ok h with ⟨-, rfl⟩ | ⟨-, rfl⟩
  · exact .refl _ _
  · exact ⟨.refl fun _ => rfl, Or.inr (by simp)⟩

theorem guar_insertAuditLog {id : Uuid} {a : AuditLog} {s : AuditDb}
    {o : Outcome AuditDb AuditLock Unit} (h : exec (insertAuditLog id a) s = .ok o) :
    AuditGuar o.locks s o.state := by
  obtain ⟨hn, rfl⟩ := exec_insertAuditLog_ok h
  exact ⟨.insert (fun _ => rfl) hn (by simp), Or.inl rfl⟩

/-- Every call keeps to the guarantee. -/
theorem auditProgram_guar {c : AuditCall p} {s : AuditDb}
    {o : Outcome AuditDb AuditLock (Option IntegrityRecord)}
    (h : exec (auditProgram p c) s = .ok o) : AuditGuar o.locks s o.state := by
  have hfor : ∀ {k id a row st}, exec (createIntegrityRecordFor p k id a row st) s = .ok o →
      AuditGuar o.locks s o.state := by
    intro k id a row st hx
    simp only [createIntegrityRecordFor, exec_query] at hx
    split at hx
    · exact guar_createIntegrity hx
    · cases hx
  cases c with
  | createEvent k id now e =>
    obtain ⟨o₁, o₂, h₁, h₂, rfl⟩ := exec_bind_ok.mp h
    have hg₁ := (guar_insertAuditLog h₁).mono (List.subset_append_left _ o₂.locks)
    have hg₂ := (guar_createIntegrity h₂).mono (List.subset_append_right o₁.locks _)
    exact hg₁.trans hg₂
  | writeAuditLog id now e =>
    obtain ⟨o₁, o₂, h₁, h₂, rfl⟩ := exec_bind_ok.mp h
    obtain rfl := Except.ok.inj h₂
    exact (guar_insertAuditLog h₁).mono (List.subset_append_left _ _)
  | workerIntegrity k id now e => exact hfor h
  | backfillIntegrity k id a => exact hfor h

section Stable

variable {L : List AuditLock} {s t : AuditDb} {w : AuditDb → AuditDb}

abbrev AuditRely (L : List AuditLock) (s t : AuditDb) : Prop :=
  Rely (fun _ => True) AuditGuar L s t

/-- A committed log never changes. -/
theorem rely_log (h : AuditRely L s t) {id : Uuid} {a : AuditLog}
    (ha : s.auditLogs.find? id = some a) : t.auditLogs.find? id = some a :=
  h.fixed (T := AuditDb.auditLogs) (fun _ _ _ hg => hg.logs) ha

theorem rely_log_locked (h : AuditRely L s t) {id : Uuid} (hl : .auditLog id ∈ L) :
    t.auditLogs.find? id = s.auditLogs.find? id :=
  h.row (T := AuditDb.auditLogs) (fun _ _ _ hg => hg.logs) hl

/-- Under the lock of the chain nobody else appends to it. -/
theorem rely_records (h : AuditRely L s t) (hl : .chain ∈ L) : t.records = s.records := by
  apply h.keeps (P := fun t => t.records = s.records) _ rfl
  intro a b l _ _ hg hout hab
  rcases hg.records with hr | hr
  · exact hr.trans hab
  · exact absurd hl (hout _ hr)

theorem stable_createIntegrity {k : AuditHmacKeyring} {row : AuditLogRow}
    {st : IntegrityStatus} (hw : ∀ t, (w t).records = t.records) :
    Stable (fun _ => True) AuditGuar (fun _ => False) (createIntegrityRecordInTxn p k row st) L w s
      fun _ _ _ _ => True := by
  simp only [createIntegrityRecordInTxn, bind_eq, pure_eq, lockRow_bind, select_bind, stable_lock]
  intro t₀ _
  have hlock : AuditLock.chain ∈ L ++ [.chain] := by simp
  apply stable_query_of_eq
  intro t₁ _
  refine ⟨fun t' ht' => by simp only [hw, rely_records ht' hlock], ?_⟩
  cases hf : ((w t₁).records.find? row.auditLogId).isSome with
  | true =>
    rw [if_pos rfl]
    exact fun _ _ => trivial
  | false =>
    simp only [Bool.false_eq_true, if_false]
    apply stable_query_of_eq
    intro t₂ _
    have hlatest : ∀ x y : AuditDb, x.records = y.records →
        x.latest chainVersion = y.latest chainVersion := by
      intro x y hxy
      simp only [AuditDb.latest, AuditDb.chain, hxy]
    refine ⟨fun t' ht' => ?_, ?_⟩
    · rw [hlatest (w t') (w t₂) (by rw [hw, hw, rely_records ht' hlock])]
    · simp only [insertRecord, query_bind]
      apply stable_query_of_eq
      intro t₃ _
      refine ⟨fun t' ht' => by simp only [hw, rely_records ht' hlock], ?_⟩
      split
      · trivial
      · exact fun _ _ => trivial

theorem stable_insertAuditLog {id : Uuid} {a : AuditLog} (hw : ∀ t, w t = t) :
    Stable (fun _ => True) AuditGuar (fun _ => False) (insertAuditLog id a) L w s
      fun _ _ w _ => ∀ t, (w t).records = t.records := by
  simp only [insertAuditLog, bind_eq, lockRow_bind, stable_lock]
  intro t₀ _
  have hlock : AuditLock.auditLog id ∈ L ++ [.auditLog id] := by simp
  apply stable_query_of_eq
  intro t₁ _
  refine ⟨fun t' ht' => by simp only [hw, rely_log_locked ht' hlock], ?_⟩
  split
  · trivial
  · intro t' _ t
    show (w t).records = t.records
    rw [hw]

theorem stable_createIntegrityRecordFor {k : AuditHmacKeyring} {id : Uuid} {a : AuditLog}
    {row : AuditLogRow} {st : IntegrityStatus} (hw : ∀ t, w t = t) :
    Stable (fun _ => True) AuditGuar (fun _ => False)
      (createIntegrityRecordFor p k id a row st) L w s fun _ _ _ _ => True := by
  unfold createIntegrityRecordFor
  apply stable_query
  intro t _
  by_cases ha : (w t).auditLogs.find? id = some a
  · right
    have hkeep : ∀ t', AuditRely L t t' → (w t').auditLogs.find? id = some a := by
      intro t' ht'
      rw [hw] at ha ⊢
      exact rely_log ht' ha
    refine ⟨fun t' ht' => by rw [if_pos ha, if_pos (hkeep t' ht')], ?_⟩
    rw [if_pos ha]
    exact stable_createIntegrity fun t => by rw [hw]
  · left
    rw [if_neg ha]
    exact .raise _

end Stable

theorem auditProgram_stable (c : AuditCall p) (s : AuditDb) :
    Stable (fun _ => True) AuditGuar (fun _ => False) (auditProgram p c) [] id s
      fun _ _ _ _ => True := by
  cases c with
  | createEvent k id now e =>
    refine Stable.bind (stable_insertAuditLog fun _ => rfl) fun _ L w t hw => ?_
    exact stable_createIntegrity hw
  | writeAuditLog id now e =>
    refine Stable.bind (stable_insertAuditLog fun _ => rfl) fun _ L w t hw => ?_
    exact fun _ _ => trivial
  | workerIntegrity k id now e => exact stable_createIntegrityRecordFor fun _ => rfl
  | backfillIntegrity k id a => exact stable_createIntegrityRecordFor fun _ => rfl

/-! ## One payload hash for all writers -/

/-- The dictionary has the payload hash that the verifier rebuilds from the stored log. -/
def Faithful (p : Primitives) (id : Uuid) (a : AuditLog) (row : AuditLogRow) : Prop :=
  row.auditLogId = id ∧ buildCanonicalPayload p row = buildCanonicalPayload p (a.row id)

theorem faithful_row (id : Uuid) (a : AuditLog) : Faithful p id a (a.row id) := ⟨rfl, rfl⟩

/-- Parsing the references early makes no difference when they are an object. -/
theorem canonicalRefs_parsedRefs {text : String} {ms : List (String × Value)}
    (h : Json.loads p.float text = some (.obj ms)) :
    canonicalRefs p (parsedRefs p text) = canonicalRefs p (.str text) := by
  have hne : text ≠ "" := by
    rintro rfl
    cases h
  simp only [parsedRefs, h, Option.getD_some, canonicalRefs, if_neg hne]

theorem faithful_postRow (id : Uuid) (now : UtcDateTime) (e : AuditEvent p) :
    Faithful p id (e.log now) (postRow p id (e.log now)) := by
  obtain ⟨ms, hms⟩ := e.refs_object
  refine ⟨rfl, ?_⟩
  simp only [buildCanonicalPayload, postRow, AuditLog.row, AuditEvent.log,
    canonicalRefs_parsedRefs hms]

theorem faithful_rowToAudit (id : Uuid) (now : UtcDateTime) (e : AuditEvent p) :
    Faithful p id (e.log now) (rowToAudit p id (e.log now)) := by
  obtain ⟨ms, hms⟩ := e.refs_object
  refine ⟨rfl, ?_⟩
  simp only [buildCanonicalPayload, rowToAudit, AuditLog.row, AuditEvent.log,
    canonicalRefs_parsedRefs hms, coerceCreatedAt]

/-! ## The next record goes to the end of the chain -/

theorem orderedInsert_eq_append {α : Type} {r : α → α → Prop} [DecidableRel r] {a : α}
    {l : List α} (h : ∀ b ∈ l, ¬ r a b) : l.orderedInsert r a = l ++ [a] := by
  induction l with
  | nil => rfl
  | cons b l ih =>
    rw [List.orderedInsert, if_neg (h b List.mem_cons_self), List.cons_append,
      ih fun c hc => h c (List.mem_cons_of_mem _ hc)]

/-- A new record that is numbered last is joined last. -/
theorem AuditDb.joined_addRecord {db : AuditDb} {v : Int} {id : Uuid} {r : IntegrityRecord}
    {a : AuditLog} (hn : db.records.find? id = none) (ha : db.auditLogs.find? id = some a)
    (hv : r.chainVersion = v)
    (hlast : ∀ row ∈ db.joined v, row.record.sequenceNumber < r.sequenceNumber) :
    (db.addRecord id r).joined v = db.joined v ++ [⟨id, r, a⟩] := by
  unfold joined addRecord
  simp only [Table.rows_insert hn]
  rw [List.filter_cons, if_pos (by simpa using hv), List.filterMap_cons, ha]
  simp only [Option.map_some]
  rw [List.insertionSort_cons]
  apply orderedInsert_eq_append
  intro row hrow hle
  have hlt := hlast row hrow
  have hle' : r.sequenceNumber ≤ row.record.sequenceNumber := hle
  omega

/-- A new log that no record names is joined with none. -/
theorem AuditDb.joined_addLog {db : AuditDb} {v : Int} {id : Uuid} {a : AuditLog}
    (hn : db.records.find? id = none) : (db.addLog id a).joined v = db.joined v := by
  unfold joined addLog
  congr 1
  apply List.filterMap_congr
  intro e he
  have hne : e.1 ≠ id := by
    rintro rfl
    rw [Table.mem_rows.mp (List.mem_of_mem_filter he)] at hn
    cases hn
  rw [Table.find?_insert_of_ne _ _ hne]

theorem AuditDb.latest_eq_none {db : AuditDb} {v : Int} (h : db.latest v = none) :
    db.chain v = [] := by
  unfold latest at h
  rw [List.head?_eq_none_iff] at h
  have hperm := List.perm_insertionSort
    (fun a b : IntegrityRecord => b.sequenceNumber ≤ a.sequenceNumber) ((db.chain v).map Prod.snd)
  rw [h] at hperm
  exact List.map_eq_nil_iff.mp hperm.nil_eq.symm

theorem AuditDb.latest_eq_some {db : AuditDb} {v : Int} {r : IntegrityRecord}
    (h : db.latest v = some r) :
    (∃ id, (id, r) ∈ db.chain v) ∧
      ∀ id r', (id, r') ∈ db.chain v → r'.sequenceNumber ≤ r.sequenceNumber := by
  unfold latest at h
  have hperm := List.perm_insertionSort
    (fun a b : IntegrityRecord => b.sequenceNumber ≤ a.sequenceNumber) ((db.chain v).map Prod.snd)
  have hsorted := List.pairwise_insertionSort
    (fun a b : IntegrityRecord => b.sequenceNumber ≤ a.sequenceNumber) ((db.chain v).map Prod.snd)
  obtain ⟨rest, hrest⟩ := List.head?_eq_some_iff.mp h
  rw [hrest] at hperm hsorted
  constructor
  · obtain ⟨⟨id, r'⟩, hmem, rfl⟩ := List.mem_map.mp (hperm.mem_iff.mp List.mem_cons_self)
    exact ⟨id, hmem⟩
  · intro id r' hmem
    have hmem' := hperm.mem_iff.mpr (List.mem_map_of_mem (f := Prod.snd) hmem)
    rcases List.mem_cons.mp hmem' with heq | hmem'
    · exact le_of_eq (congrArg _ heq)
    · exact (List.pairwise_cons.mp hsorted).1 r' hmem'

/-! ## The invariant -/

/-- What holds of the tables after the commits `ms`. -/
structure ChainInv (p : Primitives)
    (ms : List (Commit AuditDb (Option IntegrityRecord) (AuditCall p))) (db : AuditDb) :
    Prop where
  logged : ∀ id r, db.records.find? id = some r →
    r.chainVersion = chainVersion ∧ (db.auditLogs.find? id).isSome
  linked : (scheme p chainVersion).Linked 0 none (db.joined chainVersion)
  genesis : ∀ row ∈ db.joined chainVersion,
    row.record.sequenceNumber = 1 → row.record.prevHash = none
  signed : ∀ id r, db.records.find? id = some r → ∃ m ∈ ms, ∃ k : AuditHmacKeyring,
    m.call.keyring? = some k ∧ m.reply = some r ∧
      r.hmacSignature = (sign p k r.rowHash).signature ∧
      r.signatureStatus = (sign p k r.rowHash).status ∧
      r.signingKeyId = some (sign p k r.rowHash).keyId

section Invariant

variable {ms : List (Commit AuditDb (Option IntegrityRecord) (AuditCall p))} {db : AuditDb}
  {id : Uuid} {a : AuditLog}

/-- Every record of the table is joined. -/
theorem ChainInv.mem_joined (h : ChainInv p ms db) {r : IntegrityRecord}
    (hr : db.records.find? id = some r) :
    ∃ a, (⟨id, r, a⟩ : JoinedRow) ∈ db.joined chainVersion := by
  obtain ⟨hv, hlog⟩ := h.logged id r hr
  obtain ⟨a, ha⟩ := Option.isSome_iff_exists.mp hlog
  exact ⟨a, AuditDb.mem_joined.mpr ⟨hr, hv, ha⟩⟩

/-- The latest record is the last one joined. -/
theorem ChainInv.latest (h : ChainInv p ms db) :
    db.latest chainVersion = (db.joined chainVersion).getLast?.map JoinedRow.record := by
  have hchain : ∀ i r, (i, r) ∈ db.chain chainVersion →
      ∃ a, (⟨i, r, a⟩ : JoinedRow) ∈ db.joined chainVersion :=
    fun i r hmem => h.mem_joined (AuditDb.mem_chain.mp hmem).1
  have hrow : ∀ row ∈ db.joined chainVersion,
      (row.auditLogId, row.record) ∈ db.chain chainVersion := by
    intro row hmem
    obtain ⟨hr, hv, -⟩ := AuditDb.mem_joined.mp hmem
    exact AuditDb.mem_chain.mpr ⟨hr, hv⟩
  cases hl : db.latest chainVersion with
  | none =>
    have hnil := AuditDb.latest_eq_none hl
    have hjoined : db.joined chainVersion = [] := by
      rw [List.eq_nil_iff_forall_not_mem]
      intro row hmem
      have hmem' := hrow row hmem
      rw [hnil] at hmem'
      cases hmem'
    rw [hjoined]
    rfl
  | some r =>
    obtain ⟨⟨i, hmem⟩, hmax⟩ := AuditDb.latest_eq_some hl
    obtain ⟨a, hjoined⟩ := hchain i r hmem
    obtain ⟨rows, x, hrows⟩ : ∃ rows x, db.joined chainVersion = rows ++ [x] := by
      refine ⟨(db.joined chainVersion).dropLast, _, (List.dropLast_append_getLast ?_).symm⟩
      intro hnil
      rw [hnil] at hjoined
      cases hjoined
    have hpair := h.linked.pairwise
    rw [hrows, List.getLast?_concat]
    rw [hrows] at hjoined hpair
    -- the row of `r` is the last one, since the others are numbered below it
    rcases List.mem_append.mp hjoined with hin | hin
    · have hlt : r.sequenceNumber < x.record.sequenceNumber :=
        (List.pairwise_append.mp hpair).2.2 _ hin x (by simp)
      have hle := hmax _ _ (hrow x (by rw [hrows]; simp))
      omega
    · rw [← List.mem_singleton.mp hin]
      rfl

/-- A commit more on the log changes nothing. -/
theorem ChainInv.snoc (h : ChainInv p ms db)
    (m : Commit AuditDb (Option IntegrityRecord) (AuditCall p)) : ChainInv p (ms ++ [m]) db := by
  refine ⟨h.logged, h.linked, h.genesis, fun i r hr => ?_⟩
  obtain ⟨m', hm', hrest⟩ := h.signed i r hr
  exact ⟨m', List.mem_append_left _ hm', hrest⟩

theorem ChainInv.fresh (h : ChainInv p ms db) (hn : db.auditLogs.find? id = none) :
    db.records.find? id = none := by
  cases hr : db.records.find? id with
  | none => rfl
  | some r =>
    have hlog := (h.logged id r hr).2
    rw [hn] at hlog
    cases hlog

theorem ChainInv.addLog (h : ChainInv p ms db) (hn : db.auditLogs.find? id = none) :
    ChainInv p ms (db.addLog id a) := by
  have hjoined := AuditDb.joined_addLog (v := chainVersion) (a := a) (h.fresh hn)
  refine ⟨fun i r hr => ?_, by rw [hjoined]; exact h.linked, by rw [hjoined]; exact h.genesis,
    h.signed⟩
  obtain ⟨hv, hlog⟩ := h.logged i r hr
  refine ⟨hv, ?_⟩
  show ((db.auditLogs.insert id a).find? i).isSome
  rw [Table.find?_insert]
  split
  · rfl
  · exact hlog

/-- **The step lemma**: the next record of a stored log extends the chain. -/
theorem ChainInv.addRecord (h : ChainInv p ms db) {row : AuditLogRow} {k : AuditHmacKeyring}
    {st : IntegrityStatus} (hrow : Faithful p id a row) (ha : db.auditLogs.find? id = some a)
    (hn : db.records.find? id = none)
    {m : Commit AuditDb (Option IntegrityRecord) (AuditCall p)} (hm : m ∈ ms)
    (hk : m.call.keyring? = some k)
    (hreply : m.reply = some (nextRecord p k row (db.latest chainVersion) st)) :
    ChainInv p ms (db.addRecord id (nextRecord p k row (db.latest chainVersion) st)) := by
  obtain ⟨hid, hpayload⟩ := hrow
  generalize hx : nextRecord p k row (db.latest chainVersion) st = x at hreply ⊢
  have hseq : x.sequenceNumber =
      (scheme p chainVersion).endSeq 0 (db.joined chainVersion) + 1 := by
    rw [← hx, h.latest]
    unfold Scheme.endSeq nextRecord
    cases (db.joined chainVersion).getLast? <;> rfl
  have hprev : x.prevHash =
      (scheme p chainVersion).endHash none (db.joined chainVersion) := by
    rw [← hx, h.latest]
    unfold Scheme.endHash nextRecord
    cases (db.joined chainVersion).getLast? <;> rfl
  have hlen := h.linked.endSeq
  have hlast : ∀ row ∈ db.joined chainVersion, row.record.sequenceNumber < x.sequenceNumber := by
    intro row hmem
    obtain ⟨i, hi, rfl⟩ := List.mem_iff_getElem.mp hmem
    have hsi : (db.joined chainVersion)[i].record.sequenceNumber = 0 + 1 + i :=
      h.linked.seq_getElem i hi
    omega
  have hv : x.chainVersion = chainVersion := by
    rw [← hx]
    rfl
  have hjoined := AuditDb.joined_addRecord hn ha hv hlast
  have hvalid : (scheme p chainVersion).valid ⟨id, x, a⟩ = true := by
    have hpay : (⟨id, x, a⟩ : JoinedRow).payloadHash p = x.canonicalPayloadHash := by
      rw [← hx]
      show computePayloadHash p (buildCanonicalPayload p (a.row id)) = _
      rw [← hpayload]
      rfl
    have hhash : (⟨id, x, a⟩ : JoinedRow).recomputedRowHash p chainVersion = x.rowHash := by
      unfold JoinedRow.recomputedRowHash
      rw [hpay, ← hx, ← hid]
      rfl
    simp only [scheme, hpay, hhash, decide_true, Bool.and_self]
  refine ⟨fun i r hr => ?_, ?_, ?_, fun i r hr => ?_⟩
  · have hr' : (db.records.insert id x).find? i = some r := hr
    rw [Table.find?_insert] at hr'
    split at hr'
    · next heq =>
      obtain rfl := Option.some.inj hr'
      subst heq
      exact ⟨hv, by show (db.auditLogs.find? i).isSome; rw [ha]; rfl⟩
    · exact h.logged i r hr'
  · rw [hjoined, Scheme.linked_append]
    refine ⟨h.linked, Scheme.linked_cons.mpr ⟨?_, Scheme.linked_nil⟩⟩
    exact Scheme.follows_iff.mpr ⟨hseq, hvalid, fun _ => hprev⟩
  · rw [hjoined]
    intro row hmem hone
    rcases List.mem_append.mp hmem with hin | hin
    · exact h.genesis row hin hone
    · rw [List.mem_singleton.mp hin] at hone ⊢
      have hone' : x.sequenceNumber = 1 := hone
      have hnil : db.joined chainVersion = [] := List.eq_nil_of_length_eq_zero (by omega)
      show x.prevHash = none
      rw [hprev, hnil]
      rfl
  · have hr' : (db.records.insert id x).find? i = some r := hr
    rw [Table.find?_insert] at hr'
    split at hr'
    · obtain rfl := Option.some.inj hr'
      refine ⟨m, hm, k, hk, hreply, ?_⟩
      rw [← hx]
      exact ⟨rfl, rfl, rfl⟩
    · exact h.signed i r hr'

end Invariant

/-! ## Runs -/

/-- Every commit of a writer keeps the invariant. -/
theorem ChainInv.commit {ms : List (Commit AuditDb (Option IntegrityRecord) (AuditCall p))}
    {m : Commit AuditDb (Option IntegrityRecord) (AuditCall p)} {l : List AuditLock}
    (h : ChainInv p ms m.before)
    (hm : exec (auditProgram p m.call) m.before = .ok ⟨m.reply, m.after, l⟩) :
    ChainInv p (ms ++ [m]) m.after := by
  have hmem : m ∈ ms ++ [m] := by simp
  -- the integrity part, from a state in which the log is there
  have hintegrity : ∀ (st : IntegrityStatus) {s : AuditDb} {l : List AuditLock}
      {k : AuditHmacKeyring} {id : Uuid} {a : AuditLog} {row : AuditLogRow}, ChainInv p (ms ++ [m]) s →
      Faithful p id a row → s.auditLogs.find? id = some a → m.call.keyring? = some k →
      exec (createIntegrityRecordInTxn p k row st) s = .ok ⟨m.reply, m.after, l⟩ →
      ChainInv p (ms ++ [m]) m.after := by
    intro st s l k id a row hs hrow ha hk hx
    rcases exec_createIntegrity_ok hx with ⟨-, heq⟩ | ⟨hn, heq⟩
    · obtain ⟨-, hafter, -⟩ := Outcome.mk.inj heq
      rw [hafter]
      exact hs
    · obtain ⟨hreply, hafter, -⟩ := Outcome.mk.inj heq
      rw [hrow.1] at hn hafter
      rw [hafter]
      exact hs.addRecord hrow ha hn hmem hk hreply
  have hfor : ∀ {k : AuditHmacKeyring} {id : Uuid} {a : AuditLog} {row : AuditLogRow}
      {st : IntegrityStatus}, Faithful p id a row → m.call.keyring? = some k →
      exec (createIntegrityRecordFor p k id a row st) m.before = .ok ⟨m.reply, m.after, l⟩ →
      ChainInv p (ms ++ [m]) m.after := by
    intro k id a row st hrow hk hx
    simp only [createIntegrityRecordFor, exec_query] at hx
    split at hx
    · next ha => exact hintegrity _ (h.snoc m) hrow ha hk hx
    · cases hx
  cases hc : m.call with
  | createEvent k id now e =>
    rw [hc] at hm
    obtain ⟨o₁, o₂, h₁, h₂, heq⟩ := exec_bind_ok.mp hm
    obtain ⟨hn, rfl⟩ := exec_insertAuditLog_ok h₁
    obtain ⟨hreply, hafter, -⟩ := Outcome.mk.inj heq
    have ha : (m.before.addLog id (e.log now)).auditLogs.find? id = some (e.log now) :=
      Table.find?_insert_self _ _ _
    refine hintegrity .active (l := o₂.locks) ((h.snoc m).addLog hn) (faithful_postRow id now e)
      ha (by rw [hc]; rfl) ?_
    rw [hreply, hafter]
    exact h₂
  | writeAuditLog id now e =>
    rw [hc] at hm
    obtain ⟨o₁, o₂, h₁, h₂, heq⟩ := exec_bind_ok.mp hm
    obtain ⟨hn, rfl⟩ := exec_insertAuditLog_ok h₁
    obtain rfl := Except.ok.inj h₂
    obtain ⟨-, hafter, -⟩ := Outcome.mk.inj heq
    rw [hafter]
    exact (h.snoc m).addLog hn
  | workerIntegrity k id now e =>
    rw [hc] at hm
    exact hfor (faithful_rowToAudit id now e) (by rw [hc]; rfl) hm
  | backfillIntegrity k id a =>
    rw [hc] at hm
    exact hfor (faithful_row id a) (by rw [hc]; rfl) hm

/-- A system of writers. -/
abbrev AuditSys (p : Primitives) (ι : Type) :=
  Sys AuditDb AuditLock AuditExn (Option IntegrityRecord) (AuditCall p) ι

/-- What any interleaving of the writers reaches from tables without records. -/
abbrev AuditReachable {ι : Type} [DecidableEq ι] (y : AuditSys p ι) : Prop :=
  Reachable (auditProgram p) (fun s => s.records = .empty) y

/-- A history of writers keeps the invariant. -/
theorem chainInv_of_history {s t : AuditDb}
    {ms : List (Commit AuditDb (Option IntegrityRecord) (AuditCall p))}
    (h : History (auditProgram p) (fun _ => False) s ms t) (hs : s.records = .empty) :
    ChainInv p ms t := by
  induction h with
  | nil =>
    have hnone : ∀ id, s.records.find? id = none := by
      intro id
      rw [hs]
      simp
    have hjoined : s.joined chainVersion = [] := by
      unfold AuditDb.joined
      rw [hs]
      rfl
    refine ⟨fun id r hr => ?_, by rw [hjoined]; exact Scheme.linked_nil,
      by rw [hjoined]; simp, fun id r hr => ?_⟩ <;>
    · rw [hnone] at hr
      cases hr
  | snoc _ hm ih =>
    rcases hm with ⟨hfalse, -⟩ | ⟨l, hl⟩
    · exact hfalse.elim
    · exact ih.commit hl

/-- **The run lemma.** -/
theorem reachable_chainInv {ι : Type} [DecidableEq ι] {y : AuditSys p ι}
    (hy : AuditReachable y) : ChainInv p y.log y.db := by
  obtain ⟨s, hs, -, hist⟩ := serial (fun c s o _ ho => ⟨trivial, auditProgram_guar ho⟩)
    (fun c s _ => auditProgram_stable c s) (fun s _ => .refl _ _) (fun _ _ => trivial) hy
  exact chainInv_of_history hist hs

/-! ## What a run over a written chain reports -/

/-- The records are numbered from 1 without gaps, each naming the hash of the one before
it, the first one none, and no log has two of them. -/
structure Consecutive (l : List (Uuid × IntegrityRecord)) : Prop where
  ids : (l.map Prod.fst).Nodup
  first : ∀ e ∈ l.head?, e.2.prevHash = none
  number : ∀ i (hi : i < l.length), (l.get ⟨i, hi⟩).2.sequenceNumber = i + 1
  prev : ∀ i (hi : i + 1 < l.length),
    (l.get ⟨i + 1, hi⟩).2.prevHash = some (l.get ⟨i, by omega⟩).2.rowHash

/-- A joined row without its log. -/
def JoinedRow.entry (row : JoinedRow) : Uuid × IntegrityRecord := (row.auditLogId, row.record)

/-- The records of the joined rows are those of the chain. -/
theorem ChainInv.perm_chain
    {ms : List (Commit AuditDb (Option IntegrityRecord) (AuditCall p))} {db : AuditDb}
    (h : ChainInv p ms db) :
    ((db.joined chainVersion).map JoinedRow.entry).Perm (db.chain chainVersion) := by
  have hrows : (db.joined chainVersion).Nodup := by
    refine h.linked.pairwise.imp fun {a b} hlt heq => ?_
    rw [heq] at hlt
    exact lt_irrefl _ hlt
  have hnodup : ((db.joined chainVersion).map JoinedRow.entry).Nodup := by
    refine hrows.map_on fun x hx y hy hxy => ?_
    -- a joined row is determined by its record's id
    obtain ⟨hid, hrec⟩ := Prod.mk.inj hxy
    have hlogx := (AuditDb.mem_joined.mp hx).2.2
    have hlogy := (AuditDb.mem_joined.mp hy).2.2
    rw [hid, hlogy] at hlogx
    rcases x with ⟨xi, xr, xa⟩
    rcases y with ⟨yi, yr, ya⟩
    simp only [Option.some.injEq] at hid hrec hlogx
    rw [hid, hrec, hlogx]
  have hchain : (db.chain chainVersion).Nodup := db.records.nodup_rows.filter _
  rw [List.perm_ext_iff_of_nodup hnodup hchain]
  rintro ⟨id, r⟩
  rw [List.mem_map]
  constructor
  · rintro ⟨row, hmem, heq⟩
    obtain ⟨rfl, rfl⟩ := Prod.mk.inj heq
    obtain ⟨hr, hv, -⟩ := AuditDb.mem_joined.mp hmem
    exact AuditDb.mem_chain.mpr ⟨hr, hv⟩
  · intro hmem
    obtain ⟨a, ha⟩ := h.mem_joined (AuditDb.mem_chain.mp hmem).1
    exact ⟨_, ha, rfl⟩

theorem ChainInv.consecutive
    {ms : List (Commit AuditDb (Option IntegrityRecord) (AuditCall p))} {db : AuditDb}
    (h : ChainInv p ms db) :
    ∃ l, l.Perm (db.chain chainVersion) ∧ Consecutive l := by
  have hseq : ∀ i (hi : i < (db.joined chainVersion).length),
      (db.joined chainVersion)[i].record.sequenceNumber = 0 + 1 + i :=
    fun i hi => h.linked.seq_getElem i hi
  refine ⟨(db.joined chainVersion).map JoinedRow.entry, h.perm_chain, ?_, ?_, ?_, ?_⟩
  · rw [(h.perm_chain.map Prod.fst).nodup_iff]
    exact db.records.nodup_keys_filter _
  · intro e he
    cases hl : db.joined chainVersion with
    | nil =>
      rw [hl] at he
      cases he
    | cons row rows =>
      rw [hl] at he
      obtain rfl := Option.some.inj he
      have hmem : row ∈ db.joined chainVersion := by simp [hl]
      have hone := hseq 0 (by simp [hl])
      simp only [hl, List.getElem_cons_zero] at hone
      exact h.genesis row hmem (by omega)
  · intro i hi
    have hs := hseq i (by simpa using hi)
    simp only [List.get_eq_getElem, List.getElem_map, JoinedRow.entry]
    omega
  · intro i hi
    have hi' : i + 1 < (db.joined chainVersion).length := by simpa using hi
    have hs := hseq (i + 1) hi'
    have hlt : 1 < (db.joined chainVersion)[i + 1].record.sequenceNumber := by omega
    have hprev := h.linked.prev_getElem i hi' hlt
    simp only [List.get_eq_getElem, List.getElem_map, JoinedRow.entry]
    exact hprev

/-- A record signed by a keyring is accepted by every keyring that has the same key. -/
theorem not_signatureFails_of_sign {k K : AuditHmacKeyring} {row : JoinedRow} {mode : VerifyMode}
    {allow : Bool} (hne : row.record.rowHash ≠ "")
    (hsig : row.record.hmacSignature = (sign p k row.record.rowHash).signature)
    (hstatus : row.record.signatureStatus = (sign p k row.record.rowHash).status)
    (hkey : row.record.signingKeyId = some (sign p k row.record.rowHash).keyId)
    (hK : ∀ kid b, k.activeKeyBytes = some (kid, b) → K.keyBytesFor kid = some b)
    (hstrict : mode = .strict → allow = true ∨ row.record.signatureStatus = .signed) :
    ¬ SignatureFails p K mode allow row := by
  unfold sign at hsig hstatus hkey
  cases ha : k.activeKeyBytes with
  | none =>
    rw [ha] at hstatus
    simp only at hstatus
    unfold SignatureFails
    rw [hstatus]
    rintro ⟨hm, hallow⟩
    rcases hstrict hm with h | h
    · rw [hallow] at h
      cases h
    · rw [hstatus] at h
      cases h
  | some e =>
    obtain ⟨kid, b⟩ := e
    rw [ha] at hsig hstatus hkey
    simp only [if_neg hne] at hsig hstatus hkey
    have hb := hK kid b ha
    have hkid : kid ≠ "" := by
      intro h
      exact K.key_ne_empty (h ▸ AuditHmacKeyring.mem_of_keyBytesFor hb)
    have hok : verifyWith p K row.record.rowHash row.record.hmacSignature
        row.record.signingKeyId = .ok := by
      refine verifyWith_ok_iff.mpr ⟨b, ?_, hsig⟩
      rw [hkey]
      unfold targetKeyId
      rw [Option.getD_some, if_pos hkid]
      exact hb
    unfold SignatureFails
    rw [hstatus, hok]
    simp

/-- **An untampered chain verifies.** Whatever the interleaving of the writers and their
keyrings, the records are consecutive, and a verifier whose keyring still has every key
that signed a record never reports `failed`. -/
theorem untampered_chain_verifies {ι : Type} [DecidableEq ι] {y : AuditSys p ι}
    (hy : AuditReachable y) :
    (∃ l, l.Perm (y.db.chain chainVersion) ∧ Consecutive l) ∧
      ∀ (K : AuditHmacKeyring) (mode : VerifyMode) (allow : Bool),
        (∀ m ∈ y.log, ∀ k r, m.call.keyring? = some k → m.reply = some r →
          r.signatureStatus = .signed →
            ∀ kid b, k.activeKeyBytes = some (kid, b) → K.keyBytesFor kid = some b) →
        (mode = .strict → allow = true ∨
          ∀ m ∈ y.log, ∀ r, m.reply = some r → r.signatureStatus = .signed) →
        (verifyChain p K mode allow y.db chainVersion).status ≠ .failed := by
  have h := reachable_chainInv hy
  refine ⟨h.consecutive, fun K mode allow hK hstrict hfailed => ?_⟩
  refine verifyChain_failed_iff.mp hfailed ⟨h.linked, fun row hmem => ?_⟩
  obtain ⟨hr, -, -⟩ := AuditDb.mem_joined.mp hmem
  obtain ⟨m, hm, k, hk, hreply, hsig, hstatus, hkey⟩ := h.signed _ _ hr
  have hvalid := h.linked.valid row hmem
  simp only [scheme, Bool.and_eq_true, decide_eq_true_eq] at hvalid
  have hne : row.record.rowHash ≠ "" := by
    rw [← hvalid.2]
    exact p.sha256_ne _
  refine not_signatureFails_of_sign hne hsig hstatus hkey (fun kid b hkb => ?_) fun hmode => ?_
  · refine hK m hm k _ hk hreply ?_ kid b hkb
    rw [hstatus]
    unfold sign
    rw [hkb]
    simp only [if_neg hne]
  · exact (hstrict hmode).imp_right fun hall => hall m hm _ hreply

/-! ## A run of the three writers -/

theorem append_ne_empty {a : String} (h : a ≠ "") (b : String) : a ++ b ≠ "" := by
  intro hab
  have hlen := congrArg String.length hab
  rw [String.length_append, String.length_empty] at hlen
  have ha : a.length = 0 := by omega
  exact h (String.length_eq_zero_iff.mp ha)

/-- Digests that keep the text they digest, so that no two texts share one. -/
def openDigests : Primitives where
  sha256 s := "sha256:" ++ s
  hmacSha256 key msg := "hmac:" ++ (key ++ ":" ++ msg)
  float _ := ⟨"1.5", by decide, by decide⟩
  sha256_ne s := append_ne_empty (by decide) s
  hmac_ne key msg := append_ne_empty (by decide) _

def sampleTime : UtcDateTime :=
  ⟨2026, 6, 1, 12, 30, 0, 0, by decide, by decide, by decide, by decide, by decide, by decide,
    by decide⟩

/-- An event about a task. -/
def sampleEvent (taskId : String) : AuditEvent openDigests where
  taskId := some taskId
  agent := some "qa"
  decisionType := none
  summary := some "ok"
  result := none
  artifactRefs := "{}"
  refs_object := ⟨[], rfl⟩

/-- A keyring of one key, and the keyring after a rotation to a second one. -/
def firstRing : AuditHmacKeyring :=
  ⟨.multiKeyring, [("k1", "a")], some "k1", none, fun _ => ⟨"k1", rfl, by decide⟩,
    by simp [KeyringMode.loaded], by decide⟩

def rotatedRing : AuditHmacKeyring :=
  ⟨.multiKeyring, [("k1", "a"), ("k2", "b")], some "k2", none, fun _ => ⟨"k2", rfl, by decide⟩,
    by simp [KeyringMode.loaded], by decide⟩

/-- The three writers, with a rotation of the key in between. -/
def threeWriters : List (AuditCall openDigests) :=
  [.createEvent firstRing ⟨1⟩ sampleTime (sampleEvent "t1"),
    .writeAuditLog ⟨2⟩ sampleTime (sampleEvent "t2"),
    .writeAuditLog ⟨3⟩ sampleTime (sampleEvent "t3"),
    .workerIntegrity rotatedRing ⟨2⟩ sampleTime (sampleEvent "t2"),
    .backfillIntegrity rotatedRing ⟨3⟩ ((sampleEvent "t3").log sampleTime)]

def threeWritersSys : AuditSys openDigests Unit :=
  Sys.calls (auditProgram openDigests) ⟨.empty, .empty⟩ threeWriters

theorem untampered_chain_verifies_threeWriters :
    (∃ l, l.Perm (threeWritersSys.db.chain chainVersion) ∧ Consecutive l) ∧
      (verifyChain openDigests rotatedRing .strict true threeWritersSys.db
        chainVersion).status ≠ .failed := by
  have hy : AuditReachable threeWritersSys := by
    apply reachable_calls
    rfl
  have h := untampered_chain_verifies hy
  refine ⟨h.1, h.2 rotatedRing .strict true (fun m hm k r hk _ _ kid b hkb => ?_)
    fun _ => Or.inl rfl⟩
  have hcall := Sys.call_mem_of_calls hm
  have hring : k = firstRing ∨ k = rotatedRing := by
    simp only [threeWriters, List.mem_cons, List.not_mem_nil, or_false] at hcall
    rcases hcall with hc | hc | hc | hc | hc <;> rw [hc] at hk <;>
      simp only [AuditCall.keyring?, Option.some.injEq, reduceCtorEq] at hk
    · exact Or.inl hk.symm
    · exact Or.inr hk.symm
    · exact Or.inr hk.symm
  rcases hring with rfl | rfl
  · have hactive : firstRing.activeKeyBytes = some ("k1", "a") := rfl
    obtain ⟨rfl, rfl⟩ := Prod.mk.inj (Option.some.inj (hactive.symm.trans hkb))
    rfl
  · have hactive : rotatedRing.activeKeyBytes = some ("k2", "b") := rfl
    obtain ⟨rfl, rfl⟩ := Prod.mk.inj (Option.some.inj (hactive.symm.trans hkb))
    rfl

end AiAgentsSwd.Audit
