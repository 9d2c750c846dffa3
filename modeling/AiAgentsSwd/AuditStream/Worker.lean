import AiAgentsSwd.AuditStream.Normalizer
import AiAgentsSwd.Transition.Basic

/-!
# AuditStream.Worker — one message of `stream.audit`

Model of `AuditStore` of `shared/sdk/audit/store.py`, whose cache holds the keys of the messages
written lately, and of `AuditWorker.handle` of `apps/audit-worker/src/worker.py`. The integrity
record that follows an insert is left out: its failures are swallowed.

- `no_distinct_dropped`: no message is dropped as the duplicate of another one exactly when no
  two messages have the same key.
-/

namespace AiAgentsSwd.AuditStream

open Json (Value)
open Transition

variable (rt : TextRuntime)

/-! ## The store -/

/-- `_remember(source_message_id)`, of the keys from the oldest on. -/
def remember (size : Nat) (cache : List String) (key : String) : List String :=
  if key = "" then cache
  else
    let cache := if cache.contains key then cache else cache ++ [key]
    if max 1 size < cache.length then cache.tail else cache

/-- How `write_audit_log` ends. -/
inductive Written where
  | duplicate
  | inserted
  | raised
deriving Repr, DecidableEq

/-- `write_audit_log(event)`; `insert` says whether the database takes the row. -/
def writeAuditLog (size : Nat) (cache : List String) (event : NormalizedAudit) (insert : Bool) :
    Written × List String :=
  let key := sourceId rt event
  if key ≠ "" ∧ cache.contains key = true then (.duplicate, cache)
  else if insert then (.inserted, remember size cache key)
  else (.raised, cache)

/-! ## The worker -/

inductive SkipReason where
  | nonDictPayload
  | auditRecordedEcho
  | duplicateSourceMessageId
deriving Repr, DecidableEq

/-- The `action` of an outcome. -/
inductive Action where
  | persisted
  | skipped (reason : SkipReason)
  | deadlettered
  | retry
deriving Repr, DecidableEq

/-- The `ack` of an outcome. -/
def Action.ack : Action → Bool
  | .retry => false
  | _ => true

/-- What a worker keeps in its process. -/
structure AuditWorker where
  cache : List String
  /-- `_retry_counts` -/
  retryCounts : List (String × Nat)
deriving Repr, DecidableEq

def AuditWorker.fresh : AuditWorker where
  cache := []
  retryCounts := []

/-- `MAX_FAILURES_BEFORE_DEADLETTER` -/
def maxFailuresBeforeDeadletter : Nat := 3

/-- `_retry_counts.pop(message_id, None)` -/
def AuditWorker.popRetries (w : AuditWorker) (id : String) : AuditWorker :=
  { w with retryCounts := w.retryCounts.filter fun e => e.1 ≠ id }

/-- `_retry_counts.get(message_id, 0)` -/
def AuditWorker.retries (w : AuditWorker) (id : String) : Nat := (w.retryCounts.lookup id).getD 0

/-- What may fail in a call: the insert, and the publication to the dead-letter stream. -/
structure CallFaults where
  insert : Bool
  deadletter : Bool
deriving Repr, DecidableEq

/-- A call of `handle`: the worker after it, its action, and the row it inserted. -/
structure Handled where
  worker : AuditWorker
  action : Action
  row : Option NormalizedAudit

/-- The branch of `handle` for an insert that raised. -/
def AuditWorker.failed (w : AuditWorker) (id : String) (faults : CallFaults) : Handled :=
  let attempts := w.retries id + 1
  if maxFailuresBeforeDeadletter ≤ attempts then
    { worker := w.popRetries id
      action := if faults.deadletter then .retry else .deadlettered
      row := none }
  else
    { worker := { w with retryCounts := (id, attempts) :: (w.popRetries id).retryCounts }
      action := .retry
      row := none }

/-- `handle(message_id, payload)` -/
def AuditWorker.handle (size : Nat) (w : AuditWorker) (id : String) (payload : Value)
    (faults : CallFaults) : Handled :=
  match payload with
  | .obj event =>
    if isAuditRecordedEcho rt event then ⟨w, .skipped .auditRecordedEcho, none⟩
    else
      let normalized := normalizeAuditEvent rt event id
      match writeAuditLog rt size w.cache normalized !faults.insert with
      | (.duplicate, _) => ⟨w.popRetries id, .skipped .duplicateSourceMessageId, none⟩
      | (.inserted, cache) =>
        ⟨{ w with cache := cache }.popRetries id, .persisted, some normalized⟩
      | (.raised, _) => w.failed id faults
  | _ => ⟨w, .skipped .nonDictPayload, none⟩

/-! ## What a call does -/

/-- The payload is an event that has to be written. -/
def audited : Value → Option (List (String × Value))
  | .obj event => if isAuditRecordedEcho rt event then none else some event
  | _ => none

variable {rt} {size : Nat} {payload : Value}

section Calls

variable (size) (w : AuditWorker) (id : String) (faults : CallFaults)

theorem handle_of_not_audited (h : audited rt payload = none) :
    w.handle rt size id payload faults =
      ⟨w, (w.handle rt size id payload faults).action, none⟩ ∧
    (w.handle rt size id payload faults).action.ack = true ∧
    (w.handle rt size id payload faults).action ≠ .skipped .duplicateSourceMessageId := by
  cases payload with
  | obj event =>
    have hecho : isAuditRecordedEcho rt event = true := by
      by_contra hne
      have hsome : audited rt (.obj event) = some event := if_neg hne
      rw [hsome] at h
      cases h
    have heq : w.handle rt size id (.obj event) faults =
        ⟨w, .skipped .auditRecordedEcho, none⟩ := if_pos hecho
    rw [heq]
    exact ⟨rfl, rfl, by simp⟩
  | null => exact ⟨rfl, rfl, by simp [AuditWorker.handle]⟩
  | bool b => exact ⟨rfl, rfl, by simp [AuditWorker.handle]⟩
  | int i => exact ⟨rfl, rfl, by simp [AuditWorker.handle]⟩
  | float x => exact ⟨rfl, rfl, by simp [AuditWorker.handle]⟩
  | str s => exact ⟨rfl, rfl, by simp [AuditWorker.handle]⟩
  | arr items => exact ⟨rfl, rfl, by simp [AuditWorker.handle]⟩

/-- An event is a duplicate, or written, or its insert failed. -/
theorem handle_of_audited {event : List (String × Value)} (h : audited rt payload = some event) :
    (dedupKey rt event id ≠ "" ∧ dedupKey rt event id ∈ w.cache ∧
      w.handle rt size id payload faults =
        ⟨w.popRetries id, .skipped .duplicateSourceMessageId, none⟩) ∨
    (¬(dedupKey rt event id ≠ "" ∧ dedupKey rt event id ∈ w.cache) ∧ faults.insert = false ∧
      w.handle rt size id payload faults =
        ⟨{ w with cache := remember size w.cache (dedupKey rt event id) }.popRetries id, .persisted,
          some (normalizeAuditEvent rt event id)⟩) ∨
    (¬(dedupKey rt event id ≠ "" ∧ dedupKey rt event id ∈ w.cache) ∧ faults.insert = true ∧
      w.handle rt size id payload faults = w.failed id faults) := by
  cases payload with
  | obj event' =>
    by_cases hecho : isAuditRecordedEcho rt event' = true
    · have hnone : audited rt (.obj event') = none := if_pos hecho
      rw [hnone] at h
      cases h
    have hsome : audited rt (.obj event') = some event' := if_neg hecho
    rw [hsome, Option.some.injEq] at h
    rw [h] at hecho ⊢
    have hhandle : w.handle rt size id (.obj event) faults =
        match writeAuditLog rt size w.cache (normalizeAuditEvent rt event id) !faults.insert with
        | (.duplicate, _) => ⟨w.popRetries id, .skipped .duplicateSourceMessageId, none⟩
        | (.inserted, cache) => ⟨{ w with cache := cache }.popRetries id, .persisted,
            some (normalizeAuditEvent rt event id)⟩
        | (.raised, _) => w.failed id faults := if_neg hecho
    rw [hhandle]
    have hwrite : writeAuditLog rt size w.cache (normalizeAuditEvent rt event id) (!faults.insert) =
        if dedupKey rt event id ≠ "" ∧ w.cache.contains (dedupKey rt event id) = true then
          (.duplicate, w.cache)
        else if !faults.insert then
          (.inserted, remember size w.cache (dedupKey rt event id))
        else (.raised, w.cache) := by
      unfold writeAuditLog
      rw [sourceId_normalize]
    rw [hwrite]
    by_cases hseen : dedupKey rt event id ≠ "" ∧ dedupKey rt event id ∈ w.cache
    · rw [if_pos ⟨hseen.1, List.contains_iff_mem.mpr hseen.2⟩]
      exact Or.inl ⟨hseen.1, hseen.2, rfl⟩
    · have hunseen : ¬(dedupKey rt event id ≠ "" ∧
          w.cache.contains (dedupKey rt event id) = true) :=
        fun h => hseen ⟨h.1, List.contains_iff_mem.mp h.2⟩
      rw [if_neg hunseen]
      cases hinsert : faults.insert with
      | false => exact Or.inr (Or.inl ⟨hseen, rfl, rfl⟩)
      | true => exact Or.inr (Or.inr ⟨hseen, rfl, rfl⟩)
  | null => cases h
  | bool b => cases h
  | int i => cases h
  | float x => cases h
  | str s => cases h
  | arr items => cases h

end Calls

theorem mem_remember {cache : List String} {key k : String} (h : k ∈ remember size cache key) :
    k ∈ cache ∨ (k = key ∧ key ≠ "") := by
  unfold remember at h
  by_cases hkey : key = ""
  · rw [if_pos hkey] at h
    exact Or.inl h
  rw [if_neg hkey] at h
  have hadded : k ∈ (if cache.contains key then cache else cache ++ [key]) →
      k ∈ cache ∨ (k = key ∧ key ≠ "") := by
    intro hk
    split at hk
    · exact Or.inl hk
    · rcases List.mem_append.mp hk with hold | hnew
      · exact Or.inl hold
      · exact Or.inr ⟨List.mem_singleton.mp hnew, hkey⟩
  simp only at h
  generalize (if cache.contains key then cache else cache ++ [key]) = longer at h hadded
  split at h
  · exact hadded (List.mem_of_mem_tail h)
  · exact hadded h

theorem failed_cache (w : AuditWorker) (id : String) (faults : CallFaults) :
    (w.failed id faults).worker.cache = w.cache ∧ (w.failed id faults).row = none := by
  unfold AuditWorker.failed
  simp only
  split
  · exact ⟨rfl, rfl⟩
  · exact ⟨rfl, rfl⟩

/-! ## Deliveries -/

/-- A worker, and what was persisted: each row with the id of the message it is of. -/
structure Persistence where
  worker : AuditWorker
  rows : List (String × NormalizedAudit)

def Persistence.start : Persistence where
  worker := .fresh
  rows := []

/-- What reaches `handle`: a message, for the first time or again, or a new process. -/
inductive Delivery where
  | message (id : String) (faults : CallFaults)
  | restart
deriving Repr, DecidableEq

variable (rt) (size) in
/-- One delivery; `payloads` gives the payload of every message of the stream. -/
def Persistence.deliver (payloads : String → Value) (s : Persistence) :
    Delivery → Option Persistence
  | .message id faults =>
    let handled := s.worker.handle rt size id (payloads id) faults
    some
      { worker := handled.worker
        rows := s.rows ++ (handled.row.map fun row => (id, row)).toList }
  | .restart => some { s with worker := .fresh }

/-- The message has a row of its own. -/
def Persistence.Has (s : Persistence) (id : String) : Prop := id ∈ s.rows.map Prod.fst

variable (rt) (size) in
/-- Whenever a message that has to be written is delivered and its insert does not fail, it is
persisted then. -/
def NoneDropped (payloads : String → Value) : Prop :=
  ∀ s, Reaches (Persistence.deliver rt size payloads) .start s →
    ∀ id faults event t, audited rt (payloads id) = some event → faults.insert = false →
      s.deliver rt size payloads (.message id faults) = some t → t.Has id

variable (rt) in
/-- Messages that have to be written are remembered under different keys, or under none. -/
def DistinctKeys (payloads : String → Value) : Prop :=
  ∀ id id' event event', audited rt (payloads id) = some event →
    audited rt (payloads id') = some event' → dedupKey rt event id = dedupKey rt event' id' →
      dedupKey rt event id = "" ∨ id = id'

variable (rt) in
/-- A key is in the cache because a message with that key has a row. -/
def Persistence.CacheSound (payloads : String → Value) (s : Persistence) : Prop :=
  ∀ key ∈ s.worker.cache, ∃ id event, audited rt (payloads id) = some event ∧
    dedupKey rt event id = key ∧ s.Has id

theorem Persistence.Has.append {s : Persistence} {id : String} (h : s.Has id) {worker : AuditWorker}
    {rows : List (String × NormalizedAudit)} : Persistence.Has ⟨worker, s.rows ++ rows⟩ id := by
  unfold Persistence.Has
  rw [List.map_append, List.mem_append]
  exact Or.inl h

theorem deliver_cacheSound {payloads : String → Value} (s : Persistence) (d : Delivery)
    (t : Persistence) (h : s.CacheSound rt payloads)
    (ht : s.deliver rt size payloads d = some t) : t.CacheSound rt payloads := by
  cases d with
  | restart =>
    have heq := (Option.some.inj ht).symm
    intro key hkey
    rw [heq] at hkey
    exact absurd hkey List.not_mem_nil
  | message id faults =>
    have heq := (Option.some.inj ht).symm
    -- what was in the cache before is there for a row that is still there
    have hold : ∀ key ∈ s.worker.cache, ∃ id event, audited rt (payloads id) = some event ∧
        dedupKey rt event id = key ∧ t.Has id := by
      intro key hkey
      rcases h key hkey with ⟨id', event, haudited, hdedup, hhas⟩
      refine ⟨id', event, haudited, hdedup, ?_⟩
      rw [heq]
      exact hhas.append
    intro key hkey
    cases haudited : audited rt (payloads id) with
    | none =>
      have hhandle := (handle_of_not_audited size s.worker id faults haudited).1
      rw [heq, hhandle] at hkey
      exact hold key hkey
    | some event =>
      rcases handle_of_audited size s.worker id faults haudited with
        ⟨-, -, hhandle⟩ | ⟨-, -, hhandle⟩ | ⟨-, -, hhandle⟩
      · rw [heq, hhandle] at hkey
        exact hold key hkey
      · rw [heq, hhandle] at hkey
        rcases mem_remember hkey with hkey | ⟨hkey, -⟩
        · exact hold key hkey
        · -- the key of the row that was just inserted
          refine ⟨id, event, haudited, hkey.symm, ?_⟩
          rw [heq, hhandle]
          unfold Persistence.Has
          simp
      · rw [heq, hhandle] at hkey
        have hcache := (failed_cache s.worker id faults).1
        simp only [hcache] at hkey
        exact hold key hkey

theorem cacheSound_start (payloads : String → Value) :
    Persistence.CacheSound rt payloads .start := by
  intro key hkey
  exact absurd hkey List.not_mem_nil

/-- Two messages with one key, one after the other: the second one is dropped. -/
theorem distinctKeys_of_noneDropped {payloads : String → Value} :
    NoneDropped rt size payloads → DistinctKeys rt payloads := by
  intro h id id' event event' hid hid' hkey
  by_cases hempty : dedupKey rt event id = ""
  · exact Or.inl hempty
  refine Or.inr ?_
  by_contra hne
  -- the first message is persisted, and the second one finds its key in the cache
  let faults : CallFaults := ⟨false, false⟩
  let first : Persistence :=
    { worker := { AuditWorker.fresh with cache := [dedupKey rt event id] }.popRetries id
      rows := [(id, normalizeAuditEvent rt event id)] }
  have hfirst : Persistence.start.deliver rt size payloads (.message id faults) = some first := by
    have hunseen : ¬(dedupKey rt event id ≠ "" ∧ dedupKey rt event id ∈ AuditWorker.fresh.cache) :=
      fun hseen => List.not_mem_nil hseen.2
    rcases handle_of_audited size AuditWorker.fresh id faults hid with
      ⟨-, hmem, -⟩ | ⟨-, -, hhandle⟩ | ⟨-, hfails, -⟩
    · exact absurd hmem List.not_mem_nil
    · have hremember : remember size AuditWorker.fresh.cache (dedupKey rt event id) =
          [dedupKey rt event id] := by
        have hshort : ¬max 1 size < 1 := by omega
        unfold remember
        rw [if_neg hempty]
        simp [AuditWorker.fresh, hshort]
      unfold Persistence.deliver
      simp only
      have hworker : Persistence.start.worker = AuditWorker.fresh := rfl
      rw [hworker, hhandle, hremember]
      rfl
    · cases hfails
  have hreach : Reaches (Persistence.deliver rt size payloads) .start first :=
    Reaches.single (.message id faults) hfirst
  have hhas := h first hreach id' faults event' _ hid' rfl rfl
  rcases handle_of_audited size first.worker id' faults hid' with
    ⟨-, -, hhandle⟩ | ⟨hunseen, -⟩ | ⟨hunseen, -⟩
  · rw [hhandle] at hhas
    have hsame : id' = id := by simpa [Persistence.Has, first] using hhas
    exact hne hsame.symm
  · refine hunseen ⟨?_, ?_⟩
    · rw [← hkey]
      exact hempty
    · rw [← hkey]
      exact List.mem_singleton_self _
  · refine hunseen ⟨?_, ?_⟩
    · rw [← hkey]
      exact hempty
    · rw [← hkey]
      exact List.mem_singleton_self _

theorem noneDropped_of_distinctKeys {payloads : String → Value} :
    DistinctKeys rt payloads → NoneDropped rt size payloads := by
  intro hdistinct s hreach id faults event t haudited hinsert ht
  have hsound : s.CacheSound rt payloads :=
    hreach.invariant deliver_cacheSound (cacheSound_start payloads)
  have heq := (Option.some.inj ht).symm
  rcases handle_of_audited size s.worker id faults haudited with
    ⟨hkey, hmem, -⟩ | ⟨-, -, hhandle⟩ | ⟨-, hfails, -⟩
  · rcases hsound _ hmem with ⟨id', event', haudited', hdedup, hhas⟩
    have hsame := (hdistinct id id' event event' haudited haudited' hdedup.symm).resolve_left hkey
    rw [heq, hsame]
    exact hhas.append
  · rw [heq, hhandle]
    unfold Persistence.Has
    simp
  · rw [hinsert] at hfails
    cases hfails

/-- **No message is dropped as the duplicate of another one exactly when the keys differ.** -/
theorem no_distinct_dropped (payloads : String → Value) :
    NoneDropped rt size payloads ↔ DistinctKeys rt payloads :=
  ⟨distinctKeys_of_noneDropped, noneDropped_of_distinctKeys⟩

/-! ## Two messages that name the same id -/

/-- A runtime that knows the letters of ASCII. -/
def asciiText : TextRuntime where
  float := fun _ => Json.nan
  str := fun _ => ""
  lower := List.map Char.toLower

/-- An event whose producer says what its message's id is. -/
def selfNamed : Value :=
  .obj [("agent", .str "qa-agent"), ("decision_type", .str "qa_validation_passed"),
    ("artifact_refs", .obj [("source_message_id", .str "1-0")])]

/-- Of two different messages with this payload the second one is dropped. -/
theorem dropped_as_duplicate : ¬NoneDropped asciiText 4096 fun _ => selfNamed := by
  intro h
  have haudited : (audited asciiText selfNamed).any
      (fun event => dedupKey asciiText event "1-0" == "1-0" &&
        dedupKey asciiText event "2-0" == "1-0") = true := by
    decide +kernel
  rcases (Option.any_eq_true _ _).mp haudited with ⟨event, hevent, hkeys⟩
  rw [Bool.and_eq_true, beq_iff_eq, beq_iff_eq] at hkeys
  have hsame := hkeys.1.trans hkeys.2.symm
  rcases distinctKeys_of_noneDropped h "1-0" "2-0" event event hevent hevent hsame with
    hempty | heq
  · rw [hkeys.1] at hempty
    exact absurd hempty (by decide)
  · exact absurd heq (by decide)

end AiAgentsSwd.AuditStream
