import AiAgentsSwd.AuditStream.Worker
import AiAgentsSwd.Streams.Group

/-!
# AuditStream.Delivery — what is left behind

Model of `AuditWorker.run` of `apps/audit-worker/src/worker.py` over the stream and its consumer
group. `consume_events` of `shared/sdk/event_bus/redis_streams.py` reads with `>`, so that a
message whose insert failed is not read again: it stays pending, and its retries are never
counted up to the limit (`settled_iff`).
-/

namespace AiAgentsSwd.AuditStream

open Json (Value)
open Transition

/-- The stream with its group, the worker, and the messages it has read but not handled yet.
`outcomes`, `failures` and `lost` are the history. -/
structure World where
  group : Streams.Group String Value
  worker : AuditWorker
  batch : List (String × Value)
  /-- What `handle` returned, for each message it was called with. -/
  outcomes : List (String × Action)
  /-- The messages whose insert failed. -/
  failures : List String
  /-- The messages that a process had read and not handled when it ended. -/
  lost : List String

/-- The group is created on an empty stream. -/
def World.start : World where
  group := { entries := [], next := 0, pending := [] }
  worker := .fresh
  batch := []
  outcomes := []
  failures := []
  lost := []

inductive Act where
  /-- A producer publishes a message. -/
  | publish (id : String) (payload : Value)
  /-- `consume_events`, when every message read before is handled. -/
  | poll
  /-- The next message is handled, and acknowledged if its outcome says so. -/
  | handle (faults : CallFaults)
  /-- The process ends, and another one starts. -/
  | restart

variable (rt : TextRuntime) (size : Nat)

/-- The `count` of `consume_events`. -/
def batchSize : Nat := 20

/-- The call reaches the insert. -/
def AuditWorker.inserts (w : AuditWorker) (id : String) (payload : Value) : Bool :=
  (audited rt payload).any fun event =>
    !(dedupKey rt event id != "" && w.cache.contains (dedupKey rt event id))

/-- What the world is after a message was handled. -/
def World.handled (w : World) (id : String) (payload : Value) (rest : List (String × Value))
    (faults : CallFaults) : World :=
  let h := w.worker.handle rt size id payload faults
  { w with
    group := if h.action.ack then w.group.ack id else w.group
    worker := h.worker
    batch := rest
    outcomes := w.outcomes ++ [(id, h.action)]
    failures :=
      if faults.insert && w.worker.inserts rt id payload then w.failures ++ [id] else w.failures }

def step (w : World) : Act → Option World
  | .publish id payload =>
    if id ∈ w.group.entries.map Prod.fst then none
    else some { w with group := w.group.add id payload }
  | .poll =>
    if w.batch = [] then
      some { w with group := w.group.read batchSize, batch := w.group.batch batchSize }
    else none
  | .handle faults =>
    match w.batch with
    | [] => none
    | (id, payload) :: rest => some (w.handled rt size id payload rest faults)
  | .restart =>
    some { w with
      worker := .fresh, batch := [], lost := w.lost ++ w.batch.map Prod.fst }

/-- `consume_events` would return an empty batch, and nothing is left to handle. -/
def World.Quiet (w : World) : Prop := w.batch = [] ∧ w.group.batch batchSize = []

/-- Every message delivered was handled, with an outcome other than a retry, and is not pending. -/
def World.Settled (w : World) : Prop :=
  ∀ e ∈ w.group.delivered, e.1 ∉ w.group.pending ∧
    ∃ action, (e.1, action) ∈ w.outcomes ∧ action.ack = true

/-! ## Invariant -/

structure World.Inv (w : World) : Prop where
  wf : w.group.Wf
  batch : ∀ e ∈ w.batch, e.1 ∈ w.group.pending
  nodup : (w.batch.map Prod.fst).Nodup
  /-- No message that is still to be handled has failed before. -/
  retries : ∀ e ∈ w.worker.retryCounts,
    e.1 ∈ w.group.delivered.map Prod.fst ∧ e.1 ∉ w.batch.map Prod.fst
  stuck : ∀ id ∈ w.failures ++ w.lost, id ∈ w.group.pending ∧ id ∉ w.batch.map Prod.fst
  done : ∀ e ∈ w.group.delivered, e.1 ∈ w.batch.map Prod.fst ∨ e.1 ∈ w.failures ++ w.lost ∨
    (e.1 ∉ w.group.pending ∧ ∃ action, (e.1, action) ∈ w.outcomes ∧ action.ack = true)

variable {rt} {size} {w t : World}

/-- A message that has not failed before is retried exactly when its insert fails. -/
theorem ack_handle {worker : AuditWorker} {id : String} (payload : Value) (faults : CallFaults)
    (hfirst : worker.retries id = 0) :
    (worker.handle rt size id payload faults).action.ack =
      !(faults.insert && worker.inserts rt id payload) := by
  unfold AuditWorker.inserts
  cases haudited : audited rt payload with
  | none =>
    rw [(handle_of_not_audited size worker id faults haudited).2.1]
    simp
  | some event =>
    rcases handle_of_audited size worker id faults haudited with
      ⟨hkey, hmem, hhandle⟩ | ⟨-, hinsert, hhandle⟩ | ⟨hunseen, hinsert, hhandle⟩
    · rw [hhandle]
      simp [Action.ack, hkey, hmem]
    · rw [hhandle, hinsert]
      rfl
    · -- one failure is not enough for the dead-letter stream
      have hretry : (worker.failed id faults).action = .retry := by
        unfold AuditWorker.failed maxFailuresBeforeDeadletter
        rw [hfirst]
        rfl
      have hreaches : (dedupKey rt event id != "" &&
          worker.cache.contains (dedupKey rt event id)) = false := by
        by_contra hne
        rw [Bool.not_eq_false, Bool.and_eq_true] at hne
        exact hunseen ⟨bne_iff_ne.mp hne.1, List.contains_iff_mem.mp hne.2⟩
      rw [hhandle, hretry, hinsert, Option.any_some, hreaches]
      rfl

/-- The retries counted are those counted before, without the message or with it. -/
theorem retryCounts_handle {worker : AuditWorker} {id : String} {payload : Value}
    {faults : CallFaults} {e : String × Nat}
    (h : e ∈ (worker.handle rt size id payload faults).worker.retryCounts) :
    e ∈ worker.retryCounts ∨ e.1 = id := by
  cases haudited : audited rt payload with
  | none =>
    rw [(handle_of_not_audited size worker id faults haudited).1] at h
    exact Or.inl h
  | some event =>
    rcases handle_of_audited size worker id faults haudited with
      ⟨-, -, hhandle⟩ | ⟨-, -, hhandle⟩ | ⟨-, -, hhandle⟩
    · rw [hhandle] at h
      exact Or.inl (List.mem_of_mem_filter h)
    · rw [hhandle] at h
      exact Or.inl (List.mem_of_mem_filter h)
    · rw [hhandle] at h
      unfold AuditWorker.failed at h
      simp only at h
      split at h
      · exact Or.inl (List.mem_of_mem_filter h)
      · rcases List.mem_cons.mp h with hnew | hold
        · rw [hnew]
          exact Or.inr rfl
        · exact Or.inl (List.mem_of_mem_filter hold)

theorem retries_eq_zero {worker : AuditWorker} {id : String}
    (h : ∀ e ∈ worker.retryCounts, e.1 ≠ id) : worker.retries id = 0 := by
  unfold AuditWorker.retries
  have hnone : worker.retryCounts.lookup id = none := by
    rw [List.lookup_eq_none_iff]
    intro e he
    exact bne_iff_ne.mpr fun heq => h e he heq.symm
  rw [hnone]
  rfl

theorem Inv.publish {id : String} {payload : Value} (h : w.Inv)
    (hnew : id ∉ w.group.entries.map Prod.fst) :
    World.Inv { w with group := w.group.add id payload } where
  wf := h.wf.add payload hnew
  batch := h.batch
  nodup := h.nodup
  retries := by
    rw [Streams.Group.delivered_add h.wf]
    exact h.retries
  stuck := h.stuck
  done := by
    rw [Streams.Group.delivered_add h.wf]
    exact h.done

theorem Inv.poll (h : w.Inv) (hbatch : w.batch = []) :
    World.Inv { w with group := w.group.read batchSize, batch := w.group.batch batchSize } where
  wf := h.wf.read batchSize
  batch e he := List.mem_append_right _ (List.mem_map_of_mem he)
  nodup := h.wf.batch_nodup batchSize
  retries e he := by
    have hold := (h.retries e he).1
    rw [Streams.Group.delivered_read, List.map_append, List.mem_append]
    refine ⟨Or.inl hold, ?_⟩
    -- what is read now was not delivered before
    intro hnew
    rcases List.mem_map.mp hnew with ⟨m, hm, hsame⟩
    rw [← hsame] at hold
    exact h.wf.not_delivered hm hold
  stuck id hid := by
    have hold := (h.stuck id hid).1
    refine ⟨List.mem_append_left _ hold, ?_⟩
    intro hnew
    rcases List.mem_map.mp hnew with ⟨m, hm, hsame⟩
    rw [← hsame] at hold
    exact h.wf.not_delivered hm (h.wf.pending_subset _ hold)
  done e he := by
    rw [Streams.Group.delivered_read, List.mem_append] at he
    rcases he with hold | hnew
    · rcases h.done e hold with hin | hstuck | ⟨hacked, hdone⟩
      · rw [hbatch] at hin
        exact absurd hin List.not_mem_nil
      · exact Or.inr (Or.inl hstuck)
      · refine Or.inr (Or.inr ⟨?_, hdone⟩)
        intro hpending
        rcases List.mem_append.mp hpending with hpending | hpending
        · exact hacked hpending
        · rcases List.mem_map.mp hpending with ⟨m, hm, hsame⟩
          exact h.wf.not_delivered hm (by
            rw [hsame]
            exact List.mem_map_of_mem hold)
    · exact Or.inl (List.mem_map_of_mem hnew)

theorem Inv.restart (h : w.Inv) :
    World.Inv { w with worker := .fresh, batch := [], lost := w.lost ++ w.batch.map Prod.fst } where
  wf := h.wf
  batch e he := absurd he List.not_mem_nil
  nodup := List.nodup_nil
  retries e he := absurd he List.not_mem_nil
  stuck id hid := by
    rw [← List.append_assoc, List.mem_append] at hid
    rcases hid with hid | hid
    · exact ⟨(h.stuck id hid).1, List.not_mem_nil⟩
    · rcases List.mem_map.mp hid with ⟨e, he, hsame⟩
      rw [← hsame]
      exact ⟨h.batch e he, List.not_mem_nil⟩
  done e he := by
    rw [← List.append_assoc, List.mem_append]
    rcases h.done e he with hin | hstuck | hdone
    · exact Or.inr (Or.inl (Or.inr hin))
    · exact Or.inr (Or.inl (Or.inl hstuck))
    · exact Or.inr (Or.inr hdone)

theorem Inv.handle {id : String} {payload : Value} {rest : List (String × Value)}
    {faults : CallFaults} (h : w.Inv) (hbatch : w.batch = (id, payload) :: rest) :
    (w.handled rt size id payload rest faults).Inv := by
  have hnodup := h.nodup
  rw [hbatch, List.map_cons, List.nodup_cons] at hnodup
  have hpending : id ∈ w.group.pending := by
    refine h.batch (id, payload) ?_
    rw [hbatch]
    exact List.mem_cons_self
  have hin : id ∈ w.batch.map Prod.fst := by
    rw [hbatch]
    exact List.mem_cons_self
  have hrest : ∀ e ∈ rest, e ∈ w.batch := by
    intro e he
    rw [hbatch]
    exact List.mem_cons_of_mem _ he
  have hkeep : ∀ i, i ∉ w.batch.map Prod.fst → i ∉ rest.map Prod.fst := by
    intro i hi hmem
    rw [hbatch, List.map_cons] at hi
    exact hi (List.mem_cons_of_mem _ hmem)
  -- its insert has not failed before, since a failed message is not read again
  have hfirst : w.worker.retries id = 0 := by
    refine retries_eq_zero ?_
    intro e he heq
    have hnot := (h.retries e he).2
    rw [heq] at hnot
    exact hnot hin
  have hretries : ∀ e ∈ (w.worker.handle rt size id payload faults).worker.retryCounts,
      e.1 ∈ w.group.delivered.map Prod.fst ∧ e.1 ∉ rest.map Prod.fst := by
    intro e he
    rcases retryCounts_handle he with hold | hsame
    · exact ⟨(h.retries e hold).1, hkeep e.1 (h.retries e hold).2⟩
    · rw [hsame]
      exact ⟨h.wf.pending_subset id hpending, hnodup.1⟩
  have hack : (w.worker.handle rt size id payload faults).action.ack =
      !(faults.insert && w.worker.inserts rt id payload) := ack_handle payload faults hfirst
  cases hfails : (faults.insert && w.worker.inserts rt id payload) with
  | false =>
    rw [hfails, Bool.not_false] at hack
    have hgroup : (w.handled rt size id payload rest faults).group = w.group.ack id := if_pos hack
    have hfailures : (w.handled rt size id payload rest faults).failures = w.failures := by
      unfold World.handled
      simp only [hfails]
      rfl
    have houtcomes : (w.handled rt size id payload rest faults).outcomes =
        w.outcomes ++ [(id, (w.worker.handle rt size id payload faults).action)] := rfl
    have hmem : ∀ i, i ∈ (w.group.ack id).pending ↔ i ∈ w.group.pending ∧ i ≠ id := by
      intro i
      unfold Streams.Group.ack
      simp
    constructor
    · rw [hgroup]
      exact h.wf.ack id
    · intro e he
      rw [hgroup, hmem]
      refine ⟨h.batch e (hrest e he), ?_⟩
      intro heq
      rw [← heq] at hnodup
      exact hnodup.1 (List.mem_map.mpr ⟨e, he, rfl⟩)
    · exact hnodup.2
    · rw [hgroup]
      exact hretries
    · intro i hi
      rw [hfailures] at hi
      have hstuck := h.stuck i hi
      rw [hgroup, hmem]
      refine ⟨⟨hstuck.1, ?_⟩, hkeep i hstuck.2⟩
      intro heq
      rw [heq] at hstuck
      exact hstuck.2 hin
    · intro e he
      rw [hgroup] at he ⊢
      rw [hfailures, houtcomes, hmem]
      by_cases heq : e.1 = id
      · refine Or.inr (Or.inr ⟨fun hpend => hpend.2 heq, _, ?_, hack⟩)
        rw [heq]
        exact List.mem_append_right _ (List.mem_singleton_self _)
      · rcases h.done e he with hmine | hstuck | ⟨hacked, action, hmine, hdone⟩
        · rw [hbatch, List.map_cons] at hmine
          rcases List.mem_cons.mp hmine with hmine | hmine
          · exact absurd hmine heq
          · exact Or.inl hmine
        · exact Or.inr (Or.inl hstuck)
        · exact Or.inr (Or.inr ⟨fun hpend => hacked hpend.1, action,
            List.mem_append_left _ hmine, hdone⟩)
  | true =>
    rw [hfails, Bool.not_true] at hack
    have hgroup : (w.handled rt size id payload rest faults).group = w.group := by
      unfold World.handled
      simp only [hack]
      rfl
    have hfailures : (w.handled rt size id payload rest faults).failures = w.failures ++ [id] := by
      unfold World.handled
      simp only [hfails]
      rfl
    have hstuck' : ∀ i, i ∈ (w.failures ++ [id]) ++ w.lost ↔
        i ∈ w.failures ++ w.lost ∨ i = id := by
      intro i
      simp only [List.mem_append, List.mem_singleton]
      tauto
    have houtcomes : (w.handled rt size id payload rest faults).outcomes =
        w.outcomes ++ [(id, (w.worker.handle rt size id payload faults).action)] := rfl
    constructor
    · rw [hgroup]
      exact h.wf
    · intro e he
      rw [hgroup]
      exact h.batch e (hrest e he)
    · exact hnodup.2
    · rw [hgroup]
      exact hretries
    · intro i hi
      have hi' : i ∈ (w.failures ++ [id]) ++ w.lost := by
        rw [← hfailures]
        exact hi
      rw [hgroup]
      rcases (hstuck' i).mp hi' with hold | hnew
      · exact ⟨(h.stuck i hold).1, hkeep i (h.stuck i hold).2⟩
      · rw [hnew]
        exact ⟨hpending, hnodup.1⟩
    · intro e he
      rw [hgroup] at he ⊢
      rw [houtcomes, hfailures]
      have hlost : (w.handled rt size id payload rest faults).lost = w.lost := rfl
      rw [hlost, hstuck']
      rcases h.done e he with hmine | hstuck | ⟨hacked, action, hmine, hdone⟩
      · rw [hbatch, List.map_cons] at hmine
        rcases List.mem_cons.mp hmine with hmine | hmine
        · exact Or.inr (Or.inl (Or.inr hmine))
        · exact Or.inl hmine
      · exact Or.inr (Or.inl (Or.inl hstuck))
      · exact Or.inr (Or.inr ⟨hacked, action, List.mem_append_left _ hmine, hdone⟩)

theorem step_inv (w : World) (a : Act) (t : World) (h : w.Inv) (ht : step rt size w a = some t) :
    t.Inv := by
  unfold step at ht
  cases a with
  | publish id payload =>
    by_cases hold : id ∈ w.group.entries.map Prod.fst
    · simp only [if_pos hold] at ht
      cases ht
    · simp only [if_neg hold, Option.some.injEq] at ht
      rw [← ht]
      exact Inv.publish h hold
  | poll =>
    by_cases hbatch : w.batch = []
    · simp only [if_pos hbatch, Option.some.injEq] at ht
      rw [← ht]
      exact Inv.poll h hbatch
    · simp only [if_neg hbatch] at ht
      cases ht
  | handle faults =>
    cases hbatch : w.batch with
    | nil =>
      simp only [hbatch] at ht
      cases ht
    | cons e rest =>
      simp only [hbatch, Option.some.injEq] at ht
      rw [← ht]
      exact Inv.handle h hbatch
  | restart =>
    simp only [Option.some.injEq] at ht
    rw [← ht]
    exact Inv.restart h

theorem inv_start : World.start.Inv where
  wf := ⟨List.nodup_nil, Nat.le_refl 0, fun _ hid => absurd hid List.not_mem_nil⟩
  batch _ he := absurd he List.not_mem_nil
  nodup := List.nodup_nil
  retries _ he := absurd he List.not_mem_nil
  stuck _ hid := absurd hid List.not_mem_nil
  done _ he := absurd he List.not_mem_nil

/-- Whatever failed or was lost stays pending, and everything else is settled. -/
theorem settled_iff_of_inv (h : w.Inv) (hquiet : w.Quiet) :
    w.Settled ↔ w.failures = [] ∧ w.lost = [] := by
  constructor
  · intro hsettled
    rw [← List.append_eq_nil_iff, List.eq_nil_iff_forall_not_mem]
    intro id hid
    have hpending := (h.stuck id hid).1
    rcases List.mem_map.mp (h.wf.pending_subset id hpending) with ⟨e, he, hsame⟩
    rw [← hsame] at hpending
    exact (hsettled e he).1 hpending
  · intro hnone e he
    rw [← List.append_eq_nil_iff] at hnone
    rcases h.done e he with hin | hstuck | hdone
    · rw [hquiet.1] at hin
      exact absurd hin List.not_mem_nil
    · rw [hnone] at hstuck
      exact absurd hstuck List.not_mem_nil
    · exact hdone

/-- A message is read, its insert fails once, and the next read returns nothing. -/
def oneFailure : List Act :=
  [.publish "1-0" selfNamed, .poll, .handle ⟨true, false⟩, .poll]

end AiAgentsSwd.AuditStream
