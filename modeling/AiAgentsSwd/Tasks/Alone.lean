import AiAgentsSwd.ReadCommitted.Alone
import AiAgentsSwd.Tasks.Effects

/-!
# Tasks.Alone — the parts of a transaction that runs alone

What the statements and services that the request services are made of leave when nobody else
is active: an outcome that is not ok has written nothing.
-/

namespace AiAgentsSwd.Tasks

open Planning (Uuid Time)
open Keyed (Table)
open ReadCommitted Txn

variable {s : Db}

theorem run_statementTimestamp : statementTimestamp.run s = .ok (s.now, s) := rfl

theorem leaves_statementTimestamp {P : Time → Db → Prop} (h : P s.now s) :
    statementTimestamp.Leaves s P := leaves_of_run run_statementTimestamp h

/-! ## The outbox -/

/-- An event goes into the outbox, or its key is taken. -/
theorem run_insertLifecycleOutboxEvent {id clarificationId taskId : Uuid} {eventType : EventType}
    {key : String} {payload : List (String × PayloadValue)} (hid : s.outbox.find? id = none)
    (hkey : blank key = false) :
    (insertLifecycleOutboxEvent id clarificationId taskId eventType key payload).run s =
      if s.outbox.rows.any fun e => e.2.idempotencyKey == key then
        .error (.uniqueViolation "uq_clarification_lifecycle_outbox_idempotency_key")
      else
        .ok ((id, newOutboxEvent clarificationId taskId eventType key payload s.now),
          At.outbox.insert id
            (newOutboxEvent clarificationId taskId eventType key payload s.now) s) := by
  have hcheck : (newOutboxEvent clarificationId taskId eventType key payload s.now).check =
      true := by
    unfold OutboxEvent.check newOutboxEvent
    simp only [hkey]
    rfl
  unfold newOutboxEvent at hcheck
  have htaken : (At.outbox.taken id : TaskTxn Bool).run s = .ok (false, s) := by
    rw [TableAt.run_taken]
    have hnone : (At.outbox.get s).find? id = none := hid
    rw [hnone]
    rfl
  have hconflict : (At.outbox.conflict (.outboxKey key) (fun o => o.idempotencyKey == key) :
      TaskTxn Bool).run s = .ok (s.outbox.rows.any fun e => e.2.idempotencyKey == key, s) :=
    TableAt.run_conflict _
  unfold insertLifecycleOutboxEvent statementTimestamp
  simp only [bind_eq, pure_eq, select_bind, run_query, hcheck, Bool.not_true, Bool.false_eq_true,
    if_false, run_bind, htaken, andThen_ok, hconflict]
  cases s.outbox.rows.any fun e => e.2.idempotencyKey == key with
  | true => rfl
  | false => rfl

/-- Another row of the outbox has the key. -/
def KeyTaken (s : Db) (key : String) : Prop :=
  ∃ id o, s.outbox.find? id = some o ∧ o.idempotencyKey = key

theorem keyTaken_iff {key : String} :
    KeyTaken s key ↔ (s.outbox.rows.any fun e => e.2.idempotencyKey == key) = true := by
  rw [List.any_eq_true]
  constructor
  · rintro ⟨id, o, ho, hkey⟩
    exact ⟨(id, o), Table.mem_rows.mpr ho, beq_iff_eq.mpr hkey⟩
  · rintro ⟨e, he, hkey⟩
    exact ⟨e.1, e.2, Table.mem_rows.mp he, beq_iff_eq.mp hkey⟩

/-- Whoever emits an event has found its id and its key free. -/
theorem leaves_insertLifecycleOutboxEvent {id clarificationId taskId : Uuid}
    {eventType : EventType} {key : String} {payload : List (String × PayloadValue)} :
    (insertLifecycleOutboxEvent id clarificationId taskId eventType key payload).Leaves s
      fun _ t => ¬KeyTaken s key ∧ t = At.outbox.insert id
        (newOutboxEvent clarificationId taskId eventType key payload s.now) s := by
  unfold insertLifecycleOutboxEvent
  refine Leaves.bind (leaves_statementTimestamp (P := fun b t => b = s.now ∧ t = s) ⟨rfl, rfl⟩) ?_
  intro now t ht
  rw [ht.1, ht.2]
  refine leaves_ite (fun _ => leaves_raise) fun _ => ?_
  refine Leaves.bind (Q := fun _ t => t = s) (TableAt.leaves_taken rfl) ?_
  intro taken t ht
  rw [ht]
  refine leaves_ite (fun _ => leaves_raise) fun _ => ?_
  refine Leaves.bind
    (Q := fun b t => b = (s.outbox.rows.any fun e => e.2.idempotencyKey == key) ∧ t = s)
    (TableAt.leaves_conflict ⟨rfl, rfl⟩) ?_
  intro conflict t ht
  rw [ht.2]
  refine leaves_ite (fun _ => leaves_raise) fun hfree => ?_
  refine Leaves.bind (leaves_modify (P := fun _ t => t = At.outbox.insert id _ s) rfl) ?_
  intro _ t ht'
  rw [ht']
  refine leaves_done ⟨?_, rfl⟩
  rw [keyTaken_iff, ← ht.1]
  exact hfree

/-! ## Consuming an authorization -/

/-- The approval that the authorization names may be used for it. -/
def ApprovalUsable (s : Db) (id : Uuid) (actor : Actor) (version : String) (a : Authorization) :
    Prop :=
  ∃ approvalId p, a.productionApprovalReference = some (.approval approvalId) ∧
    s.approvals.find? approvalId = some p ∧
    (p.state == .granted && p.consumedAt.isNone && p.revokedAt.isNone &&
      decide (s.now < p.expiresAt) && p.boundTo a version) = true ∧
    (p.consumedRow actor.principalId id s.now).check = true

/-- The authorization may be consumed now: every guard on it, and on its approval, lets it
pass. -/
structure Usable (s : Db) (id : Uuid) (actor : Actor) (scope : Scope) (version : String)
    (a : Authorization) : Prop where
  row : s.authorizations.find? id = some a
  allowed : (evaluate (.consume a.actionType) actor scope a.scope none a.productionEffect
    a.productionApprovalReference).allowed = true
  consumable : a.consumable version scope s.now = true
  check : (a.consumedRow actor.principalId s.now).check = true
  approval : a.productionEffect = true → ApprovalUsable s id actor version a

/-- Neither the outbox, nor a request, nor the clock was touched. -/
structure KeepsRequests (s t : Db) : Prop where
  outbox : t.outbox = s.outbox
  replayRequests : t.replayRequests = s.replayRequests
  now : t.now = s.now

theorem KeepsRequests.refl (s : Db) : KeepsRequests s s := ⟨rfl, rfl, rfl⟩

theorem KeepsRequests.trans {s t u : Db} (h : KeepsRequests s t) (h' : KeepsRequests t u) :
    KeepsRequests s u :=
  ⟨h'.outbox.trans h.outbox, h'.replayRequests.trans h.replayRequests, h'.now.trans h.now⟩

theorem refusal_eq_none {p : Approval} {a : Authorization} {version : String} {now : Time}
    (h : (p.state == .granted && p.consumedAt.isNone && p.revokedAt.isNone &&
      decide (now < p.expiresAt) && p.boundTo a version) = true) :
    p.refusal a version now = none := by
  unfold Approval.boundTo at h
  simp only [Bool.and_eq_true, beq_iff_eq, Option.isNone_iff_eq_none, decide_eq_true_eq] at h
  unfold Approval.refusal
  have hlate : ¬p.expiresAt ≤ now := Nat.not_le.mpr h.1.2
  simp [h, hlate]

/-- With a usable approval it is consumed. -/
theorem run_resolveAndConsumeApproval {a : Authorization} {version : String} {id : Uuid}
    {actor : Actor} (h : ApprovalUsable s id actor version a) :
    ∃ t, (resolveAndConsumeApproval a.productionApprovalReference a version actor.principalId
      id).run s = .ok (none, t) ∧ KeepsRequests s t ∧ t.authorizations = s.authorizations := by
  rcases h with ⟨approvalId, p, href, hp, hguard, hcheck⟩
  have hlock : (At.approvals.selectForUpdate approvalId (fun _ => true) :
      TaskTxn (Option Approval)).run s = .ok (some p, s) :=
    TableAt.run_selectForUpdate_of_find hp rfl
  have hupdate : (At.approvals.update approvalId
      (fun p => p.state == .granted && p.consumedAt.isNone && p.revokedAt.isNone &&
        decide (s.now < p.expiresAt) && p.boundTo a version)
      (Approval.consumedRow actor.principalId id s.now) Approval.check approvalsViolation :
        TaskTxn (Option Approval)).run s = _ := TableAt.run_update_of_find hp hguard
  rw [if_pos hcheck] at hupdate
  refine ⟨At.approvals.modify approvalId (Approval.consumedRow actor.principalId id s.now) s, ?_,
    ⟨rfl, rfl, rfl⟩, rfl⟩
  unfold resolveAndConsumeApproval
  rw [href]
  simp only [bind_eq, pure_eq, run_bind, hlock, andThen_ok, run_statementTimestamp,
    refusal_eq_none hguard, hupdate, run_done]

/-- Whoever is not refused has used an approval that was usable. -/
theorem leaves_resolveAndConsumeApproval {a : Authorization} {version : String} {id : Uuid}
    {actor : Actor} :
    (resolveAndConsumeApproval a.productionApprovalReference a version actor.principalId
      id).Leaves s fun b t => b = none → ApprovalUsable s id actor version a ∧
        KeepsRequests s t ∧ t.authorizations = s.authorizations := by
  have hrefused : ∀ reason, (Txn.done (some reason) : TaskTxn (Option ApprovalReason)).Leaves s
      fun b t => b = none → ApprovalUsable s id actor version a ∧ KeepsRequests s t ∧
        t.authorizations = s.authorizations := by
    intro reason
    refine leaves_done ?_
    intro hnone
    cases hnone
  unfold resolveAndConsumeApproval
  cases href : a.productionApprovalReference with
  | none => exact hrefused _
  | some reference =>
    cases reference with
    | empty => exact hrefused _
    | malformed text => exact hrefused _
    | approval approvalId =>
      refine Leaves.bind (Q := fun _ t => t = s) (TableAt.leaves_selectForUpdate rfl) ?_
      intro b t ht
      rw [ht]
      cases b with
      | none => exact hrefused _
      | some row =>
        refine Leaves.bind (leaves_statementTimestamp (P := fun _ t => t = s) rfl) ?_
        intro now t ht
        rw [ht]
        cases row.refusal a version now with
        | some reason => exact hrefused _
        | none =>
          refine Leaves.bind
            (leaves_statementTimestamp (P := fun b t => b = s.now ∧ t = s) ⟨rfl, rfl⟩) ?_
          intro now' t ht
          rw [ht.1, ht.2]
          refine Leaves.bind (Q := fun b t => b ≠ none → ApprovalUsable s id actor version a ∧
            KeepsRequests s t ∧ t.authorizations = s.authorizations) ?_ ?_
          · refine TableAt.leaves_update ?_ ?_
            · intro _ hnone
              exact absurd rfl hnone
            · intro p hp hguard hcheck _
              exact ⟨⟨approvalId, p, href, hp, hguard, hcheck⟩, ⟨rfl, rfl, rfl⟩, rfl⟩
          · intro b t ht'
            cases b with
            | none =>
              refine leaves_done ?_
              intro hnone
              cases hnone
            | some updated => exact leaves_done fun _ => ht' (Option.some_ne_none updated)

/-- The row of a usable authorization is in the scope of its consumer. -/
theorem Usable.in_scope {id : Uuid} {actor : Actor} {scope : Scope} {version : String}
    {a : Authorization} (h : Usable s id actor scope version a) : inScope scope a.scope = true := by
  have hguard := h.consumable
  unfold Authorization.consumable at hguard
  rw [Bool.and_eq_true] at hguard
  exact hguard.2

theorem run_consume {id : Uuid} {actor : Actor} {scope : Scope} {version : String}
    {a : Authorization} (h : Usable s id actor scope version a) :
    ∃ r t, (consume id actor scope version).run s = .ok (r, t) ∧ r.ok = true ∧
      KeepsRequests s t := by
  have hget : (getAuthorization id scope).run s = .ok (some a, s) := by
    unfold getAuthorization
    have hrow : (At.authorizations.get s).find? id = some a := h.row
    rw [TableAt.run_selectOne, hrow, Option.filter_some, if_pos h.in_scope]
  -- where no approval is needed, nothing is written for it
  have happroval : ∃ t, (if a.productionEffect then
        resolveAndConsumeApproval a.productionApprovalReference a version actor.principalId id
      else Txn.done none : TaskTxn (Option ApprovalReason)).run s = .ok (none, t) ∧
        KeepsRequests s t ∧ t.authorizations = s.authorizations := by
    by_cases hproduction : a.productionEffect = true
    · rw [if_pos hproduction]
      exact run_resolveAndConsumeApproval (h.approval hproduction)
    · rw [if_neg hproduction]
      exact ⟨s, rfl, .refl s, rfl⟩
  rcases happroval with ⟨t, hresolve, hkeep, hsame⟩
  have hrow : (At.authorizations.get t).find? id = some a := by
    have hget : At.authorizations.get t = s.authorizations := hsame
    rw [hget]
    exact h.row
  have hguard : a.consumable version scope t.now = true := by
    rw [hkeep.now]
    exact h.consumable
  have hcheck : (a.consumedRow actor.principalId t.now).check = true := by
    rw [hkeep.now]
    exact h.check
  have hconsume : (consumeAuthorization id actor.principalId version scope).run t =
      .ok (some (a.consumedRow actor.principalId t.now), At.authorizations.modify id
        (Authorization.consumedRow actor.principalId t.now) t) := by
    unfold consumeAuthorization
    rw [bind_eq, run_bind, run_statementTimestamp, andThen_ok,
      TableAt.run_update_of_find hrow hguard, if_pos hcheck]
  refine ⟨⟨true, .ok, .policyAllow, some (id, a.consumedRow actor.principalId t.now)⟩,
    At.authorizations.modify id (Authorization.consumedRow actor.principalId t.now) t, ?_, rfl,
    ⟨hkeep.outbox, hkeep.replayRequests, hkeep.now⟩⟩
  unfold consume
  simp only [bind_eq, pure_eq, run_bind, hget, andThen_ok, h.allowed, Bool.not_true,
    Bool.false_eq_true, if_false]
  by_cases hproduction : a.productionEffect = true
  · rw [if_pos hproduction] at hresolve ⊢
    rw [run_bind, hresolve, andThen_ok]
    simp only [run_bind, hconsume, andThen_ok, run_done]
  · rw [if_neg hproduction] at hresolve ⊢
    have hstate : s = t := congrArg Prod.snd (Except.ok.inj hresolve)
    rw [done_bind]
    rw [← hstate] at hconsume ⊢
    simp only [run_bind, hconsume, andThen_ok, run_done]

theorem leaves_consumeAuthorization {id : Uuid} {consumedBy version : String} {scope : Scope} :
    (consumeAuthorization id consumedBy version scope).Leaves s fun b t => b ≠ none →
      (∃ a, s.authorizations.find? id = some a ∧ a.consumable version scope s.now = true ∧
        (a.consumedRow consumedBy s.now).check = true) ∧ KeepsRequests s t := by
  unfold consumeAuthorization
  refine Leaves.bind (leaves_statementTimestamp (P := fun b t => b = s.now ∧ t = s) ⟨rfl, rfl⟩) ?_
  intro now t ht
  rw [ht.1, ht.2]
  refine TableAt.leaves_update ?_ ?_
  · intro _ hnone
    exact absurd rfl hnone
  · intro a ha hguard hcheck _
    exact ⟨⟨a, ha, hguard, hcheck⟩, rfl, rfl, rfl⟩

/-- What is consumed was usable. -/
theorem leaves_consume {id : Uuid} {actor : Actor} {scope : Scope} {version : String} :
    (consume id actor scope version).Leaves s fun r t => r.ok = true →
      (∃ a, Usable s id actor scope version a) ∧ KeepsRequests s t := by
  have hdenied : ∀ {r : ServiceResult} {t : Db}, r.ok = false →
      (Txn.done r : TaskTxn ServiceResult).Leaves t fun r t => r.ok = true →
        (∃ a, Usable s id actor scope version a) ∧ KeepsRequests s t := by
    intro r t hr
    refine leaves_done ?_
    intro hok
    rw [hr] at hok
    cases hok
  unfold consume
  simp only [bind_eq, pure_eq]
  refine Leaves.bind
    (Q := fun b t => b = (s.authorizations.find? id).filter (fun a => inScope scope a.scope) ∧ t = s)
    (TableAt.leaves_selectOne ⟨rfl, rfl⟩) ?_
  rintro b t ⟨hb, ht⟩
  rw [ht]
  cases b with
  | none => exact hdenied rfl
  | some row =>
    have hrow : s.authorizations.find? id = some row := (Option.filter_eq_some_iff.mp hb.symm).1
    refine leaves_ite (fun _ => hdenied rfl) fun hno => ?_
    rw [Bool.not_eq_true, Bool.not_eq_false'] at hno
    -- the row that is consumed is the row that was read
    have husable : ∀ t, KeepsRequests s t → t.authorizations = s.authorizations →
        (row.productionEffect = true → ApprovalUsable s id actor version row) →
        ∀ a, t.authorizations.find? id = some a → a.consumable version scope t.now = true →
          (a.consumedRow actor.principalId t.now).check = true →
            Usable s id actor scope version row := by
      intro t hkeep hsame happroval a ha hguard hcheck
      rw [hsame, hrow, Option.some.injEq] at ha
      rw [← ha, hkeep.now] at hguard hcheck
      exact ⟨hrow, hno, hguard, hcheck, happroval⟩
    refine leaves_ite ?_ ?_
    · intro hproduction
      refine Leaves.bind leaves_resolveAndConsumeApproval ?_
      intro refused t ht'
      cases refused with
      | some reason => exact hdenied rfl
      | none =>
        rcases ht' rfl with ⟨happroval, hkeep, hsame⟩
        refine Leaves.bind leaves_consumeAuthorization ?_
        intro b u hu
        cases b with
        | none => exact leaves_ite (fun _ => leaves_raise) fun hnot => absurd hproduction hnot
        | some updated =>
          rcases hu (Option.some_ne_none _) with ⟨⟨a, ha, hguard, hcheck⟩, hkeep'⟩
          exact leaves_done fun _ =>
            ⟨⟨row, husable t hkeep hsame (fun _ => happroval) a ha hguard hcheck⟩,
              hkeep.trans hkeep'⟩
    · intro hproduction
      simp only [done_bind]
      refine Leaves.bind leaves_consumeAuthorization ?_
      intro b u hu
      cases b with
      | none =>
        refine leaves_ite (fun _ => leaves_raise) fun _ => ?_
        refine Leaves.bind (Q := fun _ _ => True) (TableAt.leaves_selectOne trivial) ?_
        intro current t _
        refine Leaves.bind (leaves_statementTimestamp (P := fun _ _ => True) trivial) ?_
        intro now t _
        cases current with
        | none => exact hdenied rfl
        | some current => exact hdenied (consumeDenial_ok current version now)
      | some updated =>
        rcases hu (Option.some_ne_none _) with ⟨⟨a, ha, hguard, hcheck⟩, hkeep'⟩
        refine leaves_done fun _ => ⟨⟨row, husable s (.refl s) rfl ?_ a ha hguard hcheck⟩, hkeep'⟩
        intro hyes
        exact absurd hyes hproduction

end AiAgentsSwd.Tasks
