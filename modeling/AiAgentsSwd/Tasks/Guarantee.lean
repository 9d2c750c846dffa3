import AiAgentsSwd.Tasks.System

/-!
# Tasks.Guarantee — what any transaction may do to the others

`Guar l s t` is what a transaction holding the locks `l` may have done when it commits over
`s` and leaves `t`: the clock does not go back, every table evolves under its row locks, and a
row comes to have an index entry only under the lock of the entry. What a row keeps for ever
is what it was inserted with (`asRequested` and the like).

One lemma for each table and kind of write gives the guarantee of that write.
-/

namespace AiAgentsSwd.Tasks

open Keyed (Table Evolves Entered)
open Planning (Uuid Time)
open ReadCommitted

/-! ## What a row keeps -/

/-- The row as it was inserted. -/
def Authorization.asRequested (a : Authorization) : Authorization :=
  { a with
    decision := .pending
    decidedBy := none
    decidedRole := none
    decidedAt := none
    decisionReasonCode := none
    policyResult := none
    policyVersion := none
    consumedAt := none
    consumedBy := none
    revokedAt := none
    revokedBy := none
    revocationReasonCode := none
    expiredAt := none }

/-- The row as it was inserted. -/
def Approval.asGranted (p : Approval) : Approval :=
  { p with
    state := .granted
    consumedAt := none
    consumedBy := none
    consumedByAuthorizationId := none
    revokedAt := none
    revokedBy := none
    revocationReasonCode := none }

/-- The row as it was inserted. -/
def Clarification.asCreated (c : Clarification) : Clarification :=
  { taskId := c.taskId
    dueAt := c.dueAt
    reminderAt := c.reminderAt }

/-- The row as it was inserted, but for the schedule. -/
def OutboxEvent.asInserted (o : OutboxEvent) : OutboxEvent :=
  { o with
    status := .pending
    attempts := 0
    availableAt := o.createdAt
    publishedAt := none
    deadAt := none
    lastError := none }

/-- The row as it was inserted. -/
def ResumeRequest.asRequested (r : ResumeRequest) : ResumeRequest :=
  { r with
    state := .authorizationPending
    authorizedAt := none
    executionRequestedAt := none
    resumedAt := none
    failedAt := none
    canceledAt := none
    expiredAt := none
    commandId := none
    failureReasonCode := none }

/-- The row as it was inserted. -/
def ReplayRequest.asRequested (r : ReplayRequest) : ReplayRequest :=
  { r with
    state := .authorizationPending
    authorizedAt := none
    executedAt := none
    rejectedAt := none
    canceledAt := none
    expiredAt := none
    failureReasonCode := none }

/-- Two rows that agree in what `f` keeps of them. -/
def Kept {R : Type} (f : R → R) (x y : R) : Prop := f y = f x

theorem Kept.refl {R : Type} {f : R → R} (x : R) : Kept f x x := rfl

theorem Kept.trans {R : Type} {f : R → R} (x y z : R) (h : Kept f x y) (h' : Kept f y z) :
    Kept f x z := Eq.trans h' h

/-- A field that `f` keeps. -/
theorem Kept.field {R γ : Type} {f : R → R} {x y : R} (h : Kept f x y) (g : R → γ)
    (hg : ∀ x, g (f x) = g x) : g y = g x := by
  have hfg := congrArg g h
  rwa [hg, hg] at hfg

/-! ## Index entries -/

/-- The unique indexes of `resume_replay_authorizations`. -/
inductive Authorization.Index : Lock → (Authorization → Prop) → Prop where
  | key (key : String) : Index (.authorizationKey key) fun a => (a.idempotencyKey == key) = true
  | active (actionType : ActionType) (resourceId : Uuid) :
      Index (.activeAuthorization actionType resourceId) fun a =>
        (a.active && a.actionType == actionType && a.resourceId == resourceId) = true

/-- The unique index of `production_action_approvals`. -/
inductive Approval.Index : Lock → (Approval → Prop) → Prop where
  | key (key : String) : Index (.approvalKey key) fun p => (p.idempotencyKey == key) = true

/-- The unique index of `clarification_lifecycle_outbox`. -/
inductive OutboxEvent.Index : Lock → (OutboxEvent → Prop) → Prop where
  | key (key : String) : Index (.outboxKey key) fun o => (o.idempotencyKey == key) = true

/-- The unique indexes of `resume_requests`. -/
inductive ResumeRequest.Index : Lock → (ResumeRequest → Prop) → Prop where
  | key (key : String) : Index (.resumeRequestKey key) fun r => (r.idempotencyKey == key) = true
  | active (clarificationId : Uuid) : Index (.activeResumeRequest clarificationId) fun r =>
      (r.active && r.clarificationId == clarificationId) = true

/-- The unique indexes of `replay_requests`, and what its counts are taken under: requests of
an actor under the actor's lock, requests and executions of an event under the event's. -/
inductive ReplayRequest.Index : Lock → (ReplayRequest → Prop) → Prop where
  | key (key : String) : Index (.replayRequestKey key) fun r => (r.idempotencyKey == key) = true
  | active (outboxEventId : Uuid) : Index (.activeReplayRequest outboxEventId) fun r =>
      (r.active && r.outboxEventId == outboxEventId) = true
  | actor (teamId projectId : Uuid) (actorId : String) :
      Index (.actorRate (some teamId) (some projectId) actorId) fun r =>
        r.teamId = teamId ∧ r.projectId = projectId ∧ r.requestedBy = actorId
  | executed (outboxEventId : Uuid) (executedAt : Option Time) :
      Index (.outboxEvent outboxEventId) fun r =>
        r.outboxEventId = outboxEventId ∧ r.state = .executed ∧ r.executedAt = executedAt

/-! ## The guarantee -/

structure Guar (l : List Lock) (s t : Db) : Prop where
  now : s.now ≤ t.now
  authorizations : Evolves Lock.authorization (Kept Authorization.asRequested) l
    s.authorizations t.authorizations
  approvals : Evolves Lock.approval (Kept Approval.asGranted) l s.approvals t.approvals
  tasks : Evolves Lock.task (fun _ _ => True) l s.tasks t.tasks
  clarifications : Evolves Lock.clarification (Kept Clarification.asCreated) l
    s.clarifications t.clarifications
  outbox : Evolves Lock.outboxEvent (Kept OutboxEvent.asInserted) l s.outbox t.outbox
  resumeRequests : Evolves Lock.resumeRequest (Kept ResumeRequest.asRequested) l
    s.resumeRequests t.resumeRequests
  replayRequests : Evolves Lock.replayRequest (Kept ReplayRequest.asRequested) l
    s.replayRequests t.replayRequests
  authorizationIndex : ∀ e p, Authorization.Index e p →
    Entered e p l s.authorizations t.authorizations
  approvalIndex : ∀ e p, Approval.Index e p → Entered e p l s.approvals t.approvals
  outboxIndex : ∀ e p, OutboxEvent.Index e p → Entered e p l s.outbox t.outbox
  resumeIndex : ∀ e p, ResumeRequest.Index e p → Entered e p l s.resumeRequests t.resumeRequests
  replayIndex : ∀ e p, ReplayRequest.Index e p → Entered e p l s.replayRequests t.replayRequests

namespace Guar

variable {l l' : List Lock} {s t u : Db}

theorem refl : Guar l s s where
  now := Nat.le_refl _
  authorizations := .refl Kept.refl
  approvals := .refl Kept.refl
  tasks := .refl fun _ => trivial
  clarifications := .refl Kept.refl
  outbox := .refl Kept.refl
  resumeRequests := .refl Kept.refl
  replayRequests := .refl Kept.refl
  authorizationIndex := fun _ _ _ => .refl
  approvalIndex := fun _ _ _ => .refl
  outboxIndex := fun _ _ _ => .refl
  resumeIndex := fun _ _ _ => .refl
  replayIndex := fun _ _ _ => .refl

theorem mono (hl : l ⊆ l') (h : Guar l s t) : Guar l' s t where
  now := h.now
  authorizations := h.authorizations.mono hl
  approvals := h.approvals.mono hl
  tasks := h.tasks.mono hl
  clarifications := h.clarifications.mono hl
  outbox := h.outbox.mono hl
  resumeRequests := h.resumeRequests.mono hl
  replayRequests := h.replayRequests.mono hl
  authorizationIndex := fun e p hi => (h.authorizationIndex e p hi).mono hl
  approvalIndex := fun e p hi => (h.approvalIndex e p hi).mono hl
  outboxIndex := fun e p hi => (h.outboxIndex e p hi).mono hl
  resumeIndex := fun e p hi => (h.resumeIndex e p hi).mono hl
  replayIndex := fun e p hi => (h.replayIndex e p hi).mono hl

theorem trans (h : Guar l s t) (h' : Guar l t u) : Guar l s u where
  now := Nat.le_trans h.now h'.now
  authorizations := h.authorizations.trans Kept.trans h'.authorizations
  approvals := h.approvals.trans Kept.trans h'.approvals
  tasks := h.tasks.trans (fun _ _ _ _ _ => trivial) h'.tasks
  clarifications := h.clarifications.trans Kept.trans h'.clarifications
  outbox := h.outbox.trans Kept.trans h'.outbox
  resumeRequests := h.resumeRequests.trans Kept.trans h'.resumeRequests
  replayRequests := h.replayRequests.trans Kept.trans h'.replayRequests
  authorizationIndex := fun e p hi => (h.authorizationIndex e p hi).trans
    (h'.authorizationIndex e p hi)
  approvalIndex := fun e p hi => (h.approvalIndex e p hi).trans (h'.approvalIndex e p hi)
  outboxIndex := fun e p hi => (h.outboxIndex e p hi).trans (h'.outboxIndex e p hi)
  resumeIndex := fun e p hi => (h.resumeIndex e p hi).trans (h'.resumeIndex e p hi)
  replayIndex := fun e p hi => (h.replayIndex e p hi).trans (h'.replayIndex e p hi)

/-! ### Its writes -/

theorem tick (elapsed : Time) : Guar l s { s with now := s.now + elapsed } :=
  { Guar.refl (l := l) (s := s) with now := Nat.le_add_right _ _ }

theorem insertAuthorization {k : Uuid} {a : Authorization} (hn : s.authorizations.find? k = none)
    (hk : .authorization k ∈ l) (hkey : .authorizationKey a.idempotencyKey ∈ l)
    (hactive : .activeAuthorization a.actionType a.resourceId ∈ l) :
    Guar l s (At.authorizations.insert k a s) :=
  { Guar.refl (l := l) (s := s) with
    authorizations := .insert Kept.refl hn hk
    authorizationIndex := fun e p hi => .insert fun hp => by
      cases hi with
      | key key =>
        rw [beq_iff_eq] at hp
        rw [← hp]
        exact hkey
      | active t r =>
        simp only [Bool.and_eq_true, beq_iff_eq] at hp
        rw [← hp.1.2, ← hp.2]
        exact hactive }

theorem modifyAuthorization {k : Uuid} {f : Authorization → Authorization} {a : Authorization}
    (ha : s.authorizations.find? k = some a) (hk : .authorization k ∈ l)
    (hf : Kept Authorization.asRequested a (f a)) (hactive : (f a).active = true → a.active = true) :
    Guar l s (At.authorizations.modify k f s) :=
  { Guar.refl (l := l) (s := s) with
    authorizations := .modify Kept.refl (fun x hx => by rw [ha] at hx; cases hx; exact hf) hk
    authorizationIndex := fun e p hi => .modify fun x hx hp => by
      rw [ha] at hx
      cases hx
      cases hi with
      | key key =>
        rw [hf.field Authorization.idempotencyKey fun _ => rfl] at hp
        exact Or.inr hp
      | active t r =>
        rw [hf.field Authorization.actionType fun _ => rfl,
          hf.field Authorization.resourceId fun _ => rfl] at hp
        simp only [Bool.and_eq_true] at hp
        simp only [Bool.and_eq_true]
        exact Or.inr ⟨⟨hactive hp.1.1, hp.1.2⟩, hp.2⟩ }

theorem insertApproval {k : Uuid} {p : Approval} (hn : s.approvals.find? k = none)
    (hk : .approval k ∈ l) (hkey : .approvalKey p.idempotencyKey ∈ l) :
    Guar l s (At.approvals.insert k p s) :=
  { Guar.refl (l := l) (s := s) with
    approvals := .insert Kept.refl hn hk
    approvalIndex := fun e q hi => .insert fun hp => by
      cases hi with
      | key key =>
        rw [beq_iff_eq] at hp
        rw [← hp]
        exact hkey }

theorem modifyApproval {k : Uuid} {f : Approval → Approval} {p : Approval}
    (hp : s.approvals.find? k = some p) (hk : .approval k ∈ l)
    (hf : Kept Approval.asGranted p (f p)) : Guar l s (At.approvals.modify k f s) :=
  { Guar.refl (l := l) (s := s) with
    approvals := .modify Kept.refl (fun x hx => by rw [hp] at hx; cases hx; exact hf) hk
    approvalIndex := fun e q hi => .modify fun x hx hq => by
      rw [hp] at hx
      cases hx
      cases hi with
      | key key =>
        rw [hf.field Approval.idempotencyKey fun _ => rfl] at hq
        exact Or.inr hq }

theorem insertTask {k : Uuid} {row : Task} (hk : .task k ∈ l) :
    Guar l s (At.tasks.insert k row s) :=
  { Guar.refl (l := l) (s := s) with
    tasks :=
      { keeps := fun j x hx => by
          by_cases hj : j = k
          · subst hj
            exact ⟨row, Table.find?_insert_self _ _ _, trivial, Or.inr hk⟩
          · refine ⟨x, ?_, trivial, Or.inl rfl⟩
            show (s.tasks.insert k row).find? j = some x
            rw [Table.find?_insert_of_ne _ _ hj, hx]
        locks := fun j y hs hy => by
          by_cases hj : j = k
          · subst hj
            exact hk
          · rw [show (At.tasks.insert k row s).tasks = s.tasks.insert k row from rfl,
              Table.find?_insert_of_ne _ _ hj, hs] at hy
            cases hy } }

theorem modifyTask {k : Uuid} {f : Task → Task} (hk : .task k ∈ l) :
    Guar l s (At.tasks.modify k f s) :=
  { Guar.refl (l := l) (s := s) with
    tasks := .modify (fun _ => trivial) (fun _ _ => trivial) hk }

theorem insertClarification {k : Uuid} {c : Clarification} (hn : s.clarifications.find? k = none)
    (hk : .clarification k ∈ l) : Guar l s (At.clarifications.insert k c s) :=
  { Guar.refl (l := l) (s := s) with
    clarifications := .insert Kept.refl hn hk }

theorem modifyClarification {k : Uuid} {f : Clarification → Clarification}
    (hk : .clarification k ∈ l) (hf : ∀ c, Kept Clarification.asCreated c (f c)) :
    Guar l s (At.clarifications.modify k f s) :=
  { Guar.refl (l := l) (s := s) with
    clarifications := .modify Kept.refl (fun x _ => hf x) hk }

theorem insertOutbox {k : Uuid} {o : OutboxEvent} (hn : s.outbox.find? k = none)
    (hk : .outboxEvent k ∈ l) (hkey : .outboxKey o.idempotencyKey ∈ l) :
    Guar l s (At.outbox.insert k o s) :=
  { Guar.refl (l := l) (s := s) with
    outbox := .insert Kept.refl hn hk
    outboxIndex := fun e p hi => .insert fun hp => by
      cases hi with
      | key key =>
        rw [beq_iff_eq] at hp
        rw [← hp]
        exact hkey }

theorem modifyOutbox {k : Uuid} {f : OutboxEvent → OutboxEvent} (hk : .outboxEvent k ∈ l)
    (hf : ∀ o, Kept OutboxEvent.asInserted o (f o)) : Guar l s (At.outbox.modify k f s) :=
  { Guar.refl (l := l) (s := s) with
    outbox := .modify Kept.refl (fun x _ => hf x) hk
    outboxIndex := fun e p hi => .modify fun x _ hp => by
      cases hi with
      | key key =>
        rw [(hf x).field OutboxEvent.idempotencyKey fun _ => rfl] at hp
        exact Or.inr hp }

theorem insertResumeRequest {k : Uuid} {r : ResumeRequest} (hn : s.resumeRequests.find? k = none)
    (hk : .resumeRequest k ∈ l) (hkey : .resumeRequestKey r.idempotencyKey ∈ l)
    (hactive : .activeResumeRequest r.clarificationId ∈ l) :
    Guar l s (At.resumeRequests.insert k r s) :=
  { Guar.refl (l := l) (s := s) with
    resumeRequests := .insert Kept.refl hn hk
    resumeIndex := fun e p hi => .insert fun hp => by
      cases hi with
      | key key =>
        rw [beq_iff_eq] at hp
        rw [← hp]
        exact hkey
      | active c =>
        simp only [Bool.and_eq_true, beq_iff_eq] at hp
        rw [← hp.2]
        exact hactive }

theorem modifyResumeRequest {k : Uuid} {f : ResumeRequest → ResumeRequest} {r : ResumeRequest}
    (hr : s.resumeRequests.find? k = some r) (hk : .resumeRequest k ∈ l)
    (hf : Kept ResumeRequest.asRequested r (f r)) (hactive : (f r).active = true → r.active = true) :
    Guar l s (At.resumeRequests.modify k f s) :=
  { Guar.refl (l := l) (s := s) with
    resumeRequests := .modify Kept.refl (fun x hx => by rw [hr] at hx; cases hx; exact hf) hk
    resumeIndex := fun e p hi => .modify fun x hx hp => by
      rw [hr] at hx
      cases hx
      cases hi with
      | key key =>
        rw [hf.field ResumeRequest.idempotencyKey fun _ => rfl] at hp
        exact Or.inr hp
      | active c =>
        rw [hf.field ResumeRequest.clarificationId fun _ => rfl] at hp
        simp only [Bool.and_eq_true] at hp
        simp only [Bool.and_eq_true]
        exact Or.inr ⟨hactive hp.1, hp.2⟩ }

theorem insertReplayRequest {k : Uuid} {r : ReplayRequest} (hn : s.replayRequests.find? k = none)
    (hk : .replayRequest k ∈ l) (hkey : .replayRequestKey r.idempotencyKey ∈ l)
    (hactive : .activeReplayRequest r.outboxEventId ∈ l)
    (hactor : .actorRate (some r.teamId) (some r.projectId) r.requestedBy ∈ l)
    (hpending : r.state = .authorizationPending) :
    Guar l s (At.replayRequests.insert k r s) :=
  { Guar.refl (l := l) (s := s) with
    replayRequests := .insert Kept.refl hn hk
    replayIndex := fun e p hi => .insert fun hp => by
      cases hi with
      | key key =>
        rw [beq_iff_eq] at hp
        rw [← hp]
        exact hkey
      | active c =>
        simp only [Bool.and_eq_true, beq_iff_eq] at hp
        rw [← hp.2]
        exact hactive
      | actor t p a =>
        rw [← hp.1, ← hp.2.1, ← hp.2.2]
        exact hactor
      | executed c e =>
        rw [hpending] at hp
        cases hp.2.1 }

theorem modifyReplayRequest {k : Uuid} {f : ReplayRequest → ReplayRequest} {r : ReplayRequest}
    (hr : s.replayRequests.find? k = some r) (hk : .replayRequest k ∈ l)
    (hf : Kept ReplayRequest.asRequested r (f r)) (hactive : (f r).active = true → r.active = true)
    (hexecuted : (f r).state = .executed → .outboxEvent r.outboxEventId ∈ l) :
    Guar l s (At.replayRequests.modify k f s) :=
  { Guar.refl (l := l) (s := s) with
    replayRequests := .modify Kept.refl (fun x hx => by rw [hr] at hx; cases hx; exact hf) hk
    replayIndex := fun e p hi => .modify fun x hx hp => by
      rw [hr] at hx
      cases hx
      have hc : (f r).outboxEventId = r.outboxEventId := hf.field ReplayRequest.outboxEventId fun _ => rfl
      cases hi with
      | key key =>
        rw [hf.field ReplayRequest.idempotencyKey fun _ => rfl] at hp
        exact Or.inr hp
      | active c =>
        rw [hc] at hp
        simp only [Bool.and_eq_true] at hp
        simp only [Bool.and_eq_true]
        exact Or.inr ⟨hactive hp.1, hp.2⟩
      | actor t p a =>
        have ht : (f r).teamId = r.teamId := hf.field ReplayRequest.teamId fun _ => rfl
        have hp' : (f r).projectId = r.projectId := hf.field ReplayRequest.projectId fun _ => rfl
        have ha : (f r).requestedBy = r.requestedBy := hf.field ReplayRequest.requestedBy fun _ => rfl
        rw [ht, hp', ha] at hp
        exact Or.inr hp
      | executed c e =>
        have hlock := hexecuted hp.2.1
        rw [← hc, hp.1] at hlock
        exact Or.inl hlock }

end Guar

end AiAgentsSwd.Tasks
