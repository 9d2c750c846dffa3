import AiAgentsSwd.Tasks.ClarificationSteps
import AiAgentsSwd.Tasks.OutboxSteps
import AiAgentsSwd.Tasks.Versions

/-!
# Tasks.ResumeCommands — the command to execute a resume

`prepare_execution` consumes the authorization, inserts the command and moves the request in one
transaction. `commands_bound` says what that comes to over a run: one command for each request
whose execution was asked for and for no other, inserted while what the request was made for
was still in force, and with one outcome.
-/

namespace AiAgentsSwd.Tasks

open Keyed (Table)
open Planning (Uuid Time)
open ReadCommitted

variable {cfg : Settings} {Inv : Db → Prop} {c : Call} {r : Reply} {s t : Db}

namespace ResumeRequest

/-- The execution has been asked for. -/
def issued (r : ResumeRequest) : Bool :=
  r.state == .executionPending || r.state == .resumed || r.state == .failed

/-- The outcome of the execution has been confirmed. -/
def confirmed (r : ResumeRequest) : Bool := r.state == .resumed || r.state == .failed

theorem issued_iff {r : ResumeRequest} : r.issued = true ↔
    r.state = .executionPending ∨ r.state = .resumed ∨ r.state = .failed := by
  unfold issued
  simp only [Bool.or_eq_true, beq_iff_eq, or_assoc]

theorem confirmed_iff {r : ResumeRequest} :
    r.confirmed = true ↔ r.state = .resumed ∨ r.state = .failed := by
  unfold confirmed
  simp only [Bool.or_eq_true, beq_iff_eq]

/-- What stays of an issued request in the later row `r'`. -/
structure Follows (r r' : ResumeRequest) : Prop where
  issued : r'.issued = true
  command : r'.commandId = r.commandId
  authorization : r'.authorizationId = r.authorizationId
  final : r.confirmed = true → r' = r

theorem Follows.refl {r : ResumeRequest} (h : r.issued = true) : r.Follows r :=
  ⟨h, rfl, rfl, fun _ => rfl⟩

end ResumeRequest

/-- What the version of the request `row` says is in force in `s`. -/
def RequestedFor (s : Db) (row : ResumeRequest) : Prop :=
  ∃ clar task, s.clarifications.find? row.clarificationId = some clar ∧
    s.tasks.find? clar.taskId = some task ∧ row.taskId = clar.taskId ∧
    row.resourceStateVersion = resourceStateVersion clar task

/-! ## Steps -/

theorem ResumeStep.created (h : ResumeStep Inv s t) {id : Uuid} {row : ResumeRequest}
    (hs : s.resumeRequests.find? id = none) (ht : t.resumeRequests.find? id = some row) :
    row.asRequested = row ∧ RequestedFor s row := by
  -- only a request puts a row where there was none
  have hputs : ∀ {j x y}, s.resumeRequests.find? j = some x →
      s.resumeRequests.Puts t.resumeRequests j y → False := by
    intro j x y hx hrows
    rcases hrows.find ht with ⟨rfl, -⟩ | ⟨-, ht⟩
    · rw [hs] at hx
      cases hx
    · rw [hs] at ht
      cases ht
  cases h with
  | other hrows _ =>
    rw [hrows, hs] at ht
    cases ht
  | @requested j row' clar task _ _ hc htask hid _ hversion hnew _ _ hrows _ =>
    rcases hrows.find ht with ⟨rfl, rfl⟩ | ⟨-, ht⟩
    · exact ⟨hnew, clar, task, hc, htask, hid, hversion⟩
    · rw [hs] at ht
      cases ht
  | late _ _ _ _ _ _ _ _ hrows =>
    rw [hrows, hs] at ht
    cases ht
  | authorized hrr _ _ hrows _ => exact (hputs hrr hrows).elim
  | declined hrr _ _ _ _ hrows _ _ => exact (hputs hrr hrows).elim
  | prepared h => exact (hputs h.request h.rows).elim
  | confirmed hrr _ _ _ _ _ hrows _ => exact (hputs hrr hrows).elim
  | expired _ hrows _ =>
    rw [hrows, hs, Option.map_none, ite_self] at ht
    cases ht

/-- An issued request stays one, with its command. -/
theorem ResumeStep.issued_after (h : ResumeStep Inv s t) {id : Uuid} {rr : ResumeRequest}
    (hrr : s.resumeRequests.find? id = some rr) (hi : rr.issued = true) :
    ∃ rr', t.resumeRequests.find? id = some rr' ∧ rr.Follows rr' := by
  have hstate := ResumeRequest.issued_iff.mp hi
  have hsame : t.resumeRequests.find? id = some rr →
      ∃ rr', t.resumeRequests.find? id = some rr' ∧ rr.Follows rr' :=
    fun h => ⟨rr, h, .refl hi⟩
  -- a write of a row in another state leaves it there
  have hkeep : ∀ {j x y}, s.resumeRequests.find? j = some x → x.issued = false →
      s.resumeRequests.Puts t.resumeRequests j y →
      ∃ rr', t.resumeRequests.find? id = some rr' ∧ rr.Follows rr' := by
    intro j x y hx hno hrows
    have hj : id ≠ j := by
      rintro rfl
      have heq : rr = x := Option.some.inj (hrr.symm.trans hx)
      rw [heq, hno] at hi
      cases hi
    exact hsame (by rw [hrows.of_ne hj, hrr])
  cases h with
  | other hrows _ => exact hsame (by rw [hrows, hrr])
  | @requested j _ _ _ _ _ _ _ _ _ _ _ habsent _ hrows _ =>
    have hj : id ≠ j := by
      rintro rfl
      rw [habsent] at hrr
      cases hrr
    exact hsame (by rw [hrows.of_ne hj, hrr])
  | late _ _ _ _ _ _ _ _ hrows => exact hsame (by rw [hrows, hrr])
  | authorized hx hpending _ hrows _ =>
    exact hkeep hx (by simp [ResumeRequest.issued, hpending]) hrows
  | declined hx hpending _ _ _ hrows _ _ =>
    exact hkeep hx (by simp [ResumeRequest.issued, hpending]) hrows
  | prepared h => exact hkeep h.request (by simp [ResumeRequest.issued, h.state]) h.rows
  | @confirmed j x x' hx hpending hkept hcommand hend _ hrows _ =>
    by_cases hj : id = j
    · subst hj
      have heq : rr = x := Option.some.inj (hrr.symm.trans hx)
      subst heq
      refine ⟨x', hrows.self, ResumeRequest.issued_iff.mpr (Or.inr hend), hcommand, ?_, ?_⟩
      · exact hkept.field ResumeRequest.authorizationId fun _ => rfl
      · intro hconfirmed
        rw [ResumeRequest.confirmed_iff, hpending] at hconfirmed
        simp at hconfirmed
    · exact hsame (by rw [hrows.of_ne hj, hrr])
  | @expired ids _ h hrows _ =>
    by_cases hj : id ∈ ids
    · rcases h id hj with ⟨x, hx, hexp, -⟩
      have heq : rr = x := Option.some.inj (hrr.symm.trans hx)
      rw [← heq] at hexp
      unfold ResumeRequest.expirable at hexp
      rcases hstate with h | h | h <;> simp [h] at hexp
    · exact hsame (by rw [hrows, if_neg hj, hrr])

/-- A request is issued by the preparation of its execution. -/
theorem ResumeStep.issued_before (h : ResumeStep Inv s t) {id : Uuid} {rr' : ResumeRequest}
    (hrr' : t.resumeRequests.find? id = some rr') (hi : rr'.issued = true) :
    (∃ rr, s.resumeRequests.find? id = some rr ∧ rr.issued = true) ∨
      ∃ e rr now, Prepared s t id e rr now := by
  have hstate := ResumeRequest.issued_iff.mp hi
  have hputs : ∀ {j x}, s.resumeRequests.Puts t.resumeRequests j x → x.issued = false →
      ∃ rr, s.resumeRequests.find? id = some rr ∧ rr.issued = true := by
    intro j x hrows hno
    rcases hrows.find hrr' with ⟨-, rfl⟩ | ⟨-, hrr⟩
    · rw [hno] at hi
      cases hi
    · exact ⟨rr', hrr, hi⟩
  cases h with
  | other hrows _ =>
    rw [hrows] at hrr'
    exact Or.inl ⟨rr', hrr', hi⟩
  | requested _ _ _ _ _ hnew _ _ hrows _ =>
    refine Or.inl (hputs hrows ?_)
    rw [← hnew]
    rfl
  | late _ _ _ _ _ _ _ _ hrows =>
    rw [hrows] at hrr'
    exact Or.inl ⟨rr', hrr', hi⟩
  | authorized _ _ _ hrows _ => exact Or.inl (hputs hrows rfl)
  | declined _ _ _ hend _ hrows _ _ =>
    refine Or.inl (hputs hrows ?_)
    rcases hend with h | h <;> simp [ResumeRequest.issued, h]
  | @prepared j e rr now h =>
    rcases h.rows.find hrr' with ⟨rfl, -⟩ | ⟨-, hrr⟩
    · exact Or.inr ⟨e, rr, now, h⟩
    · exact Or.inl ⟨rr', hrr, hi⟩
  | confirmed hrr hpending _ _ _ _ hrows _ =>
    rcases hrows.find hrr' with ⟨rfl, -⟩ | ⟨-, hrr⟩
    · exact Or.inl ⟨_, hrr, ResumeRequest.issued_iff.mpr (Or.inl hpending)⟩
    · exact Or.inl ⟨rr', hrr, hi⟩
  | @expired ids now h hrows _ =>
    rw [hrows] at hrr'
    by_cases hj : id ∈ ids
    · rcases h id hj with ⟨x, hx, -⟩
      rw [if_pos hj, hx, Option.map_some, Option.some.injEq] at hrr'
      rw [← hrr'] at hi
      cases hi
    · rw [if_neg hj] at hrr'
      exact Or.inl ⟨rr', hrr', hi⟩

/-! ## What always holds -/

/-- The authorization of the request is used up. -/
def Spent (s : Db) (rr : ResumeRequest) : Prop :=
  ∃ a, s.authorizations.find? rr.authorizationId = some a ∧ a.consumedAt ≠ none

/-- What every run keeps. -/
structure CommandInv (s : Db) : Prop where
  answers : ∀ id clar u, s.clarifications.find? id = some clar →
    clar.answerMessageId = some u → u.value < 2 ^ 128
  placed : ∀ id rr, s.resumeRequests.find? id = some rr → ∃ clar,
    s.clarifications.find? rr.clarificationId = some clar ∧ clar.taskId = rr.taskId
  issued : ∀ id rr, s.resumeRequests.find? id = some rr → rr.issued = true → Spent s rr ∧
    ∃ e o, rr.commandId = some e ∧ s.outbox.find? e = some o ∧ o.Commands id
  commands : ∀ e o, s.outbox.find? e = some o → o.eventType = .resumeExecutionRequested →
    ∃ id rr, s.resumeRequests.find? id = some rr ∧ rr.issued = true ∧ rr.commandId = some e ∧
      o.Commands id

theorem ClarificationStep.answers (h : ClarificationStep c s t)
    (hs : ∀ id clar u, s.clarifications.find? id = some clar →
      clar.answerMessageId = some u → u.value < 2 ^ 128) :
    ∀ id clar u, t.clarifications.find? id = some clar →
      clar.answerMessageId = some u → u.value < 2 ^ 128 := by
  intro id clar u hclar hu
  -- a row written with an answer as before
  have hputs : ∀ {j x y}, s.clarifications.Puts t.clarifications j y →
      s.clarifications.find? j = some x → y.answerMessageId = x.answerMessageId →
      u.value < 2 ^ 128 := by
    intro j x y hrows hx hsame
    rcases hrows.find hclar with ⟨rfl, rfl⟩ | ⟨-, hclar⟩
    · rw [hsame] at hu
      exact hs id x u hx hu
    · exact hs id clar u hclar hu
  cases h with
  | other h =>
    rcases h.find hclar with ⟨clar₀, hc₀, hkept⟩
    rw [hkept.field Clarification.answerMessageId fun _ => rfl] at hu
    exact hs id clar₀ u hc₀ hu
  | created _ hnew hrows =>
    rcases hrows.find hclar with ⟨rfl, rfl⟩ | ⟨-, hclar⟩
    · rw [← hnew] at hu
      cases hu
    · exact hs id clar u hclar hu
  | answered hc _ _ _ _ hrows => exact hputs hrows hc rfl
  | messaged _ hid hrows =>
    rcases hrows.find hclar with ⟨rfl, rfl⟩ | ⟨-, hclar⟩
    · obtain rfl := Option.some.inj hu
      exact hid
    · exact hs id clar u hclar hu
  | reminded hc _ hrows _ _ _ _ => exact hputs hrows hc rfl
  | expired hc _ _ _ hrows _ _ _ _ => exact hputs hrows hc rfl

theorem Spent.stays {rr rr' : ResumeRequest} (h : Spent s rr) (hst : AuthorizationsSettled s t)
    (hid : rr'.authorizationId = rr.authorizationId) : Spent t rr' := by
  rcases h with ⟨a, ha, hcons⟩
  rcases hst _ a ha with ⟨b, hb, hset⟩
  exact ⟨b, by rw [hid, hb], by rw [hset.consumed hcons]; exact hcons⟩

/-- A command stays what it is. -/
theorem OutboxEvent.Commands.stays {o : OutboxEvent} {id e : Uuid} {L : List Lock}
    (h : o.Commands id) (hg : Guar L s t) (ho : s.outbox.find? e = some o) :
    ∃ o', t.outbox.find? e = some o' ∧ o'.Commands id := by
  rcases hg.outbox.find_same ho with ⟨o', ho', hkept⟩
  refine ⟨o', ho', ?_, ?_⟩
  · rw [hkept.field OutboxEvent.eventType fun _ => rfl, h.1]
  · rw [hkept.field OutboxEvent.payload fun _ => rfl, h.2]

/-- The request of a preparation, as it leaves it. -/
theorem Prepared.after {id e : Uuid} {rr : ResumeRequest} {now : Time}
    (h : Prepared s t id e rr now) : Spent t (rr.executionPendingRow e now) ∧
      ∃ o, t.outbox.find? e = some o ∧ o.Commands id := by
  rcases h.consumed with ⟨a, ha, hcons, -⟩
  rcases h.command with ⟨o, hputs, hcommand⟩
  exact ⟨⟨a, ha, hcons⟩, o, hputs.self, hcommand⟩

theorem Effect.commandInv {L : List Lock} (h : Effect cfg CommandInv c r s t)
    (hc : c.emits ≠ some .resumeExecutionRequested) (hs : CommandInv s) (hg : Guar L s t) :
    CommandInv t where
  answers := h.clarificationStep.answers hs.answers
  placed := by
    intro id rr hrr
    have hplaced : ∃ clar, s.clarifications.find? rr.clarificationId = some clar ∧
        clar.taskId = rr.taskId := by
      cases hrr₀ : s.resumeRequests.find? id with
      | none =>
        rcases (h.resumeStep.created hrr₀ hrr).2 with ⟨clar, _, hclar, -, htask, -⟩
        exact ⟨clar, hclar, htask.symm⟩
      | some rr₀ =>
        rcases hg.resumeRequests.find_same hrr₀ with ⟨rr', hrr', hkept⟩
        have heq : rr = rr' := Option.some.inj (hrr.symm.trans hrr')
        subst heq
        rw [hkept.field ResumeRequest.clarificationId fun _ => rfl,
          hkept.field ResumeRequest.taskId fun _ => rfl]
        exact hs.placed id rr₀ hrr₀
    rcases hplaced with ⟨clar, hclar, htask⟩
    rcases hg.clarifications.find_same hclar with ⟨clar', hclar', hkept⟩
    exact ⟨clar', hclar', by rw [hkept.field Clarification.taskId fun _ => rfl, htask]⟩
  issued := by
    intro id rr' hrr' hi
    rcases h.resumeStep.issued_before hrr' hi with ⟨rr, hrr, hi₀⟩ | ⟨e, rr, now, hprep⟩
    · rcases hs.issued id rr hrr hi₀ with ⟨hspent, e, o, he, ho, hcommand⟩
      rcases h.resumeStep.issued_after hrr hi₀ with ⟨x, hx, hfollows⟩
      have heq : rr' = x := Option.some.inj (hrr'.symm.trans hx)
      subst heq
      rcases hcommand.stays hg ho with ⟨o', ho', hcommand'⟩
      exact ⟨hspent.stays h.settled hfollows.authorization, e, o', by rw [hfollows.command, he],
        ho', hcommand'⟩
    · have heq : rr' = rr.executionPendingRow e now :=
        Option.some.inj (hrr'.symm.trans hprep.rows.self)
      subst heq
      rcases hprep.after with ⟨hspent, o, ho, hcommand⟩
      exact ⟨hspent, e, o, rfl, ho, hcommand⟩
  commands := by
    intro e o ho htype
    cases ho₀ : s.outbox.find? e with
    | none =>
      cases h.origin ho₀ ho with
      | @prepared id rr now hprep =>
        rcases hprep.after with ⟨-, o', ho', hcommand⟩
        have heq : o = o' := Option.some.inj (ho.symm.trans ho')
        subst heq
        exact ⟨id, _, hprep.rows.self, rfl, rfl, hcommand⟩
      | reminded _ _ hno _ =>
        rw [htype] at hno
        cases hno
      | expired _ _ hno _ =>
        rw [htype] at hno
        cases hno
      | direct hno =>
        rw [htype] at hno
        exact absurd hno hc
      | notice hno =>
        rw [htype] at hno
        cases hno
    | some o₀ =>
      rcases hg.outbox.find_same ho₀ with ⟨o', ho', hkept⟩
      have heq : o = o' := Option.some.inj (ho.symm.trans ho')
      subst heq
      have htype₀ : o₀.eventType = .resumeExecutionRequested := by
        rw [← htype, hkept.field OutboxEvent.eventType fun _ => rfl]
      rcases hs.commands e o₀ ho₀ htype₀ with ⟨id, rr, hrr, hi, he, hcommand⟩
      rcases h.resumeStep.issued_after hrr hi with ⟨rr', hrr', hfollows⟩
      rcases hcommand.stays hg ho₀ with ⟨o', ho', hcommand'⟩
      have heq : o = o' := Option.some.inj (ho.symm.trans ho')
      subst heq
      exact ⟨id, rr', hrr', hfollows.issued, by rw [hfollows.command, he], hcommand'⟩

/-! ## Runs -/

/-- What the version of a resume is made of. -/
def inForce (s : Db) (cid : Uuid) : Option (ClarificationStatus × Option Uuid × Bool) := do
  let clar ← s.clarifications.find? cid
  let task ← s.tasks.find? clar.taskId
  return (clar.status, clar.answerMessageId, task.productionEffect)

theorem inForce_eq {cid : Uuid} {clar : Clarification} {task : Task}
    (hc : s.clarifications.find? cid = some clar) (ht : s.tasks.find? clar.taskId = some task) :
    inForce s cid = some (clar.status, clar.answerMessageId, task.productionEffect) := by
  simp [inForce, hc, ht]

/-- No resume is requested, no command is in the outbox, and the answers are ids of messages. -/
structure Uncommanded (s : Db) : Prop where
  requests : ∀ id, s.resumeRequests.find? id = none
  commands : ∀ e o, s.outbox.find? e = some o → o.eventType ≠ .resumeExecutionRequested
  answers : ∀ id clar u, s.clarifications.find? id = some clar →
    clar.answerMessageId = some u → u.value < 2 ^ 128

theorem Uncommanded.inv (h : Uncommanded s) : CommandInv s where
  answers := h.answers
  placed := fun id rr hrr => by
    rw [h.requests id] at hrr
    cases hrr
  issued := fun id rr hrr => by
    rw [h.requests id] at hrr
    cases hrr
  commands := fun e o ho htype => absurd htype (h.commands e o ho)

/-- The calls of a system in which commands come from the resume service alone. -/
abbrev CommandCall := { c : Call // c.emits ≠ some .resumeExecutionRequested }

variable {ms ns ls : List (Commit Db Reply CommandCall)} {m : Commit Db Reply CommandCall}

/-- The commit `n` inserted the request `rr`. -/
def Inserts (id : Uuid) (rr : ResumeRequest) (n : Commit Db Reply CommandCall) : Prop :=
  n.before.resumeRequests.find? id = none ∧
    n.after.resumeRequests.find? id = some rr.asRequested ∧ RequestedFor n.before rr

/-- Every request was inserted in the run, for what was in force. -/
theorem inserted_of_run (h : Commits (IsEffect cfg CommandInv Subtype.val) s ms t)
    (hs : ∀ id, s.resumeRequests.find? id = none) : ∀ id rr, t.resumeRequests.find? id = some rr →
      ∃ n ∈ ms, Inserts id rr n := by
  refine h.history (J := fun ms t => ∀ id rr, t.resumeRequests.find? id = some rr →
    ∃ n ∈ ms, Inserts id rr n) ?_ ?_
  · intro ms m _ hm ih id rr hrr
    cases hrr₀ : m.before.resumeRequests.find? id with
    | none =>
      rcases hm.effect.resumeStep.created hrr₀ hrr with ⟨hnew, hfor⟩
      exact ⟨m, by simp, hrr₀, by rw [hnew, hrr], hfor⟩
    | some rr₀ =>
      rcases ih id rr₀ hrr₀ with ⟨n, hn, hbefore, hafter, clar, task, hc, ht, htask, hversion⟩
      rcases hm.guar with ⟨L, hg⟩
      rcases hg.resumeRequests.find_same hrr₀ with ⟨rr', hrr', hkept⟩
      have heq : rr = rr' := Option.some.inj (hrr.symm.trans hrr')
      subst heq
      refine ⟨n, List.mem_append_left _ hn, hbefore, ?_, clar, task, ?_, ht, ?_, ?_⟩
      · rw [show rr.asRequested = rr₀.asRequested from hkept]
        exact hafter
      · rw [hkept.field ResumeRequest.clarificationId fun _ => rfl, hc]
      · rw [hkept.field ResumeRequest.taskId fun _ => rfl, htask]
      · rw [hkept.field ResumeRequest.resourceStateVersion fun _ => rfl, hversion]
  · intro id rr hrr
    rw [hs id] at hrr
    cases hrr

/-- A confirmed request never changes. -/
theorem confirmed_stays (h : Commits (IsEffect cfg Inv Subtype.val) s ms t) {id : Uuid}
    {rr : ResumeRequest} (hrr : s.resumeRequests.find? id = some rr)
    (hconfirmed : rr.confirmed = true) : t.resumeRequests.find? id = some rr := by
  refine h.keeps (I := fun t => t.resumeRequests.find? id = some rr) ?_ hrr
  intro m hm hbefore
  have hi : rr.issued = true :=
    ResumeRequest.issued_iff.mpr (Or.inr (ResumeRequest.confirmed_iff.mp hconfirmed))
  rcases hm.effect.resumeStep.issued_after hbefore hi with ⟨rr', hrr', hfollows⟩
  rw [hrr', hfollows.final hconfirmed]

/-- The state version of the request is in force where its execution is prepared. -/
theorem Prepared.inForce_eq (hm : IsEffect cfg CommandInv Subtype.val m) {id e : Uuid}
    {rr : ResumeRequest} {now : Time} (h : Prepared m.before m.after id e rr now)
    {n : Commit Db Reply CommandCall} (hn : IsEffect cfg CommandInv Subtype.val n)
    (hinserts : Inserts id rr n) : (inForce m.before rr.clarificationId).isSome = true ∧
      inForce n.before rr.clarificationId = inForce m.before rr.clarificationId := by
  rcases hinserts.2.2 with ⟨clar₀, task₀, hc₀, ht₀, htask₀, hversion₀⟩
  rcases h.in_force with ⟨clar, task, hc, ht, hversion⟩
  -- the clarification is still that of the task
  rcases hm.inv.placed id rr h.request with ⟨clar', hc', htask'⟩
  have heq : clar = clar' := Option.some.inj (hc.symm.trans hc')
  subst heq
  rw [← htask'] at ht
  have hsame := resourceStateVersion_inj (fun u hu => hn.inv.answers _ clar₀ u hc₀ hu)
    (fun u hu => hm.inv.answers _ clar u hc hu) (hversion₀.symm.trans hversion.symm)
  constructor
  · rw [AiAgentsSwd.Tasks.inForce_eq hc ht]
    rfl
  · rw [AiAgentsSwd.Tasks.inForce_eq hc ht, AiAgentsSwd.Tasks.inForce_eq hc₀ ht₀, hsame.1,
      hsame.2.1, hsame.2.2]

/-- A command is there for a request exactly when its execution was asked for, it is the one that
the request names, and the authorization is used up. Where a command goes in, what the request
was made for is in force. A confirmed outcome stays. -/
theorem commands_bound {ι : Type} [DecidableEq ι]
    {y : Sys Db Lock Failure Reply CommandCall ι}
    (hy : Reachable (fun c => program cfg c.val) Uncommanded y) :
    (∀ id rr, y.db.resumeRequests.find? id = some rr →
      (rr.issued = true ↔ ∃ k o, y.db.outbox.find? k = some o ∧ o.Commands id) ∧
      ∀ k o, y.db.outbox.find? k = some o → o.Commands id →
        rr.commandId = some k ∧ Spent y.db rr) ∧
    (∀ k o, y.db.outbox.find? k = some o → o.eventType = .resumeExecutionRequested →
      ∃ id rr, y.db.resumeRequests.find? id = some rr ∧ o.Commands id) ∧
    ∀ ns m ls, y.log = ns ++ m :: ls →
      (∀ id rr k o, m.after.resumeRequests.find? id = some rr → m.before.outbox.find? k = none →
        m.after.outbox.find? k = some o → o.Commands id → ∃ n ∈ ns,
          n.before.resumeRequests.find? id = none ∧
          n.after.resumeRequests.find? id = some rr.asRequested ∧
          (inForce m.before rr.clarificationId).isSome = true ∧
          inForce n.before rr.clarificationId = inForce m.before rr.clarificationId) ∧
      ∀ id rr, m.after.resumeRequests.find? id = some rr → rr.confirmed = true →
        y.db.resumeRequests.find? id = some rr := by
  have hrun : ∃ s, Uncommanded s ∧ Commits (IsEffect cfg CommandInv Subtype.val) s y.log y.db ∧
      CommandInv y.db :=
    effects_of_reachable (fun _ hs => hs.inv)
      (fun c _ _ _ _ hs he hg => he.commandInv c.property hs hg) hy
  rcases hrun with ⟨s, hs, hrun, hinv⟩
  -- two commands for one request are one
  have hnames : ∀ id rr k o, y.db.resumeRequests.find? id = some rr →
      y.db.outbox.find? k = some o → o.Commands id → rr.issued = true ∧ rr.commandId = some k := by
    intro id rr k o hrr ho hcommand
    rcases hinv.commands k o ho hcommand.1 with ⟨id', rr', hrr', hi, hk, hcommand'⟩
    have hid : id = id' := by
      have hpayload := hcommand.2.symm.trans hcommand'.2
      simpa using hpayload
    subst hid
    have heq : rr = rr' := Option.some.inj (hrr.symm.trans hrr')
    subst heq
    exact ⟨hi, hk⟩
  refine ⟨fun id rr hrr => ⟨⟨fun hi => ?_, ?_⟩, fun k o ho hcommand => ?_⟩, ?_, ?_⟩
  · rcases hinv.issued id rr hrr hi with ⟨-, e, o, -, ho, hcommand⟩
    exact ⟨e, o, ho, hcommand⟩
  · rintro ⟨k, o, ho, hcommand⟩
    exact (hnames id rr k o hrr ho hcommand).1
  · rcases hnames id rr k o hrr ho hcommand with ⟨hi, hk⟩
    exact ⟨hk, (hinv.issued id rr hrr hi).1⟩
  · intro k o ho htype
    rcases hinv.commands k o ho htype with ⟨id, rr, hrr, -, -, hcommand⟩
    exact ⟨id, rr, hrr, hcommand⟩
  · intro ns m ls hlog
    rw [hlog] at hrun
    rcases hrun.commit with ⟨hns, hm, hls⟩
    refine ⟨fun id rr k o hrr hk ho hcommand => ?_, fun id rr hrr hconfirmed => ?_⟩
    · cases hm.effect.origin hk ho with
      | @prepared id' rr₀ now hprep =>
        have hid : id = id' := by
          rcases hprep.command with ⟨o', hputs, hcommand'⟩
          have heq : o = o' := Option.some.inj (ho.symm.trans hputs.self)
          rw [← heq] at hcommand'
          have hpayload := hcommand.2.symm.trans hcommand'.2
          simpa using hpayload
        subst hid
        have heq : rr = rr₀.executionPendingRow k now :=
          Option.some.inj (hrr.symm.trans hprep.rows.self)
        subst heq
        rcases inserted_of_run hns hs.requests id rr₀ hprep.request with ⟨n, hn, hinserts⟩
        have hforce := hprep.inForce_eq hm (hns.all n hn) hinserts
        exact ⟨n, hn, hinserts.1, hinserts.2.1, hforce.1, hforce.2⟩
      | reminded _ _ hno _ =>
        rw [hcommand.1] at hno
        cases hno
      | expired _ _ hno _ =>
        rw [hcommand.1] at hno
        cases hno
      | direct hno =>
        rw [hcommand.1] at hno
        exact absurd hno m.call.property
      | notice hno =>
        rw [hcommand.1] at hno
        cases hno
    · exact confirmed_stays hls hrr hconfirmed

/-! ### A run -/

/-- A resume is requested, authorized, prepared and confirmed, and then confirmed as failed. -/
def commandCalls : List CommandCall := [
  ⟨.saveTask ⟨3⟩ { status := .intakeReview, projectId := some ⟨2⟩, productionEffect := false },
    nofun⟩,
  ⟨.createClarification ⟨5⟩ ⟨3⟩ 100 50, nofun⟩,
  ⟨.claimClarificationAnswer ⟨5⟩, nofun⟩,
  ⟨.setAnswerMessage ⟨5⟩ ⟨6⟩, nofun⟩,
  ⟨.markResumeEligible ⟨5⟩ 0, nofun⟩,
  ⟨.requestResume ⟨⟨10⟩, ⟨11⟩, ⟨12⟩⟩ olga home ⟨5⟩ "k1" 60 none, nofun⟩,
  ⟨.authorizeResume ⟨13⟩ ⟨11⟩ policyAuthority home "p1", nofun⟩,
  ⟨.prepareExecution ⟨14⟩ ⟨11⟩ worker home, nofun⟩,
  ⟨.confirmResumed ⟨15⟩ ⟨11⟩ ⟨14⟩, nofun⟩,
  ⟨.confirmFailed ⟨16⟩ ⟨11⟩ ⟨14⟩ .policyAllow, nofun⟩]

def commandRun : Sys Db Lock Failure Reply CommandCall Unit :=
  Sys.calls (fun c => program openGates c.val) emptyDb commandCalls

theorem uncommanded_emptyDb : Uncommanded emptyDb where
  requests := fun _ => rfl
  commands := fun _ _ h => by cases h
  answers := fun _ _ _ h => by cases h

theorem commands_run : ∃ rr, commandRun.db.resumeRequests.find? ⟨11⟩ = some rr ∧
    rr.state = .resumed ∧ ∃ k o, commandRun.db.outbox.find? k = some o ∧ o.Commands ⟨11⟩ := by
  have h : ((commandRun.db.resumeRequests.find? ⟨11⟩).any fun rr => rr.state == .resumed) = true := by
    decide +kernel
  rcases (Option.any_eq_true _ _).mp h with ⟨rr, hrr, hstate⟩
  rw [beq_iff_eq] at hstate
  have hi : rr.issued = true := ResumeRequest.issued_iff.mpr (Or.inr (Or.inl hstate))
  have hy : Reachable (fun c : CommandCall => program openGates c.val) Uncommanded commandRun :=
    reachable_calls uncommanded_emptyDb commandCalls
  exact ⟨rr, hrr, hstate, (((commands_bound hy).1 ⟨11⟩ rr hrr).1).mp hi⟩

end AiAgentsSwd.Tasks
