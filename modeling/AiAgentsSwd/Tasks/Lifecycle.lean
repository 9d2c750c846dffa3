import AiAgentsSwd.Tasks.ClarificationSteps
import AiAgentsSwd.Tasks.OutboxSteps

/-!
# Tasks.Lifecycle — one outcome of a clarification, and its task

An answer takes the row before the deadline, the poller from the deadline on, each with a guard
on the status, and the poller's events go with its writes: that part holds of every run
(`LifecycleInv`). The status of the task is another matter. The poller looks at it first;
`create_clarification` and `answer_clarification` end with a write that does not, and move a
closed task. `lifecycle_holds` is about the runs in which they find no such task.
-/

namespace AiAgentsSwd.Tasks

open Keyed (Table)
open Planning (Uuid Time)
open ReadCommitted

variable {cfg : Settings} {Inv : Db → Prop} {c : Call} {r : Reply} {s t : Db}

/-- The statuses that clarifications must not move a task out of. -/
def settledTaskStatuses : List TaskStatus := .clarificationExpired :: closedTaskStatuses

/-- What the columns of a clarification say fits its status. -/
def Clarification.Timely (c : Clarification) : Prop :=
  match c.status with
  | .answered => c.expiredAt = none ∧ ∃ u, c.answeredAt = some u ∧ u < c.dueAt
  | .expired => c.answeredAt = none ∧ ∃ u, c.expiredAt = some u ∧ c.dueAt ≤ u
  | _ => c.answeredAt = none ∧ c.expiredAt = none

/-- An event of the poller about the clarification. -/
def HasEvent (s : Db) (type : EventType) (cid e : Uuid) : Prop :=
  ∃ o, s.outbox.find? e = some o ∧ o.eventType = type ∧ o.clarificationId = cid

/-- What every run keeps. -/
structure LifecycleInv (s : Db) : Prop where
  timely : ∀ cid clar, s.clarifications.find? cid = some clar → clar.Timely
  expired : ∀ cid clar, s.clarifications.find? cid = some clar →
    (clar.status = .expired ↔ ∃ e, HasEvent s .clarificationExpired cid e)
  reminded : ∀ cid clar, s.clarifications.find? cid = some clar →
    ∀ e, HasEvent s .clarificationReminderRecorded cid e → clar.reminderSentAt ≠ none
  present : ∀ type cid e, type = .clarificationExpired ∨ type = .clarificationReminderRecorded →
    HasEvent s type cid e → ∃ clar, s.clarifications.find? cid = some clar
  unique : ∀ type cid e e', type = .clarificationExpired ∨ type = .clarificationReminderRecorded →
    HasEvent s type cid e → HasEvent s type cid e' → e = e'

/-! ## Steps -/

theorem Clarification.open_of_overdue {clar : Clarification} {now : Time}
    (h : clar.overdue now = true) :
    clar.status = .open ∧ clar.answeredAt = none ∧ clar.dueAt ≤ now := by
  unfold overdue at h
  simp only [Bool.and_eq_true, beq_iff_eq, Option.isNone_iff_eq_none, decide_eq_true_eq] at h
  exact ⟨h.1.1, h.1.2, h.2⟩

theorem Clarification.open_of_remindable {clar : Clarification} {now : Time}
    (h : clar.remindable now = true) : clar.status = .open ∧ clar.reminderSentAt = none := by
  unfold remindable at h
  simp only [Bool.and_eq_true, beq_iff_eq, Option.isNone_iff_eq_none] at h
  exact ⟨h.1.1.1.1, h.1.1.2⟩

/-- What is settled in a clarification stays so. -/
theorem ClarificationStep.after (h : ClarificationStep c s t) {cid : Uuid} {clar : Clarification}
    (hc : s.clarifications.find? cid = some clar) : ∃ clar',
      t.clarifications.find? cid = some clar' ∧
      (clar.status ≠ .open → clar'.status = clar.status) ∧
      (clar.reminderSentAt ≠ none → clar'.reminderSentAt ≠ none) := by
  -- a write of a row that keeps the two columns, or finds it open
  have hputs : ∀ {j x y}, s.clarifications.Puts t.clarifications j y →
      s.clarifications.find? j = some x → (x.status ≠ .open → y.status = x.status) →
      (x.reminderSentAt ≠ none → y.reminderSentAt ≠ none) → ∃ clar',
        t.clarifications.find? cid = some clar' ∧
        (clar.status ≠ .open → clar'.status = clar.status) ∧
        (clar.reminderSentAt ≠ none → clar'.reminderSentAt ≠ none) := by
    intro j x y hrows hx hstatus hsent
    by_cases hj : cid = j
    · subst hj
      have heq : clar = x := Option.some.inj (hc.symm.trans hx)
      subst heq
      exact ⟨y, hrows.self, hstatus, hsent⟩
    · exact ⟨clar, by rw [hrows.of_ne hj, hc], fun _ => rfl, fun h => h⟩
  cases h with
  | other h =>
    have hid := h cid
    rw [hc, Option.map_some, Option.map_eq_some_iff] at hid
    rcases hid with ⟨clar', hc', heq⟩
    have hkept : Kept Clarification.lifecycle clar clar' := heq
    refine ⟨clar', hc', fun _ => hkept.field Clarification.status fun _ => rfl, fun hne => ?_⟩
    rw [hkept.field Clarification.reminderSentAt fun _ => rfl]
    exact hne
  | @created j row habsent _ hrows =>
    have hj : cid ≠ j := by
      rintro rfl
      rw [habsent] at hc
      cases hc
    exact ⟨clar, by rw [hrows.of_ne hj, hc], fun _ => rfl, fun h => h⟩
  | answered hx hopen _ _ _ hrows =>
    exact hputs hrows hx (fun hne => absurd hopen hne) fun h => h
  | messaged hx _ hrows => exact hputs hrows hx (fun _ => rfl) fun h => h
  | reminded hx hclaim hrows _ _ _ _ =>
    refine hputs hrows hx (fun _ => rfl) fun _ => ?_
    exact nofun
  | expired hx hclaim _ _ hrows _ _ _ _ =>
    exact hputs hrows hx (fun hne => absurd (Clarification.open_of_overdue hclaim).1 hne)
      fun h => h

/-- A clarification is timely after a step, and newly expired only with its event. -/
theorem ClarificationStep.before (h : ClarificationStep c s t) (hs : LifecycleInv s) {cid : Uuid}
    {clar' : Clarification} (hc : t.clarifications.find? cid = some clar') : clar'.Timely ∧
      (clar'.status = .expired → (∃ clar, s.clarifications.find? cid = some clar ∧
        clar.status = .expired) ∨ ∃ e, HasEvent t .clarificationExpired cid e) := by
  have hsame : ∀ {x : Clarification}, s.clarifications.find? cid = some x →
      Kept Clarification.lifecycle x clar' → clar'.Timely ∧
      (clar'.status = .expired → (∃ clar, s.clarifications.find? cid = some clar ∧
        clar.status = .expired) ∨ ∃ e, HasEvent t .clarificationExpired cid e) := by
    intro x hx hkept
    have htimely := hs.timely cid x hx
    have hstatus := hkept.field Clarification.status fun _ => rfl
    refine ⟨?_, fun hexp => Or.inl ⟨x, hx, by rw [← hstatus, hexp]⟩⟩
    unfold Clarification.Timely at htimely ⊢
    rw [hstatus, hkept.field Clarification.answeredAt fun _ => rfl,
      hkept.field Clarification.expiredAt fun _ => rfl,
      hkept.field Clarification.dueAt fun _ => rfl]
    exact htimely
  cases h with
  | other h =>
    rcases h.find hc with ⟨x, hx, hkept⟩
    exact hsame hx hkept
  | created _ hnew hrows =>
    rcases hrows.find hc with ⟨rfl, rfl⟩ | ⟨-, hc⟩
    · rw [← hnew]
      exact ⟨⟨rfl, rfl⟩, nofun⟩
    · exact hsame hc rfl
  | @answered j x now hx hopen _ hdue _ hrows =>
    rcases hrows.find hc with ⟨rfl, rfl⟩ | ⟨-, hc⟩
    · have htimely := hs.timely cid x hx
      unfold Clarification.Timely at htimely
      rw [hopen] at htimely
      exact ⟨⟨htimely.2, now, rfl, hdue⟩, nofun⟩
    · exact hsame hc rfl
  | @messaged j messageId x hx _ hrows =>
    rcases hrows.find hc with ⟨rfl, rfl⟩ | ⟨-, hc⟩
    · refine ⟨hs.timely cid x hx, fun hexp => Or.inl ⟨x, hx, hexp⟩⟩
    · exact hsame hc rfl
  | @reminded _ j x _ _ now₁ hx _ hrows _ _ _ _ =>
    rcases hrows.find hc with ⟨rfl, rfl⟩ | ⟨-, hc⟩
    · refine ⟨hs.timely cid x hx, fun hexp => Or.inl ⟨x, hx, hexp⟩⟩
    · exact hsame hc rfl
  | @expired e j x o now now₁ hx hclaim hnow _ hrows _ houtbox htype hcid =>
    rcases hrows.find hc with ⟨rfl, rfl⟩ | ⟨-, hc⟩
    · have hopen := Clarification.open_of_overdue hclaim
      refine ⟨⟨hopen.2.1, now₁, rfl, Nat.le_trans hopen.2.2 hnow⟩, fun _ => Or.inr ?_⟩
      exact ⟨e, o, houtbox.self, htype, hcid⟩
    · exact hsame hc rfl

/-- An event stays about its clarification. -/
theorem HasEvent.stays {type : EventType} {cid e : Uuid} {L : List Lock} (hg : Guar L s t)
    (h : HasEvent s type cid e) : HasEvent t type cid e := by
  rcases h with ⟨o, ho, htype, hcid⟩
  rcases hg.outbox.find_same ho with ⟨o', ho', hkept⟩
  refine ⟨o', ho', ?_, ?_⟩
  · rw [hkept.field OutboxEvent.eventType fun _ => rfl, htype]
  · rw [hkept.field OutboxEvent.clarificationId fun _ => rfl, hcid]

/-- An event of the poller was there before, or it comes from the write that it is about. -/
theorem Effect.event_before {L : List Lock} (h : Effect cfg Inv c r s t)
    (hc : c.emits ≠ some .clarificationExpired ∧ c.emits ≠ some .clarificationReminderRecorded)
    (hg : Guar L s t) {type : EventType} {cid e : Uuid}
    (htype : type = .clarificationExpired ∨ type = .clarificationReminderRecorded)
    (he : HasEvent t type cid e) : HasEvent s type cid e ∨
      s.outbox.find? e = none ∧ ∃ clar clar', s.clarifications.find? cid = some clar ∧
        t.clarifications.find? cid = some clar' ∧ clar.status = .open ∧
        (type = .clarificationExpired → clar'.status = .expired) ∧
        (type = .clarificationReminderRecorded →
          clar.reminderSentAt = none ∧ clar'.reminderSentAt ≠ none) := by
  rcases he with ⟨o, ho, hty, hcid⟩
  cases ho₀ : s.outbox.find? e with
  | some o₀ =>
    rcases hg.outbox.find_same ho₀ with ⟨o', ho', hkept⟩
    have heq : o = o' := Option.some.inj (ho.symm.trans ho')
    subst heq
    refine Or.inl ⟨o₀, ho₀, ?_, ?_⟩
    · rw [← hty, hkept.field OutboxEvent.eventType fun _ => rfl]
    · rw [← hcid, hkept.field OutboxEvent.clarificationId fun _ => rfl]
  | none =>
    refine Or.inr ⟨rfl, ?_⟩
    cases h.origin ho₀ ho with
    | prepared hprep =>
      rcases hprep.command with ⟨o', hputs, hcommand⟩
      have heq : o = o' := Option.some.inj (ho.symm.trans hputs.self)
      rw [← heq] at hcommand
      rw [hcommand.1] at hty
      rcases htype with h | h <;> rw [h] at hty <;> cases hty
    | reminded hclar hclaim hreminder hrows =>
      rw [hcid] at hclar hrows
      have hopen := Clarification.open_of_remindable hclaim
      refine ⟨_, _, hclar, hrows.self, hopen.1, fun hno => ?_, fun _ => ⟨hopen.2, nofun⟩⟩
      rw [hreminder, hno] at hty
      cases hty
    | expired hclar hclaim hexpired hrows =>
      rw [hcid] at hclar hrows
      have hopen := Clarification.open_of_overdue hclaim
      refine ⟨_, _, hclar, hrows.self, hopen.1, fun _ => rfl, fun hno => ?_⟩
      rw [hexpired, hno] at hty
      cases hty
    | direct hdirect =>
      rw [hty] at hdirect
      rcases htype with h | h
      · rw [h] at hdirect
        exact absurd hdirect hc.1
      · rw [h] at hdirect
        exact absurd hdirect hc.2
    | notice hno =>
      rw [hty] at hno
      rcases htype with h | h <;> rw [h] at hno <;> cases hno

/-- A clarification that comes to be expired or reminded does so with one new event. -/
theorem ClarificationStep.event (h : ClarificationStep c s t) {cid : Uuid}
    {clar clar' : Clarification} (hc : s.clarifications.find? cid = some clar)
    (hc' : t.clarifications.find? cid = some clar') (hopen : clar.status = .open)
    (hmoved : clar'.status = .expired ∨ clar.reminderSentAt = none ∧ clar'.reminderSentAt ≠ none) :
    ∃ e o, s.outbox.Puts t.outbox e o := by
  -- a row that keeps both columns has not moved
  have hkept : ∀ {x : Clarification}, x.status ≠ .expired →
      x.reminderSentAt = clar.reminderSentAt → clar' = x → False := by
    rintro x hne hsame rfl
    rcases hmoved with hexp | ⟨hnone, hsome⟩
    · exact hne hexp
    · rw [hsame] at hsome
      exact hsome hnone
  have hstill : clar.status ≠ .expired := by
    rw [hopen]
    exact nofun
  have hputs : ∀ {j x y}, s.clarifications.Puts t.clarifications j y →
      s.clarifications.find? j = some x → (x = clar → y.status ≠ .expired) →
      (x = clar → y.reminderSentAt = clar.reminderSentAt) → False := by
    intro j x y hrows hx hstatus hsent
    rcases hrows.find hc' with ⟨rfl, heq⟩ | ⟨-, hsame⟩
    · have hclar : x = clar := Option.some.inj (hx.symm.trans hc)
      exact hkept (hstatus hclar) (hsent hclar) heq
    · exact hkept hstill rfl (Option.some.inj (hsame.symm.trans hc))
  cases h with
  | other h =>
    rcases h.find hc' with ⟨x, hx, hsame⟩
    have heq : x = clar := Option.some.inj (hx.symm.trans hc)
    subst heq
    refine (hkept ?_ ?_ rfl).elim
    · rw [hsame.field Clarification.status fun _ => rfl]
      exact hstill
    · exact hsame.field Clarification.reminderSentAt fun _ => rfl
  | created habsent _ hrows =>
    rcases hrows.find hc' with ⟨rfl, -⟩ | ⟨-, hsame⟩
    · rw [habsent] at hc
      cases hc
    · exact (hkept hstill rfl (Option.some.inj (hsame.symm.trans hc))).elim
  | answered hx _ _ _ _ hrows =>
    refine (hputs hrows hx (fun _ => nofun) ?_).elim
    rintro rfl
    rfl
  | messaged hx _ hrows =>
    refine (hputs hrows hx ?_ ?_).elim
    · rintro rfl
      exact hstill
    · rintro rfl
      rfl
  | reminded _ _ _ _ houtbox _ _ => exact ⟨_, _, houtbox⟩
  | expired _ _ _ _ _ _ houtbox _ _ => exact ⟨_, _, houtbox⟩

/-- **The step lemma**: nothing but the poller inserts its events, so a step keeps what ties
them to the clarifications. -/
theorem Effect.lifecycleInv {L : List Lock} (h : Effect cfg Inv c r s t)
    (hc : c.emits ≠ some .clarificationExpired ∧ c.emits ≠ some .clarificationReminderRecorded)
    (hg : Guar L s t) (hs : LifecycleInv s) : LifecycleInv t := by
  have hstep := h.clarificationStep
  refine ⟨?_, ?_, ?_, ?_, ?_⟩
  · exact fun cid clar hclar => (hstep.before hs hclar).1
  · intro cid clar' hclar'
    constructor
    · intro hexp
      rcases (hstep.before hs hclar').2 hexp with ⟨clar, hclar, hexp₀⟩ | he
      · rcases (hs.expired cid clar hclar).mp hexp₀ with ⟨e, he⟩
        exact ⟨e, he.stays hg⟩
      · exact he
    · rintro ⟨e, he⟩
      rcases h.event_before hc hg (Or.inl rfl) he with he₀ | ⟨-, -, y, -, hy, -, hstatus, -⟩
      · rcases hs.present _ _ _ (Or.inl rfl) he₀ with ⟨clar, hclar⟩
        have hexp := (hs.expired cid clar hclar).mpr ⟨e, he₀⟩
        rcases hstep.after hclar with ⟨x, hx, hkept, -⟩
        have heq : clar' = x := Option.some.inj (hclar'.symm.trans hx)
        rw [heq, hkept (by rw [hexp]; exact nofun), hexp]
      · rw [Option.some.inj (hclar'.symm.trans hy)]
        exact hstatus rfl
  · intro cid clar' hclar' e he
    rcases h.event_before hc hg (Or.inr rfl) he with he₀ | ⟨-, x, y, -, hy, -, -, hsent⟩
    · rcases hs.present _ _ _ (Or.inr rfl) he₀ with ⟨clar, hclar⟩
      rcases hstep.after hclar with ⟨x, hx, -, hkept⟩
      rw [Option.some.inj (hclar'.symm.trans hx)]
      exact hkept (hs.reminded cid clar hclar e he₀)
    · rw [Option.some.inj (hclar'.symm.trans hy)]
      exact (hsent rfl).2
  · intro type cid e htype he
    rcases h.event_before hc hg htype he with he₀ | ⟨-, -, y, -, hy, -, -, -⟩
    · rcases hs.present _ _ _ htype he₀ with ⟨clar, hclar⟩
      rcases hstep.after hclar with ⟨x, hx, -, -⟩
      exact ⟨x, hx⟩
    · exact ⟨y, hy⟩
  · intro type cid e e' htype he he'
    -- a new event is about a row that had none of its type yet
    have hfresh : ∀ {clar clar' : Clarification} {e : Uuid},
        s.clarifications.find? cid = some clar → clar.status = .open →
        (type = .clarificationReminderRecorded →
          clar.reminderSentAt = none ∧ clar'.reminderSentAt ≠ none) →
        ¬HasEvent s type cid e := by
      intro clar clar' e hclar hopen hsent he₀
      rcases htype with rfl | rfl
      · have hexp := (hs.expired cid clar hclar).mpr ⟨e, he₀⟩
        rw [hopen] at hexp
        cases hexp
      · exact hs.reminded cid clar hclar e he₀ (hsent rfl).1
    rcases h.event_before hc hg htype he with he₀ | ⟨hnew, x, y, hx, hy, hopen, hexp, hsent⟩
    · rcases h.event_before hc hg htype he' with he₀' | ⟨-, x, y, hx, -, hopen, -, hsent⟩
      · exact hs.unique type cid e e' htype he₀ he₀'
      · exact absurd he₀ (hfresh hx hopen hsent)
    · rcases h.event_before hc hg htype he' with he₀' | ⟨hnew', -⟩
      · exact absurd he₀' (hfresh hx hopen hsent)
      · have hmoved : y.status = .expired ∨ x.reminderSentAt = none ∧ y.reminderSentAt ≠ none := by
          rcases htype with h | h
          · exact Or.inl (hexp h)
          · exact Or.inr (hsent h)
        rcases hstep.event hx hy hopen hmoved with ⟨e₀, o₀, houtbox⟩
        have honly : ∀ {k}, s.outbox.find? k = none → HasEvent t type cid k → k = e₀ := by
          rintro k hk ⟨o, ho, -⟩
          rcases houtbox.find ho with ⟨rfl, -⟩ | ⟨-, ho⟩
          · rfl
          · rw [hk] at ho
            cases ho
        rw [honly hnew he, honly hnew' he']

/-! ## The task -/

/-- The transactions of `create_clarification`, `answer_clarification` and the two cycles of the
poller. -/
def Call.lifecycle : Call → Bool
  | .createClarification _ _ _ _ => true
  | .openTaskClarification _ => true
  | .claimClarificationAnswer _ => true
  | .setAnswerMessage _ _ => true
  | .answerTaskClarification _ => true
  | .claimOneReminder _ _ => true
  | .claimOneExpiry _ _ => true
  | _ => false

/-- The task that the last statement of the two requests writes. -/
def Call.writesTask : Call → Option Uuid
  | .openTaskClarification taskId => some taskId
  | .answerTaskClarification taskId => some taskId
  | _ => none

/-- The task is there, with a status that clarifications must leave alone. -/
def Settled (s : Db) (id : Uuid) (task : Task) : Prop :=
  s.tasks.find? id = some task ∧ task.status ∈ settledTaskStatuses

/-- The poller looks at the task before it writes; so a settled task keeps its status, unless
the last statement of a request writes it. -/
theorem Effect.keepsSettled (h : Effect cfg Inv c r s t) (hc : c.lifecycle = true) {id : Uuid}
    {task : Task} (ht : Settled s id task) (hno : c.writesTask ≠ some id) :
    ∃ task', t.tasks.find? id = some task' ∧ task'.status = task.status := by
  rcases ht with ⟨ht, hsettled⟩
  have hother : ∀ {j : Uuid} {f : Task → Task}, id ≠ j →
      ∃ task', (s.tasks.modify j f).find? id = some task' ∧ task'.status = task.status := by
    intro j f hj
    exact ⟨task, by rw [Table.find?_modify_of_ne _ _ hj, ht], rfl⟩
  cases h with
  | quiet _ => exact ⟨task, ht, rfl⟩
  | resumeDeclined hcall _ _ _ _ _ _ _ => cases hcall <;> cases hc
  | resumeConfirmed hcall _ _ _ _ _ => cases hcall <;> cases hc
  | replayDeclined hcall _ _ _ _ _ _ => cases hcall <;> cases hc
  | clarificationCreated _ => exact ⟨task, ht, rfl⟩
  | answered _ _ _ _ _ => exact ⟨task, ht, rfl⟩
  | messaged _ _ => exact ⟨task, ht, rfl⟩
  | reminded _ _ _ => exact ⟨task, ht, rfl⟩
  | taskOpened _ => exact hother fun heq => hno (congrArg some heq.symm)
  | taskAnswered _ => exact hother fun heq => hno (congrArg some heq.symm)
  | @clarificationExpired _ _ _ _ clar _ _ _ _ _ _ _ _ _ _ htask hopen _ =>
    refine hother (j := clar.taskId) ?_
    rintro rfl
    have heq := Option.some.inj (ht.symm.trans htask)
    rw [heq, hopen] at hsettled
    exact absurd hsettled (by decide)
  | _ => cases hc

/-! ## Runs -/

/-- A transaction other than a bare insertion of one of the poller's events. -/
abbrev LifecycleCall := { c : Call //
  c.emits ≠ some .clarificationExpired ∧ c.emits ≠ some .clarificationReminderRecorded }

/-- No clarification has been created, and no event inserted. -/
structure Unopened (s : Db) : Prop where
  clarifications : ∀ id, s.clarifications.find? id = none
  outbox : ∀ k, s.outbox.find? k = none

theorem Unopened.inv (h : Unopened s) : LifecycleInv s where
  timely := by
    intro cid clar hc
    rw [h.clarifications cid] at hc
    cases hc
  expired := by
    intro cid clar hc
    rw [h.clarifications cid] at hc
    cases hc
  reminded := by
    intro cid clar hc
    rw [h.clarifications cid] at hc
    cases hc
  present := by
    rintro type cid e - ⟨o, ho, -⟩
    rw [h.outbox e] at ho
    cases ho
  unique := by
    rintro type cid e e' - ⟨o, ho, -⟩
    rw [h.outbox e] at ho
    cases ho

variable {m : Commit Db Reply LifecycleCall}

/-- The last statement of a request finds its task settled. -/
def Overwrites (m : Commit Db Reply LifecycleCall) : Prop :=
  ∃ id task, m.call.val.writesTask = some id ∧ Settled m.before id task

/-- What is promised of one transaction of the workroom or the poller: a settled task keeps its
status. -/
def KeepsSettled (m : Commit Db Reply LifecycleCall) : Prop :=
  m.call.val.lifecycle = true → ∀ id task, Settled m.before id task →
    ∃ task', m.after.tasks.find? id = some task' ∧ task'.status = task.status

/-- A clarification is answered before its deadline or expired from it on, and stays so; it has
one event of each cycle at most, that of the expiry when it is expired. In a run in which the
requests overwrite no settled task, a settled task keeps its status. -/
theorem lifecycle_holds {ι : Type} [DecidableEq ι]
    {y : Sys Db Lock Failure Reply LifecycleCall ι}
    (hy : Reachable (fun c => program cfg c.val) Unopened y)
    (hno : ∀ m ∈ y.log, ¬Overwrites m) :
    (∀ cid clar, y.db.clarifications.find? cid = some clar → clar.Timely ∧
      (clar.status = .expired ↔ ∃ e, HasEvent y.db .clarificationExpired cid e)) ∧
    (∀ cid type e e', type = .clarificationExpired ∨ type = .clarificationReminderRecorded →
      HasEvent y.db type cid e → HasEvent y.db type cid e' → e = e') ∧
    (∀ m ∈ y.log, ∀ cid clar, m.before.clarifications.find? cid = some clar →
      clar.status ≠ .open →
      ∃ clar', m.after.clarifications.find? cid = some clar' ∧ clar'.status = clar.status) ∧
    ∀ m ∈ y.log, KeepsSettled m := by
  have hrun : ∃ s, Unopened s ∧ Commits (IsEffect cfg LifecycleInv Subtype.val) s y.log y.db ∧
      LifecycleInv y.db :=
    effects_of_reachable (fun _ hs => hs.inv)
      (fun c _ _ _ _ hs he hg => he.lifecycleInv c.property hg hs) hy
  rcases hrun with ⟨s, -, hcommits, hinv⟩
  refine ⟨fun cid clar hc => ⟨hinv.timely cid clar hc, hinv.expired cid clar hc⟩,
    fun cid type e e' => hinv.unique type cid e e', fun m hm cid clar hc hne => ?_,
    fun m hm hcall id task ht => ?_⟩
  · rcases hcommits.mem hm with ⟨-, -, -, -, hm', -⟩
    rcases hm'.effect.clarificationStep.after hc with ⟨clar', hc', hstatus, -⟩
    exact ⟨clar', hc', hstatus hne⟩
  · rcases hcommits.mem hm with ⟨-, -, -, -, hm', -⟩
    exact hm'.effect.keepsSettled hcall ht fun hwrites => hno m hm ⟨id, task, hwrites, ht⟩

/-! ### Two runs -/

/-- A task with two clarifications, the first of which expires. -/
def lapseCalls : List LifecycleCall := [
  ⟨.saveTask ⟨3⟩ { status := .intakeReview, projectId := some ⟨2⟩, productionEffect := false },
    nofun, nofun⟩,
  ⟨.createClarification ⟨5⟩ ⟨3⟩ 100 50, nofun, nofun⟩,
  ⟨.openTaskClarification ⟨3⟩, nofun, nofun⟩,
  ⟨.createClarification ⟨6⟩ ⟨3⟩ 200 150, nofun, nofun⟩,
  ⟨.openTaskClarification ⟨3⟩, nofun, nofun⟩,
  ⟨.tick 100, nofun, nofun⟩,
  ⟨.claimOneExpiry (fun _ => false) ⟨20⟩, nofun, nofun⟩]

/-- The second is answered in time, and the answer reopens the task. -/
def reopenCalls : List LifecycleCall := lapseCalls ++ [
  ⟨.claimClarificationAnswer ⟨6⟩, nofun, nofun⟩,
  ⟨.setAnswerMessage ⟨6⟩ ⟨7⟩, nofun, nofun⟩,
  ⟨.answerTaskClarification ⟨3⟩, nofun, nofun⟩]

def lapseRun : Sys Db Lock Failure Reply LifecycleCall Unit :=
  Sys.calls (fun c => program openGates c.val) emptyDb lapseCalls

def reopenRun : Sys Db Lock Failure Reply LifecycleCall Unit :=
  Sys.calls (fun c => program openGates c.val) emptyDb reopenCalls

theorem unopened_emptyDb : Unopened emptyDb := ⟨fun _ => rfl, fun _ => rfl⟩

/-- `Overwrites`, as a test. -/
def overwrites (m : Commit Db Reply LifecycleCall) : Bool :=
  m.call.val.writesTask.any fun id =>
    (m.before.tasks.find? id).any fun task => settledTaskStatuses.contains task.status

theorem overwrites_of_Overwrites (h : Overwrites m) : overwrites m = true := by
  rcases h with ⟨id, task, hid, ht, hsettled⟩
  simp [overwrites, hid, ht, hsettled]

theorem lapse_run : ∃ clar e, lapseRun.db.clarifications.find? ⟨5⟩ = some clar ∧
    clar.status = .expired ∧ HasEvent lapseRun.db .clarificationExpired ⟨5⟩ e := by
  have h : ((lapseRun.db.clarifications.find? ⟨5⟩).any fun c => c.status == .expired) = true := by
    decide +kernel
  rcases (Option.any_eq_true _ _).mp h with ⟨clar, hc, hstatus⟩
  rw [beq_iff_eq] at hstatus
  have hy : Reachable (fun c : LifecycleCall => program openGates c.val) Unopened lapseRun :=
    reachable_calls unopened_emptyDb lapseCalls
  have hnone : (lapseRun.log.any overwrites) = false := by decide +kernel
  have hno : ∀ m ∈ lapseRun.log, ¬Overwrites m := by
    intro m hm hover
    exact absurd (overwrites_of_Overwrites hover) (List.any_eq_false.mp hnone m hm)
  rcases (((lifecycle_holds hy hno).1 ⟨5⟩ clar hc).2).mp hstatus with ⟨e, he⟩
  exact ⟨clar, e, hc, hstatus, he⟩

/-- The commit moves a settled task, as a test. -/
def reopens (m : Commit Db Reply LifecycleCall) (id : Uuid) : Bool :=
  m.call.val.lifecycle &&
    (m.before.tasks.find? id).any fun task => settledTaskStatuses.contains task.status &&
      (m.after.tasks.find? id).any fun task' => task'.status != task.status

/-- The answer of the second clarification moves a task out of `clarification_expired`. -/
theorem reopen_run : ¬∀ y : Sys Db Lock Failure Reply LifecycleCall Unit,
    Reachable (fun c => program openGates c.val) Unopened y → ∀ m ∈ y.log, KeepsSettled m := by
  intro hall
  have h : (reopenRun.log.any fun m => reopens m ⟨3⟩) = true := by decide +kernel
  rcases List.any_eq_true.mp h with ⟨m, hm, hreopens⟩
  unfold reopens at hreopens
  simp only [Bool.and_eq_true, Option.any_eq_true, bne_iff_ne, List.contains_iff_mem]
    at hreopens
  rcases hreopens with ⟨hcall, task, ht, hsettled, task', ht', hne⟩
  rcases hall reopenRun (reachable_calls unopened_emptyDb reopenCalls) m hm hcall ⟨3⟩ task
    ⟨ht, hsettled⟩ with ⟨x, hx, hsame⟩
  rw [Option.some.inj (ht'.symm.trans hx)] at hne
  exact hne hsame

end AiAgentsSwd.Tasks
