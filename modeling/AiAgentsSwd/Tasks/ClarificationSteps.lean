import AiAgentsSwd.Tasks.Authorizations

/-!
# Tasks.ClarificationSteps — the steps of a clarification

`ClarificationStep` is what a transaction may do to the clarifications, in six cases. The
columns of a resume are left aside: `Clarification.lifecycle` is the rest of a row.
-/

namespace AiAgentsSwd.Tasks

open Keyed (Table)
open Planning (Uuid Time)
open ReadCommitted

variable {cfg : Settings} {Inv : Db → Prop} {c : Call} {r : Reply} {s t : Db}

/-- The row without the columns of a resume. -/
def Clarification.lifecycle (c : Clarification) : Clarification :=
  { c with
    resumeEligibleAt := none
    resumeRequestedAt := none
    resumeRequestedBy := none
    resumeAuthorizedAt := none }

/-- Every clarification is what it was, but for the columns of a resume. -/
def SameLifecycles (s t : Db) : Prop :=
  ∀ id, (t.clarifications.find? id).map Clarification.lifecycle =
    (s.clarifications.find? id).map Clarification.lifecycle

theorem SameLifecycles.of_eq (h : t.clarifications = s.clarifications) : SameLifecycles s t := by
  intro id
  rw [h]

theorem SameLifecycles.modify {k : Uuid} {g : Clarification → Clarification}
    (h : t.clarifications = s.clarifications.modify k g)
    (hg : ∀ clar, (g clar).lifecycle = clar.lifecycle) : SameLifecycles s t := by
  intro id
  rw [h, Table.find?_modify]
  split_ifs with hid
  · subst hid
    cases s.clarifications.find? id with
    | none => rfl
    | some clar => exact congrArg some (hg clar)
  · rfl

/-- Seen from a later row, the earlier one. -/
theorem SameLifecycles.find (h : SameLifecycles s t) {id : Uuid} {clar : Clarification}
    (hc : t.clarifications.find? id = some clar) : ∃ clar₀,
      s.clarifications.find? id = some clar₀ ∧ Kept Clarification.lifecycle clar₀ clar := by
  have hid := h id
  rw [hc, Option.map_some] at hid
  rcases Option.map_eq_some_iff.mp hid.symm with ⟨clar₀, hc₀, heq⟩
  exact ⟨clar₀, hc₀, heq.symm⟩

/-- What a transaction may do to clarifications. -/
inductive ClarificationStep (c : Call) (s t : Db) : Prop where
  | other (h : SameLifecycles s t)
  | created {id : Uuid} {row : Clarification} (habsent : s.clarifications.find? id = none)
      (hnew : row.asCreated = row) (hrows : s.clarifications.Puts t.clarifications id row)
  | answered {id : Uuid} {clar : Clarification} {now : Time}
      (hc : s.clarifications.find? id = some clar) (hopen : clar.status = .open)
      (hfirst : clar.answeredAt = none) (hdue : now < clar.dueAt) (hnow : now ≤ s.now)
      (hrows : s.clarifications.Puts t.clarifications id (clar.answeredRow now))
  | messaged {id answerMessageId : Uuid} {clar : Clarification}
      (hc : s.clarifications.find? id = some clar) (hid : answerMessageId.value < 2 ^ 128)
      (hrows : s.clarifications.Puts t.clarifications id (clar.messagedRow answerMessageId))
  | reminded {eventId id : Uuid} {clar : Clarification} {o : OutboxEvent} {now now₁ : Time}
      (hc : s.clarifications.find? id = some clar) (hclaim : clar.remindable now = true)
      (hrows : s.clarifications.Puts t.clarifications id (clar.remindedRow now₁))
      (habsent : s.outbox.find? eventId = none) (houtbox : s.outbox.Puts t.outbox eventId o)
      (htype : o.eventType = .clarificationReminderRecorded) (hcid : o.clarificationId = id)
  | expired {eventId id : Uuid} {clar : Clarification} {o : OutboxEvent} {now now₁ : Time}
      (hc : s.clarifications.find? id = some clar) (hclaim : clar.overdue now = true)
      (hnow : now ≤ now₁) (hnow₁ : now₁ ≤ s.now)
      (hrows : s.clarifications.Puts t.clarifications id (clar.expiredRow now₁))
      (habsent : s.outbox.find? eventId = none) (houtbox : s.outbox.Puts t.outbox eventId o)
      (htype : o.eventType = .clarificationExpired) (hcid : o.clarificationId = id)

/-- Whatever else an effect does, this is its step. -/
theorem Effect.clarificationStep (h : Effect cfg Inv c r s t) : ClarificationStep c s t := by
  cases h with
  | madeEligible _ _ _ => exact .other (.modify rfl fun _ => rfl)
  | consumed h => exact .other (.of_eq (h.frame s).2.2.1)
  | authorizationsExpired _ _ _ =>
    exact .other (.of_eq (TableAt.modifyAll_frame (fun _ _ => rfl) _ _))
  | resumeRequested _ _ _ _ hauth _ _ _ _ _ _ _ =>
    cases hauth with
    | new _ => exact .other (.modify rfl fun _ => rfl)
    | same_key _ _ => exact .other (.modify rfl fun _ => rfl)
  | resumeLate _ _ _ _ _ _ => exact .other (.modify rfl fun _ => rfl)
  | resumeAuthorized _ _ _ hmark _ _ =>
    rcases hmark with rfl | rfl
    · exact .other (.of_eq rfl)
    · exact .other (.modify rfl fun _ => rfl)
  | resumeDeclined _ _ _ _ _ hrelease _ _ =>
    rcases hrelease with rfl | ⟨rfl, -⟩
    · exact .other (.modify rfl fun _ => rfl)
    · exact .other (.of_eq rfl)
  | executionPrepared _ _ hauth _ _ => exact .other (.of_eq (hauth.frame s).2.2.1)
  | resumesExpired _ _ _ =>
    exact .other (.of_eq (TableAt.modifyAll_frame (fun _ _ => rfl) _ _))
  | replayRequested _ _ _ hauth _ _ _ _ _ _ _ _ _ _ =>
    exact .other (.of_eq (hauth.frame (X := Db.clarifications) fun _ _ _ => rfl))
  | replayExecuted _ _ _ _ _ _ hauth _ _ _ => exact .other (.of_eq (hauth.frame s).2.2.1)
  | replaysExpired _ _ _ =>
    exact .other (.of_eq (TableAt.modifyAll_frame (fun _ _ => rfl) _ _))
  | clarificationCreated habsent =>
    exact .created habsent rfl (Table.puts_insert _ _ _)
  | answered hc hopen hfirst hdue hnow =>
    exact .answered hc hopen hfirst hdue hnow (Table.puts_modify hc _)
  | messaged hc hid => exact .messaged hc hid (Table.puts_modify hc _)
  | reminded hc hclaim hemit =>
    exact .reminded hc hclaim (Table.puts_modify hc _) hemit.absent (Table.puts_insert _ _ _) rfl rfl
  | clarificationExpired hc hclaim hnow hnow₁ _ _ hemit =>
    exact .expired hc hclaim hnow hnow₁ (Table.puts_modify hc _) hemit.absent
      (Table.puts_insert _ _ _) rfl rfl
  | _ => exact .other (.of_eq rfl)

end AiAgentsSwd.Tasks
