import AiAgentsSwd.Tasks.ResumeRequests

/-!
# Tasks.OutboxSteps — how the rows of the outbox come and move

`OutboxEvent.Moves` is what a transaction may do to one row: it is inserted, the relay takes
it on, a replay returns it to `pending`. `OutboxEvent.Origin` says where a new row comes from,
for the types of events that a run has to account for.
-/

namespace AiAgentsSwd.Tasks

open Keyed (Table)
open Planning (Uuid Time)
open ReadCommitted

variable {cfg : Settings} {Inv : Db → Prop} {c : Call} {r : Reply} {s t : Db}

/-! ## One row -/

/-- The row for which the relay has recorded a failed publish. -/
def Reply.failure : Call → Reply → Option Uuid
  | .publishOne _ _, .relay (.retry id) => some id
  | .publishOne _ _, .relay (.dead id) => some id
  | _, _ => none

/-- The row for which the relay has recorded what the bus answered. -/
def Reply.attempt : Call → Reply → Option Uuid
  | .publishOne _ _, .relay (.published id) => some id
  | c, r => r.failure c

/-- What a transaction may do to one row of the outbox. -/
inductive OutboxEvent.Moves (s : Db) (k : Uuid) :
    Call → Reply → Option OutboxEvent → Option OutboxEvent → Prop where
  | same {c : Call} {r : Reply} (o : Option OutboxEvent) (h : r.attempt c ≠ some k) :
      Moves s k c r o o
  | inserted {c : Call} {r : Reply} {o : OutboxEvent} (h : r.attempt c ≠ some k)
      (hnew : o.asInserted = o) : Moves s k c r none (some o)
  | published {skipped : Uuid → Bool} {messageId : String} {o : OutboxEvent} {now now₁ : Time}
      (hclaim : o.claimable now = true) (hnow : now ≤ now₁) (hnow₁ : now₁ ≤ s.now) :
      Moves s k (.publishOne skipped (.ok messageId)) (.relay (.published k)) (some o)
        (some (o.publishedRow now₁))
  | retried {skipped : Uuid → Bool} {reason : String} {o : OutboxEvent} {now now₁ : Time}
      (hclaim : o.claimable now = true) (hnow : now ≤ now₁) (hnow₁ : now₁ ≤ s.now)
      (hplan : (planRetryState o.attempts (some reason)).setDeadAt = false) :
      Moves s k (.publishOne skipped (.failed reason)) (.relay (.retry k)) (some o)
        (some (o.retryRow (planRetryState o.attempts (some reason)) now₁))
  | died {skipped : Uuid → Bool} {reason : String} {o : OutboxEvent} {now now₁ : Time}
      (hclaim : o.claimable now = true) (hnow : now ≤ now₁) (hnow₁ : now₁ ≤ s.now)
      (hplan : (planRetryState o.attempts (some reason)).setDeadAt = true) :
      Moves s k (.publishOne skipped (.failed reason)) (.relay (.dead k)) (some o)
        (some (o.deadRow (planRetryState o.attempts (some reason)) now₁))
  | replayed {c : Call} {r : Reply} {o : OutboxEvent} {now : Time} (h : r.attempt c ≠ some k)
      (hdead : o.status = .dead) :
      Moves s k c r (some o) (some (o.replayedRow o.attempts now))

/-- An update of one row moves that row, and no other. -/
theorem OutboxEvent.moves_modify {k j : Uuid} {g : OutboxEvent → OutboxEvent} {o : OutboxEvent}
    (ho : s.outbox.find? j = some o) (hother : k ≠ j → r.attempt c ≠ some k)
    (hmove : k = j → Moves s k c r (some o) (some (g o))) :
    Moves s k c r (s.outbox.find? k) ((s.outbox.modify j g).find? k) := by
  rw [Table.find?_modify_row ho]
  by_cases hk : k = j
  · subst hk
    rw [if_pos rfl, ho]
    exact hmove rfl
  · rw [if_neg hk]
    exact .same _ (hother hk)

theorem OutboxEvent.moves_insert {k j : Uuid} {o : OutboxEvent} (h : r.attempt c ≠ some k)
    (habsent : s.outbox.find? j = none) (hnew : o.asInserted = o) :
    Moves s k c r (s.outbox.find? k) ((s.outbox.insert j o).find? k) := by
  by_cases hk : k = j
  · subst hk
    rw [Table.find?_insert_self, habsent]
    exact .inserted h hnew
  · rw [Table.find?_insert_of_ne _ _ hk]
    exact .same _ h

theorem ResumeDecline.attempt {eventId id : Uuid} {actor : Actor} {scope : Scope} {op : SimpleOp}
    {set : Time → ResumeRequest → ResumeRequest} {type : EventType}
    (h : ResumeDecline c eventId id actor scope op set type) (r : Reply) : r.attempt c = none := by
  cases h <;> rfl

theorem ResumeConfirm.attempt {eventId id commandId : Uuid}
    {set : Time → ResumeRequest → ResumeRequest} {type : EventType}
    (h : ResumeConfirm c eventId id commandId set type) (r : Reply) : r.attempt c = none := by
  cases h <;> rfl

theorem ReplayDecline.attempt {eventId id : Uuid} {actor : Actor} {scope : Scope} {op : SimpleOp}
    {set : Time → ReplayRequest → ReplayRequest} {type : EventType}
    (h : ReplayDecline c eventId id actor scope op set type) (r : Reply) : r.attempt c = none := by
  cases h <;> rfl

/-- A commit that wrote nothing has recorded no answer. -/
theorem Quiet.attempt (h : Quiet c r) : r.attempt c = none := by
  cases c with
  | publishOne skipped result =>
    have hr : r = .relay .nothing := h
    rw [hr]
    rfl
  | _ => rfl

/-- Whatever else an effect does, this is its move of a row. -/
theorem Effect.outboxMoves (h : Effect cfg Inv c r s t) (k : Uuid) :
    OutboxEvent.Moves s k c r (s.outbox.find? k) (t.outbox.find? k) := by
  -- no other transaction than the relay's has an answer of the bus to record
  have hnone : ∀ {x : Option Uuid}, x = none → x ≠ some k := by
    rintro _ rfl
    exact nofun
  cases h with
  | quiet h => exact .same _ (hnone h.attempt)
  | consumed h =>
    rw [(h.frame s).2.2.2.1]
    exact .same _ nofun
  | authorizationsExpired _ _ _ =>
    rw [TableAt.modifyAll_frame (X := Db.outbox) (fun _ _ => rfl)]
    exact .same _ nofun
  | resumeRequested _ _ _ _ hauth _ _ _ _ _ _ hemit =>
    cases hauth with
    | new _ => exact OutboxEvent.moves_insert nofun hemit.absent rfl
    | same_key _ _ => exact OutboxEvent.moves_insert nofun hemit.absent rfl
  | resumeAuthorized _ _ _ hmark _ hemit =>
    rcases hmark with rfl | rfl
    · exact OutboxEvent.moves_insert nofun hemit.absent rfl
    · exact OutboxEvent.moves_insert nofun hemit.absent rfl
  | resumeDeclined hc _ _ _ _ hrelease _ hemit =>
    rcases hrelease with rfl | ⟨rfl, -⟩
    · exact OutboxEvent.moves_insert (hnone (hc.attempt r)) hemit.absent rfl
    · exact OutboxEvent.moves_insert (hnone (hc.attempt r)) hemit.absent rfl
  | @executionPrepared _ _ eventId _ _ _ _ _ _ _ _ _ u _ _ hauth _ hemit =>
    show OutboxEvent.Moves s k _ r _ (((u s).outbox.insert eventId _).find? k)
    rw [(hauth.frame s).2.2.2.1]
    exact OutboxEvent.moves_insert nofun hemit.absent rfl
  | resumeConfirmed hc _ _ _ _ hemit =>
    exact OutboxEvent.moves_insert (hnone (hc.attempt r)) hemit.absent rfl
  | resumesExpired _ _ _ =>
    rw [TableAt.modifyAll_frame (X := Db.outbox) (fun _ _ => rfl)]
    exact .same _ nofun
  | replayRequested _ _ _ hauth _ _ _ _ _ _ _ _ _ hemit =>
    cases hauth with
    | new _ => exact OutboxEvent.moves_insert nofun hemit.absent rfl
    | same_key _ _ => exact OutboxEvent.moves_insert nofun hemit.absent rfl
  | replayAuthorized _ _ _ _ _ _ _ _ hemit =>
    exact OutboxEvent.moves_insert nofun hemit.absent rfl
  | replayDeclined hc _ _ _ _ _ hemit =>
    exact OutboxEvent.moves_insert (hnone (hc.attempt r)) hemit.absent rfl
  | replayBlocked _ hemit => exact OutboxEvent.moves_insert nofun hemit.absent rfl
  | replaysExpired _ _ _ =>
    rw [TableAt.modifyAll_frame (X := Db.outbox) (fun _ _ => rfl)]
    exact .same _ nofun
  | published ho hclaim hnow hnow₁ =>
    refine OutboxEvent.moves_modify ho (fun hk heq => hk ?_) fun hk => ?_
    · exact (Option.some.inj heq).symm
    · rw [← hk]
      exact .published hclaim hnow hnow₁
  | retried ho hclaim hnow hnow₁ hplan =>
    refine OutboxEvent.moves_modify ho (fun hk heq => hk ?_) fun hk => ?_
    · exact (Option.some.inj heq).symm
    · rw [← hk]
      exact .retried hclaim hnow hnow₁ hplan
  | died ho hclaim hnow hnow₁ hplan =>
    refine OutboxEvent.moves_modify ho (fun hk heq => hk ?_) fun hk => ?_
    · exact (Option.some.inj heq).symm
    · rw [← hk]
      exact .died hclaim hnow hnow₁ hplan
  | revived ho hdead => exact OutboxEvent.moves_modify ho (fun _ => nofun) fun _ => .replayed nofun hdead
  | emitted hemit => exact OutboxEvent.moves_insert nofun hemit.absent rfl
  | reminded _ _ hemit => exact OutboxEvent.moves_insert nofun hemit.absent rfl
  | clarificationExpired _ _ _ _ _ _ hemit => exact OutboxEvent.moves_insert nofun hemit.absent rfl
  | @replayExecuted _ _ eventId id _ _ _ _ now₁ _ _ rr o u payload _ _ _ ho hdead _ hauth _ _ hemit =>
    have hbox := (hauth.frame s).2.2.2.1
    have hne : rr.outboxEventId ≠ eventId := by
      rintro rfl
      rw [hemit.absent] at ho
      cases ho
    show OutboxEvent.Moves s k _ r _ ((((u s).outbox.modify rr.outboxEventId
      (OutboxEvent.replayedRow o.attempts now₁)).insert eventId _).find? k)
    rw [hbox]
    by_cases hk : k = eventId
    · subst hk
      rw [Table.find?_insert_self, hemit.absent]
      exact .inserted nofun rfl
    · rw [Table.find?_insert_of_ne _ _ hk]
      exact OutboxEvent.moves_modify ho (fun _ => nofun) fun _ => .replayed nofun hdead
  | _ => exact .same _ nofun

/-! ## Where a row comes from -/

/-- The type of the event that a caller inserts by itself. -/
def Call.emits : Call → Option EventType
  | .insertLifecycleOutboxEvent _ _ _ eventType _ _ => some eventType
  | _ => none

/-- The types of the command and of the poller's events. -/
def EventType.tracked : EventType → Bool
  | .resumeExecutionRequested => true
  | .clarificationReminderRecorded => true
  | .clarificationExpired => true
  | _ => false

/-- Where the new row `o` comes from. -/
inductive OutboxEvent.Origin (c : Call) (s t : Db) (e : Uuid) (o : OutboxEvent) : Prop where
  | prepared {id : Uuid} {rr : ResumeRequest} {now : Time} (h : Prepared s t id e rr now)
  | reminded {clar : Clarification} {now now₁ : Time}
      (hc : s.clarifications.find? o.clarificationId = some clar)
      (hclaim : clar.remindable now = true) (htype : o.eventType = .clarificationReminderRecorded)
      (hrows : s.clarifications.Puts t.clarifications o.clarificationId (clar.remindedRow now₁))
  | expired {clar : Clarification} {now now₁ : Time}
      (hc : s.clarifications.find? o.clarificationId = some clar)
      (hclaim : clar.overdue now = true) (htype : o.eventType = .clarificationExpired)
      (hrows : s.clarifications.Puts t.clarifications o.clarificationId (clar.expiredRow now₁))
  | direct (h : c.emits = some o.eventType)
  | notice (h : o.eventType.tracked = false)

/-- An event that goes into a table where it was not. -/
theorem OutboxEvent.eq_of_insert {u : Table Uuid OutboxEvent} {e j : Uuid} {o x : OutboxEvent}
    (hk : u.find? e = none) (ho : (u.insert j x).find? e = some o) : e = j ∧ o = x := by
  rcases (Table.puts_insert _ _ _).find ho with heq | ⟨-, ho⟩
  · exact heq
  · rw [hk] at ho
    cases ho

/-- A new row has an origin. -/
theorem Effect.origin (h : Effect cfg Inv c r s t) {e : Uuid} {o : OutboxEvent}
    (hk : s.outbox.find? e = none) (ho : t.outbox.find? e = some o) :
    OutboxEvent.Origin c s t e o := by
  have hsame : s.outbox.find? e ≠ some o := by
    rw [hk]
    exact nofun
  have hmodify : ∀ j f, (s.outbox.modify j f).find? e ≠ some o := by
    intro j f
    rw [Table.find?_modify_eq_none.mpr hk]
    exact nofun
  have hnotice : ∀ {u : Table Uuid OutboxEvent} {j x}, u.find? e = none →
      (u.insert j x).find? e = some o → x.eventType.tracked = false →
      OutboxEvent.Origin c s t e o := by
    intro u j x hu ho hx
    rw [← (OutboxEvent.eq_of_insert hu ho).2] at hx
    exact .notice hx
  cases h with
  | consumed h =>
    rw [(h.frame s).2.2.2.1] at ho
    exact absurd ho hsame
  | authorizationsExpired _ _ _ =>
    rw [TableAt.modifyAll_frame (X := Db.outbox) (fun _ _ => rfl)] at ho
    exact absurd ho hsame
  | resumeRequested _ _ _ _ hauth _ _ _ _ _ _ _ =>
    cases hauth with
    | new _ => exact hnotice hk ho rfl
    | same_key _ _ => exact hnotice hk ho rfl
  | resumeAuthorized _ _ _ hmark _ _ =>
    rcases hmark with rfl | rfl
    · exact hnotice hk ho rfl
    · exact hnotice hk ho rfl
  | resumeDeclined hc _ _ _ _ hrelease _ _ =>
    rcases hrelease with rfl | ⟨rfl, -⟩
    · exact hnotice hk ho (by cases hc <;> rfl)
    · exact hnotice hk ho (by cases hc <;> rfl)
  | executionPrepared h hstate hauth hcheck hemit =>
    have hprep := prepared_of_effect h hstate hauth hcheck hemit
    rcases hprep.command with ⟨x, hputs, -⟩
    rcases hputs.find ho with ⟨rfl, -⟩ | ⟨-, ho⟩
    · exact .prepared hprep
    · exact absurd ho hsame
  | resumeConfirmed hc _ _ _ _ _ => exact hnotice hk ho (by cases hc <;> rfl)
  | resumesExpired _ _ _ =>
    rw [TableAt.modifyAll_frame (X := Db.outbox) (fun _ _ => rfl)] at ho
    exact absurd ho hsame
  | replayRequested _ _ _ hauth _ _ _ _ _ _ _ _ _ _ =>
    cases hauth with
    | new _ => exact hnotice hk ho rfl
    | same_key _ _ => exact hnotice hk ho rfl
  | replayAuthorized _ _ _ _ _ _ _ _ _ => exact hnotice hk ho rfl
  | replayDeclined hc _ _ _ _ _ _ => exact hnotice hk ho (by cases hc <;> rfl)
  | replayBlocked _ _ => exact hnotice hk ho rfl
  | @replayExecuted _ _ _ _ _ _ _ _ now₁ _ _ rr o₁ u _ _ _ _ _ _ _ hauth _ _ _ =>
    have hbox : (u s).outbox = s.outbox := (hauth.frame s).2.2.2.1
    refine hnotice (u := (u s).outbox.modify rr.outboxEventId
      (OutboxEvent.replayedRow o₁.attempts now₁)) ?_ ho rfl
    rw [hbox]
    exact Table.find?_modify_eq_none.mpr hk
  | replaysExpired _ _ _ =>
    rw [TableAt.modifyAll_frame (X := Db.outbox) (fun _ _ => rfl)] at ho
    exact absurd ho hsame
  | published _ _ _ _ => exact absurd ho (hmodify _ _)
  | retried _ _ _ _ _ => exact absurd ho (hmodify _ _)
  | died _ _ _ _ _ => exact absurd ho (hmodify _ _)
  | revived _ _ => exact absurd ho (hmodify _ _)
  | emitted _ =>
    rw [(OutboxEvent.eq_of_insert hk ho).2]
    exact .direct rfl
  | reminded hc hclaim _ =>
    rw [(OutboxEvent.eq_of_insert hk ho).2]
    exact .reminded hc hclaim rfl (Table.puts_modify hc _)
  | clarificationExpired hc hclaim _ _ _ _ _ =>
    rw [(OutboxEvent.eq_of_insert hk ho).2]
    exact .expired hc hclaim rfl (Table.puts_modify hc _)
  | _ => exact absurd ho hsame

end AiAgentsSwd.Tasks
