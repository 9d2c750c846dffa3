import AiAgentsSwd.Tasks.Effects

/-!
# Tasks.Answers — what the reply of a request operation says

`Effect` says what a commit has written, whatever was answered. `Answers` says what the answer
of a request operation promises about the commit: a denial has written nothing, and a success is
either the confirmation of a request that was there already or one transition with one event.
-/

namespace AiAgentsSwd.Tasks

open Planning (Uuid Time)

/-- The operations on requests: the id drawn for the event of the transition, and its type. -/
def Call.transition : Call → Option (Uuid × EventType)
  | .requestResume ids _ _ _ _ _ _ => some (ids.eventId, .resumeRequested)
  | .authorizeResume eventId _ _ _ _ => some (eventId, .resumeAuthorized)
  | .rejectResume eventId _ _ _ _ => some (eventId, .resumeRejected)
  | .cancelResume eventId _ _ _ => some (eventId, .resumeCanceled)
  | .prepareExecution eventId _ _ _ => some (eventId, .resumeExecutionRequested)
  | .requestReplay ids _ _ _ _ _ _ => some (ids.eventId, .replayRequested)
  | .authorizeReplay eventId _ _ _ _ => some (eventId, .replayAuthorized)
  | .rejectReplay eventId _ _ _ _ => some (eventId, .replayRejected)
  | .cancelReplay eventId _ _ _ => some (eventId, .replayCanceled)
  | _ => none

/-- `not result.ok`. -/
def Reply.denied : Reply → Bool
  | .resume r => !r.ok
  | .replay r => !r.ok
  | _ => false

theorem Reply.denied_resume {r : ResumeResult} (hno : r.ok = false) :
    (Reply.resume r).denied = true := congrArg (!·) hno

theorem Reply.denied_replay {r : ReplayResult} (hno : r.ok = false) :
    (Reply.replay r).denied = true := congrArg (!·) hno

/-- The call requests again what was requested under the same key. -/
inductive Confirms (s : Db) : Call → Prop where
  | resume {ids : ResumeIds} {actor : Actor} {scope : Scope} {cid : Uuid} {key : String}
      {expiresAt : Time} {reference : Option Reference} {id : Uuid} {x : ResumeRequest}
      (hx : s.resumeRequests.find? id = some x) (hkey : x.idempotencyKey = key) :
      Confirms s (.requestResume ids actor scope cid key expiresAt reference)
  | replay {ids : ReplayIds} {actor : Actor} {scope : Scope} {oid : Uuid} {key : String}
      {expiresAt : Time} {reference : Option Reference} {id : Uuid} {x : ReplayRequest}
      (hx : s.replayRequests.find? id = some x) (hkey : x.idempotencyKey = key) :
      Confirms s (.requestReplay ids actor scope oid key expiresAt reference)

/-- An unmarked clarification has an active authorization for its resume: the only way in which a
request is denied after it has written something. -/
structure Late (t₁ : Db) (cid : Uuid) : Prop where
  marker : ∃ clar, t₁.clarifications.find? cid = some clar ∧ clar.resumeRequestedAt = none
  active : ∃ id a, t₁.authorizations.find? id = some a ∧
    (a.active && a.actionType == .resume && a.resourceId == cid) = true

/-- What the answer to a call says about its commit. -/
inductive Answers (Inv : Db → Prop) : Call → Reply → Db → Db → Prop where
  | denied {c : Call} {r : Reply} {s : Db} (hno : r.denied = true) : Answers Inv c r s s
  | confirmed {c : Call} {r : Reply} {s : Db} (hok : r.denied = false) (h : Confirms s c) :
      Answers Inv c r s s
  | transitioned {c : Call} {r : Reply} {s t : Db} {eventId : Uuid} {type : EventType}
      {o : OutboxEvent} (hok : r.denied = false) (hc : c.transition = some (eventId, type))
      (habsent : s.outbox.find? eventId = none) (htype : o.eventType = type)
      (hbox : t.outbox = s.outbox.insert eventId o) : Answers Inv c r s t
  | late {ids : ResumeIds} {actor : Actor} {scope : Scope} {cid : Uuid} {key : String}
      {expiresAt : Time} {reference : Option Reference} {r : Reply} {s t t₁ : Db} (hinv : Inv t₁)
      (h : Late t₁ cid) :
      Answers Inv (.requestResume ids actor scope cid key expiresAt reference) r s t

variable {Inv : Db → Prop} {c : Call} {r : Reply} {s t : Db} {eventId : Uuid} {type : EventType}

/-- A transition whose event went in. -/
theorem Answers.of_emits {cid tid : Uuid} {key : String} {payload : List (String × PayloadValue)}
    {now : Time} (hok : r.denied = false) (hc : c.transition = some (eventId, type))
    (h : Emits s eventId (newOutboxEvent cid tid type key payload now))
    (hbox : t.outbox = s.outbox.insert eventId (newOutboxEvent cid tid type key payload now)) :
    Answers Inv c r s t :=
  .transitioned hok hc h.absent rfl hbox

/-- What a call that never was too late promises. -/
theorem Answers.elim (h : Answers Inv c r s t) (hc : c.transition = some (eventId, type))
    (hlate : ∀ t₁ cid, Inv t₁ → ¬Late t₁ cid) :
    (r.denied = true → t = s) ∧
      (r.denied = false → (Confirms s c ∧ t = s) ∨
        s.outbox.find? eventId = none ∧ ∃ o, o.eventType = type ∧
          t.outbox = s.outbox.insert eventId o) := by
  cases h with
  | denied hno =>
    refine ⟨fun _ => rfl, fun hok => ?_⟩
    rw [hno] at hok
    cases hok
  | confirmed hok h => exact ⟨fun _ => rfl, fun _ => Or.inl ⟨h, rfl⟩⟩
  | transitioned hok hc' habsent htype hbox =>
    rw [hc', Option.some.injEq, Prod.mk.injEq] at hc
    rw [hc.1] at habsent hbox
    refine ⟨fun hno => ?_, fun _ => Or.inr ⟨habsent, _, htype.trans hc.2, hbox⟩⟩
    rw [hok] at hno
    cases hno
  | late hinv h => exact absurd h (hlate _ _ hinv)

end AiAgentsSwd.Tasks
