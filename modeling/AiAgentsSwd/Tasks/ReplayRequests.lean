import AiAgentsSwd.Tasks.Authorizations

/-!
# Tasks.ReplayRequests — the steps of a replay request

`ReplayStep` is what a transaction may do to the replay requests, in six cases, with what it
knows at its commit about the event, the authorization and the counts.
-/

namespace AiAgentsSwd.Tasks

open Keyed (Table)
open Planning (Uuid Time)
open ReadCommitted

variable {cfg : Settings} {Inv : Db → Prop} {c : Call} {r : Reply} {s t : Db}

/-- The requests of an actor in a scope that a count at `now` counts. -/
def recentRequests (cfg : Settings) (s : Db) (actorId : String) (scope : Scope) (now : Time) : Nat :=
  s.replayRequests.rows.countP fun e => e.2.recentBy actorId scope cfg.rateLimitWindowHours now

/-- The executed replays of an event that a count at `now` counts. -/
def recentReplays (cfg : Settings) (s : Db) (outboxEventId : Uuid) (now : Time) : Nat :=
  s.replayRequests.rows.countP fun e =>
    e.2.recentSuccess outboxEventId cfg.rateLimitWindowHours now

/-- The event `id` is dead, in the episode `version`. -/
def DeadAt (s : Db) (id : Uuid) (version : String) (o : OutboxEvent) : Prop :=
  s.outbox.find? id = some o ∧ o.status = .dead ∧ o.episode = some version

/-- The transaction has requested the replay `row`. -/
structure ReplayRequested (cfg : Settings) (s t : Db) (id : Uuid) (row : ReplayRequest) : Prop where
  dead : ∃ o, DeadAt s row.outboxEventId row.resourceStateVersion o
  authorization : ∃ authorizationId actor a u,
    Obtains s authorizationId actor row.scope a row.authorizationId u ∧
      t.authorizations = (u s).authorizations ∧ a.actionType = .replay ∧
      a.requestedBy = row.requestedBy ∧ a.idempotencyKey =
        "replay-auth:" ++ toString row.outboxEventId ++ ":" ++ row.idempotencyKey
  new : row.asRequested = row
  absent : s.replayRequests.find? id = none
  key_free : ∀ k x, s.replayRequests.find? k = some x →
    (x.idempotencyKey == row.idempotencyKey) = false
  active_free : ∀ k x, s.replayRequests.find? k = some x →
    (x.active && x.outboxEventId == row.outboxEventId) = false
  check : row.check = true
  now_le : row.requestedAt ≤ s.now
  requests : ∃ countedAt, countedAt ≤ row.requestedAt ∧
    recentRequests cfg s row.requestedBy row.scope countedAt < cfg.maxRequestsPerActorPerWindow
  replays : ∃ countedAt, countedAt ≤ row.requestedAt ∧
    recentReplays cfg s row.outboxEventId countedAt < cfg.maxSuccessfulReplaysPerEvent
  rows : s.replayRequests.Puts t.replayRequests id row

/-- The transaction has executed the replay request `id` on the event `o`, at a time when it had
seen the request. -/
structure Replays (Inv : Db → Prop) (s t : Db) (id : Uuid) (rr : ReplayRequest) (o : OutboxEvent)
    (now : Time) : Prop where
  request : s.replayRequests.find? id = some rr
  state : rr.state = .authorized
  dead : DeadAt s rr.outboxEventId rr.resourceStateVersion o
  authorization : ∃ a, s.authorizations.find? rr.authorizationId = some a ∧ a.open = true
  check : (rr.executedRow now).check = true
  now_le : now ≤ s.now
  seen : ∃ t₁, Inv t₁ ∧ t₁.replayRequests.find? id = some rr ∧ t₁.now ≤ now
  rows : s.replayRequests.Puts t.replayRequests id (rr.executedRow now)
  revived : ∃ revivedAt,
    t.outbox.find? rr.outboxEventId = some (o.replayedRow o.attempts revivedAt)

/-- What a transaction may do to replay requests. -/
inductive ReplayStep (cfg : Settings) (Inv : Db → Prop) (c : Call) (s t : Db) : Prop where
  | other (hrows : t.replayRequests = s.replayRequests)
  | requested {id : Uuid} {row : ReplayRequest} (h : ReplayRequested cfg s t id row)
  | authorized {eventId id : Uuid} {actor : Actor} {scope : Scope} {policyVersion : String}
      {rr : ReplayRequest} {o : OutboxEvent} {a : Authorization} {now decidedAt : Time}
      (hc : c = .authorizeReplay eventId id actor scope policyVersion)
      (hrr : s.replayRequests.find? id = some rr) (hstate : rr.state = .authorizationPending)
      (ho : DeadAt s rr.outboxEventId rr.resourceStateVersion o)
      (hauth : Approves s rr.authorizationId actor scope policyVersion decidedAt a)
      (hcheck : (rr.authorizedRow now).check = true)
      (hrows : s.replayRequests.Puts t.replayRequests id (rr.authorizedRow now))
  | declined {id : Uuid} {rr rr' : ReplayRequest} (hrr : s.replayRequests.find? id = some rr)
      (hstate : rr.state = .authorizationPending)
      (hkept : Kept ReplayRequest.asRequested rr rr')
      (hstate' : rr'.state = .rejected ∨ rr'.state = .canceled) (hcheck : rr'.check = true)
      (hrows : s.replayRequests.Puts t.replayRequests id rr')
  | executed {id : Uuid} {rr : ReplayRequest} {o : OutboxEvent} {now : Time}
      (h : Replays Inv s t id rr o now)
  | expired {ids : List Uuid} {now : Time}
      (h : ∀ k ∈ ids, ∃ rr, s.replayRequests.find? k = some rr ∧ rr.active = true ∧
        (rr.expiredRow now).check = true)
      (hrows : ∀ k, t.replayRequests.find? k = if k ∈ ids then
        (s.replayRequests.find? k).map (ReplayRequest.expiredRow now)
          else s.replayRequests.find? k)

theorem replays_of_effect {eventId id : Uuid} {actor : Actor} {scope : Scope}
    {now₁ now₂ : Time} {rr : ReplayRequest} {o event : OutboxEvent} {u : Db → Db}
    (hrr : s.replayRequests.find? id = some rr) (hstate : rr.state = .authorized)
    (ho : DeadAt s rr.outboxEventId rr.resourceStateVersion o)
    (hauth : Consumption s rr.authorizationId actor scope rr.resourceStateVersion u)
    (hcheck : (rr.executedRow now₂).check = true)
    (hnow : now₂ ≤ s.now ∧ ∃ t₁, Inv t₁ ∧ t₁.replayRequests.find? id = some rr ∧ t₁.now ≤ now₂)
    (hemit : Emits s eventId event) :
    Replays Inv s
      (At.outbox.insert eventId event
        (At.replayRequests.modify id (ReplayRequest.executedRow now₂)
          (At.outbox.modify rr.outboxEventId (OutboxEvent.replayedRow o.attempts now₁) (u s))))
      id rr o now₂ := by
  rcases hauth.row with ⟨_, a, hcons, -⟩
  have hopen := (Authorization.consumable_iff.mp hcons.consumable).1
  have hrows : (u s).replayRequests = s.replayRequests := (hauth.frame s).2.2.2.2.2
  have hbox : (u s).outbox = s.outbox := (hauth.frame s).2.2.2.1
  have hrr' : (u s).replayRequests.find? id = some rr := by
    rw [hrows]
    exact hrr
  -- the new event is not the one that is replayed
  have hne : rr.outboxEventId ≠ eventId := by
    intro heq
    have hsome := ho.1
    rw [heq, hemit.absent] at hsome
    cases hsome
  have hrevived : ((u s).outbox.modify rr.outboxEventId
      (OutboxEvent.replayedRow o.attempts now₁)).find? rr.outboxEventId =
        some (o.replayedRow o.attempts now₁) := by
    rw [Table.find?_modify_self, hbox, ho.1, Option.map_some]
  refine ⟨hrr, hstate, ho, ⟨a, hcons.row, hopen⟩, hcheck, hnow.1, hnow.2, ?_,
    ⟨now₁, (Table.find?_insert_of_ne _ _ hne).trans hrevived⟩⟩
  rw [← hrows]
  exact Table.puts_modify hrr' _

/-- Whatever else an effect does, this is its step. -/
theorem Effect.replayStep (h : Effect cfg Inv c r s t) : ReplayStep cfg Inv c s t := by
  cases h with
  | quiet _ => exact .other rfl
  | ticked _ => exact .other rfl
  | taskSaved _ _ => exact .other rfl
  | madeEligible _ _ _ => exact .other rfl
  | requested _ => exact .other rfl
  | authorized _ => exact .other rfl
  | decided _ => exact .other rfl
  | consumed h => exact .other (h.frame s).2.2.2.2.2
  | authorizationsExpired _ _ _ => exact .other (TableAt.modifyAll_frame (fun _ _ => rfl) _ _)
  | granted _ _ => exact .other rfl
  | approvalRevoked _ _ _ => exact .other rfl
  | resumeRequested _ _ _ _ hauth _ _ _ _ _ _ _ =>
    cases hauth with
    | new _ => exact .other rfl
    | same_key _ _ => exact .other rfl
  | resumeRefused _ _ => exact .other rfl
  | resumeLate _ _ _ _ _ _ => exact .other rfl
  | resumeAuthorized _ _ _ hmark _ _ =>
    rcases hmark with rfl | rfl
    · exact .other rfl
    · exact .other rfl
  | resumeDeclined _ _ _ _ _ hrelease _ _ =>
    rcases hrelease with rfl | ⟨rfl, -⟩
    · exact .other rfl
    · exact .other rfl
  | executionPrepared _ _ hauth _ _ =>
    cases hauth with
    | plain _ _ => exact .other rfl
    | approved _ _ _ _ => exact .other rfl
  | resumeConfirmed _ _ _ _ _ _ => exact .other rfl
  | resumesExpired _ _ _ => exact .other (TableAt.modifyAll_frame (fun _ _ => rfl) _ _)
  | replayRequested ho hdead hversion hauth hrow habsent hkey hactive hcheck hcounted hnow hactor
      hevent _ =>
    subst hrow
    have hsame := hauth.frame (X := Db.replayRequests) fun _ _ _ => rfl
    refine .requested ⟨⟨_, ho, hdead, hversion⟩, ⟨_, _, _, _, hauth, rfl, rfl, rfl, rfl⟩, rfl,
      habsent, hkey, hactive, hcheck, hnow, ⟨_, hcounted, hactor⟩, hevent, ?_⟩
    rw [← hsame]
    exact Table.puts_insert _ _ _
  | replayAuthorized hrr _ hstate ho hdead hversion hauth hcheck _ =>
    exact .authorized rfl hrr hstate ⟨ho, hdead, hversion⟩ hauth hcheck (Table.puts_modify hrr _)
  | @replayDeclined _ _ _ _ _ _ _ _ set _ _ _ now₁ _ rr _ _ _ _ hc hrr _ hstate _ hcheck _ =>
    have hkept : Kept ReplayRequest.asRequested rr (set now₁ rr) := by
      cases hc <;> rfl
    have hend : (set now₁ rr).state = .rejected ∨ (set now₁ rr).state = .canceled := by
      cases hc with
      | reject => exact Or.inl rfl
      | cancel => exact Or.inr rfl
    exact .declined hrr hstate hkept hend hcheck (Table.puts_modify hrr _)
  | replayBlocked _ _ => exact .other rfl
  | replayExecuted hrr _ hstate ho hdead hversion hauth hcheck hnow hemit =>
    exact .executed (replays_of_effect hrr hstate ⟨ho, hdead, hversion⟩ hauth hcheck hnow hemit)
  | replaysExpired hnd _ h =>
    exact .expired h fun k => TableAt.find?_modifyAll (T := At.replayRequests) _ hnd k s
  | published _ _ _ _ => exact .other rfl
  | retried _ _ _ _ _ => exact .other rfl
  | died _ _ _ _ _ => exact .other rfl
  | revived _ _ => exact .other rfl
  | emitted _ => exact .other rfl
  | clarificationCreated _ => exact .other rfl
  | taskOpened _ => exact .other rfl
  | answered _ _ _ _ _ => exact .other rfl
  | messaged _ _ => exact .other rfl
  | taskAnswered _ => exact .other rfl
  | reminded _ _ _ => exact .other rfl
  | clarificationExpired _ _ _ _ _ _ _ => exact .other rfl

end AiAgentsSwd.Tasks
