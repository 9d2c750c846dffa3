import AiAgentsSwd.Tasks.Authorizations

/-!
# Tasks.ResumeRequests — the steps of a resume request

`ResumeStep` is what a transaction may do to the resume requests and to the live markers of the
clarifications, whichever service it belongs to. What it leaves alone otherwise is one
constructor, so a proof about resume requests has seven cases and not one for each effect.
-/

namespace AiAgentsSwd.Tasks

open Keyed (Table)
open Planning (Uuid Time)
open ReadCommitted

variable {cfg : Settings} {Inv : Db → Prop} {c : Call} {r : Reply} {s t : Db}

/-- A clarification of `t` is new and unmarked, or marked as it was. -/
def MarkersKept (s t : Db) : Prop :=
  ∀ id clar, t.clarifications.find? id = some clar →
    (s.clarifications.find? id = none ∧ clar.resumeRequestedAt = none) ∨
      ∃ clar₀, s.clarifications.find? id = some clar₀ ∧
        clar.resumeRequestedAt = clar₀.resumeRequestedAt

theorem MarkersKept.of_eq (h : t.clarifications = s.clarifications) : MarkersKept s t := by
  intro id clar hc
  rw [h] at hc
  exact Or.inr ⟨clar, hc, rfl⟩

theorem MarkersKept.modify {k : Uuid} {f : Clarification → Clarification}
    (h : t.clarifications = s.clarifications.modify k f)
    (hf : ∀ clar, (f clar).resumeRequestedAt = clar.resumeRequestedAt) : MarkersKept s t := by
  intro id clar hc
  rw [h] at hc
  rcases Table.exists_of_find?_modify hc with ⟨clar₀, hc₀, rfl⟩
  refine Or.inr ⟨clar₀, hc₀, ?_⟩
  split_ifs with hid
  · exact hf clar₀
  · rfl

theorem MarkersKept.insert {k : Uuid} {x : Clarification}
    (h : t.clarifications = s.clarifications.insert k x) (hk : s.clarifications.find? k = none)
    (hx : x.resumeRequestedAt = none) : MarkersKept s t := by
  intro id clar hc
  rw [h] at hc
  rcases (Table.puts_insert _ k x).find hc with ⟨rfl, rfl⟩ | ⟨-, hc⟩
  · exact Or.inl ⟨hk, hx⟩
  · exact Or.inr ⟨clar, hc, rfl⟩

/-- The event is the command to execute the resume request `id`. -/
def OutboxEvent.Commands (o : OutboxEvent) (id : Uuid) : Prop :=
  o.eventType = .resumeExecutionRequested ∧
    o.payload.lookup "resume_request_id" = some (.id id)

/-- The transaction has prepared the execution of the request `id`: the authorization is
consumed, the command is in the outbox, and the request waits for its outcome. -/
structure Prepared (s t : Db) (id eventId : Uuid) (rr : ResumeRequest) (now : Time) : Prop where
  request : s.resumeRequests.find? id = some rr
  state : rr.state = .authorized
  in_force : ∃ clar task, s.clarifications.find? rr.clarificationId = some clar ∧
    s.tasks.find? rr.taskId = some task ∧
    resourceStateVersion clar task = rr.resourceStateVersion
  check : (rr.executionPendingRow eventId now).check = true
  rows : s.resumeRequests.Puts t.resumeRequests id (rr.executionPendingRow eventId now)
  consumed : ∃ a, t.authorizations.find? rr.authorizationId = some a ∧ a.consumedAt ≠ none ∧
    a.active = false
  absent : s.outbox.find? eventId = none
  command : ∃ o, s.outbox.Puts t.outbox eventId o ∧ o.Commands id
  markers : MarkersKept s t

/-- What a transaction may do to resume requests and markers. -/
inductive ResumeStep (Inv : Db → Prop) (s t : Db) : Prop where
  | other (hrows : t.resumeRequests = s.resumeRequests) (hmarkers : MarkersKept s t)
  | requested {id : Uuid} {row : ResumeRequest} {clar : Clarification} {task : Task}
      {requestedBy : String} {now : Time}
      (hc : s.clarifications.find? row.clarificationId = some clar)
      (ht : s.tasks.find? clar.taskId = some task) (htask : row.taskId = clar.taskId)
      (hmarker : clar.resumeRequestedAt = none)
      (hversion : row.resourceStateVersion = resourceStateVersion clar task)
      (hnew : row.asRequested = row) (habsent : s.resumeRequests.find? id = none)
      (hcheck : row.check = true) (hrows : s.resumeRequests.Puts t.resumeRequests id row)
      (hclars : s.clarifications.Puts t.clarifications row.clarificationId
        (clar.claimedRow requestedBy now))
  | late {cid id : Uuid} {clar : Clarification} {a : Authorization} {t₁ : Db}
      (hc : s.clarifications.find? cid = some clar) (hmarker : clar.resumeRequestedAt = none)
      (hinv : Inv t₁) (hc₁ : t₁.clarifications.find? cid = some clar)
      (ha : t₁.authorizations.find? id = some a) (hactive : a.active = true)
      (htype : a.actionType = .resume) (hresource : a.resourceId = cid)
      (hrows : t.resumeRequests = s.resumeRequests)
  | authorized {id : Uuid} {rr : ResumeRequest} {now : Time}
      (hrr : s.resumeRequests.find? id = some rr) (hstate : rr.state = .authorizationPending)
      (hcheck : (rr.authorizedRow now).check = true)
      (hrows : s.resumeRequests.Puts t.resumeRequests id (rr.authorizedRow now))
      (hmarkers : MarkersKept s t)
  | declined {id : Uuid} {rr rr' : ResumeRequest}
      (hrr : s.resumeRequests.find? id = some rr) (hstate : rr.state = .authorizationPending)
      (hkept : Kept ResumeRequest.asRequested rr rr')
      (hstate' : rr'.state = .rejected ∨ rr'.state = .canceled) (hcheck : rr'.check = true)
      (hrows : s.resumeRequests.Puts t.resumeRequests id rr')
      (hinactive : ∀ a, t.authorizations.find? rr.authorizationId = some a → a.active = false)
      (hclars : t.clarifications =
          s.clarifications.modify rr.clarificationId Clarification.releasedRow ∨
        t.clarifications = s.clarifications ∧ ∃ t₁, Inv t₁ ∧
          t₁.resumeRequests.find? id = some rr ∧
          t₁.clarifications.find? rr.clarificationId = none)
  | prepared {id eventId : Uuid} {rr : ResumeRequest} {now : Time}
      (h : Prepared s t id eventId rr now)
  | confirmed {id : Uuid} {rr rr' : ResumeRequest}
      (hrr : s.resumeRequests.find? id = some rr) (hstate : rr.state = .executionPending)
      (hkept : Kept ResumeRequest.asRequested rr rr') (hcommand : rr'.commandId = rr.commandId)
      (hstate' : rr'.state = .resumed ∨ rr'.state = .failed) (hcheck : rr'.check = true)
      (hrows : s.resumeRequests.Puts t.resumeRequests id rr') (hmarkers : MarkersKept s t)
  | expired {ids : List Uuid} {now : Time}
      (h : ∀ k ∈ ids, ∃ rr, s.resumeRequests.find? k = some rr ∧ rr.expirable = true ∧
        (rr.expiredRow now).check = true)
      (hrows : ∀ k, t.resumeRequests.find? k = if k ∈ ids then
        (s.resumeRequests.find? k).map (ResumeRequest.expiredRow now)
          else s.resumeRequests.find? k)
      (hmarkers : MarkersKept s t)

theorem Consumption.row_after {id : Uuid} {actor : Actor} {scope : Scope} {version : String}
    {u : Db → Db} (h : Consumption s id actor scope version u) :
    ∃ a, (u s).authorizations.find? id = some a ∧ a.consumedAt ≠ none := by
  rcases h.row with ⟨now, a, hcons, hrows⟩
  refine ⟨a.consumedRow actor.principalId now, ?_, by simp [Authorization.consumedRow]⟩
  rw [hrows, Table.find?_modify_self, hcons.row, Option.map_some]

/-- A row that has been declined is not active. -/
theorem Decides.inactive {op : SimpleOp} {id : Uuid} {actor : Actor} {scope : Scope} {now : Time}
    {a : Authorization} (h : Decides s op id actor scope now a) :
    ((op.row actor now) a).active = false := by
  cases op <;> simp [SimpleOp.row, Authorization.active, Authorization.declinedRow,
    Authorization.revokedRow]

theorem prepared_of_effect {eventId id : Uuid} {actor : Actor} {scope : Scope} {eventKey : String}
    {now₁ now₂ : Time} {rr : ResumeRequest} {clar : Clarification} {task : Task} {u : Db → Db}
    (h : ResumeLocked s id scope rr clar task) (hstate : rr.state = .authorized)
    (hauth : Consumption s rr.authorizationId actor scope rr.resourceStateVersion u)
    (hcheck : (rr.executionPendingRow eventId now₂).check = true)
    (hemit : Emits s eventId (newOutboxEvent rr.clarificationId rr.taskId
      .resumeExecutionRequested eventKey
      [("resume_request_id", .id id), ("authorization_id", .id rr.authorizationId),
        ("resource_state_version", .text rr.resourceStateVersion)] now₁)) :
    Prepared s
      (At.resumeRequests.modify id (ResumeRequest.executionPendingRow eventId now₂)
        (At.outbox.insert eventId (newOutboxEvent rr.clarificationId rr.taskId
            .resumeExecutionRequested eventKey
            [("resume_request_id", .id id), ("authorization_id", .id rr.authorizationId),
              ("resource_state_version", .text rr.resourceStateVersion)] now₁)
          (u s))) id eventId rr now₂ := by
  rcases hauth.row_after with ⟨a, ha, hcons⟩
  have hinactive : a.active = false := by
    cases hat : a.consumedAt with
    | none => exact absurd hat hcons
    | some _ => simp [Authorization.active, hat]
  rcases hauth.frame s with ⟨-, -, hclars, hbox, hrows, -⟩
  have hrr : (u s).resumeRequests.find? id = some rr := by
    rw [hrows]
    exact h.request
  have hcommand : OutboxEvent.Commands (newOutboxEvent rr.clarificationId rr.taskId
      .resumeExecutionRequested eventKey
      [("resume_request_id", .id id), ("authorization_id", .id rr.authorizationId),
        ("resource_state_version", .text rr.resourceStateVersion)] now₁) id := by
    constructor
    · rfl
    · simp [newOutboxEvent]
  refine ⟨h.request, hstate, ⟨clar, task, h.clarification, h.task_row, h.version⟩, hcheck, ?_,
    ⟨a, ha, hcons, hinactive⟩, hemit.absent, ⟨_, ?_, hcommand⟩, .of_eq hclars⟩
  · rw [← hrows]
    exact Table.puts_modify hrr _
  · rw [← hbox]
    exact Table.puts_insert _ _ _

/-- Whatever else an effect does, this is its step. -/
theorem Effect.resumeStep (h : Effect cfg Inv c r s t) : ResumeStep Inv s t := by
  cases h with
  | quiet _ => exact .other rfl (.of_eq rfl)
  | ticked _ => exact .other rfl (.of_eq rfl)
  | taskSaved _ _ => exact .other rfl (.of_eq rfl)
  | madeEligible _ _ _ => exact .other rfl (.modify rfl fun _ => rfl)
  | requested _ => exact .other rfl (.of_eq rfl)
  | authorized _ => exact .other rfl (.of_eq rfl)
  | decided _ => exact .other rfl (.of_eq rfl)
  | consumed h =>
    cases h with
    | plain _ _ => exact .other rfl (.of_eq rfl)
    | approved _ _ _ _ => exact .other rfl (.of_eq rfl)
  | authorizationsExpired _ _ _ =>
    exact .other (TableAt.modifyAll_frame (fun _ _ => rfl) _ _)
      (.of_eq (TableAt.modifyAll_frame (fun _ _ => rfl) _ _))
  | granted _ _ => exact .other rfl (.of_eq rfl)
  | approvalRevoked _ _ _ => exact .other rfl (.of_eq rfl)
  | @resumeRequested _ _ _ _ _ _ _ _ _ _ _ _ _ _ _ clar task _ u row hc ht _ hmarker hauth hrow
      habsent _ _ hcheck _ _ =>
    subst hrow
    cases hauth with
    | new _ =>
      exact .requested hc ht rfl hmarker rfl rfl habsent hcheck (Table.puts_insert _ _ _)
        (Table.puts_modify hc _)
    | same_key _ _ =>
      exact .requested hc ht rfl hmarker rfl rfl habsent hcheck (Table.puts_insert _ _ _)
        (Table.puts_modify hc _)
  | resumeRefused _ _ => exact .other rfl (.of_eq rfl)
  | resumeLate hc hinv hc₁ hmarker ha hactive =>
    simp only [Bool.and_eq_true, beq_iff_eq] at hactive
    exact .late hc hmarker hinv hc₁ ha hactive.1.1 hactive.1.2 hactive.2 rfl
  | resumeAuthorized h hstate _ hmark hcheck _ =>
    rcases hmark with rfl | rfl
    · exact .authorized h.request hstate hcheck (Table.puts_modify h.request _) (.of_eq rfl)
    · exact .authorized h.request hstate hcheck (Table.puts_modify h.request _)
        (.modify rfl fun _ => rfl)
  | @resumeDeclined _ _ _ _ _ actor _ op set _ _ now now₁ _ rr a _ v hc hrr _ hstate hauth hrelease
      hcheck _ =>
    have hkept : Kept ResumeRequest.asRequested rr (set now₁ rr) := by
      cases hc <;> rfl
    have hend : (set now₁ rr).state = .rejected ∨ (set now₁ rr).state = .canceled := by
      cases hc with
      | reject => exact Or.inl rfl
      | cancel => exact Or.inr rfl
    have hdecided : ∀ b, (s.authorizations.modify rr.authorizationId (op.row actor now)).find?
        rr.authorizationId = some b → b.active = false := by
      intro b hb
      rw [Table.find?_modify_self, hauth.row, Option.map_some, Option.some.injEq] at hb
      rw [← hb]
      exact hauth.inactive
    rcases hrelease with rfl | ⟨rfl, t₁, hinv, hrr₁, hnone⟩
    · exact .declined hrr hstate hkept hend hcheck (Table.puts_modify hrr _) hdecided (Or.inl rfl)
    · exact .declined hrr hstate hkept hend hcheck (Table.puts_modify hrr _) hdecided
        (Or.inr ⟨rfl, t₁, hinv, hrr₁, hnone⟩)
  | executionPrepared h hstate hauth hcheck hemit =>
    exact .prepared (prepared_of_effect h hstate hauth hcheck hemit)
  | @resumeConfirmed _ _ _ _ _ _ set _ _ now _ rr _ hc hrr hstate _ hcheck _ =>
    have hkept : Kept ResumeRequest.asRequested rr (set now rr) := by
      cases hc <;> rfl
    have hcommand : (set now rr).commandId = rr.commandId := by
      cases hc <;> rfl
    have hend : (set now rr).state = .resumed ∨ (set now rr).state = .failed := by
      cases hc with
      | resumed => exact Or.inl rfl
      | failed => exact Or.inr rfl
    exact .confirmed hrr hstate hkept hcommand hend hcheck (Table.puts_modify hrr _) (.of_eq rfl)
  | resumesExpired hnd _ h =>
    refine .expired h (fun k => ?_) (.of_eq (TableAt.modifyAll_frame (fun _ _ => rfl) _ _))
    exact TableAt.find?_modifyAll (T := At.resumeRequests) _ hnd k s
  | replayRequested _ _ _ hauth _ _ _ _ _ _ _ _ _ _ =>
    cases hauth with
    | new _ => exact .other rfl (.of_eq rfl)
    | same_key _ _ => exact .other rfl (.of_eq rfl)
  | replayAuthorized _ _ _ _ _ _ _ _ _ => exact .other rfl (.of_eq rfl)
  | replayDeclined _ _ _ _ _ _ _ => exact .other rfl (.of_eq rfl)
  | replayBlocked _ _ => exact .other rfl (.of_eq rfl)
  | replayExecuted _ _ _ _ _ _ hauth _ _ _ =>
    cases hauth with
    | plain _ _ => exact .other rfl (.of_eq rfl)
    | approved _ _ _ _ => exact .other rfl (.of_eq rfl)
  | replaysExpired _ _ _ =>
    exact .other (TableAt.modifyAll_frame (fun _ _ => rfl) _ _)
      (.of_eq (TableAt.modifyAll_frame (fun _ _ => rfl) _ _))
  | published _ _ _ _ => exact .other rfl (.of_eq rfl)
  | retried _ _ _ _ _ => exact .other rfl (.of_eq rfl)
  | died _ _ _ _ _ => exact .other rfl (.of_eq rfl)
  | revived _ _ => exact .other rfl (.of_eq rfl)
  | emitted _ => exact .other rfl (.of_eq rfl)
  | clarificationCreated habsent => exact .other rfl (.insert rfl habsent rfl)
  | taskOpened _ => exact .other rfl (.of_eq rfl)
  | answered _ _ _ _ _ => exact .other rfl (.modify rfl fun _ => rfl)
  | messaged _ _ => exact .other rfl (.modify rfl fun _ => rfl)
  | taskAnswered _ => exact .other rfl (.of_eq rfl)
  | reminded _ _ _ => exact .other rfl (.modify rfl fun _ => rfl)
  | clarificationExpired _ _ _ _ _ _ _ => exact .other rfl (.modify rfl fun _ => rfl)

end AiAgentsSwd.Tasks
