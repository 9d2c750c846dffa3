import AiAgentsSwd.Tasks.Alone
import AiAgentsSwd.Tasks.ReplayEpisodes

/-!
# Tasks.ReplayBlocked — an authorized replay whose destination is not ready

What one execution of an authorized replay does while its destination is not ready, and what the
first one does after it is. A blocked attempt leaves an event behind whose key names the kind of
unreadiness, so that a second attempt of the same kind finds the key taken and raises
(`retried_iff`).
-/

namespace AiAgentsSwd.Tasks

open Keyed (Table)
open Planning (Uuid Time)
open ReadCommitted Txn

variable {s : Db}

/-! ## One execution -/

/-- The key of the event that a blocked attempt leaves. -/
def blockedKey (id : Uuid) (rr : ReplayRequest) (kind : Readiness) : String :=
  "replay-blocked:" ++ toString rr.outboxEventId ++ ":" ++ toString id ++ ":" ++ toString kind

/-- The key of the event of an execution. -/
def executedKey (id : Uuid) (rr : ReplayRequest) : String :=
  "replay-executed:" ++ toString rr.outboxEventId ++ ":" ++ toString id

/-- The denial of a blocked attempt. -/
def blockedDenial : ReplayResult := .deny .destinationUnavailable .destinationUnavailable

/-- The event of the request is dead, in the episode the request is bound to. -/
def InEpisode (s : Db) (rr : ReplayRequest) (o : OutboxEvent) : Prop :=
  s.outbox.find? rr.outboxEventId = some o ∧ deadEligibilityDenial o = none ∧
    o.episode = some rr.resourceStateVersion

/-- Everything an execution checks, the destination apart, lets it pass. -/
structure Executable (s : Db) (id : Uuid) (actor : Actor) (scope : Scope) (rr : ReplayRequest) :
    Prop where
  in_scope : inScope scope rr.scope = true
  episode : ∃ o, InEpisode s rr o ∧ (o.replayedRow o.attempts s.now).check = true
  usable : ∃ a, Usable s rr.authorizationId actor scope rr.resourceStateVersion a
  check : (rr.executedRow s.now).check = true
  key_free : ¬KeyTaken s (executedKey id rr)

/-- The request is there and authorized. -/
structure AuthorizedRequest (s : Db) (id : Uuid) (rr : ReplayRequest) : Prop where
  row : s.replayRequests.find? id = some rr
  state : rr.state = .authorized

variable {cfg : Settings} {eventId id : Uuid} {actor : Actor} {scope : Scope}
  {provider : Destination → Readiness} {rr : ReplayRequest} {o : OutboxEvent}

/-- The event of a blocked attempt. -/
def blockedEvent (id : Uuid) (rr : ReplayRequest) (o : OutboxEvent) (kind : Readiness)
    (now : Time) : OutboxEvent :=
  newOutboxEvent o.clarificationId o.taskId .replayExecutionBlocked (blockedKey id rr kind)
    [("replay_request_id", .id id), ("reason", .text "destination_unavailable")] now

theorem blank_append {x y : String} (h : blank x = false) : blank (x ++ y) = false := by
  unfold blank at h ⊢
  rw [String.toList_append, List.all_append, h, Bool.false_and]

theorem blank_blockedKey (kind : Readiness) : blank (blockedKey id rr kind) = false := by
  have hprefix : blank "replay-blocked:" = false := by decide +kernel
  exact blank_append (blank_append (blank_append (blank_append (blank_append hprefix))))

theorem blank_executedKey : blank (executedKey id rr) = false := by
  have hprefix : blank "replay-executed:" = false := by decide +kernel
  exact blank_append (blank_append (blank_append hprefix))

theorem run_episodeOf {version : String} (h : o.episode = some version) :
    (episodeOf o).run s = .ok (version, s) := by
  unfold episodeOf
  rw [h]
  rfl

/-- A blocked attempt leaves its event, and nothing else. -/
theorem run_execute_blocked (hgate : cfg.replayExecutionEnabled = true)
    (hrr : AuthorizedRequest s id rr) (hscope : inScope scope rr.scope = true)
    (ho : InEpisode s rr o)
    (hready : provider rr.destination ≠ .ready) (hid : s.outbox.find? eventId = none)
    (hfree : ¬KeyTaken s (blockedKey id rr (provider rr.destination))) :
    (executeAuthorizedReplay cfg eventId id actor scope provider).run s =
      .ok (blockedDenial, At.outbox.insert eventId
        (blockedEvent id rr o (provider rr.destination) s.now) s) := by
  have hlock : (lockReplayRequest id scope).run s = .ok (some rr, s) :=
    TableAt.run_selectForUpdate_of_find hrr.row hscope
  have hevent : (lockOutboxEvent rr.outboxEventId).run s = .ok (some o, s) :=
    TableAt.run_selectForUpdate_of_find ho.1 rfl
  have hemit : (insertLifecycleOutboxEvent eventId o.clarificationId o.taskId
      .replayExecutionBlocked (blockedKey id rr (provider rr.destination))
      [("replay_request_id", .id id), ("reason", .text "destination_unavailable")]).run s =
        .ok ((eventId, blockedEvent id rr o (provider rr.destination) s.now),
          At.outbox.insert eventId
            (blockedEvent id rr o (provider rr.destination) s.now) s) := by
    rw [keyTaken_iff] at hfree
    rw [run_insertLifecycleOutboxEvent hid (blank_blockedKey _), if_neg hfree]
    rfl
  unfold blockedKey at hemit
  unfold executeAuthorizedReplay
  simp only [hgate, bind_eq, pure_eq, Bool.not_true, Bool.false_eq_true, if_false, run_bind, hlock,
    andThen_ok, hrr.state, ne_eq, not_true_eq_false, hevent, ho.2.1, run_episodeOf ho.2.2, hready,
    not_false_eq_true, if_true, hemit, run_done]
  rfl

theorem leaves_episodeOf {P : String → Db → Prop} (h : ∀ version, o.episode = some version →
    P version s) : (episodeOf o).Leaves s P := by
  unfold episodeOf
  cases hversion : o.episode with
  | none => exact leaves_raise
  | some version => exact leaves_done (h version hversion)

/-- A row of the outbox was rewritten in place, and the requests and the clock are as before. -/
structure Rewritten (s t : Db) : Prop where
  key_taken : ∀ key, KeyTaken s key → KeyTaken t key
  replayRequests : t.replayRequests = s.replayRequests
  now : t.now = s.now

theorem keyTaken_modify {j : Uuid} {f : OutboxEvent → OutboxEvent} {key : String}
    (hf : ∀ o, (f o).idempotencyKey = o.idempotencyKey) :
    KeyTaken s key → KeyTaken (At.outbox.modify j f s) key := by
  rintro ⟨i, o, ho, hkey⟩
  have hget : (At.outbox.modify j f s).outbox.find? i = (s.outbox.modify j f).find? i := rfl
  by_cases hi : i = j
  · refine ⟨i, f o, ?_, (hf o).trans hkey⟩
    rw [hget, hi, Table.find?_modify, if_pos rfl, ← hi, ho]
    rfl
  · refine ⟨i, o, ?_, hkey⟩
    rw [hget, Table.find?_modify, if_neg hi, ho]

/-- The dead row of the request goes back to the queue. -/
theorem leaves_replayDeadRow {j : Uuid} {version : String} :
    (replayDeadRow j version).Leaves s fun b t => b ≠ none →
      (∃ o, s.outbox.find? j = some o ∧ (o.replayedRow o.attempts s.now).check = true) ∧
        Rewritten s t := by
  have hnone : (Txn.done none : TaskTxn (Option OutboxEvent)).Leaves s fun b t => b ≠ none →
      (∃ o, s.outbox.find? j = some o ∧ (o.replayedRow o.attempts s.now).check = true) ∧
        Rewritten s t := by
    refine leaves_done ?_
    intro hsome
    exact absurd rfl hsome
  unfold replayDeadRow
  refine Leaves.bind
    (Q := fun b t => b = (s.outbox.find? j).filter (fun o => o.status == .dead) ∧ t = s)
    (TableAt.leaves_selectForUpdate ⟨rfl, rfl⟩) ?_
  rintro b t ⟨hb, ht⟩
  rw [ht]
  cases b with
  | none => exact hnone
  | some row =>
    have hrow : s.outbox.find? j = some row := (Option.filter_eq_some_iff.mp hb.symm).1
    refine Leaves.bind (Q := fun _ t => t = s) (leaves_episodeOf fun _ _ => rfl) ?_
    intro current t ht
    rw [ht]
    refine leaves_ite (fun _ => hnone) fun _ => ?_
    unfold updateOutbox
    refine Leaves.bind
      (leaves_statementTimestamp (P := fun b t => b = s.now ∧ t = s) ⟨rfl, rfl⟩) ?_
    rintro now t ⟨hnow, ht⟩
    rw [hnow, ht]
    refine TableAt.leaves_update ?_ ?_
    · intro _ hsome
      exact absurd rfl hsome
    · intro o ho _ hcheck _
      have hsame : row = o := Option.some.inj (hrow.symm.trans ho)
      rw [hsame] at hcheck ⊢
      exact ⟨⟨o, ho, hcheck⟩, fun key => keyTaken_modify fun _ => rfl, rfl, rfl⟩

theorem leaves_transitionReplayRequest {source : ReplayState}
    {set : Time → ReplayRequest → ReplayRequest} :
    (transitionReplayRequest id source scope set).Leaves s fun b t => b ≠ none →
      (∃ r, s.replayRequests.find? id = some r ∧ (set s.now r).check = true) ∧
        t.outbox = s.outbox := by
  unfold transitionReplayRequest
  refine Leaves.bind (leaves_statementTimestamp (P := fun b t => b = s.now ∧ t = s) ⟨rfl, rfl⟩) ?_
  rintro now t ⟨hnow, ht⟩
  rw [hnow, ht]
  refine TableAt.leaves_update ?_ ?_
  · intro _ hsome
    exact absurd rfl hsome
  · intro r hr _ hcheck _
    exact ⟨⟨r, hr, hcheck⟩, rfl⟩

/-- What an execution says about the state it found: without a ready destination it denies for
another reason and leaves nothing, or leaves the event of a blocked attempt; with one, its
success says that nothing stood in its way. -/
theorem leaves_execute (hrr : AuthorizedRequest s id rr) :
    (executeAuthorizedReplay cfg eventId id actor scope provider).Leaves s fun r t =>
      (provider rr.destination ≠ .ready → (r ≠ blockedDenial ∧ t = s) ∨
        r = blockedDenial ∧ ∃ o, InEpisode s rr o ∧
        ¬KeyTaken s (blockedKey id rr (provider rr.destination)) ∧
        t = At.outbox.insert eventId (blockedEvent id rr o (provider rr.destination) s.now) s) ∧
      (provider rr.destination = .ready → r.ok = true → Executable s id actor scope rr) := by
  have hdenied : ∀ {r : ReplayResult}, r.ok = false → r.resultKind ≠ .destinationUnavailable →
      (Txn.done r : TaskTxn ReplayResult).Leaves s fun r t =>
        (provider rr.destination ≠ .ready → (r ≠ blockedDenial ∧ t = s) ∨
          r = blockedDenial ∧ ∃ o, InEpisode s rr o ∧
          ¬KeyTaken s (blockedKey id rr (provider rr.destination)) ∧
          t = At.outbox.insert eventId (blockedEvent id rr o (provider rr.destination) s.now) s) ∧
        (provider rr.destination = .ready → r.ok = true → Executable s id actor scope rr) := by
    intro r hok hne
    refine leaves_done ⟨fun _ => Or.inl ⟨fun h => ?_, rfl⟩, ?_⟩
    · exact hne (congrArg ReplayResult.resultKind h)
    intro _ h
    rw [hok] at h
    cases h
  unfold executeAuthorizedReplay
  simp only [bind_eq, pure_eq]
  refine leaves_ite (fun _ => hdenied rfl (by decide)) fun _ => ?_
  refine Leaves.bind
    (Q := fun b t => b = (some rr).filter (fun r => inScope scope r.scope) ∧ t = s) ?_ ?_
  · refine TableAt.leaves_selectForUpdate ⟨?_, rfl⟩
    have hrow : (At.replayRequests.get s).find? id = some rr := hrr.row
    rw [hrow]
  rintro b t ⟨hb, ht⟩
  rw [ht]
  by_cases hscope : inScope scope rr.scope = true
  swap
  · rw [hb, Option.filter_some, if_neg hscope]
    exact hdenied rfl (by decide)
  rw [hb, Option.filter_some, if_pos hscope]
  refine leaves_ite (fun hno => absurd hrr.state hno) fun _ => ?_
  refine Leaves.bind
    (Q := fun b t => b = (s.outbox.find? rr.outboxEventId).filter (fun _ => true) ∧ t = s)
    (TableAt.leaves_selectForUpdate ⟨rfl, rfl⟩) ?_
  rintro b t ⟨hb, ht⟩
  rw [ht]
  cases b with
  | none => exact hdenied rfl (by decide)
  | some o =>
    have ho : s.outbox.find? rr.outboxEventId = some o :=
      (Option.filter_eq_some_iff.mp hb.symm).1
    cases hdead : deadEligibilityDenial o with
    | some reason =>
      simp only [hdead]
      refine hdenied rfl ?_
      intro h
      cases h
    | none =>
      simp only [hdead]
      refine Leaves.bind (Q := fun b t => o.episode = some b ∧ t = s)
        (leaves_episodeOf fun _ hversion => ⟨hversion, rfl⟩) ?_
      rintro version t ⟨hversion, ht⟩
      rw [ht]
      refine leaves_ite (fun _ => hdenied rfl (by decide)) fun hsame => ?_
      rw [not_not] at hsame
      have hin : InEpisode s rr o := ⟨ho, hdead, hversion.trans (congrArg some hsame)⟩
      refine leaves_ite ?_ ?_
      · intro hready
        refine Leaves.bind leaves_insertLifecycleOutboxEvent ?_
        rintro b t ⟨hfree, ht⟩
        exact leaves_done ⟨fun _ => Or.inr ⟨rfl, o, hin, hfree, ht⟩, fun h => absurd h hready⟩
      · intro hready
        refine Leaves.bind leaves_consume ?_
        intro consumed t hconsumed
        refine leaves_ite ?_ ?_
        · intro hno
          refine leaves_done ⟨fun h => absurd h hready, ?_⟩
          intro _ hok
          cases hok
        intro hyes
        rw [Bool.not_eq_true, Bool.not_eq_false'] at hyes
        rcases hconsumed hyes with ⟨⟨a, ha⟩, hkeep⟩
        refine Leaves.bind leaves_replayDeadRow ?_
        intro b u hu
        cases b with
        | none => exact leaves_raise
        | some row =>
          rcases hu (Option.some_ne_none row) with ⟨⟨o', ho', hcheck⟩, hwritten⟩
          refine Leaves.bind leaves_transitionReplayRequest ?_
          intro b v hv
          cases b with
          | none => exact leaves_raise
          | some updated =>
            rcases hv (Option.some_ne_none updated) with ⟨⟨r, hr, hrcheck⟩, hbox⟩
            refine Leaves.bind leaves_insertLifecycleOutboxEvent ?_
            rintro _ _ ⟨hfree, -⟩
            refine leaves_done ⟨fun h => absurd h hready, fun _ _ => ?_⟩
            -- the rows that were written are the rows that were read
            rw [hkeep.outbox, ho, Option.some.injEq] at ho'
            rw [hwritten.replayRequests, hkeep.replayRequests, hrr.row, Option.some.injEq] at hr
            rw [← ho', hkeep.now] at hcheck
            rw [← hr, hwritten.now, hkeep.now] at hrcheck
            refine ⟨hscope, ⟨o, hin, hcheck⟩, ⟨a, ha⟩, hrcheck, ?_⟩
            rintro ⟨i, x, hx, hkey⟩
            have htaken : KeyTaken u (executedKey id rr) := by
              refine hwritten.key_taken _ ⟨i, x, ?_, hkey⟩
              rw [hkeep.outbox]
              exact hx
            rcases htaken with ⟨i, x, hx, hkey⟩
            refine hfree ⟨i, x, ?_, hkey⟩
            rw [hbox]
            exact hx

/-- The dead row of an episode goes back to the queue. -/
theorem run_replayDeadRow {t : Db} (hin : InEpisode s rr o)
    (hcheck : (o.replayedRow o.attempts s.now).check = true) (hbox : t.outbox = s.outbox)
    (hnow : t.now = s.now) :
    (replayDeadRow rr.outboxEventId rr.resourceStateVersion).run t =
      .ok (some (o.replayedRow o.attempts s.now),
        At.outbox.modify rr.outboxEventId (OutboxEvent.replayedRow o.attempts s.now) t) := by
  have hrow : (At.outbox.get t).find? rr.outboxEventId = some o := by
    have hget : At.outbox.get t = s.outbox := hbox
    rw [hget]
    exact hin.1
  have hdead : (o.status == OutboxStatus.dead) = true := beq_iff_eq.mpr (dead_of_eligible hin.2.1)
  have hlock : (At.outbox.selectForUpdate rr.outboxEventId (fun o => o.status == .dead) :
      TaskTxn (Option OutboxEvent)).run t = .ok (some o, t) :=
    TableAt.run_selectForUpdate_of_find hrow hdead
  have hupdate : (updateOutbox rr.outboxEventId (OutboxEvent.replayedRow
      (planReplayState o.attempts))).run t = .ok (some (o.replayedRow o.attempts s.now),
        At.outbox.modify rr.outboxEventId (OutboxEvent.replayedRow o.attempts s.now) t) := by
    unfold updateOutbox
    rw [bind_eq, run_bind, run_statementTimestamp, andThen_ok,
      TableAt.run_update_of_find hrow rfl, hnow]
    exact if_pos hcheck
  unfold replayDeadRow
  simp only [bind_eq, pure_eq, run_bind, hlock, andThen_ok, run_episodeOf hin.2.2, ne_eq,
    not_true_eq_false, if_false, hupdate]

/-- With its destination ready, a request that is executable is executed. -/
theorem run_execute_ready (hgate : cfg.replayExecutionEnabled = true)
    (hrr : AuthorizedRequest s id rr) (hexec : Executable s id actor scope rr)
    (hready : provider rr.destination = .ready) (hid : s.outbox.find? eventId = none) :
    ∃ r t, (executeAuthorizedReplay cfg eventId id actor scope provider).run s = .ok (r, t) ∧
      r.ok = true := by
  rcases hexec with ⟨hscope, ⟨o, hin, hcheck⟩, ⟨a, ha⟩, hrcheck, hfree⟩
  rcases run_consume ha with ⟨consumed, t, hconsume, hok, hkeep⟩
  have hlock : (lockReplayRequest id scope).run s = .ok (some rr, s) :=
    TableAt.run_selectForUpdate_of_find hrr.row hscope
  have hevent : (lockOutboxEvent rr.outboxEventId).run s = .ok (some o, s) :=
    TableAt.run_selectForUpdate_of_find hin.1 rfl
  have hreplay := run_replayDeadRow hin hcheck hkeep.outbox hkeep.now
  -- the states after the two row updates
  obtain ⟨u, hu⟩ : ∃ u, At.outbox.modify rr.outboxEventId
      (OutboxEvent.replayedRow o.attempts s.now) t = u := ⟨_, rfl⟩
  obtain ⟨v, hv⟩ : ∃ v, At.replayRequests.modify id (ReplayRequest.executedRow s.now) u = v :=
    ⟨_, rfl⟩
  rw [hu] at hreplay
  have htransition : (transitionReplayRequest id .authorized scope ReplayRequest.executedRow).run u
      = .ok (some (rr.executedRow s.now), v) := by
    have hrow : (At.replayRequests.get u).find? id = some rr := by
      have hget : At.replayRequests.get u = t.replayRequests := by
        rw [← hu]
        rfl
      rw [hget, hkeep.replayRequests]
      exact hrr.row
    have hguard : (rr.state == ReplayState.authorized && inScope scope rr.scope) = true := by
      rw [hrr.state, hscope]
      rfl
    have hnow : u.now = s.now := by
      rw [← hu]
      exact hkeep.now
    unfold transitionReplayRequest
    rw [bind_eq, run_bind, run_statementTimestamp, andThen_ok,
      TableAt.run_update_of_find hrow hguard, hnow, if_pos hrcheck, hv]
  have hbox : v.outbox = s.outbox.modify rr.outboxEventId
      (OutboxEvent.replayedRow o.attempts s.now) := by
    rw [← hv, ← hu, ← hkeep.outbox]
    rfl
  have hemit : ∃ b w, (insertLifecycleOutboxEvent eventId o.clarificationId o.taskId
      .replayExecuted (executedKey id rr) [("replay_request_id", .id id),
        ("outbox_event_id", .id rr.outboxEventId)]).run v = .ok (b, w) := by
    have hfresh : v.outbox.find? eventId = none := by
      rw [hbox, Table.find?_modify]
      by_cases hi : eventId = rr.outboxEventId
      · rw [if_pos hi, ← hi, hid]
        rfl
      · rw [if_neg hi, hid]
    have hfree' : ¬KeyTaken v (executedKey id rr) := by
      rintro ⟨i, x, hx, hkey⟩
      rw [hbox, Table.find?_modify] at hx
      by_cases hi : i = rr.outboxEventId
      · rw [if_pos hi, hin.1, Option.map_some, Option.some.injEq] at hx
        rw [← hx] at hkey
        exact hfree ⟨rr.outboxEventId, o, hin.1, hkey⟩
      · rw [if_neg hi] at hx
        exact hfree ⟨i, x, hx, hkey⟩
    rw [keyTaken_iff] at hfree'
    rw [run_insertLifecycleOutboxEvent hfresh blank_executedKey, if_neg hfree']
    exact ⟨_, _, rfl⟩
  rcases hemit with ⟨b, w, hemit⟩
  unfold executedKey at hemit
  refine ⟨⟨true, .ok, .policyAllow, some (id, rr.executedRow s.now)⟩, w, ?_, rfl⟩
  unfold executeAuthorizedReplay
  simp only [hgate, bind_eq, pure_eq, Bool.not_true, Bool.false_eq_true, if_false, run_bind, hlock,
    andThen_ok, hrr.state, ne_eq, not_true_eq_false, hevent, hin.2.1, run_episodeOf hin.2.2, hready,
    hconsume, hok, hreplay, htransition, hemit, run_done]

/-! ## A sequence of executions -/

theorem toString_readiness {kind kind' : Readiness} (h : toString kind = toString kind') :
    kind = kind' := by
  cases kind <;> cases kind' <;> first | rfl | exact absurd h (by decide)

/-- The key tells the kind. -/
theorem blockedKey_injective {kind kind' : Readiness}
    (h : blockedKey id rr kind = blockedKey id rr kind') : kind = kind' :=
  toString_readiness (String.append_right_inj _ |>.mp h)

/-- One call: the state it finds, the id it draws for its event, what the provider reports. -/
structure Attempt where
  found : Db
  eventId : Uuid
  provider : Destination → Readiness

section Calls

variable (cfg : Settings) (id : Uuid) (actor : Actor) (scope : Scope) (rr : ReplayRequest)

/-- What the call returns or raises, and the state it leaves. -/
def Attempt.call (a : Attempt) : Except Failure ReplayResult × Db :=
  Client.transact (executeAuthorizedReplay cfg a.eventId id actor scope a.provider) a.found

/-- What the provider reports for the destination of the request. -/
def Attempt.kind (a : Attempt) : Readiness := a.provider rr.destination

/-- Nobody else has touched the request, its event, or a key of its blocked attempts. -/
structure Undisturbed (s t : Db) : Prop where
  request : t.replayRequests.find? id = s.replayRequests.find? id
  event : t.outbox.find? rr.outboxEventId = s.outbox.find? rr.outboxEventId
  keys : ∀ kind, KeyTaken t (blockedKey id rr kind) ↔ KeyTaken s (blockedKey id rr kind)

/-- The calls come one after the other, whatever else goes on in between. -/
def Follow : Db → List Attempt → Prop
  | _, [] => True
  | s, a :: as =>
    Undisturbed id rr s a.found ∧ a.found.outbox.find? a.eventId = none ∧
      Follow (a.call cfg id actor scope).2 as

/-- The call is denied because the destination is unavailable, the request stays authorized, the
authorizations and the dead row are unchanged. -/
structure Blocked (a : Attempt) : Prop where
  denied : (a.call cfg id actor scope).1 = .ok blockedDenial
  request : AuthorizedRequest (a.call cfg id actor scope).2 id rr
  authorizations : (a.call cfg id actor scope).2.authorizations = a.found.authorizations
  event : (a.call cfg id actor scope).2.outbox.find? rr.outboxEventId =
    a.found.outbox.find? rr.outboxEventId

/-- Each of the calls is denied without an effect on what is replayed, and the one after them
succeeds. -/
def Retried (as : List Attempt) (b : Attempt) : Prop :=
  (∀ a ∈ as, Blocked cfg id actor scope rr a) ∧
    ∃ r, (b.call cfg id actor scope).1 = .ok r ∧ r.ok = true

end Calls

variable {a b : Attempt} {as : List Attempt}

theorem Undisturbed.refl (s : Db) : Undisturbed id rr s s := ⟨rfl, rfl, fun _ => Iff.rfl⟩

theorem Undisturbed.authorizedRequest {t : Db} (h : Undisturbed id rr s t)
    (hrr : AuthorizedRequest s id rr) : AuthorizedRequest t id rr :=
  ⟨h.request.trans hrr.row, hrr.state⟩

/-- What a call without a ready destination does: it leaves its event, or nothing at all. -/
theorem call_cases (cfg : Settings) (actor : Actor)
    (hrr : AuthorizedRequest a.found id rr) (hready : a.kind rr ≠ .ready) :
    ((a.call cfg id actor scope).1 ≠ .ok blockedDenial ∧
        (a.call cfg id actor scope).2 = a.found) ∨
      ((a.call cfg id actor scope).1 = .ok blockedDenial ∧ ∃ o, InEpisode a.found rr o ∧
        ¬KeyTaken a.found (blockedKey id rr (a.kind rr)) ∧
        (a.call cfg id actor scope).2 = At.outbox.insert a.eventId
          (blockedEvent id rr o (a.kind rr) a.found.now) a.found) := by
  cases hrun : (executeAuthorizedReplay cfg a.eventId id actor scope a.provider).run a.found with
  | error e =>
    have hcall : a.call cfg id actor scope = (.error e, a.found) := transact_of_error hrun
    rw [hcall]
    refine Or.inl ⟨?_, rfl⟩
    intro h
    cases h
  | ok x =>
    have hcall : a.call cfg id actor scope = (.ok x.1, x.2) := transact_of_ok hrun
    rw [hcall]
    rcases (leaves_execute hrr x.1 x.2 hrun).1 hready with ⟨hne, hsame⟩ | ⟨hdenial, hleft⟩
    · refine Or.inl ⟨?_, hsame⟩
      intro h
      exact hne (Except.ok.inj h)
    · exact Or.inr ⟨congrArg Except.ok hdenial, hleft⟩

/-- Such a call leaves the request, the authorizations and the event alone. -/
theorem call_keeps (cfg : Settings) (actor : Actor)
    (hrr : AuthorizedRequest a.found id rr) (hready : a.kind rr ≠ .ready)
    (hid : a.found.outbox.find? a.eventId = none) :
    AuthorizedRequest (a.call cfg id actor scope).2 id rr ∧
      (a.call cfg id actor scope).2.authorizations = a.found.authorizations ∧
      (a.call cfg id actor scope).2.outbox.find? rr.outboxEventId =
        a.found.outbox.find? rr.outboxEventId := by
  rcases call_cases cfg actor hrr hready with
    ⟨-, hsame⟩ | ⟨-, o, hin, -, hsame⟩
  · rw [hsame]
    exact ⟨hrr, rfl, rfl⟩
  · rw [hsame]
    refine ⟨⟨hrr.row, hrr.state⟩, rfl, ?_⟩
    have hne : rr.outboxEventId ≠ a.eventId := by
      intro h
      rw [← h, hin.1] at hid
      cases hid
    exact Table.find?_insert_of_ne _ _ hne

/-- The keys that are taken after a row was added. -/
theorem keyTaken_insert {s : Db} {i : Uuid} {x : OutboxEvent} {key : String}
    (hid : s.outbox.find? i = none) :
    KeyTaken (At.outbox.insert i x s) key ↔ x.idempotencyKey = key ∨ KeyTaken s key := by
  have hget : ∀ j, (At.outbox.insert i x s).outbox.find? j = (s.outbox.insert i x).find? j :=
    fun _ => rfl
  constructor
  · rintro ⟨j, y, hy, hkey⟩
    rw [hget] at hy
    by_cases hj : j = i
    · rw [hj, Table.find?_insert_self, Option.some.injEq] at hy
      exact Or.inl (hy ▸ hkey)
    · rw [Table.find?_insert_of_ne _ _ hj] at hy
      exact Or.inr ⟨j, y, hy, hkey⟩
  · rintro (hkey | ⟨j, y, hy, hkey⟩)
    · exact ⟨i, x, (hget i).trans (Table.find?_insert_self _ _ _), hkey⟩
    · refine ⟨j, y, ?_, hkey⟩
      have hj : j ≠ i := by
        intro h
        rw [h, hid] at hy
        cases hy
      rw [hget, Table.find?_insert_of_ne _ _ hj, hy]

/-- The keys of blocked attempts that are taken after a blocked call. -/
theorem keyTaken_call {kind : Readiness} (hrr : AuthorizedRequest a.found id rr)
    (hready : a.kind rr ≠ .ready) (hid : a.found.outbox.find? a.eventId = none)
    (hdenied : (a.call cfg id actor scope).1 = .ok blockedDenial) :
    KeyTaken (a.call cfg id actor scope).2 (blockedKey id rr kind) ↔
      kind = a.kind rr ∨ KeyTaken a.found (blockedKey id rr kind) := by
  rcases call_cases cfg actor hrr hready with ⟨hne, -⟩ | ⟨-, o, -, -, hleft⟩
  · exact absurd hdenied hne
  · rw [hleft, keyTaken_insert hid]
    refine or_congr ⟨fun h => (blockedKey_injective h).symm, fun h => ?_⟩ Iff.rfl
    rw [h]
    rfl

/-- As long as the destination is not ready, the event stays what it was. -/
theorem event_of_follow (hrr : AuthorizedRequest s id rr)
    (hfollow : Follow cfg id actor scope rr s (as ++ [b]))
    (hblocked : ∀ a ∈ as, a.kind rr ≠ .ready) :
    AuthorizedRequest b.found id rr ∧
      b.found.outbox.find? rr.outboxEventId = s.outbox.find? rr.outboxEventId ∧
      b.found.outbox.find? b.eventId = none := by
  induction as generalizing s with
  | nil => exact ⟨hfollow.1.authorizedRequest hrr, hfollow.1.event, hfollow.2.1⟩
  | cons a as ih =>
    rcases hfollow with ⟨hundisturbed, hid, hrest⟩
    have hfound := hundisturbed.authorizedRequest hrr
    rcases call_keeps cfg actor hfound (hblocked a List.mem_cons_self) hid with ⟨hrr', -, hevent⟩
    rcases ih hrr' hrest (fun x hx => hblocked x (List.mem_cons_of_mem a hx)) with
      ⟨hb, hb', hfresh⟩
    exact ⟨hb, hb'.trans (hevent.trans hundisturbed.event), hfresh⟩

theorem InEpisode.of_event {t : Db} (h : InEpisode s rr o)
    (hevent : t.outbox.find? rr.outboxEventId = s.outbox.find? rr.outboxEventId) :
    InEpisode t rr o := ⟨hevent.trans h.1, h.2⟩

/-- Each call is blocked without an effect if and only if their kinds are new. -/
theorem blocked_iff (hgate : cfg.replayExecutionEnabled = true)
    (hrr : AuthorizedRequest s id rr) (hscope : inScope scope rr.scope = true)
    (hin : InEpisode s rr o) (hfollow : Follow cfg id actor scope rr s as)
    (hblocked : ∀ a ∈ as, a.kind rr ≠ .ready) :
    (∀ a ∈ as, Blocked cfg id actor scope rr a) ↔
      (as.map (Attempt.kind rr)).Nodup ∧
        ∀ a ∈ as, ¬KeyTaken s (blockedKey id rr (a.kind rr)) := by
  induction as generalizing s with
  | nil => simp
  | cons a as ih =>
    rcases hfollow with ⟨hundisturbed, hid, hrest⟩
    have hready := hblocked a List.mem_cons_self
    have hfound := hundisturbed.authorizedRequest hrr
    have hin' := hin.of_event hundisturbed.event
    rcases call_keeps cfg actor hfound hready hid with ⟨hrr', hauthorizations, hevent⟩
    have hrec := ih hrr' (hin'.of_event hevent) hrest
      fun x hx => hblocked x (List.mem_cons_of_mem a hx)
    -- the head is blocked if and only if its key is free
    have hhead : Blocked cfg id actor scope rr a ↔ ¬KeyTaken s (blockedKey id rr (a.kind rr)) := by
      rw [← hundisturbed.keys]
      constructor
      · intro h
        rcases call_cases cfg actor hfound hready with ⟨hne, -⟩ | ⟨-, _, -, hfree, -⟩
        · exact absurd h.denied hne
        · exact hfree
      · intro hfree
        have hcall : a.call cfg id actor scope = (.ok blockedDenial, _) :=
          transact_of_ok (run_execute_blocked hgate hfound hscope hin' hready hid hfree)
        exact ⟨congrArg Prod.fst hcall, hrr', hauthorizations, hevent⟩
    rw [List.forall_mem_cons, List.forall_mem_cons, List.map_cons, List.nodup_cons, hhead]
    constructor
    · rintro ⟨hfree, hall⟩
      have hdenied := (hhead.mpr hfree).denied
      rcases hrec.mp hall with ⟨hnodup, hkeys⟩
      have hkeys' : ∀ x ∈ as, x.kind rr ≠ a.kind rr ∧
          ¬KeyTaken s (blockedKey id rr (x.kind rr)) := by
        intro x hx
        have hnot := hkeys x hx
        rw [keyTaken_call hfound hready hid hdenied, hundisturbed.keys, not_or] at hnot
        exact hnot
      refine ⟨⟨?_, hnodup⟩, hfree, fun x hx => (hkeys' x hx).2⟩
      intro hmem
      rcases List.mem_map.mp hmem with ⟨x, hx, hkind⟩
      exact (hkeys' x hx).1 hkind
    · rintro ⟨⟨hnew, hnodup⟩, hfree, hkeys⟩
      have hdenied := (hhead.mpr hfree).denied
      refine ⟨hfree, hrec.mpr ⟨hnodup, fun x hx => ?_⟩⟩
      rw [keyTaken_call hfound hready hid hdenied, hundisturbed.keys, not_or]
      exact ⟨fun hkind => hnew (List.mem_map.mpr ⟨x, hx, hkind⟩), hkeys x hx⟩

theorem Follow.left {bs : List Attempt} (h : Follow cfg id actor scope rr s (as ++ bs)) :
    Follow cfg id actor scope rr s as := by
  induction as generalizing s with
  | nil => trivial
  | cons a as ih => exact ⟨h.1, h.2.1, ih h.2.2⟩

theorem direct_requestReplay_olga :
    (Call.requestReplay ⟨⟨10⟩, ⟨11⟩, ⟨12⟩⟩ olga home ⟨20⟩ "k1" (5000 * second) none).direct =
      false := rfl

theorem direct_authorizeReplay_rita :
    (Call.authorizeReplay ⟨13⟩ ⟨11⟩ rita home "p1").direct = false := rfl

/-- The replay of a dead event is requested and approved. -/
def authorizedCalls : List ServiceCall := deadCalls ++ [
  ⟨.requestReplay ⟨⟨10⟩, ⟨11⟩, ⟨12⟩⟩ olga home ⟨20⟩ "k1" (5000 * second) none,
    direct_requestReplay_olga⟩,
  ⟨.authorizeReplay ⟨13⟩ ⟨11⟩ rita home "p1", direct_authorizeReplay_rita⟩]

def authorizedRun : Sys Db Lock Failure Reply ServiceCall Unit :=
  Sys.calls (fun c => program openGates c.val) emptyDb authorizedCalls

def firstAttempt : Attempt := ⟨authorizedRun.db, ⟨30⟩, fun _ => .unhealthy⟩

def secondAttempt (kind : Readiness) : Attempt :=
  ⟨(firstAttempt.call openGates ⟨11⟩ worker home).2, ⟨31⟩, fun _ => kind⟩

/-- The request is authorized, and the ids of both attempts are free. -/
def readyToTry (rr : ReplayRequest) : Bool :=
  rr.state == .authorized &&
    (authorizedRun.db.outbox.find? ⟨30⟩).isNone &&
    ((firstAttempt.call openGates ⟨11⟩ worker home).2.outbox.find? ⟨31⟩).isNone

/-- Everything that an execution checks, as a test. -/
def passes (s : Db) (id : Uuid) (actor : Actor) (scope : Scope) (rr : ReplayRequest) : Bool :=
  inScope scope rr.scope &&
  (s.outbox.find? rr.outboxEventId).any (fun o => (deadEligibilityDenial o).isNone &&
    o.episode == some rr.resourceStateVersion && (o.replayedRow o.attempts s.now).check) &&
  (s.authorizations.find? rr.authorizationId).any (fun a =>
    (evaluate (.consume a.actionType) actor scope a.scope none a.productionEffect
      a.productionApprovalReference).allowed &&
    a.consumable rr.resourceStateVersion scope s.now && !a.productionEffect &&
    (a.consumedRow actor.principalId s.now).check) &&
  (rr.executedRow s.now).check &&
  !s.outbox.rows.any fun e => e.2.idempotencyKey == executedKey id rr

theorem executable_of_passes (h : passes s id actor scope rr = true) :
    Executable s id actor scope rr := by
  unfold passes at h
  simp only [Bool.and_eq_true, Option.any_eq_true, Option.isNone_iff_eq_none, beq_iff_eq,
    Bool.not_eq_true'] at h
  rcases h with ⟨⟨⟨⟨hscope, o, ho, ⟨hdead, hversion⟩, hcheck⟩, a, ha, ⟨⟨hallowed, hconsumable⟩, hno⟩,
    hcheck'⟩, hrcheck⟩, hkey⟩
  refine ⟨hscope, ⟨o, ⟨ho, hdead, hversion⟩, hcheck⟩,
    ⟨a, ha, hallowed, hconsumable, hcheck', ?_⟩, hrcheck, ?_⟩
  · intro hyes
    rw [hno] at hyes
    cases hyes
  · rw [keyTaken_iff, hkey]
    exact Bool.false_ne_true

/-- Two calls with nothing in between. -/
theorem follow_pair {i j : Uuid} {p q : Destination → Readiness}
    (hi : s.outbox.find? i = none)
    (hj : ((Attempt.mk s i p).call cfg id actor scope).2.outbox.find? j = none) :
    Follow cfg id actor scope rr s
      [⟨s, i, p⟩, ⟨((Attempt.mk s i p).call cfg id actor scope).2, j, q⟩] :=
  ⟨.refl _, hi, .refl _, hj, trivial⟩

theorem follow_attempts {kind : Readiness} (hready : readyToTry rr = true) :
    Follow openGates ⟨11⟩ worker home rr authorizedRun.db [firstAttempt, secondAttempt kind] := by
  unfold readyToTry firstAttempt at hready
  simp only [Bool.and_eq_true, Option.isNone_iff_eq_none] at hready
  unfold secondAttempt firstAttempt
  exact follow_pair hready.1.2 hready.2

theorem authorizedRequest_of_readyToTry (hready : readyToTry rr = true)
    (hrr : authorizedRun.db.replayRequests.find? ⟨11⟩ = some rr) :
    AuthorizedRequest authorizedRun.db ⟨11⟩ rr := by
  unfold readyToTry at hready
  simp only [Bool.and_eq_true, beq_iff_eq] at hready
  exact ⟨hrr, hready.1.1⟩

/-- The call raised this. -/
def raises (e : Failure) (r : Except Failure ReplayResult) : Bool :=
  match r with
  | .error e' => e' == e
  | .ok _ => false

theorem eq_of_raises {e : Failure} {r : Except Failure ReplayResult} (h : raises e r = true) :
    r = .error e := by
  unfold raises at h
  split at h
  · rw [beq_iff_eq.mp h]
  · cases h

end AiAgentsSwd.Tasks
