import AiAgentsSwd.Tasks.ResumeSpec

/-!
# Tasks.ReplaySpec — what the replay service and the relay ensure

The statements of `replay_request_repository.py` first, then one theorem for each operation of
`replay_service.py` and of the relay: its commits are among the effects of `Tasks.Effects`.
-/

namespace AiAgentsSwd.Tasks

open Keyed (Table Evolves)
open Planning (Uuid Time)
open ReadCommitted Txn TableAt

variable {cfg : Settings} {Inv : Db → Prop} {L : List Lock} {w : Db → Db} {s t : Db}

/-! ## Its statements -/

section Statements

variable {id : Uuid} {scope : Scope}

theorem ensures_lockOutboxEvent (hw : ∀ t, (w t).outbox = t.outbox) :
    Ensures Inv Guar (lockOutboxEvent id) L w s fun b L' w' t => w' = w ∧
      ∀ o, b = some o → t.outbox.find? id = some o ∧ .outboxEvent id ∈ L' := by
  unfold lockOutboxEvent
  have hrow : ∀ t, (At.outbox.get (w t)).find? id = (At.outbox.get t).find? id :=
    fun t => congrArg (Table.find? · id) (hw t)
  refine (ensures_selectForUpdate outbox_evolves hrow).mono ?_
  rintro b L' w' t ⟨hw', hb, -⟩
  exact ⟨hw', fun o ho => (hb o ho).2⟩

theorem ensures_lockReplayRequest (hw : ∀ t, (w t).replayRequests = t.replayRequests) :
    Ensures Inv Guar (lockReplayRequest id scope) L w s fun b L' w' t => w' = w ∧
      ∀ r, b = some r → inScope scope r.scope = true ∧ t.replayRequests.find? id = some r ∧
        .replayRequest id ∈ L' := by
  unfold lockReplayRequest
  have hrow : ∀ t, (At.replayRequests.get (w t)).find? id = (At.replayRequests.get t).find? id :=
    fun t => congrArg (Table.find? · id) (hw t)
  refine (ensures_selectForUpdate replayRequests_evolve hrow).mono ?_
  rintro b L' w' t ⟨hw', hb, -⟩
  exact ⟨hw', fun r hr => hb r hr⟩

/-- The version of a dead row, or the transaction ends. -/
theorem ensures_episodeOf {o : OutboxEvent} :
    Ensures Inv Guar (episodeOf o) L w s fun version _ w' _ =>
      w' = w ∧ o.episode = some version := by
  unfold episodeOf
  cases h : o.episode with
  | none => exact ensures_raise
  | some version => exact ensures_done.mpr fun t _ => ⟨rfl, rfl⟩

/-- The count of the requests of an actor, under the actor's lock: at the end no more rows
count. -/
theorem ensures_countRecent {teamId projectId : Uuid} {actorId : String} {windowHours : Nat}
    (hk : .actorRate (some teamId) (some projectId) actorId ∈ L) :
    Ensures Inv Guar (countReplayRequests (ReplayRequest.recentBy actorId
      ⟨some teamId, some projectId⟩ windowHours)) L (fun s => s) s fun n _ w' t =>
        w' = (fun s => s) ∧ ∃ countedAt, countedAt ≤ t.now ∧
          ∀ t', Rely Inv Guar L t t' → (t'.replayRequests.rows.countP fun e =>
            e.2.recentBy actorId ⟨some teamId, some projectId⟩ windowHours countedAt) ≤ n := by
  unfold countReplayRequests Txn.select
  rw [ensures_query]
  intro t₁ _
  rw [ensures_done]
  intro t ht
  refine ⟨rfl, t₁.now, rely_now ht, fun t' ht' => ?_⟩
  have hr := ht.trans ht'
  apply Table.countP_rows_le
  intro k y hy hp
  have hscope : y.teamId = teamId ∧ y.projectId = projectId ∧ y.requestedBy = actorId := by
    simp only [ReplayRequest.recentBy, Bool.and_eq_true, beq_iff_eq, inScope_iff] at hp
    have hs := hp.1.2
    simp only [ReplayRequest.scope, Scope.mk.injEq, Option.some.injEq] at hs
    exact ⟨hs.1.symm, hs.2.symm, hp.1.1⟩
  rcases hr.entered (fun _ _ _ hg => hg.replayIndex _ _ (.actor teamId projectId actorId)) hk hy
    hscope with ⟨x, hx, -⟩
  rcases hr.same_row replayRequests_evolve Kept.refl Kept.trans hx with ⟨z, hz, hkept⟩
  have heq : y = z := Option.some.inj (hy.symm.trans hz)
  subst heq
  refine ⟨x, hx, ?_⟩
  have hsame : y.recentBy actorId ⟨some teamId, some projectId⟩ windowHours t₁.now =
      x.recentBy actorId ⟨some teamId, some projectId⟩ windowHours t₁.now := by
    unfold ReplayRequest.recentBy
    rw [hkept.field ReplayRequest.requestedBy fun _ => rfl,
      hkept.field ReplayRequest.scope fun _ => rfl,
      hkept.field ReplayRequest.requestedAt fun _ => rfl]
  rw [← hsame]
  exact hp

/-- The count of the executed replays of an event, under the event's lock: at the end no more
rows count. -/
theorem ensures_countSuccess {eventId : Uuid} {windowHours : Nat} (hk : .outboxEvent eventId ∈ L) :
    Ensures Inv Guar (countReplayRequests (ReplayRequest.recentSuccess eventId windowHours)) L
      (fun s => s) s fun n _ w' t => w' = (fun s => s) ∧ ∃ countedAt, countedAt ≤ t.now ∧
        ∀ t', Rely Inv Guar L t t' → (t'.replayRequests.rows.countP fun e =>
          e.2.recentSuccess eventId windowHours countedAt) ≤ n := by
  unfold countReplayRequests Txn.select
  rw [ensures_query]
  intro t₁ _
  rw [ensures_done]
  intro t ht
  refine ⟨rfl, t₁.now, rely_now ht, fun t' ht' => ?_⟩
  have hr := ht.trans ht'
  apply Table.countP_rows_le
  intro k y hy hp
  simp only [ReplayRequest.recentSuccess, Bool.and_eq_true, beq_iff_eq] at hp
  rcases hr.entered (fun _ _ _ hg => hg.replayIndex _ _ (.executed eventId y.executedAt)) hk hy
    ⟨hp.1.1, hp.1.2, rfl⟩ with ⟨x, hx, hev, hst, hat⟩
  refine ⟨x, hx, ?_⟩
  simp only [ReplayRequest.recentSuccess, Bool.and_eq_true, beq_iff_eq]
  refine ⟨⟨hev, hst⟩, ?_⟩
  rw [hat]
  exact hp.2

/-- What is known when a new request may go in. -/
def Insertable (Inv : Db → Prop) (id : Uuid) (row : ReplayRequest) (L : List Lock) (t : Db) :
    Prop :=
  .replayRequest id ∈ L ∧ .replayRequestKey row.idempotencyKey ∈ L ∧
    .activeReplayRequest row.outboxEventId ∈ L ∧
    ∀ t', Rely Inv Guar L t t' → t'.replayRequests.find? id = none ∧
      (∀ k x, t'.replayRequests.find? k = some x →
        (x.idempotencyKey == row.idempotencyKey) = false) ∧
      ∀ k x, t'.replayRequests.find? k = some x →
        (x.active && x.outboxEventId == row.outboxEventId) = false

theorem ensures_insertReplayRequest {row : ReplayRequest}
    (hw : ∀ t, (w t).replayRequests = t.replayRequests) :
    Ensures Inv Guar (insertReplayRequest id row) L w s fun b L' w' t =>
      w' = w ∧ (b = true → row.check = true ∧ Insertable Inv id row L' t) := by
  unfold insertReplayRequest
  simp only [bind_eq, pure_eq]
  refine ensures_ite (fun _ => ensures_raise) fun hno => ?_
  have hcheck : row.check = true := by simpa using hno
  have hnone : ∀ t, (At.replayRequests.get (w t)).find? id = none →
      (At.replayRequests.get t).find? id = none := by
    intro t ht
    rw [show At.replayRequests.get (w t) = At.replayRequests.get t from hw t] at ht
    exact ht
  have hE : ∀ l a b, Guar l a b → Keyed.Entered (.replayRequestKey row.idempotencyKey)
      (fun x => (x.idempotencyKey == row.idempotencyKey) = true) l (At.replayRequests.get a)
      (At.replayRequests.get b) := fun _ _ _ hg => hg.replayIndex _ _ (.key _)
  have hA : ∀ l a b, Guar l a b → Keyed.Entered (.activeReplayRequest row.outboxEventId)
      (fun x => (x.active && x.outboxEventId == row.outboxEventId) = true) l
      (At.replayRequests.get a) (At.replayRequests.get b) :=
    fun _ _ _ hg => hg.replayIndex _ _ (.active _)
  apply (ensures_taken replayRequests_evolve hnone).bind
  rintro taken L₁ w₁ t₁ ⟨rfl, hk, hfree⟩ hr₁ hL₁
  refine ensures_ite (fun _ => ensures_raise) fun htaken => ?_
  have habsent := hfree (Bool.eq_false_iff.mpr htaken)
  apply (ensures_conflict hE hw).bind
  rintro byKey L₂ w₂ t₂ ⟨rfl, hkey, hkfree, -⟩ hr₂ hL₂
  refine ensures_ite (fun _ => ensures_done.mpr fun t _ => ⟨rfl, fun h => (by cases h)⟩) fun hb => ?_
  have hkfree₂ := hkfree (Bool.eq_false_iff.mpr hb)
  apply (ensures_conflict hA hw).bind
  rintro byActive L₃ w₃ t₃ ⟨rfl, hactive, hafree, -⟩ hr₃ hL₃
  refine ensures_ite (fun _ => ensures_done.mpr fun t _ => ⟨rfl, fun h => (by cases h)⟩) fun hb => ?_
  have hafree₃ := hafree (Bool.eq_false_iff.mpr hb)
  rw [ensures_done]
  intro t ht
  refine ⟨rfl, fun _ => ⟨hcheck, hL₃ (hL₂ hk), hL₃ hkey, hactive, fun t' ht' => ?_⟩⟩
  have hto := ht.trans ht'
  refine ⟨?_, rely_free (hr₃.trans (hto.mono hL₃)) hkey hE hkfree₂,
    rely_free hto hactive hA hafree₃⟩
  rw [rely_replayRequest hto (hL₃ (hL₂ hk)), rely_replayRequest hr₃ (hL₂ hk),
    rely_replayRequest hr₂ hk]
  exact habsent

/-- A transition of a locked request that is in the source state cannot fail. -/
theorem ensures_transitionReplayRequest {source : ReplayState} {rr : ReplayRequest}
    {set : Time → ReplayRequest → ReplayRequest}
    (hw : ∀ t, (w t).replayRequests = t.replayRequests) (hnow : ∀ t, (w t).now = t.now)
    (hset : ∀ now r, Kept ReplayRequest.asRequested r (set now r))
    (hactive : ∀ now r, r.state = source → (set now r).active = true → r.active = true)
    (hexecuted : ∀ now, (set now rr).state = .executed → .outboxEvent rr.outboxEventId ∈ L)
    (hk : .replayRequest id ∈ L) (hrr : s.replayRequests.find? id = some rr) (hstate : rr.state = source)
    (hscope : inScope scope rr.scope = true) :
    Ensures Inv Guar (transitionReplayRequest id source scope set) L w s fun b _ w' t =>
      ∃ now, s.now ≤ now ∧ now ≤ t.now ∧ b = some (set now rr) ∧ (set now rr).check = true ∧
        w' = At.replayRequests.modify id (set now) ∘ w := by
  unfold transitionReplayRequest
  refine (ensures_stamped replayRequests_evolve hw hnow ?_).track.mono ?_
  · rintro now L' v x hk' hx hc ⟨hL, t', ht', htx⟩
    simp only [Bool.and_eq_true, beq_iff_eq] at hc
    -- the row is the one that was locked
    have heq : x = rr := Option.some.inj
      (htx.symm.trans ((rely_replayRequest ht' hk).trans hrr))
    subst heq
    exact Guar.modifyReplayRequest hx hk' (hset now x) (hactive now x hc.1)
      fun he => hL (hexecuted now he)
  rintro b L' w' t ⟨⟨now, hlo, hle, hb⟩, hr, -⟩
  rcases hb with ⟨-, -, t₁, ht₁, -, hfalse⟩ | ⟨x, hx, -, hck, rfl, -, rfl⟩
  · have hno := hfalse rr (by
      show t₁.replayRequests.find? id = some rr
      rw [rely_replayRequest ht₁ hk, hrr])
    simp [hstate, hscope] at hno
  · have heq : rr = x := Option.some.inj
      ((by rw [rely_replayRequest hr hk, hrr] :
        t.replayRequests.find? id = some rr).symm.trans hx)
    subst heq
    exact ⟨now, hlo, hle, rfl, hck, rfl⟩

end Statements

/-! ## Its operations -/

section Service

variable {eventId id : Uuid} {actor : Actor} {scope : Scope}

/-- A denial that wrote nothing. -/
theorem ensures_refuse {c : Call} {r' : ReplayResult} (h : ∀ x, x = r' → Quiet c (.replay x)) :
    Ensures Inv Guar (.done r' : TaskTxn ReplayResult) L (fun s => s) s fun r _ w t =>
      Effect cfg Inv c (.replay r) t (w t) :=
  ensures_done.mpr fun _ _ => .quiet (h _ rfl)

/-- The same, as an answer. -/
theorem ensures_denyReplay {c : Call} {r' : ReplayResult} (h : ∀ x, x = r' → Quiet c (.replay x))
    (hno : r'.ok = false) :
    Ensures Inv Guar (.done r' : TaskTxn ReplayResult) L (fun s => s) s fun r _ w t =>
      Effect cfg Inv c (.replay r) t (w t) ∧ Answers Inv c (.replay r) t (w t) :=
  ensures_done.mpr fun _ _ => ⟨.quiet (h _ rfl), .denied (Reply.denied_replay hno)⟩

/-- The savepoint of a request denies, or its release gives the authorization and the request. -/
theorem ensures_requestReplaySavepoint {ids : ReplayIds} {teamId projectId : Uuid} {oid : Uuid}
    {o : OutboxEvent} {destination : Destination} {version key : String} {production : Bool}
    {expiresAt : Time} {reference : Option Reference} :
    Ensures Inv Guar (requestReplaySavepoint ids actor ⟨some teamId, some projectId⟩ oid o
      destination version production key expiresAt reference) L (fun s => s) s fun r L' w' t =>
        w' = (fun s => s) ∧ (∀ denial, r = .error denial → denial.ok = false) ∧
          ∀ row release, r = .ok (row, release) →
          ∃ now₁ now₂ authorizationId u, s.now ≤ now₂ ∧ now₂ ≤ t.now ∧
            row =
              { authorizationId, teamId, projectId, destination
                outboxEventId := oid
                eventType := o.eventType
                idempotencyKey := key
                resourceStateVersion := version
                requestedBy := actor.principalId
                requestedAt := now₂ } ∧
            release = At.replayRequests.insert ids.replayRequestId row ∘ u ∧
            Releasable Inv ids.authorizationId actor ⟨some teamId, some projectId⟩
              (requestedAuthorization actor teamId projectId .replay .outboxEvent oid version
                expiresAt ("replay-auth:" ++ toString oid ++ ":" ++ key) production reference now₁)
              authorizationId u L' t ∧
            row.check = true ∧ Insertable Inv ids.replayRequestId row L' t := by
  unfold requestReplaySavepoint
  simp only [bind_eq, pure_eq]
  refine (ensures_requestAuthorizationSavepoint ?_ ?_).bind ?_
  · exact fun _ => rfl
  · exact fun _ => rfl
  rintro ⟨auth, u⟩ L₁ w₁ t₁ ⟨rfl, hb⟩ hr₁ hL₁
  dsimp only
  rcases hb with ⟨hauth, -, -⟩ | ⟨now₁, aid, x, hauth, hrel⟩
  · dsimp only at hauth
    rw [hauth]
    refine ensures_ite (fun _ => ensures_done.mpr fun t _ => ⟨rfl, ?_, ?_⟩)
      fun _ => ensures_done.mpr fun t _ => ⟨rfl, ?_, ?_⟩
    · intro denial h
      cases h
      rfl
    · intro row release h
      cases h
    · intro denial h
      cases h
      rfl
    · intro row release h
      cases h
  dsimp only at hauth
  rw [hauth]
  dsimp only
  refine (ensures_now ?_).bind ?_
  · exact fun _ => rfl
  rintro now₂ L₂ w₂ t₂ ⟨rfl, hlo, hle⟩ hr₂ hL₂
  refine (ensures_insertReplayRequest ?_).bind ?_
  · exact fun _ => rfl
  rintro b L₃ w₃ t₃ ⟨rfl, hins⟩ hr₃ hL₃
  refine ensures_ite (fun hb => ?_) fun _ => ensures_done.mpr fun t _ =>
    ⟨rfl, fun denial h => ?_, fun row release h => ?_⟩
  · rw [ensures_done]
    intro t ht
    refine ⟨rfl, fun denial h => ?_, fun row release h => ?_⟩
    · cases h
    cases h
    rcases hins hb with ⟨hck, hk, hkey, hactive, hfree⟩
    refine ⟨now₁, now₂, aid, u, Nat.le_trans (rely_now hr₁) hlo, ?_, rfl, rfl, ?_, hck, hk, hkey,
      hactive, fun t' ht' => hfree t' (ht.trans ht')⟩
    · exact Nat.le_trans hle (Nat.le_trans (rely_now hr₃) (rely_now ht))
    · exact ((hrel.rely hr₂ hL₂).rely hr₃ hL₃).rely ht (List.Subset.refl _)
  · cases h
    rfl
  · cases h

theorem ensures_requestReplay {ids : ReplayIds} {oid : Uuid} {key : String} {expiresAt : Time}
    {reference : Option Reference} :
    Ensures Inv Guar (requestReplay cfg ids actor scope oid key expiresAt reference) []
      (fun s => s) s fun r _ w t =>
        Effect cfg Inv (.requestReplay ids actor scope oid key expiresAt reference) (.replay r) t
            (w t) ∧
          Answers Inv (.requestReplay ids actor scope oid key expiresAt reference) (.replay r) t (w t) := by
  have hquiet : ∀ {r : ReplayResult} {x}, x = r →
      Quiet (.requestReplay ids actor scope oid key expiresAt reference) (.replay x) :=
    fun _ => trivial
  unfold requestReplay
  simp only [bind_eq, pure_eq]
  refine ensures_ite (fun _ => ensures_denyReplay (fun _ => hquiet) rfl) fun _ => ?_
  apply (ensures_selectBy replayRequests_evolve Kept.refl Kept.trans fun _ => rfl).bind
  rintro existing L₁ w₁ t₁ ⟨rfl, hexisting, -⟩ hr₁ _
  cases existing with
  | some e =>
    refine ensures_ite (fun _ => ?_) fun _ => ensures_denyReplay (fun _ => hquiet) rfl
    -- the request that was there is there still
    rcases hexisting e rfl with ⟨hkey, x, hx, hsame⟩
    rw [ensures_done]
    intro t ht
    rcases ht.same_row replayRequests_evolve Kept.refl Kept.trans hx with ⟨y, hy, hsame'⟩
    have hkept : y.idempotencyKey = e.2.idempotencyKey :=
      (Kept.trans _ _ _ hsame hsame').field ReplayRequest.idempotencyKey fun _ => rfl
    exact ⟨.quiet (hquiet rfl),
      .confirmed rfl (.replay hy (hkept.trans (beq_iff_eq.mp hkey)))⟩
  | none =>
    refine ensures_ite (fun _ => ensures_denyReplay (fun _ => hquiet) rfl) fun hyes => ?_
    have hallowed : (evaluate (.request .replay) actor scope scope).allowed = true := by
      simpa using hyes
    rcases scope_of_allowed hallowed with ⟨teamId, projectId, rfl⟩
    unfold acquireActorRateLimitLock
    rw [lockRow_bind, ensures_lock]
    intro t₂ hr₂
    have hka : .actorRate (some teamId) (some projectId) actor.principalId ∈
      L₁ ++ [.actorRate (some teamId) (some projectId) actor.principalId] := by simp
    generalize L₁ ++ [.actorRate (some teamId) (some projectId) actor.principalId] = L₂ at hka ⊢
    apply (ensures_lockOutboxEvent fun _ => rfl).bind
    rintro b L₃ w₃ t₃ ⟨rfl, hb⟩ hr₃ hL₃
    cases b with
    | none => exact ensures_denyReplay (fun _ => hquiet) rfl
    | some o =>
      rcases hb o rfl with ⟨ho, hko⟩
      unfold resolveEventScope Txn.select
      dsimp only
      rw [query_bind, ensures_query]
      intro t₄ hr₄
      rw [done_bind]
      cases eventTask oid t₄ with
      | none => exact ensures_denyReplay (fun _ => hquiet) rfl
      | some task =>
        refine ensures_ite (fun _ => ensures_denyReplay (fun _ => hquiet) rfl) fun _ => ?_
        cases heligible : deadEligibilityDenial o with
        | some reason => exact ensures_denyReplay (fun _ => hquiet) rfl
        | none =>
          have hdead := dead_of_eligible heligible
          dsimp only
          apply (ensures_countRecent (hL₃ hka)).bind
          rintro n L₅ w₅ t₅ ⟨rfl, countedAt, hcounted, hactor⟩ hr₅ hL₅
          refine ensures_ite (fun _ => ensures_denyReplay (fun _ => hquiet) rfl) fun hn => ?_
          apply (ensures_countSuccess (hL₅ hko)).bind
          rintro m L₆ w₆ t₆ ⟨rfl, successAt, hsuccess, hevent⟩ hr₆ hL₆
          refine ensures_ite (fun _ => ensures_denyReplay (fun _ => hquiet) rfl) fun hm => ?_
          apply ensures_episodeOf.bind
          rintro version L₇ w₇ t₇ ⟨rfl, hversion⟩ hr₇ hL₇
          cases destinationForEventType o.eventType with
          | none => exact ensures_raise
          | some destination =>
            dsimp only
            apply ensures_requestReplaySavepoint.bind
            rintro r L₈ w₈ t₈ ⟨rfl, hdenial, hr⟩ hr₈ hL₈
            cases r with
            | error denial => exact ensures_denyReplay (fun _ => hquiet) (hdenial denial rfl)
            | ok p =>
              rcases p with ⟨row, release⟩
              rcases hr row release rfl with
                ⟨now₁, now₂, aid, u, hlo, hhi, hrow, rfl, hrel, hck, hk, hkey, hactive, hfree⟩
              have hkactor : .actorRate (some row.teamId) (some row.projectId) row.requestedBy ∈
                  L₈ := by
                rw [hrow]
                exact hL₈ (hL₇ (hL₆ (hL₅ (hL₃ hka))))
              have hu : ∀ v, (u v).now = v.now ∧ (u v).replayRequests = v.replayRequests ∧
                  (u v).outbox = v.outbox := by
                intro v
                rcases (hrel t₈ Rely.refl).1 with _ | _
                · exact ⟨rfl, rfl, rfl⟩
                · exact ⟨rfl, rfl, rfl⟩
              dsimp only
              rw [modify_bind, ensures_write]
              constructor
              · -- the authorization first, then the request
                intro t ht
                have hfirst := (hrel t ht).2 L₈ t (List.Subset.refl _) rfl
                refine hfirst.trans (Guar.insertReplayRequest ?_ hk hkey hactive hkactor ?_)
                · rw [(hu _).2.1]
                  exact (hfree t ht).1
                · rw [hrow]
              refine (ensures_insertLifecycleOutboxEvent ?_ ?_).bind ?_
              · intro x
                show (u _).outbox.find? ids.eventId = none ↔ _
                rw [(hu _).2.2]
              · exact fun x => (hu _).1
              rintro e L₉ w₉ t₉ ⟨now₃, hemit, -, rfl⟩ hr₉ hL₉
              rw [ensures_done]
              intro t hrt
              have h₈ : Rely Inv Guar L₈ t₈ t := hr₉.trans (hrt.mono hL₉)
              have h₆ : Rely Inv Guar L₆ t₆ t :=
                hr₇.trans ((hr₈.mono hL₇).trans (h₈.mono fun x hx => hL₈ (hL₇ hx)))
              have h₅ : Rely Inv Guar L₅ t₅ t := hr₆.trans (h₆.mono hL₆)
              have h₃ : Rely Inv Guar L₃ t₃ t := hr₄.trans (hr₅.trans (h₅.mono hL₅))
              have ho' : t.outbox.find? oid = some o := by rw [rely_outbox h₃ hko, ho]
              have hbefore : countedAt ≤ now₂ :=
                Nat.le_trans hcounted (Nat.le_trans (rely_now hr₆)
                  (Nat.le_trans (rely_now hr₇) hlo))
              have hbefore' : successAt ≤ now₂ :=
                Nat.le_trans hsuccess (Nat.le_trans (rely_now hr₇) hlo)
              have hafter : now₂ ≤ t.now := Nat.le_trans hhi (rely_now h₈)
              have hfree' := hfree t h₈
              rw [hrow] at hfree'
              refine ⟨.replayRequested ho' hdead hversion (hrel t h₈).1 hrow hfree'.1 hfree'.2.1
                hfree'.2.2 hck hbefore hafter (Nat.lt_of_le_of_lt (hactor t (h₅.mono hL₅)) (Nat.not_le.mp hn))
                ⟨successAt, hbefore',
                  Nat.lt_of_le_of_lt (hevent t (h₆.mono hL₆)) (Nat.not_le.mp hm)⟩ (hemit t hrt),
                .of_emits rfl rfl (hemit t hrt) ?_⟩
              show (u _).outbox.insert ids.eventId _ = _
              rw [(hu _).2.2]

theorem ensures_authorizeReplay {policyVersion : String} :
    Ensures Inv Guar (authorizeReplay cfg eventId id actor scope policyVersion) [] (fun s => s) s
      fun r _ w t =>
        Effect cfg Inv (.authorizeReplay eventId id actor scope policyVersion) (.replay r) t
            (w t) ∧
          Answers Inv (.authorizeReplay eventId id actor scope policyVersion) (.replay r) t (w t) := by
  have hquiet : ∀ {r : ReplayResult} {x}, x = r →
      Quiet (.authorizeReplay eventId id actor scope policyVersion) (.replay x) := fun _ => trivial
  unfold authorizeReplay
  simp only [bind_eq, pure_eq]
  refine ensures_ite (fun _ => ensures_denyReplay (fun _ => hquiet) rfl) fun _ => ?_
  apply (ensures_lockReplayRequest fun _ => rfl).bind
  rintro b L₁ w₁ t₁ ⟨rfl, hb⟩ _ _
  cases b with
  | none => exact ensures_denyReplay (fun _ => hquiet) rfl
  | some rr =>
    rcases hb rr rfl with ⟨hscope, hrr, hkr⟩
    refine ensures_ite (fun _ => ensures_denyReplay (fun _ => hquiet) rfl) fun hst => ?_
    have hstate : rr.state = .authorizationPending := not_not.mp hst
    apply (ensures_lockOutboxEvent fun _ => rfl).bind
    rintro b L₂ w₂ t₂ ⟨rfl, hb⟩ hr₂ hL₂
    cases b with
    | none => exact ensures_denyReplay (fun _ => hquiet) rfl
    | some o =>
      rcases hb o rfl with ⟨ho, hko⟩
      dsimp only
      cases heligible : deadEligibilityDenial o with
      | some reason => exact ensures_denyReplay (fun _ => hquiet) rfl
      | none =>
        have hdead := dead_of_eligible heligible
        dsimp only
        apply ensures_episodeOf.bind
        rintro version L₃ w₃ t₃ ⟨rfl, hversion⟩ hr₃ hL₃
        refine ensures_ite (fun _ => ensures_denyReplay (fun _ => hquiet) rfl) fun hver => ?_
        rw [not_not.mp hver] at hversion
        apply (ensures_authorize (fun _ => rfl) fun _ => rfl).bind
        rintro outcome L₄ w₄ t₄ hb hr₄ hL₄
        rcases hb with ⟨hno, rfl⟩ | ⟨now, a, happ, hok, hka, rfl⟩
        · simp only [hno, Bool.not_false, if_true]
          exact ensures_ite (fun _ => ensures_denyReplay (fun _ => hquiet) rfl)
            fun _ => ensures_denyReplay (fun _ => hquiet) rfl
        simp only [hok, Bool.not_true, Bool.false_eq_true, if_false]
        have hrr₄ : t₄.replayRequests.find? id = some rr := by
          rw [rely_replayRequest hr₄ (hL₃ (hL₂ hkr)), rely_replayRequest hr₃ (hL₂ hkr),
            rely_replayRequest hr₂ hkr, hrr]
        refine (ensures_transitionReplayRequest ?_ ?_ ?_ ?_ ?_ (hL₄ (hL₃ (hL₂ hkr))) hrr₄ hstate
          hscope).bind ?_
        · exact fun _ => rfl
        · exact fun _ => rfl
        · exact fun _ _ => rfl
        · intro now r hr _
          simp [ReplayRequest.active, hr]
        · intro now he
          cases he
        rintro b L₅ w₅ t₅ ⟨now₁, -, -, rfl, hck, rfl⟩ hr₅ hL₅
        refine (ensures_insertLifecycleOutboxEvent ?_ ?_).bind ?_
        · exact fun _ => Iff.rfl
        · exact fun _ => rfl
        rintro e L₆ w₆ t₆ ⟨now₂, hemit, -, rfl⟩ hr₆ hL₆
        rw [ensures_done]
        intro t hrt
        have hto : Rely Inv Guar L₄ t₄ t :=
          hr₅.trans ((hr₆.mono hL₅).trans (hrt.mono fun x hx => hL₆ (hL₅ hx)))
        have hrr' : t.replayRequests.find? id = some rr := by
          rw [rely_replayRequest hto (hL₄ (hL₃ (hL₂ hkr))), hrr₄]
        have ho' : t.outbox.find? rr.outboxEventId = some o := by
          rw [rely_outbox hto (hL₄ (hL₃ hko)), rely_outbox hr₄ (hL₃ hko), rely_outbox hr₃ hko, ho]
        exact ⟨.replayAuthorized hrr' hscope hstate ho' hdead hversion (happ.stable hto hka)
          hck (hemit t hrt), .of_emits rfl rfl (hemit t hrt) rfl⟩

/-- What `reject_replay` and `cancel_replay` share. -/
theorem ensures_declineReplay {c : Call} {op : SimpleOp} {set : Time → ReplayRequest → ReplayRequest}
    {type : EventType} {keyPrefix reasonText : String} {reason : ReasonCode} {rr : ReplayRequest}
    {t₁ : Db} {L₁ : List Lock} (hc : ReplayDecline c eventId id actor scope op set type)
    (hset : ∀ now r, Kept ReplayRequest.asRequested r (set now r))
    (hinactive : ∀ now r, (set now r).active = false)
    (hnot : ∀ now r, (set now r).state ≠ .executed) (hscope : inScope scope rr.scope = true)
    (hrr : t₁.replayRequests.find? id = some rr) (hkr : .replayRequest id ∈ L₁)
    (hstate : rr.state = .authorizationPending) :
    Ensures Inv Guar (declineReplay eventId id rr actor scope op set type keyPrefix reasonText
      reason) L₁ (fun s => s) t₁ fun r _ w t =>
        Effect cfg Inv c (.replay r) t (w t) ∧ Answers Inv c (.replay r) t (w t) := by
  have hquiet : ∀ {r : ReplayResult} {x}, x = r → Quiet c (.replay x) := by
    intro r x _
    cases hc with
    | reject _ _ _ _ _ => trivial
    | cancel _ _ _ _ => trivial
  have htransition : c.transition = some (eventId, type) := by
    cases hc with
    | reject _ _ _ _ _ => rfl
    | cancel _ _ _ _ => rfl
  unfold declineReplay
  simp only [bind_eq, pure_eq]
  apply (ensures_decideSimple (fun _ => rfl) fun _ => rfl).bind
  rintro outcome L₂ w₂ t₂ hb hr₂ hL₂
  rcases hb with ⟨hno, rfl⟩ | ⟨now, a, hdec, hok, hka, rfl⟩
  · rw [hno]
    exact ensures_denyReplay (fun _ => hquiet) rfl
  simp only [hok, Bool.not_true, Bool.false_eq_true, if_false]
  have hrr₂ : t₂.replayRequests.find? id = some rr := by
    rw [rely_replayRequest hr₂ hkr, hrr]
  refine (ensures_transitionReplayRequest ?_ ?_ hset ?_ ?_ (hL₂ hkr) hrr₂ hstate hscope).bind ?_
  · exact fun _ => rfl
  · exact fun _ => rfl
  · intro now r _ hact
    rw [hinactive now r] at hact
    cases hact
  · exact fun now he => absurd he (hnot now rr)
  rintro b L₃ w₃ t₃ ⟨now₁, -, -, rfl, hck, rfl⟩ hr₃ hL₃
  dsimp only
  refine (ensures_select outbox_evolves Kept.refl Kept.trans ?_).bind ?_
  · exact fun _ => rfl
  rintro b L₄ w₄ t₄ ⟨rfl, -⟩ hr₄ hL₄
  cases b with
  | none => exact ensures_raise
  | some o =>
    refine (ensures_insertLifecycleOutboxEvent ?_ ?_).bind ?_
    · exact fun _ => Iff.rfl
    · exact fun _ => rfl
    rintro e L₅ w₅ t₅ ⟨now₂, hemit, -, rfl⟩ hr₅ hL₅
    rw [ensures_done]
    intro t hrt
    have hto : Rely Inv Guar L₂ t₂ t :=
      hr₃.trans ((hr₄.mono hL₃).trans ((hr₅.mono fun x hx => hL₄ (hL₃ hx)).trans
        (hrt.mono fun x hx => hL₅ (hL₄ (hL₃ hx)))))
    have hrr' : t.replayRequests.find? id = some rr := by
      rw [rely_replayRequest hto (hL₂ hkr), hrr₂]
    exact ⟨.replayDeclined hc hrr' hscope hstate (hdec.stable hto hka) hck (hemit t hrt),
      .of_emits rfl htransition (hemit t hrt) rfl⟩

theorem ensures_rejectReplay {reasonCode : ReasonCode} :
    Ensures Inv Guar (rejectReplay cfg eventId id actor scope reasonCode) [] (fun s => s) s
      fun r _ w t =>
        Effect cfg Inv (.rejectReplay eventId id actor scope reasonCode) (.replay r) t
            (w t) ∧
          Answers Inv (.rejectReplay eventId id actor scope reasonCode) (.replay r) t (w t) := by
  have hquiet : ∀ {r : ReplayResult} {x}, x = r →
      Quiet (.rejectReplay eventId id actor scope reasonCode) (.replay x) := fun _ => trivial
  unfold rejectReplay
  simp only [bind_eq, pure_eq]
  refine ensures_ite (fun _ => ensures_denyReplay (fun _ => hquiet) rfl) fun _ => ?_
  apply (ensures_lockReplayRequest fun _ => rfl).bind
  rintro b L₁ w₁ t₁ ⟨rfl, hb⟩ hr₁ _
  cases b with
  | none => exact ensures_denyReplay (fun _ => hquiet) rfl
  | some rr =>
    rcases hb rr rfl with ⟨hscope, hrr, hkr⟩
    refine ensures_ite (fun _ => ensures_denyReplay (fun _ => hquiet) rfl) fun hst => ?_
    exact ensures_declineReplay (.reject eventId id actor scope reasonCode) (fun _ _ => rfl)
      (fun _ _ => rfl) (fun _ _ h => by cases h) hscope hrr hkr (not_not.mp hst)

theorem ensures_cancelReplay :
    Ensures Inv Guar (cancelReplay cfg eventId id actor scope) [] (fun s => s) s
      fun r _ w t =>
        Effect cfg Inv (.cancelReplay eventId id actor scope) (.replay r) t
            (w t) ∧
          Answers Inv (.cancelReplay eventId id actor scope) (.replay r) t (w t) := by
  have hquiet : ∀ {r : ReplayResult} {x}, x = r →
      Quiet (.cancelReplay eventId id actor scope) (.replay x) := fun _ => trivial
  unfold cancelReplay
  simp only [bind_eq, pure_eq]
  refine ensures_ite (fun _ => ensures_denyReplay (fun _ => hquiet) rfl) fun _ => ?_
  apply (ensures_lockReplayRequest fun _ => rfl).bind
  rintro b L₁ w₁ t₁ ⟨rfl, hb⟩ hr₁ _
  cases b with
  | none => exact ensures_denyReplay (fun _ => hquiet) rfl
  | some rr =>
    rcases hb rr rfl with ⟨hscope, hrr, hkr⟩
    refine ensures_ite (fun _ => ensures_denyReplay (fun _ => hquiet) rfl) fun _ => ?_
    refine ensures_ite (fun _ => ensures_denyReplay (fun _ => hquiet) rfl) fun hst => ?_
    exact ensures_declineReplay (.cancel eventId id actor scope) (fun _ _ => rfl)
      (fun _ _ => rfl) (fun _ _ h => by cases h) hscope hrr hkr (not_not.mp hst)

/-- The row is locked, dead and not yet written: a guard that fails leaves it alone, else it is
pending again. -/
theorem ensures_replayDeadRow {oid : Uuid} {version : String} {o : OutboxEvent}
    (hw : ∀ t, (w t).outbox = t.outbox) (hnow : ∀ t, (w t).now = t.now)
    (hk : .outboxEvent oid ∈ L) (ho : s.outbox.find? oid = some o) :
    Ensures Inv Guar (replayDeadRow oid version) L w s fun b _ w' _ =>
      (b = none ∧ w' = w) ∨ ∃ x now, b = some x ∧
        w' = At.outbox.modify oid (OutboxEvent.replayedRow o.attempts now) ∘ w := by
  unfold replayDeadRow
  simp only [bind_eq, pure_eq]
  have hrow : ∀ t, (At.outbox.get (w t)).find? oid = (At.outbox.get t).find? oid :=
    fun t => congrArg (Table.find? · oid) (hw t)
  apply (ensures_selectForUpdate outbox_evolves hrow).bind
  rintro b L₁ w₁ t₁ ⟨rfl, hb, -⟩ hr₁ hL₁
  cases b with
  | none => exact ensures_done.mpr fun t _ => Or.inl ⟨rfl, rfl⟩
  | some x =>
    have hx := (hb x rfl).2.1
    have heq : o = x := by
      have ho₁ : t₁.outbox.find? oid = some o := by rw [rely_outbox hr₁ hk, ho]
      exact Option.some.inj (ho₁.symm.trans hx)
    subst heq
    apply ensures_episodeOf.bind
    rintro current L₂ w₂ t₂ ⟨rfl, -⟩ hr₂ hL₂
    refine ensures_ite (fun _ => ensures_done.mpr fun t _ => Or.inl ⟨rfl, rfl⟩) fun _ => ?_
    have ho₂ : t₂.outbox.find? oid = some o := by rw [rely_outbox hr₂ (hL₁ hk)]; exact hx
    refine (ensures_updateOutbox hw hnow ?_ (hL₂ (hL₁ hk)) ho₂).mono ?_
    · exact fun _ _ => rfl
    rintro b L₃ w₃ t₃ ⟨now, -, -, rfl, rfl⟩
    exact Or.inr ⟨_, now, rfl, rfl⟩

/-- What a consumption leaves alone. -/
theorem Consumption.frame {version : String} {u : Db → Db}
    (h : Consumption s id actor scope version u) (x : Db) :
    (u x).now = x.now ∧ (u x).tasks = x.tasks ∧ (u x).clarifications = x.clarifications ∧
      (u x).outbox = x.outbox ∧ (u x).resumeRequests = x.resumeRequests ∧
      (u x).replayRequests = x.replayRequests := by
  cases h with
  | plain _ _ => exact ⟨rfl, rfl, rfl, rfl, rfl, rfl⟩
  | approved _ _ _ _ => exact ⟨rfl, rfl, rfl, rfl, rfl, rfl⟩

theorem ensures_executeAuthorizedReplay {readinessProvider : Destination → Readiness}
    (hs : Inv s) :
    Ensures Inv Guar (executeAuthorizedReplay cfg eventId id actor scope readinessProvider) []
      (fun s => s) s fun r _ w t =>
        Effect cfg Inv (.executeAuthorizedReplay eventId id actor scope readinessProvider)
          (.replay r) t (w t) := by
  have hquiet : ∀ {kind : ResultKind} {reason : ReasonCode} {x}, x = .deny kind reason →
      Quiet (.executeAuthorizedReplay eventId id actor scope readinessProvider) (.replay x) := by
    intro kind reason x hx y hy
    cases hy
    rw [hx]
    rfl
  unfold executeAuthorizedReplay
  simp only [bind_eq, pure_eq]
  refine ensures_ite (fun _ => ensures_refuse fun _ => hquiet) fun _ => ?_
  apply (ensures_lockReplayRequest fun _ => rfl).bind
  rintro b L₁ w₁ t₁ ⟨rfl, hb⟩ hr₁ _
  cases b with
  | none => exact ensures_refuse fun _ => hquiet
  | some rr =>
    rcases hb rr rfl with ⟨hscope, hrr, hkr⟩
    refine ensures_ite (fun _ => ensures_refuse fun _ => hquiet) fun hst => ?_
    have hstate : rr.state = .authorized := not_not.mp hst
    apply (ensures_lockOutboxEvent fun _ => rfl).bind
    rintro b L₂ w₂ t₂ ⟨rfl, hb⟩ hr₂ hL₂
    cases b with
    | none => exact ensures_refuse fun _ => hquiet
    | some o =>
      rcases hb o rfl with ⟨ho, hko⟩
      dsimp only
      cases heligible : deadEligibilityDenial o with
      | some reason => exact ensures_refuse fun _ => hquiet
      | none =>
        have hdead := dead_of_eligible heligible
        dsimp only
        apply ensures_episodeOf.bind
        rintro version L₃ w₃ t₃ ⟨rfl, hversion⟩ hr₃ hL₃
        refine ensures_ite (fun _ => ensures_refuse fun _ => hquiet) fun hver => ?_
        rw [not_not.mp hver] at hversion
        refine ensures_ite (fun _ => ?_) fun _ => ?_
        · -- only the trail of the blocked attempt
          refine (ensures_insertLifecycleOutboxEvent ?_ ?_).bind ?_
          · exact fun _ => Iff.rfl
          · exact fun _ => rfl
          rintro e L₄ w₄ t₄ ⟨now, hemit, -, rfl⟩ hr₄ hL₄
          rw [ensures_done]
          intro t hrt
          exact .replayBlocked rfl (hemit t hrt)
        apply (ensures_consume (fun _ => rfl) (fun _ => rfl) fun _ => rfl).bind
        rintro outcome L₄ w₄ t₄ hb hr₄ hL₄
        rcases hb with ⟨hno, rfl⟩ | ⟨u, hcons, hok, rfl⟩
        · simp only [hno, Bool.not_false, if_true]
          exact ensures_refuse fun _ => hquiet
        simp only [hok, Bool.not_true, Bool.false_eq_true, if_false]
        have hframe := (hcons t₄ Rely.refl).frame
        have ho₄ : t₄.outbox.find? rr.outboxEventId = some o := by
          rw [rely_outbox hr₄ (hL₃ hko), rely_outbox hr₃ hko, ho]
        have hrr₄ : t₄.replayRequests.find? id = some rr := by
          rw [rely_replayRequest hr₄ (hL₃ (hL₂ hkr)), rely_replayRequest hr₃ (hL₂ hkr),
            rely_replayRequest hr₂ hkr, hrr]
        refine (ensures_replayDeadRow ?_ ?_ (hL₄ (hL₃ hko)) ho₄).bind ?_
        · exact fun x => (hframe x).2.2.2.1
        · exact fun x => (hframe x).1
        rintro b L₅ w₅ t₅ hb hr₅ hL₅
        rcases hb with ⟨rfl, rfl⟩ | ⟨x, now₁, rfl, rfl⟩
        · exact ensures_raise
        dsimp only
        have hrr₅ : t₅.replayRequests.find? id = some rr := by
          rw [rely_replayRequest hr₅ (hL₄ (hL₃ (hL₂ hkr))), hrr₄]
        refine (ensures_transitionReplayRequest ?_ ?_ ?_ ?_ ?_ (hL₅ (hL₄ (hL₃ (hL₂ hkr)))) hrr₅
          hstate hscope).bind ?_
        · exact fun x => (hframe x).2.2.2.2.2
        · exact fun x => (hframe x).1
        · exact fun _ _ => rfl
        · intro now r hr _
          simp [ReplayRequest.active, hr]
        · exact fun _ _ => hL₅ (hL₄ (hL₃ hko))
        rintro b L₆ w₆ t₆ ⟨now₂, hlo, hle, rfl, hck, rfl⟩ hr₆ hL₆
        dsimp only
        refine (ensures_insertLifecycleOutboxEvent ?_ ?_).bind ?_
        · intro y
          show ((u y).outbox.modify rr.outboxEventId _).find? eventId = none ↔ _
          rw [Table.find?_modify_eq_none, (hframe y).2.2.2.1]
        · exact fun x => (hframe x).1
        rintro e L₇ w₇ t₇ ⟨now₃, hemit, -, rfl⟩ hr₇ hL₇
        rw [ensures_done]
        intro t hrt
        have h₆ : Rely Inv Guar L₆ t₆ t := hr₇.trans (hrt.mono hL₇)
        have hto : Rely Inv Guar L₄ t₄ t :=
          hr₅.trans ((hr₆.mono hL₅).trans (h₆.mono fun x hx => hL₆ (hL₅ hx)))
        have hrr' : t.replayRequests.find? id = some rr := by
          rw [rely_replayRequest hto (hL₄ (hL₃ (hL₂ hkr))), hrr₄]
        have ho' : t.outbox.find? rr.outboxEventId = some o := by
          rw [rely_outbox hto (hL₄ (hL₃ hko)), ho₄]
        have hseen : t₁.now ≤ now₂ :=
          Nat.le_trans (rely_now hr₂) (Nat.le_trans (rely_now hr₃)
            (Nat.le_trans (rely_now hr₄) (Nat.le_trans (rely_now hr₅) hlo)))
        exact .replayExecuted hrr' hscope hstate ho' hdead hversion (hcons t hto) hck
          ⟨Nat.le_trans hle (rely_now h₆), t₁, hr₁.inv hs, hrr, hseen⟩ (hemit t hrt)

theorem ensures_expireDueReplayRequests {before : Time} {limit : Nat} {rank : Uuid → Nat} :
    Ensures Inv Guar (expireDueReplayRequests before limit rank) [] (fun s => s) s fun n _ w t =>
      Effect cfg Inv (.expireDueReplayRequests before limit rank) (.count n) t (w t) := by
  unfold expireDueReplayRequests Txn.select
  simp only [bind_eq]
  apply (ensures_now fun _ => rfl).bind
  rintro now L₁ w₁ t₁ ⟨rfl, -, hle⟩ _ _
  rw [query_bind, ensures_query]
  intro t₂ ht₂
  rw [done_bind, query_bind, ensures_query]
  intro t₃ ht₃
  rw [done_bind]
  refine (ensures_updateEach (nodup_selectLimit _ _ _ _) replayRequests_evolve ?_ ?_).track.mono ?_
  · exact fun _ _ _ => rfl
  · intro L s k x hk hx _
    refine Guar.modifyReplayRequest hx hk rfl (fun hact => ?_) fun he => ?_
    · cases hact
    · cases he
  rintro n L' w' t ⟨⟨ids, hsub, rfl, -, hall⟩, hr, -⟩
  refine .replaysExpired (hsub.nodup (nodup_selectLimit _ _ _ _)) ?_ fun k hk => ?_
  · exact Nat.le_trans hle (Nat.le_trans (rely_now ht₂)
      (Nat.le_trans (rely_now ht₃) (rely_now hr)))
  · rcases (hall k hk).2 with ⟨rr, hrr, hdue, hck⟩
    unfold ReplayRequest.due at hdue
    rw [Bool.and_eq_true] at hdue
    exact ⟨rr, hrr, hdue.1, hck⟩

end Service

/-! ## The relay -/

section Relay

theorem ensures_publishOne {skipped : Uuid → Bool} {result : PublishResult} :
    Ensures Inv Guar (publishOne skipped result) [] (fun s => s) s fun r _ w t =>
      Effect cfg Inv (.publishOne skipped result) (.relay r) t (w t) := by
  unfold publishOne
  simp only [bind_eq, pure_eq]
  apply (ensures_now fun _ => rfl).bind
  rintro now L₁ w₁ t₁ ⟨rfl, -, hle⟩ _ _
  apply (ensures_claimFirst outbox_evolves fun _ _ => rfl).bind
  rintro b L₂ w₂ t₂ ⟨rfl, hb⟩ hr₂ hL₂
  cases b with
  | none => exact ensures_done.mpr fun t _ => .quiet rfl
  | some e =>
    rcases e with ⟨id, o⟩
    rcases hb id o rfl with ⟨hclaim, ho, hk⟩
    have hclock : now ≤ t₂.now := Nat.le_trans hle (rely_now hr₂)
    -- the row that was claimed stays as it is until it is written
    have hset : ∀ {set : Time → OutboxEvent → OutboxEvent} {r : RelayOutcome},
        (∀ now o, Kept OutboxEvent.asInserted o (set now o)) →
        (∀ t now₁, now ≤ now₁ → now₁ ≤ t.now → t.outbox.find? id = some o →
          Effect cfg Inv (.publishOne skipped result) (.relay r) t
            (At.outbox.modify id (set now₁) t)) →
        Ensures Inv Guar ((updateOutbox id set).bind fun _ => .done r) L₂ (fun s => s) t₂
          fun r _ w t => Effect cfg Inv (.publishOne skipped result) (.relay r) t (w t) := by
      intro set r hkept heffect
      refine (ensures_updateOutbox ?_ ?_ hkept hk ho).bind ?_
      · exact fun _ => rfl
      · exact fun _ => rfl
      rintro b L₃ w₃ t₃ ⟨now₁, hlo, hhi, -, rfl⟩ hr₃ hL₃
      rw [ensures_done]
      intro t ht
      refine heffect t now₁ (Nat.le_trans hclock hlo) (Nat.le_trans hhi (rely_now ht)) ?_
      rw [rely_outbox ht (hL₃ hk), rely_outbox hr₃ hk]
      exact ho
    cases result with
    | ok messageId =>
      refine hset (fun _ _ => rfl) fun t now₁ hlo hhi hrow => ?_
      exact .published hrow hclaim hlo hhi
    | failed reason =>
      dsimp only
      refine ensures_ite (fun hplan => ?_) fun hplan => ?_
      · refine hset (fun _ _ => rfl) fun t now₁ hlo hhi hrow => ?_
        exact .died hrow hclaim hlo hhi hplan
      · refine hset (fun _ _ => rfl) fun t now₁ hlo hhi hrow => ?_
        exact .retried hrow hclaim hlo hhi (Bool.eq_false_iff.mpr hplan)

theorem ensures_replayDead {id : Uuid} :
    Ensures Inv Guar (replayDead id) [] (fun s => s) s fun b _ w t =>
      Effect cfg Inv (.replayDead id) (.replayed b) t (w t) := by
  unfold replayDead
  simp only [bind_eq, pure_eq]
  apply (ensures_selectForUpdate outbox_evolves fun _ => rfl).bind
  rintro b L₁ w₁ t₁ ⟨rfl, hb, -⟩ _ _
  cases b with
  | none => exact ensures_done.mpr fun t _ => .quiet rfl
  | some o =>
    rcases hb o rfl with ⟨hdead, ho, hk⟩
    refine (ensures_updateOutbox ?_ ?_ ?_ hk ho).bind ?_
    · exact fun _ => rfl
    · exact fun _ => rfl
    · exact fun _ _ => rfl
    rintro b L₂ w₂ t₂ ⟨now, -, -, -, rfl⟩ hr₂ hL₂
    rw [ensures_done]
    intro t ht
    refine .revived ?_ (beq_iff_eq.mp hdead)
    rw [rely_outbox ht (hL₂ hk), rely_outbox hr₂ hk]
    exact ho

end Relay

end AiAgentsSwd.Tasks
