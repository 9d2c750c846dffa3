import AiAgentsSwd.Tasks.OutboxSteps
import AiAgentsSwd.Tasks.ReplayRequests
import AiAgentsSwd.Tasks.Versions

/-!
# Tasks.ReplayEpisodes — a replay acts on the dead episode that was approved

A row that dies again has failed once more, and no operation resets `attempts`: two moments at
which a row is dead with the same attempts belong to one episode, and nothing has happened to
the row in between (`OutboxEvent.Ages`). `replays_bound` draws the consequences for an
executed replay.
-/

namespace AiAgentsSwd.Tasks

open Keyed (Table)
open Planning (Uuid Time)
open ReadCommitted

variable {cfg : Settings} {Inv : Db → Prop} {c : Call} {r : Reply} {s t u : Db}

/-! ## The age of a row -/

/-- What the row `o'` owes to the earlier row `o`. -/
structure OutboxEvent.Ages (o o' : OutboxEvent) : Prop where
  kept : Kept OutboxEvent.asInserted o o'
  attempts : o.attempts ≤ o'.attempts
  dies : o.status ≠ .dead → o'.status = .dead → o.attempts < o'.attempts
  same : o.status = .dead → o'.status = .dead → o'.attempts = o.attempts → o' = o

namespace OutboxEvent.Ages

variable {o o' o'' : OutboxEvent}

theorem refl (o : OutboxEvent) : o.Ages o where
  kept := rfl
  attempts := Nat.le_refl _
  dies := fun h h' => absurd h' h
  same := fun _ _ _ => rfl

theorem trans (h : o.Ages o') (h' : o'.Ages o'') : o.Ages o'' where
  kept := Kept.trans _ _ _ h.kept h'.kept
  attempts := Nat.le_trans h.attempts h'.attempts
  dies := by
    intro hlive hdead
    have hle := h.attempts
    have hle' := h'.attempts
    by_cases hd : o'.status = .dead
    · have hlt := h.dies hlive hd
      omega
    · have hlt := h'.dies hd hdead
      omega
  same := by
    intro hdead hdead'' heq
    have hle := h.attempts
    have hle' := h'.attempts
    by_cases hd : o'.status = .dead
    · have hfirst : o' = o := h.same hdead hd (by omega)
      have hsecond : o'' = o' := h'.same hd hdead'' (by omega)
      rw [hsecond, hfirst]
    · -- a row that has left the state comes back with more attempts
      have hlt := h'.dies hd hdead''
      omega

end OutboxEvent.Ages

theorem OutboxEvent.pending_of_claimable {o : OutboxEvent} {now : Time}
    (h : o.claimable now = true) : o.status = .pending := by
  unfold claimable at h
  simp only [Bool.and_eq_true, beq_iff_eq] at h
  exact h.1.1

/-- A step ages a row. -/
theorem OutboxEvent.Moves.ages {k : Uuid} {o : OutboxEvent} {x : Option OutboxEvent}
    (h : Moves s k c r (some o) x) : ∃ o', x = some o' ∧ o.Ages o' := by
  cases h with
  | same _ _ => exact ⟨o, rfl, .refl o⟩
  | published hclaim _ _ =>
    have hpending := pending_of_claimable hclaim
    refine ⟨_, rfl, rfl, Nat.le_refl _, fun _ hd => ?_, fun hd => ?_⟩
    · cases hd
    · rw [hpending] at hd
      cases hd
  | @retried _ reason _ _ _ hclaim _ _ _ =>
    have hpending := pending_of_claimable hclaim
    have hcount := planRetryState_attempts o.attempts (some reason)
    refine ⟨_, rfl, rfl, ?_, fun _ hd => ?_, fun hd => ?_⟩
    · show o.attempts ≤ (planRetryState o.attempts (some reason)).attempts
      omega
    · rw [show (o.retryRow _ _).status = o.status from rfl, hpending] at hd
      cases hd
    · rw [hpending] at hd
      cases hd
  | @died _ reason _ _ _ hclaim _ _ _ =>
    have hpending := pending_of_claimable hclaim
    have hcount := planRetryState_attempts o.attempts (some reason)
    refine ⟨_, rfl, rfl, ?_, fun _ _ => ?_, fun hd => ?_⟩
    · show o.attempts ≤ (planRetryState o.attempts (some reason)).attempts
      omega
    · show o.attempts < (planRetryState o.attempts (some reason)).attempts
      omega
    · rw [hpending] at hd
      cases hd
  | replayed _ hdead =>
    refine ⟨_, rfl, rfl, Nat.le_refl _, fun hlive => absurd hdead hlive, fun _ hd => ?_⟩
    cases hd

/-- Every row of `s` is in `t`, aged. -/
def RowsAge (s t : Db) : Prop :=
  ∀ k o, s.outbox.find? k = some o → ∃ o', t.outbox.find? k = some o' ∧ o.Ages o'

theorem RowsAge.refl (s : Db) : RowsAge s s := fun _ o ho => ⟨o, ho, .refl o⟩

theorem RowsAge.trans (h : RowsAge s t) (h' : RowsAge t u) : RowsAge s u := by
  intro k o ho
  rcases h k o ho with ⟨o', ho', hages⟩
  rcases h' k o' ho' with ⟨o'', ho'', hages'⟩
  exact ⟨o'', ho'', hages.trans hages'⟩

theorem Effect.rowsAge (h : Effect cfg Inv c r s t) : RowsAge s t := by
  intro k o ho
  have hmove := h.outboxMoves k
  rw [ho] at hmove
  exact hmove.ages

/-- Between two moments of one episode the row is what it was. -/
theorem RowsAge.between {k : Uuid} {o x : OutboxEvent} (h : RowsAge s u) (h' : RowsAge u t)
    (ho : s.outbox.find? k = some o) (hdead : o.status = .dead) (hx : t.outbox.find? k = some x)
    (hdead' : x.status = .dead) (heq : x.attempts = o.attempts) :
    u.outbox.find? k = some o ∧ x = o := by
  rcases h k o ho with ⟨o', ho', hages⟩
  rcases h' k o' ho' with ⟨o'', ho'', hages'⟩
  have hsame : x = o'' := Option.some.inj (hx.symm.trans ho'')
  subst hsame
  have hle := hages.attempts
  have hle' := hages'.attempts
  have hd : o'.status = .dead := by
    by_contra hno
    have hlt := hages'.dies hno hdead'
    omega
  have hfirst : o' = o := hages.same hdead hd (by omega)
  rw [hfirst] at ho'
  exact ⟨ho', (hages.trans hages').same hdead hdead' heq⟩

/-! ## The authorization of a replay -/

/-- A request of a replay and its authorization belong together. -/
structure ReplayInv (s : Db) : Prop where
  keyed : ∀ k a, s.authorizations.find? k = some a →
    (∃ rest, a.idempotencyKey = "resume-auth:" ++ rest) ∨
      ∃ id rr, s.replayRequests.find? id = some rr ∧ a.idempotencyKey =
        "replay-auth:" ++ toString rr.outboxEventId ++ ":" ++ rr.idempotencyKey
  owned : ∀ id rr, s.replayRequests.find? id = some rr → ∃ a,
    s.authorizations.find? rr.authorizationId = some a ∧ a.actionType = .replay ∧
      a.requestedBy = rr.requestedBy

/-- The keys of the two services are apart. -/
theorem resume_key_ne {x y : String} : "resume-auth:" ++ x ≠ "replay-auth:" ++ y := by
  intro h
  have hlist := congrArg String.toList h
  simp at hlist

theorem replay_key_inj {oid oid' : Uuid} {key key' : String}
    (h : "replay-auth:" ++ toString oid ++ ":" ++ key =
      "replay-auth:" ++ toString oid' ++ ":" ++ key') : key = key' := by
  have hlist := congrArg String.toList h
  simp only [String.toList_append, List.append_assoc, List.append_cancel_left_eq] at hlist
  have hparts := append_colon_inj (colon_not_mem_uuid oid) (colon_not_mem_uuid oid') hlist
  exact String.toList_inj.mp hparts.2

/-- Only a request puts a row where there was none. -/
theorem ReplayStep.created (h : ReplayStep cfg Inv c s t) {id : Uuid} {row : ReplayRequest}
    (hs : s.replayRequests.find? id = none) (ht : t.replayRequests.find? id = some row) :
    ReplayRequested cfg s t id row := by
  have hputs : ∀ {j x y}, s.replayRequests.find? j = some x →
      s.replayRequests.Puts t.replayRequests j y → False := by
    intro j x y hx hrows
    rcases hrows.find ht with ⟨rfl, -⟩ | ⟨-, ht⟩
    · rw [hs] at hx
      cases hx
    · rw [hs] at ht
      cases ht
  cases h with
  | other hrows =>
    rw [hrows, hs] at ht
    cases ht
  | @requested j row' h =>
    rcases h.rows.find ht with ⟨rfl, rfl⟩ | ⟨-, ht⟩
    · exact h
    · rw [hs] at ht
      cases ht
  | authorized _ hrr _ _ _ _ hrows => exact (hputs hrr hrows).elim
  | declined hrr _ _ _ _ hrows => exact (hputs hrr hrows).elim
  | executed h => exact (hputs h.request h.rows).elim
  | expired _ hrows =>
    rw [hrows, hs, Option.map_none, ite_self] at ht
    cases ht

/-- A new request comes with an authorization of its own. -/
theorem ReplayRequested.owned {id : Uuid} {row : ReplayRequest} (hs : ReplayInv s)
    (h : ReplayRequested cfg s t id row) : ∃ a,
    t.authorizations.find? row.authorizationId = some a ∧ a.actionType = .replay ∧
      a.requestedBy = row.requestedBy := by
  rcases h.authorization with ⟨authorizationId, actor, a, u, hobtains, hrows, htype, hby, hkey⟩
  rw [hrows]
  cases hobtains with
  | new _ => exact ⟨a, Table.find?_insert_self _ _ _, htype, hby⟩
  | same_key hx hsame =>
    rw [hkey] at hsame
    -- an authorization of the same key would be that of a request of the same key
    rcases hs.keyed _ _ hx with ⟨rest, hresume⟩ | ⟨id', rr, hrr, hreplay⟩
    · rw [hresume, String.append_assoc, String.append_assoc] at hsame
      exact (resume_key_ne hsame).elim
    · rw [hreplay] at hsame
      have hfree := h.key_free id' rr hrr
      rw [replay_key_inj hsame, beq_self_eq_true] at hfree
      cases hfree

theorem Effect.replayInv {L : List Lock} (h : Effect cfg ReplayInv c r s t)
    (hc : c.direct = false) (hs : ReplayInv s) (hg : Guar L s t) : ReplayInv t where
  keyed := by
    intro k a ha
    cases ha₀ : s.authorizations.find? k with
    | none =>
      rcases h.obtained ha₀ ha with hdirect | ⟨id, row, -, -, -, -, -, hkey⟩ |
        ⟨id, row, hrow, -, -, -, -, hkey⟩
      · rw [hc] at hdirect
        cases hdirect
      · refine Or.inl ⟨toString row.clarificationId ++ ":" ++ row.idempotencyKey, ?_⟩
        rw [hkey, String.append_assoc, String.append_assoc, String.append_assoc]
      · exact Or.inr ⟨id, row, hrow, hkey⟩
    | some a₀ =>
      rcases hg.authorizations.find_same ha₀ with ⟨a', ha', hkept⟩
      have heq : a = a' := Option.some.inj (ha.symm.trans ha')
      subst heq
      rw [hkept.field Authorization.idempotencyKey fun _ => rfl]
      rcases hs.keyed k a₀ ha₀ with hresume | ⟨id, rr, hrr, hkey⟩
      · exact Or.inl hresume
      · rcases hg.replayRequests.find_same hrr with ⟨rr', hrr', hkept'⟩
        refine Or.inr ⟨id, rr', hrr', ?_⟩
        rw [hkey, hkept'.field ReplayRequest.outboxEventId fun _ => rfl,
          hkept'.field ReplayRequest.idempotencyKey fun _ => rfl]
  owned := by
    intro id rr hrr
    cases hrr₀ : s.replayRequests.find? id with
    | none => exact (h.replayStep.created hrr₀ hrr).owned hs
    | some rr₀ =>
      rcases hg.replayRequests.find_same hrr₀ with ⟨rr', hrr', hkept⟩
      have heq : rr = rr' := Option.some.inj (hrr.symm.trans hrr')
      subst heq
      rcases hs.owned id rr₀ hrr₀ with ⟨a, ha, htype, hby⟩
      rcases hg.authorizations.find_same ha with ⟨a', ha', hkept'⟩
      refine ⟨a', ?_, ?_, ?_⟩
      · rw [hkept.field ReplayRequest.authorizationId fun _ => rfl, ha']
      · rw [hkept'.field Authorization.actionType fun _ => rfl, htype]
      · rw [hkept'.field Authorization.requestedBy fun _ => rfl, hby,
          hkept.field ReplayRequest.requestedBy fun _ => rfl]

/-! ## Runs -/

/-- No authorization is given and no replay is requested. -/
structure Unreplayed (s : Db) : Prop where
  authorizations : ∀ id, s.authorizations.find? id = none
  requests : ∀ id, s.replayRequests.find? id = none

theorem Unreplayed.inv (h : Unreplayed s) : ReplayInv s where
  keyed := fun k a ha => by
    rw [h.authorizations k] at ha
    cases ha
  owned := fun id rr hrr => by
    rw [h.requests id] at hrr
    cases hrr

variable {ms ns ls : List (Commit Db Reply ServiceCall)} {m n : Commit Db Reply ServiceCall}

/-- The commit `n` inserted the request `rr` while the event was dead in its episode. -/
def RequestsReplay (id : Uuid) (rr : ReplayRequest) (n : Commit Db Reply ServiceCall) : Prop :=
  n.before.replayRequests.find? id = none ∧
    n.after.replayRequests.find? id = some rr.asRequested ∧
    ∃ o, DeadAt n.before rr.outboxEventId rr.resourceStateVersion o

/-- The commit `n` authorized the request `rr`, for an approver who is not its requester. -/
def AuthorizesReplay (id : Uuid) (rr : ReplayRequest) (n : Commit Db Reply ServiceCall) : Prop :=
  ∃ eventId actor scope policyVersion rr₀ rr₁,
    n.call.val = .authorizeReplay eventId id actor scope policyVersion ∧
    actor.role ∈ replayApproverRoles ∧ actor.principalId ≠ rr.requestedBy ∧
    n.before.replayRequests.find? id = some rr₀ ∧ rr₀.state = .authorizationPending ∧
    n.after.replayRequests.find? id = some rr₁ ∧ rr₁.state = .authorized

/-- The commit `m` executed the replay request. -/
def ExecutesReplay (id : Uuid) (m : Commit Db Reply ServiceCall) : Prop :=
  ∃ eventId actor scope readinessProvider x,
    m.call.val = .executeAuthorizedReplay eventId id actor scope readinessProvider ∧
    m.reply = .replay x ∧ x.ok = true

/-- A successful execution has replayed. -/
theorem Effect.replays {eventId id : Uuid} {actor : Actor} {scope : Scope}
    {readinessProvider : Destination → Readiness} {x : ReplayResult}
    (h : Effect cfg Inv (.executeAuthorizedReplay eventId id actor scope readinessProvider)
      (.replay x) s t) (hx : x.ok = true) : ∃ rr o now, Replays Inv s t id rr o now := by
  cases h with
  | quiet h =>
    have hno := h x rfl
    rw [hx] at hno
    cases hno
  | resumeDeclined hc _ _ _ _ _ _ _ => cases hc
  | resumeConfirmed hc _ _ _ _ _ => cases hc
  | replayDeclined hc _ _ _ _ _ _ => cases hc
  | replayBlocked hno _ =>
    rw [hx] at hno
    cases hno
  | replayExecuted hrr _ hstate ho hdead hversion hauth hcheck hnow hemit =>
    exact ⟨_, _, _, replays_of_effect hrr hstate ⟨ho, hdead, hversion⟩ hauth hcheck hnow hemit⟩

theorem ExecutesReplay.replays {id : Uuid} (hm : IsEffect cfg Inv Subtype.val m)
    (h : ExecutesReplay id m) : ∃ rr o now, Replays Inv m.before m.after id rr o now := by
  rcases h with ⟨eventId, actor, scope, readinessProvider, x, hcall, hreply, hx⟩
  have heffect := hm.effect
  rw [hcall, hreply] at heffect
  exact heffect.replays hx

theorem requested_of_run (h : Commits (IsEffect cfg Inv Subtype.val) s ms t)
    (hs : ∀ id, s.replayRequests.find? id = none) : ∀ id rr, t.replayRequests.find? id = some rr →
      ∃ n ∈ ms, RequestsReplay id rr n := by
  refine h.history (J := fun ms t => ∀ id rr, t.replayRequests.find? id = some rr →
    ∃ n ∈ ms, RequestsReplay id rr n) ?_ ?_
  · intro ms m _ hm ih id rr hrr
    cases hrr₀ : m.before.replayRequests.find? id with
    | none =>
      have hrequested := hm.effect.replayStep.created hrr₀ hrr
      exact ⟨m, by simp, hrr₀, by rw [hrequested.new, hrr], hrequested.dead⟩
    | some rr₀ =>
      rcases ih id rr₀ hrr₀ with ⟨n, hn, hbefore, hafter, o, hdead⟩
      rcases hm.guar with ⟨L, hg⟩
      rcases hg.replayRequests.find_same hrr₀ with ⟨rr', hrr', hkept⟩
      have heq : rr = rr' := Option.some.inj (hrr.symm.trans hrr')
      subst heq
      refine ⟨n, List.mem_append_left _ hn, hbefore, ?_, o, ?_⟩
      · rw [show rr.asRequested = rr₀.asRequested from hkept]
        exact hafter
      · rw [hkept.field ReplayRequest.outboxEventId fun _ => rfl,
          hkept.field ReplayRequest.resourceStateVersion fun _ => rfl]
        exact hdead
  · intro id rr hrr
    rw [hs id] at hrr
    cases hrr

/-- A request comes to be authorized in one kind of step. -/
theorem ReplayStep.authorized_before (h : ReplayStep cfg Inv c s t) {id : Uuid} {rr' : ReplayRequest}
    (hrr' : t.replayRequests.find? id = some rr') (hstate : rr'.state = .authorized) :
    s.replayRequests.find? id = some rr' ∨
      ∃ eventId actor scope policyVersion rr a decidedAt,
        c = .authorizeReplay eventId id actor scope policyVersion ∧
        s.replayRequests.find? id = some rr ∧ rr.state = .authorizationPending ∧
        Approves s rr.authorizationId actor scope policyVersion decidedAt a := by
  have hputs : ∀ {j x}, s.replayRequests.Puts t.replayRequests j x → x.state ≠ .authorized →
      s.replayRequests.find? id = some rr' := by
    intro j x hrows hno
    rcases hrows.find hrr' with ⟨-, rfl⟩ | ⟨-, hrr⟩
    · exact absurd hstate hno
    · exact hrr
  cases h with
  | other hrows =>
    rw [hrows] at hrr'
    exact Or.inl hrr'
  | requested h =>
    refine Or.inl (hputs h.rows ?_)
    rw [← h.new]
    exact nofun
  | authorized hc hrr hpending _ hauth _ hrows =>
    rcases hrows.find hrr' with ⟨rfl, -⟩ | ⟨-, hrr₀⟩
    · exact Or.inr ⟨_, _, _, _, _, _, _, hc, hrr, hpending, hauth⟩
    · exact Or.inl hrr₀
  | declined _ _ _ hend _ hrows =>
    refine Or.inl (hputs hrows ?_)
    rcases hend with h | h <;> simp [h]
  | executed h => exact Or.inl (hputs h.rows nofun)
  | @expired ids now h hrows =>
    rw [hrows] at hrr'
    by_cases hj : id ∈ ids
    · rcases h id hj with ⟨x, hx, -⟩
      rw [if_pos hj, hx, Option.map_some, Option.some.injEq] at hrr'
      rw [← hrr'] at hstate
      cases hstate
    · rw [if_neg hj] at hrr'
      exact Or.inl hrr'

theorem authorized_of_run (h : Commits (IsEffect cfg ReplayInv Subtype.val) s ms t)
    (hs : ∀ id, s.replayRequests.find? id = none) : ∀ id rr, t.replayRequests.find? id = some rr →
      rr.state = .authorized → ∃ n ∈ ms, AuthorizesReplay id rr n := by
  refine h.history (J := fun ms t => ∀ id rr, t.replayRequests.find? id = some rr →
    rr.state = .authorized → ∃ n ∈ ms, AuthorizesReplay id rr n) ?_ ?_
  · intro ms m _ hm ih id rr hrr hstate
    rcases hm.effect.replayStep.authorized_before hrr hstate with hrr₀ |
      ⟨eventId, actor, scope, policyVersion, rr₀, a, decidedAt, hc, hrr₀, hpending, hauth⟩
    · rcases ih id rr hrr₀ hstate with ⟨n, hn, hauthorizes⟩
      exact ⟨n, List.mem_append_left _ hn, hauthorizes⟩
    · rcases hm.inv.owned id rr₀ hrr₀ with ⟨a', ha', htype, hby⟩
      have heq : a = a' := Option.some.inj (hauth.row.symm.trans ha')
      subst heq
      have hmay := (mayAuthorize_of_allowed hauth.allowed).1
      rw [htype, hby] at hmay
      rcases hm.guar with ⟨L, hg⟩
      rcases hg.replayRequests.find_same hrr₀ with ⟨rr', hrr', hkept⟩
      have heq : rr = rr' := Option.some.inj (hrr.symm.trans hrr')
      subst heq
      rw [← hkept.field ReplayRequest.requestedBy fun _ => rfl] at hmay
      exact ⟨m, by simp, eventId, actor, scope, policyVersion, rr₀, rr, hc, hmay.1, hmay.2, hrr₀,
        hpending, hrr, hstate⟩
  · intro id rr hrr
    rw [hs id] at hrr
    cases hrr

theorem rowsAge_of_run (h : Commits (IsEffect cfg Inv Subtype.val) s ms t) : RowsAge s t :=
  h.related RowsAge.refl (fun _ _ _ => RowsAge.trans) fun _ hm => hm.effect.rowsAge

/-- An executed replay takes the row out of the dead episode in which the replay was requested,
changes nothing else of it, and was authorized by an approver who is not the requester. No
replay that is executed later is for the same episode. -/
theorem replays_bound {ι : Type} [DecidableEq ι] {y : Sys Db Lock Failure Reply ServiceCall ι}
    (hy : Reachable (fun c => program cfg c.val) Unreplayed y) (hlog : y.log = ns ++ m :: ls)
    {id : Uuid} (hexecutes : ExecutesReplay id m) :
    ∃ rr o, m.before.replayRequests.find? id = some rr ∧
      m.before.outbox.find? rr.outboxEventId = some o ∧ o.status = .dead ∧
      (∃ revivedAt, m.after.outbox.find? rr.outboxEventId = some
        { o with
          status := .pending
          availableAt := revivedAt
          deadAt := none
          lastError := none }) ∧
      (∃ n as bs, ns = as ++ n :: bs ∧ n.before.replayRequests.find? id = none ∧
        n.after.replayRequests.find? id = some rr.asRequested ∧
        n.before.outbox.find? rr.outboxEventId = some o ∧
        o.episode = some rr.resourceStateVersion ∧
        ∀ p ∈ n :: bs, p.after.outbox.find? rr.outboxEventId = some o) ∧
      (∃ n ∈ ns, AuthorizesReplay id rr n) ∧
      ∀ m' ∈ ls, ∀ id' rr', ExecutesReplay id' m' →
        m'.before.replayRequests.find? id' = some rr' → rr'.outboxEventId = rr.outboxEventId →
        rr'.resourceStateVersion ≠ rr.resourceStateVersion := by
  have hrun : ∃ s, Unreplayed s ∧ Commits (IsEffect cfg ReplayInv Subtype.val) s y.log y.db ∧
      ReplayInv y.db :=
    effects_of_reachable (fun _ hs => hs.inv)
      (fun c _ _ _ _ hs he hg => he.replayInv c.property hs hg) hy
  rcases hrun with ⟨s, hs, hrun, -⟩
  rw [hlog] at hrun
  rcases hrun.commit with ⟨hns, hm, hls⟩
  rcases hexecutes.replays hm with ⟨rr, o, now, h⟩
  rcases h.revived with ⟨revivedAt, hrevived⟩
  refine ⟨rr, o, h.request, h.dead.1, h.dead.2.1, ⟨revivedAt, hrevived⟩, ?_,
    authorized_of_run hns hs.requests id rr h.request h.state, ?_⟩
  · rcases requested_of_run hns hs.requests id rr h.request with ⟨n, hn, hbefore, hafter, x, hx⟩
    rcases hns.mem hn with ⟨as, bs, rfl, has, hn', hbs⟩
    have hcount : o.attempts = x.attempts := attempts_of_episode h.dead.2.2 hx.2.2
    -- the row is the same at every moment between the two
    have hbetween : ∀ {u : Db}, RowsAge n.before u → RowsAge u m.before →
        u.outbox.find? rr.outboxEventId = some x ∧ o = x :=
      fun hu hu' => hu.between hu' hx.1 hx.2.1 h.dead.1 h.dead.2.1 hcount
    have hfirst := hbetween (RowsAge.refl _)
      (hn'.effect.rowsAge.trans (rowsAge_of_run hbs))
    refine ⟨n, as, bs, rfl, hbefore, hafter, ?_, h.dead.2.2, fun p hp => ?_⟩
    · rw [hfirst.2]
      exact hx.1
    · rw [hfirst.2]
      rcases List.mem_cons.mp hp with rfl | hp
      · exact (hbetween hn'.effect.rowsAge (rowsAge_of_run hbs)).1
      · rcases hbs.mem hp with ⟨as', bs', rfl, has', hp', hbs'⟩
        have hbefore' := hn'.effect.rowsAge.trans (rowsAge_of_run has')
        exact (hbetween (hbefore'.trans hp'.effect.rowsAge) (rowsAge_of_run hbs')).1
  · intro m' hm' id' rr' hexecutes' hrr' hsame heq
    rcases hls.mem hm' with ⟨as, bs, -, has, hm'', -⟩
    rcases hexecutes'.replays hm'' with ⟨rr'', o', now', h'⟩
    have hrow : rr' = rr'' := Option.some.inj (hrr'.symm.trans h'.request)
    rw [← hrow] at h'
    have hcount : o'.attempts = o.attempts := by
      have hepisode := h'.dead.2.2
      rw [heq] at hepisode
      exact attempts_of_episode hepisode h.dead.2.2
    -- pending after the replay, the row has died again since
    rcases rowsAge_of_run has rr.outboxEventId _ hrevived with ⟨x, hx, hages⟩
    have hx' := h'.dead.1
    rw [hsame] at hx'
    have hrow' : o' = x := Option.some.inj (hx'.symm.trans hx)
    subst hrow'
    have hlive : (o.replayedRow o.attempts revivedAt).status ≠ .dead := nofun
    have hlt := hages.dies hlive h'.dead.2.1
    have hkeeps : (o.replayedRow o.attempts revivedAt).attempts = o.attempts := rfl
    omega

/-! ### A run -/

/-- An event whose publishes fail until it is dead. -/
def deadCalls : List ServiceCall := [
  ⟨.saveTask ⟨3⟩ { status := .intakeReview, projectId := some ⟨2⟩, productionEffect := false }, rfl⟩,
  ⟨.createClarification ⟨5⟩ ⟨3⟩ 100 50, rfl⟩,
  ⟨.insertLifecycleOutboxEvent ⟨20⟩ ⟨5⟩ ⟨3⟩ .resumeRequested "e1" [], rfl⟩,
  ⟨.publishOne (fun _ => false) (.failed "down"), rfl⟩, ⟨.tick (30 * second), rfl⟩,
  ⟨.publishOne (fun _ => false) (.failed "down"), rfl⟩, ⟨.tick (120 * second), rfl⟩,
  ⟨.publishOne (fun _ => false) (.failed "down"), rfl⟩, ⟨.tick (600 * second), rfl⟩,
  ⟨.publishOne (fun _ => false) (.failed "down"), rfl⟩, ⟨.tick (3600 * second), rfl⟩,
  ⟨.publishOne (fun _ => false) (.failed "down"), rfl⟩]

/-- Its replay is requested, approved and executed. -/
def episodeCalls : List ServiceCall := deadCalls ++ [
  ⟨.requestReplay ⟨⟨10⟩, ⟨11⟩, ⟨12⟩⟩ olga home ⟨20⟩ "k1" (5000 * second) none, rfl⟩,
  ⟨.authorizeReplay ⟨13⟩ ⟨11⟩ rita home "p1", rfl⟩,
  ⟨.executeAuthorizedReplay ⟨14⟩ ⟨11⟩ worker home (fun _ => .ready), rfl⟩]

def episodeRun : Sys Db Lock Failure Reply ServiceCall Unit :=
  Sys.calls (fun c => program openGates c.val) emptyDb episodeCalls

/-- The commit executed the replay request, as a test. -/
def executes (id : Uuid) (m : Commit Db Reply ServiceCall) : Bool :=
  match m.call.val, m.reply with
  | .executeAuthorizedReplay _ j _ _ _, .replay x => j == id && x.ok
  | _, _ => false

theorem executesReplay_of_executes {id : Uuid} (h : executes id m = true) : ExecutesReplay id m := by
  unfold executes at h
  split at h
  · rename_i eventId j actor scope readinessProvider x hcall hreply
    simp only [Bool.and_eq_true, beq_iff_eq] at h
    rw [h.1] at hcall
    exact ⟨eventId, actor, scope, readinessProvider, x, hcall, hreply, h.2⟩
  · cases h

theorem unreplayed_emptyDb : Unreplayed emptyDb := ⟨fun _ => rfl, fun _ => rfl⟩

theorem replays_run : ∃ ns m ls, episodeRun.log = ns ++ m :: ls ∧ ExecutesReplay ⟨11⟩ m ∧
    ∃ rr, m.before.replayRequests.find? ⟨11⟩ = some rr ∧ ∃ n ∈ ns, AuthorizesReplay ⟨11⟩ rr n := by
  have h : (episodeRun.log.any (executes ⟨11⟩)) = true := by decide +kernel
  rcases List.any_eq_true.mp h with ⟨m, hm, hexecutes⟩
  rcases List.append_of_mem hm with ⟨ns, ls, hlog⟩
  have hexecutes' := executesReplay_of_executes hexecutes
  have hy : Reachable (fun c : ServiceCall => program openGates c.val) Unreplayed episodeRun :=
    reachable_calls unreplayed_emptyDb episodeCalls
  rcases replays_bound hy hlog hexecutes' with ⟨rr, _, hrr, -, -, -, -, hauthorizes, -⟩
  exact ⟨ns, m, ls, hlog, hexecutes', rr, hrr, hauthorizes⟩

end AiAgentsSwd.Tasks
