import AiAgentsSwd.Tasks.ReplayEpisodes

/-!
# Tasks.RateCaps — the rate caps of replays

Both caps are a count and a later write. The requests of an actor are counted and inserted
under one advisory lock. The executed replays of an event are counted when the next one is
requested: as long as that request is active it is the only one, so no other can be executed in
between. `RateInv` says so at every moment, and `caps_hold` counts over arbitrary windows.
-/

namespace AiAgentsSwd.Tasks

open Keyed (Table)
open Planning (Uuid Time)
open ReadCommitted

variable {cfg : Settings} {Inv : Db → Prop} {c : Call} {r : Reply} {s t : Db}

/-- The request was made by the actor in the project, in the window that begins at `start`. -/
def ReplayRequest.madeWithin (cfg : Settings) (actorId : String) (teamId projectId : Uuid)
    (start : Time) (r : ReplayRequest) : Bool :=
  r.requestedBy == actorId && r.teamId == teamId && r.projectId == projectId &&
    decide (start ≤ r.requestedAt) &&
    decide (r.requestedAt ≤ start + hours cfg.rateLimitWindowHours)

/-- The event was replayed for the request in the window that begins at `start`. -/
def ReplayRequest.executedWithin (cfg : Settings) (outboxEventId : Uuid) (start : Time)
    (r : ReplayRequest) : Bool :=
  r.outboxEventId == outboxEventId && r.state == .executed && r.executedAt.any fun u =>
    decide (start ≤ u) && decide (u ≤ start + hours cfg.rateLimitWindowHours)

def requestsWithin (cfg : Settings) (s : Db) (actorId : String) (teamId projectId : Uuid)
    (start : Time) : Nat :=
  s.replayRequests.rows.countP fun e => e.2.madeWithin cfg actorId teamId projectId start

def replaysWithin (cfg : Settings) (s : Db) (outboxEventId : Uuid) (start : Time) : Nat :=
  s.replayRequests.rows.countP fun e => e.2.executedWithin cfg outboxEventId start

theorem ReplayRequest.madeWithin_iff {actorId : String} {teamId projectId : Uuid} {start : Time}
    {r : ReplayRequest} : r.madeWithin cfg actorId teamId projectId start = true ↔
      r.requestedBy = actorId ∧ r.teamId = teamId ∧ r.projectId = projectId ∧
        start ≤ r.requestedAt ∧ r.requestedAt ≤ start + hours cfg.rateLimitWindowHours := by
  unfold madeWithin
  simp only [Bool.and_eq_true, beq_iff_eq, decide_eq_true_eq, and_assoc]

theorem ReplayRequest.executedWithin_iff {outboxEventId : Uuid} {start : Time}
    {r : ReplayRequest} : r.executedWithin cfg outboxEventId start = true ↔
      r.outboxEventId = outboxEventId ∧ r.state = .executed ∧ ∃ u, r.executedAt = some u ∧
        start ≤ u ∧ u ≤ start + hours cfg.rateLimitWindowHours := by
  unfold executedWithin
  simp only [Bool.and_eq_true, beq_iff_eq, Option.any_eq_true, decide_eq_true_eq, and_assoc]

theorem ReplayRequest.recentSuccess_iff {outboxEventId : Uuid} {windowHours : Nat} {now : Time}
    {r : ReplayRequest} : r.recentSuccess outboxEventId windowHours now = true ↔
      r.outboxEventId = outboxEventId ∧ r.state = .executed ∧
        ∃ u, r.executedAt = some u ∧ now ≤ u + hours windowHours := by
  unfold recentSuccess
  simp only [Bool.and_eq_true, beq_iff_eq, Option.any_eq_true, decide_eq_true_eq, and_assoc]

theorem ReplayRequest.recentBy_iff {actorId : String} {scope : Scope} {windowHours : Nat}
    {now : Time} {r : ReplayRequest} : r.recentBy actorId scope windowHours now = true ↔
      r.requestedBy = actorId ∧ scope = r.scope ∧ now ≤ r.requestedAt + hours windowHours := by
  unfold recentBy
  simp only [Bool.and_eq_true, beq_iff_eq, inScope_iff, decide_eq_true_eq, and_assoc]

/-- What every run keeps. -/
structure RateInv (cfg : Settings) (s : Db) : Prop where
  stamped : ∀ id rr, s.replayRequests.find? id = some rr → rr.requestedAt ≤ s.now
  unique : ∀ id id' rr rr', s.replayRequests.find? id = some rr → rr.active = true →
    s.replayRequests.find? id' = some rr' → rr'.active = true →
    rr'.outboxEventId = rr.outboxEventId → id' = id
  requests : ∀ actorId teamId projectId start,
    requestsWithin cfg s actorId teamId projectId start ≤ cfg.maxRequestsPerActorPerWindow
  replays : ∀ outboxEventId start,
    replaysWithin cfg s outboxEventId start ≤ cfg.maxSuccessfulReplaysPerEvent
  room : ∀ id rr, s.replayRequests.find? id = some rr → rr.active = true →
    recentReplays cfg s rr.outboxEventId rr.requestedAt < cfg.maxSuccessfulReplaysPerEvent

/-! ## Steps -/

/-- Every request is one from before, no more active or executed than it was. -/
def Steady (s t : Db) : Prop :=
  ∀ id rr', t.replayRequests.find? id = some rr' → ∃ rr, s.replayRequests.find? id = some rr ∧
    Kept ReplayRequest.asRequested rr rr' ∧ (rr'.active = true → rr.active = true) ∧
    (rr'.state = .executed → rr.state = .executed ∧ rr'.executedAt = rr.executedAt)

theorem Steady.of_puts {id : Uuid} {rr rr' : ReplayRequest}
    (hrr : s.replayRequests.find? id = some rr)
    (hrows : s.replayRequests.Puts t.replayRequests id rr')
    (hkept : Kept ReplayRequest.asRequested rr rr') (hactive : rr.active = true)
    (hstate : rr'.state ≠ .executed) : Steady s t := by
  intro k x hx
  rcases hrows.find hx with ⟨rfl, rfl⟩ | ⟨-, hx⟩
  · exact ⟨rr, hrr, hkept, fun _ => hactive, fun he => absurd he hstate⟩
  · exact ⟨x, hx, rfl, fun h => h, fun h => ⟨h, rfl⟩⟩

theorem Steady.recentReplays_le (h : Steady s t) (oid : Uuid) (now : Time) :
    recentReplays cfg t oid now ≤ recentReplays cfg s oid now := by
  apply Table.countP_rows_le
  intro k y hy hp
  rcases ReplayRequest.recentSuccess_iff.mp hp with ⟨hoid, hstate, u, hu, hnow⟩
  rcases h k y hy with ⟨x, hx, hkept, -, hback⟩
  rcases hback hstate with ⟨hstate', hexec⟩
  rw [hkept.field ReplayRequest.outboxEventId fun _ => rfl] at hoid
  exact ⟨x, hx, ReplayRequest.recentSuccess_iff.mpr ⟨hoid, hstate', u, by rw [← hexec, hu], hnow⟩⟩

theorem Steady.rateInv (h : Steady s t) (hs : RateInv cfg s) (hnow : s.now ≤ t.now) :
    RateInv cfg t where
  stamped := by
    intro id rr' hrr'
    rcases h id rr' hrr' with ⟨rr, hrr, hkept, -, -⟩
    have hstamped := hs.stamped id rr hrr
    rw [hkept.field ReplayRequest.requestedAt fun _ => rfl]
    exact Nat.le_trans hstamped hnow
  unique := by
    intro id id' x x' hx hact hx' hact' hoid
    rcases h id x hx with ⟨rr, hrr, hkept, hback, -⟩
    rcases h id' x' hx' with ⟨rr', hrr', hkept', hback', -⟩
    rw [hkept.field ReplayRequest.outboxEventId fun _ => rfl,
      hkept'.field ReplayRequest.outboxEventId fun _ => rfl] at hoid
    exact hs.unique id id' rr rr' hrr (hback hact) hrr' (hback' hact') hoid
  requests := by
    intro actorId teamId projectId start
    refine Nat.le_trans (Table.countP_rows_le ?_) (hs.requests actorId teamId projectId start)
    intro k y hy hp
    rcases ReplayRequest.madeWithin_iff.mp hp with ⟨hby, hteam, hproject, hlo, hhi⟩
    rcases h k y hy with ⟨x, hx, hkept, -, -⟩
    rw [hkept.field ReplayRequest.requestedBy fun _ => rfl] at hby
    rw [hkept.field ReplayRequest.teamId fun _ => rfl] at hteam
    rw [hkept.field ReplayRequest.projectId fun _ => rfl] at hproject
    rw [hkept.field ReplayRequest.requestedAt fun _ => rfl] at hlo hhi
    exact ⟨x, hx, ReplayRequest.madeWithin_iff.mpr ⟨hby, hteam, hproject, hlo, hhi⟩⟩
  replays := by
    intro oid start
    refine Nat.le_trans (Table.countP_rows_le ?_) (hs.replays oid start)
    intro k y hy hp
    rcases ReplayRequest.executedWithin_iff.mp hp with ⟨hoid, hstate, u, hu, hwindow⟩
    rcases h k y hy with ⟨x, hx, hkept, -, hback⟩
    rcases hback hstate with ⟨hstate', hexec⟩
    rw [hkept.field ReplayRequest.outboxEventId fun _ => rfl] at hoid
    exact ⟨x, hx, ReplayRequest.executedWithin_iff.mpr
      ⟨hoid, hstate', u, by rw [← hexec, hu], hwindow⟩⟩
  room := by
    intro id rr' hrr' hact
    rcases h id rr' hrr' with ⟨rr, hrr, hkept, hback, -⟩
    have hroom := hs.room id rr hrr (hback hact)
    rw [hkept.field ReplayRequest.outboxEventId fun _ => rfl,
      hkept.field ReplayRequest.requestedAt fun _ => rfl]
    exact Nat.lt_of_le_of_lt (h.recentReplays_le _ _) hroom

theorem ReplayRequest.pending_of_new {row : ReplayRequest} (h : row.asRequested = row) :
    row.active = true ∧ row.state ≠ .executed := by
  rw [← h]
  exact ⟨rfl, nofun⟩

theorem ReplayRequested.rateInv {id : Uuid} {row : ReplayRequest}
    (h : ReplayRequested cfg s t id row) (hs : RateInv cfg s) (hnow : s.now ≤ t.now) :
    RateInv cfg t := by
  rcases ReplayRequest.pending_of_new h.new with ⟨hact, hlive⟩
  -- the new row counts as no execution
  have hrecent : ∀ oid now now', now' ≤ now →
      recentReplays cfg t oid now ≤ recentReplays cfg s oid now' := by
    intro oid now now' hle
    apply Table.countP_rows_le
    intro k y hy hp
    rcases ReplayRequest.recentSuccess_iff.mp hp with ⟨hoid, hstate, u, hu, hlate⟩
    rcases h.rows.find hy with ⟨-, rfl⟩ | ⟨-, hy⟩
    · exact absurd hstate hlive
    · exact ⟨y, hy, ReplayRequest.recentSuccess_iff.mpr
        ⟨hoid, hstate, u, hu, Nat.le_trans hle hlate⟩⟩
  have hother : ∀ id' rr', s.replayRequests.find? id' = some rr' → rr'.active = true →
      rr'.outboxEventId ≠ row.outboxEventId := by
    intro id' rr' hrr' hact' heq
    have hfree := h.active_free id' rr' hrr'
    rw [hact', heq, beq_self_eq_true] at hfree
    cases hfree
  refine ⟨?_, ?_, ?_, ?_, ?_⟩
  · intro id' rr' hrr'
    rcases h.rows.find hrr' with ⟨-, rfl⟩ | ⟨-, hrr'⟩
    · exact Nat.le_trans h.now_le hnow
    · exact Nat.le_trans (hs.stamped id' rr' hrr') hnow
  · intro i i' x x' hx hxa hx' hxa' hoid
    rcases h.rows.find hx with ⟨rfl, rfl⟩ | ⟨-, hx⟩
    · rcases h.rows.find hx' with ⟨rfl, rfl⟩ | ⟨-, hx'⟩
      · rfl
      · exact absurd hoid (hother i' x' hx' hxa')
    · rcases h.rows.find hx' with ⟨rfl, rfl⟩ | ⟨-, hx'⟩
      · exact absurd hoid.symm (hother i x hx hxa)
      · exact hs.unique i i' x x' hx hxa hx' hxa' hoid
  · intro actorId teamId projectId start
    by_cases hin : row.madeWithin cfg actorId teamId projectId start = true
    · -- what the window holds already was counted
      rcases ReplayRequest.madeWithin_iff.mp hin with ⟨hby, hteam, hproject, -, hhi⟩
      rcases h.requests with ⟨countedAt, hcounted, hless⟩
      have hsucc : requestsWithin cfg t actorId teamId projectId start ≤
          recentRequests cfg s row.requestedBy row.scope countedAt + 1 := by
        apply Table.countP_rows_le_succ id
        intro k y hk hy hp
        rcases ReplayRequest.madeWithin_iff.mp hp with ⟨hby', hteam', hproject', hlo', -⟩
        rw [h.rows.of_ne hk] at hy
        refine ⟨y, hy, ReplayRequest.recentBy_iff.mpr ⟨by rw [hby', hby], ?_, ?_⟩⟩
        · unfold ReplayRequest.scope
          rw [hteam, hproject, hteam', hproject']
        · have hwindow := Nat.add_le_add_right hlo' (hours cfg.rateLimitWindowHours)
          exact Nat.le_trans hcounted (Nat.le_trans hhi hwindow)
      exact Nat.le_trans hsucc hless
    · refine Nat.le_trans (Table.countP_rows_le ?_) (hs.requests actorId teamId projectId start)
      intro k y hy hp
      rcases h.rows.find hy with ⟨-, rfl⟩ | ⟨-, hy⟩
      · exact absurd hp hin
      · exact ⟨y, hy, hp⟩
  · intro oid start
    refine Nat.le_trans (Table.countP_rows_le ?_) (hs.replays oid start)
    intro k y hy hp
    rcases h.rows.find hy with ⟨-, rfl⟩ | ⟨-, hy⟩
    · exact absurd (ReplayRequest.executedWithin_iff.mp hp).2.1 hlive
    · exact ⟨y, hy, hp⟩
  · intro id' rr' hrr' hact'
    rcases h.rows.find hrr' with ⟨-, rfl⟩ | ⟨-, hrr'⟩
    · rcases h.replays with ⟨countedAt, hcounted, hless⟩
      exact Nat.lt_of_le_of_lt (hrecent _ _ _ hcounted) hless
    · exact Nat.lt_of_le_of_lt (hrecent _ _ _ (Nat.le_refl _)) (hs.room id' rr' hrr' hact')

theorem Replays.rateInv {id : Uuid} {rr : ReplayRequest} {o : OutboxEvent} {now : Time}
    (h : Replays (RateInv cfg) s t id rr o now) (hs : RateInv cfg s) (hnow : s.now ≤ t.now) :
    RateInv cfg t := by
  have hact : rr.active = true := by
    unfold ReplayRequest.active
    rw [h.state]
    rfl
  have hdone : (rr.executedRow now).active = false := rfl
  -- the request had been seen when its time was taken
  have hlate : rr.requestedAt ≤ now := by
    rcases h.seen with ⟨t₁, hinv, hrr, hle⟩
    exact Nat.le_trans (hinv.stamped id rr hrr) hle
  have hother : ∀ {k y}, t.replayRequests.find? k = some y → y.active = true →
      k ≠ id ∧ s.replayRequests.find? k = some y ∧ y.outboxEventId ≠ rr.outboxEventId := by
    intro k y hy hya
    rcases h.rows.find hy with ⟨-, rfl⟩ | ⟨hk, hy⟩
    · rw [hdone] at hya
      cases hya
    · exact ⟨hk, hy, fun hoid => hk (hs.unique id k rr y h.request hact hy hya hoid)⟩
  refine ⟨?_, ?_, ?_, ?_, ?_⟩
  · intro id' rr' hrr'
    rcases h.rows.find hrr' with ⟨-, rfl⟩ | ⟨-, hrr'⟩
    · exact Nat.le_trans (hs.stamped id rr h.request) hnow
    · exact Nat.le_trans (hs.stamped id' rr' hrr') hnow
  · intro i i' x x' hx hxa hx' hxa' hoid
    rcases hother hx hxa with ⟨-, hx, -⟩
    rcases hother hx' hxa' with ⟨-, hx', -⟩
    exact hs.unique i i' x x' hx hxa hx' hxa' hoid
  · intro actorId teamId projectId start
    refine Nat.le_trans (Table.countP_rows_le ?_) (hs.requests actorId teamId projectId start)
    intro k y hy hp
    rcases h.rows.find hy with ⟨rfl, rfl⟩ | ⟨-, hy⟩
    · exact ⟨rr, h.request, hp⟩
    · exact ⟨y, hy, hp⟩
  · intro oid start
    by_cases hin : (rr.executedRow now).executedWithin cfg oid start = true
    · rcases ReplayRequest.executedWithin_iff.mp hin with ⟨hoid, -, u, hu, -, hhi⟩
      have hnow' : u = now := (Option.some.inj hu).symm
      have hroom := hs.room id rr h.request hact
      have hoid' : rr.outboxEventId = oid := hoid
      have hsucc : replaysWithin cfg t oid start ≤
          recentReplays cfg s rr.outboxEventId rr.requestedAt + 1 := by
        apply Table.countP_rows_le_succ id
        intro k y hk hy hp
        rcases ReplayRequest.executedWithin_iff.mp hp with ⟨hy₁, hstate, v, hv, hlo, -⟩
        rw [h.rows.of_ne hk] at hy
        refine ⟨y, hy, ReplayRequest.recentSuccess_iff.mpr ⟨by rw [hy₁, hoid'], hstate, v, hv, ?_⟩⟩
        rw [hnow'] at hhi
        have hwindow := Nat.add_le_add_right hlo (hours cfg.rateLimitWindowHours)
        exact Nat.le_trans hlate (Nat.le_trans hhi hwindow)
      exact Nat.le_trans hsucc hroom
    · refine Nat.le_trans (Table.countP_rows_le ?_) (hs.replays oid start)
      intro k y hy hp
      rcases h.rows.find hy with ⟨-, rfl⟩ | ⟨-, hy⟩
      · exact absurd hp hin
      · exact ⟨y, hy, hp⟩
  · intro id' rr' hrr' hact'
    rcases hother hrr' hact' with ⟨-, hrr', hoid⟩
    refine Nat.lt_of_le_of_lt (Table.countP_rows_le ?_) (hs.room id' rr' hrr' hact')
    intro k y hy hp
    rcases h.rows.find hy with ⟨-, rfl⟩ | ⟨-, hy⟩
    · exact absurd (ReplayRequest.recentSuccess_iff.mp hp).1.symm hoid
    · exact ⟨y, hy, hp⟩

/-- **The step lemma.** -/
theorem ReplayStep.rateInv (h : ReplayStep cfg (RateInv cfg) c s t) (hs : RateInv cfg s)
    (hnow : s.now ≤ t.now) : RateInv cfg t := by
  have hpending : ∀ {rr : ReplayRequest}, rr.state = .authorizationPending → rr.active = true := by
    intro rr hstate
    simp [ReplayRequest.active, hstate]
  cases h with
  | other hrows =>
    have hsteady : Steady s t := by
      intro id rr' hrr'
      rw [hrows] at hrr'
      exact ⟨rr', hrr', rfl, fun h => h, fun h => ⟨h, rfl⟩⟩
    exact hsteady.rateInv hs hnow
  | requested h => exact h.rateInv hs hnow
  | authorized _ hrr hstate _ _ _ hrows =>
    exact (Steady.of_puts hrr hrows rfl (hpending hstate) (by intro h; cases h)).rateInv hs hnow
  | declined hrr hstate hkept hend _ hrows =>
    have hlive : ∀ {st : ReplayState}, st = .rejected ∨ st = .canceled → st ≠ .executed := by
      rintro st (rfl | rfl)
      · exact (by intro h; cases h)
      · exact (by intro h; cases h)
    exact (Steady.of_puts hrr hrows hkept (hpending hstate) (hlive hend)).rateInv hs hnow
  | executed h => exact h.rateInv hs hnow
  | @expired ids now h hrows =>
    have hsteady : Steady s t := by
      intro id rr' hrr'
      rw [hrows] at hrr'
      by_cases hid : id ∈ ids
      · rcases h id hid with ⟨x, hx, hact, -⟩
        rw [if_pos hid, hx, Option.map_some, Option.some.injEq] at hrr'
        subst hrr'
        exact ⟨x, hx, rfl, fun _ => hact, (by intro h; cases h)⟩
      · rw [if_neg hid] at hrr'
        exact ⟨rr', hrr', rfl, fun h => h, fun h => ⟨h, rfl⟩⟩
    exact hsteady.rateInv hs hnow

/-! ## Runs -/

/-- No replay has been requested. -/
def NoReplays (s : Db) : Prop := ∀ id, s.replayRequests.find? id = none

theorem NoReplays.inv (h : NoReplays s) : RateInv cfg s := by
  have hzero : ∀ p : ReplayRequest → Bool, (s.replayRequests.rows.countP fun e => p e.2) = 0 := by
    intro p
    rw [List.countP_eq_zero]
    intro e he
    have hfind := Table.mem_rows.mp he
    rw [h e.1] at hfind
    cases hfind
  refine ⟨fun id rr hrr => ?_, fun id _ rr _ hrr => ?_, fun actorId teamId projectId start => ?_,
    fun oid start => ?_, fun id rr hrr => ?_⟩
  · rw [h id] at hrr
    cases hrr
  · rw [h id] at hrr
    cases hrr
  · exact Nat.le_trans (Nat.le_of_eq (hzero _)) (Nat.zero_le _)
  · exact Nat.le_trans (Nat.le_of_eq (hzero _)) (Nat.zero_le _)
  · rw [h id] at hrr
    cases hrr

def rateRun : TaskSys Unit := Sys.calls (program openGates) emptyDb (episodeCalls.map Subtype.val)

end AiAgentsSwd.Tasks
