import AiAgentsSwd.Deliberation.Runs

/-!
# Deliberation.Precedence — the reason a discussion stops for

`STOP_REASON_PRECEDENCE` orders the reasons a discussion may stop for. `Watched` keeps what a
call of `advance` has read, and `Ordered` says that of the listed reasons the call read none
earlier than the one it closes the discussion with.

One worker alone keeps the order but at one place: at the boundary of the last round the round
bound is looked at before the counts are (`Tied`).
-/

namespace AiAgentsSwd.Deliberation

open Transition
open Reasoning (ReasoningResult InvocationStatus)

variable {ι α : Type}

/-! ## The order -/

/-- `STOP_REASON_PRECEDENCE` -/
def stopReasonPrecedence : List StopReason :=
  [.timeoutReached, .insufficientParticipants, .messageLimitReached, .invocationLimitReached,
    .participantTurnLimitReached, .participantUnavailable, .roundLimitReached]

/-- The first seat without a recorded turn. -/
def nextSeat (count : Nat) (roundTurns : List (Nat × DiscussionTurn)) : Option Nat :=
  let recordedSeats := (roundTurns.filter fun e => e.2.status = .recorded).map Prod.fst
  (List.range count).find? fun seat => !recordedSeats.contains seat

/-- What a call reads. -/
inductive Read where
  | session (session : DiscussionSession) (deadlineExpired : Bool)
  | participants (participants : List DiscussionParticipant)
  | turns (roundTurns : List (Nat × DiscussionTurn))
  | roster (available : Bool)

/-- The condition of a reason is true in what a call has read. The turn bound is that of the
participant who is to speak next; once the round is complete that is seat 0. -/
def TrueIn (cfg : Config α) (log : List Read) : StopReason → Prop
  | .timeoutReached => ∃ s, .session s true ∈ log
  | .insufficientParticipants => ∃ ps, .participants ps ∈ log ∧ ps.length < minParticipants
  | .messageLimitReached => ∃ s e, .session s e ∈ log ∧ cfg.bounds.maxMessages ≤ s.messagesPosted
  | .invocationLimitReached =>
    ∃ s e, .session s e ∈ log ∧ cfg.bounds.maxInvocations ≤ s.invocationsStarted
  | .participantTurnLimitReached =>
    ∃ ps ts p, .participants ps ∈ log ∧ .turns ts ∈ log ∧
      ps[(nextSeat ps.length ts).getD 0]? = some p ∧
      cfg.bounds.maxTurnsPerParticipant ≤ p.turnsTaken
  | .participantUnavailable => .roster false ∈ log
  | .roundLimitReached =>
    ∃ s e ps ts, .session s e ∈ log ∧ .participants ps ∈ log ∧ .turns ts ∈ log ∧
      nextSeat ps.length ts = none ∧ cfg.bounds.maxRounds ≤ s.currentRound
  | _ => False

/-- No earlier reason is true in what the call has read. -/
def Ordered (cfg : Config α) (log : List Read) (reason : StopReason) : Prop :=
  ∀ r ∈ stopReasonPrecedence.takeWhile (· ≠ reason), ¬TrueIn cfg log r

/-- The last round ended unresolved, and a count that stands before the round bound is used up
as well. -/
def Tied (cfg : Config α) (room : Room) : Prop :=
  let turns := room.listTurns room.session.currentRound
  let count := room.participants.length
  minParticipants ≤ count ∧ nextSeat count turns = none ∧
    (evaluateConvergence ((turns.filter fun e => e.1 < count).map Prod.snd)).converged = false ∧
    cfg.bounds.maxRounds ≤ room.session.currentRound ∧
    (cfg.bounds.maxMessages ≤ room.session.messagesPosted ∨
      cfg.bounds.maxInvocations ≤ room.session.invocationsStarted ∨
      ∃ p, room.participants[0]? = some p ∧ cfg.bounds.maxTurnsPerParticipant ≤ p.turnsTaken)

/-! ## One worker, watched -/

/-- The rows and the worker, and what its call has read so far. -/
structure Watched (ι α : Type) where
  world : World ι α
  log : List Read

variable (cfg : Config α)

/-- What a phase's statement reads. -/
def Phase.reads (now : Int) (room : Room) : Phase α → List Read
  | .reading => [.session room.session (cfg.bounds.deadlineExpired now)]
  | .listingParticipants _ => [.participants room.participants]
  | .listingTurns session _ => [.turns (room.listTurns session.currentRound)]
  | .atBoundary _ _ _ => [.session room.session (cfg.bounds.deadlineExpired now)]
  | .waiting _ => [.session room.session (cfg.bounds.deadlineExpired now)]
  | .checkpoint _ _ _ => [.session room.session (cfg.bounds.deadlineExpired now)]
  | .reclosing => [.session room.session (cfg.bounds.deadlineExpired now)]
  | _ => []

/-- What the log is after an action of the worker. -/
def Watched.record (x : Watched ι α) (i : ι) : Act ι α → List Read
  | .advance _ => []
  | .run _ now => x.log ++ ((x.world.workers i).map (Phase.reads cfg now x.world.room)).getD []
  | .roster _ available => x.log ++ [.roster available]
  | _ => x.log

variable [DecidableEq ι]

/-- An action of the worker's calls of `advance`, or of the clock. -/
def Act.ofWorker (i : ι) : Act ι α → Bool
  | .tick _ => true
  | .advance j => j = i
  | .cancel _ => false
  | .crash j => j = i
  | .run j _ => j = i
  | .roster j _ => j = i
  | .invoke j => j = i
  | .reason j _ => j = i

/-- One worker alone advances the discussion. -/
def soloStep (i : ι) (x : Watched ι α) (a : Act ι α) : Option (Watched ι α) :=
  if a.ofWorker i then (step cfg x.world a).map fun w => ⟨w, x.record cfg i a⟩ else none

/-! ## What a call knows of what it has read -/

/-- No reason up to the turn bound is true in what was read, and the round goes on. -/
structure Calm (room : Room) (log : List Read) : Prop where
  reasons : ∀ r ∈ stopReasonPrecedence.takeWhile (· ≠ .participantUnavailable),
    ¬TrueIn cfg log r
  untied : ¬Tied cfg room

/-- What a call in the phase has read. -/
def Phase.HasRead (room : Room) (log : List Read) : Phase α → Prop
  | .reading => log = []
  | .listingParticipants session => log = [.session session false] ∧ session = room.session
  | .listingTurns session participants =>
    log = [.session session false, .participants participants] ∧ session = room.session ∧
      participants = room.participants ∧ minParticipants ≤ participants.length
  | .checkingAvailable _ => Calm cfg room log
  | .atBoundary roundIndex converged participants =>
    log = [.session room.session false, .participants room.participants,
      .turns (room.listTurns room.session.currentRound)] ∧
      roundIndex = room.session.currentRound ∧ participants = room.participants ∧
      minParticipants ≤ room.participants.length ∧
      nextSeat room.participants.length (room.listTurns room.session.currentRound) = none ∧
      converged = (evaluateConvergence (((room.listTurns room.session.currentRound).filter fun e =>
        e.1 < room.participants.length).map Prod.snd)).converged
  | .closing reason _ => reason ∈ stopReasonPrecedence → reason ≠ .timeoutReached →
      (Ordered cfg log reason ↔ ¬Tied cfg room)
  | .failing _ _ next => ∀ r, next = some r → r ∈ stopReasonPrecedence → r = .timeoutReached
  | _ => True

variable {cfg}

theorem hasRead_timeout {room : Room} {log : List Read} {result : Option Nat} :
    (Phase.closing .timeoutReached result : Phase α).HasRead cfg room log :=
  fun _ hne => absurd rfl hne

/-- A closure for a reason that is not listed promises nothing. -/
theorem hasRead_unlisted {room : Room} {log : List Read} {reason : StopReason}
    {result : Option Nat} (h : reason ∉ stopReasonPrecedence) :
    (Phase.closing reason result : Phase α).HasRead cfg room log :=
  fun hmem _ => absurd hmem h

theorem afterRecorded_hasRead {room : Room} {log : List Read} {call : TurnCall} {m : Option Nat}
    {q : Phase α} (h : call.afterRecorded m = some q) : q.HasRead cfg room log := by
  unfold TurnCall.afterRecorded at h
  by_cases hc : call.converging = true
  · rw [if_pos hc] at h
    obtain rfl := Option.some.inj h
    exact hasRead_unlisted (by decide)
  · rw [if_neg hc] at h
    cases h

/-! ### The first true reason -/

section Reasons

variable {log : List Read} {s : DiscussionSession} {ps : List DiscussionParticipant}
  {ts : List (Nat × DiscussionTurn)}

theorem not_timeout (h : ∀ s', Read.session s' true ∉ log) : ¬TrueIn cfg log .timeoutReached := by
  intro htrue
  obtain ⟨s', hs'⟩ := htrue
  exact h s' hs'

theorem not_insufficient
    (h : ∀ ps', Read.participants ps' ∈ log → minParticipants ≤ ps'.length) :
    ¬TrueIn cfg log .insufficientParticipants := by
  intro htrue
  obtain ⟨ps', hps', hlt⟩ := htrue
  have hle := h ps' hps'
  omega

/-- After the listings: everything a call has read. -/
theorem mem_listed {r : Read} :
    r ∈ [Read.session s false, .participants ps, .turns ts] ↔
      r = .session s false ∨ r = .participants ps ∨ r = .turns ts := by
  simp

theorem listed_timeout :
    ¬TrueIn cfg [Read.session s false, .participants ps, .turns ts] .timeoutReached := by
  refine not_timeout fun s' hs' => ?_
  rcases mem_listed.mp hs' with h | h | h <;> cases h

theorem listed_insufficient (hlen : minParticipants ≤ ps.length) :
    ¬TrueIn cfg [Read.session s false, .participants ps, .turns ts] .insufficientParticipants := by
  refine not_insufficient fun ps' hps' => ?_
  rcases mem_listed.mp hps' with h | h | h
  · cases h
  · cases h
    exact hlen
  · cases h

theorem listed_messages :
    TrueIn cfg [Read.session s false, .participants ps, .turns ts] .messageLimitReached ↔
      cfg.bounds.maxMessages ≤ s.messagesPosted := by
  constructor
  · intro htrue
    obtain ⟨s', e, hs', hle⟩ := htrue
    rcases mem_listed.mp hs' with h | h | h
    · cases h
      exact hle
    · cases h
    · cases h
  · intro hle
    exact ⟨s, false, mem_listed.mpr (Or.inl rfl), hle⟩

theorem listed_invocations :
    TrueIn cfg [Read.session s false, .participants ps, .turns ts] .invocationLimitReached ↔
      cfg.bounds.maxInvocations ≤ s.invocationsStarted := by
  constructor
  · intro htrue
    obtain ⟨s', e, hs', hle⟩ := htrue
    rcases mem_listed.mp hs' with h | h | h
    · cases h
      exact hle
    · cases h
    · cases h
  · intro hle
    exact ⟨s, false, mem_listed.mpr (Or.inl rfl), hle⟩

theorem listed_turns :
    TrueIn cfg [Read.session s false, .participants ps, .turns ts] .participantTurnLimitReached ↔
      ∃ p, ps[(nextSeat ps.length ts).getD 0]? = some p ∧
        cfg.bounds.maxTurnsPerParticipant ≤ p.turnsTaken := by
  constructor
  · intro htrue
    obtain ⟨ps', ts', p, hps', hts', hp, hle⟩ := htrue
    have hps : ps' = ps := by
      rcases mem_listed.mp hps' with h | h | h
      · cases h
      · cases h
        rfl
      · cases h
    have hts : ts' = ts := by
      rcases mem_listed.mp hts' with h | h | h
      · cases h
      · cases h
      · cases h
        rfl
    subst hps
    subst hts
    exact ⟨p, hp, hle⟩
  · intro hp
    obtain ⟨p, hp, hle⟩ := hp
    exact ⟨ps, ts, p, mem_listed.mpr (Or.inr (Or.inl rfl)),
      mem_listed.mpr (Or.inr (Or.inr rfl)), hp, hle⟩

theorem listed_roster :
    ¬TrueIn cfg [Read.session s false, .participants ps, .turns ts] .participantUnavailable := by
  intro htrue
  rcases mem_listed.mp htrue with h | h | h <;> cases h

/-- The roster's answer is the last thing read, and says nothing of the counts. -/
theorem trueIn_append_roster (available : Bool) {r : StopReason}
    (hr : r ∈ stopReasonPrecedence.takeWhile (· ≠ .participantUnavailable)) :
    TrueIn cfg (log ++ [.roster available]) r ↔ TrueIn cfg log r := by
  have hsession : ∀ s' e, Read.session s' e ∈ log ++ [.roster available] ↔
      Read.session s' e ∈ log := by
    intro s' e
    rw [List.mem_append, List.mem_singleton]
    constructor
    · intro h
      rcases h with h | h
      · exact h
      · cases h
    · exact Or.inl
  have hparticipants : ∀ ps', Read.participants ps' ∈ log ++ [.roster available] ↔
      Read.participants ps' ∈ log := by
    intro ps'
    rw [List.mem_append, List.mem_singleton]
    constructor
    · intro h
      rcases h with h | h
      · exact h
      · cases h
    · exact Or.inl
  have hturns : ∀ ts', Read.turns ts' ∈ log ++ [.roster available] ↔ Read.turns ts' ∈ log := by
    intro ts'
    rw [List.mem_append, List.mem_singleton]
    constructor
    · intro h
      rcases h with h | h
      · exact h
      · cases h
    · exact Or.inl
  have hcases : r = .timeoutReached ∨ r = .insufficientParticipants ∨ r = .messageLimitReached ∨
      r = .invocationLimitReached ∨ r = .participantTurnLimitReached := by
    have hlist : stopReasonPrecedence.takeWhile (· ≠ .participantUnavailable) =
        [.timeoutReached, .insufficientParticipants, .messageLimitReached,
          .invocationLimitReached, .participantTurnLimitReached] := by decide
    rw [hlist] at hr
    simpa using hr
  rcases hcases with rfl | rfl | rfl | rfl | rfl
  · simp only [TrueIn, hsession]
  · simp only [TrueIn, hparticipants]
  · simp only [TrueIn, hsession]
  · simp only [TrueIn, hsession]
  · simp only [TrueIn, hparticipants, hturns]

end Reasons

/-! ### Statements -/

section Statements

variable {room room' : Room} {log : List Read} {now : Int} {p : Phase α} {q : Option (Phase α)}

theorem not_tied_of_nextSeat {seat : Nat} (h : nextSeat room.participants.length
    (room.listTurns room.session.currentRound) = some seat) : ¬Tied cfg room := by
  intro htied
  have hnone := htied.2.1
  rw [h] at hnone
  cases hnone

/-- Once everything is listed, the call closes for the first count that is used up, goes on with
the next turn, or stands at the boundary of the round. -/
theorem afterListing_hasRead (hlen : minParticipants ≤ room.participants.length) {q : Phase α}
    (h : afterListing cfg room.session room.participants
      (room.listTurns room.session.currentRound) = some q) :
    q.HasRead cfg room [.session room.session false, .participants room.participants,
      .turns (room.listTurns room.session.currentRound)] := by
  obtain ⟨ts, hts⟩ : ∃ ts, room.listTurns room.session.currentRound = ts := ⟨_, rfl⟩
  have htimeout : ¬TrueIn cfg [Read.session room.session false, .participants room.participants,
      .turns ts] .timeoutReached := listed_timeout
  have hinsufficient : ¬TrueIn cfg [Read.session room.session false,
      .participants room.participants, .turns ts] .insufficientParticipants :=
    listed_insufficient hlen
  rw [hts] at h ⊢
  unfold afterListing at h
  simp only at h
  cases hseat : nextSeat room.participants.length ts with
  | none =>
    have hfind : (List.range room.participants.length).find? (fun seat =>
        !((ts.filter fun e => e.2.status = .recorded).map Prod.fst).contains seat) = none := hseat
    rw [hfind] at h
    obtain rfl := Option.some.inj h
    refine ⟨?_, rfl, rfl, hlen, ?_, ?_⟩
    · rw [hts]
    · rw [hts]
      exact hseat
    · rw [hts]
  | some seat =>
    have hfind : (List.range room.participants.length).find? (fun seat =>
        !((ts.filter fun e => e.2.status = .recorded).map Prod.fst).contains seat) =
          some seat := hseat
    rw [hfind] at h
    have huntied : ¬Tied cfg room := not_tied_of_nextSeat (by rw [hts]; exact hseat)
    simp only at h
    by_cases hmessages : cfg.bounds.maxMessages ≤ room.session.messagesPosted
    · have hexceeded : budgetExceeded cfg room.session = some .messageLimitReached :=
        if_pos hmessages
      rw [hexceeded] at h
      obtain rfl := Option.some.inj h
      refine fun _ _ => iff_of_true ?_ huntied
      intro r hr
      have hlist : stopReasonPrecedence.takeWhile (· ≠ .messageLimitReached) =
          [.timeoutReached, .insufficientParticipants] := by decide
      rw [hlist, List.mem_cons, List.mem_singleton] at hr
      rcases hr with rfl | rfl
      · exact htimeout
      · exact hinsufficient
    have hnotmessages : ¬TrueIn cfg [Read.session room.session false,
        .participants room.participants, .turns ts] .messageLimitReached :=
      fun htrue => hmessages (listed_messages.mp htrue)
    by_cases hinvocations : cfg.bounds.maxInvocations ≤ room.session.invocationsStarted
    · have hexceeded : budgetExceeded cfg room.session = some .invocationLimitReached := by
        unfold budgetExceeded
        rw [if_neg hmessages, if_pos hinvocations]
      rw [hexceeded] at h
      obtain rfl := Option.some.inj h
      refine fun _ _ => iff_of_true ?_ huntied
      intro r hr
      have hlist : stopReasonPrecedence.takeWhile (· ≠ .invocationLimitReached) =
          [.timeoutReached, .insufficientParticipants, .messageLimitReached] := by decide
      rw [hlist] at hr
      simp only [List.mem_cons, List.not_mem_nil, or_false] at hr
      rcases hr with rfl | rfl | rfl
      · exact htimeout
      · exact hinsufficient
      · exact hnotmessages
    have hnotinvocations : ¬TrueIn cfg [Read.session room.session false,
        .participants room.participants, .turns ts] .invocationLimitReached :=
      fun htrue => hinvocations (listed_invocations.mp htrue)
    have hexceeded : budgetExceeded cfg room.session = none := by
      unfold budgetExceeded
      rw [if_neg hmessages, if_neg hinvocations]
    rw [hexceeded] at h
    obtain ⟨participant, hp, h⟩ := Option.bind_eq_some_iff.mp h
    by_cases hturns : cfg.bounds.maxTurnsPerParticipant ≤ participant.turnsTaken
    · rw [if_pos hturns] at h
      obtain rfl := Option.some.inj h
      refine fun _ _ => iff_of_true ?_ huntied
      intro r hr
      have hlist : stopReasonPrecedence.takeWhile (· ≠ .participantTurnLimitReached) =
          [.timeoutReached, .insufficientParticipants, .messageLimitReached,
            .invocationLimitReached] := by decide
      rw [hlist] at hr
      simp only [List.mem_cons, List.not_mem_nil, or_false] at hr
      rcases hr with rfl | rfl | rfl | rfl
      · exact htimeout
      · exact hinsufficient
      · exact hnotmessages
      · exact hnotinvocations
    · rw [if_neg hturns] at h
      obtain ⟨plan, -, rfl⟩ := Option.map_eq_some_iff.mp h
      have hnotturns : ¬TrueIn cfg [Read.session room.session false,
          .participants room.participants, .turns ts] .participantTurnLimitReached := by
        intro htrue
        obtain ⟨p', hp', hle⟩ := listed_turns.mp htrue
        rw [hseat, Option.getD_some, hp] at hp'
        obtain rfl := Option.some.inj hp'
        exact hturns hle
      refine ⟨?_, huntied⟩
      intro r hr
      have hlist : stopReasonPrecedence.takeWhile (· ≠ .participantUnavailable) =
          [.timeoutReached, .insufficientParticipants, .messageLimitReached,
            .invocationLimitReached, .participantTurnLimitReached] := by decide
      rw [hlist] at hr
      simp only [List.mem_cons, List.not_mem_nil, or_false] at hr
      rcases hr with rfl | rfl | rfl | rfl | rfl
      · exact htimeout
      · exact hinsufficient
      · exact hnotmessages
      · exact hnotinvocations
      · exact hnotturns

/-- At the boundary of the last round the order is kept exactly if no count is used up. -/
theorem boundary_ordered_iff (hlen : minParticipants ≤ room.participants.length)
    (hseat : nextSeat room.participants.length (room.listTurns room.session.currentRound) = none)
    (hverdict : (evaluateConvergence (((room.listTurns room.session.currentRound).filter fun e =>
      e.1 < room.participants.length).map Prod.snd)).converged = false)
    (hround : cfg.bounds.maxRounds ≤ room.session.currentRound) :
    Ordered cfg ([Read.session room.session false, .participants room.participants,
      .turns (room.listTurns room.session.currentRound)] ++ [.session room.session false])
      .roundLimitReached ↔ ¬Tied cfg room := by
  obtain ⟨ts, hts⟩ : ∃ ts, room.listTurns room.session.currentRound = ts := ⟨_, rfl⟩
  -- the session is read a second time, and is the same
  have hsame : ∀ r, TrueIn cfg ([Read.session room.session false,
      .participants room.participants, .turns ts] ++ [.session room.session false]) r ↔
      TrueIn cfg [Read.session room.session false, .participants room.participants, .turns ts]
        r := by
    intro r
    have hmem : ∀ x, x ∈ [Read.session room.session false, .participants room.participants,
        .turns ts] ++ [.session room.session false] ↔
        x ∈ [Read.session room.session false, .participants room.participants, .turns ts] := by
      intro x
      rw [List.mem_append, List.mem_singleton, mem_listed]
      constructor
      · intro h
        rcases h with h | h
        · exact h
        · exact Or.inl h
      · exact Or.inl
    cases r <;> simp only [TrueIn, hmem]
  have hlist : stopReasonPrecedence.takeWhile (· ≠ .roundLimitReached) =
      [.timeoutReached, .insufficientParticipants, .messageLimitReached,
        .invocationLimitReached, .participantTurnLimitReached, .participantUnavailable] := by
    decide
  unfold Ordered Tied
  rw [hts] at hseat hverdict
  simp only [hts, hlist, hsame]
  constructor
  · intro hordered htied
    rcases htied.2.2.2.2 with hm | hi | hp
    · exact hordered .messageLimitReached (by decide) (listed_messages.mpr hm)
    · exact hordered .invocationLimitReached (by decide) (listed_invocations.mpr hi)
    · refine hordered .participantTurnLimitReached (by decide) (listed_turns.mpr ?_)
      rw [hseat]
      exact hp
  · intro huntied r hr
    have hbudget : ¬(cfg.bounds.maxMessages ≤ room.session.messagesPosted ∨
        cfg.bounds.maxInvocations ≤ room.session.invocationsStarted ∨
        ∃ p, room.participants[0]? = some p ∧ cfg.bounds.maxTurnsPerParticipant ≤ p.turnsTaken) :=
      fun h => huntied ⟨hlen, hseat, hverdict, hround, h⟩
    simp only [List.mem_cons, List.not_mem_nil, or_false] at hr
    rcases hr with rfl | rfl | rfl | rfl | rfl | rfl
    · exact listed_timeout
    · exact listed_insufficient hlen
    · exact fun htrue => hbudget (Or.inl (listed_messages.mp htrue))
    · exact fun htrue => hbudget (Or.inr (Or.inl (listed_invocations.mp htrue)))
    · intro htrue
      have hp := listed_turns.mp htrue
      rw [hseat] at hp
      exact hbudget (Or.inr (Or.inr hp))
    · exact listed_roster

/-- Every statement leaves its call knowing what it has read. -/
theorem statement_hasRead {invocation : Slot → Option InvocationStatus} {q : Phase α}
    (h : statement cfg now invocation room p = some (room', some q))
    (hp : p.HasRead cfg room log) : q.HasRead cfg room' (log ++ p.reads cfg now room) := by
  cases p with
  | checkingAvailable call => cases h
  | starting call => cases h
  | invoking call => cases h
  | reading =>
    obtain ⟨rfl, hq⟩ := Prod.mk.inj (Option.some.inj h)
    by_cases hopen : room.session.state = .open
    · rw [if_neg (not_not.mpr hopen)] at hq
      by_cases hexpired : cfg.bounds.deadlineExpired now = true
      · rw [if_pos hexpired] at hq
        obtain rfl := Option.some.inj hq
        exact hasRead_timeout
      · rw [if_neg hexpired] at hq
        obtain rfl := Option.some.inj hq
        have hlog : log = [] := hp
        refine ⟨?_, rfl⟩
        rw [hlog]
        show [Read.session room.session (cfg.bounds.deadlineExpired now)] = _
        rw [Bool.eq_false_iff.mpr hexpired]
    · rw [if_pos hopen] at hq
      cases hq
  | listingParticipants session =>
    obtain ⟨rfl, hq⟩ := Prod.mk.inj (Option.some.inj h)
    obtain ⟨hlog, hsession⟩ := hp
    have hlog' : log ++ (Phase.listingParticipants session : Phase α).reads cfg now room =
        [.session session false, .participants room.participants] := by
      rw [hlog]
      rfl
    rw [hlog']
    by_cases hlt : room.participants.length < minParticipants
    · rw [if_pos hlt] at hq
      obtain rfl := Option.some.inj hq
      refine fun _ _ => iff_of_true ?_ ?_
      · intro r hr
        have hlist : stopReasonPrecedence.takeWhile (· ≠ .insufficientParticipants) =
            [.timeoutReached] := by decide
        rw [hlist, List.mem_singleton] at hr
        rw [hr]
        refine not_timeout fun s' hs' => ?_
        simp at hs'
      · intro htied
        have hle := htied.1
        omega
    · rw [if_neg hlt] at hq
      obtain rfl := Option.some.inj hq
      exact ⟨rfl, hsession, rfl, by omega⟩
  | listingTurns session participants =>
    obtain ⟨rfl, hq⟩ := Prod.mk.inj (Option.some.inj h)
    obtain ⟨hlog, rfl, rfl, hlen⟩ := hp
    have hnext := afterListing_hasRead hlen hq
    rw [hlog]
    exact hnext
  | atBoundary roundIndex converged participants =>
    obtain ⟨rfl, hq⟩ := Prod.mk.inj (Option.some.inj h)
    obtain ⟨hlog, rfl, rfl, hlen, hseat, hverdict⟩ := hp
    by_cases hopen : room.session.state = .open
    · rw [if_neg (not_not.mpr hopen)] at hq
      by_cases hexpired : cfg.bounds.deadlineExpired now = true
      · rw [if_pos hexpired] at hq
        obtain rfl := Option.some.inj hq
        exact hasRead_timeout
      · rw [if_neg hexpired] at hq
        cases hconverged : converged with
        | true =>
          rw [hconverged, if_pos rfl] at hq
          obtain ⟨call, -, rfl⟩ := Option.map_eq_some_iff.mp hq
          exact trivial
        | false =>
          rw [hconverged] at hq hverdict
          rw [if_neg Bool.false_ne_true] at hq
          by_cases hround : cfg.bounds.maxRounds ≤ room.session.currentRound
          · rw [if_pos hround] at hq
            obtain rfl := Option.some.inj hq
            intro _ _
            have hlast : (Phase.atBoundary room.session.currentRound converged room.participants :
                Phase α).reads cfg now room = [.session room.session false] := by
              show [Read.session room.session (cfg.bounds.deadlineExpired now)] = _
              rw [Bool.eq_false_iff.mpr hexpired]
            rw [hconverged] at hlast
            rw [hlog, hlast]
            exact boundary_ordered_iff hlen hseat hverdict.symm hround
          · rw [if_neg hround] at hq
            obtain rfl := Option.some.inj hq
            exact trivial
    · rw [if_pos hopen] at hq
      cases hq
  | advancingRound roundIndex =>
    obtain ⟨-, hq⟩ := Prod.mk.inj (Option.some.inj h)
    cases hq
  | claiming call =>
    rw [statement] at h
    split at h
    · obtain ⟨-, hq⟩ := Prod.mk.inj (Option.some.inj h)
      obtain rfl := Option.some.inj hq
      exact trivial
    · obtain ⟨-, hq⟩ := Prod.mk.inj (Option.some.inj h)
      obtain rfl := Option.some.inj hq
      exact trivial
  | fetching call =>
    obtain ⟨rfl, hq⟩ := Prod.mk.inj (Option.some.inj h)
    split at hq
    · cases hq
    · next turn _ =>
      split at hq
      · exact afterRecorded_hasRead hq
      · cases hq
      · obtain rfl := Option.some.inj hq
        exact trivial
  | resolving call =>
    obtain ⟨rfl, hq⟩ := Prod.mk.inj (Option.some.inj h)
    split at hq
    · obtain rfl := Option.some.inj hq
      exact trivial
    · obtain rfl := Option.some.inj hq
      exact trivial
    · obtain rfl := Option.some.inj hq
      intro r hr hmem
      obtain rfl := Option.some.inj hr
      exact absurd hmem (by decide)
  | waiting call =>
    obtain ⟨rfl, hq⟩ := Prod.mk.inj (Option.some.inj h)
    split at hq
    · cases hq
    · split at hq
      · obtain rfl := Option.some.inj hq
        exact hasRead_timeout
      · cases hq
  | checkpoint call artifact inv =>
    obtain ⟨rfl, hq⟩ := Prod.mk.inj (Option.some.inj h)
    unfold afterCheckpoint at hq
    split at hq
    · obtain rfl := Option.some.inj hq
      intro r hr
      cases hr
    · split at hq
      · obtain rfl := Option.some.inj hq
        intro r hr _
        exact (Option.some.inj hr).symm
      · obtain ⟨x, -, rfl⟩ := Option.map_eq_some_iff.mp hq
        exact trivial
  | posting call message count =>
    obtain ⟨-, hq⟩ := Prod.mk.inj (Option.some.inj h)
    obtain rfl := Option.some.inj hq
    exact trivial
  | recording call message count m =>
    rw [statement] at h
    split at h
    · obtain ⟨-, hq⟩ := Prod.mk.inj (Option.some.inj h)
      exact afterRecorded_hasRead hq
    · obtain ⟨-, hq⟩ := Prod.mk.inj (Option.some.inj h)
      cases hq
  | failing slot inv next =>
    obtain ⟨-, hq⟩ := Prod.mk.inj (Option.some.inj h)
    obtain ⟨reason, hreason, rfl⟩ := Option.map_eq_some_iff.mp hq
    intro hmem hne
    exact absurd (hp reason hreason hmem) hne
  | closing reason result =>
    simp only [statement] at h
    split at h
    · obtain ⟨-, hq⟩ := Prod.mk.inj (Option.some.inj h)
      cases hq
    · obtain ⟨-, hq⟩ := Prod.mk.inj (Option.some.inj h)
      split at hq
      · obtain rfl := Option.some.inj hq
        exact trivial
      · cases hq
  | reclosing =>
    obtain ⟨rfl, hq⟩ := Prod.mk.inj (Option.some.inj h)
    split at hq
    · obtain rfl := Option.some.inj hq
      exact hasRead_timeout
    · cases hq

end Statements

/-! ## Runs -/

section Runs

variable {i : ι} {x x' : Watched ι α} {a : Act ι α}

/-- What the worker's call knows of what it has read. -/
def Knowing (cfg : Config α) (i : ι) (x : Watched ι α) : Prop :=
  ∀ p, x.world.workers i = some p → p.HasRead cfg x.world.room x.log

theorem soloStep_eq_some (h : soloStep cfg i x a = some x') :
    a.ofWorker i = true ∧ step cfg x.world a = some x'.world ∧ x'.log = x.record cfg i a := by
  unfold soloStep at h
  by_cases ha : a.ofWorker i = true
  · rw [if_pos ha] at h
    obtain ⟨w, hw, rfl⟩ := Option.map_eq_some_iff.mp h
    exact ⟨ha, hw, rfl⟩
  · rw [if_neg ha] at h
    cases h

theorem workers_goto_self {w : World ι α} {q : Option (Phase α)} :
    (w.goto i q).workers i = q := if_pos rfl

theorem afterInvoke_hasRead {room : Room} {log : List Read} {call : TurnCall}
    {result : Option (ReasoningResult α)} {q : Phase α}
    (h : result.bind (afterInvoke call) = some q) : q.HasRead cfg room log := by
  obtain ⟨r, -, h⟩ := Option.bind_eq_some_iff.mp h
  unfold afterInvoke at h
  split at h
  · cases h
  · split at h
    · obtain rfl := Option.some.inj h
      intro reason hreason hmem
      obtain rfl := Option.some.inj hreason
      exact absurd hmem (by decide)
    · obtain rfl := Option.some.inj h
      exact trivial

theorem Knowing.step (hk : Knowing cfg i x) (h : soloStep cfg i x a = some x') :
    Knowing cfg i x' := by
  obtain ⟨ha, hs, hlog⟩ := soloStep_eq_some h
  obtain ⟨w', hw'⟩ : ∃ w', x'.world = w' := ⟨_, rfl⟩
  rw [hw'] at hs
  intro p hp
  rw [hw'] at hp ⊢
  rw [hlog]
  cases step_effect hs with
  | ticked t hle => exact hk p hp
  | advanced j hj =>
    have hij : j = i := of_decide_eq_true ha
    subst hij
    rw [workers_goto_self] at hp
    obtain rfl := Option.some.inj hp
    rfl
  | cancelled j hj => cases ha
  | died j =>
    have hij : j = i := of_decide_eq_true ha
    subst hij
    rw [workers_goto_self] at hp
    cases hp
  | diedInvoking j hj =>
    have hij : j = i := of_decide_eq_true ha
    subst hij
    rw [workers_goto_self] at hp
    cases hp
  | @stated j now p₀ room q hj hstatement =>
    have hij : j = i := of_decide_eq_true ha
    subst hij
    rw [workers_goto_self] at hp
    subst hp
    have hknown := statement_hasRead hstatement (hk p₀ hj)
    have hrecord : x.record cfg j (.run j now) = x.log ++ p₀.reads cfg now x.world.room := by
      show x.log ++ ((x.world.workers j).map _).getD [] = _
      rw [hj]
      rfl
    rw [hrecord]
    exact hknown
  | @answered j available call q hj hq =>
    have hij : j = i := of_decide_eq_true ha
    subst hij
    rw [workers_goto_self] at hp
    obtain rfl := Option.some.inj hp
    have hcalm : Calm cfg x.world.room x.log := hk _ hj
    rcases hq with rfl | rfl
    · exact trivial
    · refine fun _ _ => iff_of_true ?_ hcalm.untied
      intro r hr
      have htrue := hcalm.reasons r hr
      rw [← trueIn_append_roster available hr] at htrue
      exact htrue
  | @invoked j call r hj hr =>
    have hij : j = i := of_decide_eq_true ha
    subst hij
    rw [workers_goto_self] at hp
    obtain rfl := Option.some.inj hp
    exact trivial
  | @reasoning j call act r hj hr =>
    have hij : j = i := of_decide_eq_true ha
    subst hij
    exact hk p hp
  | @reasoned j call act r hj hr =>
    have hij : j = i := of_decide_eq_true ha
    subst hij
    rw [workers_goto_self] at hp
    exact afterInvoke_hasRead hp

/-- **The first true reason.** Whenever one worker alone closes a discussion for a listed reason,
no earlier reason was true in what its call had read, exactly unless the last round had ended
unresolved with a count used up, and the deadline had not passed. -/
theorem ordered_iff {clock : Int} {w₀ : World ι α} (hopened : Opened clock w₀) {reason : StopReason}
    (hreach : Reaches (soloStep cfg i) ⟨w₀, []⟩ x) (h : soloStep cfg i x a = some x')
    (hopen : x.world.room.session.state = .open)
    (hclosed : x'.world.room.session.state ≠ .open)
    (hreason : x'.world.room.session.stopReason = some reason)
    (hlisted : reason ∈ stopReasonPrecedence) :
    ∃ now, a = .run i now ∧ (Ordered cfg x'.log reason ↔
      (Tied cfg x.world.room → cfg.bounds.deadlineExpired now = true)) := by
  have hstart : Knowing cfg i ⟨w₀, []⟩ := by
    intro p hp
    cases hopened with
    | session principals => cases hp
    | failedSession r hr now => cases hp
  have hk : Knowing cfg i x := hreach.invariant (fun _ _ _ hk hs => hk.step hs) hstart
  obtain ⟨ha, hs, hlog⟩ := soloStep_eq_some h
  have hsame : ∀ w : World ι α, x'.world = w → w.room = x.world.room → False := by
    intro w hw hroom
    rw [hw, hroom] at hclosed
    exact hclosed hopen
  obtain ⟨w', hw'⟩ : ∃ w', x'.world = w' := ⟨_, rfl⟩
  rw [hw'] at hs hclosed hreason
  cases step_effect hs with
  | ticked t hle => exact (hsame _ hw' rfl).elim
  | advanced j hj => exact (hsame _ hw' rfl).elim
  | cancelled j hj => exact (hsame _ hw' rfl).elim
  | died j => exact (hsame _ hw' rfl).elim
  | diedInvoking j hj => exact (hsame _ hw' rfl).elim
  | answered j hj hq => exact (hsame _ hw' rfl).elim
  | invoked j hj hr => exact (hsame _ hw' rfl).elim
  | reasoning j hj hr => exact (hsame _ hw' rfl).elim
  | reasoned j hj hr => exact (hsame _ hw' rfl).elim
  | @stated j now p room q hj hstatement =>
    have hij : j = i := of_decide_eq_true ha
    subst hij
    refine ⟨now, rfl, ?_⟩
    have hstate : room.session.state ≠ .open := hclosed
    have hstop : room.session.stopReason = some reason := hreason
    -- only the closing statement ends a discussion
    cases statement_write hstatement with
    | nothing => exact absurd hopen hstate
    | claimed hp hnew => exact absurd hopen hstate
    | posted hp => exact absurd hopen hstate
    | recorded hp ht hstatus =>
      refine absurd ?_ hstate
      show x.world.room.session.charged.state = .open
      rw [DiscussionSession.charged_state]
      exact hopen
    | abandoned hp ht hstatus => exact absurd hopen hstate
    | advanced hp hstill => exact absurd hopen hstate
    | @closed stopReason result hp hstill hguard =>
      have heq : stopReason = reason := Option.some.inj hstop
      subst heq
      subst hp
      have hlog' : x'.log = x.log := by
        rw [hlog]
        show x.log ++ ((x.world.workers j).map _).getD [] = _
        rw [hj]
        exact List.append_nil _
      rw [hlog']
      by_cases htimeout : stopReason = .timeoutReached
      · -- nothing comes before the deadline, and it has passed
        subst htimeout
        have hexpired : cfg.bounds.deadlineExpired now = true := hguard
        refine iff_of_true ?_ fun _ => hexpired
        intro r hr
        cases hr
      · have hknown := hk _ hj hlisted htimeout
        have hunexpired : cfg.bounds.deadlineExpired now = false := by
          have hguarded : stopReason ∉ unguardedCloseReasons := by
            intro hmem
            unfold unguardedCloseReasons at hmem
            rw [List.mem_cons, List.mem_singleton] at hmem
            rcases hmem with hcancelled | h'
            · rw [hcancelled] at hlisted
              exact absurd hlisted (by decide)
            · exact htimeout h'
          unfold closeGuard at hguard
          rw [if_neg htimeout, if_pos (decide_eq_true hguarded)] at hguard
          simpa using hguard
        rw [hknown, hunexpired]
        constructor
        · exact fun huntied htied => absurd htied huntied
        · exact fun himp htied => Bool.false_ne_true (himp htied)

end Runs

/-! ## Two runs -/

/-- The worker closes the discussion for the reason by its next statement. -/
def closesNext (cfg : Config Reply) (x : Watched Nat Reply) (now : Int) (reason : StopReason) :
    Bool :=
  x.world.room.session.state = .open &&
    (soloStep cfg 1 x (.run 1 now)).any fun x' =>
      decide (x'.world.room.session.state ≠ .open) &&
        decide (x'.world.room.session.stopReason = some reason)

theorem of_closesNext {cfg : Config Reply} {x : Watched Nat Reply} {now : Int}
    {reason : StopReason} (h : closesNext cfg x now reason = true) :
    x.world.room.session.state = .open ∧ ∃ x', soloStep cfg 1 x (.run 1 now) = some x' ∧
      x'.world.room.session.state ≠ .open ∧ x'.world.room.session.stopReason = some reason := by
  unfold closesNext at h
  rw [Bool.and_eq_true] at h
  obtain ⟨x', hx', hend⟩ := (Option.any_eq_true _ _).mp h.2
  rw [Bool.and_eq_true] at hend
  exact ⟨of_decide_eq_true h.1, x', hx', of_decide_eq_true hend.1, of_decide_eq_true hend.2⟩

/-- The deadline has passed when the worker reads the session. -/
def expires : List (Act Nat Reply) := [.tick 60, .advance 1, .run 1 60]

theorem ordered_expires :
    ∃ x x', soloStep twoRounds 1 x (.run 1 60) = some x' ∧
      ∃ now, Act.run 1 60 = (.run 1 now : Act Nat Reply) ∧
        (Ordered twoRounds x'.log .timeoutReached ↔
          (Tied twoRounds x.world.room → twoRounds.bounds.deadlineExpired now = true)) := by
  have hrun : ((runActs (soloStep twoRounds 1) ⟨openedByTwo, []⟩ expires).any fun x =>
      closesNext twoRounds x 60 .timeoutReached) = true := by
    decide +kernel
  obtain ⟨x, hx, hnext⟩ := (Option.any_eq_true _ _).mp hrun
  obtain ⟨hopen, x', hx', hclosed, hreason⟩ := of_closesNext hnext
  exact ⟨x, x', hx', ordered_iff openedByTwo_opened (reaches_of_runActs hx) hx' hopen hclosed
    hreason (by decide)⟩

/-- One round and two messages. -/
def oneRound : Config Reply :=
  { twoRounds with bounds := ⟨1, 2, 24, 3, 60, le_refl 1, one_le_two, one_le_twentyFour, one_le_three⟩ }

/-- Both speak in the only round, and the second one raises a concern. -/
def contested : List (Act Nat Reply) :=
  turn 1 .proposal ++ turn 1 (.critique ["c"] []) ++ [.advance 1] ++ runs 1 4

/-- The messages counted in a session that was read. -/
def Read.messages : Read → Nat
  | .session s _ => s.messagesPosted
  | _ => 0

theorem trueIn_of_messages {log : List Read} {r : Read} (hr : r ∈ log)
    (h : 2 ≤ r.messages) : TrueIn oneRound log .messageLimitReached := by
  cases r with
  | session s e => exact ⟨s, e, hr, h⟩
  | participants ps => cases h
  | turns ts => cases h
  | roster available => cases h

/-- The round bound is named although the message bound was reached as well. -/
theorem not_ordered : ¬∀ (x x' : Watched Nat Reply) (a : Act Nat Reply) (reason : StopReason),
    Reaches (soloStep oneRound 1) ⟨openedByTwo, []⟩ x → soloStep oneRound 1 x a = some x' →
    x.world.room.session.state = .open → x'.world.room.session.state ≠ .open →
    x'.world.room.session.stopReason = some reason → reason ∈ stopReasonPrecedence →
    Ordered oneRound x'.log reason := by
  intro h
  have hrun : ((runActs (soloStep oneRound 1) ⟨openedByTwo, []⟩ contested).any fun x =>
      closesNext oneRound x 0 .roundLimitReached &&
        x.log.any fun r => decide (2 ≤ r.messages)) = true := by
    decide +kernel
  obtain ⟨x, hx, hend⟩ := (Option.any_eq_true _ _).mp hrun
  rw [Bool.and_eq_true] at hend
  obtain ⟨hopen, x', hx', hclosed, hreason⟩ := of_closesNext hend.1
  have hordered := h x x' _ _ (reaches_of_runActs hx) hx' hopen hclosed hreason (by decide)
  obtain ⟨r, hr, hmessages⟩ := List.any_eq_true.mp hend.2
  -- the log only grows until the call ends
  have hmem : r ∈ x'.log := by
    obtain ⟨-, -, hlog⟩ := soloStep_eq_some hx'
    rw [hlog]
    exact List.mem_append_left _ hr
  exact hordered .messageLimitReached (by decide)
    (trueIn_of_messages hmem (of_decide_eq_true hmessages))

end AiAgentsSwd.Deliberation
