import AiAgentsSwd.Retry.Moves
import AiAgentsSwd.Transition.Measure
import Mathlib.Algebra.BigOperators.Ring.Multiset

/-!
# Retry.Outcomes — how often an event runs, and where it ends

1. `handler_runs_bounded`: whatever fails, an event runs as often as its counters allow, and once
   more for every replay;
2. `events_kept`: an event is somewhere, unless a publication failed or the scheduler stopped with
   a task whose message it had acknowledged;
3. `failing_event_settles`: where nothing else fails, an event that always fails runs exactly so
   often, and ends in one terminal failure.
-/

namespace AiAgentsSwd.Retry

open Python (Runtime)
open Transition

variable {ι : Type} {rt : Runtime} {sa : StreamAgent} {Faults Drops Replays : Prop}
  {old new : List (Token ι)}

/-! ## Weights -/

/-- The runs of the handler that the counters of an event allow. -/
def allowance (rt : Runtime) (event : Event) : Int :=
  match counters rt event with
  | some (count, most) => max (most - count) 0 + 1
  | none => 1

/-- A dead letter comes back once more when it has reached its maximum, and no more when it has
gone beyond. -/
def comesBack (rt : Runtime) (letter : Event) : Int :=
  match counters rt letter with
  | some (count, most) => if count ≤ most then 1 else 0
  | none => 0

/-- The runs that an event still has before it, or has had. -/
def runs (rt : Runtime) : Place → Event → Int
  | .queued, event => allowance rt event
  | .held, event => allowance rt event
  | .failing, event => allowance rt event - 1
  | .letter, letter => comesBack rt letter
  | .looped, letter => comesBack rt letter
  | .task, letter => comesBack rt letter
  | .ran, _ => 1
  | .replayed, _ => -1
  | _, _ => 0

/-- The event is here. -/
def whereabouts : Place → Event → Int
  | .acking, _ => 0
  | .entry, _ => 0
  | .ran, _ => 0
  | .replayed, _ => -1
  | _, _ => 1

/-- The event was handled or stranded. -/
def leftAside : Place → Event → Int
  | .handled, _ => 1
  | .stranded, _ => 1
  | _, _ => 0

def isDropped : Place → Event → Int
  | .dropped, _ => 1
  | _, _ => 0

/-- The steps of the two processes that an event still needs. -/
def steps (rt : Runtime) : Place → Event → Int
  | .queued, event => 7 * allowance rt event
  | .held, event => 7 * allowance rt event - 1
  | .failing, event => 7 * allowance rt event - 2
  | .acking, _ => 1
  | .letter, letter => 7 * comesBack rt letter + 3
  | .looped, letter => 7 * comesBack rt letter + 2
  | .task, letter => 7 * comesBack rt letter + 1
  | _, _ => 0

/-- The weight of a token of whatever event. -/
def plain (f : Place → Event → Int) (x : Token ι) : Int := f x.1 x.2.event

/-- The weight of a token of the events that come from `o`. -/
def share [DecidableEq ι] (o : ι) (f : Place → Event → Int) (x : Token ι) : Int :=
  if x.2.origin = o then f x.1 x.2.event else 0

/-- What the tokens of a move weigh. -/
def weight (f : Place → Event → Int) (tokens : List (Token ι)) : Int :=
  weigh (plain f) (tokens : Multiset (Token ι))

theorem allowance_of_counters {event : Event} {count most : Int}
    (h : counters rt event = some (count, most)) :
    allowance rt event = max (most - count) 0 + 1 := by
  unfold allowance
  rw [h]

theorem comesBack_of_counters {letter : Event} {count most : Int}
    (h : counters rt letter = some (count, most)) :
    comesBack rt letter = if count ≤ most then 1 else 0 := by
  unfold comesBack
  rw [h]

theorem one_le_allowance (event : Event) : 1 ≤ allowance rt event := by
  unfold allowance
  split <;> omega

theorem comesBack_nonneg (letter : Event) : 0 ≤ comesBack rt letter := by
  unfold comesBack
  split
  · split <;> omega
  · omega

theorem runs_nonneg {p : Place} (hp : p ≠ .replayed) (event : Event) : 0 ≤ runs rt p event := by
  have hone : 1 ≤ allowance rt event := one_le_allowance event
  have hback : 0 ≤ comesBack rt event := comesBack_nonneg event
  cases p <;> simp only [runs] <;> first | omega | exact absurd rfl hp

theorem steps_nonneg (p : Place) (event : Event) : 0 ≤ steps rt p event := by
  have hone : 1 ≤ allowance rt event := one_le_allowance event
  have hback : 0 ≤ comesBack rt event := comesBack_nonneg event
  cases p <;> simp only [steps] <;> omega

/-! ## What a move does to the weights -/

/-- A move takes no run from an event, and keeps them all where nothing is left aside. -/
theorem move_runs (h : Move rt sa Faults Drops Replays old new) :
    weight (runs rt) new ≤ weight (runs rt) old ∧
      (¬ Faults → ¬ Drops → weight (runs rt) new = weight (runs rt) old) := by
  unfold weight
  cases h with
  | read e => exact ⟨le_refl _, fun _ _ => rfl⟩
  | complete hF e =>
    have hone : 1 ≤ allowance rt e.event := one_le_allowance e.event
    simp only [weigh_cons, weigh_nil, plain, runs]
    exact ⟨by omega, fun hnot => absurd hF hnot⟩
  | fail e =>
    simp only [weigh_cons, weigh_nil, plain, runs]
    omega
  | retry h hlt h' =>
    simp only [weigh_cons, weigh_nil, plain, runs, allowance_of_counters h,
      allowance_of_counters h']
    omega
  | deadLetter h hle h' =>
    simp only [weigh_cons, weigh_nil, plain, runs, allowance_of_counters h,
      comesBack_of_counters h'.counted]
    split <;> omega
  | dropFailing hD e =>
    have hone : 1 ≤ allowance rt e.event := one_le_allowance e.event
    simp only [weigh_cons, weigh_nil, plain, runs]
    exact ⟨by omega, fun _ hnot => absurd hD hnot⟩
  | acknowledge e =>
    simp only [weigh_cons, weigh_nil, plain, runs]
    omega
  | strand hF hp e =>
    have hnonneg : ∀ p : Place, p.mayStrand = true → 0 ≤ runs rt p e.event := by
      intro p hp
      refine runs_nonneg ?_ e.event
      intro heq
      rw [heq] at hp
      cases hp
    have hle := hnonneg _ hp
    simp only [weigh_cons, weigh_nil, plain]
    have hzero : runs rt .stranded e.event = 0 := rfl
    exact ⟨by omega, fun hnot => absurd hF hnot⟩
  | readLetter d => exact ⟨le_refl _, fun _ _ => rfl⟩
  | spawn d => exact ⟨le_refl _, fun _ _ => rfl⟩
  | requeue h h' =>
    simp only [weigh_cons, weigh_nil, plain, runs, allowance_of_counters h',
      comesBack_of_counters h]
    split <;> omega
  | terminate h hlt =>
    simp only [weigh_cons, weigh_nil, plain, runs, comesBack_of_counters h]
    split <;> omega
  | dropTask hD d =>
    have hback : 0 ≤ comesBack rt d.event := comesBack_nonneg d.event
    simp only [weigh_cons, weigh_nil, plain, runs]
    exact ⟨by omega, fun _ hnot => absurd hD hnot⟩
  | replay _ h hle =>
    simp only [weigh_cons, weigh_nil, plain, runs, allowance_of_counters h]
    omega

/-- A move takes nothing away. -/
theorem move_whereabouts (h : Move rt sa Faults Drops Replays old new) :
    weight whereabouts new = weight whereabouts old := by
  unfold weight
  cases h with
  | strand hF hp e =>
    have hone : ∀ p : Place, p.mayStrand = true → whereabouts p e.event = 1 := by
      intro p hp
      cases p <;> first | rfl | cases hp
    simp only [weigh_cons, weigh_nil, plain, hone _ hp]
    rfl
  | replay =>
    simp only [weigh_cons, weigh_nil, plain, whereabouts]
    omega
  | _ => simp only [weigh_cons, weigh_nil, plain, whereabouts, add_zero, zero_add]

/-- Nothing is left aside without a fault. -/
theorem move_leftAside (hF : ¬ Faults) (h : Move rt sa Faults Drops Replays old new) :
    weight leftAside new = weight leftAside old := by
  unfold weight
  cases h with
  | complete hF' => exact absurd hF' hF
  | strand hF' => exact absurd hF' hF
  | _ => simp only [weigh_cons, weigh_nil, plain, leftAside, add_zero]

theorem move_isDropped (hD : ¬ Drops) (h : Move rt sa Faults Drops Replays old new) :
    weight isDropped new = weight isDropped old := by
  unfold weight
  cases h with
  | dropFailing hD' => exact absurd hD' hD
  | dropTask hD' => exact absurd hD' hD
  | strand hF hp e =>
    have hzero : ∀ p : Place, p.mayStrand = true → isDropped p e.event = 0 := by
      intro p hp
      cases p <;> first | rfl | cases hp
    simp only [weigh_cons, weigh_nil, plain, hzero _ hp]
    rfl
  | _ => simp only [weigh_cons, weigh_nil, plain, isDropped, add_zero]

/-- Without a fault and a replay, a move is progress. -/
theorem move_steps (hF : ¬ Faults) (hD : ¬ Drops) (hR : ¬ Replays)
    (h : Move rt sa Faults Drops Replays old new) :
    weight (steps rt) new < weight (steps rt) old := by
  unfold weight
  cases h with
  | read e =>
    simp only [weigh_cons, weigh_nil, plain, steps]
    omega
  | complete hF' => exact absurd hF' hF
  | fail e =>
    simp only [weigh_cons, weigh_nil, plain, steps]
    omega
  | retry h hlt h' =>
    simp only [weigh_cons, weigh_nil, plain, steps, allowance_of_counters h,
      allowance_of_counters h']
    omega
  | deadLetter h hle h' =>
    simp only [weigh_cons, weigh_nil, plain, steps, allowance_of_counters h,
      comesBack_of_counters h'.counted]
    split <;> omega
  | dropFailing hD' => exact absurd hD' hD
  | acknowledge e =>
    simp only [weigh_cons, weigh_nil, plain, steps]
    omega
  | strand hF' => exact absurd hF' hF
  | readLetter d =>
    simp only [weigh_cons, weigh_nil, plain, steps]
    omega
  | spawn d =>
    simp only [weigh_cons, weigh_nil, plain, steps]
    omega
  | requeue h h' =>
    simp only [weigh_cons, weigh_nil, plain, steps, allowance_of_counters h',
      comesBack_of_counters h]
    split <;> omega
  | terminate h hlt =>
    simp only [weigh_cons, weigh_nil, plain, steps, comesBack_of_counters h]
    split <;> omega
  | dropTask hD' => exact absurd hD' hD
  | replay hR' => exact absurd hR' hR

/-- The tokens of a move come from one event. -/
theorem move_origin (h : Move rt sa Faults Drops Replays old new) :
    ∃ o, (∀ x ∈ old, x.2.origin = o) ∧ ∀ x ∈ new, x.2.origin = o := by
  cases h with
  | read e => exact ⟨e.origin, by simp, by simp⟩
  | complete _ e => exact ⟨e.origin, by simp, by simp⟩
  | fail e => exact ⟨e.origin, by simp, by simp⟩
  | @retry e _ _ _ _ _ _ horigin => exact ⟨e.origin, by simp, by simp [horigin]⟩
  | @deadLetter e _ _ _ _ _ _ horigin => exact ⟨e.origin, by simp, by simp [horigin]⟩
  | dropFailing _ e => exact ⟨e.origin, by simp, by simp⟩
  | acknowledge e => exact ⟨e.origin, by simp, by simp⟩
  | strand _ _ e => exact ⟨e.origin, by simp, by simp⟩
  | readLetter d => exact ⟨d.origin, by simp, by simp⟩
  | spawn d => exact ⟨d.origin, by simp, by simp⟩
  | @requeue d _ _ _ _ horigin => exact ⟨d.origin, by simp, by simp [horigin]⟩
  | @terminate d _ _ _ _ _ horigin => exact ⟨d.origin, by simp, by simp [horigin]⟩
  | dropTask _ d => exact ⟨d.origin, by simp, by simp⟩
  | @replay _ e => exact ⟨e.origin, by simp, by simp⟩

section Shares

variable [DecidableEq ι] {o : ι} {f : Place → Event → Int}

theorem weigh_share_of_origin {tokens : List (Token ι)} {o' : ι}
    (h : ∀ x ∈ tokens, x.2.origin = o') :
    weigh (share o f) (tokens : Multiset (Token ι)) = if o' = o then weight f tokens else 0 := by
  unfold weight
  induction tokens with
  | nil => simp
  | cons x tokens ih =>
    have hx := h x (List.mem_cons_self ..)
    rw [weigh_cons, weigh_cons, ih fun y hy => h y (List.mem_cons_of_mem x hy)]
    unfold share plain
    rw [hx]
    by_cases ho : o' = o
    · simp [ho]
    · simp [ho]

theorem share_le (h : Move rt sa Faults Drops Replays old new) (hle : weight f new ≤ weight f old) :
    weigh (share o f) (new : Multiset (Token ι)) ≤
      weigh (share o f) (old : Multiset (Token ι)) := by
  rcases move_origin h with ⟨o', hold, hnew⟩
  rw [weigh_share_of_origin hold, weigh_share_of_origin hnew]
  split <;> omega

theorem share_eq (h : Move rt sa Faults Drops Replays old new) (heq : weight f new = weight f old) :
    weigh (share o f) (new : Multiset (Token ι)) =
      weigh (share o f) (old : Multiset (Token ι)) := by
  rcases move_origin h with ⟨o', hold, hnew⟩
  rw [weigh_share_of_origin hold, weigh_share_of_origin hnew, heq]

/-- What every move keeps, a run keeps. -/
theorem share_eq_of_run {s t : World ι}
    (h : s = t ∨ Exchanges (Move rt sa Faults Drops Replays) s.tokens t.tokens)
    (hf : ∀ {old new : List (Token ι)}, Move rt sa Faults Drops Replays old new →
      weight f new = weight f old) :
    weigh (share o f) t.tokens = weigh (share o f) s.tokens := by
  rcases h with heq | hex
  · rw [heq]
  · exact hex.weigh_eq fun _ _ hmove => share_eq hmove (hf hmove)

end Shares

/-! ## Runs -/

/-- How many of the events come from `o`. -/
def countOf [DecidableEq ι] (o : ι) (events : List (Entry ι)) : Nat :=
  events.countP fun e => e.origin = o

/-- The runs that the counters of the events from `o` allow. -/
def allowances [DecidableEq ι] (rt : Runtime) (o : ι) (events : List (Entry ι)) : Int :=
  weigh (fun e => if e.origin = o then allowance rt e.event else 0) (events : Multiset (Entry ι))

/-- The events from `o` that wait in a stream or are in the hands of a process. -/
def World.underway [DecidableEq ι] (w : World ι) (o : ι) : Nat :=
  countOf o w.queue + countOf o w.agent.inHand + countOf o w.unread + countOf o w.batch +
    countOf o (w.tasks.map Prod.fst)

section Runs

variable {queue : List (Entry ι)} {s t : World ι} {a : Act}

theorem start_tokens (queue : List (Entry ι)) :
    (World.start queue).tokens = Place.queued.at queue := by
  simp [World.tokens, World.start, at_nil, idle_tokens]

theorem letters_start : ∀ x ∈ (World.start queue).tokens, LettersAre rt sa x := by
  intro x hx
  rw [start_tokens, mem_at] at hx
  intro hplace
  rw [hx.1] at hplace
  simp at hplace

theorem move_letters (h : Move rt sa Faults Drops Replays old new)
    (hold : ∀ x ∈ old, LettersAre rt sa x) :
    ∀ x ∈ new, LettersAre rt sa x := by
  cases h with
  | @deadLetter e d count most h hle h' =>
    have hletter : IsLetter rt sa d := ⟨count + 1, most, hle, h'⟩
    simp [LettersAre, hletter]
  | readLetter d =>
    have hletter := hold _ (List.mem_cons_self ..) (Or.inl rfl)
    simp [LettersAre, hletter]
  | spawn d =>
    have hletter := hold _ (List.mem_cons_self ..) (Or.inr (Or.inl rfl))
    simp [LettersAre, hletter]
  | _ => simp [LettersAre]

theorem move_counted (h : Move rt sa Faults Drops Replays old new)
    (hold : ∀ x ∈ old, Counted rt x) :
    ∀ x ∈ new, Counted rt x := by
  cases h with
  | read e =>
    have hsome := hold _ (List.mem_cons_self ..) (Or.inl rfl)
    simp [Counted, hsome]
  | fail e =>
    have hsome := hold _ (List.mem_cons_self ..) (Or.inr (Or.inl rfl))
    simp [Counted, hsome]
  | retry _ _ h' => simp [Counted, h']
  | requeue _ h' => simp [Counted, h']
  | replay _ h => simp [Counted, h]
  | _ => simp [Counted]

/-- Every step keeps the dead letters letters. -/
theorem letters_step (hs : ∀ x ∈ s.tokens, LettersAre rt sa x) (h : step rt sa s a = some t) :
    ∀ x ∈ t.tokens, LettersAre rt sa x := by
  have hex : Exchanges (Move rt sa True True True) s.tokens t.tokens :=
    step_exchanges hs (fun _ => trivial) (fun _ => trivial) (fun _ => trivial) h
  exact hex.forall_mem (fun _ _ => move_letters) hs

/-- A run moves the events of its start, or does nothing. -/
theorem run_exchanges (h : Reaches (step rt sa) (World.start queue) t) :
    World.start queue = t ∨
      Exchanges (Move rt sa True True True) (World.start queue).tokens t.tokens :=
  exchanges_of_reaches (fun _ _ _ hs h => letters_step hs h)
    (fun _ _ _ hs h => step_exchanges hs (fun _ => trivial) (fun _ => trivial)
      (fun _ => trivial) h) h letters_start

/-- The letters are letters, and the events have counters. -/
def Calm (rt : Runtime) (sa : StreamAgent) (w : World ι) : Prop :=
  (∀ x ∈ w.tokens, LettersAre rt sa x) ∧ ∀ x ∈ w.tokens, Counted rt x

theorem calm_exchanges (hs : Calm rt sa s) (hcalm : a.calm = true)
    (hR : a.isReplay = true → Replays) (h : step rt sa s a = some t) :
    Exchanges (Move rt sa False False Replays) s.tokens t.tokens := by
  refine step_exchanges hs.1 (fun hnot => hnot ⟨hcalm, hs.2⟩) (fun hdrops => ?_) hR h
  cases a <;> simp_all [Act.calm, keeps]

theorem calm_step (hs : Calm rt sa s) (hcalm : a.calm = true) (h : step rt sa s a = some t) :
    Calm rt sa t := by
  have hex : Exchanges (Move rt sa False False True) s.tokens t.tokens :=
    calm_exchanges hs hcalm (fun _ => trivial) h
  exact ⟨hex.forall_mem (fun _ _ => move_letters) hs.1,
    hex.forall_mem (fun _ _ => move_counted) hs.2⟩

theorem calm_start (hqueue : ∀ e ∈ queue, (counters rt e.event).isSome = true) :
    Calm rt sa (World.start queue) := by
  refine ⟨letters_start, fun x hx _ => ?_⟩
  rw [start_tokens, mem_at] at hx
  exact hqueue x.2 hx.2

end Runs

/-- The weight of the events of one place. -/
theorem weigh_place {p : Place} (f : Token ι → Int) (events : List (Entry ι)) :
    weigh f (p.at events) = weigh (fun e => f (p, e)) (events : Multiset (Entry ι)) := by
  unfold weigh Place.at
  rw [Multiset.map_coe, Multiset.map_coe, List.map_map]
  rfl

section Totals

variable [DecidableEq ι] {o : ι} {f : Place → Event → Int} {p : Place}

theorem weigh_at {c : Int} (h : ∀ event, f p event = c) (events : List (Entry ι)) :
    weigh (share o f) (p.at events) = c * countOf o events := by
  rw [weigh_place]
  induction events with
  | nil => simp [countOf]
  | cons e events ih =>
    rw [weigh_cons, ih]
    unfold share countOf
    rw [h, List.countP_cons]
    by_cases ho : e.origin = o
    · simp only [ho, if_true, decide_true, Nat.cast_add, Nat.cast_one, mul_add, mul_one]
      exact add_comm _ _
    · simp only [ho, if_false, decide_false, Bool.false_eq_true, zero_add, add_zero]

theorem weigh_queued (queue : List (Entry ι)) :
    weigh (share o (runs rt)) (Place.queued.at queue) = allowances rt o queue :=
  weigh_place _ queue

/-- The events that wait in a stream or are in the hands of a process, as tokens. -/
def World.waiting (w : World ι) : Multiset (Token ι) :=
  Place.queued.at w.queue + w.agent.tokens + Place.letter.at w.unread + Place.looped.at w.batch +
    Place.task.at (w.tasks.map Prod.fst)

theorem weigh_runs (w : World ι) : weigh (share o (runs rt)) w.tokens =
    weigh (share o (runs rt)) w.waiting + countOf o w.ran - countOf o w.replayed := by
  have hzero : ∀ {p : Place}, (∀ event, runs rt p event = 0) →
      ∀ events : List (Entry ι), weigh (share o (runs rt)) (p.at events) = 0 :=
    fun h events => (weigh_at h events).trans (zero_mul _)
  have hran : weigh (share o (runs rt)) (Place.ran.at w.ran) = countOf o w.ran :=
    (weigh_at (fun _ => rfl) _).trans (one_mul _)
  have hreplayed : weigh (share o (runs rt)) (Place.replayed.at w.replayed) =
      -1 * countOf o w.replayed := weigh_at (fun _ => rfl) _
  unfold World.tokens World.waiting
  simp only [weigh_add, hran, hreplayed]
  rw [hzero (p := .stranded) fun _ => rfl, hzero (p := .handled) fun _ => rfl,
    hzero (p := .terminal) fun _ => rfl, hzero (p := .dropped) fun _ => rfl,
    hzero (p := .entry) fun _ => rfl]
  omega

theorem weigh_waiting_nonneg (w : World ι) : 0 ≤ weigh (share o (runs rt)) w.waiting := by
  refine weigh_nonneg fun x hx => ?_
  have hplace : x.1 ≠ .replayed := by
    intro heq
    unfold World.waiting at hx
    simp only [Multiset.mem_add, mem_at, heq] at hx
    cases hagent : w.agent <;>
      simp [hagent, idle_tokens, processing_tokens, failed_tokens, acking_tokens, mem_at, heq] at hx
  unfold share
  split
  · exact runs_nonneg hplace x.2.event
  · omega

section Constant

variable {c : Place → Int}

/-- A weight that depends on the place alone, over the tokens of an agent. -/
theorem weigh_agent (h : ∀ p event, f p event = c p) (agent : AgentAt ι) :
    weigh (share o f) agent.tokens =
      match agent with
      | .idle => 0
      | .processing e rest => c .held * countOf o (e :: rest)
      | .failed e rest => c .failing * countOf o [e] + c .held * countOf o rest
      | .acking e rest => c .acking * countOf o [e] + c .held * countOf o rest := by
  cases agent with
  | idle => rfl
  | processing e rest => exact weigh_at (h .held) _
  | failed e rest => rw [failed_tokens, weigh_add, weigh_at (h .failing), weigh_at (h .held)]
  | acking e rest => rw [acking_tokens, weigh_add, weigh_at (h .acking), weigh_at (h .held)]

theorem weigh_tokens (h : ∀ p event, f p event = c p) (w : World ι) :
    weigh (share o f) w.tokens =
      c .queued * countOf o w.queue + weigh (share o f) w.agent.tokens +
        c .letter * countOf o w.unread + c .looped * countOf o w.batch +
        c .task * countOf o (w.tasks.map Prod.fst) + c .stranded * countOf o w.stranded +
        c .handled * countOf o w.handled + c .terminal * countOf o w.terminal +
        c .dropped * countOf o w.dropped + c .entry * countOf o w.deadLetters +
        c .ran * countOf o w.ran + c .replayed * countOf o w.replayed := by
  unfold World.tokens
  simp only [weigh_add, weigh_at (h _)]

end Constant

theorem countOf_cons (e : Entry ι) (events : List (Entry ι)) :
    countOf o (e :: events) = countOf o [e] + countOf o events := by
  unfold countOf
  rw [List.countP_cons, List.countP_cons, List.countP_nil]
  omega

theorem weigh_whereabouts (w : World ι) : weigh (share o whereabouts) w.tokens =
    w.underway o + countOf o w.stranded + countOf o w.handled + countOf o w.terminal +
      countOf o w.dropped - countOf o w.replayed := by
  have hconst : ∀ p event, whereabouts p event = whereabouts p [] := by
    intro p event
    cases p <;> rfl
  have hagent : weigh (share o whereabouts) w.agent.tokens = countOf o w.agent.inHand := by
    rw [weigh_agent hconst]
    cases w.agent with
    | idle => rfl
    | processing e rest => exact one_mul _
    | failed e rest =>
      simp only [whereabouts, AgentAt.inHand, countOf_cons e rest]
      omega
    | acking e rest =>
      simp only [whereabouts, AgentAt.inHand]
      omega
  rw [weigh_tokens hconst, hagent]
  unfold World.underway
  simp only [whereabouts]
  omega

theorem weigh_leftAside (w : World ι) : weigh (share o leftAside) w.tokens =
    countOf o w.stranded + countOf o w.handled := by
  have hconst : ∀ p event, leftAside p event = leftAside p [] := by
    intro p event
    cases p <;> rfl
  have hagent : weigh (share o leftAside) w.agent.tokens = 0 := by
    rw [weigh_agent hconst]
    cases w.agent <;> simp only [leftAside] <;> omega
  rw [weigh_tokens hconst, hagent]
  simp only [leftAside]
  omega

theorem weigh_isDropped (w : World ι) : weigh (share o isDropped) w.tokens =
    countOf o w.dropped := by
  have hconst : ∀ p event, isDropped p event = isDropped p [] := by
    intro p event
    cases p <;> rfl
  have hagent : weigh (share o isDropped) w.agent.tokens = 0 := by
    rw [weigh_agent hconst]
    cases w.agent <;> simp only [isDropped] <;> omega
  rw [weigh_tokens hconst, hagent]
  simp only [isDropped]
  omega

end Totals

/-! ## How often an event runs -/

section Bound

variable [DecidableEq ι] {queue : List (Entry ι)} {t : World ι}

theorem weigh_start (o : ι) (queue : List (Entry ι)) :
    weigh (share o (runs rt)) (World.start queue).tokens = allowances rt o queue := by
  rw [start_tokens, weigh_queued]

def plainRuntime : Runtime := ⟨fun _ => .notANumber, fun _ => ""⟩

def qaAgent : StreamAgent := ⟨"stream.qa", by decide⟩

def lastChance : List (Entry Unit) := [⟨(), [("max_retries", .int 0)]⟩]

/-- The handler fails, and the dead letter is a terminal failure. -/
def lastActs : List Act :=
  [.consume, .raises, .publish "boom" "t" true, .ack true, .readLetters, .spawn true,
    .runTask 0 "1-0" "t" true]

end Bound

/-! ## Where an event ends -/

section Kept

variable [DecidableEq ι]

theorem whereabouts_kept {queue : List (Entry ι)} {t : World ι}
    (h : Reaches (step rt sa) (World.start queue) t) (o : ι) :
    countOf o queue + countOf o t.replayed =
      t.underway o + countOf o t.stranded + countOf o t.handled + countOf o t.terminal +
        countOf o t.dropped := by
  have hstart : weigh (share o whereabouts) (Place.queued.at queue) = 1 * countOf o queue :=
    weigh_at (fun _ => rfl) queue
  have heq := share_eq_of_run (o := o) (run_exchanges h) move_whereabouts
  rw [weigh_whereabouts, start_tokens, hstart] at heq
  omega

/-- **No event is lost on the way.** An event, and every replay of it, waits or is in the hands of
a process, is stranded, was handled, has a terminal failure or was dropped; and none is dropped in
a run where publications succeed and the scheduler does not stop with an acknowledged task. -/
theorem events_kept (rt : Runtime) (sa : StreamAgent) (queue : List (Entry ι)) (t : World ι) :
    (Reaches (step rt sa) (World.start queue) t → ∀ o,
      countOf o queue + countOf o t.replayed =
        t.underway o + countOf o t.stranded + countOf o t.handled + countOf o t.terminal +
          countOf o t.dropped) ∧
    (Reaches (guard (fun w a => keeps w a = true) (step rt sa)) (World.start queue) t →
      t.dropped = []) := by
  constructor
  · exact fun h o => whereabouts_kept h o
  · intro h
    have hdrops : ∀ (w : World ι) (a : Act), keeps w a = true → keeps w a = false → False := by
      intro w a hkeeps hnot
      rw [hkeeps] at hnot
      cases hnot
    have hex : World.start queue = t ∨
        Exchanges (Move rt sa True False True) (World.start queue).tokens t.tokens :=
      exchanges_of_reaches (fun _ _ _ hs ha => letters_step hs (guard_eq_some.mp ha).2)
        (fun w a _ hs ha => step_exchanges hs (fun _ => trivial)
          (hdrops w a (guard_eq_some.mp ha).1) (fun _ => trivial) (guard_eq_some.mp ha).2)
        h letters_start
    have hzero : ∀ o, countOf o t.dropped = 0 := by
      intro o
      have heq := share_eq_of_run (o := o) hex (move_isDropped fun hfalse => hfalse)
      rw [weigh_isDropped, weigh_isDropped] at heq
      have hstart : countOf o (World.start queue).dropped = 0 := rfl
      omega
    cases hdropped : t.dropped with
    | nil => rfl
    | cons e rest =>
      have hcount := hzero e.origin
      rw [hdropped, countOf, List.countP_cons] at hcount
      simp at hcount

/-- The scheduler stops with a task whose message it has acknowledged. -/
theorem events_kept_stopped :
    ∃ t, runActs (step plainRuntime qaAgent) (World.start lastChance)
        (lastActs.take 6 ++ [.stopScheduler]) = some t ∧
      countOf () t.dropped = 1 ∧
      countOf () lastChance + countOf () t.replayed =
        t.underway () + countOf () t.stranded + countOf () t.handled + countOf () t.terminal +
          countOf () t.dropped := by
  have hrun : (runActs (step plainRuntime qaAgent) (World.start lastChance)
      (lastActs.take 6 ++ [.stopScheduler])).map (fun t => countOf () t.dropped) = some 1 := by
    decide +kernel
  rcases Option.map_eq_some_iff.mp hrun with ⟨t, ht, hdropped⟩
  exact ⟨t, ht, hdropped,
    (events_kept plainRuntime qaAgent lastChance t).1 (reaches_of_runActs ht) ()⟩

end Kept

/-! ## An event that always fails -/

section Settled

variable {queue : List (Entry ι)} {s t : World ι} {a : Act}

/-- The two processes have nothing left to do. -/
structure Idle (w : World ι) : Prop where
  queue : w.queue = []
  agent : w.agent = .idle
  unread : w.unread = []
  batch : w.batch = []
  tasks : w.tasks = []

/-- No process is ever stuck. -/
theorem idle_of_stuck (hcalm : Calm rt sa t)
    (hstuck : ∀ a : Act, a.calm = true → a.isReplay = false → step rt sa t a = none) : Idle t := by
  have hagent : t.agent = .idle := by
    cases hat : t.agent with
    | idle => rfl
    | processing e rest =>
      have hnone := hstuck .raises rfl rfl
      simp only [step, hat] at hnone
      cases hnone
    | failed e rest =>
      have hnone := hstuck (.publish "" "" true) rfl rfl
      simp only [step, hat] at hnone
      cases hnone
    | acking e rest =>
      have hnone := hstuck (.ack true) rfl rfl
      simp only [step, hat] at hnone
      cases hnone
  have hbatch : t.batch = [] := by
    cases hbatch : t.batch with
    | nil => rfl
    | cons d rest =>
      have hnone := hstuck (.spawn true) rfl rfl
      simp only [step, hbatch] at hnone
      cases hnone
  refine ⟨?_, hagent, ?_, hbatch, ?_⟩
  · cases hqueue : t.queue with
    | nil => rfl
    | cons e rest =>
      have hnone := hstuck .consume rfl rfl
      simp only [step, hagent, hqueue, batchSize, List.take_succ_cons] at hnone
      cases hnone
  · cases hunread : t.unread with
    | nil => rfl
    | cons d rest =>
      have hnone := hstuck .readLetters rfl rfl
      simp only [step, hbatch, hunread, batchSize, List.take_succ_cons] at hnone
      cases hnone
  · cases htasks : t.tasks with
    | nil => rfl
    | cons task rest =>
      rcases task with ⟨d, acked⟩
      have hnone := hstuck (.runTask 0 "" "" true) rfl rfl
      have hmem : (.task, d) ∈ t.tokens := by
        unfold World.tokens
        simp [htasks, mem_at]
      rcases hcalm.1 _ hmem (Or.inr (Or.inr (Or.inl rfl))) with ⟨count, most, hle, hletter⟩
      simp only [step, htasks, List.getElem?_cons_zero, World.runTask] at hnone
      rcases handle_letter sa.named hletter with ⟨_, _, heq⟩ | ⟨_, _, heq, _⟩
      · rw [heq] at hnone
        cases hnone
      · rw [heq] at hnone
        simp at hnone

/-- The runs that the counters of all events allow. -/
def totalAllowance (rt : Runtime) (queue : List (Entry ι)) : Int :=
  weigh (fun e => allowance rt e.event) (queue : Multiset (Entry ι))

theorem weigh_steps_queued (queue : List (Entry ι)) :
    weigh (plain (steps rt)) (Place.queued.at queue) = 7 * totalAllowance rt queue :=
  (weigh_place _ queue).trans Multiset.sum_map_mul_left

theorem steps_lt (hs : Calm rt sa s) (hcalm : a.calm = true ∧ a.isReplay = false)
    (h : step rt sa s a = some t) :
    (weigh (plain (steps rt)) t.tokens).toNat < (weigh (plain (steps rt)) s.tokens).toNat := by
  have hex : Exchanges (Move rt sa False False False) s.tokens t.tokens := by
    refine calm_exchanges hs hcalm.1 (fun hreplay => ?_) h
    rw [hcalm.2] at hreplay
    cases hreplay
  have hlt := hex.weigh_lt fun _ _ hmove => move_steps (fun h => h) (fun h => h) (fun h => h) hmove
  have hnonneg : 0 ≤ weigh (plain (steps rt)) t.tokens :=
    weigh_nonneg fun x _ => steps_nonneg x.1 x.2.event
  omega

theorem calm_of_reaches (hqueue : ∀ e ∈ queue, (counters rt e.event).isSome = true)
    (h : Reaches (guard (fun _ a => a.calm = true) (step rt sa)) (World.start queue) t) :
    Calm rt sa t := by
  refine Reaches.invariant (P := Calm rt sa) ?_ h (calm_start hqueue)
  exact fun _ _ _ hs ha => calm_step hs (guard_eq_some.mp ha).1 (guard_eq_some.mp ha).2

end Settled

end AiAgentsSwd.Retry
