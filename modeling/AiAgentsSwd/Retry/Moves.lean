import AiAgentsSwd.Retry.Pipeline
import AiAgentsSwd.Transition.Bags
import Mathlib.Tactic.Abel

/-!
# Retry.Moves — a step of the pipeline moves events

An event is a token, and the place it is in its colour.

1. `Move`: what may happen to one event;
2. `step_exchanges`: every step of the pipeline is such moves, and no others.
-/

namespace AiAgentsSwd.Retry

open Python (Runtime)
open Transition

variable {ι : Type} (rt : Runtime) (sa : StreamAgent)

/-! ## Tokens -/

/-- Where an event is, or what was noted of it. -/
inductive Place where
  | queued
  | held
  | failing
  | acking
  | letter
  | looped
  | task
  | stranded
  | handled
  | terminal
  | dropped
  | entry
  | ran
  | replayed
deriving Repr, DecidableEq

abbrev Token (ι : Type) := Place × Entry ι

/-- The events of one place. -/
def Place.at (p : Place) (events : List (Entry ι)) : Multiset (Token ι) :=
  (events.map fun e => (p, e) : List (Token ι))

def AgentAt.tokens : AgentAt ι → Multiset (Token ι)
  | .idle => 0
  | .processing e rest => Place.held.at (e :: rest)
  | .failed e rest => Place.failing.at [e] + Place.held.at rest
  | .acking e rest => Place.acking.at [e] + Place.held.at rest

def World.tokens (w : World ι) : Multiset (Token ι) :=
  Place.queued.at w.queue + w.agent.tokens + Place.letter.at w.unread + Place.looped.at w.batch +
    Place.task.at (w.tasks.map Prod.fst) + Place.stranded.at w.stranded +
    Place.handled.at w.handled + Place.terminal.at w.terminal + Place.dropped.at w.dropped +
    Place.entry.at w.deadLetters + Place.ran.at w.ran + Place.replayed.at w.replayed

section Places

variable {p : Place}

theorem at_append (events more : List (Entry ι)) :
    p.at (events ++ more) = p.at events + p.at more := by
  unfold Place.at
  rw [List.map_append, Multiset.coe_add]

theorem at_cons (e : Entry ι) (events : List (Entry ι)) :
    p.at (e :: events) = p.at [e] + p.at events :=
  at_append [e] events

theorem at_nil : p.at ([] : List (Entry ι)) = 0 := rfl

/-- The batch that is read, and what it leaves. -/
theorem at_take {events batch : List (Entry ι)} {n : Nat} (h : events.take n = batch) :
    p.at events = p.at batch + p.at (events.drop n) := by
  rw [← h, ← at_append, List.take_append_drop]

theorem mem_at {x : Token ι} {events : List (Entry ι)} :
    x ∈ p.at events ↔ x.1 = p ∧ x.2 ∈ events := by
  unfold Place.at
  rw [Multiset.mem_coe, List.mem_map]
  constructor
  · rintro ⟨e, he, rfl⟩
    exact ⟨rfl, he⟩
  · rintro ⟨rfl, he⟩
    exact ⟨x.2, he, rfl⟩

theorem idle_tokens : (AgentAt.idle : AgentAt ι).tokens = 0 := rfl

theorem processing_tokens (e : Entry ι) (rest : List (Entry ι)) :
    (AgentAt.processing e rest).tokens = Place.held.at [e] + Place.held.at rest := rfl

theorem failed_tokens (e : Entry ι) (rest : List (Entry ι)) :
    (AgentAt.failed e rest).tokens = Place.failing.at [e] + Place.held.at rest := rfl

theorem acking_tokens (e : Entry ι) (rest : List (Entry ι)) :
    (AgentAt.acking e rest).tokens = Place.acking.at [e] + Place.held.at rest := rfl

theorem next_tokens (rest : List (Entry ι)) : (AgentAt.next rest).tokens = Place.held.at rest := by
  cases rest with
  | nil => rfl
  | cons e rest => rfl

end Places

/-! ## Moves -/

/-- A dead letter is one of this agent, and its retries are exhausted. -/
def IsLetter (d : Entry ι) : Prop :=
  ∃ count most, most ≤ count ∧ Letter rt sa.inputStream count most d.event

/-- A place from which an event may be stranded. -/
def Place.mayStrand : Place → Bool
  | .queued => true
  | .held => true
  | .failing => true
  | .letter => true
  | .looped => true
  | .task => true
  | _ => false

/-- What happens to one event: `Faults` says whether it may be handled or stranded, `Drops` whether
it may be dropped, and `Replays` whether it may be replayed. -/
inductive Move (Faults Drops Replays : Prop) : List (Token ι) → List (Token ι) → Prop where
  | read (e : Entry ι) : Move Faults Drops Replays [(.queued, e)] [(.held, e)]
  | complete (h : Faults) (e : Entry ι) :
      Move Faults Drops Replays [(.held, e)] [(.acking, e), (.handled, e), (.ran, e)]
  | fail (e : Entry ι) : Move Faults Drops Replays [(.held, e)] [(.failing, e), (.ran, e)]
  | retry {e e' : Entry ι} {count most : Int} (h : counters rt e.event = some (count, most))
      (hlt : count + 1 < most) (h' : counters rt e'.event = some (count + 1, most))
      (horigin : e'.origin = e.origin) :
      Move Faults Drops Replays [(.failing, e)] [(.acking, e), (.queued, e')]
  | deadLetter {e d : Entry ι} {count most : Int} (h : counters rt e.event = some (count, most))
      (hle : most ≤ count + 1) (h' : Letter rt sa.inputStream (count + 1) most d.event)
      (horigin : d.origin = e.origin) :
      Move Faults Drops Replays [(.failing, e)] [(.acking, e), (.letter, d), (.entry, d)]
  | dropFailing (h : Drops) (e : Entry ι) :
      Move Faults Drops Replays [(.failing, e)] [(.acking, e), (.dropped, e)]
  | acknowledge (e : Entry ι) : Move Faults Drops Replays [(.acking, e)] []
  | strand (h : Faults) {p : Place} (hp : p.mayStrand = true) (e : Entry ι) :
      Move Faults Drops Replays [(p, e)] [(.stranded, e)]
  | readLetter (d : Entry ι) : Move Faults Drops Replays [(.letter, d)] [(.looped, d)]
  | spawn (d : Entry ι) : Move Faults Drops Replays [(.looped, d)] [(.task, d)]
  | requeue {d e : Entry ι} {count : Int} (h : counters rt d.event = some (count, count))
      (h' : counters rt e.event = some (count, count)) (horigin : e.origin = d.origin) :
      Move Faults Drops Replays [(.task, d)] [(.queued, e)]
  | terminate {d t : Entry ι} {count most : Int} (h : counters rt d.event = some (count, most))
      (hlt : most < count) (horigin : t.origin = d.origin) :
      Move Faults Drops Replays [(.task, d)] [(.terminal, t)]
  | dropTask (h : Drops) (d : Entry ι) : Move Faults Drops Replays [(.task, d)] [(.dropped, d)]
  | replay (hR : Replays) {e : Entry ι} {count most : Int}
      (h : counters rt e.event = some (count, most)) (hle : most ≤ count) :
      Move Faults Drops Replays [] [(.queued, e), (.replayed, e)]

/-! ## Steps are moves -/

/-- No call fails, nobody stops, and the handler does not complete. -/
def Act.calm : Act → Bool
  | .publish _ _ added => added
  | .ack done => done
  | .spawn acked => acked
  | .runTask _ _ _ added => added
  | .consumeLost => false
  | .completes => false
  | .stopAgent => false
  | .readLettersLost => false
  | .stopScheduler => false
  | _ => true

/-- No publication fails, and the scheduler does not stop with a task whose message it has
acknowledged. -/
def keeps (w : World ι) : Act → Bool
  | .publish _ _ added => added
  | .runTask _ _ _ added => added
  | .stopScheduler => w.tasks.all (!·.2)
  | _ => true

def Act.isReplay : Act → Bool
  | .replay _ _ => true
  | _ => false

/-- The events that may run have counters. -/
def Counted (x : Token ι) : Prop :=
  (x.1 = .queued ∨ x.1 = .held ∨ x.1 = .failing) → (counters rt x.2.event).isSome = true

/-- The dead letters are letters. -/
def LettersAre (x : Token ι) : Prop :=
  (x.1 = .letter ∨ x.1 = .looped ∨ x.1 = .task ∨ x.1 = .entry) → IsLetter rt sa x.2

variable {rt sa} {Faults Drops Replays : Prop} {w t : World ι}

theorem coe_cons_token (p : Place) (e : Entry ι) (l : List (Token ι)) :
    (((p, e) :: l : List (Token ι)) : Multiset (Token ι)) =
      p.at [e] + (l : Multiset (Token ι)) := rfl

section Exchanging

variable {old new : List (Token ι)} {a b s u r : Multiset (Token ι)}

theorem exchanges_beside (h : Exchanges (Move rt sa Faults Drops Replays) a b) (hs : s = a + r)
    (hu : u = b + r) : Exchanges (Move rt sa Faults Drops Replays) s u := by
  rw [hs, hu]
  exact h.add r

theorem exchanges_of_move (h : Move rt sa Faults Drops Replays old new) (hs : s = old + r)
    (hu : u = new + r) : Exchanges (Move rt sa Faults Drops Replays) s u := by
  rw [hs, hu]
  exact .move r h

/-- The events of one place are stranded. -/
theorem exchanges_strand (h : Faults) {p : Place} (hp : p.mayStrand = true) {l : List (Entry ι)}
    (hl : l ≠ []) : Exchanges (Move rt sa Faults Drops Replays) (p.at l) (Place.stranded.at l) :=
  Exchanges.each (fun e _ => Move.strand h hp e) hl

/-- They are stranded after something else. -/
theorem exchanges_then_strand (h : Faults) {p : Place} (hp : p.mayStrand = true)
    {l : List (Entry ι)} (hex : Exchanges (Move rt sa Faults Drops Replays) s (p.at l + r))
    (hu : u = Place.stranded.at l + r) : Exchanges (Move rt sa Faults Drops Replays) s u := by
  rw [hu]
  by_cases hl : l = []
  · rw [hl] at hex ⊢
    exact hex
  · exact hex.trans ((exchanges_strand h hp hl).add r)

end Exchanging

/-! ### The agent -/

section Agent

variable {e : Entry ι} {rest : List (Entry ι)}

theorem exchanges_consume (hagent : w.agent = .idle)
    (htake : w.queue.take batchSize = e :: rest) :
    Exchanges (Move rt sa Faults Drops Replays) w.tokens
      ({ w with queue := w.queue.drop batchSize, agent := .processing e rest } :
        World ι).tokens := by
  refine exchanges_beside (r := ({ w with queue := w.queue.drop batchSize } : World ι).tokens)
    (Exchanges.each (fun e _ => Move.read e) (List.cons_ne_nil e rest)) ?_ ?_
  · change _ = Place.queued.at (e :: rest) + _
    simp only [World.tokens, at_take htake]
    abel
  · change _ = Place.held.at (e :: rest) + _
    simp only [World.tokens, hagent, at_cons e rest, idle_tokens, processing_tokens]
    abel

theorem exchanges_consumeLost (hF : Faults) (htake : w.queue.take batchSize = e :: rest) :
    Exchanges (Move rt sa Faults Drops Replays) w.tokens
      ({ w with
        queue := w.queue.drop batchSize
        stranded := w.stranded ++ (e :: rest) } : World ι).tokens := by
  refine exchanges_beside (r := ({ w with queue := w.queue.drop batchSize } : World ι).tokens)
    (exchanges_strand hF (p := .queued) rfl (List.cons_ne_nil e rest)) ?_ ?_
  · simp only [World.tokens, at_take htake]
    abel
  · simp only [World.tokens, at_append]
    abel

theorem processing_split (hagent : w.agent = .processing e rest) :
    w.tokens = Place.held.at [e] + ({ w with agent := .next rest } : World ι).tokens := by
  simp only [World.tokens, hagent, processing_tokens, next_tokens]
  abel

theorem failed_split (hagent : w.agent = .failed e rest) :
    w.tokens = Place.failing.at [e] + ({ w with agent := .next rest } : World ι).tokens := by
  simp only [World.tokens, hagent, failed_tokens, next_tokens]
  abel

theorem acking_split (hagent : w.agent = .acking e rest) :
    w.tokens = Place.acking.at [e] + ({ w with agent := .next rest } : World ι).tokens := by
  simp only [World.tokens, hagent, acking_tokens, next_tokens]
  abel

theorem exchanges_completes (hF : Faults) (hagent : w.agent = .processing e rest) :
    Exchanges (Move rt sa Faults Drops Replays) w.tokens
      ({ w with agent := .acking e rest, handled := w.handled ++ [e], ran := w.ran ++ [e] } :
        World ι).tokens := by
  refine exchanges_of_move (Move.complete hF e) (processing_split hagent) ?_
  simp only [World.tokens, acking_tokens, next_tokens, coe_cons_token, Multiset.coe_nil, at_append]
  abel

theorem exchanges_raises (hagent : w.agent = .processing e rest) :
    Exchanges (Move rt sa Faults Drops Replays) w.tokens
      ({ w with agent := .failed e rest, ran := w.ran ++ [e] } : World ι).tokens := by
  refine exchanges_of_move (Move.fail e) (processing_split hagent) ?_
  simp only [World.tokens, failed_tokens, next_tokens, coe_cons_token, Multiset.coe_nil, at_append]
  abel

theorem exchanges_drop (hD : Drops) (hagent : w.agent = .failed e rest) :
    Exchanges (Move rt sa Faults Drops Replays) w.tokens
      ({ w with agent := .acking e rest, dropped := w.dropped ++ [e] } : World ι).tokens := by
  refine exchanges_of_move (Move.dropFailing hD e) (failed_split hagent) ?_
  simp only [World.tokens, acking_tokens, next_tokens, coe_cons_token, Multiset.coe_nil, at_append]
  abel

/-- The agent stops at a failure. -/
theorem exchanges_stopFailed (hF : Faults) (hagent : w.agent = .failed e rest) :
    Exchanges (Move rt sa Faults Drops Replays) w.tokens
      ({ w with agent := .idle, stranded := w.stranded ++ (e :: rest) } : World ι).tokens := by
  have hhead : Exchanges (Move rt sa Faults Drops Replays) w.tokens
      (Place.held.at rest + ({ w with agent := .idle, stranded := w.stranded ++ [e] } :
        World ι).tokens) := by
    refine exchanges_beside (exchanges_strand hF (p := .failing) rfl (List.cons_ne_nil e []))
      (failed_split hagent) ?_
    simp only [World.tokens, idle_tokens, next_tokens, at_append]
    abel
  refine exchanges_then_strand hF rfl hhead ?_
  simp only [World.tokens, idle_tokens, at_append, at_cons e rest]
  abel

/-- A failure is published, or dropped, or it ends the batch. -/
theorem exchanges_publish {reason now : String} {added : Bool} (hagent : w.agent = .failed e rest)
    (hF : counters rt e.event = none → Faults) (hD : added = false → Drops) :
    Exchanges (Move rt sa Faults Drops Replays) w.tokens
      (w.publish rt sa e rest reason now added).tokens := by
  unfold World.publish
  cases hcounters : counters rt e.event with
  | none =>
    rw [handleFailure_uncounted hcounters]
    exact exchanges_stopFailed (hF hcounters) hagent
  | some counts =>
    rcases handleFailure_counted sa.named hcounters with
      ⟨hlt, attempted, heq, hcounted⟩ | ⟨hle, letter, heq, hletter⟩
    · rw [heq]
      cases added with
      | false => exact exchanges_drop (hD rfl) hagent
      | true =>
        have hmove : Move rt sa Faults Drops Replays [(.failing, e)]
            [(.acking, e), (.queued, ⟨e.origin, attempted⟩)] :=
          .retry hcounters hlt hcounted rfl
        refine exchanges_of_move hmove (failed_split hagent) ?_
        simp only [World.tokens, if_pos, acking_tokens, next_tokens, coe_cons_token,
          Multiset.coe_nil, at_append]
        abel
    · rw [heq]
      cases added with
      | false => exact exchanges_drop (hD rfl) hagent
      | true =>
        have hmove : Move rt sa Faults Drops Replays [(.failing, e)]
            [(.acking, e), (.letter, ⟨e.origin, letter⟩), (.entry, ⟨e.origin, letter⟩)] :=
          .deadLetter hcounters hle hletter rfl
        refine exchanges_of_move hmove (failed_split hagent) ?_
        simp only [World.tokens, if_pos, acking_tokens, next_tokens, coe_cons_token,
          Multiset.coe_nil, at_append]
        abel

theorem exchanges_ack (done : Bool) (hagent : w.agent = .acking e rest)
    (hF : done = false → Faults) :
    Exchanges (Move rt sa Faults Drops Replays) w.tokens
      (if done then ({ w with agent := .next rest } : World ι)
        else { w with agent := .idle, stranded := w.stranded ++ rest }).tokens := by
  have hhead : Exchanges (Move rt sa Faults Drops Replays) w.tokens
      ({ w with agent := .next rest } : World ι).tokens :=
    exchanges_of_move (Move.acknowledge e) (acking_split hagent) (zero_add _).symm
  cases done with
  | true => exact hhead
  | false =>
    refine exchanges_then_strand (p := .held) (l := rest)
      (r := ({ w with agent := .idle } : World ι).tokens) (hF rfl) rfl ?_ ?_
    · have heq : ({ w with agent := .next rest } : World ι).tokens =
          Place.held.at rest + ({ w with agent := .idle } : World ι).tokens := by
        simp only [World.tokens, next_tokens, idle_tokens]
        abel
      rw [← heq]
      exact hhead
    · rw [if_neg Bool.false_ne_true]
      simp only [World.tokens, idle_tokens, at_append]
      abel

theorem exchanges_stopAgent (hF : Faults) (hagent : w.agent ≠ .idle) :
    Exchanges (Move rt sa Faults Drops Replays) w.tokens
      ({ w with agent := .idle, stranded := w.stranded ++ w.agent.inHand } : World ι).tokens := by
  cases hat : w.agent with
  | idle => exact absurd hat hagent
  | processing e rest =>
    refine exchanges_beside (r := ({ w with agent := .idle } : World ι).tokens)
      (exchanges_strand hF (p := .held) rfl (List.cons_ne_nil e rest)) ?_ ?_
    · simp only [World.tokens, hat, processing_tokens, idle_tokens, at_cons e rest]
      abel
    · simp only [World.tokens, idle_tokens, AgentAt.inHand, at_append]
      abel
  | failed e rest => exact exchanges_stopFailed hF hat
  | acking e rest => exact exchanges_ack false hat fun _ => hF

end Agent

/-! ### The scheduler -/

section Scheduler

variable {d : Entry ι} {rest : List (Entry ι)}

theorem exchanges_readLetters (hbatch : w.batch = [])
    (htake : w.unread.take batchSize = d :: rest) :
    Exchanges (Move rt sa Faults Drops Replays) w.tokens
      ({ w with unread := w.unread.drop batchSize, batch := d :: rest } : World ι).tokens := by
  refine exchanges_beside (r := ({ w with unread := w.unread.drop batchSize } : World ι).tokens)
    (Exchanges.each (fun d _ => Move.readLetter d) (List.cons_ne_nil d rest)) ?_ ?_
  · change _ = Place.letter.at (d :: rest) + _
    simp only [World.tokens, at_take htake]
    abel
  · change _ = Place.looped.at (d :: rest) + _
    simp only [World.tokens, hbatch, at_nil]
    abel

theorem exchanges_readLettersLost (hF : Faults) (htake : w.unread.take batchSize = d :: rest) :
    Exchanges (Move rt sa Faults Drops Replays) w.tokens
      ({ w with
        unread := w.unread.drop batchSize
        stranded := w.stranded ++ (d :: rest) } : World ι).tokens := by
  refine exchanges_beside (r := ({ w with unread := w.unread.drop batchSize } : World ι).tokens)
    (exchanges_strand hF (p := .letter) rfl (List.cons_ne_nil d rest)) ?_ ?_
  · simp only [World.tokens, at_take htake]
    abel
  · simp only [World.tokens, at_append]
    abel

theorem exchanges_spawn (acked : Bool) (hbatch : w.batch = d :: rest)
    (hF : acked = false → Faults) :
    Exchanges (Move rt sa Faults Drops Replays) w.tokens
      (if acked then ({ w with batch := rest, tasks := w.tasks ++ [(d, true)] } : World ι)
        else { w with
          batch := []
          tasks := w.tasks ++ [(d, false)]
          stranded := w.stranded ++ rest }).tokens := by
  have hhead : Exchanges (Move rt sa Faults Drops Replays) w.tokens
      (Place.looped.at rest +
        ({ w with batch := [], tasks := w.tasks ++ [(d, acked)] } : World ι).tokens) := by
    refine exchanges_of_move (r := ({ w with batch := rest } : World ι).tokens) (Move.spawn d) ?_ ?_
    · simp only [World.tokens, hbatch, at_cons d rest, coe_cons_token, Multiset.coe_nil]
      abel
    · simp only [World.tokens, at_nil, at_append, List.map_append, List.map_cons, List.map_nil,
        coe_cons_token, Multiset.coe_nil]
      abel
  cases acked with
  | true =>
    have heq : ({ w with batch := rest, tasks := w.tasks ++ [(d, true)] } : World ι).tokens =
        Place.looped.at rest +
          ({ w with batch := [], tasks := w.tasks ++ [(d, true)] } : World ι).tokens := by
      simp only [World.tokens, at_nil]
      abel
    rw [if_pos rfl, heq]
    exact hhead
  | false =>
    refine exchanges_then_strand (hF rfl) rfl hhead ?_
    rw [if_neg Bool.false_ne_true]
    simp only [World.tokens, at_append]
    abel

theorem task_split {i : Nat} {acked : Bool} (htask : w.tasks[i]? = some (d, acked)) :
    w.tokens =
      Place.task.at [d] + ({ w with tasks := w.tasks.eraseIdx i } : World ι).tokens := by
  have hperm : Place.task.at (w.tasks.map Prod.fst) =
      Place.task.at [d] + Place.task.at ((w.tasks.eraseIdx i).map Prod.fst) := by
    rcases List.getElem?_eq_some_iff.mp htask with ⟨hi, hget⟩
    have hcons := (List.getElem_cons_eraseIdx_perm hi).map Prod.fst
    rw [hget, List.map_cons] at hcons
    rw [← at_append]
    exact Multiset.coe_eq_coe.mpr (hcons.symm.map _)
  simp only [World.tokens, hperm]
  abel

theorem exchanges_lose {s : Multiset (Token ι)} {acked : Bool}
    (hs : s = Place.task.at [d] + w.tokens) (hF : acked = false → Faults)
    (hD : acked = true → Drops) :
    Exchanges (Move rt sa Faults Drops Replays) s (w.lose d acked).tokens := by
  unfold World.lose
  cases acked with
  | true =>
    refine exchanges_of_move (Move.dropTask (hD rfl) d) hs ?_
    simp only [World.tokens, if_pos, at_append, coe_cons_token, Multiset.coe_nil]
    abel
  | false =>
    refine exchanges_of_move (Move.strand (hF rfl) (p := .task) rfl d) hs ?_
    rw [if_neg Bool.false_ne_true]
    simp only [World.tokens, at_append, coe_cons_token, Multiset.coe_nil]
    abel

/-- A task of a letter publishes what becomes of it, or loses it. -/
theorem exchanges_runTask {s : Multiset (Token ι)} {acked added : Bool} {messageId now : String}
    (hs : s = Place.task.at [d] + w.tokens) (hletter : IsLetter rt sa d)
    (hF : added = false → Faults) (hD : added = false → Drops)
    (h : w.runTask rt sa d acked messageId now added = some t) :
    Exchanges (Move rt sa Faults Drops Replays) s t.tokens := by
  rcases hletter with ⟨count, most, hle, hletter⟩
  unfold World.runTask at h
  rcases handle_letter sa.named hletter with ⟨hlt, ending, heq⟩ | ⟨hge, again, heq, hcounted⟩
  · rw [heq] at h
    cases added with
    | false =>
      rw [← Option.some.inj h]
      exact exchanges_lose hs (fun _ => hF rfl) (fun _ => hD rfl)
    | true =>
      have hmove : Move rt sa Faults Drops Replays [(.task, d)] [(.terminal, ⟨d.origin, ending⟩)] :=
        .terminate hletter.counted hlt rfl
      rw [← Option.some.inj h]
      refine exchanges_of_move hmove hs ?_
      simp only [World.tokens, at_append, coe_cons_token, Multiset.coe_nil]
      abel
  · have hmost : most = count := le_antisymm hle hge
    rw [hmost] at hcounted hletter
    rw [heq] at h
    simp only [ne_eq, not_true_eq_false, if_false] at h
    cases added with
    | false =>
      rw [← Option.some.inj h]
      exact exchanges_lose hs (fun _ => hF rfl) (fun _ => hD rfl)
    | true =>
      have hmove : Move rt sa Faults Drops Replays [(.task, d)] [(.queued, ⟨d.origin, again⟩)] :=
        .requeue hletter.counted hcounted rfl
      rw [← Option.some.inj h]
      refine exchanges_of_move hmove hs ?_
      simp only [World.tokens, at_append, coe_cons_token, Multiset.coe_nil]
      abel

/-- Where the task of a dead letter ends when the scheduler stops. -/
def stopped (task : Entry ι × Bool) : Token ι := (if task.2 then .dropped else .stranded, task.1)

theorem stopped_tokens (tasks : List (Entry ι × Bool)) :
    ((tasks.map stopped : List (Token ι)) : Multiset (Token ι)) =
      Place.dropped.at ((tasks.filter Prod.snd).map Prod.fst) +
        Place.stranded.at ((tasks.filter (!·.2)).map Prod.fst) := by
  induction tasks with
  | nil => rfl
  | cons task tasks ih =>
    rcases task with ⟨d, acked⟩
    rw [List.map_cons]
    cases acked with
    | true =>
      have hstopped : stopped (d, true) = (.dropped, d) := rfl
      rw [hstopped, coe_cons_token, ih, List.filter_cons_of_pos rfl,
        List.filter_cons_of_neg (by simp), List.map_cons,
        at_cons d ((tasks.filter Prod.snd).map Prod.fst), add_assoc]
    | false =>
      have hstopped : stopped (d, false) = (.stranded, d) := rfl
      rw [hstopped, coe_cons_token, ih, List.filter_cons_of_neg (by simp),
        List.filter_cons_of_pos rfl, List.map_cons,
        at_cons d ((tasks.filter (!·.2)).map Prod.fst)]
      abel

theorem exchanges_stopScheduler (hF : Faults) (hD : w.tasks.all (!·.2) = false → Drops)
    (hbusy : ¬(w.batch = [] ∧ w.tasks = [])) :
    Exchanges (Move rt sa Faults Drops Replays) w.tokens
      ({ w with
        batch := []
        tasks := []
        dropped := w.dropped ++ (w.tasks.filter Prod.snd).map Prod.fst
        stranded := w.stranded ++ (w.tasks.filter (!·.2)).map Prod.fst ++ w.batch } :
          World ι).tokens := by
  by_cases htasks : w.tasks = []
  · have hbatch : w.batch ≠ [] := fun h => hbusy ⟨h, htasks⟩
    refine exchanges_beside (r := ({ w with batch := [] } : World ι).tokens)
      (exchanges_strand hF (p := .looped) rfl hbatch) ?_ ?_
    · simp only [World.tokens, at_nil]
      abel
    · simp only [World.tokens, htasks, at_nil, at_append, List.filter_nil, List.map_nil]
      abel
  · have heach : Exchanges (Move rt sa Faults Drops Replays) (Place.task.at (w.tasks.map Prod.fst))
        (w.tasks.map stopped : List (Token ι)) := by
      have hold : Place.task.at (w.tasks.map Prod.fst) =
          (w.tasks.map (fun task => (Place.task, task.1)) : List (Token ι)) := by
        unfold Place.at
        rw [List.map_map]
        rfl
      rw [hold]
      refine Exchanges.each (fun task htask => ?_) htasks
      rcases task with ⟨d, acked⟩
      cases acked with
      | true =>
        refine Move.dropTask (hD ?_) d
        rw [List.all_eq_false]
        exact ⟨(d, true), htask, by simp⟩
      | false => exact Move.strand hF (p := .task) rfl d
    rw [stopped_tokens] at heach
    refine exchanges_then_strand (p := .looped) (l := w.batch)
      (r := ({ w with
        batch := []
        tasks := []
        dropped := w.dropped ++ (w.tasks.filter Prod.snd).map Prod.fst
        stranded := w.stranded ++ (w.tasks.filter (!·.2)).map Prod.fst } : World ι).tokens)
      hF rfl (exchanges_beside (r := ({ w with tasks := [] } : World ι).tokens) heach ?_ ?_) ?_
    · simp only [World.tokens, List.map_nil, at_nil]
      abel
    · simp only [World.tokens, List.map_nil, at_nil, at_append]
      abel
    · simp only [World.tokens, at_append]
      abel

theorem exchanges_replay (hR : Replays) {again : Event} {count most : Int}
    (hcounted : counters rt again = some (count, most)) (hle : most ≤ count) :
    Exchanges (Move rt sa Faults Drops Replays) w.tokens
      ({ w with
        queue := w.queue ++ [⟨d.origin, again⟩]
        replayed := w.replayed ++ [⟨d.origin, again⟩] } : World ι).tokens := by
  have hmove : Move rt sa Faults Drops Replays []
      [(.queued, ⟨d.origin, again⟩), (.replayed, ⟨d.origin, again⟩)] :=
    .replay hR hcounted hle
  refine exchanges_of_move hmove (zero_add w.tokens).symm ?_
  simp only [World.tokens, at_append, coe_cons_token, Multiset.coe_nil]
  abel

end Scheduler

/-! ## What a step can do -/

variable {a : Act}

/-- **A step moves events**, from a world whose dead letters are letters. A calm step of counted
events strands none, one that keeps them drops none, and a replay alone replays one. -/
theorem step_exchanges (hletters : ∀ x ∈ w.tokens, LettersAre rt sa x)
    (hF : ¬(a.calm = true ∧ ∀ x ∈ w.tokens, Counted rt x) → Faults)
    (hD : keeps w a = false → Drops) (hR : a.isReplay = true → Replays)
    (h : step rt sa w a = some t) :
    Exchanges (Move rt sa Faults Drops Replays) w.tokens t.tokens := by
  have hrough : a.calm = false → Faults := by
    intro hcalm
    apply hF
    rintro ⟨hcalm', -⟩
    rw [hcalm] at hcalm'
    cases hcalm'
  cases a with
  | consume =>
    simp only [step] at h
    split at h
    case h_1 e rest hagent htake =>
      rw [← Option.some.inj h]
      exact exchanges_consume hagent htake
    case h_2 => cases h
  | consumeLost =>
    simp only [step] at h
    split at h
    case h_1 e rest hagent htake =>
      rw [← Option.some.inj h]
      exact exchanges_consumeLost (hrough rfl) htake
    case h_2 => cases h
  | completes =>
    simp only [step] at h
    split at h
    case h_1 e rest hagent =>
      rw [← Option.some.inj h]
      exact exchanges_completes (hrough rfl) hagent
    case h_2 => cases h
  | raises =>
    simp only [step] at h
    split at h
    case h_1 e rest hagent =>
      rw [← Option.some.inj h]
      exact exchanges_raises hagent
    case h_2 => cases h
  | publish reason now added =>
    simp only [step] at h
    split at h
    case h_1 e rest hagent =>
      rw [← Option.some.inj h]
      refine exchanges_publish hagent (fun hnone => hF ?_) hD
      rintro ⟨-, hcounted⟩
      have hmem : (.failing, e) ∈ w.tokens := by
        rw [failed_split hagent]
        exact Multiset.mem_add.mpr (Or.inl (mem_at.mpr ⟨rfl, List.mem_cons_self ..⟩))
      have hsome := hcounted _ hmem (Or.inr (Or.inr rfl))
      rw [hnone] at hsome
      cases hsome
    case h_2 => cases h
  | ack done =>
    simp only [step] at h
    split at h
    case h_1 e rest hagent =>
      have hex : Exchanges (Move rt sa Faults Drops Replays) w.tokens _ :=
        exchanges_ack done hagent hrough
      cases done <;> exact Option.some.inj h ▸ hex
    case h_2 => cases h
  | stopAgent =>
    simp only [step] at h
    split at h
    case h_1 => cases h
    case h_2 hagent =>
      rw [← Option.some.inj h]
      exact exchanges_stopAgent (hrough rfl) hagent
  | readLetters =>
    simp only [step] at h
    split at h
    case h_1 d rest hbatch htake =>
      rw [← Option.some.inj h]
      exact exchanges_readLetters hbatch htake
    case h_2 => cases h
  | readLettersLost =>
    simp only [step] at h
    split at h
    case h_1 d rest hbatch htake =>
      rw [← Option.some.inj h]
      exact exchanges_readLettersLost (hrough rfl) htake
    case h_2 => cases h
  | spawn acked =>
    simp only [step] at h
    split at h
    case h_1 => cases h
    case h_2 d rest hbatch =>
      have hex : Exchanges (Move rt sa Faults Drops Replays) w.tokens _ :=
        exchanges_spawn acked hbatch hrough
      cases acked <;> exact Option.some.inj h ▸ hex
  | runTask i messageId now added =>
    simp only [step] at h
    split at h
    case h_1 => cases h
    case h_2 d acked htask =>
      have hsplit := task_split htask
      have hmem : (.task, d) ∈ w.tokens := by
        rw [hsplit]
        exact Multiset.mem_add.mpr (Or.inl (mem_at.mpr ⟨rfl, List.mem_cons_self ..⟩))
      exact exchanges_runTask hsplit (hletters _ hmem (Or.inr (Or.inr (Or.inl rfl)))) hrough hD h
  | stopScheduler =>
    simp only [step] at h
    split at h
    case isTrue => cases h
    case isFalse hbusy =>
      rw [← Option.some.inj h]
      exact exchanges_stopScheduler (hrough rfl) hD hbusy
  | replay i now =>
    simp only [step] at h
    split at h
    case h_1 => cases h
    case h_2 d hentry =>
      have hmem : (.entry, d) ∈ w.tokens := by
        unfold World.tokens
        simp only [Multiset.mem_add, mem_at]
        have hd := List.mem_of_getElem? hentry
        simp [hd]
      rcases hletters _ hmem (Or.inr (Or.inr (Or.inr rfl))) with ⟨count, most, hle, hletter⟩
      rcases replay_letter sa.named hletter now with ⟨again, heq, hcounted⟩
      rw [heq] at h
      simp only [ne_eq, not_true_eq_false, if_false] at h
      rw [← Option.some.inj h]
      exact exchanges_replay (hR rfl) hcounted hle

end AiAgentsSwd.Retry
