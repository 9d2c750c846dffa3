import AiAgentsSwd.Deliberation.Runs

/-!
# Deliberation.Voices — who may speak for a slot

A worker speaks for a slot once its own reasoning call came back fresh with an artifact, and the
reasoning service gives one fresh result for each slot. So one worker at most has the slot's voice,
and a slot gets one message.
-/

namespace AiAgentsSwd.Deliberation

open Keyed (Table)
open Planning (Uuid)
open Reasoning (InvocationStatus ReasoningResult freshes)
open Transition

variable {ι α : Type}

/-! ## Voices -/

/-- The slot the call has a fresh artifact for. -/
def Phase.voice : Phase α → Option Slot
  | .checkpoint call _ _ => some call.slot
  | .posting call _ _ => some call.slot
  | .recording call _ _ _ => some call.slot
  | _ => none

/-- The slot the call may still post a message for. -/
def Phase.unposted : Phase α → Option Slot
  | .checkpoint call _ _ => some call.slot
  | .posting call _ _ => some call.slot
  | _ => none

theorem Phase.voice_of_unposted {p : Phase α} {slot : Slot} (h : p.unposted = some slot) :
    p.voice = some slot := by
  cases p with
  | checkpoint call artifact inv => exact h
  | posting call message count => exact h
  | _ => cases h

/-- A phase that follows another one within a call keeps its voice or loses it. -/
structure Phase.Follows (p q : Phase α) : Prop where
  voice : ∀ slot, q.voice = some slot → p.voice = some slot
  unposted : ∀ slot, q.unposted = some slot → p.unposted = some slot

theorem Phase.Follows.refl (p : Phase α) : p.Follows p := ⟨fun _ h => h, fun _ h => h⟩

theorem follows_voiceless {p q : Phase α} (h : q.voice = none) : p.Follows q where
  voice slot hq := by
    rw [h] at hq
    cases hq
  unposted slot hq := by
    rw [q.voice_of_unposted hq] at h
    cases h

section Statements

variable {cfg : Config α} {now : Int} {invocation : Slot → Option InvocationStatus}
  {room room' : Room} {p q : Phase α}

theorem afterListing_voice {session : DiscussionSession}
    {participants : List DiscussionParticipant} {turns : List (Nat × DiscussionTurn)}
    (h : afterListing cfg session participants turns = some q) : q.voice = none := by
  unfold afterListing at h
  simp only at h
  split at h
  · obtain rfl := Option.some.inj h
    rfl
  · split at h
    · obtain rfl := Option.some.inj h
      rfl
    · obtain ⟨participant, -, h⟩ := Option.bind_eq_some_iff.mp h
      split at h
      · obtain rfl := Option.some.inj h
        rfl
      · obtain ⟨plan, -, rfl⟩ := Option.map_eq_some_iff.mp h
        rfl

theorem afterRecorded_voice {call : TurnCall} {m : Option Nat}
    (h : call.afterRecorded m = some q) : q.voice = none := by
  unfold TurnCall.afterRecorded at h
  split at h
  · obtain rfl := Option.some.inj h
    rfl
  · cases h

/-- **A statement gives nobody a voice.** -/
theorem statement_follows
    (hstep : statement cfg now invocation room p = some (room', some q)) : p.Follows q := by
  cases p with
  | checkingAvailable call => cases hstep
  | starting call => cases hstep
  | invoking call => cases hstep
  | checkpoint call artifact inv =>
    obtain ⟨-, h⟩ := Prod.mk.inj (Option.some.inj hstep)
    unfold afterCheckpoint at h
    split at h
    · obtain rfl := Option.some.inj h
      exact follows_voiceless rfl
    · split at h
      · obtain rfl := Option.some.inj h
        exact follows_voiceless rfl
      · obtain ⟨x, -, rfl⟩ := Option.map_eq_some_iff.mp h
        exact ⟨fun _ hq => hq, fun _ hq => hq⟩
  | posting call message count =>
    obtain ⟨-, h⟩ := Prod.mk.inj (Option.some.inj hstep)
    obtain rfl := Option.some.inj h
    exact ⟨fun _ hq => hq, fun _ hq => by cases hq⟩
  | recording call message count m =>
    rw [statement] at hstep
    split at hstep
    · obtain ⟨-, h⟩ := Prod.mk.inj (Option.some.inj hstep)
      exact follows_voiceless (afterRecorded_voice h)
    · obtain ⟨-, h⟩ := Prod.mk.inj (Option.some.inj hstep)
      cases h
  | reading =>
    obtain ⟨-, h⟩ := Prod.mk.inj (Option.some.inj hstep)
    split at h
    · cases h
    · split at h <;> (obtain rfl := Option.some.inj h; exact follows_voiceless rfl)
  | listingParticipants session =>
    obtain ⟨-, h⟩ := Prod.mk.inj (Option.some.inj hstep)
    split at h <;> (obtain rfl := Option.some.inj h; exact follows_voiceless rfl)
  | listingTurns session participants =>
    obtain ⟨-, h⟩ := Prod.mk.inj (Option.some.inj hstep)
    exact follows_voiceless (afterListing_voice h)
  | atBoundary r converged participants =>
    obtain ⟨-, h⟩ := Prod.mk.inj (Option.some.inj hstep)
    split at h
    · cases h
    · split at h
      · obtain rfl := Option.some.inj h
        exact follows_voiceless rfl
      · split at h
        · obtain ⟨call, -, rfl⟩ := Option.map_eq_some_iff.mp h
          exact follows_voiceless rfl
        · split at h <;> (obtain rfl := Option.some.inj h; exact follows_voiceless rfl)
  | advancingRound r =>
    obtain ⟨-, h⟩ := Prod.mk.inj (Option.some.inj hstep)
    cases h
  | claiming call =>
    rw [statement] at hstep
    split at hstep <;>
    · obtain ⟨-, h⟩ := Prod.mk.inj (Option.some.inj hstep)
      obtain rfl := Option.some.inj h
      exact follows_voiceless rfl
  | fetching call =>
    obtain ⟨-, h⟩ := Prod.mk.inj (Option.some.inj hstep)
    split at h
    · cases h
    · split at h
      · exact follows_voiceless (afterRecorded_voice h)
      · cases h
      · obtain rfl := Option.some.inj h
        exact follows_voiceless rfl
  | resolving call =>
    obtain ⟨-, h⟩ := Prod.mk.inj (Option.some.inj hstep)
    split at h <;> (obtain rfl := Option.some.inj h; exact follows_voiceless rfl)
  | waiting call =>
    obtain ⟨-, h⟩ := Prod.mk.inj (Option.some.inj hstep)
    split at h
    · cases h
    · split at h
      · obtain rfl := Option.some.inj h
        exact follows_voiceless rfl
      · cases h
  | failing slot inv next =>
    obtain ⟨-, h⟩ := Prod.mk.inj (Option.some.inj hstep)
    obtain ⟨reason, -, rfl⟩ := Option.map_eq_some_iff.mp h
    exact follows_voiceless rfl
  | closing stopReason result =>
    simp only [statement] at hstep
    split at hstep
    · obtain ⟨-, h⟩ := Prod.mk.inj (Option.some.inj hstep)
      cases h
    · obtain ⟨-, h⟩ := Prod.mk.inj (Option.some.inj hstep)
      split at h
      · obtain rfl := Option.some.inj h
        exact follows_voiceless rfl
      · cases h
  | reclosing =>
    obtain ⟨-, h⟩ := Prod.mk.inj (Option.some.inj hstep)
    split at h
    · obtain rfl := Option.some.inj h
      exact follows_voiceless rfl
    · cases h

/-- After `invoke` a call has a voice only on a fresh result. -/
theorem afterInvoke_voice {call : TurnCall} {result : ReasoningResult α}
    (h : afterInvoke call result = some q) {slot : Slot} (hv : q.voice = some slot) :
    result.disposition = .fresh ∧ slot = call.slot := by
  unfold afterInvoke at h
  split at h
  · cases h
  · next hfresh =>
    split at h
    · obtain rfl := Option.some.inj h
      cases hv
    · obtain rfl := Option.some.inj h
      exact ⟨not_not.mp hfresh, (Option.some.inj hv).symm⟩

end Statements

/-! ## The reasoning of a slot -/

variable [DecidableEq ι] {cfg : Config α}

/-- A fresh result is the first of its slot. -/
theorem returned_fresh {r r' : Reasoning.World ι α} {act : Reasoning.Act ι α} (h : Reasoned cfg r)
    (hs : reasoningStep cfg r act = some r') {result : ReasoningResult α}
    (hr : returned r r' = some result) (hfresh : result.disposition = .fresh) :
    freshes r.history = [] ∧ freshes r'.history ≠ [] := by
  obtain ⟨es, hhistory, -⟩ := Reasoning.step_returned h.inv h.custody hs
  have honce := (h.step hs).custody.once
  have hmem : ∃ i, .returned i result ∈ es := by
    unfold returned at hr
    rw [hhistory, List.drop_left] at hr
    split at hr
    · next i x hlast =>
      obtain rfl := Option.some.inj hr
      exact ⟨i, List.mem_of_getLast? hlast⟩
    · cases hr
  have hes : freshes es ≠ [] := by
    obtain ⟨i, hi⟩ := hmem
    obtain ⟨artifact, row, disposition⟩ := result
    obtain rfl : disposition = .fresh := hfresh
    have hin : i ∈ freshes es := List.mem_filterMap.mpr ⟨_, hi, rfl⟩
    exact List.ne_nil_of_mem hin
  rw [hhistory, Reasoning.freshes_append] at honce ⊢
  rw [List.length_append] at honce
  have hpos := List.length_pos_of_ne_nil hes
  constructor
  · exact List.length_eq_zero_iff.mp (by omega)
  · intro hnil
    exact hes (List.append_eq_nil_iff.mp hnil).2

/-- A fresh result is never taken back. -/
theorem freshes_step {r r' : Reasoning.World ι α} {act : Reasoning.Act ι α} (h : Reasoned cfg r)
    (hs : reasoningStep cfg r act = some r') (hne : freshes r.history ≠ []) :
    freshes r'.history ≠ [] := by
  obtain ⟨es, hhistory, -⟩ := Reasoning.step_returned h.inv h.custody hs
  rw [hhistory, Reasoning.freshes_append]
  intro hnil
  exact hne (List.append_eq_nil_iff.mp hnil).1

/-! ## One voice -/

/-- Who has the voice of a slot, and what was said for it. -/
structure Voices (w : World ι α) : Prop where
  answered : ∀ i p slot, w.workers i = some p → p.voice = some slot →
    freshes (w.reasoning slot).history ≠ []
  said : ∀ x ∈ w.room.messages, freshes (w.reasoning x.slot).history ≠ []
  alone : ∀ i j p q slot, w.workers i = some p → w.workers j = some q → p.voice = some slot →
    q.voice = some slot → i = j
  unsaid : ∀ i p slot, w.workers i = some p → p.unposted = some slot →
    ∀ x ∈ w.room.messages, x.slot ≠ slot
  once : (w.room.messages.map Posted.slot).Nodup
  taken : ∀ x ∈ w.room.messages, w.room.turns.find? x.slot ≠ none
  invocations : ∀ slot, (w.reasoning slot).row ≠ none → w.room.turns.find? slot ≠ none

variable {w w' w₀ : World ι α} {a : Act ι α} {clock : Int}

omit [DecidableEq ι] in
theorem Opened.voices (h : Opened clock w) : Voices w := by
  cases h with
  | session principals =>
    exact ⟨fun i p slot hi => (by cases hi), fun x hx => (by cases hx),
      fun i j p q slot hi => (by cases hi), fun i p slot hi => (by cases hi), List.nodup_nil,
      fun x hx => (by cases hx), fun slot hrow => absurd rfl hrow⟩
  | failedSession stopReason hreason now =>
    exact ⟨fun i p slot hi => (by cases hi), fun x hx => (by cases hx),
      fun i j p q slot hi => (by cases hi), fun i p slot hi => (by cases hi), List.nodup_nil,
      fun x hx => (by cases hx), fun slot hrow => absurd rfl hrow⟩

omit [DecidableEq ι] in
/-- A step that posts nothing and gives nobody a voice. -/
theorem Voices.frame (h : Voices w) (hmessages : w'.room.messages = w.room.messages)
    (hlater : Later w.room w'.room)
    (hfresh : ∀ slot, freshes (w.reasoning slot).history ≠ [] →
      freshes (w'.reasoning slot).history ≠ [])
    (hvoice : ∀ j q, w'.workers j = some q → q.voice = none ∨
      ∃ p, w.workers j = some p ∧ p.Follows q)
    (hrow : ∀ slot, (w'.reasoning slot).row ≠ none → w'.room.turns.find? slot ≠ none) :
    Voices w' := by
  have hold : ∀ j q slot, w'.workers j = some q → q.voice = some slot →
      ∃ p, w.workers j = some p ∧ p.voice = some slot := by
    intro j q slot hj hq
    rcases hvoice j q hj with hnone | ⟨p, hp, hfollows⟩
    · rw [hnone] at hq
      cases hq
    · exact ⟨p, hp, hfollows.voice slot hq⟩
  refine ⟨?_, ?_, ?_, ?_, ?_, ?_, hrow⟩
  · intro i q slot hi hq
    obtain ⟨p, hp, hv⟩ := hold i q slot hi hq
    exact hfresh slot (h.answered i p slot hp hv)
  · rw [hmessages]
    intro x hx
    exact hfresh x.slot (h.said x hx)
  · intro i j q q' slot hi hj hq hq'
    obtain ⟨p, hp, hv⟩ := hold i q slot hi hq
    obtain ⟨p', hp', hv'⟩ := hold j q' slot hj hq'
    exact h.alone i j p p' slot hp hp' hv hv'
  · rw [hmessages]
    intro i q slot hi hq
    rcases hvoice i q hi with hnone | ⟨p, hp, hfollows⟩
    · rw [q.voice_of_unposted hq] at hnone
      cases hnone
    · exact h.unsaid i p slot hp (hfollows.unposted slot hq)
  · rw [hmessages]
    exact h.once
  · rw [hmessages]
    intro x hx
    exact hlater.taken (h.taken x hx)

/-- What the workers of a step without a statement have. -/
theorem voices_goto {i : ι} {r : Option (Phase α)} (hr : ∀ q, r = some q → q.voice = none)
    {j : ι} {q : Phase α} (hj : (w.goto i r).workers j = some q) :
    q.voice = none ∨ ∃ p, w.workers j = some p ∧ p.Follows q := by
  rcases workers_goto hj with ⟨-, heq⟩ | ⟨-, hj⟩
  · exact Or.inl (hr q heq)
  · exact Or.inr ⟨q, hj, .refl q⟩

omit [DecidableEq ι] in
/-- The invocations after a step of one slot's reasoning. -/
theorem Voices.invocations_set (h : Voices w) {s : Slot} {r : Reasoning.World ι α}
    (htaken : w.room.turns.find? s ≠ none) (slot : Slot)
    (hrow : ((w.setReasoning s r).reasoning slot).row ≠ none) :
    w.room.turns.find? slot ≠ none := by
  rw [reasoning_setReasoning] at hrow
  by_cases hs : slot = s
  · rw [hs]
    exact htaken
  · rw [if_neg hs] at hrow
    exact h.invocations slot hrow

omit [DecidableEq ι] in
/-- The fresh results after a step of one slot's reasoning. -/
theorem freshes_set {s : Slot} {r : Reasoning.World ι α}
    (hr : freshes (w.reasoning s).history ≠ [] → freshes r.history ≠ []) (slot : Slot)
    (hne : freshes (w.reasoning slot).history ≠ []) :
    freshes ((w.setReasoning s r).reasoning slot).history ≠ [] := by
  rw [reasoning_setReasoning]
  by_cases hs : slot = s
  · rw [if_pos hs]
    rw [hs] at hne
    exact hr hne
  · rw [if_neg hs]
    exact hne

/-- A statement of a call. -/
theorem Voices.stated (h : Voices w) (hsound : Sound cfg w) {i : ι} {now : Int} {p : Phase α}
    {room : Room} {r : Option (Phase α)} (hi : w.workers i = some p)
    (hs : statement cfg now w.invocation w.room p = some (room, r)) :
    Voices ({ w with room := room }.goto i r) := by
  have hwrite := statement_write hs
  have hvoice : ∀ j q, ({ w with room := room }.goto i r).workers j = some q →
      q.voice = none ∨ ∃ p, w.workers j = some p ∧ p.Follows q := by
    intro j q hj
    rcases workers_goto (w := { w with room := room }) hj with ⟨rfl, rfl⟩ | ⟨-, hj⟩
    · exact Or.inr ⟨p, hi, statement_follows hs⟩
    · exact Or.inr ⟨q, hj, .refl q⟩
  have hframe : room.messages = w.room.messages →
      Voices ({ w with room := room }.goto i r) := by
    intro hmessages
    refine h.frame hmessages hwrite.later (fun _ hne => hne) hvoice ?_
    intro slot hrow
    exact hwrite.later.taken (h.invocations slot hrow)
  cases hwrite with
  | nothing => exact hframe rfl
  | claimed hp hnew => exact hframe rfl
  | recorded hp ht hturn => exact hframe rfl
  | abandoned hp ht hturn => exact hframe rfl
  | advanced hp hopen => exact hframe rfl
  | closed hp hopen hguard => exact hframe rfl
  | @posted call message count hp =>
    subst hp
    obtain ⟨-, hr⟩ := Prod.mk.inj (Option.some.inj hs)
    have htaken := (hsound.knows i _ hi).2.1
    have hunsaid := h.unsaid i _ call.slot hi rfl
    have hanswered := h.answered i _ call.slot hi rfl
    have hmem : ∀ x ∈ (w.room.postMessage call.slot message).messages,
        x ∈ w.room.messages ∨ x.slot = call.slot := by
      intro x hx
      rcases List.mem_append.mp hx with hx | hx
      · exact Or.inl hx
      · rw [List.mem_singleton.mp hx]
        exact Or.inr rfl
    refine ⟨?_, ?_, ?_, ?_, ?_, ?_, h.invocations⟩
    · intro j q slot hj hq
      rcases hvoice j q hj with hnone | ⟨p, hp, hfollows⟩
      · rw [hnone] at hq
        cases hq
      · exact h.answered j p slot hp (hfollows.voice slot hq)
    · intro x hx
      rcases hmem x hx with hx | hx
      · exact h.said x hx
      · show freshes (w.reasoning x.slot).history ≠ []
        rw [hx]
        exact hanswered
    · intro j k q q' slot hj hk hq hq'
      rcases hvoice j q hj with hnone | ⟨p, hp, hfollows⟩
      · rw [hnone] at hq
        cases hq
      · rcases hvoice k q' hk with hnone | ⟨p', hp', hfollows'⟩
        · rw [hnone] at hq'
          cases hq'
        · exact h.alone j k p p' slot hp hp' (hfollows.voice slot hq) (hfollows'.voice slot hq')
    · intro j q slot hj hq x hx
      rcases workers_goto (w := { w with room := _ }) hj with ⟨rfl, heq⟩ | ⟨hne, hj⟩
      · -- the poster has nothing left to post
        rw [← hr] at heq
        obtain rfl := Option.some.inj heq
        cases hq
      · rcases hmem x hx with hx | hx
        · exact h.unsaid j q slot hj hq x hx
        · rw [hx]
          intro heq
          rw [← heq] at hq
          exact hne (h.alone j i q _ call.slot hj hi (q.voice_of_unposted hq) rfl)
    · show ((w.room.messages ++ [_]).map Posted.slot).Nodup
      rw [List.map_append, List.nodup_append]
      refine ⟨h.once, List.nodup_singleton _, ?_⟩
      intro s hs s' hs' heq
      obtain ⟨x, hx, rfl⟩ := List.mem_map.mp hs
      have hs' : s' = call.slot := List.mem_singleton.mp hs'
      exact hunsaid x hx (heq.trans hs')
    · intro x hx
      rcases hmem x hx with hx | hx
      · exact h.taken x hx
      · rw [hx]
        exact htaken

/-- The end of `invoke`: the voice goes to the caller if the result is fresh, and then nobody had
it before. -/
theorem Voices.reasoned (h : Voices w) (hsound : Sound cfg w) {i : ι} {call : TurnCall}
    {act : Reasoning.Act ι α} {r : Reasoning.World ι α} (hi : w.workers i = some (.invoking call))
    (hr : reasoningStep cfg (w.reasoning call.slot) act = some r) :
    Voices ((w.setReasoning call.slot r).goto i
      ((returned (w.reasoning call.slot) r).bind (afterInvoke call))) := by
  have hreasoned := hsound.reasoned call.slot
  have htaken := (hsound.knows i _ hi).2
  have hfreshes := fun slot hne => freshes_set (freshes_step hreasoned hr) slot hne
  have hrow : ∀ slot, ((w.setReasoning call.slot r).reasoning slot).row ≠ none →
      w.room.turns.find? slot ≠ none := fun slot hrow => h.invocations_set htaken slot hrow
  by_cases hvoiceless : ∀ q, (returned (w.reasoning call.slot) r).bind (afterInvoke call) =
      some q → q.voice = none
  · refine h.frame rfl (.refl _) hfreshes ?_ hrow
    intro j q hj
    exact voices_goto (w := w.setReasoning call.slot r) hvoiceless hj
  · -- the result is fresh, so the slot had no voice and no message
    push Not at hvoiceless
    obtain ⟨q, hq, hvoice⟩ := hvoiceless
    obtain ⟨result, hreturned, hafter⟩ := Option.bind_eq_some_iff.mp hq
    obtain ⟨slot, hslot⟩ := Option.ne_none_iff_exists'.mp hvoice
    obtain ⟨hfresh, -⟩ := afterInvoke_voice hafter hslot
    obtain ⟨hbefore, hnow⟩ := returned_fresh hreasoned hr hreturned hfresh
    have hnobody : ∀ j p, w.workers j = some p → p.voice ≠ some call.slot :=
      fun j p hj hp => h.answered j p call.slot hj hp hbefore
    rw [hq]
    have hworkers : ∀ j p s, ((w.setReasoning call.slot r).goto i (some q)).workers j = some p →
        p.voice = some s → (j = i ∧ s = call.slot) ∨ (j ≠ i ∧ w.workers j = some p) := by
      intro j p s hj hp
      rcases workers_goto hj with ⟨rfl, heq⟩ | ⟨hne, hj⟩
      · obtain rfl := Option.some.inj heq
        exact Or.inl ⟨rfl, (afterInvoke_voice hafter hp).2⟩
      · exact Or.inr ⟨hne, hj⟩
    refine ⟨?_, ?_, ?_, ?_, h.once, h.taken, hrow⟩
    · intro j p s hj hp
      rcases hworkers j p s hj hp with ⟨-, rfl⟩ | ⟨-, hj⟩
      · show freshes ((w.setReasoning call.slot r).reasoning call.slot).history ≠ []
        rw [reasoning_setReasoning, if_pos rfl]
        exact hnow
      · exact hfreshes s (h.answered j p s hj hp)
    · intro x hx
      exact hfreshes x.slot (h.said x hx)
    · intro j k p p' s hj hk hp hp'
      rcases hworkers j p s hj hp with ⟨rfl, rfl⟩ | ⟨-, hj⟩
      · rcases hworkers k p' _ hk hp' with ⟨rfl, -⟩ | ⟨-, hk⟩
        · rfl
        · exact absurd hp' (hnobody k p' hk)
      · rcases hworkers k p' s hk hp' with ⟨-, rfl⟩ | ⟨-, hk⟩
        · exact absurd hp (hnobody j p hj)
        · exact h.alone j k p p' s hj hk hp hp'
    · intro j p s hj hp x hx
      rcases hworkers j p s hj (p.voice_of_unposted hp) with ⟨-, rfl⟩ | ⟨-, hj⟩
      · intro heq
        refine h.said x hx ?_
        rw [heq]
        exact hbefore
      · exact h.unsaid j p s hj hp x hx

/-- **One step.** -/
theorem Voices.effect (h : Voices w) (hsound : Sound cfg w) (he : Effect cfg w a w') :
    Voices w' := by
  cases he with
  | ticked t hle =>
    refine h.frame rfl (.refl _) (fun _ hne => hne) ?_ (fun slot hrow => h.invocations slot hrow)
    intro j q hj
    exact Or.inr ⟨q, hj, .refl q⟩
  | advanced i hi =>
    refine h.frame rfl (.refl _) (fun _ hne => hne) ?_ h.invocations
    intro j q hj
    refine voices_goto ?_ hj
    intro q heq
    obtain rfl := Option.some.inj heq
    rfl
  | cancelled i hi =>
    refine h.frame rfl (.refl _) (fun _ hne => hne) ?_ h.invocations
    intro j q hj
    refine voices_goto ?_ hj
    intro q heq
    obtain rfl := Option.some.inj heq
    rfl
  | died i =>
    refine h.frame rfl (.refl _) (fun _ hne => hne) ?_ h.invocations
    intro j q hj
    exact voices_goto (fun q heq => by cases heq) hj
  | @diedInvoking i call hi =>
    have htaken := (hsound.knows i _ hi).2
    have hkept : freshes (w.reasoning call.slot).history ≠ [] →
        freshes ((w.reasoning call.slot).setCaller i none).history ≠ [] := fun hne => hne
    refine h.frame rfl (.refl _) (fun slot hne => freshes_set hkept slot hne) ?_
      (fun slot hrow => h.invocations_set htaken slot hrow)
    intro j q hj
    exact voices_goto (w := w.setReasoning call.slot _) (fun q heq => by cases heq) hj
  | stated i hi hs => exact h.stated hsound hi hs
  | @answered i available call q hi hq =>
    refine h.frame rfl (.refl _) (fun _ hne => hne) ?_ h.invocations
    intro j q' hj
    refine voices_goto ?_ hj
    intro q' heq
    obtain rfl := Option.some.inj heq
    rcases hq with rfl | rfl <;> rfl
  | @invoked i call r hi hr =>
    have htaken := (hsound.knows i _ hi).2
    refine h.frame rfl (.refl _)
      (fun slot hne => freshes_set (freshes_step (hsound.reasoned call.slot) hr) slot hne) ?_
      (fun slot hrow => h.invocations_set htaken slot hrow)
    intro j q hj
    refine voices_goto (w := w.setReasoning call.slot r) ?_ hj
    intro q heq
    obtain rfl := Option.some.inj heq
    rfl
  | @reasoning i call act r hi hr =>
    have htaken := (hsound.knows i _ hi).2
    refine h.frame rfl (.refl _)
      (fun slot hne => freshes_set (freshes_step (hsound.reasoned call.slot) hr) slot hne) ?_
      (fun slot hrow => h.invocations_set htaken slot hrow)
    intro j q hj
    exact Or.inr ⟨q, hj, .refl q⟩
  | reasoned i hi hr => exact h.reasoned hsound hi hr

/-- **The run lemma.** -/
theorem reachable_voices (hopened : Opened clock w₀) (h : Reaches (step cfg) w₀ w) :
    Sound cfg w ∧ Voices w :=
  h.invariant (P := fun w => Sound cfg w ∧ Voices w)
    (fun _ _ _ hinv hs => ⟨hinv.1.step hs, hinv.2.effect hinv.1 (step_effect hs)⟩)
    ⟨hopened.sound, hopened.voices⟩

end AiAgentsSwd.Deliberation
