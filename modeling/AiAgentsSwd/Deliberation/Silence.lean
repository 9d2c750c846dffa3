import AiAgentsSwd.Deliberation.Voices

/-!
# Deliberation.Silence — when nobody speaks after the room closed

Checkpoint C reads the session, `post_message` commits the message, `complete_turn` records the
turn: three transactions, and nothing but the first one asks whether the room is open. `careful`
says of a step what the code leaves to the gaps between them: a message is posted in an open
room and for a turn that still waits for it, nobody abandons the turn of a message, and the
poster lives to record it. Under it every message was said in the open room, and belongs to the
one turn that was recorded with it, or its poster is about to record it.
-/

namespace AiAgentsSwd.Deliberation

open Keyed (Table)
open Transition

variable {ι α : Type}

/-! ## What is promised -/

/-- The turn of the slot is recorded with the message. -/
def RecordedWith (room : Room) (slot : Slot) (m : Nat) : Prop :=
  ∃ t, room.turns.find? slot = some t ∧ t.status = .recorded ∧ t.messageId = some m

/-- Some worker has posted the message for a turn that is still claimed, and records it next. -/
def AboutToRecord (w : World ι α) (m : Nat) : Prop :=
  ∃ i call message count t, w.workers i = some (.recording call message count m) ∧
    w.room.turns.find? call.slot = some t ∧ t.status = .claimed

/-- Nobody spoke after the room closed, and what was said is in the ledger. -/
structure SpokenInRoom (w : World ι α) : Prop where
  inRoom : ∀ x ∈ w.room.messages, x.room = .open
  recorded : ∀ (m : Nat) x, w.room.messages[m]? = some x →
    (∃! slot, RecordedWith w.room slot m) ∨ AboutToRecord w m

/-- The call posts only in an open room and for a claimed turn, and abandons no turn that has a
message. -/
def Phase.careful (room : Room) : Phase α → Bool
  | .posting call _ _ =>
    room.session.state = .open ∧ (room.turns.find? call.slot).any fun t => t.status = .claimed
  | .failing slot _ _ =>
    (room.turns.find? slot).all (fun t => t.status ≠ .claimed) ||
      room.messages.all fun x => x.slot ≠ slot
  | _ => true

/-- The call has posted a message and not yet recorded its turn. -/
def Phase.hasPosted : Phase α → Bool
  | .recording _ _ _ _ => true
  | _ => false

/-- The step leaves no gap open. -/
def careful (w : World ι α) : Act ι α → Bool
  | .crash i => (w.workers i).all fun p => !p.hasPosted
  | .run i _ => (w.workers i).all fun p => p.careful w.room
  | _ => true

/-! ## The invariant -/

/-- Every message was said in the open room; its turn is recorded with it, or still claimed by
who is about to record it. -/
structure Heard (w : World ι α) : Prop where
  inRoom : ∀ x ∈ w.room.messages, x.room = .open
  kept : ∀ (m : Nat) x, w.room.messages[m]? = some x →
    RecordedWith w.room x.slot m ∨ AboutToRecord w m

variable [DecidableEq ι] {cfg : Config α} {w w' w₀ : World ι α} {a : Act ι α} {clock : Int}

omit [DecidableEq ι] in
theorem Opened.heard (h : Opened clock w) : Heard w := by
  cases h with
  | session principals => exact ⟨fun x hx => (by cases hx), fun m x hx => (by cases hx)⟩
  | failedSession stopReason hreason now =>
    exact ⟨fun x hx => (by cases hx), fun m x hx => (by cases hx)⟩

theorem RecordedWith.later {room room' : Room} {slot : Slot} {m : Nat}
    (h : RecordedWith room slot m) (hl : Later room room') : RecordedWith room' slot m := by
  obtain ⟨t, ht, hr, hm⟩ := h
  exact ⟨t, hl.recorded ht hr, hr, hm⟩

omit [DecidableEq ι] in
/-- A step that posts nothing, and leaves who is about to record a message where it is or has the
turn recorded. -/
theorem Heard.frame (h : Heard w) (hmessages : w'.room.messages = w.room.messages)
    (hlater : Later w.room w'.room)
    (habout : ∀ (m : Nat) x, w.room.messages[m]? = some x → AboutToRecord w m →
      RecordedWith w'.room x.slot m ∨ AboutToRecord w' m) : Heard w' := by
  constructor
  · rw [hmessages]
    exact h.inRoom
  · rw [hmessages]
    intro m x hx
    rcases h.kept m x hx with hrecorded | hposter
    · exact Or.inl (hrecorded.later hlater)
    · exact habout m x hx hposter

/-- Where the rows stay as they are, only the poster itself could give its turn up. -/
theorem Heard.goto (h : Heard w) (i : ι) (q : Option (Phase α))
    (hi : ∀ p, w.workers i = some p → p.hasPosted = false) : Heard (w.goto i q) := by
  refine h.frame rfl (.refl _) ?_
  intro m x hx hposter
  obtain ⟨j, call, message, count, t, hj, ht, hs⟩ := hposter
  have hne : j ≠ i := by
    intro heq
    have hposted := hi _ (heq ▸ hj)
    cases hposted
  refine Or.inr ⟨j, call, message, count, t, ?_, ht, hs⟩
  show (if j = i then q else w.workers j) = _
  rw [if_neg hne]
  exact hj

omit [DecidableEq ι] in
theorem Heard.setReasoning (h : Heard w) (s : Slot) (r : Reasoning.World ι α) :
    Heard (w.setReasoning s r) := ⟨h.inRoom, h.kept⟩

/-! ## Statements -/

section Statements

variable {i : ι} {now : Int} {p : Phase α} {room : Room} {q : Option (Phase α)}

/-- Another worker still records its message next, where its turn is as it was. -/
theorem about_other {j : ι} (hne : j ≠ i) {call : TurnCall} {message : TeamMessage}
    {count m : Nat} {t : DiscussionTurn}
    (hj : w.workers j = some (.recording call message count m))
    (ht : room.turns.find? call.slot = some t) (hs : t.status = .claimed) :
    AboutToRecord ({ w with room := room }.goto i q) m := by
  refine ⟨j, call, message, count, t, ?_, ht, hs⟩
  show (if j = i then q else w.workers j) = _
  rw [if_neg hne]
  exact hj

/-- The statement of a call that has not posted. -/
theorem Heard.stated_unposted (h : Heard w) (hsound : Sound cfg w) (hi : w.workers i = some p)
    (hposted : p.hasPosted = false) (hok : p.careful w.room = true)
    (hs : statement cfg now w.invocation w.room p = some (room, q)) :
    Heard ({ w with room := room }.goto i q) := by
  have hwrite := statement_write hs
  have hother : ∀ j call message count m, w.workers j = some (.recording call message count m) →
      j ≠ i := by
    intro j call message count m hj heq
    rw [heq, hi] at hj
    obtain rfl := Option.some.inj hj
    cases hposted
  have hframe : room.messages = w.room.messages →
      (∀ slot t x, w.room.turns.find? slot = some t → t.status = .claimed →
        x ∈ w.room.messages → x.slot = slot → room.turns.find? slot = some t) →
      Heard ({ w with room := room }.goto i q) := by
    intro hmessages hturns
    refine h.frame hmessages hwrite.later ?_
    intro m x hx hposter
    obtain ⟨j, call, message, count, t, hj, ht, hclaimed⟩ := hposter
    obtain ⟨-, -, -, x', hx', hslot⟩ := hsound.knows j _ hj
    rw [hx] at hx'
    obtain rfl := Option.some.inj hx'
    have hsame := hturns call.slot t x ht hclaimed (List.mem_of_getElem? hx) hslot
    exact Or.inr (about_other (hother j call message count m hj) hj hsame hclaimed)
  cases hwrite with
  | nothing => exact hframe rfl fun slot t x ht _ _ _ => ht
  | advanced hp hopen => exact hframe rfl fun slot t x ht _ _ _ => ht
  | closed hp hopen hguard => exact hframe rfl fun slot t x ht _ _ _ => ht
  | recorded hp ht hclaimed =>
    subst hp
    cases hposted
  | @claimed call hp hnew =>
    refine hframe rfl ?_
    intro slot t x ht hclaimed hx hslot
    -- the new slot had no turn
    have hne : slot ≠ call.slot := by
      intro heq
      rw [heq, hnew] at ht
      cases ht
    show (w.room.turns.insert _ _).find? slot = some t
    rw [Table.find?_insert_of_ne _ _ hne]
    exact ht
  | @abandoned slot₀ inv next t₀ hp ht₀ hclaimed₀ =>
    refine hframe rfl ?_
    intro slot t x ht hclaimed hx hslot
    -- a turn with a message is not abandoned
    have hne : slot ≠ slot₀ := by
      intro heq
      subst hp
      have hguard : ((w.room.turns.find? slot₀).all (fun t => t.status ≠ .claimed) ||
          w.room.messages.all fun x => x.slot ≠ slot₀) = true := hok
      rw [ht₀, Option.all_some, Bool.or_eq_true] at hguard
      rcases hguard with hno | hall
      · exact absurd hclaimed₀ (of_decide_eq_true hno)
      · have hslot₀ := of_decide_eq_true (List.all_eq_true.mp hall x hx)
        exact hslot₀ (hslot.trans heq)
    show (w.room.turns.modify _ _).find? slot = some t
    rw [Table.find?_modify_of_ne _ _ hne]
    exact ht
  | @posted call message count hp =>
    subst hp
    obtain ⟨-, hq⟩ := Prod.mk.inj (Option.some.inj hs)
    obtain ⟨hopen, hturn⟩ := of_decide_eq_true hok
    obtain ⟨t, ht, hclaimed⟩ := (Option.any_eq_true _ _).mp hturn
    have hclaimed : t.status = .claimed := of_decide_eq_true hclaimed
    constructor
    · intro x hx
      rcases List.mem_append.mp hx with hx | hx
      · exact h.inRoom x hx
      · rw [List.mem_singleton.mp hx]
        exact hopen
    · intro m x hx
      by_cases hlt : m < w.room.messages.length
      · have hold : w.room.messages[m]? = some x := by
          rw [← hx]
          exact (List.getElem?_append_left hlt).symm
        rcases h.kept m x hold with hrecorded | hposter
        · exact Or.inl (hrecorded.later (later_posted call.slot message))
        · obtain ⟨j, call', message', count', t', hj, ht', hclaimed'⟩ := hposter
          exact Or.inr (about_other (hother j call' message' count' m hj) hj ht' hclaimed')
      · -- the message just posted
        have hm : m = w.room.messages.length := by
          have hx' : (w.room.messages ++ [⟨message, call.slot, w.room.session.state⟩])[m]? =
              some x := hx
          have hbound := (List.getElem?_eq_some_iff.mp hx').1
          rw [List.length_append, List.length_singleton] at hbound
          omega
        refine Or.inr ⟨i, call, message, count, t, ?_, ht, hclaimed⟩
        show (if i = i then q else w.workers i) = _
        rw [if_pos rfl, ← hq, hm]

/-- The statement of a call that has posted: it records its turn. -/
theorem Heard.stated_posted (h : Heard w) (hsound : Sound cfg w) (hvoices : Voices w)
    {call : TurnCall} {message : TeamMessage} {count m₀ : Nat}
    (hi : w.workers i = some (.recording call message count m₀))
    (hs : statement cfg now w.invocation w.room (.recording call message count m₀) =
      some (room, q)) :
    Heard ({ w with room := room }.goto i q) := by
  have hlater := (statement_write hs).later
  obtain ⟨-, -, -, x₀, hx₀, hslot₀⟩ := hsound.knows i _ hi
  have hmessages : room.messages = w.room.messages := by
    rw [statement] at hs
    split at hs
    · next room' hcomplete =>
      obtain ⟨rfl, -⟩ := Prod.mk.inj (Option.some.inj hs)
      obtain ⟨t, -, -, rfl⟩ := completeTurn_eq_some hcomplete
      rfl
    · obtain ⟨rfl, -⟩ := Prod.mk.inj (Option.some.inj hs)
      rfl
  refine h.frame hmessages hlater ?_
  intro m x hx hposter
  obtain ⟨j, call', message', count', t, hj, ht, hclaimed⟩ := hposter
  rw [statement] at hs
  by_cases hji : j = i
  · -- its own message: the turn is claimed, so it is recorded now
    rw [hji, hi] at hj
    obtain ⟨rfl, rfl, rfl, rfl⟩ := Phase.recording.inj (Option.some.inj hj)
    rw [hx] at hx₀
    obtain rfl := Option.some.inj hx₀
    have hcomplete : w.room.completeTurn call.slot message.intent count m₀
        message.reasoningInvocationId = some (w.room.recorded call.slot fun t =>
          t.completed message.intent count m₀ message.reasoningInvocationId) := by
      unfold Room.completeTurn
      rw [ht]
      exact if_pos hclaimed
    rw [hcomplete] at hs
    obtain ⟨rfl, -⟩ := Prod.mk.inj (Option.some.inj hs)
    refine Or.inl ⟨t.completed message.intent count m₀ message.reasoningInvocationId, ?_, rfl, rfl⟩
    show (w.room.turns.modify _ _).find? x.slot = _
    rw [hslot₀, Table.find?_modify_row ht, if_pos rfl]
  · -- another slot has another voice
    have hne : call'.slot ≠ call.slot := by
      intro heq
      exact hji (hvoices.alone j i _ _ call.slot hj hi (congrArg some heq) rfl)
    refine Or.inr (about_other hji hj ?_ hclaimed)
    split at hs
    · next room' hcomplete =>
      obtain ⟨rfl, -⟩ := Prod.mk.inj (Option.some.inj hs)
      obtain ⟨t₀, -, -, rfl⟩ := completeTurn_eq_some hcomplete
      show (w.room.turns.modify _ _).find? call'.slot = some t
      rw [Table.find?_modify_of_ne _ _ hne]
      exact ht
    · obtain ⟨rfl, -⟩ := Prod.mk.inj (Option.some.inj hs)
      exact ht

end Statements

/-! ## Steps and runs -/

/-- **One careful step.** -/
theorem Heard.effect (h : Heard w) (hsound : Sound cfg w) (hvoices : Voices w)
    (hok : careful w a = true) (he : Effect cfg w a w') : Heard w' := by
  cases he with
  | ticked t hle => exact ⟨h.inRoom, h.kept⟩
  | advanced i hi =>
    refine h.goto i _ ?_
    intro p hp
    rw [hi] at hp
    cases hp
  | cancelled i hi =>
    refine h.goto i _ ?_
    intro p hp
    rw [hi] at hp
    cases hp
  | died i =>
    refine h.goto i _ ?_
    intro p hp
    have hguard : ((w.workers i).all fun p => !p.hasPosted) = true := hok
    rw [hp, Option.all_some] at hguard
    simpa using hguard
  | diedInvoking i hi =>
    refine (h.setReasoning _ _).goto i _ ?_
    intro p hp
    obtain rfl := Option.some.inj (hi.symm.trans hp)
    rfl
  | @stated i now p room q hi hs =>
    have hcareful : p.careful w.room = true := by
      have hguard : ((w.workers i).all fun p => p.careful w.room) = true := hok
      rw [hi, Option.all_some] at hguard
      exact hguard
    cases p with
    | recording call message count m => exact h.stated_posted hsound hvoices hi hs
    | _ => exact h.stated_unposted hsound hi rfl hcareful hs
  | answered i hi hq =>
    refine h.goto i _ ?_
    intro p hp
    obtain rfl := Option.some.inj (hi.symm.trans hp)
    rfl
  | invoked i hi hr =>
    refine (h.setReasoning _ _).goto i _ ?_
    intro p hp
    obtain rfl := Option.some.inj (hi.symm.trans hp)
    rfl
  | reasoning i hi hr => exact h.setReasoning _ _
  | reasoned i hi hr =>
    refine (h.setReasoning _ _).goto i _ ?_
    intro p hp
    obtain rfl := Option.some.inj (hi.symm.trans hp)
    rfl

theorem careful_heard (hopened : Opened clock w₀)
    (h : Reaches (guard (fun w a => careful w a = true) (step cfg)) w₀ w) : Heard w := by
  induction h with
  | refl => exact hopened.heard
  | tail h a ha ih =>
    obtain ⟨hok, hstep⟩ := guard_eq_some.mp ha
    obtain ⟨hsound, hvoices⟩ := reachable_voices hopened h.of_guard
    exact ih.effect hsound hvoices hok (step_effect hstep)

/-- A message is recorded with one turn at most. -/
theorem Ledger.recordedWith_unique {room : Room} (h : Ledger cfg room) {slot slot' : Slot} {m : Nat}
    (hr : RecordedWith room slot m) (hr' : RecordedWith room slot' m) : slot = slot' := by
  have hposted : ∀ s, RecordedWith room s m → PostedFor room m s := by
    intro s hs
    obtain ⟨t, ht, hrecorded, hm⟩ := hs
    obtain ⟨-, m', hm', hposted⟩ := h.messages s t ht hrecorded
    rw [hm] at hm'
    obtain rfl := Option.some.inj hm'
    exact hposted
  obtain ⟨x, hx, rfl⟩ := hposted slot hr
  obtain ⟨x', hx', rfl⟩ := hposted slot' hr'
  rw [hx] at hx'
  rw [Option.some.inj hx']

/-- **Nobody speaks after the room closed.** In every run of careful steps each message was
posted while the discussion was open, and it belongs to exactly one recorded turn, or its poster
is about to record it. -/
theorem spoken_in_room (hopened : Opened clock w₀)
    (h : Reaches (guard (fun w a => careful w a = true) (step cfg)) w₀ w) : SpokenInRoom w := by
  have hheard := careful_heard hopened h
  have hledger := (reachable_sound hopened h.of_guard).ledger
  refine ⟨hheard.inRoom, ?_⟩
  intro m x hx
  rcases hheard.kept m x hx with hrecorded | hposter
  · exact Or.inl ⟨x.slot, hrecorded, fun slot hslot => hledger.recordedWith_unique hslot hrecorded⟩
  · exact Or.inr hposter

/-! ## Two runs -/

/-- Two workers take a turn each. -/
theorem spoken_in_room_two_turns :
    ∃ w, runActs (guard (fun w a => careful w a = true) (step twoRounds)) openedByTwo
        (turn 1 .proposal ++ turn 2 (.critique ["c"] []) ++ [.cancel 3, .run 3 0]) = some w ∧
      w.room.messages.length = 2 ∧ w.room.session.state = .cancelled ∧ SpokenInRoom w := by
  have hrun : ((runActs (guard (fun w a => careful w a = true) (step twoRounds)) openedByTwo
      (turn 1 .proposal ++ turn 2 (.critique ["c"] []) ++ [.cancel 3, .run 3 0])).any fun w =>
        w.room.messages.length = 2 ∧ w.room.session.state = .cancelled) = true := by
    decide +kernel
  obtain ⟨w, hw, hstate⟩ := (Option.any_eq_true _ _).mp hrun
  obtain ⟨hlength, hcancelled⟩ := of_decide_eq_true hstate
  exact ⟨w, hw, hlength, hcancelled, spoken_in_room openedByTwo_opened (reaches_of_runActs hw)⟩

/-- The discussion is cancelled between checkpoint C and the message, and the worker dies once it
is posted. -/
def spokenTooLate : List (Act Nat Reply) :=
  claims 1 ++ reasons 1 .proposal ++ runs 1 1 ++ [.cancel 2, .run 2 0] ++ runs 1 1 ++ [.crash 1]

/-- The message was posted in a room that was closed, and nobody will ever record it. -/
theorem not_spoken_in_room : ¬ ∀ w, Reaches (step twoRounds) openedByTwo w → SpokenInRoom w := by
  intro hall
  have hrun : ((runActs (step twoRounds) openedByTwo spokenTooLate).any fun w =>
      w.room.messages.any fun x => x.room = .cancelled) = true := by decide +kernel
  obtain ⟨w, hw, hmessage⟩ := (Option.any_eq_true _ _).mp hrun
  obtain ⟨x, hx, hroom⟩ := List.any_eq_true.mp hmessage
  have hroom : x.room = .cancelled := of_decide_eq_true hroom
  have hopen := (hall w (reaches_of_runActs hw)).inRoom x hx
  rw [hroom] at hopen
  cases hopen

end AiAgentsSwd.Deliberation
