import AiAgentsSwd.Deliberation.Ledger

/-!
# Deliberation.Runs — what a step does, and what every run keeps

1. `Effect`: everything a step can do, and `step_effect`, that it does nothing else;
2. `Sound`: the rows are in order, every call knows what it should, and so does the reasoning
   call of every slot;
3. `reachable_sound`, and `run_later`, that a run undoes nothing.
-/

namespace AiAgentsSwd.Deliberation

open Planning (Uuid)
open Transition

variable {ι α : Type} [DecidableEq ι]

section Effects

variable (cfg : Config α)

/-- The steps of the slots' reasoning calls. -/
abbrev reasoningStep : Reasoning.World ι α → Reasoning.Act ι α → Option (Reasoning.World ι α) :=
  Reasoning.step cfg.artifacts.toArtifactModels cfg.store

/-- Everything a step can do. -/
inductive Effect (w : World ι α) : Act ι α → World ι α → Prop where
  /-- The clock moves. -/
  | ticked (t : Int) (h : w.clock ≤ t) :
      Effect w (.tick t)
        { w with clock := t, reasoning := fun s => { w.reasoning s with clock := t } }
  /-- A call of `advance` starts. -/
  | advanced (i : ι) (hi : w.workers i = none) :
      Effect w (.advance i) (w.goto i (some .reading))
  /-- A call of `cancel` starts. -/
  | cancelled (i : ι) (hi : w.workers i = none) :
      Effect w (.cancel i) (w.goto i (some (.closing .cancelled none)))
  /-- A worker dies. -/
  | died (i : ι) : Effect w (.crash i) (w.goto i none)
  /-- A worker dies while it awaits `invoke`. -/
  | diedInvoking (i : ι) {call : TurnCall} (hi : w.workers i = some (.invoking call)) :
      Effect w (.crash i)
        ((w.setReasoning call.slot ((w.reasoning call.slot).setCaller i none)).goto i none)
  /-- A call makes its statement. -/
  | stated (i : ι) {now : Int} {p : Phase α} {room : Room} {q : Option (Phase α)}
      (hi : w.workers i = some p)
      (hs : statement cfg now w.invocation w.room p = some (room, q)) :
      Effect w (.run i now) ({ w with room := room }.goto i q)
  /-- The roster answers. -/
  | answered (i : ι) {available : Bool} {call : TurnCall} {q : Phase α}
      (hi : w.workers i = some (.checkingAvailable call))
      (hq : q = .claiming call ∨ q = .closing .participantUnavailable none) :
      Effect w (.roster i available) (w.goto i (some q))
  /-- A call starts `invoke`. -/
  | invoked (i : ι) {call : TurnCall} {r : Reasoning.World ι α}
      (hi : w.workers i = some (.starting call))
      (hr : reasoningStep cfg (w.reasoning call.slot)
        (.start i ⟨call.reasoningVerb, cfg.providerName⟩) = some r) :
      Effect w (.invoke i) ((w.setReasoning call.slot r).goto i (some (.invoking call)))
  /-- `invoke` goes on. -/
  | reasoning (i : ι) {call : TurnCall} {act : Reasoning.Act ι α} {r : Reasoning.World ι α}
      (hi : w.workers i = some (.invoking call))
      (hr : reasoningStep cfg (w.reasoning call.slot) act = some r) :
      Effect w (.reason i act) (w.setReasoning call.slot r)
  /-- `invoke` is over. -/
  | reasoned (i : ι) {call : TurnCall} {act : Reasoning.Act ι α} {r : Reasoning.World ι α}
      (hi : w.workers i = some (.invoking call))
      (hr : reasoningStep cfg (w.reasoning call.slot) act = some r) :
      Effect w (.reason i act) ((w.setReasoning call.slot r).goto i
        ((returned (w.reasoning call.slot) r).bind (afterInvoke call)))

variable {cfg} {w w' : World ι α} {a : Act ι α}

/-- **Every step does one of the effects.** -/
theorem step_effect (h : step cfg w a = some w') : Effect cfg w a w' := by
  cases a with
  | tick t =>
    rw [step] at h
    split at h
    · next hle =>
      obtain rfl := Option.some.inj h
      exact .ticked t hle
    · cases h
  | advance i =>
    rw [step] at h
    split at h
    · next hi =>
      obtain rfl := Option.some.inj h
      exact .advanced i hi
    · cases h
  | cancel i =>
    rw [step] at h
    split at h
    · next hi =>
      obtain rfl := Option.some.inj h
      exact .cancelled i hi
    · cases h
  | crash i =>
    rw [step] at h
    split at h
    · next call hi =>
      obtain rfl := Option.some.inj h
      exact .diedInvoking i hi
    · obtain rfl := Option.some.inj h
      exact .died i
  | run i now =>
    rw [step] at h
    split at h
    · next p hi =>
      split at h
      · obtain ⟨⟨room, q⟩, hs, rfl⟩ := Option.map_eq_some_iff.mp h
        exact .stated i hi hs
      · cases h
    · cases h
  | roster i available =>
    rw [step] at h
    split at h
    · next call hi =>
      obtain rfl := Option.some.inj h
      cases available with
      | true => exact .answered i hi (Or.inl rfl)
      | false => exact .answered i hi (Or.inr rfl)
    · cases h
  | invoke i =>
    rw [step] at h
    split at h
    · next call hi =>
      obtain ⟨r, hr, rfl⟩ := Option.map_eq_some_iff.mp h
      exact .invoked i hi hr
    · cases h
  | reason i act =>
    rw [step] at h
    split at h
    · next call hi =>
      split at h
      · obtain ⟨r, hr, rfl⟩ := Option.map_eq_some_iff.mp h
        unfold World.afterReason
        simp only
        split
        · exact .reasoning i hi hr
        · have hsame : (w.setReasoning call.slot r).reasoning call.slot = r := if_pos rfl
          rw [hsame]
          exact .reasoned i hi hr
      · cases h
    · cases h

end Effects

/-- The phase whose statement the action makes. -/
def statementOf (w : World ι α) : Act ι α → Option (Phase α)
  | .run i _ => w.workers i
  | _ => none

/-- The rows change by the statement of the acting call alone. -/
theorem step_write {cfg : Config α} {w w' : World ι α} {a : Act ι α}
    (h : step cfg w a = some w') :
    (statementOf w a = none ∧ w'.room = w.room) ∨
      ∃ now p, statementOf w a = some p ∧ Write cfg now w.room p w'.room := by
  cases step_effect h with
  | @stated i now p room q hi hs => exact Or.inr ⟨now, p, hi, statement_write hs⟩
  | ticked t hle => exact Or.inl ⟨rfl, rfl⟩
  | advanced i hi => exact Or.inl ⟨rfl, rfl⟩
  | cancelled i hi => exact Or.inl ⟨rfl, rfl⟩
  | died i => exact Or.inl ⟨rfl, rfl⟩
  | diedInvoking i hi => exact Or.inl ⟨rfl, rfl⟩
  | answered i hi hq => exact Or.inl ⟨rfl, rfl⟩
  | invoked i hi hr => exact Or.inl ⟨rfl, rfl⟩
  | reasoning i hi hr => exact Or.inl ⟨rfl, rfl⟩
  | reasoned i hi hr => exact Or.inl ⟨rfl, rfl⟩

/-! ## Workers and slots after a step -/

variable {cfg : Config α} {w w' : World ι α} {a : Act ι α} {i j : ι}

theorem workers_goto {q : Option (Phase α)} {p : Phase α} (h : (w.goto i q).workers j = some p) :
    (j = i ∧ q = some p) ∨ (j ≠ i ∧ w.workers j = some p) := by
  have h : (if j = i then q else w.workers j) = some p := h
  by_cases hj : j = i
  · rw [if_pos hj] at h
    exact Or.inl ⟨hj, h⟩
  · rw [if_neg hj] at h
    exact Or.inr ⟨hj, h⟩

omit [DecidableEq ι] in
theorem reasoning_setReasoning (w : World ι α) (s slot : Slot) (r : Reasoning.World ι α) :
    (w.setReasoning s r).reasoning slot = if slot = s then r else w.reasoning slot := rfl

/-! ## What every run keeps -/

/-- What the reasoning of a slot keeps, by itself. -/
structure Reasoned (cfg : Config α) (r : Reasoning.World ι α) : Prop where
  inv : Reasoning.Inv cfg.store r
  custody : Reasoning.Custody cfg.artifacts.toArtifactModels r

theorem Reasoned.effect {r r' : Reasoning.World ι α} {act : Reasoning.Act ι α}
    (h : Reasoned cfg r)
    (he : Reasoning.Effect cfg.artifacts.toArtifactModels cfg.store r act r') :
    Reasoned cfg r' :=
  ⟨h.inv.effect he, h.custody.effect h.inv he⟩

theorem Reasoned.step {r r' : Reasoning.World ι α} {act : Reasoning.Act ι α}
    (h : Reasoned cfg r) (hs : reasoningStep cfg r act = some r') : Reasoned cfg r' :=
  h.effect (Reasoning.step_effect h.inv.copies hs)

variable (cfg) in
/-- What holds along every run. -/
structure Sound (w : World ι α) : Prop where
  ledger : Ledger cfg w.room
  knows : ∀ i p, w.workers i = some p → p.Knows cfg w.room
  reasoned : ∀ slot, Reasoned cfg (w.reasoning slot)

omit [DecidableEq ι] in
theorem Sound.setReasoned (h : Sound cfg w) {s : Slot} {r : Reasoning.World ι α}
    (hr : Reasoned cfg r) (slot : Slot) : Reasoned cfg ((w.setReasoning s r).reasoning slot) := by
  rw [reasoning_setReasoning]
  split
  · exact hr
  · exact h.reasoned slot

/-- A worker goes on from the rows as they are. -/
theorem Sound.goto (h : Sound cfg w) (i : ι) {q : Option (Phase α)}
    (hq : ∀ p, q = some p → p.Knows cfg w.room) : Sound cfg (w.goto i q) := by
  refine ⟨h.ledger, ?_, h.reasoned⟩
  intro j p hj
  rcases workers_goto hj with ⟨-, heq⟩ | ⟨-, hj⟩
  · exact hq p heq
  · exact h.knows j p hj

omit [DecidableEq ι] in
theorem Sound.setReasoning (h : Sound cfg w) {s : Slot} {r : Reasoning.World ι α}
    (hr : Reasoned cfg r) : Sound cfg (w.setReasoning s r) :=
  ⟨h.ledger, h.knows, h.setReasoned hr⟩

/-- After `invoke` a call knows what it knew before. -/
theorem afterInvoke_knows {room : Room} {call : TurnCall}
    (hk : (Phase.invoking call : Phase α).Knows cfg room)
    {result : Option (Reasoning.ReasoningResult α)} {p : Phase α}
    (h : result.bind (afterInvoke call) = some p) : p.Knows cfg room := by
  obtain ⟨x, -, h⟩ := Option.bind_eq_some_iff.mp h
  unfold afterInvoke at h
  split at h
  · cases h
  · split at h
    · obtain rfl := Option.some.inj h
      show some StopReason.reasoningProviderFailure ≠ some .convergenceReached
      decide
    · obtain rfl := Option.some.inj h
      exact hk

/-- **One step.** -/
theorem Sound.effect (h : Sound cfg w) (he : Effect cfg w a w') : Sound cfg w' := by
  cases he with
  | ticked t hle =>
    refine ⟨h.ledger, h.knows, ?_⟩
    intro slot
    have he : Reasoning.Effect cfg.artifacts.toArtifactModels cfg.store (w.reasoning slot)
        (.tick t) { w.reasoning slot with clock := t } := .ticked t
    exact (h.reasoned slot).effect he
  | advanced i hi =>
    refine h.goto i ?_
    intro p heq
    obtain rfl := Option.some.inj heq
    trivial
  | cancelled i hi =>
    refine h.goto i ?_
    intro p heq
    obtain rfl := Option.some.inj heq
    exact knows_closing (by decide)
  | died i =>
    refine h.goto i ?_
    intro p heq
    cases heq
  | @diedInvoking i call hi =>
    refine (h.setReasoning ?_).goto i ?_
    · have hs : reasoningStep cfg (w.reasoning call.slot) (.crash i) =
          some ((w.reasoning call.slot).setCaller i none) := rfl
      exact (h.reasoned call.slot).step hs
    · intro p heq
      cases heq
  | @stated i now p room q hi hs =>
    have hwrite := statement_write hs
    have hk := h.knows i p hi
    refine ⟨hwrite.ledger h.ledger hk, ?_, h.reasoned⟩
    intro j p' hj
    rcases workers_goto (w := { w with room := room }) hj with ⟨-, heq⟩ | ⟨-, hj⟩
    · exact statement_knows h.ledger hk hs heq
    · exact (h.knows j p' hj).later hwrite.later
  | @answered i available call q hi hq =>
    refine h.goto i ?_
    intro p heq
    obtain rfl := Option.some.inj heq
    have hk := h.knows i _ hi
    rcases hq with rfl | rfl
    · exact hk
    · exact knows_closing (by decide)
  | @invoked i call r hi hr =>
    refine (h.setReasoning ((h.reasoned _).step hr)).goto i ?_
    intro p heq
    obtain rfl := Option.some.inj heq
    have hk := h.knows i _ hi
    exact hk
  | @reasoning i call act r hi hr => exact h.setReasoning ((h.reasoned _).step hr)
  | @reasoned i call act r hi hr =>
    refine (h.setReasoning ((h.reasoned _).step hr)).goto i ?_
    intro p heq
    exact afterInvoke_knows (h.knows i _ hi) heq

theorem Sound.step (h : Sound cfg w) (hs : step cfg w a = some w') :
    Sound cfg w' := h.effect (step_effect hs)

theorem Effect.later (h : Effect cfg w a w') : Later w.room w'.room := by
  cases h with
  | stated i hi hs => exact (statement_write hs).later
  | ticked t hle => exact .refl _
  | advanced i hi => exact .refl _
  | cancelled i hi => exact .refl _
  | died i => exact .refl _
  | diedInvoking i hi => exact .refl _
  | answered i hi hq => exact .refl _
  | invoked i hi hr => exact .refl _
  | reasoning i hi hr => exact .refl _
  | reasoned i hi hr => exact .refl _

/-- **A run undoes nothing.** -/
theorem run_later (h : Reaches (Deliberation.step cfg) w w') : Later w.room w'.room :=
  h.relates (P := fun _ => True) (R := fun v v' => Later v.room v'.room)
    (fun _ _ _ _ _ => trivial) (fun v => .refl v.room) (fun _ _ _ => Later.trans)
    (fun _ _ _ _ hs => (step_effect hs).later) trivial

/-! ## The opening -/

omit [DecidableEq ι] in
/-- A discussion starts with nothing said. -/
theorem Opened.sound {clock : Int} (h : Opened clock w) : Sound cfg w := by
  have hreasoned : Reasoned cfg (Reasoning.World.initial ι α clock) :=
    ⟨Reasoning.inv_initial cfg.store clock, Reasoning.custody_initial _ clock⟩
  cases h with
  | session principals =>
    refine ⟨?_, fun i p hi => (by cases hi), fun _ => hreasoned⟩
    refine ⟨Nat.le_refl 1, cfg.bounds.one_le_maxRounds, ?_, ?_, ?_, ?_, ⟨rfl, rfl⟩, ?_,
      fun _ => rfl⟩
    · intro r hpos hlt
      exact absurd hlt (Nat.not_lt.mpr hpos)
    · intro slot t ht
      cases ht
    · intro slot t ht
      cases ht
    · intro seat p hp
      have hp : (principals.map fun p => (⟨p, 0⟩ : DiscussionParticipant))[seat]? = some p := hp
      rw [List.getElem?_map] at hp
      obtain ⟨principal, -, rfl⟩ := Option.map_eq_some_iff.mp hp
      rfl
    · intro hstate
      cases hstate
  | failedSession stopReason hreason now =>
    have hne : stateForStopReason stopReason ≠ .converged := by
      rw [Ne, stateForStopReason_eq_converged]
      intro heq
      rw [heq] at hreason
      simp at hreason
    refine ⟨?_, fun i p hi => (by cases hi), fun _ => hreasoned⟩
    refine ⟨Nat.le_refl 1, cfg.bounds.one_le_maxRounds, ?_, ?_, ?_, ?_, ⟨rfl, rfl⟩, ?_,
      fun _ => rfl⟩
    · intro r hpos hlt
      exact absurd hlt (Nat.not_lt.mpr hpos)
    · intro slot t ht
      cases ht
    · intro slot t ht
      cases ht
    · intro seat p hp
      cases hp
    · intro hstate
      exact absurd hstate hne

/-- **The run lemma.** -/
theorem reachable_sound {clock : Int} {w₀ : World ι α} (hopened : Opened clock w₀)
    (h : Reaches (Deliberation.step cfg) w₀ w) : Sound cfg w :=
  h.invariant (fun _ _ _ hsound hs => hsound.step hs) hopened.sound

/-! ## Whole turns -/

/-- Artifacts of the three verbs, with short texts. -/
inductive Reply where
  | proposal
  | critique (concerns questions : List String)
  | decisionSummary
deriving DecidableEq

/-- The texts of a JSON array. -/
def texts : List Json.Value → List String :=
  List.filterMap fun
    | .str s => some s
    | _ => none

theorem texts_map_str (l : List String) : texts (l.map Json.Value.str) = l := by
  induction l with
  | nil => rfl
  | cons s l ih =>
    rw [List.map_cons]
    exact congrArg (s :: ·) ih

/-- What the artifact classes dump and validate. -/
def replies : DiscussionArtifacts Reply where
  verb
    | .proposal => .propose
    | .critique _ _ => .critique
    | .decisionSummary => .summarizeDecision
  asSafeDict
    | .proposal => .ok [("summary", .str "s"), ("rationale_summary", .str "r"),
        ("confidence", .null), ("assumptions", .arr []), ("constraints", .arr []),
        ("risks", .arr []), ("questions", .arr []), ("recommendation", .str "c")]
    | .critique concerns questions => .ok [("summary", .str "s"), ("rationale_summary", .str "r"),
        ("confidence", .null), ("concerns", .arr (concerns.map .str)),
        ("questions", .arr (questions.map .str)), ("recommendation", .str "c")]
    | .decisionSummary => .ok [("summary", .str "s"), ("rationale_summary", .str "r"),
        ("confidence", .null), ("options_considered", .arr [.str "o"]),
        ("selected_option", .str "o"), ("dissent_summary", .null)]
  modelValidate
    | .propose, [("summary", _), _, _, _, _, _, _, _] => some .proposal
    | .critique, [("summary", _), _, _, ("concerns", .arr cs), ("questions", .arr qs), _] =>
      some (.critique (texts cs) (texts qs))
    | .summarizeDecision, [("summary", _), _, _, _, _, _] => some .decisionSummary
    | _, _ => none
  dict_ne_nil {a d} h := by
    cases a <;> (obtain rfl := Except.ok.inj h; simp)
  validate_dict {a d} h := by
    cases a with
    | proposal =>
      obtain rfl := Except.ok.inj h
      rfl
    | critique concerns questions =>
      obtain rfl := Except.ok.inj h
      show some (Reply.critique (texts (concerns.map .str)) (texts (questions.map .str))) = _
      rw [texts_map_str, texts_map_str]
    | decisionSummary =>
      obtain rfl := Except.ok.inj h
      rfl
  summary _ := "s"
  concerns
    | .critique concerns _ => concerns
    | _ => []
  questions
    | .critique _ questions => questions
    | _ => []

/-- Up to `n` statements of the worker, all begun at once. -/
def runs (i : Nat) (n : Nat) : List (Act Nat Reply) := List.replicate n (.run i 0)

/-- A call of `advance` claims the next slot. -/
def claims (i : Nat) : List (Act Nat Reply) :=
  [.advance i] ++ runs i 3 ++ [.roster i true] ++ runs i 1

/-- It calls `invoke`, which claims the slot's invocation; the provider answers. -/
def reasons (i : Nat) (reply : Reply) : List (Act Nat Reply) :=
  [.invoke i, .reason i (.run i 0 ⟨1⟩ ⟨2⟩), .reason i (.preflight i .passed),
    .reason i (.run i 0 ⟨3⟩ ⟨4⟩), .reason i (.call i true),
    .reason i (.answer i (.artifact reply)), .reason i (.run i 0 ⟨5⟩ ⟨6⟩)]

/-- A whole turn: the slot is claimed, the message posted and the turn recorded. -/
def turn (i : Nat) (reply : Reply) : List (Act Nat Reply) := claims i ++ reasons i reply ++ runs i 3

/-- A boundary: the round is settled, and the summary's slot is claimed. -/
def claimsSummary (i : Nat) : List (Act Nat Reply) := [.advance i] ++ runs i 5

theorem one_le_two : 1 ≤ 2 := by decide

theorem one_le_three : 1 ≤ 3 := by decide

theorem one_le_twentyFour : 1 ≤ 24 := by decide

/-- Two rounds of at most two participants, within a minute. -/
def twoRounds : Config Reply :=
  { bounds := ⟨2, 24, 24, 3, 60, by decide, by decide, by decide, one_le_three⟩
    store := Reasoning.defaultStore
    artifacts := replies
    providerName := "mock" }

/-- A discussion of two participants that has just been opened. -/
def openedByTwo : World Nat Reply :=
  ⟨0, createSession [⟨101⟩, ⟨102⟩], fun _ => .initial Nat Reply 0, fun _ => none⟩

theorem openedByTwo_opened : Opened 0 openedByTwo := .session [⟨101⟩, ⟨102⟩]

end AiAgentsSwd.Deliberation
