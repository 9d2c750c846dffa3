import Mathlib.Tactic.Common

/-!
# Faults.Program — programs whose steps can be struck

A program is a sequence of labelled steps on a state. A schedule says for every label whether the
step goes through or is struck, and how: nothing of it was done, it was begun and undone, or it
was done and only its answer was lost. The first failure ends the program, unless the failing part
is run `safely`. A run keeps the trace of what was attempted.

- `Triple P m Q E`: from a state with `P`, the program returns with `Q` or fails with `E`.
- `Within A m`: the program attempts labels of `A` only, and what it raises is the only failure
  it leaves in the trace.
-/

namespace Faults

/-- How a step fails. -/
inductive Manner
  | unsent
  | undone
  | landed
  deriving DecidableEq

/-- A failure: where, how, and what is raised. -/
structure Failure (π ε : Type) where
  point : π
  manner : Manner
  error : ε
  deriving DecidableEq

/-- What a trace records of a step. -/
inductive Event (π ε : Type)
  | done (p : π)
  | failed (f : Failure π ε)
  deriving DecidableEq

/-- The step that was attempted. -/
def Event.point {π ε : Type} : Event π ε → π
  | .done p => p
  | .failed f => f.point

def Event.failure? {π ε : Type} : Event π ε → Option (Failure π ε)
  | .done _ => none
  | .failed f => some f

/-- A state, and the trace that led to it. -/
structure Run (σ π ε : Type) where
  now : σ
  trace : List (Event π ε)

/-- Programs over states `σ` with steps labelled by `π` that return an `α` or raise an `ε`. -/
def Prog (σ π ε α : Type) := Run σ π ε → Except (Failure π ε) α × Run σ π ε

/-- Which steps are struck, and how. -/
abbrev Strikes (π ε : Type) := π → Option (Manner × ε)

variable {σ π ε α β : Type}

namespace Prog

/-- One part after the other. -/
def andThen (m : Prog σ π ε α) (k : α → Prog σ π ε β) : Prog σ π ε β := fun r =>
  match m r with
  | (.ok a, r') => k a r'
  | (.error f, r') => (.error f, r')

instance : Monad (Prog σ π ε) where
  pure a := fun r => (.ok a, r)
  bind := andThen

theorem bind_ok {m : Prog σ π ε α} {k : α → Prog σ π ε β} {r r' : Run σ π ε} {a : α}
    (h : m r = (.ok a, r')) : (m >>= k) r = k a r' := by
  show andThen m k r = k a r'
  unfold andThen
  rw [h]

theorem bind_error {m : Prog σ π ε α} {k : α → Prog σ π ε β} {r r' : Run σ π ε}
    {f : Failure π ε} (h : m r = (.error f, r')) : (m >>= k) r = (.error f, r') := by
  show andThen m k r = (.error f, r')
  unfold andThen
  rw [h]

/-- One step: its effect and its answer when it goes through. -/
def step (strikes : Strikes π ε) (p : π) (effect : σ → α × σ) (spoil : σ → σ) :
    Prog σ π ε α := fun r =>
  match strikes p with
  | none => (.ok (effect r.now).1, ⟨(effect r.now).2, r.trace ++ [.done p]⟩)
  | some (how, e) =>
    let now := match how with
      | .unsent => r.now
      | .undone => spoil r.now
      | .landed => (effect r.now).2
    (.error ⟨p, how, e⟩, ⟨now, r.trace ++ [.failed ⟨p, how, e⟩]⟩)

/-- The program itself raises. -/
def raise (p : π) (e : ε) : Prog σ π ε α := fun r =>
  (.error ⟨p, .unsent, e⟩, ⟨r.now, r.trace ++ [.failed ⟨p, .unsent, e⟩]⟩)

/-- The state, read without a step. -/
def get : Prog σ π ε σ := fun r => (.ok r.now, r)

/-- The program's own variables, changed without a step. -/
def note (f : σ → σ) : Prog σ π ε Unit := fun r => (.ok (), ⟨f r.now, r.trace⟩)

/-- Run a part, catch what it raises and report it. -/
def safely (m : Prog σ π ε Unit) : Prog σ π ε (List (Failure π ε)) := fun r =>
  match m r with
  | (.ok _, r') => (.ok [], r')
  | (.error f, r') => (.ok [f], r')

/-- Run a part; if it raises, note something and let the failure pass. -/
def onFailure (m : Prog σ π ε α) (f : σ → σ) : Prog σ π ε α := fun r =>
  match m r with
  | (.ok a, r') => (.ok a, r')
  | (.error g, r') => (.error g, ⟨f r'.now, r'.trace⟩)

/-- Two reporting parts, one after the other. -/
def both (m m' : Prog σ π ε (List (Failure π ε))) : Prog σ π ε (List (Failure π ε)) := do
  let es ← m
  let es' ← m'
  pure (es ++ es')

/-- The second part is run only when the first one has nothing to report. -/
def next (m m' : Prog σ π ε (List (Failure π ε))) : Prog σ π ε (List (Failure π ε)) := do
  let es ← m
  if es.isEmpty then m' else pure es

def forEach (f : β → Prog σ π ε Unit) : List β → Prog σ π ε Unit
  | [] => pure ()
  | b :: bs => do
    f b
    forEach f bs

/-- The answers of one part for every element. -/
def collect (f : β → Prog σ π ε α) : List β → Prog σ π ε (List α)
  | [] => pure []
  | b :: bs => do
    let a ← f b
    let as ← collect f bs
    pure (a :: as)

end Prog

open Prog

/-! ## Triples -/

/-- From a state with `P` the program returns with `Q`, or fails with `E`. -/
def Triple (P : σ → Prop) (m : Prog σ π ε α) (Q : α → σ → Prop) (E : Failure π ε → σ → Prop) :
    Prop :=
  ∀ r, P r.now → match (m r).1 with
    | .ok a => Q a (m r).2.now
    | .error f => E f (m r).2.now

namespace Triple

variable {P P' : σ → Prop} {Q Q' : α → σ → Prop} {R : β → σ → Prop}
  {E E' : Failure π ε → σ → Prop} {m : Prog σ π ε α} {k : α → Prog σ π ε β}

theorem ok (h : Triple P m Q E) {r : Run σ π ε} (hp : P r.now) {a : α} (hm : (m r).1 = .ok a) :
    Q a (m r).2.now := by
  have hr := h r hp
  rw [hm] at hr
  exact hr

theorem error (h : Triple P m Q E) {r : Run σ π ε} (hp : P r.now) {f : Failure π ε}
    (hm : (m r).1 = .error f) : E f (m r).2.now := by
  have hr := h r hp
  rw [hm] at hr
  exact hr

theorem of (hok : ∀ r a, P r.now → (m r).1 = .ok a → Q a (m r).2.now)
    (herror : ∀ r f, P r.now → (m r).1 = .error f → E f (m r).2.now) : Triple P m Q E := by
  intro r hp
  cases hm : (m r).1 with
  | ok a => exact hok r a hp hm
  | error f => exact herror r f hp hm

theorem conseq (h : Triple P m Q E) (hP : ∀ s, P' s → P s) (hQ : ∀ a s, Q a s → Q' a s)
    (hE : ∀ f s, E f s → E' f s) : Triple P' m Q' E' :=
  of (fun _ a hp hm => hQ a _ (h.ok (hP _ hp) hm)) fun _ f hp hm => hE f _ (h.error (hP _ hp) hm)

theorem pure {a : α} (h : ∀ s, P s → Q a s) : Triple P (Pure.pure a : Prog σ π ε α) Q E :=
  fun r hp => h r.now hp

theorem bind (hm : Triple P m Q E) (hk : ∀ a, Triple (Q a) (k a) R E) :
    Triple P (m >>= k) R E := by
  intro r hp
  have hr := hm r hp
  rcases hmr : m r with ⟨f | a, r'⟩
  · rw [hmr] at hr
    rw [bind_error hmr]
    exact hr
  · rw [hmr] at hr
    rw [bind_ok hmr]
    exact hk a r' hr

theorem step {strikes : Strikes π ε} {p : π} {effect : σ → α × σ} {spoil : σ → σ}
    (hdone : ∀ s, P s → strikes p = none → Q (effect s).1 (effect s).2)
    (hunsent : ∀ s e, P s → strikes p = some (.unsent, e) → E ⟨p, .unsent, e⟩ s)
    (hundone : ∀ s e, P s → strikes p = some (.undone, e) → E ⟨p, .undone, e⟩ (spoil s))
    (hlanded : ∀ s e, P s → strikes p = some (.landed, e) →
      E ⟨p, .landed, e⟩ (effect s).2) :
    Triple P (Prog.step strikes p effect spoil) Q E := by
  intro r hp
  unfold Prog.step
  cases hstrike : strikes p with
  | none => exact hdone r.now hp hstrike
  | some struck =>
    rcases struck with ⟨how, e⟩
    cases how with
    | unsent => exact hunsent r.now e hp hstrike
    | undone => exact hundone r.now e hp hstrike
    | landed => exact hlanded r.now e hp hstrike

theorem raise {p : π} {e : ε} (h : ∀ s, P s → E ⟨p, .unsent, e⟩ s) :
    Triple P (Prog.raise p e : Prog σ π ε α) Q E :=
  fun r hp => h r.now hp

theorem get {Q : σ → σ → Prop} (h : ∀ s, P s → Q s s) :
    Triple P (Prog.get : Prog σ π ε σ) Q E :=
  fun r hp => h r.now hp

theorem note {f : σ → σ} {Q : Unit → σ → Prop} (h : ∀ s, P s → Q () (f s)) :
    Triple P (Prog.note f : Prog σ π ε Unit) Q E :=
  fun r hp => h r.now hp

theorem ite {c : Prop} [Decidable c] {m' : Prog σ π ε α} (ht : c → Triple P m Q E)
    (hf : ¬c → Triple P m' Q E) : Triple P (if c then m else m') Q E := by
  by_cases hc : c
  · rw [if_pos hc]
    exact ht hc
  · rw [if_neg hc]
    exact hf hc

theorem or (h : Triple P m Q E) (h' : Triple P' m Q E) :
    Triple (fun s => P s ∨ P' s) m Q E := by
  intro r hr
  rcases hr with hr | hr
  · exact h r hr
  · exact h' r hr

/-- What every state that a part may start in says. -/
theorem assuming {p : Prop} (hp : ∀ s, P s → p) (h : p → Triple P m Q E) : Triple P m Q E := by
  intro r hr
  exact h (hp _ hr) r hr

/-- A loop keeps what its body keeps. -/
theorem forEach {f : β → Prog σ π ε Unit} {I : σ → Prop} {bs : List β}
    (h : ∀ b ∈ bs, Triple I (f b) (fun _ => I) E) :
    Triple I (Prog.forEach f bs) (fun _ => I) E := by
  induction bs with
  | nil => exact Triple.pure fun _ hs => hs
  | cons b bs ih =>
    have hrest := ih fun b' hb' => h b' (List.mem_cons_of_mem b hb')
    exact Triple.bind (h b List.mem_cons_self) fun _ => hrest

/-- The answers stand in the order of the questions. -/
theorem collect {f : β → Prog σ π ε α} {I : σ → Prop} {A : β → α → Prop} {bs : List β}
    (h : ∀ b ∈ bs, Triple I (f b) (fun a s => I s ∧ A b a) E) :
    Triple I (Prog.collect f bs) (fun as s => I s ∧ List.Forall₂ A bs as) E := by
  induction bs with
  | nil => exact Triple.pure fun _ hs => ⟨hs, List.Forall₂.nil⟩
  | cons b bs ih =>
    have hrest := ih fun b' hb' => h b' (List.mem_cons_of_mem b hb')
    refine Triple.bind (h b List.mem_cons_self) fun a => ?_
    by_cases ha : A b a
    · refine Triple.bind (hrest.conseq (fun _ hs => hs.1) (fun _ _ hq => hq) fun _ _ he => he) ?_
      exact fun as => Triple.pure fun _ hs => ⟨hs.1, List.Forall₂.cons ha hs.2⟩
    · intro r hr
      exact absurd hr.2 ha

theorem onFailure {f : σ → σ} (h : Triple P m Q fun g s => E g (f s)) :
    Triple P (Prog.onFailure m f) Q E := by
  intro r hp
  have hr := h r hp
  unfold Prog.onFailure
  rcases hmr : m r with ⟨g | a, r'⟩
  · rw [hmr] at hr
    exact hr
  · rw [hmr] at hr
    exact hr

/-- What is run safely never fails. -/
theorem safely {m : Prog σ π ε Unit} {Q : Unit → σ → Prop}
    {R : List (Failure π ε) → σ → Prop} (h : Triple P m Q E) (hok : ∀ s, Q () s → R [] s)
    (herror : ∀ f s, E f s → R [f] s) : Triple P (Prog.safely m) R E' := by
  intro r hp
  have hr := h r hp
  unfold Prog.safely
  rcases hmr : m r with ⟨g | a, r'⟩
  · rw [hmr] at hr
    exact herror g _ hr
  · rw [hmr] at hr
    exact hok _ hr

/-- Nothing is said of the program. -/
theorem trivial : Triple P m (fun _ _ => True) fun _ _ => True :=
  of (fun _ _ _ _ => True.intro) fun _ _ _ _ => True.intro

theorem both {m m' : Prog σ π ε (List (Failure π ε))} {Q R : List (Failure π ε) → σ → Prop}
    (h : Triple P m Q E) (h' : ∀ es, Triple (Q es) m' (fun es' s => R (es ++ es') s) E) :
    Triple P (Prog.both m m') R E :=
  Triple.bind h fun es => Triple.bind (h' es) fun _ => Triple.pure fun _ hs => hs

theorem next {m m' : Prog σ π ε (List (Failure π ε))} {Q R : List (Failure π ε) → σ → Prop}
    (h : Triple P m Q E) (h' : Triple (Q []) m' R E)
    (hreported : ∀ es s, es ≠ [] → Q es s → R es s) : Triple P (Prog.next m m') R E := by
  refine Triple.bind h fun es => Triple.ite (fun hnil => ?_) fun hnil => ?_
  · rw [List.isEmpty_iff.mp hnil]
    exact h'
  · refine Triple.pure fun s hs => hreported es s ?_ hs
    intro h
    exact hnil (List.isEmpty_iff.mpr h)

end Triple

/-! ## Traces -/

/-- The failures of a trace, first to last. -/
def failures (t : List (Event π ε)) : List (Failure π ε) := t.filterMap Event.failure?

/-- What a program raised, if anything. -/
def raised (x : Except (Failure π ε) α) : List (Failure π ε) :=
  match x with
  | .ok _ => []
  | .error f => [f]

/-- The program attempts labels of `A`, and what it raises is the only failure in its trace. -/
def Within (A : π → Prop) (m : Prog σ π ε α) : Prop :=
  ∀ r, ∃ t, (m r).2.trace = r.trace ++ t ∧ (∀ e ∈ t, A e.point) ∧ failures t = raised (m r).1

namespace Within

variable {A : π → Prop} {m : Prog σ π ε α} {k : α → Prog σ π ε β}

theorem pure {a : α} : Within A (Pure.pure a : Prog σ π ε α) := by
  intro r
  refine ⟨[], (List.append_nil _).symm, ?_, rfl⟩
  intro e he
  cases he

theorem get : Within A (Prog.get : Prog σ π ε σ) := by
  intro r
  refine ⟨[], (List.append_nil _).symm, ?_, rfl⟩
  intro e he
  cases he

theorem note {f : σ → σ} : Within A (Prog.note f : Prog σ π ε Unit) := by
  intro r
  refine ⟨[], (List.append_nil _).symm, ?_, rfl⟩
  intro e he
  cases he

theorem bind (hm : Within A m) (hk : ∀ a, Within A (k a)) : Within A (m >>= k) := by
  intro r
  obtain ⟨t, htrace, hpoints, hfail⟩ := hm r
  rcases hmr : m r with ⟨f | a, r'⟩
  · rw [hmr] at htrace hfail
    rw [bind_error hmr]
    exact ⟨t, htrace, hpoints, hfail⟩
  · rw [hmr] at htrace hfail
    rw [bind_ok hmr]
    obtain ⟨t', htrace', hpoints', hfail'⟩ := hk a r'
    refine ⟨t ++ t', ?_, ?_, ?_⟩
    · rw [htrace', ← List.append_assoc]
      exact congrArg (· ++ t') htrace
    · intro e he
      rcases List.mem_append.mp he with h | h
      · exact hpoints e h
      · exact hpoints' e h
    · -- the first part raised nothing
      have hnone : failures t = [] := hfail
      unfold failures at hnone ⊢
      rw [List.filterMap_append, hnone, List.nil_append]
      exact hfail'

theorem step {strikes : Strikes π ε} {p : π} {effect : σ → α × σ} {spoil : σ → σ} (hp : A p) :
    Within A (Prog.step strikes p effect spoil) := by
  intro r
  unfold Prog.step
  cases hstrike : strikes p with
  | none =>
    refine ⟨[.done p], rfl, ?_, rfl⟩
    intro e he
    rw [List.mem_singleton.mp he]
    exact hp
  | some struck =>
    rcases struck with ⟨how, e₀⟩
    refine ⟨[.failed ⟨p, how, e₀⟩], rfl, ?_, rfl⟩
    intro e he
    rw [List.mem_singleton.mp he]
    exact hp

theorem raise {p : π} {e₀ : ε} (hp : A p) : Within A (Prog.raise p e₀ : Prog σ π ε α) := by
  intro r
  refine ⟨[.failed ⟨p, .unsent, e₀⟩], rfl, ?_, rfl⟩
  intro e he
  rw [List.mem_singleton.mp he]
  exact hp

theorem ite {c : Prop} [Decidable c] {m' : Prog σ π ε α} (ht : c → Within A m)
    (hf : ¬c → Within A m') : Within A (if c then m else m') := by
  by_cases hc : c
  · rw [if_pos hc]
    exact ht hc
  · rw [if_neg hc]
    exact hf hc

theorem forEach {f : β → Prog σ π ε Unit} {bs : List β} (h : ∀ b, Within A (f b)) :
    Within A (Prog.forEach f bs) := by
  induction bs with
  | nil => exact Within.pure
  | cons b bs ih => exact Within.bind (h b) fun _ => ih

theorem collect {f : β → Prog σ π ε α} {bs : List β} (h : ∀ b, Within A (f b)) :
    Within A (Prog.collect f bs) := by
  induction bs with
  | nil => exact Within.pure
  | cons b bs ih => exact Within.bind (h b) fun a => Within.bind ih fun as => Within.pure

/-- A program that attempts labels of `A` fails at one of them. -/
theorem point (h : Within A m) {r : Run σ π ε} {f : Failure π ε} (hm : (m r).1 = .error f) :
    A f.point := by
  obtain ⟨t, -, hpoints, hfail⟩ := h r
  rw [hm] at hfail
  have hmem : f ∈ failures t := by
    rw [hfail]
    exact List.mem_singleton.mpr rfl
  obtain ⟨e, he, hef⟩ := List.mem_filterMap.mp hmem
  have hpoint : e.point = f.point := by
    cases e with
    | done p => cases hef
    | failed g =>
      cases hef
      rfl
  rw [← hpoint]
  exact hpoints e he

theorem onFailure {f : σ → σ} (hm : Within A m) : Within A (Prog.onFailure m f) := by
  intro r
  obtain ⟨t, htrace, hpoints, hfail⟩ := hm r
  unfold Prog.onFailure
  rcases hmr : m r with ⟨g | a, r'⟩
  · rw [hmr] at htrace hfail
    exact ⟨t, htrace, hpoints, hfail⟩
  · rw [hmr] at htrace hfail
    exact ⟨t, htrace, hpoints, hfail⟩

end Within

/-- The program attempts labels of `A` and never raises: the failures in its trace are those
that it reports. -/
def Reports (A : π → Prop) (m : Prog σ π ε (List (Failure π ε))) : Prop :=
  ∀ r, ∃ es t, (m r).1 = .ok es ∧ (m r).2.trace = r.trace ++ t ∧ (∀ e ∈ t, A e.point) ∧
    failures t = es

namespace Reports

variable {A : π → Prop} {m m' : Prog σ π ε (List (Failure π ε))}

theorem nil : Reports A (Pure.pure [] : Prog σ π ε (List (Failure π ε))) := by
  intro r
  refine ⟨[], [], rfl, (List.append_nil _).symm, ?_, rfl⟩
  intro e he
  cases he

theorem safely {m : Prog σ π ε Unit} (h : Within A m) : Reports A (Prog.safely m) := by
  intro r
  obtain ⟨t, htrace, hpoints, hfail⟩ := h r
  unfold Prog.safely
  rcases hmr : m r with ⟨g | a, r'⟩
  · rw [hmr] at htrace hfail
    exact ⟨[g], t, rfl, htrace, hpoints, hfail⟩
  · rw [hmr] at htrace hfail
    exact ⟨[], t, rfl, htrace, hpoints, hfail⟩

theorem both (h : Reports A m) (h' : Reports A m') : Reports A (Prog.both m m') := by
  intro r
  obtain ⟨es, t, hes, htrace, hpoints, hfail⟩ := h r
  obtain ⟨es', t', hes', htrace', hpoints', hfail'⟩ := h' (m r).2
  have hm : m r = (.ok es, (m r).2) := by rw [← hes]
  have hm' : m' (m r).2 = (.ok es', (m' (m r).2).2) := by rw [← hes']
  have hrun : Prog.both m m' r = (.ok (es ++ es'), (m' (m r).2).2) := by
    unfold Prog.both
    rw [bind_ok hm, bind_ok hm']
    rfl
  rw [hrun]
  refine ⟨es ++ es', t ++ t', rfl, ?_, ?_, ?_⟩
  · rw [htrace', htrace, List.append_assoc]
  · intro e he
    rcases List.mem_append.mp he with ht | ht
    · exact hpoints e ht
    · exact hpoints' e ht
  · unfold failures at hfail hfail' ⊢
    rw [List.filterMap_append, hfail, hfail']

theorem next (h : Reports A m) (h' : Reports A m') : Reports A (Prog.next m m') := by
  intro r
  obtain ⟨es, t, hes, htrace, hpoints, hfail⟩ := h r
  have hm : m r = (.ok es, (m r).2) := by rw [← hes]
  have hrun : Prog.next m m' r = (if es.isEmpty then m' else Pure.pure es) (m r).2 := by
    unfold Prog.next
    rw [bind_ok hm]
  rw [hrun]
  by_cases hnil : es = []
  · rw [if_pos (List.isEmpty_iff.mpr hnil)]
    obtain ⟨es', t', hes', htrace', hpoints', hfail'⟩ := h' (m r).2
    refine ⟨es', t ++ t', hes', ?_, ?_, ?_⟩
    · rw [htrace', htrace, List.append_assoc]
    · intro e he
      rcases List.mem_append.mp he with ht | ht
      · exact hpoints e ht
      · exact hpoints' e ht
    · rw [hnil] at hfail
      unfold failures at hfail hfail' ⊢
      rw [List.filterMap_append, hfail, hfail', List.nil_append]
  · rw [if_neg (fun h => hnil (List.isEmpty_iff.mp h))]
    exact ⟨es, t, rfl, htrace, hpoints, hfail⟩

end Reports

/-- The first thing the program attempts is `p`. -/
def Starts (p : π) (m : Prog σ π ε α) : Prop :=
  ∀ r, ∃ e t, (m r).2.trace = r.trace ++ e :: t ∧ e.point = p

namespace Starts

variable {p : π} {m m' : Prog σ π ε (List (Failure π ε))}

theorem step {strikes : Strikes π ε} {effect : σ → α × σ} {spoil : σ → σ} :
    Starts p (Prog.step strikes p effect spoil) := by
  intro r
  unfold Prog.step
  cases strikes p with
  | none => exact ⟨.done p, [], rfl, rfl⟩
  | some struck => exact ⟨.failed ⟨p, struck.1, struck.2⟩, [], rfl, rfl⟩

theorem safely {m : Prog σ π ε Unit} (h : Starts p m) : Starts p (Prog.safely m) := by
  intro r
  obtain ⟨e, t, htrace, he⟩ := h r
  unfold Prog.safely
  rcases hmr : m r with ⟨g | a, r'⟩
  · rw [hmr] at htrace
    exact ⟨e, t, htrace, he⟩
  · rw [hmr] at htrace
    exact ⟨e, t, htrace, he⟩

/-- What comes later only adds to the trace. -/
theorem both {A : π → Prop} (h : Starts p m) (hm : Reports A m) (hm' : Reports A m') :
    Starts p (Prog.both m m') := by
  intro r
  obtain ⟨e, t, htrace, he⟩ := h r
  obtain ⟨es, -, hes, -⟩ := hm r
  obtain ⟨es', t', hes', htrace', -⟩ := hm' (m r).2
  have hrun : m r = (.ok es, (m r).2) := by rw [← hes]
  have hrun' : m' (m r).2 = (.ok es', (m' (m r).2).2) := by rw [← hes']
  refine ⟨e, t ++ t', ?_, he⟩
  unfold Prog.both
  rw [bind_ok hrun, bind_ok hrun']
  show (m' (m r).2).2.trace = _
  rw [htrace', htrace, List.append_assoc]
  rfl

theorem next {A : π → Prop} (h : Starts p m) (hm : Reports A m) (hm' : Reports A m') :
    Starts p (Prog.next m m') := by
  intro r
  obtain ⟨e, t, htrace, he⟩ := h r
  obtain ⟨es, -, hes, -⟩ := hm r
  have hrun : m r = (.ok es, (m r).2) := by rw [← hes]
  unfold Prog.next
  rw [bind_ok hrun]
  by_cases hnil : es.isEmpty = true
  · rw [if_pos hnil]
    obtain ⟨-, t', -, htrace', -⟩ := hm' (m r).2
    refine ⟨e, t ++ t', ?_, he⟩
    rw [htrace', htrace, List.append_assoc]
    rfl
  · rw [if_neg hnil]
    exact ⟨e, t, htrace, he⟩

end Starts

end Faults
