import Mathlib.Logic.Relation
import Mathlib.Tactic.Common

/-!
# Transition.Basic — labelled transition systems given by a function

`step s a` is the state after the action `a`, or `none` where `a` is not enabled. A run is a
list of actions; `Reaches` says that some run leads from one state to another.

- `Reaches.invariant`: what a step preserves holds along every run;
- `Reaches.relates`: a reflexive and transitive relation that every step satisfies holds
  between the ends of a run;
- `guard`: the same system with some of its steps left out.
-/

namespace Transition

variable {S A : Type} {step : S → A → Option S}

/-- Some run leads from one state to the other. -/
inductive Reaches (step : S → A → Option S) : S → S → Prop where
  | refl (s : S) : Reaches step s s
  | tail {s t u : S} (h : Reaches step s t) (a : A) (ha : step t a = some u) : Reaches step s u

theorem Reaches.single {s t : S} (a : A) (ha : step s a = some t) : Reaches step s t :=
  (Reaches.refl s).tail a ha

theorem Reaches.trans {s t u : S} (h : Reaches step s t) (h' : Reaches step t u) :
    Reaches step s u := by
  induction h' with
  | refl => exact h
  | tail _ a ha ih => exact ih.tail a ha

/-- **The invariant rule.** -/
theorem Reaches.invariant {P : S → Prop} (hstep : ∀ s a t, P s → step s a = some t → P t)
    {s t : S} (h : Reaches step s t) (hs : P s) : P t := by
  induction h with
  | refl => exact hs
  | tail _ a ha ih => exact hstep _ a _ ih ha

/-- **The frame rule**: what every step from an invariant state does to it, a run does. -/
theorem Reaches.relates {P : S → Prop} {R : S → S → Prop}
    (hstep : ∀ s a t, P s → step s a = some t → P t) (hrefl : ∀ s, R s s)
    (htrans : ∀ s t u, R s t → R t u → R s u)
    (hR : ∀ s a t, P s → step s a = some t → R s t) {s t : S} (h : Reaches step s t) (hs : P s) :
    R s t := by
  induction h with
  | refl => exact hrefl _
  | tail h a ha ih => exact htrans _ _ _ ih (hR _ a _ (h.invariant hstep hs) ha)

/-- The state after a run. -/
def runActs (step : S → A → Option S) : S → List A → Option S
  | s, [] => some s
  | s, a :: as => (step s a).bind fun t => runActs step t as

theorem reaches_of_runActs {s t : S} {as : List A} (h : runActs step s as = some t) :
    Reaches step s t := by
  induction as generalizing s with
  | nil =>
    obtain rfl := Option.some.inj h
    exact .refl _
  | cons a as ih =>
    rw [runActs, Option.bind_eq_some_iff] at h
    obtain ⟨u, hu, h⟩ := h
    exact (Reaches.single a hu).trans (ih h)

/-! ## Leaving steps out -/

/-- The steps that `ok` admits. -/
def guard (ok : S → A → Prop) [∀ s a, Decidable (ok s a)] (step : S → A → Option S) (s : S)
    (a : A) : Option S :=
  if ok s a then step s a else none

variable {ok : S → A → Prop} [∀ s a, Decidable (ok s a)]

theorem guard_eq_some {s t : S} {a : A} :
    guard ok step s a = some t ↔ ok s a ∧ step s a = some t := by
  unfold guard
  by_cases h : ok s a
  · rw [if_pos h]
    exact ⟨fun hs => ⟨h, hs⟩, fun hs => hs.2⟩
  · rw [if_neg h]
    constructor
    · intro hs
      cases hs
    · intro hs
      exact absurd hs.1 h

theorem Reaches.of_guard {s t : S} (h : Reaches (guard ok step) s t) : Reaches step s t := by
  induction h with
  | refl => exact .refl _
  | tail _ a ha ih => exact ih.tail a (guard_eq_some.mp ha).2

end Transition
