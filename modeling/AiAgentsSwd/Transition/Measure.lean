import AiAgentsSwd.Transition.Basic

/-!
# Transition.Measure — runs that cannot go on for ever

Where every step from an invariant state makes a number smaller, the number bounds how long a
run is.
-/

namespace Transition

variable {S A : Type} {step : S → A → Option S}

theorem runActs_cons {s t : S} {a : A} {as : List A} :
    runActs step s (a :: as) = some t ↔ ∃ u, step s a = some u ∧ runActs step u as = some t := by
  rw [runActs, Option.bind_eq_some_iff]

/-- **The measure rule.** -/
theorem length_add_le_of_decreases {P : S → Prop} {μ : S → Nat}
    (hstep : ∀ s a t, P s → step s a = some t → P t)
    (hlt : ∀ s a t, P s → step s a = some t → μ t < μ s) {s t : S} {as : List A}
    (h : runActs step s as = some t) (hs : P s) : as.length + μ t ≤ μ s := by
  induction as generalizing s with
  | nil =>
    have heq : s = t := Option.some.inj h
    rw [heq, List.length_nil]
    omega
  | cons a as ih =>
    rcases runActs_cons.mp h with ⟨u, hu, hrest⟩
    have hle := ih hrest (hstep s a u hs hu)
    have hdec := hlt s a u hs hu
    rw [List.length_cons]
    omega

/-- Runs one after the other. -/
theorem runActs_append {s u t : S} {as bs : List A} (h : runActs step s as = some u)
    (h' : runActs step u bs = some t) : runActs step s (as ++ bs) = some t := by
  induction as generalizing s with
  | nil =>
    have heq : s = u := Option.some.inj h
    rw [heq, List.nil_append]
    exact h'
  | cons a as ih =>
    rcases runActs_cons.mp h with ⟨v, hv, hrest⟩
    rw [List.cons_append, runActs_cons]
    exact ⟨v, hv, ih hrest⟩

end Transition
