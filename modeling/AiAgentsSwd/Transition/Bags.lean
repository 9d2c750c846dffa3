import AiAgentsSwd.Transition.Basic
import Mathlib.Algebra.BigOperators.Group.Multiset.Basic
import Mathlib.Algebra.Order.BigOperators.Group.Multiset
import Mathlib.Algebra.Order.Ring.Int

/-!
# Transition.Bags — steps that exchange tokens

What a state holds is a bag of tokens. A move takes some tokens out of the bag and puts others in;
the rest of the bag stays, whatever it is.

- `Exchanges`: one move after the other, at least one;
- `Exchanges.weigh_le`, `Exchanges.weigh_eq`, `Exchanges.weigh_lt`: what every move does to the
  weight of the tokens it is about, the exchange does to the weight of the bag;
- `Exchanges.forall_mem`: what every move keeps of its tokens, the exchange keeps of the bag;
- `exchanges_of_reaches`: where every step is an exchange, so is a run, or it is empty.
-/

namespace Transition

variable {T : Type} {Move : List T → List T → Prop}

/-- Moves in a bag. -/
inductive Exchanges (Move : List T → List T → Prop) : Multiset T → Multiset T → Prop where
  | move {old new : List T} (rest : Multiset T) (h : Move old new) :
      Exchanges Move (old + rest) (new + rest)
  | trans {s t u : Multiset T} (h : Exchanges Move s t) (h' : Exchanges Move t u) :
      Exchanges Move s u

/-- What the tokens of a bag weigh together. -/
def weigh (f : T → Int) (s : Multiset T) : Int := (s.map f).sum

section Weights

variable {f : T → Int}

@[simp] theorem weigh_zero : weigh f 0 = 0 := rfl

@[simp] theorem weigh_add (s t : Multiset T) : weigh f (s + t) = weigh f s + weigh f t := by
  unfold weigh
  rw [Multiset.map_add, Multiset.sum_add]

@[simp] theorem weigh_cons (x : T) (l : List T) :
    weigh f ((x :: l : List T) : Multiset T) = f x + weigh f (l : Multiset T) := by
  unfold weigh
  rw [← Multiset.cons_coe, Multiset.map_cons, Multiset.sum_cons]

@[simp] theorem weigh_nil : weigh f (([] : List T) : Multiset T) = 0 := rfl

theorem weigh_nonneg {s : Multiset T} (h : ∀ x ∈ s, 0 ≤ f x) : 0 ≤ weigh f s := by
  unfold weigh
  refine Multiset.sum_nonneg fun y hy => ?_
  rcases Multiset.mem_map.mp hy with ⟨x, hx, heq⟩
  rw [← heq]
  exact h x hx

end Weights

namespace Exchanges

variable {s t : Multiset T} {f : T → Int}

/-- The rest of the bag does not matter. -/
theorem add (h : Exchanges Move s t) (rest : Multiset T) :
    Exchanges Move (s + rest) (t + rest) := by
  induction h with
  | move r h =>
    rw [add_assoc, add_assoc]
    exact .move (r + rest) h
  | trans _ _ ih ih' => exact ih.trans ih'

theorem weigh_le (hf : ∀ old new, Move old new → weigh f new ≤ weigh f old)
    (h : Exchanges Move s t) : weigh f t ≤ weigh f s := by
  induction h with
  | move rest h =>
    have hle := hf _ _ h
    rw [weigh_add, weigh_add]
    omega
  | trans _ _ ih ih' => exact le_trans ih' ih

theorem weigh_lt (hf : ∀ old new, Move old new → weigh f new < weigh f old)
    (h : Exchanges Move s t) : weigh f t < weigh f s := by
  induction h with
  | move rest h =>
    have hlt := hf _ _ h
    rw [weigh_add, weigh_add]
    omega
  | trans _ _ ih ih' => exact lt_trans ih' ih

theorem weigh_eq (hf : ∀ old new, Move old new → weigh f new = weigh f old)
    (h : Exchanges Move s t) : weigh f t = weigh f s := by
  induction h with
  | move rest h =>
    have heq := hf _ _ h
    rw [weigh_add, weigh_add]
    omega
  | trans _ _ ih ih' => exact ih'.trans ih

/-- What every move keeps of the tokens holds of the whole bag. -/
theorem forall_mem {P : T → Prop}
    (hP : ∀ old new, Move old new → (∀ x ∈ old, P x) → ∀ x ∈ new, P x)
    (h : Exchanges Move s t) (hs : ∀ x ∈ s, P x) : ∀ x ∈ t, P x := by
  induction h with
  | move rest h =>
    intro x hx
    rcases Multiset.mem_add.mp hx with hnew | hrest
    · refine hP _ _ h ?_ x (Multiset.mem_coe.mp hnew)
      intro y hy
      exact hs y (Multiset.mem_add.mpr (Or.inl (Multiset.mem_coe.mpr hy)))
    · exact hs x (Multiset.mem_add.mpr (Or.inr hrest))
  | trans _ _ ih ih' => exact ih' (ih hs)

/-- A move of one token, made with every token of a list. -/
theorem each {A : Type} {old new : A → T} {l : List A} (h : ∀ a ∈ l, Move [old a] [new a])
    (hl : l ≠ []) : Exchanges Move (l.map old : List T) (l.map new : List T) := by
  induction l with
  | nil => exact absurd rfl hl
  | cons a l ih =>
    have hsplit : ∀ g : A → T,
        ((a :: l).map g : Multiset T) = ([g a] : List T) + ((l.map g : List T) : Multiset T) := by
      intro g
      rw [Multiset.coe_add]
      rfl
    rw [hsplit old, hsplit new]
    have hhead := Exchanges.move (l.map old : Multiset T) (h a (List.mem_cons_self ..))
    by_cases hnil : l = []
    · rw [hnil] at hhead ⊢
      exact hhead
    · have htail := (ih (fun b hb => h b (List.mem_cons_of_mem a hb)) hnil).add ([new a] : List T)
      rw [add_comm, add_comm ((l.map new : List T) : Multiset T)] at htail
      exact hhead.trans htail

end Exchanges

/-- A run exchanges what its steps exchange, if it has any. -/
theorem exchanges_of_reaches {S A : Type} {step : S → A → Option S} {P : S → Prop}
    {tokens : S → Multiset T} (hinv : ∀ s a t, P s → step s a = some t → P t)
    (hstep : ∀ s a t, P s → step s a = some t → Exchanges Move (tokens s) (tokens t)) {s t : S}
    (h : Reaches step s t) (hs : P s) : s = t ∨ Exchanges Move (tokens s) (tokens t) := by
  induction h with
  | refl => exact Or.inl rfl
  | tail hrun a ha ih =>
    have hlast := hstep _ a _ (hrun.invariant hinv hs) ha
    rcases ih with heq | hex
    · rw [heq]
      exact Or.inr hlast
    · exact Or.inr (hex.trans hlast)

end Transition
