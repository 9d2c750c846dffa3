import Mathlib.Data.List.Infix

/-!
# Text.Segments — the parts of a list between separators

`xs.splitOn x` gives the parts of `xs` between the occurrences of `x`. A part stands between two
ends that each are empty or touch a separator, and every such part is one of them.
-/

namespace AiAgentsSwd.Text

variable {α : Type} [BEq α] [LawfulBEq α] {x : α}

/-- What stands before a part, and after it read backwards: nothing, or a separator comes last. -/
def EndsAt (x : α) (a : List α) : Prop := a = [] ∨ ∃ a', a = a' ++ [x]

/-- What stands after a part. -/
def StartsAt (x : α) (b : List α) : Prop := b = [] ∨ ∃ b', b = x :: b'

/-- Induction over the parts, from the first one on. -/
theorem split_induction {P : List α → Prop} (last : ∀ xs, x ∉ xs → P xs)
    (first : ∀ u v, x ∉ u → P v → P (u ++ x :: v)) (xs : List α) : P xs := by
  by_cases hx : x ∈ xs
  · -- the part before the first separator
    have hfirst : ∃ u v, xs = u ++ x :: v ∧ x ∉ u := List.eq_append_cons_of_mem hx
    rcases hfirst with ⟨u, v, heq, hu⟩
    have hlt : v.length < xs.length := by
      rw [heq, List.length_append, List.length_cons]
      omega
    rw [heq]
    exact first u v hu (split_induction last first v)
  · exact last xs hx
termination_by xs.length

theorem not_mem_of_mem_splitOn {xs part : List α} (h : part ∈ xs.splitOn x) : x ∉ part := by
  induction xs using split_induction (x := x) with
  | last xs hx =>
    rw [List.splitOn_eq_singleton hx, List.mem_singleton] at h
    rwa [h]
  | first u v hu ih =>
    rw [List.splitOn_append_cons_self_of_not_mem hu, List.mem_cons] at h
    rcases h with rfl | h
    · exact hu
    · exact ih h

theorem length_splitOn (xs : List α) : (xs.splitOn x).length = xs.count x + 1 := by
  induction xs using split_induction (x := x) with
  | last xs hx =>
    rw [List.splitOn_eq_singleton hx, List.count_eq_zero.mpr hx]
    rfl
  | first u v hu ih =>
    rw [List.splitOn_append_cons_self_of_not_mem hu, List.length_cons, ih, List.count_append,
      List.count_eq_zero.mpr hu, List.count_cons_self]
    omega

theorem exists_of_mem_splitOn {xs part : List α} (h : part ∈ xs.splitOn x) :
    ∃ a b, xs = a ++ part ++ b ∧ EndsAt x a ∧ StartsAt x b := by
  induction xs using split_induction (x := x) with
  | last xs hx =>
    rw [List.splitOn_eq_singleton hx, List.mem_singleton] at h
    exact ⟨[], [], by simp [h], Or.inl rfl, Or.inl rfl⟩
  | first u v hu ih =>
    rw [List.splitOn_append_cons_self_of_not_mem hu, List.mem_cons] at h
    rcases h with rfl | h
    · exact ⟨[], x :: v, by simp, Or.inl rfl, Or.inr ⟨v, rfl⟩⟩
    · rcases ih h with ⟨a, b, hv, ha, hb⟩
      refine ⟨u ++ x :: a, b, by simp [hv], ?_, hb⟩
      rcases ha with rfl | ⟨a', rfl⟩
      · exact Or.inr ⟨u, rfl⟩
      · exact Or.inr ⟨u ++ x :: a', by simp⟩

theorem mem_splitOn {a part b : List α} (hx : x ∉ part) (ha : EndsAt x a) (hb : StartsAt x b) :
    part ∈ (a ++ part ++ b).splitOn x := by
  have hright : part ∈ (part ++ b).splitOn x := by
    rcases hb with rfl | ⟨b', rfl⟩
    · rw [List.append_nil, List.splitOn_eq_singleton hx]
      exact List.mem_singleton_self part
    · rw [List.splitOn_append_cons_self_of_not_mem hx]
      exact List.mem_cons_self
  rcases ha with rfl | ⟨a', rfl⟩
  · exact hright
  · rw [List.append_assoc, List.append_assoc, List.singleton_append,
      List.splitOn_append_cons_self]
    exact List.mem_append_right _ hright

/-- What is added to the end goes to the last part. -/
theorem splitOn_append_of_not_mem (a : List α) {s : List α} (hs : x ∉ s) :
    ∃ init z, a.splitOn x = init ++ [z] ∧ (a ++ s).splitOn x = init ++ [z ++ s] := by
  induction a using split_induction (x := x) with
  | last a ha =>
    have happ : x ∉ a ++ s := by simp [ha, hs]
    exact ⟨[], a, List.splitOn_eq_singleton ha, List.splitOn_eq_singleton happ⟩
  | first u v hu ih =>
    rcases ih with ⟨init, z, hv, hvs⟩
    refine ⟨u :: init, z, ?_, ?_⟩
    · rw [List.splitOn_append_cons_self_of_not_mem hu, hv, List.cons_append]
    · rw [List.append_assoc, List.cons_append, List.splitOn_append_cons_self_of_not_mem hu, hvs,
        List.cons_append]

end AiAgentsSwd.Text
