import Mathlib.Data.List.Basic
import Mathlib.Data.List.Nodup
import Mathlib.Tactic.Common

/-!
# Listing.Page — the first page of a listing

`SELECT … ORDER BY k LIMIT n` returns the first `n` rows of some arrangement of the rows by `k`:
rows with the same key come in any order. `Arranges` says what an arrangement is; the lemmas say
when a page is as good as the whole listing for a reader that looks for some of the rows.
-/

namespace Listing

variable {α : Type} {K : Type} [LE K]

/-- `order` arranges rows by `key`. -/
structure Arranges (key : α → K) (order : List α → List α) : Prop where
  perm : ∀ rows, (order rows).Perm rows
  sorted : ∀ rows, (order rows).Pairwise fun a b => key a ≤ key b

variable {rows : List α} {p : α → Bool} {n : Nat}

/-- The page holds every row that is wanted exactly when none of the others is. -/
theorem perm_filter_take_iff {l : List α} (hperm : l.Perm rows) :
    ((l.take n).filter p).Perm (rows.filter p) ↔ (l.drop n).filter p = [] := by
  have hwhole : (l.filter p).Perm (rows.filter p) := hperm.filter p
  have hsplit : l.filter p = (l.take n).filter p ++ (l.drop n).filter p := by
    rw [← List.filter_append, List.take_append_drop]
  constructor
  · intro h
    have hlength := (h.trans hwhole.symm).length_eq
    rw [hsplit, List.length_append] at hlength
    exact List.length_eq_zero_iff.mp (by omega)
  · intro h
    rw [h, List.append_nil] at hsplit
    rw [← hsplit]
    exact hwhole

variable [DecidableEq α]

theorem filter_drop_eq_nil_iff {l : List α} (hnodup : l.Nodup) :
    (l.drop n).filter p = [] ↔ ∀ a ∈ l, p a = true → l.idxOf a < n := by
  rw [List.filter_eq_nil_iff]
  constructor
  · intro h a ha hp
    by_contra hlate
    have hrest : a ∈ l.drop n := by
      rw [← List.take_append_drop n l] at ha
      rcases List.mem_append.mp ha with hpage | hrest
      · have hmem : a ∈ l := List.mem_of_mem_take hpage
        exact absurd ((List.mem_take_iff_idxOf_lt hmem).mp hpage) hlate
      · exact hrest
    exact h a hrest hp
  · intro h a ha hp
    have hmem : a ∈ l := List.mem_of_mem_drop ha
    have hpage : a ∈ l.take n := (List.mem_take_iff_idxOf_lt hmem).mpr (h a hmem hp)
    -- a row is not both on the page and behind it
    rw [← List.take_append_drop n l] at hnodup
    exact (List.nodup_append.mp hnodup).2.2 a hpage a ha rfl

end Listing
