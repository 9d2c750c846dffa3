import Mathlib.Data.List.Sort
import Mathlib.Tactic.Common

/-!
# Listing.Queue — the rows that are due, in order

A queue kept as rows with a time: `due` is what `SELECT … WHERE key <= now ORDER BY key` returns.
What is due later begins with what is due now (`due_prefix`), and leaving out rows does not
change the order of the others (`filter_insertionSort`).
-/

namespace Listing

variable {α K : Type} {key : α → K} {rows : List α} {p : α → Bool}

/-! ## Sorting and filtering -/

section Sorting

variable {r : α → α → Prop} [DecidableRel r]

/-- A row goes in before the first one that it may precede, whether or not others are left out. -/
theorem filter_orderedInsert [IsTrans α r] {a : α} {l : List α} (hl : l.Pairwise r) :
    (l.orderedInsert r a).filter p =
      if p a then (l.filter p).orderedInsert r a else l.filter p := by
  induction l with
  | nil =>
    by_cases hp : p a = true
    · simp [hp]
    · simp [hp]
  | cons b l ih =>
    rw [List.pairwise_cons] at hl
    rw [List.orderedInsert_cons]
    by_cases hab : r a b
    · rw [if_pos hab, List.filter_cons]
      by_cases hp : p a = true
      · rw [if_pos hp, if_pos hp]
        -- every row that is kept may come after `a`
        have hall : ∀ x ∈ (b :: l).filter p, r a x := by
          intro x hx
          rcases List.mem_cons.mp (List.mem_of_mem_filter hx) with hxb | hxl
          · rw [hxb]
            exact hab
          · exact IsTrans.trans a b x hab (hl.1 x hxl)
        cases hrest : (b :: l).filter p with
        | nil => rfl
        | cons x xs =>
          rw [hrest] at hall
          rw [List.orderedInsert_cons, if_pos (hall x List.mem_cons_self)]
      · rw [if_neg hp, if_neg hp]
    · rw [if_neg hab, List.filter_cons, List.filter_cons, ih hl.2]
      by_cases hb : p b = true
      · by_cases hp : p a = true
        · simp only [hb, hp, if_true, List.orderedInsert_cons, if_neg hab]
        · simp only [hb, hp, if_true, if_false, Bool.false_eq_true]
      · simp only [hb, if_false, Bool.false_eq_true]

/-- A stable sort leaves the rows that are kept in the order they have among all. -/
theorem filter_insertionSort [IsTrans α r] [Std.Total r] :
    (rows.filter p).insertionSort r = (rows.insertionSort r).filter p := by
  induction rows with
  | nil => rfl
  | cons a l ih =>
    rw [List.insertionSort_cons, filter_orderedInsert (List.pairwise_insertionSort r l),
      List.filter_cons, ← ih]
    by_cases hp : p a = true
    · rw [if_pos hp, if_pos hp, List.insertionSort_cons]
    · rw [if_neg hp, if_neg hp]

end Sorting

/-! ## What is due -/

section Due

variable [LinearOrder K]

/-- The rows whose time has come, the earliest first. -/
def due (key : α → K) (rows : List α) (now : K) : List α :=
  (rows.filter fun a => key a ≤ now).insertionSort fun a b => key a ≤ key b

/-- The order of the keys, as a relation between rows. -/
instance isTrans_key : IsTrans α fun a b => key a ≤ key b := ⟨fun _ _ _ h h' => le_trans h h'⟩

instance total_key : Std.Total fun a b : α => key a ≤ key b := ⟨fun a b => le_total (key a) (key b)⟩

theorem mem_due {a : α} {now : K} : a ∈ due key rows now ↔ a ∈ rows ∧ key a ≤ now := by
  unfold due
  rw [List.mem_insertionSort, List.mem_filter, decide_eq_true_eq]

theorem nodup_due {β : Type} {f : α → β} {now : K} (h : (rows.map f).Nodup) :
    ((due key rows now).map f).Nodup := by
  have hperm := (List.perm_insertionSort (fun a b => key a ≤ key b)
    (rows.filter fun a => key a ≤ now)).map f
  refine hperm.nodup_iff.mpr (h.sublist ?_)
  exact List.filter_sublist.map f

theorem filter_le_prefix {l : List α} {now later : K} (hl : l.Pairwise fun a b => key a ≤ key b)
    (h : now ≤ later) :
    (l.filter fun a => decide (key a ≤ now)) <+: l.filter fun a => decide (key a ≤ later) := by
  induction l with
  | nil => exact List.prefix_rfl
  | cons a l ih =>
    rw [List.pairwise_cons] at hl
    by_cases ha : key a ≤ now
    · have ha' : key a ≤ later := le_trans ha h
      simp only [List.filter_cons, ha, ha', decide_true, if_true]
      exact (List.prefix_cons_inj a).mpr (ih hl.2)
    · -- nothing behind `a` is due yet
      have hnone : (a :: l).filter (fun a => decide (key a ≤ now)) = [] := by
        rw [List.filter_eq_nil_iff]
        intro x hx
        rw [decide_eq_true_eq]
        rcases List.mem_cons.mp hx with hxa | hxl
        · rw [hxa]
          exact ha
        · intro hx'
          exact ha (le_trans (hl.1 x hxl) hx')
      rw [hnone]
      exact List.nil_prefix

/-- What is due later begins with what is due now. -/
theorem due_prefix {now later : K} (h : now ≤ later) :
    due key rows now <+: due key rows later := by
  unfold due
  rw [filter_insertionSort, filter_insertionSort]
  exact filter_le_prefix (List.pairwise_insertionSort _ _) h

end Due

end Listing
