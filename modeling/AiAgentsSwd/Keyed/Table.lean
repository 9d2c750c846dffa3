import Mathlib.Data.List.AList
import Mathlib.Data.List.Perm.Subperm

/-!
# Keyed.Table — tables with a primary key

A relational table is a finite map from its primary key to the remaining columns.
`AList` carries the key uniqueness as a field, so a table with two rows of one key
cannot be built. This file fixes the few operations a transaction needs (point read,
insert, update in place, scan) and the lemmas that let later proofs reason about a
table through its point reads alone:

- `find?_insert`, `find?_modify`: a write, seen by every later point read;
- `mem_rows`: a scan sees exactly what the point reads see;
- `nodup_rows`: a scan sees every row once.
-/

namespace Keyed

/-- A table with primary key `K` and row type `R`. -/
abbrev Table (K R : Type) := AList (fun _ : K => R)

namespace Table

variable {K R : Type} [DecidableEq K]

/-- The empty table. -/
def empty : Table K R := (∅ : AList (fun _ : K => R))

/-- `SELECT * FROM t WHERE pk = k`. -/
def find? (t : Table K R) (k : K) : Option R := AList.lookup k t

/-- Add a row, replacing a row of the same key. -/
def insert (t : Table K R) (k : K) (r : R) : Table K R := AList.insert k r t

/-- `UPDATE t SET … WHERE pk = k`: nothing happens when there is no such row. -/
def modify (t : Table K R) (k : K) (f : R → R) : Table K R :=
  match t.find? k with
  | none => t
  | some r => t.insert k (f r)

/-- `SELECT * FROM t`. -/
def rows (t : Table K R) : List (K × R) := t.entries.map fun e => (e.1, e.2)

@[simp] theorem find?_empty (k : K) : (empty : Table K R).find? k = none := by
  simp [find?, empty]

omit [DecidableEq K] in
@[simp] theorem rows_empty : (empty : Table K R).rows = [] := rfl

theorem find?_insert (t : Table K R) (k j : K) (r : R) :
    (t.insert k r).find? j = if j = k then some r else t.find? j := by
  by_cases h : j = k
  · subst h
    simp [find?, insert]
  · simp [find?, insert, AList.lookup_insert_ne h, h]

@[simp] theorem find?_insert_self (t : Table K R) (k : K) (r : R) :
    (t.insert k r).find? k = some r := by
  simp [find?_insert]

theorem find?_insert_of_ne (t : Table K R) {k j : K} (r : R) (h : j ≠ k) :
    (t.insert k r).find? j = t.find? j := by
  simp [find?_insert, h]

theorem find?_modify (t : Table K R) (k j : K) (f : R → R) :
    (t.modify k f).find? j = if j = k then (t.find? k).map f else t.find? j := by
  unfold modify
  cases hk : t.find? k with
  | none =>
    by_cases h : j = k
    · subst h
      simp [hk]
    · simp [h]
  | some r => simp [find?_insert]

@[simp] theorem find?_modify_self (t : Table K R) (k : K) (f : R → R) :
    (t.modify k f).find? k = (t.find? k).map f := by
  simp [find?_modify]

theorem find?_modify_of_ne (t : Table K R) {k j : K} (f : R → R) (h : j ≠ k) :
    (t.modify k f).find? j = t.find? j := by
  simp [find?_modify, h]

/-- An update adds no key. -/
theorem find?_modify_eq_none {t : Table K R} {k j : K} {f : R → R} :
    (t.modify k f).find? j = none ↔ t.find? j = none := by
  rw [find?_modify]
  by_cases h : j = k
  · rw [if_pos h, h, Option.map_eq_none_iff]
  · rw [if_neg h]

/-- An update of a row that is there. -/
theorem find?_modify_row {t : Table K R} {k : K} {f : R → R} {r : R} (h : t.find? k = some r)
    (j : K) : (t.modify k f).find? j = if j = k then some (f r) else t.find? j := by
  rw [find?_modify, h, Option.map_some]

/-- `u` is `t` with the row `r` under `k`. -/
def Puts (t u : Table K R) (k : K) (r : R) : Prop :=
  ∀ j, u.find? j = if j = k then some r else t.find? j

theorem puts_insert (t : Table K R) (k : K) (r : R) : t.Puts (t.insert k r) k r :=
  fun _ => find?_insert _ _ _ _

theorem puts_modify {t : Table K R} {k : K} {r : R} (h : t.find? k = some r) (f : R → R) :
    t.Puts (t.modify k f) k (f r) := find?_modify_row h

namespace Puts

variable {t u : Table K R} {k j : K} {r x : R}

theorem self (h : t.Puts u k r) : u.find? k = some r := by
  rw [h, if_pos rfl]

theorem of_ne (h : t.Puts u k r) (hj : j ≠ k) : u.find? j = t.find? j := by
  rw [h, if_neg hj]

/-- A row after the write is the row written, or one of the others. -/
theorem find (h : t.Puts u k r) (hx : u.find? j = some x) :
    j = k ∧ x = r ∨ j ≠ k ∧ t.find? j = some x := by
  by_cases hj : j = k
  · subst hj
    rw [h.self, Option.some.injEq] at hx
    exact Or.inl ⟨rfl, hx.symm⟩
  · rw [h.of_ne hj] at hx
    exact Or.inr ⟨hj, hx⟩

/-- What holds of the row written and of every row before holds of every row after. -/
theorem all {p : R → Prop} (h : t.Puts u k r) (hr : p r) (ht : ∀ j x, t.find? j = some x → p x) :
    ∀ j x, u.find? j = some x → p x := by
  intro j x hx
  rcases h.find hx with ⟨-, rfl⟩ | ⟨-, hx⟩
  · exact hr
  · exact ht j x hx

end Puts

/-- A row after an update comes from a row of the same key before it. -/
theorem exists_of_find?_modify {t : Table K R} {k j : K} {f : R → R} {r : R}
    (h : (t.modify k f).find? j = some r) :
    ∃ r₀, t.find? j = some r₀ ∧ r = if j = k then f r₀ else r₀ := by
  rw [find?_modify] at h
  by_cases hj : j = k
  · subst hj
    simp only [if_true, Option.map_eq_some_iff] at h
    obtain ⟨r₀, h₀, rfl⟩ := h
    exact ⟨r₀, h₀, by simp⟩
  · simp only [hj, if_false] at h
    exact ⟨r, h, by simp [hj]⟩

/-- A scan returns exactly the rows that point reads return. -/
theorem mem_rows {t : Table K R} {k : K} {r : R} :
    (k, r) ∈ t.rows ↔ t.find? k = some r := by
  have h : (⟨k, r⟩ : Sigma fun _ : K => R) ∈ t.entries ↔ r ∈ AList.lookup k t :=
    AList.mem_lookup_iff.symm
  rw [show (t.find? k = some r) ↔ r ∈ AList.lookup k t from Iff.rfl, ← h, rows]
  constructor
  · intro hm
    obtain ⟨⟨k', r'⟩, he, heq⟩ := List.mem_map.mp hm
    obtain ⟨rfl, rfl⟩ := Prod.mk.injEq .. ▸ heq
    exact he
  · intro hm
    exact List.mem_map.mpr ⟨⟨k, r⟩, hm, rfl⟩

theorem any_rows_eq_false {t : Table K R} {p : K × R → Bool} :
    t.rows.any p = false ↔ ∀ k r, t.find? k = some r → p (k, r) = false := by
  rw [List.any_eq_false]
  constructor
  · intro h k r hr
    simpa using h (k, r) (mem_rows.mpr hr)
  · intro h e he
    simpa using h e.1 e.2 (mem_rows.mp he)

theorem all_rows_eq_true {t : Table K R} {p : K × R → Bool} :
    t.rows.all p = true ↔ ∀ k r, t.find? k = some r → p (k, r) = true := by
  rw [List.all_eq_true]
  constructor
  · intro h k r hr
    exact h (k, r) (mem_rows.mpr hr)
  · intro h e he
    exact h e.1 e.2 (mem_rows.mp he)

/-- A new row comes first in a scan. -/
theorem rows_insert {t : Table K R} {k : K} (h : t.find? k = none) (r : R) :
    (t.insert k r).rows = (k, r) :: t.rows := by
  have hk : k ∉ t := AList.lookup_eq_none.mp h
  unfold rows insert
  rw [AList.entries_insert_of_notMem hk, List.map_cons]

omit [DecidableEq K] in
/-- A scan never returns two rows of one key. -/
theorem nodup_keys (t : Table K R) : (t.rows.map Prod.fst).Nodup := by
  have h : t.rows.map Prod.fst = AList.keys t := by
    simp [rows, AList.keys, List.keys]
  rw [h]
  exact AList.keys_nodup t

omit [DecidableEq K] in
theorem nodup_keys_filter (t : Table K R) (p : K × R → Bool) :
    ((t.rows.filter p).map Prod.fst).Nodup :=
  t.nodup_keys.sublist (List.filter_sublist.map _)

/-- Fewer rows are counted where every counted row was one before, under its key. -/
theorem countP_rows_le {s t : Table K R} {p q : R → Bool}
    (h : ∀ k y, t.find? k = some y → p y = true → ∃ x, s.find? k = some x ∧ q x = true) :
    t.rows.countP (fun e => p e.2) ≤ s.rows.countP fun e => q e.2 := by
  have hsub : (t.rows.filter fun e => p e.2).map Prod.fst ⊆
      (s.rows.filter fun e => q e.2).map Prod.fst := by
    intro k hk
    rcases List.mem_map.mp hk with ⟨⟨j, y⟩, he, rfl⟩
    rw [List.mem_filter] at he
    rcases h j y (mem_rows.mp he.1) he.2 with ⟨x, hx, hq⟩
    exact List.mem_map.mpr ⟨(j, x), List.mem_filter.mpr ⟨mem_rows.mpr hx, hq⟩, rfl⟩
  have hlen := (List.subperm_of_subset (t.nodup_keys_filter _) hsub).length_le
  simpa only [List.countP_eq_length_filter, List.length_map] using hlen

/-- At most one row more is counted where that holds of all rows but one. -/
theorem countP_rows_le_succ {s t : Table K R} {p q : R → Bool} (k₀ : K)
    (h : ∀ k y, k ≠ k₀ → t.find? k = some y → p y = true →
      ∃ x, s.find? k = some x ∧ q x = true) :
    t.rows.countP (fun e => p e.2) ≤ s.rows.countP (fun e => q e.2) + 1 := by
  have hsub : (t.rows.filter fun e => p e.2).map Prod.fst ⊆
      k₀ :: (s.rows.filter fun e => q e.2).map Prod.fst := by
    intro k hk
    rcases List.mem_map.mp hk with ⟨⟨j, y⟩, he, rfl⟩
    rw [List.mem_filter] at he
    by_cases hj : j = k₀
    · rw [hj]
      exact List.mem_cons_self
    · rcases h j y hj (mem_rows.mp he.1) he.2 with ⟨x, hx, hq⟩
      have hmem : (j, x) ∈ s.rows.filter fun e => q e.2 :=
        List.mem_filter.mpr ⟨mem_rows.mpr hx, hq⟩
      exact List.mem_cons_of_mem _ (List.mem_map.mpr ⟨(j, x), hmem, rfl⟩)
  have hlen := (List.subperm_of_subset (t.nodup_keys_filter _) hsub).length_le
  simpa only [List.countP_eq_length_filter, List.length_map, List.length_cons] using hlen

omit [DecidableEq K] in
theorem nodup_rows (t : Table K R) : t.rows.Nodup := t.nodup_keys.of_map

end Table

end Keyed
