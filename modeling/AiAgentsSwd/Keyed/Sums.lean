import Mathlib.Algebra.BigOperators.Group.Finset.Basic
import Mathlib.Data.Finset.Dedup
import Mathlib.Algebra.Order.Ring.Int

/-!
# Keyed.Sums — sums over rows, key by key

Rows that may carry a key: a sum over all of them is the sum over those without a key plus,
for every key, the sum over the rows of that key.
-/

namespace Keyed

variable {R K : Type} [DecidableEq K]

/-- The keys in use. -/
def keys (key : R → Option K) (rows : List R) : List K := rows.filterMap key

/-- The rows of one key. -/
def ofKey (key : R → Option K) (k : K) (rows : List R) : List R :=
  rows.filter fun r => key r = some k

/-- The rows without a key. -/
def unkeyed (key : R → Option K) (rows : List R) : List R := rows.filter fun r => key r = none

variable {key : R → Option K} {rows : List R} {k : K}

theorem mem_keys_iff : k ∈ keys key rows ↔ ofKey key k rows ≠ [] := by
  unfold keys ofKey
  rw [List.mem_filterMap, ne_eq, List.filter_eq_nil_iff]
  push Not
  simp

theorem ofKey_append (rows rows' : List R) :
    ofKey key k (rows ++ rows') = ofKey key k rows ++ ofKey key k rows' := List.filter_append _ _

omit [DecidableEq K] in
theorem unkeyed_append (rows rows' : List R) :
    unkeyed key (rows ++ rows') = unkeyed key rows ++ unkeyed key rows' := List.filter_append _ _

/-- An update that keeps the keys. -/
theorem ofKey_map {f : R → R} (hf : ∀ r, key (f r) = key r) :
    ofKey key k (rows.map f) = (ofKey key k rows).map f := by
  unfold ofKey
  rw [List.filter_map]
  congr 2
  funext r
  simp [hf]

omit [DecidableEq K] in
theorem keys_map {f : R → R} (hf : ∀ r, key (f r) = key r) :
    keys key (rows.map f) = keys key rows := by
  unfold keys
  rw [List.filterMap_map]
  congr 1
  funext r
  exact hf r

omit [DecidableEq K] in
theorem unkeyed_map {f : R → R} (hf : ∀ r, key (f r) = key r) :
    unkeyed key (rows.map f) = (unkeyed key rows).map f := by
  unfold unkeyed
  rw [List.filter_map]
  congr 2
  funext r
  simp [hf]

/-- **Sums go key by key.** -/
theorem sum_eq_sum_keys (key : R → Option K) (f : R → Int) (rows : List R) :
    (rows.map f).sum = ((unkeyed key rows).map f).sum +
      ∑ k ∈ (keys key rows).toFinset, ((ofKey key k rows).map f).sum := by
  induction rows with
  | nil => rfl
  | cons r rows ih =>
    rw [List.map_cons, List.sum_cons, ih]
    cases hkey : key r with
    | none =>
      have hunkeyed : unkeyed key (r :: rows) = r :: unkeyed key rows := by simp [unkeyed, hkey]
      have hkeys : keys key (r :: rows) = keys key rows := by simp [keys, hkey]
      have hof : ∀ k, ofKey key k (r :: rows) = ofKey key k rows := by simp [ofKey, hkey]
      rw [hunkeyed, hkeys, List.map_cons, List.sum_cons]
      simp only [hof]
      omega
    | some j =>
      have hunkeyed : unkeyed key (r :: rows) = unkeyed key rows := by simp [unkeyed, hkey]
      have hkeys : (keys key (r :: rows)).toFinset = insert j (keys key rows).toFinset := by
        simp [keys, hkey]
      have hself : ofKey key j (r :: rows) = r :: ofKey key j rows := by simp [ofKey, hkey]
      have hother : ∀ k, k ≠ j → ofKey key k (r :: rows) = ofKey key k rows := by
        intro k hk
        simp [ofKey, hkey, Ne.symm hk]
      -- the share of `j` grows by the new row, whether `j` was in use or not
      have hsum : ∀ s : Finset K,
          ∑ k ∈ s.erase j, ((ofKey key k (r :: rows)).map f).sum =
            ∑ k ∈ s.erase j, ((ofKey key k rows).map f).sum := by
        intro s
        refine Finset.sum_congr rfl fun k hk => ?_
        rw [hother k (Finset.ne_of_mem_erase hk)]
      have hfull : ∑ k ∈ (keys key rows).toFinset, ((ofKey key k rows).map f).sum =
          ((ofKey key j rows).map f).sum +
            ∑ k ∈ (keys key rows).toFinset.erase j, ((ofKey key k rows).map f).sum := by
        by_cases hj : j ∈ (keys key rows).toFinset
        · exact (Finset.add_sum_erase _ _ hj).symm
        · have hnil : ofKey key j rows = [] := by
            rw [List.mem_toFinset, mem_keys_iff, not_not] at hj
            exact hj
          rw [Finset.erase_eq_of_notMem hj, hnil, List.map_nil, List.sum_nil, zero_add]
      rw [hunkeyed, hkeys, hfull, ← Finset.add_sum_erase _ _ (Finset.mem_insert_self j _),
        Finset.erase_insert_eq_erase, hsum, hself, List.map_cons, List.sum_cons]
      omega

end Keyed
