import AiAgentsSwd.Keyed.Table
import Mathlib.Data.Set.Card

/-!
# Keyed.Counts — counting the rows of a table

How the number of rows with a property moves when one row is added or changed, and bounds on
that number by lists of keys.
-/

namespace Keyed.Table

variable {K R : Type} [DecidableEq K] {t : Table K R} {k : K} {x : R} {p : K × R → Bool}

theorem countP_rows_insert (h : t.find? k = none) (r : R) :
    (t.insert k r).rows.countP p = t.rows.countP p + if p (k, r) then 1 else 0 := by
  rw [rows_insert h, List.countP_cons]

/-- The changed row leaves the count with what it was and enters it with what it is. -/
theorem countP_rows_modify (h : t.find? k = some x) (f : R → R) :
    ((t.modify k f).rows.countP p + if p (k, x) then 1 else 0) =
      t.rows.countP p + if p (k, f x) then 1 else 0 := by
  have hentry : (⟨k, x⟩ : Sigma fun _ : K => R) ∈ t.entries := AList.mem_lookup_iff.mp h
  have hkey : k ∈ t.entries.keys := List.mem_keys_of_mem hentry
  have hmodify : t.modify k f = t.insert k (f x) := by
    unfold modify
    rw [h]
  obtain ⟨y, before, after, hnot, hsplit, herase⟩ := List.exists_of_kerase hkey
  have hxy : x = y := by
    -- the key has one entry
    have hy : (⟨k, y⟩ : Sigma fun _ : K => R) ∈ t.entries := by
      rw [hsplit]
      simp
    have hlookup : t.find? k = some y := AList.mem_lookup_iff.mpr hy
    rw [h] at hlookup
    exact Option.some.inj hlookup
  subst hxy
  have hrows : t.rows = before.map (fun e => (e.1, e.2)) ++
      (k, x) :: after.map fun e => (e.1, e.2) := by
    unfold rows
    rw [hsplit, List.map_append, List.map_cons]
  have hrows' : (t.modify k f).rows = (k, f x) :: (before.map (fun e => (e.1, e.2)) ++
      after.map fun e => (e.1, e.2)) := by
    rw [hmodify]
    unfold rows insert
    rw [AList.entries_insert, herase, List.map_cons, List.map_append]
  rw [hrows, hrows', List.countP_cons, List.countP_append, List.countP_append, List.countP_cons]
  omega

theorem length_rows_insert (h : t.find? k = none) (r : R) :
    (t.insert k r).rows.length = t.rows.length + 1 := by
  rw [rows_insert h, List.length_cons]

theorem length_rows_modify (k : K) (f : R → R) :
    (t.modify k f).rows.length = t.rows.length := by
  cases h : t.find? k with
  | none =>
    unfold modify
    rw [h]
  | some x =>
    have hcount := countP_rows_modify (p := fun _ => true) h f
    simpa using hcount

/-- Writing over a row adds none. -/
theorem length_rows_overwrite (h : t.find? k = some x) (r : R) :
    (t.insert k r).rows.length = t.rows.length := by
  have hmodify : t.modify k (fun _ => r) = t.insert k r := by
    unfold modify
    rw [h]
  rw [← hmodify, length_rows_modify]

/-- Distinct keys whose rows are counted are no more than the count. -/
theorem length_le_countP_rows {ks : List K} (hnodup : ks.Nodup)
    (h : ∀ k ∈ ks, ∃ x, t.find? k = some x ∧ p (k, x) = true) :
    ks.length ≤ t.rows.countP p := by
  have hsub : ks ⊆ (t.rows.filter p).map Prod.fst := by
    intro k hk
    obtain ⟨x, hx, hp⟩ := h k hk
    have hmem : (k, x) ∈ t.rows.filter p := List.mem_filter.mpr ⟨mem_rows.mpr hx, hp⟩
    exact List.mem_map.mpr ⟨(k, x), hmem, rfl⟩
  have hlen := (List.subperm_of_subset hnodup hsub).length_le
  simpa only [List.countP_eq_length_filter, List.length_map] using hlen

/-- The rows of a table are counted by its keys. -/
theorem length_le_rows {ks : List K} (hnodup : ks.Nodup) (h : ∀ k ∈ ks, t.find? k ≠ none) :
    ks.length ≤ t.rows.length := by
  have hcount := length_le_countP_rows (p := fun _ => true) hnodup fun k hk => by
    obtain ⟨x, hx⟩ := Option.ne_none_iff_exists'.mp (h k hk)
    exact ⟨x, hx, rfl⟩
  simpa using hcount

/-- A set of keys that all have rows is no larger than the table. -/
theorem encard_le_rows {s : Set K} (h : ∀ k ∈ s, t.find? k ≠ none) :
    s.encard ≤ t.rows.length := by
  have hsub : s ⊆ ((t.rows.map Prod.fst).toFinset : Set K) := by
    intro k hk
    obtain ⟨x, hx⟩ := Option.ne_none_iff_exists'.mp (h k hk)
    rw [List.coe_toFinset]
    exact List.mem_map.mpr ⟨(k, x), mem_rows.mpr hx, rfl⟩
  have hcard : (t.rows.map Prod.fst).toFinset.card ≤ t.rows.length := by
    have hle := (t.rows.map Prod.fst).toFinset_card_le
    rwa [List.length_map] at hle
  calc s.encard ≤ ((t.rows.map Prod.fst).toFinset : Set K).encard := Set.encard_le_encard hsub
    _ = (t.rows.map Prod.fst).toFinset.card := Set.encard_coe_eq_coe_finsetCard _
    _ ≤ t.rows.length := by exact_mod_cast hcard

/-- A list that has the key of every counted row is at least as long as the count. -/
theorem countP_rows_le_length (ks : List K)
    (h : ∀ k x, t.find? k = some x → p (k, x) = true → k ∈ ks) :
    t.rows.countP p ≤ ks.length := by
  have hsub : (t.rows.filter p).map Prod.fst ⊆ ks := by
    intro k hk
    obtain ⟨⟨j, y⟩, he, rfl⟩ := List.mem_map.mp hk
    rw [List.mem_filter] at he
    exact h j y (mem_rows.mp he.1) he.2
  have hlen := (List.subperm_of_subset (t.nodup_keys_filter _) hsub).length_le
  simpa only [List.countP_eq_length_filter, List.length_map] using hlen

end Keyed.Table
