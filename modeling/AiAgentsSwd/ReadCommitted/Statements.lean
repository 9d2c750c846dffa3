import AiAgentsSwd.ReadCommitted.Ensures
import AiAgentsSwd.ReadCommitted.Tables
import Mathlib.Data.List.Sort

/-!
# ReadCommitted.Statements — SQL statements on one table

`TableAt` says where a table is in the state and how its rows are locked. On it the file
defines the statements a repository is written with: a point `SELECT`, `SELECT … FOR UPDATE`,
a guarded `UPDATE … RETURNING` of one row and of many, an `INSERT`, and the probe of a unique
index. An `UPDATE` raises when the new row violates a CHECK of its table.

Each statement has its rule in the logic of `ReadCommitted.Ensures`; what the rules need of
the guarantee is that the table `Evolves` under its row locks.
-/

namespace ReadCommitted

open Keyed (Table Evolves Entered)

/-- A table of the state: how it is read and replaced, and the lock of each row. -/
structure TableAt (σ κ K R : Type) where
  get : σ → Table K R
  set : σ → Table K R → σ
  lock : K → κ
  get_set : ∀ s t, get (set s t) = t

namespace TableAt

variable {σ κ ε α K R : Type} [DecidableEq K] (T : TableAt σ κ K R)

/-- `UPDATE t SET … WHERE pk = k`. -/
def modify (k : K) (f : R → R) (s : σ) : σ := T.set s ((T.get s).modify k f)

/-- A new row. -/
def insert (k : K) (r : R) (s : σ) : σ := T.set s ((T.get s).insert k r)

/-- The update of several rows, one after the other. -/
def modifyAll (ks : List K) (f : R → R) (s : σ) : σ := ks.foldl (fun s k => T.modify k f s) s

variable {T}

@[simp] theorem get_modify (k : K) (f : R → R) (s : σ) :
    T.get (T.modify k f s) = (T.get s).modify k f := T.get_set _ _

@[simp] theorem get_insert (k : K) (r : R) (s : σ) :
    T.get (T.insert k r s) = (T.get s).insert k r := T.get_set _ _

@[simp] theorem modifyAll_nil (f : R → R) (s : σ) : T.modifyAll [] f s = s := rfl

@[simp] theorem modifyAll_cons (k : K) (ks : List K) (f : R → R) (s : σ) :
    T.modifyAll (k :: ks) f s = T.modifyAll ks f (T.modify k f s) := rfl

theorem find?_modifyAll {ks : List K} (f : R → R) (hnd : ks.Nodup) (j : K) (s : σ) :
    (T.get (T.modifyAll ks f s)).find? j =
      if j ∈ ks then ((T.get s).find? j).map f else (T.get s).find? j := by
  induction ks generalizing s with
  | nil => simp
  | cons k ks ih =>
    rw [List.nodup_cons] at hnd
    rw [modifyAll_cons, ih hnd.2, get_modify]
    by_cases hj : j = k
    · subst hj
      simp [hnd.1]
    · rw [Table.find?_modify_of_ne _ _ hj]
      simp [hj]

/-- What no single update touches, the update of several rows does not touch. -/
theorem modifyAll_frame {γ : Type} {X : σ → γ} {f : R → R}
    (hX : ∀ k s, X (T.modify k f s) = X s) (ks : List K) (s : σ) :
    X (T.modifyAll ks f s) = X s := by
  induction ks generalizing s with
  | nil => rfl
  | cons k ks ih => rw [modifyAll_cons, ih, hX]

variable (T)

/-! ## The statements -/

/-- `SELECT * FROM t WHERE pk = k AND p`. -/
def select (k : K) (p : R → Bool) : Txn σ κ ε (Option R) :=
  .query fun s => .done (((T.get s).find? k).filter p)

/-- `SELECT * FROM t WHERE p`, for a `p` that at most one row satisfies. -/
def selectBy (p : R → Bool) : Txn σ κ ε (Option (K × R)) :=
  .query fun s => .done ((T.get s).rows.find? fun e => p e.2)

/-- `SELECT * FROM t WHERE pk = k AND p FOR UPDATE`: finds the row, waits for its lock, and
checks it again under the lock. -/
def selectForUpdate (k : K) (p : R → Bool) : Txn σ κ ε (Option R) :=
  .query fun s =>
    if ((T.get s).find? k).any p then
      .lock (T.lock k) <| .query fun s' => .done (((T.get s').find? k).filter p)
    else .done none

/-- `SELECT * FROM t WHERE p ORDER BY … FOR UPDATE SKIP LOCKED LIMIT 1`: the first row in the
given order that is not `skipped`, checked again under its lock. Which rows are skipped as
locked is not up to the session. -/
def claimFirst (p : R → Bool) (before : R → R → Bool) (skipped : K → Bool) :
    Txn σ κ ε (Option (K × R)) :=
  .query fun s =>
    match (((T.get s).rows.filter fun e => p e.2 && !skipped e.1).insertionSort
      fun a b => before a.2 b.2).head? with
    | none => .done none
    | some e =>
      .lock (T.lock e.1) <| .query fun s' =>
        .done ((((T.get s').find? e.1).filter p).map fun x => (e.1, x))

/-- `UPDATE t SET … WHERE pk = k AND cond RETURNING *`: as `SELECT … FOR UPDATE`, then the
new row is checked and written. -/
def update (k : K) (cond : R → Bool) (f : R → R) (check : R → Bool) (violation : ε) :
    Txn σ κ ε (Option R) :=
  (T.selectForUpdate k cond).bind fun
    | none => .done none
    | some x => if check (f x) then .write (T.modify k f) (.done (some (f x))) else .raise violation

/-- The same for several rows in one statement; returns how many were updated. -/
def updateEach (cond : R → Bool) (f : R → R) (check : R → Bool) (violation : ε) :
    List K → Txn σ κ ε Nat
  | [] => .done 0
  | k :: ks =>
    (T.update k cond f check violation).bind fun x =>
      (updateEach cond f check violation ks).bind fun n => .done (n + x.toList.length)

/-- The primary key of a row to insert: waits for whoever is inserting it, then says whether
it is taken. -/
def taken (k : K) : Txn σ κ ε Bool :=
  .lock (T.lock k) <| .query fun s => .done ((T.get s).find? k).isSome

/-- The entry of another unique index, in the same way: says whether a row has it. -/
def conflict (entry : κ) (p : R → Bool) : Txn σ κ ε Bool :=
  .lock entry <| .query fun s => .done ((T.get s).rows.any fun e => p e.2)

/-- `SELECT pk FROM t WHERE p LIMIT n`. Without an `ORDER BY` the rows come in any order,
here by the given rank. -/
def selectLimit (p : R → Bool) (rank : K → Nat) (n : Nat) (s : σ) : List K :=
  ((((T.get s).rows.filter fun e => p e.2).map Prod.fst).insertionSort
    fun a b => rank a ≤ rank b).take n

variable {T}

omit [DecidableEq K] in
theorem nodup_selectLimit (p : R → Bool) (rank : K → Nat) (n : Nat) (s : σ) :
    (T.selectLimit p rank n s).Nodup := by
  have hnd : (((T.get s).rows.filter fun e => p e.2).map Prod.fst).Nodup :=
    Table.nodup_keys_filter _ _
  have hperm := List.perm_insertionSort (fun a b => rank a ≤ rank b)
    (((T.get s).rows.filter fun e => p e.2).map Prod.fst)
  exact (hperm.nodup_iff.mpr hnd).sublist (List.take_sublist _ _)

/-! ## Their rules -/

section Rules

variable {Inv : σ → Prop} {Guar : List κ → σ → σ → Prop} {same : R → R → Prop}
variable {L : List κ} {w : σ → σ} {s : σ}

theorem ensures_select {k : K} {p : R → Bool}
    (hT : ∀ l a b, Guar l a b → Evolves T.lock same l (T.get a) (T.get b))
    (hrefl : ∀ x, same x x) (htrans : ∀ x y z, same x y → same y z → same x z)
    (hw : ∀ t, (T.get (w t)).find? k = (T.get t).find? k) :
    Ensures Inv Guar (T.select k p : Txn σ κ ε (Option R)) L w s fun b _ w' t =>
      w' = w ∧ ∀ x, b = some x →
        p x = true ∧ ∃ y, (T.get t).find? k = some y ∧ same x y := by
  unfold select
  rw [ensures_query]
  intro t _
  rw [ensures_done]
  intro t' ht'
  refine ⟨rfl, fun x hx => ?_⟩
  rw [hw, Option.filter_eq_some_iff] at hx
  exact ⟨hx.2, ht'.same_row hT hrefl htrans hx.1⟩

/-- A read by another index: the row found is still the same one at the end, and where there is
none, there was none at some time since the start. -/
theorem ensures_selectBy {p : R → Bool}
    (hT : ∀ l a b, Guar l a b → Evolves T.lock same l (T.get a) (T.get b))
    (hrefl : ∀ x, same x x) (htrans : ∀ x y z, same x y → same y z → same x z)
    (hw : ∀ t, T.get (w t) = T.get t) :
    Ensures Inv Guar (T.selectBy p : Txn σ κ ε (Option (K × R))) L w s fun b _ w' t =>
      w' = w ∧
        (∀ e, b = some e → p e.2 = true ∧ ∃ y, (T.get t).find? e.1 = some y ∧ same e.2 y) ∧
        (b = none → ∃ t₁, Rely Inv Guar L s t₁ ∧
          ∀ k x, (T.get t₁).find? k = some x → p x = false) := by
  unfold selectBy
  rw [ensures_query]
  intro t ht
  rw [ensures_done]
  intro t' ht'
  rw [hw]
  refine ⟨rfl, fun e he => ?_, fun hn => ⟨t, ht, fun k x hx => ?_⟩⟩
  · have hmem := List.mem_of_find?_eq_some he
    have hp := List.find?_some he
    exact ⟨hp, ht'.same_row hT hrefl htrans (Table.mem_rows.mp hmem)⟩
  · have hall := List.find?_eq_none.mp hn (k, x) (Table.mem_rows.mpr hx)
    simpa using hall

theorem ensures_selectForUpdate {k : K} {p : R → Bool}
    (hT : ∀ l a b, Guar l a b → Evolves T.lock same l (T.get a) (T.get b))
    (hw : ∀ t, (T.get (w t)).find? k = (T.get t).find? k) :
    Ensures Inv Guar (T.selectForUpdate k p : Txn σ κ ε (Option R)) L w s fun b L' w' t =>
      w' = w ∧
        (∀ x, b = some x → p x = true ∧ (T.get t).find? k = some x ∧ T.lock k ∈ L') ∧
        (b = none → ∃ t₁, Rely Inv Guar L s t₁ ∧ Rely Inv Guar L t₁ t ∧
          ∀ x, (T.get t₁).find? k = some x → p x = false) := by
  unfold selectForUpdate
  rw [ensures_query]
  intro t ht
  by_cases hp : ((T.get (w t)).find? k).any p = true
  · rw [if_pos hp, ensures_lock]
    intro t₁ ht₁
    rw [ensures_query]
    intro t₂ ht₂
    rw [ensures_done]
    intro t₃ ht₃
    have hk : T.lock k ∈ L ++ [T.lock k] := by simp
    have hsub : L ⊆ L ++ [T.lock k] := List.subset_append_left _ _
    -- the lock keeps the row as it was read
    have hrow : (T.get t₃).find? k = (T.get t₂).find? k := ht₃.row hT hk
    rw [hw]
    refine ⟨rfl, fun x hx => ?_, fun hn => ?_⟩
    · rw [Option.filter_eq_some_iff] at hx
      exact ⟨hx.2, by rw [hrow, hx.1], hk⟩
    · refine ⟨t₂, ht.trans (ht₁.trans (ht₂.mono hsub)), ht₃.mono hsub, fun x hx => ?_⟩
      simpa [hx] using hn
  · rw [if_neg hp, ensures_done]
    intro t₁ ht₁
    refine ⟨rfl, fun x hx => (by cases hx), fun _ => ⟨t, ht, ht₁, fun x hx => ?_⟩⟩
    simpa [hw, hx] using hp

theorem ensures_claimFirst {p : R → Bool} {before : R → R → Bool} {skipped : K → Bool}
    (hT : ∀ l a b, Guar l a b → Evolves T.lock same l (T.get a) (T.get b))
    (hw : ∀ k t, (T.get (w t)).find? k = (T.get t).find? k) :
    Ensures Inv Guar (T.claimFirst p before skipped : Txn σ κ ε (Option (K × R))) L w s
      fun b L' w' t =>
        w' = w ∧ ∀ k x, b = some (k, x) →
          p x = true ∧ (T.get t).find? k = some x ∧ T.lock k ∈ L' := by
  unfold claimFirst
  rw [ensures_query]
  intro t _
  cases (((T.get (w t)).rows.filter fun e => p e.2 && !skipped e.1).insertionSort
    fun a b => before a.2 b.2).head? with
  | none => exact ensures_done.mpr fun t' _ => ⟨rfl, fun k x hx => by cases hx⟩
  | some e =>
    simp only
    rw [ensures_lock]
    intro t₁ _
    rw [ensures_query]
    intro t₂ _
    rw [ensures_done]
    intro t₃ ht₃
    refine ⟨rfl, fun k x hx => ?_⟩
    rw [hw, Option.map_eq_some_iff] at hx
    rcases hx with ⟨y, hy, heq⟩
    rw [Prod.mk.injEq] at heq
    rcases heq with ⟨rfl, rfl⟩
    have hk : T.lock e.1 ∈ L ++ [T.lock e.1] := by simp
    rw [Option.filter_eq_some_iff] at hy
    have hrow : (T.get t₃).find? e.1 = (T.get t₂).find? e.1 := ht₃.row hT hk
    exact ⟨hy.2, by rw [hrow, hy.1], hk⟩

theorem ensures_update {k : K} {cond : R → Bool} {f : R → R} {check : R → Bool} {e : ε}
    (hT : ∀ l a b, Guar l a b → Evolves T.lock same l (T.get a) (T.get b))
    (hw : ∀ t, (T.get (w t)).find? k = (T.get t).find? k)
    (hguar : ∀ L' v x, T.lock k ∈ L' → (T.get v).find? k = some x → cond x = true →
      (L ⊆ L' ∧ ∃ t, Rely Inv Guar L s t ∧ (T.get t).find? k = some x) →
      Guar L' v (T.modify k f v)) :
    Ensures Inv Guar (T.update k cond f check e) L w s fun b L' w' t =>
      (b = none ∧ w' = w ∧ ∃ t₁, Rely Inv Guar L s t₁ ∧ Rely Inv Guar L t₁ t ∧
          ∀ x, (T.get t₁).find? k = some x → cond x = false) ∨
        ∃ x, (T.get t).find? k = some x ∧ cond x = true ∧ check (f x) = true ∧
          b = some (f x) ∧ T.lock k ∈ L' ∧ w' = T.modify k f ∘ w := by
  unfold update
  apply (ensures_selectForUpdate hT hw).bind
  rintro b L' w' t ⟨rfl, hsome, hnone⟩ hr hL
  cases b with
  | none =>
    rw [ensures_done]
    intro t' ht'
    rcases hnone rfl with ⟨t₁, ht₁, ht, hfalse⟩
    exact Or.inl ⟨rfl, rfl, t₁, ht₁, ht.trans (ht'.mono hL), hfalse⟩
  | some x =>
    rcases hsome x rfl with ⟨hc, hx, hk⟩
    have hrow : ∀ t', Rely Inv Guar L' t t' → (T.get t').find? k = some x := by
      intro t' ht'
      rw [ht'.row hT hk, hx]
    by_cases hck : check (f x) = true
    · simp only [hck, if_true]
      rw [ensures_write]
      constructor
      · intro t' ht'
        exact hguar _ _ x hk (by rw [hw, hrow t' ht']) hc ⟨hL, t, hr, hx⟩
      · rw [ensures_done]
        intro t' ht'
        exact Or.inr ⟨x, hrow t' ht', hc, hck, rfl, hk, rfl⟩
    · simp only [hck, Bool.false_eq_true, if_false, ensures_raise]

theorem ensures_updateEach {cond : R → Bool} {f : R → R} {check : R → Bool} {e : ε} {ks : List K}
    (hnd : ks.Nodup)
    (hT : ∀ l a b, Guar l a b → Evolves T.lock same l (T.get a) (T.get b))
    (hw : ∀ k ∈ ks, ∀ t, (T.get (w t)).find? k = (T.get t).find? k)
    (hguar : ∀ L s k x, T.lock k ∈ L → (T.get s).find? k = some x → cond x = true →
      Guar L s (T.modify k f s)) :
    Ensures Inv Guar (T.updateEach cond f check e ks) L w s fun n L' w' t =>
      ∃ ds : List K, ds.Sublist ks ∧ w' = T.modifyAll ds f ∘ w ∧ n = ds.length ∧
        ∀ k ∈ ds, T.lock k ∈ L' ∧
          ∃ x, (T.get t).find? k = some x ∧ cond x = true ∧ check (f x) = true := by
  induction ks generalizing L w s with
  | nil =>
    rw [updateEach, ensures_done]
    intro t _
    exact ⟨[], List.Sublist.refl _, rfl, rfl, by simp⟩
  | cons k ks ih =>
    rw [List.nodup_cons] at hnd
    rw [updateEach]
    apply (ensures_update hT (hw k (by simp)) fun L s x hk hx hc _ => hguar L s k x hk hx hc).bind
    rintro b L₁ w₁ t₁ hb _ _
    have hw₁ : ∀ j ∈ ks, ∀ t, (T.get (w₁ t)).find? j = (T.get t).find? j := by
      intro j hj t
      rcases hb with ⟨-, rfl, -⟩ | ⟨x, -, -, -, -, -, rfl⟩
      · exact hw j (List.mem_cons_of_mem _ hj) t
      · have hne : j ≠ k := by
          rintro rfl
          exact hnd.1 hj
        rw [Function.comp_apply, get_modify, Table.find?_modify_of_ne _ _ hne]
        exact hw j (List.mem_cons_of_mem _ hj) t
    apply (ih hnd.2 hw₁).bind
    rintro n L₂ w₂ t₂ ⟨ds, hds, rfl, rfl, hall⟩ ht₂ hL₂
    rw [ensures_done]
    intro t₃ ht₃
    have hall₃ : ∀ j ∈ ds, T.lock j ∈ L₂ ∧
        ∃ x, (T.get t₃).find? j = some x ∧ cond x = true ∧ check (f x) = true := by
      intro j hj
      rcases hall j hj with ⟨hk, x, hx, hcx⟩
      exact ⟨hk, x, by rw [ht₃.row hT hk, hx], hcx⟩
    rcases hb with ⟨rfl, rfl, -⟩ | ⟨x, hx, hc, hck, rfl, hk, rfl⟩
    · exact ⟨ds, hds.cons _, rfl, by simp, hall₃⟩
    · refine ⟨k :: ds, hds.cons_cons _, rfl, by simp, ?_⟩
      intro j hj
      rcases List.mem_cons.mp hj with rfl | hj
      · -- the first row was locked before the others and is still as it was
        have hrow := (ht₂.trans (ht₃.mono hL₂)).row hT hk
        exact ⟨hL₂ hk, x, by rw [hrow, hx], hc, hck⟩
      · exact hall₃ j hj

/-- The probe of a unique index: a free entry stays free, and a taken one was taken at some time
since the start. -/
theorem ensures_conflict {entry : κ} {p : R → Bool}
    (hE : ∀ l a b, Guar l a b → Entered entry (fun x => p x = true) l (T.get a) (T.get b))
    (hw : ∀ t, T.get (w t) = T.get t) :
    Ensures Inv Guar (T.conflict entry p : Txn σ κ ε Bool) L w s fun b L' w' t =>
      w' = w ∧ entry ∈ L' ∧
        (b = false → ∀ k x, (T.get t).find? k = some x → p x = false) ∧
        (b = true → ∃ t₁, Rely Inv Guar L s t₁ ∧ Rely Inv Guar L t₁ t ∧
          ∃ k x, (T.get t₁).find? k = some x ∧ p x = true) := by
  unfold conflict
  rw [ensures_lock]
  intro t₀ ht₀
  rw [ensures_query]
  intro t₁ ht₁
  rw [ensures_done]
  intro t ht
  have hsub : L ⊆ L ++ [entry] := List.subset_append_left _ _
  have hentry : entry ∈ L ++ [entry] := by simp
  rw [hw]
  refine ⟨rfl, hentry, fun hb k x hx => ?_, fun hb => ?_⟩
  · rw [Table.any_rows_eq_false] at hb
    by_contra hp
    rw [Bool.not_eq_false] at hp
    rcases ht.entered hE hentry hx hp with ⟨y, hy, hpy⟩
    rw [hb k y hy] at hpy
    cases hpy
  · rw [List.any_eq_true] at hb
    rcases hb with ⟨⟨k, x⟩, hmem, hp⟩
    exact ⟨t₁, ht₀.trans (ht₁.mono hsub), ht.mono hsub, k, x, Table.mem_rows.mp hmem, hp⟩

omit [DecidableEq K] in
/-- The same, where only the lock of the entry matters. -/
theorem ensures_conflict_entry {entry : κ} {p : R → Bool} :
    Ensures Inv Guar (T.conflict entry p : Txn σ κ ε Bool) L w s fun _ L' w' _ =>
      w' = w ∧ entry ∈ L' := by
  unfold conflict
  rw [ensures_lock]
  intro t _
  rw [ensures_query]
  intro t' _
  rw [ensures_done]
  intro t'' _
  exact ⟨rfl, by simp⟩

theorem ensures_taken {k : K}
    (hT : ∀ l a b, Guar l a b → Evolves T.lock same l (T.get a) (T.get b))
    (hw : ∀ t, (T.get (w t)).find? k = none → (T.get t).find? k = none) :
    Ensures Inv Guar (T.taken k : Txn σ κ ε Bool) L w s fun b L' w' t =>
      w' = w ∧ T.lock k ∈ L' ∧ (b = false → (T.get t).find? k = none) := by
  unfold taken
  rw [ensures_lock]
  intro t _
  rw [ensures_query]
  intro t₁ _
  rw [ensures_done]
  intro t₂ ht₂
  have hk : T.lock k ∈ L ++ [T.lock k] := by simp
  refine ⟨rfl, hk, fun hb => ?_⟩
  rw [Option.isSome_eq_false_iff, Option.isNone_iff_eq_none] at hb
  rw [ht₂.row hT hk]
  exact hw t₁ hb

end Rules

end TableAt

end ReadCommitted
