import AiAgentsSwd.Keyed.Table
import Mathlib.Data.List.Sort

/-!
# Keyed.Sweep — sweeping a table with a limit

A pass of a sweep takes at most `limit` candidates, in whatever order, and sets those of them
that are due, with the stamp of the pass. It fails as a whole when a row that it would set fails
its check.

Main results:

- `pass_iff`: with room for every candidate, one pass sets all that is due exactly when every
  due row passes its check;
- `passes_iff`: with less room, passes in every order get there exactly when moreover the
  candidates that are not due leave room for one that is.
-/

namespace Keyed

variable {K R P : Type} [DecidableEq K]

namespace Table

/-- The first `n` keys of the rows that satisfy `p`, in the order of `rank`. -/
def selectLimit (t : Table K R) (p : R → Bool) (rank : K → Nat) (n : Nat) : List K :=
  (((t.rows.filter fun e => p e.2).map Prod.fst).insertionSort
    fun a b => rank a ≤ rank b).take n

/-- One update after the other. -/
def modifyAll (t : Table K R) (f : R → R) (ks : List K) : Table K R :=
  ks.foldl (fun t k => t.modify k f) t

theorem find?_modifyAll {ks : List K} (hnd : ks.Nodup) (t : Table K R) (f : R → R) (j : K) :
    (t.modifyAll f ks).find? j = if j ∈ ks then (t.find? j).map f else t.find? j := by
  induction ks generalizing t with
  | nil => simp [modifyAll]
  | cons k ks ih =>
    rw [List.nodup_cons] at hnd
    rw [show t.modifyAll f (k :: ks) = (t.modify k f).modifyAll f ks from rfl, ih hnd.2]
    by_cases hj : j = k
    · subst hj
      simp [hnd.1]
    · rw [find?_modify_of_ne _ _ hj]
      simp [hj]

omit [DecidableEq K] in
/-- The keys that a selection chooses from. -/
theorem perm_candidates (t : Table K R) (p : R → Bool) (rank : K → Nat) :
    (((t.rows.filter fun e => p e.2).map Prod.fst).insertionSort
      fun a b => rank a ≤ rank b).Perm ((t.rows.filter fun e => p e.2).map Prod.fst) :=
  List.perm_insertionSort _ _

omit [DecidableEq K] in
theorem nodup_selectLimit (t : Table K R) (p : R → Bool) (rank : K → Nat) (n : Nat) :
    (t.selectLimit p rank n).Nodup :=
  ((t.perm_candidates p rank).nodup_iff.mpr (t.nodup_keys_filter _)).sublist
    (List.take_sublist _ _)

theorem mem_candidates {t : Table K R} {p : R → Bool} {k : K} :
    k ∈ (t.rows.filter fun e => p e.2).map Prod.fst ↔ ∃ x, t.find? k = some x ∧ p x = true := by
  rw [List.mem_map]
  constructor
  · rintro ⟨⟨j, x⟩, he, rfl⟩
    rw [List.mem_filter] at he
    exact ⟨x, mem_rows.mp he.1, he.2⟩
  · rintro ⟨x, hx, hp⟩
    exact ⟨(k, x), List.mem_filter.mpr ⟨mem_rows.mpr hx, hp⟩, rfl⟩

theorem mem_selectLimit {t : Table K R} {p : R → Bool} {rank : K → Nat} {n : Nat} {k : K}
    (h : k ∈ t.selectLimit p rank n) : ∃ x, t.find? k = some x ∧ p x = true :=
  mem_candidates.mp ((t.perm_candidates p rank).mem_iff.mp (List.mem_of_mem_take h))

omit [DecidableEq K] in
theorem length_selectLimit (t : Table K R) (p : R → Bool) (rank : K → Nat) (n : Nat) :
    (t.selectLimit p rank n).length = min n (t.rows.countP fun e => p e.2) := by
  unfold selectLimit
  rw [List.length_take, (t.perm_candidates p rank).length_eq, List.length_map,
    List.countP_eq_length_filter]

/-- With room for all of them, every candidate is selected. -/
theorem mem_selectLimit_of_le {t : Table K R} {p : R → Bool} {rank : K → Nat} {n : Nat}
    (hn : (t.rows.countP fun e => p e.2) ≤ n) {k : K} {x : R} (hx : t.find? k = some x)
    (hp : p x = true) : k ∈ t.selectLimit p rank n := by
  unfold selectLimit
  rw [List.take_of_length_le]
  · exact (t.perm_candidates p rank).mem_iff.mpr (mem_candidates.mpr ⟨x, hx, hp⟩)
  · rw [(t.perm_candidates p rank).length_eq, List.length_map, ← List.countP_eq_length_filter]
    exact hn

/-- Fewer rows are counted where every counted row was one before and one no longer is. -/
theorem countP_rows_lt {s t : Table K R} {p q : R → Bool}
    (h : ∀ k y, t.find? k = some y → p y = true → ∃ x, s.find? k = some x ∧ q x = true)
    {j : K} {x : R} (hx : s.find? j = some x) (hq : q x = true)
    (hno : ∀ y, t.find? j = some y → p y = false) :
    t.rows.countP (fun e => p e.2) < s.rows.countP fun e => q e.2 := by
  have hnd : (j :: (t.rows.filter fun e => p e.2).map Prod.fst).Nodup := by
    rw [List.nodup_cons]
    refine ⟨fun hj => ?_, t.nodup_keys_filter _⟩
    rcases mem_candidates.mp hj with ⟨y, hy, hp⟩
    rw [hno y hy] at hp
    cases hp
  have hsub : (j :: (t.rows.filter fun e => p e.2).map Prod.fst) ⊆
      (s.rows.filter fun e => q e.2).map Prod.fst := by
    intro k hk
    rcases List.mem_cons.mp hk with rfl | hk
    · exact mem_candidates.mpr ⟨x, hx, hq⟩
    · rcases mem_candidates.mp hk with ⟨y, hy, hp⟩
      exact mem_candidates.mpr (h k y hy hp)
  have hlen := (List.subperm_of_subset hnd hsub).length_le
  simpa only [List.countP_eq_length_filter, List.length_cons, List.length_map,
    Nat.succ_le_iff] using hlen

end Table

open Table

/-- What a sweep looks for and does. A row that was set is no candidate again, and whether it
passes its check does not depend on the stamp. -/
structure Sweep (R P : Type) where
  candidate : R → Bool
  due : R → Bool
  set : P → R → R
  check : R → Bool
  candidate_of_due : ∀ x, due x = true → candidate x = true
  candidate_set : ∀ p x, candidate (set p x) = false
  check_set : ∀ p q x, check (set p x) = check (set q x)

namespace Sweep

variable (w : Sweep R P)

/-- The row may be set if it is due. -/
def fits (p : P) (x : R) : Bool := !w.due x || w.check (w.set p x)

/-- The candidate is not due. -/
def idle (x : R) : Bool := w.candidate x && !w.due x

/-- One pass. -/
def pass (limit : Nat) (rank : K → Nat) (p : P) (t : Table K R) : Option (Table K R) :=
  let ids := t.selectLimit w.candidate rank limit
  if ids.all fun k => (t.find? k).all (w.fits p) then
    some (t.modifyAll (w.set p) (ids.filter fun k => (t.find? k).any w.due))
  else none

/-- The first `n` passes, each in an order and with a stamp of its own. -/
def passes (limit : Nat) (ranks : Nat → K → Nat) (stamps : Nat → P) :
    Nat → Table K R → Option (Table K R)
  | 0, t => some t
  | n + 1, t => (passes limit ranks stamps n t).bind (w.pass limit (ranks n) (stamps n))

/-- What a due row may have become. -/
def IsSet (x y : R) : Prop := ∃ p, y = w.set p x

/-- The due row `x` may be set. -/
def Settable (x : R) : Prop := w.due x = true → ∀ p, w.check (w.set p x) = true

/-- Every due row has been set, and no other. -/
def Done (s t : Table K R) : Prop :=
  ∀ k, (s.find? k = none → t.find? k = none) ∧
    ∀ x, s.find? k = some x → ∃ y, t.find? k = some y ∧
      (w.due x = true → w.IsSet x y) ∧ (w.due x = false → y = x)

/-- Some due rows have been set, and no other. -/
def Between (s t : Table K R) : Prop :=
  ∀ k, t.find? k = s.find? k ∨
    ∃ x y, s.find? k = some x ∧ w.due x = true ∧ w.Settable x ∧ w.IsSet x y ∧
      t.find? k = some y

variable {w} {s t u : Table K R} {limit : Nat} {rank : K → Nat} {p : P}

theorem fits_iff {x : R} : w.fits p x = true ↔ w.Settable x := by
  have hall : w.Settable x ↔ (w.due x = true → w.check (w.set p x) = true) := by
    constructor
    · exact fun h hdue => h hdue p
    · intro h hdue q
      rw [w.check_set q p]
      exact h hdue
  rw [hall]
  unfold fits
  rw [Bool.or_eq_true, Bool.not_eq_true']
  cases w.due x <;> simp

/-- What a pass does to a row. -/
theorem find?_pass (h : w.pass limit rank p t = some u) (k : K) :
    u.find? k = if k ∈ t.selectLimit w.candidate rank limit ∧ (t.find? k).any w.due = true then
      (t.find? k).map (w.set p) else t.find? k := by
  unfold pass at h
  simp only [Option.ite_none_right_eq_some, Option.some.injEq] at h
  rw [← h.2, find?_modifyAll ((t.nodup_selectLimit _ _ _).filter _)]
  simp only [List.mem_filter]

/-- A pass succeeds when the rows it would set pass their checks. -/
theorem pass_succeeds : (∃ u, w.pass limit rank p t = some u) ↔
    ∀ k ∈ t.selectLimit w.candidate rank limit, ∀ x, t.find? k = some x → w.Settable x := by
  unfold pass
  constructor
  · intro h k hk x hx
    rcases h with ⟨u, hu⟩
    simp only [Option.ite_none_right_eq_some, List.all_eq_true] at hu
    have hfits := hu.1 k hk
    rw [hx, Option.all_some] at hfits
    exact fits_iff.mp hfits
  · intro h
    refine ⟨_, if_pos (List.all_eq_true.mpr fun k hk => ?_)⟩
    cases hx : t.find? k with
    | none => rfl
    | some x => exact fits_iff.mpr (h k hk x hx)

/-- A row that was set is no candidate. -/
theorem IsSet.candidate {x y : R} (h : w.IsSet x y) : w.candidate y = false := by
  rcases h with ⟨p, rfl⟩
  exact w.candidate_set p x

theorem IsSet.not_due {x y : R} (h : w.IsSet x y) : w.due y = false := by
  by_contra hdue
  rw [Bool.not_eq_false] at hdue
  have hcand := w.candidate_of_due y hdue
  rw [h.candidate] at hcand
  cases hcand

/-- A row that is due after some passes has been so from the start. -/
theorem Between.due (h : w.Between s t) {k : K} {x : R} (hx : t.find? k = some x)
    (hdue : w.due x = true) : s.find? k = some x := by
  rcases h k with heq | ⟨x', y, -, -, -, hset, hy⟩
  · rw [← heq, hx]
  · rw [hx, Option.some.injEq] at hy
    rw [hy, hset.not_due] at hdue
    cases hdue

theorem Between.pass (h : w.Between s t) (hp : w.pass limit rank p t = some u) :
    w.Between s u := by
  have hsucc := pass_succeeds.mp ⟨u, hp⟩
  intro k
  rw [find?_pass hp]
  by_cases hk : k ∈ t.selectLimit w.candidate rank limit ∧ (t.find? k).any w.due = true
  · rw [if_pos hk]
    rcases (Option.any_eq_true _ _).mp hk.2 with ⟨x, hx, hdue⟩
    exact Or.inr ⟨x, w.set p x, h.due hx hdue, hdue, hsucc k hk.1 x hx, ⟨p, rfl⟩, by rw [hx]; rfl⟩
  · rw [if_neg hk]
    exact h k

theorem Between.passes {ranks : Nat → K → Nat} {stamps : Nat → P} {n : Nat}
    (hp : w.passes limit ranks stamps n s = some u) : w.Between s u := by
  induction n generalizing u with
  | zero =>
    obtain rfl := Option.some.inj hp
    exact fun k => Or.inl rfl
  | succ n ih =>
    rcases Option.bind_eq_some_iff.mp hp with ⟨t, ht, hpass⟩
    exact (ih ht).pass hpass

/-- Candidates that are not due are left alone. -/
theorem Between.idle_iff (h : w.Between s t) {k : K} {x : R} :
    t.find? k = some x ∧ w.idle x = true ↔ s.find? k = some x ∧ w.idle x = true := by
  rcases h k with heq | ⟨z, y, hz, hdue, -, hset, hy⟩
  · rw [heq]
  · constructor
    · rintro ⟨hx, hidle⟩
      rw [hy, Option.some.injEq] at hx
      rw [← hx, idle, hset.candidate] at hidle
      cases hidle
    · rintro ⟨hx, hidle⟩
      rw [hz, Option.some.injEq] at hx
      rw [← hx, idle, hdue, Bool.not_true, Bool.and_false] at hidle
      cases hidle

theorem Between.count_idle (h : w.Between s t) :
    (t.rows.countP fun e => w.idle e.2) = s.rows.countP fun e => w.idle e.2 := by
  apply Nat.le_antisymm
  · exact countP_rows_le fun _ x hx hidle => ⟨x, h.idle_iff.mp ⟨hx, hidle⟩⟩
  · exact countP_rows_le fun _ x hx hidle => ⟨x, h.idle_iff.mpr ⟨hx, hidle⟩⟩

/-- When nothing is due any more, all that was due has been set. -/
theorem Between.done (h : w.Between s t) (hnone : ∀ k x, t.find? k = some x → w.due x = false) :
    w.Done s t := by
  intro k
  rcases h k with heq | ⟨x, y, hx, hdue, -, hset, hy⟩
  · rw [heq]
    refine ⟨fun h => h, fun x hx => ⟨x, hx, fun hdue => ?_, fun _ => rfl⟩⟩
    rw [hnone k x (by rw [heq, hx])] at hdue
    cases hdue
  · constructor
    · intro hnone
      rw [hx] at hnone
      cases hnone
    · intro x' hx'
      obtain rfl := Option.some.inj (hx.symm.trans hx')
      refine ⟨y, hy, fun _ => hset, fun hno => ?_⟩
      rw [hdue] at hno
      cases hno

/-- Not all is done while a due row is as it was. -/
theorem not_done {k : K} {x : R} (hx : s.find? k = some x) (hdue : w.due x = true)
    (hrow : t.find? k = s.find? k) : ¬ w.Done s t := by
  intro hdone
  rcases (hdone k).2 x hx with ⟨y, hy, hset, -⟩
  rw [hrow, hx, Option.some.injEq] at hy
  have hno := (hset hdue).not_due
  rw [← hy, hdue] at hno
  cases hno

theorem Between.settable_of_done (h : w.Between s t) (hdone : w.Done s t) {k : K} {x : R}
    (hx : s.find? k = some x) : w.Settable x := by
  intro hdue
  rcases h k with heq | ⟨y, _, hy, -, hcheck, -⟩
  · exact absurd hdone (not_done hx hdue heq)
  · rw [hx, Option.some.injEq] at hy
    rw [hy]
    exact hcheck (by rw [← hy]; exact hdue)

/-- With room for every candidate, one pass sets all that is due exactly when it may. -/
theorem pass_iff (hlimit : (t.rows.countP fun e => w.candidate e.2) ≤ limit) (p : P) :
    (∀ rank, ∃ u, w.pass limit rank p t = some u ∧ w.Done t u) ↔
      ∀ k x, t.find? k = some x → w.Settable x := by
  constructor
  · intro h k x hx
    rcases h fun _ => 0 with ⟨u, hu, hdone⟩
    have hbetween : w.Between t u := Between.pass (fun k => Or.inl rfl) hu
    exact hbetween.settable_of_done hdone hx
  · intro h rank
    rcases pass_succeeds.mpr fun k _ x hx => h k x hx with ⟨u, hu⟩
    have hbetween : w.Between t u := Between.pass (fun k => Or.inl rfl) hu
    refine ⟨u, hu, hbetween.done fun k x hx => ?_⟩
    by_contra hdue
    rw [Bool.not_eq_false] at hdue
    -- it was due before the pass, so the pass selected it
    have hbefore := hbetween.due hx hdue
    have hmem : k ∈ t.selectLimit w.candidate rank limit :=
      mem_selectLimit_of_le hlimit hbefore (w.candidate_of_due x hdue)
    rw [find?_pass hu, if_pos ⟨hmem, by rw [hbefore]; exact hdue⟩, hbefore, Option.map_some,
      Option.some.injEq] at hx
    have hset : w.IsSet x x := ⟨p, hx.symm⟩
    rw [hset.not_due] at hdue
    cases hdue

/-! ## Passes with less room -/

/-- Where there is room beside the idle candidates, a pass sets a due row. -/
theorem exists_selected_due (hroom : (t.rows.countP fun e => w.idle e.2) < limit) {j : K} {y : R}
    (hy : t.find? j = some y) (hdue : w.due y = true) :
    ∃ k ∈ t.selectLimit w.candidate rank limit, ∃ x, t.find? k = some x ∧ w.due x = true := by
  by_contra hno
  have hall : ∀ k ∈ t.selectLimit w.candidate rank limit,
      k ∈ (t.rows.filter fun e => w.idle e.2).map Prod.fst := by
    intro k hk
    rcases mem_selectLimit hk with ⟨x, hx, hcand⟩
    refine mem_candidates.mpr ⟨x, hx, ?_⟩
    have hnot : w.due x = false := by
      by_contra h
      rw [Bool.not_eq_false] at h
      exact hno ⟨k, hk, x, hx, h⟩
    simp [idle, hcand, hnot]
  -- so no more were selected than there are idle ones, and that is all there are
  have hle := (List.subperm_of_subset (t.nodup_selectLimit _ _ _) hall).length_le
  rw [length_selectLimit, List.length_map, ← List.countP_eq_length_filter] at hle
  have hlt : (t.rows.countP fun e => w.idle e.2) < t.rows.countP fun e => w.candidate e.2 := by
    refine countP_rows_lt (fun k x hx hidle => ⟨x, hx, ?_⟩) hy (w.candidate_of_due y hdue) ?_
    · exact (Bool.and_eq_true_iff.mp hidle).1
    · intro z hz
      rw [hy, Option.some.injEq] at hz
      rw [← hz, idle, hdue, Bool.not_true, Bool.and_false]
  omega

/-- Each pass sets a due row, until nothing is due. -/
theorem passes_progress {ranks : Nat → K → Nat} {stamps : Nat → P}
    (hcheck : ∀ k x, s.find? k = some x → w.Settable x)
    (hroom : (s.rows.countP fun e => w.idle e.2) < limit) (n : Nat) :
    ∃ t, w.passes limit ranks stamps n s = some t ∧
      ((∀ k x, t.find? k = some x → w.due x = false) ∨
        (t.rows.countP fun e => w.due e.2) + n ≤ s.rows.countP fun e => w.due e.2) := by
  induction n with
  | zero => exact ⟨s, rfl, Or.inr (Nat.le_refl _)⟩
  | succ n ih =>
    rcases ih with ⟨t, ht, hmeasure⟩
    have hbetween := Between.passes ht
    have hsucc : ∀ k ∈ t.selectLimit w.candidate (ranks n) limit, ∀ x, t.find? k = some x →
        w.Settable x :=
      fun k _ x hx hdue => hcheck k x (hbetween.due hx hdue) hdue
    rcases (pass_succeeds (p := stamps n)).mpr hsucc with ⟨u, hu⟩
    have hfrom : ∀ k x, u.find? k = some x → w.due x = true → t.find? k = some x :=
      fun k x hx hdue => (Between.pass (fun _ => Or.inl rfl) hu).due hx hdue
    refine ⟨u, Option.bind_eq_some_iff.mpr ⟨t, ht, hu⟩, ?_⟩
    by_cases hnone : ∀ k x, t.find? k = some x → w.due x = false
    · left
      intro k x hx
      by_contra hdue
      rw [Bool.not_eq_false] at hdue
      rw [hnone k x (hfrom k x hx hdue)] at hdue
      cases hdue
    · right
      have hle : (t.rows.countP fun e => w.due e.2) + n ≤ s.rows.countP fun e => w.due e.2 :=
        hmeasure.resolve_left hnone
      simp only [not_forall, Bool.not_eq_false] at hnone
      rcases hnone with ⟨j, y, hy, hdue⟩
      have hroom' : (t.rows.countP fun e => w.idle e.2) < limit :=
        by rw [hbetween.count_idle]; exact hroom
      rcases exists_selected_due hroom' hy hdue with ⟨k, hk, x, hx, hkdue⟩
      have hlt : (u.rows.countP fun e => w.due e.2) < t.rows.countP fun e => w.due e.2 := by
        refine countP_rows_lt (fun i z hz hzdue => ⟨z, hfrom i z hz hzdue, hzdue⟩) hx hkdue ?_
        intro z hz
        rw [find?_pass hu, if_pos ⟨hk, by rw [hx]; exact hkdue⟩, hx, Option.map_some,
          Option.some.injEq] at hz
        exact IsSet.not_due ⟨_, hz.symm⟩
      omega

omit [DecidableEq K] in
/-- The first `n` of a sorted list are of rank zero if at least `n` are. -/
theorem rank_take_eq_zero {l : List K} (hs : l.Pairwise fun a b => rank a ≤ rank b) {n : Nat}
    (hn : n ≤ l.countP fun a => rank a == 0) {k : K} (hk : k ∈ l.take n) : rank k = 0 := by
  induction l generalizing n with
  | nil => simp at hk
  | cons a l ih =>
    cases n with
    | zero => simp at hk
    | succ n =>
      rw [List.pairwise_cons] at hs
      have ha : rank a = 0 := by
        by_contra hne
        -- what follows is ranked no lower, so nothing is of rank zero
        have hnone : (a :: l).countP (fun a => rank a == 0) = 0 := by
          rw [List.countP_eq_zero]
          intro b hb
          rcases List.mem_cons.mp hb with rfl | hb
          · simpa using hne
          · have hle := hs.1 b hb
            simp only [beq_iff_eq]
            omega
        omega
      rw [List.take_succ_cons, List.mem_cons] at hk
      rcases hk with rfl | hk
      · exact ha
      · refine ih hs.2 ?_ hk
        rw [List.countP_cons] at hn
        simp only [ha, beq_self_eq_true, if_true] at hn
        omega

/-- An order that puts the idle candidates first. -/
def idleFirst (w : Sweep R P) (t : Table K R) (k : K) : Nat :=
  if (t.find? k).any w.idle then 0 else 1

/-- Without room beside the idle candidates, a pass in that order sets nothing. -/
theorem pass_idleFirst (hfull : limit ≤ t.rows.countP fun e => w.idle e.2) :
    ∃ u, w.pass limit (w.idleFirst t) p t = some u ∧ ∀ k, u.find? k = t.find? k := by
  have hidle : ∀ k ∈ t.selectLimit w.candidate (w.idleFirst t) limit, ∀ x, t.find? k = some x →
      w.due x = false := by
    intro k hk x hx
    have hsorted := List.pairwise_insertionSort
      (fun a b => w.idleFirst t a ≤ w.idleFirst t b)
      ((t.rows.filter fun e => w.candidate e.2).map Prod.fst)
    have hzero : w.idleFirst t k = 0 := by
      refine rank_take_eq_zero hsorted ?_ hk
      rw [(t.perm_candidates w.candidate _).countP_eq]
      refine Nat.le_trans hfull ?_
      rw [List.countP_map, List.countP_filter]
      refine List.countP_mono_left fun e he hei => ?_
      have hrow : t.find? e.1 = some e.2 := mem_rows.mp he
      simp only [Function.comp_apply, idleFirst, hrow, Option.any_some, hei, if_true,
        beq_self_eq_true, Bool.true_and]
      exact (Bool.and_eq_true_iff.mp hei).1
    unfold idleFirst at hzero
    rw [hx, Option.any_some] at hzero
    split_ifs at hzero with h
    rw [idle, Bool.and_eq_true, Bool.not_eq_true'] at h
    exact h.2
  have hsucc : ∀ k ∈ t.selectLimit w.candidate (w.idleFirst t) limit, ∀ x, t.find? k = some x →
      w.Settable x := by
    intro k hk x hx hdue
    rw [hidle k hk x hx] at hdue
    cases hdue
  rcases (pass_succeeds (p := p)).mpr hsucc with ⟨u, hu⟩
  refine ⟨u, hu, fun k => ?_⟩
  rw [find?_pass hu]
  by_cases hk : k ∈ t.selectLimit w.candidate (w.idleFirst t) limit ∧
    (t.find? k).any w.due = true
  · rcases (Option.any_eq_true _ _).mp hk.2 with ⟨x, hx, hdue⟩
    rw [hidle k hk.1 x hx] at hdue
    cases hdue
  · rw [if_neg hk]

theorem Between.idleFirst (h : w.Between s t) : w.idleFirst t = w.idleFirst s := by
  funext k
  have hiff : (t.find? k).any w.idle = true ↔ (s.find? k).any w.idle = true := by
    rw [Option.any_eq_true, Option.any_eq_true]
    exact exists_congr fun _ => h.idle_iff
  unfold Sweep.idleFirst
  simp only [hiff]

/-- Nor do any number of passes in that order. -/
theorem passes_idleFirst (hfull : limit ≤ s.rows.countP fun e => w.idle e.2)
    {stamps : Nat → P} {n : Nat}
    (hp : w.passes limit (fun _ => w.idleFirst s) stamps n s = some u) (k : K) :
    u.find? k = s.find? k := by
  induction n generalizing u with
  | zero =>
    obtain rfl := Option.some.inj hp
    rfl
  | succ n ih =>
    rcases Option.bind_eq_some_iff.mp hp with ⟨t, ht, hpass⟩
    have hbetween := Between.passes ht
    rw [← hbetween.count_idle] at hfull
    rcases pass_idleFirst (p := stamps n) hfull with ⟨v, hv, hsame⟩
    rw [hbetween.idleFirst, hpass, Option.some.injEq] at hv
    rw [hv, hsame k, ih ht]

/-- Passes in every order set all that is due exactly when every due row passes its check and
the idle candidates leave room for one that is. -/
theorem passes_iff [Inhabited P] :
    (∀ (ranks : Nat → K → Nat) (stamps : Nat → P), ∃ n u,
        w.passes limit ranks stamps n s = some u ∧ w.Done s u) ↔
      (∀ k x, s.find? k = some x → w.Settable x) ∧
        ((∀ k x, s.find? k = some x → w.due x = false) ∨
          (s.rows.countP fun e => w.idle e.2) < limit) := by
  constructor
  · intro h
    constructor
    · intro k x hx
      rcases h (fun _ _ => 0) default with ⟨n, u, hu, hdone⟩
      exact (Between.passes hu).settable_of_done hdone hx
    · by_contra hno
      rw [not_or, Nat.not_lt] at hno
      rcases h (fun _ => w.idleFirst s) default with ⟨n, u, hu, hdone⟩
      refine hno.1 fun k x hx => ?_
      by_contra hdue
      rw [Bool.not_eq_false] at hdue
      exact not_done hx hdue (passes_idleFirst hno.2 hu k) hdone
  · rintro ⟨hcheck, hroom⟩ ranks stamps
    rcases hroom with hnone | hroom
    · refine ⟨0, s, rfl, ?_⟩
      exact Between.done (fun _ => Or.inl rfl) hnone
    · -- one pass for each due row, and one more
      rcases passes_progress hcheck hroom ((s.rows.countP fun e => w.due e.2) + 1)
        with ⟨t, ht, hmeasure⟩
      refine ⟨_, t, ht, (Between.passes ht).done ?_⟩
      rcases hmeasure with hnone | hle
      · exact hnone
      · omega

end Sweep

end Keyed
