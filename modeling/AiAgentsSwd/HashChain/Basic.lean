import Mathlib.Data.List.Basic
import Mathlib.Data.List.Induction
import Mathlib.Tactic.Common

/-!
# HashChain.Basic — lists of entries linked by hashes

An entry has a sequence number, a hash of its own and the hash of the entry before it.
A list of entries is *linked* from a point `(n, h)` when the sequence numbers follow
`n`, every entry is valid by itself, and every entry but one numbered at most 1 names the
hash of the entry before it, the first one naming `h`.

- `Scheme.firstBroken`: the walk that finds the first entry where the chain breaks;
- `Scheme.linked_append`: a chain is linked when its parts are, end to end;
- `Scheme.linked_iff_follows`: a chain is linked when no entry of it breaks it;
- `Scheme.Linked.seq_getElem`: the sequence numbers of a linked chain are consecutive.
-/

namespace HashChain

/-- How to read an entry. -/
structure Scheme (α H : Type) where
  seq : α → Int
  prev : α → Option H
  hash : α → H
  valid : α → Bool

namespace Scheme

variable {α H : Type} [DecidableEq H] (S : Scheme α H)

/-- The entry may follow the point `(n, h)`. -/
def follows (n : Int) (h : Option H) (a : α) : Bool :=
  decide (S.seq a = n + 1) && S.valid a && (decide (S.seq a ≤ 1) || decide (S.prev a = h))

/-- The first entry where the chain breaks. -/
def firstBroken : Int → Option H → List α → Option α
  | _, _, [] => none
  | n, h, a :: as =>
    if S.follows n h a then firstBroken (S.seq a) (some (S.hash a)) as else some a

/-- No entry breaks the chain. -/
def Linked (n : Int) (h : Option H) (as : List α) : Prop := S.firstBroken n h as = none

instance (n : Int) (h : Option H) (as : List α) : Decidable (S.Linked n h as) :=
  decidable_of_iff ((S.firstBroken n h as).isNone = true) Option.isNone_iff_eq_none

/-- The sequence number at the end of a list that starts after `n`. -/
def endSeq (n : Int) (as : List α) : Int := (as.getLast?.map S.seq).getD n

/-- The hash at the end of a list that starts after `h`. -/
def endHash (h : Option H) (as : List α) : Option H :=
  match as.getLast? with
  | none => h
  | some a => some (S.hash a)

variable {S} {n : Int} {h : Option H} {a : α} {as bs : List α}

omit [DecidableEq H] in
@[simp] theorem endSeq_nil : S.endSeq n [] = n := rfl

omit [DecidableEq H] in
@[simp] theorem endHash_nil : S.endHash h [] = h := rfl

omit [DecidableEq H] in
@[simp] theorem endSeq_cons : S.endSeq n (a :: as) = S.endSeq (S.seq a) as := by
  cases as <;> simp [endSeq, List.getLast?_cons]

omit [DecidableEq H] in
@[simp] theorem endHash_cons : S.endHash h (a :: as) = S.endHash (some (S.hash a)) as := by
  cases as <;> simp [endHash, List.getLast?_cons]

theorem follows_iff :
    S.follows n h a = true ↔ S.seq a = n + 1 ∧ S.valid a = true ∧ (1 < S.seq a → S.prev a = h) := by
  unfold follows
  rw [Bool.and_eq_true, Bool.and_eq_true, Bool.or_eq_true, decide_eq_true_eq, decide_eq_true_eq,
    decide_eq_true_eq, and_assoc]
  refine and_congr_right fun _ => and_congr_right fun _ => ?_
  constructor
  · rintro (hle | heq) hlt
    · omega
    · exact heq
  · intro himp
    by_cases hle : S.seq a ≤ 1
    · exact Or.inl hle
    · exact Or.inr (himp (by omega))

@[simp] theorem linked_nil : S.Linked n h [] := rfl

theorem linked_cons :
    S.Linked n h (a :: as) ↔ S.follows n h a = true ∧ S.Linked (S.seq a) (some (S.hash a)) as := by
  unfold Linked
  rw [firstBroken]
  by_cases hf : S.follows n h a = true
  · rw [if_pos hf]
    exact ⟨fun hl => ⟨hf, hl⟩, fun hl => hl.2⟩
  · rw [if_neg hf]
    constructor
    · intro hl
      cases hl
    · intro hl
      exact absurd hl.1 hf

/-- **A chain is linked when its parts are, end to end.** -/
theorem linked_append :
    S.Linked n h (as ++ bs) ↔ S.Linked n h as ∧ S.Linked (S.endSeq n as) (S.endHash h as) bs := by
  induction as generalizing n h with
  | nil => simp
  | cons a as ih =>
    rw [List.cons_append, linked_cons, linked_cons, ih, endSeq_cons, endHash_cons, and_assoc]

/-- A chain is linked when no entry of it breaks it. -/
theorem linked_iff_follows :
    S.Linked n h as ↔ ∀ bs a cs, as = bs ++ a :: cs →
      S.follows (S.endSeq n bs) (S.endHash h bs) a = true := by
  constructor
  · rintro hl bs a cs rfl
    exact (linked_cons.mp (linked_append.mp hl).2).1
  · intro hall
    induction as generalizing n h with
    | nil => exact linked_nil
    | cons b as ih =>
      refine linked_cons.mpr ⟨hall [] b as rfl, ih fun bs a cs heq => ?_⟩
      have hf := hall (b :: bs) a cs (by rw [heq, List.cons_append])
      rwa [endSeq_cons, endHash_cons] at hf

/-- The first break lies after a linked part. -/
theorem firstBroken_eq_some :
    S.firstBroken n h as = some a ↔
      ∃ bs cs, as = bs ++ a :: cs ∧ S.Linked n h bs ∧
        S.follows (S.endSeq n bs) (S.endHash h bs) a = false := by
  induction as generalizing n h with
  | nil => simp [firstBroken]
  | cons b as ih =>
    rw [firstBroken]
    by_cases hf : S.follows n h b = true
    · rw [if_pos hf, ih]
      constructor
      · rintro ⟨bs, cs, rfl, hl, hb⟩
        refine ⟨b :: bs, cs, rfl, linked_cons.mpr ⟨hf, hl⟩, ?_⟩
        rw [endSeq_cons, endHash_cons]
        exact hb
      · rintro ⟨bs, cs, heq, hl, hb⟩
        cases bs with
        | nil =>
          obtain ⟨rfl, rfl⟩ := List.cons.inj heq
          have hb' : S.follows n h b = false := hb
          rw [hf] at hb'
          cases hb'
        | cons b' bs =>
          obtain ⟨rfl, rfl⟩ := List.cons.inj heq
          rw [endSeq_cons, endHash_cons] at hb
          exact ⟨bs, cs, rfl, (linked_cons.mp hl).2, hb⟩
    · rw [if_neg hf]
      constructor
      · intro hab
        obtain rfl := Option.some.inj hab
        exact ⟨[], as, rfl, linked_nil, by simpa using hf⟩
      · rintro ⟨bs, cs, heq, hl, hb⟩
        cases bs with
        | nil => rw [(List.cons.inj heq).1]
        | cons b' bs =>
          obtain ⟨rfl, rfl⟩ := List.cons.inj heq
          exact absurd (linked_cons.mp hl).1 hf

/-- A chain breaks first at one place only. -/
theorem break_unique {bs' cs cs' : List α} {a' : α} (heq : bs ++ a :: cs = bs' ++ a' :: cs')
    (hl : S.Linked n h bs) (ha : S.follows (S.endSeq n bs) (S.endHash h bs) a = false)
    (hl' : S.Linked n h bs') (ha' : S.follows (S.endSeq n bs') (S.endHash h bs') a' = false) :
    bs = bs' ∧ a = a' := by
  have hshorter : ∀ {xs ys zs : List α} {x : α}, S.Linked n h xs → xs = ys ++ x :: zs →
      S.follows (S.endSeq n ys) (S.endHash h ys) x = false → False := by
    rintro xs ys zs x hx rfl hf
    have hcons := (linked_append.mp hx).2
    rw [linked_cons, hf] at hcons
    cases hcons.1
  rcases List.append_eq_append_iff.mp heq with ⟨ds, hds, hcs⟩ | ⟨ds, hds, hcs⟩
  · cases ds with
    | nil =>
      rw [List.append_nil] at hds
      exact ⟨hds.symm, (List.cons.inj hcs).1⟩
    | cons d ds =>
      obtain ⟨rfl, -⟩ := List.cons.inj hcs
      exact (hshorter hl' hds ha).elim
  · cases ds with
    | nil =>
      rw [List.append_nil] at hds
      exact ⟨hds, (List.cons.inj hcs).1.symm⟩
    | cons d ds =>
      obtain ⟨rfl, -⟩ := List.cons.inj hcs
      exact (hshorter hl hds ha').elim

omit [DecidableEq H] in
/-- Past the first entry there is a hash to name. -/
theorem endHash_ne_none (has : as ≠ []) : S.endHash h as ≠ none := by
  unfold endHash
  rw [List.getLast?_eq_getLast_of_ne_nil has]
  simp

/-- **The sequence numbers of a linked chain are consecutive.** -/
theorem Linked.seq_getElem (hl : S.Linked n h as) (i : Nat) (hi : i < as.length) :
    S.seq as[i] = n + 1 + i := by
  induction as generalizing n h i with
  | nil => simp at hi
  | cons a as ih =>
    obtain ⟨hf, hl⟩ := linked_cons.mp hl
    obtain ⟨hseq, -, -⟩ := follows_iff.mp hf
    cases i with
    | zero =>
      show S.seq a = n + 1 + ((0 : Nat) : Int)
      omega
    | succ i =>
      have hi' : i < as.length := by simpa using hi
      have hrec := ih hl i hi'
      show S.seq as[i] = n + 1 + ((i + 1 : Nat) : Int)
      omega

/-- Every entry numbered above 1 names the hash of the one before it. -/
theorem Linked.prev_getElem (hl : S.Linked n h as) (i : Nat) (hi : i + 1 < as.length)
    (hlt : 1 < S.seq as[i + 1]) :
    S.prev as[i + 1] = some (S.hash (as.get ⟨i, by omega⟩)) := by
  induction as generalizing n h i with
  | nil => simp at hi
  | cons a as ih =>
    obtain ⟨-, hl⟩ := linked_cons.mp hl
    cases i with
    | zero =>
      cases as with
      | nil => simp at hi
      | cons b as =>
        obtain ⟨hf, -⟩ := linked_cons.mp hl
        exact (follows_iff.mp hf).2.2 hlt
    | succ i => exact ih hl i (by simpa using hi) hlt

theorem Linked.valid (hl : S.Linked n h as) : ∀ a ∈ as, S.valid a = true := by
  induction as generalizing n h with
  | nil => simp
  | cons b as ih =>
    obtain ⟨hf, hl⟩ := linked_cons.mp hl
    intro a ha
    rcases List.mem_cons.mp ha with rfl | ha
    · exact (follows_iff.mp hf).2.1
    · exact ih hl a ha

theorem Linked.lt_seq (hl : S.Linked n h as) : ∀ a ∈ as, n < S.seq a := by
  intro a ha
  obtain ⟨i, hi, rfl⟩ := List.mem_iff_getElem.mp ha
  have hs := hl.seq_getElem i hi
  omega

/-- A linked chain is in the order of its sequence numbers. -/
theorem Linked.pairwise (hl : S.Linked n h as) : as.Pairwise fun a b => S.seq a < S.seq b := by
  induction as generalizing n h with
  | nil => exact List.Pairwise.nil
  | cons a as ih =>
    obtain ⟨-, hl⟩ := linked_cons.mp hl
    exact List.Pairwise.cons (fun b hb => hl.lt_seq b hb) (ih hl)

theorem Linked.endSeq (hl : S.Linked n h as) : S.endSeq n as = n + as.length := by
  induction as generalizing n h with
  | nil => simp
  | cons a as ih =>
    obtain ⟨hf, hl⟩ := linked_cons.mp hl
    obtain ⟨hseq, -, -⟩ := follows_iff.mp hf
    rw [endSeq_cons, ih hl, List.length_cons]
    omega

end Scheme

end HashChain
