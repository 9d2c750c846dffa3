import Mathlib.Data.Bool.AllAny
import Mathlib.Data.List.Basic
import Mathlib.Tactic.Common

/-!
# Text.Decimal — integers as texts

`str(i)` and `int(text)` of the standard library. `int` takes the decimal digits of every script,
a sign, and single underscores between digits; what `str` writes it reads back (`intOf_strOf`).
-/

namespace AiAgentsSwd.Text

/-- The zeros of the scripts that have decimal digits: the ten digits of a script follow each
other. -/
def zeros : List Nat := [
  0x30, 0x660, 0x6f0, 0x7c0, 0x966, 0x9e6, 0xa66, 0xae6, 0xb66, 0xbe6, 0xc66, 0xce6, 0xd66, 0xde6,
  0xe50, 0xed0, 0xf20, 0x1040, 0x1090, 0x17e0, 0x1810, 0x1946, 0x19d0, 0x1a80, 0x1a90, 0x1b50,
  0x1bb0, 0x1c40, 0x1c50, 0xa620, 0xa8d0, 0xa900, 0xa9d0, 0xa9f0, 0xaa50, 0xabf0, 0xff10, 0x104a0,
  0x10d30, 0x11066, 0x110f0, 0x11136, 0x111d0, 0x112f0, 0x11450, 0x114d0, 0x11650, 0x116c0, 0x11730,
  0x118e0, 0x11950, 0x11c50, 0x11d50, 0x11da0, 0x16a60, 0x16ac0, 0x16b50, 0x1d7ce, 0x1d7d8, 0x1d7e2,
  0x1d7ec, 0x1d7f6, 0x1e140, 0x1e2f0, 0x1e950, 0x1fbf0]

/-- `unicodedata.decimal(c)` -/
def decimalOf (c : Char) : Option Nat :=
  (zeros.find? fun z => decide (z ≤ c.toNat ∧ c.toNat < z + 10)).map (c.toNat - ·)

/-- The digits of an integer without a sign. -/
def natOf (s : List Char) : Option Nat :=
  -- an underscore stands between two digits
  if (s.splitOn '_').all (· ≠ []) then
    ((s.filter (· ≠ '_')).mapM decimalOf).map fun digits => digits.foldl (fun n d => 10 * n + d) 0
  else none

/-- `int(s)` of a text without white space around it: none where it raises `ValueError`. -/
def intOf : List Char → Option Int
  | '-' :: s => (natOf s).map fun n : Nat => -(n : Int)
  | '+' :: s => (natOf s).map fun n : Nat => (n : Int)
  | s => (natOf s).map fun n : Nat => (n : Int)

/-- `str(i)` -/
def strOf (i : Int) : List Char :=
  if i < 0 then '-' :: Nat.toDigits 10 i.natAbs else Nat.toDigits 10 i.natAbs

/-! ## What is written is read back -/

/-- The digits that are written. -/
def asciiDigits : List Char := "0123456789".toList

theorem digitChar_mem : ∀ d < 10, Nat.digitChar d ∈ asciiDigits := by
  decide

theorem mem_toDigits {c : Char} {n : Nat} (h : c ∈ Nat.toDigits 10 n) : c ∈ asciiDigits := by
  induction n using Nat.base_induction 10 (by omega) with
  | single m hm =>
    rw [Nat.toDigits_of_lt_base hm, List.mem_singleton] at h
    rw [h]
    exact digitChar_mem m hm
  | digit m k hk hm ih =>
    rw [← Nat.toDigits_append_toDigits (by omega) hm hk, List.mem_append] at h
    rcases h with h | h
    · exact ih h
    · rw [Nat.toDigits_of_lt_base hk, List.mem_singleton] at h
      rw [h]
      exact digitChar_mem k hk

theorem decimalOf_digit : ∀ c ∈ asciiDigits, decimalOf c = some (c.toNat - 48) :=
  List.all_iff_forall_prop.mp (by decide +kernel)

theorem mapM_decimalOf {s : List Char} (h : ∀ c ∈ s, c ∈ asciiDigits) :
    s.mapM decimalOf = some (s.map fun c => c.toNat - 48) := by
  induction s with
  | nil => rfl
  | cons c s ih =>
    rw [List.forall_mem_cons] at h
    rw [List.mapM_cons, decimalOf_digit c h.1, ih h.2]
    rfl

theorem natOf_toDigits (n : Nat) : natOf (Nat.toDigits 10 n) = some n := by
  have hdigit : ∀ c ∈ Nat.toDigits 10 n, c ∈ asciiDigits := fun c hc => mem_toDigits hc
  have hbare : ∀ c ∈ Nat.toDigits 10 n, c ≠ '_' := by
    intro c hc heq
    have hmem : '_' ∈ asciiDigits := heq ▸ hdigit c hc
    revert hmem
    decide
  have hsplit : (Nat.toDigits 10 n).splitOn '_' = [Nat.toDigits 10 n] :=
    List.splitOn_eq_singleton fun hmem => hbare _ hmem rfl
  have hall : ((Nat.toDigits 10 n).splitOn '_').all (· ≠ []) = true := by
    rw [hsplit]
    simp [Nat.toDigits_ne_nil]
  have hfilter : (Nat.toDigits 10 n).filter (· ≠ '_') = Nat.toDigits 10 n := by
    rw [List.filter_eq_self]
    intro c hc
    exact decide_eq_true (hbare c hc)
  rw [natOf, if_pos hall, hfilter, mapM_decimalOf hdigit, Option.map_some, List.foldl_map]
  exact congrArg some Nat.ofDigitChars_ten_toDigits

theorem mem_strOf {c : Char} {i : Int} (h : c ∈ strOf i) : c = '-' ∨ c ∈ asciiDigits := by
  unfold strOf at h
  split at h
  · rcases List.mem_cons.mp h with h | h
    · exact Or.inl h
    · exact Or.inr (mem_toDigits h)
  · exact Or.inr (mem_toDigits h)

/-- A text of digits has no sign. -/
theorem intOf_of_digits {s : List Char} (h : ∀ c ∈ s, c ∈ asciiDigits) :
    intOf s = (natOf s).map fun n : Nat => (n : Int) := by
  have hsign : '-' ∉ asciiDigits ∧ '+' ∉ asciiDigits := by
    decide
  unfold intOf
  split
  · exact absurd (h _ List.mem_cons_self) hsign.1
  · exact absurd (h _ List.mem_cons_self) hsign.2
  · rfl

theorem intOf_strOf (i : Int) : intOf (strOf i) = some i := by
  unfold strOf
  by_cases hneg : i < 0
  · rw [if_pos hneg]
    show (natOf (Nat.toDigits 10 i.natAbs)).map (fun n : Nat => -(n : Int)) = some i
    rw [natOf_toDigits, Option.map_some]
    exact congrArg some (by omega)
  · rw [if_neg hneg, intOf_of_digits fun c hc => mem_toDigits hc, natOf_toDigits, Option.map_some]
    exact congrArg some (by omega)

end AiAgentsSwd.Text
