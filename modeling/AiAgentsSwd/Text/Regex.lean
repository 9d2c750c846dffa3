import Mathlib.Data.List.Basic

/-!
# Text.Regex — searching a text for a pattern

Patterns made of classes of characters, repeated classes, alternatives and word boundaries.
Nothing is repeated but a class, so that a search is structural recursion: over the pattern, and
over the text where a class is repeated. A search only tells whether there is a match, so the
order in which alternatives are tried makes no difference.
-/

namespace AiAgentsSwd.Text

/-- A pattern. -/
inductive Regex where
  | empty
  | char (p : Char → Bool)
  | many (p : Char → Bool)
  | seq (r s : Regex)
  | alt (r s : Regex)
  | boundary (isWord : Char → Bool)

namespace Regex

/-- What is asked of the rest of the text: the character before it is known too. -/
abbrev Rest := Option Char → List Char → Bool

/-- As many characters of the class as the rest leaves. -/
def runMany (p : Char → Bool) (k : Rest) : Option Char → List Char → Bool
  | before, [] => k before []
  | before, c :: s => k before (c :: s) || (p c && runMany p k (some c) s)

/-- The pattern matches at the start of the text, and then the rest does. -/
def run : Regex → Option Char → List Char → Rest → Bool
  | empty, before, s, k => k before s
  | char _, _, [], _ => false
  | char p, _, c :: s, k => p c && k (some c) s
  | many p, before, s, k => runMany p k before s
  | seq r r', before, s, k => r.run before s fun before s => r'.run before s k
  | alt r r', before, s, k => r.run before s k || r'.run before s k
  | boundary isWord, before, s, k => (before.any isWord != s.head?.any isWord) && k before s

/-- The pattern matches somewhere from here on. -/
def searchFrom (r : Regex) : Option Char → List Char → Bool
  | before, [] => r.run before [] fun _ _ => true
  | before, c :: s => r.run before (c :: s) (fun _ _ => true) || r.searchFrom (some c) s

/-- The pattern matches somewhere. -/
def search (r : Regex) (s : List Char) : Bool := r.searchFrom none s

/-- The characters of a text one after the other, each matched as `m` says. -/
def literal (m : Char → Char → Bool) (s : String) : Regex :=
  s.toList.foldr (fun c r => .seq (.char (m c)) r) .empty

/-- `n` characters of the class. -/
def times (p : Char → Bool) : Nat → Regex
  | 0 => .empty
  | n + 1 => .seq (.char p) (times p n)

/-- `n` characters of the class or more. -/
def atLeast (p : Char → Bool) (n : Nat) : Regex := .seq (times p n) (.many p)

/-- One of the patterns. -/
def oneOf : Regex → List Regex → Regex
  | r, [] => r
  | r, s :: rs => .alt r (oneOf s rs)

/-- One after the other. -/
def sequence : List Regex → Regex
  | [] => .empty
  | r :: rs => .seq r (sequence rs)

/-- The pattern takes a character at least. -/
def consumes : Regex → Bool
  | empty => false
  | char _ => true
  | many _ => false
  | seq r s => r.consumes || s.consumes
  | alt r s => r.consumes && s.consumes
  | boundary _ => false

/-- A pattern leaves of an empty text what it found of it, nothing. -/
theorem run_nil_of_rest {r : Regex} {before : Option Char} {k : Rest}
    (hk : ∀ before, k before [] = false) : r.run before [] k = false := by
  induction r generalizing before k with
  | empty => exact hk before
  | char p => rfl
  | many p => exact hk before
  | seq r s ihr ihs => exact ihr fun before => ihs hk
  | alt r s ihr ihs =>
    show (r.run before [] k || s.run before [] k) = false
    rw [ihr hk, ihs hk, Bool.or_false]
  | boundary isWord =>
    show (_ && k before []) = false
    rw [hk, Bool.and_false]

/-- A pattern that takes a character does not match at the end of a text. -/
theorem run_nil {r : Regex} (h : r.consumes = true) {before : Option Char} {k : Rest} :
    r.run before [] k = false := by
  induction r generalizing before k with
  | empty => cases h
  | char p => rfl
  | many p => cases h
  | boundary isWord => cases h
  | seq r s ihr ihs =>
    by_cases hr : r.consumes = true
    · exact ihr hr
    · have hs : s.consumes = true := by
        simpa [consumes, hr] using h
      show r.run before [] (fun before t => s.run before t k) = false
      exact run_nil_of_rest fun before => ihs hs
  | alt r s ihr ihs =>
    have hboth : r.consumes = true ∧ s.consumes = true := by
      simpa [consumes] using h
    show (r.run before [] k || s.run before [] k) = false
    rw [ihr hboth.1, ihs hboth.2, Bool.or_false]

theorem search_nil {r : Regex} (h : r.consumes = true) : r.search [] = false := run_nil h

end Regex

end AiAgentsSwd.Text
