import AiAgentsSwd.Json.Basic
import Mathlib.Data.List.Basic
import Mathlib.Tactic.Common

/-!
# Json.Loads — `json.loads`

Reading a JSON text. A text that Python refuses with a `ValueError` reads as `none`. The
conversion of a number with a fraction or an exponent to a float is a parameter.

The readers run on fuel, one unit a character: each of them reads at least one, so that the fuel
`loads` gives them never runs out.
-/

namespace Json

/-- A reader of the front of a text: what it denotes and what is left of the text. -/
abbrev Reader (α : Type) := List Char → Option (α × List Char)

/-! ## Strings and numbers -/

/-- `WHITESPACE`. -/
def isSpace (c : Char) : Bool := c = ' ' || c = '\t' || c = '\n' || c = '\r'

def skipSpace (cs : List Char) : List Char := cs.dropWhile isSpace

def hexDigit? (c : Char) : Option Nat :=
  if c.isDigit then some (c.toNat - '0'.toNat)
  else if 'a' ≤ c ∧ c ≤ 'f' then some (c.toNat - 'a'.toNat + 10)
  else if 'A' ≤ c ∧ c ≤ 'F' then some (c.toNat - 'A'.toNat + 10)
  else none

/-- The code unit of four hexadecimal digits. -/
def codeUnit? : Reader Nat
  | a :: b :: c :: d :: rest => do
    let a ← hexDigit? a
    let b ← hexDigit? b
    let c ← hexDigit? c
    let d ← hexDigit? d
    some (((a * 16 + b) * 16 + c) * 16 + d, rest)
  | _ => none

/-- The character an escape letter stands for. -/
def backslash? : Char → Option Char
  | '"' => some '"'
  | '\\' => some '\\'
  | '/' => some '/'
  | 'b' => some (Char.ofNat 8)
  | 'f' => some (Char.ofNat 12)
  | 'n' => some '\n'
  | 'r' => some '\r'
  | 't' => some '\t'
  | _ => none

/-- The escape after `\u`: one code unit, or two that make a surrogate pair. A code unit
of half a pair is no character: no text of PostgreSQL holds one. -/
def unicodeEscape (cs : List Char) : Option (Char × List Char) :=
  match codeUnit? cs with
  | none => none
  | some (u, rest) =>
    if 0xD800 ≤ u ∧ u < 0xDC00 then
      match rest with
      | '\\' :: 'u' :: rest =>
        match codeUnit? rest with
        | some (u', rest) =>
          if 0xDC00 ≤ u' ∧ u' < 0xE000 then
            some (Char.ofNat (0x10000 + (u - 0xD800) * 0x400 + (u' - 0xDC00)), rest)
          else none
        | none => none
      | _ => none
    else if 0xDC00 ≤ u ∧ u < 0xE000 then none
    else some (Char.ofNat u, rest)

/-- One character of a string, which a control character cannot be. -/
def stringChar : Reader Char
  | '\\' :: 'u' :: rest => unicodeEscape rest
  | '\\' :: c :: rest => (backslash? c).map fun d => (d, rest)
  | c :: rest => if c = '"' ∨ c = '\\' ∨ c.toNat < 0x20 then none else some (c, rest)
  | [] => none

/-- `scanstring`, after the opening quote. -/
def stringRest : Nat → Reader (List Char)
  | 0, _ => none
  | n + 1, cs =>
    match cs with
    | '"' :: rest => some ([], rest)
    | cs =>
      match stringChar cs with
      | none => none
      | some (c, rest) => (stringRest n rest).map fun p => (c :: p.1, p.2)

/-- The digits of the fraction after a `.`, when there is one. -/
def fraction (cs : List Char) : List Char × List Char :=
  match cs with
  | '.' :: rest =>
    if (rest.takeWhile Char.isDigit).isEmpty then ([], cs)
    else ('.' :: rest.takeWhile Char.isDigit, rest.dropWhile Char.isDigit)
  | cs => ([], cs)

/-- The sign of an exponent. -/
def exponentSign (cs : List Char) : List Char × List Char :=
  match cs with
  | '+' :: rest => (['+'], rest)
  | '-' :: rest => (['-'], rest)
  | cs => ([], cs)

/-- The exponent, when there is one. -/
def exponent (cs : List Char) : List Char × List Char :=
  match cs with
  | c :: rest =>
    if c = 'e' ∨ c = 'E' then
      let p := exponentSign rest
      if (p.2.takeWhile Char.isDigit).isEmpty then ([], cs)
      else (c :: p.1 ++ p.2.takeWhile Char.isDigit, p.2.dropWhile Char.isDigit)
    else ([], cs)
  | cs => ([], cs)

/-- The integer digits: `0`, or digits that do not start with `0`. -/
def integerDigits (cs : List Char) : Option (List Char × List Char) :=
  match cs with
  | '0' :: rest => some (['0'], rest)
  | cs =>
    if (cs.takeWhile Char.isDigit).isEmpty then none
    else some (cs.takeWhile Char.isDigit, cs.dropWhile Char.isDigit)

/-- `int(text)` of an optional sign and digits. -/
def intOf (negative : Bool) (ds : List Char) : Int :=
  let n : Int := Nat.ofDigitChars 10 ds 0
  if negative then -n else n

/-- Python refuses to read an integer of more digits. -/
def maxStrDigits : Nat := 4300

section

variable (float : List Char → FloatText)

/-- `NUMBER_RE`, after the sign. -/
def numberRest (negative : Bool) (cs : List Char) : Option (Value × List Char) :=
  match integerDigits cs with
  | none => none
  | some (ds, rest) =>
    let f := fraction rest
    let e := exponent f.2
    if f.1.isEmpty ∧ e.1.isEmpty then
      if maxStrDigits < ds.length then none else some (.int (intOf negative ds), e.2)
    else
      some (.float (float ((if negative then ['-'] else []) ++ ds ++ f.1 ++ e.1)), e.2)

/-- The constants of `parse_constant`. -/
def nan : FloatText := ⟨"NaN", by decide, by decide⟩

def infinity : FloatText := ⟨"Infinity", by decide, by decide⟩

def negInfinity : FloatText := ⟨"-Infinity", by decide, by decide⟩

/-- A value that is neither a string, an array nor an object. -/
def scalar : Reader Value
  | 'n' :: 'u' :: 'l' :: 'l' :: rest => some (.null, rest)
  | 't' :: 'r' :: 'u' :: 'e' :: rest => some (.bool true, rest)
  | 'f' :: 'a' :: 'l' :: 's' :: 'e' :: rest => some (.bool false, rest)
  | 'N' :: 'a' :: 'N' :: rest => some (.float nan, rest)
  | 'I' :: 'n' :: 'f' :: 'i' :: 'n' :: 'i' :: 't' :: 'y' :: rest => some (.float infinity, rest)
  | '-' :: 'I' :: 'n' :: 'f' :: 'i' :: 'n' :: 'i' :: 't' :: 'y' :: rest =>
    some (.float negInfinity, rest)
  | '-' :: rest => numberRest float true rest
  | cs => numberRest float false cs

/-! ## Arrays and objects -/

/-- The items of an array, up to its closing bracket. -/
def items (p : Reader Value) : Nat → Reader (List Value)
  | 0, _ => none
  | n + 1, cs =>
    match p (skipSpace cs) with
    | none => none
    | some (v, rest) =>
      match skipSpace rest with
      | ',' :: rest => (items p n rest).map fun q => (v :: q.1, q.2)
      | ']' :: rest => some ([v], rest)
      | _ => none

/-- A member name and the colon after it. -/
def memberName (cs : List Char) : Option (String × List Char) :=
  match skipSpace cs with
  | '"' :: rest =>
    match stringRest (rest.length + 1) rest with
    | none => none
    | some (k, rest) =>
      match skipSpace rest with
      | ':' :: rest => some (String.ofList k, rest)
      | _ => none
  | _ => none

/-- The members of an object, up to its closing brace. -/
def members (p : Reader Value) : Nat → Reader (List (String × Value))
  | 0, _ => none
  | n + 1, cs =>
    match memberName cs with
    | none => none
    | some (k, rest) =>
      match p (skipSpace rest) with
      | none => none
      | some (v, rest) =>
        match skipSpace rest with
        | ',' :: rest => (members p n rest).map fun q => ((k, v) :: q.1, q.2)
        | '}' :: rest => some ([(k, v)], rest)
        | _ => none

/-- `d[k] = v`: a name that is there keeps its place. -/
def dictSet (d : List (String × Value)) (k : String) (v : Value) : List (String × Value) :=
  if d.any fun m => m.1 = k then d.map fun m => if m.1 = k then (k, v) else m else d ++ [(k, v)]

/-- `dict(pairs)`. -/
def dictOf (pairs : List (String × Value)) : List (String × Value) :=
  pairs.foldl (fun d m => dictSet d m.1 m.2) []

/-- `scan_once`. -/
def value : Nat → Reader Value
  | 0, _ => none
  | n + 1, cs =>
    match cs with
    | '"' :: rest => (stringRest (rest.length + 1) rest).map fun p => (.str (String.ofList p.1), p.2)
    | '[' :: rest =>
      match skipSpace rest with
      | ']' :: rest => some (.arr [], rest)
      | rest => (items (value n) n rest).map fun p => (.arr p.1, p.2)
    | '{' :: rest =>
      match skipSpace rest with
      | '}' :: rest => some (.obj [], rest)
      | rest => (members (value n) n rest).map fun p => (.obj (dictOf p.1), p.2)
    | cs => scalar float cs

/-- `json.loads(text)`. -/
def loads (text : String) : Option Value :=
  let cs := skipSpace text.toList
  match value float (cs.length + 1) cs with
  | some (v, rest) => if (skipSpace rest).isEmpty then some v else none
  | none => none

/-! ## The names of a loaded object are distinct -/

mutual

/-- No object of the document has two members of one name. -/
def Value.Distinct : Value → Prop
  | .arr vs => DistinctItems vs
  | .obj ms => (ms.map Prod.fst).Nodup ∧ DistinctMembers ms
  | _ => True

def DistinctItems : List Value → Prop
  | [] => True
  | v :: vs => v.Distinct ∧ DistinctItems vs

def DistinctMembers : List (String × Value) → Prop
  | [] => True
  | (_, v) :: ms => v.Distinct ∧ DistinctMembers ms

end

theorem distinctItems_iff {vs : List Value} : DistinctItems vs ↔ ∀ v ∈ vs, v.Distinct := by
  induction vs with
  | nil => simp [DistinctItems]
  | cons v vs ih => simp [DistinctItems, ih]

theorem distinctMembers_iff {ms : List (String × Value)} :
    DistinctMembers ms ↔ ∀ m ∈ ms, m.2.Distinct := by
  induction ms with
  | nil => simp [DistinctMembers]
  | cons m ms ih => simp [DistinctMembers, ih]

theorem map_fst_dictSet (d : List (String × Value)) (k : String) (v : Value) :
    (dictSet d k v).map Prod.fst =
      if k ∈ d.map Prod.fst then d.map Prod.fst else d.map Prod.fst ++ [k] := by
  have hany : (d.any fun m => m.1 = k) = true ↔ k ∈ d.map Prod.fst := by
    simp
  unfold dictSet
  by_cases h : k ∈ d.map Prod.fst
  · rw [if_pos (hany.mpr h), if_pos h, List.map_map]
    apply List.map_congr_left
    intro m _
    by_cases hm : m.1 = k
    · simp [hm]
    · simp [hm]
  · rw [if_neg (fun hh => h (hany.mp hh)), if_neg h]
    simp

theorem distinct_dictSet {d : List (String × Value)} {k : String} {v : Value}
    (hd : (Value.obj d).Distinct) (hv : v.Distinct) : (Value.obj (dictSet d k v)).Distinct := by
  obtain ⟨hnd, hms⟩ := hd
  rw [distinctMembers_iff] at hms
  refine ⟨?_, distinctMembers_iff.mpr fun m hm => ?_⟩
  · rw [map_fst_dictSet]
    split
    · exact hnd
    · next hk =>
      rw [List.nodup_append]
      refine ⟨hnd, by simp, ?_⟩
      intro a ha b hb
      rw [List.mem_singleton.mp hb]
      exact fun hab => hk (hab ▸ ha)
  · unfold dictSet at hm
    split at hm
    · obtain ⟨m', hm', rfl⟩ := List.mem_map.mp hm
      split
      · exact hv
      · exact hms m' hm'
    · rcases List.mem_append.mp hm with hm | hm
      · exact hms m hm
      · rw [List.mem_singleton.mp hm]
        exact hv

theorem distinct_dictOf {pairs : List (String × Value)} (h : ∀ m ∈ pairs, m.2.Distinct) :
    (Value.obj (dictOf pairs)).Distinct := by
  suffices hd : ∀ d, (Value.obj d).Distinct →
      (Value.obj (pairs.foldl (fun d m => dictSet d m.1 m.2) d)).Distinct from
    hd [] ⟨List.nodup_nil, trivial⟩
  induction pairs with
  | nil => exact fun d hd => hd
  | cons m ms ih =>
    intro d hd
    exact ih (fun m' hm' => h m' (List.mem_cons_of_mem _ hm')) _
      (distinct_dictSet hd (h m List.mem_cons_self))

/-- What a reader yields has distinct names. -/
def YieldsDistinct (p : Reader Value) : Prop :=
  ∀ cs v rest, p cs = some (v, rest) → v.Distinct

theorem distinct_items {p : Reader Value} (hp : YieldsDistinct p) {n : Nat} {cs rest : List Char}
    {vs : List Value} (h : items p n cs = some (vs, rest)) : ∀ v ∈ vs, v.Distinct := by
  induction n generalizing cs vs rest with
  | zero => cases h
  | succ n ih =>
    unfold items at h
    split at h
    · cases h
    next v r hv =>
      have hd := hp _ _ _ hv
      split at h
      · simp only [Option.map_eq_some_iff, Prod.mk.injEq] at h
        obtain ⟨⟨vs', r'⟩, hi, rfl, -⟩ := h
        intro w hw
        rcases List.mem_cons.mp hw with rfl | hw
        · exact hd
        · exact ih hi w hw
      · simp only [Option.some.injEq, Prod.mk.injEq] at h
        obtain ⟨rfl, -⟩ := h
        intro w hw
        rw [List.mem_singleton.mp hw]
        exact hd
      · cases h

theorem distinct_members {p : Reader Value} (hp : YieldsDistinct p) {n : Nat}
    {cs rest : List Char} {ms : List (String × Value)} (h : members p n cs = some (ms, rest)) :
    ∀ m ∈ ms, m.2.Distinct := by
  induction n generalizing cs ms rest with
  | zero => cases h
  | succ n ih =>
    unfold members at h
    split at h
    · cases h
    split at h
    · cases h
    next v r hv =>
      have hd := hp _ _ _ hv
      split at h
      · simp only [Option.map_eq_some_iff, Prod.mk.injEq] at h
        obtain ⟨⟨ms', r'⟩, hi, rfl, -⟩ := h
        intro m hm
        rcases List.mem_cons.mp hm with rfl | hm
        · exact hd
        · exact ih hi m hm
      · simp only [Option.some.injEq, Prod.mk.injEq] at h
        obtain ⟨rfl, -⟩ := h
        intro m hm
        rw [List.mem_singleton.mp hm]
        exact hd
      · cases h

theorem distinct_numberRest {negative : Bool} : YieldsDistinct (numberRest float negative) := by
  intro cs v rest h
  unfold numberRest at h
  split at h
  · cases h
  · simp only at h
    split at h
    · split at h
      · cases h
      · obtain ⟨rfl, -⟩ := Prod.mk.inj (Option.some.inj h)
        trivial
    · obtain ⟨rfl, -⟩ := Prod.mk.inj (Option.some.inj h)
      trivial

theorem distinct_scalar : YieldsDistinct (scalar float) := by
  intro cs v rest h
  unfold scalar at h
  split at h
  all_goals
    first
    | exact distinct_numberRest float _ _ _ h
    | (obtain ⟨rfl, -⟩ := Prod.mk.inj (Option.some.inj h)
       trivial)

theorem distinct_value (n : Nat) : YieldsDistinct (value float n) := by
  induction n with
  | zero =>
    intro cs v rest h
    cases h
  | succ n ih =>
    intro cs v rest h
    unfold value at h
    split at h
    · simp only [Option.map_eq_some_iff, Prod.mk.injEq] at h
      obtain ⟨_, -, rfl, -⟩ := h
      trivial
    · split at h
      · obtain ⟨rfl, -⟩ := Prod.mk.inj (Option.some.inj h)
        trivial
      · simp only [Option.map_eq_some_iff, Prod.mk.injEq] at h
        obtain ⟨⟨vs, r⟩, hi, rfl, -⟩ := h
        exact distinctItems_iff.mpr (distinct_items ih hi)
    · split at h
      · obtain ⟨rfl, -⟩ := Prod.mk.inj (Option.some.inj h)
        exact ⟨List.nodup_nil, trivial⟩
      · simp only [Option.map_eq_some_iff, Prod.mk.injEq] at h
        obtain ⟨⟨ms, r⟩, hi, rfl, -⟩ := h
        exact distinct_dictOf (distinct_members ih hi)
    · exact distinct_scalar float _ _ _ h

/-- **A loaded document has distinct names.** -/
theorem distinct_loads {text : String} {v : Value} (h : loads float text = some v) :
    v.Distinct := by
  unfold loads at h
  simp only at h
  split at h
  next v' rest hv =>
    split at h
    · exact Option.some.inj h ▸ distinct_value float _ _ _ _ hv
    · cases h
  · cases h

end

end Json
