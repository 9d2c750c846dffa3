import Mathlib.Algebra.GroupWithZero.Nat
import Mathlib.Data.Bool.AllAny
import AiAgentsSwd.Python.Literals
import AiAgentsSwd.Text.Codecs

/-!
# Python.Values — what a string literal evaluates to, and `repr`

The escapes of a literal that is not raw, read letter by letter, and the literal that `repr` writes
for a text. Values are lists of code points, for an escape may write a lone surrogate. The names of
`\N{…}` and the printable characters are tables of the Unicode database, and parameters here.

`repr` is read back whatever the text: its literal fits its quotes and evaluates to the text.
-/

namespace AiAgentsSwd.Python

open Text (Transducer)

/-! ## Escapes -/

/-- Where the reader is: in plain text, after a backslash, in the digits of an escape or in a
name. -/
inductive Escape where
  | text
  | backslash
  | octal (left value : Nat)
  | hex (left value : Nat)
  | brace
  | name (acc : List Char)
deriving Repr, DecidableEq

/-- The escapes of one letter. -/
def escapeOf (c : Char) : Option Nat :=
  if c = '\\' then some 92
  else if c = apostrophe then some 39
  else if c = doubleQuote then some 34
  else if c = 'a' then some 7
  else if c = 'b' then some 8
  else if c = 'f' then some 12
  else if c = 'n' then some 10
  else if c = 'r' then some 13
  else if c = 't' then some 9
  else if c = 'v' then some 11
  else none

def octalDigit (c : Char) : Option Nat :=
  if 48 ≤ c.toNat ∧ c.toNat < 56 then some (c.toNat - 48) else none

def hexDigit (c : Char) : Option Nat :=
  if 48 ≤ c.toNat ∧ c.toNat < 58 then some (c.toNat - 48)
  else if 97 ≤ c.toNat ∧ c.toNat < 103 then some (c.toNat - 87)
  else if 65 ≤ c.toNat ∧ c.toNat < 71 then some (c.toNat - 55)
  else none

/-- A character that is not part of an escape. -/
def plainStep (c : Char) : List Nat × Escape :=
  if c = '\\' then ([], .backslash) else ([c.toNat], .text)

/-- The character after a backslash. An escape that is not known stands as it is. -/
def backslashStep (c : Char) : List Nat × Escape :=
  if c = '\n' then ([], .text)
  else
    match escapeOf c with
    | some n => ([n], .text)
    | none =>
      match octalDigit c with
      | some d => ([], .octal 2 d)
      | none =>
        if c = 'x' then ([], .hex 2 0)
        else if c = 'u' then ([], .hex 4 0)
        else if c = 'U' then ([], .hex 8 0)
        else if c = 'N' then ([], .brace)
        else ([92, c.toNat], .text)

section Decode

variable (names : List Char → Option Nat)

def decodeStep : Escape → Char → Option (List Nat × Escape)
  | .text, c => some (plainStep c)
  | .backslash, c => some (backslashStep c)
  | .octal left v, c =>
    match octalDigit c with
    | some d => if 1 < left then some ([], .octal (left - 1) (8 * v + d))
      else some ([8 * v + d], .text)
    | none => some (v :: (plainStep c).1, (plainStep c).2)
  | .hex left v, c =>
    match hexDigit c with
    | none => none
    | some d =>
      if 1 < left then some ([], .hex (left - 1) (16 * v + d))
      else if 16 * v + d < 0x110000 then some ([16 * v + d], .text)
      else none
  | .brace, c => if c = '{' then some ([], .name []) else none
  | .name acc, c =>
    if c = '}' then
      if acc = [] then none else (names acc.reverse).map fun n => ([n], .text)
    else some ([], .name (c :: acc))

def decodeFinish : Escape → Option (List Nat)
  | .text => some []
  | .octal _ v => some [v]
  | .backslash => none
  | .hex _ _ => none
  | .brace => none
  | .name _ => none

def decoder : Transducer Escape Char Nat where
  step := decodeStep names
  finish := decodeFinish

/-- The value of the text of a literal. -/
def decode (s : List Char) : Option (List Nat) := (decoder names).read .text s

end Decode

def codes (s : List Char) : List Nat := s.map Char.toNat

/-! ## `repr` -/

/-- `n` in hexadecimal, in so many digits. -/
def hexPad : (width n : Nat) → List Char
  | 0, _ => []
  | w + 1, n => hexPad w (n / 16) ++ [Nat.digitChar (n % 16)]

section Repr

variable (printable : Char → Bool)

/-- A character in the literal that `repr` writes between the quotes `q`. -/
def reprChar (q c : Char) : List Char :=
  if c = q ∨ c = '\\' then ['\\', c]
  else if c = '\t' then ['\\', 't']
  else if c = '\n' then ['\\', 'n']
  else if c = '\r' then ['\\', 'r']
  else if c.toNat < 32 ∨ c.toNat = 127 then ['\\', 'x'] ++ hexPad 2 c.toNat
  else if c.toNat < 127 then [c]
  else if printable c then [c]
  else if c.toNat < 0x100 then ['\\', 'x'] ++ hexPad 2 c.toNat
  else if c.toNat < 0x10000 then ['\\', 'u'] ++ hexPad 4 c.toNat
  else ['\\', 'U'] ++ hexPad 8 c.toNat

/-- Double quotes only where they save a backslash. -/
def reprQuote (s : List Char) : Char :=
  if apostrophe ∈ s ∧ doubleQuote ∉ s then doubleQuote else apostrophe

/-- `repr(s)` -/
def repr (s : List Char) : Literal where
  triple := false
  quote := reprQuote s
  body := s.flatMap (reprChar printable (reprQuote s))

end Repr

/-! ## The values of texts -/

section Texts

variable {names : List Char → Option Nat}

theorem run_text {s : List Char} (h : '\\' ∉ s) :
    (decoder names).run .text s = some (codes s, .text) := by
  induction s with
  | nil => rfl
  | cons c s ih =>
    have hc : c ≠ '\\' := by
      intro hc
      rw [hc] at h
      exact h List.mem_cons_self
    have hstep : (decoder names).step .text c = some ([c.toNat], .text) := by
      show some (plainStep c) = _
      rw [plainStep, if_neg hc]
    rw [Transducer.run_cons _ hstep, ih fun hs => h (List.mem_cons_of_mem _ hs)]
    rfl

/-- A text without backslashes stands for itself. -/
theorem decode_of_no_backslash {s : List Char} (h : '\\' ∉ s) :
    decode names s = some (codes s) := by
  rw [decode, Transducer.read, run_text h]
  simp [decoder, decodeFinish]

/-- A name is not complete before its brace. -/
theorem read_name {s : List Char} (h : '}' ∉ s) (acc : List Char) :
    (decoder names).read (.name acc) s = none := by
  have hrun : (decoder names).run (.name acc) s = some ([], .name (s.reverse ++ acc)) := by
    induction s generalizing acc with
    | nil => rfl
    | cons c s ih =>
      have hc : c ≠ '}' := by
        intro hc
        rw [hc] at h
        exact h List.mem_cons_self
      have hstep : (decoder names).step (.name acc) c = some ([], .name (c :: acc)) := by
        show (if c = '}' then _ else _) = _
        rw [if_neg hc]
      rw [Transducer.run_silent _ hstep, ih fun hs => h (List.mem_cons_of_mem _ hs)]
      simp
  rw [Transducer.read, hrun]
  rfl

/-- A character that is in no escape ends an escape that may end, and breaks the others. -/
theorem step_backquote (names : List Char → Option Nat) (st : Escape) :
    (decoder names).step st '`' = none ∨
    (∃ out, (decoder names).step st '`' = some (out, .text)) ∨
      ∃ acc, (decoder names).step st '`' = some ([], .name acc) := by
  cases st with
  | text => exact Or.inr (Or.inl ⟨[96], rfl⟩)
  | backslash => exact Or.inr (Or.inl ⟨[92, 96], rfl⟩)
  | octal left v => exact Or.inr (Or.inl ⟨[v, 96], rfl⟩)
  | hex left v => exact Or.inl rfl
  | brace => exact Or.inl rfl
  | name acc => exact Or.inr (Or.inr ⟨'`' :: acc, rfl⟩)

/-- What stands after the backquote does not matter for the escapes before it. -/
theorem isSome_decode_append (s : List Char) {t : List Char} (hslash : '\\' ∉ t)
    (hbrace : '}' ∉ t) :
    (decode names (s ++ '`' :: t)).isSome ↔ (decode names (s ++ ['`'])).isSome := by
  have hstate : ∀ st, ((decoder names).read st ('`' :: t)).isSome ↔
      ((decoder names).read st ['`']).isSome := by
    intro st
    rcases step_backquote names st with hnone | ⟨out, hstep⟩ | ⟨acc, hstep⟩
    · rw [Transducer.read, Transducer.read, Transducer.run_cons_none _ hnone,
        Transducer.run_cons_none _ hnone]
    · have hone : (decoder names).run st ['`'] = some (out, .text) := by
        rw [Transducer.run_cons _ hstep]
        simp
      have htext : (decoder names).read .text t = some (codes t) := decode_of_no_backslash hslash
      have hlone : ((decoder names).read st ['`']).isSome := by
        rw [Transducer.read, hone]
        rfl
      rw [show '`' :: t = ['`'] ++ t from rfl, Transducer.read_append _ hone, htext]
      exact ⟨fun _ => hlone, fun _ => rfl⟩
    · have hone : (decoder names).run st ['`'] = some ([], .name acc) := by
        rw [Transducer.run_cons _ hstep]
        simp
      rw [show '`' :: t = ['`'] ++ t from rfl, Transducer.read_append _ hone, read_name hbrace,
        Transducer.read, hone]
      rfl
  simp only [decode, Transducer.isSome_read_append, hstate]

end Texts

/-! ## `repr` is read back -/

section ReadBack

variable {names : List Char → Option Nat} {printable : Char → Bool} {q : Char}

theorem hexDigit_digitChar : ∀ d < 16, hexDigit (Nat.digitChar d) = some d := by
  decide

theorem run_hexPad_part (w j v n : Nat) :
    (decoder names).run (.hex (w + j + 1) v) (hexPad w n) =
      some ([], .hex (j + 1) (v * 16 ^ w + n % 16 ^ w)) := by
  induction w generalizing j n with
  | zero => simp [hexPad, Nat.mod_one]
  | succ w ih =>
    have hmod : n % 16 < 16 := Nat.mod_lt n (by decide)
    have hstep : (decoder names).step (.hex (j + 1 + 1) (v * 16 ^ w + n / 16 % 16 ^ w))
        (Nat.digitChar (n % 16)) =
          some ([], .hex (j + 1) (16 * (v * 16 ^ w + n / 16 % 16 ^ w) + n % 16)) := by
      show decodeStep names (.hex (j + 1 + 1) _) _ = _
      simp only [decodeStep, hexDigit_digitChar _ hmod]
      rw [if_pos (by omega), Nat.add_sub_cancel]
    have hvalue : 16 * (v * 16 ^ w + n / 16 % 16 ^ w) + n % 16 =
        v * 16 ^ (w + 1) + n % 16 ^ (w + 1) := by
      rw [Nat.pow_succ', Nat.mod_mul, Nat.mul_add]
      have hassoc : 16 * (v * 16 ^ w) = v * (16 * 16 ^ w) := by
        rw [← Nat.mul_assoc, Nat.mul_comm 16 v, Nat.mul_assoc]
      rw [hassoc]
      omega
    rw [hexPad, show w + 1 + j + 1 = w + (j + 1) + 1 by omega,
      Transducer.run_append _ (ih (j + 1) (n / 16)), Transducer.run_silent _ hstep, hvalue]
    rfl

/-- The digits of a code point, read as an escape of their number. -/
theorem run_hexPad {w n : Nat} (hw : n < 16 ^ (w + 1)) (hn : n < 0x110000) :
    (decoder names).run (.hex (w + 1) 0) (hexPad (w + 1) n) = some ([n], .text) := by
  have hmod : n % 16 < 16 := Nat.mod_lt n (by decide)
  have hdiv : n / 16 % 16 ^ w = n / 16 := by
    apply Nat.mod_eq_of_lt
    rw [Nat.pow_succ'] at hw
    exact Nat.div_lt_of_lt_mul hw
  have hstep : (decoder names).step (.hex (0 + 1) (0 * 16 ^ w + n / 16 % 16 ^ w))
      (Nat.digitChar (n % 16)) = some ([n], .text) := by
    show decodeStep names (.hex (0 + 1) _) _ = _
    simp only [decodeStep, hexDigit_digitChar _ hmod, hdiv]
    have hvalue : 16 * (0 * 16 ^ w + n / 16) + n % 16 = n := by omega
    rw [if_neg (by omega), hvalue, if_pos hn]
  rw [hexPad, Transducer.run_append _ (run_hexPad_part w 0 0 (n / 16)),
    Transducer.run_cons _ hstep]
  rfl

theorem mem_hexPad {w n : Nat} {c : Char} (h : c ∈ hexPad w n) :
    c ∈ "0123456789abcdef".toList := by
  induction w generalizing n with
  | zero => simp [hexPad] at h
  | succ w ih =>
    rw [hexPad, List.mem_append, List.mem_singleton] at h
    rcases h with h | h
    · exact ih h
    · rw [h]
      exact Text.isHex_digitChar _ (Nat.mod_lt n (by decide))

theorem toNat_lt (c : Char) : c.toNat < 0x110000 := by
  have hvalid := c.valid
  unfold UInt32.isValidChar Nat.isValidChar at hvalid
  show c.val.toNat < 0x110000
  omega

/-- What stands for a character: itself, or an escape of which only the letter may be a quote or a
backslash. -/
def Ordinary (q d : Char) : Prop := d ≠ '\\' ∧ d ≠ q ∧ d ≠ '\n' ∧ d ≠ '\r' ∧ d ≠ nul

theorem ordinary_hex (hq : isQuote q) : ∀ d ∈ "0123456789abcdef".toList, Ordinary q d := by
  have hquote : ∀ d ∈ "0123456789abcdef".toList, isQuote d = false ∧ d ≠ '\\' ∧ d ≠ '\n' ∧
      d ≠ '\r' ∧ d ≠ nul := List.all_iff_forall_prop.mp (by decide)
  intro d hd
  rcases hquote d hd with ⟨hnot, hrest⟩
  refine ⟨hrest.1, ?_, hrest.2⟩
  intro h
  rw [h, hq] at hnot
  cases hnot

theorem after_ordinary {s : List Char} (h : ∀ d ∈ s, Ordinary q d) :
    Within.after false q (.quotes 0) s = some (.quotes 0) := by
  induction s with
  | nil => rfl
  | cons c s ih =>
    rcases h c List.mem_cons_self with ⟨hslash, hquote, hline, -⟩
    have hstep : Within.step false q (.quotes 0) c = some (.quotes 0) := by
      simp [Within.step, hslash, hquote, hline]
    rw [Within.after, List.foldlM_cons, hstep]
    exact ih fun d hd => h d (List.mem_cons_of_mem _ hd)

theorem after_escape {d : Char} {s : List Char} (h : ∀ d ∈ s, Ordinary q d) :
    Within.after false q (.quotes 0) ('\\' :: d :: s) = some (.quotes 0) := by
  rw [Within.after, List.foldlM_cons, show Within.step false q (.quotes 0) '\\' = some .escaped by
    simp [Within.step]]
  exact after_ordinary h

/-- What `repr` writes for one character is within the quotes, holds no line end, and is read as
the character. -/
structure ReadsAs (names : List Char → Option Nat) (q c : Char) (s : List Char) : Prop where
  within : Within.after false q (.quotes 0) s = some (.quotes 0)
  clean : ∀ d ∈ s, d ≠ '\r' ∧ d ≠ nul
  value : (decoder names).run .text s = some ([c.toNat], .text)

theorem readsAs_self {c : Char} (h : Ordinary q c) : ReadsAs names q c [c] := by
  refine ⟨after_ordinary (by simpa using h), by simpa using h.2.2.2, ?_⟩
  exact run_text (by simpa using h.1.symm)

/-- An escape of one letter. -/
theorem readsAs_letter {c d : Char} (h : backslashStep d = ([c.toNat], .text)) (hreturn : d ≠ '\r')
    (hnul : d ≠ nul) : ReadsAs names q c ['\\', d] := by
  refine ⟨after_escape (by simp), ?_, ?_⟩
  · intro e he
    rcases List.mem_pair.1 he with he | he
    · rw [he]
      decide
    · rw [he]
      exact ⟨hreturn, hnul⟩
  · have hstep : (decoder names).step .backslash d = some ([c.toNat], .text) := congrArg some h
    rw [Transducer.run_silent _ (show (decoder names).step .text '\\' = some ([], .backslash)
      from rfl), Transducer.run_cons _ hstep]
    rfl

/-- An escape by number. -/
theorem readsAs_number (hq : isQuote q) {c d : Char} {w : Nat}
    (h : backslashStep d = ([], .hex (w + 1) 0)) (hd : Ordinary q d)
    (hc : c.toNat < 16 ^ (w + 1)) : ReadsAs names q c (['\\', d] ++ hexPad (w + 1) c.toNat) := by
  have hdigits : ∀ e ∈ hexPad (w + 1) c.toNat, Ordinary q e :=
    fun e he => ordinary_hex hq e (mem_hexPad he)
  refine ⟨after_escape hdigits, ?_, ?_⟩
  · intro e he
    simp only [List.cons_append, List.nil_append, List.mem_cons] at he
    rcases he with he | he | he
    · rw [he]
      decide
    · rw [he]
      exact hd.2.2.2
    · exact (hdigits e he).2.2.2
  · have hstep : (decoder names).step .backslash d = some ([], .hex (w + 1) 0) := congrArg some h
    rw [List.cons_append, List.cons_append, List.nil_append,
      Transducer.run_silent _ (show (decoder names).step .text '\\' = some ([], .backslash)
        from rfl), Transducer.run_silent _ hstep]
    exact run_hexPad hc (toNat_lt c)

theorem ordinary_of_not_quote (hq : isQuote q) {d : Char} (h : isQuote d = false)
    (hrest : d ≠ '\\' ∧ d ≠ '\n' ∧ d ≠ '\r' ∧ d ≠ nul) : Ordinary q d := by
  refine ⟨hrest.1, ?_, hrest.2⟩
  intro hd
  rw [hd, hq] at h
  cases h

theorem readsAs_reprChar (names : List Char → Option Nat) (printable : Char → Bool)
    (hq : isQuote q) (c : Char) :
    ReadsAs names q c (reprChar printable q c) := by
  have hx : Ordinary q 'x' := ordinary_of_not_quote hq (by decide) (by decide)
  have hu : Ordinary q 'u' := ordinary_of_not_quote hq (by decide) (by decide)
  have hU : Ordinary q 'U' := ordinary_of_not_quote hq (by decide) (by decide)
  unfold reprChar
  split_ifs with hescape htab hline hreturn hcontrol hascii hprint hlatin hbasic
  · -- the quote and the backslash
    have hc : c = apostrophe ∨ c = doubleQuote ∨ c = '\\' := by
      simp only [isQuote, Bool.or_eq_true, beq_iff_eq] at hq
      rcases hescape with h | h
      · rcases hq with hq | hq
        · exact Or.inl (h.trans hq)
        · exact Or.inr (Or.inl (h.trans hq))
      · exact Or.inr (Or.inr h)
    rcases hc with hc | hc | hc
    · rw [hc]
      exact readsAs_letter rfl (by decide) (by decide)
    · rw [hc]
      exact readsAs_letter rfl (by decide) (by decide)
    · rw [hc]
      exact readsAs_letter rfl (by decide) (by decide)
  · rw [htab]
    exact readsAs_letter rfl (by decide) (by decide)
  · rw [hline]
    exact readsAs_letter rfl (by decide) (by decide)
  · rw [hreturn]
    exact readsAs_letter rfl (by decide) (by decide)
  · exact readsAs_number hq (w := 1) rfl hx (by omega)
  · -- a character of ASCII that is no control character
    refine readsAs_self ⟨fun h => hescape (Or.inr h), fun h => hescape (Or.inl h), hline,
      hreturn, ?_⟩
    intro h
    rw [h] at hcontrol
    exact hcontrol (by decide)
  · refine readsAs_self ⟨fun h => hescape (Or.inr h), fun h => hescape (Or.inl h), hline,
      hreturn, ?_⟩
    intro h
    rw [h] at hcontrol
    exact hcontrol (by decide)
  · exact readsAs_number hq (w := 1) rfl hx (by omega)
  · exact readsAs_number hq (w := 3) rfl hu (by omega)
  · have hlt := toNat_lt c
    exact readsAs_number hq (w := 7) rfl hU (by omega)

theorem isQuote_reprQuote (s : List Char) : isQuote (reprQuote s) := by
  unfold reprQuote
  split_ifs
  · rfl
  · rfl

theorem reprBody_spec (names : List Char → Option Nat) (printable : Char → Bool)
    (hq : isQuote q) (s : List Char) :
    Within.after false q (.quotes 0) (s.flatMap (reprChar printable q)) = some (.quotes 0) ∧
      (∀ d ∈ s.flatMap (reprChar printable q), d ≠ '\r' ∧ d ≠ nul) ∧
        (decoder names).run .text (s.flatMap (reprChar printable q)) = some (codes s, .text) := by
  induction s with
  | nil => exact ⟨rfl, by simp, rfl⟩
  | cons c s ih =>
    rcases ih with ⟨hwithin, hclean, hvalue⟩
    have hc := readsAs_reprChar names printable hq c
    rw [List.flatMap_cons]
    refine ⟨?_, ?_, ?_⟩
    · rw [Within.after_append, hc.within]
      exact hwithin
    · intro d hd
      rcases List.mem_append.1 hd with hd | hd
      · exact hc.clean d hd
      · exact hclean d hd
    · rw [Transducer.run_append _ hc.value, hvalue]
      rfl

theorem universal_repr (s : List Char) : (repr printable s).universal = repr printable s := by
  have hclean := (reprBody_spec (fun _ => none) printable
    (isQuote_reprQuote s) s).2.1
  have hbody : universal (repr printable s).body = (repr printable s).body :=
    universal_of_no_return fun h => (hclean _ h).1 rfl
  rw [Literal.universal, hbody]

/-- The literal of `repr` ends where it should. -/
theorem reads_repr (s : List Char) : (repr printable s).Reads := by
  rcases reprBody_spec (fun _ => none) printable (isQuote_reprQuote s) s
    with ⟨hwithin, hclean, -⟩
  refine ⟨fun h => (hclean _ h).2 rfl, ?_⟩
  rw [universal_repr]
  exact hwithin

/-- It evaluates to the text. -/
theorem decode_repr (s : List Char) : decode names (repr printable s).body = some (codes s) := by
  have hvalue := (reprBody_spec names printable
    (isQuote_reprQuote s) s).2.2
  rw [decode, Transducer.read, repr, hvalue]
  simp [decoder, decodeFinish]

end ReadBack

end AiAgentsSwd.Python
