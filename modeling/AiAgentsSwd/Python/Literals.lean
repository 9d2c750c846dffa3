import AiAgentsSwd.Text.Transducer

/-!
# Python.Literals — where string literals begin and end

The part of the lexer of Python that finds string literals: a source is code, in which literals
and comments stand, and a literal runs from its quotes to the first quotes that close it, a
backslash taking the character after it along. Comments are left in the code, and so is a prefix
of a literal.

A source that is put together from code and literals is read back as it was put together exactly
when every literal fits between its quotes (`lexSource_render_iff`).
-/

namespace AiAgentsSwd.Python

open Text (Transducer)

def apostrophe : Char := Char.ofNat 39

def doubleQuote : Char := Char.ofNat 34

def nul : Char := Char.ofNat 0

def isQuote (c : Char) : Bool := c == apostrophe || c == doubleQuote

/-- A string literal: its quotes, three on each side or one, and what stands between them. -/
structure Literal where
  triple : Bool
  quote : Char
  body : List Char
deriving Repr, DecidableEq

inductive Token where
  | code (text : List Char)
  | lit (literal : Literal)
deriving Repr, DecidableEq

/-! ## Inside a literal -/

/-- Where the reader is in a literal: after a backslash, or after so many quotes in a row. -/
inductive Within where
  | escaped
  | quotes (count : Nat)
deriving Repr, DecidableEq

/-- One more character of a literal; none when the literal ends with it, or with the line. -/
def Within.step (triple : Bool) (q : Char) : Within → Char → Option Within
  | .escaped, _ => some (.quotes 0)
  | .quotes k, c =>
    if c = '\\' then some .escaped
    else if c = q then if triple ∧ k < 2 then some (.quotes (k + 1)) else none
    else if c = '\n' ∧ triple = false then none
    else some (.quotes 0)

/-- The state after a text of a literal; none when the literal does not reach its end. -/
def Within.after (triple : Bool) (q : Char) (w : Within) (s : List Char) : Option Within :=
  s.foldlM (Within.step triple q) w

/-- The text stands between its quotes whole: nothing in it closes the literal, and its end takes
no quote from the closing ones and gives none to them. -/
def Literal.Fits (l : Literal) : Prop :=
  Within.after l.triple l.quote (.quotes 0) l.body = some (.quotes 0)

instance (l : Literal) : Decidable l.Fits := by
  unfold Literal.Fits
  infer_instance

/-! ## The lexer -/

/-- What the lexer is reading: code, a comment, the opening quotes of a literal or the inside of
one. -/
inductive Mode where
  | code
  | comment
  | opened (quote : Char)
  | «empty» (quote : Char)
  | within (triple : Bool) (quote : Char) (at_ : Within)
deriving Repr, DecidableEq

/-- The mode, and the text of the current token, backwards. -/
abbrev Reading := Mode × List Char

/-- The quotes that are in `acc` when the last of the closing ones is read. -/
def closing (triple : Bool) : Nat := if triple then 2 else 0

def codeStep (acc : List Char) (c : Char) : List Token × Reading :=
  if isQuote c then ([.code acc.reverse], .opened c, [])
  else if c = '#' then ([], .comment, c :: acc)
  else ([], .code, c :: acc)

def withinStep (triple : Bool) (q : Char) (w : Within) (acc : List Char) (c : Char) :
    Option (List Token × Reading) :=
  match w.step triple q c with
  | some w' => some ([], .within triple q w', c :: acc)
  | none =>
    if c = q then some ([.lit ⟨triple, q, (acc.drop (closing triple)).reverse⟩], .code, [])
    else none

def lexStep : Reading → Char → Option (List Token × Reading)
  | (.code, acc), c => some (codeStep acc c)
  | (.comment, acc), c => some ([], if c = '\n' then .code else .comment, c :: acc)
  | (.opened q, acc), c =>
    if c = q then some ([], .empty q, acc) else withinStep false q (.quotes 0) acc c
  | (.empty q, acc), c =>
    if c = q then some ([], .within true q (.quotes 0), acc)
    else some (.lit ⟨false, q, []⟩ :: (codeStep acc c).1, (codeStep acc c).2)
  | (.within triple q w, acc), c => withinStep triple q w acc c

def lexFinish : Reading → Option (List Token)
  | (.code, acc) => some [.code acc.reverse]
  | (.comment, acc) => some [.code acc.reverse]
  | (.opened _, _) => none
  | (.empty q, acc) => some [.lit ⟨false, q, []⟩, .code acc.reverse]
  | (.within _ _ _, _) => none

def lexer : Transducer Reading Char Token where
  step := lexStep
  finish := lexFinish

/-- Lines end with a newline, however the source ends them. -/
def universal : List Char → List Char
  | '\r' :: '\n' :: s => '\n' :: universal s
  | '\r' :: s => '\n' :: universal s
  | c :: s => c :: universal s
  | [] => []

/-- The tokens of a source. -/
def lexSource (source : List Char) : Option (List Token) :=
  if nul ∈ source then none else lexer.read (.code, []) (universal source)

/-! ## Every literal that is read fits -/

section Sound

variable {triple : Bool} {q : Char}

theorem Within.after_append (w : Within) (s t : List Char) :
    w.after triple q (s ++ t) = (w.after triple q s).bind fun w' => w'.after triple q t := by
  simp only [Within.after, List.foldlM_append]
  rfl

theorem Within.after_concat (w : Within) (s : List Char) (c : Char) :
    w.after triple q (s ++ [c]) = (w.after triple q s).bind fun w' => w'.step triple q c := by
  rw [Within.after_append]
  congr 1
  funext w'
  simp [Within.after]

/-- Only a quote is counted, and only between triple quotes. -/
theorem Within.step_quotes {w : Within} {c : Char} {k : Nat}
    (h : w.step triple q c = some (.quotes (k + 1))) :
    w = .quotes k ∧ c = q ∧ triple = true ∧ k < 2 := by
  cases w with
  | escaped => simp [Within.step] at h
  | quotes j =>
    simp only [Within.step] at h
    split_ifs at h with h₁ h₂ h₃
    · simp at h
    · simp only [Option.some.injEq, Within.quotes.injEq, Nat.add_right_cancel_iff] at h
      exact ⟨by rw [h], h₂, h₃.1, by omega⟩
    · simp at h

theorem Within.step_quote_none {w : Within} (h : w.step triple q q = none) :
    ∃ k, w = .quotes k ∧ ¬(triple = true ∧ k < 2) := by
  cases w with
  | escaped => simp [Within.step] at h
  | quotes k =>
    refine ⟨k, rfl, ?_⟩
    intro hk
    simp only [Within.step] at h
    split_ifs at h

theorem Within.after_quotes {s : List Char} {k : Nat}
    (h : Within.after triple q (.quotes 0) s = some (.quotes k)) :
    k ≤ closing triple ∧ ∃ s', s = s' ++ List.replicate k q ∧
      Within.after triple q (.quotes 0) s' = some (.quotes 0) := by
  induction k generalizing s with
  | zero => exact ⟨Nat.zero_le _, s, by simp, h⟩
  | succ k ih =>
    -- the text ends with a quote, which the state before it counts
    rcases s.eq_nil_or_concat with hs | ⟨s', c, hs⟩
    · rw [hs] at h
      simp [Within.after] at h
    · rw [hs, List.concat_eq_append, Within.after_concat] at h
      rcases Option.bind_eq_some_iff.1 h with ⟨w, hw, hstep⟩
      rcases Within.step_quotes hstep with ⟨hwk, hc, htriple, hk⟩
      rw [hwk] at hw
      rcases ih hw with ⟨-, s'', hs'', hfit⟩
      refine ⟨by simp only [closing, htriple, if_true]; omega, s'', ?_, hfit⟩
      rw [hs, hs'', hc, List.concat_eq_append, List.append_assoc, List.replicate_succ']

/-- The literals that are put out fit, and the text of the one that is read is where the mode
says. -/
structure Lexed (out : List Token) (r : Reading) : Prop where
  fits : ∀ l, Token.lit l ∈ out → l.Fits
  within : ∀ triple q w, r.1 = .within triple q w →
    Within.after triple q (.quotes 0) r.2.reverse = some w
  starts : ∀ q, r.1 = .opened q ∨ r.1 = .empty q → r.2 = []

theorem lexed_codeStep {out : List Token} (h : ∀ l, Token.lit l ∈ out → l.Fits) (acc : List Char)
    (c : Char) : Lexed (out ++ (codeStep acc c).1) (codeStep acc c).2 := by
  unfold codeStep
  split_ifs
  · refine ⟨by simpa using h, by simp, by simp⟩
  · refine ⟨by simpa using h, by simp, by simp⟩
  · refine ⟨by simpa using h, by simp, by simp⟩

theorem lexed_withinStep {out new : List Token} {w : Within} {acc : List Char} {c : Char}
    {r : Reading} (h : ∀ l, Token.lit l ∈ out → l.Fits)
    (hacc : Within.after triple q (.quotes 0) acc.reverse = some w)
    (hstep : withinStep triple q w acc c = some (new, r)) : Lexed (out ++ new) r := by
  unfold withinStep at hstep
  cases hw : w.step triple q c with
  | some w' =>
    simp only [hw, Option.some.injEq, Prod.mk.injEq] at hstep
    rw [← hstep.1, ← hstep.2, List.append_nil]
    refine ⟨h, ?_, by simp⟩
    intro triple' q' w'' hmode
    simp only [Mode.within.injEq] at hmode
    rw [← hmode.1, ← hmode.2.1, ← hmode.2.2, List.reverse_cons, Within.after_concat, hacc]
    exact hw
  | none =>
    simp only [hw] at hstep
    split_ifs at hstep with hc
    simp only [Option.some.injEq, Prod.mk.injEq] at hstep
    rw [← hstep.1, ← hstep.2]
    refine ⟨?_, by simp, by simp⟩
    intro l hl
    rcases List.mem_append.1 hl with hl | hl
    · exact h l hl
    · -- the quotes that were counted are the closing ones, but for the last
      rw [hc] at hw
      rcases Within.step_quote_none hw with ⟨k, hwk, hk⟩
      rw [hwk] at hacc
      rcases Within.after_quotes hacc with ⟨hle, s', hs', hfit⟩
      have hcount : k = closing triple := by
        cases triple with
        | true => simp only [closing, if_true, true_and] at hle hk ⊢; omega
        | false => simpa [closing] using hle
      have hbody : (acc.drop (closing triple)).reverse = s' := by
        have hlen : acc.length = s'.length + k := by
          rw [← List.length_reverse, hs', List.length_append, List.length_replicate]
        rw [← hcount, List.reverse_drop, hs', hlen, Nat.add_sub_cancel, List.take_left]
      simp only [List.mem_singleton, Token.lit.injEq] at hl
      rw [hl, hbody]
      exact hfit

theorem lexed_step (out : List Token) (r : Reading) (c : Char) (new : List Token) (r' : Reading)
    (h : Lexed out r) (hstep : lexer.step r c = some (new, r')) : Lexed (out ++ new) r' := by
  rcases r with ⟨mode, acc⟩
  cases mode with
  | code =>
    have hstep' : codeStep acc c = (new, r') := Option.some.inj hstep
    have hnew := lexed_codeStep h.fits acc c
    rw [hstep'] at hnew
    exact hnew
  | comment =>
    have hstep' : (([] : List Token), (if c = '\n' then Mode.code else Mode.comment), c :: acc) =
        (new, r') := Option.some.inj hstep
    rw [Prod.mk.injEq] at hstep'
    rw [← hstep'.1, ← hstep'.2, List.append_nil]
    refine ⟨h.fits, ?_, ?_⟩
    · intro _ _ _ hmode
      dsimp only at hmode
      split_ifs at hmode
    · intro _ hmode
      dsimp only at hmode
      split_ifs at hmode <;> simp at hmode
  | opened q =>
    have hacc : acc = [] := h.starts q (Or.inl rfl)
    have hstep' : (if c = q then some (([] : List Token), Mode.empty q, acc)
        else withinStep false q (.quotes 0) acc c) = some (new, r') := hstep
    split_ifs at hstep' with hc
    · simp only [Option.some.injEq, Prod.mk.injEq] at hstep'
      rw [← hstep'.1, ← hstep'.2, List.append_nil]
      exact ⟨h.fits, by simp, fun _ _ => hacc⟩
    · exact lexed_withinStep h.fits (by rw [hacc]; rfl) hstep'
  | «empty» q =>
    have hacc : acc = [] := h.starts q (Or.inr rfl)
    have hstep' : (if c = q then some (([] : List Token), Mode.within true q (.quotes 0), acc)
        else some (Token.lit ⟨false, q, []⟩ :: (codeStep acc c).1, (codeStep acc c).2)) =
          some (new, r') := hstep
    split_ifs at hstep' with hc
    · simp only [Option.some.injEq, Prod.mk.injEq] at hstep'
      rw [← hstep'.1, ← hstep'.2, List.append_nil]
      refine ⟨h.fits, ?_, by simp⟩
      intro triple' q' w' hmode
      simp only [Mode.within.injEq] at hmode
      rw [← hmode.1, ← hmode.2.1, ← hmode.2.2, hacc]
      rfl
    · simp only [Option.some.injEq, Prod.mk.injEq] at hstep'
      have hfits : ∀ l, Token.lit l ∈ out ++ [Token.lit ⟨false, q, []⟩] → l.Fits := by
        intro l hl
        rcases List.mem_append.1 hl with hl | hl
        · exact h.fits l hl
        · simp only [List.mem_singleton, Token.lit.injEq] at hl
          rw [hl]
          rfl
      have hnew := lexed_codeStep hfits acc c
      rw [List.append_assoc, List.singleton_append, hstep'.1, hstep'.2] at hnew
      exact hnew
  | within triple q w => exact lexed_withinStep h.fits (h.within triple q w rfl) hstep

/-- Only an empty literal is put out at the end. -/
theorem fits_of_finish {r : Reading} {last : List Token} (h : lexer.finish r = some last)
    {l : Literal} (hl : Token.lit l ∈ last) : l.Fits := by
  rcases r with ⟨mode, acc⟩
  cases mode with
  | code => rw [← Option.some.inj h] at hl; simp at hl
  | comment => rw [← Option.some.inj h] at hl; simp at hl
  | opened q => cases h
  | «empty» q =>
    rw [← Option.some.inj h] at hl
    simp only [List.mem_cons, Token.lit.injEq, reduceCtorEq, List.not_mem_nil, or_false] at hl
    rw [hl]
    rfl
  | within triple q w => cases h

theorem fits_of_read {s : List Char} {tokens : List Token}
    (h : lexer.read (.code, []) s = some tokens) {l : Literal} (hl : Token.lit l ∈ tokens) :
    l.Fits := by
  rcases Option.bind_eq_some_iff.1 h with ⟨r, hrun, hfinish⟩
  rcases Option.map_eq_some_iff.1 hfinish with ⟨last, hlast, htokens⟩
  have hinit : Lexed [] (.code, []) := ⟨by simp, by simp, by simp⟩
  have hlexed := lexer.run_inv lexed_step hinit hrun
  rw [← htokens] at hl
  rcases List.mem_append.1 hl with hl | hl
  · exact hlexed.fits l hl
  · exact fits_of_finish hlast hl

end Sound

/-! ## Sources put together from code and literals -/

def Literal.marks (l : Literal) : List Char :=
  if l.triple then [l.quote, l.quote, l.quote] else [l.quote]

def Literal.text (l : Literal) : List Char := l.marks ++ l.body ++ l.marks

/-- Code, and then literals, each with the code that follows it. -/
structure Source where
  head : List Char
  parts : List (Literal × List Char)
deriving Repr, DecidableEq

def renderParts (parts : List (Literal × List Char)) : List Char :=
  parts.flatMap fun p => p.1.text ++ p.2

def Source.render (src : Source) : List Char := src.head ++ renderParts src.parts

def Source.literals (src : Source) : List Literal := src.parts.map Prod.fst

def Source.tokens (src : Source) : List Token :=
  .code src.head :: src.parts.flatMap fun p => [.lit p.1, .code p.2]

/-- A character of code that begins nothing, and ends no line but as a newline. -/
def plain (c : Char) : Bool := !isQuote c && c != '#' && c != '\r' && c != nul

/-- The code holds no quotes and no comments, and some stands between any two literals. -/
structure Source.Plain (src : Source) : Prop where
  head : ∀ c ∈ src.head, plain c
  code : ∀ p ∈ src.parts, p.2 ≠ [] ∧ ∀ c ∈ p.2, plain c
  quotes : ∀ p ∈ src.parts, isQuote p.1.quote

section Render

variable {triple : Bool} {q : Char}

theorem renderParts_cons (p : Literal × List Char) (parts : List (Literal × List Char)) :
    renderParts (p :: parts) = p.1.text ++ (p.2 ++ renderParts parts) := by
  rw [renderParts, List.flatMap_cons, List.append_assoc]
  rfl

theorem not_quote_of_plain {c : Char} (h : plain c) : isQuote c = false := by
  simp only [plain, Bool.and_eq_true, Bool.not_eq_true'] at h
  exact h.1.1.1

theorem quote_ne_backslash (hq : isQuote q) : q ≠ '\\' := by
  intro h
  rw [h] at hq
  exact absurd hq (by decide)

theorem run_code {t : List Char} (ht : ∀ c ∈ t, plain c) (acc : List Char) :
    lexer.run (.code, acc) t = some ([], (.code, t.reverse ++ acc)) := by
  induction t generalizing acc with
  | nil => rfl
  | cons c t ih =>
    have hc := ht c List.mem_cons_self
    have hquote := not_quote_of_plain hc
    have hmark : c ≠ '#' := by
      intro h
      rw [h] at hc
      exact absurd hc (by decide)
    have hstep : lexer.step (.code, acc) c = some ([], (.code, c :: acc)) := by
      show some (codeStep acc c) = _
      rw [codeStep, if_neg (by simp [hquote]), if_neg hmark]
    rw [lexer.run_silent hstep, ih fun d hd => ht d (List.mem_cons_of_mem _ hd)]
    simp

theorem run_within {w w' : Within} {s : List Char} (h : w.after triple q s = some w')
    (acc : List Char) : lexer.run (.within triple q w, acc) s =
      some ([], (.within triple q w', s.reverse ++ acc)) := by
  induction s generalizing w acc with
  | nil =>
    have hw : w = w' := by simpa [Within.after] using h
    rw [hw]
    rfl
  | cons c s ih =>
    have hstep : ∃ w₁, w.step triple q c = some w₁ ∧ w₁.after triple q s = some w' := by
      simpa [Within.after, List.foldlM_cons, Option.bind_eq_some_iff] using h
    rcases hstep with ⟨w₁, hone, hrest⟩
    have hlex : lexer.step (.within triple q w, acc) c =
        some ([], (.within triple q w₁, c :: acc)) := by
      show withinStep triple q w acc c = _
      simp only [withinStep, hone]
    rw [lexer.run_silent hlex, ih hrest]
    simp

theorem run_open_triple (hq : isQuote q) (acc : List Char) : lexer.run (.code, acc) [q, q, q] =
    some ([.code acc.reverse], (.within true q (.quotes 0), [])) := by
  simp [Transducer.run, lexer, lexStep, codeStep, hq]

theorem run_close_triple (hq : isQuote q) (acc : List Char) :
    lexer.run (.within true q (.quotes 0), acc) [q, q, q] =
      some ([.lit ⟨true, q, acc.reverse⟩], (.code, [])) := by
  simp [Transducer.run, lexer, lexStep, withinStep, Within.step, quote_ne_backslash hq, closing]

theorem run_open_single (hq : isQuote q) (acc : List Char) : lexer.run (.code, acc) [q] =
    some ([.code acc.reverse], (.opened q, [])) := by
  simp [Transducer.run, lexer, lexStep, codeStep, hq]

theorem run_close_single (hq : isQuote q) (acc : List Char) :
    lexer.run (.within false q (.quotes 0), acc) [q] =
      some ([.lit ⟨false, q, acc.reverse⟩], (.code, [])) := by
  simp [Transducer.run, lexer, lexStep, withinStep, Within.step, quote_ne_backslash hq, closing]

/-- A single quote that another character follows has opened a literal. -/
theorem run_opened {c : Char} (hc : c ≠ q) (s : List Char) :
    lexer.run (.opened q, []) (c :: s) = lexer.run (.within false q (.quotes 0), []) (c :: s) := by
  have hstep : lexer.step (.opened q, []) c = lexer.step (.within false q (.quotes 0), []) c := by
    show (if c = q then _ else withinStep false q (.quotes 0) [] c) = _
    rw [if_neg hc]
    rfl
  rw [Transducer.run, Transducer.run, hstep]

/-- The literal is empty when no third quote follows. -/
theorem read_empty {t : List Char} (ht : t.head? ≠ some q) : lexer.read (.empty q, []) t =
    (lexer.read (.code, []) t).map ([.lit ⟨false, q, []⟩] ++ ·) := by
  cases t with
  | nil => rfl
  | cons c t =>
    have hc : c ≠ q := by simpa using ht
    have hstep : lexer.step (.empty q, []) c =
        some (.lit ⟨false, q, []⟩ :: (codeStep [] c).1, (codeStep [] c).2) := by
      show (if c = q then _ else _) = _
      rw [if_neg hc]
    have hcode : lexer.step (.code, []) c = some ((codeStep [] c).1, (codeStep [] c).2) := rfl
    rw [Transducer.read, Transducer.read, lexer.run_cons hstep, lexer.run_cons hcode]
    cases lexer.run (codeStep [] c).2 t with
    | none => rfl
    | some r =>
      simp only [Option.map_some, Option.bind_some]
      cases lexer.finish r.2 with
      | none => rfl
      | some last => simp

/-- A literal that fits is read as it stands. -/
theorem read_literal {l : Literal} (hq : isQuote l.quote) (hfit : l.Fits) {t : List Char}
    (ht : ∀ c, t.head? = some c → isQuote c = false) (acc : List Char) :
    lexer.read (.code, acc) (l.text ++ t) =
      (lexer.read (.code, []) t).map ([.code acc.reverse, .lit l] ++ ·) := by
  rcases l with ⟨triple, q, body⟩
  unfold Literal.Fits at hfit
  dsimp only at hq hfit
  cases triple with
  | true =>
    have hrun : lexer.run (.code, acc) ([q, q, q] ++ body ++ [q, q, q]) =
        some ([.code acc.reverse, .lit ⟨true, q, body⟩], (.code, [])) := by
      rw [List.append_assoc, lexer.run_append (run_open_triple hq acc),
        lexer.run_append (run_within hfit []), run_close_triple hq]
      simp
    exact lexer.read_append hrun t
  | false =>
    cases body with
    | nil =>
      have hrun : lexer.run (.code, acc) [q, q] = some ([.code acc.reverse], (.empty q, [])) := by
        simp [Transducer.run, lexer, lexStep, codeStep, hq]
      have hhead : t.head? ≠ some q := by
        intro h
        rw [ht q h] at hq
        cases hq
      rw [show Literal.text ⟨false, q, []⟩ = [q, q] from rfl, lexer.read_append hrun,
        read_empty hhead, Option.map_map]
      rfl
    | cons c body =>
      have hc : c ≠ q := by
        intro h
        rw [h] at hfit
        simp [Within.after, List.foldlM_cons, Within.step, quote_ne_backslash hq] at hfit
      have hrun : lexer.run (.code, acc) ([q] ++ (c :: body) ++ [q]) =
          some ([.code acc.reverse, .lit ⟨false, q, c :: body⟩], (.code, [])) := by
        rw [List.append_assoc, lexer.run_append (run_open_single hq acc), List.cons_append,
          run_opened hc, ← List.cons_append, lexer.run_append (run_within hfit []),
          run_close_single hq]
        simp
      exact lexer.read_append hrun t

theorem read_parts {parts : List (Literal × List Char)}
    (hcode : ∀ p ∈ parts, p.2 ≠ [] ∧ ∀ c ∈ p.2, plain c)
    (hquotes : ∀ p ∈ parts, isQuote p.1.quote) (hfits : ∀ p ∈ parts, p.1.Fits)
    {text : List Char} (htext : ∀ c ∈ text, plain c) (acc : List Char) :
    lexer.read (.code, acc) (text ++ renderParts parts) =
      some (.code (acc.reverse ++ text) :: parts.flatMap fun p => [.lit p.1, .code p.2]) := by
  induction parts generalizing text acc with
  | nil =>
    rw [renderParts, List.flatMap_nil, lexer.read_append (run_code htext acc)]
    simp [Transducer.read, lexer, lexFinish]
  | cons p parts ih =>
    rcases hcode p List.mem_cons_self with ⟨hne, hplain⟩
    have hhead : ∀ c, (p.2 ++ renderParts parts).head? = some c → isQuote c = false := by
      intro c hc
      rw [List.head?_append_of_ne_nil _ hne] at hc
      exact not_quote_of_plain (hplain c (List.mem_of_mem_head? hc))
    rw [renderParts_cons, lexer.read_append (run_code htext acc),
      read_literal (hquotes p List.mem_cons_self) (hfits p List.mem_cons_self) hhead,
      ih (fun p hp => hcode p (List.mem_cons_of_mem _ hp))
        (fun p hp => hquotes p (List.mem_cons_of_mem _ hp))
        (fun p hp => hfits p (List.mem_cons_of_mem _ hp)) hplain]
    simp

/-- What is read is what was put together, exactly when every literal fits. -/
theorem read_render_iff {src : Source} (h : src.Plain) :
    lexer.read (.code, []) src.render = some src.tokens ↔ ∀ l ∈ src.literals, l.Fits := by
  constructor
  · intro hread l hl
    rcases List.mem_map.1 hl with ⟨p, hp, hpl⟩
    refine fits_of_read hread ?_
    rw [← hpl]
    refine List.mem_cons_of_mem _ (List.mem_flatMap.2 ⟨p, hp, List.mem_cons_self⟩)
  · intro hfits
    have hparts : ∀ p ∈ src.parts, p.1.Fits := fun p hp => hfits p.1 (List.mem_map_of_mem hp)
    exact read_parts h.code h.quotes hparts h.head []

end Render

/-! ## Ends of lines -/

theorem universal_append {s t : List Char} (ht : t.head? ≠ some '\n') :
    universal (s ++ t) = universal s ++ universal t := by
  induction s using universal.induct with
  | case1 s ih => simp only [List.cons_append, universal, ih]
  | case2 s hs ih =>
    cases s with
    | nil =>
      cases t with
      | nil => rfl
      | cons d t =>
        have hd : d ≠ '\n' := by simpa using ht
        simp [universal, hd]
    | cons d s =>
      have hd : d ≠ '\n' := fun h => hs s (by rw [h])
      rw [List.cons_append] at ih
      simp [universal, hd, ih]
  | case3 c s h₁ h₂ ih =>
    have hc : c ≠ '\r' := h₂
    simp [universal, hc, ih]
  | case4 => rfl

theorem universal_of_no_return {s : List Char} (h : '\r' ∉ s) : universal s = s := by
  induction s with
  | nil => rfl
  | cons c s ih =>
    have hc : c ≠ '\r' := by
      intro hc
      rw [hc] at h
      exact h List.mem_cons_self
    rw [universal.eq_3 c s (by intro _ h' _; exact hc h') hc,
      ih fun hs => h (List.mem_cons_of_mem _ hs)]

theorem universal_append_of_no_return {s : List Char} (h : '\r' ∉ s) (t : List Char) :
    universal (s ++ t) = s ++ universal t := by
  induction s with
  | nil => rfl
  | cons c s ih =>
    have hc : c ≠ '\r' := by
      intro hc
      rw [hc] at h
      exact h List.mem_cons_self
    rw [List.cons_append, universal.eq_3 c _ (by intro _ h' _; exact hc h') hc,
      ih fun hs => h (List.mem_cons_of_mem _ hs), List.cons_append]

def Literal.universal (l : Literal) : Literal := { l with body := Python.universal l.body }

def Source.universal (src : Source) : Source :=
  { src with parts := src.parts.map fun p => (p.1.universal, p.2) }

/-- The literal ends where it should in a source. -/
def Literal.Reads (l : Literal) : Prop := nul ∉ l.body ∧ l.universal.Fits

section Universal

theorem mem_marks {l : Literal} {c : Char} (hc : c ∈ l.marks) : c = l.quote := by
  unfold Literal.marks at hc
  split_ifs at hc
  · simpa using hc
  · simpa using hc

theorem not_mem_marks {l : Literal} (hq : isQuote l.quote) {c : Char} (hc : isQuote c = false) :
    c ∉ l.marks := by
  intro h
  rw [mem_marks h, hq] at hc
  cases hc

theorem head_marks (l : Literal) (t : List Char) : (l.marks ++ t).head? = some l.quote := by
  unfold Literal.marks
  split_ifs
  · rfl
  · rfl

theorem universal_text {l : Literal} (hq : isQuote l.quote) (t : List Char) :
    universal (l.text ++ t) = l.universal.text ++ universal t := by
  have hmarks := not_mem_marks hq (show isQuote '\r' = false by decide)
  have hhead : (l.marks ++ t).head? ≠ some '\n' := by
    rw [head_marks]
    intro h
    rw [Option.some.inj h] at hq
    exact absurd hq (by decide)
  rw [Literal.text, List.append_assoc, List.append_assoc,
    universal_append_of_no_return hmarks, universal_append hhead,
    universal_append_of_no_return hmarks]
  show _ = l.marks ++ universal l.body ++ l.marks ++ universal t
  simp only [List.append_assoc]

theorem no_return_of_plain {t : List Char} (ht : ∀ c ∈ t, plain c) : '\r' ∉ t := by
  intro h
  exact absurd (ht _ h) (by decide)

theorem no_nul_of_plain {t : List Char} (ht : ∀ c ∈ t, plain c) : nul ∉ t := by
  intro h
  exact absurd (ht _ h) (by decide)

variable {src : Source}

theorem universal_render (h : src.Plain) : universal src.render = src.universal.render := by
  have hparts : ∀ parts : List (Literal × List Char),
      (∀ p ∈ parts, p.2 ≠ [] ∧ ∀ c ∈ p.2, plain c) → (∀ p ∈ parts, isQuote p.1.quote) →
        universal (renderParts parts) = renderParts (parts.map fun p => (p.1.universal, p.2)) := by
    intro parts hcode hquotes
    induction parts with
    | nil => rfl
    | cons p parts ih =>
      rw [renderParts_cons, List.map_cons, renderParts_cons,
        universal_text (hquotes p List.mem_cons_self),
        universal_append_of_no_return (no_return_of_plain (hcode p List.mem_cons_self).2),
        ih (fun p hp => hcode p (List.mem_cons_of_mem _ hp))
          (fun p hp => hquotes p (List.mem_cons_of_mem _ hp))]
  rw [Source.render, universal_append_of_no_return (no_return_of_plain h.head),
    hparts src.parts h.code h.quotes]
  rfl

theorem plain_universal (h : src.Plain) : src.universal.Plain := by
  refine ⟨h.head, ?_, ?_⟩
  · intro p hp
    rcases List.mem_map.1 hp with ⟨p', hp', hpp⟩
    rw [← hpp]
    exact h.code p' hp'
  · intro p hp
    rcases List.mem_map.1 hp with ⟨p', hp', hpp⟩
    rw [← hpp]
    exact h.quotes p' hp'

theorem nul_mem_render (h : src.Plain) : nul ∈ src.render ↔ ∃ l ∈ src.literals, nul ∈ l.body := by
  have hhead := no_nul_of_plain h.head
  simp only [Source.render, renderParts, List.mem_append, hhead, false_or, List.mem_flatMap,
    Source.literals, List.mem_map, exists_exists_and_eq_and]
  constructor
  · rintro ⟨p, hp, htext | hcode⟩
    · have hmarks := not_mem_marks (h.quotes p hp) (show isQuote nul = false by decide)
      simp only [Literal.text, List.mem_append, hmarks, false_or, or_false] at htext
      exact ⟨p, hp, htext⟩
    · exact absurd hcode (no_nul_of_plain (h.code p hp).2)
  · rintro ⟨p, hp, hbody⟩
    refine ⟨p, hp, Or.inl ?_⟩
    simp [Literal.text, hbody]

/-- A source is read as it was put together, exactly when each of its literals is. -/
theorem lexSource_render_iff (h : src.Plain) :
    lexSource src.render = some src.universal.tokens ↔ ∀ l ∈ src.literals, l.Reads := by
  have hliterals : src.universal.literals = src.literals.map Literal.universal := by
    simp [Source.literals, Source.universal]
  have hread := read_render_iff (plain_universal h)
  rw [hliterals, List.forall_mem_map] at hread
  unfold lexSource
  rw [universal_render h]
  split_ifs with hnul
  · rcases (nul_mem_render h).1 hnul with ⟨l, hl, hbody⟩
    constructor
    · intro hsome
      cases hsome
    · intro hreads
      exact absurd hbody (hreads l hl).1
  · rw [hread]
    constructor
    · intro hfits l hl
      exact ⟨fun hbody => hnul ((nul_mem_render h).2 ⟨l, hl, hbody⟩), hfits l hl⟩
    · intro hreads l hl
      exact (hreads l hl).2

end Universal

end AiAgentsSwd.Python
