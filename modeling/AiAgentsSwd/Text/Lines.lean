import Mathlib.Data.List.Infix
import Mathlib.Tactic.Common

/-!
# Text.Lines — the lines of a text

`str.splitlines(keepends=True)`: a line ends after a line break, and the last line may have none.
What is put together from lines that end is split into the same lines; a line that does not end
runs into the one that follows.
-/

namespace AiAgentsSwd.Text

/-- One of the line boundaries of `str.splitlines`. -/
def isBreak (c : Char) : Bool :=
  let n := c.toNat
  decide (10 ≤ n ∧ n ≤ 13 ∨ 28 ≤ n ∧ n ≤ 30 ∨ n = 0x85 ∨ n = 0x2028 ∨ n = 0x2029)

/-- The character goes to the first of the lines. -/
def attach (c : Char) : List (List Char) → List (List Char)
  | [] => [[c]]
  | line :: rest => (c :: line) :: rest

/-- `s.splitlines(keepends=True)` -/
def splitLines : List Char → List (List Char)
  | [] => []
  | '\r' :: '\n' :: s => ['\r', '\n'] :: splitLines s
  | c :: s => if isBreak c then [c] :: splitLines s else attach c (splitLines s)

/-- The line has no line break. -/
def Open (line : List Char) : Prop := ∀ c ∈ line, isBreak c = false

instance (line : List Char) : Decidable (Open line) := List.decidableBAll _ line

/-- A line break ends the line. -/
def Ended (line : List Char) : Prop :=
  ∃ body c, Open body ∧ isBreak c = true ∧ (line = body ++ [c] ∨ line = body ++ ['\r', '\n'])

/-- The line without its line break, as `str.splitlines()` gives it. -/
def chomp (line : List Char) : List Char := line.takeWhile fun c => !isBreak c

/-- What may follow a line: a line feed would belong to a carriage return before it. -/
def Follows (s : List Char) : Prop := s.head? ≠ some '\n'

/-! ## One line -/

theorem splitLines_cons {c : Char} {s : List Char} (hs : c = '\r' → Follows s) :
    splitLines (c :: s) =
      if isBreak c then [c] :: splitLines s else attach c (splitLines s) := by
  refine splitLines.eq_3 c s ?_
  intro s' hc heq
  rw [heq] at hs
  exact hs hc rfl

theorem splitLines_cons_of_open {c : Char} (hc : isBreak c = false) (s : List Char) :
    splitLines (c :: s) = attach c (splitLines s) := by
  have hne : c = '\r' → Follows s := by
    rintro rfl
    exact absurd hc (by decide)
  rw [splitLines_cons hne, hc]
  rfl

theorem splitLines_break {c : Char} (hc : isBreak c = true) {s : List Char}
    (hs : c = '\r' → Follows s) : splitLines (c :: s) = [c] :: splitLines s := by
  rw [splitLines_cons hs, hc]
  rfl

theorem splitLines_ne_nil {s : List Char} (h : s ≠ []) : splitLines s ≠ [] := by
  have hattach : ∀ c lines, attach c lines ≠ [] := by
    intro c lines
    cases lines with
    | nil => exact List.cons_ne_nil _ _
    | cons line rest => exact List.cons_ne_nil _ _
  unfold splitLines
  split
  · exact absurd rfl h
  · exact List.cons_ne_nil _ _
  · split
    · exact List.cons_ne_nil _ _
    · exact hattach _ _

/-- A text without a line break goes to the first of the lines that follow. -/
theorem splitLines_open_append {u : List Char} (hu : Open u) {s line : List Char}
    {rest : List (List Char)} (hs : splitLines s = line :: rest) :
    splitLines (u ++ s) = (u ++ line) :: rest := by
  induction u with
  | nil => exact hs
  | cons c u ih =>
    have hsplit : Open [c] ∧ Open u := by
      exact ⟨fun d hd => hu d (by simp_all), fun d hd => hu d (List.mem_cons_of_mem _ hd)⟩
    rw [List.cons_append, splitLines_cons_of_open (hu c List.mem_cons_self), ih hsplit.2]
    rfl

/-- A line that ends is the first of the lines. -/
theorem splitLines_ended_append {line : List Char} (hline : Ended line) {s : List Char}
    (hs : Follows s) : splitLines (line ++ s) = line :: splitLines s := by
  rcases hline with ⟨body, c, hbody, hc, rfl | rfl⟩
  · rw [List.append_assoc]
    exact splitLines_open_append hbody (splitLines_break hc fun _ => hs)
  · rw [List.append_assoc]
    exact splitLines_open_append hbody rfl

/-- A text without a line break is one line. -/
theorem splitLines_open {u : List Char} (hu : Open u) (hne : u ≠ []) : splitLines u = [u] := by
  induction u with
  | nil => exact absurd rfl hne
  | cons c u ih =>
    rw [splitLines_cons_of_open (hu c List.mem_cons_self)]
    cases u with
    | nil => rfl
    | cons d u =>
      rw [ih (fun e he => hu e (List.mem_cons_of_mem _ he)) (List.cons_ne_nil _ _)]
      rfl

/-! ## Many lines -/

/-- Lines as they are put together: each begins with something else than a line feed. -/
def Starts (lines : List (List Char)) : Prop := ∀ line ∈ lines, line ≠ [] ∧ Follows line

theorem follows_flatten {lines : List (List Char)} (h : Starts lines) : Follows lines.flatten := by
  cases lines with
  | nil =>
    intro h
    cases h
  | cons line rest =>
    have hline := h line List.mem_cons_self
    cases line with
    | nil => exact absurd rfl hline.1
    | cons c line => exact hline.2

/-- Every line ends, but for the last one, which may be open. -/
def Cut (lines : List (List Char)) : Prop :=
  ∀ before line after, lines = before ++ line :: after → Ended line ∨ Open line ∧ after = []

theorem Cut.cons {line : List Char} {rest : List (List Char)}
    (hline : Ended line ∨ Open line ∧ rest = []) (hrest : Cut rest) : Cut (line :: rest) := by
  intro before l after heq
  cases before with
  | nil =>
    obtain ⟨rfl, rfl⟩ := List.cons.inj heq
    exact hline
  | cons _ before => exact hrest before l after (List.cons.inj heq).2

theorem Cut.tail {line : List Char} {rest : List (List Char)} (h : Cut (line :: rest)) :
    Cut rest :=
  fun before l after heq => h (line :: before) l after (by rw [heq]; rfl)

theorem Cut.append {lines rest : List (List Char)} (h : ∀ line ∈ lines, Ended line)
    (hrest : Cut rest) : Cut (lines ++ rest) := by
  induction lines with
  | nil => exact hrest
  | cons first lines ih =>
    exact Cut.cons (Or.inl (h first List.mem_cons_self))
      (ih fun l hl => h l (List.mem_cons_of_mem _ hl))

/-- A part of the lines is cut as they are. -/
theorem Cut.part {before lines after : List (List Char)} (h : Cut (before ++ lines ++ after)) :
    Cut lines := by
  intro front line back heq
  rcases h (before ++ front) line (back ++ after) (by simp [heq]) with hended | ⟨hopen, hnil⟩
  · exact Or.inl hended
  · exact Or.inr ⟨hopen, (List.append_eq_nil_iff.mp hnil).1⟩

theorem ended_cons {c : Char} (hc : isBreak c = false) {line : List Char} (h : Ended line) :
    Ended (c :: line) := by
  rcases h with ⟨body, d, hbody, hd, rfl | rfl⟩
  · exact ⟨c :: body, d, List.forall_mem_cons.mpr ⟨hc, hbody⟩, hd, Or.inl rfl⟩
  · exact ⟨c :: body, d, List.forall_mem_cons.mpr ⟨hc, hbody⟩, hd, Or.inr rfl⟩

/-- A line that is open and one that ends make one that ends. -/
theorem ended_append {u line : List Char} (hu : Open u) (h : Ended line) : Ended (u ++ line) := by
  induction u with
  | nil => exact h
  | cons c u ih =>
    rw [Open, List.forall_mem_cons] at hu
    exact ended_cons hu.1 (ih hu.2)

theorem Cut.map_cons {c : Char} (hc : isBreak c = false) {lines : List (List Char)}
    (h : Cut lines) : Cut (lines.map (c :: ·)) := by
  induction lines with
  | nil => exact h
  | cons first lines ih =>
    refine Cut.cons ?_ (ih h.tail)
    rcases h [] first lines rfl with hended | ⟨hopen, rfl⟩
    · exact Or.inl (ended_cons hc hended)
    · exact Or.inr ⟨List.forall_mem_cons.mpr ⟨hc, hopen⟩, rfl⟩

/-- Lines of which only the last may have no line break are split again. -/
theorem splitLines_flatten {lines : List (List Char)} (hstarts : Starts lines) (hcut : Cut lines) :
    splitLines lines.flatten = lines := by
  induction lines with
  | nil => rfl
  | cons line rest ih =>
    have hrest : Starts rest := fun l hl => hstarts l (List.mem_cons_of_mem _ hl)
    rw [List.flatten_cons]
    rcases hcut [] line rest rfl with hline | ⟨hline, rfl⟩
    · rw [splitLines_ended_append hline (follows_flatten hrest), ih hrest hcut.tail]
    · rw [List.flatten_nil, List.append_nil,
        splitLines_open hline (hstarts line List.mem_cons_self).1]

/-- A line feed cuts a text in two. -/
theorem splitLines_append_newline (s t : List Char) :
    splitLines (s ++ '\n' :: t) = splitLines (s ++ ['\n']) ++ splitLines t := by
  induction s using splitLines.induct with
  | case1 => rfl
  | case2 s ih =>
    show ['\r', '\n'] :: splitLines (s ++ '\n' :: t) =
      ['\r', '\n'] :: (splitLines (s ++ ['\n']) ++ splitLines t)
    rw [ih]
  | case3 c s hcrlf hc ih =>
    by_cases hlast : c = '\r' ∧ s = []
    · rw [hlast.1, hlast.2]
      rfl
    · -- no line feed comes right after the carriage return
      have hfollows : ∀ u, c = '\r' → Follows (s ++ '\n' :: u) := by
        intro u hcr
        cases s with
        | nil => exact absurd ⟨hcr, rfl⟩ hlast
        | cons d s =>
          intro hd
          rw [List.cons_append, List.head?_cons] at hd
          exact hcrlf s hcr (by rw [Option.some.inj hd])
      rw [List.cons_append, List.cons_append, splitLines_break hc (hfollows t),
        splitLines_break hc (hfollows []), ih]
      rfl
  | case4 c s hcrlf hc ih =>
    rw [Bool.not_eq_true] at hc
    have hne : splitLines (s ++ ['\n']) ≠ [] := splitLines_ne_nil (by simp)
    rw [List.cons_append, List.cons_append, splitLines_cons_of_open hc,
      splitLines_cons_of_open hc, ih]
    cases hcase : splitLines (s ++ ['\n']) with
    | nil => exact absurd hcase hne
    | cons line rest => rfl

/-- What a line starts with does not depend on its line break. -/
theorem isPrefixOf_chomp {u : List Char} (hu : Open u) (line : List Char) :
    u.isPrefixOf (chomp line) = u.isPrefixOf line := by
  induction u generalizing line with
  | nil => rw [List.isPrefixOf_nil_left, List.isPrefixOf_nil_left]
  | cons c u ih =>
    rw [Open, List.forall_mem_cons] at hu
    cases line with
    | nil => rfl
    | cons d line =>
      cases hd : isBreak d with
      | true =>
        have hne : (c == d) = false := by
          rw [beq_eq_false_iff_ne]
          rintro rfl
          rw [hu.1] at hd
          cases hd
        rw [chomp, List.takeWhile_cons_of_neg (by simp [hd]), List.isPrefixOf_cons_cons, hne]
        rfl
      | false =>
        rw [chomp, List.takeWhile_cons_of_pos (by simp [hd]), List.isPrefixOf_cons_cons,
          List.isPrefixOf_cons_cons]
        exact congrArg (c == d && ·) (ih hu.2 line)

/-! ## The lines of a text -/

/-- A text is its lines. -/
theorem flatten_splitLines (s : List Char) : (splitLines s).flatten = s := by
  have hattach : ∀ c lines, (attach c lines).flatten = c :: lines.flatten := by
    intro c lines
    cases lines with
    | nil => rfl
    | cons line rest => rfl
  induction s using splitLines.induct with
  | case1 => rfl
  | case2 s ih => exact congrArg (fun t => '\r' :: '\n' :: t) ih
  | case3 c s hcrlf hc ih =>
    rw [splitLines_break hc fun hcr heq => ?_]
    · exact congrArg (c :: ·) ih
    · cases s with
      | nil => cases heq
      | cons d s => exact hcrlf s hcr (by rw [Option.some.inj heq])
  | case4 c s hcrlf hc ih =>
    rw [splitLines_cons_of_open (by simpa using hc), hattach, ih]

theorem splitLines_inj {s t : List Char} (h : splitLines s = splitLines t) : s = t := by
  rw [← flatten_splitLines s, ← flatten_splitLines t, h]

/-- The lines of a text are cut, and none is empty. -/
theorem splitLines_spec (s : List Char) : ∀ before line after,
    splitLines s = before ++ line :: after → line ≠ [] ∧ (Ended line ∨ Open line ∧ after = []) := by
  have hbreak : ∀ c, isBreak c = true → Ended [c] :=
    fun c hc => ⟨[], c, fun d hd => absurd hd List.not_mem_nil, hc, Or.inl rfl⟩
  induction s using splitLines.induct with
  | case1 =>
    intro before line after h
    cases before with
    | nil => cases h
    | cons _ _ => cases h
  | case2 s ih =>
    intro before line after h
    cases before with
    | nil =>
      obtain ⟨rfl, rfl⟩ := List.cons.inj h
      refine ⟨List.cons_ne_nil _ _, Or.inl ⟨[], '\n', ?_, by decide, Or.inr rfl⟩⟩
      exact fun d hd => absurd hd List.not_mem_nil
    | cons _ before => exact ih before line after (List.cons.inj h).2
  | case3 c s hcrlf hc ih =>
    intro before line after h
    rw [splitLines_break hc fun hcr heq => ?_] at h
    · cases before with
      | nil =>
        obtain ⟨rfl, rfl⟩ := List.cons.inj h
        exact ⟨List.cons_ne_nil _ _, Or.inl (hbreak c hc)⟩
      | cons _ before => exact ih before line after (List.cons.inj h).2
    · cases s with
      | nil => cases heq
      | cons d s => exact hcrlf s hcr (by rw [Option.some.inj heq])
  | case4 c s hcrlf hc ih =>
    rw [Bool.not_eq_true] at hc
    intro before line after h
    rw [splitLines_cons_of_open hc] at h
    cases hlines : splitLines s with
    | nil =>
      rw [hlines] at h
      cases before with
      | nil =>
        obtain ⟨rfl, rfl⟩ := List.cons.inj h
        refine ⟨List.cons_ne_nil _ _, Or.inr ⟨?_, rfl⟩⟩
        intro d hd
        rw [List.mem_singleton.mp hd, hc]
      | cons _ before =>
        have hnil := (List.cons.inj h).2
        cases before with
        | nil => cases hnil
        | cons _ _ => cases hnil
    | cons first rest =>
      rw [hlines] at h
      cases before with
      | nil =>
        obtain ⟨rfl, rfl⟩ := List.cons.inj h
        refine ⟨List.cons_ne_nil _ _, ?_⟩
        rcases (ih [] first rest hlines).2 with ⟨body, d, hbody, hd, heq⟩ | ⟨hopen, hnil⟩
        · refine Or.inl ⟨c :: body, d, ?_, hd, ?_⟩
          · exact List.forall_mem_cons.mpr ⟨hc, hbody⟩
          · rcases heq with rfl | rfl
            · exact Or.inl rfl
            · exact Or.inr rfl
        · exact Or.inr ⟨List.forall_mem_cons.mpr ⟨hc, hopen⟩, hnil⟩
      | cons _ before =>
        have hrest := (List.cons.inj h).2
        exact ih (first :: before) line after (by rw [hlines, hrest]; rfl)

theorem cut_splitLines (s : List Char) : Cut (splitLines s) :=
  fun before line after h => (splitLines_spec s before line after h).2

end AiAgentsSwd.Text
