import AiAgentsSwd.Diffs.Unified
import Mathlib.Data.List.Chain

/-!
# Diffs.Counts — what a summary counts

A summary splits the text of a diff again and counts lines by how they start. The lines of the
hunks are split as they were put together, but for one place: where the last line of the first
text has no line break and is replaced, the first inserted line is glued to it. A line that is
inserted is counted unless it was glued or starts with two pluses, for it then looks like a
header; a line that is deleted, unless it starts with two minuses. Lines of the path itself may
be counted instead.
-/

namespace AiAgentsSwd.Diffs

open Text (Cut Ended Open Starts chomp isBreak splitLines strOf)

/-! ## Counting lines -/

def isHunk (line : Line) : Bool := startsWith "@@" line

def isAdded (line : Line) : Bool := startsWith "+" line && !startsWith "+++" line

def isRemoved (line : Line) : Bool := startsWith "-" line && !startsWith "---" line

theorem isHunk_cons (c : Char) (line : Line) :
    isHunk (c :: line) = (c == '@' && ['@'].isPrefixOf line) := by
  rw [Bool.beq_comm]
  rfl

theorem isAdded_cons (c : Char) (line : Line) :
    isAdded (c :: line) = (c == '+' && !startsWith "++" line) := by
  have hplus : startsWith "+" (c :: line) = ('+' == c && true) := by
    cases line with
    | nil => rfl
    | cons d line => rfl
  have htriple : startsWith "+++" (c :: line) = ('+' == c && startsWith "++" line) := rfl
  rw [isAdded, hplus, htriple, Bool.beq_comm]
  cases c == '+' <;> simp

theorem isRemoved_cons (c : Char) (line : Line) :
    isRemoved (c :: line) = (c == '-' && !startsWith "--" line) := by
  have hminus : startsWith "-" (c :: line) = ('-' == c && true) := by
    cases line with
    | nil => rfl
    | cons d line => rfl
  have htriple : startsWith "---" (c :: line) = ('-' == c && startsWith "--" line) := rfl
  rw [isRemoved, hminus, htriple, Bool.beq_comm]
  cases c == '-' <;> simp

/-- A line is of one kind at most. -/
theorem kinds_exclude (line : Line) : (isHunk line = true → isAdded line = false) ∧
    (isHunk line = true → isRemoved line = false) ∧
    (isAdded line = true → isRemoved line = false) := by
  cases line with
  | nil => decide
  | cons c line =>
    rw [isHunk_cons, isAdded_cons, isRemoved_cons]
    have hfirst : ∀ {x y : Bool}, (x && y) = true → x = true := fun h => (Bool.and_eq_true_iff.mp h).1
    refine ⟨fun h => ?_, fun h => ?_, fun h => ?_⟩
    · rw [beq_iff_eq.mp (hfirst h)]
      rfl
    · rw [beq_iff_eq.mp (hfirst h)]
      rfl
    · rw [beq_iff_eq.mp (hfirst h)]
      rfl

theorem countLine_eq (counts : Nat × Nat × Nat) (line : Line) :
    countLine counts line = (counts.1 + (isAdded line).toNat, counts.2.1 + (isRemoved line).toNat,
      counts.2.2 + (isHunk line).toNat) := by
  have hkinds := kinds_exclude line
  show (if isHunk line then _ else if isAdded line then _ else if isRemoved line then _ else _) = _
  by_cases hhunk : isHunk line = true
  · rw [if_pos hhunk, hkinds.1 hhunk, hkinds.2.1 hhunk, hhunk]
    rfl
  rw [if_neg hhunk, Bool.eq_false_iff.mpr hhunk]
  by_cases hadded : isAdded line = true
  · rw [if_pos hadded, hkinds.2.2 hadded, hadded]
    rfl
  rw [if_neg hadded, Bool.eq_false_iff.mpr hadded]
  by_cases hremoved : isRemoved line = true
  · rw [if_pos hremoved, hremoved]
    rfl
  · rw [if_neg hremoved, Bool.eq_false_iff.mpr hremoved]
    rfl

theorem foldl_countLine (lines : List Line) (counts : Nat × Nat × Nat) :
    lines.foldl countLine counts = (counts.1 + lines.countP isAdded,
      counts.2.1 + lines.countP isRemoved, counts.2.2 + lines.countP isHunk) := by
  have hcount : ∀ (p : Line → Bool) line rest,
      (line :: rest).countP p = (p line).toNat + rest.countP p := by
    intro p line rest
    rw [List.countP_cons, Nat.add_comm]
    cases p line <;> rfl
  induction lines generalizing counts with
  | nil => rfl
  | cons line lines ih =>
    rw [List.foldl_cons, ih, countLine_eq, hcount, hcount, hcount, Nat.add_assoc, Nat.add_assoc,
      Nat.add_assoc]

/-- The line breaks make no difference to a count. -/
theorem kind_chomp (line : Line) : isAdded (chomp line) = isAdded line ∧
    isRemoved (chomp line) = isRemoved line ∧ isHunk (chomp line) = isHunk line := by
  have hstart : ∀ start : String, Open start.toList →
      startsWith start (chomp line) = startsWith start line :=
    fun start h => Text.isPrefixOf_chomp h line
  unfold isAdded isRemoved isHunk
  rw [hstart "+" (by decide), hstart "+++" (by decide), hstart "-" (by decide),
    hstart "---" (by decide), hstart "@@" (by decide)]
  exact ⟨rfl, rfl, rfl⟩

/-- The three numbers of a summary. -/
theorem summarizeDiff_counts (text : List Char) :
    (summarizeDiff text).added = (splitLines text).countP isAdded ∧
      (summarizeDiff text).removed = (splitLines text).countP isRemoved ∧
      (summarizeDiff text).hunks = (splitLines text).countP isHunk := by
  have hchomp : ∀ p : Line → Bool, (∀ line, p (chomp line) = p line) →
      ((splitLines text).map chomp).countP p = (splitLines text).countP p := by
    intro p hp
    rw [List.countP_map]
    exact List.countP_congr fun line _ => by rw [Function.comp_apply, hp line]
  unfold summarizeDiff
  by_cases hnil : text = []
  · rw [if_pos hnil, hnil]
    exact ⟨rfl, rfl, rfl⟩
  · rw [if_neg hnil]
    simp only [foldl_countLine, Nat.zero_add]
    exact ⟨hchomp _ fun line => (kind_chomp line).1, hchomp _ fun line => (kind_chomp line).2.1,
      hchomp _ fun line => (kind_chomp line).2.2⟩

/-! ## The lines of an opcode -/

variable {a b lines : List Line} {op next last : Opcode}

theorem slice_eq (lines : List Line) (i j : Nat) :
    (lines.take j).take i ++ slice lines i j ++ lines.drop j = lines := by
  rw [slice, List.take_append_drop, List.take_append_drop]

theorem cut_slice (h : Cut lines) (i j : Nat) : Cut (slice lines i j) := by
  rw [← slice_eq lines i j] at h
  exact h.part

/-- A line that is not the last one ends. -/
theorem ended_slice (h : Cut lines) {i j : Nat} (hj : j < lines.length) :
    ∀ line ∈ slice lines i j, Ended line := by
  intro line hline
  rcases List.append_of_mem (List.mem_of_mem_drop hline) with ⟨before, after, hsplit⟩
  have hlines : lines = before ++ line :: (after ++ lines.drop j) := by
    calc lines = lines.take j ++ lines.drop j := (List.take_append_drop j lines).symm
      _ = before ++ line :: (after ++ lines.drop j) := by rw [hsplit]; simp
  rcases h before line _ hlines with hended | ⟨-, hnil⟩
  · exact hended
  · have hdrop := List.drop_eq_nil_iff.mp (List.append_eq_nil_iff.mp hnil).2
    omega

theorem slice_subset {i j i' j' : Nat} (hi : i ≤ i') (hj : j' ≤ j) :
    slice lines i' j' ⊆ slice lines i j := by
  intro line hline
  have hprefix : lines.take j' <+: lines.take j := List.take_prefix_take_left hj
  have hdrop : slice lines i' j' <+: slice lines i' j := hprefix.drop i'
  exact (List.drop_subset_drop_left _ hi) (hdrop.subset hline)

variable (a b) in
/-- Every line of the opcode ends. -/
def Settled (op : Opcode) : Prop := ∀ line ∈ opLines a b op, Ended line

/-- The lines of an opcode, with their marks. -/
theorem settled_op_iff : Settled a b op ↔
    (op.tag = .equal → ∀ line ∈ slice a op.i1 op.i2, Ended (' ' :: line)) ∧
      (op.tag ≠ .equal → (∀ line ∈ op.deleted a, Ended ('-' :: line)) ∧
        ∀ line ∈ op.inserted b, Ended ('+' :: line)) := by
  unfold Settled opLines
  by_cases hequal : op.tag = .equal
  · simp [hequal]
  · simp [hequal, or_imp, forall_and]

theorem settled_of_equal {op' : Opcode} (htag : op'.tag = .equal) (hsettled : Settled a b op)
    (hequal : op.tag = .equal) (hi : op.i1 ≤ op'.i1) (hj : op'.i2 ≤ op.i2) : Settled a b op' := by
  rw [settled_op_iff] at hsettled ⊢
  refine ⟨fun _ line hline => hsettled.1 hequal line (slice_subset hi hj hline), ?_⟩
  intro hne
  exact absurd htag hne

theorem Settled.keepFirst (h : Settled a b op) (hequal : op.tag = .equal) (n : Nat) :
    Settled a b (op.keepFirst n) :=
  settled_of_equal hequal h hequal (Nat.le_refl _) (Nat.min_le_left _ _)

theorem Settled.keepLast (h : Settled a b op) (hequal : op.tag = .equal) (n : Nat) :
    Settled a b (op.keepLast n) :=
  settled_of_equal hequal h hequal (Nat.le_max_left _ _) (Nat.le_refl _)

/-- An opcode that another one follows has lines that end: of the two texts, one goes on. -/
theorem settled_of_next (ha : Cut a) (hb : Cut b) (hfits : op.Fits a b) (hnext : next.Fits a b)
    (hi : next.i1 = op.i2) (hj : next.j1 = op.j2) (hia : next.i2 ≤ a.length)
    (hjb : next.j2 ≤ b.length) (halternate : op.tag = .equal ↔ next.tag ≠ .equal) :
    Settled a b op := by
  rw [settled_op_iff]
  constructor
  · intro hequal line hline
    refine Text.ended_cons (by decide) ?_
    have hsame : slice a op.i1 op.i2 = slice b op.j1 op.j2 := by
      simp only [Opcode.Fits, hequal] at hfits
      exact hfits.2.2
    -- what follows is a change, of the first text or of the second
    have hgoes : op.i2 < a.length ∨ op.j2 < b.length := by
      have hchange := halternate.mp hequal
      cases htag : next.tag with
      | equal => exact absurd htag hchange
      | replace | delete =>
        simp only [Opcode.Fits, htag] at hnext
        omega
      | insert =>
        simp only [Opcode.Fits, htag] at hnext
        omega
    rcases hgoes with hgoes | hgoes
    · exact ended_slice ha hgoes line hline
    · exact ended_slice hb hgoes line (hsame ▸ hline)
  · intro hne
    have hequal : next.tag = .equal := by
      by_contra hchange
      exact hne (halternate.mpr hchange)
    simp only [Opcode.Fits, hequal] at hnext
    have hboth : op.i2 < a.length ∧ op.j2 < b.length := by
      omega
    constructor
    · intro line hline
      unfold Opcode.deleted at hline
      split at hline
      · exact Text.ended_cons (by decide) (ended_slice ha hboth.1 line hline)
      · cases hline
    · intro line hline
      unfold Opcode.inserted at hline
      split at hline
      · exact Text.ended_cons (by decide) (ended_slice hb hboth.2 line hline)
      · cases hline

/-- Every opcode but the last one is settled. -/
theorem settled_init (ha : Cut a) (hb : Cut b) {ops : List Opcode} {i j : Nat}
    (hchain : Chain a b i j (ops ++ [last]))
    (halternate : (ops ++ [last]).IsChain fun x y => x.tag = .equal ↔ y.tag ≠ .equal) :
    ∀ op ∈ ops, Settled a b op := by
  induction ops generalizing i j with
  | nil =>
    intro op hop
    cases hop
  | cons first rest ih =>
    rcases hchain with ⟨-, -, -, -, hfits, hchain⟩
    have htail : (rest ++ [last]).IsChain fun x y => x.tag = .equal ↔ y.tag ≠ .equal :=
      halternate.tail
    intro op hop
    rcases List.mem_cons.mp hop with rfl | hop
    · -- the opcode that follows it
      cases rest with
      | nil =>
        rcases hchain with ⟨hi, hj, hia, hjb, hlast, -⟩
        have halt := (List.isChain_cons_cons.mp halternate).1
        exact settled_of_next ha hb hfits hlast hi hj hia hjb halt
      | cons next rest =>
        rcases hchain with ⟨hi, hj, hia, hjb, hnext, -⟩
        have halt := (List.isChain_cons_cons.mp halternate).1
        exact settled_of_next ha hb hfits hnext hi hj hia hjb halt
    · exact ih hchain htail op hop

/-! ## Hunks -/

theorem open_strOf (i : Int) : Open (strOf i) := by
  have hplain : ∀ c ∈ '-' :: Text.asciiDigits, isBreak c = false :=
    List.all_iff_forall_prop.mp (by decide)
  exact fun c hc => hplain c (List.mem_cons.mpr (Text.mem_strOf hc))

theorem open_append {u v : List Char} (hu : Open u) (hv : Open v) : Open (u ++ v) := by
  intro c hc
  rcases List.mem_append.mp hc with hc | hc
  · exact hu c hc
  · exact hv c hc

theorem open_formatRangeUnified (start stop : Nat) : Open (formatRangeUnified start stop) := by
  have hcomma : ∀ i j : Int, Open (strOf i ++ ',' :: strOf j) := fun i j =>
    open_append (open_strOf i) (List.forall_mem_cons.mpr ⟨by decide, open_strOf j⟩)
  unfold formatRangeUnified
  split
  · exact open_strOf _
  · split
    · exact hcomma _ _
    · exact hcomma _ _

theorem ended_hunkLine (group : List Opcode) : Ended (hunkLine group) := by
  refine Text.ended_append (u := "@@ -".toList) (by decide) ?_
  refine Text.ended_append (open_formatRangeUnified _ _) ?_
  refine Text.ended_append (u := [' ', '+']) (by decide) ?_
  refine Text.ended_append (open_formatRangeUnified _ _) ?_
  exact ⟨[' ', '@', '@'], '\n', by decide, by decide, Or.inl rfl⟩

theorem starts_opLines (op : Opcode) : Starts (opLines a b op) := by
  have hmark : ∀ (c : Char) (lines : List Line), c ≠ '\n' → Starts (lines.map (c :: ·)) := by
    intro c lines hc line hline
    rcases List.mem_map.mp hline with ⟨rest, -, rfl⟩
    exact ⟨List.cons_ne_nil _ _, fun h => hc (Option.some.inj h)⟩
  unfold opLines
  split
  · exact hmark _ _ (by decide)
  · intro line hline
    rcases List.mem_append.mp hline with hline | hline
    · exact hmark _ _ (by decide) line hline
    · exact hmark _ _ (by decide) line hline

theorem starts_hunkLines (groups : List (List Opcode)) : Starts (hunkLines a b groups) := by
  intro line hline
  rcases List.mem_flatMap.mp hline with ⟨group, -, hline⟩
  rcases List.mem_cons.mp hline with rfl | hline
  · refine ⟨List.cons_ne_nil _ _, fun h => ?_⟩
    exact absurd (Option.some.inj h) (by decide)
  · rcases List.mem_flatMap.mp hline with ⟨op, -, hline⟩
    exact starts_opLines op line hline

/-- What the groups have of the changes is what the opcodes have. -/
theorem flatMap_grouped {f : Opcode → List Line} (hf : ∀ op, op.tag = .equal → f op = []) (n : Nat)
    (group ops : List Opcode) :
    (grouped n group ops).flatten.flatMap f = (group ++ ops).flatMap f := by
  induction ops generalizing group with
  | nil =>
    unfold grouped
    rw [List.append_nil]
    split
    case isTrue h =>
      rcases h with rfl | h
      · rfl
      · rcases List.map_eq_cons_iff.mp h with ⟨op, rest, rfl, hop, hrest⟩
        rw [List.map_eq_nil_iff.mp hrest, List.flatMap_singleton, hf op hop]
        rfl
    case isFalse => rw [List.flatten_singleton]
  | cons op ops ih =>
    unfold grouped
    split
    case isTrue h =>
      -- nothing of an equal range counts
      rw [List.flatten_cons, List.flatMap_append, ih, List.flatMap_append, List.flatMap_append,
        List.flatMap_append, List.flatMap_singleton, List.flatMap_singleton, List.flatMap_cons,
        hf op h.1, hf _ (show (op.keepFirst n).tag = .equal from h.1),
        hf _ (show (op.keepLast n).tag = .equal from h.1), List.append_nil]
    case isFalse => rw [ih, List.append_assoc, List.singleton_append]

theorem flatMap_fixFirst {f : Opcode → List Line} (hf : ∀ op, op.tag = .equal → f op = []) (n : Nat)
    (ops : List Opcode) : (fixFirst n ops).flatMap f = ops.flatMap f := by
  cases ops with
  | nil => rfl
  | cons op ops =>
    unfold fixFirst
    rw [List.flatMap_cons, List.flatMap_cons]
    split
    case isTrue h => rw [hf op h, hf _ (show (op.keepLast n).tag = .equal from h)]
    case isFalse => rfl

theorem fixLast_concat (n : Nat) (ops : List Opcode) (last : Opcode) :
    fixLast n (ops ++ [last]) =
      ops ++ [if last.tag = .equal then last.keepFirst n else last] := by
  induction ops with
  | nil => rfl
  | cons op ops ih =>
    have hstep : fixLast n (op :: (ops ++ [last])) = op :: fixLast n (ops ++ [last]) := by
      cases ops with
      | nil => rfl
      | cons next ops => rfl
    rw [List.cons_append, hstep, ih]
    rfl

theorem flatMap_fixLast {f : Opcode → List Line} (hf : ∀ op, op.tag = .equal → f op = []) (n : Nat)
    (ops : List Opcode) : (fixLast n ops).flatMap f = ops.flatMap f := by
  rcases List.eq_nil_or_concat ops with rfl | ⟨init, last, rfl⟩
  · rfl
  · rw [List.concat_eq_append, fixLast_concat, List.flatMap_append, List.flatMap_append,
      List.flatMap_singleton, List.flatMap_singleton]
    split
    case isTrue h => rw [hf last h, hf _ (show (last.keepFirst n).tag = .equal from h)]
    case isFalse => rfl

theorem flatMap_groupedOpcodes {f : Opcode → List Line} (hf : ∀ op, op.tag = .equal → f op = [])
    (n : Nat) (ops : List Opcode) :
    (groupedOpcodes n ops).flatten.flatMap f = ops.flatMap f := by
  unfold groupedOpcodes
  simp only
  rw [flatMap_grouped hf, List.nil_append, flatMap_fixLast hf, flatMap_fixFirst hf]
  split
  case isTrue h =>
    rw [h, List.flatMap_singleton, hf _ rfl]
    rfl
  case isFalse => rfl

/-- The lines of the last opcode come last, and the lines before them end. -/
theorem grouped_lines {n : Nat} {group ops : List Opcode} (hgroup : ∀ op ∈ group, Settled a b op)
    (hops : ∀ op ∈ ops, Settled a b op)
    (hlast : ¬ (last.tag = .equal ∧ n + n < last.i2 - last.i1))
    (hsome : group ≠ [] ∨ ops ≠ [] ∨ last.tag ≠ .equal) :
    ∃ before, (∀ line ∈ before, Ended line) ∧ grouped n group (ops ++ [last]) ≠ [] ∧
      hunkLines a b (grouped n group (ops ++ [last])) = before ++ opLines a b last := by
  induction ops generalizing group with
  | nil =>
    have hkept : ¬ (group ++ [last] = [] ∨ (group ++ [last]).map Opcode.tag = [.equal]) := by
      rintro (hnil | htags)
      · exact absurd hnil (by simp)
      · cases group with
        | nil =>
          rcases hsome with h | h | h
          · exact h rfl
          · exact h rfl
          · exact h (List.cons.inj htags).1
        | cons op group => simp at htags
    rw [List.nil_append, grouped, if_neg hlast, grouped, if_neg hkept]
    refine ⟨hunkLine (group ++ [last]) :: group.flatMap (opLines a b), ?_, by simp, ?_⟩
    · intro line hline
      rcases List.mem_cons.mp hline with rfl | hline
      · exact ended_hunkLine _
      · rcases List.mem_flatMap.mp hline with ⟨op, hop, hline⟩
        exact hgroup op hop line hline
    · simp [hunkLines]
  | cons op ops ih =>
    rw [List.forall_mem_cons] at hops
    rw [List.cons_append, grouped]
    by_cases hlong : op.tag = .equal ∧ n + n < op.i2 - op.i1
    · rw [if_pos hlong]
      have hkeep : ∀ o ∈ [op.keepLast n], Settled a b o := by
        intro o ho
        rw [List.mem_singleton.mp ho]
        exact hops.1.keepLast hlong.1 n
      rcases ih hkeep hops.2 (Or.inl (by simp)) with ⟨before, hbefore, -, hlines⟩
      refine ⟨hunkLine (group ++ [op.keepFirst n]) ::
        ((group ++ [op.keepFirst n]).flatMap (opLines a b) ++ before), ?_, by simp, ?_⟩
      · intro line hline
        rcases List.mem_cons.mp hline with rfl | hline
        · exact ended_hunkLine _
        rcases List.mem_append.mp hline with hline | hline
        · rcases List.mem_flatMap.mp hline with ⟨o, ho, hline⟩
          rcases List.mem_append.mp ho with ho | ho
          · exact hgroup o ho line hline
          · rw [List.mem_singleton.mp ho] at hline
            exact hops.1.keepFirst hlong.1 n line hline
        · exact hbefore line hline
      · rw [hunkLines, List.flatMap_cons]
        rw [hunkLines] at hlines
        rw [hlines]
        simp
    · rw [if_neg hlong]
      refine ih ?_ hops.2 (Or.inl (by simp))
      intro o ho
      rcases List.mem_append.mp ho with ho | ho
      · exact hgroup o ho
      · rw [List.mem_singleton.mp ho]
        exact hops.1

theorem fixFirst_concat (n : Nat) {ops : List Opcode} (h : ops ≠ [] ∨ last.tag ≠ .equal) :
    fixFirst n (ops ++ [last]) = fixFirst n ops ++ [last] := by
  cases ops with
  | nil =>
    have hne : last.tag ≠ .equal := h.resolve_left fun hnil => hnil rfl
    show [if last.tag = .equal then last.keepLast n else last] = [last]
    rw [if_neg hne]
  | cons op ops => rfl

theorem groupedOpcodes_lines (n : Nat) {ops : List Opcode} (hops : ∀ op ∈ ops, Settled a b op)
    (hsome : ops ≠ [] ∨ last.tag ≠ .equal) :
    ∃ before, (∀ line ∈ before, Ended line) ∧ groupedOpcodes n (ops ++ [last]) ≠ [] ∧
      hunkLines a b (groupedOpcodes n (ops ++ [last])) =
        before ++ opLines a b (if last.tag = .equal then last.keepFirst n else last) := by
  have hne : ops ++ [last] ≠ [] := by
    simp
  have hfirst : ∀ op ∈ fixFirst n ops, Settled a b op := by
    cases ops with
    | nil => exact hops
    | cons op ops =>
      rw [List.forall_mem_cons] at hops
      refine List.forall_mem_cons.mpr ⟨?_, hops.2⟩
      split
      case isTrue h => exact hops.1.keepLast h n
      case isFalse => exact hops.1
  unfold groupedOpcodes
  simp only [if_neg hne, fixFirst_concat n hsome, fixLast_concat]
  refine grouped_lines (fun op hop => absurd hop List.not_mem_nil) hfirst ?_ (Or.inr ?_)
  · -- the last range is cut to `n` lines at most
    split
    case isTrue h =>
      rintro ⟨-, hlong⟩
      simp only [Opcode.keepFirst] at hlong
      omega
    case isFalse h => exact fun hlong => h hlong.1
  · rcases hsome with h | h
    · refine Or.inl fun hnil => h ?_
      cases ops with
      | nil => rfl
      | cons op ops => cases hnil
    · rw [if_neg h]
      exact Or.inr h

/-! ## Splitting the hunks again -/

theorem cut_deleted (ha : Cut a) (op : Opcode) : Cut (op.deleted a) := by
  unfold Opcode.deleted
  split
  · exact cut_slice ha _ _
  · intro before line after h
    simp at h

theorem cut_inserted (hb : Cut b) (op : Opcode) : Cut (op.inserted b) := by
  unfold Opcode.inserted
  split
  · exact cut_slice hb _ _
  · intro before line after h
    simp at h

theorem deleted_subset (op : Opcode) : op.deleted a ⊆ a := by
  intro line hline
  unfold Opcode.deleted at hline
  split at hline
  · exact List.mem_of_mem_take (List.mem_of_mem_drop hline)
  · cases hline

/-- The lines of an opcode are cut, but where an open line is replaced. -/
theorem cut_opLines (ha : Cut a) (hb : Cut b)
    (h : op.tag = .replace → ∀ line ∈ op.deleted a, Ended line) : Cut (opLines a b op) := by
  unfold opLines
  split
  · exact (cut_slice ha _ _).map_cons (by decide)
  case isFalse hne =>
    cases htag : op.tag with
    | equal => exact absurd htag hne
    | replace =>
      refine Cut.append ?_ ((cut_inserted hb op).map_cons (by decide))
      intro line hline
      rcases List.mem_map.mp hline with ⟨rest, hrest, rfl⟩
      exact Text.ended_cons (by decide) (h htag rest hrest)
    | delete =>
      have hinserted : op.inserted b = [] := by
        simp [Opcode.inserted, htag]
      rw [hinserted, List.map_nil, List.append_nil]
      exact (cut_deleted ha op).map_cons (by decide)
    | insert =>
      have hdeleted : op.deleted a = [] := by
        simp [Opcode.deleted, htag]
      rw [hdeleted, List.map_nil, List.nil_append]
      exact (cut_inserted hb op).map_cons (by decide)

/-- The lines of a replacement where the last deleted line is glued to the first inserted one. -/
def gluedLines (before dels : List Line) (u v : Line) (rest : List Line) : List Line :=
  (before ++ dels.map ('-' :: ·)) ++ ('-' :: u ++ '+' :: v) :: rest.map ('+' :: ·)

theorem splitLines_glued {before dels rest : List Line} {u v : Line}
    (hstarts : Starts (before ++ ((dels ++ [u]).map ('-' :: ·) ++ (v :: rest).map ('+' :: ·))))
    (hbefore : ∀ line ∈ before, Ended line) (hdels : ∀ line ∈ dels, Ended line) (hu : Open u)
    (hcut : Cut (v :: rest)) :
    splitLines (before ++ ((dels ++ [u]).map ('-' :: ·) ++ (v :: rest).map ('+' :: ·))).flatten =
      gluedLines before dels u v rest := by
  have hflatten : (before ++ ((dels ++ [u]).map ('-' :: ·) ++
      (v :: rest).map ('+' :: ·))).flatten = (gluedLines before dels u v rest).flatten := by
    simp [gluedLines]
  rw [hflatten]
  refine Text.splitLines_flatten ?_ ?_
  · intro line hline
    simp only [gluedLines, List.mem_append, List.mem_cons] at hline
    rcases hline with (hline | hline) | rfl | hline
    · exact hstarts line (by simp [hline])
    · refine hstarts line ?_
      rcases List.mem_map.mp hline with ⟨d, hd, rfl⟩
      simp [hd]
    · exact ⟨List.cons_ne_nil _ _, fun h => absurd (Option.some.inj h) (by decide)⟩
    · refine hstarts line ?_
      rcases List.mem_map.mp hline with ⟨d, hd, rfl⟩
      simp [hd]
  · refine Cut.append ?_ (Cut.cons ?_ (hcut.tail.map_cons (by decide)))
    · intro line hline
      rcases List.mem_append.mp hline with hline | hline
      · exact hbefore line hline
      · rcases List.mem_map.mp hline with ⟨d, hd, rfl⟩
        exact Text.ended_cons (by decide) (hdels d hd)
    · have hmark : Open ('-' :: u) := List.forall_mem_cons.mpr ⟨by decide, hu⟩
      rcases hcut [] v rest rfl with hended | ⟨hopen, rfl⟩
      · exact Or.inl (Text.ended_append hmark (Text.ended_cons (by decide) hended))
      · refine Or.inr ⟨open_append hmark (List.forall_mem_cons.mpr ⟨by decide, hopen⟩), rfl⟩

/-! ## Counting the hunks -/

theorem countP_marked (p : Line → Bool) (q : Line → Bool) (c : Char)
    (h : ∀ line, p (c :: line) = q line) (lines : List Line) :
    (lines.map (c :: ·)).countP p = lines.countP q := by
  rw [List.countP_map]
  exact List.countP_congr fun line _ => by rw [Function.comp_apply, h line]

/-- The inserted lines that are not taken for a header. -/
def plainAdded (line : Line) : Bool := !startsWith "++" line

/-- The deleted lines that are not taken for a header. -/
def plainRemoved (line : Line) : Bool := !startsWith "--" line

theorem countP_opLines (op : Opcode) :
    (opLines a b op).countP isAdded = (op.inserted b).countP plainAdded ∧
      (opLines a b op).countP isRemoved = (op.deleted a).countP plainRemoved ∧
      (opLines a b op).countP isHunk = 0 := by
  have hmarks : (∀ line, isAdded (' ' :: line) = false) ∧ (∀ line, isAdded ('-' :: line) = false) ∧
      (∀ line, isAdded ('+' :: line) = plainAdded line) ∧
      (∀ line, isRemoved (' ' :: line) = false) ∧
      (∀ line, isRemoved ('-' :: line) = plainRemoved line) ∧
      (∀ line, isRemoved ('+' :: line) = false) ∧ (∀ line, isHunk (' ' :: line) = false) ∧
      (∀ line, isHunk ('-' :: line) = false) ∧ (∀ line, isHunk ('+' :: line) = false) := by
    simp [isAdded_cons, isRemoved_cons, isHunk_cons, plainAdded, plainRemoved]
  rcases hmarks with ⟨h1, h2, h3, h4, h5, h6, h7, h8, h9⟩
  unfold opLines
  split
  case isTrue htag =>
    have hnone : op.inserted b = [] ∧ op.deleted a = [] := by
      simp [Opcode.inserted, Opcode.deleted, htag]
    rw [countP_marked _ _ _ h1, countP_marked _ _ _ h4, countP_marked _ _ _ h7, hnone.1, hnone.2]
    simp
  case isFalse =>
    rw [List.countP_append, List.countP_append, List.countP_append, countP_marked _ _ _ h2,
      countP_marked _ _ _ h3, countP_marked _ _ _ h5, countP_marked _ _ _ h6,
      countP_marked _ _ _ h8, countP_marked _ _ _ h9]
    simp

theorem countP_hunkLines (groups : List (List Opcode)) :
    (hunkLines a b groups).countP isAdded =
        (groups.flatten.flatMap (Opcode.inserted b)).countP plainAdded ∧
      (hunkLines a b groups).countP isRemoved =
        (groups.flatten.flatMap (Opcode.deleted a)).countP plainRemoved ∧
      (hunkLines a b groups).countP isHunk = groups.length := by
  have hgroup : ∀ group : List Opcode,
      (group.flatMap (opLines a b)).countP isAdded =
          (group.flatMap (Opcode.inserted b)).countP plainAdded ∧
        (group.flatMap (opLines a b)).countP isRemoved =
          (group.flatMap (Opcode.deleted a)).countP plainRemoved ∧
        (group.flatMap (opLines a b)).countP isHunk = 0 := by
    intro group
    induction group with
    | nil => exact ⟨rfl, rfl, rfl⟩
    | cons op group ih =>
      have hop := countP_opLines (a := a) (b := b) op
      simp only [List.flatMap_cons, List.countP_append, hop.1, hop.2.1, hop.2.2, ih.1, ih.2.1,
        ih.2.2, and_self]
  induction groups with
  | nil => exact ⟨rfl, rfl, rfl⟩
  | cons group groups ih =>
    have hmark : isAdded (hunkLine group) = false ∧ isRemoved (hunkLine group) = false ∧
        isHunk (hunkLine group) = true := by
      refine ⟨rfl, rfl, ?_⟩
      rw [hunkLine, isHunk_cons]
      rfl
    have hhead := hgroup group
    rw [hunkLines] at ih
    simp only [hunkLines, List.flatMap_cons, List.flatten_cons, List.flatMap_append,
      List.countP_append, List.countP_cons, hmark, hhead, ih, List.length_cons]
    exact ⟨by simp, by simp, by simp [Nat.add_comm]⟩

/-! ## Scripts -/

namespace Script

/-- The lines that the script inserts. -/
def inserted (script : Script a b) : List Line := script.ops.flatMap (Opcode.inserted b)

/-- The lines that the script deletes. -/
def deleted (script : Script a b) : List Line := script.ops.flatMap (Opcode.deleted a)

/-- The inserted line that is glued to a deleted one: the last opcode replaces the last line of
the first text, and this has no line break. -/
def glued (script : Script a b) : List Line :=
  match script.ops.getLast? with
  | some op =>
    if op.tag = .replace ∧ a.getLast?.any (fun line => decide (Open line)) = true then
      (op.inserted b).take 1
    else []
  | none => []

end Script

/-- Equal blocks alone make equal lists. -/
theorem eq_of_equal {ops : List Opcode} {i j : Nat} (hchain : Chain a b i j ops)
    (hequal : ∀ op ∈ ops, op.tag = .equal) : a.drop i = b.drop j := by
  have hsplit : ∀ (lines : List Line) {i j : Nat}, i ≤ j →
      lines.drop i = slice lines i j ++ lines.drop j := by
    intro lines i j hij
    calc lines.drop i = (lines.take j ++ lines.drop j).drop i := by rw [List.take_append_drop]
      _ = slice lines i j ++ (lines.drop j).drop (i - (lines.take j).length) := by
        rw [List.drop_append, slice]
      _ = slice lines i j ++ lines.drop j := by
        rw [List.length_take, List.drop_drop]
        by_cases hlen : j ≤ lines.length
        · rw [Nat.min_eq_left hlen, Nat.sub_eq_zero_of_le hij, Nat.add_zero]
        · rw [List.drop_eq_nil_of_le (by omega), List.drop_eq_nil_of_le (by omega)]
  induction ops generalizing i j with
  | nil =>
    rw [hchain.1, hchain.2, List.drop_length, List.drop_length]
  | cons op ops ih =>
    rw [List.forall_mem_cons] at hequal
    rcases hchain with ⟨rfl, rfl, -, -, hfits, hchain⟩
    simp only [Opcode.Fits, hequal.1] at hfits
    rw [hsplit a (Nat.le_of_lt hfits.1), hsplit b (Nat.le_of_lt hfits.2.1), hfits.2.2,
      ih hchain hequal.2]

/-- What a script deletes and inserts is what the lists differ by. -/
theorem length_of_chain {ops : List Opcode} {i j : Nat} (hchain : Chain a b i j ops) :
    b.length + i + (ops.flatMap (Opcode.deleted a)).length =
      a.length + j + (ops.flatMap (Opcode.inserted b)).length := by
  have hslice : ∀ (lines : List Line) (i j : Nat), j ≤ lines.length →
      (slice lines i j).length = j - i := by
    intro lines i j hj
    rw [slice, List.length_drop, List.length_take, Nat.min_eq_left hj]
  induction ops generalizing i j with
  | nil =>
    rw [hchain.1, hchain.2]
    simp only [List.flatMap_nil]
    omega
  | cons op ops ih =>
    rcases hchain with ⟨rfl, rfl, hia, hjb, hfits, hchain⟩
    have hrest := ih hchain
    have ha := hslice a op.i1 op.i2 hia
    have hb := hslice b op.j1 op.j2 hjb
    rw [List.flatMap_cons, List.flatMap_cons, List.length_append, List.length_append]
    cases htag : op.tag with
    | equal =>
      simp only [Opcode.Fits, htag] at hfits
      rw [hfits.2.2] at ha
      simp only [Opcode.deleted, Opcode.inserted, htag, reduceCtorEq, or_self, if_false,
        List.length_nil]
      omega
    | replace =>
      simp only [Opcode.Fits, htag] at hfits
      simp only [Opcode.deleted, Opcode.inserted, htag, true_or, if_true, ha, hb]
      omega
    | delete =>
      simp only [Opcode.Fits, htag] at hfits
      simp only [Opcode.deleted, Opcode.inserted, htag, or_true, reduceCtorEq, or_self, if_true,
        if_false, ha, List.length_nil]
      omega
    | insert =>
      simp only [Opcode.Fits, htag] at hfits
      simp only [Opcode.deleted, Opcode.inserted, htag, or_true, reduceCtorEq, or_self, if_true,
        if_false, hb, List.length_nil]
      omega

/-- The last opcode ends where the texts end. -/
theorem last_ends {ops : List Opcode} {i j : Nat} (hchain : Chain a b i j (ops ++ [last])) :
    last.i2 = a.length ∧ last.j2 = b.length ∧ last.Fits a b := by
  induction ops generalizing i j with
  | nil =>
    rcases hchain with ⟨-, -, -, -, hfits, hi, hj⟩
    exact ⟨hi, hj, hfits⟩
  | cons op ops ih =>
    rcases hchain with ⟨-, -, -, -, -, hchain⟩
    exact ih hchain

theorem ended_of_cut_concat {u : Line} (h : Cut (lines ++ [u])) : ∀ line ∈ lines, Ended line := by
  intro line hline
  rcases List.append_of_mem hline with ⟨before, after, rfl⟩
  rcases h before line (after ++ [u]) (by simp) with hended | ⟨-, hnil⟩
  · exact hended
  · simp at hnil

/-- A text whose last line is not open has lines that end. -/
theorem ended_of_not_open (h : Cut lines)
    (hlast : ¬ lines.getLast?.any (fun line => decide (Open line)) = true) :
    ∀ line ∈ lines, Ended line := by
  rcases List.eq_nil_or_concat lines with rfl | ⟨init, last, rfl⟩
  · intro line hline
    cases hline
  · rw [List.concat_eq_append] at h hlast ⊢
    have hended : Ended last := by
      rcases h init last [] rfl with hended | ⟨hopen, -⟩
      · exact hended
      · rw [List.getLast?_concat, Option.any_some] at hlast
        exact absurd (decide_eq_true hopen) hlast
    intro line hline
    rcases List.mem_append.mp hline with hline | hline
    · exact ended_of_cut_concat h line hline
    · rw [List.mem_singleton.mp hline]
      exact hended

/-- What is glued to a deleted line does not change how it starts. -/
theorem plainRemoved_append (u v : Line) : plainRemoved (u ++ '+' :: v) = plainRemoved u := by
  cases u with
  | nil => rfl
  | cons c u =>
    cases u with
    | nil =>
      have hone : ∀ line : Line, startsWith "--" (c :: line) = ('-' == c && startsWith "-" line) :=
        fun _ => rfl
      rw [plainRemoved, plainRemoved, List.singleton_append, hone, hone]
      rfl
    | cons d u => rfl

variable {n : Nat} {ops : List Opcode}

/-- Where nothing is glued, the hunks are split as they were put together. -/
theorem splitLines_plain (ha : Cut a) (hb : Cut b) (hops : ∀ op ∈ ops, Settled a b op)
    (hsome : ops ≠ [] ∨ last.tag ≠ .equal)
    (hplain : last.tag = .replace → ∀ line ∈ a, Ended line) :
    splitLines (hunkLines a b (groupedOpcodes n (ops ++ [last]))).flatten =
      hunkLines a b (groupedOpcodes n (ops ++ [last])) := by
  rcases groupedOpcodes_lines n hops hsome with ⟨before, hbefore, -, hlines⟩
  refine Text.splitLines_flatten (starts_hunkLines _) ?_
  rw [hlines]
  refine Cut.append hbefore (cut_opLines ha hb fun htag => ?_)
  intro line hline
  refine hplain ?_ line ?_
  · split at htag
    case isTrue h =>
      rw [show (last.keepFirst n).tag = last.tag from rfl, h] at htag
      cases htag
    case isFalse => exact htag
  · exact deleted_subset _ hline

/-- Where a line is glued, one line less is added. -/
theorem splitLines_replaced (ha : Cut a) (hb : Cut b) (hops : ∀ op ∈ ops, Settled a b op)
    (hends : last.i2 = a.length ∧ last.j2 = b.length ∧ last.Fits a b) (htag : last.tag = .replace)
    (hopen : a.getLast?.any (fun line => decide (Open line)) = true) :
    ∃ body v, (last.inserted b).take 1 = [v] ∧
      splitLines (hunkLines a b (groupedOpcodes n (ops ++ [last]))).flatten = body ∧
      body.countP isAdded + (plainAdded v).toNat =
        (hunkLines a b (groupedOpcodes n (ops ++ [last]))).countP isAdded ∧
      body.countP isRemoved =
        (hunkLines a b (groupedOpcodes n (ops ++ [last]))).countP isRemoved ∧
      body.countP isHunk = (hunkLines a b (groupedOpcodes n (ops ++ [last]))).countP isHunk := by
  rcases hends with ⟨hi, hj, hfits⟩
  simp only [Opcode.Fits, htag] at hfits
  have hdeleted : last.deleted a = a.drop last.i1 := by
    simp [Opcode.deleted, htag, slice, hi]
  have hinserted : last.inserted b = b.drop last.j1 := by
    simp [Opcode.inserted, htag, slice, hj]
  -- the last deleted line is the last line, the first inserted line is there
  rcases List.eq_nil_or_concat (a.drop last.i1) with hnil | ⟨dels, u, hdels⟩
  · have hlen := List.drop_eq_nil_iff.mp hnil
    omega
  rw [List.concat_eq_append] at hdels
  cases hins : b.drop last.j1 with
  | nil =>
    have hlen := List.drop_eq_nil_iff.mp hins
    omega
  | cons v rest =>
    have hcutDels : Cut (dels ++ [u]) := by
      rw [← hdels, ← hdeleted]
      exact cut_deleted ha last
    have hcutIns : Cut (v :: rest) := by
      rw [← hins, ← hinserted]
      exact cut_inserted hb last
    have hlast : a.getLast? = some u := by
      rw [← List.take_append_drop last.i1 a, hdels, ← List.append_assoc, List.getLast?_concat]
    rw [hlast, Option.any_some, decide_eq_true_eq] at hopen
    have hne : last.tag ≠ .equal := by
      rw [htag]
      decide
    rcases groupedOpcodes_lines n hops (Or.inr hne) with ⟨before, hbefore, -, hlines⟩
    rw [if_neg hne, opLines, if_neg hne, hdeleted, hdels, hinserted, hins] at hlines
    have hstarts := starts_hunkLines (a := a) (b := b) (groupedOpcodes n (ops ++ [last]))
    rw [hlines] at hstarts ⊢
    rw [hinserted, hins]
    refine ⟨gluedLines before dels u v rest, v, rfl, splitLines_glued hstarts hbefore
      (ended_of_cut_concat hcutDels) hopen hcutIns, ?_⟩
    have hglued : isAdded ('-' :: u ++ '+' :: v) = false ∧
        isRemoved ('-' :: u ++ '+' :: v) = isRemoved ('-' :: u) ∧
        isHunk ('-' :: u ++ '+' :: v) = false := by
      rw [List.cons_append, isAdded_cons, isRemoved_cons, isRemoved_cons, isHunk_cons]
      exact ⟨rfl, congrArg (true && ·) (plainRemoved_append u v), rfl⟩
    have hmarks : isAdded ('-' :: u) = false ∧ isAdded ('+' :: v) = plainAdded v ∧
        isRemoved ('+' :: v) = false ∧ isHunk ('-' :: u) = false ∧ isHunk ('+' :: v) = false := by
      simp [isAdded_cons, isRemoved_cons, isHunk_cons, plainAdded]
    simp only [gluedLines, List.map_append, List.map_cons, List.map_nil, List.countP_append,
      List.countP_cons, List.countP_nil, hglued, hmarks]
    refine ⟨?_, ?_, ?_⟩
    · cases plainAdded v with
      | true => simp; omega
      | false => simp; omega
    · cases isRemoved ('-' :: u) with
      | true => simp; omega
      | false => simp; omega
    · simp; omega

/-- **The hunks as they are split again**: what is glued is missing from the added lines. -/
theorem splitLines_hunks (ha : Cut a) (hb : Cut b) (script : Script a b) (hne : a ≠ b) (n : Nat) :
    groupedOpcodes n script.ops ≠ [] ∧
      (splitLines (hunkLines a b (groupedOpcodes n script.ops)).flatten).countP isAdded +
          script.glued.countP plainAdded = script.inserted.countP plainAdded ∧
      (splitLines (hunkLines a b (groupedOpcodes n script.ops)).flatten).countP isRemoved =
        script.deleted.countP plainRemoved ∧
      (splitLines (hunkLines a b (groupedOpcodes n script.ops)).flatten).countP isHunk =
        (groupedOpcodes n script.ops).length := by
  have hchange : ¬ ∀ op ∈ script.ops, op.tag = .equal := by
    intro hequal
    exact hne (eq_of_equal script.chain hequal)
  have hcounts := countP_hunkLines (a := a) (b := b) (groupedOpcodes n script.ops)
  have hinserted : (groupedOpcodes n script.ops).flatten.flatMap (Opcode.inserted b) =
      script.inserted :=
    flatMap_groupedOpcodes (fun op hop => by simp [Opcode.inserted, hop]) n script.ops
  have hdeleted : (groupedOpcodes n script.ops).flatten.flatMap (Opcode.deleted a) =
      script.deleted :=
    flatMap_groupedOpcodes (fun op hop => by simp [Opcode.deleted, hop]) n script.ops
  rw [hinserted, hdeleted] at hcounts
  rcases List.eq_nil_or_concat script.ops with hnil | ⟨ops, last, hconcat⟩
  · exact absurd (fun op hop => absurd (hnil ▸ hop) List.not_mem_nil) hchange
  rw [List.concat_eq_append] at hconcat
  have hsome : ops ≠ [] ∨ last.tag ≠ .equal := by
    by_contra hnone
    rw [not_or, not_not, not_not] at hnone
    refine hchange fun op hop => ?_
    rw [hconcat, hnone.1, List.nil_append, List.mem_singleton] at hop
    rw [hop, hnone.2]
  have hchain := script.chain
  have halternate := script.alternate
  have hgetLast : script.ops.getLast? = some last := by
    rw [hconcat, List.getLast?_concat]
  rw [hconcat] at hchain halternate hcounts ⊢
  have hsettled := settled_init ha hb hchain halternate
  rcases groupedOpcodes_lines n hsettled hsome with ⟨-, -, hgroups, -⟩
  refine ⟨hgroups, ?_⟩
  by_cases hglued : last.tag = .replace ∧ a.getLast?.any (fun line => decide (Open line)) = true
  · rcases splitLines_replaced (n := n) ha hb hsettled (last_ends hchain) hglued.1 hglued.2 with
      ⟨body, v, htake, hbody, hadded, hremoved, hhunks⟩
    have hone : script.glued = [v] := by
      rw [Script.glued, hgetLast]
      simp only [if_pos hglued, htake]
    have hcount : [v].countP plainAdded = (plainAdded v).toNat := by
      cases h : plainAdded v <;> simp [h]
    rw [hbody, hone, hcount, hadded, hremoved, hhunks]
    exact hcounts
  · have hnone : script.glued = [] := by
      rw [Script.glued, hgetLast]
      simp only [if_neg hglued]
    have hplain : last.tag = .replace → ∀ line ∈ a, Ended line := fun htag =>
      ended_of_not_open ha fun hopen => hglued ⟨htag, hopen⟩
    rw [splitLines_plain ha hb hsettled hsome hplain, hnone]
    exact hcounts

/-! ## The text of a diff -/

/-- The lines of a path after its first one. -/
def pathLines (filePath : List Char) : List Line := (splitLines (filePath ++ ['\n'])).tail

/-- Of a header, only the further lines of its path may be counted. -/
theorem splitLines_header {mark : List Char} (hmark : Open mark) (filePath rest : List Char) :
    ∃ first, splitLines (mark ++ filePath ++ '\n' :: rest) =
      (mark ++ first) :: (pathLines filePath ++ splitLines rest) := by
  rw [Text.splitLines_append_newline, List.append_assoc]
  cases hpath : splitLines (filePath ++ ['\n']) with
  | nil => exact absurd hpath (Text.splitLines_ne_nil (by simp))
  | cons first tail =>
    refine ⟨first, ?_⟩
    rw [Text.splitLines_open_append hmark hpath, pathLines, hpath]
    rfl

theorem linesOf_eq (text : List Char) : linesOf text = splitLines text := by
  unfold linesOf
  split
  case isTrue h =>
    rw [h]
    rfl
  case isFalse => rfl

variable {before after : List Char}

/-- Equal texts have no hunks. -/
theorem groupedOpcodes_self (script : Script (linesOf before) (linesOf after))
    (heq : before = after) (context : Nat) : groupedOpcodes context script.ops = [] := by
  have hequal := script.identical (congrArg linesOf heq)
  have halternate := script.alternate
  have hone : ∀ op : Opcode, op.tag = .equal →
      groupedOpcodes context [op] = [] := by
    intro op hop
    have hkept : ((op.keepLast context).keepFirst context).tag = .equal := hop
    have hshort : ¬ (((op.keepLast context).keepFirst context).tag = .equal ∧ context + context <
        ((op.keepLast context).keepFirst context).i2 -
          ((op.keepLast context).keepFirst context).i1) := by
      rintro ⟨-, hlong⟩
      simp only [Opcode.keepFirst] at hlong
      omega
    show grouped context [] (fixLast context [if op.tag = .equal then op.keepLast context else op])
      = []
    rw [if_pos hop]
    show grouped context [] [if (op.keepLast context).tag = .equal then
      (op.keepLast context).keepFirst context else op.keepLast context] = []
    rw [if_pos (show (op.keepLast context).tag = .equal from hop), grouped, if_neg hshort, grouped,
      if_pos (Or.inr (by rw [List.nil_append, List.map_singleton, hkept]))]
  cases hops : script.ops with
  | nil => exact hone ⟨.equal, 0, 1, 0, 1⟩ rfl
  | cons op ops =>
    rw [hops] at hequal halternate
    cases ops with
    | nil => exact hone op (hequal op List.mem_cons_self)
    | cons next ops =>
      -- two equal blocks would be adjacent
      have hnext := (List.isChain_cons_cons.mp halternate).1.mp (hequal op List.mem_cons_self)
      exact absurd (hequal next (List.mem_cons_of_mem _ List.mem_cons_self)) hnext

/-- The counts of a diff: twice the lines of the path, and what is left of the hunks. -/
theorem counts_of_diff (script : Script (linesOf before) (linesOf after)) (hne : before ≠ after)
    (filePath : List Char) (context : Nat) :
    groupedOpcodes context script.ops ≠ [] ∧
    (summarizeDiff (computeUnifiedDiff script.ops before after filePath context)).added +
        script.glued.countP plainAdded =
      2 * (pathLines filePath).countP isAdded + script.inserted.countP plainAdded ∧
    (summarizeDiff (computeUnifiedDiff script.ops before after filePath context)).removed =
      2 * (pathLines filePath).countP isRemoved + script.deleted.countP plainRemoved ∧
    (summarizeDiff (computeUnifiedDiff script.ops before after filePath context)).hunks =
      2 * (pathLines filePath).countP isHunk + (groupedOpcodes context script.ops).length := by
  have hlines : linesOf before ≠ linesOf after := by
    rw [linesOf_eq, linesOf_eq]
    exact fun h => hne (Text.splitLines_inj h)
  have hcutBefore : Cut (linesOf before) := by
    rw [linesOf_eq]
    exact Text.cut_splitLines before
  have hcutAfter : Cut (linesOf after) := by
    rw [linesOf_eq]
    exact Text.cut_splitLines after
  rcases splitLines_hunks hcutBefore hcutAfter script hlines context with
    ⟨hgroups, hadded, hremoved, hhunks⟩
  have htext : computeUnifiedDiff script.ops before after filePath context =
      "--- a/".toList ++ filePath ++ '\n' :: ("+++ b/".toList ++ filePath ++ '\n' ::
        (hunkLines (linesOf before) (linesOf after)
          (groupedOpcodes context script.ops)).flatten) := by
    unfold computeUnifiedDiff unifiedDiff
    simp only [if_neg hgroups, List.flatten_cons]
    simp
  rcases @splitLines_header "+++ b/".toList (by decide) filePath
    (hunkLines (linesOf before) (linesOf after) (groupedOpcodes context script.ops)).flatten with
    ⟨second, hsecond⟩
  rcases @splitLines_header "--- a/".toList (by decide) filePath ("+++ b/".toList ++
    filePath ++ '\n' :: (hunkLines (linesOf before) (linesOf after)
      (groupedOpcodes context script.ops)).flatten) with ⟨first, hfirst⟩
  rw [hsecond] at hfirst
  have hsummary := summarizeDiff_counts
    (computeUnifiedDiff script.ops before after filePath context)
  rw [htext, hfirst] at hsummary
  have hheaders : ∀ line, isAdded ("--- a/".toList ++ line) = false ∧
      isRemoved ("--- a/".toList ++ line) = false ∧ isHunk ("--- a/".toList ++ line) = false ∧
      isAdded ("+++ b/".toList ++ line) = false ∧ isRemoved ("+++ b/".toList ++ line) = false ∧
      isHunk ("+++ b/".toList ++ line) = false :=
    fun _ => ⟨rfl, rfl, rfl, rfl, rfl, rfl⟩
  rw [htext]
  simp only [List.countP_cons, List.countP_append, hheaders, Bool.false_eq_true, if_false,
    Nat.add_zero] at hsummary
  refine ⟨hgroups, ?_, ?_, ?_⟩
  · omega
  · omega
  · omega

/-! ## What a summary counts -/

/-- The summary of a diff counts what its script inserts and deletes, and its hunks. -/
structure Counted (before after filePath : List Char) (context : Nat)
    (script : Script (linesOf before) (linesOf after)) (summary : DiffSummary) : Prop where
  added : summary.added = script.inserted.length
  removed : summary.removed = script.deleted.length
  lines : (summary.added : Int) - summary.removed =
    ((splitLines after).length : Int) - (splitLines before).length
  hunks : summary.hunks = (groupedOpcodes context script.ops).length
  zero : (summary.added = 0 ∧ summary.removed = 0 ∧ summary.hunks = 0) ↔ before = after

/-- The inserted lines that are not counted: those that look like a header, and the glued one. -/
def missedAdded {a b : List Line} (script : Script a b) : Nat :=
  script.inserted.countP (startsWith "++") + script.glued.countP plainAdded

/-- The deleted lines that are not counted. -/
def missedRemoved {a b : List Line} (script : Script a b) : Nat :=
  script.deleted.countP (startsWith "--")

theorem length_eq_countP (p q : Line → Bool) (h : ∀ line, q line = !p line) (lines : List Line) :
    lines.length = lines.countP p + lines.countP q := by
  rw [List.length_eq_countP_add_countP p]
  congr 1
  exact List.countP_congr fun line _ => by rw [h line]; simp

/-- **A summary counts the diff exactly when the texts are equal or the lines that it misses are
made up for by the path**, each line of which stands in both headers. -/
theorem counted_iff (before after filePath : List Char) (context : Nat)
    (script : Script (linesOf before) (linesOf after)) :
    Counted before after filePath context script
        (summarizeDiff (computeUnifiedDiff script.ops before after filePath context)) ↔
      before = after ∨
        missedAdded script = 2 * (pathLines filePath).countP isAdded ∧
          missedRemoved script = 2 * (pathLines filePath).countP isRemoved ∧
          (pathLines filePath).countP isHunk = 0 := by
  have hlength : (linesOf after).length + script.deleted.length =
      (linesOf before).length + script.inserted.length := length_of_chain script.chain
  have hafter : (splitLines after).length = (linesOf after).length := by
    rw [linesOf_eq]
  have hbefore : (splitLines before).length = (linesOf before).length := by
    rw [linesOf_eq]
  have hinserted : script.inserted.length = script.inserted.countP (startsWith "++") +
      script.inserted.countP plainAdded := length_eq_countP _ _ (fun _ => rfl) _
  have hdeleted : script.deleted.length = script.deleted.countP (startsWith "--") +
      script.deleted.countP plainRemoved := length_eq_countP _ _ (fun _ => rfl) _
  by_cases heq : before = after
  · refine iff_of_true ?_ (Or.inl heq)
    have hequal := script.identical (congrArg linesOf heq)
    have hgroups := groupedOpcodes_self script heq context
    have hnoneInserted : script.inserted = [] := List.flatMap_eq_nil_iff.mpr fun op hop => by
      simp [Opcode.inserted, hequal op hop]
    have hnoneDeleted : script.deleted = [] := List.flatMap_eq_nil_iff.mpr fun op hop => by
      simp [Opcode.deleted, hequal op hop]
    have hempty : computeUnifiedDiff script.ops before after filePath context = [] := by
      unfold computeUnifiedDiff unifiedDiff
      simp only [hgroups, if_true, List.flatten_nil]
    rw [hempty]
    exact {
      added := by rw [hnoneInserted]; rfl
      removed := by rw [hnoneDeleted]; rfl
      lines := by rw [heq]; simp [summarizeDiff]
      hunks := by rw [hgroups]; rfl
      zero := iff_of_true ⟨rfl, rfl, rfl⟩ heq }
  · rcases counts_of_diff script heq filePath context with ⟨hgroups, hadded, hremoved, hhunks⟩
    have hpos : 0 < (groupedOpcodes context script.ops).length :=
      List.length_pos_iff.mpr hgroups
    unfold missedAdded missedRemoved
    constructor
    · intro h
      have h1 := h.added
      have h2 := h.removed
      have h3 := h.hunks
      refine Or.inr ⟨?_, ?_, ?_⟩
      · omega
      · omega
      · omega
    · rintro (hsame | ⟨h1, h2, h3⟩)
      · exact absurd hsame heq
      · exact {
          added := by omega
          removed := by omega
          lines := by omega
          hunks := by omega
          zero := iff_of_false (fun h => by omega) heq }

/-- Of a path of one line, the condition is about the texts alone. -/
theorem counted_iff_of_plain_path {before after filePath : List Char} (hpath : Open filePath)
    (context : Nat) (script : Script (linesOf before) (linesOf after)) (hne : before ≠ after) :
    Counted before after filePath context script
        (summarizeDiff (computeUnifiedDiff script.ops before after filePath context)) ↔
      (∀ line ∈ script.inserted, startsWith "++" line = false) ∧
        (∀ line ∈ script.deleted, startsWith "--" line = false) ∧
        ∀ line ∈ script.glued, startsWith "++" line = true := by
  have hnone : pathLines filePath = [] := by
    have hend : Ended (filePath ++ ['\n']) := ⟨filePath, '\n', hpath, by decide, Or.inl rfl⟩
    have hone := Text.splitLines_ended_append hend (s := []) (by simp [Text.Follows])
    rw [List.append_nil] at hone
    rw [pathLines, hone]
    rfl
  rw [counted_iff, hnone, missedAdded, missedRemoved]
  simp [hne, plainAdded, List.countP_eq_zero]
  tauto

/-! ## A line that begins with two pluses -/

theorem chain_increment :
    Chain (linesOf []) (linesOf "++i;\n".toList) 0 0 [⟨.insert, 0, 0, 0, 1⟩] :=
  ⟨rfl, rfl, Nat.zero_le _, Nat.le_refl 1, ⟨rfl, Nat.one_pos⟩, rfl, rfl⟩

theorem increment_ne : linesOf [] ≠ linesOf "++i;\n".toList := by
  decide

/-- The script of the one line `++i;` in a new file. -/
def incrementScript : Script (linesOf []) (linesOf "++i;\n".toList) where
  ops := [⟨.insert, 0, 0, 0, 1⟩]
  chain := chain_increment
  alternate := List.isChain_singleton _
  identical := fun heq => absurd heq increment_ne

/-- One line is inserted, and none is counted. -/
theorem increment_not_counted :
    ¬ Counted [] "++i;\n".toList "src/counter.js".toList 3 incrementScript
      (summarizeDiff (computeUnifiedDiff incrementScript.ops [] "++i;\n".toList
        "src/counter.js".toList 3)) := by
  intro h
  exact absurd h.added (by decide)

end AiAgentsSwd.Diffs
