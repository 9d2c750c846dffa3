import AiAgentsSwd.Text.Decimal
import AiAgentsSwd.Text.Lines

/-!
# Diffs.Unified — a unified diff and its summary

Model of `compute_unified_diff` and `summarize_diff` of `shared/sdk/code_workspace/diff.py`, with
the part of `difflib` that writes a diff: the grouping of opcodes into hunks and the lines of a
hunk. Which opcodes the sequence matcher finds is taken as given: a `Script` is any list of opcodes
of the form that is documented for them.
-/

namespace AiAgentsSwd.Diffs

open Text (Open Ended chomp isBreak splitLines strOf)

abbrev Line := List Char

/-! ## Opcodes -/

/-- The tag of an opcode. -/
inductive Tag where
  | equal
  | replace
  | delete
  | insert
deriving Repr, DecidableEq

/-- `(tag, i1, i2, j1, j2)` -/
structure Opcode where
  tag : Tag
  i1 : Nat
  i2 : Nat
  j1 : Nat
  j2 : Nat
deriving Repr, DecidableEq

/-- `lines[i:j]` -/
def slice (lines : List Line) (i j : Nat) : List Line := (lines.take j).drop i

/-- What the tag of an opcode says of its ranges. -/
def Opcode.Fits (a b : List Line) (op : Opcode) : Prop :=
  match op.tag with
  | .equal => op.i1 < op.i2 ∧ op.j1 < op.j2 ∧ slice a op.i1 op.i2 = slice b op.j1 op.j2
  | .replace => op.i1 < op.i2 ∧ op.j1 < op.j2
  | .delete => op.i1 < op.i2 ∧ op.j1 = op.j2
  | .insert => op.i1 = op.i2 ∧ op.j1 < op.j2

/-- Each opcode begins where the one before it ended, and the last ends at the ends. -/
def Chain (a b : List Line) : Nat → Nat → List Opcode → Prop
  | i, j, [] => i = a.length ∧ j = b.length
  | i, j, op :: ops => op.i1 = i ∧ op.j1 = j ∧ op.i2 ≤ a.length ∧ op.j2 ≤ b.length ∧
      op.Fits a b ∧ Chain a b op.i2 op.j2 ops

/-- Opcodes as `SequenceMatcher(None, a, b).get_opcodes()` gives them. -/
structure Script (a b : List Line) where
  ops : List Opcode
  chain : Chain a b 0 0 ops
  /-- Between two changes there is something equal, and equal blocks are not adjacent. -/
  alternate : ops.IsChain fun x y => x.tag = .equal ↔ y.tag ≠ .equal
  /-- The ratio of identical sequences is 1. -/
  identical : a = b → ∀ op ∈ ops, op.tag = .equal

/-! ## Hunks -/

/-- `tag, max(i1, i2-n), i2, max(j1, j2-n), j2` -/
def Opcode.keepLast (n : Nat) (op : Opcode) : Opcode :=
  { op with i1 := max op.i1 (op.i2 - n), j1 := max op.j1 (op.j2 - n) }

/-- `tag, i1, min(i2, i1+n), j1, min(j2, j1+n)` -/
def Opcode.keepFirst (n : Nat) (op : Opcode) : Opcode :=
  { op with i2 := min op.i2 (op.i1 + n), j2 := min op.j2 (op.j1 + n) }

/-- The leading context is cut. -/
def fixFirst (n : Nat) : List Opcode → List Opcode
  | [] => []
  | op :: ops => (if op.tag = .equal then op.keepLast n else op) :: ops

/-- The trailing context is cut. -/
def fixLast (n : Nat) : List Opcode → List Opcode
  | [] => []
  | [op] => [if op.tag = .equal then op.keepFirst n else op]
  | op :: ops => op :: fixLast n ops

/-- The loop of `get_grouped_opcodes`: a long range with no changes ends a group. -/
def grouped (n : Nat) : (group : List Opcode) → List Opcode → List (List Opcode)
  | group, [] => if group = [] ∨ group.map Opcode.tag = [.equal] then [] else [group]
  | group, op :: ops =>
    if op.tag = .equal ∧ n + n < op.i2 - op.i1 then
      (group ++ [op.keepFirst n]) :: grouped n [op.keepLast n] ops
    else grouped n (group ++ [op]) ops

/-- `get_grouped_opcodes(n)` -/
def groupedOpcodes (n : Nat) (codes : List Opcode) : List (List Opcode) :=
  let codes := if codes = [] then [⟨.equal, 0, 1, 0, 1⟩] else codes
  grouped n [] (fixLast n (fixFirst n codes))

/-! ## The text of a diff -/

/-- `_format_range_unified(start, stop)` -/
def formatRangeUnified (start stop : Nat) : List Char :=
  if stop - start = 1 then strOf (start + 1)
  -- an empty range begins at the line before it
  else if stop - start = 0 then strOf start ++ ',' :: strOf 0
  else strOf (start + 1) ++ ',' :: strOf (stop - start : Nat)

/-- `@@ -… +… @@` -/
def hunkLine (group : List Opcode) : Line :=
  let first := group.head?.getD ⟨.equal, 0, 0, 0, 0⟩
  let last := group.getLast?.getD ⟨.equal, 0, 0, 0, 0⟩
  '@' :: '@' :: ' ' :: '-' :: (formatRangeUnified first.i1 last.i2 ++ ' ' :: '+' ::
    (formatRangeUnified first.j1 last.j2 ++ [' ', '@', '@', '\n']))

/-- The lines that an opcode deletes. -/
def Opcode.deleted (a : List Line) (op : Opcode) : List Line :=
  if op.tag = .replace ∨ op.tag = .delete then slice a op.i1 op.i2 else []

/-- The lines that an opcode inserts. -/
def Opcode.inserted (b : List Line) (op : Opcode) : List Line :=
  if op.tag = .replace ∨ op.tag = .insert then slice b op.j1 op.j2 else []

/-- The lines of an opcode in a hunk. -/
def opLines (a b : List Line) (op : Opcode) : List Line :=
  if op.tag = .equal then (slice a op.i1 op.i2).map (' ' :: ·)
  else (op.deleted a).map ('-' :: ·) ++ (op.inserted b).map ('+' :: ·)

/-- The lines of the hunks. -/
def hunkLines (a b : List Line) (groups : List (List Opcode)) : List Line :=
  groups.flatMap fun group => hunkLine group :: group.flatMap (opLines a b)

/-- `difflib.unified_diff(a, b, fromfile, tofile, n)`, of the opcodes. -/
def unifiedDiff (codes : List Opcode) (a b : List Line) (fromfile tofile : List Char) (n : Nat) :
    List Line :=
  let groups := groupedOpcodes n codes
  if groups = [] then []
  else ("--- ".toList ++ fromfile ++ ['\n']) :: ("+++ ".toList ++ tofile ++ ['\n']) ::
    hunkLines a b groups

/-- `text.splitlines(keepends=True) if text else []` -/
def linesOf (text : List Char) : List Line := if text = [] then [] else splitLines text

/-- `compute_unified_diff(before, after, file_path, context)` -/
def computeUnifiedDiff (codes : List Opcode) (before after filePath : List Char) (context : Nat) :
    List Char :=
  (unifiedDiff codes (linesOf before) (linesOf after) ("a/".toList ++ filePath)
    ("b/".toList ++ filePath) context).flatten

/-! ## The summary -/

/-- What `summarize_diff` returns. -/
structure DiffSummary where
  added : Nat
  removed : Nat
  hunks : Nat
  summary : List Char
deriving Repr, DecidableEq

/-- `line.startswith(start)` -/
def startsWith (start : String) (line : Line) : Bool := start.toList.isPrefixOf line

/-- The body of the loop of `summarize_diff`: the counts are of lines added and removed, and of
hunks. -/
def countLine (counts : Nat × Nat × Nat) (line : Line) : Nat × Nat × Nat :=
  if startsWith "@@" line then (counts.1, counts.2.1, counts.2.2 + 1)
  else if startsWith "+" line && !startsWith "+++" line then
    (counts.1 + 1, counts.2.1, counts.2.2)
  else if startsWith "-" line && !startsWith "---" line then
    (counts.1, counts.2.1 + 1, counts.2.2)
  else counts

/-- `summarize_diff(diff_text)` -/
def summarizeDiff (diffText : List Char) : DiffSummary :=
  if diffText = [] then ⟨0, 0, 0, "empty_diff".toList⟩
  else
    let counts := ((splitLines diffText).map chomp).foldl countLine (0, 0, 0)
    { added := counts.1
      removed := counts.2.1
      hunks := counts.2.2
      summary := '+' :: (strOf counts.1 ++ '/' :: '-' :: (strOf counts.2.1 ++
        " across ".toList ++ strOf counts.2.2 ++ " hunk(s)".toList)) }

end AiAgentsSwd.Diffs
