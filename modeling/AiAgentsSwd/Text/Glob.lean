import Mathlib.Data.List.Basic

/-!
# Text.Glob — shell patterns

`fnmatch` of the standard library: `*`, `?` and `[…]` over whole texts, a slash being a
character like any other. A bracket that is never closed stands for itself. Inside one, a
leading `!` negates, a hyphen between two characters makes a range, and an empty range is
removed before the leading `!` is looked for.
-/

namespace AiAgentsSwd.Text.Glob

/-- What a bracket lists. -/
inductive Item where
  | single (c : Char)
  | range (low high : Char)
deriving Repr, DecidableEq

def Item.has (c : Char) : Item → Bool
  | single d => c == d
  | range low high => decide (low ≤ c) && decide (c ≤ high)

/-- The range has no characters. -/
def Item.isEmptyRange : Item → Bool
  | single _ => false
  | range low high => decide (high < low)

/-- The items of the text between the brackets. -/
def itemsOf : List Char → List Item
  | [] => []
  | [c] => [.single c]
  | c :: '-' :: d :: rest => .range c d :: itemsOf rest
  | c :: d :: rest => .single c :: itemsOf (d :: rest)

/-- One position of a pattern. -/
inductive Token where
  | star
  | any
  | char (c : Char)
  | set (negated : Bool) (items : List Item)
deriving Repr, DecidableEq

/-- The token of a bracket. -/
def classOf (stuff : List Char) : Token :=
  let items : List Item := match stuff with
    -- a leading `!` does not begin a range
    | '!' :: rest => .single '!' :: itemsOf rest
    | _ => itemsOf stuff
  match items.filter (!·.isEmptyRange) with
  | .single '!' :: rest => .set true rest
  -- only where empty ranges before it were removed: the hyphen is left as a character
  | .range '!' high :: rest => .set true (.single '-' :: .single high :: rest)
  | items => .set false items

/-- What an opening bracket encloses, and what follows the closing one. -/
def bracket (s : List Char) : Option (List Char × List Char) :=
  -- the closing bracket does not come first, nor right after the `!`
  let first := match s with
    | '!' :: ']' :: _ => 2
    | '!' :: _ => 1
    | ']' :: _ => 1
    | _ => 0
  match (s.drop first).dropWhile (· != ']') with
  | [] => none
  | _ :: rest => some (s.take first ++ (s.drop first).takeWhile (· != ']'), rest)

/-- The tokens of a pattern of at most `fuel` characters. -/
def tokens : (fuel : Nat) → List Char → List Token
  | 0, _ => []
  | _, [] => []
  | fuel + 1, '*' :: rest => .star :: tokens fuel rest
  | fuel + 1, '?' :: rest => .any :: tokens fuel rest
  | fuel + 1, '[' :: rest =>
    match bracket rest with
    | none => .char '[' :: tokens fuel rest
    | some (stuff, rest) => classOf stuff :: tokens fuel rest
  | fuel + 1, c :: rest => .char c :: tokens fuel rest

/-- The token is met by one character. -/
def Token.has (c : Char) : Token → Bool
  | star => false
  | any => true
  | char d => c == d
  | .set negated items => items.any (·.has c) != negated

/-- The tokens match the whole text. -/
def matchTokens : List Token → List Char → Bool
  | [], s => s.isEmpty
  | .star :: ts, s => s.tails.any (matchTokens ts)
  | _ :: _, [] => false
  | t :: ts, c :: s => t.has c && matchTokens ts s

/-- `fnmatch.fnmatch(name, pat)`, on a system whose file names keep their case. -/
def fnmatch (name pat : List Char) : Bool := matchTokens (tokens pat.length pat) name

example : fnmatch "infra/x/y.tf".toList "infra/*".toList = true := by decide +kernel
example : fnmatch "key-7.pem".toList "key-[!a-z].p?m".toList = true := by decide +kernel

end AiAgentsSwd.Text.Glob
