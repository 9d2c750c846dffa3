import AiAgentsSwd.ApprovalPolicy.PathPolicy
import AiAgentsSwd.Audit.Forensics
import AiAgentsSwd.Json.Basic
import AiAgentsSwd.Text.Decimal

/-!
# Python.Dicts — what a JSON document was loaded into

`d.get(name, default)`, `d[name] = value` and `value or default`, on the members of an object, and
the two builtins that turn values into numbers and texts. The integer part of a float is not read
off its text: `trunc` gives it.
-/

namespace AiAgentsSwd.Python

open ApprovalPolicy (strip)
open Audit (truthy)
open Json (Value field?)

/-! ## Numbers -/

/-- `int(x)` of a float. -/
inductive Truncation where
  | value (i : Int)
  | notANumber
  | infinite
deriving Repr, DecidableEq

/-- What `int` raises. -/
inductive IntError where
  | typeError
  | valueError
  | overflowError
deriving Repr, DecidableEq

/-- `int(value)` -/
def intOfValue (trunc : Json.FloatText → Truncation) : Value → Except IntError Int
  | .null => .error .typeError
  | .bool b => .ok (if b then 1 else 0)
  | .int i => .ok i
  | .float x =>
    match trunc x with
    | .value i => .ok i
    | .notANumber => .error .valueError
    | .infinite => .error .overflowError
  | .str s =>
    match Text.intOf (strip s.toList) with
    | some i => .ok i
    | none => .error .valueError
  | .arr _ => .error .typeError
  | .obj _ => .error .typeError

/-! ## Dictionaries -/

/-- `d.get(name, default)` -/
def get (d : List (String × Value)) (name : String) (default : Value) : Value :=
  (field? d name).getD default

/-- `d[name] = value` -/
def setItem : List (String × Value) → String → Value → List (String × Value)
  | [], name, value => [(name, value)]
  | member :: rest, name, value =>
    if member.1 = name then (name, value) :: rest else member :: setItem rest name value

/-- `value or default` of a member that may be missing. -/
def orElse (value : Option Value) (default : Value) : Value := (value.filter truthy).getD default

/-- The parts of the standard library that are not modelled. -/
structure Runtime where
  trunc : Json.FloatText → Truncation
  /-- `str(value)` of a value that is not a text. -/
  str : Value → String

/-- `str(value)` -/
def Runtime.text (rt : Runtime) : Value → String
  | .str s => s
  | v => rt.str v

theorem field?_setItem {d : List (String × Value)} {name key : String} {value : Value} :
    field? (setItem d name value) key =
      if name = key then some value else field? d key := by
  induction d with
  | nil => by_cases h : name = key <;> simp [setItem, field?, h]
  | cons member rest ih =>
    unfold field? at ih ⊢
    unfold setItem
    by_cases hname : member.1 = name
    · rw [if_pos hname]
      by_cases h : name = key <;> simp [hname, h]
    · rw [if_neg hname, List.find?_cons, List.find?_cons]
      by_cases hkey : member.1 = key
      · have hne : name ≠ key := fun h => hname (hkey.trans h.symm)
        simp [hkey, hne]
      · simp only [hkey, decide_false, ih]

end AiAgentsSwd.Python
