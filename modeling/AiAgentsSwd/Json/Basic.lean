/-!
# Json.Basic — JSON documents

The values a JSON text denotes once a Python program has loaded it: integers are exact,
other numbers are floats, and a float is identified with its shortest decimal text.
-/

namespace Json

/-- A character of the text of a float. -/
def floatChar (c : Char) : Bool := c.isDigit || ['-', '+', '.', 'e', 'I', 'N', 'a', 'f', 'i', 'n',
  't', 'y'].contains c

/-- A character of the text of an integer. -/
def intChar (c : Char) : Bool := c.isDigit || c = '-'

/-- The text `repr` gives a float: never that of an integer. -/
structure FloatText where
  text : String
  chars : text.toList.all floatChar = true
  notInt : text.toList.any (fun c => !intChar c) = true
deriving DecidableEq

/-- A JSON document. An object keeps its members in order. -/
inductive Value where
  | null
  | bool (b : Bool)
  | int (i : Int)
  | float (x : FloatText)
  | str (s : String)
  | arr (items : List Value)
  | obj (members : List (String × Value))

/-- The member of a name. -/
def field? (members : List (String × Value)) (name : String) : Option Value :=
  (members.find? fun m => m.1 = name).map Prod.snd

end Json
