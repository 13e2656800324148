import Mathlib.Data.Rat.Init

namespace ProductionStack

/-- A number as json.loads reads it: an integer, a finite float or one of the three constants. -/
inductive JsonNumber
  | int (n : Int)
  | float (x : ℚ)
  | infinity
  | negInfinity
  | nan

inductive Json
  | null
  | bool (b : Bool)
  | num (n : JsonNumber)
  | str (s : String)
  | arr (items : List Json)
  | obj (fields : List (String × Json))

namespace Json

def truthy : Json → Bool
  | null => false
  | bool b => b
  | num (.int n) => n ≠ 0
  | num (.float x) => x ≠ 0
  | num _ => true
  | str s => s ≠ ""
  | arr items => !items.isEmpty
  | obj fields => !fields.isEmpty

def isText : Option Json → Bool
  | some (str s) => s = "text"
  | _ => false

def asStr : Json → Option String
  | str s => some s
  | _ => none

end Json

end ProductionStack
