import Descent.Decimal.Reading
import Descent.Decimal.Shortest

/-!
# Values

What the evaluation of a parse tree may give: nothing, a truth value, a number or a text.  Texts are
read as numbers where a number is asked for.
-/

namespace Descent

/-- A value of an evaluation. -/
inductive Value where
  | nil
  | bool (b : Bool)
  | int (n : Int64)
  | float (x : Float)
  | str (s : String)

namespace Value

instance : Inhabited Value := ⟨nil⟩

/-- Whether a value is nothing. -/
def isNil : Value → Bool
  | nil => true
  | _ => false

/-- A value as an integer.  A float loses its fraction, and goes no further than the integers do. -/
def asInt? : Value → Option Int64
  | nil => none
  | bool b => some (if b then 1 else 0)
  | int n => some n
  | float x => some x.toInt64
  | str s => (readInt64? s).map Int64.ofInt

/-- A value as a floating point number. -/
def asFloat? : Value → Option Float
  | nil | bool _ => none
  | int n => some (.ofInt n.toInt)
  | float x => some x
  | str s => readFloat? s

/-- The text of a value that is one. -/
def asStr? : Value → Option String
  | str s => some s
  | _ => none

/-- The printed form of a value. -/
def text : Value → String
  | nil => "nil"
  | bool b => if b then "true" else "false"
  | int n => toString n.toInt
  | float x => floatText x
  | str s => s

end Value

end Descent
