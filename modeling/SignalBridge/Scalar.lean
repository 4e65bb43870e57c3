import SignalBridge.Double.Layout
import SignalBridge.Text.Number

/-!
Scalar values: what the signal tree delivers, what a transform produces and what a frame carries.
-/

namespace SignalBridge

/-- A scalar on either side of the bridge. -/
inductive Scalar
  | boolean (b : Bool)
  | integer (i : Int64)
  | double (x : Float)
  | text (s : String)
deriving Inhabited, Repr

namespace Scalar

/-- Equal values of one kind. Doubles compare as numbers, so both zeros agree and NaN agrees with
nothing; values of different kinds never agree. -/
def agrees : Scalar → Scalar → Bool
  | boolean a, boolean b => a == b
  | integer a, integer b => a == b
  | double a, double b => a == b
  | text a, text b => a == b
  | _, _ => false

/-- The number a value is encoded as; text has none. -/
def toDouble? : Scalar → Option Float
  | boolean b => some (if b then 1.0 else 0.0)
  | integer i => some (Double.ofInt i.toInt)
  | double x => some x
  | text _ => none

/-- The name of the kind. -/
def kindName : Scalar → String
  | boolean _ => "bool"
  | integer _ => "int"
  | double _ => "float"
  | text _ => "string"

/-- The value as messages show it. -/
def display : Scalar → String
  | boolean b => if b then "true" else "false"
  | integer i => String.ofList (Text.writeInt i.toInt)
  | double x => Layout.plain.write x
  | text s => "\"" ++ s ++ "\""

end Scalar
end SignalBridge
