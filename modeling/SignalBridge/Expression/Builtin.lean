import SignalBridge.Expression.Value
import SignalBridge.Double.Rounding
import SignalBridge.Text.Blank
import SignalBridge.Text.LetterCase

/-!
The functions of the expression language. A function takes one value; a call with several arguments
passes a tuple and a call with none passes the empty value.
-/

namespace SignalBridge.Expression

namespace Value

/-! ### What a function asks of its argument -/

/-- A number as a double. -/
def asNumber : Value → Except Fault Float
  | double x => .ok x
  | integer i => .ok (Double.ofInt i.toInt)
  | v => .error (.notNumber v)

def asInteger : Value → Except Fault Int64
  | integer i => .ok i
  | v => .error (.notInteger v)

def asText : Value → Except Fault String
  | text s => .ok s
  | v => .error (.notText v)

def asBoolean : Value → Except Fault Bool
  | boolean b => .ok b
  | v => .error (.notBoolean v)

def asTuple : Value → Except Fault (List Value)
  | tuple items => .ok items
  | v => .error (.notTuple v)

/-- The two items of a pair. -/
def asPair : Value → Except Fault (Value × Value)
  | tuple [a, b] => .ok (a, b)
  | tuple items => .error (.notTupleOf 2 (tuple items))
  | v => .error (.notTuple v)

/-- The three items of a triple. -/
def asTriple : Value → Except Fault (Value × Value × Value)
  | tuple [a, b, c] => .ok (a, b, c)
  | tuple items => .error (.notTupleOf 3 (tuple items))
  | v => .error (.notTuple v)

/-- A value that can be looked for in a tuple. -/
def asElement : Value → Except Fault Value
  | tuple items => .error (.notElement (tuple items))
  | empty => .error (.notElement empty)
  | v => .ok v

/-- An offset in a text. -/
def asOffset (v : Value) : Except Fault Nat := do
  let i ← v.asInteger
  if i < 0 then throw .outOfBounds else return i.toInt.toNat

/-- The name of the kind of a value, as `typeof` gives it. -/
def kindName : Value → String
  | text _ => "string"
  | double _ => "float"
  | integer _ => "int"
  | boolean _ => "boolean"
  | tuple _ => "tuple"
  | empty => "empty"

end Value

/-! ### Kinds of functions -/

/-- A function of one number. -/
def ofNumber (f : Float → Value) (v : Value) : Except Fault Value :=
  v.asNumber.map f

/-- A function of two numbers. -/
def ofNumbers (f : Float → Float → Value) (v : Value) : Except Fault Value := do
  let (a, b) ← v.asPair
  return f (← a.asNumber) (← b.asNumber)

/-- A function of two integers. -/
def ofIntegers (f : Int64 → Int64 → Int64) (v : Value) : Except Fault Value := do
  let (a, b) ← v.asPair
  return .integer (f (← a.asInteger) (← b.asInteger))

/-- A function of a text. -/
def ofText (f : List Char → List Char) (v : Value) : Except Fault Value :=
  v.asText.map fun s => .text (String.ofList (f s.toList))

/-! ### The functions -/

/-- The absolute value, of the kind of its argument. The least integer has none and stays itself. -/
def absolute : Value → Except Fault Value
  | .double x => .ok (.double x.abs)
  | .integer i => .ok (.integer (if i < 0 then -i else i))
  | v => .error (.notNumber v)

/-- The direction in which an extreme is sought, with the values it starts from. -/
structure Extreme where
  integer : Int64 → Int64 → Int64
  double : Float → Float → Float
  firstInteger : Int64
  firstDouble : Float
  /-- The first number lies further in the direction than the second. -/
  beyond : Float → Float → Bool

namespace Extreme

def least : Extreme :=
  { integer := min, double := Double.lesser, firstInteger := Int64.maxValue
    firstDouble := Double.infinity false, beyond := fun x y => x < y }

def greatest : Extreme :=
  { integer := max, double := Double.greater, firstInteger := Int64.minValue
    firstDouble := Double.infinity true, beyond := fun x y => y < x }

/-- The extreme of the integers and the extreme of the doubles among some numbers, which are sought
apart. -/
def collect (e : Extreme) : Int64 → Float → List Value → Except Fault (Int64 × Float)
  | i, x, [] => .ok (i, x)
  | i, x, .integer j :: vs => collect e (e.integer i j) x vs
  | i, x, .double y :: vs => collect e i (e.double x y) vs
  | _, _, v :: _ => .error (.notNumber v)

/-- The extreme of a tuple of numbers: the integer if it lies beyond the double, else the double. -/
def apply (e : Extreme) (v : Value) : Except Fault Value := do
  let (i, x) ← e.collect e.firstInteger e.firstDouble (← v.asTuple)
  return if e.beyond (Double.ofInt i.toInt) x then .integer i else .double x

end Extreme

/-- The second or third item of a triple, as the first one says. -/
def choose (v : Value) : Except Fault Value := do
  let (condition, yes, no) ← v.asTriple
  return if ← condition.asBoolean then yes else no

/-- The second item of a pair is a member of the tuple that the first one is. -/
def contains (v : Value) : Except Fault Value := do
  let (whole, item) ← v.asPair
  let items ← whole.asTuple
  let item ← item.asElement
  return .boolean (items.any (·.agrees item))

/-- Some member of the second tuple of a pair is a member of the first. -/
def containsAny (v : Value) : Except Fault Value := do
  let (whole, wanted) ← v.asPair
  let items ← whole.asTuple
  let wanted ← (← wanted.asTuple).mapM Value.asElement
  return .boolean (wanted.any fun w => items.any (·.agrees w))

/-- The bytes of a text in UTF-8, or the items of a tuple. -/
def size : Value → Except Fault Value
  | .text s => .ok (.integer (Int64.ofNat s.utf8ByteSize))
  | .tuple items => .ok (.integer (Int64.ofNat items.length))
  | v => .error (.notTextOrTuple v)

/-- A value as text. -/
def asPlainText : Value → Value
  | .text s => .text s
  | v => .text v.plain

/-- A text cut after its first `n` bytes in UTF-8, if a character ends there. -/
def splitBytes? : Nat → List Char → Option (List Char × List Char)
  | 0, s => some ([], s)
  | _ + 1, [] => none
  | n + 1, c :: s =>
    if c.utf8Size ≤ n + 1 then
      (splitBytes? (n + 1 - c.utf8Size) s).map fun (front, back) => (c :: front, back)
    else none

/-- The part of a text between two byte offsets. -/
def substring (s : List Char) (start stop : Nat) : Except Fault Value :=
  match (splitBytes? stop s).bind fun (front, _) => splitBytes? start front with
  | some (_, part) => .ok (.text (String.ofList part))
  | none => .error .outOfBounds

/-- The part of a text from one byte offset on, up to another one if it is given. -/
def substringOf : Value → Except Fault Value
  | .tuple [s, start] => do
    let s ← s.asText
    substring s.toList (← start.asOffset) s.utf8ByteSize
  | .tuple [s, start, stop] => do
    let s ← s.asText
    substring s.toList (← start.asOffset) (← stop.asOffset)
  | .tuple items => .error (.notTupleBetween 2 3 (.tuple items))
  | v => .error (.notTuple v)

/-- The function of a name. -/
def builtin? (name : String) : Option (Value → Except Fault Value) :=
  match name with
  | "floor" => ofNumber (.double ·.floor)
  | "ceil" => ofNumber (.double ·.ceil)
  | "round" => ofNumber (.double ·.round)
  | "math::sqrt" => ofNumber (.double ·.sqrt)
  | "math::cbrt" => ofNumber fun x => .double (Double.cubeRoot x)
  | "math::ln" => ofNumber (.double ·.log)
  | "math::log2" => ofNumber (.double ·.log2)
  | "math::log10" => ofNumber (.double ·.log10)
  | "math::exp" => ofNumber (.double ·.exp)
  | "math::exp2" => ofNumber (.double ·.exp2)
  | "math::sin" => ofNumber (.double ·.sin)
  | "math::cos" => ofNumber (.double ·.cos)
  | "math::tan" => ofNumber (.double ·.tan)
  | "math::asin" => ofNumber (.double ·.asin)
  | "math::acos" => ofNumber (.double ·.acos)
  | "math::atan" => ofNumber (.double ·.atan)
  | "math::sinh" => ofNumber (.double ·.sinh)
  | "math::cosh" => ofNumber (.double ·.cosh)
  | "math::tanh" => ofNumber (.double ·.tanh)
  | "math::asinh" => ofNumber (.double ·.asinh)
  | "math::acosh" => ofNumber (.double ·.acosh)
  | "math::atanh" => ofNumber (.double ·.atanh)
  | "math::pow" => ofNumbers fun x y => .double (x.pow y)
  | "math::log" => ofNumbers fun x base => .double (x.log / base.log)
  | "math::hypot" => ofNumbers fun x y => .double (Double.hypotenuse x y)
  | "math::atan2" => ofNumbers fun y x => .double (y.atan2 x)
  | "math::is_nan" => ofNumber (.boolean ·.isNaN)
  | "math::is_finite" => ofNumber (.boolean ·.isFinite)
  | "math::is_infinite" => ofNumber (.boolean ·.isInf)
  | "math::is_normal" => ofNumber fun x => .boolean (Double.isNormal x)
  | "math::abs" => absolute
  | "typeof" => some fun v => .ok (.text v.kindName)
  | "min" => Extreme.least.apply
  | "max" => Extreme.greatest.apply
  | "if" => choose
  | "contains" => contains
  | "contains_any" => containsAny
  | "len" => size
  | "str::to_lowercase" => ofText Text.lower
  | "str::to_uppercase" => ofText Text.upper
  | "str::trim" => ofText Text.trim
  | "str::from" => some fun v => .ok (asPlainText v)
  | "str::substring" => substringOf
  | "bitand" => ofIntegers (· &&& ·)
  | "bitor" => ofIntegers (· ||| ·)
  | "bitxor" => ofIntegers (· ^^^ ·)
  | "bitnot" => some fun v => v.asInteger.map fun i => .integer (~~~i)
  | "shl" => ofIntegers (· <<< ·)
  | "shr" => ofIntegers (· >>> ·)
  | _ => none

end SignalBridge.Expression
