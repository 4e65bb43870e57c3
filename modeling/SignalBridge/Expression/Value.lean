import SignalBridge.Scalar
import SignalBridge.Text.Quoted

/-!
Values of the expression language, and the faults that reading or evaluating an expression can end in.
-/

namespace SignalBridge.Expression

inductive Value
  | text (s : String)
  | double (x : Float)
  | integer (i : Int64)
  | boolean (b : Bool)
  | tuple (items : List Value)
  | empty
deriving Inhabited

namespace Value

/-- The name of a kind of value in a list of operand kinds. -/
def kindTag : Value → String
  | text _ => "String"
  | double _ => "Float"
  | integer _ => "Int"
  | boolean _ => "Boolean"
  | tuple _ => "Tuple"
  | empty => "Empty"

mutual

/-- The value with its kind, as messages show it. -/
def tagged : Value → String
  | text s => "String(" ++ Text.quote s ++ ")"
  | double x => "Float(" ++ Layout.tagged.write x ++ ")"
  | integer i => "Int(" ++ String.ofList (Text.writeInt i.toInt) ++ ")"
  | boolean b => if b then "Boolean(true)" else "Boolean(false)"
  | tuple items => "Tuple([" ++ ", ".intercalate (taggedItems items) ++ "])"
  | empty => "Empty"

def taggedItems : List Value → List String
  | [] => []
  | v :: vs => tagged v :: taggedItems vs

end

mutual

/-- The value as text. Text inside a tuple stands in quotes. -/
def plain : Value → String
  | text s => "\"" ++ s ++ "\""
  | double x => Layout.plain.write x
  | integer i => String.ofList (Text.writeInt i.toInt)
  | boolean b => if b then "true" else "false"
  | tuple items => "(" ++ ", ".intercalate (plainItems items) ++ ")"
  | empty => "()"

def plainItems : List Value → List String
  | [] => []
  | v :: vs => plain v :: plainItems vs

end

mutual

/-- Equal values of one kind; doubles compare as numbers. -/
def agrees : Value → Value → Bool
  | text a, text b => a == b
  | double a, double b => a == b
  | integer a, integer b => a == b
  | boolean a, boolean b => a == b
  | tuple as, tuple bs => allAgree as bs
  | empty, empty => true
  | _, _ => false

def allAgree : List Value → List Value → Bool
  | [], [] => true
  | a :: as, b :: bs => agrees a b && allAgree as bs
  | _, _ => false

end

/-- The value that a scalar is. -/
def ofScalar : Scalar → Value
  | .boolean b => boolean b
  | .integer i => integer i
  | .double x => double x
  | .text s => text s

/-- The scalar that a value is; tuples and the empty value are none. -/
def toScalar? : Value → Option Scalar
  | boolean b => some (.boolean b)
  | integer i => some (.integer i)
  | double x => some (.double x)
  | text s => some (.text s)
  | tuple _ | empty => none

end Value

/-- The arithmetic of 64-bit integers that can leave their range. -/
inductive Arithmetic
  | add
  | subtract
  | multiply
  | divide
  | remainder
deriving DecidableEq, Repr

namespace Arithmetic

def symbol : Arithmetic → String
  | add => "+"
  | subtract => "-"
  | multiply => "*"
  | divide => "/"
  | remainder => "%"

def doing : Arithmetic → String
  | add => "adding"
  | subtract => "subtracting"
  | multiply => "multiplying"
  | divide => "dividing"
  | remainder => "modulating"

end Arithmetic

/-- Why an expression has no tree or no value. -/
inductive Fault
  | illegalEscape (escape : String)
  | unclosedText
  | unclosedComment
  | strayMark (first : String) (second : Option String)
  | unmatchedOpening
  | unmatchedClosing
  | appendedToLeaf
  | precedenceViolation
  | missingOperator
  | argumentCount (expected actual : Nat)
  | notNumberOrText (v : Value)
  | notNumber (v : Value)
  | notInteger (v : Value)
  | notText (v : Value)
  | notBoolean (v : Value)
  | notTuple (v : Value)
  | notTupleOf (length : Nat) (v : Value)
  | notTupleBetween (least greatest : Nat) (v : Value)
  | notElement (v : Value)
  | notTextOrTuple (v : Value)
  | mixedSum (left right : Value)
  | integerRange (operation : Arithmetic) (left right : Int64)
  | negationRange (operand : Int64)
  | assignment
  | unboundVariable (name : String)
  | unboundFunction (name : String)
  | outOfBounds
  | notFinite (x : Float)
  | notScalar (v : Value)

namespace Fault

def message : Fault → String
  | illegalEscape escape => "Illegal escape sequence: " ++ escape
  | unclosedText => "Found an unmatched double quote '\"'"
  | unclosedComment => "Error: unmatched inline comment"
  | strayMark first (some second) =>
    "Found a partial token '" ++ first ++ "' that should not be followed by '" ++ second ++ "'."
  | strayMark first none =>
    "Found a partial token '" ++ first ++ "' that should be followed by another partial token."
  | unmatchedOpening => "Found an unmatched opening parenthesis '('."
  | unmatchedClosing => "Found an unmatched closing parenthesis ')'."
  | appendedToLeaf => "Tried to append a node to a leaf node."
  | precedenceViolation => "Tried to append a node to another node with higher precedence."
  | missingOperator =>
    "Found an opening parenthesis that is preceded by something that does not take any arguments on " ++
      "the right, or found a closing parenthesis that is succeeded by something that does not take " ++
      "any arguments on the left."
  | argumentCount expected actual =>
    "An operator expected " ++ number expected ++ " arguments, but got " ++ number actual ++ "."
  | notNumberOrText v => "Expected a Value::Number or a Value::String, but got " ++ v.tagged ++ "."
  | notNumber v => "Expected a Value::Float or Value::Int, but got " ++ v.tagged ++ "."
  | notInteger v => "Expected a Value::Int, but got " ++ v.tagged ++ "."
  | notText v => "Expected a Value::String, but got " ++ v.tagged ++ "."
  | notBoolean v => "Expected a Value::Boolean, but got " ++ v.tagged ++ "."
  | notTuple v => "Expected a Value::Tuple, but got " ++ v.tagged ++ "."
  | notTupleOf length v =>
    "Expected a Value::Tuple of length " ++ number length ++ ", but got " ++ v.tagged ++ "."
  | notTupleBetween least greatest v =>
    "Expected a Value::Tuple of length " ++ number least ++ " to " ++ number greatest ++ ", but got "
      ++ v.tagged ++ "."
  | notElement v => "Expected one of [String, Int, Float, Boolean], but got " ++ v.tagged ++ "."
  | notTextOrTuple v => "Expected one of [String, Tuple], but got " ++ v.tagged ++ "."
  | mixedSum left right =>
    "The operator Add was called with a wrong combination of types: [" ++ left.kindTag ++ ", "
      ++ right.kindTag ++ "]"
  | integerRange operation left right =>
    "Error " ++ operation.doing ++ " " ++ signed left ++ " " ++ operation.symbol ++ " " ++ signed right
  | negationRange operand => "Error negating -" ++ signed operand
  | assignment => "Cannot manipulate context"
  | unboundVariable name =>
    "Variable identifier is not bound to anything by context: " ++ Text.quote name ++ "."
  | unboundFunction name =>
    "Function identifier is not bound to anything by context: " ++ Text.quote name ++ "."
  | outOfBounds => "Tried to access a tuple or string at an invalid index"
  | notFinite x => "expression produced " ++ Layout.plain.write x
  | notScalar v => "expression produced non-scalar " ++ v.tagged
where
  number (n : Nat) : String := String.ofList (Nat.toDigits 10 n)
  signed (i : Int64) : String := String.ofList (Text.writeInt i.toInt)

end Fault
end SignalBridge.Expression
