import SignalBridge.Expression.Tree
import SignalBridge.Expression.Builtin

/-!
The value of a tree. Children are evaluated first, from left to right and all of them; then the
operation is applied to their values.
-/

namespace SignalBridge.Expression

namespace Arithmetic

/-- The exact result, if there is one: division is toward zero, and a remainder has the sign of the
dividend. -/
def result? (a : Arithmetic) (left right : Int) : Option Int :=
  match a with
  | add => some (left + right)
  | subtract => some (left - right)
  | multiply => some (left * right)
  | divide => if right = 0 then none else some (left.tdiv right)
  | remainder => if right = 0 then none else some (left.tmod right)

/-- The result on 64-bit integers. The quotient that leaves the range has no remainder either. -/
def onIntegers (a : Arithmetic) (left right : Int64) : Except Fault Value :=
  let fault : Except Fault Value := .error (.integerRange a left right)
  if a = remainder ∧ left = Int64.minValue ∧ right = -1 then fault
  else
    match a.result? left.toInt right.toInt with
    | none => fault
    | some i =>
      match int64? i with
      | some n => .ok (.integer n)
      | none => fault

def onDoubles (a : Arithmetic) (left right : Float) : Float :=
  match a with
  | add => left + right
  | subtract => left - right
  | multiply => left * right
  | divide => left / right
  | remainder => Double.remainder left right

/-- The result on two numbers: on integers if both are, else on doubles. -/
def onNumbers (a : Arithmetic) : Value → Value → Except Fault Value
  | .integer left, .integer right => a.onIntegers left right
  | left, right => do return .double (a.onDoubles (← left.asNumber) (← right.asNumber))

end Arithmetic

namespace Value

/-- A sum or a comparison takes numbers and texts. -/
def checkNumberOrText : Value → Except Fault Unit
  | text _ | integer _ | double _ => .ok ()
  | v => .error (.notNumberOrText v)

def isText : Value → Bool
  | text _ => true
  | _ => false

/-- The sum of two numbers or the concatenation of two texts. -/
def sum (left right : Value) : Except Fault Value := do
  left.checkNumberOrText
  right.checkNumberOrText
  match left, right with
  | text a, text b => return text (a ++ b)
  | left, right =>
    if left.isText || right.isText then .error (.mixedSum left right)
    else Arithmetic.add.onNumbers left right

/-- The comparison of two texts by code points, of two integers, or of two numbers. -/
def compare (onTexts : String → String → Bool) (onIntegers : Int64 → Int64 → Bool)
    (onDoubles : Float → Float → Bool) (left right : Value) : Except Fault Value := do
  left.checkNumberOrText
  right.checkNumberOrText
  match left, right with
  | text a, text b => return boolean (onTexts a b)
  | integer a, integer b => return boolean (onIntegers a b)
  | left, right => return boolean (onDoubles (← left.asNumber) (← right.asNumber))

end Value

/-- The result of an operator on two operands. -/
def Binary.apply (b : Binary) (left right : Value) : Except Fault Value :=
  match b with
  | arithmetic .add => left.sum right
  | arithmetic a => do
    discard left.asNumber
    discard right.asNumber
    a.onNumbers left right
  | power => do return .double ((← left.asNumber).pow (← right.asNumber))
  | equal => .ok (.boolean (left.agrees right))
  | unequal => .ok (.boolean !(left.agrees right))
  | greater => left.compare (· > ·) (· > ·) (· > ·) right
  | less => left.compare (· < ·) (· < ·) (· < ·) right
  | atLeast => left.compare (· ≥ ·) (· ≥ ·) (· ≥ ·) right
  | atMost => left.compare (· ≤ ·) (· ≤ ·) (· ≤ ·) right
  | and => do
    let a ← left.asBoolean
    let b ← right.asBoolean
    return .boolean (a && b)
  | or => do
    let a ← left.asBoolean
    let b ← right.asBoolean
    return .boolean (a || b)

/-- The negation of a number. -/
def negation : Value → Except Fault Value
  | .integer i => if i = Int64.minValue then .error (.negationRange i) else .ok (.integer (-i))
  | v => do return .double (-(← v.asNumber))

/-- Passes the two arguments of an operator on. -/
def withTwo (arguments : List Value) (f : Value → Value → Except Fault Value) : Except Fault Value :=
  match arguments with
  | [a, b] => f a b
  | vs => .error (.argumentCount 2 vs.length)

def withOne (arguments : List Value) (f : Value → Except Fault Value) : Except Fault Value :=
  match arguments with
  | [a] => f a
  | vs => .error (.argumentCount 1 vs.length)

def withNone (arguments : List Value) (result : Except Fault Value) : Except Fault Value :=
  match arguments with
  | [] => result
  | vs => .error (.argumentCount 0 vs.length)

/-- The result of an operation on the values of its children, where `bound` gives the values of
names. Nothing can be assigned. -/
def Operation.apply (bound : String → Option Value) (o : Operation) (arguments : List Value) :
    Except Fault Value :=
  match o with
  | group => .ok (arguments.head?.getD .empty)
  | constant c => withNone arguments (.ok c.value)
  | read name =>
    withNone arguments <|
      match bound name with
      | some v => .ok v
      | none => .error (.unboundVariable name)
  | write name => withNone arguments (.ok (.text name))
  | call name =>
    withOne arguments fun v =>
      match builtin? name with
      | some f => f v
      | none => .error (.unboundFunction name)
  | negate => withOne arguments negation
  | not => withOne arguments fun v => v.asBoolean.map fun b => .boolean !b
  | binary b => withTwo arguments b.apply
  | assign | updateAssign _ => .error .assignment
  | tuple => .ok (.tuple arguments)
  | chain =>
    match arguments.getLast? with
    | some v => .ok v
    | none => .error (.argumentCount 1 0)

namespace Tree

mutual

/-- The value of a tree. -/
def evaluate (bound : String → Option Value) : Tree → Except Fault Value
  | node o reversed => do o.apply bound (← evaluateAll bound reversed)

/-- The values of nodes that are given last first. -/
def evaluateAll (bound : String → Option Value) : List Tree → Except Fault (List Value)
  | [] => .ok []
  | t :: ts => do
    let vs ← evaluateAll bound ts
    let v ← evaluate bound t
    return vs ++ [v]

end

end Tree
end SignalBridge.Expression
