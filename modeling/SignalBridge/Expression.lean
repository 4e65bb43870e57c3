import SignalBridge.Expression.Division
import SignalBridge.Expression.Evaluation

/-!
Expressions over one variable `x`. An expression is read once; one that cannot be read keeps its fault
and has no value for any input. If `/` occurs anywhere in the text, whole numbers in it and a whole `x`
are taken as doubles, so that `x / 40` is exact division.
-/

namespace SignalBridge

/-- An expression that has been read. -/
structure Expression where
  source : String
  tree : Except Expression.Fault Expression.Tree
  divides : Bool

namespace Expression

/-- The name that the input is bound to. -/
def variableName : String := "x"

/-- Reads an expression. -/
def ofSource (source : String) : Expression :=
  let divides := source.toList.contains '/'
  { source, divides, tree := Tree.parse (if divides then withFractions source else source) }

/-- The value that `x` is bound to. -/
def boundValue (divides : Bool) : Scalar → Value
  | .integer i => if divides then .double (Double.ofInt i.toInt) else .integer i
  | s => .ofScalar s

/-- The result of an expression as a scalar. Infinities, NaN, tuples and the empty value are none. -/
def scalarResult (v : Value) : Except Fault Scalar :=
  match v.toScalar? with
  | some (.double x) => if x.isFinite then .ok (.double x) else .error (.notFinite x)
  | some s => .ok s
  | none => .error (.notScalar v)

/-- The value of an expression for an input. -/
def evaluate (e : Expression) (input : Scalar) : Except Fault Scalar := do
  let tree ← e.tree
  let x := boundValue e.divides input
  scalarResult (← tree.evaluate fun name => if name = variableName then some x else none)

end Expression
end SignalBridge
