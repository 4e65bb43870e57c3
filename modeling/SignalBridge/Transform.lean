import SignalBridge.Expression
import SignalBridge.Fault

/-!
Transforms: how the value of a leaf becomes the value of a bus signal. A transform is a table of rows,
of which the first that agrees with the value counts, or an expression. Where neither gives a value the
signal is left out.
-/

namespace SignalBridge

/-- A row of a table: `source` becomes `target`. -/
structure LookupRow where
  source : Scalar
  target : Scalar

inductive Transform
  | lookup (rows : List LookupRow)
  | expression (e : Expression)

namespace LookupRow

/-- Reads a scalar of a row. -/
def scalarOfJson (v : Json) : Except DeclarationFault Scalar :=
  match Scalar.ofJson? v with
  | some s => .ok s
  | none => .error (.notScalar v)

/-- Reads a row: an object with scalars `from` and `to`. -/
def ofJson (row : Json) : Except DeclarationFault LookupRow :=
  match row.get? "from", row.get? "to" with
  | some source, some target => do return { source := ← scalarOfJson source, target := ← scalarOfJson target }
  | _, _ => .error (.incompleteRow row)

end LookupRow

namespace Transform

/-- Reads a transform: an object with either a list `mapping` of rows or a text `math`. -/
def ofJson (v : Json) : Except DeclarationFault Transform :=
  match v.asObject? with
  | none => .error .transformNotObject
  | some members =>
    match Json.member? members "mapping", Json.member? members "math" with
    | some _, some _ => .error .mappingAndMath
    | none, none => .error .noMappingOrMath
    | some rows, none =>
      match rows.asArray? with
      | some rows => (rows.mapM LookupRow.ofJson).map lookup
      | none => .error .mappingNotList
    | none, some math =>
      match math.asString? with
      | some source => .ok (expression (.ofSource source))
      | none => .error .mathNotText

/-- The value of a signal for the value of a leaf. -/
def output? : Transform → Scalar → Option Scalar
  | lookup rows, v => (rows.find? (·.source.agrees v)).map (·.target)
  | expression e, v => (e.evaluate v).toOption

end Transform

/-- As `Transform.output?`; without a transform the value stays as it is. -/
def transformed? (t : Option Transform) (v : Scalar) : Option Scalar :=
  match t with
  | none => some v
  | some t => t.output? v

end SignalBridge
