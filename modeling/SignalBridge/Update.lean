import SignalBridge.Json.Basic

/-!
Updates of the signal tree, as batches arrive in JSON. Only what an update is made of is read; members
of other names have to be well formed and are passed over.
-/

namespace SignalBridge

/-- What an update tells about a leaf: its current value, or the value it should take. -/
inductive Field
  | value
  | target
deriving DecidableEq, Repr

/-- One update. A field that was cleared has no value. -/
structure Update where
  path : String
  field : Field
  value : Option Scalar

/-- Updates that arrive together. -/
abbrev Batch := List Update

namespace Field

def name : Field → String
  | value => "value"
  | target => "actuator_target"

/-- The field of a name. -/
def ofName? (s : List Char) : Option Field :=
  [value, target].find? (·.name.toList = s)

/-- A field is given by its name, or by an object with that name as its only key and no value. -/
def ofRaw? : Json.Raw → Option Field
  | .string s => (Json.textOf? s).bind ofName?
  | .object [(key, .null)] => (Json.textOf? key).bind ofName?
  | _ => none

end Field

namespace Scalar

/-- The first kind of scalar, of booleans, integers, doubles and texts, that can hold a JSON value. -/
def firstFit? (v : Json) : Option Scalar :=
  [ fun | .boolean b => some (.boolean b) | _ => none,
    fun | .integer i => (int64? i).map .integer | _ => none,
    fun | .integer i => some (.double (Double.ofInt i)) | .double x => some (.double x) | _ => none,
    fun | .string s => some (.text s) | _ => none ].findSome? (· v)

end Scalar

namespace Update

/-- Text in a member of an update. -/
def textOfRaw? : Json.Raw → Option String
  | .string s => (Json.textOf? s).map String.ofList
  | _ => none

/-- The value of an update; `null` is none. -/
def valueOfRaw? : Json.Raw → Option (Option Scalar)
  | .null => some none
  | r => ((Json.ofRaw? Json.maxNesting r).bind Scalar.firstFit?).map some

/-- The members of an update that have been read so far. -/
structure Draft where
  path : Option String
  field : Option Field
  value : Option (Option Scalar)

/-- Reads one more member. A member of an update must not be given twice. -/
def Draft.read? (p : Draft) (key : List Json.TextUnit) (r : Json.Raw) : Option Draft := do
  let key ← Json.textOf? key
  if key = "path".toList then
    if p.path.isSome then none else return { p with path := ← textOfRaw? r }
  else if key = "field".toList then
    if p.field.isSome then none else return { p with field := ← Field.ofRaw? r }
  else if key = "value".toList then
    if p.value.isSome then none else return { p with value := some (← valueOfRaw? r) }
  else return p

/-- An update is an object with a path, a field and perhaps a value, or a list of these. -/
def ofRaw? : Json.Raw → Option Update
  | .object members => do
    let p ← members.foldlM (fun p (key, r) => Draft.read? p key r) ⟨none, none, none⟩
    return { path := ← p.path, field := ← p.field, value := p.value.getD none }
  | .array [path, field] => do
    return { path := ← textOfRaw? path, field := ← Field.ofRaw? field, value := none }
  | .array [path, field, value] => do
    return { path := ← textOfRaw? path, field := ← Field.ofRaw? field, value := ← valueOfRaw? value }
  | _ => none

end Update

namespace Batch

/-- A batch is a list of updates. -/
def ofRaw? : Json.Raw → Option Batch
  | .array items => items.mapM Update.ofRaw?
  | _ => none

/-- The batch that a text holds. -/
def parse? (s : String) : Option Batch :=
  (Json.Raw.parse? s.toList).bind ofRaw?

end Batch
end SignalBridge
