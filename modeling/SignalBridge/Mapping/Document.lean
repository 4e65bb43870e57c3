import SignalBridge.Mapping.Table

/-!
Mapping documents. A document is a tree of objects. Branches contribute their name to the paths below
them; sensors, actuators and attributes are leaves; any other object only groups its members. A leaf
that declares a bus signal becomes an entry of the table, unless no frame carries the signal.
-/

namespace SignalBridge

/-- A leaf of a document: its path and the members of its object. -/
structure Leaf where
  path : String
  members : List (String × Json)

/-- The part an object plays in a document. -/
inductive NodeKind
  | branch
  | leaf
  | group
deriving DecidableEq, Repr

/-- The part of an object with the given members. -/
def nodeKind (members : List (String × Json)) : NodeKind :=
  match (Json.member? members "type").bind Json.asString? with
  | some "branch" => .branch
  | some "sensor" | some "actuator" | some "attribute" => .leaf
  | _ => .group

mutual

/-- The leaves at and below a node, in document order. The path of what lies above ends in a dot unless
it is empty. -/
def leaves (above name : String) : Json → List Leaf
  | .object members =>
    match nodeKind members with
    | .branch => childLeaves (above ++ name ++ ".") members
    | .leaf => [{ path := above ++ name, members }]
    | .group => memberLeaves above members
  | _ => []

/-- The leaves below a branch with the given members: those of its `children`. -/
def childLeaves (above : String) : List (String × Json) → List Leaf
  | [] => []
  | (key, v) :: members =>
    if key = "children" then
      match v with
      | .object children => memberLeaves above children
      | _ => []
    else childLeaves above members

/-- The leaves below each of some members. -/
def memberLeaves (above : String) : List (String × Json) → List Leaf
  | [] => []
  | (name, v) :: members => leaves above name v ++ memberLeaves above members

end

/-- What a leaf declares: the bus signal it drives, and how. -/
structure Declaration where
  signal : String
  transform : Option Transform

namespace Declaration

/-- The transform of a declaration. It stands under `transform`, or in the declaration itself. -/
def transformOf (members : List (String × Json)) : Except DeclarationFault (Option Transform) :=
  match Json.member? members "transform" with
  | some v => (Transform.ofJson v).map some
  | none =>
    if (Json.member? members "mapping").isSome || (Json.member? members "math").isSome then
      (Transform.ofJson (.object members)).map some
    else .ok none

/-- Reads a declaration. -/
def ofJson (v : Json) : Except DeclarationFault Declaration :=
  match v.asObject? with
  | none => .error .notObject
  | some members =>
    match (Json.member? members "signal").bind Json.asString? with
    | none | some "" => .error .noSignal
    | some signal => do return { signal, transform := ← transformOf members }

/-- The declaration of a leaf, if it has one. -/
def ofLeaf (l : Leaf) : Except Fault (Option Declaration) :=
  match Json.member? l.members declarationKey with
  | none => .ok none
  | some v => ((ofJson v).map some).mapError (.declaration l.path)

end Declaration

namespace Table

/-- Adds the entry of a leaf, if it declares a signal that some frame carries. -/
def insertLeaf (frameOf? : String → Option Nat) (t : Table) (l : Leaf) : Except Fault Table := do
  match ← Declaration.ofLeaf l with
  | none => return t
  | some d =>
    match frameOf? d.signal with
    | none => return t
    | some frame => return t.insert l.path { signal := d.signal, frame, transform := d.transform, last := none }

/-- The table of a document. -/
def build (document : Json) (frameOf? : String → Option Nat) : Except Fault Table :=
  (leaves "" "" document).foldlM (insertLeaf frameOf?) empty

/-- The table of a mapping file that has the given bytes if it is there. -/
def ofFile (path : String) (content : Option ByteArray) (frameOf? : String → Option Nat) :
    Except Fault Table :=
  match content with
  | none => .error (.mappingUnreadable path .missing)
  | some bytes =>
    match String.fromUTF8? bytes with
    | none => .error (.mappingUnreadable path .notText)
    | some text =>
      match Json.parse? text with
      | none => .error (.mappingMalformed path)
      | some document => build document frameOf?

end Table
end SignalBridge
