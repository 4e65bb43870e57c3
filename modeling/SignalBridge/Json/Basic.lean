import SignalBridge.Json.Number
import SignalBridge.Scalar

/-!
JSON values. Numbers are whole numbers of 64 bits, signed or not, or doubles; objects keep the order of
their keys.
-/

namespace SignalBridge

inductive Json
  | null
  | boolean (b : Bool)
  | integer (i : Int)
  | double (x : Float)
  | string (s : String)
  | array (items : List Json)
  | object (members : List (String × Json))
deriving Inhabited

namespace Json

/-- The members of an object with `key` set to `value`: a key that is already there keeps its place. -/
def putMember (key : String) (value : Json) : List (String × Json) → List (String × Json)
  | [] => [(key, value)]
  | (k, v) :: members => if k = key then (k, value) :: members else (k, v) :: putMember key value members

/-- Later members replace earlier ones of the same key in place. -/
def mergeMembers (members : List (String × Json)) : List (String × Json) :=
  members.foldl (fun merged (key, value) => putMember key value merged) []

/-- The value of a key. -/
def member? (members : List (String × Json)) (key : String) : Option Json :=
  members.lookup key

/-- The value of a key of an object; other values have no keys. -/
def get? (key : String) : Json → Option Json
  | .object members => member? members key
  | _ => none

def asString? : Json → Option String
  | .string s => some s
  | _ => none

def asObject? : Json → Option (List (String × Json))
  | .object members => some members
  | _ => none

def asArray? : Json → Option (List Json)
  | .array items => some items
  | _ => none

/-! ### Reading -/

/-- The value of a number: a whole number if the literal is one and fits 64 bits (unsigned when it is
not negative), else a double. -/
def ofLiteral? (l : Literal) : Option Json :=
  if l.isInteger && -(bit 63 : Int) ≤ l.integer && l.integer < bit 64 then some (.integer l.integer)
  else l.double?.map .double

/-- The most arrays and objects that may be nested in one another. -/
def maxNesting : Nat := 127

mutual

/-- The value of well-formed text, within the given bound on nesting. -/
def ofRaw? (nesting : Nat) : Raw → Option Json
  | .null => some .null
  | .boolean b => some (.boolean b)
  | .number l => ofLiteral? l
  | .string s => (textOf? s).map fun s => .string (String.ofList s)
  | .array items =>
    match nesting with
    | 0 => none
    | nesting + 1 => (ofRaws? nesting items).map .array
  | .object members =>
    match nesting with
    | 0 => none
    | nesting + 1 => (ofRawMembers? nesting members).map fun members => .object (mergeMembers members)

def ofRaws? (nesting : Nat) : List Raw → Option (List Json)
  | [] => some []
  | r :: rs => do
    let v ← ofRaw? nesting r
    let vs ← ofRaws? nesting rs
    return v :: vs

def ofRawMembers? (nesting : Nat) : List (List TextUnit × Raw) → Option (List (String × Json))
  | [] => some []
  | (key, r) :: rs => do
    let key ← textOf? key
    let v ← ofRaw? nesting r
    let vs ← ofRawMembers? nesting rs
    return (String.ofList key, v) :: vs

end

/-- The value that a whole text holds. -/
def parse? (s : String) : Option Json :=
  (Raw.parse? s.toList).bind (ofRaw? maxNesting)

end Json

namespace Scalar

/-- The scalar that a JSON value is; `null`, arrays and objects are none. Whole numbers beyond 64 signed
bits become doubles. -/
def ofJson? : Json → Option Scalar
  | .boolean b => some (.boolean b)
  | .integer i =>
    match int64? i with
    | some n => some (.integer n)
    | none => some (.double (Double.ofInt i))
  | .double x => some (.double x)
  | .string s => some (.text s)
  | .null | .array _ | .object _ => none

end Scalar
end SignalBridge
