import SignalBridge.Toml.Value

/-!
How a document grows, statement by statement. A name is given a value once, a table is opened by one
header at most, and a table that dotted keys have made can only be extended by dotted keys.
-/

namespace SignalBridge.Toml

/-- How a table came to be: by its own header or in braces, on the way to the table of a longer header,
or by a dotted key. -/
inductive Origin
  | header
  | passed
  | dotted
deriving DecidableEq, Repr

/-- What a name stands for in a document that is being built: a value, a table, or a list of tables
with one header each, which is never empty and has the latest table first. -/
inductive Node
  | leaf (v : Value)
  | table (origin : Origin) (members : List (String × Node))
  | tables (latest : List (String × Node)) (earlier : List (List (String × Node)))

/-- Nodes by name. -/
abbrev Members := List (String × Node)

/-- A dotted key: its last part and the parts before it. -/
structure Key where
  path : List String
  name : String
deriving DecidableEq, Repr

namespace Members

/-- Gives a name a new node, made from its old one if there is one. -/
def alter (name : String) (change : Option Node → Option Node) : Members → Option Members
  | [] => (change none).map fun node => [(name, node)]
  | (other, node) :: members =>
    if other = name then (change (some node)).map fun node => (name, node) :: members
    else (alter name change members).map ((other, node) :: ·)

/-- Changes the table that a path leads to. Tables that are missing on the way are made, the path goes
through the latest of a list of tables, and a dotted path stops at a table that has a header. -/
def descend (made : Origin) (change : Origin → Members → Option Members) :
    List String → Origin → Members → Option Members
  | [], origin, members => change origin members
  | name :: path, _, members =>
    alter name (fun
      | none => (descend made change path made []).map (.table made)
      | some (.leaf _) => none
      | some (.table origin inner) =>
        if made = .dotted ∧ origin = .header then none
        else (descend made change path origin inner).map (.table origin)
      | some (.tables latest earlier) =>
        (descend made change path .header latest).map (.tables · earlier)) members

/-- Gives a key a value. The key must be new, and a dotted key must name a member of a table that
dotted keys have made. -/
def assign (key : Key) (v : Value) (members : Members) : Option Members :=
  descend .dotted (fun origin members =>
    if key.path ≠ [] ∧ origin ≠ .dotted then none
    else alter key.name (fun old => if old.isSome then none else some (.leaf v)) members)
    key.path .header members

/-- Opens the table of a header. -/
def openTable (key : Key) (members : Members) : Option Members :=
  descend .passed (fun _ => alter key.name fun
    | none => some (.table .header [])
    | some (.table .passed inner) => some (.table .header inner)
    | some _ => none) key.path .header members

/-- Opens one more table of a list of tables. -/
def appendTable (key : Key) (members : Members) : Option Members :=
  descend .passed (fun _ => alter key.name fun
    | none => some (.tables [] [])
    | some (.tables latest earlier) => some (.tables [] (latest :: earlier))
    | some _ => none) key.path .header members

end Members

mutual

/-- The value of a node. -/
def Node.value : Node → Value
  | .leaf v => v
  | .table _ members => .table (Members.table members)
  | .tables latest earlier => .array (earlierTables earlier [.table (Members.table latest)])

/-- The values of members. -/
def Members.table : List (String × Node) → Table
  | [] => []
  | (name, node) :: members => (name, node.value) :: Members.table members

/-- The values of tables of a list, latest first, in front of those of later ones. -/
def earlierTables : List (List (String × Node)) → List Value → List Value
  | [], later => later
  | members :: earlier, later => earlierTables earlier (.table (Members.table members) :: later)

end

/-! ### Documents -/

inductive Statement
  | assign (key : Key) (v : Value)
  | openTable (key : Key)
  | appendTable (key : Key)

/-- A document that is being built: all its members, and the path of the table that was opened last. -/
structure Draft where
  members : Members
  opened : List String

namespace Draft

def empty : Draft :=
  { members := [], opened := [] }

/-- Takes in one more statement, unless it contradicts those before it. -/
def add (d : Draft) : Statement → Option Draft
  | .assign key v =>
    (Members.descend .passed (fun _ => Members.assign key v) d.opened .header d.members).map
      ({ d with members := · })
  | .openTable key =>
    (d.members.openTable key).map fun members => { members, opened := key.path ++ [key.name] }
  | .appendTable key =>
    (d.members.appendTable key).map fun members => { members, opened := key.path ++ [key.name] }

end Draft

/-- The table that statements make. -/
def tableOf? (statements : List Statement) : Option Table :=
  (statements.foldlM Draft.add .empty).map (Members.table ·.members)

end SignalBridge.Toml
