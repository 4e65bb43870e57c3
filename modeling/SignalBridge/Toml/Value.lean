/-!
What a TOML document holds: a table of named values, in which values may be tables and arrays again.
-/

namespace SignalBridge.Toml

/-- A value. Of dates and times it is only known that they are some. -/
inductive Value
  | string (s : String)
  | integer (i : Int)
  | float (x : Float)
  | boolean (b : Bool)
  | time
  | array (items : List Value)
  | table (members : List (String × Value))

/-- Values by name, in the order in which they were first named. -/
abbrev Table := List (String × Value)

/-- Arrays and tables may be nested this deep, and a dotted key may have this many parts. -/
def maxNesting : Nat := 79

end SignalBridge.Toml
