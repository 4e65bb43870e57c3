/-!
What a database text declares: messages and the signals in them, as written.
-/

namespace SignalBridge

/-- How the bits of a signal lie: the start is its lowest bit, or its highest. -/
inductive ByteOrder
  | little
  | big
deriving DecidableEq, Repr

/-- The part a signal plays in the multiplexing of its message. -/
inductive Multiplexing
  | none
  | multiplexer
  | selected (selector : Nat)
  | selectedMultiplexer (selector : Nat)
deriving DecidableEq, Repr

namespace Dbc

structure SignalDeclaration where
  name : String
  multiplexing : Multiplexing
  start : Nat
  length : Nat
  order : ByteOrder
  signed : Bool
  factor : Float
  offset : Float
  least : Float
  greatest : Float
  unit : String

/-- A message with its 32-bit identifier, whose top bit marks the extended format. -/
structure MessageDeclaration where
  identifier : Nat
  name : String
  size : Nat
  sender : Option String
  signals : List SignalDeclaration

end Dbc
end SignalBridge
