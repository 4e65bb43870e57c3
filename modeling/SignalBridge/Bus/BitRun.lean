import SignalBridge.Bus.Message

/-!
Where the bits of a signal lie. Positions count bits from the start of the payload, bit 0 being the
lowest of the first byte. Little-endian signals run upward from their lowest bit; big-endian signals
start at their highest bit, run down each byte and go on at the top of the next.
-/

namespace SignalBridge

/-- The bit after `p` on the way down: the next lower bit of the byte, or the highest of the next byte. -/
def downward (p : Nat) : Nat :=
  if p % 8 = 0 then p + 15 else p - 1

/-- The positions from `p` on the way down. -/
def downwardRun (p : Nat) : Nat → List Nat
  | 0 => []
  | n + 1 => p :: downwardRun (downward p) n

/-- The positions of a signal, lowest bit first. -/
def Signal.run (s : Signal) : List Nat :=
  match s.order with
  | .little => List.range' s.start s.length
  | .big => (downwardRun s.start s.length).reverse

/-- The positions of a signal in a frame of `size` bytes, which must hold them all. Sizes have no bound here. Where they
are words of 64 bits, `8 * size` wraps around from `2 ^ 61` bytes on, which no payload has. -/
def Signal.positions (s : Signal) (size : Nat) : Except Fault (List Nat) :=
  if s.run.all (· < 8 * size) then .ok s.run else .error (.outsideFrame s.name size)

end SignalBridge
