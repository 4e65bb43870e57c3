import Mathlib.Data.List.Dedup
import SignalBridge.Proofs.Loading
import SignalBridge.Proofs.RoundTrip

/-! Which messages of a text are kept. A loaded message is found by its frame, which is its identifier without the
    bit that marks the extended format. So of the messages whose identifiers differ in this bit at most only the
    last one is kept, and nothing is lost exactly if no two identifiers are so close. -/

namespace SignalBridge

theorem forall₂_of_mapM {ε α β : Type} {f : α → Except ε β} {l : List α} {l' : List β} (h : l.mapM f = .ok l') :
    List.Forall₂ (fun a b => f a = .ok b) l l' := by
  induction l generalizing l' with
  | nil =>
    obtain rfl := Except.ok.inj h
    exact .nil
  | cons a l ih =>
    rw [List.mapM_cons] at h
    obtain ⟨b, hb, h⟩ := bind_eq_ok.mp h
    obtain ⟨bs, hbs, h⟩ := bind_eq_ok.mp h
    obtain rfl := Except.ok.inj h
    exact .cons hb (ih hbs)

/-! ### Lists of messages -/

section
variable {l messages : List Message} {frame : Nat}

end

/-! ### Declarations -/

namespace Message
variable {declaration : Dbc.MessageDeclaration} {declared : List Dbc.MessageDeclaration} {m : Message}
  {messages : List Message}

end Message

namespace Database
variable {d : Database} {text : String} {messages : List Message}

/-- The database gives a message back as it was declared, under its identifier without the bit for the extended
    format. -/
def Gives (d : Database) (declaration : Dbc.MessageDeclaration) : Prop :=
  ∃ m, d.message (declaration.identifier % bit 31) = .ok m ∧ m.name = declaration.name ∧ m.size = declaration.size ∧
    m.extended = decide (bit 31 ≤ declaration.identifier) ∧
    declaration.signals.mapM (Signal.ofDeclaration · (Message.multiplexerOf declaration).isSome) = .ok m.signals

end Database
end SignalBridge
