import SignalBridge.Proofs.CheckedWords
import SignalBridge.Proofs.DeclaredLayout

/-! The codec step by step, on bytes and words, with checked operations. It reads and sets one bit of a buffer after
    the other, and has no outcome as soon as a single operation is outside of its domain. For the messages of a loaded
    database this never happens: there the steps have the outcome of the codec, be it a result or a fault. -/

namespace SignalBridge

/-! ### Outcomes -/

/-- What may fault, or have no outcome. -/
abbrev Checked (α : Type) := ExceptT Fault Option α

/-- A checked computation has an outcome, and it is that of another one: a related result or the same fault. -/
inductive Computes {α β : Type} (R : α → β → Prop) : Checked α → Except Fault β → Prop
  | ok {a : α} {b : β} (h : R a b) : Computes R (pure a) (.ok b)
  | error {f : Fault} : Computes R (throw f) (.error f)

namespace Computes
variable {α α' β β' : Type} {R : α → β → Prop} {S : α' → β' → Prop} {x : Checked α} {y : Except Fault β}

theorem bind {f : α → Checked α'} {g : β → Except Fault β'} (h : Computes R x y)
    (hfg : ∀ a b, R a b → Computes S (f a) (g b)) : Computes S (x >>= f) (y >>= g) := by
  cases h with
  | ok h => exact hfg _ _ h
  | error => exact .error

theorem lift {o : Option α} {a : α} {f : α → Checked α'} {y : Except Fault β'} (ho : o = some a)
    (h : Computes S (f a) y) : Computes S ((liftM o : Checked α) >>= f) y := by
  subst ho
  exact h

theorem map {f : α → α'} {g : β → β'} (h : Computes R x y) (hfg : ∀ a b, R a b → S (f a) (g b)) :
    Computes S (x >>= fun a => pure (f a)) (y.map g) := by
  cases h with
  | ok h => exact .ok (hfg _ _ h)
  | error => exact .error

theorem map_right {R : α → β' → Prop} {g : β → β'} (h : Computes (fun a b => R a (g b)) x y) :
    Computes R x (y >>= fun b => pure (g b)) := by
  cases h with
  | ok h => exact .ok h
  | error => exact .error

theorem run_eq {x : Checked β} (h : Computes Eq x y) : x.run = some y := by
  cases h with
  | ok h => rw [h]; rfl
  | error => rfl

end Computes

/-! ### Signals -/

namespace Signal
open Checked

/-- The bit after `p` on the way down. From the lowest bit of a byte there is no step downward. -/
def downward? (p : Nat) : Option Nat :=
  if p % 8 = 0 then some (p + 15) else p.ppred

/-- The positions from `p` on the way down; no step is made from the last one. -/
def downwardRun? (p : Nat) : Nat → Option (List Nat)
  | 0 => some []
  | 1 => some [p]
  | n + 2 => do return p :: (← downwardRun? (← downward? p) (n + 1))

def run? (s : Signal) : Option (List Nat) :=
  match s.order with
  | .little => some (List.range' s.start s.length)
  | .big => (downwardRun? s.start s.length).map List.reverse

def positions? (s : Signal) (size : Nat) : Checked (List Nat) := do
  let run ← s.run?
  if run.any (8 * size ≤ ·) then throw (.outsideFrame s.name size) else return run

/-- The word of a value: its whole number, cut to 64 bits, under the mask of the signal. -/
def toWord? (s : Signal) (v : Scalar) : Checked (BitVec 64) :=
  match v.toDouble? with
  | none => throw (.notNumeric s.name v)
  | some x =>
    let (least, greatest) := s.range
    match Double.round? ((x - s.offset) / s.factor) with
    | some i =>
      if least ≤ i ∧ i ≤ greatest then do return .ofInt 64 (clamp s.signed i) &&& (← mask? s.length)
      else throw (.outOfRange s.name v s.length)
    | none => throw (.outOfRange s.name v s.length)

def integerOf? (s : Signal) (raw : BitVec 64) : Option Int64 :=
  if s.signed then (signExtend? raw s.length).map Int64.ofBitVec else some (.ofBitVec raw)

variable {s : Signal} {size : Nat} {v : Scalar}

theorem downward?_eq (p : Nat) : downward? p = some (downward p) := by
  unfold downward? downward
  cases p with
  | zero => rfl
  | succ p => split <;> rfl

theorem downwardRun?_eq : ∀ {p n : Nat}, downwardRun? p n = some (downwardRun p n)
  | _, 0 => rfl
  | _, 1 => rfl
  | p, n + 2 => by
    rw [downwardRun?, downward?_eq]
    simp only [Option.bind_eq_bind, Option.bind_some]
    rw [downwardRun?_eq]
    rfl

theorem run?_eq : s.run? = some s.run := by
  unfold run? run
  cases s.order with
  | little => rfl
  | big => simp [downwardRun?_eq]

theorem computes_positions? :
    Computes (fun positions positions' => positions = s.run ∧ positions' = s.run ∧ ∀ p ∈ s.run, p < 8 * size)
      (s.positions? size) (s.positions size) := by
  refine .lift run?_eq ?_
  by_cases hfit : ∀ p ∈ s.run, p < 8 * size
  · have hany : s.run.any (8 * size ≤ ·) = false := by simpa using hfit
    rw [positions_eq_ok.mpr ⟨hfit, rfl⟩, if_neg (by simp [hany])]
    exact .ok ⟨rfl, rfl, hfit⟩
  · have hout : ∃ p ∈ s.run, 8 * size ≤ p := by simpa using hfit
    have hany : s.run.any (8 * size ≤ ·) = true := by simpa using hout
    rw [positions_eq_error.mpr ⟨hout, rfl⟩, if_pos hany]
    exact .error

theorem toNat_ofInt_mod {length : Nat} (hlength : length ≤ 64) (i : Int) :
    (BitVec.ofInt 64 i).toNat % bit length = (i % bit length).toNat := by
  have hdvd : (bit length : Int) ∣ (bit 64 : Nat) := Int.natCast_dvd_natCast.mpr ⟨bit (64 - length), by
    rw [← bit_add, Nat.add_sub_of_le hlength]⟩
  have hpos : (bit length : Int) ≠ 0 := Int.natCast_ne_zero.mpr (Nat.ne_of_gt (bit_pos length))
  have htoNat : (BitVec.ofInt 64 i).toNat = (i % (bit 64 : Nat)).toNat := BitVec.toNat_ofInt i
  apply Int.natCast_inj.mp
  rw [htoNat, Int.natCast_emod, Int.toNat_of_nonneg (Int.emod_nonneg i (by decide)), Int.emod_emod_of_dvd i hdvd,
    Int.toNat_of_nonneg (Int.emod_nonneg i hpos)]

theorem computes_toWord? (hlength : s.length ≤ 64) :
    Computes (fun x raw => x.toNat = raw) (s.toWord? v) (s.toRaw v) := by
  obtain ⟨mask, hmask, hand⟩ := exists_mask? hlength
  unfold toWord? toRaw
  cases v.toDouble? with
  | none => exact .error
  | some x =>
    dsimp only
    cases Double.round? ((x - s.offset) / s.factor) with
    | none => exact .error
    | some i =>
      dsimp only
      split
      · refine .lift hmask (.ok ?_)
        rw [hand, toNat_ofInt_mod hlength]
      · exact .error

theorem integerOf?_eq {raw : BitVec 64} (hlow : 1 ≤ s.length) (hhigh : s.length ≤ 64) (hraw : raw.toNat < bit s.length) :
    s.integerOf? raw = some (Int64.ofInt (s.numberOf raw.toNat)) := by
  have hword : (raw.setWidth s.length).toNat = raw.toNat := by
    rw [bit_eq] at hraw
    rw [BitVec.toNat_setWidth]
    exact Nat.mod_eq_of_lt hraw
  have hnumber := numberOf_toNat (raw.setWidth s.length)
  rw [hword] at hnumber
  unfold integerOf?
  cases hsigned : s.signed with
  | true =>
    rw [if_pos rfl, signExtend?_eq hlow hhigh hraw, hnumber, hsigned]
    rfl
  | false =>
    rw [if_neg Bool.false_ne_true, hnumber, hsigned, if_neg Bool.false_ne_true]
    refine congrArg some (Int64.toBitVec_inj.mp ?_)
    rw [Int64.toBitVec_ofInt, BitVec.ofInt_natCast, BitVec.ofNat_toNat, BitVec.setWidth_eq]
    rfl

end Signal

/-! ### Messages -/

namespace Message
open Checked

/-- The payload with the bits of one more signal set. -/
def packSignal? (m : Message) (values : SignalValues) (bytes : List UInt8) (s : Signal) : Checked (List UInt8) :=
  match values[s.name]? with
  | none => throw (.missingValue m.frame s.name)
  | some v => do
    let raw ← s.toWord? v
    let positions ← s.positions? m.size
    scatter? m.size raw bytes 0 positions

def multiplexerWord? (m : Message) (values : SignalValues) : Checked (Option (BitVec 64)) :=
  match m.multiplexer with
  | none => return none
  | some name =>
    match m.signal? name, values[name]? with
    | some s, some v => do return some (← s.toWord? v)
    | _, _ => throw (.missingValue m.frame name)

def encode? (m : Message) (values : SignalValues) : Checked (List UInt8) := do
  let multiplexer ← m.multiplexerWord? values
  (m.active (multiplexer.map BitVec.toNat)).foldlM (m.packSignal? values) (List.replicate m.size 0)

def wordOf? (m : Message) (bytes : List UInt8) (s : Signal) : Checked (BitVec 64) := do
  let positions ← s.positions? m.size
  gather? m.size bytes 0 0 positions

def multiplexerIn? (m : Message) (bytes : List UInt8) : Checked (Option (BitVec 64)) :=
  match m.multiplexer.bind m.signal? with
  | some s => do return some (← m.wordOf? bytes s)
  | none => return none

/-- The values with that of one more signal, read from the payload. -/
def unpackSignal? (m : Message) (bytes : List UInt8) (values : SignalValues) (s : Signal) : Checked SignalValues := do
  let raw ← m.wordOf? bytes s
  let i ← s.integerOf? raw
  return values.insert s.name (s.scaled i)

def decode? (m : Message) (bytes : List UInt8) : Checked SignalValues := do
  if bytes.length < m.size then throw (.shortPayload m.frame m.size bytes.length)
  let multiplexer ← m.multiplexerIn? bytes
  (m.active (multiplexer.map BitVec.toNat)).foldlM (m.unpackSignal? bytes) ∅

/-- What the codec relies on: signals have from 1 to 64 bits, the multiplexer is one of them, and there is one where a
    signal is selected. -/
structure WellFormed (m : Message) : Prop where
  lengths : ∀ s ∈ m.signals, 1 ≤ s.length ∧ s.length ≤ 64
  multiplexer : ∀ name, m.multiplexer = some name → ∃ s ∈ m.signals, s.name = name
  selectors : ∀ s ∈ m.signals, s.selector.isSome = true → m.multiplexer.isSome = true

variable {m : Message} {values : SignalValues} {bytes : List UInt8} {signals : List Signal} {s : Signal}
  {payload : Nat}

theorem wellFormed_of_ofDeclaration {d : Dbc.MessageDeclaration} (h : ofDeclaration d = .ok m) : m.WellFormed := by
  obtain ⟨signals, hsignals, rfl⟩ := ofDeclaration_eq_ok.mp h
  refine ⟨fun s hs => ?_, fun name hname => ?_, fun s hs hselector => ?_⟩
  · obtain ⟨declaration, -, hdeclaration⟩ := exists_of_mem_mapM hsignals hs
    exact (Signal.laidOut_of_ofDeclaration hdeclaration).supported
  · obtain ⟨s, hs, hsname, -⟩ := multiplexer_of_ofDeclaration h hname
    exact ⟨s, hs, hsname⟩
  · obtain ⟨declaration, -, hdeclaration⟩ := exists_of_mem_mapM hsignals hs
    obtain ⟨selector, hselectorOf, -, rfl⟩ := Signal.ofDeclaration_eq_ok.mp hdeclaration
    unfold Signal.selectorOf at hselectorOf
    -- Only a multiplexed signal is given a selector, and only where the message has a multiplexer.
    split at hselectorOf
    · split at hselectorOf
      next hmultiplexed => exact hmultiplexed
      next => cases hselectorOf
    all_goals
      obtain rfl := Except.ok.inj hselectorOf
      cases hselector

/-! ### Packing -/

theorem computes_packSignal? (hlength : s.length ≤ 64) :
    Computes (fun bytes first => bytes = Payload.toBytes m.size (payload ||| first))
      (m.packSignal? values (Payload.toBytes m.size payload) s) (m.packSignal values s) := by
  unfold packSignal? packSignal
  cases values[s.name]? with
  | none => exact .error
  | some v =>
    refine (Signal.computes_toWord? hlength).bind fun raw n hraw => ?_
    refine Signal.computes_positions?.bind ?_
    rintro _ _ ⟨rfl, rfl, hfit⟩
    have hroom : 0 + s.run.length ≤ 64 := by simpa using hlength
    rw [scatter?_toBytes hfit hroom, hraw, show bit 0 = 1 from rfl, Nat.div_one]
    exact .ok rfl

theorem computes_packSignals? (hlengths : ∀ s ∈ signals, s.length ≤ 64) :
    Computes (fun bytes rest => bytes = Payload.toBytes m.size (payload ||| rest))
      (signals.foldlM (m.packSignal? values) (Payload.toBytes m.size payload)) (m.packSignals values signals) := by
  -- The steps carry the bytes of all that was packed before, the codec only joins what the rest packs.
  induction signals generalizing payload with
  | nil => exact .ok (by simp)
  | cons s signals ih =>
    obtain ⟨hs, hrest⟩ := List.forall_mem_cons.mp hlengths
    rw [List.foldlM_cons, packSignals]
    refine (computes_packSignal? hs).bind ?_
    rintro _ first rfl
    refine Computes.map_right ?_
    have hfold := @ih (payload ||| first) hrest
    simpa only [Nat.or_assoc] using hfold

theorem toBytes_zero : ∀ {size : Nat}, Payload.toBytes size 0 = List.replicate size 0
  | 0 => rfl
  | size + 1 => by
    rw [Payload.toBytes, Nat.zero_div, toBytes_zero, List.replicate_succ]
    rfl

theorem computes_multiplexerWord? (hm : m.WellFormed) :
    Computes (fun x raw => x.map BitVec.toNat = raw) (m.multiplexerWord? values) (m.multiplexerRaw values) := by
  unfold multiplexerWord? multiplexerRaw
  cases m.multiplexer with
  | none => exact .ok rfl
  | some name =>
    dsimp only
    cases hs : m.signal? name with
    | none => exact .error
    | some s =>
      cases values[name]? with
      | none => exact .error
      | some v =>
        have hlength := (hm.lengths s (List.mem_of_find?_eq_some hs)).2
        exact (Signal.computes_toWord? hlength).map fun _ _ hx => congrArg some hx

theorem computes_encode? (hm : m.WellFormed) : Computes Eq (m.encode? values) (m.encode values) := by
  refine (computes_multiplexerWord? hm).bind ?_
  rintro multiplexer _ rfl
  rw [← toBytes_zero]
  refine Computes.map_right ?_
  have hlengths : ∀ s ∈ m.active (multiplexer.map BitVec.toNat), s.length ≤ 64 := fun s hs =>
    (hm.lengths s (List.mem_filter.mp hs).1).2
  simpa only [Nat.zero_or] using @computes_packSignals? m values _ 0 hlengths

/-! ### Unpacking -/

theorem computes_wordOf? (hlength : s.length ≤ 64) (hbytes : m.size ≤ bytes.length) :
    Computes (fun x raw => x.toNat = raw ∧ raw < bit s.length) (m.wordOf? bytes s)
      (m.rawOf (Payload.ofBytes bytes) s) := by
  have hrawOf : m.rawOf (Payload.ofBytes bytes) s =
      s.positions m.size >>= fun positions => .ok (Payload.gather (Payload.ofBytes bytes) positions) := rfl
  rw [hrawOf]
  refine Signal.computes_positions?.bind ?_
  rintro _ _ ⟨rfl, rfl, hfit⟩
  have hroom : 0 + s.run.length ≤ 64 := by simpa using hlength
  have hempty : (0 : BitVec 64).toNat < bit 0 := by decide
  obtain ⟨x, hx, hvalue⟩ := exists_gather? hbytes hfit hroom hempty
  have hlt := Payload.gather_lt (Payload.ofBytes bytes) s.run
  rw [Signal.length_run] at hlt
  rw [hx]
  refine .ok ⟨?_, hlt⟩
  rw [hvalue, show bit 0 = 1 from rfl, Nat.one_mul]
  exact Nat.zero_add _

theorem computes_multiplexerIn? (hm : m.WellFormed) (hbytes : m.size ≤ bytes.length) :
    Computes (fun x raw => x.map BitVec.toNat = raw) (m.multiplexerIn? bytes)
      (m.multiplexerIn (Payload.ofBytes bytes)) := by
  unfold multiplexerIn? multiplexerIn
  cases hs : m.multiplexer.bind m.signal? with
  | none => exact .ok rfl
  | some s =>
    obtain ⟨name, -, hname⟩ := Option.bind_eq_some_iff.mp hs
    have hlength := (hm.lengths s (List.mem_of_find?_eq_some hname)).2
    exact (computes_wordOf? hlength hbytes).map fun _ _ hx => congrArg some hx.1

theorem computes_unpackSignals? (hlengths : ∀ s ∈ signals, 1 ≤ s.length ∧ s.length ≤ 64)
    (hbytes : m.size ≤ bytes.length) : Computes Eq (signals.foldlM (m.unpackSignal? bytes) ∅)
      (m.unpackSignals (Payload.ofBytes bytes) signals) := by
  unfold unpackSignals
  generalize (∅ : SignalValues) = start
  induction signals generalizing start with
  | nil => exact .ok rfl
  | cons s signals ih =>
    obtain ⟨hs, hrest⟩ := List.forall_mem_cons.mp hlengths
    rw [List.foldlM_cons, List.foldlM_cons]
    have hstep : Computes Eq (m.unpackSignal? bytes start s) (m.rawOf (Payload.ofBytes bytes) s >>= fun raw =>
        .ok (start.insert s.name (s.valueOf raw))) := by
      refine (computes_wordOf? hs.2 hbytes).bind ?_
      rintro x _ ⟨rfl, hlt⟩
      exact .lift (Signal.integerOf?_eq hs.1 hs.2 hlt) (.ok rfl)
    refine hstep.bind ?_
    rintro values _ rfl
    exact ih hrest values

theorem computes_decode? (hm : m.WellFormed) : Computes Eq (m.decode? bytes) (m.decode bytes) := by
  unfold decode? decode
  split
  next => exact .error
  next hlong =>
    have hbytes : m.size ≤ bytes.length := Nat.not_lt.mp hlong
    refine (computes_multiplexerIn? hm hbytes).bind ?_
    rintro multiplexer _ rfl
    exact computes_unpackSignals? (fun s hs => hm.lengths s (List.mem_filter.mp hs).1) hbytes

/-- A message that no text declares: its signal has 72 bits. -/
def wideMessage : Message :=
  { frame := 5, extended := false, name := "M", size := 9, sender := none, multiplexer := none
    signals := [{ name := "S", start := 0, length := 72, order := .little, signed := false, factor := 1, offset := 0
                  least := 0, greatest := 0, unit := none, selector := none }] }

-- The codec packs and reads it, but the 65th bit of the word is out of reach of any shift.
example : (wideMessage.encode? (.ofList [("S", Scalar.integer 5)])).run.isNone = true := by decide

example : (wideMessage.decode? (List.replicate 9 255)).run.isNone = true := by decide

end Message

/-! ### Databases -/

namespace Database

def encode? (d : Database) (frame : Nat) (values : SignalValues) : Checked (List UInt8) :=
  match d.message? frame with
  | some m => m.encode? values
  | none => throw (.messageNotFound frame)

def decode? (d : Database) (frame : Nat) (bytes : List UInt8) : Checked SignalValues :=
  match d.message? frame with
  | some m => m.decode? bytes
  | none => throw (.messageNotFound frame)

/-- With a database loaded from any sources, also from some that are refused, no operation of the codec leaves its
    domain: every frame is packed and read, or refused, as the codec does it. -/
theorem checked_after_loads (sources : List Source) :
    let d := empty.loadAll sources
    (∀ frame values, (d.encode? frame values).run = some (d.encode frame values)) ∧
      (∀ frame bytes, (d.decode? frame bytes).run = some (d.decode frame bytes)) ∧
      ∀ frame m, d.message? frame = some m → m.WellFormed := by
  intro d
  have hloaded : ∀ frame m, d.message? frame = some m → m.WellFormed := by
    intro frame m hm
    obtain ⟨declaration, hdeclaration⟩ := declared_of_message? hm
    exact Message.wellFormed_of_ofDeclaration hdeclaration
  refine ⟨fun frame values => ?_, fun frame bytes => ?_, hloaded⟩
  · cases hm : d.message? frame with
    | none =>
      rw [encode?, encode, message, hm]
      rfl
    | some m =>
      rw [encode_of_message? hm, encode?, hm]
      exact (Message.computes_encode? (hloaded frame m hm)).run_eq
  · cases hm : d.message? frame with
    | none =>
      rw [decode?, decode, message, hm]
      rfl
    | some m =>
      rw [decode_of_message? hm, decode?, hm]
      exact (Message.computes_decode? (hloaded frame m hm)).run_eq

/-- After a text that is refused, a signed signal that fills its frame from the highest bit of the first byte. -/
theorem checked_after_loads_swapped :
    let d := empty.loadAll [.text "VERSION", .text (Message.oneSignalText "7|64@0-")]
    (d.encode? 5 (.ofList [("S", Scalar.integer (-2))])).run = some (.ok [255, 255, 255, 255, 255, 255, 255, 254]) ∧
      (∃ values, (d.decode? 5 [255, 255, 255, 255, 255, 255, 255, 254]).run = some (.ok values)) ∧
      ∃ m, d.message? 5 = some m ∧ m.WellFormed := by
  intro d
  have hencode : (d.encode 5 (.ofList [("S", Scalar.integer (-2))])).toOption =
      some [255, 255, 255, 255, 255, 255, 255, 254] := by
    decide +kernel
  have hdecode : (d.decode 5 [255, 255, 255, 255, 255, 255, 255, 254]).toOption.isSome = true := by decide +kernel
  have hmessage : (d.message? 5).isSome = true := by decide +kernel
  obtain ⟨hpacks, hreads, hwellFormed⟩ :=
    checked_after_loads [.text "VERSION", .text (Message.oneSignalText "7|64@0-")]
  obtain ⟨values, hvalues⟩ := Option.isSome_iff_exists.mp hdecode
  obtain ⟨m, hm⟩ := Option.isSome_iff_exists.mp hmessage
  refine ⟨?_, ⟨values, ?_⟩, m, hm, hwellFormed 5 m hm⟩
  · rw [hpacks, toOption_eq_some.mp hencode]
  · rw [hreads, toOption_eq_some.mp hvalues]

end Database
end SignalBridge
