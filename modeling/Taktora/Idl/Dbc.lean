import Taktora.Idl.Ir
import Taktora.Idl.Wire

namespace Taktora.Idl

open Outcome Checked List

variable {msg : DbcMessage} {sig : DbcSignal} {db : DbcDatabase} {s : LoweredSignal}

inductive Multiplexer where
  | none
  | multiplexor
  | multiplexed (value : Nat)
deriving DecidableEq, Repr

structure DbcSignal where
  name : String
  multiplexer : Multiplexer
  startBit : Nat
  bitLen : Nat
  byteOrder : ByteOrder
  signed : Bool
deriving DecidableEq, Repr

structure DbcMessage where
  id : UInt32
  name : String
  dlc : Nat
  signals : List DbcSignal
deriving DecidableEq, Repr

def extendedFlag : UInt32 := 0x80000000

namespace DbcMessage

def isExtended (msg : DbcMessage) : Bool := msg.id &&& extendedFlag != 0

def canId (msg : DbcMessage) : UInt32 := msg.id &&& ~~~extendedFlag

end DbcMessage

structure DbcValueTable where
  messageId : UInt32
  signal : String
  entries : List (Int × String)
deriving DecidableEq, Repr

structure DbcDatabase where
  messages : List DbcMessage
  valueTables : List DbcValueTable
deriving DecidableEq, Repr

variable (db)

def DbcDatabase.valueTableFor (messageId : UInt32) (signal : String) : Option DbcValueTable :=
  db.valueTables.find? fun t => t.messageId &&& ~~~extendedFlag == messageId &&& ~~~extendedFlag && t.signal == signal

structure SignalLayout where
  fieldName : String
  startBit : Nat
  bitLen : Nat
  byteOrder : ByteOrder
  signed : Bool
deriving DecidableEq, Repr

structure FrameLayout where
  structName : String
  canId : UInt32
  extended : Bool
  dlc : Nat
  signals : List SignalLayout
deriving DecidableEq, Repr

structure DbcLayout where
  frames : List FrameLayout
deriving DecidableEq, Repr

def DbcLayout.frame (layout : DbcLayout) (structName : String) : Option FrameLayout :=
  layout.frames.find? (·.structName == structName)

structure LoweredDbc where
  module : Module
  layout : DbcLayout
deriving DecidableEq, Repr

inductive LowerError where
  | signalTooWide (message signal : String) (bits : Nat)
  | signalExceedsFrame (message signal : String) (dlc needed : Nat)
  | ir (e : IrError)
deriving DecidableEq, Repr

def scalarFor (msg : DbcMessage) (sig : DbcSignal) (signed : Bool) : Except LowerError Scalar :=
  match Scalar.integerForBits sig.bitLen signed with
  | some s => .ok s
  | none => .error (.signalTooWide msg.name sig.name sig.bitLen)

def integerScalar (msg : DbcMessage) (sig : DbcSignal) : Except LowerError Scalar := scalarFor msg sig sig.signed

/-- A negative entry of the value table makes the discriminant signed, whatever the signal says. -/
def enumScalar (msg : DbcMessage) (sig : DbcSignal) (hasNegative : Bool) : Except LowerError Scalar :=
  scalarFor msg sig (sig.signed || hasNegative)

def signalByteExtent (startBit bitLen : Nat) : ByteOrder → Nat
  | .littleEndian => (startBit + bitLen - 1) / 8 + 1
  | .bigEndian =>
    let firstByteBits := startBit % 8 + 1
    if bitLen ≤ firstByteBits then startBit / 8 + 1
    else startBit / 8 + (bitLen - firstByteBits + 7) / 8 + 1

def checkFrameFit (msg : DbcMessage) (sig : DbcSignal) : Except LowerError Unit :=
  let needed := signalByteExtent sig.startBit sig.bitLen sig.byteOrder
  if msg.dlc < needed then .error (.signalExceedsFrame msg.name sig.name msg.dlc needed) else .ok ()

structure LoweredSignal where
  field : Field
  enums : List EnumDef
  layout : SignalLayout
deriving DecidableEq, Repr

def lowerType (msg : DbcMessage) (sig : DbcSignal) : Except LowerError (Ty × List EnumDef) :=
  match db.valueTableFor msg.id sig.name with
  | some table => do
    let underlying ← enumScalar msg sig (table.entries.any fun (value, _) => value < 0)
    let enumName := msg.name ++ "_" ++ sig.name
    .ok (.enum enumName, [⟨enumName, underlying, table.entries.map fun (value, name) => ⟨name, value⟩⟩])
  | none => do
    let scalar ← integerScalar msg sig
    .ok (.scalar scalar, [])

def lowerSignal (msg : DbcMessage) (sig : DbcSignal) : Except LowerError LoweredSignal := do
  let (ty, enums) ← lowerType db msg sig
  checkFrameFit msg sig
  .ok ⟨⟨sig.name, ty⟩, enums, ⟨sig.name, sig.startBit, sig.bitLen, sig.byteOrder, sig.signed⟩⟩

structure LoweredMessage where
  struct : Struct
  enums : List EnumDef
  frame : FrameLayout
deriving DecidableEq, Repr

def lowerMessage (msg : DbcMessage) : Except LowerError LoweredMessage := do
  let signals ← msg.signals.mapM (lowerSignal db msg)
  .ok ⟨⟨msg.name, signals.map LoweredSignal.field⟩, signals.flatMap LoweredSignal.enums,
    ⟨msg.name, msg.canId, msg.isExtended, msg.dlc, signals.map LoweredSignal.layout⟩⟩

def LowerError.ofIr : Abort IrError → Abort LowerError
  | .panic p => .panic p
  | .error e => .error (.ir e)

def lower (moduleName : String) : Outcome LowerError LoweredDbc := do
  let messages ← ofResult (db.messages.mapM (lowerMessage db))
  let module := ⟨moduleName, messages.map LoweredMessage.struct, messages.flatMap LoweredMessage.enums, []⟩
  (Module.validate module).mapError LowerError.ofIr
  .ok ⟨module, ⟨messages.map LoweredMessage.frame⟩⟩

variable {db}

/-- The type of a field holds as many bits as its signal has. The enum of an enum field is pushed with it. -/
def LoweredSignal.Carries (s : LoweredSignal) : Prop :=
  (∃ scalar signed, Scalar.integerForBits s.layout.bitLen signed = some scalar ∧ s.field.ty = .scalar scalar) ∨
    ∃ e ∈ s.enums, ∃ signed, Scalar.integerForBits s.layout.bitLen signed = some e.underlying ∧
      s.field.ty = .enum e.name

structure LoweredSignal.Placed (dlc : Nat) (s : LoweredSignal) : Prop where
  named : s.layout.fieldName = s.field.name
  fits : check dlc s.layout.startBit s.layout.bitLen s.layout.byteOrder = .ok ()
  carries : s.Carries

structure LoweredMessage.Shaped (m : LoweredMessage) (signals : List LoweredSignal) : Prop where
  fields : m.struct.fields = signals.map LoweredSignal.field
  enums : m.enums = signals.flatMap LoweredSignal.enums
  layouts : m.frame.signals = signals.map LoweredSignal.layout
  named : m.frame.structName = m.struct.name
  placed : ∀ s ∈ signals, s.Placed m.frame.dlc

theorem extent_le_iff {startBit bitLen n : Nat} {order : ByteOrder} (some : 0 < bitLen) :
    signalByteExtent startBit bitLen order ≤ n ↔ ∀ i < bitLen, position startBit bitLen order i / 8 < n := by
  cases order with
  | littleEndian =>
    simp only [signalByteExtent, position]
    constructor
    · omega
    · intro inside
      have last := inside (bitLen - 1) (by omega)
      omega
  | bigEndian =>
    have extent : signalByteExtent startBit bitLen .bigEndian = (mirrored startBit + (bitLen - 1)) / 8 + 1 := by
      simp only [signalByteExtent, mirrored]
      split
      · omega
      · omega
    simp only [extent, position, mirrored_div]
    constructor
    · omega
    · intro inside
      have first := inside 0 some
      omega

theorem scalarFor_eq_ok {signed : Bool} {s : Scalar}
    (found : scalarFor msg sig signed = .ok s) : Scalar.integerForBits sig.bitLen signed = some s := by
  unfold scalarFor at found
  split at found
  · rename_i width
    cases found
    exact width
  · cases found

theorem lowerType_carries {ty : Ty} {enums : List EnumDef}
    (lowered : lowerType db msg sig = .ok (ty, enums))
    (layout : SignalLayout)
    (same : layout.bitLen = sig.bitLen) :
    (⟨⟨sig.name, ty⟩, enums, layout⟩ : LoweredSignal).Carries := by
  unfold lowerType at lowered
  split at lowered
  · obtain ⟨_, found, lowered⟩ := bind_ok lowered
    cases lowered
    exact Or.inr ⟨_, mem_singleton_self _, _, same ▸ scalarFor_eq_ok found, rfl⟩
  · obtain ⟨scalar, found, lowered⟩ := bind_ok lowered
    cases lowered
    exact Or.inl ⟨scalar, _, same ▸ scalarFor_eq_ok found, rfl⟩

theorem LoweredSignal.Carries.bounds (carries : s.Carries) :
    0 < s.layout.bitLen ∧ s.layout.bitLen ≤ 64 := by
  rcases carries with ⟨_, _, found, _⟩ | ⟨e, _, _, found, _⟩
  · have width := (Scalar.integerForBits_eq_some found).1
    omega
  · have width := (Scalar.integerForBits_eq_some found).1
    omega

theorem lowerSignal_placed
    (lowered : lowerSignal db msg sig = .ok s) : s.Placed msg.dlc := by
  obtain ⟨⟨_, _⟩, typed, lowered⟩ := bind_ok lowered
  obtain ⟨_, fit, lowered⟩ := bind_ok lowered
  cases lowered
  have carries := lowerType_carries typed ⟨sig.name, sig.startBit, sig.bitLen, sig.byteOrder, sig.signed⟩ rfl
  have bounds := carries.bounds
  have extent : signalByteExtent sig.startBit sig.bitLen sig.byteOrder ≤ msg.dlc := by
    simp only [checkFrameFit] at fit
    split at fit
    · cases fit
    · omega
  exact ⟨rfl, check_iff.mpr ⟨bounds, (extent_le_iff bounds.1).mp extent⟩, carries⟩

theorem lowerMessage_shaped {m : LoweredMessage}
    (lowered : lowerMessage db msg = .ok m) : ∃ signals, m.Shaped signals := by
  obtain ⟨signals, each, lowered⟩ := bind_ok lowered
  cases lowered
  refine ⟨signals, rfl, rfl, rfl, rfl, ?_⟩
  intro s member
  obtain ⟨_, _, from_sig⟩ := exists_of_mapM each member
  exact lowerSignal_placed from_sig

structure LoweredDbc.Parts (lowered : LoweredDbc) (messages : List LoweredMessage) : Prop where
  shaped : ∀ m ∈ messages, ∃ signals, m.Shaped signals
  structs : lowered.module.structs = messages.map LoweredMessage.struct
  enums : lowered.module.enums = messages.flatMap LoweredMessage.enums
  frames : lowered.layout.frames = messages.map LoweredMessage.frame
  structNames : (lowered.module.structs.map Struct.name).Nodup
  enumNames : (lowered.module.enums.map EnumDef.name).Nodup

theorem lower_parts {moduleName : String} {lowered : LoweredDbc}
    (accepted : lower db moduleName = .ok lowered) : ∃ messages, lowered.Parts messages := by
  obtain ⟨messages, each, accepted⟩ := bind_ok accepted
  obtain ⟨_, valid, accepted⟩ := bind_ok accepted
  cases accepted
  have names := Module.names_nodup_of_validate (mapError_eq_ok.mp valid)
  refine ⟨messages, ?_, rfl, rfl, rfl, names.1, names.2⟩
  intro m member
  obtain ⟨_, _, from_msg⟩ := exists_of_mapM (ofResult_eq_ok.mp each) member
  exact lowerMessage_shaped from_msg

namespace LoweredDbc.Parts

variable {lowered : LoweredDbc} {messages : List LoweredMessage} {m : LoweredMessage} {signals : List LoweredSignal}

theorem frame_found
    (parts : lowered.Parts messages)
    (member : m ∈ messages) :
    lowered.layout.frame m.struct.name = some m.frame := by
  have named : ∀ m ∈ messages, m.frame.structName = m.struct.name := by
    intro m member
    obtain ⟨_, shaped⟩ := parts.shaped m member
    exact shaped.named
  have names : lowered.layout.frames.map FrameLayout.structName = lowered.module.structs.map Struct.name := by
    rw [parts.frames, parts.structs, map_map, map_map]
    exact map_congr_left named
  rw [← named m member]
  apply find?_key FrameLayout.structName (names ▸ parts.structNames)
  rw [parts.frames]
  exact mem_map_of_mem member

theorem enum_known
    (parts : lowered.Parts messages)
    (member : m ∈ messages)
    (shaped : m.Shaped signals)
    {s : LoweredSignal}
    (among : s ∈ signals) : ∀ e ∈ s.enums, e ∈ lowered.module.enums := by
  intro e pushed
  rw [parts.enums]
  apply mem_flatMap.mpr
  exact ⟨m, member, shaped.enums ▸ mem_flatMap.mpr ⟨s, among, pushed⟩⟩

end LoweredDbc.Parts

theorem LoweredMessage.Shaped.signal_found {m : LoweredMessage} {signals : List LoweredSignal}
    (shaped : m.Shaped signals)
    (names : (m.struct.fields.map Field.name).Nodup)
    (among : s ∈ signals) :
    m.frame.signals.find? (·.fieldName == s.field.name) = some s.layout := by
  have same : m.frame.signals.map SignalLayout.fieldName = m.struct.fields.map Field.name := by
    rw [shaped.layouts, shaped.fields, map_map, map_map]
    exact map_congr_left fun s member => (shaped.placed s member).named
  rw [← (shaped.placed s among).named]
  apply find?_key SignalLayout.fieldName (same ▸ names)
  rw [shaped.layouts]
  exact mem_map_of_mem among

theorem checkFrameFit_ok_iff
    (some : 1 ≤ sig.bitLen)
    (most : sig.bitLen ≤ 64) :
    checkFrameFit msg sig = .ok () ↔ check msg.dlc sig.startBit sig.bitLen sig.byteOrder = .ok () := by
  rw [check_iff, ← extent_le_iff some]
  simp only [checkFrameFit]
  split
  · simp
    omega
  · simp
    omega

theorem check_cases {bitLen : Nat} (n startBit : Nat) (order : ByteOrder)
    (some : 1 ≤ bitLen)
    (most : bitLen ≤ 64) :
    check n startBit bitLen order = .ok () ∨ check n startBit bitLen order = .error .signalOutOfBounds := by
  unfold check maxBits
  rw [if_neg (by omega)]
  split
  · exact .inr rfl
  · exact .inl rfl

/-- The size check of lowering and the bounds check of the wire runtime agree. -/
theorem size_check_is_bounds_check : (∀ startBit bitLen order n, 1 ≤ bitLen → bitLen ≤ 64 →
      (signalByteExtent startBit bitLen order ≤ n ↔ check n startBit bitLen order = .ok ())) ∧
    ∀ (msg : DbcMessage) (sig : DbcSignal) (frame : List UInt8) (raw : BitVec 64) (value : Int),
      1 ≤ sig.bitLen → sig.bitLen ≤ 64 → frame.length = msg.dlc →
        ((∃ left, packUnsigned sig.startBit sig.bitLen sig.byteOrder raw frame = .error .signalOutOfBounds left) ↔
          checkFrameFit msg sig ≠ .ok ()) ∧
        ((∃ left, packSigned sig.startBit sig.bitLen sig.byteOrder value frame = .error .signalOutOfBounds left) ↔
          checkFrameFit msg sig ≠ .ok ()) ∧
        (unpackUnsigned frame sig.startBit sig.bitLen sig.byteOrder = .error .signalOutOfBounds ↔
          checkFrameFit msg sig ≠ .ok ()) ∧
        (unpackSigned frame sig.startBit sig.bitLen sig.byteOrder = .error .signalOutOfBounds ↔
          checkFrameFit msg sig ≠ .ok ()) := by
  constructor
  · intro startBit bitLen order n some most
    rw [check_iff, extent_le_iff some]
    exact ⟨fun inside => ⟨⟨some, most⟩, inside⟩, fun both => both.2⟩
  · intro msg sig frame raw value some most sized
    rw [ne_eq, checkFrameFit_ok_iff some most, ← sized]
    rcases check_cases frame.length sig.startBit sig.byteOrder some most with fits | long
    · have unsigned (raw left) : packUnsigned sig.startBit sig.bitLen sig.byteOrder raw frame ≠
          .error .signalOutOfBounds left := by
        simp only [packUnsigned, fits]
        split <;> simp
      refine ⟨by simp [unsigned, fits], ?_, ?_, ?_⟩
      · simp only [packSigned, fits]
        split
        · simp
        · simp [unsigned]
      · simp [unpackUnsigned, fits]
      · simp [unpackSigned, unpackUnsigned, fits]
    · simp [packUnsigned, packSigned, unpackUnsigned, unpackSigned, long]

theorem long_signal_out_of_bounds :
    let sig : DbcSignal := ⟨"Speed", .none, 1, 16, .littleEndian, false⟩
    checkFrameFit ⟨256, "Engine", 2, [sig]⟩ sig ≠ .ok () ∧
      ∃ left, packUnsigned sig.startBit sig.bitLen sig.byteOrder 7 [0, 0] = .error .signalOutOfBounds left := by
  intro sig
  have refused : checkFrameFit ⟨256, "Engine", 2, [sig]⟩ sig ≠ .ok () := by decide
  exact ⟨refused,
    (size_check_is_bounds_check.2 ⟨256, "Engine", 2, [sig]⟩ sig [0, 0] 7 0 (by decide) (by decide) rfl).1.mpr refused⟩

end Taktora.Idl
