import Taktora.Idl.Codegen

namespace Taktora.Idl

open BitField Checked Scatter FieldCode List

inductive Value where
  | int (n : Int)
  | variant (ident : String)
deriving DecidableEq, Repr

namespace Scalar

def Holds (s : Scalar) (n : Int) : Prop :=
  if s = bool then n = 0 ∨ n = 1
  else if s.isSignedInteger then InRange s.bitWidth n else 0 ≤ n ∧ n < 2 ^ s.bitWidth

def cast (s : Scalar) (n : Int) : Int := if s.isSignedInteger then n.bmod (2 ^ s.bitWidth) else n % 2 ^ s.bitWidth

end Scalar

namespace GeneratedEnum

/-- Each variant has its own name and its own discriminant, which is a value of the integer type. -/
structure Legal (e : GeneratedEnum) : Prop where
  names : (e.variants.map Prod.fst).Nodup
  discriminants : (e.variants.map Prod.snd).Nodup
  held : ∀ v ∈ e.variants, e.repr.Holds v.2

def toRaw (e : GeneratedEnum) (name : String) : Int := ((e.variants.find? (·.1 == name)).map Prod.snd).getD 0

def fromRaw (e : GeneratedEnum) (raw : Int) : Except WireError Value :=
  match e.variants.find? (·.2 == raw) with
  | some v => .ok (.variant v.1)
  | none => .error .unknownEnumValue

end GeneratedEnum

namespace Generated

def toRaw (g : Generated) (ident name : String) : Int :=
  match g.enumNamed ident with
  | some e => e.toRaw name
  | none => 0

def fromRaw (g : Generated) (ident : String) (raw : Int) : Except WireError Value :=
  match g.enumNamed ident with
  | some e => e.fromRaw raw
  | none => .error .unknownEnumValue

end Generated

namespace FieldCode

variable (g : Generated) (f : FieldCode)

def HasType (v : Value) : Prop :=
  match f.kind, v with
  | .unsigned s, .int n | .signed s, .int n => s.Holds n
  | .enum ident _, .variant name => ∃ e, g.enumNamed ident = some e ∧ e.Legal ∧ name ∈ e.variants.map Prod.fst
  | _, _ => False

def raw (v : Value) : Int :=
  match f.kind, v with
  | .enum ident _, .variant name => g.toRaw ident name
  | _, .int n => n
  | _, .variant _ => 0

def encodeField (v : Value) : Fallible WireError (List UInt8) Unit :=
  match f.kind with
  | .unsigned _ => packUnsigned f.startBit f.bitLen f.byteOrder (BitVec.ofInt 64 (f.raw g v))
  | .signed _ => packSigned f.startBit f.bitLen f.byteOrder (f.raw g v)
  | .enum _ underlying =>
    if underlying.isSignedInteger then packSigned f.startBit f.bitLen f.byteOrder (f.raw g v)
    else packUnsigned f.startBit f.bitLen f.byteOrder (BitVec.ofInt 64 (f.raw g v))

def decodeField (buf : List UInt8) : Except WireError Value :=
  match f.kind with
  | .unsigned s => do
    let raw ← unpackUnsigned buf f.startBit f.bitLen f.byteOrder
    .ok (.int (s.cast raw.toNat))
  | .signed s => do
    let raw ← unpackSigned buf f.startBit f.bitLen f.byteOrder
    .ok (.int (s.cast raw))
  | .enum ident underlying =>
    if underlying.isSignedInteger then do
      let raw ← unpackSigned buf f.startBit f.bitLen f.byteOrder
      g.fromRaw ident (underlying.cast raw)
    else do
      let raw ← unpackUnsigned buf f.startBit f.bitLen f.byteOrder
      g.fromRaw ident (underlying.cast raw.toNat)

end FieldCode

namespace GeneratedStruct

def encodeFields (g : Generated) : List FieldCode → List Value → Fallible WireError (List UInt8) Unit
  | f :: fields, v :: values => do
    f.encodeField g v
    encodeFields g fields values
  | _, _ => pure ()

def encode (g : Generated) (s : GeneratedStruct) (values : List Value) : Fallible WireError (List UInt8) Nat :=
  fun buf =>
  if buf.length < s.dlc then .error .bufferTooSmall buf
  else
    match encodeFields g s.fields values (List.replicate s.dlc 0 ++ buf.drop s.dlc) with
    | .error e left => .error e left
    | .ok _ written => .ok s.dlc written

def decode (g : Generated) (s : GeneratedStruct) (buf : List UInt8) : Except WireError (List Value) :=
  if buf.length < s.dlc then .error .bufferTooSmall else s.fields.mapM fun f => f.decodeField g buf

end GeneratedStruct

structure StructValue (g : Generated) (s : GeneratedStruct) where
  values : List Value
  typed : List.Forall₂ (FieldCode.HasType g) s.fields values

namespace FieldCode

variable {g : Generated} {f : FieldCode} {v : Value} {dlc : Nat} {frame : List UInt8}

variable (g)

variable (f)

def Fits (v : Value) : Prop :=
  if f.kind.scalar.isSignedInteger then InRange f.bitLen (f.raw g v) else f.raw g v < 2 ^ f.bitLen

def bits (v : Value) : BitVec 64 :=
  if f.kind.scalar.isSignedInteger then twosComplement f.bitLen (f.raw g v) else BitVec.ofInt 64 (f.raw g v)

def writes (v : Value) : Writer Nat Nat Bool :=
  writer f.startBit f.bitLen f.byteOrder (f.bits g v)

def readRaw (buf : List UInt8) : Except WireError Int :=
  if f.kind.scalar.isSignedInteger then unpackSigned buf f.startBit f.bitLen f.byteOrder
  else do
    let raw ← unpackUnsigned buf f.startBit f.bitLen f.byteOrder
    .ok raw.toNat

def ofRaw (n : Int) : Except WireError Value :=
  match f.kind with
  | .unsigned _ | .signed _ => .ok (.int n)
  | .enum ident _ => g.fromRaw ident n

variable {f}

variable {g}

theorem encodeField_eq (sound : f.Sound g dlc) : f.encodeField g v =
      if f.kind.scalar.isSignedInteger then packSigned f.startBit f.bitLen f.byteOrder (f.raw g v)
      else packUnsigned f.startBit f.bitLen f.byteOrder (BitVec.ofInt 64 (f.raw g v)) := by
  have kind := sound.kind
  unfold encodeField
  cases same : f.kind with
  | unsigned s =>
    rw [same] at kind
    exact (if_neg (Bool.eq_false_iff.mp kind)).symm
  | signed s =>
    rw [same] at kind
    exact (if_pos kind).symm
  | enum ident s => rfl

theorem readRaw_signed (signed : f.kind.scalar.isSignedInteger = true) :
    f.readRaw frame = unpackSigned frame f.startBit f.bitLen f.byteOrder := if_pos signed

theorem readRaw_unsigned (unsigned : f.kind.scalar.isSignedInteger = false) :
    f.readRaw frame = (unpackUnsigned frame f.startBit f.bitLen f.byteOrder >>= fun raw => .ok (raw.toNat : Int)) :=
  if_neg (Bool.eq_false_iff.mp unsigned)

theorem decodeField_eq (sound : f.Sound g dlc) :
    f.decodeField g frame = f.readRaw frame >>= fun n => f.ofRaw g (f.kind.scalar.cast n) := by
  have kind := sound.kind
  unfold decodeField ofRaw
  cases same : f.kind with
  | unsigned s =>
    rw [readRaw_unsigned (same ▸ kind)]
    cases unpackUnsigned frame f.startBit f.bitLen f.byteOrder with
    | error | ok => rfl
  | signed s =>
    rw [readRaw_signed (same ▸ kind)]
    rfl
  | enum ident s =>
    cases sign : s.isSignedInteger with
    | true =>
      rw [readRaw_signed (same ▸ sign)]
      exact if_pos sign
    | false =>
      rw [readRaw_unsigned (same ▸ sign)]
      apply (if_neg (Bool.eq_false_iff.mp sign)).trans
      cases unpackUnsigned frame f.startBit f.bitLen f.byteOrder with
      | error | ok => rfl

end FieldCode

namespace GeneratedEnum

variable {e : GeneratedEnum} {name : String} {n : Int}

theorem toRaw_mem
    (legal : e.Legal)
    (declared : name ∈ e.variants.map Prod.fst) : (name, e.toRaw name) ∈ e.variants := by
  obtain ⟨v, member, same⟩ := mem_map.mp declared
  subst same
  have found := find?_key Prod.fst legal.names member
  simp only [toRaw, found]
  exact member

theorem fromRaw_eq_ok
    (legal : e.Legal)
    (declared : name ∈ e.variants.map Prod.fst) :
    e.fromRaw n = .ok (.variant name) ↔ n = e.toRaw name := by
  have member := toRaw_mem legal declared
  constructor
  · intro decoded
    unfold fromRaw at decoded
    split at decoded
    · rename_i v found
      cases decoded
      have back := find?_key Prod.fst legal.names (mem_of_find?_eq_some found)
      have same : v.2 = n := by simpa using find?_some found
      simp only [toRaw, back]
      exact same.symm
    · cases decoded
  · intro same
    have found := find?_key Prod.snd legal.discriminants member
    rw [fromRaw, same, found]

end GeneratedEnum

namespace FieldCode

variable {g : Generated} {f : FieldCode} {v : Value} {dlc : Nat} {frame : List UInt8} {n : Int}

theorem ofRaw_eq_ok (typed : f.HasType g v) : f.ofRaw g n = .ok v ↔ n = f.raw g v := by
  unfold HasType at typed
  unfold ofRaw raw
  cases same : f.kind with
  | unsigned | signed =>
    cases v with
    | int m => simp
    | variant name => simp [same] at typed
  | enum ident s =>
    cases v with
    | int m => simp [same] at typed
    | variant name =>
      simp only [same] at typed
      obtain ⟨e, found, legal, declared⟩ := typed
      simp only [Generated.fromRaw, Generated.toRaw, found]
      exact GeneratedEnum.fromRaw_eq_ok legal declared

theorem raw_holds (sound : f.Sound g dlc) (typed : f.HasType g v) : f.kind.scalar.Holds (f.raw g v) := by
  have kind := sound.kind
  unfold HasType at typed
  unfold raw
  cases same : f.kind with
  | unsigned | signed =>
    cases v with
    | int m =>
      rw [same] at typed
      exact typed
    | variant name => simp [same] at typed
  | enum ident s =>
    cases v with
    | int m => simp [same] at typed
    | variant name =>
      simp only [same] at typed kind
      obtain ⟨e, found, legal, declared⟩ := typed
      obtain ⟨_, found', under⟩ := kind
      cases found.symm.trans found'
      simp only [Generated.toRaw, found, CodecKind.scalar, ← under]
      exact legal.held _ (GeneratedEnum.toRaw_mem legal declared)

theorem raw_signed
    (sound : f.Sound g dlc)
    (typed : f.HasType g v)
    (signed : f.kind.scalar.isSignedInteger = true) : InRange 64 (f.raw g v) := by
  have held := raw_holds sound typed
  have integer : f.kind.scalar ≠ .bool := by
    intro same
    rw [same] at signed
    cases signed
  rw [Scalar.Holds, if_neg integer, if_pos signed] at held
  exact held.mono sound.holds.2

theorem raw_unsigned
    (sound : f.Sound g dlc)
    (typed : f.HasType g v)
    (unsigned : f.kind.scalar.isSignedInteger = false) : 0 ≤ f.raw g v ∧ f.raw g v < 2 ^ 64 := by
  have held := raw_holds sound typed
  rw [Scalar.Holds] at held
  split at held
  · omega
  · rw [if_neg (Bool.eq_false_iff.mp unsigned)] at held
    have power : (2 : Int) ^ f.kind.scalar.bitWidth ≤ 2 ^ 64 := by
      exact_mod_cast Nat.pow_le_pow_right (by decide) sound.holds.2
    omega

theorem toNat_raw (range : 0 ≤ n ∧ n < 2 ^ 64) : ((BitVec.ofInt 64 n).toNat : Int) = n := by
  rw [BitVec.toNat_ofInt]
  omega

variable (sound : f.Sound g dlc)
include sound

variable (typed : f.HasType g v)
include typed

variable (large : dlc ≤ frame.length)
include large

theorem encodeField_ok (fits : f.Fits g v) :
    ∃ written, f.encodeField g v frame = .ok () written ∧ written.length = frame.length ∧
      bitAt written = write (f.writes g v).places (f.writes g v).source (bitAt frame) := by
  have checked := check_mono sound.fits large
  have narrow := (check_iff.mp checked).1.2
  unfold Fits at fits
  rw [encodeField_eq sound]
  cases sign : f.kind.scalar.isSignedInteger with
  | true =>
    rw [if_pos sign] at fits
    rw [if_pos rfl, packSigned_ok checked fits, writes, bits, if_pos sign]
    exact packUnsigned_ok checked (twosComplement_lt _ narrow)
  | false =>
    have range := raw_unsigned sound typed sign
    rw [if_neg (Bool.eq_false_iff.mp sign), ← toNat_raw range] at fits
    rw [writes, bits, if_neg (Bool.eq_false_iff.mp sign)]
    exact packUnsigned_ok checked (by exact_mod_cast fits)

theorem encodeField_wide (wide : ¬ f.Fits g v) : f.encodeField g v frame = .error .valueOutOfRange frame := by
  have checked := check_mono sound.fits large
  unfold Fits at wide
  rw [encodeField_eq sound]
  cases sign : f.kind.scalar.isSignedInteger with
  | true =>
    rw [if_pos sign] at wide
    exact packSigned_wide checked (raw_signed sound typed sign) wide
  | false =>
    have range := raw_unsigned sound typed sign
    rw [if_neg (Bool.eq_false_iff.mp sign), ← toNat_raw range] at wide
    exact packUnsigned_wide checked (by exact_mod_cast wide)

theorem readRaw_ok (fits : f.Fits g v) : ∃ n, f.readRaw frame = .ok n ∧ f.kind.scalar.cast n = n ∧
      (n = f.raw g v ↔ (f.writes g v).Holds (bitAt frame)) := by
  have checked := check_mono sound.fits large
  unfold Fits at fits
  unfold Scalar.cast writes bits
  cases sign : f.kind.scalar.isSignedInteger with
  | true =>
    rw [if_pos sign] at fits
    obtain ⟨n, unpacked, range⟩ := unpackSigned_ok checked
    refine ⟨n, (readRaw_signed sign).trans unpacked, ?_, ?_⟩
    · have wide := range.mono sound.holds.1
      have some := lt_of_lt_of_le (check_iff.mp checked).1.1 sound.holds.1
      exact (BitVec.toInt_ofInt n).symm.trans (BitVec.toInt_ofInt_eq_self some wide.1 wide.2)
    · rw [if_pos rfl, ← unpackSigned_eq_iff checked fits, unpacked, Except.ok.injEq]
  | false =>
    have word := raw_unsigned sound typed sign
    rw [if_neg (Bool.eq_false_iff.mp sign), ← toNat_raw word] at fits
    have small : (BitVec.ofInt 64 (f.raw g v)).toNat < 2 ^ f.bitLen := by exact_mod_cast fits
    obtain ⟨raw, unpacked, _⟩ := unpackUnsigned_ok checked
    have range := unpackUnsigned_lt unpacked checked
    refine ⟨raw.toNat, ?_, ?_, ?_⟩
    · rw [readRaw_unsigned sign, unpacked]
      rfl
    · have wide : raw.toNat < 2 ^ f.kind.scalar.bitWidth :=
        lt_of_lt_of_le range (Nat.pow_le_pow_right (by decide) sound.holds.1)
      exact Int.emod_eq_of_lt (Int.natCast_nonneg _) (by exact_mod_cast wide)
    · rw [if_neg Bool.false_ne_true, ← unpackUnsigned_eq_iff checked small, unpacked, Except.ok.injEq]
      rw [← BitVec.toNat_inj]
      have same := toNat_raw word
      omega

theorem decodeField_eq_ok
    (fits : f.Fits g v) : f.decodeField g frame = .ok v ↔ (f.writes g v).Holds (bitAt frame) := by
  obtain ⟨n, read, cast, found⟩ := readRaw_ok sound typed large fits
  rw [decodeField_eq sound, read, ← found, ← ofRaw_eq_ok typed]
  show f.ofRaw g (f.kind.scalar.cast n) = .ok v ↔ _
  rw [cast]

end FieldCode

namespace GeneratedStruct

variable {g : Generated} {s : GeneratedStruct} {dlc : Nat}

def Fits (g : Generated) (s : GeneratedStruct) (values : List Value) : Prop :=
  ∀ pair ∈ s.fields.zip values, pair.1.Fits g pair.2

/-- Any two fields put the same bit wherever both of them have a bit. -/
def Agree (g : Generated) (s : GeneratedStruct) (values : List Value) : Prop :=
  ∀ pair ∈ s.fields.zip values, ∀ pair' ∈ s.fields.zip values, (pair.1.writes g pair.2).Agree (pair'.1.writes g pair'.2)

def Disjoint (s : GeneratedStruct) : Prop :=
  s.fields.Pairwise fun f f' => ∀ i j p, (i, p) ∈ forEachBit f.startBit f.bitLen f.byteOrder →
    (j, p) ∉ forEachBit f'.startBit f'.bitLen f'.byteOrder

def writers (g : Generated) (fields : List FieldCode) (values : List Value) : List (Writer Nat Nat Bool) :=
  (fields.zip values).map fun pair => pair.1.writes g pair.2

variable {values : List Value} {fields : List FieldCode}

theorem agree_iff :
    s.Agree g values ↔ ∀ w ∈ writers g s.fields values, ∀ w' ∈ writers g s.fields values, w.Agree w' := by
  simp only [Agree, writers, forall_mem_map]

theorem encodeFields_ok {frame : List UInt8}
    (sound : ∀ f ∈ fields, f.Sound g dlc)
    (typed : List.Forall₂ (HasType g) fields values)
    (large : dlc ≤ frame.length)
    (fits : ∀ pair ∈ fields.zip values, pair.1.Fits g pair.2) :
    ∃ written, encodeFields g fields values frame = .ok () written ∧ written.length = frame.length ∧
      bitAt written = Writer.writeAll (writers g fields values) (bitAt frame) := by
  induction typed generalizing frame with
  | nil => exact ⟨frame, rfl, rfl, rfl⟩
  | cons head tail ih =>
    rw [zip_cons_cons, forall_mem_cons] at fits
    rw [forall_mem_cons] at sound
    obtain ⟨_, encoded, length, image⟩ := encodeField_ok sound.1 head large fits.1
    obtain ⟨written, others, length', image'⟩ := ih sound.2 (length ▸ large) fits.2
    refine ⟨written, ?_, length'.trans length, ?_⟩
    · rw [encodeFields, Fallible.bind_of_ok encoded, others]
    · rw [image', image]
      rfl

theorem encodeFields_wide {frame : List UInt8}
    (sound : ∀ f ∈ fields, f.Sound g dlc)
    (typed : List.Forall₂ (HasType g) fields values)
    (large : dlc ≤ frame.length)
    (wide : ¬ ∀ pair ∈ fields.zip values, pair.1.Fits g pair.2) :
    ∃ left, encodeFields g fields values frame = .error .valueOutOfRange left := by
  induction typed generalizing frame with
  | nil => exact absurd (forall_mem_nil _) wide
  | cons head tail ih =>
    rw [zip_cons_cons, forall_mem_cons] at wide
    rw [forall_mem_cons] at sound
    rename_i f v fields values
    by_cases fits : f.Fits g v
    · obtain ⟨_, encoded, length, _⟩ := encodeField_ok sound.1 head large fits
      obtain ⟨left, others⟩ := ih sound.2 (length ▸ large) fun rest => wide ⟨fits, rest⟩
      exact ⟨left, by rw [encodeFields, Fallible.bind_of_ok encoded, others]⟩
    · have failed := encodeField_wide sound.1 head large fits
      exact ⟨frame, by rw [encodeFields, Fallible.bind_of_error failed]⟩

theorem holds_congr {f : FieldCode} {v : Value} {received written : List UInt8} (sound : f.Sound g dlc)
    (same : received.take dlc = written.take dlc) :
    (f.writes g v).Holds (bitAt received) ↔ (f.writes g v).Holds (bitAt written) := by
  have agree : ∀ i p, (i, p) ∈ (f.writes g v).places → bitAt received p = bitAt written p := by
    intro i p member
    obtain ⟨low, place⟩ := mem_forEachBit.mp member
    have inside := (check_iff.mp sound.fits).2 i low
    rw [← place] at inside
    have byte := congrArg (·[p / 8]?) same
    simp only [getElem?_take_of_lt inside] at byte
    simp only [bitAt, getD_eq_getElem?_getD, byte]
  constructor
  · intro holds i p member
    rw [← agree i p member]
    exact holds i p member
  · intro holds i p member
    rw [agree i p member]
    exact holds i p member

theorem decode_eq_ok {received written : List UInt8} {image : Nat → Bool}
    (sound : ∀ f ∈ s.fields, f.Sound g s.dlc)
    (typed : List.Forall₂ (HasType g) s.fields values)
    (fits : s.Fits g values)
    (large : s.dlc ≤ received.length)
    (same : received.take s.dlc = written.take s.dlc)
    (bits : bitAt written = Writer.writeAll (writers g s.fields values) image) :
    s.decode g received = .ok values ↔ s.Agree g values := by
  have length := typed.length_eq
  have each : ∀ pair ∈ s.fields.zip values,
      (pair.1.decodeField g received = .ok pair.2 ↔ (pair.1.writes g pair.2).Holds (bitAt written)) := by
    intro pair member
    have here := sound pair.1 (of_mem_zip member).1
    have value := (forall₂_iff_zip.mp typed).2 member
    rw [decodeField_eq_ok here value large (fits pair member), holds_congr here same]
  have all : s.Agree g values ↔ ∀ pair ∈ s.fields.zip values, (pair.1.writes g pair.2).Holds (bitAt written) := by
    rw [agree_iff, ← Writer.writeAll_holds_iff _ image, ← bits]
    simp only [writers, forall_mem_map]
  rw [decode, if_neg (not_lt.mpr large), mapM_eq_ok, forall₂_iff_zip, all]
  constructor
  · intro decoded pair member
    exact (each pair member).mp (decoded.2 member)
  · intro holds
    exact ⟨length, fun member => (each _ member).mpr (holds _ member)⟩

theorem agree_of_disjoint (length : s.fields.length = values.length) (apart : s.Disjoint) : s.Agree g values := by
  have pairs : (writers g s.fields values).Pairwise Writer.Agree := by
    rw [Disjoint, ← map_fst_zip length.le, pairwise_map] at apart
    apply pairwise_map.mpr
    apply apart.imp
    intro pair pair' apart i j p left right
    exact absurd right (apart i j p left)
  exact agree_iff.mpr (Writer.agree_of_pairwise pairs)

/-- A struct is encoded exactly if its values fit, and decoded as it was exactly if shared bits agree. -/
theorem round_trip_iff {naming : Naming} {db : DbcDatabase} {moduleName : String} {lowered : LoweredDbc}
    (accepted : lower db moduleName = .ok lowered)
    (generated : generate naming lowered.module lowered.layout = .ok g)
    (member : s ∈ g.structs)
    (v : StructValue g s) {buf : List UInt8}
    (large : s.dlc ≤ buf.length) :
    (s.Fits g v.values ↔ ∃ written, s.encode g v.values buf = .ok s.dlc written) ∧
      (∀ e left, s.encode g v.values buf = .error e left → ¬ s.Fits g v.values) ∧
      (∀ n written, s.encode g v.values buf = .ok n written → ∀ received : List UInt8, n ≤ received.length →
      received.take n = written.take n → (s.decode g received = .ok v.values ↔ s.Agree g v.values)) ∧
      (s.Disjoint → s.Agree g v.values) := by
  have sound := generate_sound accepted generated s member
  have zeroed : s.dlc ≤ (replicate s.dlc 0 ++ buf.drop s.dlc).length := by simp
  by_cases fits : s.Fits g v.values
  · obtain ⟨written, encoded, _, image⟩ := encodeFields_ok sound v.typed zeroed fits
    have result : s.encode g v.values buf = .ok s.dlc written := by
      rw [encode, if_neg (not_lt.mpr large), encoded]
    refine ⟨⟨fun _ => ⟨written, result⟩, fun _ => fits⟩, ?_, ?_, agree_of_disjoint v.typed.length_eq⟩
    · intro e left failed
      rw [result] at failed
      cases failed
    · intro n written' encoded' received enough same
      rw [result] at encoded'
      cases encoded'
      exact decode_eq_ok sound v.typed fits enough same image
  · obtain ⟨left, failed⟩ := encodeFields_wide sound v.typed zeroed fits
    have result : s.encode g v.values buf = .error .valueOutOfRange left := by
      rw [encode, if_neg (not_lt.mpr large), failed]
    refine ⟨⟨fun absurd => (fits absurd).elim, ?_⟩, fun _ _ _ => fits, ?_, agree_of_disjoint v.typed.length_eq⟩
    · rintro ⟨_, encoded⟩
      rw [result] at encoded
      cases encoded
    · intro n written encoded
      rw [result] at encoded
      cases encoded

def twoReadings : DbcDatabase where
  messages := [⟨256, "Sensor", 2, [⟨"Mode", .multiplexor, 0, 8, .littleEndian, false⟩,
    ⟨"A", .multiplexed 0, 8, 8, .littleEndian, false⟩, ⟨"B", .multiplexed 1, 8, 8, .littleEndian, false⟩]⟩]
  valueTables := []

def twoReadingsLowered : LoweredDbc where
  module := ⟨"sensor", [⟨"Sensor", [⟨"Mode", .scalar .u8⟩, ⟨"A", .scalar .u8⟩, ⟨"B", .scalar .u8⟩]⟩], [], []⟩
  layout := ⟨[⟨"Sensor", 256, false, 2, [⟨"Mode", 0, 8, .littleEndian, false⟩, ⟨"A", 8, 8, .littleEndian, false⟩,
    ⟨"B", 8, 8, .littleEndian, false⟩]⟩]⟩

def verbatim : Naming := ⟨id, id, id⟩

def sensorCode : GeneratedStruct := ⟨"Sensor", 2, [⟨"Mode", .unsigned .u8, 0, 8, .littleEndian⟩,
  ⟨"A", .unsigned .u8, 8, 8, .littleEndian⟩, ⟨"B", .unsigned .u8, 8, 8, .littleEndian⟩]⟩

def sensorModule : Generated := ⟨[], [sensorCode]⟩

def sensorValue (a b : UInt8) : StructValue sensorModule sensorCode where
  values := [.int 0, .int a.toNat, .int b.toNat]
  typed := by
    have held (n : UInt8) : Scalar.Holds .u8 n.toNat := by
      have := n.toNat_lt
      simp only [Scalar.Holds, Scalar.isSignedInteger, Scalar.bitWidth]
      simp
      omega
    exact .cons (held 0) (.cons (held a) (.cons (held b) .nil))

theorem second_reading_wins : lower twoReadings "sensor" = .ok twoReadingsLowered ∧
      generate verbatim twoReadingsLowered.module twoReadingsLowered.layout = .ok sensorModule ∧
      sensorCode ∈ sensorModule.structs ∧
      sensorCode.encode sensorModule (sensorValue 1 2).values [0, 0] = .ok 2 [0, 2] ∧
      sensorCode.decode sensorModule [0, 2] = .ok (sensorValue 2 2).values ∧
      sensorCode.decode sensorModule [0, 2] ≠ .ok (sensorValue 1 2).values := by
  have decoded : sensorCode.decode sensorModule [0, 2] = .ok (sensorValue 2 2).values := rfl
  have apart : (sensorValue 2 2).values ≠ (sensorValue 1 2).values := by decide
  refine ⟨rfl, rfl, mem_singleton_self _, rfl, decoded, ?_⟩
  exact fun same => apart (Except.ok.inj same)

theorem equal_readings_agree : lower twoReadings "sensor" = .ok twoReadingsLowered ∧
      generate verbatim twoReadingsLowered.module twoReadingsLowered.layout = .ok sensorModule ∧
      sensorCode.encode sensorModule (sensorValue 5 5).values [9, 9, 9] = .ok 2 [0, 5, 9] ∧
      sensorCode.Agree sensorModule (sensorValue 5 5).values := by
  have accepted : lower twoReadings "sensor" = .ok twoReadingsLowered := rfl
  have generated : generate verbatim twoReadingsLowered.module twoReadingsLowered.layout = .ok sensorModule := rfl
  have encoded : sensorCode.encode sensorModule (sensorValue 5 5).values [9, 9, 9] = .ok 2 [0, 5, 9] := rfl
  have large : sensorCode.dlc ≤ [9, 9, (9 : UInt8)].length := by decide
  have holds := round_trip_iff accepted generated (mem_singleton_self _) (sensorValue 5 5) large
  exact ⟨accepted, generated, encoded, (holds.2.2.1 2 [0, 5, 9] encoded [0, 5] (by decide) rfl).mp rfl⟩

end GeneratedStruct

end Taktora.Idl
