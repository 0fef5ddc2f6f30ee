import Mathlib.Data.List.Nodup
import Taktora.Lib.BitField
import Taktora.Lib.Fallible
import Taktora.Lib.Scatter

namespace Taktora.Idl

open List hiding set

open BitField Function Except

inductive WireError where
  | bufferTooSmall
  | signalOutOfBounds
  | invalidBitLength
  | valueOutOfRange
  | unknownEnumValue
deriving DecidableEq, Repr

/-- Intel signals ascend from their lowest bit, Motorola signals descend from their highest in a sawtooth. -/
inductive ByteOrder where
  | littleEndian
  | bigEndian
deriving DecidableEq, Repr

def maxBits : Nat := 64

/-- The walk of a Motorola signal: down within a byte, then on from bit 7 of the next byte. -/
def sawtooth : Nat → Nat → Nat → List Nat
  | 0, _, _ => []
  | n + 1, byte, bit => (byte * 8 + bit) :: if bit = 0 then sawtooth n (byte + 1) 7 else sawtooth n byte (bit - 1)

/-- The bits of a signal in the order they are visited: the bit of the value and its place in the frame. -/
def forEachBit (startBit bitLen : Nat) : ByteOrder → List (Nat × Nat)
  | .littleEndian => (List.range bitLen).map fun i => (i, startBit + i)
  | .bigEndian => (sawtooth bitLen (startBit / 8) (startBit % 8)).zipIdx.map fun (abs, k) => (bitLen - 1 - k, abs)

def maxPos (places : List (Nat × Nat)) : Nat := places.foldl (fun most place => max most place.2) 0

def check (frameLen startBit bitLen : Nat) (order : ByteOrder) : Except WireError Unit :=
  if bitLen = 0 ∨ maxBits < bitLen then .error .invalidBitLength
  else if frameLen ≤ maxPos (forEachBit startBit bitLen order) / 8 then .error .signalOutOfBounds
  else .ok ()

def mask (bitLen : Nat) : BitVec 64 := if 64 ≤ bitLen then BitVec.allOnes 64 else (1#64 <<< bitLen) - 1#64

def writeBit (raw : BitVec 64) (frame : List UInt8) (place : Nat × Nat) : List UInt8 :=
  frame.modify (place.2 / 8) fun byte =>
    if (raw >>> place.1) &&& 1#64 = 1#64 then byte ||| 1 <<< UInt8.ofNat (place.2 % 8)
    else byte &&& ~~~(1 <<< UInt8.ofNat (place.2 % 8))

def packUnsigned (startBit bitLen : Nat) (order : ByteOrder) (raw : BitVec 64) :
    Fallible WireError (List UInt8) Unit := fun frame =>
  match check frame.length startBit bitLen order with
  | .error e => .error e frame
  | .ok _ =>
    if raw &&& ~~~mask bitLen ≠ 0#64 then .error .valueOutOfRange frame
    else .ok () ((forEachBit startBit bitLen order).foldl (writeBit raw) frame)

def packSigned (startBit bitLen : Nat) (order : ByteOrder) (value : Int) :
    Fallible WireError (List UInt8) Unit := fun frame =>
  match check frame.length startBit bitLen order with
  | .error e => .error e frame
  | .ok _ =>
    if bitLen < 64 ∧ (value < -2 ^ (bitLen - 1) ∨ 2 ^ (bitLen - 1) ≤ value) then .error .valueOutOfRange frame
    else packUnsigned startBit bitLen order (BitVec.ofInt 64 value &&& mask bitLen) frame

variable (frame : List UInt8)

def readBit (raw : BitVec 64) (place : Nat × Nat) : BitVec 64 :=
  raw ||| (bitOf (frame.getD (place.2 / 8) 0) place.2).toBitVec.setWidth 64 <<< place.1

def unpackUnsigned (startBit bitLen : Nat) (order : ByteOrder) : Except WireError (BitVec 64) := do
  check frame.length startBit bitLen order
  return (forEachBit startBit bitLen order).foldl (readBit frame) 0#64

def signExtend (raw : BitVec 64) (bitLen : Nat) : Int :=
  if 64 ≤ bitLen then raw.toInt else ((raw <<< (64 - bitLen)).sshiftRight (64 - bitLen)).toInt

def unpackSigned (startBit bitLen : Nat) (order : ByteOrder) : Except WireError Int := do
  let raw ← unpackUnsigned frame startBit bitLen order
  return signExtend raw bitLen

def mirrored (p : Nat) : Nat := p / 8 * 8 + (7 - p % 8)

def position (startBit bitLen : Nat) (order : ByteOrder) (i : Nat) : Nat :=
  match order with
  | .littleEndian => startBit + i
  | .bigEndian => mirrored (mirrored startBit + (bitLen - 1 - i))

variable {startBit bitLen : Nat} {order : ByteOrder}
  {places : List (Nat × Nat)} {raw : BitVec 64} {frame : List UInt8} {value : Int}

theorem mirrored_injective : Function.Injective mirrored := by
  intro p q same
  simp only [mirrored] at same
  omega

theorem mirrored_div (p : Nat) : mirrored p / 8 = p / 8 := by
  unfold mirrored
  omega

theorem sawtooth_eq (n byte bit : Nat) (low : bit < 8) :
    sawtooth n byte bit = (List.range n).map fun k => mirrored (mirrored (byte * 8 + bit) + k) := by
  induction n generalizing byte bit with
  | zero => rfl
  | succ n ih =>
    have head : mirrored (mirrored (byte * 8 + bit) + 0) = byte * 8 + bit := by
      simp only [mirrored]
      omega
    rw [range_succ_eq_map, map_cons, head, map_map, sawtooth]
    congr 1
    by_cases last : bit = 0
    · rw [if_pos last, ih (byte + 1) 7 (by decide)]
      apply map_congr_left
      simp only [mirrored, comp_apply]
      omega
    · rw [if_neg last, ih byte (bit - 1) (by omega)]
      apply map_congr_left
      simp only [mirrored, comp_apply]
      omega

theorem forEachBit_bigEndian : forEachBit startBit bitLen .bigEndian =
      (List.range bitLen).map fun k => (bitLen - 1 - k, mirrored (mirrored startBit + k)) := by
  have low : startBit % 8 < 8 := Nat.mod_lt _ (by decide)
  have whole : startBit / 8 * 8 + startBit % 8 = startBit := by omega
  simp only [forEachBit, sawtooth_eq _ _ _ low, whole]
  apply ext_getElem
  · simp
  · simp

theorem mem_forEachBit {i p : Nat} :
    (i, p) ∈ forEachBit startBit bitLen order ↔ i < bitLen ∧ p = position startBit bitLen order i := by
  cases order with
  | littleEndian =>
    simp only [forEachBit, mem_map, mem_range, Prod.mk.injEq, position]
    grind
  | bigEndian =>
    simp only [forEachBit_bigEndian, mem_map, mem_range, Prod.mk.injEq, position]
    constructor
    · intro ⟨k, inside, value, place⟩
      have back : bitLen - 1 - i = k := by omega
      exact ⟨by omega, by rw [back, place]⟩
    · intro ⟨inside, place⟩
      exact ⟨bitLen - 1 - i, by omega, by omega, place.symm⟩

theorem forEachBit_nodup : ((forEachBit startBit bitLen order).map Prod.snd).Nodup := by
  cases order with
  | littleEndian =>
    simp only [forEachBit, map_map]
    apply nodup_range.map
    intro i j same
    simpa using same
  | bigEndian =>
    simp only [forEachBit_bigEndian, map_map]
    apply nodup_range.map
    intro i j same
    exact add_left_cancel (mirrored_injective same)

theorem maxPos_lt_iff {n : Nat} (some : places ≠ []) :
    maxPos places / 8 < n ↔ ∀ place ∈ places, place.2 / 8 < n := by
  have bound (most : Nat) : places.foldl (fun most place => max most place.2) most / 8 < n ↔
      most / 8 < n ∧ ∀ place ∈ places, place.2 / 8 < n := by
    clear some
    induction places generalizing most with
    | nil => simp
    | cons place places ih =>
      simp only [foldl_cons, ih, forall_mem_cons, ← and_assoc]
      refine and_congr_left fun _ => ?_
      omega
  rw [maxPos, bound]
  obtain ⟨_, _, rfl⟩ := exists_cons_of_ne_nil some
  simp only [forall_mem_cons]
  constructor
  · exact fun all => all.2
  · exact fun all => ⟨by omega, all⟩

theorem check_iff {frameLen : Nat} : check frameLen startBit bitLen order = .ok () ↔
      (0 < bitLen ∧ bitLen ≤ 64) ∧ ∀ i < bitLen, position startBit bitLen order i / 8 < frameLen := by
  unfold check
  by_cases length : bitLen = 0 ∨ maxBits < bitLen
  · rw [if_pos length]
    simp only [maxBits] at length
    simp only [reduceCtorEq, false_iff]
    omega
  · rw [if_neg length]
    simp only [maxBits] at length
    have first : (0, position startBit bitLen order 0) ∈ forEachBit startBit bitLen order :=
      mem_forEachBit.mpr ⟨by omega, rfl⟩
    have inside : maxPos (forEachBit startBit bitLen order) / 8 < frameLen ↔
        ∀ i < bitLen, position startBit bitLen order i / 8 < frameLen := by
      rw [maxPos_lt_iff (ne_nil_of_mem first)]
      constructor
      · exact fun all i low => all (i, _) (mem_forEachBit.mpr ⟨low, rfl⟩)
      · intro all place member
        obtain ⟨low, same⟩ := mem_forEachBit.mp member
        rw [same]
        exact all _ low
    rw [← inside]
    split
    · simp only [reduceCtorEq, false_iff]
      omega
    · simp only [true_iff]
      omega

theorem check_mono {frameLen longer : Nat} (checked : check frameLen startBit bitLen order = .ok ())
    (more : frameLen ≤ longer) : check longer startBit bitLen order = .ok () := by
  obtain ⟨length, inside⟩ := check_iff.mp checked
  exact check_iff.mpr ⟨length, fun i low => lt_of_lt_of_le (inside i low) more⟩

theorem mask_getLsbD (i : Nat) : (mask bitLen).getLsbD i = (decide (i < 64) && decide (i < bitLen)) := by
  unfold mask
  by_cases wide : 64 ≤ bitLen
  · rw [if_pos wide, BitVec.getLsbD_allOnes]
    by_cases low : i < 64
    · simp [low, lt_of_lt_of_le low wide]
    · simp [low]
  · rw [if_neg wide]
    have power : 1#64 <<< bitLen - 1#64 = BitVec.ofNat 64 (2 ^ bitLen - 1) := by
      apply BitVec.eq_of_toNat_eq
      have positive := Nat.two_pow_pos bitLen
      simp only [BitVec.toNat_sub, BitVec.toNat_shiftLeft, BitVec.toNat_ofNat, Nat.shiftLeft_eq]
      omega
    rw [power, BitVec.getLsbD_ofNat, Nat.testBit_two_pow_sub_one]

variable (raw)

theorem masked_eq : raw &&& mask bitLen = (raw.setWidth bitLen).setWidth 64 := by
  apply BitVec.eq_of_getLsbD_eq
  intro i low
  simp only [BitVec.getLsbD_and, mask_getLsbD, BitVec.getLsbD_setWidth, low, decide_true]
  exact Bool.and_comm _ _

theorem masked_zero_iff : raw &&& ~~~mask bitLen = 0#64 ↔ ∀ i, bitLen ≤ i → raw.getLsbD i = false := by
  constructor
  · intro zero i high
    by_cases low : i < 64
    · have bit := congrArg (BitVec.getLsbD · i) zero
      simpa only [BitVec.getLsbD_and, BitVec.getLsbD_not, mask_getLsbD, low, not_lt.mpr high, decide_true,
        decide_false, Bool.and_false, Bool.not_false, Bool.and_true, BitVec.getLsbD_zero] using bit
    · exact BitVec.getLsbD_of_ge _ _ (not_lt.mp low)
  · intro clear
    apply BitVec.eq_of_getLsbD_eq
    intro i low
    by_cases inside : i < bitLen
    · simp [mask_getLsbD, low, inside]
    · simp [clear i (not_lt.mp inside)]

theorem clear_above_iff : (∀ i, bitLen ≤ i → raw.getLsbD i = false) ↔ raw.toNat < 2 ^ bitLen := by
  constructor
  · exact fun clear => Nat.lt_pow_two_of_testBit _ clear
  · exact fun small i high => Nat.testBit_lt_two_pow (lt_of_lt_of_le small (Nat.pow_le_pow_right (by decide) high))

theorem bit_test (i : Nat) : (raw >>> i) &&& 1#64 = 1#64 ↔ raw.getLsbD i = true := by
  constructor
  · intro set
    have bit := congrArg (BitVec.getLsbD · 0) set
    simpa using bit
  · intro set
    apply BitVec.eq_of_getLsbD_eq
    intro k low
    by_cases first : k = 0
    · subst first
      simp [set]
    · simp [first]

variable {raw}

theorem writeBit_byte (byte : UInt8) (bit : Bool) (p k : Nat) : (if bit = true then byte ||| 1 <<< UInt8.ofNat (p % 8)
      else byte &&& ~~~(1 <<< UInt8.ofNat (p % 8))).toBitVec.getLsbD (k % 8) =
        if k % 8 = p % 8 then bit else byte.toBitVec.getLsbD (k % 8) := by
  have low : k % 8 < 8 := Nat.mod_lt _ (by decide)
  have one : (1 <<< UInt8.ofNat (p % 8)).toBitVec.getLsbD (k % 8) = decide (k % 8 = p % 8) := by
    simp only [UInt8.toBitVec_shiftLeft, BitVec.shiftLeft_eq', shift_toNat, BitVec.getLsbD_shiftLeft, low, decide_true]
    rcases lt_trichotomy (k % 8) (p % 8) with below | same | above
    · simp [below, below.ne]
    · simp [same]
    · have apart : k % 8 - p % 8 ≠ 0 := Nat.sub_ne_zero_of_lt above
      simp [above.ne', apart]
  cases bit with
  | false =>
    simp only [Bool.false_eq_true, if_false, UInt8.toBitVec_and, UInt8.toBitVec_not, BitVec.getLsbD_and,
      BitVec.getLsbD_not, one, low, decide_true]
    by_cases same : k % 8 = p % 8
    · simp [same]
    · simp [same]
  | true =>
    simp only [if_true, UInt8.toBitVec_or, BitVec.getLsbD_or, one]
    by_cases same : k % 8 = p % 8
    · simp [same]
    · simp [same]

theorem bitAt_writeBit {i p : Nat} (inside : p / 8 < frame.length) :
    bitAt (writeBit raw frame (i, p)) = update (bitAt frame) p (raw.getLsbD i) := by
  funext j
  simp only [writeBit, bit_test, modify_eq_set_getElem?, getElem?_eq_getElem inside, Option.map_eq_map,
    Option.map_some, Option.getD_some]
  rw [bitAt_set inside, writeBit_byte, update_apply]
  by_cases near : j / 8 = p / 8
  · rw [if_pos near]
    refine if_congr (by omega) rfl ?_
    rw [bitAt, near, getD_eq_getElem?_getD, getElem?_eq_getElem inside, Option.getD_some]
  · rw [if_neg near, if_neg fun same => near (congrArg (· / 8) same)]

def writer (startBit bitLen : Nat) (order : ByteOrder) (raw : BitVec 64) : Scatter.Writer Nat Nat Bool where
  places := forEachBit startBit bitLen order
  source := raw.getLsbD
  single := forEachBit_nodup

theorem written_bits
    (inside : ∀ place ∈ places, place.2 / 8 < frame.length) :
    (places.foldl (writeBit raw) frame).length = frame.length ∧
      bitAt (places.foldl (writeBit raw) frame) = Scatter.write places raw.getLsbD (bitAt frame) := by
  induction places generalizing frame with
  | nil => exact ⟨rfl, rfl⟩
  | cons place places ih =>
    have here := inside place mem_cons_self
    have same : (writeBit raw frame place).length = frame.length := length_modify _ _ _
    have later : ∀ place' ∈ places, place'.2 / 8 < (writeBit raw frame place).length := by
      intro place' member
      rw [same]
      exact inside place' (mem_cons_of_mem _ member)
    have rest := ih later
    rw [bitAt_writeBit here] at rest
    exact ⟨rest.1.trans same, rest.2⟩

theorem packUnsigned_ok
    (checked : check frame.length startBit bitLen order = .ok ())
    (small : raw.toNat < 2 ^ bitLen) :
    ∃ written, packUnsigned startBit bitLen order raw frame = .ok () written ∧ written.length = frame.length ∧
      bitAt written = Scatter.write (writer startBit bitLen order raw).places raw.getLsbD (bitAt frame) := by
  have clear := (masked_zero_iff raw).mpr ((clear_above_iff raw).mpr small)
  have inside : ∀ place ∈ forEachBit startBit bitLen order, place.2 / 8 < frame.length := by
    intro place member
    obtain ⟨low, same⟩ := mem_forEachBit.mp member
    rw [same]
    exact (check_iff.mp checked).2 _ low
  refine ⟨_, ?_, written_bits inside⟩
  rw [packUnsigned, checked]
  exact if_neg (not_not_intro clear)

theorem packUnsigned_wide
    (checked : check frame.length startBit bitLen order = .ok ())
    (wide : ¬ raw.toNat < 2 ^ bitLen) :
    packUnsigned startBit bitLen order raw frame = .error .valueOutOfRange frame := by
  have set : raw &&& ~~~mask bitLen ≠ 0#64 := by
    intro clear
    exact wide ((clear_above_iff raw).mp ((masked_zero_iff raw).mp clear))
  rw [packUnsigned, checked]
  exact if_pos set

def InRange (bitLen : Nat) (value : Int) : Prop := -2 ^ (bitLen - 1) ≤ value ∧ value < 2 ^ (bitLen - 1)

instance {bitLen : Nat} {value : Int} : Decidable (InRange bitLen value) :=
  inferInstanceAs (Decidable (_ ∧ _))

theorem InRange.mono {wider : Nat} (range : InRange bitLen value) (more : bitLen ≤ wider) : InRange wider value := by
  have power : (2 : Int) ^ (bitLen - 1) ≤ 2 ^ (wider - 1) := by
    exact_mod_cast Nat.pow_le_pow_right (by decide) (Nat.sub_le_sub_right more 1)
  unfold InRange at range ⊢
  omega

def twosComplement (bitLen : Nat) (value : Int) : BitVec 64 := BitVec.ofInt 64 value &&& mask bitLen

theorem setWidth_ofInt (value : Int) (narrow : bitLen ≤ 64) :
    (BitVec.ofInt 64 value).setWidth bitLen = BitVec.ofInt bitLen value := by
  apply BitVec.eq_of_toNat_eq
  have divides : ((2 ^ bitLen : Nat) : Int) ∣ (2 ^ 64 : Nat) := Int.natCast_dvd_natCast.mpr (pow_dvd_pow 2 narrow)
  have positive : 0 ≤ value % (2 ^ 64 : Nat) := Int.emod_nonneg value (by decide)
  simp only [BitVec.toNat_setWidth, BitVec.toNat_ofInt]
  rw [← Int.emod_emod_of_dvd value divides, Int.toNat_emod positive (Int.natCast_nonneg _), Int.toNat_natCast]

theorem twosComplement_eq (narrow : bitLen ≤ 64) :
    twosComplement bitLen value = (BitVec.ofInt bitLen value).setWidth 64 := by
  rw [twosComplement, masked_eq, setWidth_ofInt value narrow]

theorem twosComplement_lt (value : Int) (narrow : bitLen ≤ 64) : (twosComplement bitLen value).toNat < 2 ^ bitLen := by
  rw [twosComplement_eq narrow, BitVec.toNat_setWidth]
  exact lt_of_le_of_lt (Nat.mod_le _ _) (BitVec.ofInt bitLen value).isLt

section

variable {frame : List UInt8} {raw : BitVec 64}

theorem packSigned_ok {value : Int} (checked : check frame.length startBit bitLen order = .ok ())
    (range : InRange bitLen value) : packSigned startBit bitLen order value frame =
      packUnsigned startBit bitLen order (twosComplement bitLen value) frame := by
  have inside : ¬ (bitLen < 64 ∧ (value < -2 ^ (bitLen - 1) ∨ 2 ^ (bitLen - 1) ≤ value)) := by
    unfold InRange at range
    omega
  rw [packSigned, checked]
  exact if_neg inside

theorem packSigned_wide {value : Int}
    (checked : check frame.length startBit bitLen order = .ok ())
    (word : InRange 64 value)
    (wide : ¬ InRange bitLen value) :
    packSigned startBit bitLen order value frame = .error .valueOutOfRange frame := by
  have narrow := (check_iff.mp checked).1.2
  have outside : bitLen < 64 ∧ (value < -2 ^ (bitLen - 1) ∨ 2 ^ (bitLen - 1) ≤ value) := by
    have below : bitLen ≠ 64 := fun same => wide (same ▸ word)
    unfold InRange at wide
    omega
  rw [packSigned, checked]
  exact if_pos outside

theorem readBit_getLsbD {i p k : Nat} (low : k < 64) :
    (readBit frame raw (i, p)).getLsbD k = (raw.getLsbD k || (decide (i = k) && bitAt frame p)) := by
  simp only [readBit, BitVec.getLsbD_or, BitVec.getLsbD_shiftLeft, BitVec.getLsbD_setWidth, getLsbD_bitOf, low,
    decide_true, bitAt]
  rcases lt_trichotomy k i with below | same | above
  · simp [below, below.ne']
  · simp [same]
  · have apart : k - i ≠ 0 := Nat.sub_ne_zero_of_lt above
    simp [above.ne, apart]

theorem read_getLsbD {places : List (Nat × Nat)} {k : Nat} (low : k < 64) :
    (places.foldl (readBit frame) raw).getLsbD k =
      (raw.getLsbD k || places.any fun place => decide (place.1 = k) && bitAt frame place.2) := by
  induction places generalizing raw with
  | nil => simp
  | cons place places ih => rw [foldl_cons, ih, readBit_getLsbD low, any_cons, Bool.or_assoc]

theorem unpackUnsigned_ok (checked : check frame.length startBit bitLen order = .ok ()) :
    ∃ raw, unpackUnsigned frame startBit bitLen order = .ok raw ∧
      ∀ i, raw.getLsbD i = (decide (i < bitLen) && bitAt frame (position startBit bitLen order i)) := by
  have narrow := (check_iff.mp checked).1.2
  refine ⟨(forEachBit startBit bitLen order).foldl (readBit frame) 0#64, ?_, ?_⟩
  · rw [unpackUnsigned, checked]
    rfl
  · intro i
    by_cases low : i < 64
    · rw [read_getLsbD low, BitVec.getLsbD_zero, Bool.false_or, Bool.eq_iff_iff, any_eq_true]
      simp only [Bool.and_eq_true, decide_eq_true_eq]
      constructor
      · intro ⟨place, member, same, set⟩
        obtain ⟨inside, here⟩ := mem_forEachBit.mp member
        rw [here, same] at set
        exact ⟨same ▸ inside, set⟩
      · intro ⟨inside, set⟩
        exact ⟨(i, _), mem_forEachBit.mpr ⟨inside, rfl⟩, rfl, set⟩
    · rw [BitVec.getLsbD_of_ge _ _ (not_lt.mp low), decide_eq_false (by omega), Bool.false_and]

theorem unpackUnsigned_eq_iff (checked : check frame.length startBit bitLen order = .ok ())
    (small : raw.toNat < 2 ^ bitLen) : unpackUnsigned frame startBit bitLen order = .ok raw ↔
      (writer startBit bitLen order raw).Holds (bitAt frame) := by
  have clear := (clear_above_iff raw).mpr small
  obtain ⟨_, unpacked, bits⟩ := unpackUnsigned_ok checked
  rw [unpacked, ok.injEq]
  constructor
  · intro same i p member
    obtain ⟨inside, here⟩ := mem_forEachBit.mp member
    have bit := bits i
    rw [decide_eq_true inside, same] at bit
    rw [here]
    exact bit.symm
  · intro holds
    apply BitVec.eq_of_getLsbD_eq
    intro i low
    rw [bits]
    by_cases inside : i < bitLen
    · rw [decide_eq_true inside]
      exact holds i _ (mem_forEachBit.mpr ⟨inside, rfl⟩)
    · rw [decide_eq_false inside, Bool.false_and, clear i (not_lt.mp inside)]

theorem unpackUnsigned_lt (unpacked : unpackUnsigned frame startBit bitLen order = .ok raw)
    (checked : check frame.length startBit bitLen order = .ok ()) : raw.toNat < 2 ^ bitLen := by
  obtain ⟨_, same, bits⟩ := unpackUnsigned_ok checked
  rw [unpacked, ok.injEq] at same
  subst same
  rw [← clear_above_iff]
  intro i high
  rw [bits, decide_eq_false (not_lt.mpr high), Bool.false_and]

end

theorem signExtend_eq (raw : BitVec 64)
    (some : 0 < bitLen)
    (narrow : bitLen ≤ 64) :
    signExtend raw bitLen = (raw.setWidth bitLen).toInt := by
  unfold signExtend
  by_cases whole : 64 ≤ bitLen
  · have same : bitLen = 64 := by omega
    subst same
    rw [if_pos whole, BitVec.setWidth_eq]
  · rw [if_neg whole, ← BitVec.toInt_signExtend_of_le narrow]
    congr 1
    apply BitVec.eq_of_getLsbD_eq
    intro i low
    have top : (raw <<< (64 - bitLen)).msb = (raw.setWidth bitLen).msb := by
      rw [BitVec.msb_shiftLeft, BitVec.getMsbD_eq_getLsbD, BitVec.msb_eq_getLsbD_last, BitVec.getLsbD_setWidth,
        decide_eq_true (by omega), decide_eq_true (by omega), Bool.true_and]
      congr 1
      omega
    rw [BitVec.getLsbD_sshiftRight, BitVec.getLsbD_signExtend, top, decide_eq_true low,
      decide_eq_false (not_le.mpr low), Bool.not_false]
    by_cases inside : i < bitLen
    · rw [if_pos (by omega), if_pos inside, BitVec.getLsbD_shiftLeft, BitVec.getLsbD_setWidth,
        decide_eq_true (by omega), decide_eq_false (by omega), decide_eq_true inside, Nat.add_sub_cancel_left]
      rfl
    · rw [if_neg (by omega), if_neg inside]

theorem signExtend_eq_iff
    (some : 0 < bitLen)
    (narrow : bitLen ≤ 64)
    (small : raw.toNat < 2 ^ bitLen)
    (range : InRange bitLen value) :
    signExtend raw bitLen = value ↔ raw = twosComplement bitLen value := by
  have back : (BitVec.ofInt bitLen value).toInt = value := BitVec.toInt_ofInt_eq_self some range.1 range.2
  have whole : (raw.setWidth bitLen).setWidth 64 = raw := by
    apply BitVec.eq_of_toNat_eq
    simp only [BitVec.toNat_setWidth, Nat.mod_eq_of_lt small, Nat.mod_eq_of_lt raw.isLt]
  rw [signExtend_eq raw some narrow, twosComplement_eq narrow]
  constructor
  · intro same
    rw [← back, BitVec.toInt_inj] at same
    rw [← same, whole]
  · intro same
    rw [same, BitVec.setWidth_setWidth_of_le _ narrow, BitVec.setWidth_eq, back]

theorem unpackSigned_ok (checked : check frame.length startBit bitLen order = .ok ()) :
    ∃ value, unpackSigned frame startBit bitLen order = .ok value ∧ InRange bitLen value := by
  obtain ⟨some, narrow⟩ := (check_iff.mp checked).1
  obtain ⟨found, unpacked, _⟩ := unpackUnsigned_ok checked
  refine ⟨signExtend found bitLen, ?_, ?_⟩
  · rw [unpackSigned, unpacked]
    rfl
  · rw [signExtend_eq found some narrow]
    exact ⟨BitVec.le_toInt _, BitVec.toInt_lt⟩

theorem unpackSigned_eq_iff (checked : check frame.length startBit bitLen order = .ok ())
    (range : InRange bitLen value) : unpackSigned frame startBit bitLen order = .ok value ↔
      (writer startBit bitLen order (twosComplement bitLen value)).Holds (bitAt frame) := by
  obtain ⟨some, narrow⟩ := (check_iff.mp checked).1
  obtain ⟨found, unpacked, _⟩ := unpackUnsigned_ok checked
  have small := unpackUnsigned_lt unpacked checked
  have read : unpackSigned frame startBit bitLen order = .ok (signExtend found bitLen) := by
    rw [unpackSigned, unpacked]
    rfl
  rw [read, ← unpackUnsigned_eq_iff checked (twosComplement_lt value narrow), unpacked, ok.injEq,
    ok.injEq, signExtend_eq_iff some narrow small range]

end Taktora.Idl
