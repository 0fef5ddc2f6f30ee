import Taktora.Idl.Wire

namespace Taktora.Idl

open BitField

def places (startBit bitLen : Nat) (order : ByteOrder) : List Nat := (forEachBit startBit bitLen order).map Prod.snd

def Placed (startBit bitLen : Nat) (order : ByteOrder) (frame : List UInt8) : Prop :=
  (1 ≤ bitLen ∧ bitLen ≤ 64) ∧ ∀ p ∈ places startBit bitLen order, p / 8 < frame.length

/-- The signal reads back as `value`, and nothing else in the frame has changed. -/
structure Packed {α : Type} (unpack : List UInt8 → Except WireError α) (value : α) (own : List Nat)
    (frame written : List UInt8) : Prop where
  value : unpack written = .ok value
  length : written.length = frame.length
  outside : ∀ p ∉ own, bitAt written p = bitAt frame p
  others : ∀ startBit bitLen order, (places startBit bitLen order).Disjoint own →
    unpackUnsigned written startBit bitLen order = unpackUnsigned frame startBit bitLen order ∧
      unpackSigned written startBit bitLen order = unpackSigned frame startBit bitLen order

variable {startBit bitLen : Nat} {order : ByteOrder} {frame written : List UInt8}

theorem mem_places {p : Nat} :
    p ∈ places startBit bitLen order ↔ ∃ i < bitLen, p = position startBit bitLen order i := by
  simp only [places, List.mem_map, Prod.exists, exists_eq_right, mem_forEachBit]

theorem placed_iff : Placed startBit bitLen order frame ↔ check frame.length startBit bitLen order = .ok () := by
  rw [check_iff]
  apply and_congr_right'
  constructor
  · intro inside i low
    exact inside _ (mem_places.mpr ⟨i, low, rfl⟩)
  · intro inside p member
    obtain ⟨i, low, rfl⟩ := mem_places.mp member
    exact inside i low

theorem check_fails (missing : ¬ Placed startBit bitLen order frame) :
    ∃ e, check frame.length startBit bitLen order = .error e := by
  cases checked : check frame.length startBit bitLen order with
  | ok => exact absurd (placed_iff.mpr checked) missing
  | error e => exact ⟨e, rfl⟩

theorem unpackUnsigned_congr (length : written.length = frame.length)
    (same : ∀ p ∈ places startBit bitLen order, bitAt written p = bitAt frame p) :
    unpackUnsigned written startBit bitLen order = unpackUnsigned frame startBit bitLen order := by
  by_cases placed : Placed startBit bitLen order frame
  · have checked := placed_iff.mp placed
    obtain ⟨_, unpacked, bits⟩ := unpackUnsigned_ok (length ▸ checked)
    obtain ⟨_, unpacked', bits'⟩ := unpackUnsigned_ok checked
    rw [unpacked, unpacked']
    congr 1
    apply BitVec.eq_of_getLsbD_eq
    intro i _
    rw [bits, bits']
    by_cases low : i < bitLen
    · rw [same _ (mem_places.mpr ⟨i, low, rfl⟩)]
    · simp [low]
  · obtain ⟨e, failed⟩ := check_fails placed
    rw [unpackUnsigned, unpackUnsigned, length, failed]
    rfl

theorem Packed.of_write {α : Type} {unpack : List UInt8 → Except WireError α} {value : α} {raw : BitVec 64}
    (length : written.length = frame.length)
    (unpacked : unpack written = .ok value)
    (bits : bitAt written = Scatter.write (forEachBit startBit bitLen order) raw.getLsbD (bitAt frame)) :
    Packed unpack value (places startBit bitLen order) frame written := by
  have outside : ∀ p ∉ places startBit bitLen order, bitAt written p = bitAt frame p := by
    intro p apart
    rw [bits]
    apply Scatter.write_outside
    intro i member
    exact apart (List.mem_map.mpr ⟨(i, p), member, rfl⟩)
  refine ⟨unpacked, length, outside, ?_⟩
  intro start len order' apart
  have same := unpackUnsigned_congr length fun p member => outside p (apart member)
  exact ⟨same, by simp only [unpackSigned, same]⟩

theorem packUnsigned_packed {raw : BitVec 64}
    (placed : Placed startBit bitLen order frame)
    (small : raw.toNat < 2 ^ bitLen) :
    ∃ written, packUnsigned startBit bitLen order raw frame = .ok () written ∧
      Packed (unpackUnsigned · startBit bitLen order) raw (places startBit bitLen order) frame written := by
  have checked := placed_iff.mp placed
  obtain ⟨written, packed, length, bits⟩ := packUnsigned_ok checked small
  refine ⟨written, packed, .of_write length ?_ bits⟩
  rw [unpackUnsigned_eq_iff (length ▸ checked) small, bits]
  intro i p member
  exact Scatter.write_inside forEachBit_nodup member

theorem packSigned_packed {value : Int}
    (placed : Placed startBit bitLen order frame)
    (range : InRange bitLen value) :
    ∃ written, packSigned startBit bitLen order value frame = .ok () written ∧
      Packed (unpackSigned · startBit bitLen order) value (places startBit bitLen order) frame written := by
  have checked := placed_iff.mp placed
  have small := twosComplement_lt value placed.1.2
  obtain ⟨written, packed, length, bits⟩ := packUnsigned_ok checked small
  refine ⟨written, (packSigned_ok checked range).trans packed, .of_write length ?_ bits⟩
  rw [unpackSigned_eq_iff (length ▸ checked) range, bits]
  intro i p member
  exact Scatter.write_inside forEachBit_nodup member

def PacksExactly {α : Type} (pack : Fallible WireError (List UInt8) Unit) (unpack : List UInt8 → Except WireError α)
    (value : α) (own : List Nat) (accepted : Prop) (frame : List UInt8) : Prop :=
  (accepted → ∃ written, pack frame = .ok () written ∧ Packed unpack value own frame written) ∧
    (¬ accepted → ∃ e, pack frame = .error e frame)

theorem unpack_placed :
    ((∃ raw, unpackUnsigned frame startBit bitLen order = .ok raw) ↔ Placed startBit bitLen order frame) ∧
      ((∃ value, unpackSigned frame startBit bitLen order = .ok value) ↔ Placed startBit bitLen order frame) := by
  by_cases placed : Placed startBit bitLen order frame
  · obtain ⟨raw, unpacked, _⟩ := unpackUnsigned_ok (placed_iff.mp placed)
    obtain ⟨value, signed, _⟩ := unpackSigned_ok (placed_iff.mp placed)
    exact ⟨⟨fun _ => placed, fun _ => ⟨raw, unpacked⟩⟩, ⟨fun _ => placed, fun _ => ⟨value, signed⟩⟩⟩
  · obtain ⟨e, failed⟩ := check_fails placed
    have unpacked : unpackUnsigned frame startBit bitLen order = .error e := by
      rw [unpackUnsigned, failed]
      rfl
    have signed : unpackSigned frame startBit bitLen order = .error e := by
      rw [unpackSigned, unpacked]
      rfl
    simp [unpacked, signed, placed]

theorem signal_packing (startBit bitLen : Nat) (order : ByteOrder) (frame : List UInt8) (raw : BitVec 64)
    (value : Int64) :
    (places startBit bitLen order).Nodup ∧
      PacksExactly (packUnsigned startBit bitLen order raw) (unpackUnsigned · startBit bitLen order) raw
      (places startBit bitLen order) (Placed startBit bitLen order frame ∧ raw.toNat < 2 ^ bitLen) frame ∧
      PacksExactly (packSigned startBit bitLen order value.toInt) (unpackSigned · startBit bitLen order) value.toInt
      (places startBit bitLen order) (Placed startBit bitLen order frame ∧ InRange bitLen value.toInt) frame ∧
      ((∃ raw, unpackUnsigned frame startBit bitLen order = .ok raw) ↔ Placed startBit bitLen order frame) ∧
      ((∃ value, unpackSigned frame startBit bitLen order = .ok value) ↔ Placed startBit bitLen order frame) := by
  refine ⟨forEachBit_nodup, ⟨fun both => packUnsigned_packed both.1 both.2, ?_⟩,
    ⟨fun both => packSigned_packed both.1 both.2, ?_⟩, unpack_placed⟩
  · intro refused
    by_cases placed : Placed startBit bitLen order frame
    · exact ⟨_, packUnsigned_wide (placed_iff.mp placed) fun small => refused ⟨placed, small⟩⟩
    · obtain ⟨e, failed⟩ := check_fails placed
      exact ⟨e, by rw [packUnsigned, failed]⟩
  · intro refused
    by_cases placed : Placed startBit bitLen order frame
    · have word : InRange 64 value.toInt := ⟨value.le_toInt, value.toInt_lt⟩
      exact ⟨_, packSigned_wide (placed_iff.mp placed) word fun range => refused ⟨placed, range⟩⟩
    · obtain ⟨e, failed⟩ := check_fails placed
      exact ⟨e, by rw [packSigned, failed]⟩

end Taktora.Idl
