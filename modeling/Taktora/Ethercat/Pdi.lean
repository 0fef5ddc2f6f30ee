import Taktora.Core.Error
import Taktora.Lib.BitField

namespace Taktora.Ethercat

open Checked BitField List

inductive PdoDirection where
  | rx
  | tx
deriving DecidableEq

structure EthercatRouting where
  subdeviceAddress : UInt16
  direction : PdoDirection
  bitOffset : UInt32
  bitLength : UInt16
deriving DecidableEq

variable (routing : EthercatRouting)

def writeBit (value pdi : List UInt8) (i : Nat) : Except Panic (List UInt8) := do
  let source ← index value (i / 8)
  let bit := bitOf source i
  let dstPos := routing.bitOffset.toNat + i
  let target ← index pdi (dstPos / 8)
  .ok (pdi.set (dstPos / 8) (putBit target bit dstPos))

def writeRouting (pdi : List UInt8) (routing : EthercatRouting) (value : List UInt8) :
    Except Panic (Except ConnectorError (List UInt8)) :=
  let bitLength := routing.bitLength.toNat
  let bitOffset := routing.bitOffset.toNat
  if bitLength = 0 then .ok (.ok pdi)
  else if value.length * 8 < bitLength then .ok (.error (.payloadOverflow bitLength (value.length * 8)))
  else if bitOffset + bitLength > pdi.length * 8 then
    .ok (.error (.payloadOverflow (bitOffset + bitLength) (pdi.length * 8)))
  else (forRange (writeBit routing value) bitLength pdi).map .ok

def readBit (pdi into : List UInt8) (i : Nat) : Except Panic (List UInt8) := do
  let srcPos := routing.bitOffset.toNat + i
  let source ← index pdi (srcPos / 8)
  let bit := bitOf source srcPos
  let target ← index into (i / 8)
  .ok (into.set (i / 8) (target ||| bit <<< UInt8.ofNat (i % 8)))

def readRouting (pdi : List UInt8) (routing : EthercatRouting) (into : List UInt8) :
    Except Panic (Except ConnectorError (List UInt8)) :=
  let bitLength := routing.bitLength.toNat
  let bitOffset := routing.bitOffset.toNat
  if bitLength = 0 then .ok (.ok into)
  else if into.length * 8 < bitLength then .ok (.error (.payloadOverflow bitLength (into.length * 8)))
  else if bitOffset + bitLength > pdi.length * 8 then
    .ok (.error (.payloadOverflow (bitOffset + bitLength) (pdi.length * 8)))
  else
    let touchedBytes := (bitLength + 7) / 8
    let cleared := List.replicate touchedBytes 0 ++ into.drop touchedBytes
    (forRange (readBit routing pdi) bitLength cleared).map .ok

def EthercatRouting.Within (size : Nat) : Prop :=
  routing.bitLength.toNat = 0 ∨ routing.bitOffset.toNat + routing.bitLength.toNat ≤ size * 8

def EthercatRouting.overlay (routing : EthercatRouting) (value : List UInt8) (image : Nat → Bool) : Nat → Bool :=
  BitField.overlay routing.bitOffset.toNat routing.bitLength.toNat (bitAt value) image

/-- The first `n` bits of the slice are written to what was `pdi`. -/
def EthercatRouting.Written (value pdi : List UInt8) (n : Nat) (written : List UInt8) : Prop :=
  written.length = pdi.length ∧ bitAt written = BitField.overlay routing.bitOffset.toNat n (bitAt value) (bitAt pdi)

section Slices

variable {routing : EthercatRouting} {pdi value into result : List UInt8}

theorem writeBit_ok {i : Nat}
    (covered : i < value.length * 8)
    (held : routing.bitOffset.toNat + i < pdi.length * 8) :
    ∃ pdi', writeBit routing value pdi i = .ok pdi' ∧ pdi'.length = pdi.length ∧
      ∀ j, bitAt pdi' j = if j = routing.bitOffset.toNat + i then bitAt value i else bitAt pdi j := by
  have source : i / 8 < value.length := Nat.div_lt_of_lt_mul (mul_comm 8 _ ▸ covered)
  have target : (routing.bitOffset.toNat + i) / 8 < pdi.length := Nat.div_lt_of_lt_mul (mul_comm 8 _ ▸ held)
  refine ⟨_, ?_, length_set, bitAt_putBit target value i⟩
  rw [writeBit, index_ok source 0]
  dsimp only
  rw [index_ok target 0]
  rfl

/-- Writing a slice goes through if the value covers it and the buffer holds it, and keeps every other bit. -/
theorem writeRouting_ok
    (covered : routing.bitLength.toNat ≤ value.length * 8)
    (held : routing.Within pdi.length) :
    ∃ pdi', writeRouting pdi routing value = .ok (.ok pdi') ∧ pdi'.length = pdi.length ∧
      bitAt pdi' = routing.overlay value (bitAt pdi) := by
  unfold writeRouting
  dsimp only
  split
  · rename_i empty
    refine ⟨pdi, rfl, rfl, ?_⟩
    rw [EthercatRouting.overlay, empty, overlay_zero]
  · rename_i some
    have bound := held.resolve_left some
    rw [if_neg (not_lt.mpr covered), if_neg (not_lt.mpr bound)]
    have round : ∀ i < routing.bitLength.toNat, ∀ p, routing.Written value pdi i p →
        ∃ p', writeBit routing value p i = .ok p' ∧ routing.Written value pdi (i + 1) p' := by
      rintro i below p ⟨length, image⟩
      have held : routing.bitOffset.toNat + i < p.length * 8 := by
        omega
      obtain ⟨p', written, same, changed⟩ := writeBit_ok (below.trans_le covered) held
      refine ⟨p', written, same.trans length, funext fun j => ?_⟩
      rw [changed, overlay_succ, image]
    obtain ⟨pdi', written, length, image⟩ := forRange_ok ⟨rfl, overlay_zero.symm⟩ round
    refine ⟨pdi', ?_, length, image⟩
    rw [written]
    rfl

theorem writeRouting_covered (written : writeRouting pdi routing value = .ok (.ok result)) :
    routing.bitLength.toNat ≤ value.length * 8 ∧ routing.Within pdi.length := by
  unfold writeRouting at written
  dsimp only at written
  split at written
  · rename_i empty
    exact ⟨empty ▸ Nat.zero_le _, .inl empty⟩
  · split at written
    · cases written
    · rename_i covered
      split at written
      · cases written
      · rename_i held
        exact ⟨not_lt.mp covered, .inr (not_lt.mp held)⟩

theorem readBit_ok {i : Nat}
    (room : i < into.length * 8)
    (held : routing.bitOffset.toNat + i < pdi.length * 8) :
    ∃ into', readBit routing pdi into i = .ok into' ∧ into'.length = into.length ∧
      ∀ j, bitAt into' j = (bitAt into j || decide (j = i) && bitAt pdi (routing.bitOffset.toNat + i)) := by
  have source : (routing.bitOffset.toNat + i) / 8 < pdi.length := Nat.div_lt_of_lt_mul (mul_comm 8 _ ▸ held)
  have target : i / 8 < into.length := Nat.div_lt_of_lt_mul (mul_comm 8 _ ▸ room)
  rw [readBit]
  rw [index_ok source 0, index_ok target 0]
  exact ⟨_, rfl, length_set, bitAt_orBit target pdi _⟩

/-- The first `n` bits of the slice are read to what was `into`, and the rest of the bytes of the slice is zero. -/
def EthercatRouting.Read (routing : EthercatRouting) (pdi into : List UInt8) (n : Nat) (read : List UInt8) : Prop :=
  read.length = into.length ∧ ∀ j, bitAt read j =
    if j < n then bitAt pdi (routing.bitOffset.toNat + j)
    else if j < (routing.bitLength.toNat + 7) / 8 * 8 then false else bitAt into j

theorem readRouting_ok
    (room : routing.bitLength.toNat ≤ into.length * 8)
    (held : routing.Within pdi.length) :
    ∃ into', readRouting pdi routing into = .ok (.ok into') ∧ routing.Read pdi into routing.bitLength.toNat into' := by
  unfold readRouting
  dsimp only
  split
  · rename_i empty
    refine ⟨into, rfl, rfl, ?_⟩
    simp [empty]
  · rename_i some
    have bound := held.resolve_left some
    rw [if_neg (not_lt.mpr room), if_neg (not_lt.mpr bound)]
    have cleared : routing.Read pdi into 0 (List.replicate ((routing.bitLength.toNat + 7) / 8) 0 ++
        into.drop ((routing.bitLength.toNat + 7) / 8)) := by
      refine ⟨?_, fun j => by simp [bitAt_cleared]⟩
      rw [length_append, length_replicate, length_drop]
      omega
    have round : ∀ i < routing.bitLength.toNat, ∀ t, routing.Read pdi into i t →
        ∃ t', readBit routing pdi t i = .ok t' ∧ routing.Read pdi into (i + 1) t' := by
      rintro i below t ⟨length, bits⟩
      have space : i < t.length * 8 := by omega
      obtain ⟨t', read, same, changed⟩ := readBit_ok space ((Nat.add_lt_add_left below _).trans_le bound)
      refine ⟨t', read, same.trans length, fun j => ?_⟩
      rw [changed, bits]
      rcases lt_trichotomy j i with before | here | after
      · simp [before, before.ne, Nat.lt_succ_of_lt before]
      · have inside : i < (routing.bitLength.toNat + 7) / 8 * 8 := by omega
        simp [here, inside]
      · simp [after.ne', not_lt.mpr after.le, not_lt.mpr (Nat.succ_le_of_lt after)]
    obtain ⟨into', read, done⟩ := forRange_ok cleared round
    refine ⟨into', ?_, done⟩
    rw [read]
    rfl

end Slices

end Taktora.Ethercat
