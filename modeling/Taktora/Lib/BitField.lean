import Taktora.Lib.Checked

namespace BitField

open Checked BitVec

/-- Bit `i` of a byte string, counted from the lowest bit of the first byte. -/
def bitAt (bytes : List UInt8) (i : Nat) : Bool := (bytes.getD (i / 8) 0).toBitVec.getLsbD (i % 8)

def bitOf (byte : UInt8) (i : Nat) : UInt8 := byte >>> UInt8.ofNat (i % 8) &&& 1

def putBit (byte bit : UInt8) (i : Nat) : UInt8 :=
  byte &&& ~~~(1 <<< UInt8.ofNat (i % 8)) ||| bit <<< UInt8.ofNat (i % 8)

/-- The image with the bits from `offset` on replaced by the first `length` bits of `source`. -/
def overlay (offset length : Nat) (source image : Nat → Bool) (j : Nat) : Bool :=
  if offset ≤ j ∧ j < offset + length then source (j - offset) else image j

variable {offset length : Nat} {source image : Nat → Bool} {bytes : List UInt8}

theorem overlay_zero : overlay offset 0 source image = image := by
  funext j
  exact if_neg fun inside => not_lt.mpr inside.1 inside.2

theorem overlay_succ (j : Nat) : overlay offset (length + 1) source image j =
      if j = offset + length then source length else overlay offset length source image j := by
  unfold overlay
  by_cases last : j = offset + length
  · rw [if_pos last, if_pos (by omega), last, Nat.add_sub_cancel_left]
  · rw [if_neg last]
    exact if_congr (by omega) rfl rfl

theorem shift_toNat (i : Nat) : ((UInt8.ofNat (i % 8)).toBitVec % 8).toNat = i % 8 := by
  have small : i % 8 % 256 = i % 8 := by omega
  simp [small]

theorem getLsbD_bitOf (byte : UInt8) (i k : Nat) :
    (bitOf byte i).toBitVec.getLsbD k = (decide (k = 0) && byte.toBitVec.getLsbD (i % 8)) := by
  simp only [bitOf, UInt8.toBitVec_and, UInt8.toBitVec_shiftRight, ushiftRight_eq', shift_toNat]
  cases k with
  | zero | succ => simp

theorem getLsbD_putBit (byte other : UInt8) (i j k : Nat) : (putBit byte (bitOf other i) j).toBitVec.getLsbD (k % 8) =
      if k % 8 = j % 8 then other.toBitVec.getLsbD (i % 8) else byte.toBitVec.getLsbD (k % 8) := by
  have low : k % 8 < 8 := Nat.mod_lt _ (by decide)
  simp only [putBit, UInt8.toBitVec_or, UInt8.toBitVec_and, UInt8.toBitVec_not, UInt8.toBitVec_shiftLeft, shiftLeft_eq',
    shift_toNat, getLsbD_or, getLsbD_and, getLsbD_not, getLsbD_shiftLeft, getLsbD_bitOf, low]
  rcases Nat.lt_trichotomy (k % 8) (j % 8) with below | same | above
  · simp [below, below.ne]
  · simp [same]
  · have apart : k % 8 - j % 8 ≠ 0 := Nat.sub_ne_zero_of_lt above
    simp [above.ne', apart]

theorem bitAt_set {byte : UInt8} {n : Nat} (bound : n < bytes.length) (j : Nat) :
    bitAt (bytes.set n byte) j = if j / 8 = n then byte.toBitVec.getLsbD (j % 8) else bitAt bytes j := by
  unfold bitAt
  simp only [List.getD_eq_getElem?_getD]
  by_cases same : j / 8 = n
  · rw [if_pos same, same, List.getElem?_set_self bound]
    rfl
  · rw [if_neg same, List.getElem?_set_ne (symm same)]

theorem bitAt_putBit {n : Nat} (bound : n / 8 < bytes.length) (other : List UInt8) (i j : Nat) :
    bitAt (bytes.set (n / 8) (putBit (bytes.getD (n / 8) 0) (bitOf (other.getD (i / 8) 0) i) n)) j =
      if j = n then bitAt other i else bitAt bytes j := by
  rw [bitAt_set bound, getLsbD_putBit]
  by_cases near : j / 8 = n / 8
  · rw [if_pos near]
    refine if_congr (by omega) rfl ?_
    rw [bitAt, near]
  · rw [if_neg near, if_neg fun same => near (congrArg (· / 8) same)]

theorem bitAt_orBit {n : Nat} (bound : n / 8 < bytes.length) (other : List UInt8) (i j : Nat) :
    bitAt (bytes.set (n / 8) (bytes.getD (n / 8) 0 ||| bitOf (other.getD (i / 8) 0) i <<< UInt8.ofNat (n % 8))) j =
      (bitAt bytes j || decide (j = n) && bitAt other i) := by
  have low : j % 8 < 8 := Nat.mod_lt _ (by decide)
  rw [bitAt_set bound]
  simp only [UInt8.toBitVec_or, UInt8.toBitVec_shiftLeft, shiftLeft_eq', shift_toNat, getLsbD_or,
    getLsbD_shiftLeft, getLsbD_bitOf, low, decide_true]
  by_cases near : j / 8 = n / 8
  · rw [bitAt, near]
    by_cases same : j % 8 = n % 8
    · have here : j = n := by omega
      simp [here, bitAt]
    · have apart : j ≠ n := fun here => same (congrArg (· % 8) here)
      by_cases below : j % 8 < n % 8
      · simp [apart, below]
      · have later : j % 8 - n % 8 ≠ 0 := by omega
        simp [apart, later]
  · have apart : j ≠ n := fun here => near (congrArg (· / 8) here)
    simp [near, apart]

theorem bitAt_cleared (bytes : List UInt8) (n j : Nat) :
    bitAt (List.replicate n 0 ++ bytes.drop n) j = if j < n * 8 then false else bitAt bytes j := by
  unfold bitAt
  rw [List.getD_eq_getElem?_getD, List.getElem?_append]
  by_cases low : j / 8 < n
  · rw [if_pos (by simpa using low), if_pos (by omega)]
    simp [low]
  · rw [if_neg (by simpa using low), if_neg (by omega), List.getElem?_drop, List.length_replicate,
      Nat.add_sub_cancel' (not_lt.mp low), List.getD_eq_getElem?_getD]

end BitField
