import Taktora.Lib.LittleEndian

namespace Taktora.J1939

open LittleEndian

def pgnMax : Nat := 0x3FFFF

structure Pgn where
  value : Nat
  bound : value ≤ pgnMax
deriving DecidableEq

inductive PgnError where
  | overflow
deriving DecidableEq

def Pgn.zero : Pgn := ⟨0, Nat.zero_le _⟩

def Pgn.new (value : Nat) : Except PgnError Pgn :=
  if h : value > pgnMax then .error .overflow else .ok ⟨value, Nat.le_of_not_lt h⟩

structure DecodedId where
  priority : UInt8
  pduFormat : UInt8
  pgn : Pgn
  sourceAddr : UInt8
  destAddr : Option UInt8
deriving DecidableEq

def pdu2FormatThreshold : UInt8 := 0xF0
def extendedIdMask : Nat := 0x1FFFFFFF
def globalAddress : UInt8 := 0xFF

def decodeExtendedId (raw : Nat) : DecodedId :=
  let id := raw &&& extendedIdMask
  let priority := UInt8.ofNat ((id >>> 26) &&& 0x7)
  let dp := (id >>> 24) &&& 0x3
  let pf := UInt8.ofNat ((id >>> 16) &&& 0xFF)
  let ps := UInt8.ofNat ((id >>> 8) &&& 0xFF)
  let sa := UInt8.ofNat (id &&& 0xFF)
  let (pgnValue, destAddr) :=
    if pf < pdu2FormatThreshold then ((dp <<< 16) ||| (pf.toNat <<< 8), some ps)
    else ((dp <<< 16) ||| (pf.toNat <<< 8) ||| ps.toNat, none)
  { priority, pduFormat := pf, pgn := (Pgn.new pgnValue).toOption.getD Pgn.zero, sourceAddr := sa, destAddr }

variable (pgn : Pgn) (priority sourceAddr : UInt8) (destAddr : Option UInt8)

def encodeExtendedId : Nat :=
  let pf := (pgn.value >>> 8) &&& 0xFF
  let dp := (pgn.value >>> 16) &&& 0x3
  let ps := if UInt8.ofNat pf < pdu2FormatThreshold then (destAddr.getD globalAddress).toNat
    else pgn.value &&& 0xFF
  ((priority.toNat &&& 0x7) <<< 26) ||| (dp <<< 24) ||| (pf <<< 16) ||| (ps <<< 8) ||| sourceAddr.toNat

theorem Pgn.new_value : Pgn.new pgn.value = .ok pgn := by
  have bound := pgn.bound
  simp only [new, gt_iff_lt, not_lt.mpr bound, dite_false]

theorem Pgn.new_ok {value : Nat} (bound : value ≤ pgnMax) : Pgn.new value = .ok ⟨value, bound⟩ := by
  simp only [new, gt_iff_lt, not_lt.mpr bound, dite_false]

theorem ofNat_toNat {n : Nat} (bound : n < 256) : (UInt8.ofNat n).toNat = n := Nat.mod_eq_of_lt bound

theorem encodeExtendedId_eq : encodeExtendedId pgn priority sourceAddr destAddr =
      priority.toNat % 8 * 67108864 + pgn.value / 65536 % 4 * 16777216 + pgn.value / 256 % 256 * 65536 +
        (if UInt8.ofNat (pgn.value / 256 % 256) < pdu2FormatThreshold then (destAddr.getD globalAddress).toNat
          else pgn.value % 256) * 256 + sourceAddr.toNat := by
  have pf : (pgn.value >>> 8) &&& 0xFF = pgn.value / 256 % 256 := by
    rw [Nat.shiftRight_eq_div_pow, show 0xFF = 2 ^ 8 - 1 from rfl, Nat.and_two_pow_sub_one_eq_mod]
  have dp : (pgn.value >>> 16) &&& 0x3 = pgn.value / 65536 % 4 := by
    rw [Nat.shiftRight_eq_div_pow, show 0x3 = 2 ^ 2 - 1 from rfl, Nat.and_two_pow_sub_one_eq_mod]
  have low : pgn.value &&& 0xFF = pgn.value % 256 := Nat.and_two_pow_sub_one_eq_mod pgn.value 8
  have prio : priority.toNat &&& 0x7 = priority.toNat % 8 := Nat.and_two_pow_sub_one_eq_mod priority.toNat 3
  simp only [encodeExtendedId, pf, dp, low, prio]
  generalize psDef : (if UInt8.ofNat (pgn.value / 256 % 256) < pdu2FormatThreshold
    then (destAddr.getD globalAddress).toNat else pgn.value % 256) = ps
  have psBound : ps < 256 := by
    rw [← psDef]
    split
    · exact UInt8.toNat_lt _
    · exact Nat.mod_lt _ (by decide)
  have saBound := sourceAddr.toNat_lt
  rw [Nat.or_assoc, Nat.or_assoc, Nat.or_assoc, shiftLeft_or 8 ps saBound, shiftLeft_or 16 _ (by omega),
    shiftLeft_or 24 _ (by omega), shiftLeft_or 26 _ (by omega)]
  omega

theorem decodeExtendedId_eq (raw : Nat) : decodeExtendedId raw =
      { priority := UInt8.ofNat (raw / 67108864 % 8)
        pduFormat := UInt8.ofNat (raw / 65536 % 256)
        pgn := (Pgn.new (raw / 16777216 % 4 * 65536 + raw / 65536 % 256 * 256 +
          if UInt8.ofNat (raw / 65536 % 256) < pdu2FormatThreshold then 0 else raw / 256 % 256)).toOption.getD Pgn.zero
        sourceAddr := UInt8.ofNat (raw % 256)
        destAddr := if UInt8.ofNat (raw / 65536 % 256) < pdu2FormatThreshold
          then some (UInt8.ofNat (raw / 256 % 256)) else none } := by
  have field (k n : Nat) (inside : k + n ≤ 29) :
      ((raw &&& extendedIdMask) >>> k) &&& (2 ^ n - 1) = raw / 2 ^ k % 2 ^ n := by
    rw [show extendedIdMask = 2 ^ 29 - 1 from rfl, Nat.and_two_pow_sub_one_eq_mod, Nat.shiftRight_eq_div_pow,
      Nat.and_two_pow_sub_one_eq_mod, show 2 ^ 29 = 2 ^ k * 2 ^ (29 - k) by rw [← pow_add]; congr 1; omega,
      Nat.mod_mul_right_div_self, Nat.mod_mod_of_dvd]
    exact pow_dvd_pow 2 (by omega)
  have prio := field 26 3 (by decide)
  have dp := field 24 2 (by decide)
  have pf := field 16 8 (by decide)
  have ps := field 8 8 (by decide)
  have sa := field 0 8 (by decide)
  simp only [Nat.reducePow, Nat.reduceSub, Nat.shiftRight_zero, Nat.div_one] at prio dp pf ps sa
  have pfBound := Nat.mod_lt (raw / 65536) (show 0 < 256 by decide)
  have psBound := Nat.mod_lt (raw / 256) (show 0 < 256 by decide)
  simp only [decodeExtendedId, prio, dp, pf, ps, sa, ofNat_toNat pfBound, ofNat_toNat psBound]
  split
  · rw [shiftLeft_or 16 _ (by omega), Nat.shiftLeft_eq]
    simp only [Nat.reducePow, add_zero]
  · rw [Nat.or_assoc, shiftLeft_or 8 _ psBound, shiftLeft_or 16 _ (by omega)]
    simp only [Nat.reducePow, add_assoc]

theorem fields_of_sum {raw prio dp pf ps sa : Nat}
    (dpBound : dp < 4)
    (pfBound : pf < 256)
    (psBound : ps < 256)
    (saBound : sa < 256)
    (sum : raw = prio * 67108864 + dp * 16777216 + pf * 65536 + ps * 256 + sa) :
    raw / 67108864 = prio ∧ raw / 16777216 % 4 = dp ∧ raw / 65536 % 256 = pf ∧ raw / 256 % 256 = ps ∧
      raw % 256 = sa := by
  refine ⟨?_, ?_, ?_, ?_, ?_⟩ <;> omega

theorem decode_encode : decodeExtendedId (encodeExtendedId pgn priority sourceAddr destAddr) =
      let pdu1 := UInt8.ofNat (pgn.value / 256 % 256) < pdu2FormatThreshold
      { priority := UInt8.ofNat (priority.toNat % 8)
        pduFormat := UInt8.ofNat (pgn.value / 256 % 256)
        pgn := ⟨pgn.value - if pdu1 then pgn.value % 256 else 0, (Nat.sub_le _ _).trans pgn.bound⟩
        sourceAddr
        destAddr := if pdu1 then some (destAddr.getD globalAddress) else none } := by
  have bound : pgn.value ≤ 262143 := pgn.bound
  have encoded := encodeExtendedId_eq pgn priority sourceAddr destAddr
  by_cases pdu1 : UInt8.ofNat (pgn.value / 256 % 256) < pdu2FormatThreshold
  all_goals
    simp only [pdu1, if_true, if_false] at encoded
    obtain ⟨prio, dp, pf, ps, sa⟩ := fields_of_sum (Nat.mod_lt _ (by decide)) (Nat.mod_lt _ (by decide))
      (by first | exact UInt8.toNat_lt _ | omega) sourceAddr.toNat_lt encoded
    rw [decodeExtendedId_eq, prio, pf, ps, sa, Nat.mod_mod,
      Pgn.new_ok (by simp only [pdu1, if_true, if_false, pgnMax]; omega)]
    simp only [pdu1, if_true, if_false, UInt8.ofNat_toNat, Except.toOption, Option.getD_some, DecodedId.mk.injEq,
      Pgn.mk.injEq, true_and, and_true]
    omega

theorem decode_encode_pdu1 (priority sourceAddr dest : UInt8)
    (pdu1 : UInt8.ofNat (pgn.value / 256 % 256) < pdu2FormatThreshold) (low : pgn.value % 256 = 0) :
    decodeExtendedId (encodeExtendedId pgn priority sourceAddr (some dest)) =
      { priority := UInt8.ofNat (priority.toNat % 8), pduFormat := UInt8.ofNat (pgn.value / 256 % 256), pgn,
        sourceAddr, destAddr := some dest } := by
  simp [decode_encode, pdu1, low]

theorem decode_encode_source :
    (decodeExtendedId (encodeExtendedId pgn priority sourceAddr destAddr)).sourceAddr = sourceAddr := by
  rw [decode_encode]

theorem encode_decode (raw : Nat) :
    encodeExtendedId (decodeExtendedId raw).pgn (decodeExtendedId raw).priority (decodeExtendedId raw).sourceAddr
      (decodeExtendedId raw).destAddr = raw &&& extendedIdMask := by
  have mask : raw &&& extendedIdMask = raw % 536870912 := Nat.and_two_pow_sub_one_eq_mod raw 29
  have pf : (raw / 16777216 % 4 * 65536 + raw / 65536 % 256 * 256 + if UInt8.ofNat (raw / 65536 % 256) <
      pdu2FormatThreshold then 0 else raw / 256 % 256) / 256 % 256 = raw / 65536 % 256 := by
    split <;> omega
  rw [encodeExtendedId_eq, decodeExtendedId_eq, Pgn.new_ok (by simp only [pgnMax]; split <;> omega)]
  simp only [Except.toOption, Option.getD_some, UInt8.toNat_ofNat', Nat.reducePow, pf]
  split
  · simp only [Option.getD_some, UInt8.toNat_ofNat', Nat.reducePow]
    omega
  · omega

end Taktora.J1939
