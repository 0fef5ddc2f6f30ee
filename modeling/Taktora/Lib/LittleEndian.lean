import Mathlib.Data.Nat.Bitwise

namespace LittleEndian

def byteAt (v i : Nat) : UInt8 := UInt8.ofNat ((v >>> (8 * i)) &&& 0xFF)

variable (b0 b1 b2 : UInt8)

def join3 : Nat := b0.toNat ||| (b1.toNat <<< 8) ||| (b2.toNat <<< 16)

def join2 (b0 b1 : UInt8) : Nat := b0.toNat ||| (b1.toNat <<< 8)

def join4 (b0 b1 b2 b3 : UInt8) : Nat := join3 b0 b1 b2 ||| (b3.toNat <<< 24)

theorem byteAt_toNat (v i : Nat) : (byteAt v i).toNat = v / 256 ^ i % 256 := by
  have mask : (v >>> (8 * i)) &&& 0xFF = v / 256 ^ i % 256 := by
    rw [Nat.shiftRight_eq_div_pow, show 0xFF = 2 ^ 8 - 1 from rfl, Nat.and_two_pow_sub_one_eq_mod, Nat.pow_mul]
  rw [byteAt, mask]
  exact Nat.mod_eq_of_lt (Nat.mod_lt _ (by decide))

theorem byteAt_succ (v i : Nat) : byteAt v (i + 1) = byteAt (v / 256) i := by
  apply UInt8.toNat_inj.mp
  rw [byteAt_toNat, byteAt_toNat, Nat.div_div_eq_div_mul, pow_succ']

theorem foldr_byteAt (v count : Nat) :
    ((List.range count).map (byteAt v)).foldr (fun byte high => byte.toNat + 256 * high) 0 = v % 256 ^ count := by
  induction count generalizing v with
  | zero => exact (Nat.mod_one v).symm
  | succ count ih =>
    have later : (byteAt v ∘ fun i => i + 1) = byteAt (v / 256) := by
      funext i
      exact byteAt_succ v i
    rw [List.range_succ_eq_map, List.map_cons, List.map_map, List.foldr_cons, later, ih, byteAt_toNat, pow_zero,
      Nat.div_one, pow_succ', Nat.mod_mul]

theorem or_shiftLeft {a : Nat} (k b : Nat) (low : a < 2 ^ k) : a ||| (b <<< k) = a + 2 ^ k * b := by
  rw [Nat.or_comm, ← Nat.shiftLeft_add_eq_or_of_lt low, Nat.shiftLeft_eq, mul_comm, add_comm]

theorem shiftLeft_or {a : Nat} (k b : Nat) (low : a < 2 ^ k) : (b <<< k) ||| a = b * 2 ^ k + a := by
  rw [← Nat.shiftLeft_add_eq_or_of_lt low, Nat.shiftLeft_eq]

theorem join2_eq (b0 b1 : UInt8) : join2 b0 b1 = b0.toNat + 256 * b1.toNat := or_shiftLeft 8 _ b0.toNat_lt

theorem join3_eq : join3 b0 b1 b2 = b0.toNat + 256 * b1.toNat + 65536 * b2.toNat := by
  have h0 := b0.toNat_lt
  have h1 := b1.toNat_lt
  rw [join3, or_shiftLeft 8 _ h0, or_shiftLeft 16 _ (by omega)]
  omega

theorem join4_eq (b0 b1 b2 b3 : UInt8) :
    join4 b0 b1 b2 b3 = b0.toNat + 256 * b1.toNat + 65536 * b2.toNat + 16777216 * b3.toNat := by
  have h0 := b0.toNat_lt
  have h1 := b1.toNat_lt
  have h2 := b2.toNat_lt
  rw [join4, join3_eq, or_shiftLeft 24 _ (by omega)]
  omega

theorem join2_byteAt (v : Nat) : join2 (byteAt v 0) (byteAt v 1) = v % 65536 := by
  rw [join2_eq, byteAt_toNat, byteAt_toNat]
  omega

theorem join3_byteAt (v : Nat) : join3 (byteAt v 0) (byteAt v 1) (byteAt v 2) = v % 16777216 := by
  rw [join3_eq, byteAt_toNat, byteAt_toNat, byteAt_toNat]
  omega

theorem join4_byteAt (v : Nat) : join4 (byteAt v 0) (byteAt v 1) (byteAt v 2) (byteAt v 3) = v % 4294967296 := by
  rw [join4_eq, byteAt_toNat, byteAt_toNat, byteAt_toNat, byteAt_toNat]
  omega

theorem join3_lt : join3 b0 b1 b2 < 16777216 := by
  have h0 := b0.toNat_lt
  have h1 := b1.toNat_lt
  have h2 := b2.toNat_lt
  rw [join3_eq]
  omega

end LittleEndian
