import Mathlib.Data.Nat.Log
import Mathlib.Data.Nat.Sqrt
import Mathlib.Order.Monotone.Basic
import Mathlib.Tactic.Linarith
import Mathlib.Tactic.Ring

namespace Taktora.Stats

def M : Nat := 64

def buckets : Nat := 36 * M

def bucketIndex (valueNs : Nat) : Nat :=
  let value := max valueNs 1
  let octave := value.log2
  let sub := ((value - 1 <<< octave) * M) >>> octave
  min (octave * M + sub) (buckets - 1)

def bucketLower (i : Nat) : Nat :=
  let octave := i / M
  let sub := i % M
  let base := 1 <<< octave
  base + base * sub / M

def bucketMidpoint (i : Nat) : Nat :=
  let lo := bucketLower i
  let hi := bucketLower (i + 1)
  let prod := lo * hi
  let root := prod.sqrt
  if prod - root * root > root then root + 1 else root

section Octave

variable {value octave : Nat}

def subBucket (octave value : Nat) : Nat := ((value - 2 ^ octave) * M) >>> octave

theorem bucketIndex_eq (valueNs : Nat) :
    bucketIndex valueNs = min ((max valueNs 1).log2 * M + subBucket (max valueNs 1).log2 (max valueNs 1))
      (buckets - 1) := by
  simp only [bucketIndex, subBucket, Nat.one_shiftLeft]

theorem subBucket_lt (below : value < 2 ^ (octave + 1)) : subBucket octave value < M := by
  rw [subBucket, Nat.shiftRight_eq_div_pow, Nat.div_lt_iff_lt_mul (Nat.two_pow_pos octave), mul_comm]
  apply mul_lt_mul_of_pos_left _ (by decide)
  omega

theorem log2_bounds (positive : value ≠ 0) : 2 ^ value.log2 ≤ value ∧ value < 2 ^ (value.log2 + 1) :=
  ⟨Nat.log2_self_le positive, Nat.lt_log2_self⟩

theorem bucketIndex_lt (valueNs : Nat) : bucketIndex valueNs < buckets := lt_of_le_of_lt (min_le_right _ _) (by decide)

theorem bucketIndex_monotone : Monotone bucketIndex := by
  intro a b order
  rw [bucketIndex_eq, bucketIndex_eq]
  have order : max a 1 ≤ max b 1 := max_le_max_right 1 order
  have positive : max a 1 ≠ 0 := by omega
  generalize max a 1 = a at *
  generalize max b 1 = b at *
  apply min_le_min_right
  have octaves : a.log2 ≤ b.log2 := by
    rw [Nat.le_log2 (by omega)]
    exact (log2_bounds positive).1.trans order
  rcases lt_or_eq_of_le octaves with less | same
  · have sub := subBucket_lt (log2_bounds positive).2
    have next : (a.log2 + 1) * M ≤ b.log2 * M := Nat.mul_le_mul_right M less
    rw [Nat.add_mul] at next
    omega
  · rw [same]
    apply Nat.add_le_add_left
    rw [subBucket, subBucket, Nat.shiftRight_eq_div_pow, Nat.shiftRight_eq_div_pow]
    exact Nat.div_le_div_right (Nat.mul_le_mul_right M (Nat.sub_le_sub_right order _))

theorem bucketIndex_of_octave {e : Nat}
    (least : 2 ^ (e + 6) ≤ value)
    (below : value < 2 ^ (e + 7))
    (range : e < 30) :
    bucketIndex value = (e + 6) * M + (value / 2 ^ e - M) := by
  have positive : 1 ≤ value := (Nat.one_le_two_pow).trans least
  have octave : value.log2 = e + 6 := (Nat.log2_eq_iff (by omega)).mpr ⟨least, below⟩
  have sub : subBucket (e + 6) value = value / 2 ^ e - M := by
    have wide : 2 ^ (e + 6) = 2 ^ e * M := pow_add 2 e 6
    rw [subBucket, Nat.shiftRight_eq_div_pow, wide, Nat.mul_div_mul_right _ _ (by decide), Nat.sub_mul_div]
  have bound := subBucket_lt below
  have inside : (e + 6) * M + subBucket (e + 6) value < buckets := by
    have next : (e + 6 + 1) * M ≤ 36 * M := Nat.mul_le_mul_right M (by omega)
    rw [Nat.add_mul _ 1] at next
    exact lt_of_lt_of_le (Nat.add_lt_add_left bound _) next
  rw [bucketIndex_eq, max_eq_left positive, octave, ← sub, min_eq_left (Nat.le_sub_one_of_lt inside)]

theorem bucketLower_of_octave {e n : Nat}
    (least : M ≤ n)
    (most : n ≤ 2 * M) :
    bucketLower ((e + 6) * M + (n - M)) = 2 ^ e * n := by
  have wide : 2 ^ (e + 6) = 2 ^ e * M := pow_add 2 e 6
  have positive : 0 < M := by decide
  simp only [bucketLower, Nat.one_shiftLeft]
  rcases lt_or_eq_of_le most with _ | same
  · have sub : n - M < M := by omega
    rw [mul_comm, Nat.mul_add_div positive, Nat.mul_add_mod, Nat.div_eq_of_lt sub, Nat.mod_eq_of_lt sub, wide,
      mul_right_comm, Nat.mul_div_cancel _ positive, ← mul_add, Nat.add_sub_cancel' least]
  · have next : (e + 6) * M + (n - M) = (e + 7) * M := by
      rw [same, two_mul, Nat.add_sub_cancel, ← Nat.succ_mul]
    rw [next, Nat.mul_div_cancel _ positive, Nat.mul_mod_left, mul_zero, same]
    exact Nat.pow_add 2 e 7

end Octave

section Midpoint

theorem bucketMidpoint_bounds (i : Nat) (positive : 0 < bucketLower i * bucketLower (i + 1)) :
    ∃ below, bucketMidpoint i = below + 1 ∧ below * (below + 1) < bucketLower i * bucketLower (i + 1) ∧
      bucketLower i * bucketLower (i + 1) ≤ (below + 1) * (below + 2) := by
  unfold bucketMidpoint
  dsimp only
  generalize bucketLower i * bucketLower (i + 1) = prod at *
  have least := Nat.sqrt_le prod
  have next := Nat.lt_succ_sqrt prod
  have nonzero := Nat.sqrt_pos.mpr positive
  generalize prod.sqrt = root at *
  split
  · refine ⟨root, rfl, ?_, ?_⟩
    · rw [Nat.mul_add]
      omega
    · exact (le_of_lt next).trans (Nat.mul_le_mul_left _ (Nat.le_succ _))
  · obtain ⟨below, rfl⟩ : ∃ below, root = below + 1 := ⟨root - 1, by omega⟩
    refine ⟨below, rfl, ?_, ?_⟩
    · exact lt_of_lt_of_le (mul_lt_mul_of_pos_right (Nat.lt_succ_self below) nonzero) least
    · rw [Nat.mul_succ (below + 1) (below + 1)]
      omega

section Edges

variable {a w below : Int}

theorem midpoint_of_narrow
    (positive : 1 ≤ w)
    (narrow : w ≤ 2)
    (many : 64 * w ≤ a)
    (lower : below * (below + 1) < a * (a + w))
    (upper : a * (a + w) ≤ (below + 1) * (below + 2))
    (start : 0 ≤ below) : below + 2 = a + w := by
  apply le_antisymm
  · by_contra _
    nlinarith
  · by_contra _
    have most : (below + 1) * (below + 2) ≤ (a + w - 2) * (a + w - 1) :=
      mul_le_mul (by omega) (by omega) (by omega) (by omega)
    nlinarith

theorem midpoint_not_above
    (wide : 4 ≤ w)
    (many : 64 * w ≤ a)
    (lower : below * (below + 1) < a * (a + w))
    (start : 0 ≤ below) : 100 * (below + 1) ≤ 101 * a := by
  by_contra _
  have ahead : 0 ≤ (100 * below + 99 - 101 * a) * (100 * below + 1 + 101 * a) := mul_nonneg (by omega) (by omega)
  have flat : 64 * w * a ≤ a * a := mul_le_mul_of_nonneg_right many (by omega)
  have steep : 4 * a ≤ w * a := mul_le_mul_of_nonneg_right wide (by omega)
  linarith

theorem midpoint_not_below
    (wide : 1 ≤ w)
    (many : 64 * w ≤ a)
    (upper : a * (a + w) ≤ (below + 1) * (below + 2))
    (start : 0 ≤ below) : 99 * (a + w) ≤ 100 * (below + 1) + 99 := by
  by_contra _
  have behind : (100 * (below + 1)) * (100 * (below + 2)) ≤ (99 * (a + w) - 100) * (99 * (a + w)) :=
    mul_le_mul (by omega) (by omega) (by omega) (by omega)
  have flat : 64 * w * (a + w) ≤ a * (a + w) := mul_le_mul_of_nonneg_right many (by omega)
  have steep : 0 ≤ w * (a + w) := mul_nonneg (by omega) (by omega)
  linarith

theorem midpoint_near
    (positive : 1 ≤ w)
    (width : w ≤ 2 ∨ 4 ≤ w)
    (many : 64 * w ≤ a)
    (start : 0 ≤ below)
    (lower : below * (below + 1) < a * (a + w))
    (upper : a * (a + w) ≤ (below + 1) * (below + 2)) :
    100 * (below + 1) ≤ 101 * a ∧ 99 * (a + w) ≤ 100 * (below + 1) + 99 := by
  refine ⟨?_, midpoint_not_below positive many upper start⟩
  rcases width with narrow | wide
  · have exact := midpoint_of_narrow positive narrow many lower upper start
    omega
  · exact midpoint_not_above wide many lower start

end Edges

theorem two_pow_width (e : Nat) : (2 : Int) ^ e ≤ 2 ∨ (4 : Int) ≤ 2 ^ e := by
  rcases e with _ | _ | e
  · exact .inl (by decide)
  · exact .inl (by decide)
  · omega

theorem bucketMidpoint_near {x : Nat}
    (least : 64 ≤ x)
    (most : x < 2 ^ 36) :
    100 * |(bucketMidpoint (bucketIndex x) : Int) - x| ≤ x := by
  have nonzero : x ≠ 0 := by omega
  obtain ⟨low, high⟩ := log2_bounds nonzero
  have enough : 6 ≤ x.log2 := (Nat.le_log2 nonzero).mpr least
  have few : x.log2 < 36 := (Nat.log2_lt nonzero).mpr most
  obtain ⟨e, octave⟩ := Nat.exists_eq_add_of_le' enough
  rw [octave] at low high
  have index := bucketIndex_of_octave low high (by omega)
  have positive := Nat.two_pow_pos e
  have first : M ≤ x / 2 ^ e := by
    rw [Nat.le_div_iff_mul_le positive, mul_comm]
    exact (pow_add 2 e 6).symm.trans_le low
  have last : x / 2 ^ e < 2 * M := by
    rw [Nat.div_lt_iff_lt_mul positive, mul_comm]
    exact high.trans_eq (pow_add 2 e 7)
  have lower := bucketLower_of_octave (e := e) first last.le
  have upper := bucketLower_of_octave (e := e) (n := x / 2 ^ e + 1) (by omega) last
  rw [Nat.sub_add_comm first, ← add_assoc] at upper
  rw [← index] at lower upper
  have inside := Nat.div_mul_le_self x (2 ^ e)
  have before := Nat.lt_div_mul_add (a := x) positive
  generalize x / 2 ^ e = n at *
  have many : 64 * 2 ^ e ≤ 2 ^ e * n := by
    rw [mul_comm]
    exact Nat.mul_le_mul_left _ first
  obtain ⟨below, midpoint, above, under⟩ := bucketMidpoint_bounds (bucketIndex x) (by
    rw [upper]
    exact mul_pos (by omega) (mul_pos positive (Nat.succ_pos n)))
  rw [lower, upper] at above under
  zify at above under many positive inside before
  obtain ⟨_, _⟩ := midpoint_near positive (two_pow_width e) many (Int.natCast_nonneg below) above under
  rw [midpoint]
  push_cast
  rcases abs_cases ((below : Int) + 1 - x) with ⟨same, _⟩ | ⟨same, _⟩
  · linarith
  · linarith

end Midpoint

end Taktora.Stats
