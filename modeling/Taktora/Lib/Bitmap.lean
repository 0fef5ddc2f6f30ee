import Mathlib.Data.BitVec
import Mathlib.Data.List.Basic

/-- Flags in words of `n` bits: flag `b` is bit `b % n` of word `b / n`. -/
abbrev Bitmap (n : Nat) := List (BitVec n)

namespace Bitmap

open BitVec

variable {n : Nat} {words : Bitmap n} {w b c : Nat}

def word (words : Bitmap n) (w : Nat) : BitVec n := words.getD w 0

def flag (words : Bitmap n) (b : Nat) : Bool := (words.word (b / n)).getLsbD (b % n)

variable (word : BitVec n)

def cleared (bit : Nat) : BitVec n := word &&& ~~~(1#n <<< bit)

def raised (bit : Nat) : BitVec n := word ||| (1#n <<< bit)

def ones (n count : Nat) : Bitmap n := List.replicate count (BitVec.allOnes n)

theorem mask_getLsbD (bit i : Nat) (inside : bit < n) : (1#n <<< bit).getLsbD i = decide (i = bit) := by
  rw [← twoPow_eq, getLsbD_twoPow, decide_eq_true inside]
  exact decide_eq_decide.mpr eq_comm

theorem cleared_getLsbD {bit i : Nat}
    (inside : bit < n)
    (below : i < n) :
    (cleared word bit).getLsbD i = (word.getLsbD i && decide (i ≠ bit)) := by
  rw [cleared, getLsbD_and, getLsbD_not, mask_getLsbD bit i inside, decide_eq_true below, Bool.true_and, decide_not]

theorem raised_getLsbD {bit i : Nat} (inside : bit < n) :
    (raised word bit).getLsbD i = (word.getLsbD i || decide (i = bit)) := by
  rw [raised, getLsbD_or, mask_getLsbD bit i inside]

theorem flag_set (value : BitVec n) (inside : w < words.length) :
    flag (words.set w value) b = if b / n = w then value.getLsbD (b % n) else words.flag b := by
  unfold flag word
  rw [List.getD_eq_getElem?_getD, List.getElem?_set, List.getD_eq_getElem?_getD]
  by_cases same : w = b / n
  · rw [if_pos same, if_pos same.symm, if_pos inside, Option.getD_some]
  · rw [if_neg same, if_neg (Ne.symm same)]

theorem same_position (word : b / n = c / n) (bit : b % n = c % n) : b = c := by
  rw [← Nat.div_add_mod b n, ← Nat.div_add_mod c n, word, bit]

theorem ctz_lt {word : BitVec n} (nonzero : word ≠ 0) : word.ctz.toNat < n := by
  have less : word.ctz.toNat < (n : BitVec n).toNat := ctz_lt_iff_ne_zero.mpr nonzero
  rw [natCast_eq_ofNat, toNat_ofNat, Nat.mod_eq_of_lt Nat.lt_two_pow_self] at less
  exact less

section Positions

variable (positive : 0 < n)
include positive

theorem flag_clear (inside : b / n < words.length) :
    flag (words.set (b / n) (cleared (words.word (b / n)) (b % n))) c = (words.flag c && decide (c ≠ b)) := by
  rw [flag_set _ inside]
  by_cases word : c / n = b / n
  · rw [if_pos word, cleared_getLsbD _ (Nat.mod_lt b positive) (Nat.mod_lt c positive), ← word]
    have same : c % n ≠ b % n ↔ c ≠ b := not_congr ⟨same_position word, fun same => by rw [same]⟩
    rw [decide_eq_decide.mpr same]
    rfl
  · have other : c ≠ b := fun same => word (by rw [same])
    rw [if_neg word, decide_eq_true other, Bool.and_true]

theorem flag_raise (inside : b / n < words.length) :
    flag (words.set (b / n) (raised (words.word (b / n)) (b % n))) c = (words.flag c || decide (c = b)) := by
  rw [flag_set _ inside]
  by_cases word : c / n = b / n
  · rw [if_pos word, raised_getLsbD _ (Nat.mod_lt b positive), ← word]
    have same : c % n = b % n ↔ c = b := ⟨same_position word, fun same => by rw [same]⟩
    rw [decide_eq_decide.mpr same]
    rfl
  · have other : c ≠ b := fun same => word (by rw [same])
    rw [if_neg word, decide_eq_false other, Bool.or_false]

theorem flag_at {bit : Nat} (inside : bit < n) : words.flag (w * n + bit) = (words.word w).getLsbD bit := by
  unfold flag
  rw [mul_comm, Nat.mul_add_div positive, Nat.div_eq_of_lt inside, add_zero, Nat.mul_add_mod, Nat.mod_eq_of_lt inside]

theorem flag_ones {count : Nat} (inside : b < count * n) : flag (ones n count) b = true := by
  have below : b / n < count := (Nat.div_lt_iff_lt_mul positive).mpr inside
  unfold flag word ones
  rw [List.getD_eq_getElem?_getD, List.getElem?_replicate_of_lt below, Option.getD_some, getLsbD_allOnes]
  exact decide_eq_true (Nat.mod_lt b positive)

end Positions

end Bitmap
