import Mathlib.Data.List.Sort

namespace Rank

open List

variable {α β : Type*} [LinearOrder α] [LinearOrder β] {f : α → β} {xs : List α} {b : β} {x : α} {rank : Nat}

/-- The value of a rank, counted from one, in increasing order. -/
def orderStatistic (xs : List α) (rank : Nat) : Option α := (xs.insertionSort (· ≤ ·))[rank - 1]?

theorem exists_orderStatistic
    (positive : 1 ≤ rank)
    (bound : rank ≤ xs.length) : ∃ x, orderStatistic xs rank = some x := by
  refine ⟨_, getElem?_eq_getElem ?_⟩
  rw [length_insertionSort]
  omega

theorem mem_of_orderStatistic (found : orderStatistic xs rank = some x) : x ∈ xs :=
  (mem_insertionSort _).mp (mem_of_getElem? found)

theorem sorted_countP
    (monotone : Monotone f)
    (sorted : xs.Pairwise (· ≤ ·))
    {i : Nat}
    (here : xs[i]? = some x) :
    i < xs.countP (fun y => f y ≤ b) ↔ f x ≤ b := by
  induction xs generalizing i with
  | nil => cases here
  | cons y ys ih =>
    obtain ⟨least, sorted⟩ := pairwise_cons.mp sorted
    by_cases within : f y ≤ b
    · rw [countP_cons_of_pos (by simpa using within)]
      cases i with
      | zero =>
        cases here
        simp [within]
      | succ i =>
        rw [Nat.succ_lt_succ_iff]
        exact ih sorted here
    · have none : ys.countP (fun z => f z ≤ b) = 0 := by
        rw [countP_eq_zero]
        intro z member met
        exact within ((monotone (least z member)).trans (of_decide_eq_true met))
      rw [countP_cons_of_neg (by simpa using within), none]
      have member : x = y ∨ x ∈ ys := mem_cons.mp (mem_of_getElem? here)
      have above : ¬f x ≤ b := by
        rcases member with same | member
        · rwa [same]
        · exact fun met => within ((monotone (least x member)).trans met)
      simp [above]

theorem le_countP_iff
    (monotone : Monotone f)
    (positive : 1 ≤ rank)
    (found : orderStatistic xs rank = some x)
    (b : β) :
    rank ≤ xs.countP (fun y => f y ≤ b) ↔ f x ≤ b := by
  rw [← (perm_insertionSort (· ≤ ·) xs).countP_eq, ← sorted_countP monotone (pairwise_insertionSort _ _) found]
  omega

end Rank
