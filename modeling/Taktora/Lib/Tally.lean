import Mathlib.Algebra.GroupWithZero.Nat
import Mathlib.Algebra.BigOperators.Group.Finset.Basic
import Mathlib.Algebra.Order.BigOperators.Group.Finset

namespace Tally

open List Function

variable {n : Nat} {f : Nat → Nat} {xs : List Nat}

section

variable (distinct : xs.Nodup) (below : ∀ x ∈ xs, x < n)
include distinct below

theorem sum_le_range : (xs.map f).sum ≤ ∑ x ∈ Finset.range n, f x := by
  rw [← sum_toFinset f distinct]
  apply Finset.sum_le_sum_of_subset
  intro x member
  rw [Finset.mem_range]
  exact below x (mem_toFinset.mp member)

theorem mem_of_sum_range_le
    (whole : ∑ x ∈ Finset.range n, f x ≤ (xs.map f).sum)
    {y : Nat}
    (inside : y < n)
    (counts : 0 < f y) : y ∈ xs := by
  by_contra missing
  have more := sum_le_range (f := f) (nodup_cons.mpr ⟨missing, distinct⟩) (forall_mem_cons.mpr ⟨inside, below⟩)
  rw [map_cons, sum_cons] at more
  omega

theorem length_le_range : xs.length ≤ n := by
  have bound := sum_le_range (f := fun _ => 1) distinct below
  simpa using bound

theorem missing_add_length : (List.range n).countP (fun x => x ∉ xs) + xs.length = n := by
  have inside : ((range n).filter fun x => x ∈ xs).Perm xs := by
    rw [perm_ext_iff_of_nodup (nodup_range.filter _) distinct]
    intro x
    rw [mem_filter, mem_range, decide_eq_true_eq]
    exact and_iff_right_of_imp (below x)
  have whole := length_eq_countP_add_countP (l := range n) fun x => decide (x ∈ xs)
  rw [length_range, countP_eq_length_filter, inside.length_eq] at whole
  simp only [decide_eq_true_eq] at whole
  omega

theorem mem_of_length_ge (all : n ≤ xs.length) {y : Nat} (inside : y < n) : y ∈ xs := by
  by_contra missing
  have more := length_le_range (nodup_cons.mpr ⟨missing, distinct⟩) (forall_mem_cons.mpr ⟨inside, below⟩)
  rw [length_cons] at more
  omega

end

theorem sum_update {ι α : Type} [Fintype ι] [DecidableEq ι]
    (f : ι → α → Nat)
    (g : ι → α)
    (i : ι)
    (value : α) :
    (∑ j, f j (update g i value j)) + f i (g i) = (∑ j, f j (g j)) + f i value := by
  have rest : ∑ j ∈ Finset.univ.erase i, f j (update g i value j) = ∑ j ∈ Finset.univ.erase i, f j (g j) := by
    apply Finset.sum_congr rfl
    intro j other
    rw [update_of_ne (Finset.ne_of_mem_erase other)]
  have before := Finset.add_sum_erase Finset.univ (fun j => f j (g j)) (Finset.mem_univ i)
  have after := Finset.add_sum_erase Finset.univ (fun j => f j (update g i value j)) (Finset.mem_univ i)
  rw [update_self] at after
  omega

end Tally
