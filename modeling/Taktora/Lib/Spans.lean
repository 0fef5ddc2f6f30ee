import Mathlib.Algebra.GroupWithZero.Nat
import Mathlib.Data.List.Induction

universe u

namespace Spans

open List

variable {α : Type u} {width width' : α → Nat} {xs : List α}

/-- The items one after the other from `start` on, each with the place where it begins. -/
def place (width : α → Nat) : Nat → List α → List (α × Nat)
  | _, [] => []
  | start, x :: xs => (x, start) :: place width (start + width x) xs

def total (width : α → Nat) (xs : List α) : Nat := (xs.map width).sum

theorem total_cons (x : α) (xs : List α) : total width (x :: xs) = width x + total width xs := sum_cons

theorem total_append (xs ys : List α) : total width (xs ++ ys) = total width xs + total width ys := by
  rw [total, map_append, sum_append]
  rfl

variable (start : Nat)

theorem place_append (xs ys : List α) :
    place width start (xs ++ ys) = place width start xs ++ place width (start + total width xs) ys := by
  induction xs generalizing start with
  | nil => rfl
  | cons x xs ih => rw [cons_append, place, ih, place, total_cons, add_assoc, cons_append]

theorem place_eq (xs : List α) :
    place width start xs = xs.zipIdx.map fun (x, k) => (x, start + total width (xs.take k)) := by
  induction xs using reverseRecOn with
  | nil => rfl
  | append_singleton xs x ih =>
    rw [place_append, ih, zipIdx_append, map_append]
    congr 1
    · apply map_congr_left
      intro (y, k) member
      have inside := (mem_zipIdx member).2.1
      simp only [Prod.mk.injEq, true_and]
      rw [take_append_of_le_length (by omega)]
    · simp [place]

theorem place_map_fst (xs : List α) : (place width start xs).map Prod.fst = xs := by
  induction xs generalizing start with
  | nil => rfl
  | cons x xs ih => rw [place, map_cons, ih]

theorem place_congr {start : Nat} (same : ∀ x ∈ xs, width x = width' x) :
    place width start xs = place width' start xs := by
  induction xs generalizing start with
  | nil => rfl
  | cons x xs ih =>
    rw [forall_mem_cons] at same
    rw [place, place, same.1, ih same.2]

theorem total_congr (same : ∀ x ∈ xs, width x = width' x) : total width xs = total width' xs :=
  congrArg sum (map_congr_left same)

theorem start_le_of_mem_place {start : Nat} : ∀ item ∈ place width start xs, start ≤ item.2 := by
  induction xs generalizing start with
  | nil => exact forall_mem_nil _
  | cons x xs ih =>
    refine forall_mem_cons.mpr ⟨Nat.le_refl start, ?_⟩
    intro item member
    exact Nat.le_trans (Nat.le_add_right start (width x)) (ih item member)

theorem place_pairwise (xs : List α) :
    (place width start xs).Pairwise fun item later => item.2 + width item.1 ≤ later.2 := by
  induction xs generalizing start with
  | nil => exact .nil
  | cons x xs ih => exact .cons start_le_of_mem_place (ih _)

end Spans
