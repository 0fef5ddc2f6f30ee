import Mathlib.Data.List.Perm.Basic
import Mathlib.Data.List.Sort

universe u v w

namespace Sorting

open List

variable {α : Type u} {κ : Type v} {γ : Type w} [LinearOrder κ] {R : α → α → Prop} {xs ys : List α} {key : α → κ}

def sortBy (key : α → κ) (xs : List α) : List α := xs.insertionSort fun a b => key a ≤ key b

def UpToOrder (R : α → α → Prop) (xs ys : List α) : Prop := ∃ zs, List.Forall₂ R xs zs ∧ zs.Perm ys

theorem sortBy_perm (key : α → κ) (xs : List α) : (sortBy key xs).Perm xs := perm_insertionSort _ xs

theorem mem_sortBy {x : α} : x ∈ sortBy key xs ↔ x ∈ xs := (sortBy_perm key xs).mem_iff

theorem sortBy_pairwise (key : α → κ) (xs : List α) : (sortBy key xs).Pairwise fun a b => key a ≤ key b := by
  exact pairwise_insertionSort _ xs

theorem map_sortBy (key : γ → κ) (f : α → γ) (xs : List α) :
    (sortBy (fun a => key (f a)) xs).map f = sortBy key (xs.map f) :=
  map_insertionSort _ _ f xs fun _ _ _ _ => Iff.rfl

theorem sortBy_eq_of_perm
    (perm : xs.Perm ys)
    (distinct : ∀ a ∈ xs, ∀ b ∈ xs, key a = key b → a = b) : sortBy key xs = sortBy key ys := by
  apply List.Perm.eq_of_pairwise ?_ (sortBy_pairwise key xs) (sortBy_pairwise key ys)
  · exact (sortBy_perm key xs).trans (perm.trans (sortBy_perm key ys).symm)
  · intro a b among among' below above
    exact distinct a (mem_sortBy.mp among) b (perm.mem_iff.mpr (mem_sortBy.mp among')) (le_antisymm below above)

theorem upToOrder_of_sortBy (related : List.Forall₂ R (sortBy key xs) (sortBy key ys)) : UpToOrder R xs ys := by
  obtain ⟨zs, related, perm⟩ := perm_comp_forall₂ (sortBy_perm key xs).symm related
  exact ⟨zs, related, perm.trans (sortBy_perm key ys)⟩

theorem UpToOrder.map_sortBy_eq {text : α → γ}
    (order : UpToOrder R xs ys)
    (same : ∀ a ∈ xs, ∀ b ∈ ys, R a b → key a = key b ∧ text a = text b)
    (distinct : (xs.map key).Nodup) :
    (sortBy key xs).map text = (sortBy key ys).map text := by
  obtain ⟨zs, related, perm⟩ := order
  have pairs : xs.map (fun a => (key a, text a)) = zs.map (fun a => (key a, text a)) := by
    have same' : ∀ a ∈ xs, ∀ b ∈ zs, R a b → key a = key b ∧ text a = text b :=
      fun a among b among' => same a among b (perm.mem_iff.mp among')
    clear same perm distinct
    induction related with
    | nil => rfl
    | cons first rest ih =>
      obtain ⟨key', text'⟩ := same' _ mem_cons_self _ mem_cons_self first
      rw [map_cons, map_cons, key', text', ih fun a among b among' =>
        same' a (mem_cons_of_mem _ among) b (mem_cons_of_mem _ among')]
  have keyed : sortBy Prod.fst (xs.map fun a => (key a, text a)) =
      sortBy Prod.fst (ys.map fun a => (key a, text a)) := by
    apply sortBy_eq_of_perm (pairs ▸ perm.map _)
    intro pair first pair' second same
    obtain ⟨a, among, here⟩ := mem_map.mp first
    obtain ⟨b, among', here'⟩ := mem_map.mp second
    rw [← here, ← here'] at same ⊢
    rw [inj_on_of_nodup_map distinct among among' same]
  rw [← map_sortBy, ← map_sortBy] at keyed
  have texts := congrArg (map Prod.snd) keyed
  rw [map_map, map_map] at texts
  exact texts

end Sorting
