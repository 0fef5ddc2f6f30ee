import Mathlib.Logic.Relation
import Mathlib.Data.Finset.Card
import Mathlib.Data.Fintype.Basic
import Taktora.Lib.Bitmap

namespace Frontier

open Bitmap Finset

variable {n : Nat} {word visited frontier start : BitVec n} {edges : Nat → BitVec n} {fuel i : Nat}

/-- The positions of the set bits, lowest first: `word &&& (word - 1)` drops the lowest one. -/
def lowestFirst : Nat → BitVec n → List Nat
  | 0, _ => []
  | fuel + 1, word => if word = 0#n then [] else word.ctz.toNat :: lowestFirst fuel (word &&& (word - 1#n))

def positions (word : BitVec n) : List Nat := lowestFirst n word

variable (edges)

/-- All that the members of `word` have an edge to. -/
def spread (word : BitVec n) : BitVec n :=
  (positions word).foldl (fun next s => next ||| edges s) 0#n

def search (edges : Nat → BitVec n) : Nat → BitVec n → BitVec n → BitVec n
  | 0, visited, _ => visited
  | fuel + 1, visited, frontier =>
    if frontier = 0#n then visited
    else search edges fuel (visited ||| frontier) (spread edges frontier &&& ~~~(visited ||| frontier))

def reach (start : BitVec n) : BitVec n := search edges n 0#n start

def Edge (s t : Nat) : Prop := (edges s).getLsbD t = true

variable {edges}

theorem below_getLsbD {k : Nat} (inside : k < n) : (BitVec.ofNat n (2 ^ k - 1)).getLsbD i = decide (i < k) := by
  rw [BitVec.getLsbD_ofNat, Nat.testBit_two_pow_sub_one]
  by_cases low : i < k
  · rw [decide_eq_true (low.trans inside), Bool.true_and]
  · rw [decide_eq_false low, Bool.and_false]

theorem disjoint_add {x y : BitVec n} (apart : ∀ i, x.getLsbD i = true → y.getLsbD i = false) : x + y = x ||| y := by
  apply BitVec.add_eq_or_of_and_eq_zero
  apply BitVec.eq_of_getLsbD_eq
  intro i inside
  rw [BitVec.getLsbD_and, BitVec.getLsbD_zero]
  cases set : x.getLsbD i with
  | false => rfl
  | true => rw [apart i set, Bool.true_and]

theorem sub_one_eq (nonzero : word ≠ 0#n) :
    word - 1#n = cleared word word.ctz.toNat ||| BitVec.ofNat n (2 ^ word.ctz.toNat - 1) := by
  have inside := ctz_lt nonzero
  have split : word = cleared word word.ctz.toNat + 1#n <<< word.ctz.toNat := by
    rw [disjoint_add]
    · apply BitVec.eq_of_getLsbD_eq
      intro i below
      rw [BitVec.getLsbD_or, cleared_getLsbD word inside below, mask_getLsbD _ _ inside]
      by_cases same : i = word.ctz.toNat
      · rw [decide_eq_true same, Bool.or_true, same]
        exact BitVec.getLsbD_true_ctz_of_ne_zero nonzero
      · rw [decide_eq_true same, decide_eq_false same, Bool.and_true, Bool.or_false]
    · intro i set
      have below := BitVec.lt_of_getLsbD set
      rw [cleared_getLsbD word inside below, Bool.and_eq_true] at set
      rw [mask_getLsbD _ _ inside]
      exact decide_eq_false (of_decide_eq_true set.2)
  have borrow : 1#n <<< word.ctz.toNat = BitVec.ofNat n (2 ^ word.ctz.toNat - 1) + 1#n := by
    have positive : 0 < 2 ^ word.ctz.toNat := Nat.two_pow_pos _
    apply BitVec.eq_of_toNat_eq
    rw [← BitVec.ofNat_add, Nat.sub_add_cancel positive, BitVec.toNat_shiftLeft, BitVec.toNat_ofNat,
      BitVec.toNat_ofNat, Nat.shiftLeft_eq, Nat.mod_mul_mod, one_mul]
  calc word - 1#n = cleared word word.ctz.toNat + (BitVec.ofNat n (2 ^ word.ctz.toNat - 1) + 1#n) - 1#n := by
        rw [← borrow, ← split]
    _ = cleared word word.ctz.toNat + BitVec.ofNat n (2 ^ word.ctz.toNat - 1) := by
        rw [← add_assoc, BitVec.add_sub_cancel]
    _ = _ := by
        apply disjoint_add
        intro i set
        have below := BitVec.lt_of_getLsbD set
        rw [cleared_getLsbD word inside below, Bool.and_eq_true] at set
        rw [below_getLsbD inside, decide_eq_false]
        intro low
        rw [BitVec.getLsbD_false_of_lt_ctz low] at set
        cases set.1

theorem dropped_getLsbD (nonzero : word ≠ 0#n) :
    (word &&& (word - 1#n)).getLsbD i = true ↔ word.getLsbD i = true ∧ word.ctz.toNat < i := by
  have inside := ctz_lt nonzero
  rw [sub_one_eq nonzero, BitVec.getLsbD_and, BitVec.getLsbD_or, below_getLsbD inside, Bool.and_eq_true]
  constructor
  · intro both
    have below := BitVec.lt_of_getLsbD both.1
    have high : ¬ i < word.ctz.toNat := by
      intro low
      rw [BitVec.getLsbD_false_of_lt_ctz low] at both
      cases both.1
    rw [decide_eq_false high, Bool.or_false, cleared_getLsbD word inside below, Bool.and_eq_true] at both
    have other := of_decide_eq_true both.2.2
    exact ⟨both.1, by omega⟩
  · intro both
    have below := BitVec.lt_of_getLsbD both.1
    have other : i ≠ word.ctz.toNat := by omega
    rw [cleared_getLsbD word inside below, both.1, decide_eq_true other]
    exact ⟨rfl, rfl⟩

theorem mem_lowestFirst {low : Nat}
    (clear : ∀ i, word.getLsbD i = true → low ≤ i)
    (enough : n ≤ fuel + low) :
    i ∈ lowestFirst fuel word ↔ word.getLsbD i = true := by
  induction fuel generalizing word low with
  | zero =>
    constructor
    · intro member
      cases member
    · intro set
      have below := BitVec.lt_of_getLsbD set
      have above := clear i set
      omega
  | succ fuel ih =>
    unfold lowestFirst
    by_cases zero : word = 0#n
    · rw [zero]
      simp
    · have lowest := BitVec.getLsbD_true_ctz_of_ne_zero zero
      have above := clear _ lowest
      have rest : ∀ j, (word &&& (word - 1#n)).getLsbD j = true → word.ctz.toNat + 1 ≤ j :=
        fun j set => ((dropped_getLsbD zero).mp set).2
      rw [if_neg zero, List.mem_cons, ih rest (by omega), dropped_getLsbD zero]
      constructor
      · rintro (rfl | both)
        · exact lowest
        · exact both.1
      · intro set
        by_cases same : i = word.ctz.toNat
        · exact Or.inl same
        · apply Or.inr
          refine ⟨set, ?_⟩
          by_contra _
          rw [BitVec.getLsbD_false_of_lt_ctz (by omega)] at set
          cases set

theorem mem_positions : i ∈ positions word ↔ word.getLsbD i = true :=
  mem_lowestFirst (fun i _ => Nat.zero_le i) (Nat.le_add_right n 0)

theorem foldl_or_getLsbD {sources : List Nat} {seen : BitVec n} :
    (sources.foldl (fun next s => next ||| edges s) seen).getLsbD i = true ↔
      seen.getLsbD i = true ∨ ∃ s ∈ sources, Edge edges s i := by
  induction sources generalizing seen with
  | nil => simp
  | cons s sources ih =>
    rw [List.foldl_cons, ih, BitVec.getLsbD_or, Bool.or_eq_true, List.exists_mem_cons_iff, or_assoc]
    rfl

theorem mem_spread : (spread edges word).getLsbD i = true ↔ ∃ s, word.getLsbD s = true ∧ Edge edges s i := by
  unfold spread
  rw [foldl_or_getLsbD, BitVec.getLsbD_zero]
  simp only [Bool.false_eq_true, false_or, mem_positions]

section Sound

variable {P : Nat → Prop} (closed : ∀ s t, P s → Edge edges s t → P t)
include closed

theorem search_sound
    (before : ∀ i, visited.getLsbD i = true → P i)
    (new : ∀ i, frontier.getLsbD i = true → P i)
    (found : (search edges fuel visited frontier).getLsbD i = true) : P i := by
  induction fuel generalizing visited frontier with
  | zero => exact before i found
  | succ fuel ih =>
    unfold search at found
    split at found
    · exact before i found
    · apply ih _ _ found
      · intro j set
        rw [BitVec.getLsbD_or, Bool.or_eq_true] at set
        exact set.elim (before j) (new j)
      · intro j set
        rw [BitVec.getLsbD_and, Bool.and_eq_true] at set
        obtain ⟨s, member, edge⟩ := mem_spread.mp set.1
        exact closed s j (new s member) edge

end Sound

def members (word : BitVec n) : Finset (Fin n) := Finset.univ.filter fun i => word.getLsbD i = true

theorem members_grow
    (apart : ∀ i, frontier.getLsbD i = true → visited.getLsbD i = false)
    (nonzero : frontier ≠ 0#n) :
    (members visited).card < (members (visited ||| frontier)).card := by
  have inside := ctz_lt nonzero
  have lowest := BitVec.getLsbD_true_ctz_of_ne_zero nonzero
  apply card_lt_card
  rw [ssubset_iff_of_subset]
  · refine ⟨⟨frontier.ctz.toNat, inside⟩, ?_, ?_⟩
    · simp [members, lowest]
    · simp only [members, mem_filter, apart _ lowest]
      simp
  · intro j member
    simp only [members, mem_filter, BitVec.getLsbD_or, Bool.or_eq_true] at member ⊢
    exact ⟨member.1, Or.inl member.2⟩

theorem eq_zero_of_full (apart : ∀ i, frontier.getLsbD i = true → visited.getLsbD i = false)
    (full : n ≤ (members visited).card) : frontier = 0#n := by
  by_contra nonzero
  have grown := members_grow apart nonzero
  have bound := card_le_univ (members (visited ||| frontier))
  rw [Fintype.card_fin] at bound
  omega

/-- One round of the search: what is new is visited, and what it leads to is the next frontier. -/
def round (edges : Nat → BitVec n) (state : BitVec n × BitVec n) : BitVec n × BitVec n :=
  (state.1 ||| state.2, spread edges state.2 &&& ~~~(state.1 ||| state.2))

theorem round_apart (state : BitVec n × BitVec n) (i : Nat) (set : (round edges state).2.getLsbD i = true) :
    (round edges state).1.getLsbD i = false := by
  simp only [round, BitVec.getLsbD_and, BitVec.getLsbD_not, Bool.and_eq_true, Bool.not_eq_true'] at set
  exact set.2.2

theorem search_complete (edges : Nat → BitVec n) (fuel : Nat) (visited frontier : BitVec n)
    (apart : ∀ i, frontier.getLsbD i = true → visited.getLsbD i = false)
    (leaving : ∀ s t, visited.getLsbD s = true → Edge edges s t → visited.getLsbD t = true ∨
      frontier.getLsbD t = true)
    (enough : n ≤ fuel + (members visited).card) :
    (∀ i, visited.getLsbD i = true ∨ frontier.getLsbD i = true →
      (search edges fuel visited frontier).getLsbD i = true) ∧
      ∀ s t, (search edges fuel visited frontier).getLsbD s = true → Edge edges s t →
      (search edges fuel visited frontier).getLsbD t = true := by
  induction fuel generalizing visited frontier with
  | zero =>
    have empty := eq_zero_of_full apart (by omega)
    subst empty
    simp only [BitVec.getLsbD_zero, Bool.false_eq_true, or_false] at leaving ⊢
    exact ⟨fun i set => set, leaving⟩
  | succ fuel ih =>
    unfold search
    by_cases empty : frontier = 0#n
    · subst empty
      simp only [BitVec.getLsbD_zero, Bool.false_eq_true, or_false, if_true] at leaving ⊢
      exact ⟨fun i set => set, leaving⟩
    · rw [if_neg empty]
      have grown := members_grow apart empty
      have next : ∀ s t, (visited ||| frontier).getLsbD s = true → Edge edges s t →
          (visited ||| frontier).getLsbD t = true ∨
            (spread edges frontier &&& ~~~(visited ||| frontier)).getLsbD t = true := by
        intro s t member edge
        by_cases seen : (visited ||| frontier).getLsbD t = true
        · exact Or.inl seen
        · apply Or.inr
          have below := BitVec.lt_of_getLsbD edge
          rw [BitVec.getLsbD_or, Bool.or_eq_true] at member
          rw [BitVec.getLsbD_and, BitVec.getLsbD_not, Bool.eq_false_iff.mpr seen, decide_eq_true below, Bool.not_false,
            Bool.and_true, Bool.and_true, mem_spread]
          rcases member with old | new
          · rw [BitVec.getLsbD_or, Bool.or_eq_true] at seen
            exact absurd (leaving s t old edge) seen
          · exact ⟨s, new, edge⟩
      obtain ⟨contains, closed⟩ := ih (visited ||| frontier) _ (round_apart (visited, frontier)) next (by omega)
      refine ⟨?_, closed⟩
      intro i set
      apply contains i
      rw [BitVec.getLsbD_or, Bool.or_eq_true]
      exact Or.inl set

theorem reach_iff : (reach edges start).getLsbD i = true ↔
    ∃ s, start.getLsbD s = true ∧ Relation.ReflTransGen (Edge edges) s i := by
  constructor
  · intro found
    apply search_sound _ _ _ found
    · rintro s t ⟨source, member, path⟩ edge
      exact ⟨source, member, path.tail edge⟩
    · intro j set
      rw [BitVec.getLsbD_zero] at set
      cases set
    · intro j set
      exact ⟨j, set, .refl⟩
  · rintro ⟨s, member, path⟩
    obtain ⟨contains, closed⟩ := search_complete edges n 0#n start (fun i _ => BitVec.getLsbD_zero) (fun s t set =>
        absurd set (by rw [BitVec.getLsbD_zero]; exact Bool.false_ne_true)) (Nat.le_add_right _ _)
    induction path with
    | refl => exact contains s (Or.inr member)
    | tail path edge ih => exact closed _ _ ih edge

end Frontier
