import Mathlib.Algebra.GroupWithZero.Nat
import Mathlib.Data.List.Induction
import Mathlib.Tactic.Ring

/-- A ring of segments, split at the one that is being filled. Those after it are older than those before it. -/
structure Ageing (α : Type*) where
  before : List (List α)
  current : List α
  after : List (List α)

namespace Ageing

open List

variable {α : Type*} {w : Ageing α} {xs : List α} {x : α} {segments capacity : Nat}

def empty (segments : Nat) : Ageing α := ⟨[], [], List.replicate (segments - 1) []⟩

variable (w)

def parts : List (List α) := w.before ++ w.current :: w.after

def contents : List α := w.after.flatten ++ (w.before.flatten ++ w.current)

def advance : Ageing α → Ageing α
  | ⟨before, current, _ :: after⟩ => ⟨before ++ [current], [], after⟩
  | ⟨before, current, []⟩ => ⟨[], [], (before ++ [current]).tail⟩

def append (x : α) : Ageing α := { w with current := w.current ++ [x] }

def push (capacity : Nat) (w : Ageing α) (x : α) : Ageing α :=
  (if capacity ≤ w.current.length then w.advance else w).append x

theorem parts_perm : w.parts.flatten.Perm w.contents := by
  rw [parts, flatten_append, flatten_cons, ← append_assoc]
  exact perm_append_comm

theorem append_contents (x : α) : (w.append x).contents = w.contents ++ [x] := by
  simp only [append, contents, append_assoc]

theorem advance_current : w.advance.current = [] := by
  rcases w with ⟨_, _, _ | ⟨_, _⟩⟩ <;> rfl

theorem advance_contents : w.advance.contents <:+ w.contents := by
  rcases w with ⟨before, current, _ | ⟨oldest, _⟩⟩
  · have shorter := (tail_suffix (before ++ [current]))
    obtain ⟨lost, same⟩ := shorter
    refine ⟨lost.flatten, ?_⟩
    simp only [advance, contents, flatten_nil, nil_append, append_nil]
    rw [← flatten_append, same, flatten_append, flatten_singleton]
  · exact ⟨oldest, by simp [advance, contents]⟩

def cursor : Nat := w.before.length

theorem parts_cursor : w.parts[w.cursor]? = some w.current := by
  rw [parts, cursor, getElem?_append_right (le_refl _), Nat.sub_self, getElem?_cons_zero]

theorem append_parts (x : α) : (w.append x).parts = w.parts.set w.cursor (w.current ++ [x]) := by
  rw [parts, parts, cursor, set_append_right _ _ (le_refl _), Nat.sub_self]
  rfl

theorem advance_cursor : w.advance.cursor = (w.cursor + 1) % w.parts.length := by
  rcases w with ⟨_, _, _ | ⟨_, _⟩⟩
  · simp [cursor, advance, parts]
  · rw [Nat.mod_eq_of_lt (by simp [cursor, parts])]
    simp [cursor, advance]

theorem advance_parts : w.advance.parts = w.parts.set w.advance.cursor [] := by
  rcases w with ⟨before, _, _ | ⟨_, _⟩⟩
  · cases before with
    | nil | cons => rfl
  · simp [cursor, advance, parts, set_append_right]

theorem advance_length : w.advance.parts.length = w.parts.length := by
  rw [advance_parts, length_set]

variable {w}

/-- The segments in front of the current one are full; those behind are empty, or full in the second round. -/
structure Holds (segments capacity : Nat) (xs : List α) (w : Ageing α) : Prop where
  count : w.before.length + 1 + w.after.length = segments
  kept : w.contents <:+ xs
  before : ∀ part ∈ w.before, part.length = capacity
  current : w.current.length ≤ capacity
  after : (∀ part ∈ w.after, part = []) ∧ w.contents = xs ∨
    (∀ part ∈ w.after, part.length = capacity) ∧ w.current ≠ [] ∧ segments * capacity < xs.length

theorem flatten_length {parts : List (List α)} (full : ∀ part ∈ parts, part.length = capacity) :
    parts.flatten.length = parts.length * capacity := by
  rw [length_flatten, map_congr_left full, map_const', sum_replicate_nat]

namespace Holds

theorem empty_holds (positive : 1 ≤ segments) : Holds segments capacity [] (Ageing.empty segments : Ageing α) := by
  have blank : ∀ part ∈ (empty segments : Ageing α).after, part = [] := fun part member => eq_of_mem_replicate member
  have nothing : (empty segments : Ageing α).contents = [] := by
    simp [empty, contents]
  refine ⟨?_, ⟨[], nothing⟩, nofun, Nat.zero_le _, .inl ⟨blank, nothing⟩⟩
  simp only [empty, length_nil, length_replicate]
  omega

section

variable (holds : Holds segments capacity xs w)
include holds

theorem contents_length (full : ∀ part ∈ w.after, part.length = capacity) :
    w.contents.length + capacity = segments * capacity + w.current.length := by
  rw [← holds.count, contents, length_append, length_append, flatten_length full, flatten_length holds.before]
  ring

theorem append_holds (room : w.current.length < capacity) : Holds segments capacity (xs ++ [x]) (w.append x) := by
  refine ⟨holds.count, ?_, holds.before, ?_, ?_⟩
  · rw [append_contents]
    obtain ⟨lost, same⟩ := holds.kept
    exact ⟨lost, by rw [← same, append_assoc]⟩
  · rw [append, length_append]
    exact room
  · rcases holds.after with ⟨blank, whole⟩ | ⟨full, _, _⟩
    · exact .inl ⟨blank, by rw [append_contents, whole]⟩
    · refine .inr ⟨full, append_ne_nil_of_right_ne_nil _ (cons_ne_nil x []), ?_⟩
      rw [length_append]
      omega

theorem suffix_append : (w.advance.append x).contents <:+ xs ++ [x] := by
  rw [append_contents]
  obtain ⟨lost, same⟩ := w.advance_contents.trans holds.kept
  exact ⟨lost, by rw [← same, append_assoc]⟩

theorem length_of_last
    (last : w.after = [])
    (full : w.current.length = capacity) :
    segments * capacity < (xs ++ [x]).length := by
  have held := holds.contents_length (by simp [last])
  have kept := holds.kept.length_le
  rw [length_append, length_singleton]
  omega

theorem advance_holds
    (positive : 1 ≤ capacity)
    (full : w.current.length = capacity) :
    Holds segments capacity (xs ++ [x]) (w.advance.append x) := by
  have kept := holds.suffix_append (x := x)
  have single : (w.advance.append x).current.length ≤ capacity := by
    rw [append, advance_current]
    exact positive
  have nonempty : (w.advance.append x).current ≠ [] := append_ne_nil_of_right_ne_nil _ (cons_ne_nil x [])
  have long := holds.length_of_last (x := x)
  obtain ⟨count, _, earlier, _, later⟩ := holds
  rcases w with ⟨before, current, _ | ⟨_, _⟩⟩
  · have all : ∀ part ∈ before ++ [current], part.length = capacity :=
      forall_mem_append.mpr ⟨earlier, forall_mem_singleton.mpr full⟩
    refine ⟨?_, kept, nofun, single, .inr ⟨fun part member => all part (mem_of_mem_tail member), nonempty,
      long rfl full⟩⟩
    rw [← count]
    simp [advance, append]
    omega
  · refine ⟨?_, kept, ?_, single, ?_⟩
    · rw [← count]
      simp only [advance, append, length_append, length_cons, length_nil]
      omega
    · exact forall_mem_append.mpr ⟨earlier, forall_mem_singleton.mpr full⟩
    · rcases later with ⟨blank, whole⟩ | ⟨all, _, _⟩
      · obtain ⟨none, blank⟩ := forall_mem_cons.mp blank
        refine .inl ⟨blank, ?_⟩
        rw [append_contents, ← whole]
        simp [advance, contents, none]
      · refine .inr ⟨fun part member => all part (mem_cons_of_mem _ member), nonempty, ?_⟩
        rw [length_append]
        omega

theorem push_holds (positive : 1 ≤ capacity) : Holds segments capacity (xs ++ [x]) (w.push capacity x) := by
  unfold push
  split
  · rename_i full
    exact holds.advance_holds positive (le_antisymm holds.current full)
  · rename_i room
    exact holds.append_holds (not_le.mp room)

end

theorem fill
    (positive : 1 ≤ segments)
    (room : 1 ≤ capacity)
    (xs : List α) :
    Holds segments capacity xs (xs.foldl (push capacity) (Ageing.empty segments)) := by
  induction xs using reverseRecOn with
  | nil => exact empty_holds positive
  | append_singleton xs x ih =>
    rw [foldl_append]
    exact ih.push_holds room

theorem contents_of_short
    (holds : Holds segments capacity xs w)
    (short : xs.length ≤ segments * capacity) : w.contents = xs := by
  rcases holds.after with ⟨_, whole⟩ | ⟨_, _⟩
  · exact whole
  · omega

theorem contents_of_long
    (holds : Holds segments capacity xs w)
    (long : segments * capacity < xs.length) :
    (segments - 1) * capacity < w.contents.length ∧ w.contents.length ≤ segments * capacity := by
  have bound := holds.current
  have count := holds.count
  rcases holds.after with ⟨blank, whole⟩ | ⟨full, nonempty, _⟩
  · have length : w.contents.length = w.before.length * capacity + w.current.length := by
      rw [contents, flatten_eq_nil_iff.mpr blank, nil_append, length_append, flatten_length holds.before]
    have few : (w.before.length + 1) * capacity ≤ segments * capacity := Nat.mul_le_mul_right _ (by omega)
    rw [Nat.add_mul] at few
    rw [whole] at length
    omega
  · have length := holds.contents_length full
    have positive := length_pos_iff.mpr nonempty
    have split : segments * capacity = (segments - 1) * capacity + capacity := by
      rw [← Nat.succ_mul, Nat.succ_eq_add_one, Nat.sub_add_cancel (by omega)]
    omega

end Holds

end Ageing
