import Mathlib.Data.List.Basic

namespace Retry

open List

variable {α : Type*}

def delivered (log : List (α × Bool)) : List α := (log.filter (·.2)).map (·.1)

theorem delivered_append (log log' : List (α × Bool)) : delivered (log ++ log') = delivered log ++ delivered log' := by
  unfold delivered
  rw [filter_append, map_append]

def Follows (items : List α) (log : List (α × Bool)) : Prop :=
  ∀ i attempt, log[i]? = some attempt → items[(delivered (log.take i)).length]? = some attempt.1

theorem follows_nil (items : List α) : Follows items [] := by
  intro i attempt at_i
  cases at_i

variable {log : List (α × Bool)} {item : α} {i : Nat} {items : List α}

theorem Follows.grow (follows : Follows items log) (more : List α) : Follows (items ++ more) log := by
  intro i attempt at_i
  have found := follows i attempt at_i
  rw [getElem?_append_left (List.getElem?_eq_some_iff.mp found).1]
  exact found

theorem Follows.attempt {rest : List α} (follows : Follows items log) (ok : Bool)
    (next : items = delivered log ++ item :: rest) : Follows items (log ++ [(item, ok)]) := by
  intro i attempt at_i
  by_cases earlier : i < log.length
  · rw [getElem?_append_left earlier] at at_i
    rw [take_append_of_le_length (Nat.le_of_lt earlier)]
    exact follows i attempt at_i
  · rw [getElem?_append_right (Nat.le_of_not_lt earlier)] at at_i
    have last : i = log.length := by
      have bound := (List.getElem?_eq_some_iff.mp at_i).1
      rw [length_singleton] at bound
      omega
    subst last
    rw [Nat.sub_self] at at_i
    cases at_i
    rw [take_left, next, getElem?_append_right (Nat.le_refl _), Nat.sub_self]
    rfl

/-- The attempts go through the items in order: none goes back, and none stays where one has succeeded. -/
def InOrder (items : List α) (log : List (α × Bool)) : Prop :=
  ∃ position : Nat → Nat, (∀ i attempt, log[i]? = some attempt → items[position i]? = some attempt.1) ∧
    ∀ i j attempt, i < j → j < log.length → log[i]? = some attempt →
      position i ≤ position j ∧ (attempt.2 = true → position i < position j)

theorem delivered_take_le (log : List (α × Bool)) {j : Nat} (le : i ≤ j) :
    (delivered (log.take i)).length ≤ (delivered (log.take j)).length := by
  have split := delivered_append (log.take i) ((log.take j).drop i)
  have same : (log.take j).take i = log.take i := by rw [take_take, Nat.min_eq_left le]
  rw [← same, take_append_drop] at split
  rw [split, same, length_append]
  exact Nat.le_add_right _ _

theorem delivered_take_succ (at_i : log[i]? = some (item, true)) :
    (delivered (log.take (i + 1))).length = (delivered (log.take i)).length + 1 := by
  rw [take_add_one, at_i, delivered_append, length_append]
  rfl

theorem Follows.inOrder (follows : Follows items log) : InOrder items log := by
  apply Exists.intro fun i => (delivered (log.take i)).length
  apply And.intro follows
  intro i j attempt earlier _ at_i
  apply And.intro (delivered_take_le log (Nat.le_of_lt earlier))
  intro ok
  obtain ⟨_, _⟩ := attempt
  cases ok
  have later := delivered_take_le log earlier
  rwa [delivered_take_succ at_i] at later

end Retry
