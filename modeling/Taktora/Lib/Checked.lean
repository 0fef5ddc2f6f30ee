import Mathlib.Data.Vector.Basic

universe u

namespace Checked

open List

inductive Panic where
  | outOfBounds
  | overflow
  | divideByZero
  | unwrap
  | assertion
deriving DecidableEq, Repr

def index {α : Type u} (xs : List α) (i : Nat) : Except Panic α :=
  match xs[i]? with
  | some x => .ok x
  | none => .error .outOfBounds

def slice {α : Type u} (xs : List α) (start stop : Nat) : Except Panic (List α) :=
  if start ≤ stop ∧ stop ≤ xs.length then .ok ((xs.drop start).take (stop - start))
  else .error .outOfBounds

/-- `dst[start..stop].copy_from_slice(src)`: the range has to lie inside `dst` and to be as long as `src`. -/
def copyFromSlice {α : Type u} (dst : List α) (start stop : Nat) (src : List α) : Except Panic (List α) :=
  if start ≤ stop ∧ stop ≤ dst.length ∧ src.length = stop - start then
    .ok (dst.take start ++ src ++ dst.drop stop)
  else .error .outOfBounds

def sub (a b : Nat) : Except Panic Nat :=
  if b ≤ a then .ok (a - b) else .error .overflow

def add (width a b : Nat) : Except Panic Nat :=
  if a + b < 2 ^ width then .ok (a + b) else .error .overflow

def div (a b : Nat) : Except Panic Nat :=
  if b = 0 then .error .divideByZero else .ok (a / b)

def expect {α : Type u} : Option α → Except Panic α
  | some x => .ok x
  | none => .error .unwrap

/-- A build with checks, or one where sums wrap around and debug assertions are left out. -/
inductive Build where
  | debug
  | release
deriving DecidableEq, Repr

def Build.debugAssert : Build → Bool → Except Panic Unit
  | .debug, holds => if holds then .ok () else .error .assertion
  | .release, _ => .ok ()

variable {ε α β : Type u} {x : Option α} {b a stop n c : Nat} {xs src : List α} {start width : Nat}

theorem bind_ok {x : Except ε α} {f : α → Except ε β} {b : β}
    (h : (x >>= f) = .ok b) : ∃ a, x = .ok a ∧ f a = .ok b := by
  cases x with
  | error p => cases h
  | ok a => exact ⟨a, rfl, h⟩

theorem bind_error {x : Except ε α} {f : α → Except ε β} {e : ε} (failed : (x >>= f) = .error e) :
    x = .error e ∨ ∃ a, x = .ok a ∧ f a = .error e := by
  cases x with
  | error e =>
    cases failed
    exact Or.inl rfl
  | ok a => exact Or.inr ⟨a, rfl, failed⟩

theorem bind_ne_error {x : Except ε α} {f : α → Except ε β} {e : ε} (first : x ≠ .error e)
    (rest : ∀ a, x = .ok a → f a ≠ .error e) : (x >>= f) ≠ .error e := by
  intro failed
  rcases bind_error failed with here | ⟨a, done, later⟩
  · exact first here
  · exact rest a done later

theorem ok_of_toOption {x : Except ε α} {a : α} (h : x.toOption = some a) : x = .ok a := by
  cases x with
  | error p => cases h
  | ok b => cases h; rfl

@[simp] theorem ok_bind (a : α) (f : α → Except Panic β) : ((Except.ok a : Except Panic α) >>= f) = f a := rfl

@[simp] theorem error_bind (p : Panic) (f : α → Except Panic β) :
    ((Except.error p : Except Panic α) >>= f) = .error p := rfl

theorem index_zero (x : α) (xs : List α) : index (x :: xs) 0 = .ok x := rfl

theorem slice_ok
    (order : start ≤ stop)
    (bound : stop ≤ xs.length) :
    slice xs start stop = .ok ((xs.drop start).take (stop - start)) := by
  simp [slice, order, bound]

theorem copyFromSlice_ok {dst : List α}
    (order : start ≤ stop)
    (bound : stop ≤ dst.length)
    (fits : src.length = stop - start) :
    copyFromSlice dst start stop src = .ok (dst.take start ++ src ++ dst.drop stop) := by
  simp [copyFromSlice, order, bound, fits]

section

variable {α : Type u} {dst src result : List α}

variable {stop n : Nat} {start : Nat}

variable (h : copyFromSlice dst start stop src = .ok result)
include h

theorem copyFromSlice_eq_ok :
    (start ≤ stop ∧ stop ≤ dst.length ∧ src.length = stop - start) ∧
      result = dst.take start ++ src ++ dst.drop stop := by
  unfold copyFromSlice at h
  split at h
  · rename_i valid
    cases h
    exact ⟨valid, rfl⟩
  · cases h

theorem copyFromSlice_length : result.length = dst.length := by
  obtain ⟨_, rfl⟩ := copyFromSlice_eq_ok h
  simp only [length_append, length_take, length_drop]
  omega

theorem copyFromSlice_drop (after : stop ≤ n) : result.drop n = dst.drop n := by
  obtain ⟨_, rfl⟩ := copyFromSlice_eq_ok h
  have length : (dst.take start ++ src).length = stop := by
    simp only [length_append, length_take]
    omega
  have past : (dst.take start ++ src).drop n = [] := drop_of_length_le (by omega)
  rw [drop_append, past, length, drop_drop, nil_append, Nat.add_sub_cancel' after]

theorem copyFromSlice_take (after : stop ≤ n) :
    result.take n = dst.take start ++ src ++ (dst.drop stop).take (n - stop) := by
  obtain ⟨_, rfl⟩ := copyFromSlice_eq_ok h
  have length : (dst.take start ++ src).length = stop := by
    simp only [length_append, length_take]
    omega
  have split : n = (dst.take start ++ src).length + (n - stop) := by omega
  rw [split, take_length_add_append, length, Nat.add_sub_cancel_left]

end

def copyIntoArray {α : Type u} {n : Nat} (dst : List.Vector α n) (start stop : Nat) (src : List α) :
    Except Panic (List.Vector α n) :=
  match h : copyFromSlice dst.1 start stop src with
  | .ok result => .ok ⟨result, (copyFromSlice_length h).trans dst.2⟩
  | .error p => .error p

theorem copyIntoArray_ok {dst : List.Vector α n} (result : List.Vector α n)
    (h : copyFromSlice dst.1 start stop src = .ok result.1) : copyIntoArray dst start stop src = .ok result := by
  unfold copyIntoArray
  split
  · rename_i found
    rw [h] at found
    cases found
    rfl
  · rename_i found
    rw [h] at found
    cases found

theorem sub_ok (order : b ≤ a) : sub a b = .ok (a - b) := by
  simp [sub, order]

theorem sub_error (order : a < b) : sub a b = .error .overflow := by
  simp [sub, not_le.mpr order]

theorem add_ok (bound : a + b < 2 ^ width) : add width a b = .ok (a + b) := by
  simp only [add, bound, ite_true]

theorem div_ok (nonzero : b ≠ 0) : div a b = .ok (a / b) := by
  simp only [div, nonzero, ite_false]

theorem expect_ok {a : α} (present : x = some a) : expect x = .ok a := by
  rw [present]
  rfl

theorem expect_eq_ok {a : α} (h : expect x = .ok a) : x = some a := by
  cases x with
  | none => cases h
  | some b => cases h; rfl

theorem sub_eq_ok (h : sub a b = .ok c) : b ≤ a ∧ c = a - b := by
  unfold sub at h
  split at h
  · rename_i order
    cases h
    exact ⟨order, rfl⟩
  · cases h

theorem add_eq_ok (h : add width a b = .ok c) : a + b < 2 ^ width ∧ c = a + b := by
  unfold add at h
  split at h
  · rename_i bound
    cases h
    exact ⟨bound, rfl⟩
  · cases h

theorem index_ok {i : Nat} (bound : i < xs.length) (d : α) : index xs i = .ok (xs.getD i d) := by
  rw [index, getD_eq_getElem?_getD, getElem?_eq_getElem bound]
  rfl

def forRange {α : Type u} (body : α → Nat → Except Panic α) : Nat → α → Except Panic α
  | 0, a => .ok a
  | n + 1, a => do
    let a ← forRange body n a
    body a n

theorem forRange_ok {body : α → Nat → Except Panic α} {I : Nat → α → Prop} {a : α} (start : I 0 a)
    (round : ∀ i < n, ∀ a, I i a → ∃ a', body a i = .ok a' ∧ I (i + 1) a') :
    ∃ a', forRange body n a = .ok a' ∧ I n a' := by
  induction n with
  | zero => exact ⟨a, rfl, start⟩
  | succ n ih =>
    obtain ⟨before, looped, invariant⟩ := ih fun i below => round i (Nat.lt_succ_of_lt below)
    obtain ⟨after, done, invariant⟩ := round n (Nat.lt_succ_self n) before invariant
    refine ⟨after, ?_, invariant⟩
    rw [forRange, looped]
    exact done

theorem Build.debugAssert_true {build : Build} {holds : Bool}
    (here : holds = true) : build.debugAssert holds = .ok () := by
  cases build with
  | debug => exact if_pos here
  | release => rfl

end Checked
