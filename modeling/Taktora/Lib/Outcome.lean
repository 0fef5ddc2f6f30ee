import Mathlib.Data.List.Forall2
import Mathlib.Data.List.Nodup
import Taktora.Lib.Checked

universe u v

inductive Abort (ε : Type) where
  | panic (p : Checked.Panic)
  | error (e : ε)
deriving DecidableEq, Repr

abbrev Outcome (ε α : Type) := Except (Abort ε) α

namespace Outcome

variable {ε α : Type} {x : Except ε α} {p : Checked.Panic}

def ofChecked {ε α : Type} (x : Except Checked.Panic α) : Outcome ε α := x.mapError .panic

def ofResult {ε α : Type} (x : Except ε α) : Outcome ε α := x.mapError .error

theorem mapError_eq_ok {ε' : Type} {f : ε → ε'} {a : α} : x.mapError f = .ok a ↔ x = .ok a := by
  cases x with
  | error | ok => simp [Except.mapError]

theorem ofResult_ne_panic : ofResult x ≠ .error (.panic p) := by
  cases x with
  | error | ok => simp [ofResult, Except.mapError]

theorem ofChecked_eq_ok {x : Except Checked.Panic α} {a : α} :
    (ofChecked x : Outcome ε α) = .ok a ↔ x = .ok a := mapError_eq_ok

theorem ofResult_eq_ok {a : α} : ofResult x = .ok a ↔ x = .ok a := mapError_eq_ok

end Outcome

theorem List.Forall₂.exists_of_mem {α : Type u} {β : Type v} {R : α → β → Prop} {xs : List α} {ys : List β}
    (related : Forall₂ R xs ys)
    {x : α}
    (member : x ∈ xs) : ∃ y ∈ ys, R x y := by
  induction related with
  | nil => cases member
  | cons head tail ih =>
    rcases mem_cons.mp member with rfl | member
    · exact ⟨_, mem_cons_self, head⟩
    · obtain ⟨y, among, here⟩ := ih member
      exact ⟨y, mem_cons_of_mem _ among, here⟩

namespace Checked

open List

variable {ε α β : Type u}

section

variable {job : α → Except ε β} {xs : List α} {ys : List β}

theorem mapM_eq_ok : xs.mapM job = .ok ys ↔ List.Forall₂ (fun x y => job x = .ok y) xs ys := by
  constructor
  · intro done
    induction xs generalizing ys with
    | nil =>
      cases done
      exact .nil
    | cons x xs ih =>
      rw [mapM_cons] at done
      obtain ⟨y, first, done⟩ := bind_ok done
      obtain ⟨_, others, done⟩ := bind_ok done
      cases done
      exact .cons first (ih others)
  · intro related
    induction related with
    | nil => rfl
    | cons first others ih =>
      rw [mapM_cons, first]
      simp only [bind, bind, ih]
      rfl

theorem mapM_of_forall {f : α → β} (each : ∀ x ∈ xs, job x = .ok (f x)) : xs.mapM job = .ok (xs.map f) :=
  mapM_eq_ok.mpr (forall₂_map_right_iff.mpr (forall₂_same.mpr each))

theorem exists_of_mapM (done : xs.mapM job = .ok ys) {y : β} (member : y ∈ ys) : ∃ x ∈ xs, job x = .ok y :=
  (Forall₂.flip (mapM_eq_ok.mp done)).exists_of_mem member

/-- The first element whose job fails ends the loop; the ones after it are not looked at. -/
theorem mapM_eq_error {e : ε} : xs.mapM job = .error e ↔
    ∃ before x after, xs = before ++ x :: after ∧ (∀ y ∈ before, ∃ z, job y = .ok z) ∧ job x = .error e := by
  constructor
  · intro failed
    induction xs with
    | nil => cases failed
    | cons x xs ih =>
      rw [mapM_cons] at failed
      rcases bind_error failed with first | ⟨z, first, failed⟩
      · exact ⟨[], x, xs, rfl, forall_mem_nil _, first⟩
      · rcases bind_error failed with others | ⟨_, _, done⟩
        · obtain ⟨before, x', after, rfl, passed, here⟩ := ih others
          exact ⟨x :: before, x', after, rfl, forall_mem_cons.mpr ⟨⟨z, first⟩, passed⟩, here⟩
        · cases done
  · rintro ⟨before, x, after, rfl, passed, failed⟩
    induction before with
    | nil =>
      rw [nil_append, mapM_cons, failed]
      rfl
    | cons y ys ih =>
      obtain ⟨⟨z, first⟩, others⟩ := forall_mem_cons.mp passed
      rw [cons_append, mapM_cons, first, show _ = _ from ih others]
      rfl

end

theorem forM_eq_error {ε α : Type} {job : α → Except ε Unit} {xs : List α} {e : ε} : xs.forM job = .error e ↔
    ∃ before x after, xs = before ++ x :: after ∧ (∀ y ∈ before, job y = .ok ()) ∧ job x = .error e := by
  constructor
  · intro failed
    induction xs with
    | nil => cases failed
    | cons x xs ih =>
      rcases bind_error failed with first | ⟨_, first, others⟩
      · exact ⟨[], x, xs, rfl, forall_mem_nil _, first⟩
      · obtain ⟨before, x', after, rfl, passed, here⟩ := ih others
        exact ⟨x :: before, x', after, rfl, forall_mem_cons.mpr ⟨first, passed⟩, here⟩
  · rintro ⟨before, x, after, rfl, passed, failed⟩
    induction before with
    | nil =>
      show (job x >>= _) = _
      rw [failed]
      rfl
    | cons y ys ih =>
      obtain ⟨first, others⟩ := forall_mem_cons.mp passed
      show (job y >>= _) = _
      rw [first]
      exact ih others

theorem forM_eq_ok {ε α : Type} {job : α → Except ε Unit} {xs : List α} :
    xs.forM job = .ok () ↔ ∀ x ∈ xs, job x = .ok () := by
  constructor
  · intro done
    induction xs with
    | nil => exact forall_mem_nil _
    | cons x xs ih =>
      obtain ⟨_, first, others⟩ := bind_ok done
      exact forall_mem_cons.mpr ⟨first, ih others⟩
  · intro each
    cases done : xs.forM job with
    | ok => rfl
    | error e =>
      obtain ⟨_, x, _, rfl, _, failed⟩ := forM_eq_error.mp done
      cases failed.symm.trans (each x (mem_append_right _ mem_cons_self))

variable [DecidableEq α]

def rejectRepeated (reject : α → ε) (seen : List α) : List α → Except ε Unit
  | [] => .ok ()
  | x :: rest => if seen.contains x then .error (reject x) else rejectRepeated reject (seen ++ [x]) rest

theorem rejectRepeated_eq_ok {reject : α → ε} {seen xs : List α} :
    rejectRepeated reject seen xs = .ok () ↔ xs.Nodup ∧ ∀ x ∈ xs, x ∉ seen := by
  induction xs generalizing seen with
  | nil => simp [rejectRepeated]
  | cons x xs ih =>
    rw [rejectRepeated]
    by_cases repeated : x ∈ seen
    · simp [repeated]
    · rw [if_neg (by simpa using repeated), ih, nodup_cons]
      constructor
      · intro ⟨distinct, fresh⟩
        refine ⟨⟨fun again => fresh x again (by simp), distinct⟩, ?_⟩
        intro y member
        rcases mem_cons.mp member with same | member
        · exact same ▸ repeated
        · exact fun old => fresh y member (mem_append_left _ old)
      · intro ⟨⟨apart, distinct⟩, fresh⟩
        refine ⟨distinct, fun y member old => ?_⟩
        rcases mem_append.mp old with old | last
        · exact fresh y (mem_cons_of_mem _ member) old
        · exact apart (mem_singleton.mp last ▸ member)

end Checked

theorem List.find?_key {α : Type u} {κ : Type v} [BEq κ] [LawfulBEq κ] (key : α → κ) {xs : List α} {x : α}
    (distinct : (xs.map key).Nodup)
    (member : x ∈ xs) :
    xs.find? (fun y => key y == key x) = some x := by
  induction xs with
  | nil => cases member
  | cons y ys ih =>
    rw [map_cons, nodup_cons] at distinct
    rcases mem_cons.mp member with same | later
    · subst same
      exact find?_cons_of_pos (beq_self_eq_true _)
    · have apart : key y ≠ key x := fun same => distinct.1 (same ▸ mem_map_of_mem later)
      rw [find?_cons_of_neg (by simpa using apart), ih distinct.2 later]
