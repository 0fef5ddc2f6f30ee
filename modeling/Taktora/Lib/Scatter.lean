import Mathlib.Logic.Function.Basic
import Mathlib.Data.List.Pairwise

universe u v

namespace Scatter

open List Function

variable {ι : Type u} {κ : Type v} {α : Type u}

/-- The image after `source i` has been written at `p` for every place `(i, p)`, in order. -/
def write [DecidableEq κ] (places : List (ι × κ)) (source : ι → α) (image : κ → α) : κ → α :=
  places.foldl (fun image place => update image place.2 (source place.1)) image

variable {places : List (ι × κ)} {source : ι → α} {image : κ → α} {i : ι} {p : κ}

theorem write_outside [DecidableEq κ] (outside : ∀ i, (i, p) ∉ places) : write places source image p = image p := by
  induction places generalizing image with
  | nil => rfl
  | cons place places ih =>
    have later : ∀ i, (i, p) ∉ places := fun i member => outside i (mem_cons_of_mem _ member)
    have apart : p ≠ place.2 := by
      intro same
      apply outside place.1
      simp [same]
    calc write places source (update image place.2 (source place.1)) p
        = update image place.2 (source place.1) p := ih later
      _ = image p := update_of_ne apart _ _

theorem write_inside [DecidableEq κ]
    (single : (places.map Prod.snd).Nodup)
    (member : (i, p) ∈ places) : write places source image p = source i := by
  induction places generalizing image with
  | nil => cases member
  | cons place places ih =>
    rw [map_cons, nodup_cons] at single
    rcases mem_cons.mp member with first | later
    · subst first
      have outside : ∀ j, (j, p) ∉ places := fun j later => single.1 (mem_map.mpr ⟨(j, p), later, rfl⟩)
      calc write places source (update image p (source i)) p
          = update image p (source i) p := write_outside outside
        _ = source i := update_self _ _ _
    · exact ih single.2 later

structure Writer (ι : Type u) (κ : Type v) (α : Type u) where
  places : List (ι × κ)
  source : ι → α
  single : (places.map Prod.snd).Nodup

namespace Writer

/-- Two writers put the same thing wherever both of them write. -/
def Agree (w w' : Writer ι κ α) : Prop :=
  ∀ i j p, (i, p) ∈ w.places → (j, p) ∈ w'.places → w.source i = w'.source j

def Holds (w : Writer ι κ α) (image : κ → α) : Prop := ∀ i p, (i, p) ∈ w.places → image p = w.source i

def writeAll [DecidableEq κ] : List (Writer ι κ α) → (κ → α) → κ → α
  | [], image => image
  | w :: writers, image => writeAll writers (write w.places w.source image)

variable {writers : List (Writer ι κ α)} {w w' : Writer ι κ α}

theorem Agree.symm (agree : w.Agree w') : w'.Agree w := fun i j p left right => (agree j i p right left).symm

theorem agree_self (w : Writer ι κ α) : w.Agree w := by
  classical
  intro i j p left right
  have first : write w.places w.source (fun _ => w.source i) p = w.source i := write_inside w.single left
  have second : write w.places w.source (fun _ => w.source i) p = w.source j := write_inside w.single right
  exact first.symm.trans second

theorem agree_of_pairwise (pairs : writers.Pairwise Agree) : ∀ w ∈ writers, ∀ w' ∈ writers, w.Agree w' := by
  have symmetric : Std.Symm (@Agree ι κ α) := ⟨fun _ _ agree => agree.symm⟩
  intro w member w' member'
  exact pairs.forall_of_forall (fun w _ => agree_self w) member member'

theorem agree_of_holds (holds : w.Holds image) (holds' : w'.Holds image) : w.Agree w' := by
  intro i j p left right
  rw [← holds i p left, holds' j p right]

theorem writeAll_agreed [DecidableEq κ]
    (agreed : ∀ w' ∈ writers, w.Agree w')
    (start : image p = w.source i ∨ ∃ w' ∈ writers, ∃ j, (j, p) ∈ w'.places)
    (member : (i, p) ∈ w.places) : writeAll writers image p = w.source i := by
  induction writers generalizing image with
  | nil =>
    rcases start with start | ⟨_, none, _⟩
    · exact start
    · cases none
  | cons first writers ih =>
    apply ih fun w' later => agreed w' (mem_cons_of_mem _ later)
    by_cases written : ∃ j, (j, p) ∈ first.places
    · obtain ⟨j, written⟩ := written
      left
      rw [write_inside first.single written]
      exact (agreed first mem_cons_self i j p member written).symm
    · have outside : ∀ j, (j, p) ∉ first.places := not_exists.mp written
      rcases start with start | ⟨w', among, j, later⟩
      · left
        rw [write_outside outside, start]
      · right
        rcases mem_cons.mp among with same | among
        · subst same
          exact absurd later (outside j)
        · exact ⟨w', among, j, later⟩

/-- The image holds what each writer put there exactly if no two of them disagree about a place. -/
theorem writeAll_holds_iff [DecidableEq κ] (writers : List (Writer ι κ α)) (image : κ → α) :
    (∀ w ∈ writers, w.Holds (writeAll writers image)) ↔ ∀ w ∈ writers, ∀ w' ∈ writers, w.Agree w' := by
  constructor
  · intro holds w member w' member'
    exact agree_of_holds (holds w member) (holds w' member')
  · intro agreed w among i p member
    exact writeAll_agreed (agreed w among) (Or.inr ⟨w, among, i, member⟩) member

end Writer

end Scatter
