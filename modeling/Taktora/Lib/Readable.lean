import Mathlib.Data.List.Forall2

universe u v

namespace Readable

open List

variable {α : Type u} {β : Type v} {p : α → Bool} {text : β → List α} {R : β → β → Prop} {x y : List α}

/-- A text that is over or goes on with a symbol outside the class `p`. -/
def Stops (p : α → Bool) (x : List α) : Prop := ∀ c ∈ x.head?, p c = false

/-- The texts of `a` and `b` are only the same if these are related, and then they end at the same place. -/
def Reads (p : α → Bool) (text : β → List α) (R : β → β → Prop) (a b : β) : Prop :=
  ∀ x y, Stops p x → Stops p y → text a ++ x = text b ++ y → R a b ∧ x = y

def separated (sep : α) : List (List α) → List α
  | [] => []
  | first :: rest => first ++ rest.flatMap (sep :: ·)

theorem stops_cons {c : α} (outside : p c = false) : Stops p (c :: x) := by
  intro c' here
  cases here
  exact outside

theorem word_append_inj {s t : List α}
    (word : ∀ c ∈ s, p c = true)
    (word' : ∀ c ∈ t, p c = true)
    (stops : Stops p x)
    (stops' : Stops p y)
    (same : s ++ x = t ++ y) : s = t ∧ x = y := by
  induction s generalizing t with
  | nil =>
    cases t with
    | nil => exact ⟨rfl, same⟩
    | cons c t =>
      rw [nil_append] at same
      have outside := stops c (same ▸ rfl)
      rw [word' c mem_cons_self] at outside
      cases outside
  | cons c s ih =>
    cases t with
    | nil =>
      rw [nil_append] at same
      have outside := stops' c (same ▸ rfl)
      rw [word c mem_cons_self] at outside
      cases outside
    | cons c' t =>
      rw [cons_append, cons_append, cons.injEq] at same
      obtain ⟨first, same⟩ := same
      obtain ⟨rest, same⟩ := ih (fun c member => word c (mem_cons_of_mem _ member))
        (fun c member => word' c (mem_cons_of_mem _ member)) same
      exact ⟨by rw [first, rest], same⟩

theorem stops_flatMap {marker : α}
    (outside : p marker = false)
    (marked : ∀ b, ∃ rest, text b = marker :: rest)
    (bs : List β)
    (stops : Stops p x) : Stops p (bs.flatMap text ++ x) := by
  cases bs with
  | nil => exact stops
  | cons b bs =>
    obtain ⟨_, here⟩ := marked b
    rw [flatMap_cons, here]
    exact stops_cons outside

/-- A sequence of texts that start with a marker is read item by item, up to a text that does not start with it. -/
theorem sequence_reads {marker : α}
    (outside : p marker = false)
    (marked : ∀ b, ∃ rest, text b = marker :: rest)
    (stops : Stops p x)
    (stops' : Stops p y)
    (last : x.head? ≠ some marker)
    (last' : y.head? ≠ some marker)
    {as bs : List β}
    (each : ∀ a ∈ as, ∀ b ∈ bs, Reads p text R a b)
    (same : as.flatMap text ++ x = bs.flatMap text ++ y) : List.Forall₂ R as bs ∧ x = y := by
  induction as generalizing bs with
  | nil =>
    cases bs with
    | nil => exact ⟨.nil, same⟩
    | cons b bs =>
      obtain ⟨_, here⟩ := marked b
      rw [flatMap_nil, nil_append, flatMap_cons, here] at same
      exact absurd (by rw [same]; rfl) last
  | cons a as ih =>
    cases bs with
    | nil =>
      obtain ⟨_, here⟩ := marked a
      rw [flatMap_nil, nil_append, flatMap_cons, here] at same
      exact absurd (by rw [← same]; rfl) last'
    | cons b bs =>
      rw [flatMap_cons, flatMap_cons, append_assoc, append_assoc] at same
      obtain ⟨first, same⟩ := each a mem_cons_self b mem_cons_self _ _
        (stops_flatMap outside marked as stops) (stops_flatMap outside marked bs stops') same
      obtain ⟨rest, same⟩ := ih (fun a among b among' => each a (mem_cons_of_mem _ among) b (mem_cons_of_mem _ among'))
          same
      exact ⟨.cons first rest, same⟩

theorem separated_reads {sep close : α}
    (outside : p sep = false)
    (outside' : p close = false)
    (different : close ≠ sep)
    {as bs : List β}
    (starts : ∀ b ∈ as ++ bs, ∃ c rest, text b = c :: rest ∧ c ≠ close)
    (each : ∀ a ∈ as, ∀ b ∈ bs, Reads p text R a b)
    (same : separated sep (as.map text) ++ close :: x = separated sep (bs.map text) ++ close :: y) :
    List.Forall₂ R as bs ∧ x = y := by
  have last (z : List α) : (close :: z).head? ≠ some sep := fun here => different (Option.some.inj here)
  cases as with
  | nil =>
    cases bs with
    | nil =>
      cases same
      exact ⟨.nil, rfl⟩
    | cons b bs =>
      obtain ⟨c, _, here, opens⟩ := starts b (by simp)
      simp only [map_nil, map_cons, separated, here, nil_append, cons_append, cons.injEq] at same
      exact absurd same.1.symm opens
  | cons a as =>
    cases bs with
    | nil =>
      obtain ⟨c, _, here, opens⟩ := starts a (by simp)
      simp only [map_nil, map_cons, separated, here, nil_append, cons_append, cons.injEq] at same
      exact absurd same.1 opens
    | cons b bs =>
      simp only [map_cons, separated, append_assoc, flatMap_map] at same
      have marked (b : β) : ∃ rest, sep :: text b = sep :: rest := ⟨text b, rfl⟩
      obtain ⟨first, same⟩ := each a mem_cons_self b mem_cons_self _ _
        (stops_flatMap outside marked as (stops_cons outside')) (stops_flatMap outside marked bs (stops_cons outside'))
          same
      have separate (a b : β) (reads : Reads p text R a b) : Reads p (fun b => sep :: text b) R a b :=
        fun x y stops stops' same => reads x y stops stops' (cons.inj same).2
      obtain ⟨rest, same⟩ := sequence_reads outside marked (stops_cons outside') (stops_cons outside') (last x) (last y)
        (fun a among b among' => separate a b (each a (mem_cons_of_mem _ among) b (mem_cons_of_mem _ among'))) same
      exact ⟨.cons first rest, (cons.inj same).2⟩

end Readable
