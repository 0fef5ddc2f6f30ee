import Taktora.Lib.Checked

namespace Checked

variable {ε α β : Type}

def collect (job : α → Except ε (List β)) : List α → Except ε (List β)
  | [] => .ok []
  | x :: rest => do
    let ys ← job x
    let more ← collect job rest
    .ok (ys ++ more)

variable {job : α → Except ε (List β)} {yield : α → List β} {Fine : α → Prop} {xs : List α}

theorem collect_of_fine
    (fine : ∀ x, Fine x → job x = .ok (yield x))
    (all : ∀ x ∈ xs, Fine x) : collect job xs = .ok (xs.flatMap yield) := by
  induction xs with
  | nil => rfl
  | cons x rest ih =>
    obtain ⟨here, others⟩ := List.forall_mem_cons.mp all
    rw [collect, fine x here, ih others]
    rfl

theorem fine_of_collect (needed : ∀ x ys, job x = .ok ys → Fine x) {ys : List β}
    (collected : collect job xs = .ok ys) : ∀ x ∈ xs, Fine x := by
  induction xs generalizing ys with
  | nil => exact List.forall_mem_nil _
  | cons x rest ih =>
    obtain ⟨first, here, collected⟩ := bind_ok collected
    obtain ⟨_, others, _⟩ := bind_ok collected
    exact List.forall_mem_cons.mpr ⟨needed x first here, ih others⟩

theorem collect_eq_ok_iff
    (fine : ∀ x, Fine x → job x = .ok (yield x))
    (needed : ∀ x ys, job x = .ok ys → Fine x)
    {ys : List β} :
    collect job xs = .ok ys ↔ (∀ x ∈ xs, Fine x) ∧ ys = xs.flatMap yield := by
  constructor
  · intro collected
    have all := fine_of_collect needed collected
    exact ⟨all, Except.ok.inj (collected.symm.trans (collect_of_fine fine all))⟩
  · rintro ⟨all, rfl⟩
    exact collect_of_fine fine all

end Checked
