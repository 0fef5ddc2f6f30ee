import Mathlib.Data.List.Induction

universe u v

/-- The executions of a labelled transition system from `start`, with the labels in the order they were taken. -/
inductive Run {σ : Type u} {α : Type v} (step : σ → α → σ → Prop) (start : σ) : List α → σ → Prop where
  | nil : Run step start [] start
  | snoc {history s a s'} (before : Run step start history s) (last : step s a s') :
      Run step start (history ++ [a]) s'

namespace Run

open List

variable {σ : Type u} {α : Type v} {step step' : σ → α → σ → Prop} {start middle finish : σ} {history later : List α}

theorem eq_start (run : Run step start history finish) (empty : history = []) : finish = start := by
  cases run with
  | nil => rfl
  | snoc before last => exact absurd empty (append_ne_nil_of_right_ne_nil _ (cons_ne_nil _ _))

theorem last_step {a : α} {taken : List α}
    (run : Run step start taken finish)
    (taken_eq : taken = history ++ [a]) :
    ∃ s, Run step start history s ∧ step s a finish := by
  cases run with
  | nil => exact absurd taken_eq.symm (append_ne_nil_of_right_ne_nil _ (cons_ne_nil _ _))
  | snoc before last =>
    obtain ⟨rfl, same⟩ := append_inj' taken_eq rfl
    cases same
    exact ⟨_, before, last⟩

theorem invariant {I : σ → Prop} (init : I start) (keep : ∀ s a s', I s → step s a s' → I s')
    (run : Run step start history finish) : I finish := by
  induction run with
  | nil => exact init
  | snoc before last ih => exact keep _ _ _ ih last

theorem invariant_history {I : List α → σ → Prop} (init : I [] start)
    (keep : ∀ history s a s', I history s → step s a s' → I (history ++ [a]) s')
    (run : Run step start history finish) : I history finish := by
  induction run with
  | nil => exact init
  | snoc before last ih => exact keep _ _ _ _ ih last

theorem trans
    (first : Run step start history middle)
    (second : Run step middle later finish) :
    Run step start (history ++ later) finish := by
  induction second with
  | nil => rwa [append_nil]
  | snoc before last ih => rw [← append_assoc]; exact .snoc ih last

theorem mono
    (weaken : ∀ s a s', step s a s' → step' s a s')
    (run : Run step start history finish) : Run step' start history finish := by
  induction run with
  | nil => exact .nil
  | snoc before last ih => exact .snoc ih (weaken _ _ _ last)

theorem mono_of_mem (run : Run step start history finish)
    (weaken : ∀ s a s', a ∈ history → step s a s' → step' s a s') : Run step' start history finish := by
  induction run with
  | nil => exact .nil
  | snoc before last ih =>
    apply snoc (ih fun s a s' taken => weaken s a s' (mem_append_left _ taken))
    exact weaken _ _ _ (mem_append_right _ (mem_singleton.mpr rfl)) last

theorem unique {finish' : σ}
    (functional : ∀ s a t t', step s a t → step s a t' → t = t')
    (run : Run step start history finish)
    (other : Run step start history finish') : finish = finish' := by
  induction run generalizing finish' with
  | nil => exact (other.eq_start rfl).symm
  | snoc before last ih =>
    obtain ⟨s, before', last'⟩ := other.last_step rfl
    cases ih before'
    exact functional _ _ _ _ last last'

theorem snoc_iff {good : σ → α → Prop} {a : α}
    (functional : ∀ s a t t', step s a t → step s a t' → t = t')
    (before : Run step start history middle)
    (last : step middle a finish) :
    Run (fun s a s' => good s a ∧ step s a s') start (history ++ [a]) finish ↔
      Run (fun s a s' => good s a ∧ step s a s') start history middle ∧ good middle a := by
  constructor
  · intro run
    obtain ⟨s, before', fine, _⟩ := run.last_step rfl
    have same := before.unique functional (before'.mono fun _ _ _ step => step.2)
    cases same
    exact ⟨before', fine⟩
  · intro both
    exact .snoc both.1 ⟨both.2, last⟩

/-- Where the actions lead, in a system whose steps are a partial function. -/
def follow (act : σ → α → Option σ) (s : σ) (actions : List α) : Option σ := actions.foldlM act s

theorem of_follow {act : σ → α → Option σ} (follows : follow act start history = some finish) :
    Run (fun s a s' => act s a = some s') start history finish := by
  induction history using reverseRecOn generalizing finish with
  | nil =>
    cases follows
    exact .nil
  | append_singleton before last ih =>
    rw [follow, foldlM_append] at follows
    obtain ⟨_, reached, taken⟩ := Option.bind_eq_some_iff.mp follows
    obtain ⟨_, stepped, same⟩ := Option.bind_eq_some_iff.mp taken
    cases same
    exact .snoc (ih reached) stepped

end Run
