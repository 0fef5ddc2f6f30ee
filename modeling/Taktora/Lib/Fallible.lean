import Mathlib.Data.List.Basic

/-- A computation on a state that may fail. What it has done to the state before failing stays done. -/
abbrev Fallible (ε σ α : Type) := EStateM ε σ α

namespace Fallible

variable {ε σ α β : Type} {P : σ → Prop} {m : Fallible ε σ α} {f : α → Fallible ε σ β} {Q : α → σ → Prop}
  {R : β → σ → Prop} {E : σ → Prop}

/-- The state a computation leaves behind, whether it fails or not. -/
def final (m : Fallible ε σ α) (s : σ) : σ :=
  match m s with
  | .ok _ s' => s'
  | .error _ s' => s'

def ofExcept : Except ε α → Fallible ε σ α
  | .ok a => pure a
  | .error e => throw e

/-- From a state with `P` the computation returns a result with `Q`, or fails in a state with `E`. -/
def Ensures (P : σ → Prop) (m : Fallible ε σ α) (Q : α → σ → Prop) (E : σ → Prop) : Prop :=
  ∀ s, P s → match m s with
    | .ok a s' => Q a s'
    | .error _ s' => E s'

/-- Whatever the computation does, `P` still holds afterwards. -/
abbrev Keeps (P : σ → Prop) (m : Fallible ε σ α) : Prop := Ensures P m (fun _ => P) P

variable {s s' : σ} {a : α} {e : ε} {F : σ → Prop}

theorem Ensures.of_ok (ensures : Ensures P m Q E) (start : P s) (returned : m s = .ok a s') : Q a s' := by
  have result := ensures s start
  rw [returned] at result
  exact result

theorem Ensures.of_error (ensures : Ensures P m Q E) (start : P s) (failed : m s = .error e s') : E s' := by
  have result := ensures s start
  rw [failed] at result
  exact result

theorem Ensures.returns
    (ensures : Ensures P m Q E)
    (start : P s)
    (never : ∀ s', ¬ E s') : ∃ a s', m s = .ok a s' ∧ Q a s' := by
  cases outcome : m s with
  | ok a s' => exact ⟨a, s', rfl, ensures.of_ok start outcome⟩
  | error e s' => exact absurd (ensures.of_error start outcome) (never s')

theorem Ensures.final (ensures : Ensures P m (fun _ => E) E) (start : P s) : E (Fallible.final m s) := by
  unfold Fallible.final
  cases outcome : m s with
  | ok a s' => exact ensures.of_ok start outcome
  | error e s' => exact ensures.of_error start outcome

theorem Ensures.weaken {T : α → σ → Prop}
    (ensures : Ensures P m Q E)
    (returned : ∀ a s, Q a s → T a s)
    (failed : ∀ s, E s → F s) : Ensures P m T F := by
  intro s start
  cases outcome : m s with
  | ok a s' => exact returned a s' (ensures.of_ok start outcome)
  | error e s' => exact failed s' (ensures.of_error start outcome)

theorem Ensures.failing (ensures : Ensures P m Q E) (failed : ∀ s, E s → F s) : Ensures P m Q F :=
  ensures.weaken (fun _ _ holds => holds) failed

theorem ensures_pure (holds : ∀ s, P s → Q a s) : Ensures P (pure a : Fallible ε σ α) Q E := holds

theorem ensures_throw (holds : ∀ s, P s → E s) : Ensures P (throw e : Fallible ε σ α) Q E := holds

theorem keeps_pure (a : α) : Keeps P (pure a : Fallible ε σ α) := fun _ start => start

theorem keeps_throw (e : ε) : Keeps P (throw e : Fallible ε σ α) := fun _ start => start

theorem ensures_modify {g : σ → σ} {R : σ → Prop} (holds : ∀ s, P s → R (g s)) :
    Ensures P (modify g : Fallible ε σ PUnit) (fun _ => R) E := holds

theorem ensures_bind (first : Ensures P m Q E) (rest : ∀ a, Ensures (Q a) (f a) R E) : Ensures P (m >>= f) R E := by
  intro s start
  show match EStateM.bind m f s with
    | .ok a s' => R a s'
    | .error _ s' => E s'
  rw [EStateM.bind]
  cases outcome : m s with
  | ok a s' => exact rest a s' (first.of_ok start outcome)
  | error e s' => exact first.of_error start outcome

theorem ensures_bind_from (first : Ensures (· = s) m Q E)
    (rest : ∀ a s', m s = .ok a s' → Q a s' → Ensures (· = s') (f a) R E) : Ensures (· = s) (m >>= f) R E := by
  refine ensures_bind (Q := fun a s' => m s = .ok a s' ∧ Q a s') ?_ fun a s' ended => rest a s' ended.1 ended.2 s' rfl
  rintro s rfl
  cases outcome : m s with
  | ok a s' => exact ⟨rfl, first.of_ok rfl outcome⟩
  | error e s' => exact first.of_error rfl outcome

theorem ensures_of_and {p : Prop} (rest : p → Ensures P m Q E) : Ensures (fun s => P s ∧ p) m Q E :=
  fun s start => rest start.2 s start.1

theorem ok_of_run' (returned : (EStateM.run' m s).isSome = true) : ∃ a, m s = .ok a (Fallible.final m s) := by
  unfold EStateM.run' EStateM.run at returned
  unfold final
  cases outcome : m s with
  | ok a s' => exact ⟨a, rfl⟩
  | error e s' =>
    rw [outcome] at returned
    cases returned

theorem error_of_run' (failed : (EStateM.run' m s).isNone = true) : ∃ e, m s = .error e (Fallible.final m s) := by
  unfold EStateM.run' EStateM.run at failed
  unfold final
  cases outcome : m s with
  | ok a s' =>
    rw [outcome] at failed
    cases failed
  | error e s' => exact ⟨e, rfl⟩

theorem bind_of_ok (returned : m s = .ok a s') : (m >>= f) s = f a s' := by
  show EStateM.bind m f s = f a s'
  rw [EStateM.bind, returned]

theorem bind_of_error (failed : m s = .error e s') : (m >>= f) s = .error e s' := by
  show EStateM.bind m f s = .error e s'
  rw [EStateM.bind, failed]

theorem Ensures.bind_congr {g : α → Fallible ε σ β}
    (first : Ensures P m Q E)
    (same : ∀ a s, Q a s → f a s = g a s)
    (start : P s) : (m >>= f) s = (m >>= g) s := by
  show EStateM.bind m f s = EStateM.bind m g s
  unfold EStateM.bind
  cases outcome : m s with
  | ok a s' => exact same a s' (first.of_ok start outcome)
  | error e s' => rfl

theorem ensures_get_bind {g : σ → Fallible ε σ β} (rest : ∀ s, P s → Ensures (· = s) (g s) R E) :
    Ensures P (get >>= g) R E := fun s start => rest s start s rfl

theorem ensures_ofExcept {result : Except ε α} (returned : ∀ a, result = .ok a → ∀ s, P s → Q a s)
    (failed : ∀ e, result = .error e → ∀ s, P s → E s) : Ensures P (ofExcept result) Q E := by
  cases result with
  | ok a => exact ensures_pure (returned a rfl)
  | error e => exact ensures_throw (failed e rfl)

def each (act : β → Fallible ε σ PUnit) : List β → Fallible ε σ PUnit
  | [] => pure ⟨⟩
  | x :: rest => do
    act x
    each act rest

theorem ensures_each {act : β → Fallible ε σ PUnit} (step : σ → β → σ) {F : σ → σ → Prop} {xs : List β}
    (does : ∀ x ∈ xs, ∀ s, Ensures (· = s) (act x) (fun _ s' => s' = step s x) (F s))
    (later : ∀ s x s', F (step s x) s' → F s s') :
    Ensures (· = s) (each act xs) (fun _ s' => s' = xs.foldl step s) (F s) := by
  induction xs generalizing s with
  | nil => exact ensures_pure fun _ same => same
  | cons x rest ih =>
    obtain ⟨here, others⟩ := List.forall_mem_cons.mp does
    refine ensures_bind (here s) fun _ => ?_
    exact (ih others).failing (later s x)

/-- As long as the actions return, every element is met in a state with `C`. -/
def Along (C : σ → β → Prop) (act : β → Fallible ε σ α) : List β → σ → Prop
  | [], _ => True
  | x :: rest, s => C s x ∧ ∀ a s', act x s = .ok a s' → Along C act rest s'

end Fallible
