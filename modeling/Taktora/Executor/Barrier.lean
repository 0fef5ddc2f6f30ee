import Taktora.Lib.Run
import Taktora.Lib.Tally

namespace Taktora.Exec

open Function

inductive WorkerPc where
  | idle
  | running
  | counted
  | locking
  | locked
  | notifying
deriving DecidableEq

inductive WaiterPc where
  | idle
  | locking
  | publishing
  | loading
  | comparing (submitted : Nat)
  | parking
  | parked
  | woken
  | clearing
  | unlocking
deriving DecidableEq

def WaiterPc.holdsLock : WaiterPc → Bool
  | idle | locking | parked | woken => false
  | _ => true

def WaiterPc.published : WaiterPc → Bool
  | idle | locking | publishing | unlocking => false
  | _ => true

/-- The tracker with its threads. The lock names its owner, where `none` is the dispatching thread. -/
structure Tracker (n : Nat) where
  submitted : Nat
  completed : Nat
  waiting : Bool
  lock : Option (Option (Fin n))
  queued : Nat
  waiter : WaiterPc
  worker : Fin n → WorkerPc

inductive TrackerAction (n : Nat) where
  | submit
  | waitForQuiescence
  | wait
  | wakeSpuriously
  | work (i : Fin n)

namespace Tracker

variable {n : Nat}

def new (n : Nat) : Tracker n := ⟨0, 0, false, none, 0, .idle, fun _ => .idle⟩

variable (s : Tracker n)

def acquire (owner : Option (Fin n)) (next : Tracker n → Tracker n) : Option (Tracker n) :=
  if s.lock = none then some (next { s with lock := some owner }) else none

def wait : Option (Tracker n) :=
  match s.waiter with
  | .idle | .parked => none
  | .locking => s.acquire none fun s => { s with waiter := .publishing }
  | .publishing => some { s with waiting := true, waiter := .loading }
  | .loading => some { s with waiter := .comparing s.submitted }
  | .comparing submitted => some { s with waiter := if submitted ≠ s.completed then .parking else .clearing }
  | .parking => some { s with lock := none, waiter := .parked }
  | .woken => s.acquire none fun s => { s with waiter := .loading }
  | .clearing => some { s with waiting := false, waiter := .unlocking }
  | .unlocking => some { s with lock := none, waiter := .idle }

def notifyOne : Tracker n := if s.waiter = .parked then { s with waiter := .woken } else s

def work (i : Fin n) : Option (Tracker n) :=
  let goes (pc : WorkerPc) (s : Tracker n) : Tracker n := { s with worker := update s.worker i pc }
  match s.worker i with
  | .idle => if 0 < s.queued then some (goes .running { s with queued := s.queued - 1 }) else none
  | .running => some (goes .counted { s with completed := s.completed + 1 })
  | .counted => some (goes (if s.waiting then .locking else .idle) s)
  | .locking => s.acquire (some i) (goes .locked)
  | .locked => some (goes .notifying { s with lock := none })
  | .notifying => some (goes .idle s.notifyOne)

def act : TrackerAction n → Option (Tracker n)
  | .submit =>
    if s.waiter = .idle then some { s with submitted := s.submitted + 1, queued := s.queued + 1 } else none
  | .waitForQuiescence => if s.waiter = .idle then some { s with waiter := .locking } else none
  | .wait => s.wait
  | .wakeSpuriously => if s.waiter = .parked then some { s with waiter := .woken } else none
  | .work i => s.work i

def Step (a : TrackerAction n) (s' : Tracker n) : Prop := s.act a = some s'

def inJob (pc : WorkerPc) : Nat := if pc = .running then 1 else 0

/-- `parking` and `parked` are the handshake: who counts the last job still has to see the flag, or to notify. -/
structure Inv (s : Tracker n) : Prop where
  jobs : s.submitted = s.completed + s.queued + ∑ i, inJob (s.worker i)
  flag : s.waiting = s.waiter.published
  held : s.waiter.holdsLock = true → s.lock = some none
  owned : ∀ i, s.worker i = .locked → s.lock = some (some i)
  loaded : ∀ submitted, s.waiter = .comparing submitted → submitted = s.submitted
  quiet : s.waiter = .clearing ∨ s.waiter = .unlocking → s.completed = s.submitted
  parking : s.waiter = .parking → s.completed = s.submitted → ∃ i, s.worker i = .counted ∨ s.worker i = .locking
  parked : s.waiter = .parked → s.completed = s.submitted → ∃ i, s.worker i ≠ .idle ∧ s.worker i ≠ .running

variable {s s' : Tracker n}

theorem Inv.wait (inv : s.Inv) (step : s.wait = some s') : s'.Inv := by
  rcases inv with ⟨jobs, flag, held, owned, loaded, quiet, parking, parked⟩
  unfold Tracker.wait acquire at step
  cases pc : s.waiter with
  | idle | parked => simp [pc] at step
  | locking | woken =>
    simp only [pc] at step
    split at step
    · cases step
      constructor <;> grind -linarith [WaiterPc.published, WaiterPc.holdsLock]
    · cases step
  | _ =>
    simp only [pc] at step
    cases step
    constructor <;> grind -linarith [WaiterPc.published, WaiterPc.holdsLock]

theorem Inv.work (inv : s.Inv) {i : Fin n} (step : s.work i = some s') : s'.Inv := by
  rcases inv with ⟨jobs, flag, held, owned, loaded, quiet, parking, parked⟩
  have sum (pc : WorkerPc) := Tally.sum_update (fun _ => inJob) s.worker i pc
  unfold Tracker.work acquire at step
  cases pc : s.worker i with
  | idle =>
    simp only [pc] at step sum
    split at step
    · cases step
      have moved : _ + 0 = _ + 1 := sum .running
      constructor
      case jobs => dsimp only; omega
      all_goals grind -linarith
    · cases step
  | running =>
    simp only [pc] at step sum
    cases step
    have moved : _ + 1 = _ + 0 := sum .counted
    constructor
    case jobs => dsimp only; omega
    all_goals grind -linarith [WaiterPc.published]
  | counted =>
    simp only [pc] at step sum
    cases flagged : s.waiting with
    | false =>
      simp only [flagged, Bool.false_eq_true, if_false] at step
      cases step
      have moved : _ + 0 = _ + 0 := sum .idle
      constructor
      case jobs => dsimp only; omega
      all_goals grind -linarith [WaiterPc.published]
    | true =>
      simp only [flagged, if_true] at step
      cases step
      have moved : _ + 0 = _ + 0 := sum .locking
      constructor
      case jobs => dsimp only; omega
      case parking => exact fun _ _ => ⟨i, .inr (update_self ..)⟩
      case parked => exact fun _ _ => ⟨i, by simp⟩
      all_goals grind -linarith [WaiterPc.published]
  | locking =>
    simp only [pc] at step sum
    split at step
    · cases step
      have moved : _ + 0 = _ + 0 := sum .locked
      constructor
      case jobs => dsimp only; omega
      case parked => exact fun _ _ => ⟨i, by simp⟩
      all_goals grind -linarith [WaiterPc.holdsLock]
    · cases step
  | locked =>
    simp only [pc] at step sum
    cases step
    have moved : _ + 0 = _ + 0 := sum .notifying
    constructor
    case jobs => dsimp only; omega
    case parked => exact fun _ _ => ⟨i, by simp⟩
    all_goals grind -linarith [WaiterPc.holdsLock]
  | notifying =>
    simp only [pc] at step sum
    cases step
    have moved : _ + 0 = _ + 0 := sum .idle
    have kept : (∃ j, s.worker j = .counted ∨ s.worker j = .locking) →
        ∃ j, update s.worker i .idle j = .counted ∨ update s.worker i .idle j = .locking := by
      rintro ⟨j, early⟩
      have other : j ≠ i := by
        rintro rfl
        simp [pc] at early
      exact ⟨j, by rwa [update_of_ne other]⟩
    unfold notifyOne
    split
    all_goals
      constructor
      case jobs => dsimp only; omega
      all_goals grind -linarith [WaiterPc.published, WaiterPc.holdsLock]

theorem Inv.step {a : TrackerAction n} (inv : s.Inv) (step : s.Step a s') : s'.Inv := by
  cases a with
  | wait => exact inv.wait step
  | work i => exact inv.work step
  | _ =>
    rcases inv with ⟨jobs, flag, held, owned, loaded, quiet, parking, parked⟩
    simp only [Step, act] at step
    split at step
    · cases step
      constructor <;> grind -linarith [WaiterPc.published, WaiterPc.holdsLock]
    · cases step

end Tracker

end Taktora.Exec
