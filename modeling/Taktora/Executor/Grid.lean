import Mathlib.Algebra.GroupWithZero.Nat
import Mathlib.Data.List.Basic
import Taktora.Lib.Run
import Taktora.Lib.Saturating

namespace Taktora.Exec

open Saturating List

structure GridTask where
  periodNs : Nat
  next : Nat
  /-- Slots the previous dispatch passed over, reported by the next one. -/
  carry : Nat
  served : Bool
deriving DecidableEq

structure GridTimer where
  epoch : Nat
  tasks : List GridTask
deriving DecidableEq

structure Due where
  slot : Nat
  skipped : Nat
  lateBy : Nat
deriving DecidableEq

namespace GridTask

def new (epoch period : Nat) : GridTask :=
  { periodNs := period, next := add 64 epoch period, carry := 0, served := false }

variable (t : GridTask)

def stepped : Nat := add 64 t.next t.periodNs

variable (epoch now : Nat)

def snapped : Nat :=
  let slotsPassed := (now - epoch) / t.periodNs
  add 64 epoch (mul 64 (add 64 slotsPassed 1) t.periodNs)

def realigned : Nat := if now < t.stepped then t.stepped else t.snapped epoch now

def dispatched : GridTask :=
  if t.periodNs = 0 then { t with carry := 0 }
  else
    { t with
      next := t.realigned epoch now
      carry := if ¬ now < t.stepped ∧ t.served then (t.snapped epoch now - t.stepped) / t.periodNs else 0
      served := true }

def lateBy : Nat :=
  if t.periodNs = 0 then 0 else now - (t.realigned epoch now - t.periodNs)

def report (epoch now slot : Nat) : Option Due :=
  if t.next ≤ now then some ⟨slot, t.carry, t.lateBy epoch now⟩ else none

end GridTask

open GridTask

namespace GridTimer

def new (epoch : Nat) (periods : List Nat) : GridTimer := { epoch, tasks := periods.map (GridTask.new epoch) }

def takeDue (g : GridTimer) (now : Nat) : List Due × GridTimer :=
  (g.tasks.zipIdx.filterMap fun (t, slot) => t.report g.epoch now slot,
    { g with tasks := g.tasks.map fun t => if t.next ≤ now then t.dispatched g.epoch now else t })

end GridTimer

/-- No target that the task computes at `now` leaves the range of `u64`. -/
def GridTask.Fits (t : GridTask) (epoch now : Nat) : Prop :=
  t.next ≤ now → t.next + t.periodNs < 2 ^ 64 ∧
    (t.next + t.periodNs ≤ now → epoch + ((now - epoch) / t.periodNs + 1) * t.periodNs < 2 ^ 64)

def GridTimer.Fits (g : GridTimer) (now : Nat) : Prop := ∀ t ∈ g.tasks, t.Fits g.epoch now

structure GridTask.OnGrid (epoch period : Nat) (t : GridTask) : Prop where
  same_period : t.periodNs = period
  target : ∃ k, 1 ≤ k ∧ t.next = epoch + k * period

section Task

variable {epoch period now : Nat} {t : GridTask}

theorem grid_bounds
    (positive : 0 < period)
    (started : epoch ≤ now) :
    epoch + (now - epoch) / period * period ≤ now ∧ now < epoch + ((now - epoch) / period + 1) * period := by
  have below := Nat.div_mul_le_self (now - epoch) period
  have above := Nat.lt_mul_div_succ (now - epoch) positive
  rw [mul_comm] at above
  omega

namespace GridTask

theorem OnGrid.new (fits : epoch + period < 2 ^ 64) : (new epoch period).OnGrid epoch period := by
  refine ⟨rfl, 1, le_refl 1, ?_⟩
  rw [one_mul]
  exact add_eq fits

theorem snapped_eq
    (positive : 0 < t.periodNs)
    (inRange : epoch + ((now - epoch) / t.periodNs + 1) * t.periodNs < 2 ^ 64) :
    t.snapped epoch now = epoch + ((now - epoch) / t.periodNs + 1) * t.periodNs := by
  have grows := Nat.le_mul_of_pos_right ((now - epoch) / t.periodNs + 1) positive
  rw [snapped, add_eq (a := (now - epoch) / t.periodNs) (by omega), mul_eq (by omega), add_eq inRange]

section

variable (onGrid : t.OnGrid epoch period)
include onGrid

variable (positive : 0 < period)
include positive

variable (fits : t.Fits epoch now)
include fits

variable (due : t.next ≤ now)
include due

theorem OnGrid.realigned : t.realigned epoch now = epoch + ((now - epoch) / period + 1) * period := by
  obtain ⟨rfl, k, _⟩ := onGrid
  obtain ⟨inRange, snapInRange⟩ := fits due
  have stepped : t.stepped = t.next + t.periodNs := add_eq inRange
  rw [realigned, stepped]
  split
  · have slots : (now - epoch) / t.periodNs = k := by
      apply Nat.div_eq_of_lt_le
      · omega
      · rw [Nat.succ_mul]
        omega
    rw [slots, Nat.succ_mul]
    omega
  · rename_i late
    exact snapped_eq positive (snapInRange (Nat.le_of_not_lt late))

theorem OnGrid.lateBy : t.lateBy epoch now = now - (epoch + (now - epoch) / period * period) := by
  have nonzero : t.periodNs ≠ 0 := onGrid.same_period ▸ ne_of_gt positive
  rw [GridTask.lateBy, if_neg nonzero, onGrid.realigned positive fits due, onGrid.same_period, Nat.succ_mul]
  omega

theorem OnGrid.dispatched :
    (t.dispatched epoch now).OnGrid epoch period ∧ (t.dispatched epoch now).served = true ∧
      now < (t.dispatched epoch now).next := by
  obtain ⟨rfl, k, _⟩ := id onGrid
  have started : epoch ≤ now := by omega
  rw [dispatched, if_neg (ne_of_gt positive)]
  refine ⟨⟨rfl, _, Nat.le_add_left 1 _, onGrid.realigned positive fits due⟩, rfl, ?_⟩
  rw [onGrid.realigned positive fits due]
  exact (grid_bounds positive started).2

theorem OnGrid.carried (served : t.served = true) :
    (t.dispatched epoch now).next = t.next + (1 + (t.dispatched epoch now).carry) * period := by
  have next := onGrid.realigned positive fits due
  obtain ⟨rfl, k, _, target⟩ := onGrid
  obtain ⟨inRange, snapInRange⟩ := fits due
  have stepped : t.stepped = t.next + t.periodNs := add_eq inRange
  rw [GridTask.dispatched, if_neg (ne_of_gt positive)]
  by_cases onTime : now < t.stepped
  · rw [if_neg (fun late => late.1 onTime), GridTask.realigned, if_pos onTime, stepped, add_zero, one_mul]
  · have snapped := snapped_eq positive (snapInRange (by omega))
    have started : epoch ≤ now := by omega
    have order : k + 1 ≤ (now - epoch) / t.periodNs := by
      rw [Nat.le_div_iff_mul_le positive, Nat.succ_mul]
      omega
    obtain ⟨rest, slots⟩ := Nat.exists_eq_add_of_le order
    have split : epoch + ((now - epoch) / t.periodNs + 1) * t.periodNs =
        t.next + t.periodNs + (rest + 1) * t.periodNs := by
      rw [slots, Nat.succ_mul, Nat.add_mul, Nat.add_mul, Nat.add_mul]
      omega
    rw [if_pos ⟨onTime, served⟩, next, snapped, split, stepped, Nat.add_sub_cancel_left, Nat.mul_div_cancel _ positive,
      Nat.add_mul 1, one_mul, add_assoc]

end

theorem dispatched_carry (fresh : t.served = false) : (t.dispatched epoch now).carry = 0 := by
  rw [dispatched]
  split
  · rfl
  · simp [fresh]

end GridTask

end Task

structure GridCall where
  now : Nat
  due : List Due

def GridTimer.Called (g : GridTimer) (call : GridCall) (g' : GridTimer) : Prop :=
  g.Fits call.now ∧ g.takeDue call.now = (call.due, g')

def dispatchesOf (slot : Nat) (calls : List GridCall) : List Due :=
  calls.flatMap fun call => call.due.filter (·.slot == slot)

def skippedOf (slot : Nat) (calls : List GridCall) : Nat := ((dispatchesOf slot calls).map (·.skipped)).sum

section Calls

variable {g g' : GridTimer} {now slot epoch period : Nat} {call : GridCall} {calls later : List GridCall} {t : GridTask}

theorem dispatchesOf_append : dispatchesOf slot (calls ++ later) = dispatchesOf slot calls ++ dispatchesOf slot later :=
  flatMap_append

theorem dispatchesOf_singleton : dispatchesOf slot [call] = call.due.filter (·.slot == slot) := flatMap_singleton _ _

theorem skippedOf_append : skippedOf slot (calls ++ later) = skippedOf slot calls + skippedOf slot later := by
  rw [skippedOf, dispatchesOf_append, map_append, sum_append]
  rfl

theorem takeDue_epoch (g : GridTimer) (now : Nat) : (g.takeDue now).2.epoch = g.epoch := rfl

theorem takeDue_task (now : Nat) (task : g.tasks[slot]? = some t) :
    (g.takeDue now).2.tasks[slot]? = some (if t.next ≤ now then t.dispatched g.epoch now else t) := by
  rw [GridTimer.takeDue, getElem?_map, task]
  rfl

theorem report_slot {due : Due} (reported : t.report epoch now slot = some due) : due.slot = slot := by
  rw [report] at reported
  split at reported
  · cases reported
    rfl
  · cases reported

theorem reports_ne {tasks : List GridTask} {start : Nat} (before : slot < start) :
    ((tasks.zipIdx start).filterMap fun (t, slot) => t.report epoch now slot).filter (·.slot == slot) = [] := by
  rw [filter_eq_nil_iff]
  intro due member same
  obtain ⟨⟨t, _⟩, indexed, reported⟩ := mem_filterMap.mp member
  have bound := le_snd_of_mem_zipIdx indexed
  have slots := report_slot reported
  rw [beq_iff_eq] at same
  omega

theorem reports_of_slot {tasks : List GridTask} (epoch now start : Nat) (task : tasks[slot]? = some t) :
    ((tasks.zipIdx start).filterMap fun (t, slot) => t.report epoch now slot).filter (·.slot == start + slot) =
      (t.report epoch now (start + slot)).toList := by
  induction tasks generalizing start slot with
  | nil => cases task
  | cons first rest ih =>
    rw [zipIdx_cons, filterMap_cons]
    cases slot with
    | zero =>
      obtain rfl : first = t := Option.some.inj task
      dsimp only [Nat.add_zero]
      cases reported : first.report epoch now start with
      | none => exact reports_ne (Nat.lt_succ_self start)
      | some due =>
        rw [filter_cons, report_slot reported, beq_self_eq_true, reports_ne (Nat.lt_succ_self start)]
        rfl
    | succ slot =>
      have tail := ih (start + 1) task
      rw [add_assoc, add_comm 1 slot] at tail
      dsimp only
      cases reported : first.report epoch now start with
      | none => exact tail
      | some due =>
        have other : (due.slot == start + (slot + 1)) = false := by
          rw [report_slot reported, beq_eq_false_iff_ne]
          omega
        rw [filter_cons, other]
        exact tail

theorem takeDue_due (now : Nat) (task : g.tasks[slot]? = some t) : (g.takeDue now).1.filter (·.slot == slot) =
      if t.next ≤ now then [⟨slot, t.carry, t.lateBy g.epoch now⟩] else [] := by
  have reports := reports_of_slot g.epoch now 0 task
  rw [zero_add] at reports
  rw [GridTimer.takeDue, reports, report]
  split <;> rfl

theorem GridTimer.Fits.task (fits : g.Fits now) (task : g.tasks[slot]? = some t) : t.Fits g.epoch now :=
  fits t (mem_of_getElem? task)

theorem new_task {periods : List Nat} (task : periods[slot]? = some period) :
    (GridTimer.new epoch periods).tasks[slot]? = some (new epoch period) := by
  rw [GridTimer.new, getElem?_map, task]
  rfl

theorem GridTimer.Called.task
    (called : g.Called call g')
    (task : g.tasks[slot]? = some t)
    (onGrid : t.OnGrid g.epoch period)
    (positive : 0 < period) :
    ∃ t', g'.tasks[slot]? = some t' ∧ g'.epoch = g.epoch ∧ t'.OnGrid g.epoch period ∧ call.now < t'.next ∧
      ((t.next ≤ call.now ∧
      call.due.filter (·.slot == slot) =
      [⟨slot, t.carry, call.now - (g.epoch + (call.now - g.epoch) / period * period)⟩] ∧ t'.served = true ∧
      (t.served = false → t'.carry = 0) ∧ (t.served = true → t'.next = t.next + (1 + t'.carry) * period)) ∨
      (call.now < t.next ∧ call.due.filter (·.slot == slot) = [] ∧ t' = t)) := by
  obtain ⟨fits, took⟩ := called
  have fits := fits.task task
  have reports := takeDue_due call.now task
  have found := takeDue_task call.now task
  have same := takeDue_epoch g call.now
  rw [took] at reports found same
  refine ⟨_, found, same, ?_⟩
  rw [reports]
  by_cases due : t.next ≤ call.now
  · obtain ⟨onGrid', served, ahead⟩ := onGrid.dispatched positive fits due
    rw [if_pos due, if_pos due, onGrid.lateBy positive fits due]
    exact ⟨onGrid', ahead, .inl ⟨due, rfl, served, dispatched_carry, onGrid.carried positive fits due⟩⟩
  · rw [if_neg due, if_neg due]
    exact ⟨onGrid, Nat.lt_of_not_le due, .inr ⟨Nat.lt_of_not_le due, rfl, rfl⟩⟩

/-- A task of a run: its target is on the grid, and it carries nothing before its second dispatch. -/
structure GridTask.Scheduled (t : GridTask) (epoch period : Nat) (dispatches : List Due) : Prop where
  onGrid : t.OnGrid epoch period
  served : t.served = decide (dispatches ≠ [])
  fresh : dispatches.length ≤ 1 → t.carry = 0

theorem run_scheduled {periods : List Nat}
    (fits : ∀ p ∈ periods, epoch + p < 2 ^ 64)
    (run : Run GridTimer.Called (.new epoch periods) calls g)
    (task : periods[slot]? = some period)
    (positive : 0 < period) :
    g.epoch = epoch ∧ ∃ t, g.tasks[slot]? = some t ∧ t.Scheduled epoch period (dispatchesOf slot calls) := by
  induction run with
  | nil => exact ⟨rfl, _, new_task task, .new (fits _ (mem_of_getElem? task)), rfl, fun _ => rfl⟩
  | @snoc calls g call g' before called ih =>
    obtain ⟨rfl, t, found, onGrid, served, fresh⟩ := ih
    obtain ⟨t', found', same, onGrid', _, outcome⟩ := called.task found onGrid positive
    refine ⟨same, t', found', ?_⟩
    rw [dispatchesOf_append, dispatchesOf_singleton]
    rcases outcome with ⟨_, reported, served', carried, _⟩ | ⟨_, quiet, rfl⟩
    · rw [reported]
      refine ⟨onGrid', by simp [served'], ?_⟩
      intro short
      have first : dispatchesOf slot calls = [] := by
        rw [length_append, length_singleton] at short
        exact length_eq_zero_iff.mp (by omega)
      exact carried (by rw [served, first]; rfl)
    · rw [quiet, append_nil]
      exact ⟨onGrid, served, fresh⟩

theorem run_conserves
    (task : g.tasks[slot]? = some t)
    (onGrid : t.OnGrid g.epoch period)
    (positive : 0 < period)
    (served : t.served = true)
    (run : Run GridTimer.Called g later g') :
    g'.epoch = g.epoch ∧ ∃ t', g'.tasks[slot]? = some t' ∧ t'.OnGrid g.epoch period ∧ t'.served = true ∧
      t'.next + t.carry * period =
      t.next + ((dispatchesOf slot later).length + skippedOf slot later + t'.carry) * period := by
  induction run with
  | nil => exact ⟨rfl, t, task, onGrid, served, by simp [dispatchesOf, skippedOf]⟩
  | @snoc later middle call g' before called ih =>
    obtain ⟨epochs, m, found, onGrid', served', conserved⟩ := ih
    rw [← epochs] at onGrid'
    obtain ⟨t', found', same, onGrid'', _, outcome⟩ := called.task found onGrid' positive
    rw [epochs] at same onGrid''
    refine ⟨same, t', found', onGrid'', ?_⟩
    rw [skippedOf_append, dispatchesOf_append, length_append, skippedOf.eq_def slot [call], dispatchesOf_singleton]
    rcases outcome with ⟨_, reported, served'', _, moved⟩ | ⟨_, quiet, rfl⟩
    · refine ⟨served'', ?_⟩
      rw [reported, moved served']
      simp only [length_singleton, map_cons, map_nil, sum_cons, sum_nil]
      simp only [Nat.add_mul] at conserved ⊢
      omega
    · rw [quiet]
      exact ⟨served', by simpa using conserved⟩

end Calls

/-- A task is reported once when its target is reached. From the first dispatch on no slot is lost or counted twice. -/
theorem grid_timer_is_absolute {epoch : Nat} {periods : List Nat}
    (positive : ∀ p ∈ periods, 0 < p)
    (fits : ∀ p ∈ periods, epoch + p < 2 ^ 64)
    {calls : List GridCall} {g : GridTimer}
    (run : Run GridTimer.Called (.new epoch periods) calls g)
    {slot period : Nat}
    (task : periods[slot]? = some period) :
    ∃ t, g.tasks[slot]? = some t ∧ (∃ k, 1 ≤ k ∧ t.next = epoch + k * period) ∧
      (∀ call g', g.Called call g' → ∃ t', g'.tasks[slot]? = some t' ∧ call.now < t'.next ∧
      (t.next ≤ call.now → ∃ lateBy m, call.due.filter (·.slot == slot) = [⟨slot, t.carry, lateBy⟩] ∧
      epoch + m * period ≤ call.now ∧ call.now < epoch + (m + 1) * period ∧ lateBy = call.now - (epoch + m * period) ∧
      lateBy < period) ∧ (call.now < t.next → call.due.filter (·.slot == slot) = [])) ∧
      ((dispatchesOf slot calls).length = 1 → ∀ later g', Run GridTimer.Called g later g' →
      ∃ t', g'.tasks[slot]? = some t' ∧ t'.next - t.next =
      ((dispatchesOf slot later).length + skippedOf slot later + t'.carry) * period) := by
  have positive := positive period (mem_of_getElem? task)
  obtain ⟨rfl, t, found, onGrid, served, fresh⟩ := run_scheduled fits run task positive
  refine ⟨t, found, onGrid.target, ?_, ?_⟩
  · intro call g' called
    obtain ⟨t', found', _, _, ahead, outcome⟩ := called.task found onGrid positive
    refine ⟨t', found', ahead, ?_⟩
    rcases outcome with ⟨due, reported, _⟩ | ⟨early, quiet, _⟩
    · refine ⟨fun _ => ⟨_, (call.now - g.epoch) / period, reported, ?_⟩,
        fun early => absurd due (Nat.not_le_of_lt early)⟩
      obtain ⟨k, _⟩ := onGrid.target
      have started : g.epoch ≤ call.now := by omega
      obtain ⟨reached, before⟩ := grid_bounds positive started
      refine ⟨reached, before, rfl, ?_⟩
      rw [Nat.succ_mul] at before
      omega
    · exact ⟨fun due => absurd due (Nat.not_le_of_lt early), fun _ => quiet⟩
  · intro once later g' after
    have dispatched : t.served = true := by
      rw [served, decide_eq_true_iff, ← length_pos_iff]
      omega
    obtain ⟨_, t', found', _, _, conserved⟩ := run_conserves found onGrid positive dispatched after
    refine ⟨t', found', ?_⟩
    rw [fresh (le_of_eq once)] at conserved
    omega

def lateWake : GridTimer := ⟨100, [⟨10, 120, 0, true⟩, ⟨25, 125, 0, false⟩]⟩

theorem lateWake_conserves : ∃ t t', lateWake.tasks[0]? = some t ∧
    (lateWake.takeDue 145).2.tasks[0]? = some t' ∧ t'.next - t.next = (1 + 0 + t'.carry) * 10 := by
  have first : Run GridTimer.Called (.new 100 [10, 25]) ([] ++ [⟨110, [⟨0, 0, 0⟩]⟩]) lateWake := by
    refine .snoc .nil ⟨?_, by decide⟩
    simp [GridTimer.Fits, GridTimer.new, GridTask.Fits, new, add, saturate]
  have second : Run GridTimer.Called lateWake ([] ++ [⟨145, [⟨0, 0, 5⟩, ⟨1, 0, 20⟩]⟩]) (lateWake.takeDue 145).2 := by
    refine .snoc .nil ⟨?_, by decide⟩
    simp [GridTimer.Fits, lateWake, GridTask.Fits]
  have task : ([10, 25] : List Nat)[0]? = some 10 := rfl
  obtain ⟨t, found, _, _, conserves⟩ := grid_timer_is_absolute (by decide) (by decide) first task
  obtain ⟨t', found', moved⟩ := conserves (by decide) _ _ second
  exact ⟨t, t', found, found', moved⟩

end Taktora.Exec
