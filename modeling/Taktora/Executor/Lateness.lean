import Taktora.Executor.Wake

namespace Taktora.Exec

open Saturating Executor List Option TaskEntry Loop

section Triggers

variable {e : Executor} {t : TaskEntry} {i k period : Nat} {tasks : List TaskEntry}

def TaskEntry.periods (t : TaskEntry) : List Nat := t.decls.filterMap (·.interval?)

theorem periods_of_valid (valid : ValidTriggers t.decls) :
    t.periods = [] ∨ ∃ period, 0 < period ∧ t.decls = [.interval period] ∧ t.periods = [period] := by
  rcases valid with listeners | ⟨period, positive, only⟩
  · left
    rw [periods, filterMap_eq_nil_iff]
    intro decl member
    have listener := listeners decl member
    cases decl with
    | interval => cases listener
    | _ => rfl
  · right
    refine ⟨period, positive, only, ?_⟩
    rw [periods, only]
    rfl

def triggersFrom (tasks : List TaskEntry) (n : Nat) : List (Nat × Nat) :=
  (tasks.zipIdx n).flatMap fun (t, i) => t.periods.map fun period => (i, saturate 64 period)

theorem triggersFrom_bound {n : Nat} {trigger : Nat × Nat}
    (member : trigger ∈ triggersFrom tasks n) : n ≤ trigger.1 := by
  obtain ⟨⟨t, i⟩, indexed, inside⟩ := mem_flatMap.mp member
  obtain ⟨_, _, rfl⟩ := mem_map.mp inside
  exact le_snd_of_mem_zipIdx indexed

theorem triggersFrom_nodup (valid : ∀ t ∈ tasks, ValidTriggers t.decls) (n : Nat) :
    ((triggersFrom tasks n).map (·.1)).Nodup := by
  induction tasks generalizing n with
  | nil => exact nodup_nil
  | cons t rest ih =>
    have tail := ih (fun t member => valid t (mem_cons_of_mem _ member)) (n + 1)
    have split : triggersFrom (t :: rest) n =
        (t.periods.map fun period => (n, saturate 64 period)) ++ triggersFrom rest (n + 1) := by
      rfl
    rw [split]
    rcases periods_of_valid (valid t mem_cons_self) with none | ⟨_, _, _, one⟩
    · rw [none]
      exact tail
    · rw [one]
      refine nodup_cons.mpr ⟨?_, tail⟩
      intro member
      obtain ⟨_, inside, same⟩ := mem_map.mp member
      have bound := triggersFrom_bound inside
      dsimp only at same
      omega

theorem triggersFrom_task (valid : ∀ t ∈ tasks, ValidTriggers t.decls) {trigger : Nat × Nat}
    (member : trigger ∈ triggersFrom tasks 0) :
    ∃ t period, tasks[trigger.1]? = some t ∧ t.decls = [.interval period] ∧ 0 < period ∧
      trigger.2 = saturate 64 period := by
  obtain ⟨⟨t, i⟩, indexed, inside⟩ := mem_flatMap.mp member
  obtain ⟨period, own, rfl⟩ := mem_map.mp inside
  have found : tasks[i]? = some t := mem_zipIdx_iff_getElem?.mp indexed
  refine ⟨t, period, found, ?_⟩
  rcases periods_of_valid (valid t (mem_of_getElem? found)) with none | ⟨_, positive, decls, one⟩
  · rw [none] at own
    cases own
  · rw [one] at own
    cases mem_singleton.mp own
    exact ⟨decls, positive, rfl⟩

end Triggers

/-- What holds of a cyclic task and of its slot in the timer as long as the loop runs. -/
structure CyclicSlot (l : Loop) (k i period : Nat) : Prop where
  index : l.cyclicTaskIndices[k]? = some i
  distinct : l.cyclicTaskIndices.Nodup
  mode : l.exec.dispatchMode = .grid
  positive : 0 < period
  task : ∃ t, l.exec.tasks[i]? = some t ∧ t.decls = [.interval period] ∧ t.scanPeriod = some period

/-- The lateness grid of a task has not begun, or agrees with its slot in the timer on the next target. -/
inductive Agrees (t : TaskEntry) (g : GridTask) (cycles : List CycleObservation) : Prop where
  | fresh (unanchored : t.anchor = (none, 0)) (unserved : g.served = false) (first : cycles = [])
  | anchored (epoch : Nat) (anchor : t.gridEpoch = some epoch) (served : g.served = true) (later : cycles ≠ [])
      (nominal : epoch + (t.gridSlot + 1 + g.carry) * g.periodNs = g.next)

variable (l : Loop)

def Idle (k i p : Nat) : Prop :=
  ∃ t g, l.exec.tasks[i]? = some t ∧ l.grid.tasks[k]? = some g ∧ g.OnGrid l.grid.epoch p ∧ t.pendingCycle = none ∧
    Agrees t g (observationsOf i l.exec.observed)

structure Busy (l : Loop) (k i p now : Nat) (due : List Due) (b : GridTask) : Prop where
  onGrid : b.OnGrid l.grid.epoch p
  fits : b.Fits l.grid.epoch now
  reached : b.next ≤ now
  slot : l.grid.tasks[k]? = some (b.dispatched l.grid.epoch now)
  task : ∃ t, l.exec.tasks[i]? = some t ∧ Agrees t b (observationsOf i l.exec.observed) ∧
    ((t.pendingCycle = none ∧ due.filter (·.slot == k) = [⟨k, b.carry, b.lateBy l.grid.epoch now⟩]) ∨
      (due.filter (·.slot == k) = [] ∧ (∃ faulted, t.pendingCycle = some ⟨now, faulted⟩) ∧ t.pendingSkipped = b.carry ∧
        t.pendingLate = some (b.lateBy l.grid.epoch now)))

def Phase.next : Phase → Option (Nat × Due)
  | .dispatching now (due :: _) => some (now, due)
  | _ => none

def Loop.Exact : Action → Prop
  | .enter _ => False
  | .gridPass consulted now => consulted = true → l.grid.Fits now ∧ now < 2 ^ 63
  | .cyclic _ clock _ => ∀ reported ∈ l.phase.next, clock.pre = reported.1 ∧ reported.2.skipped < 2 ^ 32
  | _ => True

instance (l : Loop) : DecidablePred l.Exact := by
  intro a
  cases a <;> unfold Loop.Exact GridTimer.Fits GridTask.Fits <;> infer_instance

def Loop.ExactStep (a : Action) (l' : Loop) : Prop := l.Step a l' ∧ l.Exact a

structure Untouched (i : Nat) (l l' : Loop) : Prop where
  task : ∀ t, l.exec.tasks[i]? = some t → ∃ t', l'.exec.tasks[i]? = some t' ∧ t'.cycle = t.cycle
  observations : observationsOf i l'.exec.observed = observationsOf i l.exec.observed
  grid : l'.grid = l.grid

section Slots

variable {l l' : Loop} {a : Action} {k i p period now : Nat} {due due' : List Due} {b g : GridTask} {t t' : TaskEntry}
    {found : Option GridTask} {cycles : List CycleObservation}
  {e : Executor} {graphError : Option ItemError} {rest : List Due} {epoch : Nat} {more : Bool}

theorem Agrees.congr (agrees : Agrees t g cycles) (same : t'.anchor = t.anchor) : Agrees t' g cycles := by
  obtain ⟨epochs, slots⟩ := Prod.mk.inj same
  cases agrees with
  | fresh unanchored unserved first => exact .fresh (same.trans unanchored) unserved first
  | anchored epoch anchor served later nominal =>
    exact .anchored epoch (epochs.trans anchor) served later (slots ▸ nominal)

theorem Idle.untouched (idle : Idle l k i p) (same : Untouched i l l') : Idle l' k i p := by
  obtain ⟨t, g, found, slot, onGrid, quiet, agrees⟩ := idle
  obtain ⟨t', found', equal⟩ := same.task t found
  refine ⟨t', g, found', same.grid ▸ slot, same.grid ▸ onGrid, (congrArg pendingCycle equal).trans quiet, ?_⟩
  rw [same.observations]
  exact agrees.congr (congrArg anchor equal :)

theorem Busy.untouched
    (busy : Busy l k i p now due b)
    (same : Untouched i l l')
    (left : due'.filter (·.slot == k) = due.filter (·.slot == k)) : Busy l' k i p now due' b := by
  obtain ⟨onGrid, fits, reached, slot, t, found, agrees, outcome⟩ := busy
  obtain ⟨t', found', equal⟩ := same.task t found
  rw [← same.grid] at onGrid fits slot outcome
  refine ⟨onGrid, fits, reached, slot, t', found', ?_, ?_⟩
  · rw [same.observations]
    exact agrees.congr (congrArg anchor equal :)
  · have pending : t'.pendingCycle = t.pendingCycle := (congrArg pendingCycle equal :)
    have skipped : t'.pendingSkipped = t.pendingSkipped := (congrArg pendingSkipped equal :)
    have late : t'.pendingLate = t.pendingLate := (congrArg pendingLate equal :)
    rw [left, pending, skipped, late]
    exact outcome

theorem untouched_of_sameCycles (same : l.exec.SameCycles l'.exec) (grid : l'.grid = l.grid) : Untouched i l l' := by
  refine ⟨?_, same.observations i, grid⟩
  intro t found
  obtain ⟨t', found', equal⟩ := getElem?_of_map_eq same.tasks.symm found
  exact ⟨t', found', equal.symm⟩

theorem dispatchTask_elsewhere {clock : DispatchClock} {j : Nat}
    (other : j ≠ i)
    (found : e.tasks[i]? = some t) :
    ∃ t', (e.dispatchTask clock graphError j).tasks[i]? = some t' ∧ t'.cycle = t.cycle := by
  cases there : e.tasks[j]? with
  | none =>
    rw [dispatchTask_none there]
    exact ⟨t, found, rfl⟩
  | some u =>
    by_cases fresh : u.pendingCycle = none
    · have same := dispatchTask_fresh clock graphError there fresh
      have kept : (e.dispatched clock.pre j u).tasks[i]? = some t := by
        rw [dispatched, hand_tasks, modifyTask_other other]
        exact found
      obtain ⟨t', found', equal⟩ := getElem?_of_map_eq same.tasks.symm kept
      exact ⟨t', found', equal.symm⟩
    · rw [dispatchTask_pending there fresh]
      exact ⟨t, found, rfl⟩

theorem dispatchCyclic_here (clock : DispatchClock) (graphError : Option ItemError) (skipped lateBy : Nat)
    (found : e.tasks[i]? = some t)
    (fresh : t.pendingCycle = none) :
    ∃ t' faulted, (e.dispatchCyclic clock graphError i skipped lateBy).tasks[i]? = some t' ∧
      t'.cycle = ((t.signal skipped lateBy).mark ⟨clock.pre, faulted⟩).cycle := by
  have signalled := modifyTask_here (f := (·.signal skipped lateBy)) found
  have same := dispatchTask_fresh clock graphError signalled fresh
  have marked : ∃ faulted, ((e.modifyTask i (·.signal skipped lateBy)).dispatched clock.pre i
      (t.signal skipped lateBy)).tasks[i]? = some ((t.signal skipped lateBy).mark ⟨clock.pre, faulted⟩) := by
    rw [dispatched, hand_tasks]
    exact ⟨_, modifyTask_here signalled⟩
  obtain ⟨faulted, marked⟩ := marked
  obtain ⟨t', found', equal⟩ := getElem?_of_map_eq same.tasks.symm marked
  exact ⟨t', faulted, found', equal.symm⟩

theorem untouched_of_moves
    (moves : l.Moves a l')
    (running : l.phase ≠ .stopped)
    (inside : a.endsWake = false)
    (other : a.target ≠ some i)
    (unconsulted : ∀ consulted now, a ≠ .gridPass consulted now) : Untouched i l l' := by
  cases moves with
  | register stopped | enter stopped => exact absurd stopped running
  | ignored => exact untouched_of_sameCycles (.refl _) rfl
  | @fired j clock graphError waiting attached =>
    have different : j ≠ i := fun same => other (congrArg some same)
    refine ⟨fun t found => dispatchTask_elsewhere different found, ?_, rfl⟩
    exact (dispatchTask_dispatching _ _ _ _).observations i
  | gridPass => exact absurd rfl (unconsulted _ _)
  | @cyclic now due rest j clock graphError phase task =>
    have different : j ≠ i := fun same => other (congrArg some same)
    refine ⟨?_, (dispatchCyclic_dispatching _ _ _ _ _ _).observations i, rfl⟩
    intro t found
    exact dispatchTask_elsewhere different ((modifyTask_other different).trans found)
  | @executed k x job found =>
    have same := execute_same l k x job
    refine ⟨?_, same.observations i, rfl⟩
    intro t found
    obtain ⟨t', found', equal⟩ := getElem?_of_map_eq same.tasks.symm found
    exact ⟨t', found', equal.symm⟩
  | barrier | abandon => cases inside
  | clearTask => exact untouched_of_sameCycles clearTaskFault_same rfl
  | clearExecutor => exact untouched_of_sameCycles clearExecutorFault_same rfl

theorem consulted_eq (slot : CyclicSlot l k i period) :
    l.gridPass true now =
      { l with phase := .dispatching now (l.grid.takeDue now).1, grid := (l.grid.takeDue now).2 } := by
  have some_cyclic : l.cyclicTaskIndices ≠ [] := by
    intro empty
    have index := slot.index
    rw [empty] at index
    cases index
  rw [gridPass, if_pos ⟨rfl, slot.mode, some_cyclic⟩]

theorem Idle.consulted
    (idle : Idle l k i p)
    (fits : l.grid.Fits now)
    (slot : CyclicSlot l k i period)
    (task : l.grid.tasks[k]? = some g)
    (reached : g.next ≤ now) :
    Busy (l.gridPass true now) k i p now (l.grid.takeDue now).1 g := by
  obtain ⟨t, _, found, slot', onGrid, quiet, agrees⟩ := idle
  cases task.symm.trans slot'
  rw [consulted_eq slot]
  refine ⟨onGrid, fits.task task, reached, ?_, t, found, agrees, .inl ⟨quiet, ?_⟩⟩
  · have took := takeDue_task now task
    rwa [if_pos reached] at took
  · rw [takeDue_due now task, if_pos reached]
    rfl

theorem Idle.early
    (idle : Idle l k i p)
    (slot : CyclicSlot l k i period)
    (task : l.grid.tasks[k]? = some g)
    (early : now < g.next) :
    Idle (l.gridPass true now) k i p ∧ (l.grid.takeDue now).1.filter (·.slot == k) = [] := by
  obtain ⟨t, _, found, slot', onGrid, quiet, agrees⟩ := idle
  cases task.symm.trans slot'
  rw [consulted_eq slot]
  refine ⟨⟨t, g, found, ?_, onGrid, quiet, agrees⟩, ?_⟩
  · have took := takeDue_task now task
    rwa [if_neg (Nat.not_le_of_lt early)] at took
  · rw [takeDue_due now task, if_neg (Nat.not_le_of_lt early)]

theorem moves_in_pass
    (moves : l.Moves a l')
    (phase : l.phase = .dispatching now due)
    (inside : a.endsWake = false) :
    (∃ d rest j clock graphError, a = .cyclic j clock graphError ∧ due = d :: rest ∧
      l.cyclicTaskIndices[d.slot]? = some j ∧ l'.phase = .dispatching now rest) ∨
      (a.target = none ∧ (∀ consulted now, a ≠ .gridPass consulted now) ∧ l'.phase = .dispatching now due) := by
  cases moves with
  | register stopped | enter stopped => cases phase.symm.trans stopped
  | ignored waiting | fired waiting | gridPass waiting => cases phase.symm.trans waiting
  | cyclic here task =>
    cases phase.symm.trans here
    exact .inl ⟨_, _, _, _, _, rfl, rfl, task, rfl⟩
  | executed | clearTask | clearExecutor => exact .inr ⟨rfl, nofun, phase⟩
  | barrier | abandon => cases inside

theorem grid_in_pass (moves : l.Moves a l') (phase : l.phase = .dispatching now due) : l'.grid = l.grid := by
  cases moves with
  | enter stopped => cases phase.symm.trans stopped
  | gridPass waiting => cases phase.symm.trans waiting
  | _ => rfl

theorem CyclicSlot.unique {j slot : Nat}
    (cyclic : CyclicSlot l k i period)
    (task : l.cyclicTaskIndices[slot]? = some j) : j = i ↔ slot = k := by
  refine ⟨?_, ?_⟩
  · rintro rfl
    have inside := (List.getElem?_eq_some_iff.mp task).1
    exact (getElem?_inj inside cyclic.distinct).mp (task.trans cyclic.index.symm)
  · rintro rfl
    exact some.inj (task.symm.trans cyclic.index)

theorem filter_other {d : Due} (other : d.slot ≠ k) :
    (d :: rest).filter (·.slot == k) = rest.filter (·.slot == k) := by
  rw [filter_cons, if_neg (by simpa using other)]

theorem filter_own {d : Due} (own : d.slot = k) :
    (d :: rest).filter (·.slot == k) = d :: rest.filter (·.slot == k) := by
  rw [filter_cons, if_pos (by simpa using own)]

theorem Busy.dispatched {d : Due} {clock : DispatchClock}
    (busy : Busy l k i p now (d :: rest) b) (own : d.slot = k) (pre : clock.pre = now) (few : d.skipped < 2 ^ 32) :
    Busy { l with exec := l.exec.dispatchCyclic clock graphError i d.skipped d.lateBy, phase := .dispatching now rest }
      k i p now rest b := by
  obtain ⟨onGrid, fits, reached, slot, t, found, agrees, outcome⟩ := busy
  rw [filter_own own] at outcome
  rcases outcome with ⟨quiet, only⟩ | ⟨none, _⟩
  · obtain ⟨rfl, left⟩ := cons.inj only
    obtain ⟨t', faulted, found', equal⟩ :=
      dispatchCyclic_here clock graphError b.carry (b.lateBy l.grid.epoch now) found quiet
    refine ⟨onGrid, fits, reached, slot, t', found', ?_, .inr ⟨left, ?_, ?_, ?_⟩⟩
    · have observed := (dispatchCyclic_dispatching l.exec clock graphError i b.carry
        (b.lateBy l.grid.epoch now)).observations i
      rw [observed]
      exact agrees.congr (congrArg anchor equal :)
    · exact ⟨faulted, pre ▸ congrArg pendingCycle equal⟩
    · have skipped : t'.pendingSkipped = saturate 32 b.carry := congrArg pendingSkipped equal
      rw [skipped, saturate_eq few]
    · exact congrArg pendingLate equal
  · cases none

/-- In a grid pass that found the task due, in its slot `b`, or found it not due. -/
inductive Pass (l : Loop) (k i p now : Nat) (due : List Due) : Option GridTask → Prop where
  | rest (idle : Idle l k i p) (rests : due.filter (·.slot == k) = []) : Pass l k i p now due none
  | busy {b : GridTask} (busy : Busy l k i p now due b) (small : now < 2 ^ 63) : Pass l k i p now due (some b)

theorem Pass.untouched (pass : Pass l k i p now due found) (same : Untouched i l l')
    (left : due'.filter (·.slot == k) = due.filter (·.slot == k)) : Pass l' k i p now due' found := by
  cases pass with
  | rest idle rests => exact .rest (idle.untouched same) (left.trans rests)
  | busy busy small => exact .busy (busy.untouched same left) small

theorem Pass.step (pass : Pass l k i p now due found)
    (cyclic : CyclicSlot l k i period)
    (phase : l.phase = .dispatching now due)
    (step : l.ExactStep a l')
    (inside : a.endsWake = false) :
    ∃ due', l'.phase = .dispatching now due' ∧ Pass l' k i p now due' found := by
  obtain ⟨step, exact⟩ := step
  have running : l.phase ≠ .stopped := by
    rw [phase]
    exact nofun
  rcases moves_in_pass step.moves phase inside with
    ⟨d, rest, j, _, _, rfl, rfl, task, phase'⟩ | ⟨none, unconsulted, phase'⟩
  · by_cases own : j = i
    · subst own
      have slot := (cyclic.unique task).mp rfl
      cases pass with
      | rest idle rests =>
        rw [filter_own slot] at rests
        cases rests
      | busy busy small =>
        obtain ⟨pre, few⟩ := exact (now, d) (by rw [phase]; rfl)
        cases step.moves with
        | cyclic here _ =>
          cases phase.symm.trans here
          exact ⟨rest, rfl, .busy (busy.dispatched slot pre few) small⟩
    · have other : d.slot ≠ k := fun same => own ((cyclic.unique task).mpr same)
      have same : Untouched i l l' := untouched_of_moves step.moves running rfl
        (fun target => own (some.inj target)) (fun _ _ => nofun)
      exact ⟨rest, phase', pass.untouched same (filter_other other).symm⟩
  · have same : Untouched i l l' := untouched_of_moves step.moves running inside (by rw [none]; exact nofun) unconsulted
    exact ⟨due, phase', pass.untouched same rfl⟩

theorem CyclicSlot.step
    (cyclic : CyclicSlot l k i period)
    (moves : l.Moves a l')
    (running : l.phase ≠ .stopped) : CyclicSlot l' k i period := by
  have unregistered : ∀ call, a ≠ .register call := by
    rintro _ rfl
    cases moves with
    | register stopped => exact running stopped
  have same := moves.sameTasks unregistered
  have indices : l'.cyclicTaskIndices = l.cyclicTaskIndices := by
    cases moves with
    | enter stopped => exact absurd stopped running
    | gridPass =>
      unfold gridPass
      split <;> rfl
    | _ => rfl
  obtain ⟨t, found, decls, scan⟩ := cyclic.task
  obtain ⟨t', found', equal⟩ := getElem?_of_map_eq same.tasks.symm found
  refine ⟨indices ▸ cyclic.index, indices ▸ cyclic.distinct, same.mode.trans cyclic.mode, cyclic.positive, t', found',
    ?_, ?_⟩
  · exact (congrArg TaskEntry.decls equal.symm).trans decls
  · exact (congrArg scanPeriod equal.symm).trans scan

theorem CyclicSlot.unattached (cyclic : CyclicSlot l k i period) : l.exec.attached i = false := by
  obtain ⟨t, found, decls, _⟩ := cyclic.task
  rw [attached, found, elim_some, decls, cyclic.mode]
  rfl

/-- The first cycle reports the lateness of the timer, and every later one has its nominal instant at the target. -/
structure LatenessRecord (now : Nat) (b : GridTask) (lateBy : Nat) (cycles : List CycleObservation) (t : TaskEntry)
    (o : CycleObservation) : Prop where
  pre : o.preNs = now
  first : cycles = [] → o.faulted = false → o.latenessNs = some lateBy
  later : cycles ≠ [] → ∃ epoch, t.gridEpoch = some epoch ∧ epoch + t.gridSlot * b.periodNs = b.next
  lateness : cycles ≠ [] → o.faulted = false → o.latenessNs = some ((now : Int) - b.next)

theorem toI64_eq {n : Nat} (small : n < 2 ^ 63) : toI64 n = n := by
  rw [toI64]
  omega

theorem first_nominal {lateBy : Nat} (now : Nat)
    (unanchored : t.anchor = (none, 0))
    (late : t.pendingLate = some lateBy) :
    t.nominalEpoch now = now - lateBy ∧ t.nominalSlot = 0 := by
  obtain ⟨epoch, slot⟩ := Prod.mk.inj unanchored
  refine ⟨?_, ?_⟩
  · rw [nominalEpoch, epoch, late]
    rfl
  · rw [nominalSlot, epoch, slot]
    rfl

theorem later_nominal (now : Nat)
    (anchor : t.gridEpoch = some epoch)
    (small : t.gridSlot + 1 + t.pendingSkipped < 2 ^ 64) :
    t.nominalEpoch now = epoch ∧ t.nominalSlot = t.gridSlot + 1 + t.pendingSkipped := by
  refine ⟨?_, ?_⟩
  · rw [nominalEpoch, anchor]
    rfl
  · rw [nominalSlot, anchor, isSome_some, if_pos rfl, add_eq (a := t.gridSlot) (by omega), add_eq small]

theorem recorded_first (cycles : List CycleObservation)
    (unanchored : t.anchor = (none, 0))
    (unserved : b.served = false)
    (onGrid : b.OnGrid epoch p)
    (positive : 0 < p)
    (fits : b.Fits epoch now)
    (reached : b.next ≤ now)
    (late : t.pendingLate = some (b.lateBy epoch now))
    (small : now < 2 ^ 63)
    (o : CycleObservation) :
    Agrees (t.takePending.recorded now) (b.dispatched epoch now) (cycles ++ [o]) ∧
      t.lateness now p = b.lateBy epoch now := by
  obtain ⟨onGrid', served, _⟩ := onGrid.dispatched positive fits reached
  have lateBy := onGrid.lateBy positive fits reached
  have next : (b.dispatched epoch now).next = epoch + ((now - epoch) / p + 1) * p := by
    rw [GridTask.dispatched, if_neg (onGrid.same_period ▸ ne_of_gt positive)]
    exact onGrid.realigned positive fits reached
  obtain ⟨k, _⟩ := onGrid.target
  obtain ⟨_, _⟩ := grid_bounds positive (show epoch ≤ now by omega)
  obtain ⟨nominal, slot⟩ := first_nominal now unanchored late
  rw [lateBy] at nominal
  refine ⟨.anchored (now - (now - (epoch + (now - epoch) / p * p))) (congrArg some nominal) served ?_ ?_, ?_⟩
  · exact append_ne_nil_of_right_ne_nil _ (cons_ne_nil _ _)
  · have zero : (t.takePending.recorded now).gridSlot = 0 := slot
    rw [zero, GridTask.dispatched_carry unserved, onGrid'.same_period, next, Nat.add_mul ((now - epoch) / p) 1]
    omega
  · rw [lateness, slot, toI64_eq (by omega), zero_mul, toI64_eq (by decide)]
    omega

theorem recorded_later {anchor : Nat} (cycles : List CycleObservation)
    (anchored : t.gridEpoch = some anchor)
    (served : b.served = true)
    (nominal : anchor + (t.gridSlot + 1 + b.carry) * b.periodNs = b.next)
    (onGrid : b.OnGrid epoch p)
    (positive : 0 < p)
    (fits : b.Fits epoch now)
    (reached : b.next ≤ now)
    (skipped : t.pendingSkipped = b.carry)
    (small : now < 2 ^ 63)
    (o : CycleObservation) :
    Agrees (t.takePending.recorded now) (b.dispatched epoch now) (cycles ++ [o]) ∧
      (t.takePending.recorded now).gridEpoch = some anchor ∧
      anchor + (t.takePending.recorded now).gridSlot * b.periodNs = b.next ∧
      t.lateness now p = (now : Int) - b.next := by
  obtain ⟨onGrid', served', _⟩ := onGrid.dispatched positive fits reached
  have period := onGrid.same_period
  have moved := onGrid.carried positive fits reached served
  have few := Nat.le_mul_of_pos_right (t.gridSlot + 1 + b.carry) (period ▸ positive)
  obtain ⟨epochs, slots⟩ := later_nominal now anchored (by omega)
  rw [skipped] at slots
  have anchors : (t.takePending.recorded now).gridEpoch = some anchor := congrArg some epochs
  have slot : (t.takePending.recorded now).gridSlot = t.gridSlot + 1 + b.carry := slots
  refine ⟨.anchored anchor anchors served' ?_ ?_, anchors, slot ▸ nominal, ?_⟩
  · exact append_ne_nil_of_right_ne_nil _ (cons_ne_nil _ _)
  · rw [slot, onGrid'.same_period, moved, ← nominal, period]
    rw [add_assoc (t.gridSlot + 1 + b.carry), Nat.add_mul (t.gridSlot + 1 + b.carry)]
    omega
  · rw [period] at nominal few
    rw [lateness, slots, toI64_eq (by omega), toI64_eq (by omega)]
    omega

theorem Busy.barrier
    (busy : Busy l k i p now [] b)
    (cyclic : CyclicSlot l k i period)
    (sound : l.exec.Sound)
    (saturated : p = saturate 64 period)
    (positive : 0 < p)
    (small : now < 2 ^ 63) :
    Idle (l.barrier more) k i p ∧ ∃ t' o, (l.barrier more).exec.tasks[i]? = some t' ∧
      observationsOf i (l.barrier more).exec.observed = observationsOf i l.exec.observed ++ [o] ∧
      LatenessRecord now b (b.lateBy l.grid.epoch now) (observationsOf i l.exec.observed) t' o := by
  obtain ⟨onGrid, fits, reached, slot, t, found, agrees, outcome⟩ := busy
  rcases outcome with ⟨_, none⟩ | ⟨_, ⟨faulted, marked⟩, skipped, late⟩
  · cases none
  obtain ⟨_, found₁, _, scan⟩ := cyclic.task
  cases found.symm.trans found₁
  obtain ⟨stats, counted⟩ := sound.counter found
  have records := barrierAndRecord_records found counted
  have folded : t.folded = t.takePending.recorded now := by rw [folded, marked, scan]
  have record : t.cycleRecord stats i = [t.observation stats.cycleIndex i period ⟨now, faulted⟩] := by
    rw [cycleRecord, marked, scan]
  have task : (l.barrier more).exec.tasks[i]? = some (t.takePending.recorded now) := folded ▸ records.task
  have observed : observationsOf i (l.barrier more).exec.observed = observationsOf i l.exec.observed ++
      [t.observation stats.cycleIndex i period ⟨now, faulted⟩] := record ▸ records.observations
  have onGrid' := (onGrid.dispatched positive fits reached).1
  have measured : faulted = false →
      (t.observation stats.cycleIndex i period ⟨now, faulted⟩).latenessNs = some (t.lateness now p) := by
    intro normal
    rw [saturated] at positive ⊢
    exact if_pos ⟨positive, normal⟩
  cases agrees with
  | fresh unanchored unserved first =>
    obtain ⟨agrees', lateness⟩ := recorded_first (observationsOf i l.exec.observed) unanchored unserved onGrid
      positive fits reached late small (t.observation stats.cycleIndex i period ⟨now, faulted⟩)
    refine ⟨⟨_, _, task, slot, onGrid', rfl, observed ▸ agrees'⟩, _, _, task, observed, rfl, ?_, ?_, ?_⟩
    · intro _ normal
      exact (measured normal).trans (congrArg some lateness)
    · exact fun later => absurd first later
    · exact fun later => absurd first later
  | anchored anchor anchored served later nominal =>
    obtain ⟨agrees', epoch, slots, lateness⟩ := recorded_later (observationsOf i l.exec.observed) anchored served
      nominal onGrid positive fits reached skipped small (t.observation stats.cycleIndex i period ⟨now, faulted⟩)
    refine ⟨⟨_, _, task, slot, onGrid', rfl, observed ▸ agrees'⟩, _, _, task, observed, rfl, ?_, ?_, ?_⟩
    · exact fun first => absurd first later
    · exact fun _ => ⟨anchor, epoch, slots⟩
    · intro _ normal
      exact (measured normal).trans (congrArg some lateness)

theorem Idle.barrier
    (idle : Idle l k i p)
    (sound : l.exec.Sound) :
    Idle (l.barrier more) k i p ∧ observationsOf i (l.barrier more).exec.observed =
      observationsOf i l.exec.observed := by
  obtain ⟨t, g, found, slot, onGrid, quiet, agrees⟩ := idle
  obtain ⟨stats, counted⟩ := sound.counter found
  have records := barrierAndRecord_records found counted
  have silent : t.cycleRecord stats i = [] := by rw [cycleRecord, quiet]
  have observed : observationsOf i (l.barrier more).exec.observed = observationsOf i l.exec.observed := by
    refine records.observations.trans ?_
    rw [silent, append_nil]
  refine ⟨⟨t.folded, g, records.task, slot, onGrid, t.folded_pendingCycle, ?_⟩, observed⟩
  rw [observed]
  exact agrees.congr (folded_anchor silent)

inductive Tracked (l : Loop) (k i period : Nat) : Prop where
  | stopped (phase : l.phase = .stopped)
  | waiting (phase : l.phase = .waiting) (cyclic : CyclicSlot l k i period) (idle : Idle l k i (saturate 64 period))
  | resting (now : Nat) (due : List Due) (phase : l.phase = .dispatching now due) (cyclic : CyclicSlot l k i period)
      (idle : Idle l k i (saturate 64 period)) (rests : due.filter (·.slot == k) = [])
  | busy (now : Nat) (due : List Due) (b : GridTask) (phase : l.phase = .dispatching now due)
      (cyclic : CyclicSlot l k i period) (busy : Busy l k i (saturate 64 period) now due b) (small : now < 2 ^ 63)

theorem saturate_pos (cyclic : CyclicSlot l k i period) : 0 < saturate 64 period := by
  have positive := cyclic.positive
  rw [saturate]
  omega

theorem stopped_stays
    (moves : l.Moves a l')
    (stopped : l.phase = .stopped)
    (outside : ∀ now, a ≠ .enter now) : l'.phase = .stopped := by
  cases moves with
  | register | executed | clearTask | clearExecutor => exact stopped
  | enter => exact absurd rfl (outside _)
  | ignored waiting | fired waiting | gridPass waiting => cases stopped.symm.trans waiting
  | cyclic phase | barrier phase => cases stopped.symm.trans phase
  | abandon running => exact absurd stopped running

theorem Tracked.afterBarrier (cyclic : CyclicSlot (l.barrier more) k i period)
    (idle : Idle (l.barrier more) k i (saturate 64 period)) : Tracked (l.barrier more) k i period := by
  by_cases goes : more = true ∧ l.exec.iterErr = none
  · exact .waiting (if_pos goes) cyclic idle
  · exact .stopped (if_neg goes)

theorem Tracked.fromWaiting
    (phase : l.phase = .waiting)
    (cyclic : CyclicSlot l k i period)
    (idle : Idle l k i (saturate 64 period))
    (step : l.ExactStep a l') : Tracked l' k i period := by
  obtain ⟨step, exact⟩ := step
  have running : l.phase ≠ .stopped := by
    rw [phase]
    exact nofun
  have cyclic' := cyclic.step step.moves running
  have keep : a.endsWake = false → a.target ≠ some i → (∀ consulted now, a ≠ .gridPass consulted now) →
      l'.phase = l.phase → Tracked l' k i period := fun inside other unconsulted same =>
    .waiting (same.trans phase) cyclic' (idle.untouched
      (untouched_of_moves step.moves running inside other unconsulted))
  cases step.moves with
  | register stopped | enter stopped => exact absurd stopped running
  | ignored | executed | clearTask | clearExecutor => exact keep rfl nofun (fun _ _ => nofun) rfl
  | @fired j clock graphError waiting attached =>
    refine keep rfl ?_ (fun _ _ => nofun) rfl
    intro same
    cases some.inj same
    rw [cyclic.unattached] at attached
    cases attached
  | @gridPass consulted now =>
    cases consulted with
    | true =>
      obtain ⟨fits, small⟩ := exact rfl
      obtain ⟨t, g, _, slot, _⟩ := id idle
      have phase' : (l.gridPass true now).phase = .dispatching now (l.grid.takeDue now).1 := by rw [consulted_eq cyclic]
      by_cases reached : g.next ≤ now
      · exact .busy now _ g phase' cyclic' (idle.consulted fits cyclic slot reached) small
      · obtain ⟨idle', rests⟩ := idle.early cyclic slot (Nat.lt_of_not_le reached)
        exact .resting now _ phase' cyclic' idle' rests
    | false =>
      exact .resting now [] rfl cyclic' idle rfl
  | cyclic here | barrier here => cases phase.symm.trans here
  | abandon => exact .stopped rfl

theorem Tracked.inPass
    (phase : l.phase = .dispatching now due)
    (cyclic : CyclicSlot l k i period)
    (sound : l.exec.Sound)
    (pass : Pass l k i (saturate 64 period) now due found)
    (step : l.ExactStep a l') : Tracked l' k i period := by
  have cyclic' := cyclic.step step.1.moves (by rw [phase]; exact nofun)
  cases inside : a.endsWake with
  | false =>
    obtain ⟨due', phase', pass'⟩ := pass.step cyclic phase step inside
    cases pass' with
    | rest idle rests => exact .resting now due' phase' cyclic' idle rests
    | busy busy small => exact .busy now due' _ phase' cyclic' busy small
  | true =>
    cases step.1.moves with
    | barrier here =>
      refine .afterBarrier cyclic' ?_
      cases pass with
      | rest idle => exact (idle.barrier sound).1
      | busy busy small =>
        cases phase.symm.trans here
        exact (busy.barrier cyclic sound rfl (saturate_pos cyclic) small).1
    | abandon => exact .stopped rfl
    | _ => cases inside

theorem Tracked.step
    (tracked : Tracked l k i period)
    (sound : l.exec.Sound)
    (step : l.ExactStep a l') : Tracked l' k i period := by
  cases tracked with
  | stopped phase =>
    refine .stopped (stopped_stays step.1.moves phase ?_)
    rintro _ rfl
    exact step.2
  | waiting phase cyclic idle => exact .fromWaiting phase cyclic idle step
  | resting now due phase cyclic idle rests => exact .inPass phase cyclic sound (.rest idle rests) step
  | busy now due b phase cyclic busy small => exact .inPass phase cyclic sound (.busy busy small) step

theorem cyclicTriggers_eq (mode : e.dispatchMode = .grid) : e.cyclicTriggers = triggersFrom e.tasks 0 := by
  rw [cyclicTriggers, if_pos mode]
  rfl

/-- The loop is entered with its cyclic tasks at rest, those without a cycle at the start of both grids. -/
theorem tracked_entered
    (sound : l.exec.Sound)
    (mode : l.exec.dispatchMode = .grid)
    (index : (l.entered epoch).cyclicTaskIndices[k]? = some i)
    (unrecorded : observationsOf i l.exec.observed = [])
    (fits : ∀ g ∈ (l.entered epoch).grid.tasks, epoch + g.periodNs < 2 ^ 64) :
    ∃ period, Tracked (l.entered epoch) k i period := by
  have valid : ∀ t ∈ l.exec.tasks, ValidTriggers t.decls := fun t member => (sound.tasks t member).triggers
  have indices : (l.entered epoch).cyclicTaskIndices = (triggersFrom l.exec.tasks 0).map (·.1) := by
    rw [← cyclicTriggers_eq mode]
    rfl
  have timer : (l.entered epoch).grid = .new epoch ((triggersFrom l.exec.tasks 0).map (·.2)) := by
    rw [← cyclicTriggers_eq mode]
    rfl
  rw [indices, getElem?_map] at index
  obtain ⟨trigger, at_k, rfl⟩ := map_eq_some_iff.mp index
  obtain ⟨t, period, found, decls, positive, saturated⟩ := triggersFrom_task valid (mem_of_getElem? at_k)
  have swept : (l.entered epoch).exec.tasks[trigger.1]? = some t.swept := by
    rw [entered, sweep, getElem?_map, found]
    rfl
  have scan : t.scanPeriod = some period := by
    rw [(sound.wellFormed found).period, decls]
    rfl
  have slot : (l.entered epoch).grid.tasks[k]? = some (.new epoch (saturate 64 period)) := by
    rw [timer]
    refine new_task ?_
    rw [getElem?_map, at_k, ← saturated]
    rfl
  have onGrid : (GridTask.new epoch (saturate 64 period)).OnGrid epoch (saturate 64 period) :=
    .new (fits _ (mem_of_getElem? slot))
  refine ⟨period, .waiting rfl ⟨?_, ?_, mode, positive, t.swept, swept, decls,
    scan⟩ ⟨t.swept, _, swept, slot, ?_, rfl, ?_⟩⟩
  · rw [indices, getElem?_map, at_k]
    rfl
  · rw [indices]
    exact triggersFrom_nodup valid 0
  · exact onGrid
  · exact .fresh (sound.anchored _ t found unrecorded) rfl unrecorded

def Loop.PassStep (l : Loop) (a : Action) (l' : Loop) : Prop := l.ExactStep a l' ∧ a.endsWake = false

theorem Pass.run {history : List Action} (pass : Pass l k i p now due found)
    (cyclic : CyclicSlot l k i period)
    (phase : l.phase = .dispatching now due)
    (wake : Run Loop.PassStep l history l') :
    ∃ due', l'.phase = .dispatching now due' ∧ CyclicSlot l' k i period ∧ Pass l' k i p now due' found ∧
      l'.grid = l.grid ∧ observationsOf i l'.exec.observed = observationsOf i l.exec.observed := by
  induction wake with
  | nil => exact ⟨due, phase, cyclic, pass, rfl, rfl⟩
  | snoc before last ih =>
    obtain ⟨_, phase', cyclic', pass', grid, observed⟩ := ih
    have running : Loop.phase _ ≠ .stopped := fun stopped => nomatch phase'.symm.trans stopped
    obtain ⟨due'', phase'', pass''⟩ := pass'.step cyclic' phase' last.1 last.2
    exact ⟨due'', phase'', cyclic'.step last.1.1.moves running, pass'', (grid_in_pass last.1.1.moves phase').trans grid,
      (observations_in_wake last.1.1.moves running last.2 i).trans observed⟩

theorem Tracked.run {start : Loop} {history : List Action}
    (tracked : Tracked start k i period)
    (sound : start.exec.Sound)
    (run : Run Loop.ExactStep start history l) : l.exec.Sound ∧ Tracked l k i period :=
  run.invariant (I := fun l => l.exec.Sound ∧ Tracked l k i period) ⟨sound, tracked⟩
    fun _ _ _ known step => ⟨step.1.moves.sound known.1, known.2.step known.1 step⟩

theorem Tracked.of_waiting
    (tracked : Tracked l k i period)
    (waiting : l.phase = .waiting) :
    CyclicSlot l k i period ∧ Idle l k i (saturate 64 period) := by
  cases tracked with
  | stopped phase | resting now due phase | busy now due b phase => cases phase.symm.trans waiting
  | waiting phase cyclic idle => exact ⟨cyclic, idle⟩

end Slots

/-- With agreeing clocks and no saturation, a wake that reaches a target records one cycle, late by that target. -/
theorem lateness_follows_timer {pin : Option IntegrityLevel} {budget : Option Nat} {before history pass : List Action}
    {l₀ start l m m' l' : Loop} {epoch k i now : Nat} {more : Bool} {g : GridTask}
    (life : Run Loop.Step (Loop.new (.new pin .grid budget)) before l₀)
    (unrecorded : observationsOf i l₀.exec.observed = [])
    (entered : l₀.Step (.enter epoch) start)
    (fits : ∀ t ∈ start.grid.tasks, epoch + t.periodNs < 2 ^ 64)
    (cyclic : start.cyclicTaskIndices[k]? = some i)
    (run : Run Loop.ExactStep start history l)
    (task : l.grid.tasks[k]? = some g)
    (tick : l.ExactStep (.gridPass true now) m)
    (wake : Run Loop.PassStep m pass m')
    (ended : m'.Step (.barrier more) l') :
    (now < g.next → observationsOf i l'.exec.observed = observationsOf i l.exec.observed) ∧
      (g.next ≤ now → ∃ lateBy t o, (l.grid.takeDue now).1.filter (·.slot == k) = [⟨k, g.carry, lateBy⟩] ∧
        l'.exec.tasks[i]? = some t ∧
        observationsOf i l'.exec.observed = observationsOf i l.exec.observed ++ [o] ∧
        LatenessRecord now g lateBy (observationsOf i l.exec.observed) t o) := by
  have sound₀ : l₀.exec.Sound := run_sound (.new _ _ _) life
  have mode : l₀.exec.dispatchMode = .grid := run_mode life
  have sound : start.exec.Sound := entered.moves.sound sound₀
  cases entered.moves with
  | enter stopped =>
    obtain ⟨_, tracked⟩ := tracked_entered sound₀ mode cyclic unrecorded fits
    obtain ⟨sound, tracked⟩ := tracked.run sound run
    have sound' : m'.exec.Sound := run_sound (tick.1.moves.sound sound) (wake.mono fun _ _ _ step => step.1.1)
    have moves := tick.1.moves
    cases tick.1.moves with
    | gridPass waiting =>
      obtain ⟨slot, idle⟩ := tracked.of_waiting waiting
      have slot' := slot.step moves (by rw [waiting]; exact nofun)
      have phase : (l.gridPass true now).phase = .dispatching now (l.grid.takeDue now).1 := by rw [consulted_eq slot]
      have kept : (l.gridPass true now).exec = l.exec := gridPass_exec l true now
      obtain ⟨fitting, small⟩ := tick.2 rfl
      cases ended.moves with
      | barrier empty quiet =>
        refine ⟨?_, ?_⟩
        · intro early
          obtain ⟨idle', rests⟩ := idle.early slot task early
          obtain ⟨_, _, _, pass, _, observed⟩ := (Pass.rest idle' rests).run slot' phase wake
          cases pass with
          | rest idle'' => rw [(idle''.barrier sound').2, observed, kept]
        · intro reached
          have busy := idle.consulted fitting slot task reached
          obtain ⟨_, phase', cyclic', _ | ⟨busy', _⟩, grid, observed⟩ := (Pass.busy busy small).run slot' phase wake
          cases phase'.symm.trans empty
          obtain ⟨_, t, o, found, recorded, record⟩ := busy'.barrier cyclic' sound' rfl (saturate_pos cyclic') small
          have epoch : m'.grid.epoch = l.grid.epoch := by rw [grid, consulted_eq slot, takeDue_epoch l.grid now]
          rw [observed, kept] at recorded record
          refine ⟨_, t, o, ?_, found, recorded, record⟩
          rw [takeDue_due now task, if_pos reached, epoch]

def Loop.actExactly (a : Action) : Option Loop := if l.Exact a then l.act a else none

def Loop.actInPass (a : Action) : Option Loop := if a.endsWake = false then l.actExactly a else none

def passAt (now : Nat) : List Action := [.cyclic 0 ⟨0, 0, now⟩ none, .executed 0 ⟨0, 5, 5, .ok .proceed⟩]

def registeredLoop : Option Loop :=
  Run.follow Loop.act (.new (.new none .grid none)) [.register (.add (cyclicItem .qualityManaged none))]

def afterLateStart (start : Loop) : Option Loop :=
  Run.follow Loop.actExactly start (.gridPass true 1500 :: passAt 1500 ++ [.barrier true])

theorem stalled_wake_follows_timer : ∃ (l l' : Loop) (t : TaskEntry) (o : CycleObservation),
      (registeredLoop.bind (·.act (.enter 0))).bind afterLateStart = some l ∧
      l.grid.tasks = [⟨1000, 2000, 0, true⟩] ∧
      (observationsOf 0 l.exec.observed).map (·.latenessNs) = [some 500] ∧
      l'.exec.tasks[0]? = some t ∧
      observationsOf 0 l'.exec.observed = observationsOf 0 l.exec.observed ++ [o] ∧
      (∃ epoch, t.gridEpoch = some epoch ∧ epoch + t.gridSlot * 1000 = 2000) ∧
      (o.faulted = false → o.latenessNs = some 2700) := by
  have reached : (registeredLoop.bind fun l₀ => (l₀.act (.enter 0)).bind fun start =>
      (afterLateStart start).bind fun l =>
      (l.actExactly (.gridPass true 4700)).bind fun m => (Run.follow actInPass m (passAt 4700)).bind fun m' =>
        (m'.act (.barrier true)).map fun _ => (l₀.exec.observed.length, (start.cyclicTaskIndices, start.grid.tasks),
          (l.grid.tasks, (observationsOf 0 l.exec.observed).map (·.latenessNs)))) =
      some (0, ([0], [⟨1000, 1000, 0, false⟩]), ([⟨1000, 2000, 0, true⟩], [some 500])) := by
    decide +kernel
  obtain ⟨l₀, life, taken⟩ := bind_eq_some_iff.mp reached
  obtain ⟨start, entered, taken⟩ := bind_eq_some_iff.mp taken
  obtain ⟨l, ran, taken⟩ := bind_eq_some_iff.mp taken
  obtain ⟨m, ticked, taken⟩ := bind_eq_some_iff.mp taken
  obtain ⟨m', woken, taken⟩ := bind_eq_some_iff.mp taken
  obtain ⟨l', ended, views⟩ := map_eq_some_iff.mp taken
  simp only [Prod.mk.injEq] at views
  obtain ⟨unobserved, ⟨indices, grid⟩, served, late⟩ := views
  have unrecorded : observationsOf 0 l₀.exec.observed = [] := by rw [length_eq_zero_iff.mp unobserved]; rfl
  have run : Run Loop.ExactStep start _ l := (Run.of_follow ran).mono fun _ _ _ step =>
    (ite_none_right_eq_some.mp step).symm
  have wake : Run Loop.PassStep m (passAt 4700) m' := (Run.of_follow woken).mono fun _ _ _ step => by
    obtain ⟨inside, exact⟩ := ite_none_right_eq_some.mp step
    exact ⟨(ite_none_right_eq_some.mp exact).symm, inside⟩
  have cyclic : start.cyclicTaskIndices[0]? = some 0 := by
    rw [indices]
    rfl
  have records := (lateness_follows_timer (Run.of_follow life) unrecorded entered (by rw [grid]; decide) cyclic run
    (by rw [served]; rfl) (ite_none_right_eq_some.mp ticked).symm wake ended).2 (by decide)
  obtain ⟨lateBy, t, o, _, found, observed, record⟩ := records
  have later : observationsOf 0 l.exec.observed ≠ [] := by
    intro none
    rw [none] at late
    cases late
  refine ⟨l, l', t, o, ?_, served, late, found, observed, record.later later, record.lateness later⟩
  rw [life, bind_some, entered, bind_some, ran]

/-- A second run starts a new grid in the timer, while the task keeps counting its slots from its first cycle. -/
theorem reentered_loop_reads_late :
    let first : List Action := .enter 0 :: .gridPass true 1000 :: passAt 1000 ++ [.barrier false, .enter 5500]
    let second : List Action := .gridPass true 6500 :: passAt 6500 ++ [.barrier true]
    (registeredLoop.bind (Run.follow Loop.act · first)).bind (fun start =>
      (Run.follow Loop.actExactly start second).map fun l =>
        ((start.grid.takeDue 6500).1, (observationsOf 0 l.exec.observed).map fun o => (o.preNs, o.latenessNs))) =
      some ([⟨0, 0, 0⟩], [(1000, some 0), (6500, some 4500)]) := by
  decide +kernel

end Taktora.Exec
