import Taktora.Executor.Registration

namespace Taktora.Exec

open Executor List

structure Executor.Sound (e : Executor) : Prop where
  tasks : ∀ t ∈ e.tasks, t.WellFormed e.integrityLevel
  counters : e.cycleStats.length = e.tasks.length
  numbered : ∀ i stats, e.cycleStats[i]? = some stats →
    (observationsOf i e.observed).map (·.cycleIndex) = List.range stats.cycleIndex
  unknown : ∀ i, e.tasks.length ≤ i → observationsOf i e.observed = []
  anchored : ∀ i t, e.tasks[i]? = some t → observationsOf i e.observed = [] → t.anchor = (none, 0)

namespace Executor

section Sound

variable {e e' : Executor} {i : Nat} {f : TaskEntry → TaskEntry} {t : TaskEntry}

theorem Sound.new (pin : Option IntegrityLevel) (mode : DispatchMode) (budget : Option Nat) :
    (new pin mode budget).Sound :=
  ⟨fun _ member => (not_mem_nil member).elim, rfl, fun _ _ found => (nomatch found), fun _ _ => rfl,
    fun _ _ found => (nomatch found)⟩

theorem Sound.wellFormed (sound : e.Sound) (found : e.tasks[i]? = some t) : t.WellFormed e.integrityLevel :=
  sound.tasks t (mem_of_getElem? found)

theorem Sound.counter (sound : e.Sound) (found : e.tasks[i]? = some t) : ∃ stats, e.cycleStats[i]? = some stats := by
  have inside := (List.getElem?_eq_some_iff.mp found).1
  rw [← sound.counters] at inside
  exact ⟨_, getElem?_eq_getElem inside⟩

theorem Sound.indices
    (sound : e.Sound)
    (found : e.tasks[i]? = some t) :
    (observationsOf i e.observed).map (·.cycleIndex) = List.range (observationsOf i e.observed).length := by
  obtain ⟨stats, counted⟩ := sound.counter found
  have numbered := sound.numbered i stats counted
  have length := congrArg length numbered
  rw [length_map, length_range] at length
  rw [numbered, length]

theorem SameTasks.wellFormed
    (same : SameTasks e e')
    (tasks : ∀ t ∈ e.tasks, t.WellFormed e.integrityLevel) :
    ∀ t ∈ e'.tasks, t.WellFormed e'.integrityLevel := by
  intro t member
  obtain ⟨i, found⟩ := mem_iff_getElem?.mp member
  obtain ⟨t₀, before, equal⟩ := same.task found
  rw [same.pin]
  exact (tasks t₀ (mem_of_getElem? before)).congr equal

section

variable (sound : e.Sound)
include sound

theorem Sound.sameCycles (same : SameCycles e e') : e'.Sound := by
  have length := same.sameTasks.length
  refine ⟨same.sameTasks.wellFormed sound.tasks, ?_, ?_, ?_, ?_⟩
  · rw [same.stats, length, sound.counters]
  · intro i stats counted
    rw [same.observations]
    exact sound.numbered i stats (same.stats ▸ counted)
  · intro i beyond
    rw [same.observations]
    exact sound.unknown i (length ▸ beyond)
  · intro i t found silent
    obtain ⟨t₀, before, equal⟩ := same.task found
    rw [same.observations] at silent
    exact (congrArg TaskEntry.anchor equal).trans (sound.anchored i t₀ before silent)

theorem Sound.mapped {tasks : List TaskEntry}
    (length : tasks.length = e.tasks.length)
    (keeps : ∀ (i : Nat) (t : TaskEntry), tasks[i]? = some t → ∃ t₀, e.tasks[i]? = some t₀ ∧
      (∀ pin, t₀.WellFormed pin → t.WellFormed pin) ∧ t.anchor = t₀.anchor) : Sound { e with tasks } := by
  refine ⟨?_, sound.counters.trans length.symm, sound.numbered, fun i beyond => sound.unknown i (length ▸ beyond), ?_⟩
  · intro t member
    obtain ⟨i, found⟩ := mem_iff_getElem?.mp member
    obtain ⟨_, before, wellFormed, _⟩ := keeps i t found
    exact wellFormed _ (sound.wellFormed before)
  · intro i t found silent
    obtain ⟨t₀, before, _, anchor⟩ := keeps i t found
    exact anchor.trans (sound.anchored i t₀ before silent)

theorem Sound.modifyTask (keeps : ∀ t, (∀ pin, t.WellFormed pin → (f t).WellFormed pin) ∧ (f t).anchor = t.anchor) :
    (e.modifyTask i f).Sound := by
  refine sound.mapped (length_modify _ _ _) ?_
  intro k t found
  rw [getElem?_modify] at found
  obtain ⟨t₀, before, rfl⟩ := Option.map_eq_some_iff.mp found
  refine ⟨t₀, before, ?_⟩
  split
  · exact keeps t₀
  · exact ⟨fun _ wellFormed => wellFormed, rfl⟩

theorem Sound.sweep : e.sweep.Sound := by
  have swept := sound.mapped (length_map TaskEntry.swept) ?_
  · exact { swept with }
  · intro k t found
    rw [getElem?_map] at found
    obtain ⟨t₀, before, rfl⟩ := Option.map_eq_some_iff.mp found
    exact ⟨t₀, before, fun _ wellFormed => wellFormed.congr rfl, rfl⟩

theorem Sound.hand (submission : Option Submission) : (e.hand i submission).Sound := by
  cases submission with
  | none => exact sound
  | some what => exact { sound with }

theorem Sound.dispatchTask (clock : DispatchClock) (graphError : Option ItemError) (i : Nat) :
    (e.dispatchTask clock graphError i).Sound := by
  cases found : e.tasks[i]? with
  | none => rwa [dispatchTask_none found]
  | some t =>
    by_cases fresh : t.pendingCycle = none
    · have marked := sound.modifyTask (i := i) (f := (·.mark ⟨clock.pre, e.withholds t⟩))
        fun _ => ⟨fun _ wellFormed => wellFormed.congr rfl, rfl⟩
      exact (marked.hand _).sameCycles (dispatchTask_fresh _ _ found fresh)
    · rwa [dispatchTask_pending found fresh]

theorem Sound.dispatchCyclic (clock : DispatchClock) (graphError : Option ItemError) (i skipped lateBy : Nat) :
    (e.dispatchCyclic clock graphError i skipped lateBy).Sound := by
  have signalled := sound.modifyTask (i := i) (f := (·.signal skipped lateBy))
    fun _ => ⟨fun _ wellFormed => wellFormed.congr rfl, rfl⟩
  exact signalled.dispatchTask clock graphError i

end

theorem cycleRecord_numbered (t : TaskEntry) (stats : TaskCycleStats) (i : Nat) :
    List.range (stats.cycleIndex + (t.cycleRecord stats i).length) =
      List.range stats.cycleIndex ++ (t.cycleRecord stats i).map (·.cycleIndex) := by
  unfold TaskEntry.cycleRecord
  split
  · exact range_succ
  · exact (append_nil _).symm

theorem Sound.barrierAndRecord (sound : e.Sound) : e.barrierAndRecord.Sound := by
  have frame := barrierAndRecord_frame e
  have length := frame.tasks.length
  refine ⟨frame.tasks.wellFormed sound.tasks, ?_, ?_, ?_, ?_⟩
  · rw [frame.counters, length, sound.counters]
  · intro i stats' counted'
    have inside := (List.getElem?_eq_some_iff.mp counted').1
    rw [frame.counters, sound.counters] at inside
    have found := getElem?_eq_getElem inside
    obtain ⟨stats, counted⟩ := sound.counter found
    have records := barrierAndRecord_records found counted
    rw [records.counted] at counted'
    cases counted'
    rw [records.observations, map_append, sound.numbered i stats counted, ← cycleRecord_numbered]
  · intro i beyond
    rw [length] at beyond
    exact ((recordRange _ e).2.1 i beyond).observations.trans (sound.unknown i beyond)
  · intro i t' found' silent
    have inside := (List.getElem?_eq_some_iff.mp found').1
    rw [length] at inside
    have found := getElem?_eq_getElem inside
    obtain ⟨_, counted⟩ := sound.counter found
    have records := barrierAndRecord_records found counted
    rw [records.task] at found'
    cases found'
    rw [records.observations, append_eq_nil_iff] at silent
    exact (TaskEntry.folded_anchor silent.2).trans (sound.anchored i _ found silent.1)

theorem Sound.grown (sound : e.Sound) (grown : Grown e e') : e'.Sound := by
  have observed : ∀ i, observationsOf i e'.observed = observationsOf i e.observed := fun i => by rw [grown.observed]
  rcases grown.table with ⟨tasks, stats⟩ | ⟨_, _, _, _, _, wellFormed, tasks, stats⟩
  · exact sound.sameCycles ⟨by rw [tasks], grown.submitted, grown.inFlight, stats, observed, grown.mode, grown.pin⟩
  · refine ⟨?_, ?_, ?_, ?_, ?_⟩
    · rw [tasks, grown.pin]
      intro t member
      rcases mem_append.mp member with old | new
      · exact sound.tasks t old
      · cases mem_singleton.mp new
        exact wellFormed
    · rw [tasks, stats, length_append, length_append, sound.counters]
      rfl
    · intro i count counted
      rw [observed]
      rw [stats] at counted
      by_cases old : i < e.cycleStats.length
      · rw [getElem?_append_left old] at counted
        exact sound.numbered i count counted
      · have beyond := Nat.le_of_not_lt old
        rw [getElem?_append_right beyond] at counted
        have zero : count = ⟨0⟩ := (mem_singleton.mp (mem_of_getElem? counted))
        rw [sound.unknown i (sound.counters ▸ beyond), zero]
        rfl
    · intro i beyond
      rw [tasks, length_append] at beyond
      rw [observed]
      exact sound.unknown i (le_trans (Nat.le_add_right _ _) beyond)
    · intro i t found silent
      rw [observed] at silent
      rw [tasks] at found
      by_cases old : i < e.tasks.length
      · rw [getElem?_append_left old] at found
        exact sound.anchored i t found silent
      · rw [getElem?_append_right (Nat.le_of_not_lt old)] at found
        rw [mem_singleton.mp (mem_of_getElem? found)]
        rfl

theorem Sound.register (sound : e.Sound) (call : Register) : (e.register call).Sound := by
  obtain ⟨_, grown, same | ⟨_, _, _, k, _, _, attached⟩⟩ := register_table e call
  · exact same ▸ sound.grown grown
  · rw [attached]
    exact (sound.grown grown).modifyTask fun _ =>
      ⟨fun _ wellFormed => { wellFormed with }, rfl⟩

end Sound

end Executor

namespace Loop

inductive Moves (l : Loop) : Action → Loop → Prop where
  | register {call} (stopped : l.phase = .stopped) : Moves l (.register call) { l with exec := l.exec.register call }
  | enter {now} (stopped : l.phase = .stopped) : Moves l (.enter now) (l.entered now)
  | ignored {clock graphError} (waiting : l.phase = .waiting) : Moves l (.fired none clock graphError) l
  | fired {i clock graphError} (waiting : l.phase = .waiting) (attached : l.exec.attached i = true) :
      Moves l (.fired (some i) clock graphError) { l with exec := l.exec.dispatchTask clock graphError i }
  | gridPass {consulted now} (waiting : l.phase = .waiting) :
      Moves l (.gridPass consulted now) (l.gridPass consulted now)
  | cyclic {now due rest index clock graphError} (phase : l.phase = .dispatching now (due :: rest))
      (task : l.cyclicTaskIndices[due.slot]? = some index) :
      Moves l (.cyclic index clock graphError)
        { l with
          exec := l.exec.dispatchCyclic clock graphError index due.skipped due.lateBy, phase := .dispatching now rest }
  | executed {k x job} (found : l.exec.inFlight[k]? = some job) : Moves l (.executed k x) (l.execute k x job)
  | barrier {now more} (phase : l.phase = .dispatching now []) (idle : l.exec.inFlight = []) :
      Moves l (.barrier more) (l.barrier more)
  | abandon (running : l.phase ≠ .stopped) (idle : l.exec.inFlight = []) :
      Moves l .abandon { l with phase := .stopped }
  | clearTask {id} : Moves l (.clearTask id) { l with exec := (l.exec.clearTaskFault id).2 }
  | clearExecutor : Moves l .clearExecutor { l with exec := l.exec.clearExecutorFault.2 }

section Steps

variable {l l' : Loop} {a : Action}

theorem Step.moves (step : Step l a l') : Moves l a l' := by
  unfold Step at step
  cases a with
  | register call =>
    obtain ⟨stopped, same⟩ := Option.ite_none_right_eq_some.mp step
    cases same
    exact .register stopped
  | enter now =>
    obtain ⟨stopped, same⟩ := Option.ite_none_right_eq_some.mp step
    cases same
    exact .enter stopped
  | fired target clock graphError =>
    cases target with
    | none =>
      obtain ⟨waiting, same⟩ := Option.ite_none_right_eq_some.mp step
      cases same
      exact .ignored waiting
    | some i =>
      obtain ⟨⟨waiting, attached⟩, same⟩ := Option.ite_none_right_eq_some.mp step
      cases same
      exact .fired waiting attached
  | gridPass consulted now =>
    obtain ⟨waiting, same⟩ := Option.ite_none_right_eq_some.mp step
    cases same
    exact .gridPass waiting
  | cyclic index clock graphError =>
    unfold act at step
    dsimp only at step
    split at step
    · rename_i now due rest phase
      obtain ⟨task, same⟩ := Option.ite_none_right_eq_some.mp step
      cases same
      exact .cyclic phase task
    · cases step
  | executed k x =>
    obtain ⟨_, found, rfl⟩ := Option.map_eq_some_iff.mp step
    exact .executed found
  | barrier more =>
    unfold act at step
    dsimp only at step
    split at step
    · rename_i now phase
      obtain ⟨idle, same⟩ := Option.ite_none_right_eq_some.mp step
      cases same
      exact .barrier phase (isEmpty_iff.mp idle)
    · cases step
  | abandon =>
    obtain ⟨⟨running, idle⟩, same⟩ := Option.ite_none_right_eq_some.mp step
    cases same
    exact .abandon running (isEmpty_iff.mp idle)
  | clearTask id =>
    cases step
    exact .clearTask
  | clearExecutor =>
    cases step
    exact .clearExecutor

theorem execute_same (l : Loop) (k : Nat) (x : Execution) (job : TaskJob) :
    SameCycles { l.exec with inFlight := (l.execute k x job).exec.inFlight } (l.execute k x job).exec := by
  have ran : (l.exec.takeJob k).SameCycles ((l.exec.takeJob k).runJob x job).1 := runJob_same job
  exact { ran with inFlight := rfl }

theorem execute_inFlight (l : Loop) (k : Nat) (x : Execution) (job : TaskJob) : (l.execute k x job).exec.inFlight =
      l.exec.inFlight.eraseIdx k ++ ((l.exec.takeJob k).runJob x job).2.toList := by
  have ran : (l.exec.takeJob k).SameCycles ((l.exec.takeJob k).runJob x job).1 := runJob_same job
  exact congrArg (· ++ _) ran.inFlight

theorem gridPass_exec (l : Loop) (consulted : Bool) (now : Nat) : (l.gridPass consulted now).exec = l.exec := by
  unfold gridPass
  split <;> rfl

theorem Moves.sameTasks
    (moves : Moves l a l')
    (unregistered : ∀ call, a ≠ .register call) : l.exec.SameTasks l'.exec := by
  cases moves with
  | register => exact absurd rfl (unregistered _)
  | enter =>
    refine ⟨?_, rfl, rfl⟩
    rw [entered, sweep, map_map]
    rfl
  | ignored | abandon => exact .refl _
  | fired => exact dispatchTask_sameTasks _ _ _ _
  | gridPass => exact gridPass_exec l _ _ ▸ .refl _
  | @cyclic now due rest index clock graphError phase task =>
    have signalled : l.exec.SameTasks (l.exec.modifyTask index (·.signal due.skipped due.lateBy)) :=
      .modified (.refl _) fun _ => rfl
    exact signalled.trans (dispatchTask_sameTasks _ _ _ _)
  | @executed k x job found =>
    have same := execute_same l k x job
    exact ⟨same.sameTasks.tasks, same.mode, same.pin⟩
  | barrier =>
    have frame := (barrierAndRecord_frame l.exec).tasks
    exact { frame with }
  | clearTask => exact clearTaskFault_same.sameTasks
  | clearExecutor => exact clearExecutorFault_same.sameTasks

theorem Moves.sound (moves : Moves l a l') (sound : l.exec.Sound) : l'.exec.Sound := by
  cases moves with
  | register => exact sound.register _
  | enter => exact sound.sweep
  | ignored | abandon => exact sound
  | fired => exact sound.dispatchTask _ _ _
  | gridPass => exact gridPass_exec l _ _ ▸ sound
  | cyclic => exact sound.dispatchCyclic _ _ _ _ _
  | executed =>
    refine Sound.sameCycles ?_ (execute_same l _ _ _)
    exact { sound with }
  | barrier => exact sound.barrierAndRecord.sameCycles ⟨rfl, rfl, rfl, rfl, fun _ => rfl, rfl, rfl⟩
  | clearTask => exact sound.sameCycles clearTaskFault_same
  | clearExecutor => exact sound.sameCycles clearExecutorFault_same

theorem run_sound {start : Loop} {history : List Action}
    (init : start.exec.Sound)
    (run : Run Step start history l) : l.exec.Sound :=
  run.invariant (I := fun l => l.exec.Sound) init fun _ _ _ sound step => step.moves.sound sound

theorem Moves.mode (moves : Moves l a l') : l'.exec.dispatchMode = l.exec.dispatchMode := by
  by_cases registers : ∃ call, a = .register call
  · obtain ⟨_, rfl⟩ := registers
    cases moves with
    | register => exact (register_settings _ _).2
  · exact (moves.sameTasks fun call same => registers ⟨call, same⟩).mode

theorem run_mode {start : Loop} {history : List Action} (run : Run Step start history l) :
    l.exec.dispatchMode = start.exec.dispatchMode :=
  run.invariant (I := fun l => l.exec.dispatchMode = start.exec.dispatchMode) rfl
    fun _ _ _ same step => step.moves.mode.trans same

end Steps

end Loop

def cyclicItem (integrityLevel : IntegrityLevel) (budget : Option Nat) : Item :=
  { taskId := none, declareTriggers := .ok ⟨[.interval 1000], budget⟩, integrityLevel, appId := none
    appInstanceId := none }

end Taktora.Exec
