import Taktora.Executor.Dispatch

namespace Taktora.Exec

open TaskEntry List

def observationOf (i : Nat) : Notice → Option CycleObservation
  | .cycleStats j observation => if j = i then some observation else none
  | _ => none

def observationsOf (i : Nat) (observed : List Notice) : List CycleObservation := observed.filterMap (observationOf i)

namespace TaskEntry

variable (t : TaskEntry)

def cycle : TaskEntry := { t with fault := .new, overrunCount := 0, lastTookNs := 2 ^ 64 - 1 }

def registered : TaskEntry :=
  { t.cycle with
    lastDispatch := none, gridSlot := 0, gridEpoch := none, pendingSkipped := 0, pendingLate := none
    pendingCycle := none }

def anchor : Option Nat × Nat := (t.gridEpoch, t.gridSlot)

def folded : TaskEntry :=
  match t.pendingCycle, t.scanPeriod with
  | some pending, some _ => t.takePending.recorded pending.pre
  | _, _ => t.takePending

def cycleRecord (stats : TaskCycleStats) (i : Nat) : List CycleObservation :=
  match t.pendingCycle, t.scanPeriod with
  | some pending, some period => [t.observation stats.cycleIndex i period pending]
  | _, _ => []

theorem folded_pendingCycle : t.folded.pendingCycle = none := by
  unfold folded
  split <;> rfl

theorem folded_anchor {t : TaskEntry} {stats : TaskCycleStats} {i : Nat} (silent : t.cycleRecord stats i = []) :
    t.folded.anchor = t.anchor := by
  unfold cycleRecord at silent
  unfold folded
  split at silent
  · cases silent
  · rfl

theorem folded_registered : t.folded.registered = t.registered := by
  unfold folded
  split <;> rfl

def jobs : List TaskJob := t.job.toList ++ t.handlerJob.toList

end TaskEntry

variable {α β : Type} {f : α → β} {xs : List α} {i : Nat}

theorem getElem?_of_map_eq {ys : List α} {y : α}
    (same : ys.map f = xs.map f)
    (found : ys[i]? = some y) : ∃ x, xs[i]? = some x ∧ f y = f x := by
  have at_i := congrArg (·[i]?) same
  simp only [getElem?_map, found, Option.map_some] at at_i
  obtain ⟨x, source, image⟩ := Option.map_eq_some_iff.mp at_i.symm
  exact ⟨x, source, image.symm⟩

theorem map_modify_of_eq {g : α → α} (keeps : ∀ x, f (g x) = f x) : (xs.modify i g).map f = xs.map f := by
  apply ext_getElem?
  intro k
  rw [getElem?_map, getElem?_map, getElem?_modify]
  cases xs[k]? with
  | none => rfl
  | some x => by_cases same : i = k <;> simp [same, keeps]

namespace Executor

structure SameTasks (e e' : Executor) : Prop where
  tasks : e'.tasks.map TaskEntry.registered = e.tasks.map TaskEntry.registered
  mode : e'.dispatchMode = e.dispatchMode
  pin : e'.integrityLevel = e.integrityLevel

structure SameCycles (e e' : Executor) : Prop where
  tasks : e'.tasks.map TaskEntry.cycle = e.tasks.map TaskEntry.cycle
  submitted : e'.submitted = e.submitted
  inFlight : e'.inFlight = e.inFlight
  stats : e'.cycleStats = e.cycleStats
  observations : ∀ i, observationsOf i e'.observed = observationsOf i e.observed
  mode : e'.dispatchMode = e.dispatchMode
  pin : e'.integrityLevel = e.integrityLevel

section Frames

variable {e e' e'' : Executor} {i : Nat} {f : TaskEntry → TaskEntry}

variable {t : TaskEntry}

theorem modifyTask_here (found : e.tasks[i]? = some t) : (e.modifyTask i f).tasks[i]? = some (f t) := by
  rw [modifyTask, getElem?_modify, found]
  exact congrArg some (if_pos rfl)

theorem modifyTask_found (found : (e.modifyTask i f).tasks[i]? = some t) : ∃ t₀, e.tasks[i]? = some t₀ ∧ t = f t₀ := by
  cases before : e.tasks[i]? with
  | none =>
    rw [modifyTask, getElem?_modify, before] at found
    cases found
  | some t₀ =>
    rw [modifyTask_here before] at found
    exact ⟨t₀, rfl, (Option.some.inj found).symm⟩

theorem modifyTask_other {j : Nat} (other : i ≠ j) : (e.modifyTask i f).tasks[j]? = e.tasks[j]? := by
  rw [modifyTask, getElem?_modify]
  cases e.tasks[j]? with
  | none => rfl
  | some t => exact congrArg some (if_neg other)

theorem SameTasks.refl (e : Executor) : SameTasks e e := ⟨rfl, rfl, rfl⟩

theorem SameTasks.trans (first : SameTasks e e') (second : SameTasks e' e'') : SameTasks e e'' :=
  ⟨second.tasks.trans first.tasks, second.mode.trans first.mode, second.pin.trans first.pin⟩

theorem SameTasks.length (same : SameTasks e e') : e'.tasks.length = e.tasks.length := by
  simpa using congrArg List.length same.tasks

theorem SameTasks.task
    (same : SameTasks e e')
    (found : e'.tasks[i]? = some t) :
    ∃ t₀, e.tasks[i]? = some t₀ ∧ t.registered = t₀.registered :=
  getElem?_of_map_eq same.tasks found

theorem SameCycles.refl (e : Executor) : SameCycles e e := ⟨rfl, rfl, rfl, rfl, fun _ => rfl, rfl, rfl⟩

theorem SameCycles.trans (first : SameCycles e e') (second : SameCycles e' e'') : SameCycles e e'' :=
  ⟨second.tasks.trans first.tasks, second.submitted.trans first.submitted, second.inFlight.trans first.inFlight,
    second.stats.trans first.stats, fun i => (second.observations i).trans (first.observations i),
    second.mode.trans first.mode, second.pin.trans first.pin⟩

theorem SameCycles.task
    (same : SameCycles e e')
    (found : e'.tasks[i]? = some t) :
    ∃ t₀, e.tasks[i]? = some t₀ ∧ t.cycle = t₀.cycle :=
  getElem?_of_map_eq same.tasks found

theorem SameCycles.sameTasks (same : SameCycles e e') : SameTasks e e' := by
  refine ⟨?_, same.mode, same.pin⟩
  have erased := congrArg (map registered) same.tasks
  rwa [map_map, map_map] at erased

theorem SameTasks.modified
    (same : SameTasks e e')
    (keeps : ∀ t, (f t).registered = t.registered) : SameTasks e (e'.modifyTask i f) :=
  ⟨(map_modify_of_eq keeps).trans same.tasks, same.mode, same.pin⟩

theorem SameCycles.modified
    (same : SameCycles e e')
    (keeps : ∀ t, (f t).cycle = t.cycle) : SameCycles e (e'.modifyTask i f) :=
  { same with tasks := (map_modify_of_eq keeps).trans same.tasks }

theorem SameCycles.notified {notices : List Notice} (same : SameCycles e e')
    (silent : ∀ i, observationsOf i notices = []) : SameCycles e (e'.notify notices) := by
  refine { same with observations := fun i => ?_ }
  rw [notify, observationsOf, filterMap_append, ← observationsOf, ← observationsOf, silent, append_nil,
    same.observations]

theorem SameCycles.both_modified
    (same : SameCycles e e')
    (commutes : ∀ t, (f t).cycle = f t.cycle) :
    SameCycles (e.modifyTask i f) (e'.modifyTask i f) := by
  refine { same with tasks := ?_ }
  have image : ∀ xs : List TaskEntry, (xs.modify i f).map cycle = (xs.map cycle).modify i f := by
    intro xs
    apply ext_getElem?
    intro k
    rw [getElem?_map, getElem?_modify, getElem?_modify, getElem?_map]
    cases xs[k]? with
    | none => rfl
    | some x => by_cases here : i = k <;> simp [here, commutes]
  rw [modifyTask, modifyTask, image, image, same.tasks]

theorem SameCycles.setStart (same : SameCycles e e') (init : Nat) : SameCycles e (e'.setStart init) := { same with }

theorem SameCycles.both_submit (same : SameCycles e e') (what : Submission) :
    SameCycles (e.submit i what) (e'.submit i what) := by
  refine { same with submitted := ?_, inFlight := ?_ }
  · rw [submit, submit, same.submitted]
  · rw [submit, submit, same.inFlight]

end Frames

section Faults

variable {e : Executor} {id : TaskId} {ctx : FaultDispatchCtx} {x : Execution} {budget i : Nat}

theorem breachTask_same : SameCycles e (e.breachTask id ctx x budget) := by
  unfold breachTask
  dsimp only
  split
  · exact .refl e
  split
  · exact .notified (.modified (.setStart (.refl e) _) fun _ => rfl) fun _ => rfl
  · exact .modified (.setStart (.refl e) _) fun _ => rfl

theorem breachExecutor_same : SameCycles e (e.breachExecutor ctx x budget) := by
  unfold breachExecutor
  dsimp only
  split
  · exact .notified ⟨rfl, rfl, rfl, rfl, fun _ => rfl, rfl, rfl⟩ fun _ => rfl
  · exact ⟨rfl, rfl, rfl, rfl, fun _ => rfl, rfl, rfl⟩

theorem detectTaskFault_same : SameCycles e (e.detectTaskFault id ctx x) := by
  unfold detectTaskFault
  split
  · exact .refl e
  split
  · exact breachTask_same
  · exact .refl e

theorem detectExecutorFault_same : SameCycles e (e.detectExecutorFault ctx x) := by
  unfold detectExecutorFault
  split
  · exact .refl e
  split
  · exact breachExecutor_same
  · exact .refl e

theorem appNotices_silent (item : Item) (result : ExecuteResult) :
    observationsOf i (appNotices id item result) = [] := by
  cases result <;> rw [appNotices] <;> cases item.appId <;> rfl

theorem runItem_same (item : Item) : SameCycles e (e.runItem id item ctx x) :=
  (SameCycles.notified (.refl e) fun _ => appNotices_silent item x.result).trans
    (detectTaskFault_same.trans detectExecutorFault_same)

theorem recordFirstErr_same (result : ExecuteResult) : SameCycles e (e.recordFirstErr id result) := by
  unfold recordFirstErr
  split
  · exact .refl e
  split
  · exact ⟨rfl, rfl, rfl, rfl, fun _ => rfl, rfl, rfl⟩
  · exact .refl e

theorem storeTook_same : SameCycles e (e.storeTook ctx x) := .modified (.refl e) fun _ => rfl

theorem runJob_same (job : TaskJob) : SameCycles e (e.runJob x job).1 := by
  unfold runJob
  split
  · exact (storeTook_same.trans (runItem_same _)).trans (recordFirstErr_same _)
  · exact (runItem_same _).trans (recordFirstErr_same _)
  · exact storeTook_same
  split
  · exact runItem_same _
  · exact ((runItem_same _).trans (recordFirstErr_same _)).trans storeTook_same

theorem clearTaskFault_same : SameCycles e (e.clearTaskFault id).2 := by
  unfold clearTaskFault
  split
  · exact .refl e
  split
  · exact .modified (.refl e) fun _ => rfl
  · exact .notified (.modified (.refl e) fun _ => rfl) fun _ => rfl

theorem clearCascaded_same : SameCycles e (e.clearCascaded i) := by
  unfold clearCascaded
  split
  · exact .refl e
  split
  · exact .notified (.modified (.refl e) fun _ => rfl) fun _ => rfl
  · exact .refl e

theorem clearExecutorFault_same : SameCycles e e.clearExecutorFault.2 := by
  have fold : ∀ (indices : List Nat) (e : Executor), SameCycles e (indices.foldl clearCascaded e) := by
    intro indices
    induction indices with
    | nil => exact .refl
    | cons i rest ih => exact fun e => clearCascaded_same.trans (ih _)
  unfold clearExecutorFault
  dsimp only
  split
  · exact ⟨rfl, rfl, rfl, rfl, fun _ => rfl, rfl, rfl⟩
  · refine .notified (.trans ?_ (fold _ _)) fun _ => rfl
    exact ⟨rfl, rfl, rfl, rfl, fun _ => rfl, rfl, rfl⟩

end Faults

def submissionOf (e : Executor) (t : TaskEntry) : Option Submission :=
  if t.kind.isGraph then some .graph
  else if e.withholds t then t.handlerJob.map .handler
  else t.job.map .main

def hand (e : Executor) (i : Nat) (submission : Option Submission) : Executor :=
  submission.elim e fun what => e.submit i what

def dispatched (e : Executor) (pre i : Nat) (t : TaskEntry) : Executor :=
  (e.modifyTask i (·.mark ⟨pre, e.withholds t⟩)).hand i (e.submissionOf t)

section Dispatch

variable {e e' : Executor} {clock : DispatchClock} {i : Nat} {t : TaskEntry} {graphError : Option ItemError}

theorem SameCycles.both_hand (same : SameCycles e e') (submission : Option Submission) :
    SameCycles (e.hand i submission) (e'.hand i submission) := by
  cases submission with
  | none => exact same
  | some what => exact same.both_submit what

theorem cascadeFault_same : SameCycles e (e.cascadeFault clock i) := .modified (.setStart (.refl e) _) fun _ => rfl

theorem submitHandler_eq (e : Executor) (i : Nat) (t : TaskEntry) :
    e.submitHandler i t = e.hand i (t.handlerJob.map .handler) := by
  unfold submitHandler
  split
  · rename_i job handler
    rw [handler]
    rfl
  · rename_i none
    rw [none]
    rfl

theorem submitTaskJob_same (normal : e'.withholds t = false) :
    SameCycles (e.hand i (e'.submissionOf t)) (e.submitTaskJob i t graphError) := by
  unfold submitTaskJob submissionOf
  cases t.kind.isGraph with
  | true =>
    rw [if_pos rfl, if_pos rfl]
    split
    · exact recordFirstErr_same _
    · exact .refl _
  | false =>
    rw [if_neg Bool.false_ne_true, if_neg Bool.false_ne_true, normal, if_neg Bool.false_ne_true]
    split
    · rename_i job present
      rw [present]
      exact .refl _
    · rename_i none
      rw [none]
      exact .refl _

theorem dispatchTask_none (missing : e.tasks[i]? = none) : e.dispatchTask clock graphError i = e := by
  unfold dispatchTask
  rw [missing]

theorem dispatchTask_pending
    (found : e.tasks[i]? = some t)
    (pending : t.pendingCycle ≠ none) : e.dispatchTask clock graphError i = e := by
  unfold dispatchTask
  rw [found]
  exact if_pos (Option.isSome_iff_ne_none.mpr pending)

theorem handleFaultRouting_withheld (clock : DispatchClock) (i : Nat) (withheld : e.withholds t = true) :
    ∃ e', SameCycles e e' ∧ e.handleFaultRouting clock i t = (true, e'.hand i (e.submissionOf t)) := by
  have single : t.kind.isGraph = false := by
    rw [withholds, Bool.and_eq_true, Bool.not_eq_true'] at withheld
    exact withheld.1
  refine ⟨if e.isFaulted ∧ t.state = .running then e.cascadeFault clock i else e, ?_, ?_⟩
  · split
    · exact cascadeFault_same
    · exact .refl e
  · rw [handleFaultRouting, if_pos withheld, submitHandler_eq, submissionOf, single, if_neg Bool.false_ne_true,
      if_pos withheld]

theorem hand_tasks (submission : Option Submission) : (e.hand i submission).tasks = e.tasks := by
  cases submission <;> rfl

theorem dispatched_sameTasks (pre : Nat) : SameTasks e (e.dispatched pre i t) := by
  have modified : SameTasks e (e.modifyTask i (·.mark ⟨pre, e.withholds t⟩)) := .modified (.refl e) fun _ => rfl
  unfold dispatched
  cases e.submissionOf t with
  | none => exact modified
  | some what => exact { modified with }

theorem hand_modifyTask (e : Executor) (i : Nat) (submission : Option Submission)
    (f : TaskEntry → TaskEntry) : (e.hand i submission).modifyTask i f = (e.modifyTask i f).hand i submission := by
  cases submission <;> rfl

theorem dispatchTask_fresh (clock : DispatchClock) (graphError : Option ItemError)
    (found : e.tasks[i]? = some t)
    (fresh : t.pendingCycle = none) :
    SameCycles (e.dispatched clock.pre i t) (e.dispatchTask clock graphError i) := by
  unfold dispatchTask dispatched
  rw [found]
  dsimp only
  rw [fresh, Option.isSome_none]
  cases withheld : e.withholds t with
  | true =>
    obtain ⟨_, same, routed⟩ := handleFaultRouting_withheld clock i withheld
    rw [routed, hand_modifyTask]
    have marked := same.both_modified (i := i) (f := (·.mark ⟨clock.pre, true⟩)) fun _ => rfl
    exact marked.both_hand _
  | false =>
    rw [handleFaultRouting, withheld]
    exact submitTaskJob_same withheld

theorem dispatchTask_sameTasks (e : Executor) (clock : DispatchClock) (graphError : Option ItemError) (i : Nat) :
    SameTasks e (e.dispatchTask clock graphError i) := by
  cases found : e.tasks[i]? with
  | none =>
    rw [dispatchTask_none found]
    exact .refl e
  | some t =>
    by_cases fresh : t.pendingCycle = none
    · exact (dispatched_sameTasks clock.pre).trans (dispatchTask_fresh clock graphError found fresh).sameTasks
    · rw [dispatchTask_pending found fresh]
      exact .refl e

end Dispatch

structure Records (i : Nat) (t : TaskEntry) (stats : TaskCycleStats) (e e' : Executor) : Prop where
  task : e'.tasks[i]? = some t.folded
  counted : e'.cycleStats[i]? = some ⟨stats.cycleIndex + (t.cycleRecord stats i).length⟩
  observations : observationsOf i e'.observed = observationsOf i e.observed ++ t.cycleRecord stats i

structure Passes (i : Nat) (e e' : Executor) : Prop where
  task : e'.tasks[i]? = e.tasks[i]?
  counted : e'.cycleStats[i]? = e.cycleStats[i]?
  observations : observationsOf i e'.observed = observationsOf i e.observed

structure BarrierFrame (e e' : Executor) : Prop where
  tasks : SameTasks e e'
  counters : e'.cycleStats.length = e.cycleStats.length
  submitted : e'.submitted = e.submitted
  inFlight : e'.inFlight = e.inFlight
  faults : e'.tasks.map (·.state) = e.tasks.map (·.state)
  records : ∃ cycles : List (Nat × CycleObservation),
    e'.observed = e.observed ++ cycles.map fun cycle => .cycleStats cycle.1 cycle.2

section Barrier

variable {e e' : Executor} {i j : Nat} {t : TaskEntry} {stats : TaskCycleStats}

section

variable (found : e.tasks[i]? = some t)
include found

theorem recordPending_quiet (quiet : t.pendingCycle = none) : e.recordPending i = e := by
  unfold recordPending
  rw [found, Option.bind_some, quiet]

theorem recordPending_event {pending : CyclePending} (dispatched : t.pendingCycle = some pending)
    (event : t.scanPeriod = none) : e.recordPending i = e.modifyTask i (·.takePending) := by
  have event' : t.takePending.scanPeriod = none := event
  unfold recordPending
  rw [found, Option.bind_some, dispatched]
  dsimp only
  unfold recordCycleFor
  rw [modifyTask_here found]
  split
  · rename_i task stats taken _
    obtain rfl := Option.some.inj taken
    rw [event']
  · rfl

theorem recordPending_cyclic {pending : CyclePending} {period : Nat}
    (counted : e.cycleStats[i]? = some stats)
    (dispatched : t.pendingCycle = some pending)
    (cyclic : t.scanPeriod = some period) :
    e.recordPending i =
      (((e.modifyTask i (·.takePending)).modifyTask i (·.recorded pending.pre)).countCycle i stats).notify
      [.cycleStats i (t.observation stats.cycleIndex i period pending)] := by
  have cyclic' : t.takePending.scanPeriod = some period := cyclic
  have counted' : (e.modifyTask i (·.takePending)).cycleStats[i]? = some stats := counted
  unfold recordPending
  rw [found, Option.bind_some, dispatched]
  unfold recordCycleFor
  rw [modifyTask_here found, counted']
  dsimp only
  rw [cyclic']
  rfl

theorem recordPending_here (counted : e.cycleStats[i]? = some stats) : Records i t stats e (e.recordPending i) := by
  cases dispatched : t.pendingCycle with
  | none =>
    have whole : t.folded = t := by
      cases t
      cases dispatched
      rfl
    have silent : t.cycleRecord stats i = [] := by rw [cycleRecord, dispatched]
    rw [recordPending_quiet found dispatched]
    exact ⟨by rw [whole, found], by rw [silent]; exact counted, by rw [silent, append_nil]⟩
  | some pending =>
    cases cyclic : t.scanPeriod with
    | none =>
      have silent : t.cycleRecord stats i = [] := by rw [cycleRecord, dispatched, cyclic]
      have folded : t.folded = t.takePending := by rw [folded, dispatched, cyclic]
      rw [recordPending_event found dispatched cyclic]
      refine ⟨?_, by rw [silent]; exact counted, by rw [silent, append_nil]; rfl⟩
      rw [modifyTask_here found, folded]
    | some period =>
      have recorded : t.cycleRecord stats i = [t.observation stats.cycleIndex i period pending] := by
        rw [cycleRecord, dispatched, cyclic]
      have folded : t.folded = t.takePending.recorded pending.pre := by
        rw [folded, dispatched, cyclic]
      rw [recordPending_cyclic found counted dispatched cyclic]
      refine ⟨?_, ?_, ?_⟩
      · rw [folded]
        exact modifyTask_here (modifyTask_here found)
      · have inside := (List.getElem?_eq_some_iff.mp counted).1
        rw [recorded]
        exact List.getElem?_set_self inside
      · rw [recorded, notify, observationsOf, filterMap_append]
        rw [filterMap_cons, observationOf, if_pos rfl]
        rfl

end

theorem recordPending_other (other : j ≠ i) : Passes i e (e.recordPending j) := by
  unfold recordPending
  split
  · exact ⟨rfl, rfl, rfl⟩
  unfold recordCycleFor
  split
  · split
    · exact ⟨modifyTask_other other, rfl, rfl⟩
    · refine ⟨(modifyTask_other other).trans (modifyTask_other other), getElem?_set_ne other, ?_⟩
      rw [notify, observationsOf, filterMap_append]
      refine (congrArg _ ?_).trans (append_nil _)
      rw [filterMap_cons, observationOf, if_neg other]
      rfl
  · exact ⟨modifyTask_other other, rfl, rfl⟩

theorem BarrierFrame.refl (e : Executor) : BarrierFrame e e := ⟨.refl e, rfl, rfl, rfl, rfl, [], (append_nil _).symm⟩

variable {e'' : Executor}

theorem BarrierFrame.trans (first : BarrierFrame e e') (second : BarrierFrame e' e'') : BarrierFrame e e'' := by
  obtain ⟨early, first_observed⟩ := first.records
  obtain ⟨late, second_observed⟩ := second.records
  refine ⟨first.tasks.trans second.tasks, second.counters.trans first.counters, second.submitted.trans first.submitted,
    second.inFlight.trans first.inFlight, second.faults.trans first.faults, early ++ late, ?_⟩
  rw [second_observed, first_observed, map_append, append_assoc]

theorem recordPending_frame (e : Executor) (i : Nat) : BarrierFrame e (e.recordPending i) := by
  have taken : SameTasks e (e.modifyTask i (·.takePending)) := .modified (.refl e) fun _ => rfl
  have faults : ((e.modifyTask i (·.takePending)).tasks.map (·.state)) = e.tasks.map (·.state) :=
    map_modify_of_eq fun _ => rfl
  unfold recordPending
  split
  · exact .refl e
  unfold recordCycleFor
  split
  · split
    · exact ⟨taken, rfl, rfl, rfl, faults, [], (append_nil _).symm⟩
    · refine ⟨?_, length_set, rfl, rfl, ?_, [(_, _)], rfl⟩
      · exact ⟨Eq.trans (map_modify_of_eq fun _ => rfl) taken.tasks, rfl, rfl⟩
      · exact Eq.trans (map_modify_of_eq fun _ => rfl) faults
  · exact ⟨taken, rfl, rfl, rfl, faults, [], (append_nil _).symm⟩

theorem Passes.refl (i : Nat) (e : Executor) : Passes i e e := ⟨rfl, rfl, rfl⟩

theorem Passes.trans (first : Passes i e e') (second : Passes i e' e'') : Passes i e e'' :=
  ⟨second.task.trans first.task, second.counted.trans first.counted, second.observations.trans first.observations⟩

theorem recordRange (n : Nat) (e : Executor) : BarrierFrame e ((List.range n).foldl recordPending e) ∧
      (∀ i, n ≤ i → Passes i e ((List.range n).foldl recordPending e)) ∧
      ∀ i t stats, e.tasks[i]? = some t → e.cycleStats[i]? = some stats → i < n →
        Records i t stats e ((List.range n).foldl recordPending e) := by
  induction n with
  | zero => exact ⟨.refl e, fun i _ => .refl i e, fun i _ _ _ _ below => absurd below (Nat.not_lt_zero i)⟩
  | succ n ih =>
    obtain ⟨frame, later, earlier⟩ := ih
    rw [range_succ, foldl_append, foldl_cons, foldl_nil]
    refine ⟨frame.trans (recordPending_frame _ n), ?_, ?_⟩
    · intro i above
      exact (later i (by omega)).trans (recordPending_other (by omega))
    · intro i t stats found counted below
      by_cases here : i = n
      · subst here
        have passed := later i (le_refl i)
        have last := recordPending_here (passed.task.trans found) (passed.counted.trans counted)
        exact ⟨last.task, last.counted, by rw [last.observations, passed.observations]⟩
      · have recorded := earlier i t stats found counted (by omega)
        have last : Passes i _ (recordPending ((range n).foldl recordPending e) n) := recordPending_other (symm here)
        exact ⟨last.task.trans recorded.task, last.counted.trans recorded.counted,
          last.observations.trans recorded.observations⟩

theorem barrierAndRecord_frame (e : Executor) : BarrierFrame e e.barrierAndRecord := (recordRange _ e).1

theorem barrierAndRecord_records
    (found : e.tasks[i]? = some t)
    (counted : e.cycleStats[i]? = some stats) : Records i t stats e e.barrierAndRecord :=
  (recordRange _ e).2.2 i t stats found counted (List.getElem?_eq_some_iff.mp found).1

end Barrier

end Executor

end Taktora.Exec
