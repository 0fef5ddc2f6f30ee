import Taktora.Executor.Life

namespace Taktora.Exec

open List Executor FaultAtomic

def FaultState.isOverrun : FaultState → Bool
  | .faulted (.budgetExceeded _ _) _ => true
  | _ => false

def faultMark (i : Nat) : Notice → Option Bool
  | .taskFault j _ _ => if j = i then some true else none
  | .taskClear j _ => if j = i then some false else none
  | _ => none

def unmatchedFault (i : Nat) (observed : List Notice) : Bool := (observed.filterMap (faultMark i)).getLastD false

def TaskJob.ctx : TaskJob → FaultDispatchCtx
  | .single _ _ ctx => ctx
  | .chain _ _ ctx => ctx
  | .handler _ _ ctx => ctx

section Marks

variable {i j : Nat} {observed notices : List Notice} {id : TaskId}

theorem unmatchedFault_silent (silent : notices.filterMap (faultMark i) = []) :
    unmatchedFault i (observed ++ notices) = unmatchedFault i observed := by
  rw [unmatchedFault, filterMap_append, silent, append_nil]
  rfl

theorem unmatchedFault_marked {notice : Notice} {mark : Bool} (marked : faultMark i notice = some mark) :
    unmatchedFault i (observed ++ [notice]) = mark := by
  have last : [notice].filterMap (faultMark i) = [mark] := by
    rw [filterMap_cons, marked]
    rfl
  rw [unmatchedFault, filterMap_append, last, getLastD_concat]

theorem faultMark_other (reason : FaultReason)
    (other : i ≠ j) :
    [Notice.taskFault i id reason].filterMap (faultMark j) = [] ∧
      [Notice.taskClear i id].filterMap (faultMark j) = [] := by
  simp [faultMark, other]

theorem appNotices_unmarked (item : Item) (result : ExecuteResult) :
    (appNotices id item result).filterMap (faultMark i) = [] := by
  cases result <;> rw [appNotices] <;> cases item.appId <;> rfl

end Marks

namespace Executor

def Accounted (e : Executor) : Prop :=
  ∀ i t, e.tasks[i]? = some t → t.state.isOverrun = true → unmatchedFault i e.observed = true

structure SameFaults (e e' : Executor) : Prop where
  tasks : e'.tasks.map (·.state) = e.tasks.map (·.state)
  marks : ∀ i, unmatchedFault i e'.observed = unmatchedFault i e.observed

section Faults

variable {e e' e'' : Executor} {i : Nat} {f : TaskEntry → TaskEntry} {x : Execution} {ctx : FaultDispatchCtx}
    {id : TaskId} {budget : Nat} {t : TaskEntry}

theorem SameFaults.refl (e : Executor) : SameFaults e e := ⟨rfl, fun _ => rfl⟩

theorem SameFaults.trans (first : SameFaults e e') (second : SameFaults e' e'') : SameFaults e e'' :=
  ⟨second.tasks.trans first.tasks, fun i => (second.marks i).trans (first.marks i)⟩

theorem SameFaults.modified
    (same : SameFaults e e')
    (keeps : ∀ t, (f t).state = t.state) : SameFaults e (e'.modifyTask i f) :=
  ⟨(map_modify_of_eq keeps).trans same.tasks, same.marks⟩

theorem SameFaults.notified {notices : List Notice} (same : SameFaults e e')
    (silent : ∀ i, notices.filterMap (faultMark i) = []) : SameFaults e (e'.notify notices) :=
  ⟨same.tasks, fun i => (unmatchedFault_silent (silent i)).trans (same.marks i)⟩

theorem Accounted.sameFaults (accounted : e.Accounted) (same : SameFaults e e') : e'.Accounted := by
  intro i t found overrun
  obtain ⟨t₀, before, equal⟩ := getElem?_of_map_eq same.tasks found
  rw [same.marks]
  exact accounted i t₀ before (equal ▸ overrun)

theorem Accounted.changed
    (accounted : e.Accounted)
    (others : ∀ j, i ≠ j → e'.tasks[j]? = e.tasks[j]?)
    (marks : ∀ j, i ≠ j → unmatchedFault j e'.observed = unmatchedFault j e.observed)
    (here : ∀ t, e'.tasks[i]? = some t → t.state.isOverrun = true → unmatchedFault i e'.observed = true) :
    e'.Accounted := by
  intro j t found overrun
  by_cases same : i = j
  · subst same
    exact here t found overrun
  · rw [marks j same]
    exact accounted j t ((others j same).symm.trans found) overrun

theorem clear_state (t : TaskEntry) : t.clear.state = .running := load_running

theorem cascade_state {sinceMs : Nat} (since : sinceMs < 2 ^ 32) :
    (t.cascade sinceMs).state = .faulted .executorFaulted sinceMs := by
  show load ⟨pack (.faulted .executorFaulted sinceMs)⟩ _ = _
  rw [load, pack, unpack,
    faultDisc_packFault (by decide) since, faultSinceMs_packFault since]
  rfl

theorem load_kind (a : FaultAtomic) (budgetMs budgetMs' : Nat) :
    (a.load budgetMs).isOverrun = (a.load budgetMs').isOverrun ∧
      (a.load budgetMs).isCascaded = (a.load budgetMs').isCascaded ∧
      (a.load budgetMs = .running ↔ a.load budgetMs' = .running) := by
  simp only [load, unpack]
  split <;> simp [FaultState.isOverrun, FaultState.isCascaded]

theorem overrun_or_cascaded (state : FaultState) :
    state = .running ∨ state.isOverrun = true ∨ state.isCascaded = true := by
  cases state with
  | running => exact .inl rfl
  | faulted reason since =>
    cases reason with
    | budgetExceeded => exact .inr (.inl rfl)
    | executorFaulted => exact .inr (.inr rfl)

theorem Accounted.breachTask
    (accounted : e.Accounted)
    (uncascaded : ∀ t, e.tasks[ctx.task]? = some t → t.state.isCascaded = false) :
    (e.breachTask id ctx x budget).Accounted := by
  unfold Executor.breachTask
  dsimp only
  split
  · exact accounted
  rename_i t found
  split
  · refine accounted.changed (fun j other => modifyTask_other other) ?_ ?_
    · intro j other
      exact unmatchedFault_silent (faultMark_other _ other).1
    · intro _ _ _
      exact unmatchedFault_marked (if_pos rfl)
  · rename_i faulted
    refine accounted.changed (fun j other => modifyTask_other other) (fun _ _ => rfl) ?_
    intro _ _ _
    have kind := load_kind t.fault t.budgetMs (durationToMsSat budget)
    rcases overrun_or_cascaded t.state with running | overrun | cascaded
    · exact absurd (kind.2.2.mp running) faulted
    · exact accounted ctx.task t found overrun
    · rw [uncascaded t found] at cascaded
      cases cascaded

theorem breachExecutor_faults : SameFaults e (e.breachExecutor ctx x budget) := by
  unfold breachExecutor
  dsimp only
  split
  · exact .notified ⟨rfl, fun _ => rfl⟩ fun _ => rfl
  · exact ⟨rfl, fun _ => rfl⟩

theorem detectExecutorFault_faults : SameFaults e (e.detectExecutorFault ctx x) := by
  unfold detectExecutorFault
  split
  · exact .refl e
  split
  · exact breachExecutor_faults
  · exact .refl e

theorem recordFirstErr_faults (result : ExecuteResult) : SameFaults e (e.recordFirstErr id result) := by
  unfold recordFirstErr
  split
  · exact .refl e
  split
  · exact ⟨rfl, fun _ => rfl⟩
  · exact .refl e

theorem storeTook_faults : SameFaults e (e.storeTook ctx x) := .modified (.refl e) fun _ => rfl

def forces (e : Executor) (ctx : FaultDispatchCtx) (x : Execution) : Bool :=
  ctx.taskBudget.any (· < x.took) && e.tasks[ctx.task]?.any (·.state.isCascaded)

theorem forces_sameFaults (same : SameFaults e e') : e'.forces ctx x = e.forces ctx x := by
  have states : e'.tasks[ctx.task]?.map (·.state) = e.tasks[ctx.task]?.map (·.state) := by
    rw [← getElem?_map, ← getElem?_map, same.tasks]
  have cascaded : e'.tasks[ctx.task]?.any (·.state.isCascaded) = e.tasks[ctx.task]?.any (·.state.isCascaded) := by
    have := congrArg (Option.any FaultState.isCascaded) states
    rwa [Option.any_map, Option.any_map] at this
  rw [forces, forces, cascaded]

theorem uncascaded_of_forces
    (unforced : e.forces ctx x = false)
    (bounded : ctx.taskBudget = some budget)
    (exceeds : budget < x.took)
    (found : e.tasks[ctx.task]? = some t) : t.state.isCascaded = false := by
  rw [forces, bounded, found, Option.any_some, decide_eq_true exceeds] at unforced
  exact unforced

theorem Accounted.runItem
    (accounted : e.Accounted)
    (unforced : e.forces ctx x = false)
    (item : Item) : (e.runItem id item ctx x).Accounted := by
  have told : SameFaults e (e.notify (appNotices id item x.result)) :=
    .notified (.refl e) fun _ => appNotices_unmarked item x.result
  refine sameFaults ?_ detectExecutorFault_faults
  unfold detectTaskFault
  split
  · exact accounted.sameFaults told
  rename_i budget bounded
  split
  · rename_i exceeds
    exact (accounted.sameFaults told).breachTask fun t found => uncascaded_of_forces unforced bounded exceeds found
  · exact accounted.sameFaults told

theorem Accounted.runJob
    (accounted : e.Accounted)
    (job : TaskJob)
    (unforced : e.forces job.ctx x = false) : (e.runJob x job).1.Accounted := by
  cases job with
  | single id item ctx =>
    have stored : SameFaults e (e.storeTook ctx x) := storeTook_faults
    rw [← forces_sameFaults stored] at unforced
    exact ((accounted.sameFaults stored).runItem unforced item).sameFaults (recordFirstErr_faults _)
  | handler id item ctx => exact (accounted.runItem unforced item).sameFaults (recordFirstErr_faults _)
  | chain id items ctx =>
    cases items with
    | nil => exact accounted.sameFaults storeTook_faults
    | cons item rest =>
      unfold Executor.runJob
      dsimp only
      split
      · exact accounted.runItem unforced item
      · exact (accounted.runItem unforced item).sameFaults ((recordFirstErr_faults _).trans storeTook_faults)

theorem Accounted.cascadeFault
    (accounted : e.Accounted)
    (clock : DispatchClock) : (e.cascadeFault clock i).Accounted := by
  refine accounted.changed (fun j other => modifyTask_other other) (fun _ _ => rfl) ?_
  intro t found overrun
  obtain ⟨_, _, rfl⟩ := modifyTask_found found
  rw [cascade_state (instantToSinceMs_lt _ _)] at overrun
  cases overrun

theorem submitHandler_faults : SameFaults e (e.submitHandler i t) := by
  unfold submitHandler
  split
  · exact ⟨rfl, fun _ => rfl⟩
  · exact .refl e

theorem submitTaskJob_faults {graphError : Option ItemError} : SameFaults e (e.submitTaskJob i t graphError) := by
  have submitted : ∀ what, SameFaults e (e.submit i what) := fun _ => ⟨rfl, fun _ => rfl⟩
  unfold submitTaskJob
  split
  · split
    · exact (submitted _).trans (recordFirstErr_faults _)
    · exact submitted _
  split
  · exact submitted _
  · exact .refl e

section

variable (accounted : e.Accounted)
include accounted

theorem Accounted.dispatchTask (clock : DispatchClock) (graphError : Option ItemError) (i : Nat) :
    (e.dispatchTask clock graphError i).Accounted := by
  unfold Executor.dispatchTask
  split
  · exact accounted
  rename_i t found
  split
  · exact accounted
  have routed : (e.handleFaultRouting clock i t).2.Accounted := by
    unfold handleFaultRouting
    split
    · split
      · exact (accounted.cascadeFault clock).sameFaults submitHandler_faults
      · exact accounted.sameFaults submitHandler_faults
    · exact accounted
  have marked := routed.sameFaults (.modified (.refl _) (i := i)
    (f := (·.mark ⟨clock.pre, (e.handleFaultRouting clock i t).1⟩)) fun _ => rfl)
  dsimp only
  split
  · exact marked
  · exact marked.sameFaults submitTaskJob_faults

theorem Accounted.clear : (e.modifyTask i (·.clear)).Accounted := by
  refine accounted.changed (fun j other => modifyTask_other other) (fun _ _ => rfl) ?_
  intro t found overrun
  obtain ⟨_, _, rfl⟩ := modifyTask_found found
  rw [clear_state] at overrun
  cases overrun

theorem Accounted.clearTold : ((e.modifyTask i (·.clear)).notify [.taskClear i id]).Accounted := by
  refine accounted.changed (fun j other => modifyTask_other other) ?_ ?_
  · intro j other
    exact unmatchedFault_silent (faultMark_other .executorFaulted other).2
  · intro t found overrun
    obtain ⟨_, _, rfl⟩ := modifyTask_found found
    rw [clear_state] at overrun
    cases overrun

theorem Accounted.clearTaskFault : (e.clearTaskFault id).2.Accounted := by
  unfold Executor.clearTaskFault
  split
  · exact accounted
  split
  · exact accounted.clear
  · exact accounted.clearTold

theorem Accounted.clearCascaded : (e.clearCascaded i).Accounted := by
  unfold Executor.clearCascaded
  split
  · exact accounted
  split
  · exact accounted.clearTold
  · exact accounted

end

theorem clearCascaded_other {j : Nat} (other : i ≠ j) : (e.clearCascaded i).tasks[j]? = e.tasks[j]? := by
  unfold clearCascaded
  split
  · rfl
  split
  · exact modifyTask_other other
  · rfl

theorem clearCascaded_here (found : (e.clearCascaded i).tasks[i]? = some t) : t.state.isCascaded = false := by
  unfold clearCascaded at found
  split at found
  · rename_i missing
    rw [missing] at found
    cases found
  split at found
  · obtain ⟨_, _, rfl⟩ := modifyTask_found found
    rw [clear_state]
    rfl
  · rename_i t₀ before other
    rw [before] at found
    cases found
    exact Bool.eq_false_iff.mpr other

theorem clearCascaded_range (n : Nat) (accounted : e.Accounted) :
    ((List.range n).foldl clearCascaded e).Accounted ∧
      (∀ i, n ≤ i → ((List.range n).foldl clearCascaded e).tasks[i]? = e.tasks[i]?) ∧
      ∀ i t, i < n → ((List.range n).foldl clearCascaded e).tasks[i]? = some t → t.state.isCascaded = false := by
  induction n with
  | zero => exact ⟨accounted, fun _ _ => rfl, fun i _ below => absurd below (Nat.not_lt_zero i)⟩
  | succ n ih =>
    obtain ⟨before, later, earlier⟩ := ih
    rw [range_succ, foldl_append, foldl_cons, foldl_nil]
    refine ⟨before.clearCascaded, ?_, ?_⟩
    · intro i above
      rw [clearCascaded_other (by omega)]
      exact later i (by omega)
    · intro i t below found
      by_cases here : i = n
      · subst here
        exact clearCascaded_here found
      · rw [clearCascaded_other (symm here)] at found
        exact earlier i t (by omega) found

section

variable (accounted : e.Accounted)
include accounted

theorem Accounted.clearExecutorFault : e.clearExecutorFault.2.Accounted := by
  have cleared : Accounted { e with execFault := ⟨ExecutorFaultAtomic.pack .running⟩ } :=
    accounted.sameFaults ⟨rfl, fun _ => rfl⟩
  unfold Executor.clearExecutorFault
  dsimp only
  split
  · exact cleared
  · exact (clearCascaded_range _ cleared).1.sameFaults (.notified (.refl _) fun _ => rfl)

theorem clearExecutorFault_uncascaded {prev : ExecutorFaultState} (cleared : e.clearExecutorFault.1 = .ok prev)
    (found : e.clearExecutorFault.2.tasks[i]? = some t) : t.state.isCascaded = false := by
  have start : Accounted { e with execFault := ⟨ExecutorFaultAtomic.pack .running⟩ } :=
    accounted.sameFaults ⟨rfl, fun _ => rfl⟩
  obtain ⟨_, later, earlier⟩ := clearCascaded_range e.tasks.length start
  unfold clearExecutorFault at cleared found
  dsimp only at cleared found
  split at cleared
  · cases cleared
  · rename_i faulted
    rw [if_neg faulted] at found
    by_cases inside : i < e.tasks.length
    · exact earlier i t inside found
    · have missing := later i (Nat.le_of_not_lt inside)
      rw [getElem?_eq_none (Nat.le_of_not_lt inside)] at missing
      have absent := missing.symm.trans found
      cases absent

theorem Accounted.grown (grown : Grown e e') : e'.Accounted := by
  rcases grown.table with ⟨tasks, _⟩ | ⟨id, kind, decls, job, budget, _, tasks, _⟩
  · exact accounted.sameFaults ⟨by rw [tasks], fun i => by rw [grown.observed]⟩
  · intro i t found overrun
    rw [tasks] at found
    rw [grown.observed]
    by_cases old : i < e.tasks.length
    · rw [getElem?_append_left old] at found
      exact accounted i t found overrun
    · rw [getElem?_append_right (Nat.le_of_not_lt old)] at found
      rw [mem_singleton.mp (mem_of_getElem? found)] at overrun
      have fresh : (TaskEntry.fresh id kind decls job budget).state = .running := load_running
      rw [fresh] at overrun
      cases overrun

theorem Accounted.register (call : Register) : (e.register call).Accounted := by
  obtain ⟨_, grown, same | ⟨_, _, _, _, _, _, attached⟩⟩ := register_table e call
  · exact same ▸ accounted.grown grown
  · rw [attached]
    exact (accounted.grown grown).sameFaults (.modified (.refl _) fun _ => rfl)

theorem Accounted.barrierAndRecord : e.barrierAndRecord.Accounted := by
  have frame := barrierAndRecord_frame e
  obtain ⟨cycles, observed⟩ := frame.records
  refine accounted.sameFaults ⟨frame.faults, fun i => ?_⟩
  rw [observed]
  apply unmatchedFault_silent
  rw [filterMap_eq_nil_iff]
  intro notice member
  obtain ⟨_, _, rfl⟩ := mem_map.mp member
  rfl

end

end Faults

end Executor

/-- A step in which no execution overruns the budget of a task that the executor has faulted. -/
def Loop.unforced (l : Loop) : Action → Bool
  | .executed k x => l.exec.inFlight[k]?.all fun job => !l.exec.forces job.ctx x
  | _ => true

theorem Loop.Moves.accounted {l l' : Loop} {a : Action}
    (moves : l.Moves a l')
    (unforced : l.unforced a = true)
    (accounted : l.exec.Accounted) : l'.exec.Accounted := by
  cases moves with
  | register => exact accounted.register _
  | enter =>
    refine accounted.sameFaults ⟨?_, fun _ => rfl⟩
    rw [entered, sweep, map_map]
    rfl
  | ignored | abandon => exact accounted
  | fired => exact accounted.dispatchTask _ _ _
  | gridPass => exact gridPass_exec l _ _ ▸ accounted
  | @cyclic now due rest index clock graphError phase task =>
    have signalled := accounted.sameFaults (.modified (.refl _) (i := index) (f := (·.signal due.skipped due.lateBy))
      fun _ => rfl)
    exact signalled.dispatchTask _ _ _
  | @executed k x job found =>
    rw [Loop.unforced, found, Option.all_some, Bool.not_eq_true'] at unforced
    have taken : (l.exec.takeJob k).Accounted := accounted.sameFaults ⟨rfl, fun _ => rfl⟩
    exact (taken.runJob job unforced).sameFaults ⟨rfl, fun _ => rfl⟩
  | barrier => exact accounted.barrierAndRecord.sameFaults ⟨rfl, fun _ => rfl⟩
  | clearTask => exact accounted.clearTaskFault
  | clearExecutor => exact accounted.clearExecutorFault

/-- If no execution overruns the budget of a task that the executor has faulted, every overrun is reported. -/
theorem overruns_are_reported {pin : Option IntegrityLevel} {mode : DispatchMode} {budget : Option Nat}
    {history : List Action} {l : Loop}
    (run : Run (fun l a l' => l.Step a l' ∧ l.unforced a = true) (Loop.new (.new pin mode budget)) history l) :
    (∀ i t, l.exec.tasks[i]? = some t → t.state.isOverrun = true → unmatchedFault i l.exec.observed = true) ∧
      ∀ prev e', l.exec.clearExecutorFault = (.ok prev, e') → ∀ i t, e'.tasks[i]? = some t → t.state.isFaulted = true →
      unmatchedFault i e'.observed = true := by
  have accounted : l.exec.Accounted := by
    refine run.invariant (I := fun l => l.exec.Accounted) ?_ fun _ _ _ held step => step.1.moves.accounted step.2 held
    intro i t found
    cases found
  refine ⟨accounted, ?_⟩
  intro prev e' cleared i t found faulted
  have after := accounted.clearExecutorFault
  have uncascaded := clearExecutorFault_uncascaded (i := i) (t := t) accounted (congrArg Prod.fst cleared)
  rw [cleared] at after uncascaded
  rcases overrun_or_cascaded t.state with running | overrun | cascaded
  · rw [running] at faulted
    cases faulted
  · exact after i t found overrun
  · rw [uncascaded found] at cascaded
    cases cascaded

def twoCycles (first second : Nat) : List Action :=
  [.register (.addWithFaultHandler (cyclicItem .qualityManaged (some 100)) (cyclicItem .qualityManaged none)), .enter 0,
    .gridPass true 1000, .cyclic 0 ⟨0, 0, 1000⟩ none, .executed 0 ⟨0, first, first, .ok .proceed⟩, .barrier true,
    .gridPass true 2000, .cyclic 0 ⟨0, 0, 2000⟩ none, .executed 0 ⟨0, second, second, .ok .proceed⟩]

def budgetedLoop : Loop := .new (.new none .grid (some 10))

def afterTwoCycles (first second : Nat) : Option Loop :=
  Run.follow (fun l a => if l.unforced a then l.act a else none) budgetedLoop (twoCycles first second)

theorem overrun_reported_in_both_cycles :
    ∃ l, afterTwoCycles 200 300 = some l ∧ (l.exec.tasks.map (·.state.isOverrun) = [true]) ∧
      ∀ i t, l.exec.tasks[i]? = some t → t.state.isOverrun = true → unmatchedFault i l.exec.observed = true := by
  have reached : (afterTwoCycles 200 300).isSome = true := by decide +kernel
  have overrun : (afterTwoCycles 200 300).map (fun l => l.exec.tasks.map (·.state.isOverrun)) = some [true] := by
    decide +kernel
  obtain ⟨l, follows⟩ := Option.isSome_iff_exists.mp reached
  rw [follows] at overrun
  have run : Run (fun l a l' => l.Step a l' ∧ l.unforced a = true) budgetedLoop (twoCycles 200 300) l :=
    (Run.of_follow follows).mono fun _ _ _ step => (Option.ite_none_right_eq_some.mp step).symm
  exact ⟨l, follows, Option.some.inj overrun, (overruns_are_reported run).1⟩

/-- The executor is faulted in the first cycle; the handler's overrun in the second one is not reported. -/
theorem overrun_of_handler_unreported :
    (Run.follow Loop.act budgetedLoop (twoCycles 20 200)).map (fun l =>
      ((l.exec.tasks.map (·.state.isOverrun), unmatchedFault 0 l.exec.observed), l.exec.clearExecutorFault.1.toBool,
      l.exec.clearExecutorFault.2.tasks.map (·.state.isFaulted),
      unmatchedFault 0 l.exec.clearExecutorFault.2.observed)) = some (([true], false), true, [true], false) := by
  decide +kernel

end Taktora.Exec
