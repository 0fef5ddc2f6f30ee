import Taktora.Executor.Grid
import Taktora.Executor.Task

namespace Taktora.Exec

open Saturating

structure Execution where
  started : Nat
  took : Nat
  teleTook : Nat
  result : ExecuteResult

/-- The clock readings of a dispatch. The first two belong to a cascaded fault, the last one to the telemetry. -/
structure DispatchClock where
  execStart : Nat
  now : Nat
  pre : Nat
deriving DecidableEq

namespace TaskEntry

variable (t : TaskEntry)

def budgetMs : Nat := t.budget.elim 0 durationToMsSat

def state : FaultState := t.fault.load t.budgetMs

def cascade (sinceMs : Nat) : TaskEntry :=
  { t with fault := (t.fault.swap (.faulted .executorFaulted sinceMs) t.budgetMs).2 }

def clear : TaskEntry := { t with fault := (t.fault.swap .running t.budgetMs).2 }

def mark (pending : CyclePending) : TaskEntry := { t with pendingCycle := some pending }

def takePending : TaskEntry := { t with pendingCycle := none }

def signal (skipped lateBy : Nat) : TaskEntry :=
  { t with pendingSkipped := saturate 32 skipped, pendingLate := some lateBy }

def nominalEpoch (pre : Nat) : Nat := t.gridEpoch.getD (pre - t.pendingLate.getD 0)

def nominalSlot : Nat :=
  if t.gridEpoch.isSome then add 64 (add 64 t.gridSlot 1) t.pendingSkipped else t.gridSlot

def toI64 (n : Nat) : Int := min n (2 ^ 63 - 1)

def lateness (pre periodNs : Nat) : Int :=
  toI64 (pre - t.nominalEpoch pre) - toI64 (t.nominalSlot * periodNs)

def recorded (pre : Nat) : TaskEntry :=
  { t with
    lastTookNs := 2 ^ 64 - 1, lastDispatch := some pre, pendingSkipped := 0, pendingLate := none
    gridEpoch := some (t.nominalEpoch pre), gridSlot := t.nominalSlot }

def observation (cycleIndex taskIdx period : Nat) (pending : CyclePending) : CycleObservation :=
  let periodNs := saturate 64 period
  let actualPeriodNs := t.lastDispatch.map (pending.pre - ·)
  { cycleIndex, taskId := t.id, taskIndex := saturate 32 taskIdx, faulted := pending.faulted, periodNs
    preNs := pending.pre, actualPeriodNs
    jitterNs := if pending.faulted then none else actualPeriodNs.map fun ap => (ap - periodNs) + (periodNs - ap)
    latenessNs := if 0 < periodNs ∧ pending.faulted = false then some (t.lateness pending.pre periodNs) else none
    skippedSlots := t.pendingSkipped
    tookNs := if pending.faulted ∨ t.lastTookNs = 2 ^ 64 - 1 then none else some t.lastTookNs }

def swept : TaskEntry := { t with pendingCycle := none, pendingSkipped := 0, pendingLate := none }

end TaskEntry

namespace Executor

variable (e : Executor)

def notify (notices : List Notice) : Executor := { e with observed := e.observed ++ notices }

variable (i : Nat)

def modifyTask (f : TaskEntry → TaskEntry) : Executor := { e with tasks := e.tasks.modify i f }

def isFaulted (e : Executor) : Bool := (e.execFault.load 0 0).isFaulted

def setStart (init : Nat) : Executor := { e with startTime := some (e.startTime.getD init) }

variable (id : TaskId) (ctx : FaultDispatchCtx) (x : Execution)

def breachTask (budget : Nat) : Executor :=
  let sinceMs := instantToSinceMs x.started (e.startTime.getD x.started)
  let reason := FaultReason.budgetExceeded (durationToMsSat x.took) (durationToMsSat budget)
  match e.tasks[ctx.task]? with
  | none => e
  | some t =>
    let (prev, fault) := t.fault.swap (.faulted reason sinceMs) (durationToMsSat budget)
    let e := (e.setStart x.started).modifyTask ctx.task fun t => { t with overrunCount := t.overrunCount + 1, fault }
    if prev = .running then e.notify [.taskFault ctx.task id reason] else e

def breachExecutor (budget : Nat) : Executor :=
  let sinceMs := instantToSinceMs x.started (e.startTime.getD x.started)
  let taskIdx := ctx.task % 2 ^ 32
  let reason := ExecutorFaultReason.iterationBudgetExceeded taskIdx (durationToMsSat x.took) (durationToMsSat budget)
  let (prev, execFault) := e.execFault.swap (.faulted reason sinceMs) taskIdx (durationToMsSat budget)
  let e := { e.setStart x.started with
    execFault, execFaultTaskIdx := taskIdx, execFaultBudgetMs := durationToMsSat budget }
  if prev = .running then e.notify [.executorFault reason] else e

def detectTaskFault : Executor :=
  match ctx.taskBudget with
  | none => e
  | some budget => if budget < x.took then e.breachTask id ctx x budget else e

def detectExecutorFault : Executor :=
  match ctx.iterationBudget with
  | none => e
  | some budget => if budget < x.took then e.breachExecutor ctx x budget else e

def postExecuteDetectFault : Executor :=
  (e.detectTaskFault id ctx x).detectExecutorFault ctx x

def recordFirstErr : ExecuteResult → Executor
  | .ok _ => e
  | .error source => if e.iterErr = none then { e with iterErr := some (.item id source) } else e

def appNotices (item : Item) : ExecuteResult → List Notice
  | .ok _ => (item.appId.elim [] fun app => [.appStart id app item.appInstanceId, .appStop id])
  | .error error =>
    item.appId.elim [.appError id error] fun app =>
      [.appStart id app item.appInstanceId, .appError id error, .appStop id]

def runItem (item : Item) (ctx : FaultDispatchCtx) (x : Execution) : Executor :=
  (e.notify (appNotices id item x.result)).postExecuteDetectFault id ctx x

def storeTook : Executor :=
  e.modifyTask ctx.task fun t => { t with lastTookNs := x.teleTook }

def runJob : TaskJob → Executor × Option TaskJob
  | .single id item ctx => (((e.storeTook ctx x).runItem id item ctx x).recordFirstErr id x.result, none)
  | .handler id item ctx => ((e.runItem id item ctx x).recordFirstErr id x.result, none)
  | .chain _ [] ctx => (e.storeTook ctx x, none)
  | .chain id (item :: rest) ctx =>
    if x.result.toOption = some .proceed ∧ rest ≠ [] then (e.runItem id item ctx x, some (.chain id rest ctx))
    else (((e.runItem id item ctx x).recordFirstErr id x.result).storeTook ctx x, none)

def takeJob (k : Nat) : Executor := { e with inFlight := e.inFlight.eraseIdx k }

def submit (what : Submission) : Executor :=
  { e with submitted := e.submitted ++ [(i, what)], inFlight := e.inFlight ++ what.job.toList }

variable (clock : DispatchClock)

def cascadeFault (i : Nat) : Executor :=
  (e.setStart clock.execStart).modifyTask i
    (·.cascade (instantToSinceMs clock.now (e.startTime.getD clock.execStart)))

variable (task : TaskEntry)

def withholds : Bool := !task.kind.isGraph && (e.isFaulted || task.state.isFaulted)

def submitHandler : Executor :=
  match task.handlerJob with
  | some job => e.submit i (.handler job)
  | none => e

def handleFaultRouting (i : Nat) (task : TaskEntry) : Bool × Executor :=
  if e.withholds task then
    (true, (if e.isFaulted ∧ task.state = .running then e.cascadeFault clock i else e).submitHandler i task)
  else (false, e)

variable (graphError : Option ItemError)

def submitTaskJob : Executor :=
  if task.kind.isGraph then
    let e := e.submit i .graph
    match graphError with
    | some source => e.recordFirstErr task.id (.error source)
    | none => e
  else
    match task.job with
    | some job => e.submit i (.main job)
    | none => e

def dispatchTask (i : Nat) : Executor :=
  match e.tasks[i]? with
  | none => e
  | some task =>
    if task.pendingCycle.isSome then e
    else
      let (routedToHandler, e) := e.handleFaultRouting clock i task
      let e := e.modifyTask i (·.mark ⟨clock.pre, routedToHandler⟩)
      if routedToHandler then e else e.submitTaskJob i task graphError

def dispatchCyclic (i skipped lateBy : Nat) : Executor :=
  (e.modifyTask i (·.signal skipped lateBy)).dispatchTask clock graphError i

def countCycle (stats : TaskCycleStats) : Executor :=
  { e with cycleStats := e.cycleStats.set i ⟨stats.cycleIndex + 1⟩ }

def recordCycleFor (pending : CyclePending) : Executor :=
  match e.tasks[i]?, e.cycleStats[i]? with
  | some task, some stats =>
    match task.scanPeriod with
    | none => e
    | some period =>
      ((e.modifyTask i (·.recorded pending.pre)).countCycle i stats).notify
        [.cycleStats i (task.observation stats.cycleIndex i period pending)]
  | _, _ => e

def recordPending : Executor :=
  match e.tasks[i]?.bind (·.pendingCycle) with
  | none => e
  | some pending => (e.modifyTask i (·.takePending)).recordCycleFor i pending

def barrierAndRecord : Executor := (List.range e.tasks.length).foldl recordPending e

def clearTaskFault : Except ExecutorError FaultState × Executor :=
  match e.tasks.zipIdx.find? (·.1.id == id) with
  | none => (.error (.taskNotFound id), e)
  | some (t, i) =>
    let e := e.modifyTask i (·.clear)
    if t.state = .running then (.error (.taskNotFaulted id), e) else (.ok t.state, e.notify [.taskClear i id])

def clearCascaded : Executor :=
  match e.tasks[i]? with
  | none => e
  | some t => if t.state.isCascaded then (e.modifyTask i (·.clear)).notify [.taskClear i t.id] else e

def clearExecutorFault : Except ExecutorError ExecutorFaultState × Executor :=
  let (prev, execFault) := e.execFault.swap .running e.execFaultTaskIdx e.execFaultBudgetMs
  let e := { e with execFault }
  if prev = .running then (.error .executorNotFaulted, e)
  else (.ok prev, ((List.range e.tasks.length).foldl clearCascaded e).notify [.executorClear])

def sweep : Executor := { e with tasks := e.tasks.map (·.swept), iterErr := none }

def cyclicTriggers : List (Nat × Nat) :=
  if e.dispatchMode = .grid then
    e.tasks.zipIdx.flatMap fun (t, i) => (t.decls.filterMap (·.interval?)).map fun period => (i, saturate 64 period)
  else []

def attached : Bool :=
  (e.tasks[i]?.elim [] (·.decls)).any fun decl => !(e.dispatchMode == .grid && decl.isInterval)

end Executor

inductive Phase where
  | stopped
  | waiting
  | dispatching (now : Nat) (due : List Due)
deriving DecidableEq

structure Loop where
  exec : Executor
  phase : Phase
  grid : GridTimer
  cyclicTaskIndices : List Nat

inductive Action where
  | register (call : Register)
  | enter (now : Nat)
  | fired (target : Option Nat) (clock : DispatchClock) (graphError : Option ItemError)
  /-- The wait has returned. The grid is consulted if the timer has ticked and nothing stops the loop. -/
  | gridPass (consulted : Bool) (now : Nat)
  | cyclic (index : Nat) (clock : DispatchClock) (graphError : Option ItemError)
  | executed (job : Nat) (x : Execution)
  | barrier (more : Bool)
  | abandon
  | clearTask (id : TaskId)
  | clearExecutor

namespace Loop

def new (e : Executor) : Loop := { exec := e, phase := .stopped, grid := .new 0 [], cyclicTaskIndices := [] }

variable (l : Loop)

def entered (now : Nat) : Loop :=
  let triggers := l.exec.cyclicTriggers
  { exec := l.exec.sweep, phase := .waiting, grid := .new now (triggers.map (·.2))
    cyclicTaskIndices := triggers.map (·.1) }

def gridPass (consulted : Bool) (now : Nat) : Loop :=
  if consulted ∧ l.exec.dispatchMode = .grid ∧ l.cyclicTaskIndices ≠ [] then
    { l with phase := .dispatching now (l.grid.takeDue now).1, grid := (l.grid.takeDue now).2 }
  else { l with phase := .dispatching now [] }

def execute (k : Nat) (x : Execution) (job : TaskJob) : Loop :=
  let (e, rest) := (l.exec.takeJob k).runJob x job
  { l with exec := { e with inFlight := e.inFlight ++ rest.toList } }

def barrier (more : Bool) : Loop :=
  { l with
    exec := { l.exec.barrierAndRecord with iterErr := none }
    phase := if more ∧ l.exec.iterErr = none then .waiting else .stopped }

def act : Action → Option Loop
  | .register call => if l.phase = .stopped then some { l with exec := l.exec.register call } else none
  | .enter now => if l.phase = .stopped then some (l.entered now) else none
  | .fired none _ _ => if l.phase = .waiting then some l else none
  | .fired (some i) clock graphError =>
    if l.phase = .waiting ∧
      l.exec.attached i then some { l with exec := l.exec.dispatchTask clock graphError i } else none
  | .gridPass consulted now => if l.phase = .waiting then some (l.gridPass consulted now) else none
  | .cyclic index clock graphError =>
    match l.phase with
    | .dispatching now (due :: rest) =>
      if l.cyclicTaskIndices[due.slot]? = some index then
        some { l with
          exec := l.exec.dispatchCyclic clock graphError index due.skipped due.lateBy, phase := .dispatching now rest }
      else none
    | _ => none
  | .executed k x => l.exec.inFlight[k]?.map (l.execute k x)
  | .barrier more =>
    match l.phase with
    | .dispatching _ [] => if l.exec.inFlight.isEmpty then some (l.barrier more) else none
    | _ => none
  | .abandon => if l.phase ≠ .stopped ∧ l.exec.inFlight.isEmpty then some { l with phase := .stopped } else none
  | .clearTask id => some { l with exec := (l.exec.clearTaskFault id).2 }
  | .clearExecutor => some { l with exec := l.exec.clearExecutorFault.2 }

def Step (a : Action) (l' : Loop) : Prop := l.act a = some l'

end Loop

end Taktora.Exec
