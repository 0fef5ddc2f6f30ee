import Taktora.Executor.Fault
import Taktora.Executor.Graph
import Taktora.Lib.Fallible

namespace Taktora.Exec

open Fallible Saturating

inductive DispatchMode where
  | grid
  | legacy
deriving DecidableEq

/-- What a job keeps for its fault detection, with the index of the task whose atomics it shares. -/
structure FaultDispatchCtx where
  taskBudget : Option Nat
  task : Nat
  iterationBudget : Option Nat

/-- A dispatch closure with what it has captured. A chain that is under way has lost the items already run. -/
inductive TaskJob where
  | single (id : TaskId) (item : Item) (ctx : FaultDispatchCtx)
  | chain (id : TaskId) (items : List Item) (ctx : FaultDispatchCtx)
  | handler (id : TaskId) (item : Item) (ctx : FaultDispatchCtx)

inductive TaskKind where
  | single (item : Item)
  | chain (items : List Item)
  | graph (graph : Graph)

def TaskKind.isGraph : TaskKind → Bool
  | .graph _ => true
  | _ => false

structure CyclePending where
  pre : Nat
  faulted : Bool
deriving DecidableEq

structure TaskEntry where
  id : TaskId
  kind : TaskKind
  decls : List TriggerDecl
  job : Option TaskJob
  budget : Option Nat
  fault : FaultAtomic
  overrunCount : Nat
  handlerJob : Option TaskJob
  scanPeriod : Option Nat
  lastTookNs : Nat
  lastDispatch : Option Nat
  gridSlot : Nat
  gridEpoch : Option Nat
  pendingSkipped : Nat
  pendingLate : Option Nat
  pendingCycle : Option CyclePending

structure TaskCycleStats where
  cycleIndex : Nat
deriving DecidableEq

structure CycleObservation where
  cycleIndex : Nat
  taskId : TaskId
  taskIndex : Nat
  faulted : Bool
  periodNs : Nat
  preNs : Nat
  actualPeriodNs : Option Nat
  jitterNs : Option Nat
  latenessNs : Option Int
  skippedSlots : Nat
  tookNs : Option Nat
deriving DecidableEq

/-- What the observer is told. Where two tasks may share an id, the index of the task is kept with it. -/
inductive Notice where
  | appStart (task : TaskId) (app : Nat) (instanceId : Option Nat)
  | appStop (task : TaskId)
  | appError (task : TaskId) (error : ItemError)
  | taskFault (index : Nat) (task : TaskId) (reason : FaultReason)
  | taskClear (index : Nat) (task : TaskId)
  | executorFault (reason : ExecutorFaultReason)
  | executorClear
  | cycleStats (index : Nat) (observation : CycleObservation)
deriving DecidableEq

/-- What is handed to the pool for a task. The jobs of a graph are its own. -/
inductive Submission where
  | main (job : TaskJob)
  | handler (job : TaskJob)
  | graph

def Submission.job : Submission → Option TaskJob
  | .main job | .handler job => some job
  | .graph => none

structure Executor where
  tasks : List TaskEntry
  cycleStats : List TaskCycleStats
  nextId : Nat
  integrityLevel : Option IntegrityLevel
  dispatchMode : DispatchMode
  iterationBudget : Option Nat
  execFault : ExecutorFaultAtomic
  execFaultTaskIdx : Nat
  execFaultBudgetMs : Nat
  startTime : Option Nat
  iterErr : Option ExecutorError
  /-- Everything that was handed to the pool, with the index of its task. -/
  submitted : List (Nat × Submission)
  inFlight : List TaskJob
  observed : List Notice

def Executor.new (integrityLevel : Option IntegrityLevel) (dispatchMode : DispatchMode) (iterationBudget : Option Nat) :
    Executor :=
  { tasks := [], cycleStats := [], nextId := 0, integrityLevel, dispatchMode, iterationBudget, execFault := .new
    execFaultTaskIdx := 0, execFaultBudgetMs := 0, startTime := none, iterErr := none, submitted := [], inFlight := []
    observed := [] }

abbrev Registration := Fallible ExecutorError Executor

def TaskEntry.fresh (id : TaskId) (kind : TaskKind) (decls : List TriggerDecl) (job : Option TaskJob)
    (budget : Option Nat) : TaskEntry :=
  { id, kind, decls, job, budget, fault := .new, overrunCount := 0, handlerJob := none
    scanPeriod := scanPeriodFromDecls decls, lastTookNs := 2 ^ 64 - 1, lastDispatch := none, gridSlot := 0
    gridEpoch := none, pendingSkipped := 0, pendingLate := none, pendingCycle := none }

namespace Executor

def pushTask (entry : TaskEntry) : Registration Unit :=
  modify fun e => { e with tasks := e.tasks ++ [entry], cycleStats := e.cycleStats ++ [⟨0⟩] }

def freshId : Registration Nat := do
  let e ← get
  set { e with nextId := (e.nextId + 1) % 2 ^ 64 }
  pure e.nextId

def checkIntegrity (levels : List IntegrityLevel) : Registration Unit := do
  let e ← get
  match e.integrityLevel with
  | none => pure ()
  | some expected =>
    match levels.find? (· ≠ expected) with
    | none => pure ()
    | some found => throw (.mixedIntegrity expected found)

def addWithId (id : TaskId) (item : Item) : Registration TaskId := do
  let id := item.taskId.getD id
  let declarer ← Fallible.ofExcept item.declareTriggers
  Fallible.ofExcept (validateDecls id declarer.decls)
  checkIntegrity [item.integrityLevel]
  let e ← get
  let ctx : FaultDispatchCtx := ⟨declarer.budget, e.tasks.length, e.iterationBudget⟩
  pushTask (.fresh id (.single item) declarer.decls (some (.single id item ctx)) declarer.budget)
  pure id

def add (item : Item) : Registration TaskId := do
  let n ← freshId
  addWithId ("task-" ++ toString n) item

def addWithFaultHandler (main handler : Item) : Registration TaskId := do
  let taskId ← add main
  let _ ← Fallible.ofExcept handler.declareTriggers
  let e ← get
  let taskIdx := e.tasks.findIdx (·.id == taskId)
  let attach (task : TaskEntry) : TaskEntry :=
    { task with handlerJob := some (.handler taskId handler ⟨task.budget, taskIdx, e.iterationBudget⟩) }
  set { e with tasks := e.tasks.modify taskIdx attach }
  pure taskId

def addChainWithIdBoxed (id : TaskId) (items : List Item) : Registration TaskId :=
  match items with
  | [] => throw (.builder "chain must contain at least one item")
  | head :: rest => do
    let id := head.taskId.getD id
    let declarer ← Fallible.ofExcept head.declareTriggers
    Fallible.ofExcept (validateDecls id declarer.decls)
    checkIntegrity ((head :: rest).map (·.integrityLevel))
    let e ← get
    let ctx : FaultDispatchCtx := ⟨none, e.tasks.length, e.iterationBudget⟩
    pushTask (.fresh id (.chain (head :: rest)) declarer.decls (some (.chain id (head :: rest) ctx)) none)
    pure id

def addChain (items : List Item) : Registration TaskId := do
  let n ← freshId
  addChainWithIdBoxed ("chain-" ++ toString n) items

def addChainWithId (id : TaskId) (items : List Item) : Registration TaskId := addChainWithIdBoxed id items

def graphId (rootTaskId : Option String) (customId : Option TaskId) : Registration TaskId :=
  match rootTaskId, customId with
  | some id, _ => pure id
  | none, some id => pure id
  | none, none => do
    let n ← freshId
    pure ("graph-" ++ toString n)

def buildGraph (builder : GraphBuilder) (customId : Option TaskId) : Registration TaskId := do
  let g ← Fallible.ofExcept builder.finish
  let id ← graphId g.rootTaskId customId
  Fallible.ofExcept (validateDecls id g.decls)
  checkIntegrity g.integrityLevels
  pushTask (.fresh id (.graph g) g.decls none none)
  pure id

end Executor

inductive Register where
  | add (item : Item)
  | addWithId (id : TaskId) (item : Item)
  | addWithFaultHandler (main handler : Item)
  | addChain (items : List Item)
  | addChainWithId (id : TaskId) (items : List Item)
  | buildGraph (builder : GraphBuilder) (customId : Option TaskId)

def Register.call : Register → Registration TaskId
  | .add item => Executor.add item
  | .addWithId id item => Executor.addWithId id item
  | .addWithFaultHandler main handler => Executor.addWithFaultHandler main handler
  | .addChain items => Executor.addChain items
  | .addChainWithId id items => Executor.addChainWithId id items
  | .buildGraph builder customId => Executor.buildGraph builder customId

def Executor.register (e : Executor) (r : Register) : Executor := Fallible.final r.call e

end Taktora.Exec
