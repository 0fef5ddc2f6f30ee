import Taktora.Core.Health
import Taktora.Lib.Fallible
import Taktora.Ethercat.Pdi

namespace Taktora.Ethercat

open Fallible

inductive CycleDecision where
  | fire
  | skip
deriving DecidableEq

structure CycleScheduler where
  interval : Nat
  lastTick : Option Nat
deriving DecidableEq

def CycleScheduler.poll (scheduler : CycleScheduler) (now : Nat) : CycleDecision × CycleScheduler :=
  if scheduler.lastTick.all fun last => scheduler.interval ≤ now - last then
    (.fire, { scheduler with lastTick := some now })
  else (.skip, scheduler)

inductive WkcVerdict where
  | matched
  | mismatch (observed expected : UInt16)
deriving DecidableEq

def WkcVerdict.degradedReason (cycleIndex : Nat) : WkcVerdict → Option String
  | .matched => none
  | .mismatch observed expected =>
    some ("working counter below expected: cycle " ++ toString cycleIndex ++ ", observed " ++ toString observed.toNat ++
      ", expected " ++ toString expected.toNat)

def evaluateWkc (expected observed : UInt16) : WkcVerdict :=
  if observed ≥ expected then .matched else .mismatch observed expected

structure EthercatHealthMonitor where
  inner : HealthMonitor
  degradedDueToDrops : Bool
deriving DecidableEq

namespace EthercatHealthMonitor

def new : EthercatHealthMonitor := ⟨.new, false⟩

def current (m : EthercatHealthMonitor) : ConnectorHealth := m.inner.current

/-- Coming back up arms the report of dropped frames again. -/
def transitionTo (m : EthercatHealthMonitor) (target : ConnectorHealth) :
    Except IllegalTransition HealthEvent × EthercatHealthMonitor :=
  let (result, inner) := m.inner.tryTransitionTo target
  match result with
  | .error e => (.error e, { m with inner })
  | .ok event =>
    (.ok event, { inner, degradedDueToDrops := if event.target.kind = .up then false else m.degradedDueToDrops })

end EthercatHealthMonitor

structure BringUp where
  expectedWkc : UInt16
deriving DecidableEq

structure CycleReport where
  cycleIndex : Nat
  workingCounter : UInt16
  verdict : WkcVerdict
deriving DecidableEq

abbrev ProcessData := UInt16 → Option (List UInt8)

structure CycleRunner where
  outputs : ProcessData
  scheduler : CycleScheduler
  health : EthercatHealthMonitor
  expectedWkc : UInt16
  cycleIndex : Nat
  written : List (EthercatRouting × List UInt8)
  published : List (String × List UInt8)

abbrev Cycling := Fallible Failure CycleRunner

namespace CycleRunner

def new (bringUp : Except ConnectorError BringUp) (outputs : ProcessData) (cycleTime : Nat)
    (health : EthercatHealthMonitor) : Except ConnectorError CycleRunner := do
  let bringUp ← bringUp
  .ok {
    outputs, scheduler := ⟨cycleTime, none⟩, health := (health.transitionTo .up).2
    expectedWkc := bringUp.expectedWkc, cycleIndex := 0, written := [], published := [] }

def transition (target : ConnectorHealth) : Cycling Unit :=
  modify fun r => { r with health := (r.health.transitionTo target).2 }

/-- The results of the attempts to recover. When they run out, the policy is exhausted. -/
def recoverPerPolicy : List (Except ConnectorError BringUp) → Cycling Unit
  | [] => do
    transition (.down "reconnect policy exhausted")
    throw (.connector (.down "reconnect policy exhausted"))
  | .ok bringUp :: _ => do
    transition .connecting
    modify fun r => { r with expectedWkc := bringUp.expectedWkc }
    transition .up
  | .error e :: later => do
    transition .connecting
    transition (.degraded ("recover failed: " ++ e.text))
    recoverPerPolicy later

def applyVerdict (verdict : WkcVerdict) : Cycling Unit := do
  let runner ← get
  match verdict with
  | .matched => if runner.health.current ≠ .up then transition .up else pure ()
  | .mismatch _ _ =>
    match verdict.degradedReason runner.cycleIndex with
    | some reason => transition (.degraded reason)
    | none => pure ()

def tick (now : Nat) (cycle : Except ConnectorError UInt16) (recoveries : List (Except ConnectorError BringUp)) :
    Cycling (Option CycleReport) := do
  let runner ← get
  let (decision, scheduler) := runner.scheduler.poll now
  set { runner with scheduler }
  match decision, cycle with
  | .skip, _ => pure none
  | .fire, .ok workingCounter => do
    let verdict := evaluateWkc runner.expectedWkc workingCounter
    applyVerdict verdict
    modify fun r => { r with cycleIndex := r.cycleIndex + 1 }
    pure (some { cycleIndex := runner.cycleIndex, workingCounter, verdict })
  | .fire, .error e => do
    transition (.degraded ("cycle failed: " ++ e.text))
    recoverPerPolicy recoveries
    pure none

end CycleRunner

section Health

theorem transitionTo_down (m : EthercatHealthMonitor) (reason : String) :
    (m.transitionTo (.down reason)).2.current.kind = .down := by
  obtain ⟨⟨health⟩, _⟩ := m
  cases health with
  | up | connecting | degraded | down => rfl

open CycleRunner

theorem recoverPerPolicy_spec (recoveries : List (Except ConnectorError BringUp)) :
    Ensures (fun _ => True) (recoverPerPolicy recoveries) (fun _ _ => True) fun r => r.health.current.kind = .down := by
  induction recoveries with
  | nil => exact fun runner _ => transitionTo_down runner.health _
  | cons attempt later ih =>
    cases attempt with
    | ok bringUp => exact fun _ _ => trivial
    | error e => exact fun runner _ => ih _ trivial

theorem applyVerdict_spec (verdict : WkcVerdict) {E : CycleRunner → Prop} :
    Ensures (fun _ => True) (applyVerdict verdict) (fun _ _ => True) E := by
  refine ensures_get_bind fun runner _ => ?_
  cases verdict with
  | matched =>
    dsimp only
    split
    · exact fun _ _ => trivial
    · exact ensures_pure fun _ _ => trivial
  | mismatch observed expected => exact fun _ _ => trivial

theorem tick_spec (now : Nat) (cycle : Except ConnectorError UInt16)
    (recoveries : List (Except ConnectorError BringUp)) :
    Ensures (fun _ => True) (tick now cycle recoveries) (fun _ _ => True) fun r => r.health.current.kind = .down := by
  refine ensures_get_bind fun runner _ => ?_
  rcases runner.scheduler.poll now with ⟨decision, _⟩
  refine ensures_bind (Q := fun _ _ => True) (fun _ _ => trivial) fun _ => ?_
  cases decision with
  | skip => exact ensures_pure fun _ _ => trivial
  | fire =>
    cases cycle with
    | ok workingCounter =>
      refine ensures_bind (applyVerdict_spec _) fun _ => ?_
      exact ensures_bind (ensures_modify (R := fun _ => True) fun _ _ => trivial) fun _ => ensures_pure fun _ _ =>
        trivial
    | error e =>
      refine ensures_bind (Q := fun _ _ => True) (fun _ _ => trivial) fun _ => ?_
      exact ensures_bind (recoverPerPolicy_spec recoveries) fun _ => ensures_pure fun _ _ => trivial

end Health

end Taktora.Ethercat
