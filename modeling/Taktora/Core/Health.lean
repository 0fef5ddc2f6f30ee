import Mathlib.Logic.Basic

namespace Taktora

inductive ConnectorHealth where
  | up
  | connecting
  | degraded (reason : String)
  | down (reason : String)
deriving DecidableEq

inductive ConnectorHealthKind where
  | up
  | connecting
  | degraded
  | down
deriving DecidableEq

def ConnectorHealth.kind : ConnectorHealth → ConnectorHealthKind
  | .up => .up
  | .connecting => .connecting
  | .degraded _ => .degraded
  | .down _ => .down

structure HealthEvent where
  source : ConnectorHealth
  target : ConnectorHealth
deriving DecidableEq

structure IllegalTransition where
  source : ConnectorHealthKind
  target : ConnectorHealthKind
deriving DecidableEq

def isLegalTransition : ConnectorHealthKind → ConnectorHealthKind → Bool
  | .connecting, .up => true
  | .connecting, .degraded => true
  | .connecting, .down => true
  | .up, .degraded => true
  | .up, .down => true
  | .degraded, .up => true
  | .degraded, .connecting => true
  | .degraded, .down => true
  | .down, .connecting => true
  | _, _ => false

structure HealthMonitor where
  current : ConnectorHealth
deriving DecidableEq

namespace HealthMonitor

def new : HealthMonitor := ⟨.connecting⟩

def tryTransitionTo (m : HealthMonitor) (target : ConnectorHealth) :
    Except IllegalTransition HealthEvent × HealthMonitor :=
  if isLegalTransition m.current.kind target.kind then (.ok ⟨m.current, target⟩, ⟨target⟩)
  else (.error ⟨m.current.kind, target.kind⟩, m)

variable {m : HealthMonitor} {target : ConnectorHealth}

theorem tryTransitionTo_legal (legal : isLegalTransition m.current.kind target.kind = true) :
    m.tryTransitionTo target = (.ok ⟨m.current, target⟩, ⟨target⟩) := if_pos legal

end HealthMonitor

end Taktora
