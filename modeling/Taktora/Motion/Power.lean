import Mathlib.Tactic.Common

namespace Taktora.Nc

namespace Controlword

def shutdown : UInt16 := 0x0006

def switchOn : UInt16 := 0x0007

def enableOperation : UInt16 := 0x000F

def quickStop : UInt16 := 0x0002

def disableVoltage : UInt16 := 0x0000

def faultReset : UInt16 := 0x0080

end Controlword

inductive Cia402State where
  | notReadyToSwitchOn
  | switchOnDisabled
  | readyToSwitchOn
  | switchedOn
  | operationEnabled
  | quickStopActive
  | faultReactionActive
  | fault
deriving DecidableEq

def decodeState (sw : UInt16) : Cia402State :=
  if sw &&& 0x4F = 0x40 then .switchOnDisabled
  else if sw &&& 0x6F = 0x21 then .readyToSwitchOn
  else if sw &&& 0x6F = 0x23 then .switchedOn
  else if sw &&& 0x6F = 0x27 then .operationEnabled
  else if sw &&& 0x6F = 0x07 then .quickStopActive
  else if sw &&& 0x4F = 0x0F then .faultReactionActive
  else if sw &&& 0x4F = 0x08 then .fault
  else .notReadyToSwitchOn

def driveFaulted (sw : UInt16) : Bool := decodeState sw = .fault || decodeState sw = .faultReactionActive

inductive PowerTarget where
  | enabled
  | quickStop
  | disabled
deriving DecidableEq

namespace PowerTarget

/-- The controlword that leads the drive towards the target; a fault is reset first, whatever the target. -/
def nextControlword (target : PowerTarget) (statusword : UInt16) : UInt16 :=
  if driveFaulted statusword then Controlword.faultReset
  else match target with
    | .disabled => Controlword.disableVoltage
    | .quickStop =>
      match decodeState statusword with
      | .operationEnabled | .quickStopActive => Controlword.quickStop
      | _ => Controlword.disableVoltage
    | .enabled =>
      match decodeState statusword with
      | .readyToSwitchOn => Controlword.switchOn
      | .switchedOn | .operationEnabled => Controlword.enableOperation
      | .quickStopActive => Controlword.disableVoltage
      | _ => Controlword.shutdown

end PowerTarget

def isEnabled (statusword : UInt16) : Bool := decodeState statusword = .operationEnabled

/-- The controlwords that switch a drive on or enable its operation. -/
def Restarts (controlword : UInt16) : Prop :=
  controlword = Controlword.switchOn ∨ controlword = Controlword.enableOperation

instance (controlword : UInt16) : Decidable (Restarts controlword) := inferInstanceAs (Decidable (_ ∨ _))

/-- The states of a drive from which the walk to `enabled` goes on by switching on or enabling. -/
def Cia402State.Ready (state : Cia402State) : Prop :=
  state = .readyToSwitchOn ∨ state = .switchedOn ∨ state = .operationEnabled

theorem restarts_iff (target : PowerTarget) (sw : UInt16) :
    Restarts (target.nextControlword sw) ↔ target = .enabled ∧ (decodeState sw).Ready := by
  unfold PowerTarget.nextControlword driveFaulted
  generalize decodeState sw = state
  cases target <;> cases state <;> simp +decide [Cia402State.Ready]

end Taktora.Nc
