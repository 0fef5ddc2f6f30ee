import Mathlib.Data.Rat.Floor
import Taktora.Motion.Power
import Taktora.Motion.Trajectory

namespace Taktora.Nc

def roundAway (x : ℚ) : ℤ := if 0 ≤ x then ⌊x + 1 / 2⌋ else ⌈x - 1 / 2⌉

structure AxisScale where
  incPerUnit : ℚ
  zeroOffset : Int64

namespace AxisScale

def toIncrements (scale : AxisScale) (units : ℚ) : Int32 :=
  let rounded := max (-2 ^ 63) (min (2 ^ 63 - 1) (roundAway (units * scale.incPerUnit)))
  (Int64.ofInt rounded + scale.zeroOffset).toInt32

def toUnits (scale : AxisScale) (increments : Int64) : ℚ := (increments - scale.zeroOffset).toInt / scale.incPerUnit

end AxisScale

structure Unwrapper where
  lastRaw : Int32
  accum : Int64
  seen : Bool

namespace Unwrapper

def default : Unwrapper := { lastRaw := 0, accum := 0, seen := false }

def update (u : Unwrapper) (raw : Int32) : Unwrapper :=
  if ¬ u.seen then { seen := true, lastRaw := raw, accum := raw.toInt64 }
  else { u with lastRaw := raw, accum := u.accum + (raw - u.lastRaw).toInt64 }

def updates (u : Unwrapper) : List Int32 → List Int64
  | [] => []
  | raw :: rest => (u.update raw).accum :: (u.update raw).updates rest

end Unwrapper

open Unwrapper

def ShortStep (p q : Int64) : Prop := -2 ^ 31 ≤ q.toInt - p.toInt ∧ q.toInt - p.toInt < 2 ^ 31

instance (p q : Int64) : Decidable (ShortStep p q) := inferInstanceAs (Decidable (_ ∧ _))

theorem short_step_exact {p q : Int64} (short : ShortStep p q) :
    p + (q.toInt32 - p.toInt32).toInt64 = q := by
  have range := q.toInt_lt
  have least := q.le_toInt
  have difference : (q.toInt32 - p.toInt32).toInt = q.toInt - p.toInt := by
    rw [Int32.toInt_sub, Int64.toInt_toInt32, Int64.toInt_toInt32, Int.bmod_sub_bmod, Int.sub_bmod_bmod]
    apply Int.bmod_eq_of_le <;> simp [ShortStep] at short ⊢ <;> omega
  apply Int64.toInt_inj.mp
  rw [Int64.toInt_add, Int32.toInt_toInt64, difference, add_sub_cancel]
  apply Int.bmod_eq_of_le <;> simp <;> omega

theorem updates_followed {p : Int64} {rest : List Int64} (chain : List.IsChain ShortStep (p :: rest)) :
    updates ⟨p.toInt32, p, true⟩ (rest.map (·.toInt32)) = rest := by
  induction rest generalizing p with
  | nil => rfl
  | cons q rest ih =>
    rcases List.isChain_cons_cons.mp chain with ⟨short, chain⟩
    have step : update ⟨p.toInt32, p, true⟩ q.toInt32 = ⟨q.toInt32, q, true⟩ := by
      simp [update, short_step_exact short]
    rw [List.map_cons, updates, step, ih chain]

theorem unwrapping_is_exact
    (start : Int32)
    (rest : List Int64)
    (chain : List.IsChain ShortStep (start.toInt64 :: rest)) :
    Unwrapper.default.updates ((start.toInt64 :: rest).map (·.toInt32)) = start.toInt64 :: rest := by
  have first : Unwrapper.default.update start.toInt64.toInt32 = ⟨start.toInt64.toInt32, start.toInt64, true⟩ := by
    simp [Unwrapper.update, Unwrapper.default]
  rw [List.map_cons, updates, first, updates_followed chain]

theorem top_crossed_exactly : ShortStep 2147483647 2147483648 ∧
    Unwrapper.default.updates [2147483647, -2147483648] = [2147483647, 2147483648] :=
  ⟨by decide, unwrapping_is_exact 2147483647 [2147483648] (by decide)⟩

inductive CommandKind where
  | power
  | reset
  | stop
  | halt
  | moveVelocity
  | moveAbsolute
  | moveRelative
  | gearIn
  | camIn
  | flyingSaw
  | superimpose
deriving DecidableEq

def CommandKind.Rearms (kind : CommandKind) : Prop := kind = .power ∨ kind = .reset

instance (kind : CommandKind) : Decidable kind.Rearms := inferInstanceAs (Decidable (_ ∨ _))

structure CommandParams where
  targetPos : ℚ
  velocity : ℚ
  accel : ℚ
  jerk : ℚ

structure AxisCommand where
  axisId : UInt16
  token : UInt32
  kind : CommandKind
  params : CommandParams

inductive AxisState where
  | disabled
  | standstill
  | discreteMotion
  | continuousMotion
  | synchronizedMotion
  | stopping
  | errorStop
deriving DecidableEq

inductive TokenState where
  | idle
  | active
  | done
  | aborted
  | error
deriving DecidableEq

structure AxisStatus where
  axisId : UInt16
  state : AxisState
  tokenState : TokenState
  lastToken : UInt32
  actualPos : ℚ
  actualVel : ℚ
  cmdPos : ℚ
  errorCode : UInt32

def mapStatus : CoreAxisStatus → AxisState
  | .standstill => .standstill
  | .discreteMotion => .discreteMotion
  | .continuousMotion => .continuousMotion
  | .synchronizedMotion => .synchronizedMotion
  | .errorStop => .errorStop
  | .disabled => .disabled

structure Input where
  statusword : UInt16
  actual : Int32
deriving DecidableEq

structure Output where
  controlword : UInt16
  mode : UInt8
  target : Int32
deriving DecidableEq

def modeCsp : UInt8 := 8

structure AxisRuntime where
  axisId : UInt16
  power : PowerTarget
  scale : AxisScale
  unwrapper : Unwrapper
  arm : Axis
  enabled : Bool
  errorStop : Bool
  lastToken : UInt32
  tokenState : TokenState
  moveFinite : Bool
  lastAbortedToken : Option UInt32
  status : AxisStatus

namespace AxisRuntime

def new (axisId : UInt16) (scale : AxisScale) : AxisRuntime where
  axisId := axisId
  power := .disabled
  scale := scale
  unwrapper := .default
  arm := .new (.idle 0)
  enabled := false
  errorStop := false
  lastToken := 0
  tokenState := .idle
  moveFinite := false
  lastAbortedToken := none
  status :=
    { axisId, state := .disabled, tokenState := .idle, lastToken := 0, actualPos := 0, actualVel := 0, cmdPos := 0,
      errorCode := 0 }

variable (axis : AxisRuntime)

def commandedState : CoreAxisState := axis.arm.state

def requestPower (on : Bool) : AxisRuntime :=
  { axis with errorStop := false, power := if on then .enabled else .disabled }

def requestQuickStop : AxisRuntime := { axis with power := .quickStop }

/-- Latches the safe state: the generator is replaced by a hold at the commanded position. -/
def forceErrorStop : AxisRuntime :=
  { axis with
    errorStop := true
    status := { axis.status with state := .errorStop }
    arm := { axis.arm with motion := .idle axis.arm.state.pos }
    moveFinite := false }

def setMotion (motion : Motion) : AxisRuntime := { axis with arm := { axis.arm with motion } }

def rejected : AxisRuntime := { axis with tokenState := .error }

def startEndless (motion : Motion) : AxisRuntime :=
  { axis.setMotion motion with moveFinite := false, tokenState := .active }

variable (planner : Planner)

/-- The generator of a move to `target`: an S-curve if a jerk limit is supplied, a trapezoid otherwise. -/
def plannedMotion (p : CommandParams) (target : ℚ) : Except MotionError Motion := do
  let limits ← Limits.new p.velocity p.accel p.jerk none none
  let start := axis.commandedState
  if 0 < p.jerk then (planner.sCurvePlan start target limits).map .sCurve
  else (planner.trapPlan start target limits).map .trapezoid

def planPointToPoint (p : CommandParams) (target : ℚ) : AxisRuntime :=
  match axis.plannedMotion planner p target with
  | .ok motion => { axis.setMotion motion with moveFinite := true, tokenState := .active }
  | .error _ => axis.rejected

def perform (kind : CommandKind) (p : CommandParams) (directMaster : Option Nat) : AxisRuntime :=
  match kind with
  | .power | .reset => { axis.requestPower true with moveFinite := false, tokenState := .active }
  | .moveVelocity => axis.startEndless (.velocity (.new axis.commandedState p.velocity p.accel))
  | .stop | .halt => axis.startEndless (.velocity (.new axis.commandedState 0 p.accel))
  | .moveAbsolute => axis.planPointToPoint planner p p.targetPos
  | .moveRelative => axis.planPointToPoint planner p (axis.commandedState.pos + p.targetPos)
  | .gearIn => if directMaster.isSome then axis.startEndless (.gear (.new p.targetPos)) else axis.rejected
  | .superimpose =>
    match Limits.new p.velocity p.accel p.jerk none none with
    | .error _ => axis.rejected
    | .ok limits =>
      match axis.arm.superimpose planner p.targetPos limits with
      | .ok arm => { axis with arm, tokenState := .active }
      | .error _ => axis.rejected
  | .camIn | .flyingSaw => axis.rejected

def Ignores (cmd : AxisCommand) : Prop := cmd.token = axis.lastToken ∧ axis.tokenState ≠ .idle

instance (cmd : AxisCommand) : Decidable (axis.Ignores cmd) := inferInstanceAs (Decidable (_ ∧ _))

/-- A rising edge takes the token; a predecessor that is still active is recorded as aborted. -/
def supersede (token : UInt32) : AxisRuntime :=
  { axis with
    lastAbortedToken := if axis.tokenState = .active then some axis.lastToken else axis.lastAbortedToken
    lastToken := token }

def applyCommand (cmd : AxisCommand) (directMaster : Option Nat) : AxisRuntime :=
  if axis.Ignores cmd then axis
  else if axis.errorStop ∧ ¬ cmd.kind.Rearms then (axis.supersede cmd.token).rejected
  else (axis.supersede cmd.token).perform planner cmd.kind cmd.params directMaster

/-- An enabled cycle: the generators advance, and a finite move whose generator stands still is done. -/
def follow (dt : ℚ) (master : Option CoreAxisState) : AxisRuntime :=
  let arm := axis.arm.tick dt master
  if axis.moveFinite ∧ axis.tokenState = .active ∧ arm.status = .standstill then
    { axis with arm, tokenState := .done, moveFinite := false }
  else { axis with arm }

def reseed (actual : ℚ) : AxisRuntime :=
  { axis with arm := { axis.arm with motion := .idle actual, state := .atPos actual } }

def publishedState (sw : UInt16) : AxisState :=
  if axis.errorStop ∨ driveFaulted sw then .errorStop
  else if axis.enabled then mapStatus axis.arm.status
  else .disabled

def publish (sw : UInt16) (actual commanded : ℚ) : AxisRuntime :=
  { axis with
    status :=
      { axis.status with
        state := axis.publishedState sw
        tokenState := axis.tokenState
        lastToken := axis.lastToken
        actualPos := actual
        actualVel := axis.arm.state.vel
        cmdPos := commanded } }

def actualUnits (input : Input) : ℚ := axis.scale.toUnits (axis.unwrapper.update input.actual).accum

def moved (input : Input) (dt : ℚ) (master : Option CoreAxisState) : AxisRuntime :=
  let observed := { axis with unwrapper := axis.unwrapper.update input.actual, enabled := isEnabled input.statusword }
  if isEnabled input.statusword then observed.follow dt master else observed.reseed (axis.actualUnits input)

def tick (input : Input) (dt : ℚ) (master : Option CoreAxisState) : AxisRuntime × Output :=
  let moved := axis.moved input dt master
  let commanded := if isEnabled input.statusword then moved.arm.state.pos else axis.actualUnits input
  (moved.publish input.statusword (axis.actualUnits input) commanded,
    { controlword := axis.power.nextControlword input.statusword, mode := modeCsp,
      target := axis.scale.toIncrements commanded })

section Commands

variable (planner : Planner) (cmd : AxisCommand) (directMaster : Option Nat)

structure Performed (kind : CommandKind) (before after : AxisRuntime) : Prop where
  status : after.status = before.status
  lastToken : after.lastToken = before.lastToken
  tokenState : after.tokenState ≠ .done
  errorStop : after.errorStop = if kind.Rearms then false else before.errorStop
  power : after.power = if kind.Rearms then .enabled else before.power

theorem applyCommand_cases :
    (axis.Ignores cmd ∧ axis.applyCommand planner cmd directMaster = axis) ∨
      (¬ axis.Ignores cmd ∧ axis.errorStop = true ∧ ¬ cmd.kind.Rearms ∧
      axis.applyCommand planner cmd directMaster = (axis.supersede cmd.token).rejected) ∨
      (¬ axis.Ignores cmd ∧ (axis.errorStop = true → cmd.kind.Rearms) ∧
      axis.applyCommand planner cmd directMaster =
      (axis.supersede cmd.token).perform planner cmd.kind cmd.params directMaster) := by
  unfold applyCommand
  by_cases ignored : axis.Ignores cmd
  · exact Or.inl ⟨ignored, if_pos ignored⟩
  · rw [if_neg ignored]
    by_cases latched : axis.errorStop = true ∧ ¬ cmd.kind.Rearms
    · exact Or.inr (Or.inl ⟨ignored, latched.1, latched.2, if_pos latched⟩)
    · exact Or.inr (Or.inr ⟨ignored, fun set => of_not_not fun other => latched ⟨set, other⟩, if_neg latched⟩)

section

variable {kind : CommandKind} (other : ¬ kind.Rearms)
include other

theorem rejected_performed : Performed kind axis axis.rejected := by
  refine ⟨rfl, rfl, ?_, (if_neg other).symm, (if_neg other).symm⟩
  intro done
  cases done

theorem startEndless_performed (motion : Motion) : Performed kind axis (axis.startEndless motion) := by
  refine ⟨rfl, rfl, ?_, (if_neg other).symm, (if_neg other).symm⟩
  intro done
  cases done

theorem planPointToPoint_performed (p : CommandParams) (target : ℚ) :
    Performed kind axis (axis.planPointToPoint planner p target) := by
  unfold planPointToPoint
  split
  · refine ⟨rfl, rfl, ?_, (if_neg other).symm, (if_neg other).symm⟩
    intro done
    cases done
  · exact axis.rejected_performed other

end

theorem perform_performed (kind : CommandKind) (p : CommandParams) :
    Performed kind axis (axis.perform planner kind p directMaster) := by
  cases kind with
  | power | reset =>
    refine ⟨rfl, rfl, ?_, rfl, rfl⟩
    intro done
    cases done
  | stop | halt | moveVelocity => exact axis.startEndless_performed (by decide) _
  | moveAbsolute | moveRelative => exact axis.planPointToPoint_performed planner (by decide) p _
  | gearIn =>
    unfold perform
    dsimp only
    split
    · exact axis.startEndless_performed (by decide) _
    · exact axis.rejected_performed (by decide)
  | superimpose =>
    unfold perform
    dsimp only
    split
    · exact axis.rejected_performed (by decide)
    · split
      · refine ⟨rfl, rfl, ?_, rfl, rfl⟩
        intro done
        cases done
      · exact axis.rejected_performed (by decide)
  | camIn | flyingSaw => exact axis.rejected_performed (by decide)

theorem applyCommand_latch (other : ¬ cmd.kind.Rearms) :
    (axis.applyCommand planner cmd directMaster).errorStop = axis.errorStop ∧
      (axis.applyCommand planner cmd directMaster).power = axis.power := by
  rcases axis.applyCommand_cases planner cmd directMaster with ⟨_, same⟩ | ⟨_, _, _, same⟩ | ⟨_, _, same⟩
  · rw [same]
    exact ⟨rfl, rfl⟩
  · rw [same]
    exact ⟨rfl, rfl⟩
  · have performed := (axis.supersede cmd.token).perform_performed planner directMaster cmd.kind cmd.params
    rw [same, performed.errorStop, performed.power, if_neg other, if_neg other]
    exact ⟨rfl, rfl⟩

theorem applyCommand_status : (axis.applyCommand planner cmd directMaster).status = axis.status := by
  rcases axis.applyCommand_cases planner cmd directMaster with ⟨_, same⟩ | ⟨_, _, _, same⟩ | ⟨_, _, same⟩
  · rw [same]
  · rw [same]
    rfl
  · rw [same, ((axis.supersede cmd.token).perform_performed planner directMaster cmd.kind cmd.params).status]
    rfl

theorem applyCommand_held
    (latched : axis.errorStop = true)
    (held : (axis.applyCommand planner cmd directMaster).errorStop = true) :
    (axis.applyCommand planner cmd directMaster).arm = axis.arm ∧
      (axis.applyCommand planner cmd directMaster).power = axis.power := by
  rcases axis.applyCommand_cases planner cmd directMaster with ⟨_, same⟩ | ⟨_, _, _, same⟩ | ⟨_, rearms, same⟩
  · rw [same]
    exact ⟨rfl, rfl⟩
  · rw [same]
    exact ⟨rfl, rfl⟩
  · have performed := (axis.supersede cmd.token).perform_performed planner directMaster cmd.kind cmd.params
    rw [same, performed.errorStop, if_pos (rearms latched)] at held
    cases held

end Commands

section Tick

variable (input : Input) (dt : ℚ) (master : Option CoreAxisState)

theorem moved_latch :
    (axis.moved input dt master).errorStop = axis.errorStop ∧ (axis.moved input dt master).power = axis.power := by
  unfold moved
  split
  · unfold follow
    dsimp only
    split
    · exact ⟨rfl, rfl⟩
    · exact ⟨rfl, rfl⟩
  · exact ⟨rfl, rfl⟩

theorem tick_latch :
    (axis.tick input dt master).1.errorStop = axis.errorStop ∧ (axis.tick input dt master).1.power = axis.power :=
  axis.moved_latch input dt master

theorem tick_arm_enabled (enabled : isEnabled input.statusword = true) :
    (axis.tick input dt master).1.arm = axis.arm.tick dt master := by
  show (axis.moved input dt master).arm = _
  unfold moved follow
  dsimp only
  rw [if_pos enabled]
  split
  · rfl
  · rfl

theorem tick_arm_disabled (disabled : isEnabled input.statusword = false) : (axis.tick input dt master).1.arm =
      { axis.arm with motion := .idle (axis.actualUnits input), state := .atPos (axis.actualUnits input) } := by
  show (axis.moved input dt master).arm = _
  unfold moved
  rw [if_neg (by rw [disabled]; exact Bool.false_ne_true)]
  rfl

theorem tick_cmdPos : (axis.tick input dt master).1.status.cmdPos = (axis.tick input dt master).1.arm.state.pos := by
  cases enabled : isEnabled input.statusword with
  | true =>
    show (if isEnabled input.statusword = true then (axis.moved input dt master).arm.state.pos else _) = _
    rw [if_pos enabled]
    rfl
  | false =>
    rw [axis.tick_arm_disabled input dt master enabled]
    show (if isEnabled input.statusword = true then _ else axis.actualUnits input) = _
    rw [enabled]
    rfl

theorem tick_controlword : (axis.tick input dt master).2.controlword = axis.power.nextControlword input.statusword :=
  rfl

end Tick

end AxisRuntime

end Taktora.Nc
