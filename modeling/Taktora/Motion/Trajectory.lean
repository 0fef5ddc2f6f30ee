import Mathlib.Algebra.Order.Field.Rat
import Mathlib.Tactic.Common

namespace Taktora.Nc

/-- The kinematic state a generator commands; positions, velocities and times are exact. -/
structure CoreAxisState where
  pos : ℚ
  vel : ℚ
  acc : ℚ
deriving DecidableEq

namespace CoreAxisState

def zero : CoreAxisState := ⟨0, 0, 0⟩

def atPos (pos : ℚ) : CoreAxisState := ⟨pos, 0, 0⟩

end CoreAxisState

inductive CoreAxisStatus where
  | disabled
  | standstill
  | discreteMotion
  | continuousMotion
  | synchronizedMotion
  | errorStop
deriving DecidableEq

inductive MotionError where
  | nonPositiveLimit
  | targetOutOfLimits
deriving DecidableEq

/-- Kinematic limits and the soft limits of the position; `none` is an infinite bound. -/
structure Limits where
  vMax : ℚ
  aMax : ℚ
  jMax : ℚ
  posMin : Option ℚ
  posMax : Option ℚ
deriving DecidableEq

namespace Limits

def new (vMax aMax jMax : ℚ) (posMin posMax : Option ℚ) : Except MotionError Limits :=
  if ¬ 0 < vMax ∨ ¬ 0 < aMax ∨ (∃ lo ∈ posMin, ∃ hi ∈ posMax, hi < lo) then .error .nonPositiveLimit
  else .ok { vMax, aMax, jMax, posMin, posMax }

def Outside (limits : Limits) (target : ℚ) : Prop :=
  (∃ lo ∈ limits.posMin, target < lo) ∨ ∃ hi ∈ limits.posMax, hi < target

instance (limits : Limits) (target : ℚ) : Decidable (limits.Outside target) := inferInstanceAs (Decidable (_ ∨ _))

end Limits

/-- A point-to-point profile, which stays at the target from `total` on. -/
structure Profile where
  target : ℚ
  total : ℚ
  shape : ℚ → CoreAxisState
  elapsed : ℚ

namespace Profile

variable (p : Profile)

def advance (dt : ℚ) : Profile := if 0 < dt then { p with elapsed := p.elapsed + dt } else p

def commanded : CoreAxisState :=
  if p.total ≤ 0 ∨ p.total ≤ p.elapsed then .atPos p.target else p.shape p.elapsed

def update (dt : ℚ) : Profile × CoreAxisState := (p.advance dt, (p.advance dt).commanded)

def Done : Prop := p.total ≤ p.elapsed

instance (p : Profile) : Decidable p.Done := inferInstanceAs (Decidable (_ ≤ _))

end Profile

abbrev Curve := CoreAxisState → ℚ → Limits → ℚ × (ℚ → CoreAxisState)

structure Planner where
  trapezoid : Curve
  sCurve : Curve

def planProfile (curve : Curve) (positive : Bool) (start : CoreAxisState) (target : ℚ) (limits : Limits) :
    Except MotionError Profile :=
  if ¬ positive then .error .nonPositiveLimit
  else if limits.Outside target then .error .targetOutOfLimits
  else if |target - start.pos| ≤ 0 then .ok { target, total := 0, shape := fun _ => .atPos target, elapsed := 0 }
  else .ok { target, total := (curve start target limits).1, shape := (curve start target limits).2, elapsed := 0 }

namespace Planner

def trapPlan (planner : Planner) (start : CoreAxisState) (target : ℚ) (limits : Limits) : Except MotionError Profile :=
  planProfile planner.trapezoid (0 < limits.vMax ∧ 0 < limits.aMax) start target limits

def sCurvePlan (planner : Planner) (start : CoreAxisState) (target : ℚ) (limits : Limits) :
    Except MotionError Profile :=
  planProfile planner.sCurve (0 < limits.vMax ∧ 0 < limits.aMax ∧ 0 < limits.jMax) start target limits

end Planner

structure VelocityMove where
  pos : ℚ
  vel : ℚ
  targetVel : ℚ
  aMax : ℚ

namespace VelocityMove

def new (start : CoreAxisState) (targetVel aMax : ℚ) : VelocityMove :=
  { pos := start.pos, vel := start.vel, targetVel, aMax := |aMax| }

def update (v : VelocityMove) (dt : ℚ) : VelocityMove × CoreAxisState :=
  if ¬ 0 < dt then (v, ⟨v.pos, v.vel, 0⟩)
  else
    let dv := v.targetVel - v.vel
    let step := v.aMax * dt
    let (vel, acc) :=
      if step < dv then (v.vel + step, v.aMax)
      else if dv < -step then (v.vel - step, -v.aMax)
      else (v.targetVel, dv / dt)
    let pos := v.pos + (v.vel + vel) / 2 * dt
    ({ v with pos, vel }, ⟨pos, vel, acc⟩)

end VelocityMove

structure Gear where
  ratio : ℚ
  offset : ℚ

namespace Gear

def new (ratio : ℚ) : Gear := { ratio, offset := 0 }

def update (g : Gear) (master : Option CoreAxisState) : CoreAxisState :=
  match master with
  | none => .atPos g.offset
  | some m => ⟨g.ratio * m.pos + g.offset, g.ratio * m.vel, g.ratio * m.acc⟩

end Gear

inductive Motion where
  | idle (pos : ℚ)
  | velocity (v : VelocityMove)
  | trapezoid (p : Profile)
  | sCurve (p : Profile)
  | gear (g : Gear)

namespace Motion

def update (motion : Motion) (dt : ℚ) (master : Option CoreAxisState) : Motion × CoreAxisState :=
  match motion with
  | .idle pos => (motion, .atPos pos)
  | .velocity v => (.velocity (v.update dt).1, (v.update dt).2)
  | .trapezoid p => (.trapezoid (p.update dt).1, (p.update dt).2)
  | .sCurve p => (.sCurve (p.update dt).1, (p.update dt).2)
  | .gear g => (motion, g.update master)

def status : Motion → CoreAxisStatus
  | .idle _ => .standstill
  | .velocity _ => .continuousMotion
  | .trapezoid p | .sCurve p => if p.Done then .standstill else .discreteMotion
  | .gear _ => .synchronizedMotion

end Motion

/-- The trajectory state of an axis: the base generator, the commanded state and the superimposed correction. -/
structure Axis where
  motion : Motion
  state : CoreAxisState
  superimposed : Option Profile

namespace Axis

variable (arm : Axis)

def new (motion : Motion) : Axis := { motion, state := .zero, superimposed := none }

def status : CoreAxisStatus := arm.motion.status

def superimpose (planner : Planner) (delta : ℚ) (limits : Limits) : Except MotionError Axis := do
  let overlay ← planner.sCurvePlan .zero delta { limits with posMin := none, posMax := none }
  .ok { arm with superimposed := some overlay }

def overlay (dt : ℚ) : CoreAxisState :=
  match arm.superimposed with
  | none => .zero
  | some overlay => (overlay.update dt).2

def applySuperimposed (base : CoreAxisState) (dt : ℚ) : Axis × CoreAxisState :=
  match arm.superimposed with
  | none => (arm, base)
  | some overlay =>
    let (overlay, d) := overlay.update dt
    ({ arm with superimposed := some overlay }, ⟨base.pos + d.pos, base.vel + d.vel, base.acc + d.acc⟩)

def tick (dt : ℚ) (master : Option CoreAxisState) : Axis :=
  let (motion, base) := arm.motion.update dt master
  let (arm, next) := { arm with motion }.applySuperimposed base dt
  { arm with state := next }

theorem tick_motion (dt : ℚ) (master : Option CoreAxisState) :
    (arm.tick dt master).motion = (arm.motion.update dt master).1 := by
  cases h : arm.superimposed with
  | none | some => simp only [tick, applySuperimposed, h]

theorem tick_pos (dt : ℚ) (master : Option CoreAxisState) :
    (arm.tick dt master).state.pos = (arm.motion.update dt master).2.pos + (arm.overlay dt).pos := by
  cases h : arm.superimposed with
  | none => simp only [tick, applySuperimposed, overlay, h, CoreAxisState.zero, add_zero]
  | some overlay => simp only [tick, applySuperimposed, Axis.overlay, h]

end Axis

end Taktora.Nc
