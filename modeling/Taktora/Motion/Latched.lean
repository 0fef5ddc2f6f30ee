import Taktora.Motion.Containment

namespace Taktora.Nc

open List AxisRuntime

namespace AxisRuntime

variable {axis : AxisRuntime} (planner : Planner)

theorem commands_held (directMaster : Option Nat) (commands : List AxisCommand)
    (held : ∀ k, (axis.run planner ((commands.map fun cmd => .command cmd directMaster).take k)).errorStop = true) :
    (axis.run planner (commands.map fun cmd => .command cmd directMaster)).arm = axis.arm ∧
      (axis.run planner (commands.map fun cmd => .command cmd directMaster)).power = axis.power := by
  induction commands generalizing axis with
  | nil => exact ⟨rfl, rfl⟩
  | cons cmd commands ih =>
    obtain ⟨arm, power⟩ := axis.applyCommand_held planner cmd directMaster (held 0) (held 1)
    obtain ⟨arm', power'⟩ := @ih (axis.applyCommand planner cmd directMaster) fun k => held (k + 1)
    exact ⟨arm'.trans arm, power'.trans power⟩

end AxisRuntime

namespace NcCycle

variable {N : Nat} (planner : Planner) {s s' : NcCycle N} {e : Event N} {i : Fin N} {commands : List AxisCommand}
    {dt : ℚ} {bus : BusCycle N}

def Held (s : NcCycle N) (e : Event N) (i : Fin N) : Prop :=
  ∀ k, ((s.axes i).run planner ((s.actions planner e i).take k)).errorStop = true

theorem Held.drain
    (held : s.Held planner (.step commands dt bus) i) :
    ((s.drain planner commands).axes i).arm = (s.axes i).arm ∧
      ((s.drain planner commands).axes i).power = (s.axes i).power := by
  rw [s.drain_axes planner commands i]
  apply commands_held
  intro k
  have upTo :=
    held (min k ((commandsFor commands i).map fun cmd =>
      AxisAction.command cmd ((s.directMaster i).map Fin.val)).length)
  unfold actions ticked at upTo
  dsimp only at upTo
  rwa [append_assoc, take_append_of_le_length (min_le_right _ _), ← take_take, take_length] at upTo

theorem Held.unchanged
    (held : s.Held planner e i)
    (other : ∀ commands dt bus, e ≠ .step commands dt bus) : (s.next planner e).axes i = s.axes i := by
  cases e with
  | addEdge | setEngaged | precompute => rfl
  | requestPower j on =>
    by_cases same : j = i
    · have cleared := held 1
      unfold actions at cleared
      dsimp only at cleared
      rw [if_pos same] at cleared
      cases cleared
    · exact Function.update_of_ne (symm same) _ _
  | step commands dt bus => exact absurd rfl (other commands dt bus)

end NcCycle

/-- The axis holds position `q`, has commanded it and will go on to command it. -/
structure AxisRuntime.Frozen (axis : AxisRuntime) (q : ℚ) : Prop where
  motion : axis.arm.motion = .idle q
  state : axis.arm.state.pos = q
  cmdPos : axis.status.cmdPos = q

namespace AxisRuntime

variable {axis : AxisRuntime} {q : ℚ} {driven own : Prop} [Decidable driven] [Decidable own]

theorem Frozen.contained (frozen : axis.Frozen q) : (axis.contained driven own).Frozen q := by
  obtain ⟨motion, state, cmdPos⟩ := frozen
  unfold AxisRuntime.contained
  split
  · exact ⟨congrArg Motion.idle state, state, cmdPos⟩
  · split
    · exact ⟨congrArg Motion.idle state, state, cmdPos⟩
    · exact ⟨motion, state, cmdPos⟩

theorem contained_cmdPos : (axis.contained driven own).status.cmdPos = axis.status.cmdPos := by
  unfold contained
  split
  · rfl
  · split
    · rfl
    · rfl

theorem latched_frozen (input : Input) (dt : ℚ) (master : Option CoreAxisState) (hit : own ∨ driven) :
    ((axis.tick input dt master).1.contained driven own).Frozen (axis.tick input dt master).1.status.cmdPos := by
  have pos := axis.tick_cmdPos input dt master
  unfold contained
  by_cases d : driven
  · rw [if_pos d]
    exact ⟨congrArg Motion.idle pos.symm, pos.symm, rfl⟩
  · rw [if_neg d, if_pos (hit.resolve_right d)]
    exact ⟨congrArg Motion.idle pos.symm, pos.symm, rfl⟩

section Tick

variable {input : Input} {dt : ℚ} {master : Option CoreAxisState} (enabled : isEnabled input.statusword = true)
  (hold : axis.arm.motion = .idle q)
include enabled hold

theorem hold_cmdPos : (axis.tick input dt master).1.status.cmdPos = q + (axis.arm.overlay dt).pos := by
  rw [tick_cmdPos, axis.tick_arm_enabled input dt master enabled, Axis.tick_pos, hold]
  rfl

theorem hold_frozen (none : (axis.arm.overlay dt).pos = 0) : (axis.tick input dt master).1.Frozen q := by
  have cmdPos : (axis.tick input dt master).1.status.cmdPos = q := by rw [hold_cmdPos enabled hold, none, add_zero]
  refine ⟨?_, ?_, cmdPos⟩
  · rw [axis.tick_arm_enabled input dt master enabled, Axis.tick_motion, hold]
    rfl
  · rw [← tick_cmdPos]
    exact cmdPos

end Tick

end AxisRuntime

def Event.Enables {N : Nat} (i : Fin N) : Event N → Prop
  | .step _ _ bus => isEnabled (bus.input i).statusword = true
  | _ => True

instance {N : Nat} (i : Fin N) (e : Event N) : Decidable (e.Enables i) :=
  match e with
  | .step _ _ bus => inferInstanceAs (Decidable (isEnabled (bus.input i).statusword = true))
  | .addEdge _ _ | .setEngaged _ _ _ | .precompute | .requestPower _ _ => inferInstanceAs (Decidable True)

namespace NcCycle

variable {N : Nat} (planner : Planner) {s s' : NcCycle N} {e : Event N} {i : Fin N}

def overlayPos (s : NcCycle N) (e : Event N) (i : Fin N) : ℚ :=
  match e with
  | .step commands dt _ => (((s.drain planner commands).axes i).arm.overlay dt).pos
  | _ => 0

def cmdPos (s : NcCycle N) (i : Fin N) : ℚ := (s.axes i).status.cmdPos

def HeldStep (i : Fin N) (s : NcCycle N) (e : Event N) (s' : NcCycle N) : Prop :=
  s.Held planner e i ∧ Step planner s e s'

def LatchedStep (i : Fin N) (s : NcCycle N) (e : Event N) (s' : NcCycle N) : Prop :=
  e.Enables i ∧ HeldStep planner i s e s'

theorem latchedStep_functional (s : NcCycle N) (e : Event N) (t t' : NcCycle N) (first : LatchedStep planner i s e t)
    (second : LatchedStep planner i s e t') : t = t' := first.2.2.symm.trans second.2.2

theorem frozen_step {q : ℚ}
    (frozen : (s.axes i).Frozen q)
    (step : LatchedStep planner i s e s') :
    (s'.cmdPos i = q ↔ s.overlayPos planner e i = 0) ∧ (s.overlayPos planner e i = 0 → (s'.axes i).Frozen q) := by
  obtain ⟨enables, held, rfl⟩ := step
  cases e with
  | step commands dt bus =>
    obtain ⟨arm, _⟩ := held.drain planner
    have hold : ((s.drain planner commands).axes i).arm.motion = .idle q := by
      rw [arm]
      exact frozen.motion
    unfold cmdPos
    rw [stepped_axis]
    constructor
    · rw [contained_cmdPos, hold_cmdPos enables hold, add_eq_left]
      rfl
    · intro none
      exact (hold_frozen enables hold none).contained
  | addEdge | setEngaged | precompute => exact ⟨⟨fun _ => rfl, fun _ => frozen.cmdPos⟩, fun _ => frozen⟩
  | requestPower j on =>
    have same : (s.next planner (.requestPower j on)).axes i = s.axes i := held.unchanged planner (by simp)
    unfold cmdPos
    rw [same]
    exact ⟨⟨fun _ => rfl, fun _ => frozen.cmdPos⟩, fun _ => frozen⟩

theorem held_of_latched (other : ¬ e.Rearms i) (latched : (s.axes i).errorStop = true) : s.Held planner e i := by
  intro k
  apply run_latched _ latched
  intro a member
  exact actions_rearm planner other (mem_of_mem_take member)

theorem held_after {events : List (Event N)}
    (quiet : ∀ e ∈ events, ¬ e.Rearms i)
    (latched : (s.axes i).errorStop = true) :
    Run (HeldStep planner i) s events (s.after planner events) ∧
      ((s.after planner events).axes i).errorStop = true := by
  induction events using reverseRecOn with
  | nil => exact ⟨.nil, latched⟩
  | append_singleton events e ih =>
    obtain ⟨run, set⟩ := ih fun e member => quiet e (mem_append_left _ member)
    have other := quiet e (mem_append_right _ (mem_singleton.mpr rfl))
    have last : s.after planner (events ++ [e]) = (s.after planner events).next planner e := foldl_append
    rw [last]
    exact ⟨.snoc run ⟨held_of_latched planner other set, rfl⟩, next_latched planner other set⟩

/-- A latched axis goes on to command the position it was latched at exactly as long as no correction adds to it. -/
theorem latched_position_iff (s : NcCycle N) (i : Fin N) (commands : List AxisCommand) (dt : ℚ) (bus : BusCycle N)
    (hit : bus.faulted i = true ∨ Driven s.topology bus.faulted i) {later : List (Event N)}
    (run : Run (LatchedStep planner i) (s.next planner (.step commands dt bus)) later s') :
    Run (fun t e t' => (t.next planner e).cmdPos i = (s.next planner (.step commands dt bus)).cmdPos i ∧
        LatchedStep planner i t e t') (s.next planner (.step commands dt bus)) later s' ↔
      Run (fun t e t' => t.overlayPos planner e i = 0 ∧ LatchedStep planner i t e t')
        (s.next planner (.step commands dt bus)) later s' := by
  have start : ((s.next planner (.step commands dt bus)).axes i).Frozen
      ((s.next planner (.step commands dt bus)).cmdPos i) := by
    unfold cmdPos
    rw [stepped_axis, contained_cmdPos]
    exact latched_frozen _ _ _ hit
  generalize s.next planner (.step commands dt bus) = s₁ at start run ⊢
  induction run with
  | nil => exact ⟨fun _ => .nil, fun _ => .nil⟩
  | snoc before last ih =>
    rw [Run.snoc_iff (latchedStep_functional planner) before last,
      Run.snoc_iff (latchedStep_functional planner) before last]
    apply trans (and_congr_left fun _ => ih)
    apply and_congr_right
    intro quiet
    have frozen := quiet.invariant (I := fun t => (t.axes i).Frozen (s₁.cmdPos i)) start fun t e t' frozen step =>
      (frozen_step planner frozen step.2).2 step.1
    have written := (frozen_step planner frozen last).1
    rw [← last.2.2] at written
    exact written

def oneAxis (before : UInt16) (validity : Validity) (exchanged : UInt16) : BusCycle 1 where
  input _ := ⟨before, 0⟩
  validity _ := validity
  exchanged _ := ⟨exchanged, 0⟩

def single : NcCycle 1 := .new (by decide) fun _ => ⟨1000, 0⟩

def enabledCycle : Event 1 := .step [] 1 (oneAxis 0x0027 .fresh 0x0027)

def staleCycle : Event 1 := .step [] 1 (oneAxis 0x0027 (.stale 1) 0x0027)

def moving : NcCycle 1 :=
  single.next evenPlanner (.step [⟨0, 1, .moveAbsolute, ⟨10, 1, 1, 1⟩⟩] 1 (oneAxis 0x0027 .fresh 0x0027))

theorem latched_position_held :
    let s := moving.next evenPlanner staleCycle
    s.cmdPos 0 = 2 ∧ Run (fun t e t' => (t.next evenPlanner e).cmdPos 0 = s.cmdPos 0 ∧
      LatchedStep evenPlanner 0 t e t') s
      [enabledCycle, staleCycle] (s.after evenPlanner [enabledCycle, staleCycle]) := by
  intro s
  have latched : (s.axes 0).errorStop = true := by decide +kernel
  have step (t : NcCycle 1) (e : Event 1) (enables : e.Enables 0) (quiet : ¬ e.Rearms 0)
      (latched : (t.axes 0).errorStop = true) : LatchedStep evenPlanner 0 t e (t.next evenPlanner e) :=
    ⟨enables, held_of_latched evenPlanner quiet latched, rfl⟩
  have first := step s enabledCycle (by decide) (by decide) latched
  have second := step (s.next evenPlanner enabledCycle) staleCycle (by decide) (by decide) (by decide +kernel)
  refine ⟨by decide +kernel, ?_⟩
  exact (latched_position_iff evenPlanner moving 0 [] 1 (oneAxis 0x0027 (.stale 1) 0x0027) (Or.inl (by decide))
    (.snoc (.snoc .nil first) second)).mpr
      (.snoc (.snoc .nil ⟨by decide +kernel, first⟩) ⟨by decide +kernel, second⟩)

/-- With a correction active the axis is latched at 2 and commands 5, 6 and 11 in the next cycles. -/
theorem corrected_axis_runs_on : ∃ s, Run (Step evenPlanner) single
        [.step [⟨0, 1, .superimpose, ⟨10, 1, 1, 1⟩⟩] 1 (oneAxis 0x0027 .fresh 0x0027)] s ∧
      (s.next evenPlanner staleCycle).cmdPos 0 = 2 ∧
      Run (LatchedStep evenPlanner 0) (s.next evenPlanner staleCycle) [enabledCycle, staleCycle, enabledCycle]
        ((s.next evenPlanner staleCycle).after evenPlanner [enabledCycle, staleCycle, enabledCycle]) ∧
      [[enabledCycle], [enabledCycle, staleCycle], [enabledCycle, staleCycle, enabledCycle]].map
        (fun events => ((s.next evenPlanner staleCycle).after evenPlanner events).cmdPos 0) = [5, 6, 11] := by
  refine ⟨_, run_after _ _ _, by decide +kernel, ?_, by decide +kernel⟩
  have enabled : ∀ e ∈ [enabledCycle, staleCycle, enabledCycle], e.Enables 0 := by decide
  apply Run.mono_of_mem (held_after (i := 0) evenPlanner (by decide) (by decide +kernel)).1
  intro t e t' taken held
  exact ⟨enabled e taken, held⟩

theorem step_controlword (s : NcCycle N) (i : Fin N) (commands : List AxisCommand) (dt : ℚ) (bus : BusCycle N) :
    ((s.next planner (.step commands dt bus)).work i).output.controlword =
      ((s.drain planner commands).axes i).power.nextControlword (bus.input i).statusword := by
  show ((s.step planner commands dt bus).work i).output.controlword = _
  rw [step_output, tick_controlword]

theorem held_power
    (held : s.Held planner e i)
    (off : (s.axes i).power ≠ .enabled) :
    ((s.next planner e).axes i).power ≠ .enabled := by
  cases e with
  | step commands dt bus =>
    obtain ⟨_, power⟩ := held.drain planner
    rw [stepped_axis]
    by_cases driven : Driven s.topology bus.faulted i
    · rw [contained_power driven]
      intro same
      cases same
    · unfold contained
      rw [if_neg driven]
      split
      · show (tick _ _ _ _).1.power ≠ .enabled
        rw [(tick_latch _ _ _ _).2, power]
        exact off
      · rw [(tick_latch _ _ _ _).2, power]
        exact off
  | addEdge | setEngaged | precompute => exact off
  | requestPower j on =>
    rw [held.unchanged planner (by simp)]
    exact off

/-- A latched axis is never switched on before it is rearmed exactly if its power target is not `Enabled`. -/
theorem no_restart_iff (s : NcCycle N) (i : Fin N) (latched : (s.axes i).errorStop = true) :
    (∀ history s', Run (HeldStep planner i) s history s' →
      ∀ commands dt bus, s'.Held planner (.step commands dt bus) i →
        ¬ Restarts ((s'.next planner (.step commands dt bus)).work i).output.controlword) ↔
      (s.axes i).power ≠ .enabled := by
  constructor
  · intro never enabled
    have held : s.Held planner (.step [] 0 (healthyBus N)) i := held_of_latched planner (by simp [Event.Rearms]) latched
    apply never [] s .nil [] 0 (healthyBus N) held
    rw [step_controlword, restarts_iff]
    have reports : decodeState 0x0027 = .operationEnabled := by decide
    exact ⟨enabled, Or.inr (Or.inr reports)⟩
  · intro off history s' run commands dt bus held
    have target := run.invariant (I := fun t => (t.axes i).power ≠ .enabled) off (by
      rintro t e _ off ⟨held, rfl⟩
      exact held_power planner held off)
    rw [step_controlword, restarts_iff, (held.drain planner).2]
    intro both
    exact target both.1

theorem stopped_slave_stays_off :
    let s := (coupled 0 1).next evenPlanner (.step [] 1 (masterFault 0))
    (s.axes 1).errorStop = true ∧ ∀ history s', Run (HeldStep evenPlanner 1) s history s' →
      ∀ commands dt bus, s'.Held evenPlanner (.step commands dt bus) 1 →
        ¬ Restarts ((s'.next evenPlanner (.step commands dt bus)).work 1).output.controlword := by
  intro s
  have latched : (s.axes 1).errorStop = true := by decide +kernel
  exact ⟨latched, (no_restart_iff evenPlanner s 1 latched).mpr (by decide +kernel)⟩

def reports (statusword : UInt16) : Event 1 := .step [] 1 (oneAxis statusword .fresh statusword)

/-- A powered axis that faults keeps its target, and its drive is enabled again with the latch set. -/
theorem faulted_axis_walks_up :
    ∃ s, Run (Step evenPlanner) single [.requestPower 0 true, .step [] 1 (oneAxis 0x0027 .fresh 0x0008)] s ∧
      (s.axes 0).errorStop = true ∧
      Run (HeldStep evenPlanner 0) s [reports 0x0008, reports 0x0040, reports 0x0021, reports 0x0023]
        (s.after evenPlanner [reports 0x0008, reports 0x0040, reports 0x0021, reports 0x0023]) ∧
      [[reports 0x0008], [reports 0x0008, reports 0x0040], [reports 0x0008, reports 0x0040, reports 0x0021],
          [reports 0x0008, reports 0x0040, reports 0x0021, reports 0x0023]].map
        (fun events => ((s.after evenPlanner events).work 0).output.controlword) =
          [Controlword.faultReset, Controlword.shutdown, Controlword.switchOn, Controlword.enableOperation] := by
  refine ⟨_, run_after _ _ _, by decide +kernel, ?_, by decide +kernel⟩
  exact (held_after evenPlanner (by decide) (by decide +kernel)).1

end NcCycle

end Taktora.Nc
