import Taktora.Motion.Latched

namespace Taktora.Nc

open List AxisRuntime

def Motion.through (motion : Motion) (actions : List AxisAction) : Motion :=
  actions.foldl (fun motion a => match a with | .tick _ dt master => (motion.update dt master).1 | _ => motion) motion

namespace AxisRuntime

variable (planner : Planner) (axis : AxisRuntime)

def moveTarget (cmd : AxisCommand) : Option ℚ :=
  match cmd.kind with
  | .moveAbsolute => some cmd.params.targetPos
  | .moveRelative => some (axis.commandedState.pos + cmd.params.targetPos)
  | _ => none

/-- The command starts a point-to-point move and `motion` is the profile it plans. -/
def Starts (cmd : AxisCommand) (motion : Motion) : Prop :=
  ¬ axis.Ignores cmd ∧ axis.errorStop = false ∧
    ∃ target, axis.moveTarget cmd = some target ∧ axis.plannedMotion planner cmd.params target = .ok motion

/-- The generator at the end is the profile planned for the command with this token, advanced by the ticks since. -/
def Pursues (actions : List AxisAction) (token : UInt32) (motion : Motion) : Prop :=
  ∃ before cmd directMaster after planned, actions = before ++ .command cmd directMaster :: after ∧ cmd.token = token ∧
    (axis.run planner before).Starts planner cmd planned ∧ motion = planned.through after

def CarriedOut (actions : List AxisAction) (token : UInt32) : Prop :=
  axis.Pursues planner actions token (axis.run planner actions).arm.motion ∧
    (axis.run planner actions).arm.status = .standstill

/-- While a finite move is active the drive is enabled, and no correction is accepted while one is flagged. -/
def Orderly : AxisAction → Prop
  | .tick input _ _ => isEnabled input.statusword = false → ¬ (axis.moveFinite = true ∧ axis.tokenState = .active)
  | .command cmd directMaster => ¬ axis.Ignores cmd → cmd.kind = .superimpose → axis.moveFinite = true →
      (axis.applyCommand planner cmd directMaster).tokenState ≠ .active
  | _ => True

def OrderlyStep (x : AxisRuntime) (a : AxisAction) (y : AxisRuntime) : Prop := x.Orderly planner a ∧ x.act planner a = y

variable {planner axis} {start : AxisRuntime} {actions : List AxisAction} {directMaster : Option Nat}

theorem Pursues.snoc {token : UInt32} {motion : Motion}
    (pursues : start.Pursues planner actions token motion)
    (a : AxisAction) :
    start.Pursues planner (actions ++ [a]) token (motion.through [a]) := by
  obtain ⟨before, cmd, directMaster, after, planned, rfl, sameToken, starts, rfl⟩ := pursues
  refine ⟨before, cmd, directMaster, after ++ [a], planned, by simp, sameToken, starts, ?_⟩
  unfold Motion.through
  rw [foldl_append]

def Pursuing (start : AxisRuntime) (planner : Planner) (actions : List AxisAction) (axis : AxisRuntime) : Prop :=
  axis.moveFinite = true → axis.tokenState = .active → start.Pursues planner actions axis.lastToken axis.arm.motion

theorem planPointToPoint_active {p : CommandParams} {target : ℚ}
    (active : (axis.planPointToPoint planner p target).tokenState = .active) :
    axis.plannedMotion planner p target = .ok (axis.planPointToPoint planner p target).arm.motion := by
  unfold planPointToPoint at active ⊢
  cases planned : axis.plannedMotion planner p target with
  | ok motion => rfl
  | error e =>
    rw [planned] at active
    cases active

/-- A finite move is active after a command only if that started it or is a correction on top of it. -/
theorem perform_active {cmd : AxisCommand}
    (finite : (axis.perform planner cmd.kind cmd.params directMaster).moveFinite = true)
    (active : (axis.perform planner cmd.kind cmd.params directMaster).tokenState = .active) :
    (cmd.kind = .superimpose ∧ axis.moveFinite = true) ∨ ∃ target, axis.moveTarget cmd = some target ∧
      axis.plannedMotion planner cmd.params target =
      .ok (axis.perform planner cmd.kind cmd.params directMaster).arm.motion := by
  unfold moveTarget
  cases kind : cmd.kind with
  | power | reset | stop | halt | moveVelocity =>
    rw [kind] at finite
    cases finite
  | camIn | flyingSaw =>
    rw [kind] at active
    cases active
  | moveAbsolute | moveRelative =>
    rw [kind] at active
    exact Or.inr ⟨_, rfl, planPointToPoint_active active⟩
  | gearIn =>
    rw [kind] at finite active
    unfold perform at finite active
    dsimp only at finite active
    split at active
    · rename_i coupled
      rw [if_pos coupled] at finite
      cases finite
    · cases active
  | superimpose =>
    rw [kind] at finite active
    unfold perform at finite active
    dsimp only at finite active
    split at active
    · cases active
    · rename_i limited
      rw [limited] at finite
      dsimp only at finite
      split at active
      · rename_i planned
        rw [planned] at finite
        exact Or.inl ⟨rfl, finite⟩
      · cases active

theorem command_pursuing {cmd : AxisCommand}
    (pursuing : Pursuing start planner actions (start.run planner actions))
    (orderly : (start.run planner actions).Orderly planner (.command cmd directMaster)) :
    Pursuing start planner (actions ++ [.command cmd directMaster])
      ((start.run planner actions).applyCommand planner cmd directMaster) := by
  intro finite active
  generalize reached : start.run planner actions = axis at pursuing orderly finite active ⊢
  rcases axis.applyCommand_cases planner cmd directMaster with ⟨_, same⟩ | ⟨_, _, _, same⟩ | ⟨free, rearms, same⟩
  · rw [same] at finite active ⊢
    exact (pursuing finite active).snoc _
  · rw [same] at active
    cases active
  · rw [same] at finite active ⊢
    rcases perform_active finite active with ⟨correction, was⟩ | ⟨target, goes, planned⟩
    · have refused := orderly free correction was
      rw [same] at refused
      exact absurd active refused
    · have unlatched : axis.errorStop = false := by
        apply Bool.eq_false_iff.mpr
        intro latched
        unfold moveTarget at goes
        rcases rearms latched with kind | kind
        · rw [kind] at goes
          cases goes
        · rw [kind] at goes
          cases goes
      rw [(perform_performed _ planner directMaster cmd.kind cmd.params).lastToken]
      refine ⟨actions, cmd, directMaster, [], _, rfl, rfl, ?_, rfl⟩
      rw [reached]
      exact ⟨free, unlatched, target, goes, planned⟩

def Completes (axis : AxisRuntime) (input : Input) (dt : ℚ) (master : Option CoreAxisState) : Prop :=
  isEnabled input.statusword = true ∧ axis.moveFinite = true ∧ axis.tokenState = .active ∧
    (axis.arm.tick dt master).status = .standstill

section Tick

variable {input : Input} {dt : ℚ} {master : Option CoreAxisState}

theorem tick_tokens (axis : AxisRuntime) (input : Input) (dt : ℚ) (master : Option CoreAxisState) :
    (axis.tick input dt master).1.lastToken = axis.lastToken ∧
      ((axis.Completes input dt master ∧ (axis.tick input dt master).1.tokenState = .done ∧
      (axis.tick input dt master).1.moveFinite = false) ∨
      ((axis.tick input dt master).1.tokenState = axis.tokenState ∧
      (axis.tick input dt master).1.moveFinite = axis.moveFinite)) := by
  show (axis.moved input dt master).lastToken = axis.lastToken ∧ ((_ ∧ (axis.moved input dt master).tokenState = .done ∧
    (axis.moved input dt master).moveFinite = false) ∨ ((axis.moved input dt master).tokenState = axis.tokenState ∧
      (axis.moved input dt master).moveFinite = axis.moveFinite))
  unfold moved
  split
  · rename_i enabled
    unfold follow
    dsimp only
    split
    · rename_i completes
      exact ⟨rfl, Or.inl ⟨⟨enabled, completes⟩, rfl, rfl⟩⟩
    · exact ⟨rfl, Or.inr ⟨rfl, rfl⟩⟩
  · exact ⟨rfl, Or.inr ⟨rfl, rfl⟩⟩

theorem tick_pursuing
    (pursuing : Pursuing start planner actions axis)
    (orderly : axis.Orderly planner (.tick input dt master)) :
    Pursuing start planner (actions ++ [.tick input dt master]) (axis.tick input dt master).1 := by
  intro finite active
  obtain ⟨lastToken, ⟨_, done, _⟩ | ⟨token, flag⟩⟩ := axis.tick_tokens input dt master
  · rw [done] at active
    cases active
  · rw [token] at active
    rw [flag] at finite
    cases enabled : isEnabled input.statusword with
    | false => exact absurd ⟨finite, active⟩ (orderly enabled)
    | true =>
      rw [lastToken, axis.tick_arm_enabled input dt master enabled, Axis.tick_motion]
      exact (pursuing finite active).snoc (.tick input dt master)

end Tick

theorem act_pursuing {a : AxisAction} (pursuing : Pursuing start planner actions (start.run planner actions))
    (orderly : (start.run planner actions).Orderly planner a) :
    Pursuing start planner (actions ++ [a]) ((start.run planner actions).act planner a) := by
  cases a with
  | command cmd directMaster => exact command_pursuing pursuing orderly
  | tick input dt master => exact tick_pursuing pursuing orderly
  | requestPower on =>
    intro finite active
    exact (pursuing finite active).snoc (.requestPower on)
  | quickStop =>
    intro finite active
    exact (pursuing finite active).snoc .quickStop
  | errorStop =>
    intro finite active
    cases finite

theorem orderly_run_pursues {axisId : UInt16} {scale : AxisScale}
    (run : Run (OrderlyStep planner) (.new axisId scale) actions axis) :
    (new axisId scale).run planner actions = axis ∧ Pursuing (.new axisId scale) planner actions axis := by
  apply run.invariant_history
  · refine ⟨rfl, ?_⟩
    intro finite
    cases finite
  · rintro _ x a y ⟨rfl, pursuing⟩ ⟨orderly, rfl⟩
    refine ⟨?_, act_pursuing pursuing orderly⟩
    rw [run_append]
    rfl

def DonePublished (axis : AxisRuntime) : Prop :=
  axis.tokenState = .done → axis.status.tokenState = .done ∧ axis.status.lastToken = axis.lastToken

theorem act_donePublished (published : axis.DonePublished) (a : AxisAction) : (axis.act planner a).DonePublished := by
  cases a with
  | command cmd directMaster =>
    show (axis.applyCommand planner cmd directMaster).DonePublished
    rcases axis.applyCommand_cases planner cmd directMaster with ⟨_, same⟩ | ⟨_, _, _, same⟩ | ⟨_, _, same⟩
    · rw [same]
      exact published
    · rw [same]
      intro done
      cases done
    · rw [same]
      intro done
      exact absurd done (perform_performed _ planner directMaster cmd.kind cmd.params).tokenState
  | tick input dt master =>
    intro done
    exact ⟨done, rfl⟩
  | requestPower | quickStop | errorStop => exact published

theorem run_donePublished (published : axis.DonePublished) : (axis.run planner actions).DonePublished := by
  induction actions generalizing axis with
  | nil => exact published
  | cons a actions ih => exact ih (act_donePublished published a)

theorem tick_carriedOut {axisId : UInt16} {scale : AxisScale} {input : Input} {dt : ℚ} {master : Option CoreAxisState}
    (run : Run (OrderlyStep planner) (.new axisId scale) (actions ++ [.tick input dt master]) axis)
    (done : axis.tokenState = .done)
    (new : ((AxisRuntime.new axisId scale).run planner actions).tokenState ≠ .done) :
    (AxisRuntime.new axisId scale).CarriedOut planner (actions ++ [.tick input dt master]) axis.lastToken := by
  obtain ⟨x, before, _, stepped⟩ := run.last_step rfl
  obtain ⟨reached, pursuing⟩ := orderly_run_pursues before
  rw [reached] at new
  have last : (AxisRuntime.new axisId scale).run planner (actions ++ [.tick input dt master]) =
      (x.tick input dt master).1 := by
    rw [run_append, reached]
    rfl
  have finish : (x.tick input dt master).1 = axis := stepped
  rw [← finish] at done ⊢
  obtain ⟨lastToken, ⟨⟨enabled, finite, active, still⟩, _⟩ | ⟨token, _⟩⟩ := x.tick_tokens input dt master
  · unfold CarriedOut
    rw [last, lastToken, x.tick_arm_enabled input dt master enabled, Axis.tick_motion]
    exact ⟨(pursuing finite active).snoc (.tick input dt master), still⟩
  · rw [token] at done
    exact absurd done new

theorem commands_status (directMaster : Option Nat) (commands : List AxisCommand) :
    (axis.run planner (commands.map fun cmd => .command cmd directMaster)).status = axis.status := by
  unfold run
  induction commands generalizing axis with
  | nil => rfl
  | cons cmd commands ih =>
    rw [map_cons, foldl_cons, ih]
    exact axis.applyCommand_status planner cmd directMaster

theorem contained_tokens {driven own : Prop} [Decidable driven] [Decidable own] :
    (axis.contained driven own).status.tokenState = axis.status.tokenState ∧
      (axis.contained driven own).status.lastToken = axis.status.lastToken := by
  unfold contained
  split
  · exact ⟨rfl, rfl⟩
  · split
    · exact ⟨rfl, rfl⟩
    · exact ⟨rfl, rfl⟩

end AxisRuntime

namespace NcCycle

variable {N : Nat} (planner : Planner)

/-- The move of a token published as done has been carried out, if the axis was handled orderly. -/
theorem done_is_carried_out
    (small : N ≤ 64)
    (scales : Fin N → AxisScale) (history : List (Event N)) (i : Fin N) (commands : List AxisCommand) (dt : ℚ)
    (bus : BusCycle N) {s : NcCycle N} {axis : AxisRuntime}
    (reached : Run (Step planner) (.new small scales) history s)
    (orderly : Run (AxisRuntime.OrderlyStep planner) (.new (UInt16.ofNat i) (scales i))
      ((NcCycle.new small scales).trace planner history i ++ s.ticked planner commands dt bus i) axis)
    (done : ((s.next planner (.step commands dt bus)).axes i).status.tokenState = .done)
    (new : ¬ ((s.axes i).status.tokenState = .done ∧
      (s.axes i).status.lastToken = ((s.next planner (.step commands dt bus)).axes i).status.lastToken)) :
    (AxisRuntime.new (UInt16.ofNat i) (scales i)).CarriedOut planner
      ((NcCycle.new small scales).trace planner history i ++ s.ticked planner commands dt bus i)
      ((s.next planner (.step commands dt bus)).axes i).status.lastToken := by
  have whole : s = (NcCycle.new small scales).after planner history :=
    reached.unique (fun _ _ _ _ first second => first.symm.trans second) (run_after planner _ _)
  have traced : (AxisRuntime.new (UInt16.ofNat i) (scales i)).run planner
      ((NcCycle.new small scales).trace planner history i) = s.axes i := by
    rw [whole, after_axis]
    rfl
  have drained : (AxisRuntime.new (UInt16.ofNat i) (scales i)).run planner
      ((NcCycle.new small scales).trace planner history i ++
      (commandsFor commands i).map fun cmd => .command cmd ((s.directMaster i).map Fin.val)) =
        (s.drain planner commands).axes i := by
    rw [run_append, traced, drain_axes]
  have finish : axis = _ := (orderly_run_pursues orderly).1.symm
  rw [run_append, traced, ticked_axis] at finish
  rw [stepped_axis, contained_tokens.2] at new ⊢
  rw [stepped_axis, contained_tokens.1, ← finish] at done
  rw [← finish] at new ⊢
  have published : axis.status.tokenState = axis.tokenState ∧ axis.status.lastToken = axis.lastToken := by
    rw [finish]
    exact ⟨rfl, rfl⟩
  rw [published.2] at new ⊢
  rw [published.1] at done
  unfold ticked at orderly ⊢
  rw [← append_assoc] at orderly ⊢
  apply tick_carriedOut orderly done
  rw [drained]
  intro early
  have announced : ((s.drain planner commands).axes i).DonePublished := by
    rw [← drained]
    apply run_donePublished
    intro done
    cases done
  obtain ⟨token, lastToken⟩ := announced early
  have status : ((s.drain planner commands).axes i).status = (s.axes i).status := by
    rw [drain_axes, commands_status]
  rw [status] at token lastToken
  apply new
  rw [finish, (tick_tokens _ _ _ _).1]
  exact ⟨token, lastToken⟩

def moveTo (target : ℚ) : AxisCommand := ⟨0, 1, .moveAbsolute, ⟨target, 1, 1, 0⟩⟩

def commanded (commands : List AxisCommand) (statusword : UInt16) : Event 1 :=
  .step commands 1 (oneAxis statusword .fresh statusword)

theorem one_unit_is_carried_out : (AxisRuntime.new (UInt16.ofNat 0) ⟨1000, 0⟩).CarriedOut evenPlanner
      (single.ticked evenPlanner [moveTo 1] 1 (oneAxis 0x0027 .fresh 0x0027) 0)
      ((single.next evenPlanner (commanded [moveTo 1] 0x0027)).axes 0).status.lastToken := by
  have started : (single.axes 0).Orderly evenPlanner (.command (moveTo 1) none) := by
    intro _ kind
    cases kind
  have enabled : ((single.axes 0).applyCommand evenPlanner (moveTo 1) none).Orderly evenPlanner
      (.tick ⟨0x0027, 0⟩ 1 none) := by
    intro disabled
    cases disabled
  exact done_is_carried_out evenPlanner (by decide) (fun _ => ⟨1000, 0⟩) [] 0 [moveTo 1] 1
    (oneAxis 0x0027 .fresh 0x0027) .nil
    (.snoc (.snoc .nil ⟨started, rfl⟩) ⟨enabled, rfl⟩) (by decide +kernel) (by decide +kernel)

/-- A move to 10 is reported done at 0, and a correction takes the end of the move for its own. -/
theorem dropped_move_reported_done :
    (∃ s, Run (Step evenPlanner) single [commanded [moveTo 10] 0x0027, commanded [] 0x0023, commanded [] 0x0027] s ∧
      (s.axes 0).status.tokenState = .done ∧ (s.axes 0).status.lastToken = 1 ∧ (s.axes 0).status.cmdPos = 0) ∧
    ∃ s, Run (Step evenPlanner) single
        [commanded [moveTo 2] 0x0027, commanded [⟨0, 2, .superimpose, ⟨10, 1, 1, 1⟩⟩] 0x0027] s ∧
      (s.axes 0).status.tokenState = .done ∧ (s.axes 0).status.lastToken = 2 := by
  constructor
  · exact ⟨_, run_after _ _ _, by decide +kernel, by decide +kernel, by decide +kernel⟩
  · exact ⟨_, run_after _ _ _, by decide +kernel, by decide +kernel⟩

section Enabling

variable {i : Fin N} {s s' : NcCycle N} {commands : List AxisCommand} {dt : ℚ} {bus : BusCycle N}

theorem disabled_hold (disabled : isEnabled (bus.input i).statusword = false) :
    ((s.next planner (.step commands dt bus)).axes i).arm.motion =
      .idle ((s.next planner (.step commands dt bus)).axes i).status.actualPos := by
  have arm := tick_arm_disabled ((s.drain planner commands).axes i) (bus.input i) dt
    ((s.drain planner commands).feed bus dt i) disabled
  rw [stepped_axis]
  unfold contained
  split
  · show Motion.idle (tick _ _ _ _).1.arm.state.pos = _
    rw [arm]
    rfl
  · split
    · show Motion.idle (tick _ _ _ _).1.arm.state.pos = _
      rw [arm]
      rfl
    · rw [arm]
      rfl

theorem between_arm {e : Event N} (other : ∀ commands dt bus, e ≠ .step commands dt bus) :
    ((s.next planner e).axes i).arm = (s.axes i).arm := by
  cases e with
  | addEdge | setEngaged | precompute => rfl
  | requestPower j on =>
    show (Function.update s.axes j ((s.axes j).requestPower on) i).arm = (s.axes i).arm
    by_cases same : i = j
    · rw [same, Function.update_self]
      rfl
    · rw [Function.update_of_ne same]
  | step commands dt bus => exact absurd rfl (other commands dt bus)

theorem drain_none
    (none : ∀ cmd ∈ commands, cmd.axisId.toNat ≠ i.val) :
    (s.drain planner commands).axes i = s.axes i := by
  have empty : commandsFor commands i = [] := by
    apply filter_eq_nil_iff.mpr
    intro cmd member here
    exact none cmd member (of_decide_eq_true here)
  rw [drain_axes, empty]
  rfl

/-- Enabling is free of a jump exactly if no correction adds to the position in the first enabled cycle. -/
theorem bumpless_iff (s : NcCycle N) (i : Fin N) (commands commands' : List AxisCommand) (dt dt' : ℚ)
    (bus bus' : BusCycle N) {between : List (Event N)}
    (disabled : isEnabled (bus.input i).statusword = false)
    (run : Run (fun t e t' => (∀ commands dt bus, e ≠ .step commands dt bus) ∧ Step planner t e t')
      (s.next planner (.step commands dt bus)) between s')
    (enabled : isEnabled (bus'.input i).statusword = true)
    (none : ∀ cmd ∈ commands', cmd.axisId.toNat ≠ i.val) :
    (s'.next planner (.step commands' dt' bus')).cmdPos i =
      ((s.next planner (.step commands dt bus)).axes i).status.actualPos ↔ ((s'.axes i).arm.overlay dt').pos = 0 := by
  have hold : (s'.axes i).arm.motion = .idle ((s.next planner (.step commands dt bus)).axes i).status.actualPos := by
    apply run.invariant
    · exact disabled_hold planner disabled
    · rintro t e _ same ⟨other, rfl⟩
      rw [between_arm planner other]
      exact same
  unfold cmdPos
  rw [stepped_axis, contained_cmdPos, drain_none planner none, hold_cmdPos enabled hold, add_eq_left]

def standing (statusword : UInt16) : BusCycle 1 :=
  { oneAxis statusword .fresh statusword with input := fun _ => ⟨statusword, 3000⟩ }

/-- The drive stands at 3 when it is enabled. -/
theorem bumpless_without_correction :
    let s := single.next evenPlanner (.step [] 1 (standing 0x0023))
    (s.axes 0).status.actualPos = 3 ∧
      (s.next evenPlanner (.step [] 1 (standing 0x0027))).cmdPos 0 = (s.axes 0).status.actualPos :=
  ⟨by decide +kernel, (bumpless_iff evenPlanner single 0 [] [] 1 1 (standing 0x0023) (standing 0x0027) (by decide) .nil
    (by decide) (by decide)).mpr (by decide +kernel)⟩

/-- A correction that was active before the drive dropped out makes the axis jump by 2 when it is enabled again. -/
theorem corrected_axis_jumps : ∃ s, Run (Step evenPlanner) single
        [commanded [⟨0, 1, .superimpose, ⟨10, 1, 1, 1⟩⟩] 0x0027, commanded [] 0x0023] s ∧
      (s.axes 0).status.actualPos = 0 ∧ (s.next evenPlanner (commanded [] 0x0027)).cmdPos 0 = 2 := by
  exact ⟨_, run_after _ _ _, by decide +kernel, by decide +kernel⟩

end Enabling

end NcCycle

end Taktora.Nc
