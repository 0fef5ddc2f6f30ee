import Taktora.Motion.Cycle

namespace Taktora.Nc

open List

def Event.Rearms {N : Nat} (i : Fin N) : Event N → Prop
  | .requestPower j _ => j = i
  | .step commands _ _ => ∃ cmd ∈ commands, cmd.axisId.toNat = i.val ∧ cmd.kind.Rearms
  | _ => False

instance {N : Nat} (i : Fin N) (e : Event N) : Decidable (e.Rearms i) :=
  match e with
  | .requestPower j _ => inferInstanceAs (Decidable (j = i))
  | .step commands _ _ => inferInstanceAs (Decidable (∃ cmd ∈ commands, cmd.axisId.toNat = i.val ∧ cmd.kind.Rearms))
  | .addEdge _ _ | .setEngaged _ _ _ | .precompute => inferInstanceAs (Decidable False)

namespace AxisRuntime

variable {axis : AxisRuntime} {driven own : Prop} [Decidable driven] [Decidable own]

theorem contained_latch (hit : own ∨ driven) :
    (axis.contained driven own).errorStop = true ∧ (axis.contained driven own).status.state = .errorStop := by
  unfold contained
  by_cases d : driven
  · rw [if_pos d]
    exact ⟨rfl, rfl⟩
  · rw [if_neg d, if_pos (hit.resolve_right d)]
    exact ⟨rfl, rfl⟩

theorem contained_power (hit : driven) : (axis.contained driven own).power = .quickStop := by
  unfold contained
  rw [if_pos hit]
  rfl

theorem contained_other (notOwn : ¬ own) (notDriven : ¬ driven) : axis.contained driven own = axis := by
  unfold contained
  rw [if_neg notDriven, if_neg notOwn]

end AxisRuntime

def AxisAction.Rearms : AxisAction → Prop
  | .command cmd _ => cmd.kind.Rearms
  | .requestPower _ => True
  | _ => False

namespace AxisRuntime

variable {axis : AxisRuntime} {planner : Planner}

theorem act_latched {a : AxisAction}
    (other : ¬ a.Rearms)
    (latched : axis.errorStop = true) : (axis.act planner a).errorStop = true := by
  cases a with
  | command cmd directMaster =>
    show (axis.applyCommand planner cmd directMaster).errorStop = true
    rw [(axis.applyCommand_latch planner cmd directMaster other).1]
    exact latched
  | tick input dt master =>
    show (axis.tick input dt master).1.errorStop = true
    rw [(axis.tick_latch input dt master).1]
    exact latched
  | requestPower on => exact absurd trivial other
  | quickStop => exact latched
  | errorStop => rfl

theorem run_latched {actions : List AxisAction}
    (other : ∀ a ∈ actions, ¬ a.Rearms)
    (latched : axis.errorStop = true) :
    (axis.run planner actions).errorStop = true := by
  induction actions generalizing axis with
  | nil => exact latched
  | cons a actions ih =>
    apply ih fun a member => other a (mem_cons_of_mem _ member)
    exact act_latched (other a mem_cons_self) latched

end AxisRuntime

namespace NcCycle

variable {N : Nat} (planner : Planner) {s s' : NcCycle N} {i : Fin N}

theorem reactions_rearm {bus : BusCycle N} {a : AxisAction} (member : a ∈ s.reactions bus i) : ¬ a.Rearms := by
  unfold reactions at member
  split at member
  · rcases mem_pair.mp member with rfl | rfl
    · exact id
    · exact id
  · split at member
    · rw [mem_singleton] at member
      rw [member]
      exact id
    · cases member

theorem actions_rearm {e : Event N}
    (other : ¬ e.Rearms i)
    {a : AxisAction}
    (member : a ∈ s.actions planner e i) : ¬ a.Rearms := by
  cases e with
  | addEdge | setEngaged | precompute => cases member
  | requestPower j on =>
    have elsewhere : ¬ j = i := other
    unfold actions at member
    dsimp only at member
    rw [if_neg elsewhere] at member
    cases member
  | step commands dt bus =>
    rcases mem_append.mp member with ticked | reaction
    · rcases mem_append.mp ticked with command | tick
      · obtain ⟨cmd, found, rfl⟩ := mem_map.mp command
        obtain ⟨found, target⟩ := mem_filter.mp found
        intro rearms
        exact other ⟨cmd, found, of_decide_eq_true target, rearms⟩
      · rw [mem_singleton.mp tick]
        exact id
    · exact reactions_rearm reaction

theorem next_latched {e : Event N}
    (other : ¬ e.Rearms i)
    (latched : (s.axes i).errorStop = true) :
    ((s.next planner e).axes i).errorStop = true := by
  rw [next_axis]
  exact AxisRuntime.run_latched (fun _ member => actions_rearm planner other member) latched

/-- A step latches the faulted axes and those they drive; a latch stays until a request to rearm the axis. -/
theorem fault_containment (s : NcCycle N) (i : Fin N) : (∀ commands dt bus,
      (bus.faulted i = true ∨ Driven s.topology bus.faulted i →
        ((s.next planner (.step commands dt bus)).axes i).status.state = .errorStop ∧
          ((s.next planner (.step commands dt bus)).axes i).errorStop = true) ∧
      (Driven s.topology bus.faulted i → ((s.next planner (.step commands dt bus)).axes i).power = .quickStop) ∧
      (¬ bus.faulted i = true → ¬ Driven s.topology bus.faulted i →
        ((s.next planner (.step commands dt bus)).axes i).errorStop = ((s.drain planner commands).axes i).errorStop ∧
          ((s.next planner (.step commands dt bus)).axes i).power = ((s.drain planner commands).axes i).power)) ∧
    ∀ history s', Run (fun s e s' => ¬ e.Rearms i ∧ Step planner s e s') s history s' → (s.axes i).errorStop = true →
      (s'.axes i).errorStop = true := by
  constructor
  · intro commands dt bus
    rw [stepped_axis]
    refine ⟨?_, ?_, ?_⟩
    · intro hit
      exact (AxisRuntime.contained_latch hit).symm
    · intro driven
      exact AxisRuntime.contained_power driven
    · intro notOwn notDriven
      rw [AxisRuntime.contained_other notOwn notDriven]
      exact AxisRuntime.tick_latch _ _ _ _
  · intro history s' run latched
    apply run.invariant (I := fun s => (s.axes i).errorStop = true) latched
    rintro s e _ set ⟨other, rfl⟩
    exact next_latched planner other set

def evenCurve : Curve := fun start target limits =>
  (|target - start.pos| / limits.vMax, fun elapsed =>
    ⟨start.pos + (if start.pos < target then limits.vMax else -limits.vMax) * elapsed, 0, 0⟩)

def evenPlanner : Planner := { trapezoid := evenCurve, sCurve := evenCurve }

def healthyBus (N : Nat) : BusCycle N where
  input _ := ⟨0x0027, 0⟩
  validity _ := .fresh
  exchanged _ := ⟨0x0027, 0⟩

def coupled (master slave : Fin 2) : NcCycle 2 := (NcCycle.new (by decide) fun _ => ⟨1000, 0⟩).after evenPlanner
  [.addEdge master slave, .setEngaged master slave true, .precompute, .requestPower slave true]

def masterFault (master : Fin 2) : BusCycle 2 :=
  { healthyBus 2 with validity := fun i => if i = master then .stale 1 else .fresh }

/-- The slave is stopped with its master, and is still latched in the next cycle. -/
theorem driven_slave_contained :
    let s := (coupled 0 1).next evenPlanner (.step [] 1 (masterFault 0))
    (s.axes 1).status.state = .errorStop ∧ (s.axes 1).power = .quickStop ∧
      ((s.next evenPlanner (.step [] 1 (healthyBus 2))).axes 1).errorStop = true := by
  have driven : Driven (coupled 0 1).topology (masterFault 0).faulted 1 := by decide +kernel
  have quiet : ¬ Event.Rearms 1 (.step [] 1 (healthyBus 2)) := by decide
  obtain ⟨latches, stops, _⟩ := (fault_containment evenPlanner (coupled 0 1) 1).1 [] 1 (masterFault 0)
  obtain ⟨state, latched⟩ := latches (.inr driven)
  refine ⟨state, stops driven, ?_⟩
  exact (fault_containment evenPlanner _ 1).2 [.step [] 1 (healthyBus 2)] _ (.snoc .nil ⟨quiet, rfl⟩) latched

end NcCycle

end Taktora.Nc
