import Taktora.Lib.Run
import Taktora.Motion.Axis
import Taktora.Motion.Topology

namespace Taktora.Nc

open AxisRuntime List

inductive Validity where
  | fresh
  | stale (cycles : Nat)
  | neverSeen
deriving DecidableEq

/-- What the bus shows in one cycle: the inputs read before each tick and those read again after the exchange. -/
structure BusCycle (N : Nat) where
  input : Fin N → Input
  validity : Fin N → Validity
  exchanged : Fin N → Input

namespace BusCycle

variable {N : Nat} (bus : BusCycle N) (i : Fin N)

def stale : Bool := bus.validity i ≠ .fresh

def faulted : Bool := bus.stale i || driveFaulted (bus.exchanged i).statusword

end BusCycle

structure Work where
  input : Input
  output : Output

structure NcCycle (N : Nat) where
  axes : Fin N → AxisRuntime
  topology : CouplingTopology N
  order : TickOrder N
  directMaster : Fin N → Option (Fin N)
  work : Fin N → Work

inductive Event (N : Nat) where
  | addEdge (master slave : Fin N)
  | setEngaged (master slave : Fin N) (on : Bool)
  | precompute
  | requestPower (i : Fin N) (on : Bool)
  | step (commands : List AxisCommand) (dt : ℚ) (bus : BusCycle N)

namespace NcCycle

variable {N : Nat}

def new (small : N ≤ 64) (scales : Fin N → AxisScale) : NcCycle N where
  axes i := .new (UInt16.ofNat i) (scales i)
  topology := .new small
  order := .identity
  directMaster _ := none
  work _ := { input := ⟨0, 0⟩, output := ⟨0, 0, 0⟩ }

variable (planner : Planner) (s : NcCycle N)

def precompute : NcCycle N := { s with directMaster := s.topology.directMaster, order := s.topology.tickOrder }

def requestPower (i : Fin N) (on : Bool) : NcCycle N :=
  { s with axes := Function.update s.axes i ((s.axes i).requestPower on) }

def route (cmd : AxisCommand) : NcCycle N :=
  if h : cmd.axisId.toNat < N then
    { s with
      axes := Function.update s.axes ⟨cmd.axisId.toNat, h⟩
        ((s.axes ⟨cmd.axisId.toNat, h⟩).applyCommand planner cmd ((s.directMaster ⟨cmd.axisId.toNat, h⟩).map Fin.val)) }
  else s

def drain (commands : List AxisCommand) : NcCycle N := commands.foldl (route planner) s

def masterState (i : Fin N) : Option CoreAxisState := (s.directMaster i).map fun m => (s.axes m).commandedState

variable (bus : BusCycle N)

def tickAxis (dt : ℚ) (s : NcCycle N) (i : Fin N) : NcCycle N :=
  let (axis, output) := (s.axes i).tick (bus.input i) dt (s.masterState i)
  { s with axes := Function.update s.axes i axis, work := Function.update s.work i { input := bus.input i, output } }

def tickAll (dt : ℚ) : NcCycle N := s.order.val.foldl (tickAxis bus dt) s

def refresh : NcCycle N :=
  { s with work := fun i => { s.work i with input := bus.exchanged i } }

end NcCycle

def containAxis {N : Nat} (topology : CouplingTopology N) (faulted : Fin N → Bool) (axes : Fin N → AxisRuntime)
    (a : Fin N) : Fin N → AxisRuntime :=
  if ¬ faulted a then axes
  else (topology.engagedDownstream a).foldl
    (fun axes s => Function.update axes s (axes s).requestQuickStop.forceErrorStop)
    (Function.update axes a (axes a).forceErrorStop)

namespace NcCycle

variable {N : Nat} (planner : Planner) (s : NcCycle N)

def contain (faulted : Fin N → Bool) : NcCycle N :=
  { s with axes := (List.finRange N).foldl (containAxis s.topology faulted) s.axes }

def step (commands : List AxisCommand) (dt : ℚ) (bus : BusCycle N) : NcCycle N :=
  (((s.drain planner commands).tickAll bus dt).refresh bus).contain bus.faulted

def next : Event N → NcCycle N
  | .addEdge master slave => { s with topology := s.topology.addEdge master slave }
  | .setEngaged master slave on => { s with topology := s.topology.setEngaged master slave on }
  | .precompute => s.precompute
  | .requestPower i on => s.requestPower i on
  | .step commands dt bus => s.step planner commands dt bus

def Step (e : Event N) (s' : NcCycle N) : Prop := s.next planner e = s'

end NcCycle

inductive AxisAction where
  | command (cmd : AxisCommand) (directMaster : Option Nat)
  | tick (input : Input) (dt : ℚ) (master : Option CoreAxisState)
  | requestPower (on : Bool)
  | quickStop
  | errorStop

variable (planner : Planner) (axis : AxisRuntime)

def AxisRuntime.act : AxisAction → AxisRuntime
  | .command cmd directMaster => axis.applyCommand planner cmd directMaster
  | .tick input dt master => (axis.tick input dt master).1
  | .requestPower on => axis.requestPower on
  | .quickStop => axis.requestQuickStop
  | .errorStop => axis.forceErrorStop

def AxisRuntime.run (actions : List AxisAction) : AxisRuntime :=
  actions.foldl (AxisRuntime.act planner) axis

theorem AxisRuntime.run_append (first second : List AxisAction) :
    axis.run planner (first ++ second) = (axis.run planner first).run planner second := foldl_append

namespace NcCycle

variable {N : Nat} (planner : Planner) (s : NcCycle N)

section Drain

variable {commands : List AxisCommand} {cmd : AxisCommand} {i : Fin N}

variable (commands)

def commandsFor (i : Fin N) : List AxisCommand :=
  commands.filter fun cmd => cmd.axisId.toNat = i.val

theorem route_frame (cmd : AxisCommand) :
    (s.route planner cmd).topology = s.topology ∧ (s.route planner cmd).order = s.order ∧
      (s.route planner cmd).directMaster = s.directMaster ∧ (s.route planner cmd).work = s.work := by
  unfold route
  split
  · exact ⟨rfl, rfl, rfl, rfl⟩
  · exact ⟨rfl, rfl, rfl, rfl⟩

theorem route_axes (cmd : AxisCommand) (i : Fin N) :
    (s.route planner cmd).axes i = if cmd.axisId.toNat =
      i.val then (s.axes i).applyCommand planner cmd ((s.directMaster i).map Fin.val) else s.axes i := by
  unfold route
  by_cases inside : cmd.axisId.toNat < N
  · rw [dif_pos inside]
    by_cases same : cmd.axisId.toNat = i.val
    · have target : ⟨cmd.axisId.toNat, inside⟩ = i := Fin.ext same
      rw [if_pos same]
      simp only [target, Function.update_self]
    · have other : i ≠ ⟨cmd.axisId.toNat, inside⟩ := fun eq => same (congrArg Fin.val eq).symm
      rw [if_neg same]
      exact Function.update_of_ne other _ _
  · rw [dif_neg inside, if_neg]
    intro same
    exact inside (same ▸ i.isLt)

theorem drain_frame :
    (s.drain planner commands).topology = s.topology ∧ (s.drain planner commands).order = s.order ∧
      (s.drain planner commands).directMaster = s.directMaster ∧ (s.drain planner commands).work = s.work := by
  unfold drain
  induction commands generalizing s with
  | nil => exact ⟨rfl, rfl, rfl, rfl⟩
  | cons cmd commands ih =>
    obtain ⟨topology, order, master, work⟩ := s.route_frame planner cmd
    rw [← topology, ← order, ← master, ← work]
    exact ih (s.route planner cmd)

theorem drain_axes (i : Fin N) :
    (s.drain planner commands).axes i =
      (s.axes i).run planner ((commandsFor commands i).map fun cmd =>
      .command cmd ((s.directMaster i).map Fin.val)) := by
  unfold drain
  induction commands generalizing s with
  | nil => rfl
  | cons cmd commands ih =>
    rw [foldl_cons, ih, s.route_axes, (s.route_frame planner cmd).2.2.1]
    by_cases same : cmd.axisId.toNat = i.val
    · have kept : commandsFor (cmd :: commands) i = cmd :: commandsFor commands i :=
        filter_cons_of_pos (decide_eq_true same)
      rw [if_pos same, kept]
      rfl
    · have dropped : commandsFor (cmd :: commands) i = commandsFor commands i :=
        filter_cons_of_neg fun h => same (of_decide_eq_true h)
      rw [if_neg same, dropped]

end Drain

section Tick

variable (bus : BusCycle N) (dt : ℚ) {i : Fin N}

theorem ticks_frame (order : List (Fin N)) :
    (order.foldl (tickAxis bus dt) s).topology = s.topology ∧
      (order.foldl (tickAxis bus dt) s).directMaster = s.directMaster := by
  induction order generalizing s with
  | nil => exact ⟨rfl, rfl⟩
  | cons j order ih => exact ih (tickAxis bus dt s j)

theorem ticks_other {order : List (Fin N)} (absent : i ∉ order) :
    (order.foldl (tickAxis bus dt) s).axes i = s.axes i ∧ (order.foldl (tickAxis bus dt) s).work i = s.work i := by
  induction order generalizing s with
  | nil => exact ⟨rfl, rfl⟩
  | cons j order ih =>
    have other : i ≠ j := fun same => absent (same ▸ mem_cons_self)
    obtain ⟨axes, work⟩ := ih (s := tickAxis bus dt s j) fun member => absent (mem_cons_of_mem _ member)
    rw [foldl_cons, axes, work]
    exact ⟨Function.update_of_ne other _ _, Function.update_of_ne other _ _⟩

def feed (i : Fin N) : Option CoreAxisState :=
  ((s.order.val.takeWhile (· ≠ i)).foldl (tickAxis bus dt) s).masterState i

theorem tickAll_axis (i : Fin N) :
    (s.tickAll bus dt).axes i = ((s.axes i).tick (bus.input i) dt (s.feed bus dt i)).1 ∧ (s.tickAll bus dt).work i =
      { input := bus.input i, output := ((s.axes i).tick (bus.input i) dt (s.feed bus dt i)).2 } := by
  obtain ⟨before, after, split⟩ := append_of_mem (s.order.mem i)
  have distinct := s.order.property.1
  rw [split, nodup_append'] at distinct
  have unticked : i ∉ before := fun member => distinct.2.2 member mem_cons_self
  have ticked : i ∉ after := (nodup_cons.mp distinct.2.1).1
  have turn : s.order.val.takeWhile (· ≠ i) = before := by
    rw [split, takeWhile_append_of_pos, takeWhile_cons_of_neg, append_nil]
    · simp
    · intro j member
      exact decide_eq_true fun same => unticked (same ▸ member)
  unfold feed tickAll
  rw [turn, split, foldl_append, foldl_cons]
  obtain ⟨axes, work⟩ := ticks_other (tickAxis bus dt (before.foldl (tickAxis bus dt) s) i) bus dt ticked
  rw [axes, work]
  have untouched := (s.ticks_other bus dt unticked).1
  simp only [tickAxis, Function.update_self, untouched, and_self]

theorem tickAll_frame : (s.tickAll bus dt).topology = s.topology := (s.ticks_frame bus dt s.order.val).1

end Tick

end NcCycle

section Contain

variable {N : Nat} (topology : CouplingTopology N) (faulted : Fin N → Bool) (axes : Fin N → AxisRuntime) {i : Fin N}

def AxisRuntime.contained (driven own : Prop) [Decidable driven] [Decidable own] : AxisRuntime :=
  if driven then axis.requestQuickStop.forceErrorStop else if own then axis.forceErrorStop else axis

def Driven (i : Fin N) : Prop := ∃ a, faulted a = true ∧ Relation.TransGen topology.Engaged a i

theorem latch_all {targets : List (Fin N)} :
    targets.foldl (fun axes s => Function.update axes s (axes s).requestQuickStop.forceErrorStop) axes i =
      if i ∈ targets then (axes i).requestQuickStop.forceErrorStop else axes i := by
  induction targets generalizing axes with
  | nil => rfl
  | cons j targets ih =>
    rw [foldl_cons, ih]
    by_cases same : i = j
    · subst same
      rw [Function.update_self, if_pos mem_cons_self]
      split
      · rfl
      · rfl
    · rw [Function.update_of_ne same]
      simp only [mem_cons, same, false_or]

theorem containAxis_axis (a : Fin N) : containAxis topology faulted axes a i =
      (axes i).contained (faulted a = true ∧ i ∈ topology.engagedDownstream a) (faulted a = true ∧ i = a) := by
  unfold containAxis contained
  by_cases fault : faulted a = true
  · rw [if_neg (not_not_intro fault), latch_all]
    simp only [fault, true_and]
    by_cases same : i = a
    · subst same
      rw [Function.update_self, if_pos rfl]
      rfl
    · rw [Function.update_of_ne same, if_neg same]
  · simp [fault]

theorem contained_contained (driven own driven' own' : Prop) [Decidable driven] [Decidable own]
    [Decidable driven'] [Decidable own'] :
    (axis.contained driven own).contained driven' own' = axis.contained (driven ∨ driven') (own ∨ own') := by
  by_cases h : driven <;> by_cases h' : driven' <;> by_cases o : own <;> by_cases o' :
    own' <;> simp only [h, h', o, o'] <;> rfl

theorem containAll_axis (targets : List (Fin N)) : targets.foldl (containAxis topology faulted) axes i =
      (axes i).contained (∃ a ∈ targets, faulted a = true ∧ i ∈ topology.engagedDownstream a)
        (∃ a ∈ targets, faulted a = true ∧ i = a) := by
  induction targets generalizing axes with
  | nil => simp [contained]
  | cons a targets ih =>
    rw [foldl_cons, ih, containAxis_axis, contained_contained]
    simp only [exists_mem_cons_iff]

theorem driven_iff : ((List.finRange N).any fun a => faulted a && (topology.engagedDownstream a).contains i) = true ↔
    Driven topology faulted i := by
  simp only [any_eq_true, mem_finRange, true_and, Bool.and_eq_true, contains_iff_mem,
    topology.mem_engagedDownstream, Driven]

instance : Decidable (Driven topology faulted i) := decidable_of_iff _ (driven_iff topology faulted)

theorem contain_axis (s : NcCycle N) (i : Fin N) :
    (s.contain faulted).axes i = (s.axes i).contained (Driven s.topology faulted i) (faulted i = true) := by
  show (finRange N).foldl (containAxis s.topology faulted) s.axes i = _
  rw [containAll_axis]
  apply if_congr ?_ rfl (if_congr ?_ rfl rfl)
  · simp only [mem_finRange, true_and, s.topology.mem_engagedDownstream, Driven]
  · simp only [mem_finRange, true_and, exists_eq_right']

end Contain

namespace NcCycle

variable {N : Nat} (planner : Planner) (s : NcCycle N) (commands : List AxisCommand) (dt : ℚ) (bus : BusCycle N)

variable (i : Fin N)

def ticked : List AxisAction :=
  (commandsFor commands i).map (fun cmd => .command cmd ((s.directMaster i).map Fin.val)) ++
    [.tick (bus.input i) dt ((s.drain planner commands).feed bus dt i)]

def reactions : List AxisAction :=
  if Driven s.topology bus.faulted i then [.quickStop, .errorStop] else if bus.faulted i then [.errorStop] else []

def actions (e : Event N) (i : Fin N) : List AxisAction :=
  match e with
  | .step commands dt bus => s.ticked planner commands dt bus i ++ s.reactions bus i
  | .requestPower j on => if j = i then [.requestPower on] else []
  | _ => []

theorem step_output : ((s.step planner commands dt bus).work i).output =
      (((s.drain planner commands).axes i).tick (bus.input i) dt ((s.drain planner commands).feed bus dt i)).2 := by
  show (((s.drain planner commands).tickAll bus dt).work i).output = _
  rw [((s.drain planner commands).tickAll_axis bus dt i).2]

theorem ticked_axis : (s.axes i).run planner (s.ticked planner commands dt bus i) =
      (((s.drain planner commands).axes i).tick (bus.input i) dt ((s.drain planner commands).feed bus dt i)).1 := by
  unfold ticked run
  rw [foldl_append, s.drain_axes planner commands i]
  rfl

theorem stepped_axis :
    (s.next planner (.step commands dt bus)).axes i =
      ((((s.drain planner commands).axes i).tick (bus.input i) dt
      ((s.drain planner commands).feed bus dt i)).1).contained (Driven s.topology bus.faulted i)
      (bus.faulted i = true) := by
  unfold next step
  rw [contain_axis]
  have topology : (((s.drain planner commands).tickAll bus dt).refresh bus).topology = s.topology := by
    show ((s.drain planner commands).tickAll bus dt).topology = s.topology
    rw [tickAll_frame, (s.drain_frame planner commands).1]
  have axes : (((s.drain planner commands).tickAll bus dt).refresh bus).axes i =
      (((s.drain planner commands).axes i).tick (bus.input i) dt ((s.drain planner commands).feed bus dt i)).1 :=
    ((s.drain planner commands).tickAll_axis bus dt i).1
  simp only [contained, topology, axes]

theorem next_axis (e : Event N) (i : Fin N) :
    (s.next planner e).axes i = (s.axes i).run planner (s.actions planner e i) := by
  cases e with
  | addEdge | setEngaged | precompute => rfl
  | requestPower j on =>
    show Function.update s.axes j ((s.axes j).requestPower on) i = (s.axes i).run planner (if j = i then _ else _)
    by_cases same : j = i
    · rw [if_pos same, same, Function.update_self]
      rfl
    · rw [if_neg same, Function.update_of_ne (symm same)]
      rfl
  | step commands dt bus =>
    rw [actions, run_append, ticked_axis, stepped_axis]
    unfold contained reactions
    split
    · rfl
    · split
      · rfl
      · rfl

def after (events : List (Event N)) : NcCycle N := events.foldl (next planner) s

theorem run_after (events : List (Event N)) : Run (Step planner) s events (s.after planner events) := by
  induction events using reverseRecOn with
  | nil => exact .nil
  | append_singleton events e ih =>
    unfold after
    rw [foldl_append]
    exact .snoc ih rfl

def trace (s : NcCycle N) (history : List (Event N)) (i : Fin N) : List AxisAction :=
  match history with
  | [] => []
  | e :: history => s.actions planner e i ++ (s.next planner e).trace history i

theorem after_axis (history : List (Event N)) (i : Fin N) :
    (s.after planner history).axes i = (s.axes i).run planner (s.trace planner history i) := by
  induction history generalizing s with
  | nil => rfl
  | cons e history ih =>
    show ((s.next planner e).after planner history).axes i = _
    rw [ih, next_axis, trace, run_append]

end NcCycle

end Taktora.Nc
