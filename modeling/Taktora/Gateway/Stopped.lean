import Taktora.Gateway.Outbound

namespace Taktora.Can

open Fallible CanDispatcher

def IfaceTask.monitor (iface : CanIface) (t : IfaceTask) : CanHealthMonitor :=
  (t.trace.filterMap Act.reported).foldl (fun monitor kind => (monitor.setIface iface kind).2) (.new [iface])

theorem lastReport_eq (trace : List Act) (kind : IfaceHealthKind) :
    lastReport trace kind = (trace.filterMap Act.reported).getLast?.getD kind := by
  induction trace generalizing kind with
  | nil => rfl
  | cons a rest ih =>
    show lastReport rest (a.reported.getD kind) = _
    rw [ih, List.filterMap_cons]
    cases a.reported with
    | none => rfl
    | some reported =>
      rw [List.getLast?_cons]
      rfl

theorem monitor_ifaceKind (iface : CanIface) (t : IfaceTask) : (t.monitor iface).ifaceKind iface = some t.iface := by
  rw [IfaceTask.iface, lastReport_eq]
  exact CanHealthMonitor.replay_ifaceKind _ (AList.lookup_insert _)

section Stopping

variable {iface : CanIface} {envs : List IfaceSurroundings}

theorem turns_stop_down (works : ∀ env ∈ envs, env.Works iface) :
    Ensures (fun _ => True) (turns iface envs) (fun _ _ => True) fun t => t.iface = .down := by
  induction envs with
  | nil => exact ensures_pure fun _ _ => trivial
  | cons env rest ih =>
    obtain ⟨here, others⟩ := List.forall_mem_cons.mp works
    refine ensures_bind (Q := fun _ _ => True) (fun t _ => ?_) fun goesOn => ?_
    · exact (dispatchOnce_spec fun _ => here).weaken (fun _ _ _ => trivial) (fun _ failed => (failed trivial).2) t rfl
    · cases goesOn with
      | true => exact ih others
      | false => exact ensures_pure fun _ _ => trivial

theorem dispatcherLoop_stops_down {registry : ChannelRegistry} {applied : Except CanIoError Unit}
    (works : ∀ env ∈ envs, env.Works iface) :
    Ensures (fun _ => True) (dispatcherLoop iface registry applied envs) (fun _ _ => True) fun t => t.iface =
      .down := by
  refine ensures_bind (fun t _ => ?_) fun _ => turns_stop_down works
  exact bringUp_spec.weaken (fun _ _ _ => trivial) (fun _ failed => failed.2) t rfl

end Stopping

end Taktora.Can

namespace Taktora.J1939

open Can Fallible Dispatcher

section Stopping

variable {sourceAddr : UInt8} {env : Surroundings} {n n' : Node}

theorem iteration_stops_down
    (serves : env.Serves n.tp)
    (receptive : n.Receptive) :
    Ensures (· = n) (dispatchIteration sourceAddr env) (fun _ n' => n'.Receptive) fun n' => n'.iface = .down := by
  have spec : Ensures (· = n) (dispatchIteration sourceAddr env) _ _ := dispatchIteration_spec (W := True)
    (fun _ => serves.works receptive) receptive.claim (fun _ _ => trivial) (fun _ _ _ _ => trivial) fun _ _ => trivial
  exact spec.weaken (fun _ _ iterated => iterated.receptive receptive) fun _ failed => (failed.2 trivial).2

theorem dispatcherLoop_stops_down {envs : List Surroundings}
    (serves : Along (fun n env => env.Serves n.tp) (dispatchIteration sourceAddr) envs n)
    (receptive : n.Receptive) :
    Ensures (· = n) (dispatcherLoop sourceAddr envs) (fun _ _ => True) fun n' => n'.iface = .down := by
  induction envs generalizing n with
  | nil => exact ensures_pure fun _ _ => trivial
  | cons env rest ih =>
    obtain ⟨here, others⟩ := serves
    refine ensures_bind_from (iteration_stops_down here receptive) fun outcome n' returned receptive => ?_
    exact ih (others outcome n' returned) receptive

end Stopping

end Taktora.J1939

namespace Taktora.Ethercat

open Fallible EthercatDispatcher

theorem dispatcherLoop_stops_down {envs : List BusSurroundings} (works : ∀ env ∈ envs, env.Works) :
    Ensures (fun _ => True) (dispatcherLoop envs) (fun _ _ => True) fun r => r.health.current.kind = .down := by
  induction envs with
  | nil => exact ensures_pure fun _ _ => trivial
  | cons env rest ih =>
    obtain ⟨here, others⟩ := List.forall_mem_cons.mp works
    exact ensures_bind ((dispatchOneCycle_spec fun _ => here).failing fun _ failed => failed trivial) fun _ => ih others

end Taktora.Ethercat

namespace Taktora.Gateway

open Can J1939 Ethercat Fallible List

inductive Loop where
  | can (iface : CanIface) (registry : Can.ChannelRegistry) (applied : Except CanIoError Unit)
      (envs : List IfaceSurroundings)
  | j1939 (iface : CanIface) (timers : TpTimers) (maxTpSessions maxEtpBytes : Nat) (sourceAddr : UInt8) (name : UInt64)
      (claimWait : Nat) (envs : List Surroundings)
  | ethercat (start : CycleRunner) (envs : List BusSurroundings)

namespace Loop

def stopped : Loop → Bool
  | can iface registry applied envs => ((CanDispatcher.dispatcherLoop iface registry applied envs).run' .new).isNone
  | j1939 _ timers maxTpSessions maxEtpBytes sourceAddr name claimWait envs =>
    ((Dispatcher.dispatcherLoop sourceAddr envs).run'
      (.configured timers maxTpSessions maxEtpBytes sourceAddr name claimWait)).isNone
  | ethercat start envs => ((EthercatDispatcher.dispatcherLoop envs).run' start).isNone

def ReportedDown : Loop → Prop
  | can iface registry applied envs =>
    ((final (CanDispatcher.dispatcherLoop iface registry applied envs) .new).monitor iface).ifaceKind iface = some .down
  | j1939 iface timers maxTpSessions maxEtpBytes sourceAddr name claimWait envs =>
    ((final (Dispatcher.dispatcherLoop sourceAddr envs)
      (.configured timers maxTpSessions maxEtpBytes sourceAddr name claimWait)).monitor iface).ifaceKind iface =
        some .down
  | ethercat start envs => (final (EthercatDispatcher.dispatcherLoop envs) start).health.current.kind = .down

def OnlyBusFails : Loop → Prop
  | can iface _ _ envs => ∀ env ∈ envs, env.Works iface
  | j1939 _ timers maxTpSessions maxEtpBytes sourceAddr name claimWait envs =>
    Along (fun n env => env.Serves n.tp) (Dispatcher.dispatchIteration sourceAddr) envs
      (.configured timers maxTpSessions maxEtpBytes sourceAddr name claimWait)
  | ethercat _ envs => ∀ env ∈ envs, env.Works

end Loop

/-- A dispatcher that stops because of the bus is reported down as long as nothing else failed. -/
theorem failing_bus_reported_down (loop : Loop)
    (bus : loop.OnlyBusFails)
    (stopped : loop.stopped = true) : loop.ReportedDown := by
  cases loop with
  | can iface registry applied envs =>
    obtain ⟨e, failed⟩ := error_of_run' stopped
    exact (Can.monitor_ifaceKind _ _).trans (congrArg some ((dispatcherLoop_stops_down bus).of_error trivial failed))
  | j1939 iface timers maxTpSessions maxEtpBytes sourceAddr name claimWait envs =>
    obtain ⟨e, failed⟩ := error_of_run' stopped
    have receptive := Node.configured_receptive timers maxTpSessions maxEtpBytes sourceAddr name claimWait
    exact (J1939.monitor_ifaceKind _ _).trans
      (congrArg some ((dispatcherLoop_stops_down bus receptive).of_error rfl failed))
  | ethercat start envs =>
    obtain ⟨e, failed⟩ := error_of_run' stopped
    exact (dispatcherLoop_stops_down bus).of_error trivial failed

def canStranded : IfaceSurroundings := .quiet (some (.ok (.error .busOff))) (.error (.io "device is down")) []

def j1939Stranded : Surroundings :=
  { Surroundings.faulty 0 .busOff with reopen := .error (.io "device is down") }

def cycling (writers : List Ethercat.RegisteredChannel) (cycle : Except ConnectorError UInt16) : BusSurroundings where
  registry := writers
  outputs := valveRunner.outputs
  now := 0
  cycle := cycle
  recoveries := []
  reread := []
  inputs _ := none

theorem failing_bus_reported_down_lost :
    let can : Loop := .can CanHealthMonitor.vcan0 [] (.ok ()) [canStranded]
    let j1939 : Loop := .j1939 CanHealthMonitor.vcan0 ⟨750, 1250, 1250⟩ 8 16777216 0x10 0x1000 250 [j1939Stranded]
    let ethercat : Loop := .ethercat valveRunner [cycling [] (.error (.stack "timeout"))]
    (can.stopped = true ∧ can.ReportedDown) ∧ (j1939.stopped = true ∧ j1939.ReportedDown) ∧
      ethercat.stopped = true ∧ ethercat.ReportedDown := by
  refine ⟨⟨by decide, ?_⟩, ⟨by decide +kernel, ?_⟩, by decide, ?_⟩
  · refine failing_bus_reported_down _ ?_ (by decide)
    refine forall_mem_singleton.mpr ⟨rfl, forall_mem_nil _, fun _ _ => rfl, ?_, ?_⟩
    · rintro e ⟨⟩
    · rintro frame ⟨⟩
  · refine failing_bus_reported_down _ ⟨⟨fun _ _ => rfl, forall_mem_nil _, ?_, ?_, ?_⟩, fun _ _ _ => trivial⟩
      (by decide +kernel)
    · rintro e ⟨⟩
    · rintro frame ⟨⟩
    · rintro frame ⟨⟩
  · refine failing_bus_reported_down _ ?_ (by decide)
    exact forall_mem_singleton.mpr ⟨forall_mem_nil _, forall_mem_nil _⟩

/-- A frame that cannot be received, or a message that does not cover its slice, ends a dispatcher that stays up. -/
theorem stopped_dispatcher_reported_up :
    let can := CanDispatcher.dispatcherLoop CanHealthMonitor.vcan0 [] (.ok ())
      [.quiet (some (.error (.io "input/output error"))) (.ok ()) []]
    let j1939 := Dispatcher.dispatcherLoop 0x10 [.quiet 0 none, .quiet 250 none,
      { Surroundings.quiet 300 none with received := some (.error (.io "input/output error")) }]
    let ethercat := EthercatDispatcher.dispatcherLoop [cycling [ethercatWriter 16 [[1]]] (.ok 3)]
    (can.run' .new).isNone = true ∧
    ((final can .new).monitor CanHealthMonitor.vcan0).ifaceKind CanHealthMonitor.vcan0 = some .up ∧
    (j1939.run' defaultNode).isNone = true ∧
    ((final j1939 defaultNode).monitor CanHealthMonitor.vcan0).ifaceKind CanHealthMonitor.vcan0 = some .up ∧
    (ethercat.run' valveRunner).isNone = true ∧ (final ethercat valveRunner).health.current = .up := by
  decide +kernel

end Taktora.Gateway
