import Taktora.Ethercat.Dispatcher
import Taktora.Gateway.Inbound

namespace Taktora.Can

open Fallible CanDispatcher

/-- A channel as `create_writer` registers it, with messages that its frames have room for. -/
def RegisteredChannel.Writable (channel : RegisteredChannel) : Prop :=
  ∃ messages : List (List UInt8), channel.binding = .outbound (messages.map .ok) ∧
    ∀ message ∈ messages, message.length ≤ channel.routing.kind.maxPayload

theorem pass_sends_all {iface : CanIface} {env : IfaceSurroundings} {t : IfaceTask}
    (sends : env.Sends)
    (writers : ∀ c ∈ env.registry, c.direction = .outbound → c.Writable) :
    drainOutboundOnce iface env t =
      .ok () (t.sends ((env.registry.iterIfaceDirection iface .outbound).flatMap channelFrames)) := by
  have carried : ∀ c ∈ env.registry.iterIfaceDirection iface .outbound, c.Carried := by
    intro c member pending bound message queued
    obtain ⟨registered, outbound⟩ := List.mem_filter.mp member
    obtain ⟨_, same, fit⟩ := writers c registered (of_decide_eq_true outbound).2
    cases same.symm.trans bound
    obtain ⟨payload, listed, rfl⟩ := List.mem_map.mp queued
    exact ⟨payload, rfl, fit payload listed⟩
  have collected := collectOutboundJobs_eq_ok_iff.mpr ⟨carried, rfl⟩
  obtain ⟨_, _, returned, _, same, rfl⟩ := (drainOutboundOnce_spec (fun _ => sends) fun _ => carried).returns rfl
      fun _ failed => failed.1 trivial
  cases collected.symm.trans same
  exact returned

end Taktora.Can

namespace Taktora.J1939

open Can Fallible Dispatcher

def RegisteredChannel.Writable (channel : RegisteredChannel) : Prop :=
  (∀ maxLen, channel.routing.transport ≠ .etp maxLen) ∧
    ∃ messages : List (List UInt8), channel.binding = .outbound (messages.map .ok) ∧
      ∀ message ∈ messages, message.length ≤ channel.routing.transport.maxPayload

def RegisteredChannel.Segmentable (channel : RegisteredChannel) : Prop :=
  channel.routing.transport.isTp = true → ∀ messages : List (List UInt8), channel.binding =
    .outbound (messages.map .ok) → ∀ message ∈ messages, tpMinPayload ≤ message.length

theorem RegisteredChannel.Writable.carried_iff {channel : RegisteredChannel} (writable : channel.Writable) :
    channel.Carried ↔ channel.Segmentable := by
  obtain ⟨plain, messages, bound, fit⟩ := writable
  have queue {pending : List (Except ConnectorError (List UInt8))} (same : channel.binding = .outbound pending) :
      pending = messages.map .ok := by
    cases bound.symm.trans same
    rfl
  constructor
  · intro carried tp messages' bound' message listed
    obtain ⟨_, ⟨⟩, sized⟩ := carried _ bound' (.ok message) (List.mem_map_of_mem listed)
    rw [if_pos tp] at sized
    exact sized.1
  · intro segmentable pending same message queued
    rw [queue same] at queued
    obtain ⟨payload, listed, rfl⟩ := List.mem_map.mp queued
    refine ⟨payload, rfl, ?_⟩
    cases transport : channel.routing.transport with
    | singleFrame =>
      have short := fit payload listed
      rw [transport] at short
      exact short
    | tp maxLen =>
      have short := fit payload listed
      have long := segmentable (by rw [transport]; rfl) messages bound payload listed
      rw [transport] at short
      exact ⟨long, short⟩
    | etp maxLen => exact absurd transport (plain maxLen)

theorem pass_sends_all_iff {sourceAddr : UInt8} {env : Surroundings} {n : Node}
    (sends : env.Sends)
    (writers : ∀ c ∈ env.registry, c.direction = .outbound → c.Writable) :
    (∃ count, sendOutboundOnce sourceAddr env n =
      .ok count (n.sends ((env.registry.iterDirection .outbound).flatMap (channelFrames sourceAddr)))) ↔
      ∀ c ∈ env.registry.iterDirection .outbound, c.Segmentable := by
  have writable : ∀ c ∈ env.registry.iterDirection .outbound, c.Writable := by
    intro c member
    obtain ⟨registered, outbound⟩ := List.mem_filter.mp member
    exact writers c registered (beq_iff_eq.mp outbound)
  constructor
  · rintro ⟨_, returned⟩ c member
    obtain ⟨_, collected, _⟩ := (sendOutboundOnce_spec False.elim False.elim).of_ok rfl returned
    exact (writable c member).carried_iff.mp ((collectOutboundJobs_eq_ok_iff.mp collected).1 c member)
  · intro segmentable
    have carried : ∀ c ∈ env.registry.iterDirection .outbound, c.Carried :=
      fun c member => (writable c member).carried_iff.mpr (segmentable c member)
    have collected : collectOutboundJobs sourceAddr env.registry = .ok _ :=
      collectOutboundJobs_eq_ok_iff.mpr ⟨carried, rfl⟩
    obtain ⟨count, _, returned, _, same, rfl⟩ :=
      (sendOutboundOnce_spec (fun _ => sends) fun _ => ⟨_, collected⟩).returns rfl
        fun _ failed => failed.1 trivial
    cases collected.symm.trans same
    exact ⟨count, returned⟩

end Taktora.J1939

namespace Taktora.Ethercat

open Can Fallible EthercatDispatcher

/-- A channel as `create_writer` registers it, with its messages. -/
def RegisteredChannel.Writable (channel : RegisteredChannel) : Prop :=
  channel.routing.direction = .rx ∧ ∃ messages : List (List UInt8), channel.binding = .outbound (messages.map .ok)

def RegisteredChannel.Covers (channel : RegisteredChannel) (outputs : ProcessData) : Prop :=
  ∀ messages : List (List UInt8), channel.binding = .outbound (messages.map .ok) → ∀ message ∈ messages,
    message.length ≤ maxInboundPayload ∧ channel.routing.bitLength.toNat ≤ message.length * 8 ∧
      ∀ pdi, outputs channel.routing.subdeviceAddress = some pdi → channel.routing.Within pdi.length

theorem RegisteredChannel.Writable.carried_iff {channel : RegisteredChannel} {outputs : ProcessData}
    (writable : channel.Writable)
    (found : (outputs channel.routing.subdeviceAddress).isSome = true)
    (rx : channel.direction = .rx) :
    channel.Carried outputs ↔ channel.Covers outputs := by
  obtain ⟨_, messages, bound⟩ := writable
  obtain ⟨pdi, found⟩ := Option.isSome_iff_exists.mp found
  constructor
  · intro carried messages' bound' message listed
    obtain ⟨_, ⟨⟩, short, covered, _, held, within⟩ := carried rx _ bound' (.ok message) (List.mem_map_of_mem listed)
    refine ⟨short, covered, fun pdi' found' => ?_⟩
    rw [found'] at held
    cases held
    exact within
  · intro covers _ pending same message queued
    cases bound.symm.trans same
    obtain ⟨payload, listed, rfl⟩ := List.mem_map.mp queued
    obtain ⟨short, covered, within⟩ := covers messages bound payload listed
    refine ⟨payload, rfl, short, covered, pdi.length, ?_, within pdi found⟩
    rw [found]
    rfl

theorem pass_writes_all_iff {registry : ChannelRegistry} {r : CycleRunner}
    (writers : ∀ c ∈ registry, c.direction = .rx → c.Writable ∧ (r.outputs c.routing.subdeviceAddress).isSome = true) :
    (∃ count r', dispatchOutbound registry 0 r = .ok count r' ∧ Handed r (registry.flatMap channelWrites) r') ↔
      ∀ c ∈ registry, c.direction = .rx → c.Covers r.outputs := by
  constructor
  · rintro ⟨_, _, returned, _⟩ c member rx
    obtain ⟨carried, _⟩ := (dispatchOutbound_spec False.elim).of_ok rfl returned
    obtain ⟨writable, found⟩ := writers c member rx
    exact (writable.carried_iff found rx).mp (carried c member)
  · intro covers
    have carried : ∀ c ∈ registry, c.Carried r.outputs := by
      intro c member rx
      obtain ⟨writable, found⟩ := writers c member rx
      exact (writable.carried_iff found rx).mpr (covers c member rx) rx
    obtain ⟨count, r', returned, _, handed⟩ :=
      (dispatchOutbound_spec fun _ => carried).returns rfl fun _ failed => failed trivial
    exact ⟨count, r', returned, handed⟩

end Taktora.Ethercat

namespace Taktora.Gateway

open Can J1939 Ethercat Fallible List

inductive Pass where
  | can (iface : CanIface) (env : IfaceSurroundings) (t : IfaceTask)
  | j1939 (sourceAddr : UInt8) (env : Surroundings) (n : Node)
  | ethercat (registry : Ethercat.ChannelRegistry) (r : CycleRunner)

namespace Pass

def Accepted : Pass → Prop
  | can _ env _ => env.Sends ∧ ∀ c ∈ env.registry, c.direction = .outbound → c.Writable
  | j1939 _ env _ => env.Sends ∧ ∀ c ∈ env.registry, c.direction = .outbound → c.Writable
  | ethercat registry r =>
    ∀ c ∈ registry, c.direction = .rx → c.Writable ∧ (r.outputs c.routing.subdeviceAddress).isSome = true

/-- The pass returns and hands every queued message to the bus, in the order of its channel. -/
def HandsOver : Pass → Prop
  | can iface env t => CanDispatcher.drainOutboundOnce iface env t =
    .ok () (t.sends ((env.registry.iterIfaceDirection iface .outbound).flatMap Can.channelFrames))
  | j1939 sourceAddr env n => ∃ count, Dispatcher.sendOutboundOnce sourceAddr env n =
    .ok count (n.sends ((env.registry.iterDirection .outbound).flatMap (J1939.channelFrames sourceAddr)))
  | ethercat registry r => ∃ count r', EthercatDispatcher.dispatchOutbound registry 0 r = .ok count r' ∧
    Handed r (registry.flatMap channelWrites) r'

/-- No TP message is too short for a broadcast, and every message for a SubDevice covers a slice it holds. -/
def Framable : Pass → Prop
  | can _ _ _ => True
  | j1939 _ env _ => ∀ c ∈ env.registry.iterDirection .outbound, c.Segmentable
  | ethercat registry r => ∀ c ∈ registry, c.direction = .rx → c.Covers r.outputs

end Pass

/-- A pass hands over what the writers have queued exactly if every message can be framed. -/
theorem outbound_pass_hands_over (pass : Pass) (accepted : pass.Accepted) : pass.HandsOver ↔ pass.Framable := by
  cases pass with
  | can iface env t => exact iff_true_intro (pass_sends_all accepted.1 accepted.2)
  | j1939 sourceAddr env n => exact pass_sends_all_iff accepted.1 accepted.2
  | ethercat registry r => exact pass_writes_all_iff accepted

def canWriter (messages : List (List UInt8)) : Can.RegisteredChannel where
  descriptorName := "command"
  routing := ⟨CanHealthMonitor.vcan0, ⟨0x123, false⟩, 0x7FF, .classical⟩
  direction := .outbound
  binding := .outbound (messages.map .ok)

def j1939Writer (transport : TransportClass) (messages : List (List UInt8)) : J1939.RegisteredChannel where
  descriptorName := "status"
  routing := ⟨vehicleSpeed, none, none, transport, 6⟩
  direction := .outbound
  binding := .outbound (messages.map .ok)

def ethercatWriter (bitLength : UInt16) (messages : List (List UInt8)) : Ethercat.RegisteredChannel where
  descriptorName := "valve"
  routing := ⟨0x1001, .rx, 0, bitLength⟩
  direction := .rx
  binding := .outbound (messages.map .ok)

def valveRunner : CycleRunner where
  outputs address := if address = 0x1001 then some [0, 0] else none
  scheduler := ⟨1, none⟩
  health := (EthercatHealthMonitor.new.transitionTo .up).2
  expectedWkc := 3
  cycleIndex := 0
  written := []
  published := []

def canSending (writers : List Can.RegisteredChannel) : IfaceSurroundings :=
  { IfaceSurroundings.quiet none (.ok ()) [] with
    registry := writers, counted := writers, compiled := writers, reconnected := writers }

def j1939Sending (writers : List J1939.RegisteredChannel) : Surroundings :=
  { Surroundings.quiet 0 none with registry := writers }

theorem outbound_pass_hands_over_short :
    CanDispatcher.drainOutboundOnce CanHealthMonitor.vcan0 (canSending [canWriter [[1], [2]]]) .new =
      .ok () (IfaceTask.new.sends [⟨⟨0x123, false⟩, .classical, [1]⟩, ⟨⟨0x123, false⟩, .classical, [2]⟩]) ∧
      (∃ count n, Dispatcher.sendOutboundOnce 0x10 (j1939Sending [j1939Writer (.tp 16) [List.replicate 9 7]])
      defaultNode = .ok count n ∧ n.sent.length = 3) ∧
      ∃ count r, EthercatDispatcher.dispatchOutbound [ethercatWriter 16 [[1, 2], [3, 4]]] 0 valveRunner = .ok count r ∧
      r.written = [(⟨0x1001, .rx, 0, 16⟩, [1, 2]), (⟨0x1001, .rx, 0, 16⟩, [3, 4])] := by
  refine ⟨?_, ?_, ?_⟩
  · have writable : (canWriter [[1], [2]]).Writable := ⟨[[1], [2]], rfl, by decide⟩
    exact (outbound_pass_hands_over (.can _ (canSending [canWriter [[1], [2]]]) .new)
      ⟨fun _ _ => rfl, forall_mem_singleton.mpr fun _ => writable⟩).mpr trivial
  · have writable : (j1939Writer (.tp 16) [List.replicate 9 7]).Writable := by
      refine ⟨fun maxLen extended => ?_, [List.replicate 9 7], rfl, by decide⟩
      cases extended
    have segmentable : (j1939Writer (.tp 16) [List.replicate 9 7]).Segmentable := by
      intro _ messages bound message listed
      have same : messages.map Except.ok = [List.replicate 9 7].map Except.ok :=
        (ChannelBinding.outbound.inj bound).symm
      rw [map_injective_iff.mpr (fun _ _ => Except.ok.inj) same] at listed
      rw [mem_singleton.mp listed]
      decide
    obtain ⟨count, returned⟩ :=
      (outbound_pass_hands_over (.j1939 0x10 (j1939Sending [j1939Writer (.tp 16) [List.replicate 9 7]]) defaultNode)
        ⟨fun _ _ => rfl, forall_mem_singleton.mpr fun _ => writable⟩).mpr fun c member =>
        mem_singleton.mp (mem_filter.mp member).1 ▸ segmentable
    exact ⟨count, _, returned, by decide +kernel⟩
  · have covers : (ethercatWriter 16 [[1, 2], [3, 4]]).Covers valveRunner.outputs := by
      intro messages bound
      have same : messages.map Except.ok = [[1, 2], [3, 4]].map Except.ok := (ChannelBinding.outbound.inj bound).symm
      rw [map_injective_iff.mpr (fun _ _ => Except.ok.inj) same]
      have within : ∀ pdi, valveRunner.outputs 0x1001 = some pdi →
          (ethercatWriter 16 [[1, 2], [3, 4]]).routing.Within pdi.length := by
        rintro _ ⟨⟩
        exact .inr (by decide)
      refine forall_mem_cons.mpr ⟨⟨by decide, by decide, within⟩, ?_⟩
      exact forall_mem_singleton.mpr ⟨by decide, by decide, within⟩
    obtain ⟨count, r, returned, handed⟩ := (outbound_pass_hands_over (.ethercat [ethercatWriter 16 [[1, 2], [3, 4]]]
      valveRunner) (forall_mem_singleton.mpr fun _ => ⟨⟨rfl, _, rfl⟩, rfl⟩)).mpr (forall_mem_singleton.mpr fun _ =>
        covers)
    refine ⟨count, r, returned, ?_⟩
    rw [handed.rest]
    rfl

/-- A message that is too short for a broadcast, or for its slice, keeps all others from being sent. -/
theorem short_message_stops_pass :
    let j1939 := Dispatcher.sendOutboundOnce 0x10
      (j1939Sending [j1939Writer .singleFrame [[1, 2, 3]], j1939Writer (.tp 16) [[1, 2, 3]]])
    let ethercat := EthercatDispatcher.dispatchOutbound [ethercatWriter 16 [[1]], ethercatWriter 8 [[2]]] 0
    (j1939.run' defaultNode).isNone = true ∧ (final j1939 defaultNode).sent = [] ∧
      ethercat.run' valveRunner = none ∧ (final ethercat valveRunner).written = [] := by
  decide +kernel

end Taktora.Gateway
