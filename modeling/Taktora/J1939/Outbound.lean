import Taktora.Lib.Collect
import Taktora.J1939.Iteration
import Taktora.J1939.Tp.Wire

namespace Taktora.J1939

open Can Checked Dispatcher List TpEngine

variable (routing : J1939Routing)

def J1939Routing.Carries (pending : Except ConnectorError (List UInt8)) : Prop :=
  ∃ message, pending = .ok message ∧
    if routing.transport.isTp then tpMinPayload ≤ message.length ∧ message.length ≤ routing.transport.maxPayload
    else message.length ≤ singleFrameLen

def messageFrames (sa : UInt8) (message : List UInt8) : List CanData :=
  if routing.transport.isTp then
    (bamFrame sa routing.priority routing.pgn message.length ::
      (List.range (packetsFor message.length)).map fun j =>
        dtFrame dtPgn routing.priority sa globalAddress message (j + 1) (j + 1)).map fun f => (tpParts f).frame
  else [⟨⟨encodeExtendedId routing.pgn routing.priority sa routing.destAddr, true⟩, .classical, message⟩]

def pendingFrames (sa : UInt8) (pending : Except ConnectorError (List UInt8)) : List CanData :=
  pending.toOption.elim [] (messageFrames routing sa)

def RegisteredChannel.Carried (channel : RegisteredChannel) : Prop :=
  ∀ pending, channel.binding = .outbound pending → ∀ message ∈ pending, channel.routing.Carries message

def channelFrames (sourceAddr : UInt8) (channel : RegisteredChannel) : List CanData :=
  match channel.binding with
  | .outbound pending =>
    pending.flatMap (pendingFrames channel.routing (channel.routing.sourceAddr.getD sourceAddr))
  | _ => []

theorem TransportClass.maxPayload_le_of_isTp {transport : TransportClass} (tp : transport.isTp = true) :
    transport.maxPayload ≤ tpMaxLen := by
  cases transport with
  | singleFrame | etp => cases tp
  | tp maxLen =>
    show (if maxLen > tpMaxLen then tpMaxLen else maxLen) ≤ tpMaxLen
    split
    · exact le_refl _
    · rename_i within
      exact not_lt.mp within

section Jobs

variable {routing : J1939Routing} {sa : UInt8} {jobs : List CanData} {pending : Except ConnectorError (List UInt8)}

theorem drained_eq_ok {capacity : Nat} {written : List UInt8} :
    drained capacity pending = .ok written ↔ pending = .ok written ∧ written.length ≤ capacity := by
  rw [← drainInto_eq_ok, drained]
  cases drainInto capacity pending with
  | ok envelope => exact ⟨fun same => congrArg Except.ok (Except.ok.inj same), fun same => by rw [same]; rfl⟩
  | error e =>
    constructor
    · intro impossible
      cases impossible
    · intro impossible
      cases impossible

def segmentedJob (routing : J1939Routing) (sa : UInt8) (pending : Except ConnectorError (List UInt8)) :
    Except Failure (List CanData) := do
  let written ← drained routing.transport.maxPayload pending
  match segmentOutbound routing.pgn routing.priority sa written with
  | .error p => .error (.panicked p)
  | .ok (.error e) => .error (ioErr ("segment_outbound: " ++ e.text))
  | .ok (.ok frames) => encodeAll (frames.map tpParts)

theorem segmentedJobs_eq_collect (pending : List (Except ConnectorError (List UInt8))) :
    segmentedJobs routing sa pending = collect (segmentedJob routing sa) pending := by
  induction pending with
  | nil => rfl
  | cons message rest ih =>
    rw [segmentedJobs, collect, segmentedJob, ih]
    cases drained routing.transport.maxPayload message with
    | error e => rfl
    | ok written =>
      simp only [bind, Except.bind]
      rcases segmentOutbound routing.pgn routing.priority sa written with p | e | _
      · rfl
      · rfl
      · rfl

theorem segmentedJob_eq (tp : routing.transport.isTp = true)
    (carries : routing.Carries pending) : segmentedJob routing sa pending = .ok (pendingFrames routing sa pending) := by
  obtain ⟨message, rfl, sized⟩ := carries
  rw [if_pos tp] at sized
  have short : message.length ≤ tpMaxPayload := sized.2.trans (TransportClass.maxPayload_le_of_isTp tp)
  have fit : ∀ f : TpOutFrame, (tpParts f).data.length ≤ 8 := fun f => f.data.2.le
  rw [segmentedJob, drained_eq_ok.mpr ⟨rfl, sized.2⟩]
  simp only [bind, Except.bind]
  rw [segmentOutbound_eq ⟨sized.1, short⟩]
  show encodeAll _ = .ok (messageFrames routing sa message)
  rw [encodeAll_eq, messageFrames, if_pos tp, map_map]
  · rfl
  · intro f member
    obtain ⟨g, _, rfl⟩ := mem_map.mp member
    exact fit g

theorem carries_of_segmentedJob (tp : routing.transport.isTp = true)
    (segmented : segmentedJob routing sa pending = .ok jobs) : routing.Carries pending := by
  obtain ⟨message, written, cut⟩ := bind_ok segmented
  obtain ⟨rfl, short⟩ := drained_eq_ok.mp written
  refine ⟨message, rfl, ?_⟩
  rw [if_pos tp]
  by_cases sized : tpMinPayload ≤ message.length ∧ message.length ≤ tpMaxPayload
  · exact ⟨sized.1, short⟩
  · have refused : segmentOutbound routing.pgn routing.priority sa message =
        .ok (.error (.payloadOutOfRange message.length)) := by
      rw [segmentOutbound, if_pos sized]
    rw [refused] at cut
    cases cut

def singleFrameJob (id : CanId) (pending : Except ConnectorError (List UInt8)) : Except Failure (List CanData) := do
  let written ← drained singleFrameLen pending
  let frame ← buildFrame id written
  .ok [frame]

theorem singleFrameJobs_eq_collect (id : CanId) (pending : List (Except ConnectorError (List UInt8))) :
    singleFrameJobs id pending = collect (singleFrameJob id) pending := by
  induction pending with
  | nil => rfl
  | cons message rest ih =>
    rw [singleFrameJobs, collect, singleFrameJob, ih]
    simp only [bind, Except.bind]
    cases drained singleFrameLen message with
    | error e => rfl
    | ok written =>
      dsimp only
      cases buildFrame id written with
      | error | ok => rfl

theorem singleFrameJob_eq (single : routing.transport.isTp = false)
    (carries : routing.Carries pending) :
    singleFrameJob ⟨encodeExtendedId routing.pgn routing.priority sa routing.destAddr, true⟩ pending =
      .ok (pendingFrames routing sa pending) := by
  obtain ⟨message, rfl, sized⟩ := carries
  rw [single] at sized
  rw [singleFrameJob, drained_eq_ok.mpr ⟨rfl, sized⟩]
  simp only [bind, Except.bind]
  rw [buildFrame_eq sized]
  show _ = Except.ok (messageFrames routing sa message)
  rw [messageFrames, single]
  rfl

theorem carries_of_singleFrameJob
    (single : routing.transport.isTp = false)
    {id : CanId}
    (built : singleFrameJob id pending = .ok jobs) : routing.Carries pending := by
  obtain ⟨message, drained, _⟩ := bind_ok built
  obtain ⟨rfl, short⟩ := drained_eq_ok.mp drained
  refine ⟨message, rfl, ?_⟩
  rw [single]
  exact short

theorem channelJobs_eq_ok_iff {sourceAddr : UInt8} {channel : RegisteredChannel} :
    channelJobs sourceAddr channel = .ok jobs ↔ channel.Carried ∧ jobs = channelFrames sourceAddr channel := by
  have idle (other : ∀ pending, channel.binding ≠ .outbound pending) : channel.Carried :=
    fun pending bound => absurd bound (other pending)
  unfold channelJobs channelFrames
  cases bound : channel.binding with
  | unbound | inbound =>
    have carried := idle fun pending same => by cases bound.symm.trans same
    exact ⟨fun collected => ⟨carried, (Except.ok.inj collected).symm⟩, fun collected => collected.2 ▸ rfl⟩
  | outbound pending =>
    have carried : channel.Carried ↔ ∀ message ∈ pending, channel.routing.Carries message := by
      constructor
      · exact fun carried => carried pending bound
      · intro carries _ same
        cases bound.symm.trans same
        exact carries
    rw [carried]
    cases tp : channel.routing.transport.isTp with
    | true =>
      dsimp only
      rw [segmentedJobs_eq_collect]
      exact collect_eq_ok_iff (fun _ carries => segmentedJob_eq tp carries) fun _ _ => carries_of_segmentedJob tp
    | false =>
      dsimp only
      rw [extendedId_eq]
      show singleFrameJobs _ pending = _ ↔ _
      rw [singleFrameJobs_eq_collect]
      exact collect_eq_ok_iff (fun _ carries => singleFrameJob_eq tp carries) fun _ _ => carries_of_singleFrameJob tp

theorem collectFrom_eq_collect (sourceAddr : UInt8) (channels : List RegisteredChannel) :
    collectFrom sourceAddr channels = collect (channelJobs sourceAddr) channels := by
  induction channels with
  | nil => rfl
  | cons channel rest ih =>
    rw [collectFrom, collect, ih]

theorem collectOutboundJobs_eq_ok_iff {sourceAddr : UInt8} {registry : J1939Registry} :
    collectOutboundJobs sourceAddr registry = .ok jobs ↔ (∀ c ∈ registry.iterDirection .outbound, c.Carried) ∧
      jobs = (registry.iterDirection .outbound).flatMap (channelFrames sourceAddr) := by
  rw [collectOutboundJobs, collectFrom_eq_collect]
  exact collect_eq_ok_iff (fun _ carried => channelJobs_eq_ok_iff.mpr ⟨carried, rfl⟩)
    fun _ _ collected => (channelJobs_eq_ok_iff.mp collected).1

end Jobs

section Addresses

variable {routing : J1939Routing} {sa : UInt8} {message : List UInt8} {frame : CanData} {channel : RegisteredChannel}

theorem messageFrames_source (sent : frame ∈ messageFrames routing sa message) :
    (decodeExtendedId frame.id.value).sourceAddr = sa := by
  unfold messageFrames at sent
  split at sent
  · obtain ⟨f, member, rfl⟩ := mem_map.mp sent
    have own : f.sourceAddr = sa := by
      rcases mem_cons.mp member with rfl | member
      · rfl
      · obtain ⟨j, _, rfl⟩ := mem_map.mp member
        rfl
    exact (decode_encode_source _ _ _ _).trans own
  · rw [mem_singleton.mp sent]
    exact decode_encode_source _ _ _ _

theorem channelFrames_mem {sourceAddr : UInt8}
    (sent : frame ∈ channelFrames sourceAddr channel) :
    ∃ message, frame ∈ messageFrames channel.routing (channel.routing.sourceAddr.getD sourceAddr) message := by
  unfold channelFrames at sent
  split at sent
  · obtain ⟨pending, _, sent⟩ := mem_flatMap.mp sent
    cases pending with
    | error e => cases sent
    | ok message => exact ⟨message, sent⟩
  · cases sent

theorem channelFrames_source {sourceAddr : UInt8}
    (sent : frame ∈ channelFrames sourceAddr channel) :
    (decodeExtendedId frame.id.value).sourceAddr = channel.routing.sourceAddr.getD sourceAddr := by
  obtain ⟨_, sent⟩ := channelFrames_mem sent
  exact messageFrames_source sent

end Addresses

end Taktora.J1939
