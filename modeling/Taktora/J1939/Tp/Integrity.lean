import Taktora.J1939.Tp.Inbound
import Taktora.J1939.Tp.Wire

namespace Taktora.J1939

open Checked Packets LittleEndian OutboundConnSession List TpEngine

theorem sized_join2 {size : Nat} (bound : size ≤ tpMaxPayload) : join2 (byteAt size 0) (byteAt size 1) = size := by
  rw [tpMaxPayload] at bound
  rw [join2_byteAt]
  omega

theorem sized_packets {size : Nat} (bound : size ≤ tpMaxPayload) :
    (UInt8.ofNat (packetsFor size)).toNat = packetsFor size :=
  ofNat_toNat (Nat.lt_succ_of_le (packetsFor_tp bound))

section

variable {size : Nat} (sized : tpMinPayload ≤ size ∧ size ≤ tpMaxPayload)
include sized

theorem bamFrame_announcement (sourceAddr priority : UInt8) (pgn : Pgn) :
    announcement (bamFrame sourceAddr priority pgn size).decoded (bamFrame sourceAddr priority pgn size).data.1 =
      some ⟨.bam, (sourceAddr, pgn), size⟩ := by
  have parsed := cmBytes_pgn bamControl (byteAt size 0) (byteAt size 1) (UInt8.ofNat (packetsFor size)) 0xFF pgn
  have wire : (wireId cmPgn priority sourceAddr globalAddress).pgn.value = tpCmPgn := rfl
  rw [bamFrame, cmFrame_decoded rfl, announcement, cmFrame_bytes]
  simp only [wire, bamAnnouncement, parsed]
  simp only [cmBytes, wireId, sized_join2 sized.2, sized_packets sized.2, sized, and_self, ite_true]

theorem rtsFrame_parse (ourSa destSa priority : UInt8) (pgn : Pgn) (maxPerCts : UInt8) :
    parseConnRts (wireId cmPgn priority ourSa destSa)
        (cmBytes rtsControl (byteAt size 0) (byteAt size 1) (UInt8.ofNat (packetsFor size)) maxPerCts pgn) =
      if destSa = globalAddress then none
      else some ⟨destSa, ourSa, UInt8.ofNat (priority.toNat % 8), size, packetsFor size, maxPerCts, pgn⟩ := by
  rw [parseConnRts, cmBytes_pgn]
  by_cases broadcast : destSa = globalAddress
  · simp [wireId, broadcast, Option.filter_some]
  · simp [wireId, cmBytes, sized_join2 sized.2, sized_packets sized.2, sized, broadcast, Except.toOption,
      Option.filter_some]

theorem rtsFrame_announcement (ourSa destSa priority : UInt8) (pgn : Pgn) (maxPerCts : UInt8) :
    announcement (rtsFrame ourSa destSa priority pgn size (packetsFor size) maxPerCts).decoded
        (rtsFrame ourSa destSa priority pgn size (packetsFor size) maxPerCts).data.1 =
      if destSa = globalAddress then none else some ⟨.conn, (ourSa, pgn), size⟩ := by
  have parsed := rtsFrame_parse sized ourSa destSa priority pgn maxPerCts
  have wire : (wireId cmPgn priority ourSa destSa).pgn.value = tpCmPgn := rfl
  rw [rtsFrame, cmFrame_decoded rfl, announcement, cmFrame_bytes]
  simp only [wire]
  by_cases broadcast : destSa = globalAddress
  · rw [if_pos broadcast] at parsed ⊢
    rw [parsed]
    rfl
  · rw [if_neg broadcast] at parsed ⊢
    rw [parsed]
    rfl

end

structure Speaks (key : Key) (payload : List UInt8) (f : TpOutFrame) : Prop where
  source : f.decoded.sourceAddr = key.1
  announces : ∀ a, announcement f.decoded f.data.1 = some a → a.kind ≠ .etp ∧ a.key = key ∧ a.totalSize = payload.length
  carries : ∀ kind seq rest, dataKind f.decoded = some kind → f.data.1 = seq :: rest →
    kind ≠ .etp ∧ rest = padded tpDtDataLen 0xFF (packet tpDtDataLen payload seq.toNat)

theorem dtFrame_speaks (priority source dest : UInt8) (pgn : Pgn) (payload : List UInt8) {p : Nat} (small : p ≤ 255) :
    Speaks (source, pgn) payload (dtFrame dtPgn priority source dest payload p p) := by
  refine ⟨?_, ?_, ?_⟩
  · rw [dtFrame_decoded rfl]
    rfl
  · intro a announced
    rw [dtFrame_decoded rfl, announcement_data (dataKind_dt priority source dest)] at announced
    cases announced
  · intro kind seq rest dt bytes
    rw [dtFrame_decoded rfl, dataKind_dt] at dt
    obtain ⟨rfl, rfl⟩ := cons.inj bytes
    rw [ofNat_toNat (Nat.lt_succ_of_le small)]
    refine ⟨?_, rfl⟩
    rintro rfl
    split at dt <;> cases dt

/-- The frames a sender can produce for one message, as a broadcast or over a connection. -/
inductive MessageFrame (pgn : Pgn) (priority source : UInt8) (payload : List UInt8) : TpOutFrame → Prop where
  | broadcast {frames f} (segmented : segmentOutbound pgn priority source payload = .ok (.ok frames))
      (member : f ∈ frames) : MessageFrame pgn priority source payload f
  | request {sender sender' : TpEngine} {dest now frames f}
      (started : sender.startOutboundConnection pgn priority source dest payload now = (.ok frames, sender'))
      (member : f ∈ frames) : MessageFrame pgn priority source payload f
  | data {sender sender' : TpEngine} {dest now frames s later start count burst f}
      (started : sender.startOutboundConnection pgn priority source dest payload now = (.ok frames, sender'))
      (found : sender'.txConn.lookup (dest, pgn) = some s) (byte : start ≤ 255)
      (built : buildDtBurst (s.touch later) start count = .ok burst) (member : f ∈ burst) :
      MessageFrame pgn priority source payload f

section

variable {payload : List UInt8} {priority source : UInt8} {frames : List TpOutFrame}

theorem segmentOutbound_sized {pgn : Pgn}
    (segmented : segmentOutbound pgn priority source payload = .ok (.ok frames)) :
    tpMinPayload ≤ payload.length ∧ payload.length ≤ tpMaxPayload := by
  unfold segmentOutbound at segmented
  dsimp only at segmented
  split at segmented
  · cases segmented
  · rename_i sized
    exact not_not.mp sized

theorem startOutboundConnection_eq {sender sender' : TpEngine} {pgn : Pgn} {dest : UInt8} {now : Nat}
    (started : sender.startOutboundConnection pgn priority source dest payload now = (.ok frames, sender')) :
    (tpMinPayload ≤ payload.length ∧ payload.length ≤ tpMaxPayload) ∧
      frames = [rtsFrame source dest priority pgn payload.length (packetsFor payload.length) ctsNoLimit] ∧
      sender' = { sender with
        txConn := sender.txConn.insert (dest, pgn) (opened pgn priority source dest payload now) } := by
  unfold startOutboundConnection at started
  dsimp only at started
  split at started
  · cases started
  · rename_i sized
    have sized := not_not.mp sized
    have packets : packetsFor payload.length % 256 = packetsFor payload.length :=
      Nat.mod_eq_of_lt (Nat.lt_succ_of_le (packetsFor_tp sized.2))
    cases started
    rw [packets]
    refine ⟨sized, rfl, ?_⟩
    rw [opened, packets]

theorem MessageFrame.speaks {pgn : Pgn} {f : TpOutFrame}
    (frame : MessageFrame pgn priority source payload f) : Speaks (source, pgn) payload f := by
  cases frame with
  | broadcast segmented member =>
    have sized := segmentOutbound_sized segmented
    rw [segmentOutbound_eq sized] at segmented
    cases segmented
    rcases mem_cons.mp member with rfl | member
    · refine ⟨by rw [bamFrame, cmFrame_decoded rfl]; rfl, fun a announced => ?_, fun kind seq rest dt => ?_⟩
      · rw [bamFrame_announcement sized] at announced
        cases announced
        exact ⟨nofun, rfl, rfl⟩
      · rw [bamFrame, cmFrame_decoded rfl] at dt
        cases dt
    · obtain ⟨j, inside, rfl⟩ := mem_map.mp member
      have bound := packetsFor_tp sized.2
      exact dtFrame_speaks _ _ _ _ _ (le_trans (mem_range.mp inside) bound)
  | request started member =>
    obtain ⟨sized, rfl, rfl⟩ := startOutboundConnection_eq started
    obtain rfl := mem_singleton.mp member
    refine ⟨by rw [rtsFrame, cmFrame_decoded rfl]; rfl, fun a announced => ?_, fun kind seq rest dt => ?_⟩
    · rw [rtsFrame_announcement sized] at announced
      split at announced
      · cases announced
      · cases announced
        exact ⟨nofun, rfl, rfl⟩
    · rw [rtsFrame, cmFrame_decoded rfl] at dt
      cases dt
  | data started found byte built member =>
    rename_i sender sender' dest now frames s later start count burst
    obtain ⟨sized, _, rfl⟩ := startOutboundConnection_eq started
    cases (AList.lookup_insert _).symm.trans found
    have valid := (opened_valid sized pgn priority source dest now)
    have touched : (touch (opened pgn priority source dest payload now) later).Valid (dest, pgn) := { valid with }
    rcases Nat.eq_zero_or_pos start with rfl | positive
    · rw [buildDtBurst_zero] at built
      cases built
      cases member
    · rw [buildDtBurst_eq touched positive byte] at built
      cases built
      obtain ⟨p, inside, rfl⟩ := mem_map.mp member
      rw [mem_range'_1] at inside
      have bound := packetsFor_tp sized.2
      exact dtFrame_speaks _ _ _ _ _ (by simp only [touch, opened] at inside; omega)

/-- The session has received exactly the packets before `next`. -/
structure Faithful (payload : List UInt8) (r : Reassembly) : Prop where
  size : r.totalSize = payload.length
  offset : r.offset = 0
  received : r.received = payload.take ((r.next - 1) * tpDtDataLen)

end

namespace TpEngine

def HoldsOnly (e : TpEngine) (key : Key) (payload : List UInt8) : Prop :=
  ∀ kind other r, kind ≠ .etp → other.1 = key.1 → e.inbound kind other = some r → other = key ∧ Faithful payload r

def Hears (key : Key) (payload : List UInt8) (i : TpInput) : Prop :=
  ∀ decoded data now, i = .frame decoded data now → ∃ f, Speaks key payload f ∧ decoded = f.decoded ∧ data = f.data.1

theorem Hears.carries {key : Key} {payload : List UInt8} {i : TpInput}
    (hears : Hears key payload i)
    {decoded : DecodedId} {seq : UInt8} {rest : List UInt8} {now : Nat}
    (frame : i = .frame decoded (seq :: rest) now)
    {kind : SessionKind}
    (data : dataKind decoded = some kind) :
    decoded.sourceAddr = key.1 ∧ kind ≠ .etp ∧
      rest = padded tpDtDataLen 0xFF (packet tpDtDataLen payload seq.toNat) := by
  obtain ⟨f, speaks, rfl, bytes⟩ := hears decoded (seq :: rest) now frame
  exact ⟨speaks.source, speaks.carries kind seq rest data bytes.symm⟩

variable {e e' : TpEngine} {call : TpInput × List TpEvent} {key : Key} {payload : List UInt8}

section

variable (only : e.HoldsOnly key payload)
include only

theorem HoldsOnly.accept
    (wf : e.WellFormed)
    {i : TpInput}
    (hears : Hears key payload i)
    {decoded : DecodedId} {seq : UInt8} {rest : List UInt8} {now : Nat}
    (frame : i = .frame decoded (seq :: rest) now)
    {kind : SessionKind} {other : Key} {r : Reassembly}
    (data : dataKind decoded = some kind)
    (sent : decoded.sourceAddr = other.1)
    (held : e.inbound kind other = some r)
    (expected : r.Expects seq) :
    other = key ∧ Faithful payload r ∧ r.packets = packetsFor payload.length ∧
      (r.accept kind rest).received = payload.take (r.next * tpDtDataLen) := by
  obtain ⟨source, plain, rfl⟩ := hears.carries frame data
  obtain ⟨rfl, faithful⟩ := only kind other r plain (sent.symm.trans source) held
  obtain ⟨size, packets, positive, inside⟩ := wf.inbound held
  have start := packetsFor_short size (packets ▸ inside)
  rw [(expects_seq faithful.offset).mp expected]
  exact ⟨rfl, faithful, faithful.size ▸ packets,
    Reassembly.accept_packet faithful.size faithful.received positive (le_of_lt start) kind⟩

theorem HoldsOnly.step
    (wf : e.WellFormed)
    (hears : Hears key payload call.1)
    (step : e.Step call e') : e'.HoldsOnly key payload := by
  intro kind other r' plain same held'
  have advance := step.advance wf kind other
  rw [held'] at advance
  generalize before : e.inbound kind other = old at advance
  cases advance with
  | kept => exact only kind other r' plain same before
  | opened old frame announced admitted kind_eq key_eq quiet =>
    obtain ⟨f, speaks, rfl, rfl⟩ := hears _ _ _ frame
    obtain ⟨_, key_eq', size⟩ := speaks.announces _ announced
    exact ⟨key_eq.symm.trans key_eq', size, rfl, rfl⟩
  | rebased frame named kind_eq quiet => exact absurd kind_eq plain
  | accepted frame data source expected more quiet =>
    obtain ⟨own, faithful, _, received⟩ := only.accept wf hears frame data source before expected
    exact ⟨own, faithful.size, faithful.offset, received⟩

theorem HoldsOnly.completes
    (wf : e.WellFormed)
    (hears : Hears key payload call.1)
    (step : e.Step call e')
    {pgn : Pgn} {source : UInt8} {delivered : List UInt8}
    (reported : .completed pgn source delivered ∈ call.2) :
    (source, pgn) = key ∧ delivered = payload := by
  obtain ⟨_, _, _, _, _, r, frame, data, sent, held, expected, last, rfl⟩ := step.completes wf reported
  obtain ⟨own, _, packets, received⟩ := only.accept wf hears frame data sent held expected
  have covers := packetsFor_covers payload.length
  rw [received]
  exact ⟨own, take_complete (le_trans covers (Nat.mul_le_mul_right 7 (packets ▸ last)))⟩

end

/-- However its frames are dropped, repeated or reordered, what a receiver delivers is the message. -/
theorem message_survives_any_frames (timers : TpTimers) (maxSessions : Nat) (window : UInt8) (limit : Nat)
    (earlier : List (TpInput × List TpEvent)) (receiver : TpEngine)
    (reached : Run Step (configured timers maxSessions window limit) earlier receiver)
    (pgn : Pgn) (priority source : UInt8) (payload : List UInt8)
    (alone : ∀ kind key, key.1 = source → receiver.inbound kind key = none)
    (history : List (TpInput × List TpEvent)) (final : TpEngine)
    (run : Run Step receiver history final)
    (drawn : ∀ call ∈ history, ∀ decoded data now, call.1 = .frame decoded data now →
      ∃ f, MessageFrame pgn priority source payload f ∧ decoded = f.decoded ∧ data = f.data.1) :
    ∀ call ∈ history, ∀ pgn' source' delivered, .completed pgn' source' delivered ∈ call.2 → pgn' = pgn ∧
      source' = source ∧ delivered = payload := by
  have wf := run_wellFormed (configured_wellFormed timers maxSessions window limit) reached
  have only : receiver.HoldsOnly (source, pgn) payload := fun kind other r _ same held =>
    nomatch (alone kind other same).symm.trans held
  suffices final.WellFormed ∧ final.HoldsOnly (source, pgn) payload ∧
      ∀ call ∈ history, ∀ pgn' source' delivered, .completed pgn' source' delivered ∈ call.2 →
        pgn' = pgn ∧ source' = source ∧ delivered = payload from this.2.2
  induction run with
  | nil => exact ⟨wf, only, nofun⟩
  | snoc before last ih =>
    obtain ⟨wf, only, delivered⟩ := ih fun call member => drawn call (mem_append_left _ member)
    have hears : Hears (source, pgn) payload _ := fun decoded data now fed => by
      obtain ⟨f, frame, same⟩ := drawn _ (mem_append_right _ (mem_singleton_self _)) decoded data now fed
      exact ⟨f, frame.speaks, same⟩
    refine ⟨wf.step last, only.step wf hears last, fun call member pgn' source' bytes reported => ?_⟩
    rcases mem_append.mp member with member | member
    · exact delivered call member pgn' source' bytes reported
    · obtain rfl := mem_singleton.mp member
      obtain ⟨key_eq, rfl⟩ := only.completes wf hears last reported
      cases key_eq
      exact ⟨rfl, rfl, rfl⟩

theorem message_survives_any_frames_repeated :
    ∃ final,
      Run Step (configured ⟨750, 1250, 1250⟩ 4 16 0)
      [(.frame (decodeExtendedId 0x18EBFF80) [1, 10, 11, 12, 13, 14, 15, 16] 0, []),
      (.frame (decodeExtendedId 0x18ECFF80) [0x20, 9, 0, 2, 0xFF, 0xF6, 0xFE, 0] 1, []),
      (.frame (decodeExtendedId 0x18EBFF80) [1, 10, 11, 12, 13, 14, 15, 16] 2, []),
      (.frame (decodeExtendedId 0x18EBFF80) [1, 10, 11, 12, 13, 14, 15, 16] 3, []),
      (.frame (decodeExtendedId 0x18EBFF80) [2, 17, 18, 0xFF, 0xFF, 0xFF, 0xFF, 0xFF] 4,
      [.completed ⟨65270, by decide⟩ 0x80 [10, 11, 12, 13, 14, 15, 16, 17, 18]])] final ∧
      ∀ call ∈ [((.frame (decodeExtendedId 0x18EBFF80) [2, 17, 18, 0xFF, 0xFF, 0xFF, 0xFF, 0xFF] 4 : TpInput),
      [TpEvent.completed ⟨65270, by decide⟩ 0x80 [10, 11, 12, 13, 14, 15, 16, 17, 18]])], ∀ pgn' source' delivered,
      .completed pgn' source' delivered ∈ call.2 → pgn' = ⟨65270, by decide⟩ ∧ source' = 0x80 ∧
      delivered = [10, 11, 12, 13, 14, 15, 16, 17, 18] := by
  have run : Run Step (configured ⟨750, 1250, 1250⟩ 4 16 0) _ _ := .snoc (.snoc (.snoc (.snoc (.snoc .nil
      (Step.of_handle (i := .frame (decodeExtendedId 0x18EBFF80) [1, 10, 11, 12, 13, 14, 15, 16] 0) rfl))
      (Step.of_handle (i := .frame (decodeExtendedId 0x18ECFF80) [0x20, 9, 0, 2, 0xFF, 0xF6, 0xFE, 0] 1) rfl))
      (Step.of_handle (i := .frame (decodeExtendedId 0x18EBFF80) [1, 10, 11, 12, 13, 14, 15, 16] 2) rfl))
      (Step.of_handle (i := .frame (decodeExtendedId 0x18EBFF80) [1, 10, 11, 12, 13, 14, 15, 16] 3) rfl))
      (Step.of_handle (i := .frame (decodeExtendedId 0x18EBFF80) [2, 17, 18, 0xFF, 0xFF, 0xFF, 0xFF, 0xFF] 4) rfl)
  have segmented : segmentOutbound ⟨65270, by decide⟩ 6 0x80 [10, 11, 12, 13, 14, 15, 16, 17, 18] = .ok (.ok _) := rfl
  refine ⟨_, run, fun call member => message_survives_any_frames _ _ _ _ [] _ .nil ⟨65270, by decide⟩ 6 0x80
    [10, 11, 12, 13, 14, 15, 16, 17, 18] (fun kind key _ => configured_inbound _ _ _ _ kind key) _ _ run ?_ call ?_⟩
  · simp only [nil_append, cons_append, forall_mem_cons]
    refine ⟨?_, ?_, ?_, ?_, ?_, forall_mem_nil _⟩ <;> intro decoded data now fed <;> cases fed
    · exact ⟨_, .broadcast segmented (mem_of_getElem? (i := 1) rfl), rfl, rfl⟩
    · exact ⟨_, .broadcast segmented (mem_of_getElem? (i := 0) rfl), rfl, rfl⟩
    · exact ⟨_, .broadcast segmented (mem_of_getElem? (i := 1) rfl), rfl, rfl⟩
    · exact ⟨_, .broadcast segmented (mem_of_getElem? (i := 1) rfl), rfl, rfl⟩
    · exact ⟨_, .broadcast segmented (mem_of_getElem? (i := 2) rfl), rfl, rfl⟩
  · obtain rfl := mem_singleton.mp member
    exact mem_append_right _ (mem_singleton_self _)

end TpEngine

end Taktora.J1939
