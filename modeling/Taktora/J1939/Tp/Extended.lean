import Taktora.J1939.Tp.Exchange
import Taktora.J1939.Tp.Sender

namespace Taktora.J1939

open Checked LittleEndian Packets TpEngine List Option Except

theorem etpRtsFrame_parse (ourSa destSa priority : UInt8) (pgn : Pgn) (size : Nat) :
    parseEtpRts (wireId etpCm priority ourSa destSa)
        (cmBytes etpRtsControl (byteAt (size % 2 ^ 32) 0) (byteAt (size % 2 ^ 32) 1) (byteAt (size % 2 ^ 32) 2)
          (byteAt (size % 2 ^ 32) 3) pgn) =
      if destSa = globalAddress then none
      else if etpMinPayload ≤ size % 2 ^ 32 ∧ size % 2 ^ 32 ≤ etpProtocolMax then
        some ⟨destSa, ourSa, UInt8.ofNat (priority.toNat % 8), size % 2 ^ 32, pgn⟩
      else none := by
  have joined := (join4_byteAt (size % 2 ^ 32)).trans (Nat.mod_mod size (2 ^ 32))
  rw [parseEtpRts, cmBytes_pgn]
  by_cases broadcast : destSa = globalAddress
  · simp [wireId, broadcast, filter_some]
  · simp only [wireId, filter_some, bne_iff_ne, ne_eq, broadcast, not_false_eq_true, ite_true, ite_false, cmBytes,
      Except.toOption, bind_eq_bind, bind_some, joined]

theorem dataKind_etpDt (priority sourceAddr destAddr : UInt8) :
    dataKind (wireId etpDt priority sourceAddr destAddr) = some .etp := by
  have wire : (wireId etpDt priority sourceAddr destAddr).pgn.value = etpDtPgn := rfl
  rw [dataKind, wire, if_neg (by decide), if_pos rfl]

namespace TpEngine

variable {decoded : DecodedId} {rest bytes buf : List UInt8} {seq : UInt8} {key : Key} {now : Nat}

variable {e : TpEngine}

theorem onFrame_etpDt (dt : decoded.pgn.value = etpDtPgn) :
    e.onFrame decoded (seq :: rest) now = e.onEtpDt decoded (seq :: rest) now := by
  rw [onFrame, dt, if_neg (by decide), if_neg (by decide), if_neg (by decide), if_pos rfl]

theorem onEtpDt_taken {s : InboundEtpSession} (takes : InboundEtpSession.Takes e decoded seq rest bytes buf key s)
    (small : s.nextPacket + 1 < 2 ^ 32) (now : Nat) : e.onEtpDt decoded (seq :: rest) now =
      if s.totalPackets < s.nextPacket + 1 then
        .ok ([.completed s.transportedPgn s.peerSa buf], { e with
            etpRx := e.etpRx.erase key
            pendingOut := e.pendingOut ++ [etpEomaFrame s.ourSa s.peerSa s.priority s.transportedPgn s.totalSize] })
      else if s.burstRemaining - 1 = 0 then
        let window := etpGrant (s.totalPackets - s.nextPacket) e.ctsWindow
        .ok ([], { e with
          etpRx := e.etpRx.insert key (s.accept buf now)
          pendingOut := e.pendingOut ++
            [etpCtsFrame s.ourSa s.peerSa s.priority s.transportedPgn window (s.nextPacket + 1)] })
      else .ok ([], { e with etpRx := e.etpRx.insert key (s.accept buf now) }) := by
  obtain ⟨⟨_, chosen, found⟩, expected, _, inside, taken, written⟩ := takes
  have accepted : ¬ (s.nextPacket ≠ s.nextPacket ∨ s.nextPacket = 0 ∨ s.nextPacket > s.totalPackets) := by omega
  rw [onEtpDt, if_neg (cons_ne_nil _ _), index_zero, ok_bind]
  simp only [chosen]
  rw [expect_ok found, ok_bind]
  simp only [expected]
  rw [if_neg accepted, sub_ok (by omega), ok_bind, takenBytes_cons, ok_bind, ← taken, written, ok_bind, add_ok small,
    ok_bind]
  by_cases last : s.totalPackets < s.nextPacket + 1
  · simp only [last, ite_true]
  · simp only [last, ite_false]
    split
    · rw [sub_ok (Nat.le_add_left 1 _), ok_bind, Nat.add_sub_cancel, sub_ok inside]
      rfl
    · rfl

end TpEngine

structure Extended where
  pgn : Pgn
  priority : UInt8
  ourSa : UInt8
  destSa : UInt8
  payload : List UInt8
  specific : destSa ≠ globalAddress
  sized : etpMinPayload ≤ payload.length ∧ payload.length ≤ etpProtocolMax

namespace Extended

variable (c : Extended)

def packets : Nat := packetsFor c.payload.length

def wirePriority : UInt8 := UInt8.ofNat (c.priority.toNat % 8)

def request : TpOutFrame := etpRtsFrame c.ourSa c.destSa c.priority c.pgn c.payload.length

def outbound (start : Nat) : OutboundEtpSession := .opened c.pgn c.priority c.ourSa c.destSa c.payload start

variable (window : UInt8)

def granted (k : Nat) : Nat := etpGrant (c.packets + 1 - k) window

def clear (k : Nat) : TpOutFrame :=
  etpCtsFrame c.destSa c.ourSa c.wirePriority c.pgn (c.granted window k) k

def header (count k : Nat) : TpOutFrame := etpDpoFrame c.ourSa c.destSa c.priority c.pgn count (k - 1)

def frame (seq p : Nat) : TpOutFrame := dtFrame etpDt c.priority c.ourSa c.destSa c.payload seq p

def burst (k : Nat) : List TpOutFrame :=
  c.header (c.granted window k) k ::
    (List.range' 0 (c.granted window k)).map fun j => c.frame (j + 1) (k + j)

def acknowledge : TpOutFrame := etpEomaFrame c.destSa c.ourSa c.wirePriority c.pgn c.payload.length

theorem packets_le : c.packets ≤ 16777215 := packetsFor_etp c.sized.2

theorem payload_pos : 0 < c.payload.length := lt_of_lt_of_le (by decide) c.sized.1

theorem packets_pos : 1 ≤ c.packets := packetsFor_pos c.payload_pos

theorem payload_mod : c.payload.length % 2 ^ 32 = c.payload.length :=
  Nat.mod_eq_of_lt (lt_of_le_of_lt c.sized.2 (by decide))

theorem granted_bounds {k : Nat} (inside : k ≤ c.packets) :
    1 ≤ c.granted window k ∧ k + c.granted window k ≤ c.packets + 1 ∧ c.granted window k ≤ 255 := by
  have byte := window.toNat_lt
  simp only [granted, etpGrant]
  omega

/-- The message a receiver puts together. It may differ from the payload in the packets up to `skip`. -/
structure View where
  bytes : List UInt8
  skip : Nat
  length : bytes.length = c.payload.length
  inside : skip < c.packets
  agree : bytes.drop (skip * tpDtDataLen) = c.payload.drop (skip * tpDtDataLen)

def whole : c.View := ⟨c.payload, 0, rfl, c.packets_pos, rfl⟩

namespace View

variable {c} (v : c.View)

theorem packet_eq {p : Nat} (after : v.skip < p) : packet tpDtDataLen c.payload p = packet tpDtDataLen v.bytes p := by
  have split : (p - 1) * tpDtDataLen = v.skip * tpDtDataLen + (p - 1 - v.skip) * tpDtDataLen := by
    rw [← add_mul]
    congr 1
    omega
  rw [packet, packet, split, ← drop_drop, ← drop_drop, v.agree]

def buffer (n : Nat) : List UInt8 :=
  v.bytes.take (n * tpDtDataLen) ++ List.replicate (c.payload.length - n * tpDtDataLen) 0

def inbound (next offset remaining start : Nat) : InboundEtpSession :=
  { transportedPgn := c.pgn, peerSa := c.ourSa, ourSa := c.destSa, priority := c.wirePriority
    totalSize := c.payload.length, totalPackets := c.packets, nextPacket := next, dpoOffset := offset
    burstRemaining := remaining, buf := v.buffer (next - 1), lastActivity := start }

theorem buffer_write {next : Nat}
    (positive : 1 ≤ next)
    (inside : next ≤ c.packets) :
    copyFromSlice (v.buffer (next - 1)) ((next - 1) * tpDtDataLen)
      ((next - 1) * tpDtDataLen + (packet tpDtDataLen v.bytes next).length) (packet tpDtDataLen v.bytes next) =
      .ok (v.buffer next) := by
  obtain ⟨n, rfl⟩ : ∃ n, next = n + 1 := ⟨next - 1, by omega⟩
  rw [Nat.add_sub_cancel]
  have short : n * tpDtDataLen < c.payload.length := by
    have short := packetsFor_short c.payload_pos inside
    rwa [Nat.add_sub_cancel] at short
  have filled : (v.bytes.take (n * tpDtDataLen)).length = n * tpDtDataLen := by
    rw [length_take, v.length]
    exact min_eq_left (le_of_lt short)
  have size : (packet tpDtDataLen v.bytes (n + 1)).length = min tpDtDataLen (c.payload.length - n * tpDtDataLen) := by
    rw [packet_length, v.length, Nat.add_sub_cancel]
  have room : (v.buffer n).length = c.payload.length := by
    rw [buffer, length_append, length_replicate]
    omega
  have kept : (v.buffer n).take (n * tpDtDataLen) = v.bytes.take (n * tpDtDataLen) := by
    rw [buffer, take_append_of_le_length (le_of_eq filled.symm), take_take, min_self]
  have blank : (v.buffer n).drop (n * tpDtDataLen + (packet tpDtDataLen v.bytes (n + 1)).length) =
      replicate (c.payload.length - (n + 1) * tpDtDataLen) 0 := by
    rw [buffer, drop_append, drop_of_length_le (by omega), nil_append, filled, drop_replicate, size]
    congr 1
    simp only [tpDtDataLen]
    omega
  rw [copyFromSlice_ok (Nat.le_add_right _ _) (by omega) (by omega), kept, blank, take_append_packet]
  rfl

structure Delivers (next offset seq p : Nat) : Prop where
  positive : 1 ≤ next
  inside : next ≤ c.packets
  expected : offset + seq = next
  byte : seq ≤ 255
  content : packet tpDtDataLen c.payload p = packet tpDtDataLen v.bytes next

section Answers

variable {v} {e : TpEngine} {next offset remaining start seq p : Nat}
variable (held : e.etpRx = AList.singleton (c.ourSa, c.pgn) (v.inbound next offset remaining start))
include held

theorem takes (delivers : v.Delivers next offset seq p) :
    InboundEtpSession.Takes e (c.frame seq p).decoded (UInt8.ofNat seq)
      (padded tpDtDataLen 0xFF (packet tpDtDataLen c.payload p)) (packet tpDtDataLen v.bytes next) (v.buffer next)
      (c.ourSa, c.pgn) (v.inbound next offset remaining start) := by
  obtain ⟨positive, inside, expected, byte, content⟩ := delivers
  have small := c.packets_le
  have decoded : (c.frame seq p).decoded = wireId etpDt c.priority c.ourSa c.destSa := dtFrame_decoded rfl _ _ _ _ _ _
  refine ⟨⟨?_, ?_, ?_⟩, ?_, ne_of_gt positive, inside, ?_, v.buffer_write positive inside⟩
  · rw [decoded, dataKind_etpDt]
  · rw [held, decoded]
    exact Table.firstKey_singleton (p := fun key : Key => key.1 == c.ourSa) (beq_self_eq_true c.ourSa) _
  · rw [held, Table.lookup_singleton]
  · rw [ofNat_toNat (Nat.lt_succ_of_le byte)]
    simp only [inbound, saturate32, expected]
    omega
  · rw [content]
    simp only [inbound]
    rw [← v.length]
    exact (take_padded_packet tpDtDataLen 0xFF v.bytes next).symm

theorem onFrame_taken (delivers : v.Delivers next offset seq p) (now : Nat) :
    e.onFrame (c.frame seq p).decoded (c.frame seq p).data.1 now =
      if c.packets < next + 1 then
        .ok ([.completed c.pgn c.ourSa (v.buffer next)],
          { e with etpRx := ∅, pendingOut := e.pendingOut ++ [c.acknowledge] })
      else if remaining - 1 = 0 then
        .ok ([], { e with
          etpRx := AList.singleton (c.ourSa, c.pgn) (v.inbound (next + 1) offset (remaining - 1) now)
          pendingOut := e.pendingOut ++ [c.clear e.ctsWindow (next + 1)] })
      else
        .ok ([], { e with
          etpRx := AList.singleton (c.ourSa, c.pgn) (v.inbound (next + 1) offset (remaining - 1) now) }) := by
  have small := c.packets_le
  have inside := delivers.inside
  have taken := onEtpDt_taken (takes held delivers)
    (show (v.inbound next offset remaining start).nextPacket + 1 < 2 ^ 32 by simp only [inbound]; omega) now
  have accepted : (v.inbound next offset remaining start).accept (v.buffer next) now =
      v.inbound (next + 1) offset (remaining - 1) now := rfl
  have wire : (c.frame seq p).decoded.pgn.value = etpDtPgn := by
    rw [frame, dtFrame_decoded rfl]
    rfl
  rw [held, Table.erase_singleton, AList.insert_singleton_eq] at taken
  have left : c.packets - next = c.packets + 1 - (next + 1) := by omega
  refine (onFrame_etpDt wire).trans (taken.trans ?_)
  simp only [inbound, clear, granted, left]
  rfl

theorem onFrame_header {count k : Nat} (byte : count ≤ 255) (inside : k ≤ c.packets) (now : Nat) :
    e.onFrame (c.header count k).decoded (c.header count k).data.1 now =
      .ok ([], { e with etpRx := AList.singleton (c.ourSa, c.pgn) (v.inbound next (k - 1) count now) }) := by
  have small := c.packets_le
  have found : e.etpRx.lookup ((wireId etpCm c.priority c.ourSa c.destSa).sourceAddr, c.pgn) =
      some (v.inbound next offset remaining start) := by
    rw [held]
    exact Table.lookup_singleton _ _
  have offset_eq : u24From (cmBytes etpDpoControl (UInt8.ofNat count) (byteAt (k - 1) 0) (byteAt (k - 1) 1)
      (byteAt (k - 1) 2) c.pgn) = k - 1 :=
    (join3_byteAt (k - 1)).trans (Nat.mod_eq_of_lt (by omega))
  have count_eq : (cmBytes etpDpoControl (UInt8.ofNat count) (byteAt (k - 1) 0) (byteAt (k - 1) 1)
      (byteAt (k - 1) 2) c.pgn).b1.toNat = count := ofNat_toNat (Nat.lt_succ_of_le byte)
  rw [header, etpDpoFrame, cmFrame_decoded rfl]
  change ok (e.onEtpDpo _ (cmBytes _ _ _ _ _ _) now) = _
  rw [onEtpDpo, cmBytes_pgn]
  simp only [found, offset_eq, count_eq]
  rw [held]
  simp only [wireId, AList.insert_singleton_eq]
  rfl

end Answers

theorem buffer_packets : v.buffer c.packets = v.bytes := by
  have covers : v.bytes.length ≤ c.packets * tpDtDataLen := by
    rw [v.length]
    exact packetsFor_covers c.payload.length
  rw [buffer, take_complete covers, ← v.length, Nat.sub_eq_zero_of_le covers]
  exact append_nil _

end View

section Answers

variable {e : TpEngine} {window : UInt8}

theorem onFrame_request (blank : e.Blank) (room : 0 < e.maxSessions) (fits : c.payload.length ≤ e.maxEtpBytes)
    (now : Nat) : e.onFrame c.request.decoded c.request.data.1 now =
      .ok ([], { e with
        etpRx := AList.singleton (c.ourSa, c.pgn) (c.whole.inbound 1 0 0 now)
        pendingOut := e.pendingOut ++ [c.clear e.ctsWindow 1] }) := by
  have parsed := etpRtsFrame_parse c.ourSa c.destSa c.priority c.pgn c.payload.length
  have empty : e.totalInbound = 0 := by
    rw [totalInbound, blank.sessions, blank.rxConn, blank.etpRx]
    rfl
  have admitted : ¬ ((c.ourSa, c.pgn) ∉ e.etpRx ∧ e.totalInbound ≥ e.maxSessions) := by
    omega
  have small := c.packets_le
  have total : packetsFor c.payload.length % 2 ^ 32 = c.packets := Nat.mod_eq_of_lt (by rw [packets] at small; omega)
  rw [if_neg c.specific, c.payload_mod, if_pos c.sized] at parsed
  simp only [request, etpRtsFrame, c.payload_mod]
  rw [cmFrame_decoded rfl]
  change ok (e.onEtpRts _ (cmBytes _ _ _ _ _ _) now) = _
  rw [onEtpRts, parsed]
  dsimp only
  rw [if_neg (not_lt.mpr fits), if_neg admitted, blank.etpRx, Table.insert_empty, total]
  simp only [View.inbound, View.buffer, whole, clear, granted, Nat.sub_self, zero_mul, take_zero, nil_append,
    Nat.sub_zero, Nat.add_sub_cancel, wirePriority]

theorem onFrame_clear {start : Nat} (held : e.etpTx = AList.singleton (c.destSa, c.pgn) (c.outbound start)) {k : Nat}
    (positive : 1 ≤ k) (inside : k ≤ c.packets) (now : Nat) :
    e.onFrame (c.clear window k).decoded (c.clear window k).data.1 now =
      .ok ([], { e with
        etpTx := AList.singleton (c.destSa, c.pgn) (c.outbound now)
        pendingOut := e.pendingOut ++ c.burst window k }) := by
  obtain ⟨some, _, byte⟩ := c.granted_bounds window inside
  have small := c.packets_le
  have count : (UInt8.ofNat (c.granted window k)).toNat = c.granted window k := ofNat_toNat (by omega)
  have first : u24From (cmBytes etpCtsControl (UInt8.ofNat (c.granted window k)) (byteAt k 0) (byteAt k 1) (byteAt k 2)
      c.pgn) = k := (join3_byteAt k).trans (Nat.mod_eq_of_lt (by omega))
  have valid : (c.outbound now).Valid c.payload.length (c.destSa, c.pgn) :=
    OutboundEtpSession.opened_valid ⟨c.sized.1, le_refl _⟩ _ _ _ _ _
  have total : (c.outbound now).totalPackets = c.packets := Nat.mod_eq_of_lt (lt_of_le_of_lt small (by decide))
  have asked : ¬ ((cmBytes etpCtsControl (UInt8.ofNat (c.granted window k)) (byteAt k 0) (byteAt k 1) (byteAt k 2)
      c.pgn).b1 = 0 ∨ u24From (cmBytes etpCtsControl (UInt8.ofNat (c.granted window k)) (byteAt k 0) (byteAt k 1)
      (byteAt k 2) c.pgn) = 0) := by
    rintro (zero | _)
    · have zero : UInt8.ofNat (c.granted window k) = 0 := zero
      rw [zero] at count
      exact absurd count.symm (ne_of_gt some)
    · omega
  have found : e.etpTx.lookup ((wireId etpCm c.wirePriority c.destSa c.ourSa).sourceAddr, c.pgn) =
      Option.some (c.outbound start) := by
    rw [held]
    exact Table.lookup_singleton _ _
  have touched : (c.outbound start).touch now = c.outbound now := rfl
  have exact_ : min (c.granted window k) (c.packets + 1 - k) = c.granted window k := min_eq_left (by omega)
  rw [clear, etpCtsFrame, cmFrame_decoded rfl]
  refine (onEtpCts_asked (cmBytes_pgn _ _ _ _ _ _) found asked).trans ?_
  rw [first, touched]
  simp only [cmBytes, wireId, count, held, AList.insert_singleton_eq]
  rw [buildEtpBurst_eq valid positive (by omega) (by omega) some byte, total, exact_, OutboundEtpSession.burst,
    range_eq_range']
  rfl

theorem onFrame_acknowledge {start : Nat}
    (held : e.etpTx = AList.singleton (c.destSa, c.pgn) (c.outbound start))
    (now : Nat) :
    e.onFrame c.acknowledge.decoded c.acknowledge.data.1 now = .ok ([], { e with etpTx := ∅ }) := by
  simp only [acknowledge, etpEomaFrame]
  rw [cmFrame_decoded rfl]
  change ok (e.onEtpEoma _ (cmBytes _ _ _ _ _ _)) = _
  rw [onEtpEoma, cmBytes_pgn]
  simp only [held, wireId, Table.erase_singleton]

end Answers

def Sending (e : TpEngine) : Prop :=
  ∃ start, e.Holds ∅ ∅ ∅ (AList.singleton (c.destSa, c.pgn) (c.outbound start))

variable {c} in
theorem Sending.small {e : TpEngine} (sending : c.Sending e) : e.Small := by
  obtain ⟨start, holds⟩ := sending
  exact holds.small (Nat.zero_le 1) (Nat.zero_le 1) (Nat.zero_le 1) (Nat.le_refl 1)

theorem sending_keeps : (party Unexpired).Keeps c.Sending := by
  apply keeps_of_small
  · exact fun e sending => sending.small
  · rintro e ⟨start, holds⟩
    exact ⟨start, { holds with }⟩

namespace View

variable {c} (v : c.View)

abbrev Start := { k : Nat // v.skip < k ∧ k ≤ c.packets }

def first : v.Start := ⟨v.skip + 1, Nat.lt_succ_self _, v.inside⟩

variable (window : UInt8) (k : v.Start)

def following : Option v.Start :=
  if more : k.1 + c.granted window k.1 ≤ c.packets then
    some ⟨k.1 + c.granted window k.1, Nat.lt_of_lt_of_le k.2.1 (Nat.le_add_right _ _), more⟩
  else none

def Waiting (e : TpEngine) : Prop :=
  v = c.whole ∧ e.Blank ∧ e.ctsWindow = window ∧ 0 < e.maxSessions ∧ c.payload.length ≤ e.maxEtpBytes

def Expects (next offset remaining : Nat) (e : TpEngine) : Prop :=
  ∃ start, e.Holds ∅ ∅ (AList.singleton (c.ourSa, c.pgn) (v.inbound next offset remaining start)) ∅

def Receiving (expected : List TpOutFrame) (e : TpEngine) : Prop :=
  e.ctsWindow = window ∧
    ((expected = c.burst window k.1 ∧ ∃ offset remaining, v.Expects k.1 offset remaining e) ∨
      ∃ j remaining, j + remaining = c.granted window k.1 ∧ v.Expects (k.1 + j) (k.1 - 1) remaining e ∧
        expected = (List.range' j remaining).map fun j => c.frame (j + 1) (k.1 + j))

section Laws

variable {v} {e : TpEngine} {window : UInt8} {k : v.Start} {m : TpOutFrame} {expected : List TpOutFrame}
  {may : TpEngine → Nat → Prop} {next offset remaining : Nat}

theorem Expects.small (expects : v.Expects next offset remaining e) : e.Small := by
  obtain ⟨_, holds⟩ := expects
  exact holds.small (Nat.zero_le 1) (Nat.zero_le 1) (le_refl 1) (Nat.zero_le 1)

theorem Expects.flush (expects : v.Expects next offset remaining e) :
    v.Expects next offset remaining { e with pendingOut := [] } := by
  obtain ⟨start, holds⟩ := expects
  exact ⟨start, { holds with }⟩

theorem Receiving.small (receiving : v.Receiving window k expected e) : e.Small := by
  rcases receiving with ⟨_, ⟨_, _, _, expects⟩ | ⟨_, _, _, expects, _⟩⟩ <;> exact expects.small

theorem waiting_keeps : (party Unexpired).Keeps (v.Waiting window) := by
  apply keeps_of_small
  · exact fun e waiting => waiting.2.1.small
  · rintro e ⟨whole, blank, rest⟩
    exact ⟨whole, { blank with }, rest⟩

theorem receiving_keeps : (party Unexpired).Keeps (v.Receiving window k expected) := by
  apply keeps_of_small
  · exact fun e receiving => receiving.small
  · rintro e ⟨same, ⟨frames, offset, remaining, expects⟩ | ⟨j, remaining, total, expects, frames⟩⟩
    · exact ⟨same, .inl ⟨frames, offset, remaining, expects.flush⟩⟩
    · exact ⟨same, .inr ⟨j, remaining, total, expects.flush, frames⟩⟩

theorem requested (waiting : v.Waiting window e) : (party may).Answers e c.request []
    [c.clear window v.first.1] (v.Receiving window v.first (c.burst window v.first.1)) := by
  obtain ⟨rfl, blank, rfl, room, fits⟩ := waiting
  apply answers_of_handle blank.small
  intro now
  refine ⟨_, c.onFrame_request blank room fits now, rfl, rfl, .inl ⟨rfl, 0, 0, now, ?_⟩⟩
  exact { blank with etpRx := rfl }

theorem cleared (k : v.Start) (sending : c.Sending e) :
    (party may).Answers e (c.clear window k.1) [] (c.burst window k.1) c.Sending := by
  apply answers_of_handle sending.small
  obtain ⟨_, holds⟩ := sending
  intro now
  refine ⟨_, c.onFrame_clear holds.etpTx (lt_of_le_of_lt (Nat.zero_le _) k.2.1) k.2.2 now, rfl, now, ?_⟩
  exact { holds with etpTx := rfl }

theorem delivers (k : v.Start) {j remaining : Nat} (total : j + remaining = c.granted window k.1)
    (some : 1 ≤ remaining) : v.Delivers (k.1 + j) (k.1 - 1) (j + 1) (k.1 + j) := by
  obtain ⟨_, _⟩ := c.granted_bounds window k.2.2
  exact ⟨by omega, by omega, by omega, by omega, v.packet_eq (by omega)⟩

theorem continued {m' : TpOutFrame} (receiving : v.Receiving window k (m :: m' :: expected) e) :
    (party may).Answers e m [] [] (v.Receiving window k (m' :: expected)) := by
  apply answers_of_handle receiving.small
  obtain ⟨_, _, byte⟩ := c.granted_bounds window k.2.2
  intro now
  rcases receiving with ⟨same, ⟨frames, _, _, _, holds⟩ | ⟨j, remaining, total, ⟨_, holds⟩, frames⟩⟩
  · obtain ⟨rfl, others⟩ := cons.inj frames
    refine ⟨_, onFrame_header holds.etpRx byte k.2.2 now, (append_nil _).symm, same,
      .inr ⟨0, _, Nat.zero_add _, ⟨now, ?_⟩, others⟩⟩
    exact { holds with etpRx := rfl }
  · obtain ⟨r, rfl⟩ : ∃ r, remaining = r + 2 := by
      have length := congrArg List.length frames
      simp only [length_cons, length_map, length_range'] at length
      exact ⟨remaining - 2, by omega⟩
    obtain ⟨rfl, others⟩ := cons.inj frames
    have taken := onFrame_taken holds.etpRx (delivers k total (by omega)) now
    rw [if_neg (by omega)] at taken
    refine ⟨_, taken, (append_nil _).symm, same, .inr ⟨j + 1, r + 1, by omega, ⟨now, ?_⟩, others⟩⟩
    exact { holds with etpRx := rfl }

theorem Receiving.last (receiving : v.Receiving window k [m] e) :
    e.ctsWindow = window ∧ ∃ j start, j + 1 = c.granted window k.1 ∧ m = c.frame (j + 1) (k.1 + j) ∧
      e.Holds ∅ ∅ (AList.singleton (c.ourSa, c.pgn) (v.inbound (k.1 + j) (k.1 - 1) 1 start)) ∅ := by
  obtain ⟨_, _⟩ := c.granted_bounds window k.2.2
  rcases receiving with ⟨same, ⟨frames, _⟩ | ⟨j, remaining, total, ⟨start, holds⟩, frames⟩⟩
  · have length := congrArg List.length frames
    simp only [burst, length_cons, length_nil, length_map, length_range'] at length
    omega
  · obtain rfl : remaining = 1 := by
      have length := congrArg List.length frames
      simp only [length_cons, length_nil, length_map, length_range'] at length
      exact length.symm
    exact ⟨same, j, start, total, (cons.inj frames).1, holds⟩

theorem resumed {k' : v.Start}
    (follows : v.following window k = some k')
    (receiving : v.Receiving window k [m] e) :
    (party may).Answers e m [] [c.clear window k'.1] (v.Receiving window k' (c.burst window k'.1)) := by
  apply answers_of_handle receiving.small
  obtain ⟨same, j, _, total, rfl, holds⟩ := receiving.last
  rw [following] at follows
  split at follows
  · cases follows
    intro now
    have following : k.1 + j + 1 = k.1 + c.granted window k.1 := by omega
    have taken := onFrame_taken holds.etpRx (delivers k total (le_refl 1)) now
    rw [if_neg (by omega), same, following] at taken
    refine ⟨_, taken, rfl, rfl, .inl ⟨rfl, k.1 - 1, 1 - 1, now, ?_⟩⟩
    exact { holds with etpRx := rfl }
  · cases follows

theorem completed
    (last : v.following window k = none)
    (receiving : v.Receiving window k [m] e) :
    (party may).Answers e m [.completed c.pgn c.ourSa v.bytes] [c.acknowledge] Blank := by
  apply answers_of_handle receiving.small
  obtain ⟨_, j, _, total, rfl, holds⟩ := receiving.last
  obtain ⟨_, _⟩ := c.granted_bounds window k.2.2
  rw [following] at last
  split at last
  · cases last
  · intro now
    have finish : k.1 + j = c.packets := by omega
    have taken := onFrame_taken holds.etpRx (delivers k total (le_refl 1)) now
    rw [if_pos (by omega), finish, v.buffer_packets] at taken
    refine ⟨_, finish.symm ▸ taken, rfl, ?_⟩
    exact { holds with etpRx := rfl }

theorem acknowledged (sending : c.Sending e) : (party may).Answers e c.acknowledge [] [] Blank := by
  apply answers_of_handle sending.small
  obtain ⟨_, holds⟩ := sending
  intro now
  refine ⟨_, c.onFrame_acknowledge holds.etpTx now, (append_nil _).symm, ?_⟩
  exact { holds with etpTx := rfl }

end Laws

theorem burst_cost : (c.burst window k.1).length + 1 +
      (v.following window k).elim 1 (fun k' => 3 * (c.packets + 1 - k'.1) + 1) ≤ 3 * (c.packets + 1 - k.1) + 1 := by
  obtain ⟨_, _⟩ := c.granted_bounds window k.2.2
  rw [burst, length_cons, length_map, length_range', following]
  split
  · simp only [elim_some]
    omega
  · simp only [elim_none]
    omega

def transfer : BurstTransfer (TpEngine.party TpEngine.Unexpired) v.Start where
  first := v.first
  next := v.following window
  request := c.request
  clear k := c.clear window k.1
  burst k := c.burst window k.1
  acknowledge := c.acknowledge
  delivered := .completed c.pgn c.ourSa v.bytes
  cost k := 3 * (c.packets + 1 - k.1) + 1
  Sending := c.Sending
  Waiting := v.Waiting window
  Receiving := v.Receiving window
  Done := TpEngine.Blank
  burst_ne_nil _ := cons_ne_nil _ _
  burst_cost := v.burst_cost window
  sending_keeps := c.sending_keeps
  waiting_keeps := waiting_keeps
  receiving_keeps _ _ := receiving_keeps
  done_keeps := TpEngine.blank_keeps
  requested _ := requested
  cleared _ k := cleared k
  continued _ _ _ _ _ := continued
  resumed _ _ _ _ := resumed
  completed _ _ _ := completed
  acknowledged _ := acknowledged

end View

theorem started {e : TpEngine} (blank : e.Blank) (fits : c.payload.length ≤ e.maxEtpBytes) (start : Nat) :
    e.startOutboundEtp c.pgn c.priority c.ourSa c.destSa c.payload start =
      (.ok [c.request], { e with etpTx := AList.singleton (c.destSa, c.pgn) (c.outbound start) }) := by
  simp only [startOutboundEtp, c.sized.1, fits, and_self, not_true_eq_false, ite_false, blank.etpTx,
    Table.insert_empty, request, outbound, OutboundEtpSession.opened]

theorem configured_waiting (timers : TpTimers) (maxSessions : Nat) (window : UInt8) {limit : Nat}
    (fits : c.payload.length ≤ (configured timers maxSessions window limit).maxEtpBytes) :
    c.whole.Waiting (configured timers maxSessions window limit).ctsWindow
      (configured timers maxSessions window limit) :=
  ⟨rfl, configured_blank _ _ _ _, rfl, lt_of_lt_of_le Nat.zero_lt_one (le_max_right _ _), fits⟩

theorem transfer_at_start {e e' : TpEngine} (blank : e.Blank) (waiting : c.whole.Waiting e'.ctsWindow e') (start : Nat)
    (empty : e.pendingOut = []) (empty' : e'.pendingOut = []) : (c.whole.transfer e'.ctsWindow).At (3 * c.packets + 2)
      ⟨{ e with etpTx := AList.singleton (c.destSa, c.pgn) (c.outbound start) }, e', [c.request], []⟩ [] := by
  have sending : c.Sending { e with etpTx := AList.singleton (c.destSa, c.pgn) (c.outbound start) } :=
    ⟨start, { blank with etpTx := rfl }⟩
  exact BurstTransfer.at_start sending waiting empty empty'

end Extended

namespace TpEngine

open Link

/-- Every run over a reliable link is safe and bounded, and delivers the message once. -/
theorem extended_transfer_completes (timers timers' : TpTimers) (maxSessions maxSessions' : Nat)
    (window window' : UInt8) (limit limit' : Nat) (pgn : Pgn) (priority ourSa destSa : UInt8) (payload : List UInt8)
    (start : Nat)
    (sized : 1786 ≤ payload.length ∧ payload.length ≤ etpProtocolMax)
    (fits : payload.length ≤ (configured timers maxSessions window limit).maxEtpBytes)
    (fits' : payload.length ≤ (configured timers' maxSessions' window' limit').maxEtpBytes)
    (specific : destSa ≠ 0xFF) :
    ∃ frames sender, (configured timers maxSessions window limit).startOutboundEtp pgn priority ourSa destSa payload
      start = (.ok frames, sender) ∧ ∀ history l,
      Run (ReliableStep (party Unexpired)) ⟨sender, configured timers' maxSessions' window' limit', frames,
      []⟩ history l → progress history ≤ 6 * packetsFor payload.length + 4 ∧ l.Safe (party Unexpired) ∧
      nearEvents history = [] ∧ farEvents history <+: [.completed pgn ourSa payload] ∧
      (¬ l.Quiescent (party Unexpired) → ∃ call l', ReliableStep (party Unexpired) l call l' ∧ call.1.isTick = false) ∧
      (l.Quiescent (party Unexpired) → farEvents history = [.completed pgn ourSa payload] ∧ l.near.Blank ∧
      l.near.pendingOut = [] ∧ l.far.Blank ∧ l.far.pendingOut = []) := by
  let c : Extended := ⟨pgn, priority, ourSa, destSa, payload, specific, sized⟩
  refine ⟨_, _, c.started (configured_blank _ _ _ _) fits start, ?_⟩
  intro history l run
  have ready := c.transfer_at_start (configured_blank timers maxSessions window limit)
    (c.configured_waiting timers' maxSessions' window' fits') start rfl rfl
  obtain ⟨_, safe, silent, reported, active, ends⟩ := ready.every_run_completes (party_total _) run
  have packets : c.packets = packetsFor payload.length := rfl
  refine ⟨by omega, safe, silent, reported, active, ?_⟩
  intro quiescent
  obtain ⟨delivered, done, done'⟩ := ends quiescent
  exact ⟨delivered, done, (append_eq_nil_iff.mp quiescent.1).2, done', (append_eq_nil_iff.mp quiescent.2).2⟩

theorem extended_transfer_completes_smallest :
    ∃ (history : List (Action TpOutFrame Nat × List TpEvent)) (l : Link TpEngine TpOutFrame) (sender : TpEngine),
      Run (ReliableStep (party Unexpired)) ⟨sender, configured ⟨750, 1250, 1250⟩ 1 16 0,
        [etpRtsFrame 0x10 0x20 6 ⟨61184, by decide⟩ (List.replicate 1786 (0 : UInt8)).length], []⟩ history l ∧
      farEvents history = [.completed ⟨61184, by decide⟩ 0x10 (List.replicate 1786 0)] ∧ l.far.Blank := by
  have sized : 1786 ≤ (List.replicate 1786 (0 : UInt8)).length ∧
      (List.replicate 1786 (0 : UInt8)).length ≤ etpProtocolMax := by
    rw [length_replicate]
    decide
  have fits : (List.replicate 1786 (0 : UInt8)).length ≤ (configured ⟨750, 1250, 1250⟩ 1 16 0).maxEtpBytes := by
    rw [length_replicate]
    decide
  let c : Extended := ⟨⟨61184, by decide⟩, 6, 0x10, 0x20, List.replicate 1786 0, by decide, sized⟩
  have ready := c.transfer_at_start (configured_blank ⟨750, 1250, 1250⟩ 1 16 0)
    (c.configured_waiting ⟨750, 1250, 1250⟩ 1 16 fits) 0 rfl rfl
  obtain ⟨history, l, run, quiescent⟩ := ready.completes (party_total _)
  obtain ⟨frames, sender, opened, every⟩ :=
    extended_transfer_completes ⟨750, 1250, 1250⟩ ⟨750, 1250, 1250⟩ 1 1 16 16 0 0
      ⟨61184, by decide⟩ 6 0x10 0x20 (List.replicate 1786 0) 0 sized fits fits (by decide)
  cases (c.started (configured_blank ⟨750, 1250, 1250⟩ 1 16 0) fits 0).symm.trans opened
  obtain ⟨_, _, _, _, _, ends⟩ := every history l run
  obtain ⟨delivered, _, _, blank, _⟩ := ends quiescent
  exact ⟨history, l, _, run, delivered, blank⟩

end TpEngine

end Taktora.J1939
