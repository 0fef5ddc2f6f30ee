import Taktora.J1939.Tp.Exchange
import Taktora.J1939.Tp.Integrity
import Taktora.J1939.Tp.Sender

namespace Taktora.J1939

open Checked LittleEndian Packets TpEngine List

namespace TpEngine

variable {e : TpEngine} {decoded : DecodedId} {data rest bytes : List UInt8} {b : CmBytes} {seq : UInt8} {key : Key}
  {now : Nat}

theorem onFrame_rtsFrame (e : TpEngine) (ourSa destSa priority : UInt8) (pgn : Pgn) (size packets : Nat)
    (maxPerCts : UInt8) (now : Nat) :
    e.onFrame (rtsFrame ourSa destSa priority pgn size packets maxPerCts).decoded
      (rtsFrame ourSa destSa priority pgn size packets maxPerCts).data.1 now =
      .ok (e.onRts (wireId cmPgn priority ourSa destSa)
      (cmBytes rtsControl (byteAt size 0) (byteAt size 1) (UInt8.ofNat packets) maxPerCts pgn) now) := by
  rw [rtsFrame, cmFrame_decoded rfl]
  rfl

theorem onFrame_connDt (kind : dataKind decoded = some .conn) :
    e.onFrame decoded (seq :: rest) now = e.onConnDt decoded.sourceAddr (seq :: rest) now := by
  rw [dataKind] at kind
  split at kind
  · rename_i dt
    rw [onFrame, dt, if_neg (by decide), if_pos rfl, onDt, if_neg (cons_ne_nil _ _)]
    split at kind
    · cases kind
    · rename_i specific
      rw [if_neg specific]
  · split at kind <;> cases kind

section Takes

variable {s : InboundConnSession}

theorem onConnDt_taken (takes : InboundConnSession.Takes e decoded seq rest bytes key s) (now : Nat) :
    e.onConnDt decoded.sourceAddr (seq :: rest) now =
      if s.totalPackets ≤ s.nextSeq then
        .ok ([.completed s.transportedPgn s.peerSa (s.buf ++ bytes)], { e with
            rxConn := e.rxConn.erase key
            pendingOut := e.pendingOut ++
              [endOfMsgAckFrame s.ourSa s.peerSa s.priority s.transportedPgn s.totalSize s.totalPackets] })
      else if s.windowRemaining - 1 = 0 then do
        let received ← Checked.sub ((s.nextSeq + 1) % 256) 1
        let remaining ← Checked.sub s.totalPackets received
        let window := grantWindow remaining e.ctsWindow s.senderMaxPerCts
        .ok ([], { e with
          rxConn := e.rxConn.insert key (s.accept bytes window now)
          pendingOut := e.pendingOut ++
            [ctsFrame s.ourSa s.peerSa s.priority s.transportedPgn window ((s.nextSeq + 1) % 256)] })
      else .ok ([], { e with rxConn := e.rxConn.insert key (s.accept bytes (s.windowRemaining - 1) now) }) := by
  obtain ⟨⟨_, chosen, found⟩, expected, taken⟩ := takes
  rw [onConnDt, index_zero]
  simp only [chosen]
  rw [expect_ok found]
  simp only [expected, ne_eq, not_true_eq_false, ite_false, takenBytes_cons, ok_bind, ← taken, ge_iff_le]
  rfl

end Takes

end TpEngine

structure Connection where
  pgn : Pgn
  priority : UInt8
  ourSa : UInt8
  destSa : UInt8
  payload : List UInt8
  specific : destSa ≠ globalAddress
  sized : tpMinPayload ≤ payload.length ∧ payload.length ≤ tpMaxPayload

namespace Connection

variable (c : Connection) {e : TpEngine}

def packets : Nat := packetsFor c.payload.length

def wirePriority : UInt8 := UInt8.ofNat (c.priority.toNat % 8)

def frame (p : Nat) : TpOutFrame := dtFrame dtPgn c.priority c.ourSa c.destSa c.payload p p

def request : TpOutFrame := rtsFrame c.ourSa c.destSa c.priority c.pgn c.payload.length c.packets ctsNoLimit

def outbound (start : Nat) : OutboundConnSession :=
  .opened c.pgn c.priority c.ourSa c.destSa c.payload start

def inbound (next remaining start : Nat) : InboundConnSession :=
  { transportedPgn := c.pgn, peerSa := c.ourSa, ourSa := c.destSa, priority := c.wirePriority
    totalSize := c.payload.length, totalPackets := c.packets, senderMaxPerCts := ctsNoLimit, nextSeq := next
    windowRemaining := remaining, buf := c.payload.take ((next - 1) * tpDtDataLen), lastActivity := start }

variable (window : UInt8)

def granted (k : Nat) : Nat := grantWindow (c.packets + 1 - k) window ctsNoLimit

def clear (k : Nat) : TpOutFrame :=
  ctsFrame c.destSa c.ourSa c.wirePriority c.pgn (c.granted window k) k

def acknowledge : TpOutFrame :=
  endOfMsgAckFrame c.destSa c.ourSa c.wirePriority c.pgn c.payload.length c.packets

theorem packets_le : c.packets ≤ 255 := packetsFor_tp c.sized.2

theorem payload_pos : 0 < c.payload.length := lt_of_lt_of_le (by decide) c.sized.1

theorem granted_bounds {k : Nat} (inside : k ≤ c.packets) :
    1 ≤ c.granted window k ∧ k + c.granted window k ≤ c.packets + 1 ∧ c.granted window k ≤ 255 := by
  have byte := window.toNat_lt
  simp only [granted, grantWindow, ne_eq, not_true_eq_false, ite_false]
  omega

theorem frame_decoded (p : Nat) : (c.frame p).decoded = wireId dtPgn c.priority c.ourSa c.destSa :=
  dtFrame_decoded rfl _ _ _ _ _ _

theorem frame_kind (p : Nat) : dataKind (c.frame p).decoded = some .conn := by
  rw [frame_decoded, dataKind_dt, if_neg c.specific]

theorem takes {next remaining start : Nat}
    (held : e.rxConn = AList.singleton (c.ourSa, c.pgn) (c.inbound next remaining start))
    (inside : next ≤ c.packets) :
    InboundConnSession.Takes e (c.frame next).decoded (UInt8.ofNat next)
      (padded tpDtDataLen 0xFF (packet tpDtDataLen c.payload next)) (packet tpDtDataLen c.payload next) (c.ourSa, c.pgn)
      (c.inbound next remaining start) := by
  have small := c.packets_le
  have short := packetsFor_short c.payload_pos inside
  have filled : (c.inbound next remaining start).buf.length = (next - 1) * tpDtDataLen := by
    simp only [inbound, length_take]
    exact min_eq_left (le_of_lt short)
  refine ⟨⟨c.frame_kind next, ?_, ?_⟩, ofNat_toNat (by omega), ?_⟩
  · rw [held, frame_decoded]
    exact Table.firstKey_singleton (p := fun key : Key => key.1 == c.ourSa) (beq_self_eq_true c.ourSa) _
  · rw [held, Table.lookup_singleton]
  · rw [filled]
    exact (take_padded_packet tpDtDataLen 0xFF c.payload next).symm

theorem inbound_accept {next : Nat}
    (positive : 1 ≤ next)
    (more : next < c.packets)
    (remaining window start now : Nat) :
    (c.inbound next remaining start).accept (packet tpDtDataLen c.payload next) window now =
      c.inbound (next + 1) window now := by
  have small := c.packets_le
  have wraps : (next + 1) % 256 = next + 1 := Nat.mod_eq_of_lt (by omega)
  obtain ⟨n, rfl⟩ : ∃ n, next = n + 1 := ⟨next - 1, by omega⟩
  simp only [InboundConnSession.accept, inbound, wraps, Nat.add_sub_cancel, take_append_packet]

section Answers

variable {e : TpEngine} {window : UInt8}

theorem onFrame_request (blank : e.Blank) (room : 0 < e.maxSessions) (now : Nat) :
    e.onFrame c.request.decoded c.request.data.1 now =
      .ok ([], { e with
        rxConn := AList.singleton (c.ourSa, c.pgn) (c.inbound 1 (c.granted e.ctsWindow 1) now)
        pendingOut := e.pendingOut ++ [c.clear e.ctsWindow 1] }) := by
  have parsed := rtsFrame_parse c.sized c.ourSa c.destSa c.priority c.pgn ctsNoLimit
  have empty : e.totalInbound = 0 := by
    rw [totalInbound, blank.sessions, blank.rxConn, blank.etpRx]
    rfl
  have admitted : ¬ ((c.ourSa, c.pgn) ∉ e.rxConn ∧ e.totalInbound ≥ e.maxSessions) := by
    omega
  rw [if_neg c.specific] at parsed
  rw [request, onFrame_rtsFrame, onRts, packets, parsed]
  dsimp only
  rw [if_neg admitted, blank.rxConn]
  rfl

theorem onFrame_clear {start : Nat} (held : e.txConn = AList.singleton (c.destSa, c.pgn) (c.outbound start)) {k : Nat}
    (positive : 1 ≤ k) (inside : k ≤ c.packets) (now : Nat) :
    e.onFrame (c.clear window k).decoded (c.clear window k).data.1 now =
      .ok ([], { e with
        txConn := AList.singleton (c.destSa, c.pgn) (c.outbound now)
        pendingOut := e.pendingOut ++ (List.range' k (c.granted window k)).map c.frame }) := by
  obtain ⟨some, fits, _⟩ := c.granted_bounds window inside
  have small := c.packets_le
  have count : (UInt8.ofNat (c.granted window k)).toNat = c.granted window k := ofNat_toNat (by omega)
  have first : (UInt8.ofNat k).toNat = k := ofNat_toNat (by omega)
  have valid : (c.outbound now).Valid (c.destSa, c.pgn) := OutboundConnSession.opened_valid c.sized _ _ _ _ _
  have asked : (cmBytes ctsControl (UInt8.ofNat (c.granted window k)) (UInt8.ofNat k) 0xFF 0xFF c.pgn).b1 ≠ 0 := by
    intro zero
    have zero : UInt8.ofNat (c.granted window k) = 0 := zero
    rw [zero] at count
    exact absurd count.symm (ne_of_gt some)
  have found : e.txConn.lookup ((wireId cmPgn c.wirePriority c.destSa c.ourSa).sourceAddr, c.pgn) =
      Option.some (c.outbound start) := by
    rw [held]
    exact Table.lookup_singleton _ _
  have whole : min (c.granted window k) ((c.outbound now).totalPackets + 1 - k) = c.granted window k := by
    rw [valid.packets]
    exact min_eq_left (by exact Nat.le_sub_of_add_le (by rw [add_comm]; exact fits))
  rw [clear, ctsFrame, cmFrame_decoded rfl]
  refine (onCts_asked (cmBytes_pgn _ _ _ _ _ _) found asked).trans ?_
  simp only [cmBytes, wireId, count, first, held, AList.insert_singleton_eq]
  have touched : (c.outbound start).touch now = c.outbound now := rfl
  rw [touched, buildDtBurst_eq valid positive (by omega), whole]
  rfl

theorem onFrame_acknowledge {start : Nat} (held : e.txConn = AList.singleton (c.destSa, c.pgn) (c.outbound start))
    (now : Nat) : e.onFrame c.acknowledge.decoded c.acknowledge.data.1 now = .ok ([], { e with txConn := ∅ }) := by
  rw [acknowledge, endOfMsgAckFrame, cmFrame_decoded rfl]
  change Except.ok (e.onEndOfMsgAck _ (cmBytes _ _ _ _ _ _)) = _
  rw [onEndOfMsgAck, cmBytes_pgn]
  simp only [held, wireId, Table.erase_singleton]

variable {next remaining start : Nat}

theorem onFrame_data (held : e.rxConn = AList.singleton (c.ourSa, c.pgn) (c.inbound next remaining start))
    (positive : 1 ≤ next) (more : next < c.packets) (open_ : 2 ≤ remaining) (now : Nat) :
    e.onFrame (c.frame next).decoded (c.frame next).data.1 now =
      .ok ([], { e with rxConn := AList.singleton (c.ourSa, c.pgn) (c.inbound (next + 1) (remaining - 1) now) }) := by
  have unfinished : ¬ (c.inbound next remaining start).totalPackets ≤ (c.inbound next remaining start).nextSeq :=
    not_le.mpr more
  have remains : ¬ (c.inbound next remaining start).windowRemaining - 1 = 0 := by
    simp only [inbound]
    omega
  have taken := onConnDt_taken (c.takes held (le_of_lt more)) now
  rw [if_neg unfinished, if_neg remains, c.inbound_accept positive more, held, AList.insert_singleton_eq] at taken
  exact (onFrame_connDt (c.frame_kind next)).trans taken

theorem onFrame_data_window (held : e.rxConn = AList.singleton (c.ourSa, c.pgn) (c.inbound next 1 start))
    (positive : 1 ≤ next) (more : next < c.packets) (now : Nat) :
    e.onFrame (c.frame next).decoded (c.frame next).data.1 now =
      .ok ([], { e with
        rxConn := AList.singleton (c.ourSa, c.pgn) (c.inbound (next + 1) (c.granted e.ctsWindow (next + 1)) now)
        pendingOut := e.pendingOut ++ [c.clear e.ctsWindow (next + 1)] }) := by
  have small := c.packets_le
  have unfinished : ¬ (c.inbound next 1 start).totalPackets ≤ (c.inbound next 1 start).nextSeq := not_le.mpr more
  have wraps : ((c.inbound next 1 start).nextSeq + 1) % 256 = next + 1 :=
    Nat.mod_eq_of_lt (Nat.lt_succ_of_le (le_trans more small))
  have used : (c.inbound next 1 start).windowRemaining - 1 = 0 := rfl
  have total : (c.inbound next 1 start).totalPackets = c.packets := rfl
  have left : c.packets - next = c.packets + 1 - (next + 1) := by omega
  have taken := onConnDt_taken (c.takes held (le_of_lt more)) now
  rw [if_neg unfinished, wraps, sub_ok (Nat.le_add_left 1 next), ok_bind, Nat.add_sub_cancel, total,
    sub_ok (le_of_lt more), ok_bind, left] at taken
  dsimp only at taken
  rw [c.inbound_accept positive more, held, AList.insert_singleton_eq] at taken
  exact (onFrame_connDt (c.frame_kind next)).trans taken

theorem onFrame_data_last (held : e.rxConn = AList.singleton (c.ourSa, c.pgn) (c.inbound c.packets remaining start))
    (now : Nat) : e.onFrame (c.frame c.packets).decoded (c.frame c.packets).data.1 now =
      .ok ([.completed c.pgn c.ourSa c.payload],
        { e with rxConn := ∅, pendingOut := e.pendingOut ++ [c.acknowledge] }) := by
  have positive : 1 ≤ c.packets := packetsFor_pos c.payload_pos
  have finished : (c.inbound c.packets remaining start).totalPackets ≤ (c.inbound c.packets remaining start).nextSeq :=
    le_refl _
  have whole : (c.inbound c.packets remaining start).buf ++ packet tpDtDataLen c.payload c.packets = c.payload := by
    obtain ⟨n, last⟩ : ∃ n, c.packets = n + 1 := ⟨c.packets - 1, by omega⟩
    have covers : c.payload.length ≤ (n + 1) * tpDtDataLen := last ▸ packetsFor_covers c.payload.length
    rw [inbound, last, Nat.add_sub_cancel, take_append_packet, take_complete covers]
  have taken := onConnDt_taken (c.takes held (le_refl _)) now
  rw [if_pos finished, whole, held, Table.erase_singleton] at taken
  exact (onFrame_connDt (c.frame_kind c.packets)).trans taken

end Answers

abbrev Start := { k : Nat // 1 ≤ k ∧ k ≤ c.packets }

def Sending (e : TpEngine) : Prop :=
  ∃ start, e.Holds ∅ (AList.singleton (c.destSa, c.pgn) (c.outbound start)) ∅ ∅

variable (k : c.Start)

def Receiving (expected : List TpOutFrame) (e : TpEngine) : Prop :=
  e.ctsWindow = window ∧ ∃ next remaining start,
    e.Holds (AList.singleton (c.ourSa, c.pgn) (c.inbound next remaining start)) ∅ ∅ ∅ ∧ 1 ≤ next ∧
    next + remaining = k.1 + c.granted window k.1 ∧ expected = (List.range' next remaining).map c.frame

def Waiting (e : TpEngine) : Prop := e.Blank ∧ e.ctsWindow = window ∧ 0 < e.maxSessions

def burst (k : Nat) : List TpOutFrame := (List.range' k (c.granted window k)).map c.frame

def first : c.Start := ⟨1, Nat.le_refl 1, packetsFor_pos c.payload_pos⟩

def following : Option c.Start :=
  if more : k.1 + c.granted window k.1 ≤ c.packets then
    some ⟨k.1 + c.granted window k.1, Nat.le_trans k.2.1 (Nat.le_add_right _ _), more⟩
  else none

section Laws

variable {c} {e : TpEngine} {window : UInt8} {k : c.Start} {m : TpOutFrame} {expected : List TpOutFrame}
  {may : TpEngine → Nat → Prop}

theorem Sending.small (sending : c.Sending e) : e.Small := by
  obtain ⟨start, holds⟩ := sending
  exact holds.small (Nat.zero_le 1) (le_refl 1) (Nat.zero_le 1) (Nat.zero_le 1)

theorem Receiving.small (receiving : c.Receiving window k expected e) : e.Small := by
  obtain ⟨_, _, _, _, holds, _⟩ := receiving
  exact holds.small (le_refl 1) (Nat.zero_le 1) (Nat.zero_le 1) (Nat.zero_le 1)

theorem sending_keeps : (party Unexpired).Keeps c.Sending := by
  apply keeps_of_small
  · exact fun e sending => sending.small
  · rintro e ⟨start, holds⟩
    exact ⟨start, { holds with }⟩

theorem waiting_keeps : (party Unexpired).Keeps (Waiting window) := by
  apply keeps_of_small
  · exact fun e waiting => waiting.1.small
  · rintro e ⟨blank, same, room⟩
    exact ⟨{ blank with }, same, room⟩

theorem receiving_keeps : (party Unexpired).Keeps (c.Receiving window k expected) := by
  apply keeps_of_small
  · exact fun e receiving => receiving.small
  · rintro e ⟨same, next, remaining, start, holds, rest⟩
    exact ⟨same, next, remaining, start, { holds with }, rest⟩

theorem Receiving.last (receiving : c.Receiving window k [m] e) :
    e.ctsWindow = window ∧ ∃ next start, m = c.frame next ∧ 1 ≤ next ∧ next + 1 = k.1 + c.granted window k.1 ∧
      e.Holds (AList.singleton (c.ourSa, c.pgn) (c.inbound next 1 start)) ∅ ∅ ∅ := by
  obtain ⟨same, next, remaining, start, holds, positive, total, frames⟩ := receiving
  obtain rfl : remaining = 1 := by
    have length := congrArg length frames
    simp only [length_cons, length_nil, length_map, length_range'] at length
    exact length.symm
  exact ⟨same, next, start, (cons.inj frames).1, positive, total, holds⟩

theorem requested (waiting : Waiting window e) : (party may).Answers e c.request []
    [c.clear window 1] (c.Receiving window c.first (c.burst window 1)) := by
  obtain ⟨blank, rfl, room⟩ := waiting
  apply answers_of_handle blank.small
  intro now
  refine ⟨_, c.onFrame_request blank room now, rfl, rfl, 1, _, now, ?_, le_refl 1, rfl, rfl⟩
  exact { blank with rxConn := rfl }

theorem cleared (k : c.Start) (sending : c.Sending e) :
    (party may).Answers e (c.clear window k.1) [] (c.burst window k.1) c.Sending := by
  apply answers_of_handle sending.small
  obtain ⟨_, holds⟩ := sending
  intro now
  refine ⟨_, c.onFrame_clear holds.txConn k.2.1 k.2.2 now, rfl, now, ?_⟩
  exact { holds with txConn := rfl }

theorem continued {m' : TpOutFrame} (receiving : c.Receiving window k (m :: m' :: expected) e) :
    (party may).Answers e m [] [] (c.Receiving window k (m' :: expected)) := by
  apply answers_of_handle receiving.small
  obtain ⟨same, next, remaining, _, holds, positive, _, frames⟩ := receiving
  obtain ⟨_, _⟩ := c.granted_bounds window k.2.2
  obtain ⟨r, rfl⟩ : ∃ r, remaining = r + 2 := by
    have length := congrArg length frames
    simp only [length_cons, length_map, length_range'] at length
    exact ⟨remaining - 2, by omega⟩
  obtain ⟨rfl, others⟩ := cons.inj frames
  intro now
  refine ⟨_, c.onFrame_data holds.rxConn positive (by omega) (by omega) now, (append_nil _).symm, same, next + 1,
    r + 1, now, ?_, by omega, by omega, others⟩
  exact { holds with rxConn := rfl }

theorem resumed {k' : c.Start}
    (follows : c.following window k = some k')
    (receiving : c.Receiving window k [m] e) :
    (party may).Answers e m [] [c.clear window k'.1] (c.Receiving window k' (c.burst window k'.1)) := by
  apply answers_of_handle receiving.small
  obtain ⟨same, _, _, rfl, positive, total, holds⟩ := receiving.last
  rw [following] at follows
  split at follows
  · cases follows
    intro now
    have evaluated := c.onFrame_data_window holds.rxConn positive (by omega) now
    rw [same, total] at evaluated
    refine ⟨_, evaluated, rfl, rfl, _, _, now, ?_, le_trans k.2.1 (Nat.le_add_right _ _), rfl, rfl⟩
    exact { holds with rxConn := rfl }
  · cases follows

theorem completed
    (last : c.following window k = none)
    (receiving : c.Receiving window k [m] e) :
    (party may).Answers e m [.completed c.pgn c.ourSa c.payload] [c.acknowledge] Blank := by
  apply answers_of_handle receiving.small
  obtain ⟨_, next, _, rfl, _, _, holds⟩ := receiving.last
  obtain ⟨_, _⟩ := c.granted_bounds window k.2.2
  rw [following] at last
  split at last
  · cases last
  · obtain rfl : next = c.packets := by omega
    intro now
    refine ⟨_, c.onFrame_data_last holds.rxConn now, rfl, ?_⟩
    exact { holds with rxConn := rfl }

theorem acknowledged (sending : c.Sending e) : (party may).Answers e c.acknowledge [] [] Blank := by
  apply answers_of_handle sending.small
  obtain ⟨_, holds⟩ := sending
  intro now
  refine ⟨_, c.onFrame_acknowledge holds.txConn now, (append_nil _).symm, ?_⟩
  exact { holds with txConn := rfl }

end Laws

theorem burst_ne_nil : c.burst window k.1 ≠ [] := by
  have some := (c.granted_bounds window k.2.2).1
  rw [burst, ne_eq, map_eq_nil_iff, range'_eq_nil_iff]
  omega

theorem burst_cost : (c.burst window k.1).length + 1 +
      (c.following window k).elim 1 (fun k' => 2 * (c.packets + 1 - k'.1) + 1) ≤ 2 * (c.packets + 1 - k.1) + 1 := by
  obtain ⟨_, _⟩ := c.granted_bounds window k.2.2
  rw [burst, length_map, length_range', following]
  split
  · simp only [Option.elim_some]
    omega
  · simp only [Option.elim_none]
    omega

def transfer : BurstTransfer (TpEngine.party TpEngine.Unexpired) c.Start where
  first := c.first
  next := c.following window
  request := c.request
  clear k := c.clear window k.1
  burst k := c.burst window k.1
  acknowledge := c.acknowledge
  delivered := .completed c.pgn c.ourSa c.payload
  cost k := 2 * (c.packets + 1 - k.1) + 1
  Sending := c.Sending
  Waiting := Waiting window
  Receiving := c.Receiving window
  Done := TpEngine.Blank
  burst_ne_nil := c.burst_ne_nil window
  burst_cost := c.burst_cost window
  sending_keeps := sending_keeps
  waiting_keeps := waiting_keeps
  receiving_keeps _ _ := receiving_keeps
  done_keeps := TpEngine.blank_keeps
  requested _ := requested
  cleared _ k := cleared k
  continued _ _ _ _ _ := continued
  resumed _ _ _ _ := resumed
  completed _ _ _ := completed
  acknowledged _ := acknowledged

theorem started (blank : e.Blank) (start : Nat) :
    e.startOutboundConnection c.pgn c.priority c.ourSa c.destSa c.payload start =
      (.ok [c.request], { e with txConn := AList.singleton (c.destSa, c.pgn) (c.outbound start) }) := by
  have packets : packetsFor c.payload.length % 256 = packetsFor c.payload.length :=
    Nat.mod_eq_of_lt (Nat.lt_succ_of_le c.packets_le)
  simp only [startOutboundConnection, c.sized, and_self, not_true_eq_false, ite_false, packets, blank.txConn,
    Table.insert_empty, request, Connection.packets, outbound, OutboundConnSession.opened]

theorem transfer_at_start {e' : TpEngine}
    (blank : e.Blank)
    (waiting : Waiting e'.ctsWindow e')
    (start : Nat)
    (empty : e.pendingOut = [])
    (empty' : e'.pendingOut = []) :
    (c.transfer e'.ctsWindow).At (2 * c.packets + 2)
      ⟨{ e with txConn := AList.singleton (c.destSa, c.pgn) (c.outbound start) }, e', [c.request], []⟩ [] := by
  have sending : c.Sending { e with txConn := AList.singleton (c.destSa, c.pgn) (c.outbound start) } :=
    ⟨start, { blank with txConn := rfl }⟩
  exact BurstTransfer.at_start sending waiting empty empty'

end Connection

namespace TpEngine

open Link

theorem configured_waiting (timers : TpTimers) (maxSessions : Nat) (window : UInt8) (limit : Nat) :
    Connection.Waiting (configured timers maxSessions window limit).ctsWindow
      (configured timers maxSessions window limit) :=
  ⟨configured_blank _ _ _ _, rfl, lt_of_lt_of_le Nat.zero_lt_one (le_max_right _ _)⟩

/-- Every run over a reliable link is safe and bounded, and delivers the message once. -/
theorem connection_transfer_completes (timers timers' : TpTimers) (maxSessions maxSessions' : Nat)
    (window window' : UInt8) (limit limit' : Nat) (pgn : Pgn) (priority ourSa destSa : UInt8) (payload : List UInt8)
    (start : Nat)
    (sized : 9 ≤ payload.length ∧ payload.length ≤ 1785)
    (specific : destSa ≠ 0xFF) :
    ∃ frames sender, (configured timers maxSessions window limit).startOutboundConnection pgn priority ourSa destSa
      payload start = (.ok frames, sender) ∧ ∀ history l,
      Run (ReliableStep (party Unexpired)) ⟨sender, configured timers' maxSessions' window' limit', frames,
      []⟩ history l → progress history ≤ 4 * packetsFor payload.length + 4 ∧ l.Safe (party Unexpired) ∧
      nearEvents history = [] ∧ farEvents history <+: [.completed pgn ourSa payload] ∧
      (¬ l.Quiescent (party Unexpired) → ∃ call l', ReliableStep (party Unexpired) l call l' ∧ call.1.isTick = false) ∧
      (l.Quiescent (party Unexpired) → farEvents history = [.completed pgn ourSa payload] ∧ l.near.Blank ∧
      l.near.pendingOut = [] ∧ l.far.Blank ∧ l.far.pendingOut = []) := by
  let c : Connection := ⟨pgn, priority, ourSa, destSa, payload, specific, sized⟩
  refine ⟨_, _, c.started (configured_blank _ _ _ _) start, ?_⟩
  intro history l run
  have ready := c.transfer_at_start (configured_blank timers maxSessions window limit)
    (configured_waiting timers' maxSessions' window' limit') start rfl rfl
  obtain ⟨_, safe, silent, reported, active, ends⟩ := ready.every_run_completes (party_total _) run
  have packets : c.packets = packetsFor payload.length := rfl
  refine ⟨by omega, safe, silent, reported, active, ?_⟩
  intro quiescent
  obtain ⟨delivered, done, done'⟩ := ends quiescent
  exact ⟨delivered, done, (append_eq_nil_iff.mp quiescent.1).2, done', (append_eq_nil_iff.mp quiescent.2).2⟩

theorem connection_transfer_completes_two_packets :
    ∃ (history : List (Action TpOutFrame Nat × List TpEvent)) (l : Link TpEngine TpOutFrame) (sender : TpEngine),
      Run (ReliableStep (party Unexpired)) ⟨sender, configured ⟨750, 1250, 1250⟩ 1 1 0,
        [rtsFrame 0x10 0x20 6 ⟨61184, by decide⟩ 9 2 0xFF], []⟩ history l ∧
      farEvents history = [.completed ⟨61184, by decide⟩ 0x10 [1, 2, 3, 4, 5, 6, 7, 8, 9]] ∧ l.far.Blank := by
  let c : Connection := ⟨⟨61184, by decide⟩, 6, 0x10, 0x20, [1, 2, 3, 4, 5, 6, 7, 8, 9], by decide, by decide⟩
  have request : c.request = rtsFrame 0x10 0x20 6 ⟨61184, by decide⟩ 9 2 0xFF := by decide
  have ready := c.transfer_at_start (configured_blank ⟨750, 1250, 1250⟩ 1 1 0)
    (configured_waiting ⟨750, 1250, 1250⟩ 1 1 0) 0 rfl rfl
  obtain ⟨history, l, run, quiescent⟩ := ready.completes (party_total _)
  obtain ⟨frames, sender, opened, every⟩ :=
    connection_transfer_completes ⟨750, 1250, 1250⟩ ⟨750, 1250, 1250⟩ 1 1 1 1 0 0
      ⟨61184, by decide⟩ 6 0x10 0x20 [1, 2, 3, 4, 5, 6, 7, 8, 9] 0 (by decide) (by decide)
  cases (c.started (configured_blank ⟨750, 1250, 1250⟩ 1 1 0) 0).symm.trans opened
  obtain ⟨_, _, _, _, _, ends⟩ := every history l run
  obtain ⟨delivered, _, _, blank, _⟩ := ends quiescent
  rw [request] at run
  exact ⟨history, l, _, run, delivered, blank⟩

end TpEngine

end Taktora.J1939
