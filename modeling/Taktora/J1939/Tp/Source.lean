import Taktora.J1939.Tp.Connection

namespace Taktora.J1939

open Checked LittleEndian Packets Function Table List TpEngine

@[ext]
structure SourceSessions where
  bam : Pgn → Option InboundSession
  conn : Pgn → Option InboundConnSession
  etp : Pgn → Option InboundEtpSession

namespace SourceSessions

def empty : SourceSessions := ⟨fun _ => none, fun _ => none, fun _ => none⟩

def broadcast (pgn : Pgn) (s : InboundSession) : SourceSessions :=
  { empty with bam := Function.update (fun _ => none) pgn (some s) }

def connection (pgn : Pgn) (s : InboundConnSession) : SourceSessions :=
  { empty with conn := Function.update (fun _ => none) pgn (some s) }

end SourceSessions

open SourceSessions

namespace TpEngine

def sessionsOf (e : TpEngine) (source : UInt8) : SourceSessions :=
  ⟨fun pgn => e.sessions.lookup (source, pgn), fun pgn => e.rxConn.lookup (source, pgn),
    fun pgn => e.etpRx.lookup (source, pgn)⟩

section Tables

variable {e : TpEngine} {source other : UInt8} {pgn : Pgn}

theorem Reordered.sessionsOf {e' : TpEngine} (h : e.Reordered e') (source : UInt8) :
    e'.sessionsOf source = e.sessionsOf source := by
  simp only [TpEngine.sessionsOf, AList.perm_lookup h.sessions, AList.perm_lookup h.rxConn, AList.perm_lookup h.etpRx]

variable {ν : Type} {m m' : Table Key ν}

theorem lookup_source {value : Option ν}
    (changed : ∀ key, m'.lookup key = if key = (source, pgn) then value else m.lookup key) :
    (fun pgn' => m'.lookup (source, pgn')) = update (fun pgn' => m.lookup (source, pgn')) pgn value := by
  funext pgn'
  rw [changed, update_apply]
  simp only [Prod.mk.injEq, true_and]

theorem lookup_other {value : Option ν}
    (changed : ∀ key, m'.lookup key = if key = (source, pgn) then value else m.lookup key)
    (apart : other ≠ source) :
    (fun pgn' => m'.lookup (other, pgn')) = fun pgn' => m.lookup (other, pgn') := by
  funext pgn'
  rw [changed, if_neg fun same => apart (congrArg Prod.fst same)]

theorem firstKey_source {s : ν} (only : (fun pgn' => m.lookup (source, pgn')) = update (fun _ => none) pgn (some s)) :
    m.firstKey (·.1 == source) = some (source, pgn) ∧ m.lookup (source, pgn) = some s := by
  have found : m.lookup (source, pgn) = some s := (congrFun only pgn).trans (update_self pgn _ _)
  apply And.intro _ found
  apply firstKey_unique (mem_of_lookup found) (beq_self_eq_true source)
  intro key present matched
  obtain ⟨source', pgn'⟩ := key
  obtain rfl : source' = source := eq_of_beq matched
  obtain ⟨_, found'⟩ := lookup_of_mem present
  have here := congrFun only pgn'
  by_cases same : pgn' = pgn
  · rw [same]
  · rw [update_of_ne same] at here
    cases here.symm.trans found'

theorem absent_source
    (free : (fun pgn' => m.lookup (source, pgn')) = fun _ => none)
    (pgn : Pgn) : (source, pgn) ∉ m := by
  intro present
  obtain ⟨s, found⟩ := lookup_of_mem present
  cases (congrFun free pgn).symm.trans found

section Bam

variable {value : Option InboundSession} {table : Table Key InboundSession}
  (changed : ∀ key, table.lookup key = if key = (source, pgn) then value else e.sessions.lookup key)
include changed

theorem sessionsOf_bam (before : e.sessionsOf source = .empty ∨ ∃ old, e.sessionsOf source = .broadcast pgn old) :
    ({ e with sessions := table } : TpEngine).sessionsOf source =
      { empty with bam := update (fun _ => none) pgn value } := by
  have own : { e with sessions := table }.sessionsOf source =
      { e.sessionsOf source with bam := update (e.sessionsOf source).bam pgn value } :=
    SourceSessions.ext (lookup_source changed) rfl rfl
  rcases before with free | ⟨_, held⟩
  · rw [own, free, empty]
  · simp only [own, held, broadcast, update_idem]

theorem sessionsOf_bam_other (apart : other ≠ source) :
    ({ e with sessions := table } : TpEngine).sessionsOf other = e.sessionsOf other :=
  SourceSessions.ext (lookup_other changed apart) rfl rfl

end Bam

section Conn

variable {value : Option InboundConnSession} {table : Table Key InboundConnSession} {queue : List TpOutFrame}
  (changed : ∀ key, table.lookup key = if key = (source, pgn) then value else e.rxConn.lookup key)
include changed

theorem sessionsOf_conn (before : e.sessionsOf source = .empty ∨ ∃ old, e.sessionsOf source = .connection pgn old) :
    ({ e with rxConn := table, pendingOut := queue } : TpEngine).sessionsOf source =
      { empty with conn := update (fun _ => none) pgn value } := by
  have own : { e with rxConn := table, pendingOut := queue }.sessionsOf source =
      { e.sessionsOf source with conn := update (e.sessionsOf source).conn pgn value } :=
    SourceSessions.ext rfl (lookup_source changed) rfl
  rcases before with free | ⟨_, held⟩
  · rw [own, free, empty]
  · simp only [own, held, connection, update_idem]

theorem sessionsOf_conn_other (apart : other ≠ source) :
    ({ e with rxConn := table, pendingOut := queue } : TpEngine).sessionsOf other = e.sessionsOf other :=
  SourceSessions.ext rfl (lookup_other changed apart) rfl

end Conn

theorem onBamDt_taken {decoded : DecodedId} {seq : UInt8} {rest bytes : List UInt8} {key : Key} {s : InboundSession}
    (takes : InboundSession.Takes e decoded seq rest bytes key s) (now : Nat) : e.onFrame decoded (seq :: rest) now =
      if s.numPackets ≤ s.nextSeq then
        .ok ([.completed s.transportedPgn s.sourceAddr (s.buf ++ bytes)], { e with sessions := e.sessions.erase key })
      else .ok ([], { e with sessions := e.sessions.insert key (s.accept bytes now) }) := by
  obtain ⟨⟨kind, chosen, found⟩, expected, taken⟩ := takes
  have entered : e.onFrame decoded (seq :: rest) now = e.onBamDt decoded.sourceAddr (seq :: rest) now := by
    rw [dataKind] at kind
    split at kind
    · rename_i dt
      rw [onFrame, dt, if_neg (by decide), if_pos rfl, onDt, if_neg (cons_ne_nil _ _)]
      split at kind
      · rename_i broadcast
        rw [if_pos broadcast]
      · cases kind
    · split at kind <;> cases kind
  rw [entered, onBamDt, index_zero]
  simp only [chosen]
  rw [expect_ok found]
  simp only [expected, ne_eq, not_true_eq_false, ite_false, takenBytes_cons, ok_bind, ← taken, ge_iff_le]
  rfl

end Tables

end TpEngine

inductive Mode where
  | bam
  | conn (node maxPerCts : UInt8) (specific : node ≠ globalAddress)

def Mode.dest : Mode → UInt8
  | .bam => globalAddress
  | .conn node _ _ => node

structure SentMessage where
  pgn : Pgn
  priority : UInt8
  source : UInt8
  payload : List UInt8
  mode : Mode
  sized : tpMinPayload ≤ payload.length ∧ payload.length ≤ tpMaxPayload

namespace SentMessage

variable (m : SentMessage)

def packets : Nat := packetsFor m.payload.length

def announce : TpOutFrame :=
  match m.mode with
  | .bam => bamFrame m.source m.priority m.pgn m.payload.length
  | .conn node maxPerCts _ => rtsFrame m.source node m.priority m.pgn m.payload.length m.packets maxPerCts

def frame : Nat → TpOutFrame
  | 0 => m.announce
  | p + 1 => dtFrame dtPgn m.priority m.source m.mode.dest m.payload (p + 1) (p + 1)

def wirePriority : UInt8 := UInt8.ofNat (m.priority.toNat % 8)

def cleared (window maxPerCts : UInt8) : Nat → Nat
  | 0 => grantWindow m.packets window maxPerCts
  | n + 1 =>
    if cleared window maxPerCts n - 1 = 0 then grantWindow (m.packets - (n + 1)) window maxPerCts
    else cleared window maxPerCts n - 1

def bamSession (n start : Nat) : InboundSession :=
  { transportedPgn := m.pgn, sourceAddr := m.source, totalSize := m.payload.length, numPackets := m.packets
    nextSeq := n + 1, buf := m.payload.take (n * tpDtDataLen), lastActivity := start }

def connSession (window node maxPerCts : UInt8) (n start : Nat) : InboundConnSession :=
  { transportedPgn := m.pgn, peerSa := m.source, ourSa := node, priority := m.wirePriority
    totalSize := m.payload.length, totalPackets := m.packets, senderMaxPerCts := maxPerCts, nextSeq := n + 1
    windowRemaining := m.cleared window maxPerCts n, buf := m.payload.take (n * tpDtDataLen), lastActivity := start }

variable (window : UInt8)

def opened (n start : Nat) : SourceSessions :=
  match m.mode with
  | .bam => .broadcast m.pgn (m.bamSession n start)
  | .conn node maxPerCts _ => .connection m.pgn (m.connSession window node maxPerCts n start)

def sessionsAfter (times : List Nat) : SourceSessions :=
  match times.getLast? with
  | none => .empty
  | some last => if times.length ≤ m.packets then m.opened window (times.length - 1) last else .empty

def reports (sent : Nat) : List TpEvent :=
  if sent = m.packets then [.completed m.pgn m.source m.payload] else []

def answers (sent : Nat) : List TpOutFrame :=
  match m.mode with
  | .bam => []
  | .conn node maxPerCts _ =>
    if sent = m.packets then
      [endOfMsgAckFrame node m.source m.wirePriority m.pgn m.payload.length m.packets]
    else if sent = 0 ∨ m.cleared window maxPerCts (sent - 1) - 1 = 0 then
      [ctsFrame node m.source m.wirePriority m.pgn (m.cleared window maxPerCts sent) (sent + 1)]
    else []

theorem packets_le : m.packets ≤ 255 := packetsFor_tp m.sized.2

theorem payload_pos : 0 < m.payload.length := lt_of_lt_of_le (by decide) m.sized.1

theorem two_le_packets : 2 ≤ m.packets := by
  have long : 9 ≤ m.payload.length := m.sized.1
  unfold packets packetsFor
  omega

theorem sessionsAfter_snoc (times : List Nat) (now : Nat) : m.sessionsAfter window (times ++ [now]) =
      if times.length < m.packets then m.opened window times.length now else .empty := by
  unfold sessionsAfter
  rw [getLast?_concat, length_append, length_singleton]
  rfl

structure Received (times : List Nat) (now : Nat) (e e' : TpEngine) : Prop where
  own : e'.sessionsOf m.source = m.sessionsAfter e.ctsWindow (times ++ [now])
  others : ∀ other, other ≠ m.source → e'.sessionsOf other = e.sessionsOf other
  count : e'.totalInbound + (if times.length = m.packets then 1 else 0) = e.totalInbound + (if times = [] then 1 else 0)
  config : e.SameConfig e'
  queued : e'.pendingOut = e.pendingOut ++ m.answers e.ctsWindow times.length

section Receives

variable {m} {e : TpEngine} {times : List Nat}

theorem received_bam_announce
    (bam : m.mode = .bam)
    (free : e.sessionsOf m.source = .empty)
    (room : e.totalInbound < e.maxSessions)
    (now : Nat) :
    ∃ e', e.onFrame m.announce.decoded m.announce.data.1 now = .ok ([], e') ∧ m.Received [] now e e' := by
  have parsed : Pgn.new (join3 (byteAt m.pgn.value 0) (byteAt m.pgn.value 1) (byteAt m.pgn.value 2)) = .ok m.pgn :=
    cmBytes_pgn bamControl (byteAt m.payload.length 0) (byteAt m.payload.length 1)
      (UInt8.ofNat (packetsFor m.payload.length)) 0xFF m.pgn
  have absent := absent_source (congrArg SourceSessions.bam free) m.pgn
  have admitted : ¬((m.source, m.pgn) ∉ e.sessions ∧ e.totalInbound ≥ e.maxSessions) := by omega
  have positive : 0 < m.packets := lt_of_lt_of_le (by decide) m.two_le_packets
  have evaluated : e.onFrame m.announce.decoded m.announce.data.1 now =
      .ok ([], { e with sessions := e.sessions.insert (m.source, m.pgn) (m.bamSession 0 now) }) := by
    rw [announce, bam]
    rw [bamFrame, cmFrame_decoded rfl]
    show Except.ok (e.onBamCm m.source (cmBytes bamControl _ _ _ 0xFF m.pgn) now) = _
    simp only [onBamCm, cmBytes, parsed, sized_join2 m.sized.2, sized_packets m.sized.2, m.sized, and_self,
      not_true_eq_false, ite_false, ne_eq]
    rw [if_neg admitted]
    rfl
  refine ⟨_, evaluated, ?_, fun _ => sessionsOf_bam_other (lookup_insert_ite _ _ · _), ?_, ⟨rfl, rfl, rfl, rfl⟩, ?_⟩
  · rw [sessionsAfter_snoc, length_nil, if_pos positive, opened, bam]
    exact sessionsOf_bam (lookup_insert_ite _ _ · _) (.inl free)
  · have grown := size_insert_absent e.sessions (m.source, m.pgn) (m.bamSession 0 now) absent
    simp only [totalInbound, grown, length_nil, positive.ne, ite_false, ite_true]
    omega
  · rw [answers, bam]
    exact (append_nil _).symm

theorem received_conn_announce {node maxPerCts : UInt8} {specific : node ≠ globalAddress}
    (conn : m.mode = .conn node maxPerCts specific)
    (free : e.sessionsOf m.source = .empty)
    (room : e.totalInbound < e.maxSessions)
    (now : Nat) :
    ∃ e', e.onFrame m.announce.decoded m.announce.data.1 now = .ok ([], e') ∧ m.Received [] now e e' := by
  have parsed := rtsFrame_parse m.sized m.source node m.priority m.pgn maxPerCts
  rw [if_neg specific] at parsed
  have absent := absent_source (congrArg SourceSessions.conn free) m.pgn
  have admitted : ¬((m.source, m.pgn) ∉ e.rxConn ∧ e.totalInbound ≥ e.maxSessions) := by omega
  have positive : 0 < m.packets := lt_of_lt_of_le (by decide) m.two_le_packets
  have evaluated : e.onFrame m.announce.decoded m.announce.data.1 now = .ok ([], { e with
        rxConn := e.rxConn.insert (m.source, m.pgn) (m.connSession e.ctsWindow node maxPerCts 0 now)
        pendingOut := e.pendingOut ++
          [ctsFrame node m.source m.wirePriority m.pgn (m.cleared e.ctsWindow maxPerCts 0) 1] }) := by
    rw [announce, conn]
    rw [onFrame_rtsFrame, onRts, packets, parsed]
    dsimp only
    rw [if_neg admitted]
    rfl
  refine ⟨_, evaluated, ?_, fun _ => sessionsOf_conn_other (lookup_insert_ite _ _ · _), ?_, ⟨rfl, rfl, rfl, rfl⟩, ?_⟩
  · rw [sessionsAfter_snoc, length_nil, if_pos positive, opened, conn]
    exact sessionsOf_conn (lookup_insert_ite _ _ · _) (.inl free)
  · have grown := size_insert_absent e.rxConn (m.source, m.pgn) (m.connSession e.ctsWindow node maxPerCts 0 now) absent
    simp only [totalInbound, grown, length_nil, positive.ne, ite_false, ite_true]
    omega
  · simp only [answers, conn, length_nil, positive.ne, ite_false, true_or, ite_true]

section Data

variable {n last : Nat}

theorem filled (inside : n + 1 ≤ m.packets) : (m.payload.take (n * tpDtDataLen)).length = n * tpDtDataLen := by
  have short := packetsFor_short m.payload_pos inside
  rw [length_take]
  exact min_eq_left (le_of_lt short)

theorem take_append_last (last : n + 1 = m.packets) :
    m.payload.take (n * tpDtDataLen) ++ packet tpDtDataLen m.payload (n + 1) = m.payload := by
  have covers : m.payload.length ≤ (n + 1) * tpDtDataLen := last ▸ packetsFor_covers m.payload.length
  rw [take_append_packet, take_complete covers]

theorem frame_decoded (n : Nat) :
    (m.frame (n + 1)).decoded = wireId dtPgn m.priority m.source m.mode.dest := dtFrame_decoded rfl _ _ _ _ _ _

theorem packet_taken (inside : n + 1 ≤ m.packets) : packet tpDtDataLen m.payload (n + 1) =
      (padded tpDtDataLen 0xFF (packet tpDtDataLen m.payload (n + 1))).take
        (min (m.payload.length - (m.payload.take (n * tpDtDataLen)).length) tpDtDataLen) := by
  rw [filled inside]
  exact (take_padded_packet tpDtDataLen 0xFF m.payload (n + 1)).symm

theorem takes_bam
    (bam : m.mode = .bam)
    (held : e.sessionsOf m.source = m.opened e.ctsWindow n last)
    (inside : n + 1 ≤ m.packets) :
    InboundSession.Takes e (m.frame (n + 1)).decoded (UInt8.ofNat (n + 1))
      (padded tpDtDataLen 0xFF (packet tpDtDataLen m.payload (n + 1))) (packet tpDtDataLen m.payload (n + 1))
      (m.source, m.pgn) (m.bamSession n last) := by
  have small := m.packets_le
  rw [opened, bam] at held
  obtain ⟨chosen, found⟩ := firstKey_source (congrArg SourceSessions.bam held)
  refine ⟨⟨?_, ?_, found⟩, ofNat_toNat (by omega), packet_taken inside⟩
  · rw [frame_decoded, bam]
    rfl
  · rw [frame_decoded]
    exact chosen

variable {node maxPerCts : UInt8}

theorem takes_conn {specific : node ≠ globalAddress}
    (conn : m.mode = .conn node maxPerCts specific)
    (held : e.sessionsOf m.source = m.opened e.ctsWindow n last)
    (inside : n + 1 ≤ m.packets) :
    InboundConnSession.Takes e (m.frame (n + 1)).decoded (UInt8.ofNat (n + 1))
      (padded tpDtDataLen 0xFF (packet tpDtDataLen m.payload (n + 1))) (packet tpDtDataLen m.payload (n + 1))
      (m.source, m.pgn) (m.connSession e.ctsWindow node maxPerCts n last) := by
  have small := m.packets_le
  rw [opened, conn] at held
  obtain ⟨chosen, found⟩ := firstKey_source (congrArg SourceSessions.conn held)
  refine ⟨⟨?_, ?_, found⟩, ofNat_toNat (by omega), packet_taken inside⟩
  · rw [frame_decoded, dataKind_dt, conn]
    exact congrArg some (if_neg specific)
  · rw [frame_decoded]
    exact chosen

theorem bamSession_accept (more : n + 1 < m.packets) (now : Nat) :
    (m.bamSession n last).accept (packet tpDtDataLen m.payload (n + 1)) now = m.bamSession (n + 1) now := by
  have small := m.packets_le
  have wraps : (n + 1 + 1) % 256 = n + 1 + 1 := Nat.mod_eq_of_lt (by omega)
  simp only [InboundSession.accept, bamSession, wraps, take_append_packet]

theorem connSession_accept {window : UInt8} (more : n + 1 < m.packets) {remaining : Nat}
    (left : remaining = m.cleared window maxPerCts (n + 1)) (now : Nat) :
    (m.connSession window node maxPerCts n last).accept (packet tpDtDataLen m.payload (n + 1)) remaining now =
      m.connSession window node maxPerCts (n + 1) now := by
  have small := m.packets_le
  have wraps : (n + 1 + 1) % 256 = n + 1 + 1 := Nat.mod_eq_of_lt (by omega)
  simp only [InboundConnSession.accept, connSession, wraps, take_append_packet, left]

theorem sessionsAfter_of_length
    (length : times.length = n + 1)
    (inside : n + 1 ≤ m.packets)
    (window : UInt8) :
    ∃ last, m.sessionsAfter window times = m.opened window n last := by
  unfold sessionsAfter
  cases ended : times.getLast? with
  | none =>
    rw [getLast?_eq_none_iff.mp ended] at length
    cases length
  | some last =>
    apply Exists.intro last
    simp only [length, inside, ite_true, Nat.add_sub_cancel]

theorem received_bam_data
    (bam : m.mode = .bam)
    (held : e.sessionsOf m.source = m.opened e.ctsWindow n last)
    (length : times.length = n + 1)
    (inside : n + 1 ≤ m.packets)
    (now : Nat) :
    ∃ e', e.onFrame (m.frame (n + 1)).decoded (m.frame (n + 1)).data.1 now = .ok (m.reports (n + 1), e') ∧
      m.Received times now e e' := by
  have evaluated := onBamDt_taken (takes_bam bam held inside) now
  have begun : times ≠ [] := ne_nil_of_length_eq_add_one length
  rw [opened, bam] at held
  have present := mem_of_lookup (firstKey_source (congrArg SourceSessions.bam held)).2
  by_cases done : n + 1 = m.packets
  · have whole : (m.bamSession n last).buf ++ packet tpDtDataLen m.payload (n + 1) = m.payload := take_append_last done
    have finished : (m.bamSession n last).numPackets ≤ (m.bamSession n last).nextSeq := le_of_eq done.symm
    rw [if_pos finished, whole] at evaluated
    rw [reports, if_pos done]
    refine ⟨_, evaluated, ?_, fun _ => sessionsOf_bam_other (lookup_erase_ite _ _), ?_, ⟨rfl, rfl, rfl, rfl⟩, ?_⟩
    · rw [sessionsAfter_snoc, length, if_neg (not_lt.mpr (Nat.le_of_eq done.symm)),
        sessionsOf_bam (lookup_erase_ite _ _) (.inr ⟨_, held⟩)]
      simp only [empty, update_eq_self]
    · have shrunk := size_erase e.sessions (m.source, m.pgn) present
      simp only [totalInbound, length, done, begun, ite_true, ite_false]
      omega
    · rw [answers, bam]
      exact (append_nil _).symm
  · have more : n + 1 < m.packets := by omega
    have unfinished : ¬(m.bamSession n last).numPackets ≤ (m.bamSession n last).nextSeq := not_le.mpr more
    rw [if_neg unfinished, bamSession_accept more] at evaluated
    rw [reports, if_neg done]
    refine ⟨_, evaluated, ?_, fun _ => sessionsOf_bam_other (lookup_insert_ite _ _ · _), ?_, ⟨rfl, rfl, rfl, rfl⟩, ?_⟩
    · rw [sessionsAfter_snoc, length, if_pos more, opened, bam]
      exact sessionsOf_bam (lookup_insert_ite _ _ · _) (.inr ⟨_, held⟩)
    · have same := size_insert_present e.sessions (m.source, m.pgn) (m.bamSession (n + 1) now) present
      simp only [totalInbound, length, done, begun, same, ite_false]
    · rw [answers, bam]
      exact (append_nil _).symm

section Conn

variable {node maxPerCts : UInt8} {specific : node ≠ globalAddress} (conn : m.mode = .conn node maxPerCts specific)
variable (held : e.sessionsOf m.source = m.opened e.ctsWindow n last)
include conn held

theorem onFrame_conn_last (done : n + 1 = m.packets) (now : Nat) :
    e.onFrame (m.frame (n + 1)).decoded (m.frame (n + 1)).data.1 now =
      .ok ([.completed m.pgn m.source m.payload], { e with
          rxConn := e.rxConn.erase (m.source, m.pgn)
          pendingOut := e.pendingOut ++ m.answers e.ctsWindow (n + 1) }) := by
  have takes := takes_conn conn held (le_of_eq done)
  have evaluated := (onFrame_connDt takes.kind).trans (onConnDt_taken takes now)
  have whole : (m.connSession e.ctsWindow node maxPerCts n last).buf ++ packet tpDtDataLen m.payload (n + 1) =
      m.payload := take_append_last done
  have finished : (m.connSession e.ctsWindow node maxPerCts n last).totalPackets ≤
      (m.connSession e.ctsWindow node maxPerCts n last).nextSeq := le_of_eq done.symm
  rw [if_pos finished, whole] at evaluated
  rw [answers, conn]
  dsimp only
  rw [if_pos done]
  exact evaluated

theorem onFrame_conn_more (more : n + 1 < m.packets) (now : Nat) :
    e.onFrame (m.frame (n + 1)).decoded (m.frame (n + 1)).data.1 now =
      .ok ([], { e with
        rxConn := e.rxConn.insert (m.source, m.pgn) (m.connSession e.ctsWindow node maxPerCts (n + 1) now)
        pendingOut := e.pendingOut ++ m.answers e.ctsWindow (n + 1) }) := by
  have small := m.packets_le
  have takes := takes_conn conn held (le_of_lt more)
  have evaluated := (onFrame_connDt takes.kind).trans (onConnDt_taken takes now)
  have unfinished : ¬(m.connSession e.ctsWindow node maxPerCts n last).totalPackets ≤
      (m.connSession e.ctsWindow node maxPerCts n last).nextSeq := not_le.mpr more
  rw [if_neg unfinished] at evaluated
  simp only [answers, conn, more.ne, Nat.succ_ne_zero, Nat.add_sub_cancel, false_or, ite_false]
  by_cases used : m.cleared e.ctsWindow maxPerCts n - 1 = 0
  · have window : (m.connSession e.ctsWindow node maxPerCts n last).windowRemaining - 1 = 0 := used
    have wraps : ((m.connSession e.ctsWindow node maxPerCts n last).nextSeq + 1) % 256 = n + 1 + 1 :=
      Nat.mod_eq_of_lt (by show n + 1 + 1 < 256; omega)
    have total : (m.connSession e.ctsWindow node maxPerCts n last).totalPackets = m.packets := rfl
    have granted : grantWindow (m.packets - (n + 1)) e.ctsWindow
        (m.connSession e.ctsWindow node maxPerCts n last).senderMaxPerCts = m.cleared e.ctsWindow maxPerCts (n + 1) :=
      (if_pos used).symm
    rw [if_pos window, wraps, sub_ok (Nat.le_add_left 1 (n + 1)), ok_bind, Nat.add_sub_cancel, total,
      sub_ok (le_of_lt more), ok_bind, granted] at evaluated
    dsimp only at evaluated
    rw [connSession_accept more rfl] at evaluated
    rw [if_pos used]
    exact evaluated
  · have window : ¬(m.connSession e.ctsWindow node maxPerCts n last).windowRemaining - 1 = 0 := used
    have left : (m.connSession e.ctsWindow node maxPerCts n last).windowRemaining - 1 =
        m.cleared e.ctsWindow maxPerCts (n + 1) := (if_neg used).symm
    rw [if_neg window, connSession_accept more left] at evaluated
    rw [if_neg used, append_nil]
    exact evaluated

theorem received_conn_data
    (length : times.length = n + 1)
    (inside : n + 1 ≤ m.packets)
    (now : Nat) :
    ∃ e', e.onFrame (m.frame (n + 1)).decoded (m.frame (n + 1)).data.1 now = .ok (m.reports (n + 1), e') ∧
      m.Received times now e e' := by
  have begun : times ≠ [] := ne_nil_of_length_eq_add_one length
  have opened_ := held
  rw [opened, conn] at opened_
  have present := mem_of_lookup (firstKey_source (congrArg SourceSessions.conn opened_)).2
  rcases lt_or_eq_of_le inside with more | done
  · have evaluated := onFrame_conn_more conn held more now
    rw [reports, if_neg more.ne]
    refine ⟨_, evaluated, ?_, fun _ => sessionsOf_conn_other (lookup_insert_ite _ _ · _), ?_, ⟨rfl, rfl, rfl, rfl⟩,
      by rw [length]⟩
    · rw [sessionsAfter_snoc, length, if_pos more, opened, conn]
      exact sessionsOf_conn (lookup_insert_ite _ _ · _) (.inr ⟨_, opened_⟩)
    · have same := size_insert_present e.rxConn (m.source, m.pgn)
        (m.connSession e.ctsWindow node maxPerCts (n + 1) now) present
      simp only [totalInbound, length, more.ne, begun, same, ite_false]
  · have evaluated := onFrame_conn_last conn held done now
    rw [reports, if_pos done]
    refine ⟨_, evaluated, ?_, fun _ => sessionsOf_conn_other (lookup_erase_ite _ _), ?_, ⟨rfl, rfl, rfl, rfl⟩,
      by rw [length]⟩
    · rw [sessionsAfter_snoc, length, if_neg (not_lt.mpr (Nat.le_of_eq done.symm)),
        sessionsOf_conn (lookup_erase_ite _ _) (.inr ⟨_, opened_⟩)]
      simp only [empty, update_eq_self]
    · have shrunk := size_erase e.rxConn (m.source, m.pgn) present
      simp only [totalInbound, length, done, begun, ite_true, ite_false]
      omega

end Conn

end Data

/-- A frame of the message advances the session of its source as its place in the message says, and nothing else. -/
theorem receives
    (held : e.sessionsOf m.source = m.sessionsAfter e.ctsWindow times)
    (room : times = [] → e.totalInbound < e.maxSessions)
    (inside : times.length ≤ m.packets)
    (now : Nat) :
    ∃ e', e.onFrame (m.frame times.length).decoded (m.frame times.length).data.1 now =
      .ok (m.reports times.length, e') ∧ m.Received times now e e' := by
  rcases length : times.length with _ | n
  · obtain rfl := eq_nil_of_length_eq_zero length
    have silent : m.reports 0 = [] := if_neg (ne_of_lt (lt_of_lt_of_le (by decide) m.two_le_packets))
    rw [silent]
    rcases mode : m.mode with _ | ⟨_, _⟩
    · exact received_bam_announce mode held (room rfl) now
    · exact received_conn_announce mode held (room rfl) now
  · rw [length] at inside
    obtain ⟨_, opened⟩ := sessionsAfter_of_length length inside e.ctsWindow
    rw [opened] at held
    rcases mode : m.mode with _ | ⟨_, _⟩
    · exact received_bam_data mode held length inside now
    · exact received_conn_data mode held length inside now

end Receives

end SentMessage

end Taktora.J1939
