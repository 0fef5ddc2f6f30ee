import Taktora.J1939.Tp.Engine

namespace Taktora.J1939

open Checked LittleEndian CmBytes List Except

inductive TpInput where
  | frame (decoded : DecodedId) (data : List UInt8) (now : Nat)
  | startConnection (pgn : Pgn) (priority ourSa destAddr : UInt8) (payload : List UInt8) (now : Nat)
  | startEtp (pgn : Pgn) (priority ourSa destAddr : UInt8) (payload : List UInt8) (now : Nat)
  | takeOutbound
  | pollTimeouts (now : Nat)

def TpEngine.handle (e : TpEngine) : TpInput → Outcome
  | .frame decoded data now => e.onFrame decoded data now
  | .startConnection pgn priority ourSa destAddr payload now =>
    .ok ([], (e.startOutboundConnection pgn priority ourSa destAddr payload now).2)
  | .startEtp pgn priority ourSa destAddr payload now =>
    .ok ([], (e.startOutboundEtp pgn priority ourSa destAddr payload now).2)
  | .takeOutbound => .ok ([], e.takeOutbound.2)
  | .pollTimeouts now => e.pollTimeouts now

inductive SessionKind where
  | bam
  | conn
  | etp
deriving DecidableEq

structure Announcement where
  kind : SessionKind
  key : Key
  totalSize : Nat
deriving DecidableEq

def bamAnnouncement (sourceAddr : UInt8) (b : CmBytes) : Option Announcement :=
  match Pgn.new (transportedPgnFrom b) with
  | .error _ => none
  | .ok pgn =>
    let totalSize := join2 b.b1 b.b2
    if tpMinPayload ≤ totalSize ∧ totalSize ≤ tpMaxPayload ∧ b.b3.toNat = packetsFor totalSize
    then some ⟨.bam, (sourceAddr, pgn), totalSize⟩ else none

def ConnRtsParams.announcement (p : ConnRtsParams) : Announcement := ⟨.conn, (p.peerSa, p.pgn), p.totalSize⟩
def EtpRtsParams.announcement (p : EtpRtsParams) : Announcement := ⟨.etp, (p.peerSa, p.pgn), p.totalSize⟩

def announcement (decoded : DecodedId) (data : List UInt8) : Option Announcement :=
  match CmBytes.ofData data with
  | none => none
  | some b =>
    if decoded.pgn.value = tpCmPgn then
      if b.b0 = bamControl then bamAnnouncement decoded.sourceAddr b
      else if b.b0 = rtsControl then (parseConnRts decoded b).map ConnRtsParams.announcement
      else none
    else if decoded.pgn.value = etpCmPgn then
      if b.b0 = etpRtsControl then (parseEtpRts decoded b).map EtpRtsParams.announcement else none
    else none

def TpInput.announced : TpInput → Option Announcement
  | .frame decoded data _ => announcement decoded data
  | _ => none

def dataKind (decoded : DecodedId) : Option SessionKind :=
  if decoded.pgn.value = tpDtPgn then
    if decoded.destAddr = some globalAddress ∨ decoded.destAddr = none then some .bam else some .conn
  else if decoded.pgn.value = etpDtPgn then some .etp
  else none

theorem announcement_data {decoded : DecodedId} {kind : SessionKind} (dt : dataKind decoded = some kind)
    (data : List UInt8) : announcement decoded data = none := by
  have wire : decoded.pgn.value = tpDtPgn ∨ decoded.pgn.value = etpDtPgn := by
    unfold dataKind at dt
    split at dt
    · exact .inl ‹_›
    · split at dt
      · exact .inr ‹_›
      · cases dt
  unfold announcement
  cases ofData data with
  | none => rfl
  | some b => rcases wire with wire | wire <;> rw [wire] <;> rfl

section

variable {data : List UInt8} {decoded : DecodedId} {b : CmBytes}

theorem announcement_short (short : ofData data = none) (decoded : DecodedId) : announcement decoded data = none := by
  rw [announcement, short]

theorem announcement_cm
    (bytes : ofData data = some b)
    (cm : decoded.pgn.value = tpCmPgn)
    (bam : b.b0 ≠ bamControl)
    (rts : b.b0 ≠ rtsControl) : announcement decoded data = none := by
  simp only [announcement, bytes, cm, bam, rts, ite_true, ite_false]

theorem announcement_etpCm
    (bytes : ofData data = some b)
    (cm : decoded.pgn.value = etpCmPgn)
    (rts : b.b0 ≠ etpRtsControl) : announcement decoded data = none := by
  simp only [announcement, bytes, cm, rts, ite_true, ite_false, show (etpCmPgn = tpCmPgn) = False from by decide]

inductive Control where
  | cts
  | eoma
  | abort
  | etpCts
  | etpDpo
  | etpEoma
  | etpAbort
deriving DecidableEq

def control (decoded : DecodedId) (data : List UInt8) : Option (Control × Pgn × CmBytes) :=
  match CmBytes.ofData data with
  | none => none
  | some b =>
    match Pgn.new (transportedPgnFrom b) with
    | .error _ => none
    | .ok pgn =>
      if decoded.pgn.value = tpCmPgn then
        if b.b0 = ctsControl then some (.cts, pgn, b)
        else if b.b0 = eomaControl then some (.eoma, pgn, b)
        else if b.b0 = connAbortControl then some (.abort, pgn, b)
        else none
      else if decoded.pgn.value = etpCmPgn then
        if b.b0 = etpCtsControl then some (.etpCts, pgn, b)
        else if b.b0 = etpDpoControl then some (.etpDpo, pgn, b)
        else if b.b0 = etpEomaControl then some (.etpEoma, pgn, b)
        else if b.b0 = etpAbortControl then some (.etpAbort, pgn, b)
        else none
      else none

def Control.wirePgn : Control → Nat
  | .cts | .eoma | .abort => tpCmPgn
  | .etpCts | .etpDpo | .etpEoma | .etpAbort => etpCmPgn

def Control.code : Control → UInt8
  | .cts => ctsControl
  | .eoma => eomaControl
  | .abort => connAbortControl
  | .etpCts => etpCtsControl
  | .etpDpo => etpDpoControl
  | .etpEoma => etpEomaControl
  | .etpAbort => etpAbortControl

theorem control_sound {c : Control} {pgn : Pgn}
    (named : control decoded data = some (c, pgn, b)) :
    decoded.pgn.value = c.wirePgn ∧ ofData data = some b ∧ b.b0 = c.code ∧
      Pgn.new (transportedPgnFrom b) = .ok pgn := by
  unfold control at named
  cases bytes : ofData data with
  | none => simp only [bytes] at named; cases named
  | some b' =>
    cases parsed : Pgn.new (transportedPgnFrom b') with
    | error error => simp only [bytes, parsed] at named; cases named
    | ok pgn' =>
      simp only [bytes, parsed] at named
      repeat' split at named
      all_goals cases named
      all_goals exact ⟨‹_›, rfl, ‹_›, parsed⟩

theorem control_complete {c : Control} {pgn : Pgn}
    (bytes : ofData data = some b)
    (cm : decoded.pgn.value = c.wirePgn)
    (code : b.b0 = c.code)
    (parsed : Pgn.new (transportedPgnFrom b) = .ok pgn) : control decoded data = some (c, pgn, b) := by
  simp only [control, bytes, parsed, cm, code]
  cases c <;> rfl

theorem announcement_control {named : Control × Pgn × CmBytes}
    (h : control decoded data = some named) : announcement decoded data = none := by
  obtain ⟨c, _, b⟩ := named
  obtain ⟨cm, bytes, code, _⟩ := control_sound h
  rw [announcement, bytes]
  dsimp only
  rw [cm, code]
  cases c <;> rfl

end

def InboundSession.opened (a : Announcement) (now : Nat) : InboundSession :=
  { transportedPgn := a.key.2, sourceAddr := a.key.1, totalSize := a.totalSize
    numPackets := packetsFor a.totalSize, nextSeq := 1, buf := [], lastActivity := now }

def InboundConnSession.opened (p : ConnRtsParams) (window now : Nat) : InboundConnSession :=
  { transportedPgn := p.pgn, peerSa := p.peerSa, ourSa := p.ourSa, priority := p.priority
    totalSize := p.totalSize, totalPackets := p.totalPackets, senderMaxPerCts := p.senderMaxPerCts
    nextSeq := 1, windowRemaining := window, buf := [], lastActivity := now }

def InboundEtpSession.opened (p : EtpRtsParams) (now : Nat) : InboundEtpSession :=
  { transportedPgn := p.pgn, peerSa := p.peerSa, ourSa := p.ourSa, priority := p.priority
    totalSize := p.totalSize, totalPackets := packetsFor p.totalSize % 2 ^ 32, nextPacket := 1, dpoOffset := 0
    burstRemaining := 0, buf := List.replicate p.totalSize 0, lastActivity := now }

def InboundSession.accept (s : InboundSession) (bytes : List UInt8) (now : Nat) : InboundSession :=
  { s with buf := s.buf ++ bytes, lastActivity := now, nextSeq := (s.nextSeq + 1) % 256 }

def InboundConnSession.accept (s : InboundConnSession) (bytes : List UInt8) (window now : Nat) : InboundConnSession :=
  { s with
    buf := s.buf ++ bytes, lastActivity := now, nextSeq := (s.nextSeq + 1) % 256, windowRemaining := window }

def InboundEtpSession.accept (s : InboundEtpSession) (buf : List UInt8) (now : Nat) : InboundEtpSession :=
  { s with buf, nextPacket := s.nextPacket + 1, burstRemaining := s.burstRemaining - 1, lastActivity := now }

def InboundEtpSession.startBurst (s : InboundEtpSession) (offset count now : Nat) : InboundEtpSession :=
  { s with dpoOffset := offset, burstRemaining := count, lastActivity := now }

def OutboundConnSession.touch (s : OutboundConnSession) (now : Nat) : OutboundConnSession :=
  { s with lastActivity := now }

def OutboundEtpSession.touch (s : OutboundEtpSession) (now : Nat) : OutboundEtpSession :=
  { s with lastActivity := now }

def OutboundConnSession.opened (pgn : Pgn) (priority ourSa destSa : UInt8) (payload : List UInt8) (now : Nat) :
    OutboundConnSession :=
  { transportedPgn := pgn, ourSa, destSa, priority, payload
    totalPackets := packetsFor payload.length % 256, lastActivity := now }

def OutboundEtpSession.opened (pgn : Pgn) (priority ourSa destSa : UInt8) (payload : List UInt8) (now : Nat) :
    OutboundEtpSession :=
  { transportedPgn := pgn, ourSa, destSa, priority, payload
    totalPackets := packetsFor payload.length % 2 ^ 32, lastActivity := now }

/-- A data frame goes to the session `s` of its table. -/
structure Chooses {ν : Type} (k : SessionKind) (m : Table Key ν) (decoded : DecodedId) (key : Key) (s : ν) : Prop where
  kind : dataKind decoded = some k
  chosen : m.firstKey (·.1 == decoded.sourceAddr) = some key
  found : m.lookup key = some s

theorem Chooses.source {ν : Type} {k : SessionKind} {m : Table Key ν} {decoded : DecodedId} {key : Key} {s : ν}
    (chooses : Chooses k m decoded key s) : decoded.sourceAddr = key.1 :=
  (beq_iff_eq.mp (Table.firstKey_some chooses.chosen).2).symm

/-- `s` is the session chosen for the data frame `seq :: rest`, and it takes `bytes` from it. -/
structure InboundSession.Takes (e : TpEngine) (decoded : DecodedId) (seq : UInt8) (rest bytes : List UInt8)
    (key : Key) (s : InboundSession) : Prop extends Chooses .bam e.sessions decoded key s where
  expected : seq.toNat = s.nextSeq
  taken : bytes = rest.take (min (s.totalSize - s.buf.length) tpDtDataLen)

structure InboundConnSession.Takes (e : TpEngine) (decoded : DecodedId) (seq : UInt8) (rest bytes : List UInt8)
    (key : Key) (s : InboundConnSession) : Prop extends Chooses .conn e.rxConn decoded key s where
  expected : seq.toNat = s.nextSeq
  taken : bytes = rest.take (min (s.totalSize - s.buf.length) tpDtDataLen)

structure InboundEtpSession.Takes (e : TpEngine) (decoded : DecodedId) (seq : UInt8) (rest bytes buf : List UInt8)
    (key : Key) (s : InboundEtpSession) : Prop extends Chooses .etp e.etpRx decoded key s where
  expected : saturate32 (s.dpoOffset + seq.toNat) = s.nextPacket
  positive : s.nextPacket ≠ 0
  inside : s.nextPacket ≤ s.totalPackets
  taken : bytes = rest.take (min (s.totalSize - (s.nextPacket - 1) * tpDtDataLen) tpDtDataLen)
  written : copyFromSlice s.buf ((s.nextPacket - 1) * tpDtDataLen)
    ((s.nextPacket - 1) * tpDtDataLen + bytes.length) bytes = .ok buf

namespace TpEngine

variable (e : TpEngine) (now : Nat)

def timeoutFrames : List TpOutFrame :=
  (e.rxConn.matching fun s => idleLongerThan e.timers.t2 now s.lastActivity).map InboundConnSession.timeoutFrame ++
  (e.txConn.matching fun s => idleLongerThan e.timers.t3 now s.lastActivity).map OutboundConnSession.timeoutFrame ++
  (e.etpRx.matching fun s => idleLongerThan e.timers.t2 now s.lastActivity).map InboundEtpSession.timeoutFrame ++
  (e.etpTx.matching fun s => idleLongerThan e.timers.t3 now s.lastActivity).map OutboundEtpSession.timeoutFrame

def timeoutEvents : List TpEvent :=
  (e.sessions.matching fun s => idleLongerThan e.timers.t1 now s.lastActivity).map (·.aborted .timeout) ++
  (e.rxConn.matching fun s => idleLongerThan e.timers.t2 now s.lastActivity).map (·.aborted .timeout) ++
  (e.txConn.matching fun s => idleLongerThan e.timers.t3 now s.lastActivity).map (·.aborted .timeout) ++
  (e.etpRx.matching fun s => idleLongerThan e.timers.t2 now s.lastActivity).map (·.aborted .timeout) ++
  (e.etpTx.matching fun s => idleLongerThan e.timers.t3 now s.lastActivity).map (·.aborted .timeout)

def swept : TpEngine :=
  { e with
    sessions := e.sessions.retain fun s => !idleLongerThan e.timers.t1 now s.lastActivity
    rxConn := e.rxConn.retain fun s => !idleLongerThan e.timers.t2 now s.lastActivity
    txConn := e.txConn.retain fun s => !idleLongerThan e.timers.t3 now s.lastActivity
    etpRx := e.etpRx.retain fun s => !idleLongerThan e.timers.t2 now s.lastActivity
    etpTx := e.etpTx.retain fun s => !idleLongerThan e.timers.t3 now s.lastActivity
    pendingOut := e.pendingOut ++ e.timeoutFrames now }

theorem pollTimeouts_eq : e.pollTimeouts now = .ok (e.timeoutEvents now, e.swept now) := by
  simp only [pollTimeouts, pollEtpTimeouts, Table.removeAll_matching, ok_bind, swept, timeoutEvents, timeoutFrames,
    append_assoc]

end TpEngine

inductive Effect (e : TpEngine) : TpInput → List TpEvent → TpEngine → Prop where
  | ignored {i} (silent : i.announced = none) : Effect e i [] e
  | bamRefused {decoded data now a} (announced : announcement decoded data = some a) (kind : a.kind = .bam)
      (absent : a.key ∉ e.sessions) (full : e.maxSessions ≤ e.totalInbound) :
      Effect e (.frame decoded data now) [.sessionRefused a.key.2 a.key.1 .resources] e
  | bamOpened {decoded data now a} (announced : announcement decoded data = some a) (kind : a.kind = .bam)
      (room : a.key ∈ e.sessions ∨ e.totalInbound < e.maxSessions) :
      Effect e (.frame decoded data now) []
        { e with sessions := e.sessions.insert a.key (InboundSession.opened a now) }
  | bamAccepted {decoded seq rest now bytes key s} (takes : InboundSession.Takes e decoded seq rest bytes key s)
      (more : seq.toNat < s.numPackets) :
      Effect e (.frame decoded (seq :: rest) now) []
        { e with sessions := e.sessions.insert key (s.accept bytes now) }
  | bamCompleted {decoded seq rest now bytes key s} (takes : InboundSession.Takes e decoded seq rest bytes key s)
      (last : s.numPackets ≤ seq.toNat) :
      Effect e (.frame decoded (seq :: rest) now) [.completed s.transportedPgn s.sourceAddr (s.buf ++ bytes)]
        { e with sessions := e.sessions.erase key }
  | connRefused {decoded data b now p} (bytes : CmBytes.ofData data = some b) (parsed : parseConnRts decoded b = some p)
      (announced : announcement decoded data = some p.announcement)
      (absent : p.announcement.key ∉ e.rxConn) (full : e.maxSessions ≤ e.totalInbound) :
      Effect e (.frame decoded data now) [.sessionRefused p.pgn p.peerSa .resources]
        { e with pendingOut := e.pendingOut ++ [connAbortFrame p.ourSa p.peerSa p.priority p.pgn .resources] }
  | connOpened {decoded data b now p window} (bytes : CmBytes.ofData data = some b)
      (parsed : parseConnRts decoded b = some p) (announced : announcement decoded data = some p.announcement)
      (room : p.announcement.key ∈ e.rxConn ∨ e.totalInbound < e.maxSessions)
      (granted : window = grantWindow p.totalPackets e.ctsWindow p.senderMaxPerCts) :
      Effect e (.frame decoded data now) []
        { e with
          rxConn := e.rxConn.insert p.announcement.key (InboundConnSession.opened p window now)
          pendingOut := e.pendingOut ++ [ctsFrame p.ourSa p.peerSa p.priority p.pgn window 1] }
  | connWaiting {decoded seq rest now bytes key s} (takes : InboundConnSession.Takes e decoded seq rest bytes key s)
      (more : seq.toNat < s.totalPackets) (open_ : s.windowRemaining - 1 ≠ 0) :
      Effect e (.frame decoded (seq :: rest) now) []
        { e with rxConn := e.rxConn.insert key (s.accept bytes (s.windowRemaining - 1) now) }
  | connGranted {decoded seq rest now bytes key s window}
      (takes : InboundConnSession.Takes e decoded seq rest bytes key s)
      (more : seq.toNat < s.totalPackets) (used : s.windowRemaining - 1 = 0)
      (granted : window = grantWindow (s.totalPackets - s.nextSeq) e.ctsWindow s.senderMaxPerCts) :
      Effect e (.frame decoded (seq :: rest) now) []
        { e with
          rxConn := e.rxConn.insert key (s.accept bytes window now)
          pendingOut := e.pendingOut ++
            [ctsFrame s.ourSa s.peerSa s.priority s.transportedPgn window ((s.nextSeq + 1) % 256)] }
  | connCompleted {decoded seq rest now bytes key s} (takes : InboundConnSession.Takes e decoded seq rest bytes key s)
      (last : s.totalPackets ≤ seq.toNat) :
      Effect e (.frame decoded (seq :: rest) now) [.completed s.transportedPgn s.peerSa (s.buf ++ bytes)]
        { e with
          rxConn := e.rxConn.erase key
          pendingOut := e.pendingOut ++
            [endOfMsgAckFrame s.ourSa s.peerSa s.priority s.transportedPgn s.totalSize s.totalPackets] }
  | cts {decoded data now pgn b s burst} (named : control decoded data = some (.cts, pgn, b))
      (found : e.txConn.lookup (decoded.sourceAddr, pgn) = some s)
      (built : b.b1 = 0 ∧ burst = [] ∨ b.b1 ≠ 0 ∧ buildDtBurst (s.touch now) b.b2.toNat b.b1.toNat = .ok burst) :
      Effect e (.frame decoded data now) []
        { e with
          txConn := e.txConn.insert (decoded.sourceAddr, pgn) (s.touch now)
          pendingOut := e.pendingOut ++ burst }
  | connAcked {decoded data now pgn b} (named : control decoded data = some (.eoma, pgn, b)) :
      Effect e (.frame decoded data now) [] { e with txConn := e.txConn.erase (decoded.sourceAddr, pgn) }
  | connAborted {decoded data now pgn b} (named : control decoded data = some (.abort, pgn, b)) :
      Effect e (.frame decoded data now)
        (((e.rxConn.lookup (decoded.sourceAddr, pgn)).map (·.aborted (abortReasonFromU8 b.b1))).toList ++
          ((e.txConn.lookup (decoded.sourceAddr, pgn)).map (·.aborted (abortReasonFromU8 b.b1))).toList)
        { e with
          rxConn := e.rxConn.erase (decoded.sourceAddr, pgn)
          txConn := e.txConn.erase (decoded.sourceAddr, pgn) }
  | etpOversize {decoded data b now p} (bytes : CmBytes.ofData data = some b) (parsed : parseEtpRts decoded b = some p)
      (announced : announcement decoded data = some p.announcement) (exceeds : e.maxEtpBytes < p.totalSize) :
      Effect e (.frame decoded data now) [.aborted p.pgn p.peerSa .resources]
        { e with pendingOut := e.pendingOut ++ [etpAbortFrame p.ourSa p.peerSa p.priority p.pgn .resources] }
  | etpRefused {decoded data b now p} (bytes : CmBytes.ofData data = some b) (parsed : parseEtpRts decoded b = some p)
      (announced : announcement decoded data = some p.announcement) (fits : p.totalSize ≤ e.maxEtpBytes)
      (absent : p.announcement.key ∉ e.etpRx) (full : e.maxSessions ≤ e.totalInbound) :
      Effect e (.frame decoded data now) [.sessionRefused p.pgn p.peerSa .resources]
        { e with pendingOut := e.pendingOut ++ [etpAbortFrame p.ourSa p.peerSa p.priority p.pgn .resources] }
  | etpOpened {decoded data b now p} (bytes : CmBytes.ofData data = some b) (parsed : parseEtpRts decoded b = some p)
      (announced : announcement decoded data = some p.announcement) (fits : p.totalSize ≤ e.maxEtpBytes)
      (room : p.announcement.key ∈ e.etpRx ∨ e.totalInbound < e.maxSessions) :
      Effect e (.frame decoded data now) []
        { e with
          etpRx := e.etpRx.insert p.announcement.key (InboundEtpSession.opened p now)
          pendingOut := e.pendingOut ++ [etpCtsFrame p.ourSa p.peerSa p.priority p.pgn
            (etpGrant (packetsFor p.totalSize % 2 ^ 32) e.ctsWindow) 1] }
  | etpCts {decoded data now pgn b s burst} (named : control decoded data = some (.etpCts, pgn, b))
      (found : e.etpTx.lookup (decoded.sourceAddr, pgn) = some s)
      (built : (b.b1 = 0 ∨ u24From b = 0) ∧ burst = [] ∨
        (b.b1 ≠ 0 ∧ u24From b ≠ 0) ∧ buildEtpBurst (s.touch now) (u24From b) b.b1.toNat = .ok burst) :
      Effect e (.frame decoded data now) []
        { e with
          etpTx := e.etpTx.insert (decoded.sourceAddr, pgn) (s.touch now)
          pendingOut := e.pendingOut ++ burst }
  | etpDpo {decoded data now pgn b s} (named : control decoded data = some (.etpDpo, pgn, b))
      (found : e.etpRx.lookup (decoded.sourceAddr, pgn) = some s) :
      Effect e (.frame decoded data now) []
        { e with etpRx := e.etpRx.insert (decoded.sourceAddr, pgn) (s.startBurst (u24From b) b.b1.toNat now) }
  | etpWaiting {decoded seq rest now bytes buf key s}
      (takes : InboundEtpSession.Takes e decoded seq rest bytes buf key s)
      (more : s.nextPacket < s.totalPackets) (open_ : s.burstRemaining - 1 ≠ 0) :
      Effect e (.frame decoded (seq :: rest) now) [] { e with etpRx := e.etpRx.insert key (s.accept buf now) }
  | etpGranted {decoded seq rest now bytes buf key s}
      (takes : InboundEtpSession.Takes e decoded seq rest bytes buf key s)
      (more : s.nextPacket < s.totalPackets) (used : s.burstRemaining - 1 = 0) :
      Effect e (.frame decoded (seq :: rest) now) []
        { e with
          etpRx := e.etpRx.insert key (s.accept buf now)
          pendingOut := e.pendingOut ++ [etpCtsFrame s.ourSa s.peerSa s.priority s.transportedPgn
            (etpGrant (s.totalPackets - s.nextPacket) e.ctsWindow) (s.nextPacket + 1)] }
  | etpCompleted {decoded seq rest now bytes buf key s}
      (takes : InboundEtpSession.Takes e decoded seq rest bytes buf key s) (last : s.totalPackets ≤ s.nextPacket) :
      Effect e (.frame decoded (seq :: rest) now) [.completed s.transportedPgn s.peerSa buf]
        { e with
          etpRx := e.etpRx.erase key
          pendingOut := e.pendingOut ++
            [etpEomaFrame s.ourSa s.peerSa s.priority s.transportedPgn s.totalSize] }
  | etpAcked {decoded data now pgn b} (named : control decoded data = some (.etpEoma, pgn, b)) :
      Effect e (.frame decoded data now) [] { e with etpTx := e.etpTx.erase (decoded.sourceAddr, pgn) }
  | etpAborted {decoded data now pgn b} (named : control decoded data = some (.etpAbort, pgn, b)) :
      Effect e (.frame decoded data now)
        (((e.etpRx.lookup (decoded.sourceAddr, pgn)).map (·.aborted (abortReasonFromU8 b.b1))).toList ++
          ((e.etpTx.lookup (decoded.sourceAddr, pgn)).map (·.aborted (abortReasonFromU8 b.b1))).toList)
        { e with
          etpRx := e.etpRx.erase (decoded.sourceAddr, pgn)
          etpTx := e.etpTx.erase (decoded.sourceAddr, pgn) }
  | startedConnection {pgn priority ourSa destAddr payload now}
      (size : tpMinPayload ≤ payload.length ∧ payload.length ≤ tpMaxPayload) :
      Effect e (.startConnection pgn priority ourSa destAddr payload now) []
        { e with
          txConn := e.txConn.insert (destAddr, pgn)
            (OutboundConnSession.opened pgn priority ourSa destAddr payload now) }
  | startedEtp {pgn priority ourSa destAddr payload now}
      (size : etpMinPayload ≤ payload.length ∧ payload.length ≤ e.maxEtpBytes) :
      Effect e (.startEtp pgn priority ourSa destAddr payload now) []
        { e with
          etpTx := e.etpTx.insert (destAddr, pgn)
            (OutboundEtpSession.opened pgn priority ourSa destAddr payload now) }
  | drained : Effect e .takeOutbound [] { e with pendingOut := [] }
  | swept (now : Nat) : Effect e (.pollTimeouts now) (e.timeoutEvents now) (e.swept now)

theorem takenBytes_cons (remaining : Nat) (seq : UInt8) (rest : List UInt8) :
    takenBytes remaining (seq :: rest) = .ok (rest.take (min remaining tpDtDataLen)) := by
  simp only [takenBytes, length_cons]
  rw [slice_ok (by omega) (by simp only [length_cons]; omega)]
  simp only [drop_succ_cons, drop_zero, Nat.add_sub_cancel]
  exact congrArg ok (take_eq_take_iff.mpr (by omega))

namespace TpEngine

variable {e e' : TpEngine} {events : List TpEvent} {decoded : DecodedId} {data rest : List UInt8} {seq : UInt8}
  {b : CmBytes} {now : Nat}

theorem room_of_admitted {held : Prop} {count cap : Nat}
    (admitted : ¬ (¬ held ∧ cap ≤ count)) : held ∨ count < cap := by
  by_cases present : held
  · exact .inl present
  · exact .inr (Nat.lt_of_not_le fun full => admitted ⟨present, full⟩)

section Management

variable (bytes : ofData data = some b)
include bytes

theorem onBamCm_effect
    (cm : decoded.pgn.value = tpCmPgn)
    (bam : b.b0 = bamControl)
    (h : e.onBamCm decoded.sourceAddr b now = (events, e')) :
    Effect e (.frame decoded data now) events e' := by
  unfold onBamCm at h
  split at h
  · rename_i parsed
    cases h
    exact .ignored (by simp only [TpInput.announced, announcement, bytes, cm, bam, bamAnnouncement, transportedPgnFrom,
      parsed, ite_true])
  · rename_i pgn parsed
    dsimp only at h
    have announced (valid : ¬ (tpMinPayload ≤ join2 b.b1 b.b2 ∧ join2 b.b1 b.b2 ≤ tpMaxPayload ∧
        b.b3.toNat = packetsFor (join2 b.b1 b.b2))) : announcement decoded data = none := by
      simp only [announcement, bytes, cm, bam, bamAnnouncement, transportedPgnFrom, parsed, valid, ite_true, ite_false]
    split at h
    · rename_i size
      cases h
      exact .ignored (announced fun valid => size ⟨valid.1, valid.2.1⟩)
    rename_i size
    split at h
    · rename_i packets
      cases h
      exact .ignored (announced fun valid => packets valid.2.2)
    rename_i packets
    rw [not_not] at size packets
    have announced : announcement decoded data = some ⟨.bam, (decoded.sourceAddr, pgn), join2 b.b1 b.b2⟩ := by
      simp only [announcement, bytes, cm, bam, bamAnnouncement, transportedPgnFrom, parsed, size, packets, and_self,
        ite_true]
    split at h
    · rename_i refused
      cases h
      exact .bamRefused announced rfl refused.1 refused.2
    · rename_i admitted
      cases h
      rw [packets]
      exact .bamOpened announced rfl (room_of_admitted admitted)

theorem onRts_effect
    (cm : decoded.pgn.value = tpCmPgn)
    (rts : b.b0 = rtsControl)
    (h : e.onRts decoded b now = (events, e')) :
    Effect e (.frame decoded data now) events e' := by
  have announced : announcement decoded data = (parseConnRts decoded b).map ConnRtsParams.announcement := by
    rw [announcement, bytes]
    dsimp only
    rw [cm, rts]
    rfl
  unfold onRts at h
  split at h
  · rename_i parsed
    cases h
    exact .ignored (announced.trans (by rw [parsed]; rfl))
  · rename_i p parsed
    rw [parsed] at announced
    split at h
    · rename_i refused
      cases h
      exact .connRefused bytes parsed announced refused.1 refused.2
    · rename_i admitted
      cases h
      exact .connOpened bytes parsed announced (room_of_admitted admitted) rfl

theorem onEtpRts_effect
    (cm : decoded.pgn.value = etpCmPgn)
    (rts : b.b0 = etpRtsControl)
    (h : e.onEtpRts decoded b now = (events, e')) :
    Effect e (.frame decoded data now) events e' := by
  have announced : announcement decoded data = (parseEtpRts decoded b).map EtpRtsParams.announcement := by
    rw [announcement, bytes]
    dsimp only
    rw [cm, rts]
    rfl
  unfold onEtpRts at h
  split at h
  · rename_i parsed
    cases h
    exact .ignored (announced.trans (by rw [parsed]; rfl))
  · rename_i p parsed
    rw [parsed] at announced
    split at h
    · rename_i exceeds
      cases h
      exact .etpOversize bytes parsed announced exceeds
    rename_i fits
    have fits := Nat.le_of_not_lt fits
    split at h
    · rename_i refused
      cases h
      exact .etpRefused bytes parsed announced fits refused.1 refused.2
    · rename_i admitted
      cases h
      exact .etpOpened bytes parsed announced fits (room_of_admitted admitted)

theorem of_control {α : Type} {quiet result : α} {act : Pgn → α} (c : Control) (cm : decoded.pgn.value = c.wirePgn)
    (code : b.b0 = c.code)
    (h : (match Pgn.new (transportedPgnFrom b) with | .error _ => quiet | .ok pgn => act pgn) = result) :
    quiet = result ∨ ∃ pgn, control decoded data = some (c, pgn, b) ∧ act pgn = result := by
  cases parsed : Pgn.new (transportedPgnFrom b) with
  | error error =>
    rw [parsed] at h
    exact .inl h
  | ok pgn =>
    rw [parsed] at h
    exact .inr ⟨pgn, control_complete bytes cm code parsed, h⟩

section Silent

variable (silent : announcement decoded data = none)
include silent

theorem onCts_effect
    (cm : decoded.pgn.value = tpCmPgn)
    (cts : b.b0 = ctsControl)
    (h : e.onCts decoded b now = .ok (events, e')) :
    Effect e (.frame decoded data now) events e' := by
  rcases of_control bytes .cts cm cts h with h | ⟨pgn, named, h⟩
  · cases h; exact .ignored silent
  dsimp only at h
  split at h
  · cases h; exact .ignored silent
  · rename_i s found
    split at h
    · rename_i held
      cases h
      have effect : Effect e (.frame decoded data now) [] _ := .cts named found (.inl ⟨held, rfl⟩)
      simpa only [append_nil, OutboundConnSession.touch] using effect
    · rename_i sent
      obtain ⟨_, built, h⟩ := bind_ok h
      cases h
      exact .cts named found (.inr ⟨sent, built⟩)

theorem onEtpCts_effect
    (cm : decoded.pgn.value = etpCmPgn)
    (cts : b.b0 = etpCtsControl)
    (h : e.onEtpCts decoded b now = .ok (events, e')) :
    Effect e (.frame decoded data now) events e' := by
  rcases of_control bytes .etpCts cm cts h with h | ⟨pgn, named, h⟩
  · cases h; exact .ignored silent
  dsimp only at h
  split at h
  · cases h; exact .ignored silent
  · rename_i s found
    split at h
    · rename_i held
      cases h
      have effect : Effect e (.frame decoded data now) [] _ := .etpCts named found (.inl ⟨held, rfl⟩)
      simpa only [append_nil, OutboundEtpSession.touch] using effect
    · rename_i sent
      obtain ⟨_, built, h⟩ := bind_ok h
      cases h
      exact .etpCts named found (.inr ⟨not_or.mp sent, built⟩)

theorem onEtpDpo_effect
    (cm : decoded.pgn.value = etpCmPgn)
    (dpo : b.b0 = etpDpoControl)
    (h : e.onEtpDpo decoded b now = (events, e')) :
    Effect e (.frame decoded data now) events e' := by
  rcases of_control bytes .etpDpo cm dpo h with h | ⟨pgn, named, h⟩
  · cases h; exact .ignored silent
  dsimp only at h
  split at h
  · cases h; exact .ignored silent
  · rename_i s found
    cases h
    exact .etpDpo named found

end Silent

end Management

theorem onBamDt_effect
    (kind : dataKind decoded = some .bam)
    (h : e.onBamDt decoded.sourceAddr (seq :: rest) now = .ok (events, e')) :
    Effect e (.frame decoded (seq :: rest) now) events e' := by
  unfold onBamDt at h
  rw [index_zero, ok_bind] at h
  split at h
  · cases h; exact .ignored (announcement_data kind _)
  · rename_i key chosen
    obtain ⟨s, found, h⟩ := bind_ok h
    have found := expect_eq_ok found
    split at h
    · cases h; exact .ignored (announcement_data kind _)
    rename_i expected
    rw [takenBytes_cons, ok_bind] at h
    dsimp only at h
    have takes : s.Takes e decoded seq rest _ key := ⟨⟨kind, chosen, found⟩, not_not.mp expected, rfl⟩
    split at h
    · rename_i last
      cases h
      exact .bamCompleted takes last
    · rename_i more
      cases h
      exact .bamAccepted takes (Nat.lt_of_not_le more)

theorem onConnDt_effect
    (kind : dataKind decoded = some .conn)
    (h : e.onConnDt decoded.sourceAddr (seq :: rest) now = .ok (events, e')) :
    Effect e (.frame decoded (seq :: rest) now) events e' := by
  unfold onConnDt at h
  rw [index_zero, ok_bind] at h
  split at h
  · cases h; exact .ignored (announcement_data kind _)
  · rename_i key chosen
    obtain ⟨s, found, h⟩ := bind_ok h
    have found := expect_eq_ok found
    split at h
    · cases h; exact .ignored (announcement_data kind _)
    rename_i expected
    have expected := not_not.mp expected
    rw [takenBytes_cons, ok_bind] at h
    dsimp only at h
    have takes : s.Takes e decoded seq rest _ key := ⟨⟨kind, chosen, found⟩, expected, rfl⟩
    split at h
    · rename_i last
      cases h
      exact .connCompleted takes last
    rename_i more
    have more := Nat.lt_of_not_le more
    split at h
    · rename_i used
      obtain ⟨_, first, h⟩ := bind_ok h
      obtain ⟨_, second, h⟩ := bind_ok h
      have bound := seq.toNat_lt
      obtain ⟨_, rfl⟩ := sub_eq_ok first
      obtain ⟨_, rfl⟩ := sub_eq_ok second
      cases h
      refine .connGranted takes more used ?_
      congr 1
      omega
    · rename_i open_
      cases h
      exact .connWaiting takes more open_

theorem onEtpDt_effect (etp : decoded.pgn.value = etpDtPgn)
    (h : e.onEtpDt decoded data now = .ok (events, e')) : Effect e (.frame decoded data now) events e' := by
  have kind : dataKind decoded = some .etp := by
    simp only [dataKind, etp, show (etpDtPgn = tpDtPgn) = False from by decide, ite_false, ite_true]
  unfold onEtpDt at h
  cases data with
  | nil => cases h; exact .ignored (announcement_data kind [])
  | cons seq rest =>
    rw [index_zero, ok_bind] at h
    cases chosen : e.etpRx.firstKey (·.1 == decoded.sourceAddr) with
    | none => simp only [chosen] at h; cases h; exact .ignored (announcement_data kind _)
    | some key =>
      simp only [chosen] at h
      obtain ⟨s, found, h⟩ := bind_ok h
      have found := expect_eq_ok found
      split at h
      · cases h; exact .ignored (announcement_data kind _)
      rename_i accepted
      obtain ⟨expected, positive, inside⟩ : saturate32 (s.dpoOffset + seq.toNat) = s.nextPacket ∧
          saturate32 (s.dpoOffset + seq.toNat) ≠ 0 ∧ saturate32 (s.dpoOffset + seq.toNat) ≤ s.totalPackets := by
        simpa only [not_or, not_not, not_lt] using accepted
      rw [expected] at positive inside h
      obtain ⟨_, stepped, h⟩ := bind_ok h
      obtain ⟨_, rfl⟩ := sub_eq_ok stepped
      rw [takenBytes_cons, ok_bind] at h
      obtain ⟨buf, written, h⟩ := bind_ok h
      have takes : s.Takes e decoded seq rest _ buf key :=
        ⟨⟨kind, chosen, found⟩, expected, positive, inside, rfl, written⟩
      obtain ⟨_, incremented, h⟩ := bind_ok h
      obtain ⟨_, rfl⟩ := add_eq_ok incremented
      split at h
      · rename_i last
        cases h
        exact .etpCompleted takes (Nat.lt_succ_iff.mp last)
      rename_i more
      have more : s.nextPacket < s.totalPackets := Nat.lt_of_succ_le (Nat.le_of_not_lt more)
      split at h
      · rename_i used
        obtain ⟨_, first, h⟩ := bind_ok h
        obtain ⟨_, second, h⟩ := bind_ok h
        obtain ⟨_, rfl⟩ := sub_eq_ok first
        obtain ⟨_, rfl⟩ := sub_eq_ok second
        cases h
        exact .etpGranted takes more used
      · rename_i open_
        cases h
        exact .etpWaiting takes more open_

theorem onCm_effect
    (cm : decoded.pgn.value = tpCmPgn)
    (h : e.onCm decoded data now = .ok (events, e')) :
    Effect e (.frame decoded data now) events e' := by
  unfold onCm at h
  split at h
  · rename_i bytes
    cases h; exact .ignored (announcement_short bytes _)
  · rename_i b bytes
    split at h
    · rename_i bam
      exact onBamCm_effect bytes cm bam (ok.inj h)
    split at h
    · rename_i rts
      exact onRts_effect bytes cm rts (ok.inj h)
    rename_i bam rts
    have silent := announcement_cm bytes cm bam rts
    split at h
    · rename_i cts
      exact onCts_effect bytes silent cm cts h
    split at h
    · rename_i eoma
      rcases of_control bytes .eoma cm eoma (ok.inj h) with h | ⟨pgn, named, h⟩
      · cases h; exact .ignored silent
      · cases h; exact .connAcked named
    split at h
    · rename_i abort
      rcases of_control bytes .abort cm abort (ok.inj h) with h | ⟨pgn, named, h⟩
      · cases h; exact .ignored silent
      · cases h; exact .connAborted named
    · cases h; exact .ignored silent

theorem onEtpCm_effect
    (cm : decoded.pgn.value = etpCmPgn)
    (h : e.onEtpCm decoded data now = .ok (events, e')) :
    Effect e (.frame decoded data now) events e' := by
  unfold onEtpCm at h
  split at h
  · rename_i bytes
    cases h; exact .ignored (announcement_short bytes _)
  · rename_i b bytes
    split at h
    · rename_i rts
      exact onEtpRts_effect bytes cm rts (ok.inj h)
    rename_i rts
    have silent := announcement_etpCm bytes cm rts
    split at h
    · rename_i cts
      exact onEtpCts_effect bytes silent cm cts h
    split at h
    · rename_i dpo
      exact onEtpDpo_effect bytes silent cm dpo (ok.inj h)
    split at h
    · rename_i eoma
      rcases of_control bytes .etpEoma cm eoma (ok.inj h) with h | ⟨pgn, named, h⟩
      · cases h; exact .ignored silent
      · cases h; exact .etpAcked named
    split at h
    · rename_i abort
      rcases of_control bytes .etpAbort cm abort (ok.inj h) with h | ⟨pgn, named, h⟩
      · cases h; exact .ignored silent
      · cases h; exact .etpAborted named
    · cases h; exact .ignored silent

theorem onDt_effect
    (dt : decoded.pgn.value = tpDtPgn)
    (h : e.onDt decoded data now = .ok (events, e')) :
    Effect e (.frame decoded data now) events e' := by
  unfold onDt at h
  cases data with
  | nil =>
    cases h
    have silent : announcement decoded [] = none := announcement_short rfl decoded
    exact .ignored silent
  | cons seq rest =>
    rw [if_neg (cons_ne_nil _ _)] at h
    split at h
    · rename_i broadcast
      exact onBamDt_effect (by simp only [dataKind, dt, broadcast, ite_true]) h
    · rename_i specific
      exact onConnDt_effect (by simp only [dataKind, dt, specific, ite_true, ite_false]) h

theorem handle_startEtp {payload : List UInt8} (e : TpEngine)
    (size : etpMinPayload ≤ payload.length ∧ payload.length ≤ e.maxEtpBytes)
    (pgn : Pgn) (priority ourSa destAddr : UInt8) (now : Nat) :
    e.handle (.startEtp pgn priority ourSa destAddr payload now) = .ok ([], { e with
      etpTx := e.etpTx.insert (destAddr, pgn)
        (OutboundEtpSession.opened pgn priority ourSa destAddr payload now) }) := by
  simp only [handle, startOutboundEtp, size, and_self, not_true_eq_false, ite_false]
  rfl

theorem handle_effect {i : TpInput} (h : e.handle i = .ok (events, e')) : Effect e i events e' := by
  cases i with
  | frame decoded data now =>
    simp only [handle, onFrame] at h
    split at h
    · rename_i cm; exact onCm_effect cm h
    split at h
    · rename_i dt; exact onDt_effect dt h
    split at h
    · rename_i cm; exact onEtpCm_effect cm h
    split at h
    · rename_i dt; exact onEtpDt_effect dt h
    · rename_i cm _ etpCm _
      cases h
      refine .ignored ?_
      simp only [TpInput.announced, announcement, cm, etpCm, ite_false]
      split <;> rfl
  | startConnection pgn priority ourSa destAddr payload now =>
    simp only [handle, startOutboundConnection] at h
    split at h
    · cases h; exact .ignored rfl
    · rename_i size
      cases h
      exact .startedConnection (not_not.mp size)
  | startEtp pgn priority ourSa destAddr payload now =>
    simp only [handle, startOutboundEtp] at h
    split at h
    · cases h; exact .ignored rfl
    · rename_i size
      cases h
      exact .startedEtp (not_not.mp size)
  | takeOutbound => cases h; exact .drained
  | pollTimeouts now =>
    rw [handle, pollTimeouts_eq] at h
    cases h
    exact .swept now

end TpEngine

end Taktora.J1939
