import Taktora.Lib.Table
import Taktora.J1939.Tp.Frames

namespace Taktora.J1939

open Checked LittleEndian

structure TpTimers where
  t1 : Nat
  t2 : Nat
  t3 : Nat
deriving DecidableEq

abbrev Key := UInt8 × Pgn

structure InboundSession where
  transportedPgn : Pgn
  sourceAddr : UInt8
  totalSize : Nat
  numPackets : Nat
  nextSeq : Nat
  buf : List UInt8
  lastActivity : Nat
deriving DecidableEq

structure InboundConnSession where
  transportedPgn : Pgn
  peerSa : UInt8
  ourSa : UInt8
  priority : UInt8
  totalSize : Nat
  totalPackets : Nat
  senderMaxPerCts : UInt8
  nextSeq : Nat
  windowRemaining : Nat
  buf : List UInt8
  lastActivity : Nat
deriving DecidableEq

structure OutboundConnSession where
  transportedPgn : Pgn
  ourSa : UInt8
  destSa : UInt8
  priority : UInt8
  payload : List UInt8
  totalPackets : Nat
  lastActivity : Nat
deriving DecidableEq

structure InboundEtpSession where
  transportedPgn : Pgn
  peerSa : UInt8
  ourSa : UInt8
  priority : UInt8
  totalSize : Nat
  totalPackets : Nat
  nextPacket : Nat
  dpoOffset : Nat
  burstRemaining : Nat
  buf : List UInt8
  lastActivity : Nat
deriving DecidableEq

structure OutboundEtpSession where
  transportedPgn : Pgn
  ourSa : UInt8
  destSa : UInt8
  priority : UInt8
  payload : List UInt8
  totalPackets : Nat
  lastActivity : Nat
deriving DecidableEq

structure TpEngine where
  sessions : Table Key InboundSession
  rxConn : Table Key InboundConnSession
  txConn : Table Key OutboundConnSession
  pendingOut : List TpOutFrame
  etpRx : Table Key InboundEtpSession
  etpTx : Table Key OutboundEtpSession
  ctsWindow : UInt8
  timers : TpTimers
  maxSessions : Nat
  maxEtpBytes : Nat

def InboundSession.aborted (s : InboundSession) (reason : TpAbortReason) : TpEvent :=
  .aborted s.transportedPgn s.sourceAddr reason

def InboundConnSession.aborted (s : InboundConnSession) (reason : TpAbortReason) : TpEvent :=
  .aborted s.transportedPgn s.peerSa reason

def OutboundConnSession.aborted (s : OutboundConnSession) (reason : TpAbortReason) : TpEvent :=
  .aborted s.transportedPgn s.destSa reason

def InboundEtpSession.aborted (s : InboundEtpSession) (reason : TpAbortReason) : TpEvent :=
  .aborted s.transportedPgn s.peerSa reason

def OutboundEtpSession.aborted (s : OutboundEtpSession) (reason : TpAbortReason) : TpEvent :=
  .aborted s.transportedPgn s.destSa reason

def InboundConnSession.timeoutFrame (s : InboundConnSession) : TpOutFrame :=
  connAbortFrame s.ourSa s.peerSa s.priority s.transportedPgn .timeout

def OutboundConnSession.timeoutFrame (s : OutboundConnSession) : TpOutFrame :=
  connAbortFrame s.ourSa s.destSa s.priority s.transportedPgn .timeout

def InboundEtpSession.timeoutFrame (s : InboundEtpSession) : TpOutFrame :=
  etpAbortFrame s.ourSa s.peerSa s.priority s.transportedPgn .timeout

def OutboundEtpSession.timeoutFrame (s : OutboundEtpSession) : TpOutFrame :=
  etpAbortFrame s.ourSa s.destSa s.priority s.transportedPgn .timeout

abbrev Outcome := Except Panic (List TpEvent × TpEngine)

def grantWindow (remainingPackets : Nat) (ctsWindow senderMaxPerCts : UInt8) : Nat :=
  let window := min remainingPackets (max ctsWindow.toNat 1)
  let window := if senderMaxPerCts ≠ ctsNoLimit then min window (max senderMaxPerCts.toNat 1) else window
  max window 1

def etpGrant (remainingPackets : Nat) (ctsWindow : UInt8) : Nat :=
  max (min remainingPackets (max ctsWindow.toNat 1)) 1 % 256

structure ConnRtsParams where
  ourSa : UInt8
  peerSa : UInt8
  priority : UInt8
  totalSize : Nat
  totalPackets : Nat
  senderMaxPerCts : UInt8
  pgn : Pgn

def parseConnRts (decoded : DecodedId) (b : CmBytes) : Option ConnRtsParams := do
  let ourSa ← decoded.destAddr.filter (· != globalAddress)
  let totalSize := join2 b.b1 b.b2
  let totalPackets := b.b3.toNat
  let pgn ← (Pgn.new (transportedPgnFrom b)).toOption
  if tpMinPayload ≤ totalSize ∧ totalSize ≤ tpMaxPayload ∧ totalPackets = packetsFor totalSize then
    some { ourSa, peerSa := decoded.sourceAddr, priority := decoded.priority, totalSize, totalPackets
           senderMaxPerCts := b.b4, pgn }
  else none

structure EtpRtsParams where
  ourSa : UInt8
  peerSa : UInt8
  priority : UInt8
  totalSize : Nat
  pgn : Pgn

def parseEtpRts (decoded : DecodedId) (b : CmBytes) : Option EtpRtsParams := do
  let ourSa ← decoded.destAddr.filter (· != globalAddress)
  let totalSize := join4 b.b1 b.b2 b.b3 b.b4
  let pgn ← (Pgn.new (transportedPgnFrom b)).toOption
  if etpMinPayload ≤ totalSize ∧ totalSize ≤ etpProtocolMax then
    some { ourSa, peerSa := decoded.sourceAddr, priority := decoded.priority, totalSize, pgn }
  else none

def takenBytes (remaining : Nat) (data : List UInt8) : Except Panic (List UInt8) :=
  let available := data.length - 1
  let take := min (min remaining tpDtDataLen) available
  slice data 1 (take + 1)

def buildDtBurst.loop (s : OutboundConnSession) (startSeq : Nat) : List Nat → Except Panic (List TpOutFrame)
  | [] => .ok []
  | i :: rest =>
    let seq := (startSeq + i) % 256
    if seq < 1 ∨ seq > s.totalPackets then .ok []
    else do
      let frame ← dataFrame dtPgn s.priority s.ourSa s.destSa s.payload seq ((seq - 1) * tpDtDataLen)
      let frames ← loop s startSeq rest
      .ok (frame :: frames)

def buildDtBurst (s : OutboundConnSession) (startSeq count : Nat) : Except Panic (List TpOutFrame) :=
  buildDtBurst.loop s startSeq (List.range count)

def buildEtpBurst.loop (s : OutboundEtpSession) (nextPkt : Nat) : List Nat → Except Panic (List TpOutFrame)
  | [] => .ok []
  | i :: rest => do
    let absolute ← Checked.add 32 nextPkt i
    let before ← Checked.sub absolute 1
    let frame ← dataFrame etpDt s.priority s.ourSa s.destSa s.payload (i + 1) (before * tpDtDataLen)
    let frames ← loop s nextPkt rest
    .ok (frame :: frames)

def saturate32 (n : Nat) : Nat := min n (2 ^ 32 - 1)

def buildEtpBurst (s : OutboundEtpSession) (nextPkt count : Nat) : Except Panic (List TpOutFrame) := do
  let offset ← Checked.sub nextPkt 1
  let last := min (saturate32 (nextPkt + count) - 1) s.totalPackets
  let effective := saturate32 (last - nextPkt + 1)
  let dpo := etpDpoFrame s.ourSa s.destSa s.priority s.transportedPgn effective offset
  let frames ← buildEtpBurst.loop s nextPkt (List.range effective)
  .ok (dpo :: frames)

namespace TpEngine

def new (timers : TpTimers) (maxSessions : Nat) : TpEngine :=
  { sessions := ∅, rxConn := ∅, txConn := ∅, etpRx := ∅, etpTx := ∅, pendingOut := []
    ctsWindow := defaultCtsWindow, timers, maxSessions := max maxSessions 1, maxEtpBytes := defaultMaxEtpBytes }

variable (e : TpEngine)

def withMaxEtpBytes (limit : Nat) : TpEngine :=
  { e with maxEtpBytes := if limit < etpMinPayload then etpMinPayload else limit }

def withCtsWindow (window : UInt8) : TpEngine :=
  { e with ctsWindow := if window = 0 then 1 else window }

def totalInbound : Nat := e.sessions.size + e.rxConn.size + e.etpRx.size

def takeOutbound : List TpOutFrame × TpEngine := (e.pendingOut, { e with pendingOut := [] })

def onBamCm (sourceAddr : UInt8) (b : CmBytes) (now : Nat) : List TpEvent × TpEngine :=
  let totalSize := join2 b.b1 b.b2
  let numPackets := b.b3.toNat
  match Pgn.new (join3 b.b5 b.b6 b.b7) with
  | .error _ => ([], e)
  | .ok pgn =>
    if ¬ (tpMinPayload ≤ totalSize ∧ totalSize ≤ tpMaxPayload) then ([], e)
    else if numPackets ≠ packetsFor totalSize then ([], e)
    else if (sourceAddr, pgn) ∉ e.sessions ∧ e.totalInbound ≥ e.maxSessions then
      ([.sessionRefused pgn sourceAddr .resources], e)
    else
      let session : InboundSession :=
        { transportedPgn := pgn, sourceAddr, totalSize, numPackets, nextSeq := 1, buf := [], lastActivity := now }
      ([], { e with sessions := e.sessions.insert (sourceAddr, pgn) session })

def onBamDt (sourceAddr : UInt8) (data : List UInt8) (now : Nat) : Outcome := do
  let seq ← index data 0
  match e.sessions.firstKey (·.1 == sourceAddr) with
  | none => .ok ([], e)
  | some key =>
    let session ← expect (e.sessions.lookup key)
    if seq.toNat ≠ session.nextSeq then .ok ([], e)
    else
      let bytes ← takenBytes (session.totalSize - session.buf.length) data
      let session := { session with
        buf := session.buf ++ bytes, lastActivity := now, nextSeq := (session.nextSeq + 1) % 256 }
      if seq.toNat ≥ session.numPackets then
        .ok ([.completed session.transportedPgn session.sourceAddr session.buf],
          { e with sessions := e.sessions.erase key })
      else .ok ([], { e with sessions := e.sessions.insert key session })

def startOutboundConnection (transportedPgn : Pgn) (priority ourSa destAddr : UInt8)
    (payload : List UInt8) (now : Nat) : Except TpError (List TpOutFrame) × TpEngine :=
  let size := payload.length
  if ¬ (tpMinPayload ≤ size ∧ size ≤ tpMaxPayload) then (.error (.payloadOutOfRange size), e)
  else
    let totalPackets := packetsFor size % 256
    let session : OutboundConnSession :=
      { transportedPgn, ourSa, destSa := destAddr, priority, payload, totalPackets, lastActivity := now }
    (.ok [rtsFrame ourSa destAddr priority transportedPgn size totalPackets ctsNoLimit],
      { e with txConn := e.txConn.insert (destAddr, transportedPgn) session })

variable (decoded : DecodedId) (b : CmBytes)

def onRts (now : Nat) : List TpEvent × TpEngine :=
  match parseConnRts decoded b with
  | none => ([], e)
  | some p =>
    if (p.peerSa, p.pgn) ∉ e.rxConn ∧ e.totalInbound ≥ e.maxSessions then
      ([.sessionRefused p.pgn p.peerSa .resources],
        { e with pendingOut := e.pendingOut ++ [connAbortFrame p.ourSa p.peerSa p.priority p.pgn .resources] })
    else
      let window := grantWindow p.totalPackets e.ctsWindow p.senderMaxPerCts
      let session : InboundConnSession :=
        { transportedPgn := p.pgn, peerSa := p.peerSa, ourSa := p.ourSa, priority := p.priority
          totalSize := p.totalSize, totalPackets := p.totalPackets, senderMaxPerCts := p.senderMaxPerCts
          nextSeq := 1, windowRemaining := window, buf := [], lastActivity := now }
      ([], { e with
        rxConn := e.rxConn.insert (p.peerSa, p.pgn) session
        pendingOut := e.pendingOut ++ [ctsFrame p.ourSa p.peerSa p.priority p.pgn window 1] })

def onConnDt (peerSa : UInt8) (data : List UInt8) (now : Nat) : Outcome := do
  let seq ← index data 0
  match e.rxConn.firstKey (·.1 == peerSa) with
  | none => .ok ([], e)
  | some key =>
    let s ← expect (e.rxConn.lookup key)
    if seq.toNat ≠ s.nextSeq then .ok ([], e)
    else
      let bytes ← takenBytes (s.totalSize - s.buf.length) data
      let s := { s with
        buf := s.buf ++ bytes, lastActivity := now, nextSeq := (s.nextSeq + 1) % 256
        windowRemaining := s.windowRemaining - 1 }
      if seq.toNat ≥ s.totalPackets then
        .ok ([.completed s.transportedPgn s.peerSa s.buf],
          { e with
            rxConn := e.rxConn.erase key
            pendingOut := e.pendingOut ++
              [endOfMsgAckFrame s.ourSa s.peerSa s.priority s.transportedPgn s.totalSize s.totalPackets] })
      else if s.windowRemaining = 0 then
        let received ← Checked.sub s.nextSeq 1
        let remainingPackets ← Checked.sub s.totalPackets received
        let window := grantWindow remainingPackets e.ctsWindow s.senderMaxPerCts
        .ok ([], { e with
          rxConn := e.rxConn.insert key { s with windowRemaining := window }
          pendingOut := e.pendingOut ++ [ctsFrame s.ourSa s.peerSa s.priority s.transportedPgn window s.nextSeq] })
      else .ok ([], { e with rxConn := e.rxConn.insert key s })

variable (data : List UInt8)

def onDt (now : Nat) : Outcome :=
  if data = [] then .ok ([], e)
  else if decoded.destAddr = some globalAddress ∨ decoded.destAddr = none then
    e.onBamDt decoded.sourceAddr data now
  else e.onConnDt decoded.sourceAddr data now

def onCts (now : Nat) : Outcome :=
  match Pgn.new (transportedPgnFrom b) with
  | .error _ => .ok ([], e)
  | .ok pgn =>
    match e.txConn.lookup (decoded.sourceAddr, pgn) with
    | none => .ok ([], e)
    | some s =>
      let s := { s with lastActivity := now }
      let e := { e with txConn := e.txConn.insert (decoded.sourceAddr, pgn) s }
      if b.b1 = 0 then .ok ([], e)
      else do
        let burst ← buildDtBurst s b.b2.toNat b.b1.toNat
        .ok ([], { e with pendingOut := e.pendingOut ++ burst })

def onEndOfMsgAck : List TpEvent × TpEngine :=
  match Pgn.new (transportedPgnFrom b) with
  | .error _ => ([], e)
  | .ok pgn => ([], { e with txConn := e.txConn.erase (decoded.sourceAddr, pgn) })

def onConnAbort : List TpEvent × TpEngine :=
  match Pgn.new (transportedPgnFrom b) with
  | .error _ => ([], e)
  | .ok pgn =>
    let reason := abortReasonFromU8 b.b1
    let key := (decoded.sourceAddr, pgn)
    let inbound := ((e.rxConn.lookup key).map (·.aborted reason)).toList
    let outbound := ((e.txConn.lookup key).map (·.aborted reason)).toList
    (inbound ++ outbound, { e with rxConn := e.rxConn.erase key, txConn := e.txConn.erase key })

def onCm (now : Nat) : Outcome :=
  match CmBytes.ofData data with
  | none => .ok ([], e)
  | some b =>
    if b.b0 = bamControl then .ok (e.onBamCm decoded.sourceAddr b now)
    else if b.b0 = rtsControl then .ok (e.onRts decoded b now)
    else if b.b0 = ctsControl then e.onCts decoded b now
    else if b.b0 = eomaControl then .ok (e.onEndOfMsgAck decoded b)
    else if b.b0 = connAbortControl then .ok (e.onConnAbort decoded b)
    else .ok ([], e)

def startOutboundEtp (transportedPgn : Pgn) (priority ourSa destAddr : UInt8)
    (payload : List UInt8) (now : Nat) : Except TpError (List TpOutFrame) × TpEngine :=
  let size := payload.length
  if ¬ (etpMinPayload ≤ size ∧ size ≤ e.maxEtpBytes) then (.error (.etpPayloadOutOfRange size e.maxEtpBytes), e)
  else
    let totalPackets := packetsFor size % 2 ^ 32
    let session : OutboundEtpSession :=
      { transportedPgn, ourSa, destSa := destAddr, priority, payload, totalPackets, lastActivity := now }
    (.ok [etpRtsFrame ourSa destAddr priority transportedPgn size],
      { e with etpTx := e.etpTx.insert (destAddr, transportedPgn) session })

def onEtpRts (now : Nat) : List TpEvent × TpEngine :=
  match parseEtpRts decoded b with
  | none => ([], e)
  | some p =>
    let refusal := { e with pendingOut := e.pendingOut ++ [etpAbortFrame p.ourSa p.peerSa p.priority p.pgn .resources] }
    if p.totalSize > e.maxEtpBytes then ([.aborted p.pgn p.peerSa .resources], refusal)
    else if (p.peerSa, p.pgn) ∉ e.etpRx ∧ e.totalInbound ≥ e.maxSessions then
      ([.sessionRefused p.pgn p.peerSa .resources], refusal)
    else
      let totalPackets := packetsFor p.totalSize % 2 ^ 32
      let window := etpGrant totalPackets e.ctsWindow
      let session : InboundEtpSession :=
        { transportedPgn := p.pgn, peerSa := p.peerSa, ourSa := p.ourSa, priority := p.priority
          totalSize := p.totalSize, totalPackets, nextPacket := 1, dpoOffset := 0, burstRemaining := 0
          buf := List.replicate p.totalSize 0, lastActivity := now }
      ([], { e with
        etpRx := e.etpRx.insert (p.peerSa, p.pgn) session
        pendingOut := e.pendingOut ++ [etpCtsFrame p.ourSa p.peerSa p.priority p.pgn window 1] })

def onEtpCts (now : Nat) : Outcome :=
  match Pgn.new (transportedPgnFrom b) with
  | .error _ => .ok ([], e)
  | .ok pgn =>
    match e.etpTx.lookup (decoded.sourceAddr, pgn) with
    | none => .ok ([], e)
    | some s =>
      let s := { s with lastActivity := now }
      let e := { e with etpTx := e.etpTx.insert (decoded.sourceAddr, pgn) s }
      if b.b1 = 0 ∨ u24From b = 0 then .ok ([], e)
      else do
        let burst ← buildEtpBurst s (u24From b) b.b1.toNat
        .ok ([], { e with pendingOut := e.pendingOut ++ burst })

def onEtpDpo (now : Nat) : List TpEvent × TpEngine :=
  match Pgn.new (transportedPgnFrom b) with
  | .error _ => ([], e)
  | .ok pgn =>
    match e.etpRx.lookup (decoded.sourceAddr, pgn) with
    | none => ([], e)
    | some s =>
      let s := { s with dpoOffset := u24From b, burstRemaining := b.b1.toNat, lastActivity := now }
      ([], { e with etpRx := e.etpRx.insert (decoded.sourceAddr, pgn) s })

def onEtpDt (now : Nat) : Outcome :=
  if data = [] then .ok ([], e)
  else do
    let seq ← index data 0
    match e.etpRx.firstKey (·.1 == decoded.sourceAddr) with
    | none => .ok ([], e)
    | some key =>
      let s ← expect (e.etpRx.lookup key)
      let absolute := saturate32 (s.dpoOffset + seq.toNat)
      if absolute ≠ s.nextPacket ∨ absolute = 0 ∨ absolute > s.totalPackets then .ok ([], e)
      else
        let before ← Checked.sub absolute 1
        let byteOff := before * tpDtDataLen
        let bytes ← takenBytes (s.totalSize - byteOff) data
        let buf ← copyFromSlice s.buf byteOff (byteOff + bytes.length) bytes
        let nextPacket ← Checked.add 32 s.nextPacket 1
        let s := { s with buf, nextPacket, burstRemaining := s.burstRemaining - 1, lastActivity := now }
        if s.nextPacket > s.totalPackets then
          .ok ([.completed s.transportedPgn s.peerSa s.buf],
            { e with
              etpRx := e.etpRx.erase key
              pendingOut := e.pendingOut ++
                [etpEomaFrame s.ourSa s.peerSa s.priority s.transportedPgn s.totalSize] })
        else if s.burstRemaining = 0 then
          let received ← Checked.sub s.nextPacket 1
          let remainingPackets ← Checked.sub s.totalPackets received
          let window := etpGrant remainingPackets e.ctsWindow
          .ok ([], { e with
            etpRx := e.etpRx.insert key s
            pendingOut := e.pendingOut ++
              [etpCtsFrame s.ourSa s.peerSa s.priority s.transportedPgn window s.nextPacket] })
        else .ok ([], { e with etpRx := e.etpRx.insert key s })

def onEtpEoma : List TpEvent × TpEngine :=
  match Pgn.new (transportedPgnFrom b) with
  | .error _ => ([], e)
  | .ok pgn => ([], { e with etpTx := e.etpTx.erase (decoded.sourceAddr, pgn) })

def onEtpAbort : List TpEvent × TpEngine :=
  match Pgn.new (transportedPgnFrom b) with
  | .error _ => ([], e)
  | .ok pgn =>
    let reason := abortReasonFromU8 b.b1
    let key := (decoded.sourceAddr, pgn)
    let inbound := ((e.etpRx.lookup key).map (·.aborted reason)).toList
    let outbound := ((e.etpTx.lookup key).map (·.aborted reason)).toList
    (inbound ++ outbound, { e with etpRx := e.etpRx.erase key, etpTx := e.etpTx.erase key })

def onEtpCm (now : Nat) : Outcome :=
  match CmBytes.ofData data with
  | none => .ok ([], e)
  | some b =>
    if b.b0 = etpRtsControl then .ok (e.onEtpRts decoded b now)
    else if b.b0 = etpCtsControl then e.onEtpCts decoded b now
    else if b.b0 = etpDpoControl then .ok (e.onEtpDpo decoded b now)
    else if b.b0 = etpEomaControl then .ok (e.onEtpEoma decoded b)
    else if b.b0 = etpAbortControl then .ok (e.onEtpAbort decoded b)
    else .ok ([], e)

def onFrame (now : Nat) : Outcome :=
  if decoded.pgn.value = tpCmPgn then e.onCm decoded data now
  else if decoded.pgn.value = tpDtPgn then e.onDt decoded data now
  else if decoded.pgn.value = etpCmPgn then e.onEtpCm decoded data now
  else if decoded.pgn.value = etpDtPgn then e.onEtpDt decoded data now
  else .ok ([], e)

def idleLongerThan (timer now lastActivity : Nat) : Bool := timer < now - lastActivity

def pollEtpTimeouts (now t2 t3 : Nat) : Outcome := do
  let (rx, etpRx) ← e.etpRx.removeAll (e.etpRx.matchingKeys fun s => idleLongerThan t2 now s.lastActivity)
  let (tx, etpTx) ← e.etpTx.removeAll (e.etpTx.matchingKeys fun s => idleLongerThan t3 now s.lastActivity)
  let pendingOut := e.pendingOut ++ rx.map InboundEtpSession.timeoutFrame ++ tx.map OutboundEtpSession.timeoutFrame
  .ok (rx.map (InboundEtpSession.aborted · .timeout) ++ tx.map (OutboundEtpSession.aborted · .timeout),
    { e with etpRx, etpTx, pendingOut })

def pollTimeouts (now : Nat) : Outcome := do
  let t1 := e.timers.t1
  let (bam, sessions) ← e.sessions.removeAll (e.sessions.matchingKeys fun s => idleLongerThan t1 now s.lastActivity)
  let t2 := e.timers.t2
  let (rx, rxConn) ← e.rxConn.removeAll (e.rxConn.matchingKeys fun s => idleLongerThan t2 now s.lastActivity)
  let t3 := e.timers.t3
  let (tx, txConn) ← e.txConn.removeAll (e.txConn.matchingKeys fun s => idleLongerThan t3 now s.lastActivity)
  let pendingOut := e.pendingOut ++ rx.map InboundConnSession.timeoutFrame ++ tx.map OutboundConnSession.timeoutFrame
  let (etpEvents, e) ← { e with sessions, rxConn, txConn, pendingOut }.pollEtpTimeouts now t2 t3
  .ok (bam.map (InboundSession.aborted · .timeout) ++ rx.map (InboundConnSession.aborted · .timeout) ++
    tx.map (OutboundConnSession.aborted · .timeout) ++ etpEvents, e)

def segmentOutbound.loop (priority sourceAddr : UInt8) (payload : List UInt8) :
    List Nat → Except Panic (List TpOutFrame)
  | [] => .ok []
  | i :: rest => do
    let frame ← dataFrame dtPgn priority sourceAddr globalAddress payload (i + 1) (i * tpDtDataLen)
    let frames ← loop priority sourceAddr payload rest
    .ok (frame :: frames)

def segmentOutbound (transportedPgn : Pgn) (priority sourceAddr : UInt8) (payload : List UInt8) :
    Except Panic (Except TpError (List TpOutFrame)) :=
  let size := payload.length
  if ¬ (tpMinPayload ≤ size ∧ size ≤ tpMaxPayload) then .ok (.error (.payloadOutOfRange size))
  else do
    let numPackets := packetsFor size
    let cm := cmFrame cmPgn sourceAddr globalAddress priority transportedPgn bamControl
      (byteAt size 0) (byteAt size 1) (UInt8.ofNat numPackets) 0xFF
    let frames ← segmentOutbound.loop priority sourceAddr payload (List.range numPackets)
    .ok (.ok (cm :: frames))

end TpEngine

end Taktora.J1939
