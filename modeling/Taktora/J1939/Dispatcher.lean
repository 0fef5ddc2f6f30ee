import Taktora.Lib.Fallible
import Taktora.J1939.AddrClaim
import Taktora.J1939.Routing
import Taktora.J1939.Tp.Reachable

namespace Taktora.J1939

open Can Checked

def ioErr (message : String) : Failure := .connector (.stack ("j1939 dispatcher: " ++ message))

def TpError.text : TpError → String
  | .payloadOutOfRange len => "TP payload length " ++ toString len ++ " out of BAM range 9..=1785"
  | .etpPayloadOutOfRange len max =>
    "ETP payload length " ++ toString len ++ " out of range 1786..=" ++ toString max ++ " (max_etp_bytes)"

structure IterationOutcome where
  txSent : Nat
  inboundPublishes : Nat
  errorKind : Option CanErrorKind
  reconnected : Bool
  tpCompleted : Nat
  tpAborted : Nat
  tpRefused : Nat
  tpEvents : List TpEvent
deriving DecidableEq

def IterationOutcome.sent (txSent : Nat) : IterationOutcome :=
  { txSent, inboundPublishes := 0, errorKind := none, reconnected := false, tpCompleted := 0, tpAborted := 0
    tpRefused := 0, tpEvents := [] }

structure ClaimCtx where
  engine : AddrClaimEngine
  gate : ClaimState
deriving DecidableEq

structure Node where
  tp : TpEngine
  claim : Option ClaimCtx
  sent : List CanData
  published : List (String × List UInt8)
  health : List IfaceHealthKind

structure Surroundings where
  registry : J1939Registry
  now : Nat
  received : Option (Except CanIoError CanFrame)
  send : List CanData → CanData → Except CanIoError Unit
  reopen : Except CanIoError Unit
  reopened : CanIfaceState
  /-- The order in which the engine finds its sessions when a frame arrives, and when it is polled. -/
  arrange : TpEngine → TpEngine
  rearrange : TpEngine → TpEngine
  arranged : ∀ e : TpEngine, e.Reordered (arrange e)
  rearranged : ∀ e : TpEngine, e.Reordered (rearrange e)

abbrev Dispatch := Fallible Failure Node

namespace Dispatcher

structure FrameParts where
  wirePgn : Pgn
  priority : UInt8
  sourceAddr : UInt8
  destAddr : Option UInt8
  data : List UInt8

def tpParts (f : TpOutFrame) : FrameParts := ⟨f.wirePgn, f.priority, f.sourceAddr, f.destAddr, f.data.1⟩

def acParts (f : AcOutFrame) : FrameParts := ⟨f.wirePgn, f.priority, f.sourceAddr, f.destAddr, f.data.1⟩

def extendedId (wirePgn : Pgn) (priority sourceAddr : UInt8) (destAddr : Option UInt8) : Except Failure CanId :=
  (CanId.newExtended (encodeExtendedId wirePgn priority sourceAddr destAddr)).mapError fun e =>
    ioErr ("encode id: " ++ e.text)

def buildFrame (id : CanId) (payload : List UInt8) : Except Failure CanData :=
  (CanData.new id .classical payload).mapError fun e => ioErr ("build frame: " ++ e.text)

def FrameParts.encode (f : FrameParts) : Except Failure CanData := do
  let id ← extendedId f.wirePgn f.priority f.sourceAddr f.destAddr
  buildFrame id f.data

def encodeAll : List FrameParts → Except Failure (List CanData)
  | [] => .ok []
  | f :: rest => do
    let frame ← f.encode
    let frames ← encodeAll rest
    .ok (frame :: frames)

def drained (capacity : Nat) (message : Except ConnectorError (List UInt8)) : Except Failure (List UInt8) :=
  (drainInto capacity message).mapError .connector

def segmentedJobs (routing : J1939Routing) (sa : UInt8) :
    List (Except ConnectorError (List UInt8)) → Except Failure (List CanData)
  | [] => .ok []
  | message :: rest => do
    let written ← drained routing.transport.maxPayload message
    match TpEngine.segmentOutbound routing.pgn routing.priority sa written with
    | .error p => .error (.panicked p)
    | .ok (.error e) => .error (ioErr ("segment_outbound: " ++ e.text))
    | .ok (.ok frames) => do
      let jobs ← encodeAll (frames.map tpParts)
      let more ← segmentedJobs routing sa rest
      .ok (jobs ++ more)

def singleFrameJobs (id : CanId) : List (Except ConnectorError (List UInt8)) → Except Failure (List CanData)
  | [] => .ok []
  | message :: rest => do
    let written ← drained singleFrameLen message
    let frame ← buildFrame id written
    let more ← singleFrameJobs id rest
    .ok (frame :: more)

variable (sourceAddr : UInt8)

def channelJobs (channel : RegisteredChannel) : Except Failure (List CanData) :=
  match channel.binding with
  | .outbound pending =>
    let sa := channel.routing.sourceAddr.getD sourceAddr
    if channel.routing.transport.isTp then segmentedJobs channel.routing sa pending
    else do
      let id ← extendedId channel.routing.pgn channel.routing.priority sa channel.routing.destAddr
      singleFrameJobs id pending
  | _ => .ok []

def collectFrom (sourceAddr : UInt8) : List RegisteredChannel → Except Failure (List CanData)
  | [] => .ok []
  | channel :: rest => do
    let jobs ← channelJobs sourceAddr channel
    let more ← collectFrom sourceAddr rest
    .ok (jobs ++ more)

variable (registry : J1939Registry)

def collectOutboundJobs : Except Failure (List CanData) :=
  collectFrom sourceAddr (registry.iterDirection .outbound)

variable (env : Surroundings)

def sendClassical (frame : CanData) : Dispatch Unit := do
  let node ← get
  match env.send node.sent frame with
  | .ok _ => set { node with sent := node.sent ++ [frame] }
  | .error e => throw (ioErr ("send_classical: " ++ e.text))

def sendJobs (env : Surroundings) : List CanData → Nat → Dispatch Nat
  | [], sent => pure sent
  | frame :: rest, sent => do
    sendClassical env frame
    sendJobs env rest (sent + 1)

def sendOutboundOnce : Dispatch Nat := do
  let jobs ← Fallible.ofExcept (collectOutboundJobs sourceAddr env.registry)
  sendJobs env jobs 0

def transmitFrames (env : Surroundings) : List FrameParts → Nat → Dispatch Nat
  | [], txSent => pure txSent
  | f :: rest, txSent => do
    let frame ← Fallible.ofExcept f.encode
    sendClassical env frame
    transmitFrames env rest (txSent + 1)

def setIface (kind : IfaceHealthKind) : Dispatch Unit := modify fun n => { n with health := n.health ++ [kind] }

def callEngine (call : TpEngine → Outcome) : Dispatch (List TpEvent) := do
  let node ← get
  match call node.tp with
  | .ok (events, tp) =>
    set { node with tp }
    pure events
  | .error p => throw (.panicked p)

def publishBytes (channel : RegisteredChannel) (payload : List UInt8) (count : Nat) : Dispatch Nat :=
  match channel.binding with
  | .inbound publish => do
    Fallible.ofExcept ((publish payload).mapError Failure.connector)
    modify fun n => { n with published := n.published ++ [(channel.descriptorName, payload)] }
    pure (count + 1)
  | _ => pure count

def publishTo (wanted : J1939Routing → Bool) (payload : List UInt8) : List RegisteredChannel → Nat → Dispatch Nat
  | [], count => pure count
  | channel :: rest, count =>
    if wanted channel.routing then do
      let count ← publishBytes channel payload count
      publishTo wanted payload rest count
    else publishTo wanted payload rest count

def publishTpCompleted (pgn : Pgn) (sourceAddr : UInt8) (payload : List UInt8) : Dispatch Nat :=
  let synthetic : DecodedId := { priority := 0, pduFormat := pgn.pduFormat, pgn, sourceAddr, destAddr := none }
  publishTo (fun routing => routing.transport.isTp && routing.matches synthetic) payload
    (registry.iterDirection .inbound) 0

def applyTpEvent (event : TpEvent) (outcome : IterationOutcome) : Dispatch IterationOutcome :=
  match event with
  | .completed pgn sourceAddr payload => do
    let count ← publishTpCompleted registry pgn sourceAddr payload
    pure { outcome with
      inboundPublishes := outcome.inboundPublishes + count, tpCompleted := outcome.tpCompleted + 1 }
  | .aborted _ _ _ => do
    setIface .degraded
    pure { outcome with tpAborted := outcome.tpAborted + 1, tpEvents := outcome.tpEvents ++ [event] }
  | .sessionRefused _ _ _ => do
    setIface .degraded
    pure { outcome with tpRefused := outcome.tpRefused + 1, tpEvents := outcome.tpEvents ++ [event] }

def applyTpEvents (registry : J1939Registry) : List TpEvent → IterationOutcome → Dispatch IterationOutcome
  | [], outcome => pure outcome
  | event :: rest, outcome => do
    let outcome ← applyTpEvent registry event outcome
    applyTpEvents registry rest outcome

variable (decoded : DecodedId)

def isClaimPgn : Bool :=
  decoded.pgn.value = addressClaimedPgn ∨ decoded.pgn.value = requestPgn ∨ decoded.pgn.value = commandedAddressPgn

def isTpWirePgn : Bool :=
  decoded.pgn.value = tpCmPgn ∨ decoded.pgn.value = tpDtPgn ∨ decoded.pgn.value = etpCmPgn ∨
    decoded.pgn.value = etpDtPgn

def claimEvents (payload : List UInt8) : Dispatch (Option (List AcEvent)) := do
  let node ← get
  match node.claim with
  | some ctx =>
    if isClaimPgn decoded then
      let (events, engine) := ctx.engine.onFrame decoded payload env.now
      set { node with claim := some { ctx with engine } }
      pure (some events)
    else pure none
  | none => pure none

def demuxInbound (frame : CanData) (outcome : IterationOutcome) (acEvents : List AcEvent) :
    Dispatch (IterationOutcome × List AcEvent) := do
  let decoded := decodeExtendedId frame.id.value
  match ← claimEvents env decoded frame.payload with
  | some events => pure (outcome, acEvents ++ events)
  | none =>
    if isTpWirePgn decoded then
      let events ← callEngine (·.onFrame decoded frame.payload env.now)
      let outcome ← applyTpEvents env.registry events outcome
      pure (outcome, acEvents)
    else
      let count ← publishTo (fun routing => !routing.transport.isTp && routing.matches decoded) frame.payload
        (env.registry.iterDirection .inbound) 0
      pure ({ outcome with inboundPublishes := outcome.inboundPublishes + count }, acEvents)

def classifyError : CanErrorKind → Dispatch Unit
  | .warning | .passive => setIface .degraded
  | .busOff => do
    setIface .down
    match env.reopen with
    | .ok _ => do
      setIface .connecting
      setIface .up
    | .error e => throw (ioErr ("reopen: " ++ e.text))
  | .arbitrationLost | .other => pure ()

def reconnectOnce : Dispatch Unit := do
  setIface .down
  if env.reopen.isOk ∧ env.reopened = .active then do
    setIface .connecting
    setIface .up
  else pure ()

def handleRxResult (outcome : IterationOutcome) (acEvents : List AcEvent) :
    Dispatch (IterationOutcome × List AcEvent) :=
  match env.received with
  | none | some (.ok (.remote _ _)) => pure (outcome, acEvents)
  | some (.ok (.data frame)) => demuxInbound env frame outcome acEvents
  | some (.ok (.error kind)) => do
    classifyError env kind
    pure ({ outcome with errorKind := some kind }, acEvents)
  | some (.error .closed) => do
    reconnectOnce env
    pure ({ outcome with reconnected := true }, acEvents)
  | some (.error e) => throw (ioErr ("recv: " ++ e.text))

def pollClaim : Dispatch (List AcEvent) := do
  let node ← get
  match node.claim with
  | some ctx =>
    let (events, engine) := ctx.engine.poll env.now
    set { node with claim := some { ctx with engine } }
    pure events
  | none => pure []

def reflected : AcEvent → ClaimState × IfaceHealthKind
  | .claiming _ => (.claiming, .connecting)
  | .claimed _ => (.claimed, .up)
  | .cannotClaim => (.cannotClaim, .down)

def applyAcEvents : List AcEvent → Dispatch Unit
  | [] => pure ()
  | event :: rest => do
    modify fun n => { n with claim := n.claim.map fun ctx => { ctx with gate := (reflected event).1 } }
    setIface (reflected event).2
    applyAcEvents rest

def takeEngineFrames : Dispatch (List FrameParts) := do
  let node ← get
  set { node with tp := node.tp.takeOutbound.2 }
  pure (node.tp.takeOutbound.1.map tpParts)

def takeClaimFrames : Dispatch (List FrameParts) := do
  let node ← get
  set { node with claim := node.claim.map fun ctx : ClaimCtx => { ctx with engine := ctx.engine.takeOutbound.2 } }
  pure ((node.claim.elim [] fun ctx => ctx.engine.takeOutbound.1).map acParts)

def dispatchIteration : Dispatch IterationOutcome := do
  modify fun n => { n with tp := env.arrange n.tp }
  let txSent ← sendOutboundOnce sourceAddr env
  let acEvents ← pollClaim env
  let (outcome, acEvents) ← handleRxResult env (.sent txSent) acEvents
  modify fun n => { n with tp := env.rearrange n.tp }
  let timeouts ← callEngine (·.pollTimeouts env.now)
  let outcome ← applyTpEvents env.registry timeouts outcome
  let frames ← takeEngineFrames
  let txSent ← transmitFrames env frames outcome.txSent
  applyAcEvents acEvents
  let claimFrames ← takeClaimFrames
  let txSent ← transmitFrames env claimFrames txSent
  pure { outcome with txSent }

def dispatcherLoop (sourceAddr : UInt8) : List Surroundings → Dispatch Unit
  | [] => pure ()
  | env :: rest => do
    let _ ← dispatchIteration sourceAddr env
    dispatcherLoop sourceAddr rest

end Dispatcher

def Node.fresh (tp : TpEngine) (claim : Option ClaimCtx) : Node :=
  { tp, claim, sent := [], published := [], health := [] }

def Node.configured (timers : TpTimers) (maxTpSessions maxEtpBytes : Nat) (sourceAddr : UInt8) (name : UInt64)
    (claimWait : Nat) : Node :=
  .fresh ((TpEngine.new timers maxTpSessions).withMaxEtpBytes maxEtpBytes)
    (some ⟨AddrClaimEngine.new sourceAddr name claimWait, .claiming⟩)

end Taktora.J1939
