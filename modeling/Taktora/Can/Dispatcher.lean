import Taktora.Lib.Collect
import Taktora.Lib.Fallible
import Taktora.Can.Routing

namespace Taktora.Can

open Checked Fallible

def maxCanPayload : Nat := 64

inductive Act where
  | report (kind : IfaceHealthKind)
  | nextDelay
  | reopen (result : Except CanIoError Unit) (state : CanIfaceState)
  | applyFilter (filters : List CanFilter) (result : Except CanIoError Unit)
deriving DecidableEq

structure IfaceTask where
  lastFilter : List CanFilter
  lastInboundCount : Nat
  trace : List Act
  sent : List CanData
  published : List (String × List UInt8)

structure IfaceSurroundings where
  registry : ChannelRegistry
  /-- When the channels are counted, when a new filter is compiled, and when one is compiled for a reopened driver. -/
  counted : ChannelRegistry := registry
  compiled : ChannelRegistry := registry
  reconnected : ChannelRegistry := registry
  applied : Except CanIoError Unit
  /-- The result of sending a frame once the given frames are sent. -/
  send : List CanData → CanData → Except CanIoError Unit
  received : Option (Except CanIoError CanFrame)
  reopen : Except CanIoError Unit
  reopened : CanIfaceState
  /-- The results of reopening a closed driver, and its states, until the task is stopped. -/
  attempts : List (Except CanIoError Unit × CanIfaceState)
  reapplied : Except CanIoError Unit

abbrev IfaceDispatch := Fallible ConnectorError IfaceTask

namespace CanDispatcher

def ioErr (message : String) : ConnectorError := .stack ("can dispatcher: " ++ message)

def compileIfaceFilter (registry : ChannelRegistry) (iface : CanIface) : List CanFilter :=
  compile ((registry.iterIfaceDirection iface .inbound).map (·.routing))

def inboundCount (registry : ChannelRegistry) (iface : CanIface) : Nat :=
  (registry.iterIfaceDirection iface .inbound).length

def act (a : Act) : IfaceDispatch Unit := modify fun t => { t with trace := t.trace ++ [a] }

def setIface (kind : IfaceHealthKind) : IfaceDispatch Unit := act (.report kind)

def frameJob (routing : CanRouting) (message : Except ConnectorError (List UInt8)) :
    Except ConnectorError (List CanData) := do
  let written ← drainInto maxCanPayload message
  let data ← (CanData.new routing.canId routing.kind written).mapError fun e => ioErr ("build frame: " ++ e.text)
  .ok [data]

def channelJobs (channel : RegisteredChannel) : Except ConnectorError (List CanData) :=
  match channel.binding with
  | .outbound pending => collect (frameJob channel.routing) pending
  | _ => .ok []

variable (iface : CanIface)

def collectOutboundJobs (registry : ChannelRegistry) : Except ConnectorError (List CanData) :=
  collect channelJobs (registry.iterIfaceDirection iface .outbound)

variable (env : IfaceSurroundings)

def sendFrame (data : CanData) : IfaceDispatch Unit := do
  let task ← get
  match env.send task.sent data, data.kind with
  | .ok _, _ => set { task with sent := task.sent ++ [data] }
  | .error e, .classical => throw (ioErr ("send_classical: " ++ e.text))
  | .error e, .fd => throw (ioErr ("send_fd: " ++ e.text))

def drainOutboundOnce : IfaceDispatch Unit := do
  let jobs ← Fallible.ofExcept (collectOutboundJobs iface env.registry)
  each (sendFrame env) jobs

def publishBytes (channel : RegisteredChannel) (payload : List UInt8) : IfaceDispatch Unit :=
  match channel.binding with
  | .inbound publish => do
    Fallible.ofExcept (publish payload)
    modify fun t => { t with published := t.published ++ [(channel.descriptorName, payload)] }
  | _ => pure ()

def demuxInbound (frame : CanData) (registry : ChannelRegistry) : IfaceDispatch Unit :=
  each (fun channel => if channel.routing.matches frame then publishBytes channel frame.payload else pure ())
    (registry.iterIfaceDirection iface .inbound)

def classifyError : CanErrorKind → IfaceDispatch Unit
  | .warning | .passive => setIface .degraded
  | .busOff => do
    setIface .down
    act .nextDelay
    act (.reopen env.reopen env.reopened)
    match env.reopen with
    | .ok _ => do
      setIface .connecting
      setIface .up
    | .error e => throw (ioErr ("reopen: " ++ e.text))
  | .arbitrationLost | .other => pure ()

def handleInboundFrame : CanFrame → IfaceDispatch Unit
  | .data d => demuxInbound iface d env.registry
  | .error kind => classifyError env kind
  | .remote _ _ => pure ()

def reconnectUntilOpen : List (Except CanIoError Unit × CanIfaceState) → IfaceDispatch Bool
  | [] => pure false
  | (result, state) :: later => do
    act .nextDelay
    act (.reopen result state)
    if result.isOk ∧ state = .active then pure true else reconnectUntilOpen later

def recompileFilter : IfaceDispatch Unit := do
  let task ← get
  let currentCount := inboundCount env.counted iface
  if currentCount ≠ task.lastInboundCount then
    let recompiled := compileIfaceFilter env.compiled iface
    if recompiled ≠ task.lastFilter then
      act (.applyFilter recompiled env.applied)
      match env.applied with
      | .error e => throw (ioErr ("filter recompile apply: " ++ e.text))
      | .ok _ => modify fun t => { t with lastFilter := recompiled }
    modify fun t => { t with lastInboundCount := currentCount }

def dispatchOnce : IfaceDispatch Bool := do
  recompileFilter iface env
  drainOutboundOnce iface env
  match env.received with
  | none => pure true
  | some (.ok frame) => do
    handleInboundFrame iface env frame
    pure true
  | some (.error .closed) => do
    setIface .down
    if ← reconnectUntilOpen env.attempts then
      let recompiled := compileIfaceFilter env.reconnected iface
      act (.applyFilter recompiled env.reapplied)
      modify fun t => { t with lastFilter := recompiled }
      setIface .connecting
      setIface .up
      pure true
    else pure false
  | some (.error e) => throw (ioErr ("recv: " ++ e.text))

def turns (iface : CanIface) : List IfaceSurroundings → IfaceDispatch Unit
  | [] => pure ()
  | env :: rest => do
    if ← dispatchOnce iface env then turns iface rest else pure ()

def bringUp (registry : ChannelRegistry) (applied : Except CanIoError Unit) : IfaceDispatch Unit := do
  let task ← get
  let initial := compileIfaceFilter registry iface
  if initial ≠ task.lastFilter then
    act (.applyFilter initial applied)
    match applied with
    | .error e => do
      setIface .down
      throw (ioErr ("apply_filter: " ++ e.text))
    | .ok _ => modify fun t => { t with lastFilter := initial }
  setIface .up

def dispatcherLoop (registry : ChannelRegistry) (applied : Except CanIoError Unit)
    (envs : List IfaceSurroundings) : IfaceDispatch Unit := do
  bringUp iface registry applied
  turns iface envs

end CanDispatcher

def IfaceTask.new : IfaceTask := { lastFilter := [], lastInboundCount := 0, trace := [], sent := [], published := [] }

end Taktora.Can
