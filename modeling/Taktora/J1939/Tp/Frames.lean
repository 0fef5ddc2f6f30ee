import Taktora.Lib.Packets
import Taktora.J1939.Identifier

namespace Taktora.J1939

open Checked LittleEndian

def tpCmPgn : Nat := 60416
def tpDtPgn : Nat := 60160
def etpCmPgn : Nat := 51200
def etpDtPgn : Nat := 50944

def bamControl : UInt8 := 0x20
def rtsControl : UInt8 := 0x10
def ctsControl : UInt8 := 0x11
def eomaControl : UInt8 := 0x13
def connAbortControl : UInt8 := 0xFF
def ctsNoLimit : UInt8 := 0xFF
def defaultCtsWindow : UInt8 := 16

def etpRtsControl : UInt8 := 0x14
def etpCtsControl : UInt8 := 0x15
def etpDpoControl : UInt8 := 0x16
def etpEomaControl : UInt8 := 0x17
def etpAbortControl : UInt8 := 0xFF

def tpMinPayload : Nat := 9
def tpMaxPayload : Nat := 1785
def tpDtDataLen : Nat := 7
def etpMinPayload : Nat := tpMaxPayload + 1
def etpProtocolMax : Nat := 117440505
def defaultMaxEtpBytes : Nat := 16 * 1024 * 1024

def packetsFor (size : Nat) : Nat := (size + 6) / 7

inductive TpAbortReason where
  | alreadyInSession
  | resources
  | timeout
  | other
deriving DecidableEq

def TpAbortReason.asU8 : TpAbortReason → UInt8
  | .alreadyInSession => 1
  | .resources => 2
  | .timeout => 3
  | .other => 4

def abortReasonFromU8 (code : UInt8) : TpAbortReason :=
  if code = 1 then .alreadyInSession
  else if code = 2 then .resources
  else if code = 3 then .timeout
  else .other

inductive TpEvent where
  | completed (pgn : Pgn) (sourceAddr : UInt8) (payload : List UInt8)
  | aborted (pgn : Pgn) (sourceAddr : UInt8) (reason : TpAbortReason)
  | sessionRefused (pgn : Pgn) (sourceAddr : UInt8) (reason : TpAbortReason)
deriving DecidableEq

structure TpOutFrame where
  wirePgn : Pgn
  priority : UInt8
  sourceAddr : UInt8
  destAddr : Option UInt8
  data : List.Vector UInt8 8
deriving DecidableEq

inductive TpError where
  | payloadOutOfRange (len : Nat)
  | etpPayloadOutOfRange (len max : Nat)
deriving DecidableEq

def cmPgn : Pgn := ⟨tpCmPgn, by decide⟩
def dtPgn : Pgn := ⟨tpDtPgn, by decide⟩
def etpCm : Pgn := ⟨etpCmPgn, by decide⟩
def etpDt : Pgn := ⟨etpDtPgn, by decide⟩

/-- The eight bytes a connection-management handler reads; they exist once `data.len() < 8` has been ruled out. -/
structure CmBytes where
  b0 : UInt8
  b1 : UInt8
  b2 : UInt8
  b3 : UInt8
  b4 : UInt8
  b5 : UInt8
  b6 : UInt8
  b7 : UInt8
deriving DecidableEq

def CmBytes.ofData : List UInt8 → Option CmBytes
  | b0 :: b1 :: b2 :: b3 :: b4 :: b5 :: b6 :: b7 :: _ => some ⟨b0, b1, b2, b3, b4, b5, b6, b7⟩
  | _ => none

def transportedPgnFrom (b : CmBytes) : Nat := join3 b.b5 b.b6 b.b7

def u24From (b : CmBytes) : Nat := join3 b.b2 b.b3 b.b4

def cmFrame (wirePgn : Pgn) (ourSa destSa priority : UInt8) (pgn : Pgn) (b0 b1 b2 b3 b4 : UInt8) : TpOutFrame :=
  { wirePgn, priority, sourceAddr := ourSa, destAddr := some destSa
    data := ⟨[b0, b1, b2, b3, b4, byteAt pgn.value 0, byteAt pgn.value 1, byteAt pgn.value 2], rfl⟩ }

variable (ourSa destSa priority : UInt8) (pgn : Pgn)

def rtsFrame (size totalPackets : Nat) (maxPerCts : UInt8) : TpOutFrame :=
  cmFrame cmPgn ourSa destSa priority pgn rtsControl (byteAt size 0) (byteAt size 1)
    (UInt8.ofNat totalPackets) maxPerCts

def ctsFrame (numPackets nextSeq : Nat) : TpOutFrame :=
  cmFrame cmPgn ourSa destSa priority pgn ctsControl (UInt8.ofNat numPackets) (UInt8.ofNat nextSeq) 0xFF 0xFF

def endOfMsgAckFrame (size totalPackets : Nat) : TpOutFrame :=
  cmFrame cmPgn ourSa destSa priority pgn eomaControl (byteAt size 0) (byteAt size 1)
    (UInt8.ofNat totalPackets) 0xFF

def connAbortFrame (reason : TpAbortReason) : TpOutFrame :=
  cmFrame cmPgn ourSa destSa priority pgn connAbortControl reason.asU8 0xFF 0xFF 0xFF

def etpRtsFrame (size : Nat) : TpOutFrame :=
  let s := size % 2 ^ 32
  cmFrame etpCm ourSa destSa priority pgn etpRtsControl (byteAt s 0) (byteAt s 1) (byteAt s 2) (byteAt s 3)

def etpCtsFrame (numPackets nextPkt : Nat) : TpOutFrame :=
  cmFrame etpCm ourSa destSa priority pgn etpCtsControl (UInt8.ofNat numPackets)
    (byteAt nextPkt 0) (byteAt nextPkt 1) (byteAt nextPkt 2)

def etpDpoFrame (numPackets offset : Nat) : TpOutFrame :=
  cmFrame etpCm ourSa destSa priority pgn etpDpoControl (UInt8.ofNat numPackets)
    (byteAt offset 0) (byteAt offset 1) (byteAt offset 2)

def etpEomaFrame (size : Nat) : TpOutFrame :=
  let s := size % 2 ^ 32
  cmFrame etpCm ourSa destSa priority pgn etpEomaControl (byteAt s 0) (byteAt s 1) (byteAt s 2) (byteAt s 3)

def etpAbortFrame (reason : TpAbortReason) : TpOutFrame :=
  cmFrame etpCm ourSa destSa priority pgn etpAbortControl reason.asU8 0xFF 0xFF 0xFF

def blankData (seq : Nat) : List.Vector UInt8 8 :=
  ⟨[UInt8.ofNat seq, 0xFF, 0xFF, 0xFF, 0xFF, 0xFF, 0xFF, 0xFF], rfl⟩

/-- A data frame cut from `payload` at byte `start`: `seq`, then up to seven bytes, padded with `0xFF`. -/
def dataFrame (wirePgn : Pgn) (priority sourceAddr destAddr : UInt8) (payload : List UInt8) (seq start : Nat) :
    Except Panic TpOutFrame := do
  let stop := min (start + tpDtDataLen) payload.length
  let count ← Checked.sub stop start
  let bytes ← slice payload start stop
  let data ← copyIntoArray (blankData seq) 1 (count + 1) bytes
  .ok { wirePgn, priority, sourceAddr, destAddr := some destAddr, data }

end Taktora.J1939
