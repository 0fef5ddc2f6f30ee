import Mathlib.Logic.Basic
import Taktora.Core.Error

namespace Taktora

namespace Can

structure CanId where
  value : Nat
  extended : Bool
deriving DecidableEq

inductive CanIdError where
  | standardOverflow
  | extendedOverflow
deriving DecidableEq

def CanIdError.text : CanIdError → String
  | .standardOverflow => "standard CAN ID exceeds 11 bits (max 0x7FF)"
  | .extendedOverflow => "extended CAN ID exceeds 29 bits (max 0x1FFF_FFFF)"

def CanId.newExtended (value : Nat) : Except CanIdError CanId :=
  if value > 0x1FFFFFFF then .error .extendedOverflow else .ok ⟨value, true⟩

inductive CanFrameKind where
  | classical
  | fd
deriving DecidableEq

def CanFrameKind.maxPayload : CanFrameKind → Nat
  | .classical => 8
  | .fd => 64

inductive CanIoError where
  | payloadTooLong (actual max : Nat)
  | io (text : String)
  | closed
  | busOff
deriving DecidableEq

def CanIoError.text : CanIoError → String
  | .payloadTooLong actual max => "CAN payload too long: " ++ toString actual ++ " > " ++ toString max
  | .io text => "CAN I/O: " ++ text
  | .closed => "CAN interface is closed"
  | .busOff => "CAN interface is in bus-off"

structure CanData where
  id : CanId
  kind : CanFrameKind
  payload : List UInt8
deriving DecidableEq

def CanData.new (id : CanId) (kind : CanFrameKind) (payload : List UInt8) : Except CanIoError CanData :=
  if payload.length > kind.maxPayload then .error (.payloadTooLong payload.length kind.maxPayload)
  else .ok ⟨id, kind, payload⟩

inductive CanErrorKind where
  | warning
  | passive
  | busOff
  | arbitrationLost
  | other
deriving DecidableEq

inductive CanFrame where
  | data (frame : CanData)
  | remote (id : CanId) (dlc : UInt8)
  | error (kind : CanErrorKind)
deriving DecidableEq

inductive CanIfaceState where
  | closed
  | active
  | busOff
deriving DecidableEq

inductive IfaceHealthKind where
  | connecting
  | up
  | degraded
  | down
deriving DecidableEq

inductive Direction where
  | outbound
  | inbound
deriving DecidableEq

inductive ChannelBinding where
  | unbound
  | outbound (pending : List (Except ConnectorError (List UInt8)))
  | inbound (publish : List UInt8 → Except ConnectorError Unit)

def publishUpTo (capacity : Nat) (payload : List UInt8) : Except ConnectorError Unit :=
  if payload.length > capacity then .error (.payloadOverflow payload.length capacity) else .ok ()

def ChannelBinding.isInbound : ChannelBinding → Bool
  | .inbound _ => true
  | _ => false

def drainInto (capacity : Nat) : Except ConnectorError (List UInt8) → Except ConnectorError (List UInt8)
  | .error e => .error e
  | .ok envelope =>
    if envelope.length > capacity then .error (.payloadOverflow envelope.length capacity) else .ok envelope

theorem CanData.new_ok {id : CanId} {kind : CanFrameKind} {payload : List UInt8}
    (fits : payload.length ≤ kind.maxPayload) :
    CanData.new id kind payload = .ok ⟨id, kind, payload⟩ :=
  if_neg (not_lt.mpr fits)

theorem drainInto_eq_ok {capacity : Nat} {pending : Except ConnectorError (List UInt8)} {written : List UInt8} :
    drainInto capacity pending = .ok written ↔ pending = .ok written ∧ written.length ≤ capacity := by
  cases pending with
  | error e =>
    constructor
    · intro impossible
      cases impossible
    · rintro ⟨impossible, _⟩
      cases impossible
  | ok envelope =>
    unfold drainInto
    dsimp only
    split
    · rename_i long
      constructor
      · intro impossible
        cases impossible
      · rintro ⟨same, short⟩
        cases same
        exact absurd short (not_le.mpr long)
    · rename_i short
      constructor
      · intro same
        cases same
        exact ⟨rfl, not_lt.mp short⟩
      · rintro ⟨same, _⟩
        exact same

end Can

end Taktora
