import Taktora.Can.Driver
import Taktora.J1939.Identifier

namespace Taktora.J1939

open Can

def tpMaxLen : Nat := 1785
def singleFrameLen : Nat := 8

def Pgn.pduFormat (pgn : Pgn) : UInt8 := UInt8.ofNat ((pgn.value >>> 8) &&& 0xFF)

def Pgn.isPdu1 (pgn : Pgn) : Bool := pgn.pduFormat < pdu2FormatThreshold

inductive TransportClass where
  | singleFrame
  | tp (maxLen : Nat)
  | etp (maxLen : Nat)
deriving DecidableEq

def TransportClass.maxPayload : TransportClass → Nat
  | .singleFrame => singleFrameLen
  | .tp maxLen => if maxLen > tpMaxLen then tpMaxLen else maxLen
  | .etp maxLen => maxLen

def TransportClass.isTp : TransportClass → Bool
  | .tp _ => true
  | _ => false

structure J1939Routing where
  pgn : Pgn
  sourceAddr : Option UInt8
  destAddr : Option UInt8
  transport : TransportClass
  priority : UInt8
deriving DecidableEq

/-- Absent address filters are wildcards. -/
def J1939Routing.matches (routing : J1939Routing) (decoded : DecodedId) : Bool :=
  routing.pgn == decoded.pgn && routing.sourceAddr.all (· == decoded.sourceAddr) &&
    routing.destAddr.all (fun da => decoded.destAddr == some da)

theorem Pgn.isPdu1_iff (pgn : Pgn) : pgn.isPdu1 = true ↔ UInt8.ofNat (pgn.value / 256 % 256) < pdu2FormatThreshold := by
  have pf : (pgn.value >>> 8) &&& 0xFF = pgn.value / 256 % 256 := by
    rw [Nat.shiftRight_eq_div_pow, Nat.and_two_pow_sub_one_eq_mod _ 8]
  simp [isPdu1, pduFormat, pf]

/-- Identifiers keep their 29 bits, and a routing reaches itself unless the destination takes a low byte's place. -/
theorem identifiers_round_trip (raw : Nat) (routing : J1939Routing) (sourceAddr : UInt8) :
    let decoded := decodeExtendedId raw
    encodeExtendedId decoded.pgn decoded.priority decoded.sourceAddr decoded.destAddr = raw &&& extendedIdMask ∧
    (routing.matches (decodeExtendedId (encodeExtendedId routing.pgn routing.priority
        (routing.sourceAddr.getD sourceAddr) routing.destAddr)) = true ↔
      if routing.pgn.isPdu1 then routing.pgn.value % 256 = 0 else routing.destAddr = none) := by
  refine ⟨encode_decode raw, ?_⟩
  have source : routing.sourceAddr.all (· == routing.sourceAddr.getD sourceAddr) = true := by
    cases routing.sourceAddr <;> simp
  have same (value : Nat) (bound : value ≤ pgnMax) : routing.pgn = ⟨value, bound⟩ ↔ routing.pgn.value = value := by
    cases routing.pgn
    simp
  simp only [J1939Routing.matches, decode_encode, source, Pgn.isPdu1_iff, and_true, Bool.and_eq_true, beq_iff_eq, same]
  by_cases pdu1 : UInt8.ofNat (routing.pgn.value / 256 % 256) < pdu2FormatThreshold
  · simp only [pdu1, if_true]
    cases routing.destAddr <;> simp <;> omega
  · simp only [pdu1, if_false]
    cases routing.destAddr <;> simp

theorem low_byte_not_matched :
    ∃ routing : J1939Routing, Pgn.new 0xEF01 = .ok routing.pgn ∧ routing.pgn.isPdu1 = true ∧ routing.priority = 6 ∧
      routing.sourceAddr = some 0x20 ∧ routing.destAddr = none ∧
      routing.matches (decodeExtendedId (encodeExtendedId routing.pgn 6 0x20 none)) = false :=
  ⟨⟨⟨0xEF01, by decide⟩, some 0x20, none, .singleFrame, 6⟩, by decide⟩

structure RegisteredChannel where
  descriptorName : String
  routing : J1939Routing
  direction : Direction
  binding : ChannelBinding

abbrev J1939Registry := List RegisteredChannel

def J1939Registry.iterDirection (registry : J1939Registry) (direction : Direction) : List RegisteredChannel :=
  registry.filter (·.direction == direction)

end Taktora.J1939
