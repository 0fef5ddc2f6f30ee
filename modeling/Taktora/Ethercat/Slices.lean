import Taktora.Ethercat.Pdi

namespace Taktora.Ethercat

open BitField Checked List

namespace EthercatRouting

variable (routing : EthercatRouting)

def Covers (j : Nat) : Prop :=
  routing.bitOffset.toNat ≤ j ∧ j < routing.bitOffset.toNat + routing.bitLength.toNat

end EthercatRouting

def writeAll (pdi : List UInt8) : List (EthercatRouting × List UInt8) →
    Except Panic (Except ConnectorError (List UInt8))
  | [] => .ok (.ok pdi)
  | (routing, value) :: writes =>
    match writeRouting pdi routing value with
    | .ok (.ok pdi') => writeAll pdi' writes
    | failed => failed

variable {routing : EthercatRouting} {pdi pdi' value : List UInt8} {writes : List (EthercatRouting × List UInt8)}

end Taktora.Ethercat
