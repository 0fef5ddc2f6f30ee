import Taktora.J1939.Tp.Segment

namespace Taktora.J1939

open Checked Packets LittleEndian TpEngine

def TpOutFrame.decoded (f : TpOutFrame) : DecodedId :=
  decodeExtendedId (encodeExtendedId f.wirePgn f.priority f.sourceAddr f.destAddr)

def wireId (wirePgn : Pgn) (priority sourceAddr destAddr : UInt8) : DecodedId :=
  { priority := UInt8.ofNat (priority.toNat % 8), pduFormat := UInt8.ofNat (wirePgn.value / 256 % 256), pgn := wirePgn
    sourceAddr, destAddr := some destAddr }

def isTransport (pgn : Pgn) : Bool := pgn = cmPgn ∨ pgn = dtPgn ∨ pgn = etpCm ∨ pgn = etpDt

section

variable {wirePgn : Pgn} (transport : isTransport wirePgn = true)
include transport

theorem decode_encode_transport (priority sourceAddr destAddr : UInt8) :
    decodeExtendedId (encodeExtendedId wirePgn priority sourceAddr (some destAddr)) =
      wireId wirePgn priority sourceAddr destAddr := by
  have pdu1 : UInt8.ofNat (wirePgn.value / 256 % 256) < pdu2FormatThreshold ∧ wirePgn.value % 256 = 0 := by
    rcases of_decide_eq_true transport with rfl | rfl | rfl | rfl <;> decide
  exact decode_encode_pdu1 wirePgn priority sourceAddr destAddr pdu1.1 pdu1.2

theorem dtFrame_decoded (priority sourceAddr destAddr : UInt8) (payload : List UInt8) (seq p : Nat) :
    (dtFrame wirePgn priority sourceAddr destAddr payload seq p).decoded =
      wireId wirePgn priority sourceAddr destAddr :=
  decode_encode_transport transport priority sourceAddr destAddr

theorem cmFrame_decoded (ourSa destSa priority : UInt8) (pgn : Pgn) (b0 b1 b2 b3 b4 : UInt8) :
    (cmFrame wirePgn ourSa destSa priority pgn b0 b1 b2 b3 b4).decoded = wireId wirePgn priority ourSa destSa :=
  decode_encode_transport transport priority ourSa destSa

end

theorem dataKind_dt (priority sourceAddr destAddr : UInt8) : dataKind (wireId dtPgn priority sourceAddr destAddr) =
      some (if destAddr = globalAddress then .bam else .conn) := by
  have wire : (wireId dtPgn priority sourceAddr destAddr).pgn.value = tpDtPgn := rfl
  have dest : (wireId dtPgn priority sourceAddr destAddr).destAddr = some destAddr := rfl
  rw [dataKind, if_pos wire, dest]
  by_cases broadcast : destAddr = globalAddress
  · rw [if_pos (.inl (congrArg some broadcast)), if_pos broadcast]
  · rw [if_neg (by simpa using broadcast), if_neg broadcast]

theorem dataKind_cm (priority sourceAddr destAddr : UInt8) :
    dataKind (wireId cmPgn priority sourceAddr destAddr) = none := by
  have wire : (wireId cmPgn priority sourceAddr destAddr).pgn.value = tpCmPgn := rfl
  rw [dataKind, wire, if_neg (by decide), if_neg (by decide)]

def cmBytes (b0 b1 b2 b3 b4 : UInt8) (pgn : Pgn) : CmBytes :=
  ⟨b0, b1, b2, b3, b4, byteAt pgn.value 0, byteAt pgn.value 1, byteAt pgn.value 2⟩

theorem cmFrame_bytes (wirePgn : Pgn) (ourSa destSa priority : UInt8) (pgn : Pgn) (b0 b1 b2 b3 b4 : UInt8) :
    CmBytes.ofData (cmFrame wirePgn ourSa destSa priority pgn b0 b1 b2 b3 b4).data.1 =
      some (cmBytes b0 b1 b2 b3 b4 pgn) := rfl

theorem cmBytes_pgn (b0 b1 b2 b3 b4 : UInt8) (pgn : Pgn) :
    Pgn.new (transportedPgnFrom (cmBytes b0 b1 b2 b3 b4 pgn)) = .ok pgn := by
  have bound : pgn.value ≤ 262143 := pgn.bound
  have joined : transportedPgnFrom (cmBytes b0 b1 b2 b3 b4 pgn) = pgn.value := by
    rw [transportedPgnFrom, cmBytes, join3_byteAt]
    omega
  rw [joined, Pgn.new_value]

theorem segmentOutbound_loop (priority sourceAddr : UInt8) (payload : List UInt8) :
    ∀ n i, (∀ j < n, (i + j) * tpDtDataLen ≤ payload.length) →
      segmentOutbound.loop priority sourceAddr payload (List.range' i n) =
      .ok ((List.range' i n).map fun j => dtFrame dtPgn priority sourceAddr globalAddress payload (j + 1) (j + 1)) := by
  intro n
  induction n with
  | zero => intro i covered; rfl
  | succ n ih =>
    intro i covered
    have first : (i + 1 - 1) * tpDtDataLen ≤ payload.length := covered 0 (Nat.succ_pos n)
    have cut := dataFrame_ok first dtPgn priority sourceAddr globalAddress (i + 1)
    rw [Nat.add_sub_cancel] at cut
    rw [List.range'_succ, segmentOutbound.loop, cut, ok_bind, ih (i + 1) (fun j inside => by
      rw [add_assoc, add_comm 1 j]
      exact covered (j + 1) (Nat.succ_lt_succ inside)), ok_bind, List.map_cons]

def bamFrame (sourceAddr priority : UInt8) (pgn : Pgn) (size : Nat) : TpOutFrame :=
  cmFrame cmPgn sourceAddr globalAddress priority pgn bamControl (byteAt size 0) (byteAt size 1)
    (UInt8.ofNat (packetsFor size)) 0xFF

theorem segmentOutbound_eq {payload : List UInt8}
    (sized : tpMinPayload ≤ payload.length ∧ payload.length ≤ tpMaxPayload)
    (pgn : Pgn) (priority sourceAddr : UInt8) :
    segmentOutbound pgn priority sourceAddr payload =
      .ok (.ok (bamFrame sourceAddr priority pgn payload.length :: (List.range (packetsFor payload.length)).map fun j =>
      dtFrame dtPgn priority sourceAddr globalAddress payload (j + 1) (j + 1))) := by
  have covered : ∀ j < packetsFor payload.length, (0 + j) * tpDtDataLen ≤ payload.length := by
    intro j inside
    have short := packetsFor_short (lt_of_lt_of_le (by decide) sized.1) inside
    simp only [tpDtDataLen]
    omega
  simp only [segmentOutbound, sized, and_self, not_true_eq_false, ite_false]
  rw [List.range_eq_range', segmentOutbound_loop priority sourceAddr payload _ 0 covered]
  rfl

end Taktora.J1939
