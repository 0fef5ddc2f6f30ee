import Taktora.J1939.Tp.WellFormed

namespace Taktora.J1939

open Checked Packets LittleEndian List

theorem padded_packet_length (payload : List UInt8) (p : Nat) :
    (padded tpDtDataLen 0xFF (packet tpDtDataLen payload p)).length = 7 :=
  padded_length (by rw [packet_length]; exact min_le_left _ _)

def dtFrame (wirePgn : Pgn) (priority sourceAddr destAddr : UInt8) (payload : List UInt8) (seq p : Nat) : TpOutFrame :=
  { wirePgn, priority, sourceAddr, destAddr := some destAddr
    data := ⟨UInt8.ofNat seq :: padded tpDtDataLen 0xFF (packet tpDtDataLen payload p),
      congrArg (· + 1) (padded_packet_length payload p)⟩ }

variable {payload : List UInt8} {p limit : Nat} {key : Key} {s : OutboundEtpSession} {count : Nat}

theorem dataFrame_ok
    (inside : (p - 1) * tpDtDataLen ≤ payload.length)
    (wirePgn : Pgn) (priority sourceAddr destAddr : UInt8) (seq : Nat) :
    dataFrame wirePgn priority sourceAddr destAddr payload seq ((p - 1) * tpDtDataLen) =
      .ok (dtFrame wirePgn priority sourceAddr destAddr payload seq p) := by
  have length := packet_length tpDtDataLen payload p
  have count : min ((p - 1) * tpDtDataLen + tpDtDataLen) payload.length - (p - 1) * tpDtDataLen =
      (packet tpDtDataLen payload p).length := by omega
  have short : (packet tpDtDataLen payload p).length ≤ 7 := by rw [length]; exact min_le_left _ _
  have copied : copyFromSlice (blankData seq).1 1 ((packet tpDtDataLen payload p).length + 1)
      (packet tpDtDataLen payload p) =
        .ok (UInt8.ofNat seq :: padded tpDtDataLen 0xFF (packet tpDtDataLen payload p)) := by
    have filler : (blankData seq).1 = UInt8.ofNat seq :: replicate 7 0xFF := rfl
    have fits : (packet tpDtDataLen payload p).length + 1 ≤ (UInt8.ofNat seq :: replicate 7 0xFF).length := by
      rw [length_cons, length_replicate]
      omega
    rw [filler, copyFromSlice_ok (by omega) fits (by omega)]
    simp only [padded, tpDtDataLen, take_succ_cons, take_zero, drop_succ_cons, drop_replicate, cons_append, nil_append]
  simp only [dataFrame]
  rw [sub_ok (by omega), ok_bind, slice_packet inside, ok_bind, count,
    copyIntoArray_ok (dtFrame wirePgn priority sourceAddr destAddr payload seq p).data copied]
  rfl

theorem dataFrame_error {start : Nat}
    (beyond : payload.length < start)
    (wirePgn : Pgn) (priority sourceAddr destAddr : UInt8) (seq : Nat) :
    dataFrame wirePgn priority sourceAddr destAddr payload seq start = .error .overflow := by
  simp only [dataFrame]
  rw [sub_error (by omega), error_bind]

def OutboundConnSession.packetFrame (s : OutboundConnSession) (p : Nat) : TpOutFrame :=
  dtFrame dtPgn s.priority s.ourSa s.destSa s.payload p p

variable (s)

def OutboundEtpSession.packetFrame (seq p : Nat) : TpOutFrame :=
  dtFrame etpDt s.priority s.ourSa s.destSa s.payload seq p

theorem buildDtBurst_loop (s : OutboundConnSession) (start : Nat)
    (positive : 1 ≤ start)
    (small : s.totalPackets ≤ 255)
    (covered : ∀ p ≤ s.totalPackets, (p - 1) * tpDtDataLen ≤ s.payload.length) :
    ∀ n i, start + i ≤ 256 → buildDtBurst.loop s start (List.range' i n) =
      .ok ((List.range' (start + i) (min n (s.totalPackets + 1 - (start + i)))).map s.packetFrame) := by
  intro n
  induction n with
  | zero => simp [buildDtBurst.loop]
  | succ n ih =>
    intro i bound
    rw [range'_succ, buildDtBurst.loop]
    by_cases inside : start + i ≤ s.totalPackets
    · have wraps : (start + i) % 256 = start + i := Nat.mod_eq_of_lt (by omega)
      have count : min (n + 1) (s.totalPackets + 1 - (start + i)) =
          min n (s.totalPackets + 1 - (start + (i + 1))) + 1 := by omega
      rw [wraps, if_neg (by omega), dataFrame_ok (covered _ inside), ih (i + 1) (by omega), count, range'_succ]
      rfl
    · have stops : (start + i) % 256 < 1 ∨ (start + i) % 256 > s.totalPackets := by omega
      have none : min (n + 1) (s.totalPackets + 1 - (start + i)) = 0 := by omega
      rw [if_pos stops, none]
      rfl

theorem buildDtBurst_eq {s : OutboundConnSession}
    (valid : s.Valid key)
    {start : Nat}
    (positive : 1 ≤ start)
    (bound : start ≤ 255) :
    buildDtBurst s start count =
      .ok ((List.range' start (min count (s.totalPackets + 1 - start))).map s.packetFrame) := by
  have small := packetsFor_tp valid.sized.2
  rw [← valid.packets] at small
  have covered : ∀ p ≤ s.totalPackets, (p - 1) * tpDtDataLen ≤ s.payload.length := by
    intro p inside
    rw [valid.packets] at inside
    exact le_of_lt (packetsFor_short (lt_of_lt_of_le (by decide) valid.sized.1) inside)
  rw [buildDtBurst, range_eq_range', buildDtBurst_loop s start positive small covered count 0 (by omega)]
  rfl

theorem buildDtBurst_zero (s : OutboundConnSession) (count : Nat) : buildDtBurst s 0 count = .ok [] := by
  cases count with
  | zero => rfl
  | succ n =>
    rw [buildDtBurst, range_eq_range', range'_succ]
    rfl

theorem buildEtpBurst_loop (next : Nat) (positive : 1 ≤ next) :
    ∀ n i, next + i + n ≤ 2 ^ 32 → (∀ j < n, (next + i + j - 1) * tpDtDataLen ≤ s.payload.length) →
      buildEtpBurst.loop s next (List.range' i n) =
        .ok ((List.range' i n).map fun j => s.packetFrame (j + 1) (next + j)) := by
  intro n
  induction n with
  | zero => intro i bound covered; rfl
  | succ n ih =>
    intro i bound covered
    have first := covered 0 (Nat.succ_pos n)
    rw [add_zero] at first
    have later : ∀ j < n, (next + (i + 1) + j - 1) * tpDtDataLen ≤ s.payload.length := by
      intro j inside
      have shifted : next + (i + 1) + j = next + i + (j + 1) := by omega
      rw [shifted]
      exact covered (j + 1) (by omega)
    rw [range'_succ, buildEtpBurst.loop, add_ok (by omega), ok_bind, sub_ok (by omega), ok_bind,
      dataFrame_ok first, ih (i + 1) (by omega) later]
    rfl

def OutboundEtpSession.burst (next count : Nat) : List TpOutFrame :=
  etpDpoFrame s.ourSa s.destSa s.priority s.transportedPgn count (next - 1) ::
    (List.range count).map fun j => s.packetFrame (j + 1) (next + j)

variable {s}

theorem OutboundEtpSession.Valid.covered
    (valid : s.Valid limit key)
    (inside : p ≤ s.totalPackets) :
    (p - 1) * tpDtDataLen ≤ s.payload.length := by
  rw [valid.packets] at inside
  have truncated := Nat.mod_le (packetsFor s.payload.length) (2 ^ 32)
  exact le_of_lt (packetsFor_short (lt_of_lt_of_le (by decide) valid.sized.1) (le_trans inside truncated))

theorem buildEtpBurst_eq
    (valid : s.Valid limit key)
    {next : Nat}
    (positive : 1 ≤ next)
    (inside : next ≤ s.totalPackets)
    (small : next < 2 ^ 24)
    (asked : 1 ≤ count)
    (byte : count ≤ 255) :
    buildEtpBurst s next count = .ok (s.burst next (min count (s.totalPackets + 1 - next))) := by
  have effective : saturate32 (min (saturate32 (next + count) - 1) s.totalPackets - next + 1) =
      min count (s.totalPackets + 1 - next) := by
    simp only [saturate32]
    omega
  have covered : ∀ j < min count (s.totalPackets + 1 - next), (next + 0 + j - 1) * tpDtDataLen ≤ s.payload.length :=
    fun j bound => valid.covered (by omega)
  simp only [buildEtpBurst]
  rw [sub_ok positive, ok_bind, effective, range_eq_range', buildEtpBurst_loop s next positive _ 0 (by omega) covered,
    ok_bind, OutboundEtpSession.burst, range_eq_range']

theorem buildEtpBurst_beyond {next : Nat}
    (beyond : s.totalPackets < next)
    (small : next < 2 ^ 24) :
    buildEtpBurst s next count = if (next - 1) * tpDtDataLen ≤ s.payload.length then .ok (s.burst next 1) else .error
      .overflow := by
  have effective : saturate32 (min (saturate32 (next + count) - 1) s.totalPackets - next + 1) = 1 := by
    simp only [saturate32]
    omega
  simp only [buildEtpBurst]
  rw [sub_ok (by omega), ok_bind, effective, range_eq_range']
  split
  · rename_i inside
    rw [buildEtpBurst_loop s next (by omega) 1 0 (by omega) (fun j bound => by
      obtain rfl : j = 0 := by omega
      simpa using inside)]
    rfl
  · rw [range'_succ, buildEtpBurst.loop, add_ok (by omega), ok_bind, sub_ok (by omega), ok_bind, add_zero next,
      dataFrame_error (by omega), error_bind, error_bind]

end Taktora.J1939
