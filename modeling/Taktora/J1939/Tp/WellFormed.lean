import Taktora.J1939.Tp.Reachable

namespace Taktora.J1939

open Checked Table List Option

variable {decoded : DecodedId} {b : CmBytes} {limit : Nat} {key : Key}

theorem packetsFor_covers (size : Nat) : size ≤ packetsFor size * 7 := by
  rw [packetsFor]
  omega

theorem packetsFor_short {size p : Nat} (positive : 0 < size) (inside : p ≤ packetsFor size) : (p - 1) * 7 < size := by
  rw [packetsFor] at inside
  omega

theorem packetsFor_tp {size : Nat} (bound : size ≤ tpMaxPayload) : packetsFor size ≤ 255 := by
  rw [tpMaxPayload] at bound
  rw [packetsFor]
  omega

theorem packetsFor_etp {size : Nat} (bound : size ≤ etpProtocolMax) : packetsFor size ≤ 16777215 := by
  rw [etpProtocolMax] at bound
  rw [packetsFor]
  omega

theorem packetsFor_pos {size : Nat} (positive : 0 < size) : 1 ≤ packetsFor size := by
  rw [packetsFor]
  omega

/-- A TP session waits for packet `seq` of `count`, with `buf` received. -/
structure Filling (totalSize count seq : Nat) (buf : List UInt8) : Prop where
  sized : tpMinPayload ≤ totalSize ∧ totalSize ≤ tpMaxPayload
  packets : count = packetsFor totalSize
  next : 1 ≤ seq ∧ seq ≤ count
  filled : buf.length ≤ min totalSize (tpDtDataLen * (seq - 1))

section Filling

variable {totalSize count seq : Nat} {buf : List UInt8}

theorem Filling.opened (sized : tpMinPayload ≤ totalSize ∧ totalSize ≤ tpMaxPayload) :
    Filling totalSize (packetsFor totalSize) 1 [] :=
  ⟨sized, rfl, ⟨le_refl 1, packetsFor_pos (lt_of_lt_of_le (by decide) sized.1)⟩, Nat.zero_le _⟩

theorem Filling.wraps (filling : Filling totalSize count seq buf) (more : seq < count) : (seq + 1) % 256 = seq + 1 := by
  have small := packetsFor_tp filling.sized.2
  rw [← filling.packets] at small
  exact Nat.mod_eq_of_lt (by omega)

theorem Filling.accept
    (filling : Filling totalSize count seq buf)
    (more : seq < count)
    (rest : List UInt8) :
    Filling totalSize count ((seq + 1) % 256) (buf ++ rest.take (min (totalSize - buf.length) tpDtDataLen)) := by
  have next := filling.next
  have filled := filling.filled
  rw [filling.wraps more]
  refine { filling with next := by omega, filled := ?_ }
  simp only [length_append, length_take, tpDtDataLen] at filled ⊢
  omega

end Filling

structure InboundSession.Valid (key : Key) (s : InboundSession) : Prop
    extends Filling s.totalSize s.numPackets s.nextSeq s.buf where
  keyed : key = (s.sourceAddr, s.transportedPgn)

structure InboundConnSession.Valid (key : Key) (s : InboundConnSession) : Prop
    extends Filling s.totalSize s.totalPackets s.nextSeq s.buf where
  keyed : key = (s.peerSa, s.transportedPgn)

structure InboundEtpSession.Valid (limit : Nat) (key : Key) (s : InboundEtpSession) : Prop where
  keyed : key = (s.peerSa, s.transportedPgn)
  sized : etpMinPayload ≤ s.totalSize ∧ s.totalSize ≤ etpProtocolMax
  limited : s.totalSize ≤ limit
  packets : s.totalPackets = packetsFor s.totalSize
  next : 1 ≤ s.nextPacket ∧ s.nextPacket ≤ s.totalPackets
  allocated : s.buf.length = s.totalSize
  blank : s.buf.drop ((s.nextPacket - 1) * tpDtDataLen) =
    List.replicate (s.totalSize - (s.nextPacket - 1) * tpDtDataLen) 0

structure OutboundConnSession.Valid (key : Key) (s : OutboundConnSession) : Prop where
  keyed : key = (s.destSa, s.transportedPgn)
  sized : tpMinPayload ≤ s.payload.length ∧ s.payload.length ≤ tpMaxPayload
  packets : s.totalPackets = packetsFor s.payload.length

structure OutboundEtpSession.Valid (limit : Nat) (key : Key) (s : OutboundEtpSession) : Prop where
  keyed : key = (s.destSa, s.transportedPgn)
  sized : etpMinPayload ≤ s.payload.length ∧ s.payload.length ≤ limit
  packets : s.totalPackets = packetsFor s.payload.length % 2 ^ 32

/-- The coupled invariant of the five session tables. -/
structure TpEngine.WellFormed (e : TpEngine) : Prop where
  capped : e.totalInbound ≤ e.maxSessions
  bam : e.sessions.Forall InboundSession.Valid
  rx : e.rxConn.Forall InboundConnSession.Valid
  tx : e.txConn.Forall OutboundConnSession.Valid
  etpRx : e.etpRx.Forall (InboundEtpSession.Valid e.maxEtpBytes)
  etpTx : e.etpTx.Forall (OutboundEtpSession.Valid e.maxEtpBytes)

theorem TpEngine.configured_wellFormed (timers : TpTimers) (maxSessions : Nat) (window : UInt8) (limit : Nat) :
    (configured timers maxSessions window limit).WellFormed :=
  ⟨Nat.zero_le _, forall_empty _, forall_empty _, forall_empty _, forall_empty _, forall_empty _⟩

theorem TpEngine.WellFormed.reordered {e e' : TpEngine} (wf : e.WellFormed) (h : e.Reordered e') : e'.WellFormed where
  capped := by rw [h.totalInbound, h.maxSessions]; exact wf.capped
  bam := wf.bam.perm h.sessions
  rx := wf.rx.perm h.rxConn
  tx := wf.tx.perm h.txConn
  etpRx := by rw [h.maxEtpBytes]; exact wf.etpRx.perm h.etpRx
  etpTx := by rw [h.maxEtpBytes]; exact wf.etpTx.perm h.etpTx

theorem parseConnRts_sound {p : ConnRtsParams}
    (parsed : parseConnRts decoded b = some p) :
    p.peerSa = decoded.sourceAddr ∧ decoded.destAddr = some p.ourSa ∧ p.ourSa ≠ globalAddress ∧
      (tpMinPayload ≤ p.totalSize ∧ p.totalSize ≤ tpMaxPayload) ∧ p.totalPackets = packetsFor p.totalSize := by
  unfold parseConnRts at parsed
  simp only [bind_eq_bind, bind_eq_some_iff] at parsed
  obtain ⟨_, dest, _, _, parsed⟩ := parsed
  split at parsed
  · rename_i sizes
    cases parsed
    obtain ⟨dest, specific⟩ := filter_eq_some_iff.mp dest
    exact ⟨rfl, dest, by simpa using specific, ⟨sizes.1, sizes.2.1⟩, sizes.2.2⟩
  · cases parsed

theorem parseEtpRts_sound {p : EtpRtsParams} (parsed : parseEtpRts decoded b = some p) :
    p.peerSa = decoded.sourceAddr ∧ decoded.destAddr = some p.ourSa ∧ p.ourSa ≠ globalAddress ∧
      (etpMinPayload ≤ p.totalSize ∧ p.totalSize ≤ etpProtocolMax) := by
  unfold parseEtpRts at parsed
  simp only [bind_eq_bind, bind_eq_some_iff] at parsed
  obtain ⟨_, dest, _, _, parsed⟩ := parsed
  split at parsed
  · rename_i sizes
    cases parsed
    obtain ⟨dest, specific⟩ := filter_eq_some_iff.mp dest
    exact ⟨rfl, dest, by simpa using specific, sizes⟩
  · cases parsed

theorem announcement_bam_sound {data : List UInt8} {a : Announcement}
    (announced : announcement decoded data = some a)
    (kind : a.kind = .bam) :
    a.key.1 = decoded.sourceAddr ∧ tpMinPayload ≤ a.totalSize ∧ a.totalSize ≤ tpMaxPayload := by
  unfold announcement at announced
  split at announced
  · cases announced
  · split at announced
    · split at announced
      · unfold bamAnnouncement at announced
        split at announced
        · cases announced
        · simp only at announced
          split at announced
          · rename_i sizes
            cases announced
            exact ⟨rfl, sizes.1, sizes.2.1⟩
          · cases announced
      · split at announced
        · obtain ⟨p, _, rfl⟩ := map_eq_some_iff.mp announced
          cases kind
        · cases announced
    · split at announced
      · split at announced
        · obtain ⟨p, _, rfl⟩ := map_eq_some_iff.mp announced
          cases kind
        · cases announced
      · cases announced

theorem InboundEtpSession.opened_valid {p : EtpRtsParams}
    (parsed : parseEtpRts decoded b = some p)
    (fits : p.totalSize ≤ limit)
    (now : Nat) :
    (InboundEtpSession.opened p now).Valid limit p.announcement.key := by
  obtain ⟨_, _, _, sized⟩ := parseEtpRts_sound parsed
  have bound := packetsFor_etp sized.2
  have exact_ : packetsFor p.totalSize % 2 ^ 32 = packetsFor p.totalSize := Nat.mod_eq_of_lt (by omega)
  have positive := packetsFor_pos (lt_of_lt_of_le (show 0 < etpMinPayload by decide) sized.1)
  exact ⟨rfl, sized, fits, exact_, ⟨le_refl 1, by rw [← exact_] at positive; exact positive⟩,
    length_replicate, drop_replicate⟩

theorem InboundEtpSession.Valid.accept {s : InboundEtpSession}
    (valid : s.Valid limit key)
    {bytes buf : List UInt8}
    (written : copyFromSlice s.buf ((s.nextPacket - 1) * tpDtDataLen)
      ((s.nextPacket - 1) * tpDtDataLen + bytes.length) bytes = .ok buf)
    (short : bytes.length ≤ tpDtDataLen)
    (now : Nat)
    (more : s.nextPacket < s.totalPackets) : (s.accept buf now).Valid limit key where
  keyed := valid.keyed
  sized := valid.sized
  limited := valid.limited
  packets := valid.packets
  next := ⟨Nat.le_add_left 1 _, more⟩
  allocated := (copyFromSlice_length written).trans valid.allocated
  blank := by
    have shift : (s.nextPacket + 1 - 1) * tpDtDataLen = (s.nextPacket - 1) * tpDtDataLen + tpDtDataLen := by
      have positive := valid.next.1
      simp only [tpDtDataLen]
      omega
    simp only [InboundEtpSession.accept]
    rw [shift, copyFromSlice_drop written (Nat.add_le_add_left short _), ← drop_drop, valid.blank,
      drop_replicate, Nat.sub_sub]

theorem InboundEtpSession.Takes.short {e : TpEngine} {seq : UInt8} {rest bytes buf : List UInt8} {s : InboundEtpSession}
    (takes : s.Takes e decoded seq rest bytes buf key) : bytes.length ≤ tpDtDataLen := by
  rw [takes.taken, length_take]
  omega

theorem OutboundConnSession.opened_valid {payload : List UInt8}
    (sized : tpMinPayload ≤ payload.length ∧ payload.length ≤ tpMaxPayload) (pgn : Pgn) (priority ourSa destSa : UInt8)
    (now : Nat) : (OutboundConnSession.opened pgn priority ourSa destSa payload now).Valid (destSa, pgn) :=
  ⟨rfl, sized, Nat.mod_eq_of_lt (Nat.lt_succ_of_le (packetsFor_tp sized.2))⟩

theorem OutboundEtpSession.opened_valid {payload : List UInt8}
    (sized : etpMinPayload ≤ payload.length ∧ payload.length ≤ limit) (pgn : Pgn) (priority ourSa destSa : UInt8)
    (now : Nat) : (OutboundEtpSession.opened pgn priority ourSa destSa payload now).Valid limit (destSa, pgn) :=
  ⟨rfl, sized, rfl⟩

namespace TpEngine

variable {e e' : TpEngine} {decoded : DecodedId} {data : List UInt8}

theorem size_insert_capped {κ ν : Type} [DecidableEq κ] {m : Table κ ν} {key : κ} (value : ν) {total cap : Nat}
    (capped : total ≤ cap)
    (room : key ∈ m ∨ total < cap) :
    size (m.insert key value) + total ≤ cap + m.size := by
  rcases room with present | _
  · rw [size_insert_present _ _ _ present, add_comm]
    exact Nat.add_le_add_right capped _
  · have grown := size_insert_le m key value
    omega

theorem swept_capped (capped : e.totalInbound ≤ e.maxSessions) (now : Nat) :
    (e.swept now).totalInbound ≤ e.maxSessions := by
  have bam := size_retain_le e.sessions fun s => !idleLongerThan e.timers.t1 now s.lastActivity
  have rx := size_retain_le e.rxConn fun s => !idleLongerThan e.timers.t2 now s.lastActivity
  have etp := size_retain_le e.etpRx fun s => !idleLongerThan e.timers.t2 now s.lastActivity
  simp only [totalInbound, swept] at capped ⊢
  omega

theorem effect_capped {i : TpInput} {events : List TpEvent} (effect : Effect e i events e')
    (capped : e.totalInbound ≤ e.maxSessions) : e'.totalInbound ≤ e'.maxSessions := by
  have bamInsert {key : Key} (value : InboundSession) (room : key ∈ e.sessions ∨ e.totalInbound < e.maxSessions) :
      size (e.sessions.insert key value) + e.rxConn.size + e.etpRx.size ≤ e.maxSessions := by
    have grown := size_insert_capped value capped room
    simp only [totalInbound] at grown
    omega
  have rxInsert {key : Key} (value : InboundConnSession) (room : key ∈ e.rxConn ∨ e.totalInbound < e.maxSessions) :
      e.sessions.size + size (e.rxConn.insert key value) + e.etpRx.size ≤ e.maxSessions := by
    have grown := size_insert_capped value capped room
    simp only [totalInbound] at grown
    omega
  have etpInsert {key : Key} (value : InboundEtpSession) (room : key ∈ e.etpRx ∨ e.totalInbound < e.maxSessions) :
      e.sessions.size + e.rxConn.size + size (e.etpRx.insert key value) ≤ e.maxSessions := by
    have grown := size_insert_capped value capped room
    simp only [totalInbound] at grown
    omega
  cases effect with
  | bamOpened announced kind room => exact bamInsert _ room
  | bamAccepted takes more => exact bamInsert _ (.inl (mem_of_lookup takes.found))
  | bamCompleted => exact le_trans (Nat.add_le_add_right (Nat.add_le_add_right (size_erase_le _ _) _) _) capped
  | connOpened bytes parsed announced room granted => exact rxInsert _ room
  | connWaiting takes | connGranted takes => exact rxInsert _ (.inl (mem_of_lookup takes.found))
  | connCompleted | connAborted =>
    exact le_trans (Nat.add_le_add_right (Nat.add_le_add_left (size_erase_le _ _) _) _) capped
  | etpOpened bytes parsed announced fits room => exact etpInsert _ room
  | etpDpo named found => exact etpInsert _ (.inl (mem_of_lookup found))
  | etpWaiting takes | etpGranted takes => exact etpInsert _ (.inl (mem_of_lookup takes.found))
  | etpCompleted | etpAborted => exact le_trans (Nat.add_le_add_left (size_erase_le _ _) _) capped
  | swept now => exact swept_capped capped now
  | _ => exact capped

theorem WellFormed.effect {i : TpInput} {events : List TpEvent} (wf : e.WellFormed)
    (effect : Effect e i events e') : e'.WellFormed := by
  have capped := effect_capped effect wf.capped
  cases effect with
  | bamOpened announced kind room =>
    exact { wf with capped, bam := wf.bam.insert ⟨.opened (announcement_bam_sound announced kind).2, rfl⟩ }
  | bamAccepted takes more =>
    have valid := wf.bam _ _ takes.found
    rw [takes.expected] at more
    obtain rfl := takes.taken
    exact { wf with capped, bam := wf.bam.insert ⟨valid.accept more _, valid.keyed⟩ }
  | bamCompleted takes last => exact { wf with capped, bam := wf.bam.erase _ }
  | connOpened bytes parsed announced room granted =>
    obtain ⟨_, _, _, sized, packets⟩ := parseConnRts_sound parsed
    have filling := Filling.opened sized
    rw [← packets] at filling
    exact { wf with capped, rx := wf.rx.insert ⟨filling, rfl⟩ }
  | connWaiting takes more | connGranted takes more =>
    have valid := wf.rx _ _ takes.found
    rw [takes.expected] at more
    obtain rfl := takes.taken
    exact { wf with capped, rx := wf.rx.insert ⟨valid.accept more _, valid.keyed⟩ }
  | connCompleted takes last => exact { wf with capped, rx := wf.rx.erase _ }
  | cts named found built =>
    have valid := wf.tx _ _ found
    exact { wf with capped, tx := wf.tx.insert { valid with } }
  | connAcked named => exact { wf with capped, tx := wf.tx.erase _ }
  | connAborted named => exact { wf with capped, rx := wf.rx.erase _, tx := wf.tx.erase _ }
  | etpOpened bytes parsed announced fits room =>
    exact { wf with capped, etpRx := wf.etpRx.insert (InboundEtpSession.opened_valid parsed fits _) }
  | etpCts named found built =>
    have valid := wf.etpTx _ _ found
    exact { wf with capped, etpTx := wf.etpTx.insert { valid with } }
  | etpDpo named found =>
    have valid := wf.etpRx _ _ found
    exact { wf with
      capped, etpRx := wf.etpRx.insert { valid with } }
  | etpWaiting takes more | etpGranted takes more =>
    have valid := wf.etpRx _ _ takes.found
    exact { wf with
      capped, etpRx := wf.etpRx.insert (valid.accept takes.written takes.short _ more) }
  | etpCompleted takes last => exact { wf with capped, etpRx := wf.etpRx.erase _ }
  | etpAcked named => exact { wf with capped, etpTx := wf.etpTx.erase _ }
  | etpAborted named => exact { wf with capped, etpRx := wf.etpRx.erase _, etpTx := wf.etpTx.erase _ }
  | startedConnection size =>
    exact { wf with capped, tx := wf.tx.insert (OutboundConnSession.opened_valid size _ _ _ _ _) }
  | startedEtp size =>
    exact { wf with capped, etpTx := wf.etpTx.insert (OutboundEtpSession.opened_valid size _ _ _ _ _) }
  | swept now =>
    exact ⟨capped, wf.bam.retain _, wf.rx.retain _, wf.tx.retain _, wf.etpRx.retain _, wf.etpTx.retain _⟩
  | _ => exact { wf with capped }

theorem WellFormed.step {call : TpInput × List TpEvent} (wf : e.WellFormed)
    (step : e.Step call e') : e'.WellFormed := by
  obtain ⟨_, reordered, effect⟩ := step.effect
  exact (wf.reordered reordered).effect effect

theorem run_wellFormed {history : List (TpInput × List TpEvent)} (wf : e.WellFormed)
    (run : Run Step e history e') : e'.WellFormed :=
  run.invariant wf fun _ _ _ wf step => wf.step step

def RequestsPackets (decoded : DecodedId) (data : List UInt8) : Prop :=
  ∃ pgn b, control decoded data = some (.cts, pgn, b) ∨ control decoded data = some (.etpCts, pgn, b)

theorem onBamDt_total (e : TpEngine) (sourceAddr seq : UInt8) (rest : List UInt8) (now : Nat) :
    ∃ result, e.onBamDt sourceAddr (seq :: rest) now = .ok result := by
  unfold onBamDt
  rw [index_zero]
  cases chosen : e.sessions.firstKey (·.1 == sourceAddr) with
  | none => exact ⟨_, rfl⟩
  | some key =>
    obtain ⟨s, found⟩ := lookup_of_mem (firstKey_some chosen).1
    simp only [expect_ok found, ok_bind, takenBytes_cons]
    split
    · exact ⟨_, rfl⟩
    split <;> exact ⟨_, rfl⟩

theorem onConnDt_total (wf : e.WellFormed) (peerSa seq : UInt8) (rest : List UInt8) (now : Nat) :
    ∃ result, e.onConnDt peerSa (seq :: rest) now = .ok result := by
  unfold onConnDt
  rw [index_zero]
  cases chosen : e.rxConn.firstKey (·.1 == peerSa) with
  | none => exact ⟨_, rfl⟩
  | some key =>
    obtain ⟨s, found⟩ := lookup_of_mem (firstKey_some chosen).1
    simp only [expect_ok found, ok_bind, takenBytes_cons]
    split
    · exact ⟨_, rfl⟩
    rename_i expected
    split
    · exact ⟨_, rfl⟩
    have valid := wf.rx _ _ found
    have packets := packetsFor_tp valid.sized.2
    rw [← valid.packets] at packets
    have wraps : (s.nextSeq + 1) % 256 = s.nextSeq + 1 := Nat.mod_eq_of_lt (by omega)
    split
    · rw [sub_ok (by omega), ok_bind, sub_ok (by omega)]
      exact ⟨_, rfl⟩
    · exact ⟨_, rfl⟩

theorem onEtpDt_total (wf : e.WellFormed) (decoded : DecodedId) (data : List UInt8) (now : Nat) :
    ∃ result, e.onEtpDt decoded data now = .ok result := by
  unfold onEtpDt
  cases data with
  | nil => exact ⟨_, rfl⟩
  | cons seq rest =>
    rw [if_neg (cons_ne_nil _ _), index_zero]
    cases chosen : e.etpRx.firstKey (·.1 == decoded.sourceAddr) with
    | none => exact ⟨_, rfl⟩
    | some key =>
      obtain ⟨s, found⟩ := lookup_of_mem (firstKey_some chosen).1
      simp only [expect_ok found, ok_bind]
      split
      · exact ⟨_, rfl⟩
      rename_i accepted
      obtain ⟨expected, _, inside⟩ : saturate32 (s.dpoOffset + seq.toNat) = s.nextPacket ∧
          saturate32 (s.dpoOffset + seq.toNat) ≠ 0 ∧ saturate32 (s.dpoOffset + seq.toNat) ≤ s.totalPackets := by
        simpa only [not_or, not_not, not_lt] using accepted
      rw [expected] at inside ⊢
      have valid := wf.etpRx _ _ found
      have packets := packetsFor_etp valid.sized.2
      have start := packetsFor_short (lt_of_lt_of_le (show 0 < etpMinPayload by decide) valid.sized.1)
        (valid.packets ▸ inside)
      rw [← valid.packets] at packets
      have allocated := valid.allocated
      rw [sub_ok valid.next.1, ok_bind, takenBytes_cons, ok_bind]
      have fits : (s.nextPacket - 1) * tpDtDataLen + (rest.take (min (s.totalSize -
          (s.nextPacket - 1) * tpDtDataLen) tpDtDataLen)).length ≤ s.buf.length := by
        simp only [length_take, tpDtDataLen, allocated]
        omega
      rw [copyFromSlice_ok (Nat.le_add_right _ _) fits (Nat.add_sub_cancel_left _ _).symm, ok_bind,
        add_ok (by omega), ok_bind]
      split
      · exact ⟨_, rfl⟩
      split
      · rw [sub_ok (Nat.le_add_left 1 _), ok_bind, sub_ok (by omega)]
        exact ⟨_, rfl⟩
      · exact ⟨_, rfl⟩

theorem onCm_total
    (cm : decoded.pgn.value = tpCmPgn)
    (receive : ¬ RequestsPackets decoded data)
    (e : TpEngine) (now : Nat) :
    ∃ result, e.onCm decoded data now = .ok result := by
  unfold onCm
  cases bytes : CmBytes.ofData data with
  | none => exact ⟨_, rfl⟩
  | some b =>
    dsimp only
    split
    · exact ⟨_, rfl⟩
    split
    · exact ⟨_, rfl⟩
    split
    · rename_i cts
      unfold onCts
      cases parsed : Pgn.new (transportedPgnFrom b) with
      | error error => exact ⟨_, rfl⟩
      | ok pgn =>
        exact absurd ⟨pgn, b, .inl (control_complete bytes cm cts parsed)⟩ receive
    split
    · exact ⟨_, rfl⟩
    split <;> exact ⟨_, rfl⟩

theorem onEtpCm_total
    (cm : decoded.pgn.value = etpCmPgn)
    (receive : ¬ RequestsPackets decoded data)
    (e : TpEngine) (now : Nat) :
    ∃ result, e.onEtpCm decoded data now = .ok result := by
  unfold onEtpCm
  cases bytes : CmBytes.ofData data with
  | none => exact ⟨_, rfl⟩
  | some b =>
    dsimp only
    split
    · exact ⟨_, rfl⟩
    split
    · rename_i cts
      unfold onEtpCts
      cases parsed : Pgn.new (transportedPgnFrom b) with
      | error error => exact ⟨_, rfl⟩
      | ok pgn =>
        exact absurd ⟨pgn, b, .inr (control_complete bytes cm cts parsed)⟩ receive
    split
    · exact ⟨_, rfl⟩
    split
    · exact ⟨_, rfl⟩
    split <;> exact ⟨_, rfl⟩

theorem onFrame_total (wf : e.WellFormed)
    (receive : ¬ RequestsPackets decoded data) (now : Nat) : ∃ result, e.onFrame decoded data now = .ok result := by
  unfold onFrame
  split
  · rename_i cm; exact onCm_total cm receive e now
  split
  · unfold onDt
    cases data with
    | nil => exact ⟨_, rfl⟩
    | cons seq rest =>
      rw [if_neg (cons_ne_nil _ _)]
      split
      · exact onBamDt_total e _ _ _ _
      · exact onConnDt_total wf _ _ _ _
  split
  · rename_i cm; exact onEtpCm_total cm receive e now
  split
  · exact onEtpDt_total wf _ _ _
  · exact ⟨_, rfl⟩

theorem handle_total
    (wf : e.WellFormed)
    (i : TpInput)
    (receive : ∀ decoded data now, i = .frame decoded data now → ¬ RequestsPackets decoded data) :
    ∃ result, e.handle i = .ok result := by
  cases i with
  | frame decoded data now => exact onFrame_total wf (receive decoded data now rfl) now
  | pollTimeouts now => exact ⟨_, pollTimeouts_eq e now⟩
  | _ => exact ⟨_, rfl⟩

/-- Whatever the bus sends, memory stays within the configured limits and the receive path does not panic. -/
theorem reassembly_bounded (timers : TpTimers) (maxSessions : Nat) (window : UInt8) (limit : Nat) (e : TpEngine)
    (history : List (TpInput × List TpEvent)) (run : Run Step (configured timers maxSessions window limit) history e) :
    (configured timers maxSessions window limit).SameConfig e ∧ e.WellFormed ∧
      ∀ e₀ i, e.Reordered e₀ → (∀ decoded data now, i = .frame decoded data now → ¬ RequestsPackets decoded data) →
        ∃ result, e₀.handle i = .ok result := by
  have wf := run_wellFormed (configured_wellFormed timers maxSessions window limit) run
  exact ⟨run_sameConfig run, wf, fun e₀ i reordered receive => handle_total (wf.reordered reordered) i receive⟩

theorem reassembly_bounded_one_broadcast : ∃ e, Run Step (configured ⟨750, 1250, 1250⟩ 4 16 0)
        [(.frame (decodeExtendedId 0x18ECFF80) [0x20, 9, 0, 2, 0xFF, 0xF6, 0xFE, 0] 0, []),
          (.frame (decodeExtendedId 0x18EBFF80) [1, 10, 11, 12, 13, 14, 15, 16] 1, [])] e ∧
      e.sessions.size = 1 ∧ e.WellFormed := by
  have run : Run Step (configured ⟨750, 1250, 1250⟩ 4 16 0) _ _ :=
    .snoc (.snoc .nil (Step.of_handle (i := .frame (decodeExtendedId 0x18ECFF80)
      [0x20, 9, 0, 2, 0xFF, 0xF6, 0xFE, 0] 0) rfl))
      (Step.of_handle (i := .frame (decodeExtendedId 0x18EBFF80) [1, 10, 11, 12, 13, 14, 15, 16] 1) rfl)
  exact ⟨_, run, rfl, (reassembly_bounded _ _ _ _ _ _ run).2.1⟩

end TpEngine

end Taktora.J1939
