import Taktora.J1939.Tp.WellFormed

namespace Taktora.J1939

open Checked Packets List Option AList TpEngine InboundEtpSession Table

structure Reassembly where
  totalSize : Nat
  packets : Nat
  next : Nat
  offset : Nat
  received : List UInt8
deriving DecidableEq

/-- The bytes a data frame adds. ETP writes into a zeroed buffer, so a short frame leaves zeros behind. -/
def SessionKind.chunk (kind : SessionKind) (remaining : Nat) (rest : List UInt8) : List UInt8 :=
  match kind with
  | .etp => padded (min remaining tpDtDataLen) 0 (rest.take (min remaining tpDtDataLen))
  | _ => rest.take (min remaining tpDtDataLen)

namespace Reassembly

def Expects (r : Reassembly) (seq : UInt8) : Prop := saturate32 (r.offset + seq.toNat) = r.next

def opened (a : Announcement) : Reassembly := ⟨a.totalSize, packetsFor a.totalSize, 1, 0, []⟩

def accept (kind : SessionKind) (r : Reassembly) (rest : List UInt8) : Reassembly :=
  { r with next := r.next + 1, received := r.received ++ kind.chunk (r.totalSize - r.received.length) rest }

end Reassembly

def InboundSession.reassembly (s : InboundSession) : Reassembly := ⟨s.totalSize, s.numPackets, s.nextSeq, 0, s.buf⟩

def InboundConnSession.reassembly (s : InboundConnSession) : Reassembly :=
  ⟨s.totalSize, s.totalPackets, s.nextSeq, 0, s.buf⟩

def InboundEtpSession.reassembly (s : InboundEtpSession) : Reassembly :=
  ⟨s.totalSize, s.totalPackets, s.nextPacket, s.dpoOffset, s.buf.take ((s.nextPacket - 1) * tpDtDataLen)⟩

namespace TpEngine

def inbound (e : TpEngine) : SessionKind → Key → Option Reassembly
  | .bam, key => (e.sessions.lookup key).map InboundSession.reassembly
  | .conn, key => (e.rxConn.lookup key).map InboundConnSession.reassembly
  | .etp, key => (e.etpRx.lookup key).map InboundEtpSession.reassembly

/-- An announcement is admitted when it restarts a session or there is room for one more. -/
def Admits (e : TpEngine) (a : Announcement) : Prop :=
  (a.kind = .etp → a.totalSize ≤ e.maxEtpBytes) ∧
    ((e.inbound a.kind a.key).isSome ∨ e.totalInbound < e.maxSessions)

variable {e e' : TpEngine}

theorem Reordered.inbound (h : e.Reordered e') (kind : SessionKind) (key : Key) :
    e'.inbound kind key = e.inbound kind key := by
  cases kind with
  | bam => simp only [TpEngine.inbound, perm_lookup h.sessions]
  | conn => simp only [TpEngine.inbound, perm_lookup h.rxConn]
  | etp => simp only [TpEngine.inbound, perm_lookup h.etpRx]

theorem Reordered.admits_iff (h : e.Reordered e') {a : Announcement} : e'.Admits a ↔ e.Admits a := by
  simp only [Admits, h.inbound, h.totalInbound, h.maxSessions, h.maxEtpBytes]

end TpEngine

inductive Advance (e : TpEngine) (i : TpInput) (events : List TpEvent) (kind : SessionKind) (key : Key) :
    Option Reassembly → Option Reassembly → Prop where
  | kept (r : Option Reassembly) : Advance e i events kind key r r
  | opened {decoded data now a} (r : Option Reassembly) (frame : i = .frame decoded data now)
      (announced : announcement decoded data = some a) (admitted : e.Admits a) (kind_eq : a.kind = kind)
      (key_eq : a.key = key) (quiet : events = []) :
      Advance e i events kind key r (some (.opened a))
  | rebased {decoded data now pgn b r} (frame : i = .frame decoded data now)
      (named : control decoded data = some (.etpDpo, pgn, b)) (kind_eq : kind = .etp) (quiet : events = []) :
      Advance e i events kind key (some r) (some { r with offset := u24From b })
  | accepted {decoded seq rest now r} (frame : i = .frame decoded (seq :: rest) now)
      (data : dataKind decoded = some kind) (source : decoded.sourceAddr = key.1) (expected : r.Expects seq)
      (more : r.next < r.packets) (quiet : events = []) :
      Advance e i events kind key (some r) (some (r.accept kind rest))
  | completed {decoded seq rest now r} (frame : i = .frame decoded (seq :: rest) now)
      (data : dataKind decoded = some kind) (source : decoded.sourceAddr = key.1) (expected : r.Expects seq)
      (last : r.packets ≤ r.next) (reported : events = [.completed key.2 key.1 (r.accept kind rest).received]) :
      Advance e i events kind key (some r) none
  | aborted {r} (reason : TpAbortReason) (reported : .aborted key.2 key.1 reason ∈ events) :
      Advance e i events kind key (some r) none

theorem expects_seq {r : Reassembly} {seq : UInt8} (offset : r.offset = 0) : r.Expects seq ↔ seq.toNat = r.next := by
  have bound := seq.toNat_lt
  rw [Reassembly.Expects, offset, saturate32, zero_add, Nat.min_eq_left (by omega)]

theorem chunk_full {remaining : Nat} {rest : List UInt8} (enough : min remaining tpDtDataLen ≤ rest.length)
    (kind : SessionKind) : kind.chunk remaining rest = rest.take (min remaining tpDtDataLen) := by
  cases kind with
  | etp =>
    rw [SessionKind.chunk, padded, length_take, min_eq_left enough, Nat.sub_self]
    exact append_nil _
  | _ => rfl

theorem Reassembly.accept_packet {r : Reassembly} {payload : List UInt8}
    (size : r.totalSize = payload.length)
    (received : r.received = payload.take ((r.next - 1) * tpDtDataLen))
    (positive : 1 ≤ r.next)
    (inside : (r.next - 1) * tpDtDataLen ≤ r.totalSize)
    (kind : SessionKind) :
    (r.accept kind (padded tpDtDataLen 0xFF (packet tpDtDataLen payload r.next))).received =
      payload.take (r.next * tpDtDataLen) := by
  have length : r.received.length = (r.next - 1) * tpDtDataLen := by
    rw [received, length_take, ← size, min_eq_left inside]
  have enough : min (r.totalSize - r.received.length) tpDtDataLen ≤
      (padded tpDtDataLen 0xFF (packet tpDtDataLen payload r.next)).length := by
    rw [padded_length (by rw [packet_length]; exact min_le_left _ _)]
    exact min_le_right _ _
  obtain ⟨n, next⟩ : ∃ n, r.next = n + 1 := ⟨r.next - 1, by omega⟩
  simp only [accept]
  rw [chunk_full enough, length, size, take_padded_packet, received, next, Nat.add_sub_cancel, take_append_packet]

section Sessions

variable {e : TpEngine} {decoded : DecodedId} {seq : UInt8} {rest bytes buf : List UInt8} {key : Key} {now : Nat}

variable {s : InboundSession}

theorem InboundSession.Takes.accept
    (takes : s.Takes e decoded seq rest bytes key)
    (valid : s.Valid key)
    (more : seq.toNat < s.numPackets) :
    (s.accept bytes now).reassembly = s.reassembly.accept .bam rest := by
  simp only [reassembly, InboundSession.accept, Reassembly.accept, SessionKind.chunk,
    valid.wraps (takes.expected ▸ more), takes.taken]

theorem InboundConnSession.Takes.accept {s : InboundConnSession}
    (takes : s.Takes e decoded seq rest bytes key)
    (valid : s.Valid key)
    (more : seq.toNat < s.totalPackets)
    (window : Nat) :
    (s.accept bytes window now).reassembly = s.reassembly.accept .conn rest := by
  simp only [reassembly, InboundConnSession.accept, Reassembly.accept, SessionKind.chunk,
    valid.wraps (takes.expected ▸ more), takes.taken]

section

variable {s : InboundEtpSession} (takes : s.Takes e decoded seq rest bytes buf key)
variable {limit : Nat} (valid : s.Valid limit key)
include takes valid

theorem InboundEtpSession.Takes.received :
    buf.take (s.nextPacket * tpDtDataLen) = (s.reassembly.accept .etp rest).received := by
  have positive := valid.next.1
  have start : (s.nextPacket - 1) * tpDtDataLen ≤ s.totalSize := le_of_lt (packetsFor_short
    (lt_of_lt_of_le (show 0 < etpMinPayload by decide) valid.sized.1) (valid.packets ▸ takes.inside))
  have length : (s.buf.take ((s.nextPacket - 1) * tpDtDataLen)).length = (s.nextPacket - 1) * tpDtDataLen := by
    rw [length_take, valid.allocated]
    omega
  have finish : s.nextPacket * tpDtDataLen = (s.nextPacket - 1) * tpDtDataLen + tpDtDataLen := by
    simp only [tpDtDataLen]
    omega
  have zeros : s.buf.drop ((s.nextPacket - 1) * tpDtDataLen + bytes.length) =
      replicate (s.totalSize - (s.nextPacket - 1) * tpDtDataLen - bytes.length) 0 := by
    rw [← drop_drop, valid.blank, drop_replicate]
  have short := takes.short
  simp only [Reassembly.accept, reassembly, SessionKind.chunk, length, ← takes.taken]
  rw [copyFromSlice_take takes.written (by omega), zeros, take_replicate, append_assoc]
  congr 3
  omega

theorem InboundEtpSession.Takes.accept : (s.accept buf now).reassembly = s.reassembly.accept .etp rest := by
  have received := takes.received valid
  simp only [reassembly, InboundEtpSession.accept, Nat.add_sub_cancel, Reassembly.accept] at received ⊢
  rw [received]

theorem InboundEtpSession.Takes.complete (last : s.totalPackets ≤ s.nextPacket) :
    buf = (s.reassembly.accept .etp rest).received := by
  rw [← takes.received valid, take_of_length_le]
  rw [copyFromSlice_length takes.written, valid.allocated]
  have covers := packetsFor_covers s.totalSize
  rw [← valid.packets] at covers
  simp only [tpDtDataLen]
  omega

end

end Sessions

variable {b : CmBytes} {e e' : TpEngine} {i : TpInput} {events : List TpEvent} {pgn : Pgn} {payload : List UInt8}

theorem InboundConnSession.opened_reassembly {decoded : DecodedId} {p : ConnRtsParams}
    (parsed : parseConnRts decoded b = some p)
    (window now : Nat) :
    (InboundConnSession.opened p window now).reassembly = .opened p.announcement := by
  obtain ⟨_, _, _, _, packets⟩ := parseConnRts_sound parsed
  simp only [reassembly, opened, Reassembly.opened, ConnRtsParams.announcement, packets]

theorem InboundEtpSession.opened_reassembly {decoded : DecodedId} {p : EtpRtsParams} {limit : Nat}
    (parsed : parseEtpRts decoded b = some p)
    (fits : p.totalSize ≤ limit)
    (now : Nat) :
    (opened p now).reassembly = .opened p.announcement := by
  have packets := (opened_valid parsed fits now).packets
  simp only [opened] at packets
  simp only [reassembly, opened, Reassembly.opened, EtpRtsParams.announcement, packets, Nat.sub_self, zero_mul,
    take_zero]

namespace TpEngine

variable {e : TpEngine} {key : Key}

theorem inbound_bam_isSome : (e.inbound .bam key).isSome ↔ key ∈ e.sessions := by
  rw [inbound, isSome_map, lookup_isSome]

theorem inbound_conn_isSome : (e.inbound .conn key).isSome ↔ key ∈ e.rxConn := by
  rw [inbound, isSome_map, lookup_isSome]

theorem inbound_etp_isSome : (e.inbound .etp key).isSome ↔ key ∈ e.etpRx := by
  rw [inbound, isSome_map, lookup_isSome]

theorem configured_inbound (timers : TpTimers) (maxSessions : Nat) (window : UInt8) (limit : Nat) (kind : SessionKind)
    (key : Key) : (configured timers maxSessions window limit).inbound kind key = none := by
  cases kind <;> rfl

theorem WellFormed.inbound
    (wf : e.WellFormed)
    {kind : SessionKind} {r : Reassembly}
    (held : e.inbound kind key = some r) :
    0 < r.totalSize ∧ r.packets = packetsFor r.totalSize ∧ 1 ≤ r.next ∧ r.next ≤ r.packets := by
  cases kind with
  | bam =>
    obtain ⟨s, found, rfl⟩ := map_eq_some_iff.mp held
    have valid := wf.bam _ _ found
    exact ⟨lt_of_lt_of_le (by decide) valid.sized.1, valid.packets, valid.next⟩
  | conn =>
    obtain ⟨s, found, rfl⟩ := map_eq_some_iff.mp held
    have valid := wf.rx _ _ found
    exact ⟨lt_of_lt_of_le (by decide) valid.sized.1, valid.packets, valid.next⟩
  | etp =>
    obtain ⟨s, found, rfl⟩ := map_eq_some_iff.mp held
    have valid := wf.etpRx _ _ found
    exact ⟨lt_of_lt_of_le (by decide) valid.sized.1, valid.packets, valid.next⟩

end TpEngine

section Tables

variable {ν : Type} {e : TpEngine} {i : TpInput} {events : List TpEvent} {kind : SessionKind} {m : Table Key ν}
  {view : ν → Reassembly}

theorem Advance.insert {changed : Key} {s : ν}
    (here : Advance e i events kind changed ((m.lookup changed).map view) (some (view s))) (key : Key) :
    Advance e i events kind key ((m.lookup key).map view) (((m.insert changed s).lookup key).map view) := by
  rw [lookup_insert_ite]
  split
  · rename_i same
    subst same
    exact here
  · exact .kept _

theorem Advance.erase {changed : Key} (here : Advance e i events kind changed ((m.lookup changed).map view) none)
    (key : Key) : Advance e i events kind key ((m.lookup key).map view) (((m.erase changed).lookup key).map view) := by
  rw [lookup_erase_ite]
  split
  · rename_i same
    subst same
    exact here
  · exact .kept _

theorem Advance.retain {late : ν → Bool} {key : Key}
    (reported : ∀ s, m.lookup key = some s → s ∈ m.matching late → ∃ reason, .aborted key.2 key.1 reason ∈ events) :
    Advance e i events kind key ((m.lookup key).map view) (((m.retain fun s => !late s).lookup key).map view) := by
  rw [lookup_retain]
  cases found : m.lookup key with
  | none => exact .kept _
  | some s =>
    rw [filter_some]
    cases expired : late s with
    | false => exact .kept _
    | true =>
      obtain ⟨reason, member⟩ := reported s found (mem_matching found expired)
      exact .aborted reason member

end Tables

theorem TpEngine.swept_advance (wf : e.WellFormed) (now : Nat) (i : TpInput) (kind : SessionKind) (key : Key) :
    Advance e i (e.timeoutEvents now) kind key (e.inbound kind key) ((e.swept now).inbound kind key) := by
  cases kind with
  | bam =>
    refine .retain fun s found expired => ⟨.timeout, ?_⟩
    have member := mem_map_of_mem (f := (InboundSession.aborted · .timeout)) expired
    rw [(wf.bam _ _ found).keyed]
    simp only [timeoutEvents, mem_append]
    exact .inl (.inl (.inl (.inl member)))
  | conn =>
    refine .retain fun s found expired => ⟨.timeout, ?_⟩
    have member := mem_map_of_mem (f := (InboundConnSession.aborted · .timeout)) expired
    rw [(wf.rx _ _ found).keyed]
    simp only [timeoutEvents, mem_append]
    exact .inl (.inl (.inl (.inr member)))
  | etp =>
    refine .retain fun s found expired => ⟨.timeout, ?_⟩
    have member := mem_map_of_mem (f := (aborted · .timeout)) expired
    rw [(wf.etpRx _ _ found).keyed]
    simp only [timeoutEvents, mem_append]
    exact .inl (.inr member)

theorem Effect.advance
    (wf : e.WellFormed)
    (effect : Effect e i events e')
    (kind : SessionKind) (key : Key) :
    Advance e i events kind key (e.inbound kind key) (e'.inbound kind key) := by
  cases effect with
  | bamOpened announced bam room =>
    cases kind with
    | bam =>
      refine .insert ?_ key
      refine .opened _ rfl announced ⟨fun etp => ?_, ?_⟩ bam rfl rfl
      · rw [bam] at etp
        cases etp
      · rwa [bam, inbound_bam_isSome]
    | _ => exact .kept _
  | bamAccepted takes more =>
    cases kind with
    | bam =>
      refine .insert ?_ key
      rw [takes.found, takes.accept (wf.bam _ _ takes.found) more]
      rw [takes.expected] at more
      exact .accepted rfl takes.kind takes.source ((expects_seq rfl).mpr takes.expected) more rfl
    | _ => exact .kept _
  | bamCompleted takes last =>
    cases kind with
    | bam =>
      refine .erase ?_ key
      rw [takes.expected] at last
      rw [takes.found]
      refine .completed rfl takes.kind takes.source ((expects_seq rfl).mpr takes.expected) last ?_
      rw [(wf.bam _ _ takes.found).keyed, takes.taken]
      rfl
    | _ => exact .kept _
  | connOpened bytes parsed announced room granted =>
    cases kind with
    | conn =>
      refine .insert ?_ key
      rw [InboundConnSession.opened_reassembly parsed]
      exact .opened _ rfl announced ⟨nofun, room.imp_left inbound_conn_isSome.mpr⟩ rfl rfl rfl
    | _ => exact .kept _
  | connWaiting takes more | connGranted takes more =>
    cases kind with
    | conn =>
      refine .insert ?_ key
      rw [takes.found, takes.accept (wf.rx _ _ takes.found) more]
      rw [takes.expected] at more
      exact .accepted rfl takes.kind takes.source ((expects_seq rfl).mpr takes.expected) more rfl
    | _ => exact .kept _
  | connCompleted takes last =>
    cases kind with
    | conn =>
      refine .erase ?_ key
      rw [takes.expected] at last
      rw [takes.found]
      refine .completed rfl takes.kind takes.source ((expects_seq rfl).mpr takes.expected) last ?_
      rw [(wf.rx _ _ takes.found).keyed, takes.taken]
      rfl
    | _ => exact .kept _
  | connAborted named =>
    rename_i decoded data now pgn b
    cases kind with
    | conn =>
      refine .erase ?_ key
      cases found : e.rxConn.lookup (decoded.sourceAddr, pgn) with
      | none => exact .kept _
      | some s =>
        refine .aborted (abortReasonFromU8 b.b1) (mem_append_left _ ?_)
        rw [(wf.rx _ _ found).keyed]
        exact mem_singleton_self _
    | _ => exact .kept _
  | etpOpened bytes parsed announced fits room =>
    cases kind with
    | etp =>
      refine .insert ?_ key
      rw [opened_reassembly parsed fits]
      exact .opened _ rfl announced ⟨fun _ => fits, room.imp_left inbound_etp_isSome.mpr⟩ rfl rfl rfl
    | _ => exact .kept _
  | etpDpo named found =>
    cases kind with
    | etp =>
      refine .insert ?_ key
      rw [found]
      exact .rebased rfl named rfl rfl
    | _ => exact .kept _
  | etpWaiting takes more | etpGranted takes more =>
    cases kind with
    | etp =>
      refine .insert ?_ key
      rw [takes.found, takes.accept (wf.etpRx _ _ takes.found)]
      exact .accepted rfl takes.kind takes.source takes.expected more rfl
    | _ => exact .kept _
  | etpCompleted takes last =>
    cases kind with
    | etp =>
      refine .erase ?_ key
      have valid := wf.etpRx _ _ takes.found
      rw [takes.found]
      refine .completed rfl takes.kind takes.source takes.expected last ?_
      rw [valid.keyed, takes.complete valid last]
    | _ => exact .kept _
  | etpAborted named =>
    rename_i decoded data now pgn b
    cases kind with
    | etp =>
      refine .erase ?_ key
      cases found : e.etpRx.lookup (decoded.sourceAddr, pgn) with
      | none => exact .kept _
      | some s =>
        refine .aborted (abortReasonFromU8 b.b1) (mem_append_left _ ?_)
        rw [(wf.etpRx _ _ found).keyed]
        exact mem_singleton_self _
    | _ => exact .kept _
  | swept now => exact e.swept_advance wf now _ kind key
  | _ => cases kind <;> exact .kept _

section Opening

variable {e : TpEngine} {a : Announcement}

theorem TpEngine.not_admits {held : Prop}
    (here : (e.inbound a.kind a.key).isSome ↔ held)
    (absent : ¬ held)
    (full : e.maxSessions ≤ e.totalInbound) : ¬ e.Admits a := by
  intro admits
  rcases admits.2 with present | _
  · exact absent (here.mp present)
  · omega

/-- An announcement opens its session if it is admitted, and is reported and changes no session otherwise. -/
theorem Effect.announced
    (effect : Effect e i events e')
    (announced : i.announced = some a) :
    (e.Admits a ∧ events = [] ∧ e'.inbound a.kind a.key = some (.opened a) ∧
      ∀ key ≠ a.key, e'.inbound a.kind key = e.inbound a.kind key) ∨
      (¬ e.Admits a ∧ events ≠ [] ∧ ∀ kind key, e'.inbound kind key = e.inbound kind key) := by
  have data {decoded : DecodedId} {kind : SessionKind} {bytes : List UInt8} (dt : dataKind decoded = some kind)
      (named : announcement decoded bytes = some a) : False := nomatch (announcement_data dt bytes).symm.trans named
  have managed {decoded : DecodedId} {bytes : List UInt8} {control' : Control × Pgn × CmBytes}
      (managed : control decoded bytes = some control') (named : announcement decoded bytes = some a) : False :=
    nomatch (announcement_control managed).symm.trans named
  cases effect with
  | ignored silent => cases silent.symm.trans announced
  | bamRefused announced' kind absent full =>
    cases announced.symm.trans announced'
    exact .inr ⟨not_admits (by rw [kind, inbound_bam_isSome]) absent full, cons_ne_nil _ _, fun _ _ => rfl⟩
  | bamOpened announced' kind room =>
    cases announced.symm.trans announced'
    refine .inl ⟨⟨fun etp => (nomatch kind.symm.trans etp), ?_⟩, rfl, ?_⟩
    · rwa [kind, inbound_bam_isSome]
    rw [kind]
    simp only [inbound, lookup_insert_ite, ite_true]
    refine ⟨rfl, fun key other => ?_⟩
    rw [if_neg other]
  | connRefused bytes parsed announced' absent full =>
    cases announced.symm.trans announced'
    exact .inr ⟨not_admits inbound_conn_isSome absent full, cons_ne_nil _ _, fun kind _ => by cases kind <;> rfl⟩
  | connOpened bytes parsed announced' room granted =>
    cases announced.symm.trans announced'
    refine .inl ⟨⟨fun etp => (nomatch etp), room.imp_left inbound_conn_isSome.mpr⟩, rfl, ?_⟩
    simp only [ConnRtsParams.announcement, inbound, lookup_insert_ite, ite_true, map_some,
      InboundConnSession.opened_reassembly parsed]
    refine ⟨trivial, fun key other => ?_⟩
    rw [if_neg other]
  | etpOversize bytes parsed announced' exceeds =>
    cases announced.symm.trans announced'
    exact .inr ⟨fun admits => absurd (admits.1 rfl) (not_le.mpr exceeds), cons_ne_nil _ _,
      fun kind _ => by cases kind <;> rfl⟩
  | etpRefused bytes parsed announced' fits absent full =>
    cases announced.symm.trans announced'
    exact .inr ⟨not_admits inbound_etp_isSome absent full, cons_ne_nil _ _, fun kind _ => by cases kind <;> rfl⟩
  | etpOpened bytes parsed announced' fits room =>
    cases announced.symm.trans announced'
    refine .inl ⟨⟨fun _ => fits, room.imp_left inbound_etp_isSome.mpr⟩, rfl, ?_⟩
    simp only [EtpRtsParams.announcement, inbound, lookup_insert_ite, ite_true, map_some,
      opened_reassembly parsed fits]
    refine ⟨trivial, fun key other => ?_⟩
    rw [if_neg other]
  | bamAccepted takes | bamCompleted takes | connWaiting takes | connGranted takes | connCompleted takes
  | etpWaiting takes | etpGranted takes | etpCompleted takes => exact (data takes.kind announced).elim
  | cts named | connAcked named | connAborted named | etpCts named | etpDpo named | etpAcked named
  | etpAborted named => exact (managed named announced).elim
  | startedConnection | startedEtp | drained | swept => cases announced

end Opening

theorem TpEngine.completed_notMem_timeoutEvents {now : Nat} {source : UInt8} :
    .completed pgn source payload ∉ e.timeoutEvents now := by
  simp [timeoutEvents, InboundSession.aborted, InboundConnSession.aborted, OutboundConnSession.aborted,
    aborted, OutboundEtpSession.aborted]

/-- A completed message comes from the session of its key, with the last packet in the frame just handled. -/
theorem Effect.completes {source : UInt8}
    (wf : e.WellFormed)
    (effect : Effect e i events e')
    (reported : .completed pgn source payload ∈ events) :
    ∃ kind decoded seq rest now r, i = .frame decoded (seq :: rest) now ∧ dataKind decoded = some kind ∧
      decoded.sourceAddr = source ∧ e.inbound kind (source, pgn) = some r ∧ r.Expects seq ∧ r.packets ≤ r.next ∧
      payload = (r.accept kind rest).received := by
  cases effect with
  | bamCompleted takes last =>
    cases mem_singleton.mp reported
    have keyed := (wf.bam _ _ takes.found).keyed
    have found := takes.found
    have sent := takes.source
    rw [keyed] at found sent
    refine ⟨.bam, _, _, _, _, _, rfl, takes.kind, sent, by rw [inbound, found]; rfl,
      (expects_seq rfl).mpr takes.expected, takes.expected ▸ last, ?_⟩
    rw [takes.taken]
    rfl
  | connCompleted takes last =>
    cases mem_singleton.mp reported
    have keyed := (wf.rx _ _ takes.found).keyed
    have found := takes.found
    have sent := takes.source
    rw [keyed] at found sent
    refine ⟨.conn, _, _, _, _, _, rfl, takes.kind, sent, by rw [inbound, found]; rfl,
      (expects_seq rfl).mpr takes.expected, takes.expected ▸ last, ?_⟩
    rw [takes.taken]
    rfl
  | etpCompleted takes last =>
    cases mem_singleton.mp reported
    have valid := wf.etpRx _ _ takes.found
    have found := takes.found
    have sent := takes.source
    rw [valid.keyed] at found sent
    exact ⟨.etp, _, _, _, _, reassembly _, rfl, takes.kind, sent,
      by rw [inbound, found]; rfl, takes.expected, last, takes.complete valid last⟩
  | connAborted named => simp [InboundConnSession.aborted, OutboundConnSession.aborted] at reported
  | etpAborted named => simp [aborted, OutboundEtpSession.aborted] at reported
  | swept now => exact absurd reported completed_notMem_timeoutEvents
  | _ => simp at reported

section Steps

variable {e e' : TpEngine} {call : TpInput × List TpEvent}

theorem TpEngine.Reordered.advance {kind : SessionKind} {key : Key} {r r' : Option Reassembly}
    (h : e.Reordered e')
    (advance : Advance e' i events kind key r r') : Advance e i events kind key r r' := by
  cases advance with
  | kept => exact .kept _
  | opened r frame announced admitted kind_eq key_eq quiet =>
    exact .opened r frame announced (h.admits_iff.mp admitted) kind_eq key_eq quiet
  | rebased frame named kind_eq quiet => exact .rebased frame named kind_eq quiet
  | accepted frame data source expected more quiet => exact .accepted frame data source expected more quiet
  | completed frame data source expected last reported => exact .completed frame data source expected last reported
  | aborted reason reported => exact .aborted reason reported

theorem TpEngine.Step.advance
    (step : e.Step call e')
    (wf : e.WellFormed)
    (kind : SessionKind) (key : Key) :
    Advance e call.1 call.2 kind key (e.inbound kind key) (e'.inbound kind key) := by
  obtain ⟨_, reordered, effect⟩ := step.effect
  have advance := effect.advance (wf.reordered reordered) kind key
  rw [reordered.inbound] at advance
  exact reordered.advance advance

theorem TpEngine.Step.completes
    (step : e.Step call e')
    (wf : e.WellFormed)
    {source : UInt8}
    (reported : .completed pgn source payload ∈ call.2) :
    ∃ kind decoded seq rest now r, call.1 = .frame decoded (seq :: rest) now ∧ dataKind decoded = some kind ∧
      decoded.sourceAddr = source ∧ e.inbound kind (source, pgn) = some r ∧ r.Expects seq ∧ r.packets ≤ r.next ∧
      payload = (r.accept kind rest).received := by
  obtain ⟨_, reordered, effect⟩ := step.effect
  have completes := effect.completes (wf.reordered reordered) reported
  simp only [reordered.inbound] at completes
  exact completes

end Steps

end Taktora.J1939
