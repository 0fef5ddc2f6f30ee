import Taktora.J1939.Tp.Delivery
import Taktora.J1939.Tp.Extended

namespace Taktora.J1939

open Checked LittleEndian Packets TpOutFrame List

def TpOutFrame.rebase? (f : TpOutFrame) : Option (Key × Nat) :=
  match control f.decoded f.data.1 with
  | some (.etpDpo, pgn, b) => some ((f.decoded.sourceAddr, pgn), u24From b)
  | _ => none

theorem TpOutFrame.rebase?_some {f : TpOutFrame} {key : Key} {offset : Nat} (rebased : f.rebase? = some (key, offset)) :
    ∃ b, control f.decoded f.data.1 = some (.etpDpo, key.2, b) ∧ f.decoded.sourceAddr = key.1 ∧ u24From b = offset := by
  rw [rebase?] at rebased
  split at rebased
  · rename_i pgn b named
    cases rebased
    exact ⟨b, named, rfl, rfl⟩
  · cases rebased

theorem TpOutFrame.rebase?_none {f : TpOutFrame}
    (other : ∀ pgn b, control f.decoded f.data.1 ≠ some (.etpDpo, pgn, b)) : f.rebase? = none := by
  rw [rebase?]
  split
  · rename_i pgn b named
    exact absurd named (other pgn b)
  · rfl

def TpOutFrame.offsetAfter (f : TpOutFrame) (offset : Nat) : Nat := (f.rebase?.map Prod.snd).getD offset

structure TpOutFrame.Quiet (f : TpOutFrame) : Prop where
  announces : announcement f.decoded f.data.1 = none
  carries : dataKind f.decoded = none
  rebases : f.rebase? = none

section Quiet

variable (ourSa destSa priority : UInt8) (pgn : Pgn) (b1 b2 b3 b4 : UInt8) {b0 : UInt8}

theorem cmFrame_quiet
    (bam : b0 ≠ bamControl)
    (rts : b0 ≠ rtsControl) :
    (cmFrame cmPgn ourSa destSa priority pgn b0 b1 b2 b3 b4).Quiet := by
  refine ⟨?_, ?_, rebase?_none fun pgn b named => ?_⟩
  · rw [cmFrame_decoded rfl]
    exact announcement_cm (cmFrame_bytes _ _ _ _ _ _ _ _ _ _) rfl bam rts
  · rw [cmFrame_decoded rfl, dataKind_cm]
  · rw [cmFrame_decoded rfl] at named
    exact absurd (show tpCmPgn = etpCmPgn from (control_sound named).1) (by decide)

theorem etpCmFrame_announcement (rts : b0 ≠ etpRtsControl) :
    announcement (cmFrame etpCm ourSa destSa priority pgn b0 b1 b2 b3 b4).decoded
      (cmFrame etpCm ourSa destSa priority pgn b0 b1 b2 b3 b4).data.1 = none := by
  rw [cmFrame_decoded rfl]
  exact announcement_etpCm (cmFrame_bytes _ _ _ _ _ _ _ _ _ _) rfl rts

theorem etpCmFrame_dataKind (b0 : UInt8) :
    dataKind (cmFrame etpCm ourSa destSa priority pgn b0 b1 b2 b3 b4).decoded = none := by
  rw [cmFrame_decoded rfl]
  rfl

theorem etpCmFrame_rebase? (dpo : b0 ≠ etpDpoControl) :
    (cmFrame etpCm ourSa destSa priority pgn b0 b1 b2 b3 b4).rebase? = none := by
  refine rebase?_none fun pgn b named => ?_
  obtain ⟨_, bytes, code, _⟩ := control_sound named
  cases bytes
  exact dpo code

theorem etpCmFrame_quiet
    (rts : b0 ≠ etpRtsControl)
    (dpo : b0 ≠ etpDpoControl) :
    (cmFrame etpCm ourSa destSa priority pgn b0 b1 b2 b3 b4).Quiet :=
  ⟨etpCmFrame_announcement _ _ _ _ _ _ _ _ rts, etpCmFrame_dataKind _ _ _ _ _ _ _ _ _,
    etpCmFrame_rebase? _ _ _ _ _ _ _ _ dpo⟩

theorem etpDpoFrame_rebase? (count : Nat) {offset : Nat} (small : offset < 2 ^ 24) :
    (etpDpoFrame ourSa destSa priority pgn count offset).rebase? = some ((ourSa, pgn), offset) := by
  have joined := (join3_byteAt offset).trans (Nat.mod_eq_of_lt small)
  have wire : (wireId etpCm priority ourSa destSa).pgn.value = etpCmPgn := rfl
  have named : control (etpDpoFrame ourSa destSa priority pgn count offset).decoded
      (etpDpoFrame ourSa destSa priority pgn count offset).data.1 = some (.etpDpo, pgn, cmBytes etpDpoControl
        (UInt8.ofNat count) (byteAt offset 0) (byteAt offset 1) (byteAt offset 2) pgn) := by
    rw [etpDpoFrame, cmFrame_decoded rfl, control, cmFrame_bytes]
    simp only [cmBytes_pgn, wire]
    rfl
  rw [rebase?, named]
  simp only [u24From, cmBytes, joined]
  rw [etpDpoFrame, cmFrame_decoded rfl]
  rfl

end Quiet

namespace TpEngine

variable {P : OutboundEtpSession → Prop}

structure Outbound (P : OutboundEtpSession → Prop) (e : TpEngine) : Prop where
  txConn : e.txConn = ∅
  etpTx : e.etpTx.Forall fun _ s => P s

def Queues (P : OutboundEtpSession → Prop) (e e' : TpEngine) : Prop :=
  ∃ sent, e'.pendingOut = e.pendingOut ++ sent ∧ ((∀ f ∈ sent, f.Quiet) ∨
    ∃ s next count, P s ∧ 1 ≤ next ∧ next < 2 ^ 24 ∧ 1 ≤ count ∧ count ≤ 255 ∧ buildEtpBurst s next count = .ok sent)

theorem Queues.nothing {e e' : TpEngine} (same : e'.pendingOut = e.pendingOut) :
    e.Queues P e' := ⟨[], by rw [same, append_nil], .inl nofun⟩

theorem Queues.reply {e e' : TpEngine} {f : TpOutFrame} (quiet : f.Quiet)
    (queued : e'.pendingOut = e.pendingOut ++ [f]) : e.Queues P e' := by
  refine ⟨[f], queued, .inl ?_⟩
  intro g member
  rwa [mem_singleton.mp member]

theorem timeoutFrames_quiet (e : TpEngine) (now : Nat) : ∀ f ∈ e.timeoutFrames now, f.Quiet := by
  intro f member
  simp only [timeoutFrames, mem_append, mem_map] at member
  rcases member with ((⟨s, _, rfl⟩ | ⟨s, _, rfl⟩) | ⟨s, _, rfl⟩) | ⟨s, _, rfl⟩
  · exact cmFrame_quiet _ _ _ _ _ _ _ _ (by decide) (by decide)
  · exact cmFrame_quiet _ _ _ _ _ _ _ _ (by decide) (by decide)
  · exact etpCmFrame_quiet _ _ _ _ _ _ _ _ (by decide) (by decide)
  · exact etpCmFrame_quiet _ _ _ _ _ _ _ _ (by decide) (by decide)

end TpEngine

theorem Effect.queues {P : OutboundEtpSession → Prop}
    (touch : ∀ s now, P s → P (s.touch now))
    {e e' : TpEngine} {i : TpInput} {events : List TpEvent}
    (effect : Effect e i events e')
    (outbound : e.Outbound P)
    (received : (∃ decoded data now, i = .frame decoded data now) ∨ ∃ now, i = .pollTimeouts now) :
    e'.Outbound P ∧ e.Queues P e' := by
  obtain ⟨txConn, etpTx⟩ := outbound
  cases effect with
  | ignored | bamRefused | bamOpened | bamAccepted | bamCompleted | connWaiting | etpDpo | etpWaiting =>
    exact ⟨⟨txConn, etpTx⟩, .nothing rfl⟩
  | connRefused | connOpened | connGranted | connCompleted =>
    exact ⟨⟨txConn, etpTx⟩, .reply (cmFrame_quiet _ _ _ _ _ _ _ _ (by decide) (by decide)) rfl⟩
  | etpOversize | etpRefused | etpOpened | etpGranted | etpCompleted =>
    exact ⟨⟨txConn, etpTx⟩, .reply (etpCmFrame_quiet _ _ _ _ _ _ _ _ (by decide) (by decide)) rfl⟩
  | cts named found =>
    rw [txConn] at found
    cases found
  | connAcked | connAborted => exact ⟨⟨by rw [txConn]; rfl, etpTx⟩, .nothing rfl⟩
  | @etpCts decoded data now pgn b s burst named found built =>
    have held := etpTx _ _ found
    refine ⟨⟨txConn, etpTx.insert (touch s now held)⟩, ?_⟩
    rcases built with ⟨_, rfl⟩ | ⟨⟨asked, positive⟩, built⟩
    · exact .nothing (append_nil _)
    · have byte := b.b1.toNat_lt
      have count : b.b1.toNat ≠ 0 := fun zero => asked (UInt8.toNat_inj.mp zero)
      exact ⟨burst, rfl, .inr ⟨_, _, _, touch s now held, Nat.pos_of_ne_zero positive, join3_lt _ _ _,
        Nat.pos_of_ne_zero count, by omega, built⟩⟩
  | etpAcked | etpAborted => exact ⟨⟨txConn, etpTx.erase _⟩, .nothing rfl⟩
  | startedConnection | startedEtp | drained => simp at received
  | swept now =>
    refine ⟨⟨?_, etpTx.retain _⟩, e.timeoutFrames now, rfl, .inl (e.timeoutFrames_quiet now)⟩
    simp only [TpEngine.swept, txConn]
    rfl

/-- Read under the packet offset `offset`, the frame belongs to the message. -/
structure Fits (key : Key) (payload : List UInt8) (offset : Nat) (f : TpOutFrame) : Prop where
  announces : ∀ a, announcement f.decoded f.data.1 = some a →
    a.kind = .etp ∧ a.key = key ∧ a.totalSize = payload.length ∧ offset = 0
  carries : ∀ kind seq rest, dataKind f.decoded = some kind → f.data.1 = seq :: rest →
    kind = .etp ∧ rest = padded tpDtDataLen 0xFF (packet tpDtDataLen payload (offset + seq.toNat))
  rebases : ∀ session offset', f.rebase? = some (session, offset') → session = key

def Belongs (key : Key) (payload : List UInt8) : Nat → List TpOutFrame → Prop
  | _, [] => True
  | offset, f :: rest => Fits key payload offset f ∧ Belongs key payload (f.offsetAfter offset) rest

section Queue

variable {key : Key} {payload : List UInt8} {offset : Nat} {frames : List TpOutFrame} {s : OutboundEtpSession}

theorem TpOutFrame.Quiet.fits {f : TpOutFrame} (quiet : f.Quiet) : Fits key payload offset f := by
  constructor
  · intro a announced
    cases quiet.announces.symm.trans announced
  · intro kind seq rest data
    cases quiet.carries.symm.trans data
  · intro session offset' rebased
    cases quiet.rebases.symm.trans rebased

theorem Belongs.append {later : List TpOutFrame} (belongs : Belongs key payload offset frames)
    (others : ∀ offset, Belongs key payload offset later) : Belongs key payload offset (frames ++ later) := by
  induction frames generalizing offset with
  | nil => exact others offset
  | cons f rest ih => exact ⟨belongs.1, ih belongs.2⟩

theorem belongs_quiet (quiet : ∀ f ∈ frames, f.Quiet) (offset : Nat) :
    Belongs key payload offset frames := by
  induction frames generalizing offset with
  | nil => exact trivial
  | cons f rest ih =>
    exact ⟨(quiet f mem_cons_self).fits, ih (fun g member => quiet g (mem_cons_of_mem f member)) _⟩

theorem dtFrame_rebase? (priority ourSa destSa : UInt8) (payload : List UInt8) (seq p : Nat) :
    (dtFrame etpDt priority ourSa destSa payload seq p).rebase? = none := by
  refine rebase?_none fun pgn b named => ?_
  rw [dtFrame_decoded rfl] at named
  exact absurd (show etpDtPgn = etpCmPgn from (control_sound named).1) (by decide)

theorem dtFrame_fits {seq p : Nat}
    (byte : seq ≤ 255)
    (numbered : offset + seq = p)
    (priority ourSa destSa : UInt8) :
    Fits key payload offset (dtFrame etpDt priority ourSa destSa payload seq p) := by
  constructor
  · intro a announced
    rw [dtFrame_decoded rfl, announcement_data (dataKind_etpDt priority ourSa destSa)] at announced
    cases announced
  · intro kind seq' rest data bytes
    rw [dtFrame_decoded rfl] at data
    cases data
    obtain ⟨rfl, rfl⟩ := cons.inj bytes
    rw [ofNat_toNat (Nat.lt_succ_of_le byte), numbered]
    exact ⟨rfl, rfl⟩
  · intro session offset' rebased
    cases (dtFrame_rebase? _ _ _ _ _ _).symm.trans rebased

theorem belongs_data {next : Nat} (positive : 1 ≤ next) :
    ∀ n i, i + n ≤ 255 → Belongs key s.payload (next - 1)
      ((List.range' i n).map fun j => s.packetFrame (j + 1) (next + j)) := by
  intro n
  induction n with
  | zero => intro i bound; exact trivial
  | succ n ih =>
    intro i bound
    rw [range'_succ, map_cons]
    refine ⟨dtFrame_fits (by omega) (by omega) _ _ _, ?_⟩
    rw [OutboundEtpSession.packetFrame, offsetAfter, dtFrame_rebase?]
    exact ih (i + 1) (by omega)

theorem belongs_burst {next count : Nat}
    (positive : 1 ≤ next)
    (small : next < 2 ^ 24)
    (byte : count ≤ 255)
    (offset : Nat) :
    Belongs (s.ourSa, s.transportedPgn) s.payload offset (s.burst next count) := by
  have rebased :=
    etpDpoFrame_rebase? s.ourSa s.destSa s.priority s.transportedPgn count (show next - 1 < 2 ^ 24 by omega)
  refine ⟨⟨?_, ?_, ?_⟩, ?_⟩
  · intro a announced
    cases (etpCmFrame_announcement _ _ _ _ _ _ _ _ (by decide)).symm.trans announced
  · intro kind seq rest data
    cases (etpCmFrame_dataKind _ _ _ _ _ _ _ _ _).symm.trans data
  · intro session offset' same
    cases rebased.symm.trans same
    rfl
  · rw [offsetAfter, rebased, range_eq_range']
    exact belongs_data positive count 0 (by omega)

theorem buildEtpBurst_belongs {limit : Nat} {peer : Key}
    (valid : s.Valid limit peer)
    {next count : Nat}
    (positive : 1 ≤ next)
    (small : next < 2 ^ 24)
    (asked : 1 ≤ count)
    (byte : count ≤ 255)
    {burst : List TpOutFrame}
    (built : buildEtpBurst s next count = .ok burst)
    (offset : Nat) :
    Belongs (s.ourSa, s.transportedPgn) s.payload offset burst := by
  by_cases inside : next ≤ s.totalPackets
  · rw [buildEtpBurst_eq valid positive inside small asked byte] at built
    cases built
    exact belongs_burst positive small (by omega) offset
  · rw [buildEtpBurst_beyond (by omega) small] at built
    split at built
    · cases built
      exact belongs_burst positive small (by decide) offset
    · cases built

end Queue

namespace TpEngine

/-- The receiver has no other session than that of the message, and has received its packets up to `next`. -/
def Collects (key : Key) (payload : List UInt8) (e : TpEngine) : Prop :=
  ∀ kind other r, e.inbound kind other = some r →
    kind = .etp ∧ other = key ∧ r.totalSize = payload.length ∧ r.received = payload.take ((r.next - 1) * tpDtDataLen)

section Receiver

variable {e e' : TpEngine} {call : TpInput × List TpEvent} {key : Key} {payload : List UInt8}
  {r : Reassembly} {offset : Nat}

/-- The frames among the calls fit the message, and data frames are accepted under the right offset. -/
def Guided (key : Key) (payload : List UInt8) (offset : Nat) (e : TpEngine) (i : TpInput) : Prop :=
  ∀ decoded data now, i = .frame decoded data now →
    (∃ f, Fits key payload offset f ∧ decoded = f.decoded ∧ data = f.data.1) ∧
    ∀ seq rest r, dataKind decoded = some .etp → data = seq :: rest → e.inbound .etp key = some r →
      decoded.sourceAddr = key.1 → r.Expects seq → r.offset = offset

theorem WellFormed.inbound_etp_small
    (wf : e.WellFormed)
    (held : e.inbound .etp key = some r) : r.packets ≤ 16777215 := by
  obtain ⟨s, found, rfl⟩ := Option.map_eq_some_iff.mp held
  have valid := wf.etpRx _ _ found
  have small := packetsFor_etp valid.sized.2
  rwa [← valid.packets] at small

section

variable (collects : e.Collects key payload)
include collects

theorem Collects.accept
    (wf : e.WellFormed)
    {decoded : DecodedId} {seq : UInt8} {rest : List UInt8} {now : Nat}
    (guided : Guided key payload offset e (.frame decoded (seq :: rest) now))
    {kind : SessionKind} {other : Key}
    (data : dataKind decoded = some kind)
    (held : e.inbound kind other = some r)
    (source : decoded.sourceAddr = other.1)
    (expected : r.Expects seq) :
    kind = .etp ∧ other = key ∧ r.totalSize = payload.length ∧ r.packets = packetsFor payload.length ∧
      (r.accept kind rest).received = payload.take (r.next * tpDtDataLen) := by
  obtain ⟨rfl, rfl, size, received⟩ := collects kind other r held
  obtain ⟨⟨f, fits, rfl, bytes⟩, right⟩ := guided decoded (seq :: rest) now rfl
  obtain ⟨_, rfl⟩ := fits.carries .etp seq rest data bytes.symm
  have same := right seq _ r data rfl held source expected
  obtain ⟨positive_size, packets, positive, inside⟩ := wf.inbound held
  have small := wf.inbound_etp_small held
  have number : offset + seq.toNat = r.next := by
    rw [Reassembly.Expects, saturate32] at expected
    omega
  have start := packetsFor_short positive_size (packets ▸ inside)
  rw [number]
  exact ⟨rfl, rfl, size, size ▸ packets, Reassembly.accept_packet size received positive (le_of_lt start) .etp⟩

theorem Collects.step
    (wf : e.WellFormed)
    (guided : Guided key payload offset e call.1)
    (step : e.Step call e') : e'.Collects key payload := by
  intro kind other r' held'
  have advance := step.advance wf kind other
  rw [held'] at advance
  generalize before : e.inbound kind other = old at advance
  cases advance with
  | kept | rebased =>
    have collected := collects kind other _ before
    exact collected
  | opened old frame announced admitted kind_eq key_eq quiet =>
    obtain ⟨⟨f, fits, rfl, rfl⟩, _⟩ := guided _ _ _ frame
    obtain ⟨etp, same, size, _⟩ := fits.announces _ announced
    exact ⟨kind_eq.symm.trans etp, key_eq.symm.trans same, size, rfl⟩
  | accepted frame data source expected more quiet =>
    rw [frame] at guided
    obtain ⟨etp, same, size, _, received⟩ := collects.accept wf guided data before source expected
    exact ⟨etp, same, size, received⟩

theorem Collects.completes
    (wf : e.WellFormed)
    (guided : Guided key payload offset e call.1)
    (step : e.Step call e')
    {pgn : Pgn} {source : UInt8} {delivered : List UInt8}
    (reported : .completed pgn source delivered ∈ call.2) :
    (source, pgn) = key ∧ delivered = payload := by
  obtain ⟨_, _, _, _, _, r, frame, data, sent, held, expected, last, rfl⟩ := step.completes wf reported
  rw [frame] at guided
  obtain ⟨_, same, _, packets, received⟩ := collects.accept wf guided data held sent expected
  have covers := packetsFor_covers payload.length
  rw [received]
  exact ⟨same, take_complete (le_trans covers (Nat.mul_le_mul_right 7 (packets ▸ last)))⟩

end

theorem offset_kept
    (wf : e.WellFormed)
    (step : e.Step call e')
    (synced : ∀ other r, e.inbound .etp other = some r → r.offset = offset)
    (opens : ∀ decoded data now a, call.1 = .frame decoded data now → announcement decoded data = some a → offset = 0)
    (rebases : ∀ decoded data now pgn b, call.1 = .frame decoded data now →
      control decoded data ≠ some (.etpDpo, pgn, b)) :
    ∀ other r, e'.inbound .etp other = some r → r.offset = offset := by
  intro other r' held'
  have advance := step.advance wf .etp other
  rw [held'] at advance
  generalize before : e.inbound .etp other = old at advance
  cases advance with
  | kept => exact synced other r' before
  | opened old frame announced => exact (opens _ _ _ _ frame announced).symm
  | rebased frame named => exact absurd named (rebases _ _ _ _ _ frame)
  | @accepted decoded seq rest now r => exact synced other r before

theorem offset_rebased {decoded : DecodedId} {data : List UInt8} {now : Nat} {events : List TpEvent} {pgn : Pgn}
    {b : CmBytes}
    (step : e.Step (.frame decoded data now, events) e')
    (named : control decoded data = some (.etpDpo, pgn, b))
    (held : e'.inbound .etp (decoded.sourceAddr, pgn) = some r) : r.offset = u24From b := by
  obtain ⟨e₀, _, handled⟩ := step
  obtain ⟨cm, bytes, dpo, parsed⟩ := control_sound named
  have dispatched : e₀.handle (.frame decoded data now) = .ok (e₀.onEtpDpo decoded b now) := by
    simp only [handle]
    rw [onFrame, cm, Control.wirePgn, onEtpCm, bytes]
    simp only [dpo]
    rfl
  rw [dispatched, onEtpDpo, parsed] at handled
  dsimp only at handled
  split at handled
  · rename_i absent
    cases handled
    simp [inbound, absent] at held
  · cases handled
    simp only [inbound, AList.lookup_insert, Option.map_some, Option.some.injEq] at held
    exact held ▸ rfl

end Receiver

section Wires

open Link

abbrev timed : Party TpEngine TpOutFrame Nat TpEvent Panic := party fun _ _ => True

/-- The offset of the last DPO that has left the wire to the receiver, delivered or lost. -/
def sentOffset (offset : Nat) : Action TpOutFrame Nat → Nat
  | .deliverFar f _ => f.offsetAfter offset
  | .loseFar f => f.offsetAfter offset
  | _ => offset

/-- The receiver accepts a data frame under another offset than that of the DPO sent before it. -/
def Misreads (l : Link TpEngine TpOutFrame) (offset : Nat) (a : Action TpOutFrame Nat) : Prop :=
  ∃ f now seq rest key r, a = .deliverFar f now ∧ dataKind f.decoded = some .etp ∧ f.data.1 = seq :: rest ∧
    l.far.inbound .etp key = some r ∧ f.decoded.sourceAddr = key.1 ∧ r.Expects seq ∧ r.offset ≠ offset

def GuidedStep (s : Link TpEngine TpOutFrame × Nat) (call : Action TpOutFrame Nat × List TpEvent)
    (s' : Link TpEngine TpOutFrame × Nat) : Prop :=
  Link.Step timed s.1 call s'.1 ∧ s'.2 = sentOffset s.2 call.1 ∧ ¬ Misreads s.1 s.2 call.1

def SendsOnly (key : Key) (payload : List UInt8) (s : OutboundEtpSession) : Prop :=
  (s.ourSa, s.transportedPgn) = key ∧ s.payload = payload ∧ ∃ limit peer, s.Valid limit peer

theorem SendsOnly.touch {key : Key} {payload : List UInt8} (s : OutboundEtpSession) (now : Nat)
    (sends : SendsOnly key payload s) : SendsOnly key payload (s.touch now) := by
  obtain ⟨own, same, limit, peer, valid⟩ := sends
  exact ⟨own, same, limit, peer, valid.touch now⟩

structure Intact (key : Key) (payload : List UInt8) (s : Link TpEngine TpOutFrame × Nat) : Prop where
  wf : s.1.far.WellFormed
  collects : s.1.far.Collects key payload
  outbound : s.1.near.Outbound (SendsOnly key payload)
  flight : Belongs key payload s.2 (s.1.forward timed)

variable {key : Key} {payload : List UInt8}

theorem Outbound.reordered {P : OutboundEtpSession → Prop} {e e₀ : TpEngine} (outbound : e.Outbound P)
    (reordered : e.Reordered e₀) : e₀.Outbound P := by
  refine ⟨?_, outbound.etpTx.perm reordered.etpTx⟩
  rw [← outbound.txConn]
  exact Table.eq_of_perm reordered.txConn (by rw [outbound.txConn]; exact Nat.zero_le 1)

theorem Outbound.step {e e' : TpEngine} {call : TpInput × List TpEvent}
    (outbound : e.Outbound (SendsOnly key payload))
    (received : (∃ decoded data now, call.1 = .frame decoded data now) ∨ ∃ now, call.1 = .pollTimeouts now)
    (step : e.Step call e') :
    e'.Outbound (SendsOnly key payload) ∧ ∃ sent, e'.pendingOut = e.pendingOut ++ sent ∧
      ∀ offset, Belongs key payload offset sent := by
  obtain ⟨_, reordered, effect⟩ := step.effect
  obtain ⟨outbound', sent, queued, content⟩ := effect.queues SendsOnly.touch (outbound.reordered reordered) received
  rw [reordered.pendingOut] at queued
  refine ⟨outbound', sent, queued, ?_⟩
  rcases content with quiet | ⟨s, _, _, ⟨rfl, rfl, _, _, valid⟩, positive, small, asked, byte, built⟩
  · exact belongs_quiet quiet
  · exact buildEtpBurst_belongs valid positive small asked byte built

theorem belongs_sent {l l' : Link TpEngine TpOutFrame} {offset : Nat} {sent : List TpOutFrame}
    (flight : Belongs key payload offset (l.forward timed))
    (wires : l'.toFar = l.toFar)
    (queued : l'.near.pendingOut = l.near.pendingOut ++ sent)
    (belongs : ∀ later, Belongs key payload later sent) :
    Belongs key payload offset (l'.forward timed) := by
  have grown : l'.forward timed = l.forward timed ++ sent := by
    show l'.toFar ++ l'.near.pendingOut = l.toFar ++ l.near.pendingOut ++ sent
    rw [wires, queued, append_assoc]
  rw [grown]
  exact flight.append belongs

theorem Intact.guided {l : Link TpEngine TpOutFrame} {offset : Nat} {f : TpOutFrame} {now : Nat}
    (fits : Fits key payload offset f)
    (read : ¬ Misreads l offset (.deliverFar f now)) :
    Guided key payload offset l.far (.frame f.decoded f.data.1 now) := by
  rintro _ _ _ same
  cases same
  refine ⟨⟨f, fits, rfl, rfl⟩, ?_⟩
  intro seq rest r kind bytes held source expected
  exact by_contra fun other => read ⟨f, now, seq, rest, key, r, rfl, kind, bytes, held, source, expected, other⟩

variable {s s' : Link TpEngine TpOutFrame × Nat} {call : Action TpOutFrame Nat × List TpEvent}
  {e : TpEngine} {l l' : Link TpEngine TpOutFrame} {history : List (Action TpOutFrame Nat × List TpEvent)}
    {may : TpEngine → Nat → Prop} {c : Extended} {window : UInt8}

theorem Intact.step
    (intact : Intact key payload s)
    (step : GuidedStep s call s') :
    Intact key payload s' ∧ (call.1.isFar = true → ∀ pgn source delivered, .completed pgn source delivered ∈ call.2 →
      (source, pgn) = key ∧ delivered = payload) := by
  obtain ⟨l, offset⟩ := s
  obtain ⟨_, _⟩ := s'
  obtain ⟨step, advanced, read⟩ := step
  obtain ⟨wf, collects, outbound, flight⟩ := intact
  have silent {P : Prop} (far : false = true) : P := (Bool.false_ne_true far).elim
  subst advanced
  cases step with
  | flushNear queued =>
    refine ⟨⟨wf, collects, ⟨outbound.txConn, outbound.etpTx⟩, ?_⟩, silent⟩
    simp only [forward, timed.outbox_flush, append_nil]
    exact flight
  | flushFar queued =>
    rename_i near far toFar toNear
    have drained : Step far (.takeOutbound, []) far.takeOutbound.2 := Step.of_handle rfl
    exact ⟨⟨wf.step drained, collects, outbound, flight⟩, silent⟩
  | deliverFar received =>
    obtain ⟨e₀, reordered, handled⟩ := received
    have taken : Step _ (.frame _ _ _, _) _ := ⟨e₀, reordered, handled⟩
    have guided := guided flight.1 read
    exact ⟨⟨wf.step taken, collects.step wf guided taken, outbound, flight.2⟩,
      fun _ pgn source delivered reported => collects.completes wf guided taken reported⟩
  | deliverNear received =>
    obtain ⟨e₀, reordered, handled⟩ := received
    have taken : Step _ (.frame _ _ _, _) _ := ⟨e₀, reordered, handled⟩
    obtain ⟨outbound', _, queued, belongs⟩ := outbound.step (.inl ⟨_, _, _, rfl⟩) taken
    exact ⟨⟨wf, collects, outbound', belongs_sent flight rfl queued belongs⟩, silent⟩
  | loseFar => exact ⟨⟨wf, collects, outbound, flight.2⟩, silent⟩
  | loseNear => exact ⟨⟨wf, collects, outbound, flight⟩, silent⟩
  | tickNear ticked =>
    obtain ⟨outbound', _, queued, belongs⟩ := outbound.step (.inr ⟨_, rfl⟩) ticked.2
    exact ⟨⟨wf, collects, outbound', belongs_sent flight rfl queued belongs⟩, silent⟩
  | tickFar ticked =>
    rename_i near far far' toFar toNear now events
    have guided : Guided key payload offset far (.pollTimeouts now) := by
      intro _ _ _ asked
      cases asked
    exact ⟨⟨wf.step ticked.2, collects.step wf guided ticked.2, outbound, flight⟩,
      fun _ pgn source delivered reported => collects.completes wf guided ticked.2 reported⟩

theorem Intact.run
    (intact : Intact key payload s)
    (run : Run GuidedStep s history s') :
    Intact key payload s' ∧ ∀ pgn source delivered, .completed pgn source delivered ∈ farEvents history →
      (source, pgn) = key ∧ delivered = payload := by
  induction run with
  | nil => exact ⟨intact, nofun⟩
  | @snoc history middle call s' before last ih =>
    obtain ⟨intact, earlier⟩ := ih
    obtain ⟨intact', now⟩ := intact.step last
    refine ⟨intact', ?_⟩
    intro pgn source delivered reported
    rw [farEvents_snoc, mem_append] at reported
    rcases reported with reported | reported
    · exact earlier pgn source delivered reported
    · cases side : call.1.isFar with
      | true => exact now side pgn source delivered (by rwa [if_pos side] at reported)
      | false => simp [side] at reported

def HeadedStep (s : Link TpEngine TpOutFrame × Nat) (call : Action TpOutFrame Nat × List TpEvent)
    (s' : Link TpEngine TpOutFrame × Nat) : Prop :=
  Link.Step timed s.1 call s'.1 ∧ s'.2 = sentOffset s.2 call.1 ∧ ∀ f, call.1 = .loseFar f → f.offsetAfter s.2 = s.2

def Synced (s : Link TpEngine TpOutFrame × Nat) : Prop :=
  ∀ other r, s.1.far.inbound .etp other = some r → r.offset = s.2

theorem synced_start (blank : e.Blank) (near : TpEngine) (toFar toNear : List TpOutFrame) (offset : Nat) :
    Synced (⟨near, e, toFar, toNear⟩, offset) := by
  intro other r held
  simp [inbound, blank.etpRx] at held

theorem Synced.guided (synced : Synced s) (step : HeadedStep s call s') : GuidedStep s call s' := by
  refine ⟨step.1, step.2.1, ?_⟩
  rintro ⟨f, _, _, _, other, r, _, _, _, held, _, _, stale⟩
  exact stale (synced other r held)

theorem Synced.step (synced : Synced s) (intact : Intact key payload s) (step : HeadedStep s call s') : Synced s' := by
  have intact' := (intact.step (synced.guided step)).1
  obtain ⟨l, _⟩ := s
  obtain ⟨_, _⟩ := s'
  obtain ⟨step, rfl, kept⟩ := step
  cases step with
  | loseFar =>
    have same := kept _ rfl
    rw [Synced, sentOffset, same]
    exact synced
  | tickFar ticked => exact offset_kept intact.wf ticked.2 synced nofun nofun
  | @deliverFar near far far' f toFar toNear now events received =>
    obtain ⟨e₀, reordered, handled⟩ := received
    have taken : Step far (.frame f.decoded f.data.1 now, events) far' := ⟨e₀, reordered, handled⟩
    have fits := intact.flight.1
    cases rebased : f.rebase? with
    | none =>
      simp only [Synced, sentOffset, offsetAfter, rebased]
      refine offset_kept intact.wf taken synced ?_ ?_
      · rintro _ _ _ a frame announced
        cases frame
        exact (fits.announces a announced).2.2.2
      · rintro _ _ _ _ b frame named
        cases frame
        simp [rebase?, named] at rebased
    | some session =>
      obtain ⟨session, offset'⟩ := session
      obtain rfl := fits.rebases session offset' rebased
      obtain ⟨b, named, source, rfl⟩ := rebase?_some rebased
      intro other r held
      obtain ⟨_, rfl, _⟩ := intact'.collects .etp other r held
      simp only [sentOffset, offsetAfter, rebased]
      refine offset_rebased taken named ?_
      rw [source]
      exact held
  | _ => exact synced

theorem headed_run_guided
    (intact : Intact key payload s)
    (synced : Synced s)
    (run : Run HeadedStep s history s') : Run GuidedStep s history s' ∧ Synced s' := by
  induction run with
  | nil => exact ⟨.nil, synced⟩
  | snoc before last ih =>
    obtain ⟨guided, synced⟩ := ih
    exact ⟨.snoc guided (synced.guided last), synced.step (intact.run guided).1 last⟩

/-- The size an ETP.RTS announces is the size of the message, unless no receiver accepts it. -/
def Announceable (size : Nat) : Prop :=
  size < 2 ^ 32 ∨ ¬ (etpMinPayload ≤ size % 2 ^ 32 ∧ size % 2 ^ 32 ≤ etpProtocolMax)

theorem etpRtsFrame_fits (announceable : Announceable payload.length) (ourSa destSa priority : UInt8) (pgn : Pgn) : Fits
    (ourSa, pgn) payload 0 (etpRtsFrame ourSa destSa priority pgn payload.length) := by
  constructor
  · intro a announced
    have parsed := etpRtsFrame_parse ourSa destSa priority pgn payload.length
    have wire : (wireId etpCm priority ourSa destSa).pgn.value = etpCmPgn := rfl
    simp only [etpRtsFrame] at announced
    rw [cmFrame_decoded rfl, announcement, cmFrame_bytes] at announced
    dsimp only at announced
    rw [wire, parsed] at announced
    obtain ⟨p, accepted, rfl⟩ := Option.map_eq_some_iff.mp announced
    split at accepted
    · cases accepted
    · split at accepted
      · rename_i sized
        cases accepted
        refine ⟨rfl, rfl, ?_, rfl⟩
        rcases announceable with small | unsized
        · exact Nat.mod_eq_of_lt small
        · exact absurd sized unsized
      · cases accepted
  · intro kind seq rest data
    cases (etpCmFrame_dataKind _ _ _ _ _ _ _ _ _).symm.trans data
  · intro session offset' rebased
    cases (etpCmFrame_rebase? _ _ _ _ _ _ _ _ (by decide)).symm.trans rebased

theorem intact_start {e' sender : TpEngine} {pgn : Pgn} {priority ourSa destSa : UInt8} {start : Nat}
    {frames : List TpOutFrame}
    (blank : e.Blank)
    (blank' : e'.Blank)
    (empty : e.pendingOut = [])
    (opened : e.startOutboundEtp pgn priority ourSa destSa payload start = (.ok frames, sender))
    (announceable : Announceable payload.length)
    (wf : e'.WellFormed) :
    Intact (ourSa, pgn) payload (⟨sender, e', frames, []⟩, 0) := by
  simp only [startOutboundEtp] at opened
  split at opened
  · cases opened
  · rename_i sized
    cases opened
    refine ⟨wf, ?_, ⟨blank.txConn, ?_⟩, ?_⟩
    · intro kind other r held
      cases kind <;> simp [inbound, blank'.sessions, blank'.rxConn, blank'.etpRx] at held
    · have none : e.etpTx.Forall fun _ s => SendsOnly (ourSa, pgn) payload s := by
        rw [blank.etpTx]
        exact Table.forall_empty _
      exact none.insert ⟨rfl, rfl, _, _, OutboundEtpSession.opened_valid (not_not.mp sized) pgn priority ourSa destSa
        start⟩
    · rw [empty]
      exact ⟨etpRtsFrame_fits announceable _ _ _ _, trivial⟩

theorem step_timed
    (step : Link.Step (party may) l call l') : Link.Step timed l call l' := by
  cases step with
  | flushNear queued => exact .flushNear queued
  | flushFar queued => exact .flushFar queued
  | deliverFar received => exact .deliverFar received
  | deliverNear received => exact .deliverNear received
  | loseFar => exact .loseFar
  | loseNear => exact .loseNear
  | tickNear ticked => exact .tickNear ⟨trivial, ticked.2⟩
  | tickFar ticked => exact .tickFar ⟨trivial, ticked.2⟩

theorem headed_of_reliable
   (run : Run (ReliableStep (party may)) l history l')
    (offset : Nat) : ∃ offset', Run HeadedStep (l, offset) history (l', offset') := by
  induction run with
  | nil => exact ⟨offset, .nil⟩
  | @snoc history middle call l' before last ih =>
    obtain ⟨offset', headed⟩ := ih
    refine ⟨sentOffset offset' call.1, .snoc headed ⟨step_timed last.1, rfl, ?_⟩⟩
    rintro f lost
    cases lost ▸ last.2

theorem headed_of_kept (offset : Nat) (run : Run (Link.Step timed) l history l')
    (kept : ∀ call ∈ history, sentOffset offset call.1 = offset) : Run HeadedStep (l, offset) history (l', offset) := by
  induction run with
  | nil => exact .nil
  | snoc before last ih =>
    have same := kept _ (mem_append_right _ (mem_singleton_self _))
    refine .snoc (ih fun call member => kept call (mem_append_left _ member)) ⟨last, same.symm, ?_⟩
    rintro f lost
    rw [lost] at same
    exact same

/-- The receiver has just cleared packet `next`, under offset 0 as after a transfer whose DPOs were all lost. -/
structure Cleared {c : Extended} (v : c.View) (window : UInt8) (next : Nat) (l : Link TpEngine TpOutFrame) : Prop where
  sending : c.Sending l.near
  sent : l.near.pendingOut = []
  expects : v.Expects next 0 0 l.far
  windowed : l.far.ctsWindow = window
  granted : l.far.pendingOut = [c.clear window next]
  toFar : l.toFar = []
  toNear : l.toNear = []

theorem Cleared.round {v : c.View} {next seq p : Nat}
    (cleared : Cleared v window next l)
    (delivers : v.Delivers next 0 seq p)
    (member : c.frame seq p ∈ c.burst window next)
    (more : next < c.packets) :
    ∃ history l', Run (Link.Step timed) l history l' ∧ farEvents history = [] ∧ Cleared v window (next + 1) l' ∧
      (∀ f ∈ c.burst window next, f = c.frame seq p ∨ (.loseFar f, []) ∈ history) ∧
      ∀ offset, (∀ f ∈ c.burst window next, f.offsetAfter offset = offset) →
      ∀ call ∈ history, sentOffset offset call.1 = offset := by
  obtain ⟨before, after, burst⟩ := append_of_mem member
  obtain ⟨near, far, _, _⟩ := l
  obtain ⟨⟨_, sender⟩, sent, ⟨_, receiver⟩, rfl, granted, rfl, rfl⟩ := cleared
  have answered : near.onFrame (c.clear far.ctsWindow next).decoded (c.clear far.ctsWindow next).data.1 0 = _ :=
    c.onFrame_clear sender.etpTx delivers.positive delivers.inside 0
  have taken := Extended.View.onFrame_taken (e := { far with pendingOut := [] }) receiver.etpRx delivers 0
  rw [sent, burst] at answered
  rw [if_neg (by omega)] at taken
  have flushFar : Link.Step timed ⟨near, far, [], []⟩ (.flushFar, [])
      ⟨near, { far with pendingOut := [] }, [], far.pendingOut⟩ := .flushFar (by
    show far.pendingOut ≠ []
    rw [granted]
    exact cons_ne_nil _ _)
  rw [granted] at flushFar
  have deliverNear : Link.Step timed ⟨near, { far with pendingOut := [] }, [], [c.clear far.ctsWindow next]⟩ _ _ :=
    .deliverNear ⟨near, .refl near, answered⟩
  let near' := { near with etpTx := AList.singleton (c.destSa, c.pgn) (c.outbound 0), pendingOut := [] }
  have flushNear : Link.Step timed ⟨{ near' with pendingOut := before ++ c.frame seq p :: after },
      { far with pendingOut := [] }, [], []⟩ (.flushNear, []) ⟨near', { far with pendingOut := [] },
        before ++ c.frame seq p :: after, []⟩ :=
    .flushNear (append_ne_nil_of_right_ne_nil before (cons_ne_nil _ _))
  have loses := loses_far timed near' { far with pendingOut := [] } before (c.frame seq p :: after) []
  have deliverFar : Link.Step timed ⟨near', { far with pendingOut := [] }, c.frame seq p :: after, []⟩ _ _ :=
    .deliverFar ⟨_, .refl _, taken⟩
  have loses' (far' : TpEngine) := loses_far timed near' far' after [] []
  simp only [append_nil] at loses'
  refine ⟨_, _, ((((Run.snoc .nil flushFar).snoc deliverNear).snoc flushNear).trans loses).snoc deliverFar |>.trans
    (loses' _), ?_, ?_, ?_, ?_⟩
  · simp only [farEvents_append, farEvents_lost, append_nil]
    rfl
  · exact ⟨⟨0, { sender with etpTx := rfl }⟩, rfl, ⟨0, { receiver with etpRx := rfl }⟩, rfl, rfl, rfl, rfl⟩
  · rw [burst]
    intro f sent
    rcases mem_append.mp sent with early | late
    · exact .inr (by simp [early])
    · rcases mem_cons.mp late with own | late
      · exact .inl own
      · exact .inr (by simp [late])
  · rw [burst]
    intro offset kept call member
    simp only [nil_append, mem_append, mem_cons, mem_map, not_mem_nil, or_false] at member
    rcases member with ((((rfl | rfl) | rfl) | ⟨f, lost, rfl⟩) | rfl) | ⟨f, lost, rfl⟩
    · rfl
    · rfl
    · rfl
    · exact kept f (mem_append_left _ lost)
    · exact kept _ (mem_append_right _ mem_cons_self)
    · exact kept f (mem_append_right _ (mem_cons_of_mem _ lost))

theorem Cleared.at_ {v : c.View} {next : Nat}
    (cleared : Cleared v window next l)
    (after : v.skip < next)
    (inside : next ≤ c.packets) :
    (v.transfer window).At (3 * (c.packets + 1 - next) + 1) l [] := by
  obtain ⟨near, far, _, _⟩ := l
  obtain ⟨sending, sent, expects, windowed, granted, rfl, rfl⟩ := cleared
  have forward : forward (party Unexpired) ⟨near, far, [], []⟩ = [] := sent
  have backward : backward (party Unexpired) ⟨near, far, [], []⟩ = [c.clear window next] := granted
  rw [BurstTransfer.At, forward, backward]
  exact .clearing (B := v.transfer window) (i := ⟨next, after, inside⟩) sending ⟨windowed, .inl ⟨rfl, 0, 0, expects⟩⟩

theorem requested_cleared (v : c.View) {e' : TpEngine}
    (sending : c.Sending e)
    (waiting : c.whole.Waiting window e')
    (empty : e.pendingOut = [])
    (empty' : e'.pendingOut = []) :
    ∃ l, Link.Step timed ⟨e, e', [c.request], []⟩ (.deliverFar c.request 0, []) l ∧ Cleared v window 1 l := by
  obtain ⟨_, blank, rfl, room, fits⟩ := waiting
  have opened := c.onFrame_request blank room fits 0
  rw [empty'] at opened
  exact ⟨_, .deliverFar ⟨e', .refl e', opened⟩, sending, empty, ⟨0, { blank with etpRx := rfl }⟩, rfl, rfl, rfl, rfl⟩

theorem frame_mem_burst {k j : Nat}
    (inside : k + j ≤ c.packets)
    (small : j < window.toNat) :
    c.frame (j + 1) (k + j) ∈ c.burst window k := by
  have byte := window.toNat_lt
  refine mem_cons_of_mem _ (mem_map.mpr ⟨j, mem_range'_1.mpr ⟨Nat.zero_le j, ?_⟩, rfl⟩)
  simp only [Extended.granted, etpGrant]
  omega

theorem resent_burst_delivers {e' : TpEngine}
    (wide : 2 ≤ window.toNat)
    (more : 2 ≤ c.packets)
    (sending : c.Sending e)
    (waiting : c.whole.Waiting window e')
    (empty : e.pendingOut = [])
    (empty' : e'.pendingOut = []) :
    ∃ history l offset, Run HeadedStep (⟨e, e', [c.request], []⟩, 0) history (l, offset) ∧
      (.loseFar (c.frame 2 2), []) ∈ history ∧ farEvents history = [.completed c.pgn c.ourSa c.payload] := by
  obtain ⟨_, request, cleared⟩ := requested_cleared c.whole sending waiting empty empty'
  obtain ⟨round, l, run, silent, cleared, lost, kept⟩ :=
    cleared.round ⟨by omega, by omega, rfl, by omega, rfl⟩ (frame_mem_burst (j := 0) (by omega) (by omega)) (by omega)
  have keeps : ∀ f ∈ c.burst window 1, f.offsetAfter 0 = 0 := by
    intro f sent
    rcases mem_cons.mp sent with rfl | sent
    · rw [Extended.header, offsetAfter, etpDpoFrame_rebase? _ _ _ _ _ (by decide)]
      rfl
    · obtain ⟨j, _, rfl⟩ := mem_map.mp sent
      rw [Extended.frame, offsetAfter, dtFrame_rebase?]
      rfl
  have asked : sentOffset 0 (.deliverFar c.request 0) = 0 := by
    rw [sentOffset, offsetAfter, Extended.request, etpRtsFrame, etpCmFrame_rebase? _ _ _ _ _ _ _ _ (by decide)]
    rfl
  have start := headed_of_kept 0 ((Run.snoc .nil request).trans run) (by
    intro call member
    rcases mem_append.mp member with first | later
    · rw [mem_singleton.mp first]
      exact asked
    · exact kept 0 keeps call later)
  have resumed : (c.whole.transfer window).At _ l [] := cleared.at_ (by show 0 < 2; decide) more
  obtain ⟨rest, l', run', quiescent⟩ := resumed.completes (party_total _)
  obtain ⟨_, _, _, _, _, ends⟩ := resumed.every_run_completes (party_total _) run'
  obtain ⟨offset, headed⟩ := headed_of_reliable run' 0
  refine ⟨_, l', offset, start.trans headed, ?_, ?_⟩
  · rcases lost _ (frame_mem_burst (k := 1) (j := 1) (by omega) (by omega)) with same | lost
    · have first := congrArg (fun f => f.data.1.head?) same
      cases (show some (2 : UInt8) = some 1 from first)
    · exact mem_append_left _ (mem_append_right _ lost)
  · simp only [farEvents_append, silent, (ends quiescent).1]
    rfl

/-- With two lost bursts of which one frame each arrives, packet 3 is delivered in the place of packet 2. -/
theorem stale_offset_misplaces (v : c.View) {e' : TpEngine}
    (skip : v.skip = 2)
    (first : packet tpDtDataLen c.payload 1 = packet tpDtDataLen v.bytes 1)
    (second : packet tpDtDataLen c.payload 3 = packet tpDtDataLen v.bytes 2)
    (wide : 2 ≤ window.toNat)
    (sending : c.Sending e)
    (waiting : c.whole.Waiting window e')
    (empty : e.pendingOut = [])
    (empty' : e'.pendingOut = []) :
    ∃ history l, Run (Link.Step timed) ⟨e, e', [c.request], []⟩ history l ∧
      farEvents history = [.completed c.pgn c.ourSa v.bytes] := by
  have inside : 2 < c.packets := skip ▸ v.inside
  obtain ⟨_, request, cleared⟩ := requested_cleared v sending waiting empty empty'
  obtain ⟨_, l, run, silent, cleared, _⟩ :=
    cleared.round ⟨by omega, by omega, rfl, by omega, first⟩ (frame_mem_burst (j := 0) (by omega) (by omega)) (by omega)
  obtain ⟨_, l', run', silent', cleared, _⟩ :=
    cleared.round ⟨by omega, by omega, rfl, by omega, second⟩ (frame_mem_burst (j := 1) (by omega) (by omega)) inside
  have resumed : (v.transfer window).At _ l' [] := cleared.at_ (by omega) (by omega)
  obtain ⟨_, l'', run'', quiescent⟩ := resumed.completes (party_total _)
  obtain ⟨_, _, _, _, _, ends⟩ := resumed.every_run_completes (party_total _) run''
  refine ⟨_, l'', (((Run.snoc .nil request).trans run).trans run').trans (run''.mono fun _ _ _ step =>
    step_timed step.1), ?_⟩
  simp only [farEvents_append, silent, silent', append_nil, (ends quiescent).1]
  rfl

variable (second : UInt8)

def striped : List UInt8 :=
  List.replicate 7 0 ++ List.replicate 7 second ++ List.replicate 1772 1

theorem striped_length : (striped second).length = 1786 := by
  simp only [striped, length_append, length_replicate]

def stripedMessage (pgn : Pgn) : Extended where
  pgn := pgn
  priority := 6
  ourSa := 0x10
  destSa := 0x20
  payload := striped second
  specific := by decide
  sized := by
    rw [striped_length]
    decide

theorem stripedMessage_packets (pgn : Pgn) : (stripedMessage second pgn).packets = 256 := by
  show packetsFor (striped second).length = 256
  rw [striped_length]
  decide

theorem stripedMessage_fits (pgn : Pgn) (window : UInt8) :
    (stripedMessage second pgn).payload.length ≤ (configured ⟨750, 1250, 1250⟩ 1 window 0).maxEtpBytes := by
  show (striped second).length ≤ (configured ⟨750, 1250, 1250⟩ 1 1 0).maxEtpBytes
  rw [striped_length]
  decide

theorem striped_drop : (striped second).drop (2 * tpDtDataLen) = List.replicate 1772 1 := by
  have start : (replicate 7 0 ++ replicate 7 second).length = 2 * tpDtDataLen := rfl
  rw [striped, ← start, drop_left]

theorem striped_packets : packet tpDtDataLen (striped second) 1 = List.replicate 7 0 ∧
      packet tpDtDataLen (striped second) 2 = List.replicate 7 second ∧
      packet tpDtDataLen (striped second) 3 = List.replicate 7 1 := by
  have third : packet tpDtDataLen (striped second) 3 = replicate 7 1 := by
    rfl
  refine ⟨?_, ?_, third⟩
  all_goals
    rfl

/-- However frames are lost, only the message is delivered, if no data frame is taken under an earlier offset. -/
theorem lossy_transfer_delivers (timers timers' : TpTimers) (maxSessions maxSessions' : Nat) (window window' : UInt8)
    (limit limit' : Nat) (pgn : Pgn) (priority ourSa destSa : UInt8) (payload : List UInt8) (start : Nat)
    (frames : List TpOutFrame) (sender : TpEngine)
    (opened : (configured timers maxSessions window limit).startOutboundEtp pgn priority ourSa destSa payload start =
      (.ok frames, sender))
    (announceable : Announceable payload.length)
    (history : List (Action TpOutFrame Nat × List TpEvent)) (l : Link TpEngine TpOutFrame) (offset : Nat)
    (run : Run GuidedStep (⟨sender, configured timers' maxSessions' window' limit', frames, []⟩, 0) history
      (l, offset))
    (pgn' : Pgn) (source : UInt8) (delivered : List UInt8)
    (reported : .completed pgn' source delivered ∈ farEvents history) :
    pgn' = pgn ∧ source = ourSa ∧ delivered = payload := by
  have intact := intact_start (configured_blank _ _ _ _) (configured_blank timers' maxSessions' window' limit') rfl
    opened announceable (configured_wellFormed _ _ _ _)
  obtain ⟨_, completes⟩ := intact.run run
  obtain ⟨same, rfl⟩ := completes pgn' source delivered reported
  cases same
  exact ⟨rfl, rfl, rfl⟩

/-- A data frame of the first burst is lost and comes again with the second. -/
theorem lossy_transfer_delivers_resent :
    ∃ frames sender history l offset f delivered,
      (configured ⟨750, 1250, 1250⟩ 1 16 0).startOutboundEtp ⟨61184, by decide⟩ 6 0x10 0x20 (striped 1) 0 =
        (.ok frames, sender) ∧
      Run GuidedStep (⟨sender, configured ⟨750, 1250, 1250⟩ 1 2 0, frames, []⟩, 0) history (l, offset) ∧
      (.loseFar f, []) ∈ history ∧ dataKind f.decoded = some .etp ∧
      .completed ⟨61184, by decide⟩ 0x10 delivered ∈ farEvents history ∧ delivered = striped 1 := by
  let c := stripedMessage 1 ⟨61184, by decide⟩
  have opened := c.started (configured_blank ⟨750, 1250, 1250⟩ 1 16 0) (stripedMessage_fits 1 _ 16) 0
  have announceable : Announceable c.payload.length := by
    show Announceable (striped 1).length
    rw [striped_length]
    exact .inl (by decide)
  have sending : c.Sending { configured ⟨750, 1250, 1250⟩ 1 16 0 with
      etpTx := AList.singleton (c.destSa, c.pgn) (c.outbound 0) } := ⟨0, rfl, rfl, rfl, rfl, rfl⟩
  obtain ⟨history, l, offset, headed, lost, delivered⟩ := resent_burst_delivers (by decide)
    (by rw [stripedMessage_packets]; decide) sending
    (c.configured_waiting ⟨750, 1250, 1250⟩ 1 2 (stripedMessage_fits 1 _ 2)) rfl rfl
  have intact := intact_start (configured_blank _ _ _ _) (configured_blank ⟨750, 1250, 1250⟩ 1 2 0) rfl opened
    announceable (configured_wellFormed _ _ _ _)
  have guided := (headed_run_guided intact (synced_start (configured_blank _ _ _ _) _ _ _ _) headed).1
  have reported : TpEvent.completed ⟨61184, by decide⟩ 0x10 (striped 1) ∈ farEvents history := by
    rw [delivered]
    exact mem_singleton_self _
  refine ⟨_, _, history, l, offset, _, _, opened, guided, lost, ?_, reported, ?_⟩
  · rw [Extended.frame, dtFrame_decoded rfl, dataKind_etpDt]
  · exact (lossy_transfer_delivers ⟨750, 1250, 1250⟩ ⟨750, 1250, 1250⟩ 1 1 16 2 0 0 ⟨61184, by decide⟩ 6 0x10 0x20
      (striped 1) 0 _ _ opened announceable history l offset guided _ _ _ reported).2.2

/-- A message whose second packet is all zeros arrives with a second packet of ones. -/
theorem stale_offset_delivers_corrupted :
    ∃ (frames : List TpOutFrame) (sender : TpEngine) (history : List (Action TpOutFrame Nat × List TpEvent))
      (l : Link TpEngine TpOutFrame),
      (configured ⟨750, 1250, 1250⟩ 1 16 0).startOutboundEtp ⟨61184, by decide⟩ 6 0x10 0x20 (striped 0) 0 =
        (.ok frames, sender) ∧
      Run (Link.Step timed) ⟨sender, configured ⟨750, 1250, 1250⟩ 1 2 0, frames, []⟩ history l ∧
      farEvents history = [.completed ⟨61184, by decide⟩ 0x10 (striped 1)] ∧ striped 1 ≠ striped 0 := by
  let c := stripedMessage 0 ⟨61184, by decide⟩
  obtain ⟨first, second, third⟩ := striped_packets 0
  obtain ⟨first', second', _⟩ := striped_packets 1
  let v : c.View :=
    ⟨striped 1, 2, (striped_length 1).trans (striped_length 0).symm, by rw [stripedMessage_packets]; decide,
      (striped_drop 1).trans (striped_drop 0).symm⟩
  have opened := c.started (configured_blank ⟨750, 1250, 1250⟩ 1 16 0) (stripedMessage_fits 0 _ 16) 0
  have sending : c.Sending { configured ⟨750, 1250, 1250⟩ 1 16 0 with
      etpTx := AList.singleton (c.destSa, c.pgn) (c.outbound 0) } := ⟨0, rfl, rfl, rfl, rfl, rfl⟩
  obtain ⟨history, l, run, delivered⟩ :=
    stale_offset_misplaces v rfl (first.trans first'.symm) (third.trans second'.symm)
      (by decide) sending (c.configured_waiting ⟨750, 1250, 1250⟩ 1 2 (stripedMessage_fits 0 _ 2)) rfl rfl
  refine ⟨_, _, history, l, opened, run, delivered, ?_⟩
  intro same
  rw [same] at second'
  exact absurd second' (by decide)

end Wires

end TpEngine

end Taktora.J1939
