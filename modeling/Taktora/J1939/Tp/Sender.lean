import Taktora.J1939.Tp.Segment

namespace Taktora.J1939

open Checked Packets LittleEndian List Option OutboundEtpSession

def TpOutFrame.dpoOffset? (f : TpOutFrame) : Option Nat :=
  match CmBytes.ofData f.data.1 with
  | none => none
  | some b => if f.wirePgn = etpCm ∧ b.b0 = etpDpoControl then some (u24From b) else none

def dataPackets (offset : Nat) : List TpOutFrame → List (Nat × TpOutFrame)
  | [] => []
  | f :: rest =>
    if f.wirePgn = dtPgn then (f.data.head.toNat, f) :: dataPackets offset rest
    else if f.wirePgn = etpDt then (offset + f.data.head.toNat, f) :: dataPackets offset rest
    else dataPackets (f.dpoOffset?.getD offset) rest

structure PacketRequest where
  payload : List UInt8
  totalPackets : Nat
  first : Nat

def TpEngine.packetRequest (e : TpEngine) (decoded : DecodedId) (data : List UInt8) : Option PacketRequest :=
  match control decoded data with
  | some (.cts, pgn, b) =>
    (e.txConn.lookup (decoded.sourceAddr, pgn)).map fun s => ⟨s.payload, s.totalPackets, b.b2.toNat⟩
  | some (.etpCts, pgn, b) =>
    (e.etpTx.lookup (decoded.sourceAddr, pgn)).map fun s => ⟨s.payload, s.totalPackets, u24From b⟩
  | _ => none

/-- The frame is handled without a panic, and every data frame it queues is a packet of the requested message. -/
def TpEngine.AnswersSafely (e : TpEngine) (decoded : DecodedId) (data : List UInt8) (now : Nat) : Prop :=
  ∃ events e' queued, e.onFrame decoded data now = .ok (events, e') ∧ e'.pendingOut = e.pendingOut ++ queued ∧
    ∀ p f, (p, f) ∈ dataPackets 0 queued → ∃ request, e.packetRequest decoded data = some request ∧
      request.first ≤ request.totalPackets ∧ 1 ≤ p ∧ p ≤ request.totalPackets ∧
      f.data.tail.1 = padded tpDtDataLen 0xFF (packet tpDtDataLen request.payload p)

def TpEngine.RequestedBeyondEnd (e : TpEngine) (decoded : DecodedId) (data : List UInt8) : Prop :=
  ∃ pgn b s, control decoded data = some (.etpCts, pgn, b) ∧ e.etpTx.lookup (decoded.sourceAddr, pgn) = some s ∧
    b.b1 ≠ 0 ∧ s.totalPackets < u24From b

theorem dataPackets_dt (offset : Nat) (s : OutboundConnSession) (ps : List Nat) :
    dataPackets offset (ps.map s.packetFrame) = ps.map fun p => ((UInt8.ofNat p).toNat, s.packetFrame p) := by
  induction ps with
  | nil => rfl
  | cons p ps ih =>
    have wire : (s.packetFrame p).wirePgn = dtPgn := rfl
    rw [map_cons, dataPackets, ih]
    rfl

theorem dataPackets_etp (offset : Nat) (s : OutboundEtpSession) (packetAt : Nat → Nat) (js : List Nat) :
    dataPackets offset (js.map fun j => s.packetFrame (j + 1) (packetAt j)) =
      js.map fun j => (offset + (UInt8.ofNat (j + 1)).toNat, s.packetFrame (j + 1) (packetAt j)) := by
  induction js with
  | nil => rfl
  | cons j js ih =>
    have wire : (s.packetFrame (j + 1) (packetAt j)).wirePgn = etpDt := rfl
    rw [map_cons, dataPackets, wire, ih]
    rfl

theorem etpDpoFrame_offset (ourSa destSa priority : UInt8) (pgn : Pgn) (count offset : Nat)
    (small : offset < 16777216) : (etpDpoFrame ourSa destSa priority pgn count offset).dpoOffset? = some offset := by
  have joined := join3_byteAt offset
  rw [Nat.mod_eq_of_lt small] at joined
  exact congrArg some joined

theorem dataPackets_burst (s : OutboundEtpSession) {next count : Nat}
    (positive : 1 ≤ next)
    (small : next < 16777216)
    (byte : count ≤ 255) :
    dataPackets 0 (s.burst next count) = (List.range count).map fun j =>
      (next + j, s.packetFrame (j + 1) (next + j)) := by
  have offset := etpDpoFrame_offset s.ourSa s.destSa s.priority s.transportedPgn count (next - 1) (by omega)
  have wire : (etpDpoFrame s.ourSa s.destSa s.priority s.transportedPgn count (next - 1)).wirePgn = etpCm := rfl
  rw [burst, dataPackets, wire, if_neg (by decide), if_neg (by decide), offset, getD_some,
    dataPackets_etp]
  refine map_congr_left fun j member => ?_
  have bound := mem_range.mp member
  rw [ofNat_toNat (by omega)]
  exact congrArg (·, _) (by omega)

theorem OutboundConnSession.Valid.touch {key : Key} {s : OutboundConnSession} (valid : s.Valid key) (now : Nat) :
    (s.touch now).Valid key := { valid with }

theorem OutboundEtpSession.Valid.touch {limit : Nat} {key : Key} {s : OutboundEtpSession} (valid : s.Valid limit key)
    (now : Nat) : (s.touch now).Valid limit key := { valid with }

namespace TpEngine

variable {e : TpEngine} {decoded : DecodedId} {data : List UInt8} {b : CmBytes} {now : Nat}

theorem onFrame_cts
    (cm : decoded.pgn.value = tpCmPgn)
    (bytes : CmBytes.ofData data = some b)
    (cts : b.b0 = ctsControl) :
    e.onFrame decoded data now = e.onCts decoded b now := by
  rw [onFrame, if_pos cm, onCm, bytes]
  simp only [cts]
  rfl

theorem onFrame_etpCts
    (cm : decoded.pgn.value = etpCmPgn)
    (bytes : CmBytes.ofData data = some b)
    (cts : b.b0 = etpCtsControl) :
    e.onFrame decoded data now = e.onEtpCts decoded b now := by
  rw [onFrame, cm, onEtpCm, bytes]
  simp only [cts]
  rfl

theorem onCts_asked {pgn : Pgn} {s : OutboundConnSession} (parsed : Pgn.new (transportedPgnFrom b) = .ok pgn)
    (found : e.txConn.lookup (decoded.sourceAddr, pgn) = some s) (asked : b.b1 ≠ 0) :
    e.onCts decoded b now = (buildDtBurst (s.touch now) b.b2.toNat b.b1.toNat >>= fun burst =>
      .ok ([], { e with
        txConn := e.txConn.insert (decoded.sourceAddr, pgn) (s.touch now)
        pendingOut := e.pendingOut ++ burst })) := by
  simp only [onCts, parsed, found, asked, ite_false]
  rfl

theorem onEtpCts_asked {pgn : Pgn} {s : OutboundEtpSession} (parsed : Pgn.new (transportedPgnFrom b) = .ok pgn)
    (found : e.etpTx.lookup (decoded.sourceAddr, pgn) = some s) (asked : ¬ (b.b1 = 0 ∨ u24From b = 0)) :
    e.onEtpCts decoded b now = (buildEtpBurst (s.touch now) (u24From b) b.b1.toNat >>= fun burst =>
      .ok ([], { e with
        etpTx := e.etpTx.insert (decoded.sourceAddr, pgn) (s.touch now)
        pendingOut := e.pendingOut ++ burst })) := by
  simp only [onEtpCts, parsed, found, asked, ite_false]
  rfl

theorem answersSafely_silent {e' : TpEngine} {events : List TpEvent}
    (handled : e.onFrame decoded data now = .ok (events, e'))
    (queued : e'.pendingOut = e.pendingOut) : e.AnswersSafely decoded data now :=
  ⟨events, e', [], handled, by rw [queued, append_nil], fun _ _ member => nomatch member⟩

theorem cts_answersSafely
    (wf : e.WellFormed)
    (cm : decoded.pgn.value = tpCmPgn)
    (bytes : CmBytes.ofData data = some b)
    (cts : b.b0 = ctsControl) : e.AnswersSafely decoded data now := by
  have handled : e.onFrame decoded data now = _ := onFrame_cts cm bytes cts
  cases parsed : Pgn.new (transportedPgnFrom b) with
  | error error => simp only [onCts, parsed] at handled; exact answersSafely_silent handled rfl
  | ok pgn =>
    cases found : e.txConn.lookup (decoded.sourceAddr, pgn) with
    | none => simp only [onCts, parsed, found] at handled; exact answersSafely_silent handled rfl
    | some s =>
      by_cases held : b.b1 = 0
      · simp only [onCts, parsed, found, held, ite_true] at handled; exact answersSafely_silent handled rfl
      rw [onCts_asked parsed found held] at handled
      by_cases zero : b.b2.toNat = 0
      · rw [zero, buildDtBurst_zero] at handled
        exact answersSafely_silent handled (append_nil _)
      have valid := wf.tx _ _ found
      have small := packetsFor_tp valid.sized.2
      rw [← valid.packets] at small
      have byte := b.b2.toNat_lt
      rw [buildDtBurst_eq (valid.touch now) (by omega) (by omega)] at handled
      have named := control_complete bytes (c := .cts) cm cts parsed
      have request : e.packetRequest decoded data = some ⟨s.payload, s.totalPackets, b.b2.toNat⟩ := by
        simp only [packetRequest, named, found, map_some]
      refine ⟨_, _, _, handled, rfl, fun p f member => ⟨_, request, ?_⟩⟩
      rw [dataPackets_dt] at member
      obtain ⟨seq, inside, same⟩ := mem_map.mp member
      cases same
      rw [mem_range'_1] at inside
      simp only [OutboundConnSession.touch] at inside
      rw [ofNat_toNat (by omega)]
      exact ⟨by dsimp only; omega, by omega, by dsimp only; omega, rfl⟩

theorem etpCts_answersSafely
    (wf : e.WellFormed)
    (cm : decoded.pgn.value = etpCmPgn)
    (bytes : CmBytes.ofData data = some b)
    (cts : b.b0 = etpCtsControl)
    (inside : ¬ e.RequestedBeyondEnd decoded data) : e.AnswersSafely decoded data now := by
  have handled : e.onFrame decoded data now = _ := onFrame_etpCts cm bytes cts
  cases parsed : Pgn.new (transportedPgnFrom b) with
  | error error => simp only [onEtpCts, parsed] at handled; exact answersSafely_silent handled rfl
  | ok pgn =>
    cases found : e.etpTx.lookup (decoded.sourceAddr, pgn) with
    | none => simp only [onEtpCts, parsed, found] at handled; exact answersSafely_silent handled rfl
    | some s =>
      by_cases held : b.b1 = 0 ∨ u24From b = 0
      · simp only [onEtpCts, parsed, found, held, ite_true] at handled; exact answersSafely_silent handled rfl
      have named := control_complete bytes (c := .etpCts) cm cts parsed
      have request : e.packetRequest decoded data = some ⟨s.payload, s.totalPackets, u24From b⟩ := by
        simp only [packetRequest, named, found, map_some]
      rw [onEtpCts_asked parsed found held] at handled
      obtain ⟨asked, _⟩ := not_or.mp held
      have last : u24From b ≤ s.totalPackets :=
        Nat.le_of_not_lt fun beyond => inside ⟨pgn, b, s, named, found, asked, beyond⟩
      have small : u24From b < 16777216 := join3_lt _ _ _
      have byte := b.b1.toNat_lt
      have count : 1 ≤ b.b1.toNat := Nat.pos_of_ne_zero fun zero => asked (UInt8.toNat_inj.mp zero)
      rw [buildEtpBurst_eq ((wf.etpTx _ _ found).touch now) (by omega) last small count (by omega)] at handled
      refine ⟨_, _, _, handled, rfl, fun p f member => ⟨_, request, last, ?_⟩⟩
      rw [dataPackets_burst _ (by omega) small (by omega)] at member
      obtain ⟨j, bound, same⟩ := mem_map.mp member
      cases same
      have bound := mem_range.mp bound
      simp only [touch] at bound
      exact ⟨by omega, by dsimp only; omega, rfl⟩

theorem onFrame_beyond_end {pgn : Pgn} {s : OutboundEtpSession} (named : control decoded data = some (.etpCts, pgn, b))
    (found : e.etpTx.lookup (decoded.sourceAddr, pgn) = some s) (asked : b.b1 ≠ 0)
      (beyond : s.totalPackets < u24From b) :
    e.onFrame decoded data now =
      if (u24From b - 1) * tpDtDataLen ≤ s.payload.length then
        .ok ([], { e with
          etpTx := e.etpTx.insert (decoded.sourceAddr, pgn) (s.touch now)
          pendingOut := e.pendingOut ++ (s.touch now).burst (u24From b) 1 })
      else .error .overflow := by
  obtain ⟨cm, bytes, cts, parsed⟩ := control_sound named
  have small : u24From b < 16777216 := join3_lt _ _ _
  rw [onFrame_etpCts cm bytes cts, onEtpCts_asked parsed found (not_or.mpr ⟨asked, by omega⟩),
    buildEtpBurst_beyond (s := s.touch now) beyond small]
  change (if (u24From b - 1) * tpDtDataLen ≤ s.payload.length then _ else _) >>= _ = _
  split <;> rfl

theorem requestedBeyondEnd_unsafe
    (beyond : e.RequestedBeyondEnd decoded data) : ¬ e.AnswersSafely decoded data now := by
  obtain ⟨_, b, s, named, found, asked, beyond⟩ := beyond
  rintro ⟨_, _, _, handled, appended, safe⟩
  have small : u24From b < 16777216 := join3_lt _ _ _
  rw [onFrame_beyond_end named found asked beyond] at handled
  split at handled
  · cases handled
    obtain rfl := append_cancel_left appended
    have member : (u24From b, (s.touch now).packetFrame 1 (u24From b)) ∈ dataPackets 0
        ((s.touch now).burst (u24From b) 1) := by
      rw [dataPackets_burst _ (by omega) small (by omega)]
      exact mem_singleton_self _
    obtain ⟨_, requested, _, _, last, _⟩ := safe _ _ member
    simp only [packetRequest, named, found, map_some] at requested
    cases requested
    exact absurd last (not_le.mpr beyond)
  · cases handled

theorem ofData_of_length (length : data.length = 8) : ∃ b, CmBytes.ofData data = some b ∧ data.head? = some b.b0 := by
  match data, length with
  | [b0, b1, b2, b3, b4, b5, b6, b7], _ => exact ⟨⟨b0, b1, b2, b3, b4, b5, b6, b7⟩, rfl, rfl⟩

/-- A clear-to-send frame is answered safely unless an ETP.CTS asks for a packet after the last one. -/
theorem cts_answered_safely_iff (timers : TpTimers) (maxSessions : Nat) (window : UInt8) (limit : Nat)
    (history : List (TpInput × List TpEvent)) (e e₀ : TpEngine)
    (run : Run Step (configured timers maxSessions window limit) history e)
    (reordered : e.Reordered e₀)
    (decoded : DecodedId) (data : List UInt8) (now : Nat)
    (length : data.length = 8)
    (cts : decoded.pgn = cmPgn ∧ data.head? = some ctsControl ∨ decoded.pgn = etpCm ∧ data.head? = some etpCtsControl) :
    e₀.AnswersSafely decoded data now ↔ ¬ e₀.RequestedBeyondEnd decoded data := by
  have wf := (run_wellFormed (configured_wellFormed timers maxSessions window limit) run).reordered reordered
  obtain ⟨b, bytes, first⟩ := ofData_of_length length
  constructor
  · intro safe beyond
    exact requestedBeyondEnd_unsafe beyond safe
  · intro inside
    rw [first, some_inj, some_inj] at cts
    rcases cts with ⟨cm, code⟩ | ⟨cm, code⟩
    · exact cts_answersSafely wf (congrArg Pgn.value cm) bytes code
    · exact etpCts_answersSafely wf (congrArg Pgn.value cm) bytes code inside

theorem replicate_etp_size : etpMinPayload ≤ (List.replicate 1786 (0 : UInt8)).length ∧
    (List.replicate 1786 (0 : UInt8)).length ≤ (configured ⟨750, 1250, 1250⟩ 4 16 0).maxEtpBytes := by
  rw [length_replicate]
  decide

theorem cts_answered_safely_iff_first_burst : ∃ e, Run Step (configured ⟨750, 1250, 1250⟩ 4 16 0)
        [(.startEtp ⟨61184, by decide⟩ 6 0x10 0x20 (List.replicate 1786 0) 0, [])] e ∧
      e.AnswersSafely (decodeExtendedId 0x18C81020) [0x15, 16, 1, 0, 0, 0x00, 0xEF, 0x00] 1 := by
  have run : Run Step (configured ⟨750, 1250, 1250⟩ 4 16 0) _ _ :=
    .snoc .nil (Step.of_handle (handle_startEtp _ replicate_etp_size ⟨61184, by decide⟩ 6 0x10 0x20 0))
  refine ⟨_, run, (cts_answered_safely_iff _ _ _ _ _ _ _ run (.refl _) _ _ _ rfl (.inr ⟨rfl, rfl⟩)).mpr ?_⟩
  rintro ⟨pgn, b, s, named, found, asked, beyond⟩
  have named : some (Control.etpCts, (⟨61184, by decide⟩ : Pgn), CmBytes.mk 0x15 16 1 0 0 0x00 0xEF 0x00) =
    some (.etpCts, pgn, b) := named
  cases named
  cases (AList.lookup_insert _).symm.trans found
  rw [opened, length_replicate] at beyond
  revert beyond
  decide

/-- A 1786-byte transfer has 256 packets. Asked for packet 257, the sender panics. -/
theorem etpCts_beyond_end_panics : ∃ e, Run Step (configured ⟨750, 1250, 1250⟩ 4 16 0)
        [(.startEtp ⟨61184, by decide⟩ 6 0x10 0x20 (List.replicate 1786 0) 0, [])] e ∧
      e.onFrame (decodeExtendedId 0x18C81020) [0x15, 1, 1, 1, 0, 0x00, 0xEF, 0x00] 1 = .error .overflow ∧
      ¬ e.AnswersSafely (decodeExtendedId 0x18C81020) [0x15, 1, 1, 1, 0, 0x00, 0xEF, 0x00] 1 := by
  refine ⟨_, .snoc .nil (Step.of_handle (handle_startEtp _ replicate_etp_size _ _ _ _ _)), ?_⟩
  have named : control (decodeExtendedId 0x18C81020) [0x15, 1, 1, 1, 0, 0x00, 0xEF, 0x00] =
    some (.etpCts, ⟨61184, by decide⟩, ⟨0x15, 1, 1, 1, 0, 0x00, 0xEF, 0x00⟩) := rfl
  have beyond : (opened ⟨61184, by decide⟩ 6 0x10 0x20 (replicate 1786 0) 0).totalPackets < 257 ∧
      ¬ (257 - 1) * tpDtDataLen ≤ (replicate 1786 (0 : UInt8)).length := by
    rw [opened, length_replicate]
    decide
  refine and_iff_left_of_imp ?_ |>.mpr
    ((onFrame_beyond_end named (AList.lookup_insert _) (by decide) beyond.1).trans (if_neg beyond.2))
  rintro panics ⟨_, _, _, handled, _⟩
  cases panics.symm.trans handled

end TpEngine

end Taktora.J1939
