import Taktora.J1939.Isolation

namespace Taktora.J1939

open Can Checked Fallible Dispatcher List

section Destinations

/-- The address that the RTS of an inbound session was sent to. A broadcast has none. -/
def TpEngine.destination (e : TpEngine) : SessionKind → Key → Option UInt8
  | .bam, _ => none
  | .conn, key => (e.rxConn.lookup key).map (·.ourSa)
  | .etp, key => (e.etpRx.lookup key).map (·.ourSa)

/-- The input is a BAM for `key`, or an RTS for `key` to the address `dest`. -/
def TpInput.AnnouncesTo (i : TpInput) (kind : SessionKind) (key : Key) (dest : Option UInt8) : Prop :=
  ∃ decoded data now a, i = .frame decoded data now ∧ announcement decoded data = some a ∧ a.kind = kind ∧ a.key = key ∧
    dest = if kind = .bam then none else decoded.destAddr

section Sessions

variable {e e' : TpEngine} {i : TpInput} {events : List TpEvent} {call : TpInput × List TpEvent} {kind : SessionKind}
  {key : Key}

theorem Effect.destination
    (effect : Effect e i events e')
    {dest : UInt8}
    (held : e'.destination kind key = some dest) :
    i.AnnouncesTo kind key (some dest) ∨ e.destination kind key = some dest := by
  let Told (kind : SessionKind) (key : Key) (dest : UInt8) :=
    i.AnnouncesTo kind key (some dest) ∨ e.destination kind key = some dest
  have conn : e.rxConn.Forall fun key s => Told .conn key s.ourSa :=
    fun key s found => .inr (by rw [TpEngine.destination, found]; rfl)
  have etp : e.etpRx.Forall fun key s => Told .etp key s.ourSa :=
    fun key s found => .inr (by rw [TpEngine.destination, found]; rfl)
  have both : e'.rxConn.Forall (fun key s => Told .conn key s.ourSa) ∧
      e'.etpRx.Forall fun key s => Told .etp key s.ourSa := by
    cases effect with
    | connOpened bytes parsed announced =>
      exact ⟨conn.insert (.inl ⟨_, _, _, _, rfl, announced, rfl, rfl, (parseConnRts_sound parsed).2.1.symm⟩), etp⟩
    | connWaiting takes | connGranted takes =>
      have own := conn _ _ takes.found
      exact ⟨conn.insert own, etp⟩
    | connCompleted | connAborted => exact ⟨conn.erase _, etp⟩
    | etpOpened bytes parsed announced =>
      exact ⟨conn, etp.insert (.inl ⟨_, _, _, _, rfl, announced, rfl, rfl, (parseEtpRts_sound parsed).2.1.symm⟩)⟩
    | etpDpo named found =>
      have own := etp _ _ found
      exact ⟨conn, etp.insert own⟩
    | etpWaiting takes | etpGranted takes =>
      have own := etp _ _ takes.found
      exact ⟨conn, etp.insert own⟩
    | etpCompleted | etpAborted => exact ⟨conn, etp.erase _⟩
    | swept => exact ⟨conn.retain _, etp.retain _⟩
    | _ => exact ⟨conn, etp⟩
  cases kind with
  | bam => cases held
  | conn =>
    obtain ⟨s, found, rfl⟩ := Option.map_eq_some_iff.mp held
    exact both.1 key s found
  | etp =>
    obtain ⟨s, found, rfl⟩ := Option.map_eq_some_iff.mp held
    exact both.2 key s found

theorem TpEngine.Reordered.destination (h : e.Reordered e') : e'.destination kind key = e.destination kind key := by
  cases kind with
  | bam => rfl
  | conn => rw [TpEngine.destination, TpEngine.destination, ← AList.perm_lookup h.rxConn]
  | etp => rw [TpEngine.destination, TpEngine.destination, ← AList.perm_lookup h.etpRx]

theorem TpEngine.destination_isSome (plain : kind ≠ .bam) :
    (e.destination kind key).isSome = (e.inbound kind key).isSome := by
  cases kind with
  | bam => exact absurd rfl plain
  | conn | etp => rw [TpEngine.destination, inbound, Option.isSome_map, Option.isSome_map]

/-- A session has the destination of the announcement that has opened it. -/
theorem TpEngine.Step.destination
    (step : e.Step call e')
    (wf : e.WellFormed)
    (held : (e'.inbound kind key).isSome = true) :
    call.1.AnnouncesTo kind key (e'.destination kind key) ∨ (e.inbound kind key).isSome = true ∧
      e'.destination kind key = e.destination kind key := by
  by_cases broadcast : kind = .bam
  · subst broadcast
    have advance := step.advance wf .bam key
    cases before : e.inbound .bam key with
    | some r => exact .inr ⟨rfl, rfl⟩
    | none =>
      rw [before] at advance
      cases after : e'.inbound .bam key with
      | none => rw [after] at held; cases held
      | some r =>
        rw [after] at advance
        cases advance with
        | opened _ frame announced admitted kind_eq key_eq =>
          exact .inl ⟨_, _, _, _, frame, announced, kind_eq, key_eq, rfl⟩
  · rw [← destination_isSome broadcast] at held
    obtain ⟨dest, reached⟩ := Option.isSome_iff_exists.mp held
    obtain ⟨_, reordered, effect⟩ := step.effect
    rcases effect.destination reached with announced | before
    · exact .inl (reached ▸ announced)
    · rw [reordered.destination] at before
      exact .inr ⟨by rw [← destination_isSome broadcast, before]; rfl, reached.trans before.symm⟩

end Sessions

def addressed (destAddr : UInt8) (direction : Direction) (binding : ChannelBinding) : RegisteredChannel :=
  ⟨"addressed", ⟨⟨0xDA00, by decide⟩, none, some destAddr, .tp 64, 6⟩, direction, binding⟩

end Destinations

section Standard

variable {env env' : Surroundings} {sourceAddr : UInt8}

def Standard (frame : CanData) : Prop := frame.id.extended = false ∧ frame.id.value ≤ 0x7FF

/-- The same iteration, or one that receives a standard data frame where the other receives nothing. -/
inductive Adds : Surroundings → Surroundings → Prop where
  | same (env : Surroundings) : Adds env env
  | frame {env : Surroundings} {frame : CanData} (received : env.received = some (.ok (.data frame)))
      (standard : Standard frame) : Adds env.silent env

def Surroundings.Spares (env : Surroundings) : Prop :=
  ∀ c ∈ env.registry.iterDirection .inbound, c.routing.transport.isTp = false → c.routing.pgn.value ≠ 0

theorem decode_standard {frame : CanData}
    (standard : Standard frame) :
    (decodeExtendedId frame.id.value).pgn = Pgn.zero := by
  have small := standard.2
  rw [decodeExtendedId_eq, show frame.id.value / 16777216 % 4 =
    0 by omega, show frame.id.value / 65536 % 256 = 0 by omega]
  rfl

theorem publishTo_unwanted {wanted : J1939Routing → Bool} {channels : List RegisteredChannel}
    (unwanted : ∀ c ∈ channels, wanted c.routing = false) (payload : List UInt8) (count : Nat) :
    publishTo wanted payload channels count = pure count := by
  induction channels with
  | nil => rfl
  | cons channel rest ih =>
    rw [publishTo, unwanted channel mem_cons_self]
    exact ih fun c member => unwanted c (mem_cons_of_mem _ member)

theorem handleRxResult_standard {frame : CanData}
    (received : env.received = some (.ok (.data frame)))
    (standard : Standard frame)
    (spares : env.Spares)
    (outcome : IterationOutcome) (acEvents : List AcEvent) (n : Node) :
    handleRxResult env outcome acEvents n = .ok (outcome, acEvents) n := by
  have zero := decode_standard standard
  have quiet : claimEvents env (decodeExtendedId frame.id.value) frame.payload n = .ok none n := by
    refine (bind_of_ok rfl).trans ?_
    rw [show isClaimPgn (decodeExtendedId frame.id.value) = false by rw [isClaimPgn, zero]; rfl]
    cases n.claim with
    | none | some => rfl
  have unwanted : ∀ c ∈ env.registry.iterDirection .inbound,
      (!c.routing.transport.isTp && c.routing.matches (decodeExtendedId frame.id.value)) = false := by
    intro c member
    cases tp : c.routing.transport.isTp with
    | true => rfl
    | false =>
      have other : (c.routing.pgn == Pgn.zero) = false :=
        beq_false_of_ne fun same => spares c member tp (by rw [same]; rfl)
      rw [J1939Routing.matches, zero, other]
      rfl
  unfold handleRxResult
  rw [received]
  refine (bind_of_ok quiet).trans ?_
  rw [if_neg (by rw [isTpWirePgn, zero]; decide), publishTo_unwanted unwanted]
  rfl

theorem dispatchIteration_adds
    (adds : Adds env env')
    (spares : env'.Spares) :
    dispatchIteration sourceAddr env' = dispatchIteration sourceAddr env := by
  cases adds with
  | same => rfl
  | frame received standard =>
    have ignored (outcome : IterationOutcome) (acEvents : List AcEvent) :
        handleRxResult env' outcome acEvents = handleRxResult env'.silent outcome acEvents :=
      funext (handleRxResult_standard received standard spares outcome acEvents)
    simp only [dispatchIteration, transmitFrames_silent, sendOutboundOnce_silent, ignored]
    rfl

/-- Standard data frames change nothing in a run. -/
theorem standard_frames_ignored {envs envs' : List Surroundings}
    (adds : List.Forall₂ Adds envs envs')
    (spares : ∀ env ∈ envs', env.Spares)
    (n : Node) :
    dispatcherLoop sourceAddr envs' n = dispatcherLoop sourceAddr envs n := by
  suffices same : dispatcherLoop sourceAddr envs' = dispatcherLoop sourceAddr envs by rw [same]
  induction adds with
  | nil => rfl
  | cons first rest ih =>
    rw [dispatcherLoop, dispatcherLoop, dispatchIteration_adds first (spares _ mem_cons_self),
      ih fun env member => spares env (mem_cons_of_mem _ member)]

def listening (pgn : Pgn) : Surroundings :=
  { Surroundings.quiet 0 (some ⟨⟨0x123, false⟩, .classical, [7]⟩) with
    registry := [⟨"torque", ⟨pgn, none, none, .singleFrame, 3⟩, .inbound, .inbound fun _ => .ok ()⟩] }

theorem listening_adds (pgn : Pgn) : List.Forall₂ Adds [(listening pgn).silent] [listening pgn] :=
  .cons (.frame rfl ⟨rfl, by decide⟩) .nil

theorem engine_speed_ignores_standard : dispatcherLoop 0x10 [listening ⟨0xF004, by decide⟩] defaultNode =
    dispatcherLoop 0x10 [(listening ⟨0xF004, by decide⟩).silent] defaultNode := by
  refine standard_frames_ignored (listening_adds _) ?_ defaultNode
  intro env member c among _
  cases mem_singleton.mp member
  cases mem_singleton.mp among
  decide

theorem standard_frame_published :
    List.Forall₂ Adds [(listening .zero).silent] [listening .zero] ∧
      (final (dispatcherLoop 0x10 [(listening .zero).silent]) defaultNode).published = [] ∧
      (final (dispatcherLoop 0x10 [listening .zero]) defaultNode).published = [("torque", [7])] := by
  refine ⟨listening_adds _, ?_⟩
  decide +kernel

end Standard

end Taktora.J1939
