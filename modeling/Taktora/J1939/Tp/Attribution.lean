import Taktora.J1939.Tp.Inbound

namespace Taktora.J1939

open Checked List AList

namespace TpEngine

/-- Of each kind, a source has one session at most. -/
def Unambiguous (e : TpEngine) : Prop :=
  ∀ kind key key', (e.inbound kind key).isSome → (e.inbound kind key').isSome → key.1 = key'.1 → key = key'

/-- The call announces a message while its source has another message of that kind under way. -/
def Clashes (e : TpEngine) (i : TpInput) : Prop :=
  ∃ decoded data now a key, i = .frame decoded data now ∧ announcement decoded data = some a ∧ e.Admits a ∧
    (e.inbound a.kind key).isSome ∧ key.1 = a.key.1 ∧ key ≠ a.key

def selected (e : TpEngine) (kind : SessionKind) (source : UInt8) : Option Key :=
  match kind with
  | .bam => e.sessions.firstKey (·.1 == source)
  | .conn => e.rxConn.firstKey (·.1 == source)
  | .etp => e.etpRx.firstKey (·.1 == source)

structure SameTables (e e' : TpEngine) : Prop where
  sessions : e.sessions.entries.Perm e'.sessions.entries
  rxConn : e.rxConn.entries.Perm e'.rxConn.entries
  txConn : e.txConn.entries.Perm e'.txConn.entries
  etpRx : e.etpRx.entries.Perm e'.etpRx.entries
  etpTx : e.etpTx.entries.Perm e'.etpTx.entries
  config : e.SameConfig e'

variable {e e' e₁ e₂ : TpEngine} {i : TpInput} {events : List TpEvent} {call : TpInput × List TpEvent}

theorem Reordered.sameTables (h : e.Reordered e') : e.SameTables e' :=
  ⟨h.sessions, h.rxConn, h.txConn, h.etpRx, h.etpTx, h.ctsWindow, h.timers, h.maxSessions, h.maxEtpBytes⟩

theorem SameTables.refl (e : TpEngine) : e.SameTables e := (Reordered.refl e).sameTables

theorem SameTables.symm (h : e.SameTables e') : e'.SameTables e :=
  ⟨h.sessions.symm, h.rxConn.symm, h.txConn.symm, h.etpRx.symm, h.etpTx.symm, h.config.1.symm, h.config.2.1.symm,
    h.config.2.2.1.symm, h.config.2.2.2.symm⟩

theorem SameTables.trans {e₃ : TpEngine} (h : e₁.SameTables e₂) (h' : e₂.SameTables e₃) : e₁.SameTables e₃ :=
  ⟨h.sessions.trans h'.sessions, h.rxConn.trans h'.rxConn, h.txConn.trans h'.txConn, h.etpRx.trans h'.etpRx,
    h.etpTx.trans h'.etpTx, h'.config.1.trans h.config.1, h'.config.2.1.trans h.config.2.1,
    h'.config.2.2.1.trans h.config.2.2.1, h'.config.2.2.2.trans h.config.2.2.2⟩

section

variable {e e' : TpEngine}

theorem SameTables.reordered (h : e.SameTables e') : e.Reordered { e' with pendingOut := e.pendingOut } :=
  ⟨h.sessions, h.rxConn, h.txConn, h.etpRx, h.etpTx, rfl, h.config.1, h.config.2.1, h.config.2.2.1, h.config.2.2.2⟩

theorem SameTables.totalInbound (h : e.SameTables e') : e'.totalInbound = e.totalInbound := h.reordered.totalInbound

theorem SameTables.inbound (h : e.SameTables e') (kind : SessionKind) (key : Key) :
    e'.inbound kind key = e.inbound kind key := h.reordered.inbound kind key

theorem Unambiguous.sameTables (unique : e.Unambiguous) (h : e.SameTables e') : e'.Unambiguous := by
  intro kind key key'
  rw [h.inbound, h.inbound]
  exact unique kind key key'

theorem SameTables.selected
    (h : e.SameTables e')
    (unique : e.Unambiguous)
    (kind : SessionKind) (source : UInt8) :
    e'.selected kind source = e.selected kind source := by
  have only {ν : Type} {m m' : Table Key ν} (perm : m.entries.Perm m'.entries)
      (held : ∀ key, (e.inbound kind key).isSome ↔ key ∈ m) : m'.firstKey (·.1 == source) =
        m.firstKey (·.1 == source) := by
    refine Table.firstKey_of_perm perm fun key key' here here' own own' => ?_
    exact unique kind key key' ((held key).mpr here) ((held key').mpr here')
      ((beq_iff_eq.mp own).trans (beq_iff_eq.mp own').symm)
  cases kind with
  | bam => exact only h.sessions fun _ => inbound_bam_isSome
  | conn => exact only h.rxConn fun _ => inbound_conn_isSome
  | etp => exact only h.etpRx fun _ => inbound_etp_isSome

end

theorem Advance.held_or_opened {kind : SessionKind} {key : Key} {before after : Option Reassembly}
    (advance : Advance e i events kind key before after)
    (held : after.isSome) :
    before.isSome ∨ ∃ decoded data now a, i = .frame decoded data now ∧ announcement decoded data = some a ∧
      e.Admits a ∧ a.kind = kind ∧ a.key = key := by
  cases advance with
  | kept r => exact .inl held
  | opened r frame announced admitted kind_eq key_eq quiet =>
    exact .inr ⟨_, _, _, _, frame, announced, admitted, kind_eq, key_eq⟩
  | rebased | accepted => exact .inl rfl
  | completed | aborted => cases held

theorem Unambiguous.effect
    (unique : e.Unambiguous)
    (wf : e.WellFormed)
    (calm : ¬ e.Clashes i)
    (effect : Effect e i events e') : e'.Unambiguous := by
  intro kind key key' held held' same
  rcases Advance.held_or_opened (effect.advance wf kind key) held with before | ⟨decoded, data, now, a, frame,
    announced, admitted, rfl, rfl⟩
  · rcases Advance.held_or_opened (effect.advance wf kind key') held' with before' | ⟨decoded, data, now, a, frame,
      announced, admitted, rfl, rfl⟩
    · exact unique kind key key' before before' same
    · by_contra different
      exact calm ⟨decoded, data, now, a, key, frame, announced, admitted, before, same, different⟩
  · rcases Advance.held_or_opened (effect.advance wf a.kind key') held' with before' | ⟨_, _, _, _,
      frame', announced', _, _, rfl⟩
    · by_contra different
      exact calm ⟨decoded, data, now, a, key', frame, announced, admitted, before', same.symm, symm different⟩
    · cases frame.symm.trans frame'
      cases announced.symm.trans announced'
      rfl

/-- Both calls panic, or both return engines with the same tables. -/
def Agree : Outcome → Outcome → Prop
  | .ok result, .ok result' => result.2.SameTables result'.2
  | .error _, .error _ => True
  | _, _ => False

theorem Agree.bind {α : Type} {x : Except Panic α} {f g : α → Outcome} (after : ∀ a, Agree (f a) (g a)) :
    Agree (x >>= f) (x >>= g) := by
  cases x with
  | error p => trivial
  | ok a => exact after a

theorem Agree.ite {c : Prop} [Decidable c] {x y x' y' : Outcome}
    (yes : Agree x y)
    (no : Agree x' y') :
    Agree (if c then x else x') (if c then y else y') := by
  split
  · exact yes
  · exact no

section Congruence

variable {e e' : TpEngine} (h : e.SameTables e')
include h

theorem onBamCm_agree (sourceAddr : UInt8) (b : CmBytes) (now : Nat) :
    (e.onBamCm sourceAddr b now).2.SameTables (e'.onBamCm sourceAddr b now).2 := by
  obtain ⟨_⟩ := e'
  obtain ⟨rfl, rfl, rfl, rfl⟩ := h.config
  simp only [onBamCm, mem_of_perm h.sessions.symm, h.totalInbound]
  cases Pgn.new (LittleEndian.join3 b.b5 b.b6 b.b7) with
  | error error => exact h
  | ok pgn =>
    dsimp only
    split_ifs
    · exact h
    · exact h
    · exact { h with sessions := perm_insert h.sessions }
    · exact h

section

variable (decoded : DecodedId)
include decoded

variable (b : CmBytes) (now : Nat)

theorem onRts_agree : (e.onRts decoded b now).2.SameTables (e'.onRts decoded b now).2 := by
  obtain ⟨_⟩ := e'
  obtain ⟨rfl, rfl, rfl, rfl⟩ := h.config
  simp only [onRts, mem_of_perm h.rxConn.symm, h.totalInbound]
  cases parseConnRts decoded b with
  | none => exact h
  | some p =>
    dsimp only
    split_ifs
    · exact { h with }
    · exact { h with rxConn := perm_insert h.rxConn }

theorem onEtpRts_agree : (e.onEtpRts decoded b now).2.SameTables (e'.onEtpRts decoded b now).2 := by
  obtain ⟨_⟩ := e'
  obtain ⟨rfl, rfl, rfl, rfl⟩ := h.config
  simp only [onEtpRts, mem_of_perm h.etpRx.symm, h.totalInbound]
  cases parseEtpRts decoded b with
  | none => exact h
  | some p =>
    dsimp only
    split_ifs
    · exact { h with }
    · exact { h with }
    · exact { h with etpRx := perm_insert h.etpRx }

theorem onCts_agree : Agree (e.onCts decoded b now) (e'.onCts decoded b now) := by
  simp only [onCts]
  cases Pgn.new (transportedPgnFrom b) with
  | error error => exact h
  | ok pgn =>
    simp only [← perm_lookup h.txConn]
    cases e.txConn.lookup (decoded.sourceAddr, pgn) with
    | none => exact h
    | some s =>
      refine .ite ?_ (.bind fun burst => ?_)
      · exact { h with txConn := perm_insert h.txConn }
      · exact { h with txConn := perm_insert h.txConn }

theorem onEtpCts_agree : Agree (e.onEtpCts decoded b now) (e'.onEtpCts decoded b now) := by
  simp only [onEtpCts]
  cases Pgn.new (transportedPgnFrom b) with
  | error error => exact h
  | ok pgn =>
    simp only [← perm_lookup h.etpTx]
    cases e.etpTx.lookup (decoded.sourceAddr, pgn) with
    | none => exact h
    | some s =>
      refine .ite ?_ (.bind fun burst => ?_)
      · exact { h with etpTx := perm_insert h.etpTx }
      · exact { h with etpTx := perm_insert h.etpTx }

theorem onEtpDpo_agree : (e.onEtpDpo decoded b now).2.SameTables (e'.onEtpDpo decoded b now).2 := by
  simp only [onEtpDpo]
  cases Pgn.new (transportedPgnFrom b) with
  | error error => exact h
  | ok pgn =>
    simp only [← perm_lookup h.etpRx]
    cases e.etpRx.lookup (decoded.sourceAddr, pgn) with
    | none => exact h
    | some s => exact { h with etpRx := perm_insert h.etpRx }

theorem onCm_agree (data : List UInt8) (now : Nat) : Agree (e.onCm decoded data now) (e'.onCm decoded data now) := by
  unfold onCm
  cases CmBytes.ofData data with
  | none => exact h
  | some b =>
    dsimp only
    split_ifs
    · exact onBamCm_agree h _ _ _
    · exact onRts_agree h _ _ _
    · exact onCts_agree h _ _ _
    · unfold onEndOfMsgAck
      cases Pgn.new (transportedPgnFrom b) with
      | error error => exact h
      | ok pgn => exact { h with txConn := perm_erase h.txConn }
    · unfold onConnAbort
      cases Pgn.new (transportedPgnFrom b) with
      | error error => exact h
      | ok pgn => exact { h with rxConn := perm_erase h.rxConn, txConn := perm_erase h.txConn }
    · exact h

theorem onEtpCm_agree (data : List UInt8) (now : Nat) :
    Agree (e.onEtpCm decoded data now) (e'.onEtpCm decoded data now) := by
  unfold onEtpCm
  cases CmBytes.ofData data with
  | none => exact h
  | some b =>
    dsimp only
    split_ifs
    · exact onEtpRts_agree h _ _ _
    · exact onEtpCts_agree h _ _ _
    · exact onEtpDpo_agree h _ _ _
    · unfold onEtpEoma
      cases Pgn.new (transportedPgnFrom b) with
      | error error => exact h
      | ok pgn => exact { h with etpTx := perm_erase h.etpTx }
    · unfold onEtpAbort
      cases Pgn.new (transportedPgnFrom b) with
      | error error => exact h
      | ok pgn => exact { h with etpRx := perm_erase h.etpRx, etpTx := perm_erase h.etpTx }
    · exact h

end

theorem onBamDt_agree (unique : e.Unambiguous) (sourceAddr : UInt8) (data : List UInt8) (now : Nat) :
    Agree (e.onBamDt sourceAddr data now) (e'.onBamDt sourceAddr data now) := by
  have chosen : e'.sessions.firstKey (·.1 == sourceAddr) = e.sessions.firstKey (·.1 == sourceAddr) :=
    h.selected unique .bam sourceAddr
  simp only [onBamDt, chosen, ← perm_lookup h.sessions]
  refine .bind fun seq => ?_
  cases e.sessions.firstKey (·.1 == sourceAddr) with
  | none => exact h
  | some key =>
    refine .bind fun s => .ite h (.bind fun bytes => .ite ?_ ?_)
    · exact { h with sessions := perm_erase h.sessions }
    · exact { h with sessions := perm_insert h.sessions }

theorem onConnDt_agree (unique : e.Unambiguous) (peerSa : UInt8) (data : List UInt8) (now : Nat) :
    Agree (e.onConnDt peerSa data now) (e'.onConnDt peerSa data now) := by
  have chosen : e'.rxConn.firstKey (·.1 == peerSa) = e.rxConn.firstKey (·.1 == peerSa) := h.selected unique .conn peerSa
  obtain ⟨_⟩ := e'
  obtain ⟨rfl, rfl, rfl, rfl⟩ := h.config
  simp only [onConnDt, chosen, ← perm_lookup h.rxConn]
  refine .bind fun seq => ?_
  cases e.rxConn.firstKey (·.1 == peerSa) with
  | none => exact h
  | some key =>
    refine .bind fun s => .ite h (.bind fun bytes => .ite ?_ (.ite (.bind fun _ => .bind fun _ => ?_) ?_))
    · exact { h with rxConn := perm_erase h.rxConn }
    · exact { h with rxConn := perm_insert h.rxConn }
    · exact { h with rxConn := perm_insert h.rxConn }

theorem onEtpDt_agree (unique : e.Unambiguous) (decoded : DecodedId) (data : List UInt8) (now : Nat) :
    Agree (e.onEtpDt decoded data now) (e'.onEtpDt decoded data now) := by
  have chosen : e'.etpRx.firstKey (·.1 == decoded.sourceAddr) = e.etpRx.firstKey (·.1 == decoded.sourceAddr) :=
    h.selected unique .etp decoded.sourceAddr
  obtain ⟨_⟩ := e'
  obtain ⟨rfl, rfl, rfl, rfl⟩ := h.config
  simp only [onEtpDt, chosen, ← perm_lookup h.etpRx]
  refine .ite h (.bind fun seq => ?_)
  cases e.etpRx.firstKey (·.1 == decoded.sourceAddr) with
  | none => exact h
  | some key =>
    refine .bind fun s => .ite h (.bind fun _ => .bind fun bytes => .bind fun buf => .bind fun next => .ite ?_
      (.ite (.bind fun _ => .bind fun _ => ?_) ?_))
    · exact { h with etpRx := perm_erase h.etpRx }
    · exact { h with etpRx := perm_insert h.etpRx }
    · exact { h with etpRx := perm_insert h.etpRx }

theorem swept_sameTables (now : Nat) : (e.swept now).SameTables (e'.swept now) := by
  simp only [swept, h.config.2.1]
  exact ⟨h.sessions.filter _, h.rxConn.filter _, h.txConn.filter _, h.etpRx.filter _, h.etpTx.filter _,
    h.config.1, rfl, h.config.2.2.1, h.config.2.2.2⟩

theorem handle_agree (unique : e.Unambiguous) (i : TpInput) : Agree (e.handle i) (e'.handle i) := by
  cases i with
  | frame decoded data now =>
    refine .ite (onCm_agree h _ _ _) (.ite ?_ (.ite (onEtpCm_agree h _ _ _) (.ite (onEtpDt_agree h unique _ _ _) h)))
    exact .ite h (.ite (onBamDt_agree h unique _ _ _) (onConnDt_agree h unique _ _ _))
  | startConnection pgn priority ourSa destAddr payload now =>
    simp only [handle, startOutboundConnection]
    split_ifs
    · exact { h with txConn := perm_insert h.txConn }
    · exact h
  | startEtp pgn priority ourSa destAddr payload now =>
    obtain ⟨_⟩ := e'
    obtain ⟨rfl, rfl, rfl, rfl⟩ := h.config
    simp only [handle, startOutboundEtp]
    split_ifs
    · exact { h with etpTx := perm_insert h.etpTx }
    · exact h
  | takeOutbound => exact { h with }
  | pollTimeouts now =>
    simp only [handle, pollTimeouts_eq]
    exact swept_sameTables h now

end Congruence

def CalmStep (e : TpEngine) (call : TpInput × List TpEvent) (e' : TpEngine) : Prop :=
  e.Step call e' ∧ ¬ e.Clashes call.1

theorem Reordered.clashes (h : e.Reordered e') (clash : e'.Clashes i) : e.Clashes i := by
  obtain ⟨decoded, data, now, a, key, frame, announced, admitted, held, same, different⟩ := clash
  exact ⟨decoded, data, now, a, key, frame, announced, h.admits_iff.mp admitted, h.inbound a.kind key ▸ held, same,
    different⟩

theorem clash_ambiguous (step : e.Step call e') (clash : e.Clashes call.1) : ¬ e'.Unambiguous := by
  obtain ⟨_, _, _, a, key, frame, announced, admitted, _, same, different⟩ := clash
  obtain ⟨_, reordered, effect⟩ := step.effect
  have ann : call.1.announced = some a := by rw [frame]; exact announced
  rcases effect.announced ann with ⟨_, _, opened, others⟩ | ⟨refused, _⟩
  swap
  · exact absurd (reordered.admits_iff.mpr admitted) refused
  intro unique
  refine different (unique a.kind key a.key ?_ (by rw [opened]; rfl) same)
  rwa [others key different, reordered.inbound]

theorem Unambiguous.step (unique : e.Unambiguous) (wf : e.WellFormed) (step : e.CalmStep call e') : e'.Unambiguous := by
  obtain ⟨_, reordered, effect⟩ := step.1.effect
  exact (unique.sameTables reordered.sameTables).effect (wf.reordered reordered)
    (fun clash => step.2 (reordered.clashes clash)) effect

theorem SameTables.step {e₁' e₂' : TpEngine} {events' : List TpEvent}
    (same : e₁.SameTables e₂)
    (unique : e₁.Unambiguous)
    (first : e₁.Step (i, events) e₁')
    (second : e₂.Step (i, events') e₂') : e₁'.SameTables e₂' := by
  obtain ⟨_, reordered, handled⟩ := first
  obtain ⟨_, reordered', handled'⟩ := second
  have tables := (reordered.sameTables.symm.trans same).trans reordered'.sameTables
  have agree := handle_agree tables (unique.sameTables reordered.sameTables) i
  rw [handled, handled'] at agree
  exact agree

theorem calm_run_deterministic {start : TpEngine} {history : List (TpInput × List TpEvent)}
    (wf : start.WellFormed)
    (unique : start.Unambiguous)
    (run : Run CalmStep start history e) :
    e.WellFormed ∧ e.Unambiguous ∧ ∀ history' e', Run Step start history' e' →
      history'.map Prod.fst = history.map Prod.fst → e.SameTables e' := by
  induction run with
  | nil =>
    refine ⟨wf, unique, fun history' e' run' same => ?_⟩
    rw [run'.eq_start (map_eq_nil_iff.mp same)]
    exact .refl _
  | snoc before last ih =>
    obtain ⟨wf, unique, determined⟩ := ih
    refine ⟨wf.step last.1, unique.step wf last, fun history' e' run' same => ?_⟩
    rw [map_append] at same
    obtain ⟨earlier, _, rfl, earlier_same, final_same⟩ := map_eq_append_iff.mp same
    obtain ⟨⟨i, _⟩, rfl, rfl⟩ := map_eq_singleton_iff.mp final_same
    obtain ⟨s, before', last'⟩ := run'.last_step rfl
    exact (determined earlier s before' earlier_same).step unique last.1 last'

theorem configured_unambiguous (timers : TpTimers) (maxSessions : Nat) (window : UInt8) (limit : Nat) :
    (configured timers maxSessions window limit).Unambiguous := by
  intro kind key key' held
  rw [configured_inbound] at held
  cases held

/-- As long as no source starts a second message of a kind, the calls determine the session of each data frame. -/
theorem calm_run_attributes_uniquely (timers : TpTimers) (maxSessions : Nat) (window : UInt8) (limit : Nat)
    (history : List (TpInput × List TpEvent)) (e : TpEngine)
    (run : Run CalmStep (configured timers maxSessions window limit) history e) :
    e.Unambiguous ∧ (∀ call e', e.Step call e' → (e'.Unambiguous ↔ ¬ e.Clashes call.1)) ∧
      ∀ history' e', Run Step (configured timers maxSessions window limit) history' e' →
      history'.map Prod.fst = history.map Prod.fst →
      ∀ kind source, e'.selected kind source = e.selected kind source := by
  obtain ⟨wf, unique, determined⟩ := calm_run_deterministic (configured_wellFormed timers maxSessions window limit)
    (configured_unambiguous timers maxSessions window limit) run
  refine ⟨unique, fun call e' step => ⟨fun after clash => clash_ambiguous step clash after, fun calm => ?_⟩,
    fun history' e' run' same => (determined history' e' run' same).selected unique⟩
  exact unique.step wf ⟨step, calm⟩

/-- A source has a broadcast and a connection open, and each has its own data frames. -/
theorem calm_run_attributes_two_kinds :
    ∃ e,
      Run CalmStep (configured ⟨750, 1250, 1250⟩ 4 16 0)
      [(.frame (decodeExtendedId 0x18ECFF80) [0x20, 9, 0, 2, 0xFF, 0xF6, 0xFE, 0] 0, []),
      (.frame (decodeExtendedId 0x18EC1080) [0x10, 9, 0, 2, 0xFF, 0x00, 0xDA, 0] 1, [])] e ∧
      e.selected .bam 0x80 = some (0x80, ⟨65270, by decide⟩) ∧
      e.selected .conn 0x80 = some (0x80, ⟨0xDA00, by decide⟩) ∧ e.Unambiguous := by
  have run : Run CalmStep (configured ⟨750, 1250, 1250⟩ 4 16 0) _ _ :=
    .snoc (.snoc .nil
      ⟨Step.of_handle (i := .frame (decodeExtendedId 0x18ECFF80) [0x20, 9, 0, 2, 0xFF, 0xF6, 0xFE, 0] 0) rfl,
        fun ⟨_, _, _, _, _, _, _, _, held, _⟩ => by rw [configured_inbound] at held; cases held⟩)
      ⟨Step.of_handle (i := .frame (decodeExtendedId 0x18EC1080) [0x10, 9, 0, 2, 0xFF, 0x00, 0xDA, 0] 1) rfl,
        fun ⟨_, _, _, _, _, frame, announced, _, held, _⟩ => by cases frame; cases announced; cases held⟩
  exact ⟨_, run, rfl, rfl, (calm_run_attributes_uniquely _ _ _ _ _ _ run).1⟩

/-- Two broadcasts of one source are open, and the iteration order picks the one that gets the data. -/
theorem second_broadcast_is_ambiguous : ∃ e, Run Step (configured ⟨750, 1250, 1250⟩ 4 16 0)
        [(.frame (decodeExtendedId 0x18ECFF80) [0x20, 9, 0, 2, 0xFF, 0xF6, 0xFE, 0] 0, []),
          (.frame (decodeExtendedId 0x18ECFF80) [0x20, 9, 0, 2, 0xFF, 0xF7, 0xFE, 0] 1, [])] e ∧
      ¬ e.Unambiguous ∧ e.Reordered { e with sessions := e.sessions.reverse } ∧
      e.selected .bam 0x80 ≠ { e with sessions := e.sessions.reverse }.selected .bam 0x80 := by
  have run : Run Step (configured ⟨750, 1250, 1250⟩ 4 16 0) _ _ :=
    .snoc (.snoc .nil (Step.of_handle (i := .frame (decodeExtendedId 0x18ECFF80)
      [0x20, 9, 0, 2, 0xFF, 0xF6, 0xFE, 0] 0) rfl))
      (Step.of_handle (i := .frame (decodeExtendedId 0x18ECFF80) [0x20, 9, 0, 2, 0xFF, 0xF7, 0xFE, 0] 1) rfl)
  refine ⟨_, run, fun unique => ?_, { Reordered.refl _ with sessions := (reverse_perm _).symm }, by decide⟩
  have same := unique .bam (0x80, ⟨65270, by decide⟩) (0x80, ⟨65271, by decide⟩) rfl rfl rfl
  revert same
  decide

end TpEngine

end Taktora.J1939
