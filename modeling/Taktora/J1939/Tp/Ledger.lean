import Taktora.J1939.Tp.Inbound

namespace Taktora.J1939

open Checked Table List TpEngine

def TpEvent.closes (key : Key) : TpEvent → Bool
  | .completed pgn source _ => (source, pgn) = key
  | .aborted pgn source _ => (source, pgn) = key
  | .sessionRefused _ _ _ => false

def TpInput.acknowledges (key : Key) : TpInput → Bool
  | .frame decoded data _ =>
    match control decoded data with
    | some (.eoma, pgn, _) => (decoded.sourceAddr, pgn) = key
    | some (.etpEoma, pgn, _) => (decoded.sourceAddr, pgn) = key
    | _ => false
  | _ => false

namespace TpEngine

variable (e : TpEngine)

def oversize (i : TpInput) (key : Key) : Bool :=
  match i.announced with
  | some a => a.kind = .etp ∧ a.key = key ∧ e.maxEtpBytes < a.totalSize
  | none => false

def inboundLeft (e e' : TpEngine) (key : Key) : Nat :=
  e.sessions.left e'.sessions key + e.rxConn.left e'.rxConn key + e.etpRx.left e'.etpRx key

def outboundLeft (e e' : TpEngine) (key : Key) : Nat :=
  e.txConn.left e'.txConn key + e.etpTx.left e'.etpTx key

variable (key : Key)

@[simp] theorem inboundLeft_mk (sessions rxConn txConn pendingOut etpRx etpTx window timers cap limit) :
    e.inboundLeft ⟨sessions, rxConn, txConn, pendingOut, etpRx, etpTx, window, timers, cap, limit⟩ key =
      e.sessions.left sessions key + e.rxConn.left rxConn key + e.etpRx.left etpRx key := rfl

@[simp] theorem outboundLeft_mk (sessions rxConn txConn pendingOut etpRx etpTx window timers cap limit) :
    e.outboundLeft ⟨sessions, rxConn, txConn, pendingOut, etpRx, etpTx, window, timers, cap, limit⟩ key =
      e.txConn.left txConn key + e.etpTx.left etpTx key := rfl

@[simp] theorem inboundLeft_self : e.inboundLeft e key = 0 := by simp [inboundLeft]

@[simp] theorem outboundLeft_self : e.outboundLeft e key = 0 := by simp [outboundLeft]

def Balanced (i : TpInput) (events : List TpEvent) (e' : TpEngine) (key : Key) : Prop :=
  events.countP (·.closes key) =
    e.inboundLeft e' key + (if i.acknowledges key then 0 else e.outboundLeft e' key) +
      if e.oversize i key then 1 else 0

variable {e e₀ : TpEngine} {i : TpInput} {key : Key} {ν : Type}

theorem Reordered.oversize (reordered : e.Reordered e₀) (i : TpInput) (key : Key) :
    e₀.oversize i key = e.oversize i key := by
  simp only [TpEngine.oversize, reordered.maxEtpBytes]

theorem Balanced.reordered {e' : TpEngine} {events : List TpEvent} (reordered : e.Reordered e₀)
    (balanced : e₀.Balanced i events e' key) : e.Balanced i events e' key := by
  simpa only [Balanced, inboundLeft, outboundLeft, reordered.oversize, left_of_perm reordered.sessions,
    left_of_perm reordered.rxConn, left_of_perm reordered.etpRx, left_of_perm reordered.txConn,
    left_of_perm reordered.etpTx] using balanced

theorem oversize_silent (silent : i.announced = none) (key : Key) : e.oversize i key = false := by
  rw [oversize, silent]

section Frames

variable {e : TpEngine} {decoded : DecodedId} {data : List UInt8} {now : Nat}

theorem oversize_data {kind : SessionKind} (dt : dataKind decoded = some kind) (key : Key) :
    e.oversize (.frame decoded data now) key = false :=
  oversize_silent (i := .frame decoded data now) (announcement_data dt data) key

theorem oversize_control {named : Control × Pgn × CmBytes} (h : control decoded data = some named) (key : Key) :
    e.oversize (.frame decoded data now) key = false :=
  oversize_silent (i := .frame decoded data now) (announcement_control h) key

theorem oversize_fits {a : Announcement}
    (announced : announcement decoded data = some a)
    (fits : a.kind = .etp → a.totalSize ≤ e.maxEtpBytes)
    (key : Key) :
    e.oversize (.frame decoded data now) key = false := by
  simp only [oversize, TpInput.announced, announced]
  refine decide_eq_false fun exceeds => ?_
  exact absurd (fits exceeds.1) (not_le.mpr exceeds.2.2)

end Frames

section Cases

variable {e e' : TpEngine} {i : TpInput} {events : List TpEvent} {key : Key}

theorem Balanced.of_inbound
    (count : events.countP (·.closes key) = e.inboundLeft e' key)
    (outbound : i.acknowledges key = true ∨ e.outboundLeft e' key = 0)
    (fits : e.oversize i key = false) : e.Balanced i events e' key := by
  rw [Balanced, count, fits]
  rcases outbound with acked | none
  · rw [acked]
    rfl
  · rw [none]
    split <;> rfl

theorem Balanced.of_failures
    (count : events.countP (·.closes key) = e.inboundLeft e' key + e.outboundLeft e' key)
    (unacked : i.acknowledges key = false)
    (fits : e.oversize i key = false) : e.Balanced i events e' key := by
  rw [Balanced, count, fits, unacked]
  rfl

end Cases

theorem countP_removed {m : Table Key ν} {changed : Key} {s : ν}
    (found : m.lookup changed = some s)
    {event : TpEvent}
    (named : event.closes key = decide (changed = key)) :
    [event].countP (·.closes key) = m.left (m.erase changed) key := by
  rw [left_erase, countP_singleton, named]
  refine if_congr ?_ rfl rfl
  rw [decide_eq_true_iff, eq_comm, and_iff_left (mem_of_lookup found)]

theorem countP_aborted (m : Table Key ν) (abort : ν → TpEvent) {changed : Key} (key : Key)
    (named : ∀ s, m.lookup changed = some s → (abort s).closes key = decide (changed = key)) :
    (((m.lookup changed).map abort).toList).countP (·.closes key) = m.left (m.erase changed) key := by
  cases found : m.lookup changed with
  | none =>
    rw [left_erase, if_neg fun gone => AList.lookup_eq_none.mp found gone.2]
    rfl
  | some s => exact countP_removed found (named s found)

theorem swept_balanced (wf : e.WellFormed) (now : Nat) (key : Key) :
    e.Balanced (.pollTimeouts now) (e.timeoutEvents now) (e.swept now) key := by
  have bam := e.sessions.countP_matching (fun s => idleLongerThan e.timers.t1 now s.lastActivity)
    (fun s => (s.aborted .timeout).closes key) key fun other s found => by
      rw [(wf.bam _ _ found).keyed]
      exact decide_eq_true_iff
  have rx := e.rxConn.countP_matching (fun s => idleLongerThan e.timers.t2 now s.lastActivity)
    (fun s => (s.aborted .timeout).closes key) key fun other s found => by
      rw [(wf.rx _ _ found).keyed]
      exact decide_eq_true_iff
  have tx := e.txConn.countP_matching (fun s => idleLongerThan e.timers.t3 now s.lastActivity)
    (fun s => (s.aborted .timeout).closes key) key fun other s found => by
      rw [(wf.tx _ _ found).keyed]
      exact decide_eq_true_iff
  have etpRx := e.etpRx.countP_matching (fun s => idleLongerThan e.timers.t2 now s.lastActivity)
    (fun s => (s.aborted .timeout).closes key) key fun other s found => by
      rw [(wf.etpRx _ _ found).keyed]
      exact decide_eq_true_iff
  have etpTx := e.etpTx.countP_matching (fun s => idleLongerThan e.timers.t3 now s.lastActivity)
    (fun s => (s.aborted .timeout).closes key) key fun other s found => by
      rw [(wf.etpTx _ _ found).keyed]
      exact decide_eq_true_iff
  refine .of_failures ?_ rfl rfl
  simp only [timeoutEvents, countP_append, countP_map, Function.comp_def, bam, rx, tx, etpRx, etpTx,
    inboundLeft, outboundLeft, swept]
  omega

end TpEngine

theorem Effect.balanced {e e' : TpEngine} {i : TpInput} {events : List TpEvent} (wf : e.WellFormed)
    (effect : Effect e i events e') (key : Key) : e.Balanced i events e' key := by
  cases effect with
  | ignored silent => exact .of_inbound (by simp) (.inr (by simp)) (oversize_silent silent key)
  | bamRefused announced kind | bamOpened announced kind =>
    exact .of_inbound (by simp [TpEvent.closes]) (.inr (by simp))
      (oversize_fits announced (fun etp => nomatch kind.symm.trans etp) key)
  | bamAccepted takes | connWaiting takes | connGranted takes | etpWaiting takes | etpGranted takes =>
    exact .of_inbound (by simp) (.inr (by simp)) (oversize_data takes.kind key)
  | bamCompleted takes last =>
    refine .of_inbound ?_ (.inr (by simp)) (oversize_data takes.kind key)
    rw [countP_removed takes.found (by rw [(wf.bam _ _ takes.found).keyed]; rfl)]
    simp
  | connRefused bytes parsed announced | connOpened bytes parsed announced =>
    exact .of_inbound (by simp [TpEvent.closes]) (.inr (by simp)) (oversize_fits announced (fun etp => nomatch etp) key)
  | connCompleted takes last =>
    refine .of_inbound ?_ (.inr (by simp)) (oversize_data takes.kind key)
    rw [countP_removed takes.found (by rw [(wf.rx _ _ takes.found).keyed]; rfl)]
    simp
  | cts named | etpCts named | etpDpo named =>
    exact .of_inbound (by simp) (.inr (by simp)) (oversize_control named key)
  | connAcked named | etpAcked named =>
    rename_i decoded data now pgn b
    refine .of_inbound (by simp) ?_ (oversize_control named key)
    simp only [TpInput.acknowledges, named, outboundLeft_mk, left_self, left_erase, add_zero, zero_add]
    by_cases same : key = (decoded.sourceAddr, pgn)
    · exact .inl (decide_eq_true same.symm)
    · exact .inr (if_neg fun gone => same gone.1)
  | connAborted named =>
    refine .of_failures ?_ (by simp [TpInput.acknowledges, named]) (oversize_control named key)
    rw [countP_append, countP_aborted e.rxConn _ key fun s found => by rw [(wf.rx _ _ found).keyed]; rfl,
      countP_aborted e.txConn _ key fun s found => by rw [(wf.tx _ _ found).keyed]; rfl]
    simp
  | etpOversize bytes parsed announced exceeds =>
    rw [TpEngine.Balanced]
    simp [oversize, TpInput.announced, announced, TpEvent.closes, countP_singleton, EtpRtsParams.announcement, exceeds]
  | etpRefused bytes parsed announced fits | etpOpened bytes parsed announced fits =>
    exact .of_inbound (by simp [TpEvent.closes]) (.inr (by simp)) (oversize_fits announced (fun _ => fits) key)
  | etpCompleted takes last =>
    refine .of_inbound ?_ (.inr (by simp)) (oversize_data takes.kind key)
    rw [countP_removed takes.found (by rw [(wf.etpRx _ _ takes.found).keyed]; rfl)]
    simp
  | etpAborted named =>
    refine .of_failures ?_ (by simp [TpInput.acknowledges, named]) (oversize_control named key)
    rw [countP_append, countP_aborted e.etpRx _ key fun s found => by rw [(wf.etpRx _ _ found).keyed]; rfl,
      countP_aborted e.etpTx _ key fun s found => by rw [(wf.etpTx _ _ found).keyed]; rfl]
    simp
  | startedConnection | startedEtp | drained => exact .of_inbound (by simp) (.inr (by simp)) rfl
  | swept now => exact swept_balanced wf now key

namespace TpEngine

variable (kind : SessionKind) (key : Key)

def Continues (e e' : TpEngine) : Prop :=
  ∃ r r', e.inbound kind key = some r ∧ e'.inbound kind key = some r' ∧ r'.totalSize = r.totalSize ∧
    r.next ≤ r'.next ∧ r.received <+: r'.received

def Replaces (i : TpInput) (e' : TpEngine) : Prop :=
  ∃ a, i.announced = some a ∧ a.kind = kind ∧ a.key = key ∧ e'.inbound kind key = some (.opened a)

/-- The session leaves its table, and the call reports as many ends of sessions with this key as there are. -/
def Leaves (e : TpEngine) (call : TpInput × List TpEvent) (e' : TpEngine) : Prop :=
  e'.inbound kind key = none ∧ 1 ≤ e.inboundLeft e' key ∧ e.Balanced call.1 call.2 e' key

/-- What becomes of the session held in `e` while `history` leads to `e'`. -/
def Fate (e : TpEngine) (history : List (TpInput × List TpEvent)) (e' : TpEngine) : Prop :=
  Run (fun s call s' => s.Step call s' ∧ Continues kind key s s') e history e' ∨
    ∃ before call after s s', history = before ++ call :: after ∧
      Run (fun s call s' => s.Step call s' ∧ Continues kind key s s') e before s ∧ s.Step call s' ∧
      Run Step s' after e' ∧ (Replaces kind key call.1 s' ∨ Leaves kind key s call s')

section

variable {e e' : TpEngine}

variable {key : Key} {kind : SessionKind} {call : TpInput × List TpEvent}

theorem inboundLeft_pos
    (held : (e.inbound kind key).isSome)
    (gone : e'.inbound kind key = none) : 1 ≤ e.inboundLeft e' key := by
  have absent : ¬ (e'.inbound kind key).isSome := by rw [gone]; exact Bool.false_ne_true
  have counted {ν : Type} {m m' : Table Key ν} (present : key ∈ m) (absent : key ∉ m') : m.left m' key = 1 :=
    if_pos ⟨present, absent⟩
  cases kind with
  | bam =>
    have one := counted (inbound_bam_isSome.mp held) (fun present => absent (inbound_bam_isSome.mpr present))
    rw [inboundLeft]
    omega
  | conn =>
    have one := counted (inbound_conn_isSome.mp held) (fun present => absent (inbound_conn_isSome.mpr present))
    rw [inboundLeft]
    omega
  | etp =>
    have one := counted (inbound_etp_isSome.mp held) (fun present => absent (inbound_etp_isSome.mpr present))
    rw [inboundLeft]
    omega

theorem Step.balanced (wf : e.WellFormed) (step : e.Step call e') (key : Key) : e.Balanced call.1 call.2 e' key := by
  obtain ⟨_, reordered, effect⟩ := step.effect
  exact .reordered reordered (effect.balanced (wf.reordered reordered) key)

theorem step_fate
    (wf : e.WellFormed)
    (held : (e.inbound kind key).isSome)
    (step : e.Step call e') :
    Continues kind key e e' ∨ Replaces kind key call.1 e' ∨ Leaves kind key e call e' := by
  have advance := step.advance wf kind key
  have leaves (gone : e'.inbound kind key = none) : Leaves kind key e call e' :=
    ⟨gone, inboundLeft_pos held gone, step.balanced wf key⟩
  generalize before : e.inbound kind key = r at advance held
  generalize after : e'.inbound kind key = r' at advance
  cases advance with
  | kept =>
    obtain ⟨r, rfl⟩ := Option.isSome_iff_exists.mp held
    exact .inl ⟨r, r, before, after, rfl, le_refl _, prefix_rfl⟩
  | opened r frame announced admitted kind_eq key_eq quiet =>
    refine .inr (.inl ⟨_, ?_, kind_eq, key_eq, after⟩)
    rw [frame]
    exact announced
  | rebased frame named kind_eq quiet => exact .inl ⟨_, _, before, after, rfl, le_refl _, prefix_rfl⟩
  | accepted frame data source expected more quiet =>
    exact .inl ⟨_, _, before, after, rfl, Nat.le_succ _, prefix_append _ _⟩
  | completed | aborted => exact .inr (.inr (leaves after))

theorem Continues.held (continues : Continues kind key e e') : (e'.inbound kind key).isSome := by
  obtain ⟨r, _, _, after, _⟩ := continues
  rw [after]
  rfl

theorem run_fate {history : List (TpInput × List TpEvent)}
    (wf : e.WellFormed)
    (held : (e.inbound kind key).isSome)
    (run : Run Step e history e') : Fate kind key e history e' := by
  induction run with
  | nil => exact .inl .nil
  | snoc before last ih =>
    rename_i history s call s'
    rcases ih with continued | ⟨earlier, ending, after, t, t', rfl, continued, step, rest, fate⟩
    · have held' : (s.inbound kind key).isSome :=
        continued.invariant (I := fun s => (s.inbound kind key).isSome) held fun _ _ _ _ step => step.2.held
      rcases step_fate (run_wellFormed wf before) held' last with continues | fate
      · exact .inl (.snoc continued ⟨last, continues⟩)
      · exact .inr ⟨history, call, [], s, s', rfl, continued, last, .nil, fate⟩
    · exact .inr ⟨earlier, ending, after ++ [call], t, t', by simp, continued, step, .snoc rest last, fate⟩

end

structure Polled (e : TpEngine) (now : Nat) (events : List TpEvent) (e' : TpEngine) : Prop where
  bam : ∀ key, e'.sessions.lookup key =
    (e.sessions.lookup key).filter fun s => !idleLongerThan e.timers.t1 now s.lastActivity
  rx : ∀ key, e'.rxConn.lookup key =
    (e.rxConn.lookup key).filter fun s => !idleLongerThan e.timers.t2 now s.lastActivity
  tx : ∀ key, e'.txConn.lookup key =
    (e.txConn.lookup key).filter fun s => !idleLongerThan e.timers.t3 now s.lastActivity
  etpRx : ∀ key, e'.etpRx.lookup key =
    (e.etpRx.lookup key).filter fun s => !idleLongerThan e.timers.t2 now s.lastActivity
  etpTx : ∀ key, e'.etpTx.lookup key =
    (e.etpTx.lookup key).filter fun s => !idleLongerThan e.timers.t3 now s.lastActivity
  queued : e'.pendingOut = e.pendingOut ++ e.timeoutFrames now
  reported : events = e.timeoutEvents now

theorem pollTimeouts_polled (e : TpEngine) (now : Nat) :
    ∃ events e', e.pollTimeouts now = .ok (events, e') ∧ e.Polled now events e' :=
  ⟨_, _, pollTimeouts_eq e now, fun key => lookup_retain _ _ key, fun key => lookup_retain _ _ key,
    fun key => lookup_retain _ _ key, fun key => lookup_retain _ _ key,
    fun key => lookup_retain _ _ key, rfl, rfl⟩

/-- A session goes on, is replaced or ends with an event, and `poll_timeouts` removes exactly the overdue ones. -/
theorem no_session_disappears (timers : TpTimers) (maxSessions : Nat) (window : UInt8) (limit : Nat)
    (history : List (TpInput × List TpEvent)) (e : TpEngine)
    (run : Run Step (configured timers maxSessions window limit) history e) :
    (∀ kind key later e', (e.inbound kind key).isSome → Run Step e later e' → Fate kind key e later e') ∧
      (∀ call e' key, e.Step call e' → e.Balanced call.1 call.2 e' key) ∧
      ∀ e₀ now, e.Reordered e₀ → ∃ events e', e₀.pollTimeouts now = .ok (events, e') ∧ e₀.Polled now events e' := by
  have wf := run_wellFormed (configured_wellFormed timers maxSessions window limit) run
  exact ⟨fun kind key later e' held later_run => run_fate wf held later_run,
    fun call e' key step => step.balanced wf key, fun e₀ now _ => pollTimeouts_polled e₀ now⟩

theorem no_session_disappears_broadcast : ∃ e e', Run Step (configured ⟨750, 1250, 1250⟩ 4 16 0)
        [(.frame (decodeExtendedId 0x18ECFF80) [0x20, 9, 0, 2, 0xFF, 0xF6, 0xFE, 0] 0, [])] e ∧
      e.Step (.pollTimeouts 751, [.aborted ⟨65270, by decide⟩ 0x80 .timeout]) e' ∧
      Fate .bam (0x80, ⟨65270, by decide⟩) e [(.pollTimeouts 751, [.aborted ⟨65270, by decide⟩ 0x80 .timeout])] e' := by
  have run : Run Step (configured ⟨750, 1250, 1250⟩ 4 16 0) _ _ :=
    .snoc .nil (Step.of_handle (i := .frame (decodeExtendedId 0x18ECFF80) [0x20, 9, 0, 2, 0xFF, 0xF6, 0xFE, 0] 0) rfl)
  refine ⟨_, swept _ 751, run, Step.of_handle (pollTimeouts_eq _ 751), ?_⟩
  exact (no_session_disappears _ _ _ _ _ _ run).1 _ _ _ _ rfl (.snoc .nil (Step.of_handle (pollTimeouts_eq _ 751)))

end TpEngine

end Taktora.J1939
