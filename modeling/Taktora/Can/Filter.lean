import Taktora.Can.Recovery

namespace Taktora.Can

open Fallible CanDispatcher List CanHealthMonitor

inductive Socket where
  | closed
  | accepting
  | filtering (filters : List CanFilter)
deriving DecidableEq

def Socket.after : Socket → Act → Socket
  | _, .reopen (.ok _) _ => .accepting
  | _, .reopen (.error _) _ => .closed
  | .closed, _ => .closed
  | _, .applyFilter filters (.ok _) => .filtering filters
  | socket, _ => socket

def IfaceTask.socket (t : IfaceTask) : Socket := t.trace.foldl Socket.after .accepting

def CanDispatcher.beforeRecv (iface : CanIface) (env : IfaceSurroundings) : IfaceDispatch Unit := do
  recompileFilter iface env
  drainOutboundOnce iface env

structure IfaceSurroundings.Grows (env : IfaceSurroundings) : Prop where
  compiled : env.counted <+: env.compiled
  registry : env.compiled <+: env.registry
  reconnected : env.registry <+: env.reconnected

structure IfaceSurroundings.Refilters (iface : CanIface) (env : IfaceSurroundings) : Prop where
  busOff : env.received = some (.ok (.error .busOff)) → inboundCount env.registry iface = 0
  reapplied : env.received = some (.error .closed) → env.reapplied = .ok () ∨ inboundCount env.reconnected iface = 0

/-- What the task believes of the socket: its filter is no older than the last count. -/
structure Believes (iface : CanIface) (seen : ChannelRegistry) (t : IfaceTask) : Prop where
  compiled : ∃ counted compiled, counted <+: compiled ∧ compiled <+: seen ∧
    inboundCount counted iface = t.lastInboundCount ∧ t.lastFilter = compileIfaceFilter compiled iface
  installed : t.socket = .filtering t.lastFilter ∨ (t.lastFilter = [] ∧ t.socket = .accepting)

section Registries

variable {iface : CanIface} {earlier registry later : ChannelRegistry}

theorem inbound_grows (iface : CanIface) (grows : earlier <+: later) :
    earlier.iterIfaceDirection iface .inbound <+: later.iterIfaceDirection iface .inbound := grows.filter _

theorem compile_of_count
    (grows : earlier <+: registry)
    (grows' : registry <+: later)
    (same : inboundCount earlier iface = inboundCount later iface) :
    compileIfaceFilter registry iface = compileIfaceFilter later iface := by
  have before := inbound_grows iface grows
  have after := inbound_grows iface grows'
  have length : (registry.iterIfaceDirection iface .inbound).length =
      (later.iterIfaceDirection iface .inbound).length := by
    have fewer := before.length_le
    have more := after.length_le
    unfold inboundCount at same
    omega
  rw [compileIfaceFilter, after.eq_of_length length, compileIfaceFilter]

theorem compile_of_none
    (grows : earlier <+: later)
    (none : inboundCount later iface = 0) : compileIfaceFilter earlier iface = [] := by
  have empty : earlier.iterIfaceDirection iface .inbound = [] := by
    have fewer := (inbound_grows iface grows).length_le
    unfold inboundCount at none
    exact length_eq_zero_iff.mp (by omega)
  rw [compileIfaceFilter, empty]
  rfl

theorem compile_of_some
    (grows : earlier <+: later)
    (some : inboundCount earlier iface ≠ 0) : compileIfaceFilter later iface ≠ [] := by
  unfold compileIfaceFilter
  cases channels : later.iterIfaceDirection iface .inbound with
  | nil =>
    have fewer := (inbound_grows iface grows).length_le
    rw [channels, length_nil] at fewer
    unfold inboundCount at some
    omega
  | cons channel rest =>
    apply ne_nil_of_mem
    exact (mem_compile _ _).mpr ⟨channel.routing, mem_cons_self, rfl⟩

end Registries

section Turns

variable {iface : CanIface} {env : IfaceSurroundings} {seen later : ChannelRegistry} {t t' m : IfaceTask}

theorem socket_acts (t : IfaceTask) (steps : List Act) : (t.acts steps).socket = steps.foldl Socket.after t.socket :=
  foldl_append

theorem after_report (socket : Socket) (kind : IfaceHealthKind) : socket.after (.report kind) = socket := by
  cases socket <;> rfl

theorem Believes.mono (believes : Believes iface seen t) (grows : seen <+: later) : Believes iface later t := by
  obtain ⟨counted, compiled, order, known, count, filter⟩ := believes.compiled
  exact ⟨⟨counted, compiled, order, known.trans grows, count, filter⟩, believes.installed⟩

theorem Believes.congr
    (believes : Believes iface seen t)
    (count : t'.lastInboundCount = t.lastInboundCount)
    (filter : t'.lastFilter = t.lastFilter)
    (socket : t'.socket = t.socket) : Believes iface seen t' := by
  obtain ⟨known, installed⟩ := believes
  rw [← filter, ← socket] at installed
  rw [← filter, ← count] at known
  exact ⟨known, installed⟩

theorem recompileFilter_cases : Ensures (· = t) (recompileFilter iface env)
      (fun _ m => (inboundCount env.counted iface = t.lastInboundCount ∧ m = t) ∨
        (compileIfaceFilter env.compiled iface = t.lastFilter ∧
          m = { t with lastInboundCount := inboundCount env.counted iface }) ∨
        m = { t.acts [.applyFilter (compileIfaceFilter env.compiled iface) (.ok ())] with
          lastFilter := compileIfaceFilter env.compiled iface, lastInboundCount := inboundCount env.counted iface })
      fun _ => True := by
  refine ensures_get_bind ?_
  rintro t rfl
  dsimp only
  split
  · split
    · cases env.applied with
      | error e => exact fun _ _ => trivial
      | ok _ =>
        rintro _ rfl
        exact .inr (.inr rfl)
    · rename_i same
      rintro _ rfl
      exact .inr (.inl ⟨not_not.mp same, rfl⟩)
  · rename_i same
    exact ensures_pure fun _ unchanged => .inl ⟨not_not.mp same, unchanged⟩

theorem Believes.recompiled
    (believes : Believes iface seen t)
    (begins : seen <+: env.counted)
    (grows : env.Grows)
    (returned : recompileFilter iface env t = .ok () m) :
    Believes iface env.compiled m ∧ ∃ registry, (registry = env.counted ∨ registry = env.compiled) ∧
      m.lastFilter = compileIfaceFilter registry iface := by
  obtain ⟨_, _, order, known, count, filter⟩ := believes.compiled
  rcases recompileFilter_cases.of_ok rfl returned with ⟨same, rfl⟩ | ⟨same, rfl⟩ | rfl
  · refine ⟨believes.mono (begins.trans grows.compiled), env.counted, .inl rfl, ?_⟩
    rw [filter]
    exact compile_of_count order (known.trans begins) (count.trans same.symm)
  · refine ⟨⟨⟨env.counted, env.compiled, grows.compiled, prefix_rfl, rfl, same.symm⟩, believes.installed⟩,
      env.compiled, .inr rfl, same.symm⟩
  · refine ⟨⟨⟨env.counted, env.compiled, grows.compiled, prefix_rfl, rfl, rfl⟩, .inl ?_⟩, env.compiled, .inr rfl, rfl⟩
    refine (socket_acts t [_]).trans ?_
    rcases believes.installed with filtering | ⟨_, accepting⟩
    · rw [filtering]
      rfl
    · rw [accepting]
      rfl

theorem tries_socket (socket : Socket) {attempts : List (Except CanIoError Unit × CanIfaceState)}
    (opened : attempts.any opens = true) : (tries attempts).foldl Socket.after socket = .accepting := by
  induction attempts generalizing socket with
  | nil => cases opened
  | cons attempt rest ih =>
    rw [tries]
    by_cases here : opens attempt = true
    · rw [if_pos here]
      obtain ⟨result, _⟩ := attempt
      cases result with
      | ok _ => rfl
      | error e => cases (of_decide_eq_true here).1
    · rw [if_neg here]
      rw [any_cons, Bool.eq_false_iff.mpr here] at opened
      exact ih _ opened

theorem Believes.received
    (believes : Believes iface env.compiled m)
    (grows : env.Grows)
    (refilters : env.Refilters iface)
    (received : Received iface env m true t') : Believes iface env.reconnected t' := by
  have grown : env.compiled <+: env.reconnected := grows.registry.trans grows.reconnected
  cases received with
  | nothing => exact believes.mono grown
  | data => exact (believes.mono grown).congr rfl rfl rfl
  | @error kind received opened =>
    cases kind with
    | busOff =>
      obtain ⟨counted, compiled, order, known, count, filter⟩ := believes.compiled
      refine ⟨⟨counted, compiled, order, known.trans grown, count, filter⟩, .inr ⟨?_, ?_⟩⟩
      · exact filter.trans (compile_of_none (known.trans grows.registry) (refilters.busOff received))
      · rw [socket_acts, errorActs, opened rfl]
        rfl
    | warning | passive =>
      refine (believes.mono grown).congr rfl rfl ?_
      rw [socket_acts, errorActs, foldl_cons, after_report, foldl_nil]
    | arbitrationLost | other => exact (believes.mono grown).congr rfl rfl (socket_acts m [])
  | reconnected received opened =>
    obtain ⟨counted, _, order, known, count, _⟩ := believes.compiled
    refine ⟨⟨counted, env.reconnected, order.trans (known.trans grown), prefix_rfl, count, rfl⟩, ?_⟩
    have socket (result : Except CanIoError Unit) (filters : List CanFilter) :
        (({ m with lastFilter := filters } : IfaceTask).acts
          (.report .down :: tries env.attempts ++ [.applyFilter filters result, .report .connecting,
            .report .up])).socket =
        Socket.accepting.after (.applyFilter filters result) := by
      rw [socket_acts, cons_append, foldl_cons, foldl_append, tries_socket _ opened, foldl_cons,
        foldl_cons, foldl_cons, foldl_nil, after_report, after_report]
    rw [socket]
    rcases refilters.reapplied received with fine | none
    · rw [fine]
      exact .inl rfl
    · have empty : compileIfaceFilter env.reconnected iface = [] := compile_of_none prefix_rfl none
      cases env.reapplied with
      | ok _ => exact .inl rfl
      | error e => exact .inr ⟨empty, rfl⟩

def TurnStep (iface : CanIface) (s : ChannelRegistry × IfaceTask) (env : IfaceSurroundings)
    (s' : ChannelRegistry × IfaceTask) : Prop :=
  s.1 <+: env.counted ∧ env.Grows ∧ dispatchOnce iface env s.2 = .ok true s'.2 ∧ s'.1 = env.reconnected

theorem Believes.turn {s s' : ChannelRegistry × IfaceTask}
    (believes : Believes iface s.1 s.2)
    (step : TurnStep iface s env s')
    (refilters : env.Refilters iface) : Believes iface s'.1 s'.2 := by
  obtain ⟨begins, grows, returned, last⟩ := step
  obtain ⟨m, jobs, recompiled, _, _, received⟩ := (dispatchOnce_spec False.elim).of_ok rfl returned
  have sent : Believes iface env.compiled (m.sends jobs) :=
    (believes.recompiled begins grows recompiled).1.congr rfl rfl rfl
  rw [last]
  exact sent.received grows refilters received

theorem believes_bringUp {registry : ChannelRegistry} {applied : Except CanIoError Unit}
    (up : bringUp iface registry applied .new = .ok () t) : Believes iface registry t := by
  have spec : Ensures (· = .new) (bringUp iface registry applied) (fun _ t => Believes iface registry t) fun _ =>
      True := by
    refine ensures_get_bind ?_
    rintro t rfl
    dsimp only
    split
    · cases applied with
      | error e => exact fun _ _ => trivial
      | ok _ =>
        rintro _ rfl
        exact ⟨⟨[], registry, nil_prefix, prefix_rfl, rfl, rfl⟩, .inl rfl⟩
    · rename_i same
      have empty : compileIfaceFilter registry iface = [] := not_not.mp same
      rintro _ rfl
      exact ⟨⟨[], registry, nil_prefix, prefix_rfl, rfl, empty.symm⟩, .inr ⟨rfl, rfl⟩⟩
  exact spec.of_ok rfl up

end Turns

/-- Whenever the task waits for a frame, its socket has the filter of the channels at some moment of the turn. -/
theorem installed_filter_is_registered {iface : CanIface} {registry seen : ChannelRegistry}
    {applied : Except CanIoError Unit} {t₀ t t' : IfaceTask} {history : List IfaceSurroundings}
    {env : IfaceSurroundings}
    (up : bringUp iface registry applied .new = .ok () t₀)
    (run : Run (fun s env s' => TurnStep iface s env s' ∧ env.Refilters iface) (registry, t₀) history (seen, t))
    (begins : seen <+: env.counted)
    (grows : env.Grows)
    (counted : inboundCount env.counted iface ≠ 0)
    (waits : beforeRecv iface env t = .ok () t') :
    ∃ moment, (moment = env.counted ∨ moment = env.compiled) ∧
      t'.socket = .filtering (compileIfaceFilter moment iface) := by
  have believes : Believes iface seen t := run.invariant (I := fun s => Believes iface s.1 s.2) (believes_bringUp up)
      fun _ _ _ believes step => believes.turn step.1 step.2
  have spec : Ensures (· = t) (beforeRecv iface env)
      (fun _ t' => ∃ m jobs, recompileFilter iface env t = .ok () m ∧ t' = m.sends jobs) fun _ => True := by
    refine ensures_bind_from (recompileFilter_cases) ?_
    intro _ m recompiled _
    refine (drainOutboundOnce_spec False.elim False.elim).weaken ?_ fun _ _ => trivial
    rintro _ _ ⟨jobs, _, rfl⟩
    exact ⟨m, jobs, recompiled, rfl⟩
  obtain ⟨m, _, recompiled, rfl⟩ := spec.of_ok rfl waits
  obtain ⟨believes', moment, at_moment, filter⟩ := believes.recompiled begins grows recompiled
  have some : compileIfaceFilter moment iface ≠ [] := by
    rcases at_moment with rfl | rfl
    · exact compile_of_some prefix_rfl counted
    · exact compile_of_some grows.compiled counted
  refine ⟨moment, at_moment, ?_⟩
  rcases believes'.installed with filtering | ⟨empty, _⟩
  · exact filtering.trans (congrArg _ filter)
  · exact absurd (filter.symm.trans empty) some

def inboundChannel : RegisteredChannel where
  descriptorName := "speed"
  routing := ⟨CanHealthMonitor.vcan0, ⟨0x123, false⟩, 0x7FF, .classical⟩
  direction := .inbound
  binding := .unbound

def channelTurn (received : Option (Except CanIoError CanFrame))
    (attempts : List (Except CanIoError Unit × CanIfaceState)) : IfaceSurroundings where
  registry := [inboundChannel]
  applied := .ok ()
  send _ _ := .ok ()
  received := received
  reopen := .ok ()
  reopened := .active
  attempts := attempts
  reapplied := .ok ()

theorem reconnected_socket_filters :
    let env := channelTurn (some (.error .closed)) [(.ok (), .active)]
    ∃ t₀ t t', bringUp vcan0 [] (.ok ()) .new = .ok () t₀ ∧ dispatchOnce vcan0 env t₀ =
      .ok true t ∧ beforeRecv vcan0 env t = .ok () t' ∧ t'.socket = .filtering [⟨0x123, 0x800007FF⟩] := by
  intro env
  have grows : env.Grows := ⟨prefix_rfl, prefix_rfl, prefix_rfl⟩
  have refilters : env.Refilters vcan0 := by
    refine ⟨?_, fun _ => .inl rfl⟩
    intro received
    cases received
  obtain ⟨t₀, t, t', up, turned, waits⟩ : ∃ t₀ t t', bringUp vcan0 [] (.ok ()) .new = .ok () t₀ ∧
      dispatchOnce vcan0 env t₀ = .ok true t ∧ beforeRecv vcan0 env t = .ok () t' :=
    ⟨_, _, _, rfl, rfl, rfl⟩
  have turn : TurnStep vcan0 ([], t₀) env ([inboundChannel], t) := ⟨List.nil_prefix, grows, turned, rfl⟩
  obtain ⟨moment, at_moment, socket⟩ := installed_filter_is_registered up (.snoc .nil ⟨turn, refilters⟩)
    prefix_rfl grows (by decide) waits
  refine ⟨t₀, t, t', up, turned, waits, ?_⟩
  rcases at_moment with rfl | rfl
  · exact socket
  · exact socket

/-- The socket that is opened after the bus went off accepts everything in the next turn. -/
theorem bus_off_removes_filter :
    let env := channelTurn (some (.ok (.error .busOff))) []
    let loop := dispatcherLoop vcan0 [inboundChannel] (.ok ()) [env] >>= fun _ =>
      beforeRecv vcan0 env
    loop.run' .new = some () ∧ inboundCount env.counted vcan0 = 1 ∧
      (final loop .new).socket = .accepting := by
  decide

end Taktora.Can
