import Taktora.Can.Health
import Taktora.J1939.Claiming

namespace Taktora.J1939

open Can Checked Fallible Dispatcher AddrClaimEngine Surroundings List CanHealthMonitor

/-- The interface is reported up only while the address is claimed, and down whenever no address can be claimed. -/
def Reflects (state : ClaimState) (kind : IfaceHealthKind) : Prop :=
  (kind = .up → state = .claimed) ∧ (state = .cannotClaim → kind = .down)

instance (state : ClaimState) (kind : IfaceHealthKind) : Decidable (Reflects state kind) :=
  inferInstanceAs (Decidable (_ ∧ _))

def Node.Reflecting (n : Node) : Prop :=
  ∃ ctx, n.claim = some ctx ∧ ctx.gate = ctx.engine.state ∧ Reflects ctx.engine.state n.iface

def TpEvent.Fails : TpEvent → Prop
  | .completed _ _ _ => False
  | .aborted _ _ _ | .sessionRefused _ _ _ => True

namespace Surroundings

variable (env : Surroundings)

def Reopens : Prop :=
  (env.received = some (.ok (.error .busOff)) ∧ env.reopen = .ok ()) ∨
    (env.received = some (.error .closed) ∧ env.Reconnects)

def transfers (tp : TpEngine) : List TpEvent × TpEngine :=
  match env.received with
  | some (.ok (.data frame)) =>
    if isTpWirePgn (decodeExtendedId frame.id.value) then
      ((env.arrange tp).onFrame (decodeExtendedId frame.id.value) frame.payload env.now).toOption.getD
        ([], env.arrange tp)
    else ([], env.arrange tp)
  | _ => ([], env.arrange tp)

def Troubles (tp : TpEngine) : Prop :=
  env.received = some (.ok (.error .warning)) ∨ env.received = some (.ok (.error .passive)) ∨
    ∃ event ∈ (env.transfers tp).1 ++ (env.rearrange (env.transfers tp).2).timeoutEvents env.now, event.Fails

def Commands (env : Surroundings) (a : AddrClaimEngine) : Prop :=
  ∃ frame newSa, env.received = some (.ok (.data frame)) ∧
    a.Commands (decodeExtendedId frame.id.value) frame.payload newSa

/-- No report about the bus covers up what the claim engine has reported. -/
structure Steady (env : Surroundings) (n : Node) : Prop where
  reopened : ∀ ctx, n.claim = some ctx → env.Reopens → (ctx.engine.poll env.now).1 = [] → ctx.engine.state = .claimed
  troubled : ∀ ctx, n.claim = some ctx → ctx.engine.state = .cannotClaim → ¬ env.Commands ctx.engine →
    ¬ env.Troubles n.tp

end Surroundings

def lastState (events : List AcEvent) (state : ClaimState) : ClaimState :=
  events.foldl (fun _ event => (reflected event).1) state

def lastReport (events : List AcEvent) (kind : IfaceHealthKind) : IfaceHealthKind :=
  events.foldl (fun _ event => (reflected event).2) kind

section Reports

variable {env : Surroundings} {n n' : Node} {events : List AcEvent}

variable {a : AddrClaimEngine} {tp : TpEngine} {data : List UInt8} {newSa : UInt8}

theorem lastState_effect {a' : AddrClaimEngine} {i : Input} (effect : a.Effect i events a') :
    a'.state = lastState events a.state := by
  cases effect with
  | started claiming => exact claiming
  | _ => rfl

theorem reflecting_claim (n : Node) (events : List AcEvent) :
    (n.reflecting events).claim = n.claim.map fun ctx => { ctx with gate := lastState events ctx.gate } := by
  induction events generalizing n with
  | nil => exact Option.map_id'.symm
  | cons event rest ih =>
    refine (ih _).trans ?_
    show Option.map _ (Option.map _ n.claim) = _
    rw [Option.map_map]
    rfl

theorem reflecting_iface (n : Node) (events : List AcEvent) :
    (n.reflecting events).iface = lastReport events n.iface := by
  induction events generalizing n with
  | nil => rfl
  | cons event rest ih =>
    refine (ih _).trans ?_
    exact congrArg (lastReport rest) (Node.iface_reports _ [] _)

theorem reflects_reflected (event : AcEvent) : Reflects (reflected event).1 (reflected event).2 := by
  cases event with
  | claiming sourceAddr => exact (by decide : Reflects .claiming .connecting)
  | claimed sourceAddr => exact (by decide : Reflects .claimed .up)
  | cannotClaim => exact by decide

theorem reflects_last (news : events ≠ []) (state : ClaimState) (kind : IfaceHealthKind) :
    Reflects (lastState events state) (lastReport events kind) := by
  induction events generalizing state kind with
  | nil => exact absurd rfl news
  | cons event rest ih =>
    cases rest with
    | nil => exact reflects_reflected event
    | cons next others => exact ih (cons_ne_nil _ _) (reflected event).1 (reflected event).2

theorem iface_eventReports (n : Node) (events : List TpEvent) :
    (n.reports (events.flatMap eventReports)).iface = n.iface ∨
      ((n.reports (events.flatMap eventReports)).iface = .degraded ∧ ∃ event ∈ events, event.Fails) := by
  induction events generalizing n with
  | nil => exact .inl (congrArg Node.iface n.reports_nil)
  | cons event rest ih =>
    rw [flatMap_cons, ← Node.reports_reports]
    have here : (n.reports (eventReports event)).iface = n.iface ∨
        ((n.reports (eventReports event)).iface = .degraded ∧ event.Fails) := by
      cases event with
      | completed => exact .inl (congrArg Node.iface n.reports_nil)
      | aborted | sessionRefused => exact .inr ⟨n.iface_reports [] _, trivial⟩
    rcases ih (n.reports (eventReports event)) with same | ⟨degraded, later, member, fails⟩
    · rw [same]
      exact here.imp_right fun failed => ⟨failed.1, event, mem_cons_self, failed.2⟩
    · exact .inr ⟨degraded, later, mem_cons_of_mem event member, fails⟩

theorem transfers_eq {tp' : TpEngine} {frame : CanData} {events : List TpEvent}
    (received : env.received = some (.ok (.data frame)))
    (transport : isTpWirePgn (decodeExtendedId frame.id.value) = true)
    (handled : (env.arrange tp).onFrame (decodeExtendedId frame.id.value) frame.payload env.now = .ok (events, tp')) :
    env.transfers tp = (events, tp') := by
  rw [transfers, received]
  dsimp only
  rw [if_pos transport, handled]
  rfl

theorem Received.iface (received : Received env n events n') (arranged : n.tp = env.arrange tp) :
    n'.tp = (env.transfers tp).2 ∧
      (n'.iface = n.iface ∨ n'.iface = .down ∨ (n'.iface = .up ∧ env.Reopens) ∨
        (n'.iface = .degraded ∧ (env.received = some (.ok (.error .warning)) ∨
          env.received = some (.ok (.error .passive)) ∨ ∃ event ∈ (env.transfers tp).1, event.Fails))) := by
  cases received with
  | nothing quiet =>
    refine ⟨?_, .inl rfl⟩
    rcases quiet with quiet | ⟨_, _, quiet⟩ <;> rw [transfers, quiet, arranged]
  | @data frame events n' received demuxed =>
    cases demuxed with
    | claimed held own =>
      have other : isTpWirePgn (decodeExtendedId frame.id.value) = false := by
        by_contra transport
        rw [isClaimPgn_of_transport (Bool.eq_true_of_not_eq_false transport)] at own
        cases own
      refine ⟨?_, .inl rfl⟩
      rw [transfers, received]
      dsimp only
      rw [other, ← arranged]
      rfl
    | delivered other single =>
      refine ⟨?_, .inl rfl⟩
      rw [transfers, received]
      dsimp only
      rw [single, ← arranged]
      rfl
    | @transported events tp' transport handled =>
      rw [transfers_eq received transport (arranged ▸ handled)]
      refine ⟨rfl, ?_⟩
      rcases iface_eventReports ({ n with tp := tp' }.publishes (events.flatMap (eventDeliveries env.registry)))
        events with same | ⟨degraded, failed⟩
      · exact .inl same
      · exact .inr (.inr (.inr ⟨degraded, .inr (.inr failed)⟩))
  | @error kind received opened =>
    refine ⟨by rw [transfers, received]; exact arranged, ?_⟩
    cases kind with
    | warning => exact .inr (.inr (.inr ⟨n.iface_reports [] _, .inl received⟩))
    | passive => exact .inr (.inr (.inr ⟨n.iface_reports [] _, .inr (.inl received)⟩))
    | busOff => exact .inr (.inr (.inl ⟨n.iface_reports [_, _] _, .inl ⟨received, opened rfl⟩⟩))
    | arbitrationLost | other => exact .inl (congrArg Node.iface n.reports_nil)
  | closed received =>
    refine ⟨by rw [transfers, received]; exact arranged, ?_⟩
    split
    · rename_i reconnects
      exact .inr (.inr (.inl ⟨n.iface_reports [_, _] _, .inr ⟨received, reconnects⟩⟩))
    · exact .inr (.inl (n.iface_reports [] _))

theorem onFrame_commands {decoded : DecodedId} (commands : a.Commands decoded data newSa) (now : Nat) :
    (a.onFrame decoded data now).1 = [.claiming newSa] := by
  obtain ⟨commanded, last, addressed⟩ := commands
  rw [onFrame, commanded, if_neg (by decide), if_neg (by decide), if_pos rfl, onCommandedAddress, last]
  dsimp only
  rw [if_neg (not_not.mpr addressed)]

theorem Received.claim {ctx : ClaimCtx} (received : Received env n events n') (held : n.claim = some ctx) :
    ∃ i a, ctx.engine.Effect i events a ∧ n'.claim = some { ctx with engine := a } ∧
      (env.Commands ctx.engine → events ≠ []) := by
  have silent (quiet : ∀ frame, env.received = some (.ok (.data frame)) →
      isClaimPgn (decodeExtendedId frame.id.value) = false) : env.Commands ctx.engine → ([] : List AcEvent) ≠ [] := by
    rintro ⟨frame, _, received, commands⟩
    have own := quiet frame received
    simp only [isClaimPgn, commands.1] at own
    cases own
  cases received with
  | nothing quiet =>
    refine ⟨.poll 0, _, .ignored, held, silent fun frame received => ?_⟩
    rcases quiet with quiet | ⟨_, _, quiet⟩ <;> cases quiet.symm.trans received
  | error same | closed same =>
    exact ⟨.poll 0, _, .ignored, held, silent fun frame received => by cases same.symm.trans received⟩
  | data same demuxed =>
    cases demuxed with
    | transported transport handled =>
      refine ⟨.poll 0, _, .ignored, held, silent fun frame received => ?_⟩
      cases same.symm.trans received
      exact isClaimPgn_of_transport transport
    | delivered other single =>
      refine ⟨.poll 0, _, .ignored, held, silent fun frame received => ?_⟩
      cases same.symm.trans received
      exact other ctx held
    | claimed present own =>
      cases held.symm.trans present
      refine ⟨_, _, ctx.engine.onFrame_effect _ _ env.now, rfl, ?_⟩
      rintro ⟨_, _, received, commands⟩
      cases same.symm.trans received
      rw [heard, onFrame_commands commands]
      exact cons_ne_nil _ _

theorem swept_iface (env : Surroundings) (n : Node) : (n.swept env).iface = n.iface ∨
    ((n.swept env).iface = .degraded ∧ ∃ event ∈ (env.rearrange n.tp).timeoutEvents env.now, event.Fails) :=
  iface_eventReports { n with tp := (env.rearrange n.tp).swept env.now } _

/-- Without news from the claim engine, a steady iteration reports nothing that the claim state contradicts. -/
theorem Surroundings.Steady.reflects {ctx : ClaimCtx} {m : Node}
    (steady : env.Steady n)
    (held : n.claim = some ctx)
    (start : Reflects ctx.engine.state n.iface)
    (arranged : m.tp = env.arrange n.tp)
    (same : m.iface = n.iface)
    (received : Received env m events n')
    (unpolled : (ctx.engine.poll env.now).1 = [])
    (uncommanded : ¬ env.Commands ctx.engine) :
    Reflects ctx.engine.state (n'.swept env).iface := by
  obtain ⟨reached, kinds⟩ := received.iface arranged
  have calm (trouble : env.Troubles n.tp) : Reflects ctx.engine.state .degraded := by
    refine ⟨IfaceHealthKind.noConfusion, fun lost => ?_⟩
    exact absurd trouble (steady.troubled ctx held lost uncommanded)
  rcases swept_iface env n' with kept | ⟨degraded, event, _, fails⟩
  · rw [kept]
    rcases kinds with unchanged | down | ⟨up, reopens⟩ | ⟨degraded, bus | bus | ⟨event, member, fails⟩⟩
    · rw [unchanged, same]
      exact start
    · rw [down]
      exact ⟨IfaceHealthKind.noConfusion, fun _ => rfl⟩
    · have claimed := steady.reopened ctx held reopens unpolled
      exact ⟨fun _ => claimed, fun lost => by cases claimed.symm.trans lost⟩
    · rw [degraded]
      exact calm (.inl bus)
    · rw [degraded]
      exact calm (.inr (.inl bus))
    · rw [degraded]
      exact calm (.inr (.inr ⟨event, mem_append_left _ member, fails⟩))
  · rw [degraded]
    refine calm (.inr (.inr ⟨event, mem_append_right _ ?_, fails⟩))
    rwa [← reached]

theorem Iterated.reflecting {sourceAddr : UInt8}
    (iterated : Iterated sourceAddr env n n')
    (steady : env.Steady n)
    (start : n.Reflecting) : n'.Reflecting := by
  obtain ⟨ctx, held, gate, agrees⟩ := start
  cases iterated with
  | @intro jobs events n₁ collected received =>
    have polled : (({ n with tp := env.arrange n.tp }.sends jobs).polled env).claim =
        some { ctx with engine := (ctx.engine.poll env.now).2 } := congrArg (Option.map _) held
    have pollEvents : n.pollEvents env = (ctx.engine.poll env.now).1 := by rw [Node.pollEvents, held]; rfl
    obtain ⟨i, a, effect, claim, news⟩ := received.claim polled
    have state : a.state = lastState (n.pollEvents env ++ events) ctx.engine.state := by
      rw [lastState, foldl_append, ← lastState, ← lastState, pollEvents,
        ← lastState_effect (ctx.engine.poll_effect env.now)]
      exact lastState_effect effect
    have iface : (((n₁.swept env).flushed.reflecting (n.pollEvents env ++ events)).announced).iface =
        lastReport (n.pollEvents env ++ events) (n₁.swept env).iface := reflecting_iface _ _
    refine ⟨⟨a.takeOutbound.2, lastState (n.pollEvents env ++ events) ctx.gate⟩, ?_, ?_, ?_⟩
    · show Option.map _ ((n₁.swept env).flushed.reflecting (n.pollEvents env ++ events)).claim = _
      rw [reflecting_claim]
      show Option.map _ (Option.map _ n₁.claim) = _
      rw [claim]
      rfl
    · rw [gate]
      exact state.symm
    · rw [iface, show a.takeOutbound.2.state = a.state from rfl, state]
      by_cases empty : n.pollEvents env ++ events = []
      · obtain ⟨unpolled, unheard⟩ := append_eq_nil_iff.mp empty
        rw [empty]
        refine steady.reflects held agrees (m := ({ n with tp := env.arrange n.tp }.sends jobs).polled env)
          rfl rfl received (pollEvents.symm.trans unpolled) ?_
        rintro ⟨frame, newSa, hears, pgn, last, addressed⟩
        refine news ⟨frame, newSa, hears, pgn, last, ?_⟩ unheard
        rw [addressed]
        exact (ctx.engine.poll_effect env.now).name.symm
      · exact reflects_last empty _ _

end Reports

def Node.Returns (sourceAddr : UInt8) (n : Node) (env : Surroundings) (n' : Node) : Prop :=
  ∃ outcome, dispatchIteration sourceAddr env n = .ok outcome n'

theorem Node.Returns.iterated {sourceAddr : UInt8} {env : Surroundings} {n n' : Node} {ctx : ClaimCtx}
    (returns : n.Returns sourceAddr env n')
    (held : n.claim = some ctx) : Iterated sourceAddr env n n' := by
  obtain ⟨_, returned⟩ := returns
  exact (dispatchIteration_spec (I := fun _ => True) False.elim ⟨ctx, held, trivial⟩ (fun _ _ => trivial)
    (fun _ _ _ _ => trivial) fun _ _ => trivial).of_ok rfl returned

section Running

variable {timers : TpTimers} {maxTpSessions maxEtpBytes claimWait : Nat} {sourceAddr : UInt8} {name : UInt64}
  {history : List Surroundings} {n : Node}

def Node.monitor (iface : CanIface) (n : Node) : CanHealthMonitor :=
  n.health.foldl (fun monitor kind => (monitor.setIface iface kind).2) (.new [iface])

theorem monitor_ifaceKind (iface : CanIface) (n : Node) : (n.monitor iface).ifaceKind iface = some n.iface :=
  replay_ifaceKind n.health (AList.lookup_insert _)

/-- In a steady run the gate is the claim state, and the health of the interface follows it. -/
theorem steady_run_reports_claim (iface : CanIface)
    (run : Run (fun n env n' => env.Steady n ∧ n.Returns sourceAddr env n')
      (.configured timers maxTpSessions maxEtpBytes sourceAddr name claimWait) history n) :
    ∃ ctx, n.claim = some ctx ∧ ctx.gate = ctx.engine.state ∧
      ((n.monitor iface).ifaceKind iface = some .up → ctx.engine.state = .claimed) ∧
      (ctx.engine.state = .cannotClaim → (n.monitor iface).ifaceKind iface = some .down) := by
  have start : (Node.configured timers maxTpSessions maxEtpBytes sourceAddr name claimWait).Reflecting :=
    ⟨_, rfl, rfl, (by decide : Reflects .claiming .connecting)⟩
  have reflecting : n.Reflecting := by
    refine run.invariant start ?_
    rintro n _ _ reflecting ⟨steady, returns⟩
    have ⟨ctx, held, _⟩ := reflecting
    exact (returns.iterated held).reflecting steady reflecting
  obtain ⟨ctx, held, gate, up, down⟩ := reflecting
  rw [monitor_ifaceKind]
  exact ⟨ctx, held, gate, fun reported => up (Option.some.inj reported), fun lost => congrArg some (down lost)⟩

end Running

def Surroundings.faulty (now : Nat) (kind : CanErrorKind) : Surroundings :=
  { Surroundings.quiet now none with received := some (.ok (.error kind)) }

def rivalClaim : CanData := ⟨⟨0x18EEFF10, true⟩, .classical, [1, 0, 0, 0, 0, 0, 0, 0]⟩

theorem steady_run_reports_claimed :
    let claiming := final (dispatchIteration 0x10 (.quiet 0 none)) defaultNode
    let n := final (dispatchIteration 0x10 (.quiet 250 none)) claiming
    ∃ ctx, n.claim = some ctx ∧ ctx.gate = ctx.engine.state ∧ (n.monitor vcan0).ifaceKind vcan0 = some .up ∧
      ctx.engine.state = .claimed := by
  intro claiming n
  have steady (n : Node) (now : Nat) (going : n.claim.map (·.engine.state) = some .claiming) :
      (Surroundings.quiet now none).Steady n := by
    constructor
    · rintro ctx _ (⟨received, _⟩ | ⟨received, _⟩)
      · cases received
      · cases received
    · intro ctx held lost
      rw [held, Option.map_some, lost] at going
      cases going
  have run : Run (fun n env n' => env.Steady n ∧
      n.Returns 0x10 env n') defaultNode [.quiet 0 none, .quiet 250 none] n :=
    .snoc (.snoc .nil ⟨steady _ _ rfl, ok_of_run' (by decide +kernel)⟩)
      ⟨steady claiming _ (by decide +kernel), ok_of_run' (by decide +kernel)⟩
  have up : (n.monitor vcan0).ifaceKind vcan0 = some .up := by decide +kernel
  obtain ⟨ctx, held, gate, claimed, _⟩ := steady_run_reports_claim vcan0 run
  exact ⟨ctx, held, gate, up, claimed up⟩

/-- A bus warning degrades a node that is down, and a bus that comes back turns it up without an address. -/
theorem bus_reports_cover_claim :
    let lost := dispatcherLoop 0x10 [.quiet 0 none, .quiet 100 (some rivalClaim), .faulty 200 .warning]
    let early := dispatcherLoop 0x10 [.quiet 0 none, .faulty 100 .busOff]
    (lost.run' defaultNode).isSome = true ∧ (early.run' defaultNode).isSome = true ∧
    (final lost defaultNode).claim.map (fun ctx => (ctx.engine.state, ctx.gate)) = some (.cannotClaim, .cannotClaim) ∧
    ((final lost defaultNode).monitor vcan0).ifaceKind vcan0 = some .degraded ∧
    (final early defaultNode).claim.map (fun ctx => (ctx.engine.state, ctx.gate)) = some (.claiming, .claiming) ∧
    ((final early defaultNode).monitor vcan0).ifaceKind vcan0 = some .up := by
  decide +kernel

end Taktora.J1939
