import Taktora.Can.Recovery
import Taktora.J1939.ClaimHealth

namespace Taktora.Can

open Fallible CanDispatcher List

/-- A channel as `create_reader` registers it: its capacity is that of its kind of frame. -/
def RegisteredChannel.Readable (channel : RegisteredChannel) : Prop :=
  channel.binding = .inbound (publishUpTo channel.routing.kind.maxPayload)

namespace IfaceSurroundings

structure Traffic (iface : CanIface) (env : IfaceSurroundings) : Prop where
  applies : env.applied = .ok ()
  carries : ∀ c ∈ env.registry.iterIfaceDirection iface .outbound, c.Carried
  sends : env.Sends
  readers : ∀ c ∈ env.registry, c.direction = .inbound → c.Readable
  received : ∀ result, env.received = some result → ∃ frame, result = .ok frame ∧ frame ≠ .error .busOff

def Fits (iface : CanIface) (env : IfaceSurroundings) : Prop :=
  ∀ frame, env.received = some (.ok (.data frame)) → ∀ c ∈ env.registry.iterIfaceDirection iface .inbound,
    c.routing.matches frame = true → frame.payload.length ≤ c.routing.kind.maxPayload

def owed (iface : CanIface) (env : IfaceSurroundings) : List (String × List UInt8) :=
  match env.received with
  | some (.ok (.data frame)) =>
    ((env.registry.iterIfaceDirection iface .inbound).filter (·.routing.matches frame)).map
      fun c => (c.descriptorName, frame.payload)
  | _ => []

end IfaceSurroundings

section Publishing

variable {iface : CanIface} {env : IfaceSurroundings} {t : IfaceTask}

theorem publishUpTo_ok {capacity : Nat} {payload : List UInt8} (fits : payload.length ≤ capacity) :
    publishUpTo capacity payload = .ok () := if_neg (not_lt.mpr fits)

theorem RegisteredChannel.Readable.accepts {channel : RegisteredChannel} {payload : List UInt8}
    (readable : channel.Readable)
    (fits : payload.length ≤ channel.routing.kind.maxPayload) : channel.Accepts payload := by
  intro publish bound
  cases readable.symm.trans bound
  exact publishUpTo_ok fits

theorem iterIfaceDirection_readable (traffic : env.Traffic iface) :
    ∀ c ∈ env.registry.iterIfaceDirection iface .inbound, c.Readable := by
  intro c member
  obtain ⟨registered, inbound⟩ := mem_filter.mp member
  exact traffic.readers c registered (of_decide_eq_true inbound).2

theorem IfaceSurroundings.Traffic.works (traffic : env.Traffic iface) (fits : env.Fits iface) : env.Works iface where
  applies := traffic.applies
  carries := traffic.carries
  sends := traffic.sends
  receives := by
    intro e received
    obtain ⟨frame, impossible, _⟩ := traffic.received _ received
    cases impossible
  accepts := by
    intro frame received c member matching
    exact (iterIfaceDirection_readable traffic c member).accepts (fits frame received c member matching)

theorem flatMap_delivery {frame : CanData} {channels : List RegisteredChannel} (readable : ∀ c ∈ channels, c.Readable) :
    channels.flatMap (delivery frame) =
      (channels.filter (·.routing.matches frame)).map fun c => (c.descriptorName, frame.payload) := by
  induction channels with
  | nil => rfl
  | cons c rest ih =>
    obtain ⟨here, others⟩ := forall_mem_cons.mp readable
    have inbound : c.binding.isInbound = true := by rw [here]; rfl
    rw [flatMap_cons, filter_cons, ih others, delivery, inbound, Bool.and_true]
    split <;> rfl

theorem turn_publishes
    (traffic : env.Traffic iface)
    (fits : env.Fits iface) :
    ∃ t', dispatchOnce iface env t = .ok true t' ∧ t'.published = t.published ++ env.owed iface := by
  obtain ⟨_, _, returned, m, jobs, _, filtered, _, received⟩ :=
    (dispatchOnce_spec fun _ => traffic.works fits).returns rfl fun t' failed => by
      obtain ⟨⟨received, _⟩, _⟩ := failed trivial
      obtain ⟨_, same, alive⟩ := traffic.received _ received
      cases same
      exact alive rfl
  rw [returned]
  have before : (m.sends jobs).published = t.published := filtered.2.1
  have closed (impossible : env.received = some (.error .closed)) : False := by
    obtain ⟨_, same, _⟩ := traffic.received _ impossible
    cases same
  unfold IfaceSurroundings.owed
  cases received with
  | nothing quiet =>
    refine ⟨_, rfl, ?_⟩
    rcases quiet with quiet | ⟨_, _, quiet⟩ <;> rw [quiet, before, append_nil]
  | error received opened =>
    refine ⟨_, rfl, ?_⟩
    rw [received]
    exact before.trans (append_nil _).symm
  | data received =>
    refine ⟨_, rfl, ?_⟩
    rw [received]
    dsimp only
    rw [← flatMap_delivery (iterIfaceDirection_readable traffic), ← before]
    rfl
  | stopped received | reconnected received => exact (closed received).elim

end Publishing

end Taktora.Can

namespace Taktora.J1939

open Can Checked Fallible Dispatcher List

def RegisteredChannel.Readable (channel : RegisteredChannel) : Prop :=
  channel.binding = .inbound (publishUpTo channel.routing.transport.maxPayload) ∧
    ∀ maxLen, channel.routing.transport ≠ .etp maxLen

def destination (decoded : DecodedId) : Option UInt8 := decoded.destAddr.filter (· ≠ globalAddress)

def wantsTransfer (pgn : Pgn) (sourceAddr : UInt8) (destAddr : Option UInt8) (routing : J1939Routing) : Bool :=
  routing.transport.isTp && routing.matches { priority := 0, pduFormat := pgn.pduFormat, pgn, sourceAddr, destAddr }

def wantsSingle (decoded : DecodedId) (routing : J1939Routing) : Bool :=
  !routing.transport.isTp && routing.matches decoded

namespace Surroundings

structure Serves (env : Surroundings) (tp : TpEngine) : Prop where
  sends : env.Sends
  carries : ∀ c ∈ env.registry.iterDirection .outbound, c.Carried
  driver : ∀ e, env.received = some (.error e) → e = .closed
  single : ∀ frame, env.received = some (.ok (.data frame)) → isClaimPgn (decodeExtendedId frame.id.value) = false →
    isTpWirePgn (decodeExtendedId frame.id.value) = false → ∀ c ∈ env.registry.iterDirection .inbound,
    wantsSingle (decodeExtendedId frame.id.value) c.routing = true → c.Accepts frame.payload
  transfer : ∀ frame, env.received = some (.ok (.data frame)) → ∀ pgn sourceAddr payload,
    .completed pgn sourceAddr payload ∈ (env.transfers tp).1 → ∀ c ∈ env.registry.iterDirection .inbound,
    takesTransfer pgn sourceAddr c.routing = true → c.Accepts payload

structure Traffic (env : Surroundings) : Prop where
  sends : env.Sends
  carries : ∀ c ∈ env.registry.iterDirection .outbound, c.Carried
  readers : ∀ c ∈ env.registry, c.direction = .inbound → c.Readable
  received : ∀ result, env.received = some result → ∃ frame, result = .ok frame ∧ frame ≠ .error .busOff

/-- The readers that a message is meant for have room for it and do not filter by destination. -/
structure Fits (env : Surroundings) (tp : TpEngine) : Prop where
  single : ∀ frame, env.received = some (.ok (.data frame)) → isClaimPgn (decodeExtendedId frame.id.value) = false →
    isTpWirePgn (decodeExtendedId frame.id.value) = false → ∀ c ∈ env.registry.iterDirection .inbound,
    wantsSingle (decodeExtendedId frame.id.value) c.routing = true →
      frame.payload.length ≤ c.routing.transport.maxPayload
  transfer : ∀ frame, env.received = some (.ok (.data frame)) → ∀ pgn sourceAddr payload,
    .completed pgn sourceAddr payload ∈ (env.transfers tp).1 → ∀ c ∈ env.registry.iterDirection .inbound,
    wantsTransfer pgn sourceAddr (destination (decodeExtendedId frame.id.value)) c.routing = true →
    payload.length ≤ c.routing.transport.maxPayload ∧ c.routing.destAddr = none

variable (env : Surroundings)

def readersOf (wanted : J1939Routing → Bool) (payload : List UInt8) : List (String × List UInt8) :=
  ((env.registry.iterDirection .inbound).filter fun c => wanted c.routing).map fun c => (c.descriptorName, payload)

def owedFor (destAddr : Option UInt8) : TpEvent → List (String × List UInt8)
  | .completed pgn sourceAddr payload => env.readersOf (wantsTransfer pgn sourceAddr destAddr) payload
  | _ => []

def owed (tp : TpEngine) : List (String × List UInt8) :=
  match env.received with
  | some (.ok (.data frame)) =>
    if isClaimPgn (decodeExtendedId frame.id.value) then []
    else if isTpWirePgn (decodeExtendedId frame.id.value) then
      (env.transfers tp).1.flatMap (env.owedFor (destination (decodeExtendedId frame.id.value)))
    else env.readersOf (wantsSingle (decodeExtendedId frame.id.value)) frame.payload
  | _ => []

end Surroundings

structure Node.Receptive (n : Node) : Prop where
  claim : n.ClaimHolds fun _ => True
  wf : n.tp.WellFormed
  passive : n.tp.Passive

section Publishing

variable {sourceAddr : UInt8} {env : Surroundings} {n n' : Node} {events : List AcEvent}

theorem RegisteredChannel.Readable.accepts {channel : RegisteredChannel} {payload : List UInt8}
    (readable : channel.Readable)
    (fits : payload.length ≤ channel.routing.transport.maxPayload) : channel.Accepts payload := by
  intro publish bound
  cases readable.1.symm.trans bound
  exact publishUpTo_ok fits

theorem iterDirection_readable (traffic : env.Traffic) : ∀ c ∈ env.registry.iterDirection .inbound, c.Readable := by
  intro c member
  obtain ⟨registered, inbound⟩ := mem_filter.mp member
  exact traffic.readers c registered (beq_iff_eq.mp inbound)

theorem takesTransfer_iff {pgn : Pgn} {source : UInt8} {destAddr : Option UInt8} {routing : J1939Routing} :
    takesTransfer pgn source routing = true ↔
      wantsTransfer pgn source destAddr routing = true ∧ routing.destAddr = none := by
  unfold takesTransfer wantsTransfer J1939Routing.matches
  cases routing.destAddr with
  | none => simp only [Option.all_none, and_true, and_true]
  | some dest => simp [Option.all_some]

theorem Surroundings.Serves.works (serves : env.Serves n.tp) (receptive : n.Receptive) : env.Works sourceAddr n where
  sends := serves.sends
  collects := ⟨_, collectOutboundJobs_eq_ok_iff.mpr ⟨serves.carries, rfl⟩⟩
  receives := by
    obtain ⟨ctx, held, _⟩ := receptive.claim
    refine ⟨serves.driver, ?_, ?_⟩
    · intro frame received unclaimed
      rw [held] at unclaimed
      exact serves.single frame received (unclaimed rfl)
    · intro frame received transport
      have passive := receptive.passive.reordered (env.arranged n.tp)
      have wf := receptive.wf.reordered (env.arranged n.tp)
      obtain ⟨⟨events, tp⟩, handled⟩ := passive.onFrame_total wf _ frame.payload env.now
      refine ⟨events, tp, handled, ?_⟩
      rintro _ member pgn source payload rfl
      refine serves.transfer frame received pgn source payload ?_
      rw [transfers_eq received transport handled]
      exact member

theorem Surroundings.Traffic.serves (traffic : env.Traffic) (fits : env.Fits n.tp) : env.Serves n.tp where
  sends := traffic.sends
  carries := traffic.carries
  driver e received := by
    obtain ⟨frame, impossible, _⟩ := traffic.received _ received
    cases impossible
  single frame received unclaimed wire c member wanted :=
    (iterDirection_readable traffic c member).accepts (fits.single frame received unclaimed wire c member wanted)
  transfer frame received pgn source payload completed c member takes := by
    obtain ⟨wants, _⟩ := takesTransfer_iff.mp takes
    exact (iterDirection_readable traffic c member).accepts
      (fits.transfer frame received pgn source payload completed c member wants).1

theorem deliveries_readers {wanted taken : J1939Routing → Bool} {payload : List UInt8}
    {channels : List RegisteredChannel}
    (readable : ∀ c ∈ channels, c.Readable)
    (same : ∀ c ∈ channels, taken c.routing = wanted c.routing) :
    deliveries taken payload channels = (channels.filter fun c => wanted c.routing).map fun c =>
      (c.descriptorName, payload) := by
  unfold deliveries
  congr 1
  refine filter_congr fun c member => ?_
  have inbound : c.binding.isInbound = true := by rw [(readable c member).1]; rfl
  rw [inbound, Bool.and_true, same c member]

theorem Received.published {tp : TpEngine} (received : Received env n events n')
    (traffic : env.Traffic)
    (fits : env.Fits tp)
    (arranged : n.tp = env.arrange tp)
    (claiming : n.ClaimHolds fun _ => True) :
    n'.published = n.published ++ env.owed tp := by
  have readable := iterDirection_readable traffic
  obtain ⟨ctx, held, _⟩ := claiming
  unfold Surroundings.owed
  cases received with
  | nothing quiet =>
    rcases quiet with quiet | ⟨_, _, quiet⟩ <;> rw [quiet, append_nil]
  | error received opened =>
    rw [received]
    exact (append_nil _).symm
  | closed received =>
    obtain ⟨_, impossible, _⟩ := traffic.received _ received
    cases impossible
  | @data frame events n' received demuxed =>
    rw [received]
    dsimp only
    cases demuxed with
    | claimed held own =>
      rw [if_pos own]
      exact (append_nil _).symm
    | @transported events tp' transport handled =>
      rw [isClaimPgn_of_transport transport, if_pos transport]
      have result := transfers_eq received transport (arranged ▸ handled)
      have each : ∀ event ∈ events, eventDeliveries env.registry event =
          env.owedFor (destination (decodeExtendedId frame.id.value)) event := by
        intro event member
        cases event with
        | aborted | sessionRefused => rfl
        | completed pgn source payload =>
          refine deliveries_readers readable fun c registered => ?_
          rw [Bool.eq_iff_iff, takesTransfer_iff, and_iff_left_iff_imp]
          intro wants
          have completed : .completed pgn source payload ∈ (env.transfers tp).1 := by rw [result]; exact member
          exact (fits.transfer frame received pgn source payload completed c registered wants).2
      rw [result]
      show n.published ++ events.flatMap _ = n.published ++ events.flatMap _
      rw [flatMap_congr each]
    | delivered other single =>
      rw [other ctx held, single]
      exact congrArg (n.published ++ ·) (deliveries_readers readable fun c _ => rfl)

theorem reflecting_rest (n : Node) (events : List AcEvent) :
    (n.reflecting events).published = n.published ∧ (n.reflecting events).tp = n.tp := by
  induction events generalizing n with
  | nil => exact ⟨rfl, rfl⟩
  | cons event rest ih => exact ih _

theorem Received.receptive (received : Received env n events n')
    (wf : n.tp.WellFormed)
    (passive : n.tp.Passive) : n'.tp.WellFormed ∧ n'.tp.Passive := by
  cases received with
  | nothing | error | closed => exact ⟨wf, passive⟩
  | data received demuxed =>
    cases demuxed with
    | claimed | delivered => exact ⟨wf, passive⟩
    | transported transport handled =>
      have effect := TpEngine.handle_effect (i := .frame _ _ _) handled
      exact ⟨wf.effect effect, effect.passive passive (.inl ⟨_, _, _, rfl⟩)⟩

theorem Iterated.receptive (iterated : Iterated sourceAddr env n n') (receptive : n.Receptive) : n'.Receptive := by
  have claim := iterated.claimHolds receptive.claim (fun _ _ => trivial) (fun _ _ _ _ => trivial) fun _ _ => trivial
  cases iterated with
  | @intro jobs events n₁ collected received =>
    obtain ⟨wf, passive⟩ := received.receptive (receptive.wf.reordered (env.arranged n.tp))
      (receptive.passive.reordered (env.arranged n.tp))
    have swept : Effect (env.rearrange n₁.tp) (.pollTimeouts env.now) _ ((env.rearrange n₁.tp).swept env.now) :=
      .swept env.now
    have wf := (wf.reordered (env.rearranged n₁.tp)).effect swept
    have passive := swept.passive (passive.reordered (env.rearranged n₁.tp)) (.inr ⟨_, rfl⟩)
    have flushed : (((n₁.swept env).flushed.reflecting (n.pollEvents env ++ events)).announced).tp =
        ((env.rearrange n₁.tp).swept env.now).takeOutbound.2 := (reflecting_rest _ _).2
    refine ⟨claim, ?_, ?_⟩
    · rw [flushed]
      exact wf.effect .drained
    · rw [flushed]
      exact ⟨passive.txConn, passive.etpTx⟩

theorem Iterated.published
    (iterated : Iterated sourceAddr env n n')
    (traffic : env.Traffic)
    (fits : env.Fits n.tp)
    (claiming : n.ClaimHolds fun _ => True) :
    n'.published = n.published ++ env.owed n.tp := by
  cases iterated with
  | @intro jobs events n₁ collected received =>
    have sent : ({ n with tp := env.arrange n.tp }.sends jobs).ClaimHolds fun _ => True := claiming
    have published := received.published traffic fits rfl (sent.polled fun _ _ => trivial)
    exact (reflecting_rest (n₁.swept env).flushed _).1.trans published

theorem Node.configured_receptive (timers : TpTimers) (maxTpSessions maxEtpBytes : Nat) (sourceAddr : UInt8)
    (name : UInt64) (claimWait : Nat) :
    (Node.configured timers maxTpSessions maxEtpBytes sourceAddr name claimWait).Receptive :=
  ⟨⟨_, rfl, trivial⟩, TpEngine.configured_wellFormed timers maxTpSessions defaultCtsWindow maxEtpBytes, rfl, rfl⟩

theorem iteration_publishes
    (traffic : env.Traffic)
    (fits : env.Fits n.tp)
    (receptive : n.Receptive) :
    ∃ outcome n', dispatchIteration sourceAddr env n = .ok outcome n' ∧ Iterated sourceAddr env n n' ∧
      n'.published = n.published ++ env.owed n.tp := by
  have spec : Ensures (· = n) (dispatchIteration sourceAddr env) _ _ := dispatchIteration_spec (W := True) (fun _ =>
    (traffic.serves fits).works receptive) receptive.claim (fun _ _ => trivial) (fun _ _ _ _ => trivial) fun _ _ =>
      trivial
  obtain ⟨outcome, n', returned, iterated⟩ := spec.returns rfl fun n' failed => by
    obtain ⟨⟨received, _⟩, _⟩ := failed.2 trivial
    obtain ⟨_, same, alive⟩ := traffic.received _ received
    cases same
    exact alive rfl
  exact ⟨outcome, n', returned, iterated, iterated.published traffic fits receptive.claim⟩

end Publishing

end Taktora.J1939

namespace Taktora.Gateway

open Can J1939 Fallible List

inductive Iteration where
  | can (iface : CanIface) (env : IfaceSurroundings) (t : IfaceTask)
  | j1939 (sourceAddr : UInt8) (env : Surroundings) (n : Node)

namespace Iteration

def Traffic : Iteration → Prop
  | can iface env _ => env.Traffic iface
  | j1939 _ env _ => env.Traffic

def Fits : Iteration → Prop
  | can iface env _ => env.Fits iface
  | j1939 _ env n => env.Fits n.tp

/-- The node comes out of a run in which all traffic fitted. The task may be in any state. -/
def Reached : Iteration → Prop
  | can _ _ _ => True
  | j1939 sourceAddr _ n => ∃ timers maxTpSessions maxEtpBytes name claimWait history,
    Run (fun n env n' => (env.Traffic ∧ env.Fits n.tp) ∧ n.Iterates sourceAddr env n')
      (.configured timers maxTpSessions maxEtpBytes sourceAddr name claimWait) history n

def Publishes : Iteration → Prop
  | can iface env t =>
    ∃ t', CanDispatcher.dispatchOnce iface env t = .ok true t' ∧ t'.published = t.published ++ env.owed iface
  | j1939 sourceAddr env n => ∃ outcome n', Dispatcher.dispatchIteration sourceAddr env n = .ok outcome n' ∧
    n'.published = n.published ++ env.owed n.tp

end Iteration

theorem fitting_run_receptive {sourceAddr : UInt8} {start n : Node} {history : List Surroundings}
    (run : Run (fun n env n' => (env.Traffic ∧ env.Fits n.tp) ∧ n.Iterates sourceAddr env n') start history n)
    (receptive : start.Receptive) : n.Receptive := by
  refine run.invariant receptive ?_
  rintro n _ _ receptive ⟨⟨traffic, fits⟩, rfl⟩
  obtain ⟨_, _, returned, iterated, _⟩ := iteration_publishes traffic fits receptive
  rw [final, returned]
  exact iterated.receptive receptive

/-- As long as every received message fits its readers, no gateway stops and each is published once to each of them. -/
theorem fitting_traffic_published (iteration : Iteration)
    (reached : iteration.Reached)
    (traffic : iteration.Traffic)
    (fits : iteration.Fits) : iteration.Publishes := by
  cases iteration with
  | can iface env t => exact turn_publishes traffic fits
  | j1939 sourceAddr env n =>
    obtain ⟨timers, maxTpSessions, maxEtpBytes, name, claimWait, _, run⟩ := reached
    have receptive := fitting_run_receptive run
      (Node.configured_receptive timers maxTpSessions maxEtpBytes sourceAddr name claimWait)
    obtain ⟨outcome, n', returned, _, published⟩ := iteration_publishes traffic fits receptive
    exact ⟨outcome, n', returned, published⟩

def canReader (name : String) (kind : CanFrameKind) : Can.RegisteredChannel where
  descriptorName := name
  routing := ⟨CanHealthMonitor.vcan0, ⟨0x123, false⟩, 0x7FF, kind⟩
  direction := .inbound
  binding := .inbound (publishUpTo kind.maxPayload)

def receiving (readers : List Can.RegisteredChannel) (kind : CanFrameKind) (payload : List UInt8) : IfaceSurroundings :=
  { IfaceSurroundings.quiet (some (.ok (.data ⟨⟨0x123, false⟩, kind, payload⟩))) (.ok ()) [] with
    registry := readers, counted := readers, compiled := readers, reconnected := readers }

def j1939Reader (transport : TransportClass) : J1939.RegisteredChannel where
  descriptorName := "status"
  routing := ⟨vehicleSpeed, none, none, transport, 6⟩
  direction := .inbound
  binding := .inbound (publishUpTo transport.maxPayload)

def listening (transport : TransportClass) (frame : CanData) : Surroundings :=
  { Surroundings.quiet 0 (some frame) with registry := [j1939Reader transport] }

def bothListening : Surroundings :=
  { listening .singleFrame ⟨⟨0x18FEF120, true⟩, .classical, [1, 2]⟩ with
    registry := [j1939Reader .singleFrame, { j1939Reader .singleFrame with descriptorName := "log" }] }

/-- Each gateway has two readers, and both get the message. -/
theorem fitting_traffic_published_twice :
    (∃ t, CanDispatcher.dispatchOnce CanHealthMonitor.vcan0
      (receiving [canReader "a" .classical, canReader "b" .fd] .fd [1, 2]) .new = .ok true t ∧
        t.published = [("a", [1, 2]), ("b", [1, 2])]) ∧
    ∃ outcome n, Dispatcher.dispatchIteration 0x10 bothListening defaultNode = .ok outcome n ∧
      n.published = [("status", [1, 2]), ("log", [1, 2])] := by
  constructor
  · have traffic : (receiving [canReader "a" .classical, canReader "b" .fd] .fd [1, 2]).Traffic
        CanHealthMonitor.vcan0 := by
      refine ⟨rfl, forall_mem_nil _, fun _ _ => rfl,
        forall_mem_cons.mpr ⟨fun _ => rfl, forall_mem_singleton.mpr fun _ => rfl⟩, ?_⟩
      rintro _ ⟨⟩
      exact ⟨_, rfl, by decide⟩
    have fits : (receiving [canReader "a" .classical, canReader "b" .fd] .fd [1, 2]).Fits CanHealthMonitor.vcan0 := by
      rintro frame ⟨⟩ c member _
      rcases mem_pair.mp (mem_filter.mp member).1 with rfl | rfl <;> decide
    exact fitting_traffic_published (.can _ _ .new) trivial traffic fits
  · have traffic : bothListening.Traffic := by
      refine ⟨fun _ _ => rfl, forall_mem_nil _, forall_mem_cons.mpr ⟨fun _ => ⟨rfl, ?_⟩,
        forall_mem_singleton.mpr fun _ => ⟨rfl, ?_⟩⟩, ?_⟩
      · intro maxLen extended
        cases extended
      · intro maxLen extended
        cases extended
      · rintro _ ⟨⟩
        exact ⟨_, rfl, by decide⟩
    have fits : bothListening.Fits defaultNode.tp := by
      constructor
      · rintro frame ⟨⟩ _ _ c member _
        rcases mem_pair.mp (mem_filter.mp member).1 with rfl | rfl <;> decide
      · intro frame _ pgn source payload completed
        have none : (bothListening.transfers defaultNode.tp).1 = [] := by decide +kernel
        rw [none] at completed
        cases completed
    have owed : bothListening.owed defaultNode.tp = [("status", [1, 2]), ("log", [1, 2])] := by decide +kernel
    obtain ⟨outcome, n, returned, published⟩ :=
      fitting_traffic_published (.j1939 _ _ defaultNode) ⟨_, _, _, _, _, [], .nil⟩ traffic fits
    rw [owed] at published
    exact ⟨outcome, n, returned, published⟩

def longBroadcast : List CanData :=
  [⟨⟨0x18ECFF20, true⟩, .classical, [0x20, 20, 0, 3, 0xFF, 0xF1, 0xFE, 0x00]⟩,
    ⟨⟨0x18EBFF20, true⟩, .classical, [1, 0, 0, 0, 0, 0, 0, 0]⟩,
    ⟨⟨0x18EBFF20, true⟩, .classical, [2, 0, 0, 0, 0, 0, 0, 0]⟩,
    ⟨⟨0x18EBFF20, true⟩, .classical, [3, 0, 0, 0, 0, 0, 0, 0]⟩]

/-- An FD frame stops the gateway of a classical reader, and a long broadcast stops the J1939 gateway. -/
theorem long_message_stops_gateway :
    let can := CanDispatcher.dispatcherLoop CanHealthMonitor.vcan0 [] (.ok ())
      [receiving [canReader "a" .classical, canReader "b" .fd] .fd (List.replicate 9 0)]
    let j1939 := Dispatcher.dispatcherLoop 0x10 (longBroadcast.map (listening (.tp 16)))
    can.run' .new = none ∧ (final can .new).published = [] ∧ (j1939.run' defaultNode).isNone = true ∧
      (final j1939 defaultNode).published = [] := by
  decide +kernel

end Taktora.Gateway
