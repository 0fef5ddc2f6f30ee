import Taktora.J1939.Arbitration
import Taktora.J1939.Isolation

namespace Taktora.J1939

open Can Checked Fallible Dispatcher AddrClaimEngine List

def RegisteredChannel.Idle (channel : RegisteredChannel) : Prop :=
  ∀ pending, channel.binding = .outbound pending → ∀ message, .ok message ∉ pending

/-- A message waits for the node's own address only while it is claimed, and no other one is commanded. -/
structure Surroundings.Settled (sourceAddr : UInt8) (env : Surroundings) (n : Node) : Prop where
  waiting : ∀ ctx, n.claim = some ctx → ctx.engine.state ≠ .claimed →
    ∀ c ∈ env.registry.iterDirection .outbound, c.routing.sourceAddr = none → c.Idle
  commanded : ∀ ctx frame newSa, n.claim = some ctx → env.received = some (.ok (.data frame)) →
    ctx.engine.Commands (decodeExtendedId frame.id.value) frame.payload newSa → newSa = sourceAddr

def Keeping (name : UInt64) (sourceAddr : UInt8) (a : AddrClaimEngine) : Prop :=
  a.name = name ∧ (a.state ≠ .cannotClaim → a.currentSa = sourceAddr)

section Claiming

variable {sourceAddr : UInt8} {name : UInt64} {env : Surroundings} {n : Node}

theorem Keeping.effect {a a' : AddrClaimEngine} {i : Input} {events : List AcEvent}
    (keeping : Keeping name sourceAddr a)
    (effect : a.Effect i events a')
    (command : ∀ decoded data now newSa, i = .frame decoded data now → a.Commands decoded data newSa →
      newSa = sourceAddr) : Keeping name sourceAddr a' := by
  obtain ⟨named, own⟩ := keeping
  refine ⟨effect.name.trans named, ?_⟩
  intro holding
  cases effect with
  | ignored | started => exact own holding
  | settled claiming => exact own (by rw [claiming]; exact ClaimState.noConfusion)
  | ceded => exact absurd rfl holding
  | asserted holding => exact own holding
  | declined lost => exact absurd lost holding
  | commanded commands => exact command _ _ _ _ rfl commands

theorem Surroundings.Settled.iterates {n' : Node}
    (settled : env.Settled sourceAddr n)
    (keeping : n.ClaimHolds (Keeping name sourceAddr))
    (iterates : n.Iterates sourceAddr env n') : n'.ClaimHolds (Keeping name sourceAddr) := by
  have start := keeping
  obtain ⟨ctx, held, named, _⟩ := keeping
  have polled : ∀ a, Keeping name sourceAddr a → Keeping name sourceAddr (a.poll env.now).2 := by
    intro a keeping
    refine keeping.effect (a.poll_effect env.now) ?_
    intro _ _ _ _ impossible
    cases impossible
  have heard : ∀ frame, env.received = some (.ok (.data frame)) →
      ∀ a, Keeping name sourceAddr a → Keeping name sourceAddr (heard env frame a).2 := by
    intro frame received a keeping
    refine keeping.effect (a.onFrame_effect _ _ env.now) ?_
    rintro _ _ _ newSa ⟨⟩ ⟨pgn, last, addressed⟩
    exact settled.commanded ctx frame newSa held received ⟨pgn, last, addressed.trans (keeping.1.trans named.symm)⟩
  have drained : ∀ a, Keeping name sourceAddr a → Keeping name sourceAddr a.takeOutbound.2 := fun _ keeping => keeping
  have spec : Ensures (· = n) (dispatchIteration sourceAddr env) _ _ :=
    dispatchIteration_spec False.elim start polled heard drained
  rw [iterates]
  refine (spec.weaken ?_ fun _ failed => failed.1).final rfl
  exact fun _ _ iterated => iterated.claimHolds start polled heard drained

theorem channelFrames_idle {channel : RegisteredChannel}
    (idle : channel.Idle) : channelFrames sourceAddr channel = [] := by
  unfold channelFrames
  cases bound : channel.binding with
  | unbound | inbound => rfl
  | outbound pending =>
    refine flatMap_eq_nil_iff.mpr ?_
    intro message member
    cases message with
    | error e => rfl
    | ok message => exact absurd member (idle pending bound message)

theorem sendOutboundOnce_frames (sourceAddr : UInt8) (env : Surroundings) (n : Node) :
    ∃ frames, (final (sendOutboundOnce sourceAddr env) n).sent = n.sent ++ frames ∧
      ∀ f ∈ frames, ∃ c ∈ env.registry.iterDirection .outbound, f ∈ channelFrames sourceAddr c := by
  unfold sendOutboundOnce
  cases collected : collectOutboundJobs sourceAddr env.registry with
  | error e => exact ⟨[], (append_nil _).symm, forall_mem_nil _⟩
  | ok jobs =>
    have sent : ∃ frames, frames <+: jobs ∧ final (sendJobs env jobs 0) n = n.sends frames := by
      refine ((sendJobs_spec False.elim jobs 0).weaken ?_ fun _ failed => failed.2).final rfl
      exact fun _ _ sent => ⟨jobs, prefix_rfl, sent.2⟩
    obtain ⟨frames, ⟨rest, rfl⟩, sent⟩ := sent
    obtain ⟨_, yields⟩ := collectOutboundJobs_eq_ok_iff.mp collected
    refine ⟨frames, congrArg Node.sent sent, ?_⟩
    intro f member
    apply mem_flatMap.mp
    rw [← yields]
    exact mem_append_left rest member

variable {timers : TpTimers} {maxTpSessions maxEtpBytes claimWait : Nat} {history : List Surroundings}

/-- As long as nothing is sent unclaimed and no other address is commanded, the channels use the claimed address. -/
theorem settled_run_sends_claimed
    (run : Run (fun n env n' => env.Settled sourceAddr n ∧ n.Iterates sourceAddr env n')
      (.configured timers maxTpSessions maxEtpBytes sourceAddr name claimWait) history n)
    (settled : env.Settled sourceAddr n) :
    ∃ ctx, n.claim = some ctx ∧ (∃ frames, (final (sendOutboundOnce sourceAddr env) n).sent = n.sent ++ frames ∧
      ∀ f ∈ frames, ∃ c ∈ env.registry.iterDirection .outbound, f ∈ channelFrames sourceAddr c) ∧
      ∀ c ∈ env.registry.iterDirection .outbound, c.routing.sourceAddr = none →
      ∀ f ∈ channelFrames sourceAddr c, ctx.engine.state = .claimed ∧
      (decodeExtendedId f.id.value).sourceAddr = ctx.engine.currentSa := by
  have start : (Node.configured timers maxTpSessions maxEtpBytes sourceAddr name claimWait).ClaimHolds
      (Keeping name sourceAddr) := ⟨_, rfl, rfl, fun _ => rfl⟩
  obtain ⟨ctx, held, _, own⟩ := run.invariant start fun _ _ _ keeping step => step.1.iterates keeping step.2
  refine ⟨ctx, held, sendOutboundOnce_frames sourceAddr env n, ?_⟩
  intro c registered unset f sent
  have claimed : ctx.engine.state = .claimed := by
    by_contra unclaimed
    rw [channelFrames_idle (settled.waiting ctx held unclaimed c registered unset)] at sent
    cases sent
  refine ⟨claimed, ?_⟩
  rw [channelFrames_source sent, unset, Option.getD_none, own (by rw [claimed]; exact ClaimState.noConfusion)]

end Claiming

def vehicleSpeed : Pgn := ⟨65265, by decide⟩

def speedChannel : RegisteredChannel where
  descriptorName := "speed"
  routing := ⟨vehicleSpeed, none, none, .singleFrame, 6⟩
  direction := .outbound
  binding := .outbound [.ok [1, 2, 3]]

def Surroundings.sending (now : Nat) : Surroundings := { Surroundings.quiet now none with registry := [speedChannel] }

def commandedAddress : CanData := ⟨⟨0x18FED820, true⟩, .fd, [0x00, 0x10, 0, 0, 0, 0, 0, 0, 0x42]⟩

theorem quiet_settled {sourceAddr : UInt8} {now : Nat} {n : Node} :
    (Surroundings.quiet now none).Settled sourceAddr n where
  waiting _ _ _ := forall_mem_nil _
  commanded _ _ _ _ received := by cases received

def claimedNode : Node :=
  final (dispatchIteration 0x10 (.quiet 250 none)) (final (dispatchIteration 0x10 (.quiet 0 none)) defaultNode)

theorem settled_run_sends_claimed_speed : ∃ ctx, claimedNode.claim = some ctx ∧ ∀ f ∈ channelFrames 0x10 speedChannel,
      ctx.engine.state = .claimed ∧ (decodeExtendedId f.id.value).sourceAddr = ctx.engine.currentSa := by
  have run : Run (fun n env n' => env.Settled 0x10 n ∧ n.Iterates 0x10 env n') defaultNode
      [.quiet 0 none, .quiet 250 none] claimedNode := (Run.nil.snoc ⟨quiet_settled, rfl⟩).snoc ⟨quiet_settled, rfl⟩
  have settled : (Surroundings.sending 300).Settled 0x10 claimedNode := by
    constructor
    · intro ctx held unclaimed
      have claimed : claimedNode.claim.map (fun ctx => (ctx.engine.state, ctx.engine.currentSa)) =
          some (.claimed, 0x10) := by
        decide +kernel
      rw [held] at claimed
      exact absurd (Prod.mk.inj (Option.some.inj claimed)).1 unclaimed
    · intro _ _ _ _ received
      cases received
  obtain ⟨ctx, held, _, sends⟩ := settled_run_sends_claimed run settled
  exact ⟨ctx, held, sends speedChannel (mem_filter.mpr ⟨mem_singleton_self _, rfl⟩) rfl⟩

/-- A message goes out before any address is claimed, and under the old address after the node was moved. -/
theorem waiting_message_sent_unclaimed :
    let early := final (sendOutboundOnce 0x10 (.sending 0)) defaultNode
    let moved := final (dispatcherLoop 0x10
      [.quiet 0 none, .quiet 250 none, .quiet 300 (some commandedAddress), .quiet 550 none]) defaultNode
    let late := final (sendOutboundOnce 0x10 (.sending 600)) moved
    defaultNode.claim.map (·.engine.state) = some .claiming ∧
    early.sent = [⟨⟨0x18FEF110, true⟩, .classical, [1, 2, 3]⟩] ∧
    moved.claim.map (fun ctx => (ctx.engine.state, ctx.engine.currentSa)) = some (.claimed, 0x42) ∧
    late.sent = moved.sent ++ [⟨⟨0x18FEF110, true⟩, .classical, [1, 2, 3]⟩] ∧
    (decodeExtendedId 0x18FEF110).sourceAddr = 0x10 := by
  decide +kernel

def Node.Adopting (sa : UInt8) (n : Node) : Prop :=
  n.ClaimHolds fun a => a.currentSa = sa ∧ a.state = .claiming ∧ ∃ f ∈ a.out, f.Signed a.name ∧ f.sourceAddr = sa

inductive CommandArrives (env : Surroundings) (tp : TpEngine) (frame : CanData) (message : List UInt8) : Prop where
  | direct (commanded : (decodeExtendedId frame.id.value).pgn.value = commandedAddressPgn)
    (whole : frame.payload = message)
  | reassembled {events tp' pgn sourceAddr} (transport : isTpWirePgn (decodeExtendedId frame.id.value) = true)
      (handled : tp.onFrame (decodeExtendedId frame.id.value) frame.payload env.now = .ok (events, tp'))
      (completed : .completed pgn sourceAddr message ∈ events) (commanded : pgn.value = commandedAddressPgn)

section Commanded

variable {env : Surroundings} {frame : CanData} {n : Node} {newSa : UInt8} {outcome : IterationOutcome}
  {acEvents : List AcEvent}

theorem demuxInbound_claim (other : isClaimPgn (decodeExtendedId frame.id.value) = false) :
    (final (demuxInbound env frame outcome acEvents) n).claim = n.claim := by
  have spec : Ensures (· = n) (demuxInbound env frame outcome acEvents) _ _ :=
    demuxInbound_spec False.elim False.elim outcome acEvents
  refine Ensures.final (spec.weaken ?_ fun _ failed => failed.2) rfl
  rintro _ _ ⟨_, _, demuxed⟩
  cases demuxed with
  | claimed held own => exact absurd own (Bool.eq_false_iff.mp other)
  | transported | delivered => rfl

theorem onFrame_commanded (a : AddrClaimEngine) {decoded : DecodedId} (newSa : UInt8) (now : Nat)
    (commanded : decoded.pgn.value = commandedAddressPgn) :
    (a.onFrame decoded ((toLeBytes a.name).1 ++ [newSa]) now).2 =
      { a with currentSa := newSa, state := .claiming, startedAt := some now }.emitAddressClaimed newSa := by
  have length : (toLeBytes a.name).1.length = 8 := (toLeBytes a.name).2
  have last : ((toLeBytes a.name).1 ++ [newSa])[8]? = some newSa := by
    rfl
  have addressed : fromLeBytes ((toLeBytes a.name).1 ++ [newSa]) = a.name := by
    have first : ((toLeBytes a.name).1 ++ [newSa]).take 8 = (toLeBytes a.name).1.take 8 :=
      take_append_of_le_length length.ge
    exact fromLeBytes_toLeBytes a.name
  rw [onFrame, commanded, if_neg (by decide), if_neg (by decide), if_pos rfl, onCommandedAddress, last]
  dsimp only
  rw [addressed, if_neg (not_not.mpr rfl)]

/-- A Commanded Address takes effect if it fits one frame. -/
theorem commanded_address_adopted_iff {ctx : ClaimCtx}
    (held : n.claim = some ctx)
    (arrives : CommandArrives env n.tp frame ((toLeBytes ctx.engine.name).1 ++ [newSa])) :
    (final (demuxInbound env frame outcome acEvents) n).Adopting newSa ↔
      (decodeExtendedId frame.id.value).pgn.value = commandedAddressPgn ∨ n.Adopting newSa := by
  cases arrives with
  | direct commanded whole =>
    refine ⟨fun _ => .inl commanded, fun _ => ?_⟩
    have own : isClaimPgn (decodeExtendedId frame.id.value) = true := by
      simp only [isClaimPgn, commanded]
      rfl
    rcases claimEvents_eq env (decodeExtendedId frame.id.value) frame.payload n with
      ⟨_, same, _, claimed⟩ | ⟨unclaimed, _⟩
    · cases held.symm.trans same
      rw [final, demuxInbound, bind_of_ok claimed]
      refine ⟨_, rfl, ?_⟩
      rw [whole, onFrame_commanded ctx.engine newSa env.now commanded]
      refine ⟨rfl, rfl, _, mem_append_right _ (mem_singleton_self _), ?_, rfl⟩
      exact ⟨addressClaimedFrame_claims _ _, rfl⟩
    · rw [unclaimed ctx held] at own
      cases own
  | reassembled transport handled completed commanded =>
    have unclaimed : (final (demuxInbound env frame outcome acEvents) n).claim = n.claim :=
      demuxInbound_claim (isClaimPgn_of_transport transport)
    have wire : (decodeExtendedId frame.id.value).pgn.value ≠ commandedAddressPgn := by
      intro same
      simp only [isTpWirePgn, same] at transport
      cases transport
    constructor
    · exact fun adopting => .inr (adopting.of_claim unclaimed.symm)
    · rintro (same | adopting)
      · exact absurd same wire
      · exact adopting.of_claim unclaimed

end Commanded

theorem commanded_address_adopted_iff_one_frame :
    (final (demuxInbound (.quiet 300 (some commandedAddress)) commandedAddress (.sent 0) []) defaultNode).Adopting
      0x42 := by
  have arrives : CommandArrives (.quiet 300 (some commandedAddress)) defaultNode.tp commandedAddress
      ((toLeBytes 0x1000).1 ++ [0x42]) := .direct (by decide) (by decide)
  have held : defaultNode.claim = some ⟨.new 0x10 0x1000 250, .claiming⟩ := rfl
  exact (commanded_address_adopted_iff held arrives).mpr (.inl (by decide))

def commandedBroadcast : List CanData :=
  [⟨⟨0x18ECFF20, true⟩, .classical, [0x20, 9, 0, 2, 0xFF, 0xD8, 0xFE, 0x00]⟩,
    ⟨⟨0x18EBFF20, true⟩, .classical, [1, 0x00, 0x10, 0, 0, 0, 0, 0]⟩]

def commandedLastPacket : CanData := ⟨⟨0x18EBFF20, true⟩, .classical, [2, 0, 0x42, 0xFF, 0xFF, 0xFF, 0xFF, 0xFF]⟩

/-- The transport engine completes the command, but the claim engine never hears of it. -/
theorem broadcast_command_ignored :
    let n := final (dispatcherLoop 0x10 (commandedBroadcast.map fun f => .quiet 0 (some f))) defaultNode
    let n' := final (demuxInbound (.quiet 50 (some commandedLastPacket)) commandedLastPacket (.sent 0) []) n
    (n.tp.onFrame (decodeExtendedId commandedLastPacket.id.value) commandedLastPacket.payload 50).toOption.map (·.1) =
      some [.completed ⟨65240, by decide⟩ 0x20 [0x00, 0x10, 0, 0, 0, 0, 0, 0, 0x42]] ∧
    n.claim.map (fun ctx => (ctx.engine.name, ctx.engine.currentSa)) = some (0x1000, 0x10) ∧ n'.claim = n.claim := by
  decide +kernel

end Taktora.J1939
