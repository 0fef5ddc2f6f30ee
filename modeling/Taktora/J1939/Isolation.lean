import Taktora.J1939.Outbound
import Taktora.J1939.Tp.Addressing

namespace Taktora.J1939

open Can Checked Fallible Dispatcher List TpEngine

def Foreign (x : UInt8) (decoded : DecodedId) : Prop :=
  isTpWirePgn decoded = true ∧ ∃ dest, decoded.destAddr = some dest ∧ dest ≠ x ∧ dest ≠ globalAddress

def SpeaksAs (x : UInt8) (id : Nat) : Prop :=
  isTpWirePgn (decodeExtendedId id) = true → (decodeExtendedId id).sourceAddr = x

def RegisteredChannel.SpeaksAs (sourceAddr x : UInt8) (channel : RegisteredChannel) : Prop :=
  let sa := channel.routing.sourceAddr.getD sourceAddr
  channel.direction = .outbound → if channel.routing.transport.isTp then sa = x
    else J1939.SpeaksAs x (encodeExtendedId channel.routing.pgn channel.routing.priority sa channel.routing.destAddr)

section Frames

variable {x : UInt8} {frame : CanData} {jobs : List CanData}

theorem buildFrame_ok {id : CanId} {payload : List UInt8}
    (built : buildFrame id payload = .ok frame) : frame.id = id := by
  unfold buildFrame CanData.new at built
  split at built
  · cases built
  · cases built
    rfl

theorem encode_ok {f : FrameParts} (encoded : f.encode = .ok frame) :
    frame.id.value = encodeExtendedId f.wirePgn f.priority f.sourceAddr f.destAddr := by
  obtain ⟨_, made, built⟩ := bind_ok encoded
  rw [extendedId_eq] at made
  cases made
  rw [buildFrame_ok built]

variable {sourceAddr : UInt8}

theorem speaksAs_claim {f : AcOutFrame} (claims : f.Claims) (x : UInt8) :
    SpeaksAs x (encodeExtendedId f.wirePgn f.priority f.sourceAddr f.destAddr) := by
  obtain ⟨wire, dest⟩ := claims
  intro transport
  rw [wire, dest, decode_encode_pdu1 _ _ _ _ (by decide) (by decide)] at transport
  exact (Bool.false_ne_true transport).elim

theorem channelFrames_speaksAs {channel : RegisteredChannel}
    (own : channel.SpeaksAs sourceAddr x)
    (outbound : channel.direction = .outbound) :
    ∀ job ∈ channelFrames sourceAddr channel, SpeaksAs x job.id.value := by
  intro job sent
  have own := own outbound
  cases tp : channel.routing.transport.isTp with
  | true =>
    rw [if_pos tp] at own
    exact fun _ => (channelFrames_source sent).trans own
  | false =>
    rw [tp] at own
    obtain ⟨_, sent⟩ := channelFrames_mem sent
    rw [messageFrames, tp] at sent
    rw [mem_singleton.mp sent]
    exact own

theorem collectOutboundJobs_speaksAs {registry : J1939Registry} (own : ∀ c ∈ registry, c.SpeaksAs sourceAddr x)
    (collected : collectOutboundJobs sourceAddr registry = .ok jobs) : ∀ job ∈ jobs, SpeaksAs x job.id.value := by
  obtain ⟨_, rfl⟩ := collectOutboundJobs_eq_ok_iff.mp collected
  intro job sent
  obtain ⟨channel, member, sent⟩ := mem_flatMap.mp sent
  obtain ⟨registered, outbound⟩ := mem_filter.mp member
  exact channelFrames_speaksAs (own channel registered) (beq_iff_eq.mp outbound) job sent

end Frames

structure Isolated (x : UInt8) (n : Node) : Prop where
  wf : n.tp.WellFormed
  owned : n.tp.Owned x
  claims : ∀ ctx, n.claim = some ctx → ctx.engine.Announces
  sent : ∀ f ∈ n.sent, SpeaksAs x f.id.value

def Aloof (x : UInt8) (env : Surroundings) (e : TpEngine) : Prop :=
  ∀ f, env.received = some (.ok (.data f)) → Foreign x (decodeExtendedId f.id.value) →
    ¬ e.Engages (decodeExtendedId f.id.value) f.payload

section Iteration

variable {x : UInt8} {env : Surroundings} {t : TpEngine}

def IsolatedAt (x : UInt8) (t : TpEngine) (n : Node) : Prop := Isolated x n ∧ n.tp = t

theorem sendClassical_keeps {frame : CanData} (own : SpeaksAs x frame.id.value) :
    Keeps (IsolatedAt x t) (sendClassical env frame) := by
  refine ensures_get_bind fun n isolated => ?_
  cases env.send n.sent frame with
  | error e => exact ensures_throw fun _ same => same ▸ isolated
  | ok _ =>
    rintro _ rfl
    obtain ⟨⟨wf, owned, claims, sent⟩, same⟩ := isolated
    refine ⟨⟨wf, owned, claims, ?_⟩, same⟩
    exact forall_mem_append.mpr ⟨sent, forall_mem_singleton.mpr own⟩

theorem sendJobs_keeps {jobs : List CanData} (own : ∀ job ∈ jobs, SpeaksAs x job.id.value) (count : Nat) :
    Keeps (IsolatedAt x t) (sendJobs env jobs count) := by
  induction jobs generalizing count with
  | nil => exact keeps_pure _
  | cons job rest ih =>
    obtain ⟨first, others⟩ := forall_mem_cons.mp own
    exact ensures_bind (sendClassical_keeps first) fun _ => ih others (count + 1)

variable {sourceAddr : UInt8} {E : Node → Prop} {n : Node} {frame : CanData}

theorem sendOutboundOnce_keeps (own : ∀ c ∈ env.registry, c.SpeaksAs sourceAddr x) :
    Keeps (IsolatedAt x t) (sendOutboundOnce sourceAddr env) := by
  refine ensures_bind (Q := fun jobs n => IsolatedAt x t n ∧ ∀ job ∈ jobs, SpeaksAs x job.id.value) ?_ ?_
  · refine ensures_ofExcept ?_ fun _ _ _ isolated => isolated
    intro jobs collected n isolated
    exact ⟨isolated, collectOutboundJobs_speaksAs own collected⟩
  · intro jobs n start
    exact sendJobs_keeps start.2 0 n start.1

theorem transmitFrames_keeps {frames : List FrameParts}
    (own : ∀ f ∈ frames, SpeaksAs x (encodeExtendedId f.wirePgn f.priority f.sourceAddr f.destAddr))
    (count : Nat) :
    Keeps (IsolatedAt x t) (transmitFrames env frames count) := by
  induction frames generalizing count with
  | nil => exact keeps_pure _
  | cons f rest ih =>
    obtain ⟨first, others⟩ := forall_mem_cons.mp own
    refine ensures_bind (Q := fun frame n => IsolatedAt x t n ∧ SpeaksAs x frame.id.value) ?_ ?_
    · refine ensures_ofExcept ?_ fun _ _ _ isolated => isolated
      intro frame encoded n isolated
      rw [encode_ok encoded]
      exact ⟨isolated, first⟩
    · intro frame n start
      exact ensures_bind (sendClassical_keeps start.2) (fun _ => ih others (count + 1)) n start.1

theorem setIface_keeps (kind : IfaceHealthKind) : Keeps (IsolatedAt x t) (setIface kind) :=
  ensures_modify fun _ isolated => ⟨⟨isolated.1.wf, isolated.1.owned, isolated.1.claims, isolated.1.sent⟩, isolated.2⟩

theorem publishBytes_keeps (channel : RegisteredChannel) (payload : List UInt8) (count : Nat) :
    Keeps (IsolatedAt x t) (publishBytes channel payload count) := by
  unfold publishBytes
  split
  · refine ensures_bind (ensures_ofExcept (fun _ _ _ isolated => isolated) fun _ _ _ isolated => isolated) fun _ => ?_
    rintro n ⟨isolated, same⟩
    exact ⟨{ isolated with }, same⟩
  · exact keeps_pure _

theorem publishTo_keeps (wanted : J1939Routing → Bool) (payload : List UInt8) (channels : List RegisteredChannel)
    (count : Nat) : Keeps (IsolatedAt x t) (publishTo wanted payload channels count) := by
  induction channels generalizing count with
  | nil => exact keeps_pure _
  | cons channel rest ih =>
    unfold publishTo
    split
    · exact ensures_bind (publishBytes_keeps channel payload count) ih
    · exact ih count

theorem applyTpEvents_keeps (registry : J1939Registry) (events : List TpEvent) (outcome : IterationOutcome) :
    Keeps (IsolatedAt x t) (applyTpEvents registry events outcome) := by
  induction events generalizing outcome with
  | nil => exact keeps_pure _
  | cons event rest ih =>
    refine ensures_bind ?_ ih
    cases event with
    | completed pgn sourceAddr payload =>
      exact ensures_bind (publishTo_keeps _ _ _ _) fun _ => keeps_pure _
    | aborted | sessionRefused => exact ensures_bind (setIface_keeps _) fun _ => keeps_pure _

theorem pollClaim_keeps : Keeps (IsolatedAt x t) (pollClaim env) := by
  refine ensures_get_bind fun n isolated => ?_
  obtain ⟨⟨wf, owned, claims, sent⟩, same⟩ := isolated
  cases claim : n.claim with
  | none =>
    rintro _ rfl
    exact ⟨⟨wf, owned, claims, sent⟩, same⟩
  | some ctx =>
    rintro _ rfl
    refine ⟨⟨wf, owned, ?_, sent⟩, same⟩
    rintro _ ⟨⟩
    exact (ctx.engine.poll_effect env.now).announces (claims ctx claim)

theorem claimEvents_keeps (decoded : DecodedId) (payload : List UInt8) :
    Keeps (IsolatedAt x t) (claimEvents env decoded payload) := by
  refine ensures_get_bind fun n isolated => ?_
  obtain ⟨⟨wf, owned, claims, sent⟩, same⟩ := isolated
  have unchanged : ∀ n', n' = n → IsolatedAt x t n' := by
    rintro _ rfl
    exact ⟨⟨wf, owned, claims, sent⟩, same⟩
  cases claim : n.claim with
  | none => exact ensures_pure unchanged
  | some ctx =>
    dsimp only
    split
    · rintro _ rfl
      refine ⟨⟨wf, owned, ?_, sent⟩, same⟩
      rintro _ ⟨⟩
      exact (ctx.engine.onFrame_effect decoded payload env.now).announces (claims ctx claim)
    · exact ensures_pure unchanged

theorem classifyError_keeps (kind : CanErrorKind) : Keeps (IsolatedAt x t) (classifyError env kind) := by
  cases kind with
  | warning | passive => exact setIface_keeps _
  | busOff =>
    refine ensures_bind (setIface_keeps _) fun _ => ?_
    split
    · exact ensures_bind (setIface_keeps _) fun _ => setIface_keeps _
    · exact keeps_throw _
  | arbitrationLost | other => exact keeps_pure _

theorem reconnectOnce_keeps : Keeps (IsolatedAt x t) (reconnectOnce env) := by
  refine ensures_bind (setIface_keeps _) fun _ => ?_
  split
  · exact ensures_bind (setIface_keeps _) fun _ => setIface_keeps _
  · exact keeps_pure _

theorem applyAcEvents_keeps (events : List AcEvent) : Keeps (IsolatedAt x t) (applyAcEvents events) := by
  induction events with
  | nil => exact keeps_pure _
  | cons event rest ih =>
    refine ensures_bind (ensures_modify ?_) fun _ =>
      ensures_bind (setIface_keeps _) fun _ => ih
    rintro n ⟨⟨wf, owned, claims, sent⟩, same⟩
    refine ⟨⟨wf, owned, ?_, sent⟩, same⟩
    intro ctx claim
    obtain ⟨before, held, rfl⟩ := Option.map_eq_some_iff.mp claim
    exact claims before held

theorem keeps_isolated {α : Type} {m : Dispatch α} (keeps : ∀ t, Keeps (IsolatedAt x t) m) : Keeps (Isolated x) m := by
  intro n isolated
  exact (keeps n.tp).weaken (fun _ _ => And.left) (fun _ => And.left) n ⟨isolated, rfl⟩

theorem callEngine_ensures {call : TpEngine → Outcome} {P Q : Node → Prop}
    (returned : ∀ n events tp, P n → call n.tp = .ok (events, tp) → Q { n with tp })
    (failed : ∀ n, P n → E n) :
    Ensures P (callEngine call) (fun _ => Q) E := by
  refine ensures_get_bind fun n start => ?_
  cases result : call n.tp with
  | ok answer =>
    rintro n rfl
    exact returned n answer.1 answer.2 start result
  | error p =>
    rintro n rfl
    exact failed n start

theorem onFrame_isolated {decoded : DecodedId} {payload : List UInt8}
    (transport : isTpWirePgn decoded = true)
    (aloof : Foreign x decoded → ¬ t.Engages decoded payload)
    (isolated : IsolatedAt x t n)
    {now : Nat} {events : List TpEvent} {tp : TpEngine}
    (handled : n.tp.onFrame decoded payload now = .ok (events, tp)) : Isolated x { n with tp } := by
  obtain ⟨⟨wf, owned, claims, sent⟩, rfl⟩ := isolated
  by_cases foreign : Foreign x decoded
  · rw [onFrame_ignored wf (aloof foreign) now] at handled
    cases handled
    exact ⟨wf, owned, claims, sent⟩
  · have effect : Effect n.tp (.frame decoded payload now) events tp := handle_effect handled
    refine ⟨wf.effect effect, effect.owned owned (.inl ⟨_, _, _, rfl⟩) ?_, claims, sent⟩
    rintro _ _ _ a ourSa ⟨⟩ _ dest specific
    exact by_contra fun other => foreign ⟨transport, ourSa, dest, other, specific⟩

theorem demuxInbound_isolated
    (aloof : Foreign x (decodeExtendedId frame.id.value) →
      ¬ t.Engages (decodeExtendedId frame.id.value) frame.payload)
    (outcome : IterationOutcome) (acEvents : List AcEvent) :
    Ensures (IsolatedAt x t) (demuxInbound env frame outcome acEvents) (fun _ => Isolated x) (Isolated x) := by
  have claimed : Keeps (IsolatedAt x t) (claimEvents env (decodeExtendedId frame.id.value) frame.payload) :=
    claimEvents_keeps _ _
  refine ensures_bind (claimed.failing fun _ => And.left) fun events => ?_
  cases events with
  | some events => exact ensures_pure fun _ => And.left
  | none =>
    dsimp only
    split
    · rename_i transport
      refine ensures_bind (callEngine_ensures (Q := Isolated x) ?_ fun _ => And.left) fun events => ?_
      · intro n events tp isolated handled
        exact onFrame_isolated transport aloof isolated handled
      exact ensures_bind (keeps_isolated fun t => applyTpEvents_keeps _ _ _) fun _ => keeps_pure _
    · refine ensures_bind (Q := fun _ => IsolatedAt x t) ?_ fun count => ensures_pure fun _ => And.left
      exact (publishTo_keeps _ _ _ _).failing fun _ => And.left

theorem handleRxResult_isolated (aloof : Aloof x env t) (outcome : IterationOutcome) (acEvents : List AcEvent) :
    Ensures (IsolatedAt x t) (handleRxResult env outcome acEvents) (fun _ => Isolated x) (Isolated x) := by
  unfold handleRxResult
  split
  · exact ensures_pure fun _ => And.left
  · exact ensures_pure fun _ => And.left
  · rename_i frame received
    exact demuxInbound_isolated (aloof frame received) outcome acEvents
  · refine ensures_bind (Q := fun _ => IsolatedAt x t) ?_ fun _ => ensures_pure fun _ => And.left
    exact (classifyError_keeps _).failing fun _ => And.left
  · refine ensures_bind (Q := fun _ => IsolatedAt x t) ?_ fun _ => ensures_pure fun _ => And.left
    exact reconnectOnce_keeps.failing fun _ => And.left
  · exact ensures_throw fun _ => And.left

theorem takeEngineFrames_isolated : Ensures (Isolated x) takeEngineFrames (fun frames n => Isolated x n ∧
    ∀ f ∈ frames, SpeaksAs x (encodeExtendedId f.wirePgn f.priority f.sourceAddr f.destAddr)) (Isolated x) := by
  refine ensures_get_bind fun n isolated => ?_
  obtain ⟨wf, owned, claims, sent⟩ := isolated
  rintro n rfl
  have taken : Effect n.tp .takeOutbound [] n.tp.takeOutbound.2 := .drained
  refine ⟨⟨wf.effect taken, { owned with pending := ?_ }, claims, sent⟩, ?_⟩
  · exact forall_mem_nil _
  · intro f member
    obtain ⟨g, queued, rfl⟩ := mem_map.mp member
    exact fun _ => (decode_encode_source _ _ _ _).trans (owned.pending g queued)

theorem takeClaimFrames_isolated : Ensures (Isolated x) takeClaimFrames (fun frames n => Isolated x n ∧
    ∀ f ∈ frames, SpeaksAs x (encodeExtendedId f.wirePgn f.priority f.sourceAddr f.destAddr)) (Isolated x) := by
  refine ensures_get_bind fun n isolated => ?_
  obtain ⟨wf, owned, claims, sent⟩ := isolated
  rintro n rfl
  refine ⟨⟨wf, owned, ?_, sent⟩, ?_⟩
  · intro ctx claim
    obtain ⟨_, _, rfl⟩ := Option.map_eq_some_iff.mp claim
    exact forall_mem_nil _
  · intro f member
    obtain ⟨g, queued, rfl⟩ := mem_map.mp member
    cases claim : n.claim with
    | none =>
      rw [claim] at queued
      cases queued
    | some ctx =>
      rw [claim] at queued
      exact speaksAs_claim (claims ctx claim g queued) x

theorem transmitFrames_isolated (frames : List FrameParts) (count : Nat) : Ensures (fun n => Isolated x n ∧
      ∀ f ∈ frames, SpeaksAs x (encodeExtendedId f.wirePgn f.priority f.sourceAddr f.destAddr))
      (transmitFrames env frames count) (fun _ => Isolated x) (Isolated x) := by
  intro n start
  exact keeps_isolated (fun t => transmitFrames_keeps start.2 count) n start.1

theorem Aloof.arranged {t₀ : TpEngine} (aloof : Aloof x env t) (reordered : t.Reordered t₀) : Aloof x env t₀ := by
  intro f received foreign engages
  exact aloof f received foreign (engages.reordered reordered)

theorem arrange_isolated : Ensures (IsolatedAt x t)
    (modify fun n => { n with tp := env.arrange n.tp } : Dispatch PUnit) (fun _ => IsolatedAt x (env.arrange t)) E := by
  rintro n ⟨⟨wf, owned, claims, sent⟩, rfl⟩
  exact ⟨⟨wf.reordered (env.arranged _), owned.reordered (env.arranged _), claims, sent⟩, rfl⟩

theorem dispatchIteration_isolated
    (own : ∀ c ∈ env.registry, c.SpeaksAs sourceAddr x)
    (aloof : Aloof x env t) :
    Ensures (IsolatedAt x t) (dispatchIteration sourceAddr env) (fun _ => Isolated x) (Isolated x) := by
  refine ensures_bind arrange_isolated fun _ => ?_
  refine ensures_bind ((sendOutboundOnce_keeps own).failing fun _ => And.left) fun txSent => ?_
  refine ensures_bind (pollClaim_keeps.failing fun _ => And.left) fun acEvents => ?_
  refine ensures_bind (handleRxResult_isolated (aloof.arranged (env.arranged t)) _ _) fun handled => ?_
  refine ensures_bind (Q := fun _ => Isolated x) (ensures_modify ?_) fun _ => ?_
  · rintro n ⟨wf, owned, claims, sent⟩
    exact ⟨wf.reordered (env.rearranged _), owned.reordered (env.rearranged _), claims, sent⟩
  refine ensures_bind (callEngine_ensures (Q := Isolated x) ?_ fun _ isolated => isolated) fun timeouts => ?_
  · rintro n events tp ⟨wf, owned, claims, sent⟩ polled
    have effect : Effect n.tp (.pollTimeouts env.now) events tp := handle_effect polled
    exact ⟨wf.effect effect, effect.owned owned (.inr ⟨_, rfl⟩) nofun, claims, sent⟩
  refine ensures_bind (keeps_isolated fun t => applyTpEvents_keeps _ _ _) fun outcome => ?_
  refine ensures_bind takeEngineFrames_isolated fun frames => ?_
  refine ensures_bind (transmitFrames_isolated frames _) fun txSent => ?_
  refine ensures_bind (keeps_isolated fun t => applyAcEvents_keeps _) fun _ => ?_
  refine ensures_bind takeClaimFrames_isolated fun claimFrames => ?_
  exact ensures_bind (transmitFrames_isolated claimFrames _) fun _ => keeps_pure _

def Surroundings.silent (env : Surroundings) : Surroundings := { env with received := none }

theorem transmitFrames_silent (frames : List FrameParts) (count : Nat) :
    transmitFrames env.silent frames count = transmitFrames env frames count := by
  induction frames generalizing count with
  | nil => rfl
  | cons f rest ih =>
    simp only [transmitFrames, ih]
    rfl

theorem sendJobs_silent (jobs : List CanData) (count : Nat) :
    sendJobs env.silent jobs count = sendJobs env jobs count := by
  induction jobs generalizing count with
  | nil => rfl
  | cons frame rest ih =>
    simp only [sendJobs, ih]
    rfl

theorem sendOutboundOnce_silent (sourceAddr : UInt8) :
    sendOutboundOnce sourceAddr env.silent = sendOutboundOnce sourceAddr env := by
  simp only [sendOutboundOnce, sendJobs_silent]
  rfl

theorem handleRxResult_foreign
    (received : env.received = some (.ok (.data frame)))
    (foreign : Foreign x (decodeExtendedId frame.id.value))
    (aloof : Aloof x env t)
    (isolated : IsolatedAt x t n)
    (outcome : IterationOutcome) (acEvents : List AcEvent) :
    handleRxResult env outcome acEvents n = .ok (outcome, acEvents) n := by
  obtain ⟨isolated, rfl⟩ := isolated
  have ignored := onFrame_ignored isolated.wf (aloof frame received foreign) env.now
  have unclaimed := isClaimPgn_of_transport foreign.1
  have quiet : claimEvents env (decodeExtendedId frame.id.value) frame.payload n = .ok none n := by
    refine (bind_of_ok rfl).trans ?_
    rw [unclaimed]
    cases n.claim with
    | none | some => rfl
  have called : callEngine (·.onFrame (decodeExtendedId frame.id.value) frame.payload env.now) n = .ok [] n := by
    refine (bind_of_ok rfl).trans ?_
    beta_reduce
    rw [ignored]
    rfl
  unfold handleRxResult
  rw [received]
  refine (bind_of_ok quiet).trans ?_
  rw [if_pos foreign.1]
  exact bind_of_ok called

theorem dispatchIteration_foreign
    (own : ∀ c ∈ env.registry, c.SpeaksAs sourceAddr x)
    (aloof : Aloof x env t)
    (received : env.received = some (.ok (.data frame)))
    (foreign : Foreign x (decodeExtendedId frame.id.value))
    (isolated : IsolatedAt x t n) :
    dispatchIteration sourceAddr env n = dispatchIteration sourceAddr env.silent n := by
  unfold dispatchIteration
  simp only [transmitFrames_silent, sendOutboundOnce_silent]
  refine arrange_isolated (E := fun _ => True).bind_congr (fun _ n isolated => ?_) isolated
  refine (sendOutboundOnce_keeps own).bind_congr (fun txSent n isolated => ?_) isolated
  refine pollClaim_keeps.bind_congr (fun acEvents n isolated => ?_) isolated
  have ignored := handleRxResult_foreign received foreign (aloof.arranged (env.arranged t)) isolated (.sent txSent)
      acEvents
  exact (bind_of_ok ignored).trans (bind_of_ok rfl).symm

end Iteration

def Node.Iterates (sourceAddr : UInt8) (n : Node) (env : Surroundings) (n' : Node) : Prop :=
  n' = final (dispatchIteration sourceAddr env) n

/-- The channels keep to address `x`, and no transport frame for another node concerns the node. -/
structure Surroundings.Discreet (sourceAddr x : UInt8) (env : Surroundings) (n : Node) : Prop where
  own : ∀ c ∈ env.registry, c.SpeaksAs sourceAddr x
  aloof : Aloof x env n.tp

section Dispatching

variable {timers : TpTimers} {maxTpSessions maxEtpBytes : Nat} {sourceAddr x : UInt8} {name : UInt64} {claimWait : Nat}
  {history : List Surroundings} {n : Node}

theorem isolated_configured : Isolated x (.configured timers maxTpSessions maxEtpBytes sourceAddr name claimWait) where
  wf := configured_wellFormed timers maxTpSessions defaultCtsWindow maxEtpBytes
  owned := ⟨rfl, rfl, Table.forall_empty _, Table.forall_empty _, forall_mem_nil _⟩
  claims := by
    rintro _ ⟨⟩
    exact forall_mem_nil _
  sent := forall_mem_nil _

theorem isolated_run
    (run : Run (fun n env n' => env.Discreet sourceAddr x n ∧ n.Iterates sourceAddr env n')
      (.configured timers maxTpSessions maxEtpBytes sourceAddr name claimWait) history n) : Isolated x n := by
  refine run.invariant isolated_configured ?_
  rintro n _ _ isolated ⟨discreet, rfl⟩
  exact (dispatchIteration_isolated discreet.own discreet.aloof).final ⟨isolated, rfl⟩

/-- A node keeps out of the conversations of others, and speaks under its own address only. -/
theorem discreet_run_ignores_others
    (run : Run (fun n env n' => env.Discreet sourceAddr x n ∧ n.Iterates sourceAddr env n')
      (.configured timers maxTpSessions maxEtpBytes sourceAddr name claimWait) history n) :
    (∀ f ∈ n.sent, SpeaksAs x f.id.value) ∧ ∀ env frame, env.Discreet sourceAddr x n →
      env.received = some (.ok (.data frame)) → Foreign x (decodeExtendedId frame.id.value) →
      (env.arrange n.tp).onFrame (decodeExtendedId frame.id.value) frame.payload env.now = .ok ([], env.arrange n.tp) ∧
      dispatchIteration sourceAddr env n = dispatchIteration sourceAddr env.silent n := by
  have isolated := isolated_run run
  refine ⟨isolated.sent, ?_⟩
  intro env frame discreet received foreign
  refine ⟨?_, dispatchIteration_foreign discreet.own discreet.aloof received foreign ⟨isolated, rfl⟩⟩
  have aloof := discreet.aloof.arranged (env.arranged n.tp)
  exact onFrame_ignored (isolated.wf.reordered (env.arranged n.tp)) (aloof frame received foreign) env.now

end Dispatching

def Surroundings.quiet (now : Nat) (received : Option CanData) : Surroundings where
  registry := []
  now := now
  received := received.map fun frame => .ok (.data frame)
  send _ _ := .ok ()
  reopen := .ok ()
  reopened := .active
  arrange e := e
  rearrange e := e
  arranged := .refl
  rearranged := .refl

def strayPacket : CanData := ⟨⟨0x1CEB3020, true⟩, .classical, [1, 2, 3, 4, 5, 6, 7, 8]⟩

def strayRts : CanData := ⟨⟨0x1CEC3020, true⟩, .classical, [0x10, 9, 0, 2, 0xFF, 0x00, 0xEF, 0x00]⟩

def defaultNode : Node := .configured ⟨750, 1250, 1250⟩ 8 16777216 0x10 0x1000 250

theorem strayPacket_discreet {now : Nat} {n : Node} (idle : n.tp.rxConn.entries.isEmpty = true) :
    (Surroundings.quiet now (some strayPacket)).Discreet 0x10 0x10 n where
  own := forall_mem_nil _
  aloof := by
    rintro _ ⟨⟩ _ engages
    cases engages with
    | announces announced => cases announced
    | controls named found => cases named
    | carries carried bytes held source expected =>
      cases carried
      rw [inbound, AList.lookup, isEmpty_iff.mp idle] at held
      cases held

def bystander : Node := final (dispatchIteration 0x10 (.quiet 0 (some strayPacket))) defaultNode

theorem discreet_run_ignores_others_stray_packet : Foreign 0x10 (decodeExtendedId strayPacket.id.value) ∧ (∀ f ∈
    bystander.sent, SpeaksAs 0x10 f.id.value) ∧ dispatchIteration 0x10 (.quiet 250 (some strayPacket)) bystander =
      dispatchIteration 0x10 (.quiet 250 none) bystander := by
  have foreign : Foreign 0x10 (decodeExtendedId strayPacket.id.value) := ⟨by decide, 0x30, by decide⟩
  have run : Run (fun n env n' => env.Discreet 0x10 0x10 n ∧ n.Iterates 0x10 env n') defaultNode
      [.quiet 0 (some strayPacket)] bystander := .snoc .nil ⟨strayPacket_discreet rfl, rfl⟩
  have idle : bystander.tp.rxConn.entries.isEmpty = true := by decide +kernel
  obtain ⟨sent, ignores⟩ := discreet_run_ignores_others run
  exact ⟨foreign, sent, (ignores _ _ (strayPacket_discreet idle) rfl foreign).2⟩

/-- A node that has claimed `0x10` opens a session for a request between two others, and answers it as `0x30`. -/
theorem stray_rts_answered :
    let claimed := final (dispatcherLoop 0x10 [.quiet 0 none, .quiet 250 none]) defaultNode
    let asked := final (dispatchIteration 0x10 (.quiet 300 (some strayRts))) claimed
    Foreign 0x10 (decodeExtendedId strayRts.id.value) ∧
    claimed.claim.map (fun ctx => (ctx.engine.state, ctx.engine.currentSa, ctx.gate)) =
      some (.claimed, 0x10, .claimed) ∧
    claimed.tp.rxConn.entries.length = 0 ∧ asked.tp.rxConn.entries.length = 1 ∧
    asked.sent = claimed.sent ++ [⟨⟨0x1CEC2030, true⟩, .classical, [0x11, 2, 1, 0xFF, 0xFF, 0x00, 0xEF, 0x00]⟩] ∧
    (decodeExtendedId 0x1CEC2030).sourceAddr = 0x30 := by
  refine ⟨⟨by decide, 0x30, by decide⟩, ?_⟩
  decide +kernel

end Taktora.J1939
