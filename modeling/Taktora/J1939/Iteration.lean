import Taktora.J1939.Dispatcher

namespace Taktora.J1939

open Can Checked Fallible Dispatcher Node List TpEngine

def Surroundings.Sends (env : Surroundings) : Prop := ∀ sent frame, env.send sent frame = .ok ()

def RegisteredChannel.Accepts (channel : RegisteredChannel) (payload : List UInt8) : Prop :=
  ∀ publish, channel.binding = .inbound publish → publish payload = .ok ()

namespace Node

variable (n : Node)

def sends (frames : List CanData) : Node := { n with sent := n.sent ++ frames }

def publishes (messages : List (String × List UInt8)) : Node :=
  { n with published := n.published ++ messages }

variable (kinds : List IfaceHealthKind)

def reports : Node := { n with health := n.health ++ kinds }

def iface : IfaceHealthKind := n.health.getLast?.getD .connecting

theorem sends_sends (first second : List CanData) :
    (n.sends first).sends second = n.sends (first ++ second) := by
  simp only [sends, append_assoc]

theorem publishes_publishes (first second : List (String × List UInt8)) :
    (n.publishes first).publishes second = n.publishes (first ++ second) := by
  simp only [publishes, append_assoc]

theorem reports_publishes (messages : List (String × List UInt8)) :
    (n.reports kinds).publishes messages = (n.publishes messages).reports kinds := rfl

theorem reports_reports (first second : List IfaceHealthKind) :
    (n.reports first).reports second = n.reports (first ++ second) := by
  simp only [reports, append_assoc]

theorem sends_nil : n.sends [] = n := by
  simp only [sends, append_nil]

theorem publishes_nil : n.publishes [] = n := by
  simp only [publishes, append_nil]

theorem reports_nil : n.reports [] = n := by
  simp only [reports, append_nil]

theorem iface_reports (kind : IfaceHealthKind) : (n.reports (kinds ++ [kind])).iface = kind := by
  simp only [iface, reports, ← append_assoc, getLast?_concat, Option.getD_some]

end Node

section Frames

theorem encodeExtendedId_le (pgn : Pgn) (priority sourceAddr : UInt8) (destAddr : Option UInt8) :
    encodeExtendedId pgn priority sourceAddr destAddr ≤ 0x1FFFFFFF := by
  rw [encodeExtendedId_eq]
  have specific : (if UInt8.ofNat (pgn.value / 256 % 256) < pdu2FormatThreshold then
      (destAddr.getD globalAddress).toNat else pgn.value % 256) < 256 := by
    split
    · exact UInt8.toNat_lt _
    · exact Nat.mod_lt _ (by decide)
  have source := sourceAddr.toNat_lt
  omega

theorem extendedId_eq (pgn : Pgn) (priority sourceAddr : UInt8) (destAddr : Option UInt8) :
    extendedId pgn priority sourceAddr destAddr =
      .ok ⟨encodeExtendedId pgn priority sourceAddr destAddr, true⟩ := by
  have bound := encodeExtendedId_le pgn priority sourceAddr destAddr
  rw [extendedId, CanId.newExtended, if_neg (not_lt.mpr bound)]
  rfl

theorem buildFrame_eq {id : CanId} {payload : List UInt8} (fits : payload.length ≤ 8) :
    buildFrame id payload = .ok ⟨id, .classical, payload⟩ := by
  rw [buildFrame, CanData.new_ok fits]
  rfl

def Dispatcher.FrameParts.frame (f : FrameParts) : CanData :=
  ⟨⟨encodeExtendedId f.wirePgn f.priority f.sourceAddr f.destAddr, true⟩, .classical, f.data⟩

theorem encode_eq {f : FrameParts} (fits : f.data.length ≤ 8) : f.encode = .ok f.frame := by
  rw [FrameParts.encode, extendedId_eq]
  exact buildFrame_eq fits

theorem encodeAll_eq {frames : List FrameParts} (fit : ∀ f ∈ frames, f.data.length ≤ 8) :
    encodeAll frames = .ok (frames.map FrameParts.frame) := by
  induction frames with
  | nil => rfl
  | cons f rest ih =>
    obtain ⟨here, others⟩ := forall_mem_cons.mp fit
    rw [encodeAll, encode_eq here, ih others]
    rfl

end Frames

section Parts

variable {env : Surroundings} {W : Prop} {n : Node}

section

variable (sends : W → env.Sends)
include sends

theorem sendClassical_spec (frame : CanData) :
    Ensures (· = n) (sendClassical env frame) (fun _ n' => n' = n.sends [frame]) fun n' => ¬ W ∧ n' = n := by
  refine ensures_get_bind ?_
  rintro n rfl
  cases result : env.send n.sent frame with
  | ok _ =>
    rintro n rfl
    rfl
  | error e =>
    refine ensures_throw fun n' same => ⟨fun works => ?_, same⟩
    rw [sends works] at result
    cases result

theorem sendJobs_spec (jobs : List CanData) (count : Nat) :
    Ensures (· = n) (sendJobs env jobs count) (fun sent n' => sent = count + jobs.length ∧ n' = n.sends jobs)
      fun n' => ¬ W ∧ ∃ frames, frames <+: jobs ∧ n' = n.sends frames := by
  induction jobs generalizing count n with
  | nil =>
    rintro n rfl
    exact ⟨rfl, n.sends_nil.symm⟩
  | cons frame rest ih =>
    refine ensures_bind ((sendClassical_spec sends frame).failing ?_) fun _ => ?_
    · rintro n' ⟨broken, rfl⟩
      exact ⟨broken, [], nil_prefix, n'.sends_nil.symm⟩
    · refine (ih (count + 1)).weaken ?_ ?_
      · rintro _ _ ⟨rfl, rfl⟩
        refine ⟨by rw [length_cons]; omega, ?_⟩
        rw [sends_sends]
        rfl
      · rintro _ ⟨broken, frames, before, rfl⟩
        exact ⟨broken, frame :: frames, (prefix_cons_inj frame).mpr before, n.sends_sends [frame] frames⟩

theorem sendOutboundOnce_spec {sourceAddr : UInt8}
    (collects : W → ∃ jobs, collectOutboundJobs sourceAddr env.registry = .ok jobs) :
    Ensures (· = n) (sendOutboundOnce sourceAddr env) (fun _ n' => ∃ jobs,
      collectOutboundJobs sourceAddr env.registry = .ok jobs ∧ n' = n.sends jobs) fun n' => ¬ W ∧
      ∃ frames, n' = n.sends frames := by
  unfold sendOutboundOnce
  cases collected : collectOutboundJobs sourceAddr env.registry with
  | ok jobs =>
    refine (sendJobs_spec sends jobs 0).weaken ?_ ?_
    · rintro _ _ ⟨_, same⟩
      exact ⟨jobs, rfl, same⟩
    · rintro _ ⟨broken, frames, _, same⟩
      exact ⟨broken, frames, same⟩
  | error e =>
    rintro n rfl
    refine ⟨fun works => ?_, [], n.sends_nil.symm⟩
    obtain ⟨_, fine⟩ := collects works
    cases collected.symm.trans fine

theorem transmitFrames_spec {frames : List FrameParts} (fit : ∀ f ∈ frames, f.data.length ≤ 8) (count : Nat) :
    Ensures (· = n) (transmitFrames env frames count) (fun _ n' => n' = n.sends (frames.map FrameParts.frame))
      fun n' => ¬ W ∧ ∃ frames, n' = n.sends frames := by
  induction frames generalizing count n with
  | nil =>
    rintro n rfl
    exact n.sends_nil.symm
  | cons f rest ih =>
    obtain ⟨here, others⟩ := forall_mem_cons.mp fit
    rw [transmitFrames, encode_eq here]
    refine ensures_bind (Q := fun frame n' => frame = f.frame ∧ n' = n) (ensures_pure fun _ same => ⟨rfl, same⟩) ?_
    rintro _ _ ⟨rfl, rfl⟩
    refine ensures_bind ((sendClassical_spec sends f.frame).failing ?_) (fun _ => ?_) _ rfl
    · rintro n' ⟨broken, rfl⟩
      exact ⟨broken, [], n'.sends_nil.symm⟩
    · refine (ih others (count + 1)).weaken ?_ ?_
      · rintro _ _ rfl
        exact sends_sends _ _ _
      · rintro _ ⟨broken, frames, rfl⟩
        exact ⟨broken, f.frame :: frames, sends_sends _ _ _⟩

end

theorem callEngine_spec (call : TpEngine → Outcome) (total : W → ∃ answer, call n.tp = .ok answer) :
    Ensures (· = n) (callEngine call) (fun events n' => ∃ tp, call n.tp = .ok (events, tp) ∧ n' = { n with tp })
      fun n' => ¬ W ∧ n' = n := by
  refine ensures_get_bind ?_
  rintro n rfl
  rcases result : call n.tp with p | ⟨_, tp⟩
  · refine ensures_throw fun n' same => ⟨fun works => ?_, same⟩
    obtain ⟨_, fine⟩ := total works
    cases result.symm.trans fine
  · rintro n rfl
    exact ⟨tp, rfl, rfl⟩

def deliveries (wanted : J1939Routing → Bool) (payload : List UInt8) (channels : List RegisteredChannel) :
    List (String × List UInt8) :=
  (channels.filter fun c => wanted c.routing && c.binding.isInbound).map fun c => (c.descriptorName, payload)

variable {payload : List UInt8} {registry : J1939Registry}

theorem publishBytes_spec {channel : RegisteredChannel} (accepts : W → channel.Accepts payload) (count : Nat) :
    Ensures (· = n) (publishBytes channel payload count)
      (fun _ n' => n' = n.publishes (if channel.binding.isInbound then [(channel.descriptorName, payload)] else []))
      fun n' => ¬ W ∧ n' = n := by
  unfold publishBytes
  cases binding : channel.binding with
  | unbound | outbound => exact ensures_pure fun n' same => same.trans n.publishes_nil.symm
  | inbound publish =>
    dsimp only
    cases result : publish payload with
    | ok _ =>
      rintro n rfl
      rfl
    | error e =>
      refine ensures_throw fun n' same => ⟨fun works => ?_, same⟩
      rw [accepts works publish binding] at result
      cases result

theorem publishTo_spec {wanted : J1939Routing → Bool} {channels : List RegisteredChannel}
    (accept : W → ∀ c ∈ channels, wanted c.routing = true → c.Accepts payload)
    (count : Nat) :
    Ensures (· = n) (publishTo wanted payload channels count) (fun _ n' =>
      n' = n.publishes (deliveries wanted payload channels)) fun n' => ¬ W ∧ ∃ messages, n' = n.publishes messages := by
  induction channels generalizing count n with
  | nil => exact ensures_pure fun n' same => same.trans n.publishes_nil.symm
  | cons channel rest ih =>
    have others : W → ∀ c ∈ rest, wanted c.routing = true → c.Accepts payload :=
      fun works c member => accept works c (mem_cons_of_mem channel member)
    unfold publishTo
    split
    · rename_i matching
      refine ensures_bind ((publishBytes_spec (fun works => accept works channel mem_cons_self matching) count).weaken
        (fun _ _ same => same) ?_) fun _ => ?_
      · rintro n' ⟨broken, rfl⟩
        exact ⟨broken, [], n'.publishes_nil.symm⟩
      · refine (ih others _).weaken ?_ ?_
        · rintro _ _ rfl
          rw [publishes_publishes]
          rw [deliveries, deliveries, filter_cons, matching, Bool.true_and]
          split <;> rfl
        · rintro _ ⟨broken, _, rfl⟩
          exact ⟨broken, _, n.publishes_publishes _ _⟩
    · rename_i other
      have unwanted : deliveries wanted payload (channel :: rest) = deliveries wanted payload rest := by
        rw [deliveries, filter_cons, Bool.eq_false_iff.mpr other]
        rfl
      rw [unwanted]
      exact ih others count

def takesTransfer (pgn : Pgn) (sourceAddr : UInt8) (routing : J1939Routing) : Bool :=
  routing.transport.isTp &&
    routing.matches { priority := 0, pduFormat := pgn.pduFormat, pgn, sourceAddr, destAddr := none }

def eventDeliveries (registry : J1939Registry) : TpEvent → List (String × List UInt8)
  | .completed pgn sourceAddr payload =>
    deliveries (takesTransfer pgn sourceAddr) payload (registry.iterDirection .inbound)
  | _ => []

def eventReports : TpEvent → List IfaceHealthKind
  | .completed _ _ _ => []
  | .aborted _ _ _ | .sessionRefused _ _ _ => [.degraded]

def TpEvent.Accepted (registry : J1939Registry) (event : TpEvent) : Prop :=
  ∀ pgn sourceAddr payload, event = .completed pgn sourceAddr payload →
    ∀ c ∈ registry.iterDirection .inbound, takesTransfer pgn sourceAddr c.routing = true → c.Accepts payload

theorem applyTpEvent_spec {event : TpEvent} (accepted : W → event.Accepted registry) (outcome : IterationOutcome) :
    Ensures (· = n) (applyTpEvent registry event outcome)
      (fun _ n' => n' = (n.publishes (eventDeliveries registry event)).reports (eventReports event))
      fun n' => ¬ W ∧ n'.claim = n.claim := by
  cases event with
  | completed pgn sourceAddr payload =>
    refine ensures_bind ((publishTo_spec (fun works => accepted works pgn sourceAddr payload rfl) 0).weaken
      (fun _ _ same => same) ?_) fun _ => ensures_pure ?_
    · rintro _ ⟨broken, _, rfl⟩
      exact ⟨broken, rfl⟩
    · rintro _ rfl
      exact (reports_nil _).symm
  | aborted | sessionRefused =>
    rintro n rfl
    show n.reports [.degraded] = (n.publishes []).reports [.degraded]
    rw [n.publishes_nil]

theorem applyTpEvents_spec {events : List TpEvent}
    (accepted : W → ∀ event ∈ events, event.Accepted registry)
    (outcome : IterationOutcome) :
    Ensures (· = n) (applyTpEvents registry events outcome) (fun _ n' =>
      n' = (n.publishes (events.flatMap (eventDeliveries registry))).reports (events.flatMap eventReports)) fun n' =>
      ¬ W ∧ n'.claim = n.claim := by
  induction events generalizing outcome n with
  | nil =>
    rintro n rfl
    show n = (n.publishes []).reports []
    rw [n.publishes_nil, n.reports_nil]
  | cons event rest ih =>
    refine ensures_bind (applyTpEvent_spec (fun works => accepted works event mem_cons_self) outcome) fun _ => ?_
    refine (ih (fun works e member => accepted works e (mem_cons_of_mem event member)) _).weaken ?_ ?_
    · rintro _ _ rfl
      rw [reports_publishes, publishes_publishes, reports_reports, flatMap_cons, flatMap_cons]
    · exact fun _ broken => broken

end Parts

section Receiving

variable {env : Surroundings} {W : Prop} {n : Node}

def heard (env : Surroundings) (frame : CanData) (a : AddrClaimEngine) : List AcEvent × AddrClaimEngine :=
  a.onFrame (decodeExtendedId frame.id.value) frame.payload env.now

inductive Demuxed (env : Surroundings) (frame : CanData) (n : Node) : List AcEvent → Node → Prop where
  | claimed {ctx} (held : n.claim = some ctx) (own : isClaimPgn (decodeExtendedId frame.id.value) = true) :
      Demuxed env frame n (heard env frame ctx.engine).1
        { n with claim := some { ctx with engine := (heard env frame ctx.engine).2 } }
  | transported {events tp} (transport : isTpWirePgn (decodeExtendedId frame.id.value) = true)
      (handled : n.tp.onFrame (decodeExtendedId frame.id.value) frame.payload env.now = .ok (events, tp)) :
      Demuxed env frame n [] ((({ n with tp } : Node).publishes (events.flatMap (eventDeliveries env.registry))).reports
        (events.flatMap eventReports))
  | delivered (other : ∀ ctx, n.claim = some ctx → isClaimPgn (decodeExtendedId frame.id.value) = false)
      (single : isTpWirePgn (decodeExtendedId frame.id.value) = false) :
      Demuxed env frame n [] (n.publishes (deliveries
        (fun routing => !routing.transport.isTp && routing.matches (decodeExtendedId frame.id.value)) frame.payload
        (env.registry.iterDirection .inbound)))

theorem isClaimPgn_of_transport {decoded : DecodedId} (transport : isTpWirePgn decoded = true) :
    isClaimPgn decoded = false := by
  simp only [isTpWirePgn, decide_eq_true_eq] at transport
  rcases transport with wire | wire | wire | wire <;> simp only [isClaimPgn, wire] <;> rfl

variable (env)

def Surroundings.AcceptsSingle (claiming : Bool) (frame : CanData) : Prop :=
  (claiming = true → isClaimPgn (decodeExtendedId frame.id.value) = false) →
    isTpWirePgn (decodeExtendedId frame.id.value) = false → ∀ c ∈ env.registry.iterDirection .inbound,
    (!c.routing.transport.isTp && c.routing.matches (decodeExtendedId frame.id.value)) = true → c.Accepts frame.payload

def Surroundings.AcceptsTransport (tp : TpEngine) (frame : CanData) : Prop :=
  isTpWirePgn (decodeExtendedId frame.id.value) = true → ∃ events tp',
    tp.onFrame (decodeExtendedId frame.id.value) frame.payload env.now = .ok (events, tp') ∧
      ∀ event ∈ events, event.Accepted env.registry

theorem claimEvents_eq (decoded : DecodedId) (payload : List UInt8) (n : Node) :
    (∃ ctx, n.claim = some ctx ∧ isClaimPgn decoded = true ∧
      claimEvents env decoded payload n = .ok (some (ctx.engine.onFrame decoded payload env.now).1)
        { n with claim := some { ctx with engine := (ctx.engine.onFrame decoded payload env.now).2 } }) ∨
    ((∀ ctx, n.claim = some ctx → isClaimPgn decoded = false) ∧ claimEvents env decoded payload n = .ok none n) := by
  cases held : n.claim with
  | none =>
    refine .inr ⟨fun _ absent => (Option.some_ne_none _ absent.symm).elim, (bind_of_ok rfl).trans ?_⟩
    rw [held]
    rfl
  | some ctx =>
    by_cases own : isClaimPgn decoded = true
    · refine .inl ⟨ctx, rfl, own, (bind_of_ok rfl).trans ?_⟩
      rw [held]
      dsimp only
      rw [if_pos own]
      rfl
    · refine .inr ⟨fun _ _ => Bool.eq_false_iff.mpr own, (bind_of_ok rfl).trans ?_⟩
      rw [held]
      dsimp only
      rw [if_neg own]
      rfl

variable {env}

theorem demuxInbound_spec {frame : CanData} (single : W → env.AcceptsSingle n.claim.isSome frame)
    (transport : W → env.AcceptsTransport n.tp frame) (outcome : IterationOutcome) (acEvents : List AcEvent) :
    Ensures (· = n) (demuxInbound env frame outcome acEvents)
      (fun handled n' => ∃ events, handled.2 = acEvents ++ events ∧ Demuxed env frame n events n')
      fun n' => ¬ W ∧ n'.claim = n.claim := by
  rintro n rfl
  unfold demuxInbound
  rcases claimEvents_eq env (decodeExtendedId frame.id.value) frame.payload n with
    ⟨_, held, own, claimed⟩ | ⟨other, unclaimed⟩
  · rw [bind_of_ok claimed]
    exact ⟨_, rfl, .claimed held own⟩
  · rw [bind_of_ok unclaimed]
    by_cases wire : isTpWirePgn (decodeExtendedId frame.id.value) = true
    · simp only [wire, ite_true]
      have total : W → ∃ answer, n.tp.onFrame (decodeExtendedId frame.id.value) frame.payload env.now = .ok answer := by
        intro works
        obtain ⟨_, _, handled, _⟩ := transport works wire
        exact ⟨_, handled⟩
      have called := callEngine_spec (·.onFrame (decodeExtendedId frame.id.value) frame.payload env.now) total
      refine ensures_bind (called.failing ?_) (fun events => ?_) n rfl
      · rintro _ ⟨broken, rfl⟩
        exact ⟨broken, rfl⟩
      rintro _ ⟨tp, handled, rfl⟩
      have accepted : W → ∀ event ∈ events, event.Accepted env.registry := by
        intro works
        obtain ⟨_, _, same, accepted⟩ := transport works wire
        cases handled.symm.trans same
        exact accepted
      have applied := applyTpEvents_spec (n := { n with tp }) accepted outcome
      refine ensures_bind applied (fun outcome => ensures_pure ?_) _ rfl
      rintro _ rfl
      exact ⟨[], (append_nil _).symm, .transported wire handled⟩
    · have wire := Bool.eq_false_iff.mpr wire
      simp only [wire, Bool.false_eq_true, ite_false]
      have unclaimed : n.claim.isSome = true → isClaimPgn (decodeExtendedId frame.id.value) = false := by
        intro claiming
        obtain ⟨ctx, held⟩ := Option.isSome_iff_exists.mp claiming
        exact other ctx held
      refine ensures_bind ((publishTo_spec (fun works => single works unclaimed wire) 0).failing ?_)
        (fun count => ensures_pure ?_) n rfl
      · rintro _ ⟨broken, _, rfl⟩
        exact ⟨broken, rfl⟩
      · rintro _ rfl
        exact ⟨[], (append_nil _).symm, .delivered other wire⟩

def recovered : List IfaceHealthKind := [.down, .connecting, .up]

def errorReports : CanErrorKind → List IfaceHealthKind
  | .warning | .passive => [.degraded]
  | .busOff => recovered
  | .arbitrationLost | .other => []

def Surroundings.Reconnects (env : Surroundings) : Prop := env.reopen.isOk ∧ env.reopened = .active

instance (env : Surroundings) : Decidable env.Reconnects := inferInstanceAs (Decidable (_ ∧ _))

inductive Received (env : Surroundings) (n : Node) : List AcEvent → Node → Prop where
  | nothing (quiet : env.received = none ∨ ∃ id dlc, env.received = some (.ok (.remote id dlc))) : Received env n [] n
  | data {frame events n'} (received : env.received = some (.ok (.data frame)))
    (demuxed : Demuxed env frame n events n') : Received env n events n'
  | error {kind} (received : env.received = some (.ok (.error kind))) (opened : kind = .busOff → env.reopen = .ok ()) :
      Received env n [] (n.reports (errorReports kind))
  | closed (received : env.received = some (.error .closed)) :
      Received env n [] (n.reports (if env.Reconnects then recovered else [.down]))

def Surroundings.Stranded (env : Surroundings) : Prop :=
  env.received = some (.ok (.error .busOff)) ∧ env.reopen ≠ .ok ()

structure Surroundings.Receives (env : Surroundings) (claiming : Bool) (tp : TpEngine) : Prop where
  driver : ∀ e, env.received = some (.error e) → e = .closed
  single : ∀ frame, env.received = some (.ok (.data frame)) → env.AcceptsSingle claiming frame
  transport : ∀ frame, env.received = some (.ok (.data frame)) → env.AcceptsTransport tp frame

variable {E : Node → Prop}

theorem setIface_spec (kind : IfaceHealthKind) :
    Ensures (· = n) (setIface kind) (fun _ n' => n' = n.reports [kind]) E := by
  rintro n rfl
  rfl

theorem recovered_spec :
    Ensures (· = n.reports [.down]) (do setIface .connecting; setIface .up) (fun _ n' => n' = n.reports recovered)
      E := by
  rintro _ rfl
  show ((n.reports [.down]).reports [.connecting]).reports [.up] = n.reports recovered
  rw [reports_reports, reports_reports]
  rfl

theorem classifyError_spec (kind : CanErrorKind) : Ensures (· = n) (classifyError env kind)
      (fun _ n' => (kind = .busOff → env.reopen = .ok ()) ∧ n' = n.reports (errorReports kind))
      fun n' => (kind = .busOff ∧ env.reopen ≠ .ok ()) ∧ n' = n.reports [.down] := by
  cases kind with
  | warning | passive =>
    rintro n rfl
    exact ⟨CanErrorKind.noConfusion, rfl⟩
  | busOff =>
    refine ensures_bind (setIface_spec .down) fun _ => ?_
    cases reopened : env.reopen with
    | ok _ =>
      exact recovered_spec.weaken (fun _ _ same => ⟨fun _ => rfl, same⟩) fun _ failed => failed
    | error e =>
      refine ensures_throw fun _ same => ⟨⟨rfl, fun opened => ?_⟩, same⟩
      cases opened
  | arbitrationLost | other =>
    exact ensures_pure fun _ same => ⟨CanErrorKind.noConfusion, same.trans n.reports_nil.symm⟩

theorem reconnectOnce_spec :
    Ensures (· = n) (reconnectOnce env) (fun _ n' => n' = n.reports (if env.Reconnects then recovered else [.down]))
      E := by
  refine ensures_bind (setIface_spec .down) fun _ => ?_
  by_cases reconnects : env.Reconnects
  · rw [if_pos reconnects, if_pos (show env.reopen.isOk ∧ env.reopened = .active from reconnects)]
    exact recovered_spec
  · rw [if_neg reconnects, if_neg (show ¬ (env.reopen.isOk ∧ env.reopened = .active) from reconnects)]
    exact ensures_pure fun _ same => same

theorem handleRxResult_spec
    (receives : W → env.Receives n.claim.isSome n.tp)
    (outcome : IterationOutcome) (acEvents : List AcEvent) :
    Ensures (· = n) (handleRxResult env outcome acEvents) (fun handled n' => ∃ events, handled.2 = acEvents ++ events ∧
      Received env n events n') fun n' => n'.claim = n.claim ∧ (W → env.Stranded ∧ n'.iface = .down) := by
  unfold handleRxResult
  split
  · rename_i received
    exact ensures_pure fun _ same => ⟨[], (append_nil _).symm, same ▸ .nothing (.inl received)⟩
  · rename_i id dlc received
    exact ensures_pure fun _ same => ⟨[], (append_nil _).symm, same ▸ .nothing (.inr ⟨id, dlc, received⟩)⟩
  · rename_i frame received
    refine (demuxInbound_spec (fun works => (receives works).single frame received)
      (fun works => (receives works).transport frame received) outcome acEvents).weaken ?_ ?_
    · rintro _ _ ⟨events, appended, demuxed⟩
      exact ⟨events, appended, .data received demuxed⟩
    · rintro _ ⟨broken, same⟩
      exact ⟨same, fun works => absurd works broken⟩
  · rename_i kind received
    refine ensures_bind ((classifyError_spec kind).failing ?_) fun _ => ensures_pure ?_
    · rintro _ ⟨⟨rfl, lost⟩, rfl⟩
      exact ⟨rfl, fun _ => ⟨⟨received, lost⟩, n.iface_reports [] .down⟩⟩
    · rintro _ ⟨opened, rfl⟩
      exact ⟨[], (append_nil _).symm, .error received opened⟩
  · rename_i received
    refine ensures_bind reconnectOnce_spec fun _ => ensures_pure ?_
    rintro _ rfl
    exact ⟨[], (append_nil _).symm, .closed received⟩
  · rename_i e other received
    rintro n rfl
    exact ⟨rfl, fun works => absurd ((receives works).driver e received) other⟩

end Receiving

namespace Node

def ClaimHolds (I : AddrClaimEngine → Prop) (n : Node) : Prop := ∃ ctx, n.claim = some ctx ∧ I ctx.engine

def pollEvents (env : Surroundings) (n : Node) : List AcEvent := n.claim.elim [] fun ctx => (ctx.engine.poll env.now).1

def polled (env : Surroundings) (n : Node) : Node :=
  { n with claim := n.claim.map fun ctx => { ctx with engine := (ctx.engine.poll env.now).2 } }

def swept (env : Surroundings) (n : Node) : Node :=
  ({ n with tp := (env.rearrange n.tp).swept env.now } : Node).reports
    (((env.rearrange n.tp).timeoutEvents env.now).flatMap eventReports)

def flushed (n : Node) : Node :=
  ({ n with tp := n.tp.takeOutbound.2 } : Node).sends (n.tp.takeOutbound.1.map fun f => (tpParts f).frame)

def reflecting (n : Node) (events : List AcEvent) : Node :=
  events.foldl (fun n event => ({ n with claim := n.claim.map fun ctx => { ctx with gate := (reflected event).1 } } :
    Node).reports [(reflected event).2]) n

def announced (n : Node) : Node :=
  ({ n with claim := n.claim.map fun ctx : ClaimCtx => { ctx with engine := ctx.engine.takeOutbound.2 } } : Node).sends
    ((n.claim.elim [] fun ctx => ctx.engine.takeOutbound.1).map fun f => (acParts f).frame)

end Node

inductive Iterated (sourceAddr : UInt8) (env : Surroundings) (n : Node) : Node → Prop where
  | intro {jobs events n₁} (collected : collectOutboundJobs sourceAddr env.registry = .ok jobs)
      (received : Received env ((({ n with tp := env.arrange n.tp } : Node).sends jobs).polled env) events n₁) :
      Iterated sourceAddr env n (((n₁.swept env).flushed.reflecting (n.pollEvents env ++ events)).announced)

structure Surroundings.Works (sourceAddr : UInt8) (env : Surroundings) (n : Node) : Prop where
  sends : env.Sends
  collects : ∃ jobs, collectOutboundJobs sourceAddr env.registry = .ok jobs
  receives : env.Receives n.claim.isSome (env.arrange n.tp)

section Iteration

variable {sourceAddr : UInt8} {env : Surroundings} {W : Prop} {n : Node} {I : AddrClaimEngine → Prop}

theorem pollClaim_eq (env : Surroundings) (n : Node) : pollClaim env n = .ok (n.pollEvents env) (n.polled env) := by
  unfold pollEvents polled
  refine (bind_of_ok rfl).trans ?_
  cases held : n.claim with
  | none =>
    obtain ⟨_, _⟩ := n
    cases held
    rfl
  | some ctx => rfl

theorem applyAcEvents_eq (events : List AcEvent) (n : Node) :
    applyAcEvents events n = .ok () (n.reflecting events) := by
  induction events generalizing n with
  | nil => rfl
  | cons event rest ih => exact (bind_of_ok rfl).trans ((bind_of_ok rfl).trans (ih _))

theorem timeoutEvents_aborted {e : TpEngine} {now : Nat} :
    ∀ event ∈ e.timeoutEvents now, ∃ pgn sourceAddr, event = .aborted pgn sourceAddr .timeout := by
  intro event member
  simp only [timeoutEvents, mem_append, mem_map] at member
  rcases member with (((⟨s, _, rfl⟩ | ⟨s, _, rfl⟩) | ⟨s, _, rfl⟩) | ⟨s, _, rfl⟩) | ⟨s, _, rfl⟩
  all_goals exact ⟨_, _, rfl⟩

theorem timeoutEvents_undelivered (registry : J1939Registry) (e : TpEngine) (now : Nat) :
    (e.timeoutEvents now).flatMap (eventDeliveries registry) = [] := by
  rw [flatMap_eq_nil_iff]
  intro event member
  obtain ⟨_, _, rfl⟩ := timeoutEvents_aborted event member
  rfl

section

variable {α : Type} {R : α → Node → Prop}

variable {rest : Nat → Dispatch α} {E : Node → Prop}

theorem sweep_bind {rest : IterationOutcome → Dispatch α} (outcome : IterationOutcome)
    (after : ∀ outcome, Ensures (· = n.swept env) (rest outcome) R E) : Ensures (· = n)
      (modify (fun n => { n with tp := env.rearrange n.tp }) >>= fun _ =>
        callEngine (·.pollTimeouts env.now) >>= fun timeouts => applyTpEvents env.registry timeouts outcome >>= rest)
      R E := by
  have called := callEngine_spec (W := True) (n := { n with tp := env.rearrange n.tp }) (·.pollTimeouts env.now)
    fun _ => ⟨_, pollTimeouts_eq _ _⟩
  refine ensures_bind (Q := fun _ n' => n' = { n with tp := env.rearrange n.tp }) (ensures_modify ?_) fun _ => ?_
  · rintro n rfl
    rfl
  refine ensures_bind (called.failing fun _ broken => (broken.1 trivial).elim) fun events => ?_
  rintro _ ⟨_, polled, rfl⟩
  rw [pollTimeouts_eq] at polled
  cases polled
  have accepted : True → ∀ event ∈ (env.rearrange n.tp).timeoutEvents env.now, event.Accepted env.registry := by
    intro _ event member pgn sourceAddr payload completed
    obtain ⟨_, _, rfl⟩ := timeoutEvents_aborted event member
    cases completed
  refine ensures_bind ((applyTpEvents_spec accepted outcome).weaken ?_ fun _ broken => (broken.1 trivial).elim) after _
    rfl
  rintro _ _ rfl
  rw [timeoutEvents_undelivered, publishes_nil]
  rfl

theorem taken_bind {take : Dispatch (List FrameParts)} {frames : List FrameParts} {n' : Node}
    (taken : take n = .ok frames n')
    (fit : ∀ f ∈ frames, f.data.length ≤ 8)
    (sends : W → env.Sends)
    (count : Nat)
    (after : ∀ count, Ensures (· = n'.sends (frames.map FrameParts.frame)) (rest count) R E)
    (failed : ∀ n'', ¬ W → n''.claim = n'.claim → E n'') :
    Ensures (· = n) (take >>= fun frames => transmitFrames env frames count >>= rest) R E := by
  rintro _ rfl
  rw [bind_of_ok taken]
  refine ensures_bind ((transmitFrames_spec sends fit count).failing ?_) after _ rfl
  rintro _ ⟨broken, _, rfl⟩
  exact failed _ broken rfl

theorem takeEngineFrames_bind
    (sends : W → env.Sends)
    (count : Nat)
    (after : ∀ count, Ensures (· = n.flushed) (rest count) R E)
    (failed : ∀ n', ¬ W → n'.claim = n.claim → E n') :
    Ensures (· = n) (takeEngineFrames >>= fun frames => transmitFrames env frames count >>= rest) R E := by
  have taken : takeEngineFrames n = .ok (n.tp.takeOutbound.1.map tpParts) { n with tp := n.tp.takeOutbound.2 } := rfl
  refine taken_bind taken ?_ sends count ?_ failed
  · intro f member
    obtain ⟨g, _, rfl⟩ := mem_map.mp member
    exact g.data.2.le
  · rw [map_map]
    exact after

theorem takeClaimFrames_bind
    (sends : W → env.Sends)
    (count : Nat)
    (after : ∀ count, Ensures (· = n.announced) (rest count) R E)
    (failed : ∀ n', ¬ W → n'.claim = n.announced.claim → E n') :
    Ensures (· = n) (takeClaimFrames >>= fun frames => transmitFrames env frames count >>= rest) R E := by
  have taken : takeClaimFrames n = .ok ((n.claim.elim [] fun ctx => ctx.engine.takeOutbound.1).map acParts) { n with
    claim := n.claim.map fun ctx => { ctx with engine := ctx.engine.takeOutbound.2 } } := rfl
  refine taken_bind taken ?_ sends count ?_ failed
  · intro f member
    obtain ⟨g, _, rfl⟩ := mem_map.mp member
    exact g.data.2.le
  · rw [map_map]
    exact after

end

namespace Node.ClaimHolds

section

variable (holds : n.ClaimHolds I)
include holds

variable {n' : Node}

theorem of_claim (same : n'.claim = n.claim) : n'.ClaimHolds I := by
  obtain ⟨ctx, held, holds⟩ := holds
  exact ⟨ctx, same.trans held, holds⟩

theorem map {J : AddrClaimEngine → Prop} {f : ClaimCtx → ClaimCtx} (mapped : n'.claim = n.claim.map f)
    (kept : ∀ ctx : ClaimCtx, I ctx.engine → J (f ctx).engine) : n'.ClaimHolds J := by
  obtain ⟨ctx, held, holds⟩ := holds
  rw [held] at mapped
  exact ⟨f ctx, mapped, kept ctx holds⟩

theorem polled (polled : ∀ a, I a → I (a.poll env.now).2) : (n.polled env).ClaimHolds I :=
  holds.map rfl fun ctx => polled ctx.engine

theorem received {events : List AcEvent}
    (heard : ∀ frame, env.received = some (.ok (.data frame)) → ∀ a, I a → I (heard env frame a).2)
    (received : Received env n events n') : n'.ClaimHolds I := by
  cases received with
  | nothing | error | closed => exact holds
  | data received demuxed =>
    cases demuxed with
    | transported | delivered => exact holds
    | claimed held own =>
      obtain ⟨_, same, holds⟩ := holds
      cases held.symm.trans same
      exact ⟨_, rfl, heard _ received _ holds⟩

theorem reflecting (events : List AcEvent) : (n.reflecting events).ClaimHolds I := by
  induction events generalizing n with
  | nil => exact holds
  | cons event rest ih => exact ih (holds.map rfl fun _ kept => kept)

theorem announced (drained : ∀ a, I a → I a.takeOutbound.2) : n.announced.ClaimHolds I :=
  holds.map rfl fun ctx => drained ctx.engine

end

end Node.ClaimHolds

theorem Iterated.claimHolds {n' : Node}
    (iterated : Iterated sourceAddr env n n')
    (start : n.ClaimHolds I)
    (polled : ∀ a, I a → I (a.poll env.now).2)
    (heard : ∀ frame, env.received = some (.ok (.data frame)) → ∀ a, I a → I (heard env frame a).2)
    (drained : ∀ a, I a → I a.takeOutbound.2) : n'.ClaimHolds I := by
  cases iterated with
  | @intro jobs events n₁ collected received =>
    have sent : ({ n with tp := env.arrange n.tp }.sends jobs).ClaimHolds I := start
    have handled : n₁.ClaimHolds I := (sent.polled polled).received heard received
    have flushed : (n₁.swept env).flushed.ClaimHolds I := handled
    exact (flushed.reflecting _).announced drained

theorem dispatchIteration_spec
    (works : W → env.Works sourceAddr n)
    (start : n.ClaimHolds I)
    (polled : ∀ a, I a → I (a.poll env.now).2)
    (heard : ∀ frame, env.received = some (.ok (.data frame)) → ∀ a, I a → I (heard env frame a).2)
    (drained : ∀ a, I a → I a.takeOutbound.2) :
    Ensures (· = n) (dispatchIteration sourceAddr env) (fun _ n' => Iterated sourceAddr env n n') fun n' =>
      n'.ClaimHolds I ∧ (W → env.Stranded ∧ n'.iface = .down) := by
  have sends : W → env.Sends := fun holds => (works holds).sends
  have broken {n'' : Node} (failed : ¬ W) : W → env.Stranded ∧ n''.iface = .down := fun holds => absurd holds failed
  refine ensures_bind (Q := fun _ n' => n' = { n with tp := env.arrange n.tp }) (ensures_modify ?_) fun _ => ?_
  · rintro n rfl
    rfl
  refine ensures_bind ((sendOutboundOnce_spec sends fun holds => (works holds).collects).failing ?_) fun txSent => ?_
  · rintro _ ⟨failed, _, rfl⟩
    exact ⟨start, broken failed⟩
  rintro _ ⟨jobs, collected, rfl⟩
  rw [bind_of_ok (pollClaim_eq env _)]
  have rx := handleRxResult_spec (n := ({ n with tp := env.arrange n.tp }.sends jobs).polled env)
    (fun holds => Option.isSome_map ▸ (works holds).receives) (.sent txSent) (n.pollEvents env)
  have start : (({ n with tp := env.arrange n.tp }.sends jobs).polled env).ClaimHolds I :=
    ClaimHolds.polled start polled
  refine ensures_bind (rx.failing ?_) ?_ _ rfl
  · rintro _ ⟨same, lost⟩
    exact ⟨start.of_claim same, lost⟩
  rintro ⟨outcome, _⟩ n₁ ⟨events, rfl, received⟩
  have holds := start.received heard received
  refine sweep_bind outcome (fun outcome => ?_) n₁ rfl
  refine takeEngineFrames_bind sends outcome.txSent (fun txSent => ?_) ?_
  · rintro _ rfl
    rw [bind_of_ok (applyAcEvents_eq _ _)]
    have reflected : ((n₁.swept env).flushed.reflecting (n.pollEvents env ++ events)).ClaimHolds I :=
      ClaimHolds.reflecting (n := (n₁.swept env).flushed) holds _
    refine takeClaimFrames_bind sends txSent (fun txSent => ensures_pure ?_) ?_ _ rfl
    · rintro _ rfl
      exact .intro collected received
    · intro n' failed same
      exact ⟨(reflected.announced drained).of_claim same, broken failed⟩
  · intro n' failed same
    exact ⟨holds.of_claim same, broken failed⟩

end Iteration

end Taktora.J1939
