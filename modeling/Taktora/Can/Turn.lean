import Taktora.Can.Dispatcher

namespace Taktora.Can

open Checked Fallible CanDispatcher List

namespace IfaceTask

def acts (t : IfaceTask) (steps : List Act) : IfaceTask := { t with trace := t.trace ++ steps }

def sends (t : IfaceTask) (frames : List CanData) : IfaceTask := { t with sent := t.sent ++ frames }

def publishes (t : IfaceTask) (messages : List (String × List UInt8)) : IfaceTask :=
  { t with published := t.published ++ messages }

section

variable (t : IfaceTask)
include t

theorem acts_acts (first second : List Act) : (t.acts first).acts second = t.acts (first ++ second) := by
  simp only [acts, append_assoc]

theorem acts_nil : t.acts [] = t := by
  simp only [acts, append_nil]

theorem sends_nil : t.sends [] = t := by
  simp only [sends, append_nil]

theorem publishes_nil : t.publishes [] = t := by
  simp only [publishes, append_nil]

theorem sends_foldl (frames : List CanData) : frames.foldl (fun t frame => t.sends [frame]) t = t.sends frames := by
  induction frames generalizing t with
  | nil => exact t.sends_nil.symm
  | cons frame rest ih =>
    rw [foldl_cons, ih]
    simp only [sends, append_assoc, singleton_append]

theorem publishes_foldl {α : Type} (yield : α → List (String × List UInt8)) (xs : List α) :
    xs.foldl (fun t x => t.publishes (yield x)) t = t.publishes (xs.flatMap yield) := by
  induction xs generalizing t with
  | nil => exact t.publishes_nil.symm
  | cons x rest ih =>
    rw [foldl_cons, ih]
    simp only [publishes, append_assoc, flatMap_cons]

end

end IfaceTask

def Act.reported : Act → Option IfaceHealthKind
  | .report kind => some kind
  | _ => none

def lastReport (trace : List Act) (kind : IfaceHealthKind) : IfaceHealthKind :=
  trace.foldl (fun kind a => a.reported.getD kind) kind

def IfaceTask.iface (t : IfaceTask) : IfaceHealthKind := lastReport t.trace .connecting

theorem IfaceTask.iface_acts (t : IfaceTask) (steps : List Act) : (t.acts steps).iface = lastReport steps t.iface :=
  foldl_append

namespace IfaceSurroundings

def Sends (env : IfaceSurroundings) : Prop := ∀ sent frame, env.send sent frame = .ok ()

end IfaceSurroundings

variable (channel : RegisteredChannel)

def RegisteredChannel.Accepts (payload : List UInt8) : Prop :=
  ∀ publish, channel.binding = .inbound publish → publish payload = .ok ()

def CanRouting.Carries (routing : CanRouting) (pending : Except ConnectorError (List UInt8)) : Prop :=
  ∃ message, pending = .ok message ∧ message.length ≤ routing.kind.maxPayload

def pendingFrames (routing : CanRouting) (pending : Except ConnectorError (List UInt8)) : List CanData :=
  pending.toOption.elim [] fun message => [⟨routing.canId, routing.kind, message⟩]

def RegisteredChannel.Carried : Prop :=
  ∀ pending, channel.binding = .outbound pending → ∀ message ∈ pending, channel.routing.Carries message

def channelFrames : List CanData :=
  match channel.binding with
  | .outbound pending => pending.flatMap (pendingFrames channel.routing)
  | _ => []

def delivery (frame : CanData) (channel : RegisteredChannel) : List (String × List UInt8) :=
  if channel.routing.matches frame && channel.binding.isInbound then [(channel.descriptorName, frame.payload)] else []

section Parts

variable {iface : CanIface} {env : IfaceSurroundings} {W : Prop} {t : IfaceTask} {jobs : List CanData}

theorem maxPayload_le (kind : CanFrameKind) : kind.maxPayload ≤ maxCanPayload := by
  cases kind <;> decide

variable {routing : CanRouting} {channel : RegisteredChannel} {registry : ChannelRegistry}
  {pending : Except ConnectorError (List UInt8)}

theorem frameJob_eq (carries : routing.Carries pending) :
    frameJob routing pending = .ok (pendingFrames routing pending) := by
  obtain ⟨_, rfl, fits⟩ := carries
  rw [frameJob, drainInto_eq_ok.mpr ⟨rfl, fits.trans (maxPayload_le _)⟩]
  simp only [bind, Except.bind, CanData.new_ok fits]
  rfl

theorem carries_of_frameJob
    (built : frameJob routing pending = .ok jobs) : routing.Carries pending := by
  obtain ⟨message, drained, built⟩ := bind_ok built
  obtain ⟨_, fresh, _⟩ := bind_ok built
  obtain ⟨rfl, _⟩ := drainInto_eq_ok.mp drained
  refine ⟨message, rfl, ?_⟩
  by_contra long
  rw [CanData.new, if_pos (Nat.lt_of_not_le long)] at fresh
  cases fresh

theorem channelJobs_eq_ok_iff : channelJobs channel = .ok jobs ↔ channel.Carried ∧ jobs = channelFrames channel := by
  unfold channelJobs channelFrames RegisteredChannel.Carried
  cases channel.binding with
  | unbound | inbound =>
    refine ⟨fun collected => ⟨?_, (Except.ok.inj collected).symm⟩, fun collected => collected.2 ▸ rfl⟩
    intro pending impossible
    cases impossible
  | outbound pending =>
    rw [collect_eq_ok_iff (fun _ => frameJob_eq) fun _ _ => carries_of_frameJob]
    refine and_congr_left fun _ => ⟨fun carries _ same => ?_, fun carries => carries pending rfl⟩
    cases same
    exact carries

theorem collectOutboundJobs_eq_ok_iff : collectOutboundJobs iface registry = .ok jobs ↔
      (∀ c ∈ registry.iterIfaceDirection iface .outbound, c.Carried) ∧
        jobs = (registry.iterIfaceDirection iface .outbound).flatMap channelFrames :=
  collect_eq_ok_iff (fun _ carried => channelJobs_eq_ok_iff.mpr ⟨carried, rfl⟩)
    fun _ _ collected => (channelJobs_eq_ok_iff.mp collected).1

theorem sendFrame_spec (sends : W → env.Sends) (data : CanData) :
    Ensures (· = t) (sendFrame env data) (fun _ t' => t' = t.sends [data]) fun t' => ¬ W ∧ t' = t := by
  refine ensures_get_bind ?_
  rintro t rfl
  cases result : env.send t.sent data with
  | ok _ =>
    rintro t rfl
    rfl
  | error e =>
    have broken : ¬ W := by
      intro works
      rw [sends works] at result
      cases result
    cases data.kind with
    | classical | fd => exact ensures_throw fun _ same => ⟨broken, same⟩

theorem drainOutboundOnce_spec
    (sends : W → env.Sends)
    (carried : W → ∀ c ∈ env.registry.iterIfaceDirection iface .outbound, c.Carried) :
    Ensures (· = t) (drainOutboundOnce iface env) (fun _ t' => ∃ jobs,
      collectOutboundJobs iface env.registry = .ok jobs ∧ t' = t.sends jobs) fun t' => ¬ W ∧ t'.trace = t.trace := by
  unfold drainOutboundOnce
  cases collected : collectOutboundJobs iface env.registry with
  | error e =>
    rintro t rfl
    refine ⟨fun works => ?_, rfl⟩
    cases collected.symm.trans (collectOutboundJobs_eq_ok_iff.mpr ⟨carried works, rfl⟩)
  | ok jobs =>
    refine (ensures_each (fun t frame => t.sends [frame]) (F := fun t t' => ¬ W ∧ t'.trace = t.trace) ?_
      fun _ _ _ failed => failed).weaken ?_ fun _ failed => failed
    · intro data _ t
      exact (sendFrame_spec sends data).failing fun _ failed => ⟨failed.1, failed.2 ▸ rfl⟩
    · rintro _ _ rfl
      exact ⟨jobs, rfl, t.sends_foldl jobs⟩

theorem publishBytes_spec {payload : List UInt8} (accepts : W → channel.Accepts payload) :
    Ensures (· = t) (publishBytes channel payload)
      (fun _ t' => t' = t.publishes (if channel.binding.isInbound then [(channel.descriptorName, payload)] else []))
      fun t' => ¬ W ∧ t'.trace = t.trace := by
  unfold publishBytes
  cases binding : channel.binding with
  | unbound | outbound => exact ensures_pure fun _ same => same.trans t.publishes_nil.symm
  | inbound publish =>
    dsimp only
    cases result : publish payload with
    | ok _ =>
      rintro t rfl
      rfl
    | error e =>
      refine ensures_throw fun t' same => ⟨fun works => ?_, same ▸ rfl⟩
      rw [accepts works publish binding] at result
      cases result

theorem demuxInbound_spec {frame : CanData}
    (accept : W → ∀ c ∈ registry.iterIfaceDirection iface .inbound, c.routing.matches frame = true →
      c.Accepts frame.payload) :
    Ensures (· = t) (demuxInbound iface frame registry)
      (fun _ t' => t' = t.publishes ((registry.iterIfaceDirection iface .inbound).flatMap (delivery frame)))
      fun t' => ¬ W ∧ t'.trace = t.trace := by
  refine (ensures_each (fun t channel => t.publishes (delivery frame channel))
    (F := fun t t' => ¬ W ∧ t'.trace = t.trace) ?_ fun _ _ _ failed => failed).weaken ?_ fun _ failed => failed
  · intro channel member t
    unfold delivery
    cases matching : channel.routing.matches frame with
    | true => exact publishBytes_spec fun works => accept works channel member matching
    | false => exact ensures_pure fun _ same => same.trans t.publishes_nil.symm
  · rintro _ _ rfl
    exact t.publishes_foldl _ _

def opens (attempt : Except CanIoError Unit × CanIfaceState) : Bool := attempt.1.isOk ∧ attempt.2 = .active

def tries : List (Except CanIoError Unit × CanIfaceState) → List Act
  | [] => []
  | attempt :: later => .nextDelay :: .reopen attempt.1 attempt.2 :: if opens attempt then [] else tries later

theorem reconnectUntilOpen_eq (attempts : List (Except CanIoError Unit × CanIfaceState)) (t : IfaceTask) :
    reconnectUntilOpen attempts t = .ok (attempts.any opens) (t.acts (tries attempts)) := by
  induction attempts generalizing t with
  | nil => exact congrArg (EStateM.Result.ok false) t.acts_nil.symm
  | cons attempt later ih =>
    show (if _ then pure true else reconnectUntilOpen later)
        ((t.acts [.nextDelay]).acts [.reopen attempt.1 attempt.2]) = _
    rw [t.acts_acts, any_cons, tries, opens]
    by_cases opened : attempt.1.isOk ∧ attempt.2 = .active
    · rw [if_pos opened, decide_eq_true opened]
      rfl
    · rw [if_neg opened, ih, t.acts_acts, decide_eq_false opened]
      rfl

def errorActs (env : IfaceSurroundings) : CanErrorKind → List Act
  | .warning | .passive => [.report .degraded]
  | .busOff => [.report .down, .nextDelay, .reopen env.reopen env.reopened, .report .connecting, .report .up]
  | .arbitrationLost | .other => []

theorem classifyError_spec (kind : CanErrorKind) : Ensures (· = t) (classifyError env kind)
      (fun _ t' => (kind = .busOff → env.reopen = .ok ()) ∧ t' = t.acts (errorActs env kind))
      fun t' => (kind = .busOff ∧ env.reopen ≠ .ok ()) ∧ t'.iface = .down := by
  cases kind with
  | warning | passive =>
    rintro t rfl
    exact ⟨CanErrorKind.noConfusion, rfl⟩
  | busOff =>
    rintro t rfl
    refine ensures_bind (Q := fun _ t' => t' = t.acts [.report .down]) (fun _ same => same ▸ rfl) (fun _ => ?_) t rfl
    refine ensures_bind (Q := fun _ t' => t' = t.acts [.report .down, .nextDelay]) ?_ fun _ => ?_
    · rintro _ rfl
      exact t.acts_acts _ _
    refine ensures_bind
      (Q := fun _ t' => t' = t.acts [.report .down, .nextDelay, .reopen env.reopen env.reopened]) ?_ fun _ => ?_
    · rintro _ rfl
      exact t.acts_acts _ _
    cases reopened : env.reopen with
    | ok _ =>
      rintro _ rfl
      refine ⟨fun _ => rfl, ?_⟩
      show ((t.acts _).acts [.report .connecting]).acts [.report .up] = _
      rw [t.acts_acts, t.acts_acts, errorActs, reopened]
      rfl
    | error e =>
      rintro _ rfl
      exact ⟨⟨rfl, fun opened => by cases opened⟩, t.iface_acts _⟩
  | arbitrationLost | other => exact ensures_pure fun _ same => ⟨CanErrorKind.noConfusion, same.trans t.acts_nil.symm⟩

def Filtered (t m : IfaceTask) : Prop :=
  m.sent = t.sent ∧ m.published = t.published ∧
    ∃ steps, m.trace = t.trace ++ steps ∧ ∀ a ∈ steps, ∃ filters, a = .applyFilter filters (.ok ())

theorem recompileFilter_spec (applies : W → env.applied = .ok ()) :
    Ensures (· = t) (recompileFilter iface env) (fun _ t' => Filtered t t') fun _ => ¬ W := by
  refine ensures_get_bind ?_
  rintro t rfl
  have unchanged : Filtered t t := ⟨rfl, rfl, [], (append_nil _).symm, forall_mem_nil _⟩
  dsimp only
  split
  · split
    · cases applied : env.applied with
      | error e =>
        rintro _ rfl works
        rw [applies works] at applied
        cases applied
      | ok _ =>
        rintro _ rfl
        exact ⟨rfl, rfl, [_], rfl, forall_mem_singleton.mpr ⟨_, rfl⟩⟩
    · rintro _ rfl
      exact ⟨rfl, rfl, [], (append_nil _).symm, forall_mem_nil _⟩
  · exact ensures_pure fun _ same => same ▸ unchanged

inductive Received (iface : CanIface) (env : IfaceSurroundings) (t : IfaceTask) : Bool → IfaceTask → Prop where
  | nothing (quiet : env.received = none ∨ ∃ id dlc, env.received = some (.ok (.remote id dlc))) :
      Received iface env t true t
  | data {frame} (received : env.received = some (.ok (.data frame))) :
      Received iface env t true
        (t.publishes ((env.registry.iterIfaceDirection iface .inbound).flatMap (delivery frame)))
  | error {kind} (received : env.received = some (.ok (.error kind))) (opened : kind = .busOff → env.reopen = .ok ()) :
      Received iface env t true (t.acts (errorActs env kind))
  | stopped (received : env.received = some (.error .closed)) (lost : env.attempts.any opens = false) :
      Received iface env t false (t.acts (.report .down :: tries env.attempts))
  | reconnected (received : env.received = some (.error .closed)) (opened : env.attempts.any opens = true) :
      Received iface env t true
        (({ t with lastFilter := compileIfaceFilter env.reconnected iface } : IfaceTask).acts
          (.report .down :: tries env.attempts ++
            [.applyFilter (compileIfaceFilter env.reconnected iface) env.reapplied, .report .connecting, .report .up]))

def IfaceSurroundings.Stranded (env : IfaceSurroundings) : Prop :=
  env.received = some (.ok (.error .busOff)) ∧ env.reopen ≠ .ok ()

structure IfaceSurroundings.Works (iface : CanIface) (env : IfaceSurroundings) : Prop where
  applies : env.applied = .ok ()
  carries : ∀ c ∈ env.registry.iterIfaceDirection iface .outbound, c.Carried
  sends : env.Sends
  receives : ∀ e, env.received = some (.error e) → e = .closed
  accepts : ∀ frame, env.received = some (.ok (.data frame)) →
    ∀ c ∈ env.registry.iterIfaceDirection iface .inbound, c.routing.matches frame = true → c.Accepts frame.payload

theorem dispatchOnce_spec (works : W → env.Works iface) : Ensures (· = t) (dispatchOnce iface env)
      (fun goesOn t' => ∃ m jobs, recompileFilter iface env t = .ok () m ∧ Filtered t m ∧
        collectOutboundJobs iface env.registry = .ok jobs ∧ Received iface env (m.sends jobs) goesOn t')
      fun t' => W → env.Stranded ∧ t'.iface = .down := by
  have broken {t' : IfaceTask} (failed : ¬ W) : W → env.Stranded ∧ t'.iface = .down := fun holds => absurd holds failed
  refine ensures_bind_from ((recompileFilter_spec fun holds => (works holds).applies).failing
    fun _ failed => broken failed) ?_
  intro _ m recompiled filtered
  refine ensures_bind ((drainOutboundOnce_spec (fun holds => (works holds).sends) fun holds =>
    (works holds).carries).weaken (fun _ _ done => done) fun _ failed => broken failed.1) fun _ => ?_
  rintro _ ⟨jobs, collected, rfl⟩
  have returned {goesOn : Bool} {t' : IfaceTask} (received : Received iface env (m.sends jobs) goesOn t') :
    ∃ m jobs, recompileFilter iface env t = .ok () m ∧ Filtered t m ∧
      collectOutboundJobs iface env.registry = .ok jobs ∧
      Received iface env (m.sends jobs) goesOn t' := ⟨m, jobs, recompiled, filtered, collected, received⟩
  cases received : env.received with
  | none => exact returned (.nothing (.inl received))
  | some result =>
    cases result with
    | ok frame =>
      cases frame with
      | remote id dlc => exact returned (.nothing (.inr ⟨id, dlc, received⟩))
      | data frame =>
        refine ensures_bind ((demuxInbound_spec fun holds => (works holds).accepts frame received).weaken
          (fun _ _ done => done) fun _ failed => broken failed.1) (fun _ => ensures_pure ?_) _ rfl
        rintro _ rfl
        exact returned (.data received)
      | error kind =>
        refine ensures_bind ((classifyError_spec kind).failing ?_) (fun _ => ensures_pure ?_) _ rfl
        · rintro _ ⟨⟨rfl, lost⟩, down⟩ _
          exact ⟨⟨received, lost⟩, down⟩
        · rintro _ ⟨opened, rfl⟩
          exact returned (.error received opened)
    | error e =>
      cases e with
      | closed =>
        refine ensures_bind (Q := fun _ t' => t' = (m.sends jobs).acts [.report .down]) (fun _ same => same ▸ rfl)
          (fun _ => ?_) _ rfl
        refine ensures_bind (Q := fun opened t' => opened = env.attempts.any opens ∧
          t' = (m.sends jobs).acts (.report .down :: tries env.attempts)) ?_ ?_
        · rintro _ rfl
          rw [reconnectUntilOpen_eq, IfaceTask.acts_acts]
          exact ⟨rfl, rfl⟩
        rintro _ _ ⟨rfl, rfl⟩
        cases opened : env.attempts.any opens with
        | false => exact returned (.stopped received opened)
        | true =>
          have same (t : IfaceTask) (steps : List Act) (filters : List CanFilter) (result : Except CanIoError Unit) :
              (({ (t.acts steps).acts [.applyFilter filters result] with lastFilter := filters }.acts
                [.report .connecting]).acts [.report .up]) = ({ t with lastFilter := filters } : IfaceTask).acts
                  (steps ++ [.applyFilter filters result, .report .connecting, .report .up]) := by
            simp only [IfaceTask.acts, append_assoc, cons_append, nil_append]
          have reconnected := returned (.reconnected received opened)
          rw [← same] at reconnected
          exact reconnected
      | payloadTooLong | io | busOff =>
        intro holds
        cases (works holds).receives _ received

theorem bringUp_spec {applied : Except CanIoError Unit} :
    Ensures (· = t) (bringUp iface registry applied) (fun _ t' => ∃ m, Filtered t m ∧ t' = m.acts [.report .up])
      fun t' => applied ≠ .ok () ∧ t'.iface = .down := by
  refine ensures_get_bind ?_
  rintro t rfl
  dsimp only
  split
  · cases applied with
    | error e =>
      rintro t rfl
      refine ⟨fun fine => ?_, (t.acts [_]).iface_acts [_]⟩
      cases fine
    | ok _ =>
      rintro t rfl
      exact ⟨{ t.acts [_] with lastFilter := _ }, ⟨rfl, rfl, [_], rfl, forall_mem_singleton.mpr ⟨_, rfl⟩⟩, rfl⟩
  · rintro t rfl
    exact ⟨t, ⟨rfl, rfl, [], (append_nil _).symm, forall_mem_nil _⟩, rfl⟩

end Parts

end Taktora.Can
