import Taktora.Can.Turn

namespace Taktora.Can

open Fallible CanDispatcher List

inductive Phase where
  | connected
  /-- The connection is lost, and the next attempt has to wait for the reconnect policy. -/
  | lost
  | waiting
  | reopened
  | doubtful
deriving DecidableEq

def Phase.next : Phase → Act → Option Phase
  | .connected, .report .down => some .lost
  | .connected, .report _ | .connected, .applyFilter _ _ => some .connected
  | .lost, .nextDelay | .doubtful, .nextDelay => some .waiting
  | .waiting, .reopen result state =>
    some (if ¬ result.isOk then .lost else if state = .active then .reopened else .doubtful)
  | .reopened, .applyFilter _ _ => some .reopened
  | .reopened, .report .connecting | .doubtful, .report .connecting => some .connected
  | _, _ => none

def Phase.after (p : Phase) (steps : List Act) : Option Phase := steps.foldlM Phase.next p

section Phases

variable {p q : Phase} {steps : List Act}

theorem Phase.after_append (p : Phase) (first second : List Act) :
    p.after (first ++ second) = (p.after first).bind fun q => q.after second := foldlM_append

theorem Phase.next_down {a : Act} {kind : IfaceHealthKind}
    (away : p ≠ .connected → kind = .down)
    (next : p.next a = some q)
    (still : q ≠ .connected) : a.reported.getD kind = .down := by
  have settled (same : some connected = some q) : a.reported.getD kind = .down := by
    cases same
    exact absurd rfl still
  cases p with
  | connected =>
    cases a with
    | nextDelay | reopen => cases next
    | applyFilter filters result => exact settled next
    | report reported => cases reported <;> first | rfl | exact settled next
  | lost | waiting => cases a <;> first | exact away (by decide) | cases next
  | reopened =>
    cases a with
    | nextDelay | reopen => cases next
    | applyFilter filters result => exact away (by decide)
    | report reported => cases reported <;> first | exact settled next | cases next
  | doubtful =>
    cases a with
    | nextDelay => exact away (by decide)
    | reopen | applyFilter => cases next
    | report reported => cases reported <;> first | exact settled next | cases next

theorem Phase.after_down {kind : IfaceHealthKind}
    (away : p ≠ .connected → kind = .down)
    (after : p.after steps = some q)
    (still : q ≠ .connected) : lastReport steps kind = .down := by
  induction steps generalizing p kind with
  | nil =>
    cases after
    exact away still
  | cons a rest ih =>
    obtain ⟨_, next, after⟩ := Option.bind_eq_some_iff.mp after
    exact ih (fun away' => next_down away next away') after

def Phase.Away (p : Phase) : Prop := p = .lost ∨ p = .doubtful

theorem tries_after (attempts : List (Except CanIoError Unit × CanIfaceState)) (away : p.Away) :
    ∃ q, p.after (tries attempts) = some q ∧ if attempts.any opens then q = .reopened else q.Away := by
  induction attempts generalizing p with
  | nil => exact ⟨p, rfl, away⟩
  | cons attempt later ih =>
    have delayed : p.next .nextDelay = some .waiting := by
      rcases away with rfl | rfl <;> rfl
    have stepped (rest : List Act) : p.after (.nextDelay :: .reopen attempt.1 attempt.2 :: rest) =
        Phase.after (if ¬ attempt.1.isOk then .lost else if attempt.2 = .active then .reopened else .doubtful)
          rest := by
      rw [Phase.after, foldlM_cons, delayed]
      rfl
    rw [tries, stepped, any_cons]
    by_cases opened : opens attempt = true
    · obtain ⟨fine, active⟩ := of_decide_eq_true opened
      rw [if_neg (not_not.mpr fine), if_pos active, opened]
      exact ⟨.reopened, rfl, rfl⟩
    · rw [Bool.eq_false_iff.mpr opened]
      refine ih ?_
      split
      · exact .inl rfl
      · rename_i fine
        split
        · rename_i active
          exact absurd (decide_eq_true ⟨not_not.mp fine, active⟩) opened
        · exact .inr rfl

theorem filters_after (installed : ∀ a ∈ steps, ∃ filters, a = .applyFilter filters (.ok ())) :
    Phase.connected.after steps = some .connected := by
  induction steps with
  | nil => rfl
  | cons a rest ih =>
    obtain ⟨⟨_, rfl⟩, others⟩ := forall_mem_cons.mp installed
    exact ih others

theorem errorActs_after {env : IfaceSurroundings} {kind : CanErrorKind}
    (opened : kind = .busOff → env.reopen = .ok ()) :
    Phase.connected.after (errorActs env kind) = some .connected := by
  cases kind with
  | warning | passive | arbitrationLost | other => rfl
  | busOff =>
    rw [errorActs, opened rfl]
    cases env.reopened <;> rfl

end Phases

def IfaceTask.phase (t : IfaceTask) : Option Phase := Phase.connected.after t.trace

section Recovery

variable {iface : CanIface} {env : IfaceSurroundings} {t t' : IfaceTask} {envs : List IfaceSurroundings}

theorem phase_acts {p : Phase} (steps : List Act)
    (start : t.phase = some p) : (t.acts steps).phase = p.after steps := by
  show Phase.connected.after (t.trace ++ steps) = _
  rw [Phase.after_append, show Phase.connected.after t.trace = some p from start]
  rfl

def IfaceSurroundings.Loses (env : IfaceSurroundings) : Prop :=
  env.received = some (.ok (.error .busOff)) ∨ env.received = some (.error .closed)

def IfaceSurroundings.retries (env : IfaceSurroundings) : List Act :=
  match env.received with
  | some (.ok (.error .busOff)) => [.nextDelay, .reopen env.reopen env.reopened]
  | some (.error .closed) => tries env.attempts
  | _ => []

def IfaceSurroundings.Stops (env : IfaceSurroundings) : Prop :=
  env.received = some (.error .closed) ∧ env.attempts.any opens = false

/-- A loss is followed by Down, and by the attempts up to one that connects the task again or until it is stopped. -/
def Recovers (env : IfaceSurroundings) (steps : List Act) : Prop :=
  ∃ more, steps = .report .down :: (env.retries ++ more) ∧
    (Phase.lost.after (env.retries ++ more) = some .connected ∨ env.Stops ∧ more = [])

/-- What a turn does: it installs filters, and recovers if it has lost the connection. -/
def Answers (env : IfaceSurroundings) (steps : List Act) : Prop :=
  ∃ filters rest, steps = filters ++ rest ∧ (∀ a ∈ filters, ∃ filter, a = .applyFilter filter (.ok ())) ∧
    (env.Loses → Recovers env rest)

theorem not_loses {result : Option (Except CanIoError CanFrame)}
    (received : env.received = result)
    (other : result ≠ some (.ok (.error .busOff)) ∧ result ≠ some (.error .closed)) : ¬ env.Loses := by
  rintro (lost | lost)
  · exact other.1 (received.symm.trans lost)
  · exact other.2 (received.symm.trans lost)

theorem retries_closed (received : env.received = some (.error .closed)) : env.retries = tries env.attempts := by
  rw [IfaceSurroundings.retries, received]

theorem Received.answers {goesOn : Bool} (received : Received iface env t goesOn t') :
    ∃ steps, t'.trace = t.trace ++ steps ∧ (env.Loses → Recovers env steps) ∧
      ((goesOn = true ∧ Phase.connected.after steps = some .connected) ∨
        (goesOn = false ∧ env.Stops ∧ ∃ p, Phase.connected.after steps = some p ∧ p.Away)) := by
  cases received with
  | nothing quiet =>
    refine ⟨[], (append_nil _).symm, fun loses => absurd loses ?_, .inl ⟨rfl, rfl⟩⟩
    rcases quiet with received | ⟨_, _, received⟩
    · exact not_loses received (by simp)
    · exact not_loses received (by simp)
  | data received =>
    exact ⟨[], (append_nil _).symm, fun loses => absurd loses (not_loses received (by simp)), .inl ⟨rfl, rfl⟩⟩
  | @error kind received opened =>
    have connected := errorActs_after opened
    refine ⟨_, rfl, fun loses => ?_, .inl ⟨rfl, connected⟩⟩
    cases kind with
    | busOff =>
      have retried : env.retries = [.nextDelay, .reopen env.reopen env.reopened] := by
        rw [IfaceSurroundings.retries, received]
      refine ⟨[.report .connecting, .report .up], ?_, .inl ?_⟩ <;> rw [retried]
      · rfl
      · exact connected
    | warning | passive | arbitrationLost | other => exact absurd loses (not_loses received (by simp))
  | stopped received lost =>
    obtain ⟨p, after, away⟩ := tries_after env.attempts (.inl rfl)
    rw [lost] at away
    exact ⟨_, rfl, fun _ => ⟨[], by rw [retries_closed received, append_nil], .inr ⟨⟨received, lost⟩, rfl⟩⟩,
      .inr ⟨rfl, ⟨received, lost⟩, p, after, away⟩⟩
  | reconnected received opened =>
    obtain ⟨p, after, reopened⟩ := tries_after env.attempts (.inl rfl)
    rw [if_pos opened] at reopened
    cases reopened
    have retried := retries_closed received
    have connected (filters : List CanFilter) : Phase.lost.after (tries env.attempts ++
        [.applyFilter filters env.reapplied, .report .connecting, .report .up]) = some .connected := by
      rw [Phase.after_append, after]
      rfl
    exact ⟨_, rfl, fun _ => ⟨_, by rw [retried]; rfl, .inl (by rw [retried]; exact connected _)⟩,
      .inl ⟨rfl, connected _⟩⟩

def StoppedAway (envs : List IfaceSurroundings) (t : IfaceTask) : Prop :=
  (∃ env, envs.getLast? = some env ∧ env.Stops) ∧ ∃ p, t.phase = some p ∧ p.Away

theorem turns_recover
    (works : ∀ env ∈ envs, env.Works iface ∧ ¬ env.Stranded)
    (start : t.phase = some .connected) :
    ∃ t' reached turned, turns iface envs t = .ok () t' ∧ reached <+: envs ∧ t'.trace = t.trace ++ turned.flatten ∧
      Forall₂ Answers reached turned ∧ ((t'.phase = some .connected ∧ reached = envs) ∨ StoppedAway reached t') := by
  induction envs generalizing t with
  | nil => exact ⟨t, [], [], rfl, prefix_rfl, (append_nil _).symm, .nil, .inl ⟨start, rfl⟩⟩
  | cons env rest ih =>
    obtain ⟨⟨fine, kept⟩, others⟩ := forall_mem_cons.mp works
    obtain ⟨_, t', ended, m, jobs, _, ⟨_, _, filters, installs, installed⟩, _, received⟩ :=
      (dispatchOnce_spec fun _ => fine).returns rfl fun _ failed => kept (failed trivial).1
    obtain ⟨steps, acted, recovers, outcome⟩ := received.answers
    have trace : t'.trace = t.trace ++ (filters ++ steps) := by
      rw [acted, ← append_assoc, ← installs]
      rfl
    have answers : Answers env (filters ++ steps) := ⟨filters, steps, rfl, installed, recovers⟩
    have after : t'.phase = Phase.connected.after steps := by
      rw [IfaceTask.phase, trace, Phase.after_append, show Phase.connected.after t.trace = some .connected from start]
      show Phase.connected.after (filters ++ steps) = _
      rw [Phase.after_append, filters_after installed]
      rfl
    rw [turns, bind_of_ok ended]
    rcases outcome with ⟨rfl, connected⟩ | ⟨rfl, stops, p, away⟩
    · obtain ⟨t'', reached, turned, returned, among, acted', each, outcome⟩ := ih others (after.trans connected)
      refine ⟨t'', env :: reached, (filters ++ steps) :: turned, returned, (cons_prefix_cons).mpr ⟨rfl, among⟩, ?_,
        .cons answers each, ?_⟩
      · rw [acted', trace, flatten_cons, append_assoc]
      · refine outcome.imp ?_ ?_
        · rintro ⟨connected, rfl⟩
          exact ⟨connected, rfl⟩
        · rintro ⟨⟨last, ended, stops⟩, away⟩
          exact ⟨⟨last, by rw [getLast?_cons, ended]; rfl, stops⟩, away⟩
    · refine ⟨t', [env], [filters ++ steps], rfl, (cons_prefix_cons).mpr ⟨rfl, nil_prefix⟩, ?_, .cons answers .nil,
        .inr ?_⟩
      · rw [trace, flatten_singleton]
      · exact ⟨⟨env, rfl, stops⟩, p, after.trans away.1, away.2⟩

theorem bringUp_recover (iface : CanIface) (registry : ChannelRegistry) :
    ∃ t, bringUp iface registry (.ok ()) .new = .ok () t ∧ t.phase = some .connected := by
  have spec : Ensures (· = .new) (bringUp iface registry (.ok ())) _ _ := bringUp_spec
  obtain ⟨_, _, returned, m, ⟨_, _, filters, installs, installed⟩, rfl⟩ := spec.returns rfl fun _ failed => failed.1 rfl
  have connected : m.phase = some .connected := by
    rw [IfaceTask.phase, installs]
    exact filters_after installed
  exact ⟨_, returned, phase_acts _ connected⟩

/-- If the bus can always be reopened, the task goes on until it is stopped, answers every loss it receives with Down
and with attempts to reopen, and is down from the loss to the reopening. -/
theorem reopening_run_recovers (registry : ChannelRegistry)
    (works : ∀ env ∈ envs, env.Works iface)
    (reopens : ∀ env ∈ envs, env.received = some (.ok (.error .busOff)) → env.reopen = .ok ()) :
    ∃ t opening reached turned, dispatcherLoop iface registry (.ok ()) envs .new = .ok () t ∧ reached <+: envs ∧
      t.trace = opening ++ turned.flatten ∧ Forall₂ Answers reached turned ∧
      ((t.phase = some .connected ∧ reached = envs) ∨ StoppedAway reached t) ∧
      ∀ seen later, t.trace = seen ++ later → ∃ p, Phase.connected.after seen = some p ∧
        (p ≠ .connected → lastReport seen .connecting = .down) := by
  obtain ⟨t, up, connected⟩ := bringUp_recover iface registry
  have kept : ∀ env ∈ envs, env.Works iface ∧ ¬ env.Stranded := by
    intro env member
    refine ⟨works env member, ?_⟩
    rintro ⟨received, lost⟩
    exact lost (reopens env member received)
  obtain ⟨t', reached, turned, returned, among, acted, each, outcome⟩ := turns_recover kept connected
  refine ⟨t', t.trace, reached, turned, (bind_of_ok up).trans returned, among, acted, each, outcome, ?_⟩
  intro seen later trace
  have retried : ∃ q, t'.phase = some q := by
    rcases outcome with ⟨connected, _⟩ | ⟨_, p, away, _⟩
    · exact ⟨_, connected⟩
    · exact ⟨p, away⟩
  obtain ⟨q, retried⟩ := retried
  rw [IfaceTask.phase, trace, Phase.after_append] at retried
  obtain ⟨p, after, _⟩ := Option.bind_eq_some_iff.mp retried
  exact ⟨p, after, Phase.after_down (fun connected => absurd rfl connected) after⟩

end Recovery

def IfaceSurroundings.quiet (received : Option (Except CanIoError CanFrame)) (reopen : Except CanIoError Unit)
    (attempts : List (Except CanIoError Unit × CanIfaceState)) : IfaceSurroundings where
  registry := []
  applied := .ok ()
  send _ _ := .ok ()
  received := received
  reopen := reopen
  reopened := .active
  attempts := attempts
  reapplied := .ok ()

/-- A bus-off and a closed socket in one run: each is answered. -/
theorem both_losses_recover :
    let off := IfaceSurroundings.quiet (some (.ok (.error .busOff))) (.ok ()) []
    let lost := IfaceSurroundings.quiet (some (.error .closed)) (.ok ()) [(.error .closed, .closed), (.ok (), .active)]
    ∃ t opening turned, dispatcherLoop CanHealthMonitor.vcan0 [] (.ok ()) [off, lost] .new = .ok () t ∧
      t.trace = opening ++ turned.flatten ∧ Forall₂ Answers [off, lost] turned := by
  intro off lost
  have works : ∀ e ∈ [off, lost], e.Works CanHealthMonitor.vcan0 := by
    refine forall_mem_cons.mpr ⟨⟨rfl, forall_mem_nil _, fun _ _ => rfl, ?_, ?_⟩, forall_mem_singleton.mpr
      ⟨rfl, forall_mem_nil _, fun _ _ => rfl, ?_, ?_⟩⟩
    · rintro e ⟨⟩
    · rintro frame ⟨⟩
    · rintro e ⟨⟩
      rfl
    · rintro frame ⟨⟩
  have reopens : ∀ e ∈ [off, lost], e.received = some (.ok (.error .busOff)) → e.reopen = .ok () :=
    forall_mem_cons.mpr ⟨fun _ => rfl, forall_mem_singleton.mpr fun _ => rfl⟩
  obtain ⟨t, opening, reached, turned, returned, _, trace, each, outcome, _⟩ :=
    reopening_run_recovers [] works reopens
  rcases outcome with ⟨_, rfl⟩ | ⟨_, p, phase, away⟩
  · exact ⟨t, opening, turned, returned, trace, each⟩
  · -- the run ends connected
    cases returned
    cases phase
    rcases away with away | away <;> cases away

/-- One failed attempt to reopen the bus after it went off ends the task for good. -/
theorem bus_off_ends_dispatcher :
    let env := IfaceSurroundings.quiet (some (.ok (.error .busOff))) (.error (.io "device is down")) []
    let loop := dispatcherLoop CanHealthMonitor.vcan0 [] (.ok ()) [env]
    loop.run' .new = none ∧ (final loop .new).trace =
      [.report .up, .report .down, .nextDelay, .reopen (.error (.io "device is down")) .active] := by
  decide

end Taktora.Can
