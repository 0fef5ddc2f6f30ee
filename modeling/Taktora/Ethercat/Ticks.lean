import Taktora.Ethercat.Runner
import Taktora.Lib.Run

namespace Taktora.Ethercat

open Fallible List

/-- A channel that has lost too many frames degrades the connector, once until it is up again. -/
def EthercatHealthMonitor.recordInboundDrop (m : EthercatHealthMonitor) (count threshold : Nat) :
    Option HealthEvent × EthercatHealthMonitor :=
  if count < threshold ∨ m.degradedDueToDrops = true then (none, m)
  else if m.current.kind ≠ .up then (none, { m with degradedDueToDrops := true })
  else
    match m.inner.tryTransitionTo (.degraded ("dropped " ++ toString count ++ " inbound frames")) with
    | (.error _, inner) => (none, { m with inner })
    | (.ok event, inner) => (some event, { inner, degradedDueToDrops := true })

inductive RunnerEvent where
  | tick (now : Nat) (cycle : Except ConnectorError UInt16) (recoveries : List (Except ConnectorError BringUp))
  | drop (count threshold : Nat)

structure Ticking where
  runner : CycleRunner
  reports : List CycleReport
  ended : Bool

namespace Ticking

def start (runner : CycleRunner) : Ticking := ⟨runner, [], false⟩

variable (t : Ticking)

def ticked : EStateM.Result Failure CycleRunner (Option CycleReport) → Ticking
  | .ok report runner => ⟨runner, t.reports ++ report.toList, false⟩
  | .error _ runner => ⟨runner, t.reports, true⟩

def act : RunnerEvent → Ticking
  | .tick now cycle recoveries => t.ticked (CycleRunner.tick now cycle recoveries t.runner)
  | .drop count threshold =>
    { t with runner := { t.runner with health := (t.runner.health.recordInboundDrop count threshold).2 } }

def Step (event : RunnerEvent) (t' : Ticking) : Prop := t.act event = t'

def OpenStep (event : RunnerEvent) (t' : Ticking) : Prop := t.ended = false ∧ t.Step event t'

structure Inv (t : Ticking) : Prop where
  index : t.runner.cycleIndex = t.reports.length
  reports : t.reports.map (·.cycleIndex) = List.range t.reports.length
  health : t.ended = false → t.runner.health.current.kind = .up ∨ t.runner.health.current.kind = .degraded

end Ticking

section Transitions

theorem transitionTo_reaches {m : EthercatHealthMonitor} {kind : ConnectorHealthKind} (target : ConnectorHealth)
    (here : m.current.kind = kind)
    (reach : isLegalTransition kind target.kind = true ∨ kind = target.kind) :
    (m.transitionTo target).2.current.kind = target.kind := by
  subst here
  unfold EthercatHealthMonitor.transitionTo HealthMonitor.tryTransitionTo EthercatHealthMonitor.current at *
  by_cases legal : isLegalTransition m.inner.current.kind target.kind = true
  · rw [if_pos legal]
  · rw [if_neg legal]
    exact reach.resolve_left legal

theorem recordInboundDrop_kind {m : EthercatHealthMonitor} (count threshold : Nat)
    (health : m.current.kind = .up ∨ m.current.kind = .degraded) :
    (m.recordInboundDrop count threshold).2.current.kind = .up ∨
      (m.recordInboundDrop count threshold).2.current.kind = .degraded := by
  unfold EthercatHealthMonitor.recordInboundDrop
  split
  · exact health
  split
  · exact health
  · rename_i up
    rw [not_not] at up
    have legal : isLegalTransition m.inner.current.kind
        (ConnectorHealth.degraded ("dropped " ++ toString count ++ " inbound frames")).kind = true := by
      rw [show m.inner.current.kind = .up from up]
      rfl
    rw [HealthMonitor.tryTransitionTo_legal legal]
    exact .inr rfl

open CycleRunner

theorem recoverPerPolicy_follows (recoveries : List (Except ConnectorError BringUp)) (index : Nat) :
    Ensures (fun r => r.health.current.kind = .degraded ∧ r.cycleIndex = index) (recoverPerPolicy recoveries)
      (fun _ r => r.health.current.kind = .up ∧ r.cycleIndex = index ∧
        ∃ bringUp, recoveries.findSome? Except.toOption = some bringUp ∧ r.expectedWkc = bringUp.expectedWkc)
      fun r => r.health.current.kind = .down ∧ r.cycleIndex = index := by
  induction recoveries with
  | nil => exact fun r start => ⟨transitionTo_down r.health _, start.2⟩
  | cons attempt later ih =>
    cases attempt with
    | ok bringUp =>
      intro r start
      refine ⟨?_, start.2, bringUp, rfl, rfl⟩
      have connecting := transitionTo_reaches .connecting start.1 (.inl rfl)
      exact transitionTo_reaches .up connecting (.inl rfl)
    | error e =>
      intro r start
      apply ih
      refine ⟨?_, start.2⟩
      have connecting := transitionTo_reaches .connecting start.1 (.inl rfl)
      exact transitionTo_reaches (.degraded _) connecting (.inl rfl)

theorem applyVerdict_follows (verdict : WkcVerdict) (index : Nat) {E : CycleRunner → Prop} :
    Ensures (fun r => (r.health.current.kind = .up ∨ r.health.current.kind = .degraded) ∧
      r.cycleIndex = index) (applyVerdict verdict) (fun _ r => r.health.current.kind =
      (if verdict = .matched then .up else .degraded) ∧ r.cycleIndex = index) E := by
  refine ensures_get_bind fun r start => ?_
  cases verdict with
  | matched =>
    dsimp only
    split
    · refine ensures_modify fun s same => ?_
      subst same
      refine ⟨?_, start.2⟩
      rcases start.1 with up | degraded
      · exact transitionTo_reaches .up up (.inr rfl)
      · exact transitionTo_reaches .up degraded (.inl rfl)
    · rename_i up
      rw [not_not] at up
      refine ensures_pure fun s same => ?_
      subst same
      rw [up]
      exact ⟨rfl, start.2⟩
  | mismatch observed expected =>
    refine ensures_modify fun s same => ?_
    subst same
    refine ⟨?_, start.2⟩
    rcases start.1 with up | degraded
    · exact transitionTo_reaches (.degraded _) up (.inl rfl)
    · exact transitionTo_reaches (.degraded _) degraded (.inr rfl)

def CycleRunner.Told (runner : CycleRunner) (now : Nat) (recoveries : List (Except ConnectorError BringUp))
    (r : CycleRunner) : Option CycleReport → Prop
  | some report => report.cycleIndex = runner.cycleIndex ∧ r.cycleIndex = runner.cycleIndex + 1 ∧
      r.health.current.kind = if report.verdict = .matched then .up else .degraded
  | none => r.cycleIndex = runner.cycleIndex ∧
      ((runner.scheduler.poll now).1 = .skip ∧ r.health = runner.health ∨
        r.health.current.kind = .up ∧
          ∃ bringUp, recoveries.findSome? Except.toOption = some bringUp ∧ r.expectedWkc = bringUp.expectedWkc)

theorem tick_told (now : Nat) (cycle : Except ConnectorError UInt16) (recoveries : List (Except ConnectorError BringUp))
    {runner : CycleRunner} (health : runner.health.current.kind = .up ∨ runner.health.current.kind = .degraded) :
    Ensures (· = runner) (tick now cycle recoveries) (fun result r => runner.Told now recoveries r result)
      fun r => r.health.current.kind = .down ∧ r.cycleIndex = runner.cycleIndex := by
  refine ensures_get_bind fun s same => ?_
  cases same
  rcases polled : runner.scheduler.poll now with ⟨decision, scheduler⟩
  refine ensures_bind (Q := fun _ r => r = ({ runner with scheduler } : CycleRunner)) (fun _ _ => rfl) fun _ => ?_
  cases decision with
  | skip =>
    refine ensures_pure fun s same => ?_
    subst same
    exact ⟨rfl, .inl ⟨by rw [polled], rfl⟩⟩
  | fire =>
    cases cycle with
    | ok workingCounter =>
      have start : ∀ r, r = { runner with scheduler } →
          (r.health.current.kind = .up ∨ r.health.current.kind = .degraded) ∧ r.cycleIndex = runner.cycleIndex := by
        intro r same
        subst same
        exact ⟨health, rfl⟩
      refine ensures_bind (fun r same => applyVerdict_follows (evaluateWkc runner.expectedWkc workingCounter) _ r
        (start r same)) fun _ => ?_
      refine ensures_bind (ensures_modify (R := fun r => r.cycleIndex = runner.cycleIndex + 1 ∧ r.health.current.kind =
        if evaluateWkc runner.expectedWkc workingCounter = .matched then .up else .degraded) ?_) fun _ => ?_
      · exact fun r told => ⟨congrArg (· + 1) told.2, told.1⟩
      · exact ensures_pure fun r told => ⟨rfl, told⟩
    | error e =>
      refine ensures_bind (Q := fun _ r => r.health.current.kind = .degraded ∧
        r.cycleIndex = runner.cycleIndex) ?_ fun _ => ?_
      · refine ensures_modify fun r same => ?_
        subst same
        rcases health with up | degraded
        · exact ⟨transitionTo_reaches (.degraded _) up (.inl rfl), rfl⟩
        · exact ⟨transitionTo_reaches (.degraded _) degraded (.inr rfl), rfl⟩
      · refine ensures_bind (recoverPerPolicy_follows recoveries _) fun _ => ?_
        exact ensures_pure fun r told => ⟨told.2.1, .inr ⟨told.1, told.2.2⟩⟩

end Transitions

section Runs

variable {t t' : Ticking} {event : RunnerEvent} {events : List RunnerEvent}

theorem Ticking.Inv.step (inv : t.Inv) (step : t.OpenStep event t') : t'.Inv := by
  obtain ⟨open_, stepped⟩ := step
  have health := inv.health open_
  subst stepped
  cases event with
  | drop count threshold =>
    exact ⟨inv.index, inv.reports, fun _ => recordInboundDrop_kind count threshold health⟩
  | tick now cycle recoveries =>
    have told := tick_told now cycle recoveries health
    show Inv (t.ticked (CycleRunner.tick now cycle recoveries t.runner))
    cases outcome : CycleRunner.tick now cycle recoveries t.runner with
    | error e r => exact ⟨(told.of_error rfl outcome).2.trans inv.index, inv.reports, nofun⟩
    | ok result r =>
      have tells := told.of_ok rfl outcome
      cases result with
      | none =>
        refine ⟨?_, ?_, fun _ => ?_⟩
        · rw [ticked, Option.toList, append_nil, ← inv.index]
          exact tells.1
        · rw [ticked, Option.toList, append_nil]
          exact inv.reports
        · rcases tells.2 with ⟨_, same⟩ | ⟨up, _⟩
          · exact same ▸ health
          · exact .inl up
      | some report =>
        obtain ⟨index, next, kind⟩ := tells
        refine ⟨?_, ?_, fun _ => ?_⟩
        · rw [ticked, length_append, ← inv.index]
          exact next
        · rw [ticked, Option.toList, map_append, inv.reports, length_append, map_singleton, index,
            inv.index, length_singleton, range_succ]
        · show r.health.current.kind = .up ∨ r.health.current.kind = .degraded
          rw [kind]
          split
          · exact .inl rfl
          · exact .inr rfl

/-- Until a tick has failed the health is that of the last report or recovery; that tick leaves it down. -/
theorem ticks_tell_health {bringUp : BringUp} {outputs : ProcessData} {cycleTime : Nat} {runner : CycleRunner}
    (built : CycleRunner.new (.ok bringUp) outputs cycleTime .new = .ok runner)
    (run : Run Ticking.OpenStep (.start runner) events t)
    (open_ : t.ended = false)
    (now : Nat) (cycle : Except ConnectorError UInt16) (recoveries : List (Except ConnectorError BringUp)) :
    t.reports.map (·.cycleIndex) = List.range t.reports.length ∧
      (∀ report r, CycleRunner.tick now cycle recoveries t.runner = .ok (some report) r →
      (r.health.current.kind = .up ↔ report.verdict = .matched) ∧
      (r.health.current.kind = .degraded ↔ ∃ observed expected, report.verdict = .mismatch observed expected) ∧
      report.cycleIndex = t.reports.length) ∧ (∀ r, CycleRunner.tick now cycle recoveries t.runner = .ok none r →
      (t.runner.scheduler.poll now).1 = .fire → r.health.current.kind = .up ∧
      ∃ bringUp, recoveries.findSome? Except.toOption = some bringUp ∧ r.expectedWkc = bringUp.expectedWkc) ∧
      ∀ e r, CycleRunner.tick now cycle recoveries t.runner = .error e r → r.health.current.kind = .down := by
  cases built
  have inv : t.Inv := run.invariant ⟨rfl, rfl, fun _ => .inl rfl⟩ fun _ _ _ inv step => inv.step step
  have told := tick_told now cycle recoveries (inv.health open_)
  refine ⟨inv.reports, ?_, ?_, ?_⟩
  · intro report r returned
    obtain ⟨index, _, kind⟩ := told.of_ok rfl returned
    rw [kind, index]
    cases report.verdict with
    | matched | mismatch => simp [inv.index]
  · intro r returned fired
    rcases (told.of_ok rfl returned).2 with ⟨skipped, _⟩ | recovered
    · rw [fired] at skipped
      cases skipped
    · exact recovered
  · intro e r failed
    exact (told.of_error rfl failed).1

end Runs

def freshRunner : CycleRunner :=
  { outputs := fun _ => none, scheduler := ⟨1, none⟩, health := ⟨⟨.up⟩, false⟩, expectedWkc := 2, cycleIndex := 0
    written := [], published := [] }

theorem freshRunner_built : CycleRunner.new (.ok ⟨2⟩) (fun _ => none) 1 .new = .ok freshRunner := rfl

def linkLost : ConnectorError := .stack "link lost"

def mismatchedTicking : Ticking := ((Ticking.start freshRunner).act (.tick 0 (.ok 1) [])).act (.drop 5 3)

theorem mismatched_runner_recovers : mismatchedTicking.runner.health.current.kind = .degraded ∧
      ∃ r, CycleRunner.tick 1 (.error linkLost) [.error linkLost, .ok ⟨3⟩] mismatchedTicking.runner = .ok none r ∧
        r.health.current.kind = .up ∧ r.expectedWkc = 3 := by
  have run : Run Ticking.OpenStep (.start freshRunner) [.tick 0 (.ok 1) [], .drop 5 3] mismatchedTicking :=
    .snoc (.snoc .nil ⟨rfl, rfl⟩) ⟨rfl, rfl⟩
  have told := (ticks_tell_health freshRunner_built run rfl 1 (.error linkLost) [.error linkLost, .ok ⟨3⟩]).2.2.1
  obtain ⟨up, bringUp, found, expected⟩ := told _ rfl rfl
  cases found
  exact ⟨rfl, _, rfl, up, expected⟩

/-- A tick after the one that failed reports a match, and the health stays down. -/
theorem exhausted_runner_stays_down :
    CycleRunner.new (.ok ⟨2⟩) (fun _ => none) 1 .new = .ok freshRunner ∧
      (((Ticking.start freshRunner).act (.tick 0 (.error linkLost) [])).act (.tick 1 (.ok 2) [])).reports =
      [⟨0, 2, .matched⟩] ∧
      (((Ticking.start freshRunner).act (.tick 0 (.error linkLost) [])).act
      (.tick 1 (.ok 2) [])).runner.health.current.kind = .down :=
  ⟨freshRunner_built, by decide +kernel, by decide +kernel⟩

end Taktora.Ethercat
