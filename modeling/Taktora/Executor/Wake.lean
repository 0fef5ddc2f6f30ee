import Taktora.Executor.Life

namespace Taktora.Exec

open Executor List Option TaskEntry

def Action.target : Action → Option Nat
  | .fired target _ _ => target
  | .cyclic index _ _ => some index
  | _ => none

def Action.beginsWake : Action → Bool
  | .enter _ => true
  | .barrier _ => true
  | _ => false

def Action.endsWake : Action → Bool
  | .barrier _ => true
  | .abandon => true
  | _ => false

def Loop.WakeStep (l : Loop) (a : Action) (l' : Loop) : Prop := l.Step a l' ∧ a.endsWake = false

def submissionsOf (i : Nat) (submitted : List (Nat × Submission)) : List Submission :=
  (submitted.filter (·.1 == i)).map (·.2)

namespace Executor

/-- What a dispatch does to the marks of the tasks and to the pool. Only the first one in a wake counts. -/
structure Dispatching (e : Executor) (i : Nat) (e' : Executor) : Prop where
  observations : ∀ j, observationsOf j e'.observed = observationsOf j e.observed
  others : ∀ j t', j ≠ i → e'.tasks[j]? = some t' → ∃ t, e.tasks[j]? = some t ∧ t'.pendingCycle = t.pendingCycle
  handed : ∀ j, j ≠ i → submissionsOf j e'.submitted = submissionsOf j e.submitted
  here : ∀ t', e'.tasks[i]? = some t' → ∃ t, e.tasks[i]? = some t ∧
    ((t.pendingCycle ≠ none ∧ t'.pendingCycle = t.pendingCycle ∧
        submissionsOf i e'.submitted = submissionsOf i e.submitted) ∨
      (t.pendingCycle = none ∧ (∃ pre, t'.pendingCycle = some ⟨pre, e.withholds t⟩) ∧
        submissionsOf i e'.submitted = submissionsOf i e.submitted ++ (e.submissionOf t).toList))

section Dispatching

variable {e e' : Executor} {i j : Nat} {t : TaskEntry} {clock : DispatchClock} {graphError : Option ItemError}

theorem submissionsOf_hand (e : Executor) (i j : Nat) (submission : Option Submission) :
    submissionsOf j (e.hand i submission).submitted =
      submissionsOf j e.submitted ++ (if i = j then submission.toList else []) := by
  cases submission with
  | none =>
    rw [toList_none, ite_self, append_nil]
    rfl
  | some what =>
    rw [hand, elim_some, submit, submissionsOf, filter_append, map_append, ← submissionsOf]
    by_cases same : i = j
    · simp [same]
    · simp [same]

theorem dispatched_dispatching {pre : Nat}
    (found : e.tasks[i]? = some t)
    (fresh : t.pendingCycle = none)
    (same : SameCycles (e.dispatched pre i t) e') : Dispatching e i e' := by
  have handed : ∀ j, submissionsOf j e'.submitted = submissionsOf j e.submitted ++
      (if i = j then (e.submissionOf t).toList else []) := by
    intro j
    rw [same.submitted, dispatched, submissionsOf_hand]
    rfl
  have marked : ∀ (j : Nat) (t' : TaskEntry), e'.tasks[j]? = some t' → ∃ t₁ : TaskEntry,
      (e.modifyTask i (·.mark ⟨pre, e.withholds t⟩)).tasks[j]? = some t₁ ∧ t'.pendingCycle = t₁.pendingCycle := by
    intro j t' there
    obtain ⟨t₁, before, equal⟩ := same.task there
    rw [dispatched, hand_tasks] at before
    exact ⟨t₁, before, (congrArg pendingCycle equal :)⟩
  refine ⟨?_, ?_, ?_, ?_⟩
  · intro j
    rw [same.observations, dispatched]
    cases e.submissionOf t <;> rfl
  · intro j t' other there
    obtain ⟨t₁, before, equal⟩ := marked j t' there
    rw [modifyTask_other (symm other)] at before
    exact ⟨t₁, before, equal⟩
  · intro j other
    rw [handed, if_neg (symm other), append_nil]
  · intro t' here
    obtain ⟨_, before, equal⟩ := marked i t' here
    rw [modifyTask_here found] at before
    cases before
    exact ⟨t, found, .inr ⟨fresh, ⟨pre, equal⟩, by rw [handed, if_pos rfl]⟩⟩

theorem dispatching_refl (dispatched : ∀ t, e.tasks[i]? = some t → t.pendingCycle ≠ none) : Dispatching e i e :=
  ⟨fun _ => rfl, fun _ t' _ there => ⟨t', there, rfl⟩, fun _ _ => rfl,
    fun t' here => ⟨t', here, .inl ⟨dispatched t' here, rfl, rfl⟩⟩⟩

theorem dispatchTask_dispatching (e : Executor) (clock : DispatchClock) (graphError : Option ItemError) (i : Nat) :
    Dispatching e i (e.dispatchTask clock graphError i) := by
  cases found : e.tasks[i]? with
  | none =>
    rw [dispatchTask_none found]
    exact dispatching_refl fun t here => nomatch found.symm.trans here
  | some t =>
    by_cases fresh : t.pendingCycle = none
    · exact dispatched_dispatching found fresh (dispatchTask_fresh _ _ found fresh)
    · rw [dispatchTask_pending found fresh]
      refine dispatching_refl fun t' here => ?_
      cases found.symm.trans here
      exact fresh

theorem dispatchCyclic_dispatching (e : Executor) (clock : DispatchClock) (graphError : Option ItemError)
    (i skipped lateBy : Nat) : Dispatching e i (e.dispatchCyclic clock graphError i skipped lateBy) := by
  have dispatching := dispatchTask_dispatching (e.modifyTask i (·.signal skipped lateBy)) clock graphError i
  refine ⟨dispatching.observations, ?_, dispatching.handed, ?_⟩
  · intro j t' other there
    obtain ⟨t₁, before, equal⟩ := dispatching.others j t' other there
    rw [modifyTask_other (symm other)] at before
    exact ⟨t₁, before, equal⟩
  · intro t' here
    obtain ⟨_, before, outcome⟩ := dispatching.here t' here
    obtain ⟨t, found, rfl⟩ := modifyTask_found before
    exact ⟨t, found, outcome⟩

end Dispatching

end Executor

structure FirstDispatch (start : Loop) (history : List Action) (i : Nat) (e : Executor) (t : TaskEntry) : Prop where
  first : ∃ before a after l, history = before ++ a :: after ∧ (∀ b ∈ before, b.target ≠ some i) ∧ a.target = some i ∧
    Run Loop.WakeStep start before l ∧ l.exec = e
  task : e.tasks[i]? = some t

/-- What a wake has done to a task so far: nothing, or what the first dispatch decided. -/
def Outcome (start : Loop) (history : List Action) (i : Nat) (pending : Option CyclePending)
    (handed : List Submission) : Prop :=
  (pending = none ∧ handed = [] ∧ ∀ a ∈ history, a.target ≠ some i) ∨
    ∃ e t pre, FirstDispatch start history i e t ∧ pending = some ⟨pre, e.withholds t⟩ ∧
      handed = (e.submissionOf t).toList

structure InWake (start : Loop) (history : List Action) (l : Loop) : Prop where
  running : l.phase ≠ .stopped
  tasks : start.exec.SameTasks l.exec
  observations : ∀ i, observationsOf i l.exec.observed = observationsOf i start.exec.observed
  outcome : ∀ i t, l.exec.tasks[i]? = some t → ∃ handed,
    submissionsOf i l.exec.submitted = submissionsOf i start.exec.submitted ++ handed ∧
    Outcome start history i t.pendingCycle handed

section Wake

variable {start l l' : Loop} {history : List Action} {a : Action} {i : Nat} {pending : Option CyclePending}
  {handed : List Submission} {e : Executor} {t : TaskEntry}

theorem FirstDispatch.append (first : FirstDispatch start history i e t) (a : Action) :
    FirstDispatch start (history ++ [a]) i e t := by
  obtain ⟨⟨before, b, after, l, split, rest⟩, task⟩ := first
  refine ⟨⟨before, b, after ++ [a], l, ?_, rest⟩, task⟩
  rw [split, append_assoc, cons_append]

theorem Outcome.other (outcome : Outcome start history i pending handed) (other : a.target ≠ some i) :
    Outcome start (history ++ [a]) i pending handed := by
  rcases outcome with ⟨quiet, nothing, before⟩ | ⟨e, t, pre, first, rest⟩
  · refine .inl ⟨quiet, nothing, ?_⟩
    intro b member
    rcases mem_append.mp member with old | new
    · exact before b old
    · cases mem_singleton.mp new
      exact other
  · exact .inr ⟨e, t, pre, first.append a, rest⟩

theorem Outcome.again (outcome : Outcome start history i pending handed) (dispatched : pending ≠ none) (a : Action) :
    Outcome start (history ++ [a]) i pending handed := by
  rcases outcome with ⟨quiet, _⟩ | ⟨e, t, pre, first, rest⟩
  · exact absurd quiet dispatched
  · exact .inr ⟨e, t, pre, first.append a, rest⟩

theorem Outcome.first (outcome : Outcome start history i none handed)
    (run : Run Loop.WakeStep start history l)
    (dispatches : a.target = some i)
    (found : l.exec.tasks[i]? = some t)
    (pre : Nat) :
    Outcome start (history ++ [a]) i (some ⟨pre, l.exec.withholds t⟩) (handed ++ (l.exec.submissionOf t).toList) := by
  rcases outcome with ⟨_, rfl, before⟩ | ⟨_, _, _, _, absent, _⟩
  · exact .inr ⟨l.exec, t, pre, ⟨⟨history, a, [], l, rfl, before, dispatches, run, rfl⟩, found⟩, rfl, rfl⟩
  · cases absent

section

variable (inWake : InWake start history l)
include inWake

theorem InWake.quiet
    (none : a.target = none)
    (running : l'.phase ≠ .stopped)
    (same : l.exec.SameTasks l'.exec)
    (marks : ∀ (i : Nat) (t' : TaskEntry), l'.exec.tasks[i]? = some t' → ∃ t : TaskEntry, l.exec.tasks[i]? = some t ∧
      t'.pendingCycle = t.pendingCycle)
    (submitted : l'.exec.submitted = l.exec.submitted)
    (observations : ∀ i, observationsOf i l'.exec.observed = observationsOf i l.exec.observed) :
    InWake start (history ++ [a]) l' := by
  refine ⟨running, inWake.tasks.trans same, fun i => (observations i).trans (inWake.observations i), ?_⟩
  intro i t' found
  obtain ⟨t, before, equal⟩ := marks i t' found
  obtain ⟨handed, sum, outcome⟩ := inWake.outcome i t before
  refine ⟨handed, submitted ▸ sum, ?_⟩
  rw [equal]
  exact outcome.other (by rw [none]; exact nofun)

theorem InWake.sameCycles
    (none : a.target = none)
    (running : l'.phase ≠ .stopped)
    (same : l.exec.SameCycles l'.exec) : InWake start (history ++ [a]) l' := by
  refine inWake.quiet none running same.sameTasks ?_ same.submitted same.observations
  intro i t' found
  obtain ⟨t, before, equal⟩ := same.task found
  exact ⟨t, before, (congrArg pendingCycle equal :)⟩

theorem InWake.dispatching
    (run : Run Loop.WakeStep start history l)
    (dispatches : a.target = some i)
    (running : l'.phase ≠ .stopped)
    (same : l.exec.SameTasks l'.exec)
    (dispatching : l.exec.Dispatching i l'.exec) : InWake start (history ++ [a]) l' := by
  refine ⟨running, inWake.tasks.trans same, fun i => (dispatching.observations i).trans (inWake.observations i), ?_⟩
  intro j t' found
  by_cases here : j = i
  · subst here
    obtain ⟨t, before, again | ⟨fresh, ⟨pre, marked⟩, submitted⟩⟩ := dispatching.here t' found
    · obtain ⟨handed, sum, outcome⟩ := inWake.outcome j t before
      exact ⟨handed, again.2.2 ▸ sum, again.2.1 ▸ outcome.again again.1 a⟩
    · obtain ⟨_, sum, outcome⟩ := inWake.outcome j t before
      rw [fresh] at outcome
      refine ⟨_, ?_, marked ▸ outcome.first run dispatches before pre⟩
      rw [submitted, sum, append_assoc]
  · obtain ⟨t, before, equal⟩ := dispatching.others j t' here found
    obtain ⟨handed, sum, outcome⟩ := inWake.outcome j t before
    refine ⟨handed, (dispatching.handed j here) ▸ sum, equal ▸ outcome.other ?_⟩
    rw [dispatches]
    exact fun same => here (some.inj same).symm

end

theorem observations_in_wake
    (moves : l.Moves a l')
    (running : l.phase ≠ .stopped)
    (inside : a.endsWake = false)
    (i : Nat) :
    observationsOf i l'.exec.observed = observationsOf i l.exec.observed := by
  cases moves with
  | register stopped | enter stopped => exact absurd stopped running
  | ignored => rfl
  | fired => exact (dispatchTask_dispatching _ _ _ _).observations i
  | gridPass => rw [Loop.gridPass_exec]
  | cyclic => exact (dispatchCyclic_dispatching _ _ _ _ _ _).observations i
  | executed => exact (Loop.execute_same l _ _ _).observations i
  | barrier | abandon => cases inside
  | clearTask => exact clearTaskFault_same.observations i
  | clearExecutor => exact clearExecutorFault_same.observations i

theorem InWake.step
    (inWake : InWake start history l)
    (run : Run Loop.WakeStep start history l)
    (step : l.WakeStep a l') : InWake start (history ++ [a]) l' := by
  obtain ⟨step, inside⟩ := step
  have moves := step.moves
  cases moves with
  | register stopped | enter stopped => exact absurd stopped inWake.running
  | ignored waiting => exact inWake.sameCycles rfl inWake.running (.refl _)
  | fired waiting attached =>
    exact inWake.dispatching run rfl inWake.running (dispatchTask_sameTasks _ _ _ _) (dispatchTask_dispatching _ _ _ _)
  | @gridPass consulted now waiting =>
    have exec := Loop.gridPass_exec l consulted now
    refine inWake.sameCycles rfl ?_ (exec ▸ .refl _)
    unfold Loop.gridPass
    split <;> exact nofun
  | @cyclic now due rest index clock graphError phase task =>
    have same := step.moves.sameTasks (fun _ => nofun)
    exact inWake.dispatching run rfl nofun same (dispatchCyclic_dispatching _ _ _ _ _ _)
  | @executed k x job found =>
    have same := Loop.execute_same l k x job
    refine inWake.quiet rfl inWake.running (step.moves.sameTasks fun _ => nofun) ?_ same.submitted same.observations
    intro i t' found
    obtain ⟨t, before, equal⟩ := same.task found
    exact ⟨t, before, (congrArg pendingCycle equal :)⟩
  | barrier | abandon => cases inside
  | clearTask => exact inWake.sameCycles rfl inWake.running clearTaskFault_same
  | clearExecutor => exact inWake.sameCycles rfl inWake.running clearExecutorFault_same

variable {more : Bool}

theorem barrier_task {t' : TaskEntry}
    (sound : l.exec.Sound)
    (found : (l.barrier more).exec.tasks[i]? = some t') :
    ∃ t stats, l.exec.tasks[i]? = some t ∧ t' = t.folded ∧
      observationsOf i (l.barrier more).exec.observed = observationsOf i l.exec.observed ++ t.cycleRecord stats i := by
  have inside := (List.getElem?_eq_some_iff.mp found).1
  have length := (barrierAndRecord_frame l.exec).tasks.length
  have before := getElem?_eq_getElem (lt_of_lt_of_eq inside length)
  obtain ⟨stats, counted⟩ := sound.counter before
  have records := barrierAndRecord_records before counted
  exact ⟨_, stats, before, some.inj (found.symm.trans records.task), records.observations⟩

theorem barrier_unmarked (sound : l.exec.Sound) : ∀ t ∈ (l.barrier more).exec.tasks, t.pendingCycle = none := by
  intro t' member
  obtain ⟨i, found⟩ := mem_iff_getElem?.mp member
  obtain ⟨t, _, _, rfl, _⟩ := barrier_task sound found
  exact t.folded_pendingCycle

theorem inWake_begin
    (sound : l.exec.Sound)
    (step : l.Step a l')
    (begins : a.beginsWake = true)
    (waiting : l'.phase = .waiting) : InWake l' [] l' := by
  have unmarked : ∀ t ∈ l'.exec.tasks, t.pendingCycle = none := by
    have moves := step.moves
    cases moves with
    | enter =>
      intro t member
      obtain ⟨_, _, rfl⟩ := mem_map.mp member
      rfl
    | barrier => exact barrier_unmarked sound
    | _ => cases begins
  refine ⟨by rw [waiting]; exact nofun, .refl _, fun _ => rfl, ?_⟩
  intro i t found
  refine ⟨[], (append_nil _).symm, .inl ⟨unmarked t (mem_of_getElem? found), rfl, ?_⟩⟩
  exact fun a absent => (not_mem_nil absent).elim

theorem InWake.run
    (begun : InWake start [] start)
    (run : Run Loop.WakeStep start history l) : InWake start history l := by
  induction run with
  | nil => exact begun
  | snoc before last ih => exact ih.step before last

theorem wake_sound (sound : start.exec.Sound) (wake : Run Loop.WakeStep start history l) : l.exec.Sound :=
  Loop.run_sound sound (wake.mono fun _ _ _ step => step.1)

end Wake

def Submission.isHandler : Submission → Bool
  | .handler _ => true
  | _ => false

/-- What the first dispatch of a task in a wake has handed to the pool. -/
inductive Handed (e : Executor) (t : TaskEntry) : List Submission → Prop where
  | graph (graph : t.kind.isGraph = true) : Handed e t [.graph]
  | main {job} (single : t.kind.isGraph = false) (executor : e.isFaulted = false) (task : t.state.isFaulted = false)
      (own : t.job = some job) : Handed e t [.main job]
  | handler {job} (single : t.kind.isGraph = false) (faulted : e.isFaulted = true ∨ t.state.isFaulted = true)
      (own : t.handlerJob = some job) : Handed e t [.handler job]
  | nothing (single : t.kind.isGraph = false) (faulted : e.isFaulted = true ∨ t.state.isFaulted = true)
      (handler : t.handlerJob = none) : Handed e t []

variable {e : Executor} {t : TaskEntry} {l : Loop} {history : List Action}

theorem handed_of_submissionOf (wellFormed : t.WellFormed e.integrityLevel) :
    Handed e t (e.submissionOf t).toList ∧
      (e.withholds t = true ↔ ∀ what ∈ (e.submissionOf t).toList, what.isHandler = true) := by
  unfold submissionOf withholds
  cases kind : t.kind.isGraph with
  | true => exact ⟨.graph kind, by simp [Submission.isHandler]⟩
  | false =>
    rw [if_neg Bool.false_ne_true, Bool.not_false, Bool.true_and]
    cases faulted : e.isFaulted || t.state.isFaulted with
    | false =>
      obtain ⟨executor, task⟩ := Bool.or_eq_false_iff.mp faulted
      obtain ⟨job, own⟩ := isSome_iff_exists.mp (wellFormed.job kind)
      rw [own]
      exact ⟨.main kind executor task own, by simp [Submission.isHandler]⟩
    | true =>
      have faulted := Bool.or_eq_true_iff.mp faulted
      cases own : t.handlerJob with
      | some job => exact ⟨.handler kind faulted own, by simp [Submission.isHandler]⟩
      | none => exact ⟨.nothing kind faulted own, by simp⟩

theorem Handed.once {handed : List Submission} (outcome : Handed e t handed) : handed.length ≤ 1 := by
  cases outcome with
  | nothing => exact Nat.zero_le 1
  | _ => exact le_refl 1

theorem InWake.handed {start : Loop} {i : Nat}
    (begun : InWake start [] start)
    (sound : start.exec.Sound)
    (wake : Run Loop.WakeStep start history l)
    (found : l.exec.tasks[i]? = some t) :
    ∃ handed, submissionsOf i l.exec.submitted = submissionsOf i start.exec.submitted ++ handed ∧
      (((∀ a ∈ history, a.target ≠ some i) ∧ handed = [] ∧ t.pendingCycle = none) ∨
      ∃ e u pending, FirstDispatch start history i e u ∧ u.registered = t.registered ∧ Handed e u handed ∧
      t.pendingCycle = some pending ∧ (pending.faulted = true ↔ ∀ what ∈ handed, what.isHandler = true)) := by
  have inWake := begun.run wake
  obtain ⟨handed, sum, outcome⟩ := inWake.outcome i t found
  refine ⟨handed, sum, ?_⟩
  rcases outcome with ⟨quiet, nothing, untouched⟩ | ⟨e, u, _, first, marked, rfl⟩
  · exact .inl ⟨untouched, nothing, quiet⟩
  · obtain ⟨⟨_, a, _, m, _, _, _, run, rfl⟩, task⟩ := id first
    obtain ⟨_, origin, sameT⟩ := inWake.tasks.task found
    obtain ⟨_, origin', sameU⟩ := (begun.run run).tasks.task task
    cases origin.symm.trans origin'
    obtain ⟨handedOver, faulted⟩ := handed_of_submissionOf ((wake_sound sound run).wellFormed task)
    exact .inr ⟨m.exec, u, _, first, sameU.trans sameT.symm, handedOver, marked, faulted⟩

/-- In a wake every task runs its job or its handler at most once, and every cyclic task that did has one more cycle. -/
theorem wake_accounts_for_tasks {pin : Option IntegrityLevel} {mode : DispatchMode} {budget : Option Nat}
    {before history : List Action} {first : Action} {start l l' : Loop} {more : Bool}
    (life : Run Loop.Step (Loop.new (.new pin mode budget)) (before ++ [first]) start)
    (begins : first.beginsWake = true)
    (waiting : start.phase = .waiting)
    (wake : Run Loop.WakeStep start history l)
    (ended : l.Step (.barrier more) l') :
    (∀ t ∈ l'.exec.tasks, t.pendingCycle = none) ∧
      ∀ i t', l'.exec.tasks[i]? = some t' → ∃ handed,
        submissionsOf i l'.exec.submitted = submissionsOf i start.exec.submitted ++ handed ∧ handed.length ≤ 1 ∧
        (observationsOf i l'.exec.observed).map (·.cycleIndex) = List.range (observationsOf i l'.exec.observed).length ∧
        (((∀ a ∈ history, a.target ≠ some i) ∧ handed = [] ∧
            observationsOf i l'.exec.observed = observationsOf i start.exec.observed) ∨
          ∃ e t, FirstDispatch start history i e t ∧ t.registered = t'.registered ∧ Handed e t handed ∧
            (t'.scanPeriod = none → observationsOf i l'.exec.observed = observationsOf i start.exec.observed) ∧
            (∀ period, t'.scanPeriod = some period → ∃ o,
              observationsOf i l'.exec.observed = observationsOf i start.exec.observed ++ [o] ∧
                (o.faulted = true ↔ ∀ what ∈ handed, what.isHandler = true))) := by
  obtain ⟨_, earlier, firstStep⟩ := life.last_step rfl
  have begun := inWake_begin (Loop.run_sound (.new pin mode budget) earlier) firstStep begins waiting
  have startSound : start.exec.Sound := Loop.run_sound (.new pin mode budget) life
  have sound : l.exec.Sound := wake_sound startSound wake
  have sound' : l'.exec.Sound := ended.moves.sound sound
  cases ended.moves with
  | barrier phase idle =>
    refine ⟨barrier_unmarked sound, ?_⟩
    intro i t' found
    obtain ⟨t, _, before, rfl, observed⟩ := barrier_task sound found
    obtain ⟨handed, sum, outcome⟩ := InWake.handed begun startSound wake before
    have submitted := (barrierAndRecord_frame l.exec).submitted
    have known := (begun.run wake).observations i
    refine ⟨handed, (congrArg (submissionsOf i) submitted).trans sum, ?_, sound'.indices found, ?_⟩
    · rcases outcome with ⟨_, rfl, _⟩ | ⟨_, _, _, _, _, handedOver, _⟩
      · exact Nat.zero_le 1
      · exact handedOver.once
    rw [observed, known]
    rcases outcome with ⟨untouched, nothing, quiet⟩ | ⟨e, u, _, first, same, handedOver, marked, faulted⟩
    · refine .inl ⟨untouched, nothing, ?_⟩
      rw [cycleRecord, quiet, append_nil]
    · have periods : t.folded.scanPeriod = t.scanPeriod := (congrArg scanPeriod t.folded_registered :)
      refine .inr ⟨e, u, first, same.trans t.folded_registered.symm, handedOver, ?_, ?_⟩
      · intro event
        rw [cycleRecord, marked, periods.symm.trans event, append_nil]
      · intro period cyclic
        rw [cycleRecord, marked, periods.symm.trans cyclic]
        exact ⟨_, rfl, faulted⟩

def enteredLoop : Option Loop :=
  Run.follow Loop.act (.new (.new none .grid none))
    ([.register (.add (cyclicItem .qualityManaged none))] ++ [.enter 0])

def firstWake (start : Loop) : Option Loop :=
  Run.follow (fun l a => if a.endsWake = false then l.act a else none) start
    [.gridPass true 1500, .cyclic 0 ⟨0, 0, 1500⟩ none, .executed 0 ⟨0, 5, 5, .ok .proceed⟩]

theorem first_wake_accounted :
    ∃ start l l', enteredLoop = some start ∧ firstWake start = some l ∧ l.Step (.barrier true) l' ∧
      (observationsOf 0 l'.exec.observed).map (fun o => (o.cycleIndex, o.faulted, o.latenessNs)) =
      [(0, false, some 500)] ∧ ∀ t ∈ l'.exec.tasks, t.pendingCycle = none := by
  have reached : (enteredLoop.bind fun start => (firstWake start).bind fun l => l.act (.barrier true)).map
      (fun l' => (observationsOf 0 l'.exec.observed).map fun o => (o.cycleIndex, o.faulted, o.latenessNs)) =
      some [(0, false, some 500)] := by
    decide +kernel
  have waiting : enteredLoop.map (·.phase) = some .waiting := by decide +kernel
  obtain ⟨l', taken, observed⟩ := map_eq_some_iff.mp reached
  obtain ⟨start, entered, taken⟩ := bind_eq_some_iff.mp taken
  obtain ⟨l, woken, ended⟩ := bind_eq_some_iff.mp taken
  rw [entered] at waiting
  have wake : Run Loop.WakeStep start _ l := (Run.of_follow woken).mono fun _ _ _ step =>
    (ite_none_right_eq_some.mp step).symm
  have accounts := wake_accounts_for_tasks (Run.of_follow entered) rfl (Option.some.inj waiting) wake ended
  exact ⟨start, l, l', entered, woken, ended, observed, accounts.1⟩

end Taktora.Exec
