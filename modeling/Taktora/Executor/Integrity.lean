import Taktora.Executor.Life

namespace Taktora.Exec

open Executor List Option

/-- An item that the executor may run: a task has it, as its own or as its handler, or a job in flight. -/
def Executor.Executes (e : Executor) (item : Item) : Prop :=
  (∃ t ∈ e.tasks, item ∈ t.mainItems ∨ item ∈ t.handlerItems) ∨ ∃ job ∈ e.inFlight, item ∈ job.items

namespace Executor

section Items

variable {e e' : Executor} {item : Item} {i : Nat} {t : TaskEntry} {job : TaskJob}

theorem mem_items_of_jobs
    (submitted : job ∈ t.jobs)
    (inside : item ∈ job.items) :
    item ∈ t.mainItems ∨ item ∈ t.handlerItems := by
  rcases mem_append.mp submitted with main | handler
  · left
    rw [TaskEntry.mainItems, mem_toList.mp main]
    exact mem_append_left _ inside
  · right
    rw [TaskEntry.handlerItems, mem_toList.mp handler]
    exact inside

theorem SameTasks.executes
    (same : SameTasks e e')
    (inFlight : ∀ job ∈ e'.inFlight, ∀ item ∈ job.items, e.Executes item)
    (executes : e'.Executes item) : e.Executes item := by
  rcases executes with ⟨t, member, inside⟩ | ⟨job, member, inside⟩
  · obtain ⟨i, found⟩ := mem_iff_getElem?.mp member
    obtain ⟨t₀, before, equal⟩ := same.task found
    have main : t.mainItems = t₀.mainItems := (congrArg TaskEntry.mainItems equal :)
    have handler : t.handlerItems = t₀.handlerItems := (congrArg TaskEntry.handlerItems equal :)
    rw [main, handler] at inside
    exact .inl ⟨t₀, mem_of_getElem? before, inside⟩
  · exact inFlight job member item inside

theorem SameCycles.executes (same : SameCycles e e') (executes : e'.Executes item) : e.Executes item := by
  refine same.sameTasks.executes (fun job member item inside => ?_) executes
  rw [same.inFlight] at member
  exact .inr ⟨job, member, inside⟩

theorem submissionOf_jobs {what : Submission}
    (handed : e.submissionOf t = some what)
    (own : what.job = some job) : job ∈ t.jobs := by
  unfold submissionOf at handed
  split at handed
  · cases handed
    cases own
  split at handed
  · obtain ⟨_, present, rfl⟩ := map_eq_some_iff.mp handed
    cases own
    exact mem_append_right _ (mem_toList.mpr present)
  · obtain ⟨_, present, rfl⟩ := map_eq_some_iff.mp handed
    cases own
    exact mem_append_left _ (mem_toList.mpr present)

theorem dispatched_executes {pre : Nat}
    (found : e.tasks[i]? = some t)
    (executes : (e.dispatched pre i t).Executes item) : e.Executes item := by
  refine (dispatched_sameTasks pre).executes (fun job member item inside => ?_) executes
  unfold dispatched at member
  cases handed : e.submissionOf t with
  | none =>
    rw [handed] at member
    exact .inr ⟨job, member, inside⟩
  | some what =>
    rw [handed] at member
    rcases mem_append.mp member with old | new
    · exact .inr ⟨job, old, inside⟩
    · exact .inl ⟨t, mem_of_getElem? found, mem_items_of_jobs (submissionOf_jobs handed (mem_toList.mp new)) inside⟩

theorem dispatchTask_executes {clock : DispatchClock} {graphError : Option ItemError}
    (executes : (e.dispatchTask clock graphError i).Executes item) : e.Executes item := by
  cases found : e.tasks[i]? with
  | none => rwa [dispatchTask_none found] at executes
  | some t =>
    by_cases fresh : t.pendingCycle = none
    · exact dispatched_executes found ((dispatchTask_fresh _ _ found fresh).executes executes)
    · rwa [dispatchTask_pending found fresh] at executes

theorem runJob_rest {x : Execution} {rest : TaskJob} (left : (e.runJob x job).2 = some rest)
    (inside : item ∈ rest.items) : item ∈ job.items := by
  unfold runJob at left
  split at left
  · cases left
  · cases left
  · cases left
  split at left
  · cases left
    exact mem_cons_of_mem _ inside
  · cases left

end Items

end Executor

section Life

variable {l l' : Loop} {a : Action} {item : Item}

theorem execute_executes {k : Nat} {x : Execution} {job : TaskJob} (found : l.exec.inFlight[k]? = some job)
    (executes : (l.execute k x job).exec.Executes item) : l.exec.Executes item := by
  have same := Loop.execute_same l k x job
  have tasks : l.exec.SameTasks (l.execute k x job).exec := ⟨same.sameTasks.tasks, same.mode, same.pin⟩
  refine tasks.executes (fun job' member item inside => ?_) executes
  rw [Loop.execute_inFlight] at member
  rcases mem_append.mp member with others | rest
  · exact .inr ⟨job', mem_of_mem_eraseIdx others, inside⟩
  · exact .inr ⟨job, mem_of_getElem? found, runJob_rest (mem_toList.mp rest) inside⟩

theorem Loop.Moves.executes
    (moves : l.Moves a l')
    (unregistered : ∀ call, a ≠ .register call)
    (executes : l'.exec.Executes item) : l.exec.Executes item := by
  have same := moves.sameTasks unregistered
  cases moves with
  | register => exact absurd rfl (unregistered _)
  | enter => exact same.executes (fun job member item inside => .inr ⟨job, member, inside⟩) executes
  | ignored | abandon => exact executes
  | fired => exact dispatchTask_executes executes
  | gridPass => rwa [gridPass_exec] at executes
  | @cyclic now due rest index clock graphError phase task =>
    have signalled : l.exec.SameTasks (l.exec.modifyTask index (·.signal due.skipped due.lateBy)) :=
      .modified (.refl _) fun _ => rfl
    exact signalled.executes (fun job member item inside => .inr ⟨job, member, inside⟩) (dispatchTask_executes executes)
  | executed found => exact execute_executes found executes
  | barrier =>
    refine same.executes (fun job member item inside => ?_) executes
    have inFlight := (barrierAndRecord_frame l.exec).inFlight
    exact .inr ⟨job, inFlight ▸ member, inside⟩
  | clearTask => exact clearTaskFault_same.executes executes
  | clearExecutor => exact clearExecutorFault_same.executes executes

theorem register_executes {e : Executor} {call : Register} (executes : (e.register call).Executes item) :
    e.Executes item ∨ (∀ level, e.integrityLevel = some level → item.integrityLevel = level) ∨
      ∃ main, call = .addWithFaultHandler main item := by
  have grown_executes : ∀ e₁, e.Grown e₁ → e₁.Executes item →
      e.Executes item ∨ ∀ level, e.integrityLevel = some level → item.integrityLevel = level := by
    intro e₁ grown executes
    rcases executes with ⟨t, member, inside⟩ | ⟨job, member, inside⟩
    · rcases grown.table with ⟨tasks, _⟩ | ⟨_, _, _, _, _, wellFormed, tasks, _⟩
      · rw [tasks] at member
        exact .inl (.inl ⟨t, member, inside⟩)
      · rw [tasks] at member
        rcases mem_append.mp member with old | new
        · exact .inl (.inl ⟨t, old, inside⟩)
        · cases mem_singleton.mp new
          rcases inside with main | handler
          · exact .inr fun level pin => wellFormed.integrity level pin item main
          · cases handler
    · rw [grown.inFlight] at member
      exact .inl (.inr ⟨job, member, inside⟩)
  obtain ⟨e₁, grown, same | ⟨main, _, called, k, _, _, attached⟩⟩ := register_table e call
  · rw [same] at executes
    exact (grown_executes e₁ grown executes).imp_right .inl
  · rw [attached] at executes
    rcases executes with ⟨t, member, inside⟩ | inFlight
    · obtain ⟨i, found⟩ := mem_iff_getElem?.mp member
      by_cases here : k = i
      · subst here
        obtain ⟨t₀, before, rfl⟩ := modifyTask_found found
        rcases inside with own | given
        · exact (grown_executes e₁ grown (.inl ⟨t₀, mem_of_getElem? before, .inl own⟩)).imp_right .inl
        · cases mem_singleton.mp given
          exact .inr (.inr ⟨main, called⟩)
      · rw [modifyTask_other here] at found
        exact (grown_executes e₁ grown (.inl ⟨t, mem_of_getElem? found, inside⟩)).imp_right .inl
    · exact (grown_executes e₁ grown (.inr inFlight)).imp_right .inl

end Life

def Loop.LeveledStep (level : IntegrityLevel) (l : Loop) (a : Action) (l' : Loop) : Prop :=
  l.Step a l' ∧ ∀ main handler, a = .register (.addWithFaultHandler main handler) → handler.integrityLevel = level

/-- A pinned executor executes only items of its level, provided that its fault handlers have the level too. -/
theorem executed_items_have_pinned_level {level : IntegrityLevel} {mode : DispatchMode} {budget : Option Nat}
    {history : List Action} {l : Loop}
    (run : Run (Loop.LeveledStep level) (Loop.new (.new (some level) mode budget)) history l) :
    ∀ item, l.exec.Executes item → item.integrityLevel = level := by
  have invariant : l.exec.integrityLevel = some level ∧ ∀ item, l.exec.Executes item → item.integrityLevel = level := by
    refine run.invariant (I := fun l => l.exec.integrityLevel = some level ∧
      ∀ item, l.exec.Executes item → item.integrityLevel = level) ⟨rfl, ?_⟩ ?_
    · intro item executes
      rcases executes with ⟨t, member, _⟩ | ⟨_, member, _⟩
      · cases member
      · cases member
    · intro s a s' held step
      obtain ⟨pinned, pure⟩ := held
      obtain ⟨step, handlers⟩ := step
      by_cases registers : ∃ call, a = .register call
      · obtain ⟨call, rfl⟩ := registers
        cases step.moves with
        | register stopped =>
          refine ⟨?_, ?_⟩
          · exact (register_settings s.exec call).1.trans pinned
          · intro item executes
            rcases register_executes executes with old | checked | ⟨main, called⟩
            · exact pure item old
            · exact checked level pinned
            · exact handlers main item (congrArg _ called)
      · have unregistered : ∀ call, a ≠ .register call := fun call same => registers ⟨call, same⟩
        refine ⟨(step.moves.sameTasks unregistered).pin.trans pinned, ?_⟩
        intro item executes
        exact pure item (step.moves.executes unregistered executes)
  exact invariant.2

def scanItem (level : IntegrityLevel) : Item := cyclicItem level (some 10)

def pinnedLoop : Loop := .new (.new (some .safetyCritical) .grid none)

def pinnedLoopWith (main handler : Item) : Loop :=
  { pinnedLoop with exec := pinnedLoop.exec.register (.addWithFaultHandler main handler) }

theorem scanItem_executed_at_its_level :
    (pinnedLoopWith (scanItem .safetyCritical) (scanItem .safetyCritical)).exec.tasks.map
        (fun t => (t.mainItems ++ t.handlerItems).length) = [2] ∧
      ∀ item, (pinnedLoopWith (scanItem .safetyCritical) (scanItem .safetyCritical)).exec.Executes item →
        item.integrityLevel = .safetyCritical := by
  have registered : pinnedLoop.LeveledStep .safetyCritical (.register (.addWithFaultHandler (scanItem .safetyCritical)
      (scanItem .safetyCritical))) (pinnedLoopWith (scanItem .safetyCritical) (scanItem .safetyCritical)) := by
    refine ⟨rfl, ?_⟩
    intro main handler same
    cases same
    rfl
  exact ⟨by decide +kernel, executed_items_have_pinned_level (.snoc .nil registered)⟩

def overrunThenHandler (main handler : Item) : List Action :=
  [.register (.addWithFaultHandler main handler), .enter 0, .gridPass true 1000, .cyclic 0 ⟨0, 0, 1000⟩ none,
    .executed 0 ⟨0, 20, 20, .ok .proceed⟩, .barrier true, .gridPass true 2000, .cyclic 0 ⟨0, 0, 2000⟩ none]

/-- A handler of the lower level is registered with a pinned executor, and then dispatched. -/
theorem handler_of_lower_level_dispatched : (Run.follow Loop.act pinnedLoop
      (overrunThenHandler (scanItem .safetyCritical) (scanItem .qualityManaged))).map
        (fun l => (l.exec.integrityLevel, l.exec.inFlight.flatMap fun job => job.items.map (·.integrityLevel))) =
      some (some .safetyCritical, [.qualityManaged]) := by
  decide +kernel

end Taktora.Exec
