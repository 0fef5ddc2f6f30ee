import Taktora.Executor.Registration

namespace Taktora.Exec

open Fallible List

namespace Executor

structure Atomic (e : Executor) (call : Register) : Prop where
  failed : ∀ error e', call.call e = .error error e' → e'.tasks = e.tasks ∧ e'.cycleStats = e.cycleStats
  added : ∀ id e', call.call e = .ok id e' → ∃ entry, e'.tasks = e.tasks ++ [entry] ∧
    e'.cycleStats = e.cycleStats ++ [⟨0⟩] ∧
    ∀ main handler, call = .addWithFaultHandler main handler → ∃ ctx, entry.handlerJob = some (.handler id handler ctx)

section Handlers

variable {e e' : Executor} {main handler : Item} {id : TaskId} {error : ExecutorError}

theorem addWithFaultHandler_of_handler_error (added : add main e = .ok id e')
    (failed : handler.declareTriggers = .error error) : addWithFaultHandler main handler e = .error error e' := by
  unfold addWithFaultHandler
  rw [bind_of_ok added, failed]
  rfl

theorem addWithFaultHandler_of_ok {declarer : TriggerDeclarer}
    (added : add main e = .ok id e')
    (declared : handler.declareTriggers = .ok declarer) :
    ∃ ctx : TaskEntry → FaultDispatchCtx, addWithFaultHandler main handler e =
      .ok id { e' with
        tasks := e'.tasks.modify (e'.tasks.findIdx (·.id == id)) fun task =>
          { task with handlerJob := some (.handler id handler (ctx task)) } } := by
  unfold addWithFaultHandler
  rw [bind_of_ok added, declared]
  exact ⟨_, rfl⟩

variable {f : TaskEntry → TaskEntry} {tasks : List TaskEntry}

theorem modify_last {entry : TaskEntry}
    (here : entry.id = id)
    (fresh : ∀ t ∈ tasks, t.id ≠ id) :
    (tasks ++ [entry]).modify ((tasks ++ [entry]).findIdx (·.id == id)) f = tasks ++ [f entry] := by
  have index : (tasks ++ [entry]).findIdx (·.id == id) = tasks.length := by
    rw [findIdx_append, findIdx_eq_length_of_false (by simpa using fresh)]
    simp [here]
  rw [index, modify_eq_take_drop, take_left', drop_left'] <;> rfl

theorem modify_earlier (entry : TaskEntry) (taken : ∃ t ∈ tasks, t.id = id) :
    ∃ tasks', (tasks ++ [entry]).modify ((tasks ++ [entry]).findIdx (·.id == id)) f = tasks' ++ [entry] := by
  obtain ⟨t, member, same⟩ := taken
  have below : tasks.findIdx (·.id == id) < tasks.length := findIdx_lt_length_of_exists ⟨t, member, by simpa using same⟩
  refine ⟨tasks.modify (tasks.findIdx (·.id == id)) f, ?_⟩
  rw [findIdx_append, if_pos below, modify_eq_take_drop, modify_eq_take_drop,
    take_append_of_le_length below.le, drop_append_of_le_length below.le, append_assoc]
  cases rest : tasks.drop (tasks.findIdx (·.id == id)) with
  | nil => exact absurd (drop_eq_nil_iff.mp rest) (Nat.not_le_of_lt below)
  | cons first more => rfl

end Handlers

end Executor

/-- A fault handler whose triggers fail after the main item was added, or that finds another task with its id. -/
def Register.Strands (e : Executor) : Register → Prop
  | .addWithFaultHandler main handler => ∃ id e', Executor.add main e = .ok id e' ∧
      ((∃ error, handler.declareTriggers = .error error) ∨ ∃ t ∈ e.tasks, t.id = id)
  | _ => False

namespace Executor

variable {e : Executor} {call : Register}

theorem atomic_of_plain (plain : ∀ main handler, call ≠ .addWithFaultHandler main handler) : e.Atomic call := by
  have ensures := register_ensures (e := e) plain
  constructor
  · intro error e' failed
    have kept := ensures.of_error rfl failed
    exact ⟨kept.tasks, kept.cycleStats⟩
  · intro id e' returned
    obtain ⟨entry, _, _, tasks, stats⟩ := (ensures.of_ok rfl returned).last
    exact ⟨entry, tasks, stats, fun main handler same => absurd same (plain main handler)⟩

variable {main handler : Item}

theorem atomic_of_handler (apart : ¬Register.Strands e (.addWithFaultHandler main handler)) :
    e.Atomic (.addWithFaultHandler main handler) := by
  cases outcome : add main e with
  | error error e₁ =>
    have kept := (add_ensures main).of_error rfl outcome
    have whole : addWithFaultHandler main handler e = _ := bind_of_error outcome
    constructor
    · intro error e' failed
      cases whole.symm.trans failed
      exact ⟨kept.tasks, kept.cycleStats⟩
    · intro id e' returned
      cases whole.symm.trans returned
  | ok id e₁ =>
    obtain ⟨_, here, _, tasks, stats⟩ := ((add_ensures main).of_ok rfl outcome).last
    cases declared : handler.declareTriggers with
    | error error => exact absurd ⟨id, e₁, outcome, .inl ⟨error, declared⟩⟩ apart
    | ok declarer =>
      obtain ⟨_, whole⟩ := addWithFaultHandler_of_ok outcome declared
      have fresh : ∀ t ∈ e.tasks, t.id ≠ id := fun t member same => apart ⟨id, e₁, outcome, .inr ⟨t, member, same⟩⟩
      rw [tasks, modify_last here fresh] at whole
      constructor
      · intro error e' failed
        cases whole.symm.trans failed
      · intro id' e' returned
        cases whole.symm.trans returned
        refine ⟨_, rfl, stats, ?_⟩
        intro main' handler' same
        cases same
        exact ⟨_, rfl⟩

theorem not_atomic_of_strands (strands : Register.Strands e (.addWithFaultHandler main handler)) :
    ¬e.Atomic (.addWithFaultHandler main handler) := by
  intro atomic
  obtain ⟨_, e₁, added, problem⟩ := strands
  obtain ⟨entry, _, unhandled, tasks, _⟩ := ((add_ensures main).of_ok rfl added).last
  cases declared : handler.declareTriggers with
  | error error =>
    have same := (atomic.failed error e₁ (addWithFaultHandler_of_handler_error added declared)).1
    have length := congrArg length (tasks.symm.trans same)
    rw [length_append] at length
    exact absurd length (Nat.succ_ne_self _)
  | ok declarer =>
    rcases problem with ⟨_, failed⟩ | taken
    · cases declared.symm.trans failed
    · obtain ⟨_, whole⟩ := addWithFaultHandler_of_ok added declared
      obtain ⟨_, appended, _, attached⟩ := atomic.added _ _ whole
      obtain ⟨_, handles⟩ := attached main handler rfl
      rw [tasks] at appended
      obtain ⟨_, moved⟩ := modify_earlier entry taken
      rw [moved] at appended
      have same := (append_inj' appended rfl).2
      cases same
      rw [unhandled] at handles
      cases handles

/-- Registering is atomic unless a fault handler is stranded. -/
theorem registration_atomic_iff (e : Executor) (call : Register) : e.Atomic call ↔ ¬call.Strands e := by
  cases call with
  | addWithFaultHandler main handler =>
    exact ⟨fun atomic strands => not_atomic_of_strands strands atomic, atomic_of_handler⟩
  | _ =>
    refine ⟨fun _ never => never, fun _ => atomic_of_plain ?_⟩
    intro main handler same
    cases same

end Executor

def namedItem (id : String) : Item :=
  { taskId := some id, declareTriggers := .ok ⟨[.interval 1000000], none⟩, integrityLevel := .qualityManaged,
    appId := none, appInstanceId := none }

def refusingItem : Item := { namedItem "handler" with declareTriggers := .error (.declareTriggers "no listener") }

def Executor.handlers (e : Executor) : List (TaskId × List (Option String)) :=
  e.tasks.map fun t => (t.id, t.handlerItems.map (·.taskId))

/-- The call fails and its main item stays in the table, and a handler joins an earlier task of the same id. -/
theorem stranded_handlers :
    (EStateM.run' (Register.call (.addWithFaultHandler (namedItem "scan") refusingItem))
      (.new none .grid none)).isNone = true ∧
      ((Executor.new none .grid none).register (.addWithFaultHandler (namedItem "scan") refusingItem)).handlers =
      [("scan", [])] ∧
      (((Executor.new none .grid none).register (.add (namedItem "scan"))).register
      (.addWithFaultHandler (namedItem "scan") (namedItem "handler"))).handlers = [("scan", [some "handler"]),
      ("scan", [])] := by
  decide +kernel

end Taktora.Exec
