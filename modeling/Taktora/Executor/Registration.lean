import Taktora.Executor.Frame

namespace Taktora.Exec

open Fallible

def TaskJob.items : TaskJob → List Item
  | .single _ item _ => [item]
  | .chain _ items _ => items
  | .handler _ item _ => [item]

def TaskKind.vertices : TaskKind → List Item
  | .graph g => g.itemsShared
  | _ => []

namespace TaskEntry

def mainItems (t : TaskEntry) : List Item := t.job.elim [] (·.items) ++ t.kind.vertices

def handlerItems (t : TaskEntry) : List Item := t.handlerJob.elim [] (·.items)

structure WellFormed (pin : Option IntegrityLevel) (t : TaskEntry) : Prop where
  triggers : ValidTriggers t.decls
  period : t.scanPeriod = scanPeriodFromDecls t.decls
  job : t.kind.isGraph = false → t.job.isSome = true
  integrity : ∀ level, pin = some level → ∀ item ∈ t.mainItems, item.integrityLevel = level

theorem WellFormed.congr {pin : Option IntegrityLevel} {t t' : TaskEntry} (wellFormed : t.WellFormed pin)
    (same : t'.registered = t.registered) : t'.WellFormed pin := by
  cases t'
  cases same
  exact { wellFormed with }

end TaskEntry

namespace Executor

structure Grown (e e' : Executor) : Prop where
  table : e'.tasks = e.tasks ∧ e'.cycleStats = e.cycleStats ∨ ∃ id kind decls job budget,
    (TaskEntry.fresh id kind decls job budget).WellFormed e.integrityLevel ∧
    e'.tasks = e.tasks ++ [.fresh id kind decls job budget] ∧ e'.cycleStats = e.cycleStats ++ [⟨0⟩]
  pin : e'.integrityLevel = e.integrityLevel
  mode : e'.dispatchMode = e.dispatchMode
  submitted : e'.submitted = e.submitted
  inFlight : e'.inFlight = e.inFlight
  observed : e'.observed = e.observed

structure Added (e : Executor) (id : TaskId) (e' : Executor) : Prop where
  grown : Grown e e'
  last : ∃ entry, entry.id = id ∧ entry.handlerJob = none ∧ e'.tasks = e.tasks ++ [entry] ∧
    e'.cycleStats = e.cycleStats ++ [⟨0⟩]

structure Kept (e e' : Executor) : Prop where
  grown : Grown e e'
  tasks : e'.tasks = e.tasks
  cycleStats : e'.cycleStats = e.cycleStats

section Adding

variable {e e' : Executor} {id : TaskId} {kind : TaskKind} {decls : List TriggerDecl} {job : Option TaskJob}
  {budget : Option Nat}

theorem Grown.refl (e : Executor) : Grown e e := ⟨.inl ⟨rfl, rfl⟩, rfl, rfl, rfl, rfl, rfl⟩

theorem Grown.of_id {n : Nat} (grown : Grown { e with nextId := n } e') : Grown e e' := { grown with }

theorem Kept.refl (e : Executor) : Kept e e := ⟨.refl e, rfl, rfl⟩

theorem Added.of_id {n : Nat} (added : Added { e with nextId := n } id e') : Added e id e' :=
  ⟨added.grown.of_id, added.last⟩

theorem Kept.of_id {n : Nat} (kept : Kept { e with nextId := n } e') : Kept e e' :=
  ⟨kept.grown.of_id, kept.tasks, kept.cycleStats⟩

theorem checkIntegrity_ensures (levels : List IntegrityLevel) : Ensures (· = e) (checkIntegrity levels)
      (fun _ e' => e' = e ∧ ∀ level, e.integrityLevel = some level → ∀ found ∈ levels, found = level) (· = e) := by
  refine ensures_get_bind fun s same => ?_
  cases same
  cases pinned : e.integrityLevel with
  | none => exact ensures_pure fun _ same => ⟨same, fun _ absurd => nomatch absurd⟩
  | some expected =>
    dsimp only
    cases differs : levels.find? (· ≠ expected) with
    | none =>
      refine ensures_pure fun _ same => ⟨same, ?_⟩
      intro level pin found member
      cases pin
      simpa using List.find?_eq_none.mp differs found member
    | some found => exact ensures_throw fun _ same => same

theorem pushTask_ensures (wellFormed : (TaskEntry.fresh id kind decls job budget).WellFormed e.integrityLevel) :
    Ensures (· = e) (pushTask (.fresh id kind decls job budget)) (fun _ e' => Added e id e') (Kept e) := by
  refine ensures_modify fun s same => ?_
  subst same
  refine ⟨⟨.inr ⟨id, kind, decls, job, budget, wellFormed, rfl, rfl⟩, rfl, rfl, rfl, rfl, rfl⟩, ?_⟩
  exact ⟨.fresh id kind decls job budget, rfl, rfl, rfl, rfl⟩

theorem checked_ensures {levels : List IntegrityLevel} {rest : Registration TaskId}
    (pushes : ValidTriggers decls →
      (∀ level, e.integrityLevel = some level → ∀ found ∈ levels, found = level) →
      Ensures (· = e) rest (Added e) (Kept e)) :
    Ensures (· = e) (do
        Fallible.ofExcept (validateDecls id decls)
        checkIntegrity levels
        rest)
      (Added e) (Kept e) := by
  refine ensures_bind (Q := fun _ e' => e' = e ∧ ValidTriggers decls) (ensures_ofExcept ?_ ?_) fun _ => ?_
  · exact fun _ valid s same => ⟨same, validTriggers_of_validateDecls valid⟩
  · exact fun _ _ s same => same ▸ .refl s
  refine ensures_of_and fun triggers => ?_
  refine ensures_bind ((checkIntegrity_ensures levels).failing fun s same => same ▸ .refl s) fun _ => ?_
  exact ensures_of_and fun pinned => pushes triggers pinned

theorem declared_ensures {item : Item} {rest : TriggerDeclarer → Registration TaskId}
    (continues : ∀ declarer, Ensures (· = e) (rest declarer) (Added e) (Kept e)) :
    Ensures (· = e) (do rest (← Fallible.ofExcept item.declareTriggers)) (Added e) (Kept e) := by
  refine ensures_bind (ensures_ofExcept ?_ ?_) continues
  · exact fun _ _ s same => same
  · exact fun _ _ s same => same ▸ .refl s

theorem addWithId_ensures (id : TaskId) (item : Item) : Ensures (· = e) (addWithId id item) (Added e) (Kept e) := by
  refine declared_ensures fun declarer => checked_ensures fun triggers pinned => ensures_get_bind fun s same => ?_
  cases same
  refine ensures_bind (pushTask_ensures ⟨triggers, rfl, fun _ => rfl, ?_⟩) fun _ => ensures_pure fun _ added => added
  intro level pin item' member
  cases List.mem_singleton.mp member
  exact pinned level pin _ List.mem_cons_self

theorem freshId_ensures : Ensures (· = e) freshId (fun _ e' => ∃ n, e' = { e with nextId := n }) (fun _ => False) := by
  intro s same
  cases same
  exact ⟨_, rfl⟩

theorem numbered_ensures {rest : Nat → Registration TaskId}
    (continues : ∀ n e, Ensures (· = e) (rest n) (Added e) (Kept e)) :
    Ensures (· = e) (do rest (← freshId)) (Added e) (Kept e) := by
  refine ensures_bind (freshId_ensures.failing fun _ never => never.elim) fun n => ?_
  rintro s ⟨_, rfl⟩
  exact ((continues n _).weaken (fun _ _ added => added.of_id) fun _ kept => kept.of_id) _ rfl

theorem add_ensures (item : Item) : Ensures (· = e) (add item) (Added e) (Kept e) :=
  numbered_ensures fun _ _ => addWithId_ensures _ item

theorem addChainWithIdBoxed_ensures (id : TaskId) (items : List Item) :
    Ensures (· = e) (addChainWithIdBoxed id items) (Added e) (Kept e) := by
  cases items with
  | nil => exact ensures_throw fun s same => same ▸ .refl s
  | cons head rest =>
    refine declared_ensures fun declarer => checked_ensures fun triggers pinned => ensures_get_bind fun s same => ?_
    cases same
    refine ensures_bind (pushTask_ensures ⟨triggers, rfl, fun _ => rfl, ?_⟩) fun _ => ensures_pure fun _ added => added
    intro level pin item member
    rw [TaskEntry.mainItems] at member
    have inside : item ∈ head :: rest := by simpa [TaskEntry.fresh, TaskJob.items, TaskKind.vertices] using member
    exact pinned level pin _ (List.mem_map_of_mem inside)

theorem graphId_ensures (rootTaskId : Option String) (customId : Option TaskId) :
    Ensures (· = e) (graphId rootTaskId customId) (fun _ e' => ∃ n, e' = { e with nextId := n }) (fun _ => False) := by
  unfold graphId
  split
  · exact ensures_pure fun s same => ⟨e.nextId, same⟩
  · exact ensures_pure fun s same => ⟨e.nextId, same⟩
  · exact ensures_bind freshId_ensures fun _ => ensures_pure fun _ numbered => numbered

theorem buildGraph_ensures (builder : GraphBuilder) (customId : Option TaskId) :
    Ensures (· = e) (buildGraph builder customId) (Added e) (Kept e) := by
  refine ensures_bind (Q := fun g e' => e' = e ∧ builder.finish = .ok g) (ensures_ofExcept ?_ ?_) fun g => ?_
  · exact fun _ finished s same => ⟨same, finished⟩
  · exact fun _ _ s same => same ▸ .refl s
  refine ensures_of_and fun finished => ?_
  obtain ⟨_, items, levels⟩ := finish_valid finished
  refine ensures_bind ((graphId_ensures _ _).failing fun _ never => never.elim) fun id => ?_
  rintro s ⟨_, rfl⟩
  refine ((checked_ensures fun triggers pinned => ?_).weaken (fun _ _ added => added.of_id) fun _ kept => kept.of_id) _
    rfl
  refine ensures_bind (pushTask_ensures ⟨triggers, rfl, fun single => Bool.noConfusion single, ?_⟩)
    fun _ => ensures_pure fun _ added => added
  intro level pin item member
  have inside : item ∈ g.itemsShared := by simpa [TaskEntry.mainItems, TaskEntry.fresh, TaskKind.vertices] using member
  rw [items] at inside
  exact pinned level pin _ (levels ▸ List.mem_map_of_mem inside)

def Attached (handler : Item) (e e' : Executor) : Prop :=
  ∃ k id, ∃ ctx : TaskEntry → FaultDispatchCtx, e' =
    e.modifyTask k fun t => { t with handlerJob := some (.handler id handler (ctx t)) }

theorem addWithFaultHandler_ensures (main handler : Item) : Ensures (· = e) (addWithFaultHandler main handler)
      (fun _ e' => ∃ e₁, Grown e e₁ ∧ (e' = e₁ ∨ Attached handler e₁ e'))
      (fun e' => ∃ e₁, Grown e e₁ ∧ (e' = e₁ ∨ Attached handler e₁ e')) := by
  have added : Ensures (· = e) (add main) (fun _ e' => Grown e e') (Grown e) :=
    (add_ensures main).weaken (fun _ _ added => added.grown) fun _ kept => kept.grown
  refine ensures_bind (added.failing fun e' grown => ⟨e', grown, .inl rfl⟩) fun id => ?_
  refine ensures_bind (Q := fun _ e' => Grown e e') (ensures_ofExcept ?_ ?_) fun _ => ?_
  · exact fun _ _ _ grown => grown
  · exact fun _ _ e' grown => ⟨e', grown, .inl rfl⟩
  refine ensures_get_bind fun s grown s' same => ?_
  exact ⟨s, grown, .inr ⟨_, _, _, rfl⟩⟩

theorem addChain_ensures (items : List Item) : Ensures (· = e) (addChain items) (Added e) (Kept e) :=
  numbered_ensures fun _ _ => addChainWithIdBoxed_ensures _ items

theorem register_ensures {call : Register} (plain : ∀ main handler, call ≠ .addWithFaultHandler main handler) :
    Ensures (· = e) call.call (Added e) (Kept e) := by
  cases call with
  | add item => exact add_ensures item
  | addWithId id item => exact addWithId_ensures id item
  | addChain items => exact addChain_ensures items
  | addChainWithId id items => exact addChainWithIdBoxed_ensures id items
  | buildGraph builder customId => exact buildGraph_ensures builder customId
  | addWithFaultHandler main handler => exact absurd rfl (plain main handler)

theorem register_table (e : Executor) (call : Register) : ∃ e₁, Grown e e₁ ∧ (e.register call = e₁ ∨
      ∃ main handler, call = .addWithFaultHandler main handler ∧ Attached handler e₁ (e.register call)) := by
  by_cases handled : ∃ main handler, call = .addWithFaultHandler main handler
  · obtain ⟨main, handler, rfl⟩ := handled
    obtain ⟨e₁, grown, same | attached⟩ := (addWithFaultHandler_ensures main handler).final rfl
    · exact ⟨e₁, grown, .inl same⟩
    · exact ⟨e₁, grown, .inr ⟨main, handler, rfl, attached⟩⟩
  · have ensures := register_ensures (e := e) fun main handler same => handled ⟨main, handler, same⟩
    have grown := (ensures.weaken (fun _ _ added => added.grown) fun _ kept => kept.grown).final rfl
    exact ⟨_, grown, .inl rfl⟩

theorem register_settings (e : Executor) (call : Register) :
    (e.register call).integrityLevel = e.integrityLevel ∧ (e.register call).dispatchMode = e.dispatchMode := by
  obtain ⟨_, grown, same | ⟨_, _, _, _, _, _, attached⟩⟩ := register_table e call
  · exact same ▸ ⟨grown.pin, grown.mode⟩
  · exact attached ▸ ⟨grown.pin, grown.mode⟩

end Adding

end Executor

end Taktora.Exec
