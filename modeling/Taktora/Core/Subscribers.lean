import Mathlib.Order.Basic
import Taktora.Core.Health
import Taktora.Lib.Run

namespace Taktora

open List Option

inductive FanOut where
  | ethercat
  | zenoh
  | mqtt
  | ui
deriving DecidableEq

inductive Latch where
  | drops
  | backpressure
deriving DecidableEq

inductive HealthCall where
  | transitionTo (target : ConnectorHealth)
  | applyTarget (target : ConnectorHealth)
  | applyObservation (target : ConnectorHealth)
  | recordInboundDrop (count threshold : UInt64)
  | recordOutboundBackpressure
  | degrade (reason : String)
  | transitionUp
deriving DecidableEq

namespace HealthCall

def offered : FanOut → HealthCall → Bool
  | .ethercat, .transitionTo _ | .ethercat, .recordInboundDrop .. => true
  | .zenoh, .transitionTo _ | .zenoh, .recordInboundDrop .. | .zenoh, .applyObservation _ => true
  | .mqtt, .transitionTo _ | .mqtt, .recordInboundDrop .. | .mqtt, .applyTarget _ | .mqtt,
    .recordOutboundBackpressure => true
  | .ui, .degrade _ | .ui, .transitionUp => true
  | _, _ => false

def skips : HealthCall → Bool
  | recordInboundDrop count threshold => count < threshold
  | _ => false

def latch : HealthCall → Option Latch
  | recordInboundDrop .. => some .drops
  | recordOutboundBackpressure => some .backpressure
  | _ => none

/-- The transitions that a section makes, and the event of the last one, which is the one that it broadcasts. -/
def bridged (m : HealthMonitor) (bridge : Option ConnectorHealth) (target : ConnectorHealth) :
    List HealthEvent × Option HealthEvent × HealthMonitor :=
  let first := bridge.elim (none, m) fun between =>
      ((m.tryTransitionTo between).1.toOption, (m.tryTransitionTo between).2)
  let second := first.2.tryTransitionTo target
  (first.1.toList ++ second.1.toOption.toList, second.1.toOption, second.2)

def bridge (m : HealthMonitor) : HealthCall → Option ConnectorHealth
  | applyTarget target =>
    if m.current.kind = .up ∧ target.kind = .connecting then some (.degraded "connection lost; reconnecting") else none
  | applyObservation target => if m.current.kind = .connecting ∧ target.kind = .degraded then some .up else none
  | _ => none

def critical (m : HealthMonitor) (call : HealthCall) : List HealthEvent × Option HealthEvent × HealthMonitor :=
  match call with
  | transitionTo target => bridged m none target
  | applyTarget target => if m.current.kind = target.kind then ([], none, m) else bridged m (call.bridge m) target
  | applyObservation target => bridged m (call.bridge m) target
  | recordInboundDrop count _ =>
    if m.current.kind ≠ .up then ([], none, m)
    else bridged m none (.degraded ("dropped " ++ toString count.toNat ++ " inbound frames"))
  | recordOutboundBackpressure =>
    if m.current.kind ≠ .up ∧ m.current.kind ≠ .connecting then ([], none, m)
    else bridged m none (.degraded "outbound backpressure")
  | degrade reason => if m.current.kind = .degraded then ([], none, m) else bridged m none (.degraded reason)
  | transitionUp => if m.current.kind = .up then ([], none, m) else bridged m none .up

/-- The latches that a call stores: within the section if there is no event, and after it otherwise. -/
def stores (kind : FanOut) (event : Option HealthEvent) (call : HealthCall) : List (Latch × Bool) :=
  match call.latch, kind with
  | some latch, _ => [(latch, true)]
  | none, .ui => []
  | none, .mqtt => if event.any (·.target.kind = .up) then [(.drops, false), (.backpressure, false)] else []
  | none, _ => if event.any (·.target.kind = .up) then [(.drops, false)] else []

end HealthCall

open HealthCall

inductive Task where
  | load (call : HealthCall)
  | enter (call : HealthCall)
  | settle (stores : List (Latch × Bool)) (event : HealthEvent)
deriving DecidableEq

def Task.inFlight : Task → Option HealthEvent
  | settle _ event => some event
  | _ => none

structure Subscription where
  opened : Nat
  channel : List HealthEvent
deriving DecidableEq

/-- A monitor with the calls in progress, and all transitions that it has made. -/
structure Fan where
  inner : HealthMonitor
  latched : List Latch
  subscribers : List Subscription
  tasks : List Task
  transitions : List HealthEvent
deriving DecidableEq

inductive FanAction where
  | call (call : HealthCall)
  | step (i : Nat)
  | subscribe
deriving DecidableEq

namespace Fan

def new : Fan := ⟨.new, [], [], [], []⟩

def broadcast (f : Fan) (event : HealthEvent) : Fan :=
  { f with subscribers := f.subscribers.map fun s => { s with channel := s.channel ++ [event] } }

def store (f : Fan) (write : Latch × Bool) : Fan :=
  { f with latched := if write.2 then write.1 :: f.latched else f.latched.filter (· ≠ write.1) }

def advance (kind : FanOut) (f : Fan) : Task → Option Task × Fan
  | .load call =>
    if call.skips || call.latch.any (· ∈ f.latched) then (none, f) else (some (.enter call), f)
  | .enter call =>
    match call.critical f.inner with
    | (made, none, inner) =>
      (none, (call.stores kind none).foldl store { f with inner, transitions := f.transitions ++ made })
    | (made, some event, inner) =>
      (some (.settle (call.stores kind (some event)) event), { f with inner, transitions := f.transitions ++ made })
  | .settle (write :: stores) event => (some (.settle stores event), f.store write)
  | .settle [] event => (none, f.broadcast event)

def act (kind : FanOut) (f : Fan) : FanAction → Option Fan
  | .call call => if call.offered kind then some { f with tasks := f.tasks ++ [.load call] } else none
  | .step i => f.tasks[i]?.map fun task =>
    let (left, f') := f.advance kind task
    { f' with tasks := f.tasks.take i ++ left.toList ++ f.tasks.drop (i + 1) }
  | .subscribe => some { f with subscribers := f.subscribers ++ [⟨f.transitions.length, []⟩] }

def inFlight (f : Fan) : List HealthEvent := f.tasks.filterMap Task.inFlight

def bridges (f : Fan) : FanAction → Bool
  | .step i => f.tasks[i]?.any fun
    | .enter call => (call.bridge f.inner).isSome
    | _ => false
  | _ => false

/-- A step with at most one event in flight, with none for a subscription, and with no bridge. -/
def orderly (kind : FanOut) (f : Fan) (action : FanAction) : Option Fan :=
  (f.act kind action).filter fun next =>
    next.inFlight.length ≤ 1 && (action ≠ .subscribe || f.inFlight.isEmpty) && !f.bridges action

/-- Every channel holds the transitions since it was opened, up to the one in flight. -/
structure Faithful (f : Fan) : Prop where
  lone : f.inFlight.length ≤ 1
  current : ∀ event, f.transitions.getLast? = some event → f.inner.current = event.target
  opened : ∀ s ∈ f.subscribers, s.opened ≤ f.transitions.length
  channel : ∀ s ∈ f.subscribers, s.channel ++ f.inFlight = f.transitions.drop s.opened

end Fan

variable {kind : FanOut} {f f' : Fan} {m : HealthMonitor}

theorem bridged_cases {bridge : Option ConnectorHealth} {target : ConnectorHealth}
    (reached : ∀ between ∈ bridge, isLegalTransition m.current.kind between.kind = true ∧
      isLegalTransition between.kind target.kind = true) :
    bridged m bridge target = ([], none, m) ∨
      ∃ made event, bridged m bridge target = (made ++ [event], some event, ⟨event.target⟩) ∧
      (bridge = none → made = []) := by
  cases bridge with
  | none =>
    rw [bridged, elim_none]
    by_cases legal : isLegalTransition m.current.kind target.kind = true
    · rw [HealthMonitor.tryTransitionTo_legal legal]
      exact .inr ⟨[], _, rfl, fun _ => rfl⟩
    · rw [HealthMonitor.tryTransitionTo, if_neg legal]
      exact .inl rfl
  | some between =>
    obtain ⟨first, second⟩ := reached between rfl
    rw [bridged, elim_some, HealthMonitor.tryTransitionTo_legal first, HealthMonitor.tryTransitionTo_legal second]
    exact .inr ⟨[_], _, rfl, nofun⟩

theorem bridge_legal {call : HealthCall} {target : ConnectorHealth}
    (own : call = .applyTarget target ∨ call = .applyObservation target) :
    ∀ between ∈ call.bridge m, isLegalTransition m.current.kind between.kind = true ∧
      isLegalTransition between.kind target.kind = true := by
  rcases own with rfl | rfl
  all_goals
    intro between same
    obtain ⟨here, same⟩ := ite_none_right_eq_some.mp same
    cases same
    rw [here.1, here.2]
    exact ⟨rfl, rfl⟩

theorem critical_cases (call : HealthCall) :
    call.critical m = ([], none, m) ∨ ∃ made event, call.critical m = (made ++ [event], some event, ⟨event.target⟩) ∧
      (call.bridge m = none → made = []) := by
  have direct (target : ConnectorHealth) : bridged m none target = ([], none, m) ∨ ∃ made event,
      bridged m none target = (made ++ [event], some event, ⟨event.target⟩) ∧ (none = none → made = []) :=
    bridged_cases (by simp)
  cases call with
  | transitionTo target => exact direct target
  | applyTarget target =>
    rw [critical]
    split
    · exact .inl rfl
    · exact bridged_cases (bridge_legal (.inl rfl))
  | applyObservation target => exact bridged_cases (bridge_legal (.inr rfl))
  | recordInboundDrop count threshold | recordOutboundBackpressure | degrade reason | transitionUp =>
    rw [critical]
    split
    · exact .inl rfl
    · exact direct _

namespace Fan

theorem foldl_store (f : Fan) (stores : List (Latch × Bool)) :
    ∃ latched, stores.foldl store f = { f with latched } := by
  induction stores generalizing f with
  | nil => exact ⟨_, rfl⟩
  | cons write stores ih => exact ih (f.store write)

theorem advance_cases {task : Task} {left : Option Task} (advanced : f.advance kind task = (left, f')) :
    (∃ latched, f' = { f with latched } ∧ left.bind Task.inFlight = task.inFlight) ∨
    (∃ event, f' = f.broadcast event ∧ left.bind Task.inFlight = none ∧ task.inFlight = some event) ∨
    ∃ call made event, f' = { f with inner := ⟨event.target⟩, transitions := f.transitions ++ (made ++ [event]) } ∧
      left.bind Task.inFlight = some event ∧ task = .enter call ∧ (call.bridge f.inner = none → made = []) := by
  cases task with
  | load call =>
    rw [advance] at advanced
    split at advanced <;> cases advanced <;> exact .inl ⟨_, rfl, rfl⟩
  | enter call =>
    rcases critical_cases (m := f.inner) call with quiet | ⟨made, event, changed, plain⟩
    · obtain ⟨latched, same⟩ := foldl_store f (call.stores kind none)
      simp only [advance, quiet, append_nil, same] at advanced
      cases advanced
      exact .inl ⟨latched, rfl, rfl⟩
    · simp only [advance, changed] at advanced
      cases advanced
      exact .inr (.inr ⟨call, made, event, rfl, rfl, rfl, plain⟩)
  | settle stores event =>
    cases stores with
    | nil =>
      cases advanced
      exact .inr (.inl ⟨event, rfl, rfl, rfl⟩)
    | cons write stores =>
      cases advanced
      exact .inl ⟨_, rfl, rfl⟩

theorem new_faithful : new.Faithful where
  lone := Nat.zero_le _
  current := by
    intro event last
    cases last
  opened := by
    intro s member
    cases member
  channel := by
    intro s member
    cases member

theorem lone_event {before after : List HealthEvent} {event : HealthEvent}
    (lone : (before ++ [event] ++ after).length ≤ 1) : before = [] ∧ after = [] := by
  rw [length_append, length_append, length_singleton] at lone
  exact ⟨eq_nil_of_length_eq_zero (by omega), eq_nil_of_length_eq_zero (by omega)⟩

theorem filterMap_inFlight (before after : List Task) (task : Option Task) :
    (before ++ task.toList ++ after).filterMap Task.inFlight = before.filterMap Task.inFlight ++
      (task.bind Task.inFlight).toList ++ after.filterMap Task.inFlight := by
  rw [filterMap_append, filterMap_append]
  cases task with
  | none => rfl
  | some task =>
    cases task.inFlight <;> rfl

theorem Faithful.advance (faithful : f.Faithful) {before after : List Task} {task : Task} {left : Option Task}
    (split : f.tasks = before ++ task :: after)
    (advanced : f.advance kind task = (left, f'))
    (lone : (inFlight { f' with tasks := before ++ left.toList ++ after }).length ≤ 1)
    (plain : ∀ call, task = .enter call → call.bridge f.inner = none) :
    Faithful { f' with tasks := before ++ left.toList ++ after } := by
  have flying : f.inFlight = before.filterMap Task.inFlight ++ task.inFlight.toList ++
      after.filterMap Task.inFlight := by
    rw [inFlight, split, append_cons]
    exact filterMap_inFlight before after (some task)
  have flying' : inFlight { f' with tasks := before ++ left.toList ++ after } = _ :=
    filterMap_inFlight before after left
  obtain ⟨one, current, opened, channel⟩ := faithful
  rw [flying] at one channel
  rcases advance_cases advanced with ⟨_, rfl, same⟩ | ⟨_, rfl, gone, here⟩ | ⟨call, _, _, rfl, made, rfl, direct⟩
  · rw [same] at flying'
    exact ⟨lone, current, opened, flying' ▸ channel⟩
  · rw [here] at one channel
    obtain ⟨first, last⟩ := lone_event one
    rw [gone, first, last] at flying'
    rw [first, last] at channel
    refine ⟨lone, current, ?_, ?_⟩
    · intro s member
      obtain ⟨s, among, rfl⟩ := mem_map.mp member
      exact opened s among
    · intro s member
      obtain ⟨s, among, rfl⟩ := mem_map.mp member
      rw [flying']
      exact (append_nil _).trans (channel s among)
  · rw [flying', made] at lone
    obtain ⟨first, last⟩ := lone_event lone
    cases direct (plain call rfl)
    rw [made, first, last] at flying'
    rw [first, last] at channel
    refine ⟨?_, ?_, ?_, ?_⟩
    · rw [flying']
      exact Nat.le_refl 1
    · intro event' last
      rw [nil_append, getLast?_concat] at last
      cases last
      rfl
    · intro s member
      rw [length_append]
      exact Nat.le_add_right_of_le (opened s member)
    · intro s member
      rw [flying', drop_append_of_le_length (opened s member), ← channel s member]
      simp [Task.inFlight]

theorem Faithful.orderly
    (faithful : f.Faithful)
    {action : FanAction}
    (stepped : f.orderly kind action = some f') : f'.Faithful := by
  obtain ⟨taken, lone⟩ := filter_eq_some_iff.mp stepped
  rw [Bool.and_eq_true, Bool.and_eq_true, Bool.or_eq_true, decide_eq_true_eq, decide_eq_true_eq,
    List.isEmpty_iff] at lone
  obtain ⟨lone, unbridged⟩ := lone
  cases action with
  | call call =>
    rw [act] at taken
    split at taken
    · cases taken
      have same : inFlight { f with tasks := f.tasks ++ [.load call] } = f.inFlight := by
        simp [inFlight, filterMap_append, Task.inFlight]
      exact ⟨lone.1, faithful.current, faithful.opened, same ▸ faithful.channel⟩
    · cases taken
  | subscribe =>
    cases taken
    refine ⟨lone.1, faithful.current, ?_, ?_⟩
    · intro s member
      rcases mem_append.mp member with member | member
      · exact faithful.opened s member
      · cases mem_singleton.mp member
        exact Nat.le_refl _
    · intro s member
      rcases mem_append.mp member with member | member
      · exact faithful.channel s member
      · cases mem_singleton.mp member
        rw [drop_length]
        exact lone.2.resolve_left fun other => other rfl
  | step i =>
    obtain ⟨task, here, rfl⟩ := map_eq_some_iff.mp taken
    apply faithful.advance ?_ rfl lone.1
    · rintro call rfl
      simpa [bridges, here] using unbridged
    · obtain ⟨_, rfl⟩ := List.getElem?_eq_some_iff.mp here
      rw [getElem_cons_drop, take_append_drop]

end Fan

/-- While changes are broadcast one after the other and none is bridged, a subscriber has all transitions since it
subscribed. -/
theorem subscribers_follow_state {actions : List FanAction} {s : Subscription}
    (follows : Run.follow (Fan.orderly kind) .new actions = some f)
    (idle : f.tasks = [])
    (subscribed : s ∈ f.subscribers) :
    s.channel = f.transitions.drop s.opened ∧
      ∀ event, s.channel.getLast? = some event → event.target.kind = f.inner.current.kind := by
  have faithful := (Run.of_follow follows).invariant Fan.new_faithful fun _ _ _ faithful => faithful.orderly
  have channel := faithful.channel s subscribed
  rw [Fan.inFlight, idle, filterMap_nil, append_nil] at channel
  refine ⟨channel, ?_⟩
  intro event last
  rw [faithful.current event ?_]
  rw [channel, getLast?_drop] at last
  split at last
  · cases last
  · exact last

theorem reported_drop_followed :
    ∃ f, Run.follow (Fan.orderly .mqtt) .new ([.call (.transitionTo .up)] ++ List.replicate 5 (.step 0) ++ [.subscribe,
      .call (.recordInboundDrop 8 8)] ++ List.replicate 4 (.step 0)) = some f ∧
      ∃ s ∈ f.subscribers, s.channel = f.transitions.drop s.opened ∧ s.channel ≠ [] := by
  let drop : HealthEvent := ⟨.up, .degraded "dropped 8 inbound frames"⟩
  let f : Fan := ⟨⟨drop.target⟩, [.drops], [⟨1, [drop]⟩], [], [⟨.connecting, .up⟩, drop]⟩
  have follows : Run.follow (Fan.orderly .mqtt) .new ([.call (.transitionTo .up)] ++
      List.replicate 5 (.step 0) ++ [.subscribe, .call (.recordInboundDrop 8 8)] ++ List.replicate 4 (.step 0)) =
        some f := by
    decide +kernel
  exact ⟨f, follows, _, mem_cons_self, (subscribers_follow_state follows rfl mem_cons_self).1, cons_ne_nil _ _⟩

def overtaking (kind : FanOut) : List FanAction :=
  let calls := if kind = .ui then (HealthCall.transitionUp, HealthCall.degrade "bus") else
    (.transitionTo .up, .transitionTo (.degraded "bus"))
  [.subscribe, .call calls.1, .call calls.2, .step 0, .step 0, .step 1, .step 1, .step 1] ++
    List.replicate ((calls.1.stores kind (some ⟨.connecting, .up⟩)).length + 1) (.step 0)

theorem subscriber_left_behind : ∃ actions : FanOut → List FanAction, ∃ f : Fan, f.tasks = [] ∧
    (∀ kind, Run.follow (Fan.act kind) .new (actions kind) = some f) ∧
      ∃ s ∈ f.subscribers, s.opened = 0 ∧ s.channel = f.transitions.reverse ∧
        s.channel.getLast?.map (·.target.kind) = some .up ∧ f.inner.current.kind = .degraded := by
  let up : HealthEvent := ⟨.connecting, .up⟩
  let fault : HealthEvent := ⟨.up, .degraded "bus"⟩
  refine ⟨overtaking, ⟨⟨fault.target⟩, [], [⟨0, [fault, up]⟩], [], [up, fault]⟩, rfl, ?_, _, mem_cons_self, rfl, rfl,
    rfl, rfl⟩
  intro kind
  cases kind <;> decide +kernel

end Taktora
