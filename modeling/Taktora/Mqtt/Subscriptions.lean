import Taktora.Core.Error
import Taktora.Lib.Fallible
import Taktora.Lib.Run

namespace Taktora.Mqtt

open Fallible List

structure MqttTopicFilter where
  text : String
deriving DecidableEq, Repr

structure InboundRoute where
  filter : MqttTopicFilter
  descriptorName : String
deriving DecidableEq, Repr

structure BrokerSubscription where
  filter : MqttTopicFilter
  refcount : Nat
deriving DecidableEq, Repr

structure InboundTable where
  routes : List InboundRoute
  subscriptions : List BrokerSubscription
deriving DecidableEq, Repr

def bump (filter : MqttTopicFilter) : List BrokerSubscription → Option (List BrokerSubscription)
  | [] => none
  | s :: rest =>
    if s.filter = filter then some ({ s with refcount := s.refcount + 1 } :: rest) else (bump filter rest).map (s :: ·)

/-- The first entry for the filter counts one channel less, and is dropped with the last one. -/
def release (filter : MqttTopicFilter) : List BrokerSubscription → List BrokerSubscription
  | [] => []
  | s :: rest =>
    if s.filter = filter then
      if s.refcount - 1 = 0 then rest else { s with refcount := s.refcount - 1 } :: rest
    else s :: release filter rest

namespace InboundTable

def new : InboundTable := ⟨[], []⟩

variable (t : InboundTable)

def addRoute (filter : MqttTopicFilter) (name : String) : Bool × InboundTable :=
  let routes := t.routes ++ [⟨filter, name⟩]
  match bump filter t.subscriptions with
  | some subscriptions => (false, ⟨routes, subscriptions⟩)
  | none => (true, ⟨routes, t.subscriptions⟩)

def recordSubscription (filter : MqttTopicFilter) : InboundTable :=
  { t with subscriptions := t.subscriptions ++ [⟨filter, 1⟩] }

def removeChannel (name : String) : InboundTable :=
  match t.routes.find? (·.descriptorName = name) with
  | none => t
  | some route => ⟨t.routes.eraseP (·.descriptorName = name), release route.filter t.subscriptions⟩

end InboundTable

open InboundTable

/-- The inbound table, the names of its registry, and whether the session and the gateway are still there. -/
structure MqttConnector where
  inbound : InboundTable
  registry : List String
  session : Bool
  handle : Bool
deriving DecidableEq, Repr

namespace MqttConnector

def new : MqttConnector := ⟨.new, [], true, true⟩

/-- The channels whose raw publisher is alive: the route and the registry each hold it. -/
def published (c : MqttConnector) : List String := c.inbound.routes.map (·.descriptorName) ++ c.registry

def registerInbound (name : String) (filter : MqttTopicFilter) (subscribed : Except String PUnit) :
    Fallible ConnectorError MqttConnector PUnit := do
  let c ← get
  set { c with inbound := (c.inbound.addRoute filter name).2 }
  if (c.inbound.addRoute filter name).1 then
    if c.session = false then throw (.stack "mqtt connector: session has already been consumed by register_with")
    if c.handle = false then throw (.stack "mqtt connector: gateway runtime has shut down")
    Fallible.ofExcept (subscribed.mapError fun e => .stack ("mqtt connector: session operation failed: " ++ e))
    modify fun c => { c with inbound := c.inbound.recordSubscription filter }

def register (name : String) : Fallible ConnectorError MqttConnector PUnit := do
  let c ← get
  if name ∈ c.registry then
    throw (.configuration ("channel '" ++ name ++ "' already registered with direction Inbound"))
  set { c with registry := c.registry ++ [name] }

/-- `opened` is what becomes of the descriptor and the subscriber. The service takes one publisher. -/
def createReader (name : String) (filter : MqttTopicFilter) (opened : Except ConnectorError PUnit)
    (subscribed : Except String PUnit) : Fallible ConnectorError MqttConnector PUnit := do
  Fallible.ofExcept opened
  let c ← get
  if name ∈ c.published then throw (.stack "iceoryx2 service: publisher: ExceedsMaxSupportedPublishers")
  registerInbound name filter subscribed
  register name

end MqttConnector

open MqttConnector

inductive MqttCall where
  | createReader (name : String) (filter : MqttTopicFilter) (opened : Except ConnectorError PUnit)
      (subscribed : Except String PUnit)
  | removeChannel (name : String)
  | registerWith
  | shutDown

namespace MqttCall

def run : MqttCall → Fallible ConnectorError MqttConnector PUnit
  | createReader name filter opened subscribed => MqttConnector.createReader name filter opened subscribed
  | removeChannel name => modify fun c => { c with inbound := c.inbound.removeChannel name }
  | registerWith => do
    let c ← get
    if c.session =
      false then throw (.stack "mqtt connector: register_with already called; session was moved into dispatcher")
    set { c with session := false }
  | shutDown => modify fun c => { c with handle := false }

end MqttCall

def counts (filter : MqttTopicFilter) (subscriptions : List BrokerSubscription) : List Nat :=
  (subscriptions.filter (·.filter = filter)).map (·.refcount)

def InboundTable.users (t : InboundTable) (filter : MqttTopicFilter) : Nat := t.routes.countP (·.filter = filter)

/-- One entry for each filter in use, which counts its channels. -/
def InboundTable.Exact (t : InboundTable) : Prop :=
  ∀ filter, counts filter t.subscriptions = if t.users filter = 0 then [] else [t.users filter]

section Counts

variable {filter other : MqttTopicFilter} {subs subs' : List BrokerSubscription} {t : InboundTable} {name : String}

theorem counts_cons (filter : MqttTopicFilter) (s : BrokerSubscription) (subs : List BrokerSubscription) :
    counts filter (s :: subs) = if s.filter = filter then s.refcount :: counts filter subs else counts filter subs := by
  unfold counts
  rw [filter_cons]
  split
  · rename_i same
    rw [if_pos (of_decide_eq_true same), map_cons]
  · rename_i different
    rw [if_neg (fun same => different (decide_eq_true same))]

theorem bump_none (none : bump filter subs = none) : counts filter subs = [] := by
  induction subs with
  | nil => rfl
  | cons s rest ih =>
    rw [bump] at none
    split at none
    · cases none
    · rename_i different
      rw [counts_cons, if_neg different, ih (Option.map_eq_none_iff.mp none)]

theorem bump_some (some_ : bump filter subs = some subs') :
    (∃ count rest, counts filter subs = count :: rest ∧ counts filter subs' = (count + 1) :: rest) ∧
      ∀ other ≠ filter, counts other subs' = counts other subs := by
  induction subs generalizing subs' with
  | nil => cases some_
  | cons s rest ih =>
    rw [bump] at some_
    split at some_
    · rename_i same
      cases some_
      refine ⟨⟨s.refcount, counts filter rest, ?_, ?_⟩, ?_⟩
      · rw [counts_cons, if_pos same]
      · rw [counts_cons, if_pos same]
      · intro other different
        rw [counts_cons, counts_cons, if_neg fun here => different (here.symm.trans same),
          if_neg fun here => different (here.symm.trans same)]
    · rename_i different
      obtain ⟨_, later, rfl⟩ := Option.map_eq_some_iff.mp some_
      obtain ⟨⟨count, more, before, after⟩, others⟩ := ih later
      refine ⟨⟨count, more, ?_, ?_⟩, ?_⟩
      · rw [counts_cons, if_neg different, before]
      · rw [counts_cons, if_neg different, after]
      · intro other apart
        rw [counts_cons, counts_cons, others other apart]

theorem release_counts {count : Nat} {more : List Nat} (here : counts filter subs = count :: more) :
    counts filter (release filter subs) = (if count - 1 = 0 then more else (count - 1) :: more) ∧
      ∀ other ≠ filter, counts other (release filter subs) = counts other subs := by
  induction subs with
  | nil => cases here
  | cons s rest ih =>
    rw [counts_cons] at here
    rw [release]
    split at here
    · rename_i same
      cases here
      rw [if_pos same]
      refine ⟨?_, ?_⟩
      · split
        · rfl
        · rw [counts_cons, if_pos same]
      · intro other different
        have apart : s.filter ≠ other := fun this => different (this.symm.trans same)
        rw [counts_cons]
        split
        · rfl
        · rw [counts_cons, if_neg apart]
    · rename_i different
      obtain ⟨first, others⟩ := ih here
      rw [if_neg different]
      refine ⟨?_, ?_⟩
      · rw [counts_cons, if_neg different, first]
      · intro other apart
        rw [counts_cons, counts_cons, others other apart]

theorem users_add (t : InboundTable) (filter other : MqttTopicFilter) (name : String) (subs : List BrokerSubscription) :
    users ⟨t.routes ++ [⟨filter, name⟩], subs⟩ other = t.users other + if other = filter then 1 else 0 := by
  unfold users
  split
  · rename_i same
    simp [same]
  · rename_i different
    simp [Ne.symm different]

theorem InboundTable.Exact.known
    (precise : t.Exact)
    (known : bump filter t.subscriptions = some subs') :
    InboundTable.Exact ⟨t.routes ++ [⟨filter, name⟩], subs'⟩ := by
  obtain ⟨⟨_, _, before, after⟩, others⟩ := bump_some known
  intro other
  rw [users_add]
  by_cases same : other = filter
  · subst same
    have here := precise other
    rw [before] at here
    split at here
    · cases here
    · cases here
      rw [if_pos rfl]
      exact after
  · rw [if_neg same, others other same]
    exact precise other

theorem users_of_unknown (precise : t.Exact) (unknown : bump filter t.subscriptions = none) : t.users filter = 0 := by
  by_contra used
  have here := precise filter
  rw [bump_none unknown, if_neg used] at here
  cases here

theorem InboundTable.Exact.recorded
    (precise : t.Exact)
    (unknown : bump filter t.subscriptions = none) :
    InboundTable.Exact (recordSubscription ⟨t.routes ++ [⟨filter, name⟩], t.subscriptions⟩ filter) := by
  intro other
  have split : counts other (t.subscriptions ++ [⟨filter, 1⟩]) = counts other t.subscriptions ++
      counts other [⟨filter, 1⟩] := by
    rw [counts, filter_append, map_append]
    rfl
  rw [recordSubscription, users_add, split, counts_cons]
  by_cases same : other = filter
  · subst same
    rw [if_pos rfl, if_pos rfl, bump_none unknown, users_of_unknown precise unknown]
    rfl
  · rw [if_neg (Ne.symm same), if_neg same]
    exact (append_nil _).trans (precise other)

theorem countP_eraseP {α : Type} {p q : α → Bool} {xs : List α} {x : α} (found : xs.find? p = some x) :
    xs.countP q = (xs.eraseP p).countP q + if q x then 1 else 0 := by
  induction xs with
  | nil => cases found
  | cons y ys ih =>
    rw [find?_cons] at found
    split at found
    · rename_i here
      cases found
      rw [eraseP_cons_of_pos here, countP_cons]
    · rename_i elsewhere
      rw [eraseP_cons_of_neg (by simp [elsewhere]), countP_cons, countP_cons, ih found]
      omega

theorem InboundTable.Exact.removed (precise : t.Exact) (name : String) : (t.removeChannel name).Exact := by
  unfold removeChannel
  split
  · exact precise
  · rename_i route found
    have users : ∀ filter, t.users filter =
        users ⟨t.routes.eraseP (·.descriptorName = name), release route.filter t.subscriptions⟩ filter +
          if route.filter = filter then 1 else 0 := by
      intro filter
      have counted := countP_eraseP (q := (·.filter = filter)) found
      simp only [decide_eq_true_eq] at counted
      exact counted
    have here := precise route.filter
    rw [if_neg (by rw [users, if_pos rfl]; exact Nat.succ_ne_zero _)] at here
    obtain ⟨first, others⟩ := release_counts here
    intro other
    by_cases same : route.filter = other
    · subst same
      have count := users route.filter
      rw [if_pos rfl] at count
      rw [first, count, Nat.add_sub_cancel]
    · rw [others other (symm same), precise other, users other, if_neg same, add_zero]

end Counts

namespace MqttCall

variable (c : MqttConnector)

def Completes : MqttCall → Prop
  | createReader name filter opened subscribed => (∃ e, opened = .error e) ∨ name ∈ c.published ∨
      bump filter c.inbound.subscriptions ≠ none ∨ c.session = true ∧ c.handle = true ∧ ∃ u, subscribed = .ok u
  | _ => True

/-- The counts are exact after the call, and a failed call has changed nothing in the table. -/
structure Keeps (c : MqttConnector) (call : MqttCall) : Prop where
  exact : (Fallible.final call.run c).inbound.Exact
  atomic : ∀ e c', call.run c = .error e c' → c'.inbound = c.inbound

def Step (call : MqttCall) (c' : MqttConnector) : Prop := Fallible.final call.run c = c'

def CompletingStep (call : MqttCall) (c' : MqttConnector) : Prop := call.Completes c ∧ Step c call c'

section Calls

variable {c c' : MqttConnector} {name : String} {filter : MqttTopicFilter} {opened : Except ConnectorError PUnit}
  {subscribed : Except String PUnit}

theorem registerInbound_known {subs : List BrokerSubscription}
    (known : bump filter c.inbound.subscriptions = some subs) :
    registerInbound name filter subscribed c =
      .ok ⟨⟩ { c with inbound := ⟨c.inbound.routes ++ [⟨filter, name⟩], subs⟩ } := by
  have added : c.inbound.addRoute filter name = (false, ⟨c.inbound.routes ++ [⟨filter, name⟩], subs⟩) := by
    rw [addRoute, known]
  show (if (c.inbound.addRoute filter name).1 = true then _ else _ : Fallible _ _ _) _ = _
  rw [added]
  rfl

section Unknown

variable (unknown : bump filter c.inbound.subscriptions = none)
include unknown

theorem addRoute_unknown : c.inbound.addRoute filter name =
    (true, ⟨c.inbound.routes ++ [⟨filter, name⟩], c.inbound.subscriptions⟩) := by
  rw [addRoute, unknown]

theorem registerInbound_new (session : c.session = true) (handle : c.handle = true) {u : PUnit}
    (answered : subscribed = .ok u) : registerInbound name filter subscribed c = .ok ⟨⟩ { c with
      inbound := (⟨c.inbound.routes ++ [⟨filter, name⟩], c.inbound.subscriptions⟩ : InboundTable).recordSubscription
        filter } := by
  subst answered
  show (if (c.inbound.addRoute filter name).1 = true then _ else _ : Fallible _ _ _) _ = _
  rw [addRoute_unknown unknown, session, handle]
  rfl

theorem registerInbound_failed (refused : ¬(c.session = true ∧ c.handle = true ∧ ∃ u, subscribed = .ok u)) :
    ∃ e, registerInbound name filter subscribed c =
      .error e { c with inbound := ⟨c.inbound.routes ++ [⟨filter, name⟩], c.inbound.subscriptions⟩ } := by
  show ∃ e, (if (c.inbound.addRoute filter name).1 = true then _ else _ : Fallible _ _ _) _ = _
  rw [addRoute_unknown unknown]
  cases session : c.session with
  | false => exact ⟨_, rfl⟩
  | true =>
    cases handle : c.handle with
    | false => exact ⟨_, rfl⟩
    | true =>
      cases subscribed with
      | error e => exact ⟨_, rfl⟩
      | ok u => exact absurd ⟨session, handle, u, rfl⟩ refused

end Unknown

theorem register_fresh (fresh : name ∉ c.registry) :
    register name c = .ok ⟨⟩ { c with registry := c.registry ++ [name] } := by
  show (if name ∈ c.registry then _ else _ : Fallible _ _ _) c = _
  rw [if_neg fresh]
  rfl

theorem createReader_fresh
    (fresh : name ∉ c.published)
    (u : PUnit) :
    run (createReader name filter (.ok u) subscribed) c =
      (registerInbound name filter subscribed >>= fun _ => register name) c := by
  show (if name ∈ c.published then _ else _ : Fallible _ _ _) c = _
  rw [if_neg fresh]

theorem createReader_published (taken : name ∈ c.published) (u : PUnit) :
    ∃ e, run (createReader name filter (.ok u) subscribed) c = .error e c := by
  show ∃ e, (if name ∈ c.published then _ else _ : Fallible _ _ _) c = .error e c
  rw [if_pos taken]
  exact ⟨_, rfl⟩

theorem final_of_ok {m : Fallible ConnectorError MqttConnector PUnit} {u : PUnit} (returned : m c = .ok u c') :
    Fallible.final m c = c' := by
  rw [final, returned]

theorem routes_grow (t : InboundTable) (route : InboundRoute) (subs : List BrokerSubscription) :
    (⟨t.routes ++ [route], subs⟩ : InboundTable) ≠ t := by
  intro same
  have length := congrArg (fun t => t.routes.length) same
  simp at length

theorem keeps_of_unchanged {call : MqttCall} {e : ConnectorError}
    (precise : c.inbound.Exact)
    (failed : run call c = .error e c) : Keeps c call := by
  refine ⟨by rw [final, failed]; exact precise, ?_⟩
  intro e' c' other
  cases failed.symm.trans other
  rfl

theorem keeps_of_ok {call : MqttCall} {u : PUnit} (c' : MqttConnector)
    (precise : c'.inbound.Exact)
    (whole : run call c = .ok u c') : Keeps c call := by
  refine ⟨by rw [final_of_ok whole]; exact precise, ?_⟩
  intro e c' failed
  cases whole.symm.trans failed

theorem keeps_of_registered {t : InboundTable} {u : PUnit} (precise : t.Exact) (fresh : name ∉ c.published)
    (registered : registerInbound name filter subscribed c = .ok ⟨⟩ { c with inbound := t }) :
    Keeps c (createReader name filter (.ok u) subscribed) := by
  have unregistered : name ∉ c.registry := fun member => fresh (mem_append_right _ member)
  have whole : run (createReader name filter (.ok u) subscribed) c =
      .ok ⟨⟩ { c with inbound := t, registry := c.registry ++ [name] } := by
    rw [createReader_fresh fresh, bind_of_ok registered]
    exact register_fresh unregistered
  exact keeps_of_ok { c with inbound := t, registry := _ } precise whole

theorem keeps_createReader_iff
    (precise : c.inbound.Exact) :
    Keeps c (createReader name filter opened subscribed) ↔
      Completes c (createReader name filter opened subscribed) := by
  cases opened with
  | error e => exact iff_of_true (keeps_of_unchanged precise (by rfl)) (.inl ⟨e, rfl⟩)
  | ok u =>
    by_cases fresh : name ∈ c.published
    · obtain ⟨e, failed⟩ := createReader_published fresh u
      exact iff_of_true (keeps_of_unchanged precise failed) (.inr (.inl fresh))
    cases known : bump filter c.inbound.subscriptions with
    | some subs =>
      refine iff_of_true (keeps_of_registered (precise.known known) fresh (registerInbound_known known)) ?_
      exact .inr (.inr (.inl (by rw [known]; exact nofun)))
    | none =>
      by_cases answered : c.session = true ∧ c.handle = true ∧ ∃ u, subscribed = .ok u
      · obtain ⟨session, handle, _, subscribes⟩ := id answered
        have registered : registerInbound name filter subscribed c = _ :=
          registerInbound_new known session handle subscribes
        exact iff_of_true (keeps_of_registered (precise.recorded known) fresh registered) (.inr (.inr (.inr answered)))
      · obtain ⟨e, failed⟩ : ∃ e, registerInbound name filter subscribed c = .error e _ :=
          registerInbound_failed known answered
        have whole := (createReader_fresh fresh u).trans (bind_of_error (f := fun _ => register name) failed)
        refine iff_of_false ?_ ?_
        · intro keeps
          exact routes_grow _ _ _ (keeps.atomic e _ whole)
        · rintro (⟨_, opens⟩ | taken | other | answers)
          · cases opens
          · exact fresh taken
          · exact other known
          · exact answered answers

theorem keeps_iff (precise : c.inbound.Exact) (call : MqttCall) : Keeps c call ↔ call.Completes c := by
  cases call with
  | createReader name filter opened subscribed => exact keeps_createReader_iff precise
  | removeChannel name => exact iff_of_true (keeps_of_ok _ (precise.removed name) (by rfl)) trivial
  | registerWith =>
    have whole : run registerWith c = (if c.session = false then _ else _ : Fallible _ _ _) c := rfl
    refine iff_of_true ?_ trivial
    split at whole
    · exact keeps_of_unchanged precise whole
    · exact keeps_of_ok { c with session := false } precise whole
  | shutDown => exact iff_of_true (keeps_of_ok { c with handle := false } precise (by rfl)) trivial

end Calls

theorem new_exact : new.inbound.Exact := fun _ => rfl

/-- After calls that completed or failed early the table is exact, and stays so exactly if the next one does. -/
theorem subscriptions_exact_iff {c : MqttConnector} {history : List MqttCall}
    (run : Run CompletingStep MqttConnector.new history c)
    (call : MqttCall) :
    c.inbound.Exact ∧ (Keeps c call ↔ call.Completes c) := by
  have precise : c.inbound.Exact := by
    refine run.invariant (I := fun c => c.inbound.Exact) new_exact ?_
    rintro c call _ precise ⟨completes, rfl⟩
    exact ((keeps_iff precise call).mpr completes).exact
  exact ⟨precise, keeps_iff precise call⟩

def plantTopic : MqttTopicFilter := ⟨"plant/+"⟩

def opens (name : String) : MqttCall := .createReader name plantTopic (.ok ⟨⟩) (.ok ⟨⟩)

def after (calls : List MqttCall) : MqttConnector := calls.foldl (fun c call => Fallible.final (run call) c) .new

theorem shared_filter_counted :
    (after [opens "a", opens "b", .removeChannel "a"]).inbound.subscriptions = [⟨plantTopic, 1⟩] ∧
      (after [opens "a", opens "b", .removeChannel "a"]).inbound.Exact ∧
      Keeps (after [opens "a", opens "b", .removeChannel "a"]) (opens "c") := by
  have first : Completes .new (opens "a") := .inr (.inr (.inr ⟨rfl, rfl, ⟨⟩, rfl⟩))
  have second : Completes (after [opens "a"]) (opens "b") := .inr (.inr (.inl (by decide +kernel)))
  have next : Completes (after [opens "a", opens "b", .removeChannel "a"]) (opens "c") :=
    .inr (.inr (.inl (by decide +kernel)))
  have run : Run CompletingStep .new [opens "a", opens "b",
      .removeChannel "a"] (after [opens "a", opens "b", .removeChannel "a"]) :=
    .snoc (.snoc (.snoc .nil ⟨first, rfl⟩) ⟨second, rfl⟩) ⟨trivial, rfl⟩
  obtain ⟨precise, keeps⟩ := subscriptions_exact_iff run (opens "c")
  exact ⟨by decide +kernel, precise, keeps.mpr next⟩

def refused (name : String) : MqttCall := .createReader name plantTopic (.ok ⟨⟩) (.error "refused")

/-- A refused subscription leaves its route behind, and the next reader of the filter counts one channel of two. -/
theorem failed_reader_is_left :
    (EStateM.run' (run (refused "a")) .new).isNone = true ∧ (after [refused "a"]).inbound = ⟨[⟨plantTopic, "a"⟩], []⟩ ∧
      (after [refused "a", opens "b"]).inbound = ⟨[⟨plantTopic, "a"⟩, ⟨plantTopic, "b"⟩], [⟨plantTopic, 1⟩]⟩ ∧
      (after [refused "a", opens "b", .removeChannel "b"]).inbound = ⟨[⟨plantTopic, "a"⟩], []⟩ := by
  decide +kernel

end MqttCall

end Taktora.Mqtt
