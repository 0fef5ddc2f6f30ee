import Mathlib.Data.List.Dedup
import Taktora.Mqtt.Subscriptions

namespace Taktora.Mqtt

open List MqttCall

def InboundTable.activeFilters (t : InboundTable) : List MqttTopicFilter := t.subscriptions.map (·.filter)

def InboundTable.filtersInUse (t : InboundTable) : List MqttTopicFilter := (t.routes.map (·.filter)).dedup

theorem InboundTable.Exact.active_perm {t : InboundTable}
    (precise : t.Exact) : t.activeFilters.Perm t.filtersInUse := by
  have count : ∀ f, t.activeFilters.count f = (counts f t.subscriptions).length := by
    intro f
    rw [activeFilters, count, countP_map, counts, length_map, ← countP_eq_length_filter]
    exact countP_congr (by simp)
  refine (perm_ext_iff_of_nodup (nodup_iff_count_le_one.mpr fun f => ?_) (nodup_dedup _)).mpr fun f => ?_
  · rw [count, precise]
    split <;> simp
  · have used : f ∈ t.filtersInUse ↔ t.users f ≠ 0 := by simp [filtersInUse, users]
    rw [show f ∈ (t.routes.map (·.filter)).dedup ↔ _ from used, ← count_pos_iff, count, precise]
    split <;> simp_all

/-- The connector, and the filters of the SUBSCRIBE handles that the replays have left in its table. -/
structure HeldHandles where
  connector : MqttConnector
  replayHandles : List MqttTopicFilter
deriving DecidableEq

inductive HandleEvent where
  | call (call : MqttCall)
  | reconnect (answers : MqttTopicFilter → Bool)

namespace HeldHandles

def start : HeldHandles := ⟨.new, []⟩

variable (s : HeldHandles)

def replaySubscriptions (answers : MqttTopicFilter → Bool) : HeldHandles :=
  { s with replayHandles := s.replayHandles ++ s.connector.inbound.activeFilters.filter answers }

def Step : HandleEvent → HeldHandles → Prop
  | .call call, s' => MqttCall.CompletingStep s.connector call s'.connector ∧ s'.replayHandles = s.replayHandles
  | .reconnect answers, s' => s' = s.replaySubscriptions answers

def handles : List MqttTopicFilter := s.connector.inbound.activeFilters ++ s.replayHandles

theorem run_exact {history : List HandleEvent} {s : HeldHandles}
    (run : Run Step start history s) : s.connector.inbound.Exact := by
  refine run.invariant (I := fun s => s.connector.inbound.Exact) new_exact ?_
  intro s event s' precise step
  cases event with
  | call call =>
    obtain ⟨⟨completes, final⟩, _⟩ := step
    exact final ▸ ((keeps_iff precise call).mpr completes).exact
  | reconnect answers =>
    cases step
    exact precise

/-- A reconnect renews the SUBSCRIBE of no filter in use. -/
def Quiet : HandleEvent → Prop
  | .call _ => True
  | .reconnect answers => ∀ f ∈ s.connector.inbound.filtersInUse, answers f = false

theorem step_functional (s : HeldHandles) (event : HandleEvent) (s₁ s₂ : HeldHandles) (first : Step s event s₁)
    (second : Step s event s₂) : s₁ = s₂ := by
  cases event with
  | call call =>
    obtain ⟨⟨_, final₁⟩, held₁⟩ := first
    obtain ⟨⟨_, final₂⟩, held₂⟩ := second
    cases s₁
    cases s₂
    simp_all only [MqttCall.Step]
  | reconnect answers => exact Eq.trans first (Eq.symm second)

theorem replayHandles_step {s s' : HeldHandles} {event : HandleEvent} (precise : s.connector.inbound.Exact)
    (step : Step s event s') : s'.replayHandles = [] ↔ s.replayHandles = [] ∧ s.Quiet event := by
  cases event with
  | call call => simp [Quiet, step.2]
  | reconnect answers =>
    cases step
    simp [Quiet, replaySubscriptions, precise.active_perm.mem_iff]

theorem replayHandles_iff {history : List HandleEvent} {s : HeldHandles} (run : Run Step start history s) :
    s.replayHandles = [] ↔ Run (fun s event s' => Quiet s event ∧ Step s event s') start history s := by
  induction run with
  | nil => exact iff_of_true rfl .nil
  | snoc before last ih =>
    rw [replayHandles_step (run_exact before) last, ih, Run.snoc_iff step_functional before last]

/-- There is at most one handle for each filter in use exactly if no reconnect so far has renewed one. -/
theorem handles_bounded_iff {history : List HandleEvent} {s : HeldHandles}
    (run : Run Step start history s) :
    (s.handles.length ≤ s.connector.inbound.filtersInUse.length ∧
      ∀ f ∉ s.connector.inbound.filtersInUse, f ∉ s.handles) ↔
      Run (fun s event s' => Quiet s event ∧ Step s event s') start history s := by
  have active := (run_exact run).active_perm
  rw [← replayHandles_iff run]
  constructor
  · intro ⟨few, _⟩
    rw [handles, length_append, active.length_eq] at few
    exact length_eq_zero_iff.mp (by omega)
  · intro none
    rw [handles, none, append_nil]
    exact ⟨active.length_eq.le, fun f unused => mt active.mem_iff.mp unused⟩

theorem opened_step : Step start (.call (.opens "a")) ⟨after [.opens "a"], []⟩ :=
  ⟨⟨.inr (.inr (.inr ⟨rfl, rfl, ⟨⟩, rfl⟩)), rfl⟩, rfl⟩

/-- A reconnect whose SUBSCRIBE fails leaves no handle. -/
theorem first_handle_bounded :
    let refusing : HandleEvent := .reconnect fun _ => false
    Run Step start [.call (.opens "a"), refusing] ⟨MqttCall.after [.opens "a"], []⟩ ∧
      HeldHandles.handles ⟨MqttCall.after [.opens "a"], []⟩ = [MqttCall.plantTopic] ∧
      (HeldHandles.handles ⟨MqttCall.after [.opens "a"], []⟩).length ≤
        (MqttCall.after [.opens "a"]).inbound.filtersInUse.length :=
  have refused : Step ⟨after [.opens "a"], []⟩ (.reconnect fun _ => false) ⟨after [.opens "a"], []⟩ := by
    show (_ : HeldHandles) = _
    decide +kernel
  have run : Run Step start [.call (.opens "a"), .reconnect fun _ => false] ⟨after [.opens "a"], []⟩ :=
    .snoc (.snoc .nil opened_step) refused
  ⟨run, by decide +kernel, ((handles_bounded_iff run).mpr
    (.snoc (.snoc .nil ⟨trivial, opened_step⟩) ⟨fun _ _ => rfl, refused⟩)).1⟩

/-- Two reconnects leave two handles, which stay when the channel is removed. -/
theorem replayed_handles_stay :
    ∃ s, Run Step start [.call (.opens "a"), .reconnect fun _ => true, .reconnect fun _ => true,
      .call (.removeChannel "a")] s ∧ s.connector.inbound.routes = [] ∧
      s.handles = [MqttCall.plantTopic, MqttCall.plantTopic] := by
  have removed : Step ((replaySubscriptions ⟨after [.opens "a"], []⟩ fun _ => true).replaySubscriptions fun _ => true)
      (.call (.removeChannel "a")) ⟨after [.opens "a", .removeChannel "a"], [plantTopic, plantTopic]⟩ :=
    ⟨⟨trivial, rfl⟩, by decide +kernel⟩
  exact ⟨_,
    .snoc (.snoc (.snoc (.snoc .nil opened_step) (by rfl)) (by rfl)) removed, by decide +kernel, by decide +kernel⟩

end HeldHandles

end Taktora.Mqtt
