import Taktora.Core.Subscribers

namespace Taktora

open HealthCall

inductive SessionState where
  | connecting
  | alive
  | closed (reason : String)

variable (peerCount : Nat) (minPeers : Option Nat)

def SessionState.target : SessionState → ConnectorHealth
  | connecting => .connecting
  | alive => match minPeers with
    | some floor => if peerCount < floor then
        .degraded ("linked peers " ++ toString peerCount ++ " < min_peers " ++ toString floor) else .up
    | none => .up
  | closed reason => .down reason

def SessionState.documented : SessionState → ConnectorHealthKind
  | connecting => .connecting
  | alive => if minPeers.all (· ≤ peerCount) then .up else .degraded
  | closed _ => .down

theorem target_kind (state : SessionState) :
    (state.target peerCount minPeers).kind = state.documented peerCount minPeers := by
  cases state with
  | connecting | closed => rfl
  | alive =>
    cases minPeers with
    | none => rfl
    | some floor =>
      by_cases few : peerCount < floor
      · simp [SessionState.documented, SessionState.target, few, ConnectorHealth.kind]
      · simp [SessionState.documented, SessionState.target, few, ConnectorHealth.kind, Nat.not_lt.mp few]

def Ignored (before target : ConnectorHealthKind) : Prop :=
  (before = .up ∧ target = .connecting) ∨ (before = .down ∧ (target = .up ∨ target = .degraded))

theorem observed_kind (target : ConnectorHealth) (m : HealthMonitor) :
    ((applyObservation target).critical m).2.2.current.kind = target.kind ↔ ¬ Ignored m.current.kind target.kind := by
  obtain ⟨current⟩ := m
  cases current <;> cases target <;>
    simp [critical, bridge, bridged, HealthMonitor.tryTransitionTo, ConnectorHealth.kind, isLegalTransition, Ignored]

theorem inner_of_enter {kind : FanOut} {f f' : Fan} {i : Nat} {call : HealthCall}
    (entering : f.tasks[i]? = some (.enter call))
    (stepped : f.act kind (.step i) = some f') : f'.inner = (call.critical f.inner).2.2 := by
  rw [Fan.act, entering, Option.map_some, Fan.advance] at stepped
  rcases critical_cases (m := f.inner) call with quiet | ⟨_, _, changed, _⟩
  · obtain ⟨_, same⟩ := Fan.foldl_store f (call.stores kind none)
    simp only [quiet, List.append_nil, same] at stepped ⊢
    cases stepped
    rfl
  · rw [changed] at stepped ⊢
    cases stepped
    rfl

/-- The health follows an observation except from `Up` to `Connecting` and from `Down` to `Up` or `Degraded`. -/
theorem observation_followed_iff {f f' : Fan} {i : Nat} (peerCount : Nat) (minPeers : Option Nat) (state : SessionState)
    (entering : f.tasks[i]? = some (.enter (.applyObservation (state.target peerCount minPeers))))
    (stepped : f.act .zenoh (.step i) = some f') :
    f'.inner.current.kind = state.documented peerCount minPeers ↔
      ¬ Ignored f.inner.current.kind (state.documented peerCount minPeers) := by
  rw [← target_kind, ← observed_kind, inner_of_enter entering stepped]

def EachObservation (holds : ConnectorHealthKind → Fan → Fan → Prop) (f : Fan) (action : FanAction) (f' : Fan) : Prop :=
  f.act .zenoh action = some f' ∧ ∀ i peerCount minPeers (state : SessionState), action = .step i →
    f.tasks[i]? = some (.enter (.applyObservation (state.target peerCount minPeers))) →
    holds (state.documented peerCount minPeers) f f'

/-- A run follows every observation exactly if it comes to none that is ignored. -/
theorem observations_followed_run {actions : List FanAction} {f : Fan} :
    Run (EachObservation fun kind _ f' => f'.inner.current.kind = kind) .new actions f ↔
      Run (EachObservation fun kind f _ => ¬ Ignored f.inner.current.kind kind) .new actions f := by
  have same : EachObservation (fun kind _ f' => f'.inner.current.kind = kind) =
      EachObservation (fun kind f _ => ¬ Ignored f.inner.current.kind kind) := by
    funext f action f'
    refine propext (and_congr_right fun acted => forall₄_congr fun i peerCount minPeers state => forall₂_congr ?_)
    rintro rfl entering
    show f'.inner.current.kind = _ ↔ ¬ Ignored _ _
    rw [← target_kind, ← observed_kind, inner_of_enter entering acted]
  rw [same]

def watched : List FanAction :=
  [.call (.applyObservation (SessionState.target 0 none .alive)), .step 0, .step 0, .step 0, .step 0]

theorem first_observation_followed : ∃ f f', Run.follow (Fan.act .zenoh) .new (watched.take 2) = some f ∧
    f.act .zenoh (.step 0) = some f' ∧ f'.inner.current.kind = .up := by
  let f : Fan := ⟨⟨.connecting⟩, [], [], [.enter (.applyObservation .up)], []⟩
  let f' : Fan := ⟨⟨.up⟩, [], [], [.settle [(.drops, false)] ⟨.connecting, .up⟩], [⟨.connecting, .up⟩]⟩
  refine ⟨f, f', by decide +kernel, by decide +kernel, ?_⟩
  exact (observation_followed_iff (f := f) (i := 0) 0 none .alive rfl (by decide +kernel)).mpr
    (by simp [Ignored, f, ConnectorHealth.kind])

theorem reopened_session_ignored :
    (∃ f, Run.follow (Fan.act .zenoh) .new ([.call (.applyObservation (SessionState.target 0 none (.closed "gone"))),
      .step 0, .step 0, .step 0] ++ watched.take 3) = some f ∧ f.tasks = [] ∧ f.inner.current.kind = .down) ∧
      ∃ f,
      Run.follow (Fan.act .zenoh) .new (watched ++ [.call (.applyObservation (SessionState.target 0 none .connecting)),
      .step 0, .step 0]) = some f ∧ f.tasks = [] ∧ f.inner.current.kind = .up := by
  constructor
  · exact ⟨⟨⟨.down "gone"⟩, [], [], [], [⟨.connecting, .down "gone"⟩]⟩, by decide +kernel, rfl, rfl⟩
  · exact ⟨⟨⟨.up⟩, [], [], [], [⟨.connecting, .up⟩]⟩, by decide +kernel, rfl, rfl⟩

end Taktora
