import Taktora.Lib.Run
import Taktora.Lib.Table
import Taktora.Can.Driver
import Taktora.Core.Health

namespace Taktora.Can

def ifnamsizMinusOne : Nat := 15

def CanIface.allowed (b : UInt8) : Bool := b < 0x7F ∧ b > 0x20 ∧ b ≠ 0x2F

structure CanIface where
  bytes : List UInt8
  valid : bytes ≠ [] ∧ bytes.length ≤ ifnamsizMinusOne ∧ ∀ b ∈ bytes, CanIface.allowed b = true
deriving DecidableEq

def CanIface.asStr (iface : CanIface) : String := String.ofList (iface.bytes.map fun b => Char.ofNat b.toNat)

structure CanHealthMonitor where
  aggregated : HealthMonitor
  ifaces : Table CanIface IfaceHealthKind
  degradedDueToDrops : Bool
  broadcasts : List HealthEvent

def countKind (ifaces : Table CanIface IfaceHealthKind) (kind : IfaceHealthKind) : Nat :=
  (ifaces.matching (· == kind)).length

def aggregate (ifaces : Table CanIface IfaceHealthKind) (triggeringIface : CanIface) : ConnectorHealth :=
  if ifaces.size = 0 then .connecting
  else if countKind ifaces .down = ifaces.size then
    .down ("all ifaces down (latest: " ++ triggeringIface.asStr ++ ")")
  else if countKind ifaces .up = 0 ∧ countKind ifaces .degraded = 0 then .connecting
  else if countKind ifaces .degraded > 0 ∨ countKind ifaces .down > 0 then
    .degraded ("iface " ++ triggeringIface.asStr ++ " sub-state degraded or down")
  else .up

namespace CanHealthMonitor

def new (ifaces : List CanIface) : CanHealthMonitor :=
  { aggregated := .new, ifaces := ifaces.foldl (fun table iface => table.insert iface .connecting) ∅
    degradedDueToDrops := false, broadcasts := [] }

def current (m : CanHealthMonitor) : ConnectorHealth := m.aggregated.current

variable (m : CanHealthMonitor)

def ifaceKind (iface : CanIface) : Option IfaceHealthKind := m.ifaces.lookup iface

def broadcast (event : HealthEvent) : CanHealthMonitor :=
  { m with broadcasts := m.broadcasts ++ [event] }

/-- The interface is updated before the transition is tried, and stays updated when it is illegal. -/
def setIface (iface : CanIface) (kind : IfaceHealthKind) :
    Except IllegalTransition (Option HealthEvent) × CanHealthMonitor :=
  let m := { m with ifaces := m.ifaces.insert iface kind }
  let target := aggregate m.ifaces iface
  if m.current.kind = target.kind then (.ok none, m)
  else match m.aggregated.tryTransitionTo target with
    | (.error e, _) => (.error e, m)
    | (.ok event, aggregated) =>
      let m := { m with aggregated }
      let m := if event.target.kind = .up then { m with degradedDueToDrops := false } else m
      (.ok (some event), m.broadcast event)

def recordInboundDrop (count threshold : Nat) : Option HealthEvent × CanHealthMonitor :=
  if count < threshold ∨ m.degradedDueToDrops then (none, m)
  else if m.current.kind ≠ .up then (none, { m with degradedDueToDrops := true })
  else match m.aggregated.tryTransitionTo (.degraded ("dropped " ++ toString count ++ " inbound frames")) with
    | (.error _, _) => (none, m)
    | (.ok event, aggregated) => (some event, { m with aggregated, degradedDueToDrops := true }.broadcast event)

inductive Call where
  | setIface (iface : CanIface) (kind : IfaceHealthKind)
  | recordInboundDrop (count threshold : Nat)

def call : Call → CanHealthMonitor
  | .setIface iface kind => (m.setIface iface kind).2
  | .recordInboundDrop count threshold => (m.recordInboundDrop count threshold).2

def Refuses : Call → Prop
  | .setIface iface kind =>
    m.current.kind ≠ (aggregate (m.ifaces.insert iface kind) iface).kind ∧
      isLegalTransition m.current.kind (aggregate (m.ifaces.insert iface kind) iface).kind = false
  | .recordInboundDrop _ _ => False

def LegalStep (c : Call) (m' : CanHealthMonitor) : Prop := ¬ m.Refuses c ∧ m' = m.call c

/-- What is reported is the aggregate of the interfaces, or `Degraded` instead of `Up` because of dropped frames. -/
def Tracks : Prop :=
  ∀ iface, m.current.kind = (aggregate m.ifaces iface).kind ∨
    (m.degradedDueToDrops = true ∧ m.current.kind = .degraded ∧ (aggregate m.ifaces iface).kind = .up)

end CanHealthMonitor

section Aggregate

variable {ifaces : Table CanIface IfaceHealthKind}

theorem aggregate_kind (iface other : CanIface) : (aggregate ifaces iface).kind = (aggregate ifaces other).kind := by
  unfold aggregate
  split
  · rfl
  split
  · rfl
  split
  · rfl
  split <;> rfl

theorem aggregate_up {iface : CanIface} (up : (aggregate ifaces iface).kind = .up) :
    ∃ other, ifaces.lookup other = some .up := by
  unfold aggregate at up
  split at up
  · cases up
  split at up
  · cases up
  split at up
  · cases up
  rename_i busy
  split at up
  · cases up
  have present : 0 < countKind ifaces .up := by
    by_contra _
    exact busy ⟨by omega, by omega⟩
  obtain ⟨_, member⟩ := List.exists_mem_of_length_pos present
  obtain ⟨entry, found, _⟩ := List.mem_map.mp member
  obtain ⟨held, same⟩ := List.mem_filter.mp found
  refine ⟨entry.1, ?_⟩
  rw [Table.lookup_eq_some_iff, ← beq_iff_eq.mp same]
  exact held

theorem aggregate_connecting {iface : CanIface} (all : ifaces.Forall fun _ kind => kind = .connecting) :
    (aggregate ifaces iface).kind = .connecting := by
  have none (kind : IfaceHealthKind) (other : kind ≠ .connecting) : countKind ifaces kind = 0 := by
    rw [countKind, Table.matching_eq_nil]
    · rfl
    · intro key value found
      rw [all key value found]
      exact beq_eq_false_iff_ne.mpr other.symm
  unfold aggregate
  split
  · rfl
  rename_i some
  rw [none .down (by decide), none .up (by decide), none .degraded (by decide), if_neg (Ne.symm some)]
  rfl

end Aggregate

namespace CanHealthMonitor

variable {m m' : CanHealthMonitor} {iface : CanIface} {kind : IfaceHealthKind}

theorem setIface_ifaces (m : CanHealthMonitor) (iface : CanIface) (kind : IfaceHealthKind) :
    (m.setIface iface kind).2.ifaces = m.ifaces.insert iface kind := by
  unfold setIface
  dsimp only
  split
  · rfl
  split
  · rfl
  · split <;> rfl

theorem replay_ifaceKind (kinds : List IfaceHealthKind) (start : m.ifaceKind iface = some kind) :
    (kinds.foldl (fun m kind => (m.setIface iface kind).2) m).ifaceKind iface = some (kinds.getLast?.getD kind) := by
  induction kinds generalizing m kind with
  | nil => exact start
  | cons next rest ih =>
    have reported : (m.setIface iface next).2.ifaceKind iface = some next := by
      rw [ifaceKind, setIface_ifaces]
      exact AList.lookup_insert _
    rw [List.getLast?_cons]
    exact ih reported

theorem setIface_kind (allowed : ¬ m.Refuses (.setIface iface kind)) :
    (m.setIface iface kind).2.current.kind = (aggregate (m.ifaces.insert iface kind) iface).kind := by
  unfold setIface
  dsimp only
  split
  · rename_i same
    exact same
  · rename_i changed
    have legal : isLegalTransition m.current.kind (aggregate (m.ifaces.insert iface kind) iface).kind = true := by
      by_contra illegal
      exact allowed ⟨changed, Bool.eq_false_iff.mpr illegal⟩
    rw [HealthMonitor.tryTransitionTo_legal legal]
    dsimp only [broadcast]
    split <;> rfl

theorem Tracks.setIface (allowed : ¬ m.Refuses (.setIface iface kind)) : (m.setIface iface kind).2.Tracks := by
  intro other
  rw [setIface_kind allowed, setIface_ifaces]
  exact .inl (aggregate_kind iface other)

theorem Tracks.recordInboundDrop (tracks : m.Tracks) (count threshold : Nat) :
    (m.recordInboundDrop count threshold).2.Tracks := by
  unfold CanHealthMonitor.recordInboundDrop
  split
  · exact tracks
  split
  · intro iface
    exact (tracks iface).imp_right fun latched => ⟨rfl, latched.2⟩
  · rename_i unlatched up
    have up : m.aggregated.current.kind = .up := not_not.mp up
    rw [HealthMonitor.tryTransitionTo_legal (by rw [up]; rfl)]
    intro iface
    rcases tracks iface with same | ⟨_, degraded, _⟩
    · exact .inr ⟨rfl, rfl, same.symm.trans up⟩
    · cases up.symm.trans degraded

theorem Tracks.step {c : Call} (tracks : m.Tracks) (step : m.LegalStep c m') : m'.Tracks := by
  obtain ⟨allowed, rfl⟩ := step
  cases c with
  | setIface iface kind => exact .setIface allowed
  | recordInboundDrop count threshold => exact tracks.recordInboundDrop count threshold

theorem new_connecting (ifaces : List CanIface) : (new ifaces).ifaces.Forall fun _ kind => kind = .connecting := by
  have fold (table : Table CanIface IfaceHealthKind) (all : table.Forall fun _ kind => kind = .connecting) :
      (ifaces.foldl (fun table iface => table.insert iface .connecting) table).Forall
        fun _ kind => kind = .connecting := by
    induction ifaces generalizing table with
    | nil => exact all
    | cons iface rest ih => exact ih _ (all.insert rfl)
  exact fold ∅ (Table.forall_empty _)

variable {ifaces : List CanIface} {history : List Call}

/-- As long as no transition is refused, the connector reports the aggregate of its interfaces. -/
theorem legal_run_tracks_interfaces (run : Run LegalStep (new ifaces) history m) :
    m.Tracks ∧ (m.current.kind = .up → ∃ iface, m.ifaceKind iface = some .up) := by
  have start : (new ifaces).Tracks := fun iface => .inl (aggregate_connecting (new_connecting ifaces)).symm
  have tracks : m.Tracks := run.invariant start fun _ _ _ tracks step => tracks.step step
  refine ⟨tracks, ?_⟩
  intro up
  rcases tracks ⟨[0x30], by simp [ifnamsizMinusOne, CanIface.allowed]⟩ with same | ⟨_, degraded, _⟩
  · exact aggregate_up (same.symm.trans up)
  · cases up.symm.trans degraded

def vcan0 : CanIface := ⟨[0x76, 0x63, 0x61, 0x6E, 0x30], by simp [ifnamsizMinusOne, CanIface.allowed]⟩

def vcan1 : CanIface := ⟨[0x76, 0x63, 0x61, 0x6E, 0x31], by simp [ifnamsizMinusOne, CanIface.allowed]⟩

theorem legal_run_tracks_interfaces_bring_up :
    let m := (new [vcan0, vcan1]).call (.setIface vcan0 .up)
    m.current.kind = .up ∧ m.Tracks ∧ ∃ iface, m.ifaceKind iface = some .up := by
  have allowed : ¬ (new [vcan0, vcan1]).Refuses (.setIface vcan0 .up) := fun refused => absurd refused.2 (by decide)
  have run : Run LegalStep (new [vcan0, vcan1]) _ _ := Run.nil.snoc ⟨allowed, rfl⟩
  obtain ⟨tracks, reported⟩ := legal_run_tracks_interfaces run
  exact ⟨by decide, tracks, reported (by decide)⟩

/-- The only interface that is up goes down while another is still connecting: the connector stays up. -/
theorem lost_interface_still_reported_up :
    let up := (new [vcan0, vcan1]).call (.setIface vcan0 .up)
    let m := up.call (.setIface vcan0 .down)
    (up.setIface vcan0 .down).1 = .error ⟨.up, .connecting⟩ ∧ m.current.kind = .up ∧
      (aggregate m.ifaces vcan0).kind = .connecting ∧ countKind m.ifaces .up = 0 := by
  decide

end CanHealthMonitor

end Taktora.Can
