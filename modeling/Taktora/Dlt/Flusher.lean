import Mathlib.Logic.Function.Basic
import Taktora.Lib.Run

namespace Taktora.Dlt

open List

def PRODUCER_QUEUE_CAP : Nat := 4096

def DEFAULT_RING_CAPACITY : Nat := 512

structure OfflineRing (R : Type) where
  inner : List R
  capacity : Nat
  drops : Nat
  capacity_pos : 0 < capacity
  within : inner.length ≤ capacity

namespace OfflineRing

variable {R : Type}

def withCapacity (capacity : Nat) (capacity_pos : 0 < capacity) : OfflineRing R where
  inner := []
  capacity := capacity
  drops := 0
  capacity_pos := capacity_pos
  within := Nat.zero_le capacity

def pushed (capacity : Nat) (inner : List R) (bytes : R) : List R :=
  (if inner.length = capacity then inner.tail else inner) ++ [bytes]

theorem pushed_length_le {capacity : Nat} {inner : List R} (capacity_pos : 0 < capacity)
    (within : inner.length ≤ capacity) (bytes : R) : (pushed capacity inner bytes).length ≤ capacity := by
  unfold pushed
  split <;> simp only [length_append, length_tail, length_singleton] <;> omega

variable (r : OfflineRing R)

def push (bytes : R) : OfflineRing R where
  inner := pushed r.capacity r.inner bytes
  capacity := r.capacity
  drops := if r.inner.length = r.capacity then r.drops + 1 else r.drops
  capacity_pos := r.capacity_pos
  within := pushed_length_le r.capacity_pos r.within bytes

def drained : OfflineRing R where
  inner := []
  capacity := r.capacity
  drops := 0
  capacity_pos := r.capacity_pos
  within := Nat.zero_le r.capacity

def drainAll : List R × OfflineRing R := (r.inner, r.drained)

theorem push_counts (bytes : R) :
    (r.push bytes).inner.length + (r.push bytes).drops = r.inner.length + r.drops + 1 := by
  have capacity_pos := r.capacity_pos
  unfold push pushed
  split <;> simp only [length_append, length_tail, length_singleton] <;> omega

theorem drops_le_push (bytes : R) : r.drops ≤ (r.push bytes).drops := by
  show r.drops ≤ if r.inner.length = r.capacity then r.drops + 1 else r.drops
  split <;> omega

theorem push_of_room {r : OfflineRing R} (room : r.inner.length ≠ r.capacity) (bytes : R) :
    (r.push bytes).inner = r.inner ++ [bytes] := by
  show pushed r.capacity r.inner bytes = _
  rw [pushed, if_neg room]

end OfflineRing

inductive Frame (R : Type) where
  | record (bytes : R)
  | dropSummary (count : Nat)
deriving DecidableEq, Repr

structure Write (R : Type) where
  frame : Frame R
  ok : Bool
deriving DecidableEq, Repr

def Write.delivered {R : Type} : Write R → Option R
  | ⟨.record bytes, true⟩ => some bytes
  | _ => none

inductive Phase (R : Type) where
  | loop
  | connect
  | snapshot
  | summary (drops : Nat)
  | drain (reported : Nat)
  | send (left : List R)
  | rebuffer (left : List R)
  | receive
  | handle (bytes : R)
  | buffer (bytes : R)
  | idle
  | exited
deriving DecidableEq, Repr

def Phase.exits {R : Type} : Phase R → Bool
  | .exited => true
  | _ => false

def Phase.held {R : Type} : Phase R → List R
  | .send left | .rebuffer left => left
  | .handle bytes | .buffer bytes => [bytes]
  | _ => []

/-- A producer holds the record that the channel refused until it has pushed it into the ring. -/
structure DltBackend (R : Type) where
  ring : OfflineRing R
  channel : List R
  phase : Phase R
  connected : Bool
  stop : Bool
  closed : Bool
  refused : Nat → Option R
  accepted : List R
  writes : List (Write R)

inductive DltEvent (R : Type) where
  | trySend (producer : Nat) (bytes : R)
  | pushRefused (producer : Nat)
  | shutdown
  | dropSender
  | flusher (ok : Bool)
deriving DecidableEq, Repr

namespace DltBackend

variable {R : Type} (ringCapacity : Nat)

def effectiveCapacity : Nat := if ringCapacity = 0 then DEFAULT_RING_CAPACITY else ringCapacity

theorem effectiveCapacity_pos : 0 < effectiveCapacity ringCapacity := by
  unfold effectiveCapacity
  split
  · exact Nat.zero_lt_succ _
  · omega

def build : DltBackend R where
  ring := .withCapacity (effectiveCapacity ringCapacity) (effectiveCapacity_pos ringCapacity)
  channel := []
  phase := .loop
  connected := false
  stop := false
  closed := false
  refused := fun _ => none
  accepted := []
  writes := []

variable (s : DltBackend R)

def refuses : Bool := s.phase.exits || s.channel.length = PRODUCER_QUEUE_CAP

def trySend (producer : Nat) (bytes : R) : DltBackend R :=
  if s.refuses then { s with refused := Function.update s.refused producer (some bytes) }
  else { s with channel := s.channel ++ [bytes], accepted := s.accepted ++ [bytes] }

def pushRefused (producer : Nat) (bytes : R) : DltBackend R :=
  { s with
    ring := s.ring.push bytes
    refused := Function.update s.refused producer none
    accepted := s.accepted ++ [bytes] }

def goto (phase : Phase R) : DltBackend R := { s with phase }

def exit : DltBackend R := { s with phase := .exited, channel := [] }

def write (frame : Frame R) (ok : Bool) (next : Phase R) : DltBackend R :=
  { s with writes := s.writes ++ [⟨frame, ok⟩], phase := next }

def check : DltBackend R :=
  if s.stop then s.exit else if s.connected then s.goto .receive else s.goto .connect

/-- `emit_drop_summary`: the counter is read, and a summary is owed if it is not 0. -/
def snapshot : DltBackend R :=
  if 0 < s.ring.drops then s.goto (.summary s.ring.drops) else s.goto (.drain 0)

/-- `drain_ring_into_transport` takes the whole ring. -/
def drain : DltBackend R :=
  { s with ring := s.ring.drainAll.2, phase := .send s.ring.drainAll.1 }

/-- A step of the loop over the drained records; the transport is adopted after the last one. -/
def send (s : DltBackend R) (ok : Bool) : List R → DltBackend R
  | [] => { s with connected := true, phase := .receive }
  | bytes :: rest => s.write (.record bytes) ok (if ok then .send rest else .rebuffer (bytes :: rest))

def rebuffer (s : DltBackend R) : List R → DltBackend R
  | [] => { s with connected := false, phase := .receive }
  | bytes :: rest => { s with ring := s.ring.push bytes, phase := .rebuffer rest }

def receive : DltBackend R :=
  match s.channel with
  | bytes :: rest => { s with channel := rest, phase := .handle bytes }
  | [] => if s.closed then s.exit else s.goto .idle

def handle (bytes : R) (ok : Bool) : DltBackend R :=
  if s.connected then s.write (.record bytes) ok (if ok then .loop else .buffer bytes) else s.goto (.buffer bytes)

def buffer (bytes : R) : DltBackend R :=
  { s with ring := s.ring.push bytes, connected := false, phase := .loop }

def handleIdle (ok : Bool) : DltBackend R := { s with connected := s.connected && ok, phase := .loop }

def flush (ok : Bool) : Phase R → Option (DltBackend R)
  | .loop => some s.check
  | .connect => some (s.goto (if ok then .snapshot else .loop))
  | .snapshot => some s.snapshot
  | .summary drops => some (s.write (.dropSummary drops) ok (if ok then .drain drops else .loop))
  | .drain _ => some s.drain
  | .send left => some (s.send ok left)
  | .rebuffer left => some (s.rebuffer left)
  | .receive => some s.receive
  | .handle bytes => some (s.handle bytes ok)
  | .buffer bytes => some (s.buffer bytes)
  | .idle => some (s.handleIdle ok)
  | .exited => none

def act : DltEvent R → Option (DltBackend R)
  | .trySend producer bytes =>
    if s.closed = false ∧ (s.refused producer).isNone then some (s.trySend producer bytes) else none
  | .pushRefused producer => (s.refused producer).map (s.pushRefused producer)
  | .shutdown => some { s with stop := true }
  | .dropSender => some { s with closed := true }
  | .flusher ok => s.flush ok s.phase

def Step (event : DltEvent R) (s' : DltBackend R) : Prop := s.act event = some s'

def written : List R := s.writes.filterMap Write.delivered

theorem follow_trySend {s : DltBackend R} {producer : Nat} (runs : s.phase.exits = false) (opened : s.closed = false)
    (free : s.refused producer = none) {sent : List R} (room : s.channel.length + sent.length ≤ PRODUCER_QUEUE_CAP) :
    Run.follow act s (sent.map (.trySend producer)) =
      some { s with channel := s.channel ++ sent, accepted := s.accepted ++ sent } := by
  induction sent generalizing s with
  | nil => simp [Run.follow]
  | cons bytes rest ih =>
    have accepts : s.refuses = false := by
      have short : s.channel.length ≠ PRODUCER_QUEUE_CAP := by
        rw [length_cons] at room
        omega
      simp [refuses, runs, short]
    have sends : s.act (.trySend producer bytes) =
        some { s with channel := s.channel ++ [bytes], accepted := s.accepted ++ [bytes] } := by
      simp [act, trySend, opened, free, accepts]
    have later := @ih { s with channel := s.channel ++ [bytes], accepted := s.accepted ++ [bytes] } runs opened free (by
      simp only [length_append, length_cons, length_nil] at room ⊢
      omega)
    unfold Run.follow at later ⊢
    rw [map_cons, foldlM_cons, sends]
    simpa using later

def filled (sent : List R) : DltBackend R :=
  { (build ringCapacity : DltBackend R) with channel := sent, accepted := sent }

theorem follow_filled {sent : List R} (room : sent.length ≤ PRODUCER_QUEUE_CAP) :
    Run.follow act (build ringCapacity) (sent.map (.trySend 0)) = some (filled ringCapacity sent) :=
  follow_trySend rfl rfl rfl (Nat.le_trans (Nat.le_of_eq (Nat.zero_add _)) room)

end DltBackend

end Taktora.Dlt
