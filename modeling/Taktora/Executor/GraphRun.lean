import Mathlib.Data.Nat.Log
import Taktora.Executor.Graph
import Taktora.Lib.Run

namespace Taktora.Exec

def usizeMax : Nat := 0xFFFFFFFFFFFFFFFF

def fetchSub (n : Nat) : Nat := (usizeMax + n) % 2 ^ 64

def wrappingSub (a b : Nat) : Nat := (a + (2 ^ 64 - b)) % 2 ^ 64

def sentinel : Nat := usizeMax

structure ReadyRing where
  buf : List Nat
  head : Nat
  tail : Nat

namespace ReadyRing

def new (minCapacity : Nat) : ReadyRing :=
  { buf := List.replicate (2 ^ Nat.clog 2 (max minCapacity 2)) sentinel, head := 0, tail := 0 }

variable (r : ReadyRing)

def slot (i : Nat) : Nat := i &&& (r.buf.length - 1)

def load (i : Nat) : Nat := r.buf.getD (r.slot i) 0

def store (i v : Nat) : ReadyRing := { r with buf := r.buf.set (r.slot i) v }

def full (tail : Nat) : Bool := r.buf.length ≤ wrappingSub tail r.head

end ReadyRing

structure GraphShared where
  counters : List Nat
  pending : Nat
  stopFlag : Bool
  stopChainSeen : Bool
  firstErr : Option ItemError
  readyRing : ReadyRing

namespace GraphShared

variable (m : GraphShared)

def countDown : GraphShared := { m with pending := fetchSub m.pending }

def setCounter (u value : Nat) : GraphShared := { m with counters := m.counters.set u value }

def counter (u : Nat) : Nat := m.counters.getD u 0

end GraphShared

inductive JobPc where
  | queued
  /-- Leaves `pending` in `finalise_skipped`. -/
  | skipping
  | running
  | chainStopping
  | stopping (error : Option ItemError)
  | failing (error : ItemError)
  /-- Leaves `pending` after the item has run. -/
  | completing
  | deciding
  /-- Marks `u` in `cancel_subtree`. The rest are the successors to cancel afterwards. -/
  | cancelling (u : Nat) (stack rest : List Nat)
  | counting (u : Nat) (stack rest : List Nat)
  | releasing (j : Nat) (rest : List Nat)
  | loadingTail (j : Nat) (rest : List Nat)
  | loadingHead (j : Nat) (rest : List Nat) (tail : Nat)
  | reserving (j : Nat) (rest : List Nat) (tail : Nat)
  | storing (j : Nat) (rest : List Nat) (tail : Nat)
  | ended
deriving DecidableEq

inductive Op where
  | skips
  | begins
  | skipped (last : Bool)
  | returns (result : ExecuteResult)
  | seesChain
  | stops
  | records (error : ItemError)
  | completes (last : Bool)
  | withholds
  | proceeds
  | swaps (u : Nat) (fresh : Bool)
  | cancels (u : Nat) (last : Bool)
  | releases (j : Nat) (ready : Bool)
  | loadsTail (tail : Nat)
  | loadsHead (tail : Nat)
  | overflows (tail : Nat)
  | reserves (j tail : Nat)
  | loses (tail : Nat)
  | stores (j tail : Nat)
deriving DecidableEq

def Op.aborts : Op → Bool
  | .overflows _ => true
  | _ => false

def cancelNext : List Nat → List Nat → JobPc
  | u :: stack, rest => .cancelling u stack rest
  | [], j :: rest => .cancelling j [] rest
  | [], [] => .ended

def releaseNext : List Nat → JobPc
  | j :: rest => .releasing j rest
  | [] => .ended

namespace Graph

def vertexJob (g : Graph) (v : Nat) (result : ExecuteResult) (m : GraphShared) : JobPc →
    Option (Op × GraphShared × JobPc)
  | .queued => some (if m.stopFlag then (.skips, m, .skipping) else (.begins, m, .running))
  | .skipping =>
    some (if m.pending = 1 then (.skipped true, m.countDown, .ended)
      else (.skipped false, m.countDown, cancelNext [] (g.succ v)))
  | .running =>
    some (.returns result, m,
      match result with
      | .ok .proceed => .completing
      | .ok .stopChain => .chainStopping
      | .error e => .stopping (some e))
  | .chainStopping => some (.seesChain, { m with stopChainSeen := true }, .stopping none)
  | .stopping none => some (.stops, { m with stopFlag := true }, .completing)
  | .stopping (some e) => some (.stops, { m with stopFlag := true }, .failing e)
  | .failing e => some (.records e, { m with firstErr := m.firstErr.or (some e) }, .completing)
  | .completing =>
    some (if m.pending = 1 then (.completes true, m.countDown, .ended) else (.completes false, m.countDown, .deciding))
  | .deciding =>
    some (if m.stopFlag then (.withholds, m, cancelNext [] (g.succ v)) else (.proceeds, m, releaseNext (g.succ v)))
  | .cancelling u stack rest =>
    some (if m.counter u ≠ usizeMax then (.swaps u true, m.setCounter u usizeMax, .counting u stack rest)
      else (.swaps u false, m.setCounter u usizeMax, cancelNext stack rest))
  | .counting u stack rest =>
    some (if m.pending = 1 then (.cancels u true, m.countDown, cancelNext [] rest)
      else (.cancels u false, m.countDown, cancelNext ((g.succ u).reverse ++ stack) rest))
  | .releasing j rest =>
    some (if m.counter j = 1 then (.releases j true, m.setCounter j (fetchSub (m.counter j)), .loadingTail j rest)
      else (.releases j false, m.setCounter j (fetchSub (m.counter j)), releaseNext rest))
  | .loadingTail j rest => some (.loadsTail m.readyRing.tail, m, .loadingHead j rest m.readyRing.tail)
  | .loadingHead j rest tail =>
    some (if m.readyRing.full tail then (.overflows tail, m, .ended) else (.loadsHead tail, m, .reserving j rest tail))
  | .reserving j rest tail =>
    some (if m.readyRing.tail = tail then
        (.reserves j tail, { m with readyRing := { m.readyRing with tail := (tail + 1) % 2 ^ 64 } },
          .storing j rest tail)
      else (.loses tail, m, .loadingTail j rest))
  | .storing j rest tail =>
    some (.stores j tail, { m with readyRing := m.readyRing.store tail j }, releaseNext rest)
  | .ended => none

end Graph

structure VertexJob where
  vertex : Nat
  pc : JobPc
deriving DecidableEq

inductive DispatcherPc where
  | seeding (i : Nat)
  | loadingHead (drain : Bool)
  | loadingTail (head : Nat) (drain : Bool)
  | loadingSlot (head : Nat) (drain : Bool)
  | clearing (head v : Nat) (drain : Bool)
  | advancing (head v : Nat) (drain : Bool)
  | dispatching (v : Nat)
  | checking
  | rechecking
  | waiting
  | takingErr
  | loadingChain (error : Option ItemError)
  | returned (error : Option ItemError) (stoppedChain : Bool)
deriving DecidableEq

structure GraphRun where
  shared : GraphShared
  jobs : List VertexJob
  dispatcher : DispatcherPc
  aborted : Bool
  log : List (Nat × Op)
  popped : List Nat

namespace GraphRun

variable (s : GraphRun)

def dispatchVertex (v : Nat) : GraphRun := { s with jobs := s.jobs ++ [⟨v, .queued⟩] }

def busy (v : Nat) : Bool := s.jobs.any fun job => job.vertex = v ∧ job.pc ≠ .queued ∧ job.pc ≠ .ended

def afterJob (k v : Nat) (stepped : Op × GraphShared × JobPc) : GraphRun :=
  { s with
    shared := stepped.2.1, jobs := s.jobs.set k ⟨v, stepped.2.2⟩, log := s.log ++ [(v, stepped.1)]
    aborted := stepped.1.aborts }

def jumps (pc : DispatcherPc) : GraphRun := { s with dispatcher := pc }

def withRing (ring : ReadyRing) : GraphRun := { s with shared := { s.shared with readyRing := ring } }

end GraphRun

namespace Graph

variable (g : Graph)

def started : GraphRun where
  shared :=
    { counters := g.inDegree, pending := g.size, stopFlag := false, stopChainSeen := false, firstErr := none
      readyRing := .new g.size }
  jobs := []
  dispatcher := .seeding 0
  aborted := false
  log := []
  popped := []

variable (s : GraphRun)

def jobStep (k : Nat) (result : ExecuteResult) : Option GraphRun :=
  s.jobs[k]?.bind fun job =>
    if job.pc = .queued ∧ s.busy job.vertex then some { s with aborted := true }
    else (g.vertexJob job.vertex result s.shared job.pc).map (s.afterJob k job.vertex)

def dispatcherStep : Option GraphRun :=
  match s.dispatcher with
  | .seeding i =>
    some (if i < g.size then
        if g.degree i = 0 then (s.dispatchVertex i).jumps (.seeding (i + 1)) else s.jumps (.seeding (i + 1))
      else s.jumps (.loadingHead false))
  | .loadingHead drain => some (s.jumps (.loadingTail s.shared.readyRing.head drain))
  | .loadingTail head drain =>
    some (s.jumps (if head = s.shared.readyRing.tail then (if drain then .takingErr else .checking)
      else .loadingSlot head drain))
  | .loadingSlot head drain =>
    let v := s.shared.readyRing.load head
    some (if v = sentinel then s else { s.jumps (.clearing head v drain) with popped := s.popped ++ [v] })
  | .clearing head v drain =>
    some ((s.withRing (s.shared.readyRing.store head sentinel)).jumps (.advancing head v drain))
  | .advancing head v drain =>
    some ((s.withRing { s.shared.readyRing with head := (head + 1) % 2 ^ 64 }).jumps
      (if drain then .loadingHead true else .dispatching v))
  | .dispatching v => some ((s.dispatchVertex v).jumps (.loadingHead false))
  | .checking => some (s.jumps (if s.shared.pending = 0 then .loadingHead true else .rechecking))
  | .rechecking => some (s.jumps (if s.shared.pending = 0 then .loadingHead true else .waiting))
  | .waiting => some (s.jumps (.loadingHead false))
  | .takingErr =>
    some { s with dispatcher := .loadingChain s.shared.firstErr, shared := { s.shared with firstErr := none } }
  | .loadingChain error => some (s.jumps (.returned error s.shared.stopChainSeen))
  | .returned _ _ => none

inductive Turn where
  | job (k : Nat) (result : ExecuteResult)
  | dispatcher
deriving DecidableEq

def act (turn : Turn) : Option GraphRun :=
  if s.aborted then none
  else
    match turn with
    | .job k result => g.jobStep s k result
    | .dispatcher => g.dispatcherStep s

def Step (turn : Turn) (s' : GraphRun) : Prop := g.act s turn = some s'

end Graph

end Taktora.Exec
