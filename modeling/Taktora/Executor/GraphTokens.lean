import Taktora.Executor.GraphTrail

namespace Taktora.Exec

open List DispatcherPc GraphRun

def own (v : Nat) (log : List (Nat × Op)) : List Op := (log.filter (·.1 == v)).map (·.2)

def logged (f : Op → List Nat) (log : List (Nat × Op)) : List Nat := log.flatMap fun entry => f entry.2

section Logs

variable {v w n : Nat} {op : Op} {log : List (Nat × Op)} {f : Op → List Nat}

theorem own_here (v : Nat) (op : Op) (log : List (Nat × Op)) : own v (log ++ [(v, op)]) = own v log ++ [op] := by
  simp [own]

theorem own_other (other : v ≠ w) (op : Op) (log : List (Nat × Op)) : own w (log ++ [(v, op)]) = own w log := by
  simp [own, other]

theorem mem_own : op ∈ own v log ↔ (v, op) ∈ log := by
  simp [own]

theorem logged_snoc (f : Op → List Nat) (log : List (Nat × Op)) (entry : Nat × Op) :
    logged f (log ++ [entry]) = logged f log ++ f entry.2 := by
  rw [logged, flatMap_append, flatMap_singleton]
  rfl

theorem mem_logged {j : Nat} : j ∈ logged f log ↔ ∃ v op, (v, op) ∈ log ∧ j ∈ f op := by
  unfold logged
  simp only [mem_flatMap, Prod.exists]

theorem count_logged (f : Op → List Nat) (inside : ∀ entry ∈ log, entry.1 < n) (j : Nat) :
    (logged f log).count j = ∑ v ∈ Finset.range n, ((own v log).flatMap f).count j := by
  induction log using reverseRecOn with
  | nil => simp [logged, own]
  | append_singleton log entry ih =>
    obtain ⟨before, last⟩ := forall_mem_append.mp inside
    have below : entry.1 < n := last entry (mem_singleton_self entry)
    have each : ∀ v, ((own v (log ++ [entry])).flatMap f).count j =
        ((own v log).flatMap f).count j + if v = entry.1 then (f entry.2).count j else 0 := by
      intro v
      by_cases same : entry.1 = v
      · subst same
        rw [own_here, flatMap_snoc, count_append, if_pos rfl]
      · rw [own_other same, if_neg fun equal => same equal.symm, add_zero]
    rw [logged_snoc, count_append, ih before, Finset.sum_congr rfl fun v _ => each v, Finset.sum_add_distrib,
      Finset.sum_ite_eq', if_pos (Finset.mem_range.mpr below)]

end Logs

inductive Dispatches (g : Graph) (s : GraphRun) : GraphRun → Prop where
  | seeds (i) (here : s.dispatcher = .seeding i) (below : i < g.size) (root : g.degree i = 0) :
      Dispatches g s ((s.dispatchVertex i).jumps (.seeding (i + 1)))
  | passes (i) (here : s.dispatcher = .seeding i) (below : i < g.size) (inner : g.degree i ≠ 0) :
      Dispatches g s (s.jumps (.seeding (i + 1)))
  | seeded (i) (here : s.dispatcher = .seeding i) (all : g.size ≤ i) : Dispatches g s (s.jumps (.loadingHead false))
  | loadsHead (drain) (here : s.dispatcher = .loadingHead drain) :
      Dispatches g s (s.jumps (.loadingTail s.shared.readyRing.head drain))
  | finds (head drain) (here : s.dispatcher = .loadingTail head drain) (more : head ≠ s.shared.readyRing.tail) :
      Dispatches g s (s.jumps (.loadingSlot head drain))
  | empty (head) (here : s.dispatcher = .loadingTail head false) (none : head = s.shared.readyRing.tail) :
      Dispatches g s (s.jumps .checking)
  | drained (head) (here : s.dispatcher = .loadingTail head true) (none : head = s.shared.readyRing.tail) :
      Dispatches g s (s.jumps .takingErr)
  | spins (head drain) (here : s.dispatcher = .loadingSlot head drain)
      (unfilled : s.shared.readyRing.load head = sentinel) : Dispatches g s s
  | takes (head drain) (here : s.dispatcher = .loadingSlot head drain)
      (filled : s.shared.readyRing.load head ≠ sentinel) :
      Dispatches g s
        { s.jumps (.clearing head (s.shared.readyRing.load head) drain) with
          popped := s.popped ++ [s.shared.readyRing.load head] }
  | clears (head v drain) (here : s.dispatcher = .clearing head v drain) :
      Dispatches g s ((s.withRing (s.shared.readyRing.store head sentinel)).jumps (.advancing head v drain))
  | advances (head v) (here : s.dispatcher = .advancing head v false) :
      Dispatches g s ((s.withRing { s.shared.readyRing with head := (head + 1) % 2 ^ 64 }).jumps (.dispatching v))
  | drops (head v) (here : s.dispatcher = .advancing head v true) :
      Dispatches g s ((s.withRing { s.shared.readyRing with head := (head + 1) % 2 ^ 64 }).jumps (.loadingHead true))
  | dispatches (v) (here : s.dispatcher = .dispatching v) :
      Dispatches g s ((s.dispatchVertex v).jumps (.loadingHead false))
  | finishes (here : s.dispatcher = .checking ∨ s.dispatcher = .rechecking) (none : s.shared.pending = 0) :
      Dispatches g s (s.jumps (.loadingHead true))
  | locks (here : s.dispatcher = .checking) (some : s.shared.pending ≠ 0) : Dispatches g s (s.jumps .rechecking)
  | waits (here : s.dispatcher = .rechecking) (some : s.shared.pending ≠ 0) : Dispatches g s (s.jumps .waiting)
  | wakes (here : s.dispatcher = .waiting) : Dispatches g s (s.jumps (.loadingHead false))
  | takesErr (here : s.dispatcher = .takingErr) :
      Dispatches g s
        { s with dispatcher := .loadingChain s.shared.firstErr, shared := { s.shared with firstErr := none } }
  | loadsChain (error) (here : s.dispatcher = .loadingChain error) :
      Dispatches g s (s.jumps (.returned error s.shared.stopChainSeen))

theorem dispatcherStep_sound {g : Graph} {s s' : GraphRun}
    (step : g.dispatcherStep s = some s') : Dispatches g s s' := by
  unfold Graph.dispatcherStep at step
  generalize here : s.dispatcher = pc at step
  cases pc with
  | seeding i =>
    dsimp only at step
    split at step
    · rename_i below
      split at step
      · rename_i root
        cases step
        exact .seeds i here below root
      · rename_i inner
        cases step
        exact .passes i here below inner
    · rename_i all
      cases step
      exact .seeded i here (not_lt.mp all)
  | loadingHead drain =>
    cases step
    exact .loadsHead drain here
  | loadingTail head drain =>
    cases step
    split
    · rename_i none
      cases drain with
      | false => exact .empty head here none
      | true => exact .drained head here none
    · rename_i more
      exact .finds head drain here more
  | loadingSlot head drain =>
    dsimp only at step
    split at step
    · rename_i unfilled
      cases step
      exact .spins head drain here unfilled
    · rename_i filled
      cases step
      exact .takes head drain here filled
  | clearing head v drain =>
    cases step
    exact .clears head v drain here
  | advancing head v drain =>
    cases step
    cases drain with
    | false => exact .advances head v here
    | true => exact .drops head v here
  | dispatching v =>
    cases step
    exact .dispatches v here
  | checking =>
    cases step
    split
    · rename_i none
      exact .finishes (.inl here) none
    · rename_i some
      exact .locks here some
  | rechecking =>
    cases step
    split
    · rename_i none
      exact .finishes (.inr here) none
    · rename_i some
      exact .waits here some
  | waiting =>
    cases step
    exact .wakes here
  | takingErr =>
    cases step
    exact .takesErr here
  | loadingChain error =>
    cases step
    exact .loadsChain error here
  | returned error chain =>
    cases step

structure JobMoves (g : Graph) (s : GraphRun) (job : VertexJob) (op : Op) (pc : JobPc) (s' : GraphRun) : Prop where
  jobs : ∃ before after, s.jobs = before ++ job :: after ∧ s'.jobs = before ++ ⟨job.vertex, pc⟩ :: after
  program : Program g job.vertex job.pc op pc
  effect : Effect s.shared op s'.shared
  log : s'.log = s.log ++ [(job.vertex, op)]
  dispatcher : s'.dispatcher = s.dispatcher
  popped : s'.popped = s.popped
  aborted : s'.aborted = op.aborts

inductive Graph.Moves (g : Graph) (s : GraphRun) : GraphRun → Prop where
  | clashes {job} (member : job ∈ s.jobs) (queued : job.pc = .queued) (busy : s.busy job.vertex = true) :
      Moves g s { s with aborted := true }
  | job {job op pc s'} (moves : JobMoves g s job op pc s') : Moves g s s'
  | dispatcher {s'} (dispatches : Dispatches g s s') : Moves g s s'

theorem Graph.Step.moves {g : Graph} {s s' : GraphRun} {turn : Graph.Turn} (step : g.Step s turn s') :
    s.aborted = false ∧ g.Moves s s' := by
  unfold Step act at step
  split at step
  · cases step
  · rename_i alive
    refine ⟨Bool.eq_false_iff.mpr alive, ?_⟩
    cases turn with
    | dispatcher => exact .dispatcher (dispatcherStep_sound step)
    | job k result =>
      obtain ⟨_, found, step⟩ := Option.bind_eq_some_iff.mp step
      split at step
      · rename_i clash
        cases step
        exact .clashes (mem_of_getElem? found) clash.1 clash.2
      · obtain ⟨⟨_, _⟩, stepped, rfl⟩ := Option.map_eq_some_iff.mp step
        obtain ⟨program, effect⟩ := vertexJob_sound stepped
        obtain ⟨inside, same⟩ := List.getElem?_eq_some_iff.mp found
        refine .job ⟨⟨s.jobs.take k, s.jobs.drop (k + 1), ?_, ?_⟩, program, effect, rfl, rfl, rfl, rfl⟩
        · rw [← same, getElem_cons_drop, take_append_drop]
        · rw [afterJob, set_eq_take_append_cons_drop, if_pos inside]

namespace GraphRun

def vertices (s : GraphRun) : List Nat := s.jobs.map (·.vertex)

def pushing (s : GraphRun) : List Nat := s.jobs.flatMap (·.pc.pushes)

def released (s : GraphRun) : List Nat := logged Op.released s.log

def readied (s : GraphRun) : List Nat := logged Op.readied s.log

def reserved (s : GraphRun) : List Nat := logged Op.reserved s.log

def swapped (s : GraphRun) : List Nat := logged Op.swapped s.log

end GraphRun

def DispatcherPc.seeds (g : Graph) : DispatcherPc → List Nat
  | .seeding i => (List.range' i (g.size - i)).filter fun v => g.degree v = 0
  | _ => []

def DispatcherPc.hand : DispatcherPc → List Nat
  | .clearing _ v _ | .advancing _ v _ | .dispatching v => [v]
  | _ => []

def DispatcherPc.finishing : DispatcherPc → Bool
  | .loadingHead drain | .loadingTail _ drain | .loadingSlot _ drain | .clearing _ _ drain | .advancing _ _ drain =>
    drain
  | .takingErr | .loadingChain _ | .returned _ _ => true
  | _ => false

structure GraphRun.Inv (g : Graph) (s : GraphRun) : Prop where
  trails : ∀ job ∈ s.jobs, Trail g job.vertex (own job.vertex s.log) job.pc
  silent : ∀ v, v ∉ s.vertices → own v s.log = []
  stop : s.shared.stopFlag = true ↔ ∃ v, (v, .stops) ∈ s.log
  counters : s.shared.counters.length = g.size
  unmarked : ∀ j < g.size, j ∉ s.swapped → s.shared.counter j + s.released.count j = g.degree j
  marked : ∀ j < g.size, j ∈ s.swapped →
    s.shared.counter j ≤ usizeMax ∧ usizeMax ≤ s.shared.counter j + s.released.count j
  dispatched : ∀ j, s.vertices.count j + (s.dispatcher.hand.count j + (s.dispatcher.seeds g).count j) ≤
    (if g.degree j = 0 ∧ j < g.size then 1 else 0) + s.popped.count j
  pushed : ∀ j, s.reserved.count j + s.pushing.count j ≤ s.readied.count j
  ready : ∀ j, s.readied.count j ≤ if s.released.count j = g.degree j ∧ j < g.size ∧ g.degree j ≠ 0 then 1 else 0
  continued : ∀ v, (v, .proceeds) ∈ s.log → (v, .returns (.ok .proceed)) ∈ s.log
  halted : ∀ v, (v, .skips) ∈ s.log ∨ (v, .withholds) ∈ s.log → s.shared.stopFlag = true

section Facts

variable {g : Graph} {s s' : GraphRun} {j v : Nat}

theorem count_le_of_initial {xs ys : List Nat} (order : xs <+: ys) (j : Nat) : xs.count j ≤ ys.count j :=
  order.sublist.count_le j

section

variable (inv : s.Inv g)
include inv

namespace GraphRun

theorem Inv.readied_lt (member : j ∈ s.readied) : s.released.count j = g.degree j ∧ j < g.size ∧ g.degree j ≠ 0 := by
  have bound := inv.ready j
  have counted := count_pos_iff.mpr member
  split at bound
  · assumption
  · omega

theorem Inv.reserved_readied (member : j ∈ s.reserved) : j ∈ s.readied := by
  have bound := inv.pushed j
  have counted := count_pos_iff.mpr member
  exact count_pos_iff.mp (by omega)

theorem Inv.readied_count (j : Nat) : s.readied.count j ≤ 1 := by
  have bound := inv.ready j
  split at bound <;> omega

theorem Inv.reserved_nodup : s.reserved.Nodup := by
  rw [nodup_iff_count_le_one]
  intro j
  have bound := inv.pushed j
  have once := inv.readied_count j
  omega

theorem Inv.reserved_le : s.reserved.length ≤ g.size :=
  Tally.length_le_range inv.reserved_nodup fun _ member => (inv.readied_lt (inv.reserved_readied member)).2.1

section

variable (order : s.popped <+: s.reserved)
include order

/-- A vertex is dispatched at most once, and that only if it has no predecessor or all have released it. -/
theorem Inv.token_count (j : Nat) :
    s.vertices.count j + (s.dispatcher.hand.count j + (s.dispatcher.seeds g).count j) ≤ 1 ∧
      (0 < s.vertices.count j + (s.dispatcher.hand.count j + (s.dispatcher.seeds g).count j) →
        j < g.size ∧ (g.degree j = 0 ∨ s.released.count j = g.degree j)) := by
  have total := inv.dispatched j
  have popped := count_le_of_initial order j
  have pushed := inv.pushed j
  have ready := inv.ready j
  split at ready
  · rename_i all
    rw [if_neg fun none => all.2.2 none.1] at total
    exact ⟨by omega, fun _ => ⟨all.2.1, .inr all.1⟩⟩
  · split at total
    · rename_i root
      exact ⟨by omega, fun _ => ⟨root.2, .inl root.1⟩⟩
    · omega

theorem Inv.vertex_released (member : v ∈ s.vertices) :
    v < g.size ∧ (g.degree v = 0 ∨ s.released.count v = g.degree v) := by
  apply (inv.token_count order v).2
  have counted := count_pos_iff.mpr member
  omega

theorem Inv.vertices_nodup : s.vertices.Nodup := by
  rw [nodup_iff_count_le_one]
  intro j
  have once := (inv.token_count order j).1
  omega

end

theorem Inv.owner {op : Op} (member : (v, op) ∈ s.log) : v ∈ s.vertices := by
  by_contra missing
  have empty := inv.silent v missing
  rw [← mem_own, empty] at member
  cases member

theorem Inv.trail (member : v ∈ s.vertices) : ∃ pc, Trail g v (own v s.log) pc := by
  obtain ⟨job, inside, rfl⟩ := mem_map.mp member
  exact ⟨job.pc, inv.trails job inside⟩

theorem Inv.own_released (v : Nat) : (own v s.log).flatMap Op.released <+: g.succ v := by
  by_cases member : v ∈ s.vertices
  · obtain ⟨_, trail⟩ := inv.trail member
    exact trail.released_in_order
  · rw [inv.silent v member]
    exact nil_prefix

theorem Inv.released_eq (order : s.popped <+: s.reserved) (j : Nat) :
    s.released.count j = ∑ v ∈ Finset.range g.size, ((own v s.log).flatMap Op.released).count j := by
  apply count_logged
  intro entry member
  exact (inv.vertex_released order (inv.owner member)).1

end GraphRun

end

theorem GraphRun.Inv.released_lt
    (valid : g.Valid)
    (inv : s.Inv g)
    (order : s.popped <+: s.reserved)
    {job : VertexJob} {rest : List Nat}
    (member : job ∈ s.jobs)
    (releasing : job.pc = .releasing j rest) : s.released.count j < g.degree j := by
  have trail := inv.trails job member
  rw [releasing] at trail
  have below : job.vertex < g.size := (inv.vertex_released order (mem_map_of_mem member)).1
  rw [inv.released_eq order, valid.degree_eq]
  apply Finset.sum_lt_sum fun v _ => count_le_of_initial (inv.own_released v) j
  refine ⟨job.vertex, mem_range.mpr below, ?_⟩
  rw [← trail.releasing, count_append, count_cons_self]
  omega

end Facts

section Steps

variable {g : Graph} {s s' : GraphRun} {job : VertexJob} {op : Op} {pc : JobPc}

namespace JobMoves

section

variable (moves : JobMoves g s job op pc s')
include moves

theorem member : job ∈ s.jobs := by
  obtain ⟨_, _, jobs, _⟩ := moves.jobs
  rw [jobs]
  exact mem_append_right _ mem_cons_self

theorem member' : ⟨job.vertex, pc⟩ ∈ s'.jobs := by
  obtain ⟨_, _, _, jobs⟩ := moves.jobs
  rw [jobs]
  exact mem_append_right _ mem_cons_self

theorem kept {other : VertexJob} (member : other ∈ s.jobs) : other = job ∨ other ∈ s'.jobs := by
  obtain ⟨_, _, jobs, jobs'⟩ := moves.jobs
  rw [jobs] at member
  rw [jobs']
  simp only [mem_append, mem_cons] at member ⊢
  tauto

theorem old {other : VertexJob} (member : other ∈ s'.jobs) : other = ⟨job.vertex, pc⟩ ∨ other ∈ s.jobs := by
  obtain ⟨_, _, jobs, jobs'⟩ := moves.jobs
  rw [jobs'] at member
  rw [jobs]
  simp only [mem_append, mem_cons] at member ⊢
  tauto

theorem vertices : s'.vertices = s.vertices := by
  obtain ⟨_, _, jobs, jobs'⟩ := moves.jobs
  rw [GraphRun.vertices, GraphRun.vertices, jobs, jobs', map_append, map_append, map_cons, map_cons]

theorem logged (f : Op → List Nat) : logged f s'.log = Exec.logged f s.log ++ f op := by
  rw [moves.log]
  exact logged_snoc f s.log (job.vertex, op)

theorem pushing (j : Nat) : s'.pushing.count j + job.pc.pushes.count j = s.pushing.count j + pc.pushes.count j := by
  obtain ⟨_, _, jobs, jobs'⟩ := moves.jobs
  rw [GraphRun.pushing, GraphRun.pushing, jobs, jobs']
  simp only [flatMap_append, flatMap_cons, count_append]
  omega

end

end JobMoves

namespace GraphRun

theorem Inv.trails_step
    (inv : s.Inv g)
    (order : s.popped <+: s.reserved)
    (moves : JobMoves g s job op pc s') :
    ∀ other ∈ s'.jobs, Trail g other.vertex (own other.vertex s'.log) other.pc := by
  have trail := (inv.trails job moves.member).step moves.program
  obtain ⟨before, after, jobs, jobs'⟩ := moves.jobs
  have distinct := inv.vertices_nodup order
  rw [vertices, jobs, map_append, map_cons, nodup_middle, nodup_cons, ← map_append] at distinct
  have rest : ∀ other ∈ before ++ after, Trail g other.vertex (own other.vertex s'.log) other.pc := by
    intro other member
    have different : job.vertex ≠ other.vertex := by
      intro same
      apply distinct.1
      rw [same]
      exact mem_map_of_mem member
    rw [moves.log, own_other different]
    apply inv.trails
    rw [jobs]
    rcases mem_append.mp member with earlier | later
    · exact mem_append_left _ earlier
    · exact mem_append_right _ (mem_cons_of_mem _ later)
  obtain ⟨earlier, later⟩ := forall_mem_append.mp rest
  rw [jobs', forall_mem_append, forall_mem_cons]
  refine ⟨earlier, ?_, later⟩
  rw [moves.log, own_here]
  exact trail

theorem Inv.counters_step
    (valid : g.Valid)
    (inv : s.Inv g)
    (order : s.popped <+: s.reserved)
    (moves : JobMoves g s job op pc s') :
    ∀ j < g.size, (j ∉ s'.swapped → s'.shared.counter j + s'.released.count j = g.degree j) ∧
      (j ∈ s'.swapped → s'.shared.counter j ≤ usizeMax ∧ usizeMax ≤ s'.shared.counter j + s'.released.count j) := by
  intro j below
  have trail := inv.trails job moves.member
  have max : usizeMax = 18446744073709551615 := rfl
  have bounded := valid.bounded j
  have counter := moves.effect.counter (fun u named => inv.counters ▸ trail.names_lt valid moves.program named) j
  have unmarked := inv.unmarked j below
  have marked := inv.marked j below
  unfold swapped released at *
  rw [moves.logged, moves.logged, count_append, mem_append, counter]
  by_cases swaps : j ∈ op.swapped
  · rw [if_pos swaps]
    exact ⟨fun missing => absurd (.inr swaps) missing, fun _ => ⟨le_refl _, Nat.le_add_right _ _⟩⟩
  rw [if_neg swaps, or_iff_left swaps]
  by_cases releases : j ∈ op.released
  · obtain ⟨_, _, releasing, named⟩ := moves.program.of_released releases
    have more := inv.released_lt valid order moves.member releasing
    have once : op.released.count j = 1 := by
      rw [named]
      exact count_singleton_self
    unfold released at more
    rw [if_pos releases]
    constructor
    · intro missing
      have equal := unmarked missing
      rw [fetchSub_eq (by omega) (by omega)]
      omega
    · intro mark
      obtain ⟨upper, _⟩ := marked mark
      rw [fetchSub_eq (by omega) upper]
      omega
  · rw [if_neg releases, count_eq_zero_of_not_mem releases]
    exact ⟨unmarked, marked⟩

theorem Inv.ready_step
    (valid : g.Valid)
    (inv : s.Inv g)
    (order : s.popped <+: s.reserved)
    (moves : JobMoves g s job op pc s')
    (j : Nat) :
    s'.readied.count j ≤ if s'.released.count j = g.degree j ∧ j < g.size ∧ g.degree j ≠ 0 then 1 else 0 := by
  have old := inv.ready j
  unfold readied released at *
  rw [moves.logged, moves.logged, count_append, count_append]
  by_cases releases : j ∈ op.released
  · obtain ⟨_, ready, releasing, named⟩ := moves.program.of_released releases
    have more := inv.released_lt valid order moves.member releasing
    have below := (inv.trails job moves.member).names_lt valid moves.program (.inr releases)
    unfold released at more
    rw [if_neg (by omega)] at old
    have effect := moves.effect
    subst named
    cases ready with
    | false => simp [Op.readied, Nat.le_zero.mp old]
    | true =>
      have found := effect.last_release
      have unswapped : j ∉ s.swapped := by
        intro mark
        have lower := (inv.marked j below mark).2
        have bounded := valid.bounded j
        have max : usizeMax = 18446744073709551615 := rfl
        unfold released at lower
        omega
      have equal := inv.unmarked j below unswapped
      unfold released at equal
      simp only [Op.readied, Op.released, count_singleton_self]
      rw [if_pos (by omega)]
      omega
  · rw [count_eq_zero_of_not_mem releases, count_eq_zero_of_not_mem fun ready =>
      releases (op.released_of_readied ready)]
    exact old

theorem Inv.flags_step
    (inv : s.Inv g)
    (moves : JobMoves g s job op pc s') :
    (op = .proceeds → (job.vertex, .returns (.ok .proceed)) ∈ s.log) ∧
      (op = .skips ∨ op = .withholds → s'.shared.stopFlag = true) := by
  have trail := inv.trails job moves.member
  have program := moves.program
  have effect := moves.effect
  generalize s'.shared = m at effect ⊢
  constructor
  · intro named
    subst named
    have go : s.shared.stopFlag = false := by
      cases effect
      assumption
    generalize job.pc = here at trail program
    cases program
    rcases trail.at_deciding with continued | stops
    · exact mem_own.mp continued
    · have raised := inv.stop.mpr ⟨_, mem_own.mp stops⟩
      rw [go] at raised
      cases raised
  · intro named
    rcases named with named | named <;> subst named <;> cases effect <;> assumption

theorem Inv.job_step
    (valid : g.Valid)
    (inv : s.Inv g)
    (order : s.popped <+: s.reserved)
    (moves : JobMoves g s job op pc s') : s'.Inv g := by
  have counters := inv.counters_step valid order moves
  have flags := inv.flags_step moves
  refine ⟨inv.trails_step order moves, ?_, ?_, ?_, fun j below => (counters j below).1,
    fun j below => (counters j below).2, ?_, ?_, inv.ready_step valid order moves, ?_, ?_⟩
  · intro v missing
    rw [moves.vertices] at missing
    rw [moves.log, own_other _ op s.log]
    · exact inv.silent v missing
    · rintro rfl
      exact missing (mem_map_of_mem moves.member)
  · rw [moves.effect.stopFlag, inv.stop, moves.log]
    simp only [mem_append, mem_singleton, exists_or]
    simp [eq_comm]
  · exact moves.effect.counters_length.trans inv.counters
  · rw [moves.vertices, moves.dispatcher, moves.popped]
    exact inv.dispatched
  · intro j
    have old := inv.pushed j
    have step := moves.program.pushes_count j
    have pushing := moves.pushing j
    unfold reserved readied at *
    rw [moves.logged, moves.logged, count_append, count_append]
    omega
  · intro v proceeds
    rw [moves.log] at proceeds ⊢
    rcases mem_append.mp proceeds with old | new
    · exact mem_append_left _ (inv.continued v old)
    · cases mem_singleton.mp new
      exact mem_append_left _ (flags.1 rfl)
  · intro v stopped
    rw [moves.log] at stopped
    simp only [mem_append, mem_singleton, Prod.mk.injEq] at stopped
    rcases stopped with (old | ⟨_, new⟩) | (old | ⟨_, new⟩)
    · exact moves.effect.stopFlag.mpr (.inl (inv.halted v (.inl old)))
    · exact flags.2 (.inl new.symm)
    · exact moves.effect.stopFlag.mpr (.inl (inv.halted v (.inr old)))
    · exact flags.2 (.inr new.symm)

end GraphRun

end Steps

section Dispatcher

variable {g : Graph} {s s' : GraphRun}

theorem seeds_seeding {i : Nat} (below : i < g.size) : (seeding i).seeds g =
    (if g.degree i = 0 then [i] else []) ++ (seeding (i + 1)).seeds g := by
  have length : g.size - i = g.size - (i + 1) + 1 := by omega
  simp only [seeds]
  rw [length, range'_succ]
  by_cases root : g.degree i = 0 <;> simp [root]

theorem Dispatches.keeps (dispatches : Dispatches g s s') :
    s'.log = s.log ∧ s'.aborted = s.aborted ∧ s'.shared.counters = s.shared.counters ∧
      s'.shared.pending = s.shared.pending ∧ s'.shared.stopFlag = s.shared.stopFlag := by
  cases dispatches <;> exact ⟨rfl, rfl, rfl, rfl, rfl⟩

theorem Dispatches.jobs (dispatches : Dispatches g s s') : s'.jobs = s.jobs ∨ ∃ v, s'.jobs = s.jobs ++ [⟨v, .queued⟩] ∧
      0 < s.dispatcher.hand.count v + (s.dispatcher.seeds g).count v := by
  cases dispatches with
  | seeds i here below root =>
    refine .inr ⟨i, rfl, ?_⟩
    rw [here, seeds_seeding below]
    simp [root]
  | dispatches v here =>
    refine .inr ⟨v, rfl, ?_⟩
    rw [here]
    simp [hand]
  | _ => exact .inl rfl

theorem Dispatches.tokens (dispatches : Dispatches g s s') (j : Nat) :
    s'.vertices.count j + (s'.dispatcher.hand.count j + (s'.dispatcher.seeds g).count j) + s.popped.count j ≤
        s.vertices.count j + (s.dispatcher.hand.count j + (s.dispatcher.seeds g).count j) + s'.popped.count j ∧
      (s'.dispatcher.finishing = false →
        s.vertices.count j + (s.dispatcher.hand.count j + (s.dispatcher.seeds g).count j) + s'.popped.count j ≤
          s'.vertices.count j + (s'.dispatcher.hand.count j + (s'.dispatcher.seeds g).count j) + s.popped.count j) := by
  cases dispatches with
  | seeds i here below root =>
    rw [here, seeds_seeding below, if_pos root]
    simp [vertices, dispatchVertex, jumps, hand, count_append, count_cons]
    omega
  | passes i here below inner =>
    rw [here, seeds_seeding below, if_neg inner]
    simp [vertices, jumps, DispatcherPc.hand]
  | seeded i here all =>
    rw [here]
    simp [vertices, jumps, DispatcherPc.hand, DispatcherPc.seeds, Nat.sub_eq_zero_of_le all]
  | finishes here none =>
    rcases here with here | here <;> rw [here] <;>
      simp [vertices, jumps, DispatcherPc.hand, DispatcherPc.seeds]
  | spins head drain here unfilled => exact ⟨le_refl _, fun _ => le_refl _⟩
  | takes head drain here filled =>
    rw [here]
    simp [vertices, jumps, DispatcherPc.hand, DispatcherPc.seeds]
    omega
  | _ =>
    simp [*, vertices, dispatchVertex, withRing, jumps, DispatcherPc.hand,
      DispatcherPc.seeds, DispatcherPc.finishing]

namespace GraphRun

theorem Inv.dispatcher_step
    (inv : s.Inv g)
    (order : s.popped <+: s.reserved)
    (dispatches : Dispatches g s s') : s'.Inv g := by
  obtain ⟨log, _, counters, _, flag⟩ := dispatches.keeps
  have counter (j : Nat) : s'.shared.counter j = s.shared.counter j := by
    rw [GraphShared.counter, counters, GraphShared.counter]
  have grows : ∃ new, s'.jobs = s.jobs ++ new ∧ ∀ job ∈ new, job.pc = .queued ∧ job.vertex ∉ s.vertices := by
    rcases dispatches.jobs with same | ⟨v, more, _⟩
    · exact ⟨[], by rw [same, append_nil], forall_mem_nil _⟩
    · refine ⟨_, more, forall_mem_singleton.mpr ⟨rfl, ?_⟩⟩
      have once := (inv.token_count order v).1
      rw [← count_eq_zero]
      dsimp only
      omega
  obtain ⟨new, jobs, queued⟩ := grows
  have pushing : s'.pushing = s.pushing := by
    have none : new.flatMap (·.pc.pushes) = [] := by
      rw [flatMap_eq_nil_iff]
      intro job member
      rw [(queued job member).1]
      rfl
    rw [pushing, jobs, flatMap_append, none, append_nil]
    rfl
  refine ⟨?_, ?_, ?_, ?_, ?_, ?_, ?_, ?_, ?_, ?_, ?_⟩
  · rw [jobs, log, forall_mem_append]
    refine ⟨inv.trails, fun job member => ?_⟩
    rw [(queued job member).1, inv.silent _ (queued job member).2]
    exact .queued
  · intro v missing
    rw [log]
    apply inv.silent
    intro member
    apply missing
    rw [vertices, jobs, map_append]
    exact mem_append_left _ member
  · rw [flag, log]
    exact inv.stop
  · rw [counters]
    exact inv.counters
  · simp only [swapped, released, log, counter]
    exact inv.unmarked
  · simp only [swapped, released, log, counter]
    exact inv.marked
  · intro j
    have moved := (dispatches.tokens j).1
    have old := inv.dispatched j
    omega
  · rw [pushing]
    simp only [reserved, readied, log]
    exact inv.pushed
  · simp only [readied, released, log]
    exact inv.ready
  · rw [log]
    exact inv.continued
  · rw [log, flag]
    exact inv.halted

theorem Inv.step
    (valid : g.Valid)
    (inv : s.Inv g)
    (order : s.popped <+: s.reserved)
    (moves : g.Moves s s') : s'.Inv g := by
  cases moves with
  | clashes member queued busy => exact { inv with }
  | job moves => exact inv.job_step valid order moves
  | dispatcher dispatches => exact inv.dispatcher_step order dispatches

theorem Inv.start (valid : g.Valid) : g.started.Inv g := by
  refine ⟨forall_mem_nil _, fun _ _ => rfl, ?_, ?_, ?_, ?_, ?_, ?_, ?_, ?_, ?_⟩
  · simp [Graph.started]
  · exact valid.adjacent.columns
  · intro j below missing
    rfl
  · intro j below mark
    cases mark
  · intro j
    have distinct : ((seeding 0).seeds g).Nodup := Nodup.filter _ nodup_range'
    have once := nodup_iff_count_le_one.mp distinct j
    have seeds : j ∈ (seeding 0).seeds g ↔ g.degree j = 0 ∧ j < g.size := by
      simp [seeds, and_comm]
    by_cases member : j ∈ (seeding 0).seeds g
    · rw [if_pos (seeds.mp member)]
      simpa [Graph.started, vertices, hand] using once
    · simp [Graph.started, vertices, hand, count_eq_zero_of_not_mem member]
  · intro j
    exact le_refl _
  · intro j
    exact Nat.zero_le _
  · intro v member
    cases member
  · intro v member
    rcases member with member | member <;> cases member

end GraphRun

end Dispatcher

end Taktora.Exec
