import Taktora.Executor.GraphRing

namespace Taktora.Exec

open List

def leaving : Nat × Op → List Nat
  | (v, .skipped _) | (v, .completes _) => [v]
  | (_, .cancels u _) => [u]
  | _ => []

namespace GraphRun

def decided (s : GraphRun) : List Nat := s.log.flatMap leaving

def marked (s : GraphRun) : List Nat := logged Op.marked s.log

end GraphRun

section Unmarked

variable {g : Graph} {s : GraphRun} {j u v : Nat}

namespace GraphRun

theorem Inv.predecessor_released
    (valid : g.Valid)
    (inv : s.Inv g)
    (order : s.popped <+: s.reserved)
    (all : s.released.count j = g.degree j)
    (edge : j ∈ g.succ u) : u ∈ s.vertices ∧ (u, .proceeds) ∈ s.log := by
  have each : ∀ v ∈ range g.size, ((own v s.log).flatMap Op.released).count j ≤ (g.succ v).count j :=
    fun v _ => count_le_of_initial (inv.own_released v) j
  rw [inv.released_eq order, valid.degree_eq] at all
  have equal := (Finset.sum_eq_sum_iff_of_le each).mp all u (mem_range.mpr (valid.adjacent.source edge))
  have released : j ∈ (own u s.log).flatMap Op.released := by
    rw [← count_pos_iff, equal, count_pos_iff]
    exact edge
  have member : u ∈ s.vertices := by
    by_contra missing
    rw [inv.silent u missing] at released
    cases released
  obtain ⟨_, trail⟩ := inv.trail member
  exact ⟨member, mem_own.mp (trail.proceeds_of_released released)⟩

theorem Inv.swapped_cause
    (inv : s.Inv g)
    (swapped : j ∈ s.swapped) :
    ∃ v, (v, .proceeds) ∉ s.log ∧ ((v, .skips) ∈ s.log ∨ (v, .withholds) ∈ s.log) ∧
      (j ∈ g.succ v ∨ ∃ w, j ∈ g.succ w ∧ w ∈ s.swapped) := by
  obtain ⟨v, op, logged, named⟩ := mem_logged.mp swapped
  obtain ⟨_, trail⟩ := inv.trail (inv.owner logged)
  obtain ⟨withheld, halted, cause⟩ := trail.swapped_cause (mem_flatMap.mpr ⟨op, mem_own.mpr logged, named⟩)
  refine ⟨v, fun proceeds => withheld (mem_own.mpr proceeds), halted.imp mem_own.mp mem_own.mp, cause.imp_right ?_⟩
  rintro ⟨w, edge, marks⟩
  exact ⟨w, edge, mem_logged.mpr ⟨v, _, mem_own.mp marks, mem_singleton_self w⟩⟩

theorem Inv.swapped_lt (valid : g.Valid) (inv : s.Inv g) (swapped : j ∈ s.swapped) : j < g.size := by
  obtain ⟨v, _, _, edge | ⟨w, edge, _⟩⟩ := inv.swapped_cause swapped
  · exact valid.succ_lt edge
  · exact valid.succ_lt edge

theorem Inv.released_unswapped
    (valid : g.Valid)
    (inv : s.Inv g)
    (order : s.popped <+: s.reserved) :
    ∀ j < g.size, (g.degree j = 0 ∨ s.released.count j = g.degree j) → j ∉ s.swapped := by
  refine valid.induction ?_
  intro j below earlier ready swapped
  have released {w : Nat} (edge : j ∈ g.succ w) : w ∈ s.vertices ∧ (w, .proceeds) ∈ s.log := by
    rcases ready with root | all
    · exact absurd edge (valid.adjacent.degree_zero.mp root w)
    · exact inv.predecessor_released valid order all edge
  obtain ⟨v, withheld, _, edge | ⟨w, edge, marked⟩⟩ := inv.swapped_cause swapped
  · exact withheld (released edge).2
  · exact earlier w edge (inv.vertex_released order (released edge).1).2 marked

theorem Inv.vertex_unswapped
    (valid : g.Valid)
    (inv : s.Inv g)
    (order : s.popped <+: s.reserved)
    (member : v ∈ s.vertices) : v ∉ s.swapped := by
  obtain ⟨below, ready⟩ := inv.vertex_released order member
  exact inv.released_unswapped valid order v below ready

end GraphRun

end Unmarked

section Decided

variable {g : Graph} {s s' : GraphRun} {j v : Nat}

theorem count_leaving (log : List (Nat × Op)) (j : Nat) :
    (log.flatMap leaving).count j = (own j log).countP Op.leaves + (logged Op.cancelled log).count j := by
  have entry (v : Nat) (op : Op) :
      (leaving (v, op)).count j = (own j [(v, op)]).countP Op.leaves + op.cancelled.count j := by
    by_cases same : v = j
    · subst same
      cases op <;> simp [leaving, own, Op.leaves, Op.cancelled]
    · cases op <;> simp [leaving, own, Op.cancelled, same]
  induction log with
  | nil => rfl
  | cons first log ih =>
    obtain ⟨v, op⟩ := first
    have steps : own j ((v, op) :: log) = own j [(v, op)] ++ own j log := by
      rw [own, ← singleton_append, filter_append, map_append]
      rfl
    have cancels : logged Op.cancelled ((v, op) :: log) = op.cancelled ++ logged Op.cancelled log := rfl
    rw [flatMap_cons, count_append, entry, steps, countP_append, cancels, count_append]
    omega

theorem GraphRun.Inv.cancelled_le
    (inv : s.Inv g)
    (order : s.popped <+: s.reserved)
    (j : Nat) :
    (logged Op.cancelled s.log).count j ≤ s.marked.count j := by
  have inside : ∀ entry ∈ s.log, entry.1 < g.size :=
    fun entry member => (inv.vertex_released order (inv.owner member)).1
  rw [GraphRun.marked, count_logged Op.cancelled inside, count_logged Op.marked inside]
  apply sum_le_sum
  intro v _
  by_cases member : v ∈ s.vertices
  · obtain ⟨_, trail⟩ := inv.trail member
    exact trail.cancelled_le j
  · rw [inv.silent v member]
    exact le_refl _

theorem Op.swapped_of_marked {op : Op} (member : j ∈ op.marked) : j ∈ op.swapped := by
  rw [swaps_of_marked member]
  exact mem_singleton_self j

namespace GraphRun

theorem marked_swapped (member : j ∈ s.marked) : j ∈ s.swapped := by
  obtain ⟨v, op, logged, named⟩ := mem_logged.mp member
  exact mem_logged.mpr ⟨v, op, logged, Op.swapped_of_marked named⟩

theorem Inv.decided_nodup
    (valid : g.Valid)
    (inv : s.Inv g)
    (order : s.popped <+: s.reserved)
    (once : s.marked.Nodup) :
    s.decided.Nodup ∧ ∀ v ∈ s.decided, v < g.size := by
  have parts (j : Nat) := count_leaving s.log j
  have cancelled (j : Nat) := inv.cancelled_le order j
  constructor
  · rw [nodup_iff_count_le_one]
    intro j
    have marked := nodup_iff_count_le_one.mp once j
    have total := parts j
    have cancels := cancelled j
    by_cases member : j ∈ s.vertices
    · obtain ⟨_, trail⟩ := inv.trail member
      have leaves := trail.told.leaves
      have unmarked : s.marked.count j = 0 := by
        rw [count_eq_zero]
        exact fun marks => inv.vertex_unswapped valid order member (marked_swapped marks)
      rw [decided]
      omega
    · rw [inv.silent j member, countP_nil] at total
      rw [decided]
      omega
  · intro v member
    have total := parts v
    have cancels := cancelled v
    have counted := count_pos_iff.mpr member
    rw [decided] at counted
    by_cases owner : v ∈ s.vertices
    · exact (inv.vertex_released order owner).1
    · rw [inv.silent v owner, countP_nil] at total
      apply inv.swapped_lt valid
      exact marked_swapped (count_pos_iff.mp (by omega))

end GraphRun

end Decided

/-- `pending` counts the vertices that are not decided, and none is left when it was found zero. -/
structure GraphRun.Accounted (g : Graph) (s : GraphRun) : Prop where
  pending : s.shared.pending + s.decided.length = g.size
  finishing : s.dispatcher.finishing = true → s.decided.length = g.size
  last : ∀ v, (v, .completes true) ∈ s.log → s.decided.length = g.size

section Accounts

variable {g : Graph} {s s' : GraphRun} {turns : List Graph.Turn}

theorem Effect.pending {m m' : GraphShared} {op : Op} (effect : Effect m op m') (v : Nat) :
    (leaving (v, op) = [] ∧ m'.pending = m.pending) ∨
      (leaving (v, op)).length = 1 ∧ m'.pending = fetchSub m.pending := by
  cases effect with
  | skipped | completes | cancels => exact .inr ⟨rfl, rfl⟩
  | _ => exact .inl ⟨rfl, rfl⟩

theorem Effect.last_completed {m m' : GraphShared} (effect : Effect m (.completes true) m') : m'.pending = 0 := by
  cases effect with
  | completes _ found =>
    rw [GraphShared.countDown]
    rw [of_decide_eq_true found.symm]
    rfl

theorem Dispatches.finishing
    (dispatches : Dispatches g s s')
    (done : s'.dispatcher.finishing = true) :
    s.dispatcher.finishing = true ∨ s.shared.pending = 0 := by
  cases dispatches with
  | finishes here none => exact .inr none
  | spins head drain here unfilled => exact .inl done
  | _ =>
    left
    simp [*]
    exact done

namespace GraphRun

theorem Accounted.step
    (valid : g.Valid)
    (inv : s'.Inv g)
    (order : s'.popped <+: s'.reserved)
    (once : s'.marked.Nodup)
    (accounted : s.Accounted g)
    (moves : g.Moves s s') : s'.Accounted g := by
  obtain ⟨distinct, inside⟩ := inv.decided_nodup valid order once
  have most := Tally.length_le_range distinct inside
  have small := valid.small
  have max : usizeMax = 18446744073709551615 := rfl
  cases moves with
  | clashes member queued busy => exact { accounted with }
  | dispatcher dispatches =>
    obtain ⟨log, _, _, pending, _⟩ := dispatches.keeps
    have same : s'.decided = s.decided := by rw [decided, log, decided]
    refine ⟨by rw [pending, same]; exact accounted.pending, fun done => ?_, by rw [log, same]; exact accounted.last⟩
    rw [same]
    rcases dispatches.finishing done with before | _
    · exact accounted.finishing before
    · have whole := accounted.pending
      omega
  | @job job op _ _ moves =>
    have grown : s'.decided = s.decided ++ leaving (job.vertex, op) := by
      rw [decided, moves.log, flatMap_append, flatMap_singleton, decided]
    have whole := accounted.pending
    rw [grown, length_append] at most
    have pending : s'.shared.pending + s'.decided.length = g.size := by
      rw [grown, length_append]
      rcases moves.effect.pending job.vertex with ⟨none, same⟩ | ⟨_, counted⟩
      · rw [none, same]
        exact whole
      · rw [fetchSub_eq (by omega) (by omega)] at counted
        omega
    have kept (all : s.decided.length = g.size) : s'.decided.length = g.size := by
      rw [grown, length_append]
      omega
    refine ⟨pending, fun done => kept (accounted.finishing (moves.dispatcher ▸ done)), fun v member => ?_⟩
    rw [moves.log] at member
    rcases mem_append.mp member with old | new
    · exact kept (accounted.last v old)
    · have effect := moves.effect
      rw [← (Prod.mk.inj (mem_singleton.mp new)).2] at effect
      have zero := effect.last_completed
      omega

end GraphRun

theorem Graph.Moves.marked (moves : g.Moves s s') : s.marked <+: s'.marked := by
  cases moves with
  | clashes member queued busy => exact prefix_refl _
  | dispatcher dispatches =>
    rw [GraphRun.marked, GraphRun.marked, dispatches.keeps.1]
  | job moves =>
    rw [GraphRun.marked, GraphRun.marked, moves.logged]
    exact prefix_append _ _

theorem run_accounted
    (valid : g.Valid)
    (run : Run g.Step g.started turns s)
    (once : s.marked.Nodup) : s.Accounted g := by
  induction run with
  | nil => exact ⟨rfl, nofun, nofun⟩
  | snoc before last ih =>
    have moves := last.moves.2
    obtain ⟨inv, ring⟩ := run_inv valid (before.snoc last)
    exact (ih (once.sublist moves.marked.sublist)).step valid inv ring.order once moves

/-- If no vertex is cancelled twice then `pending` is at every moment the number of undecided vertices. -/
theorem pending_counts_undecided {b : GraphBuilder}
    (finished : b.finish = .ok g)
    (run : Run g.Step g.started turns s)
    (once : s.marked.Nodup) :
    s.shared.pending = (List.range g.size).countP (fun v => v ∉ s.decided) ∧ s.decided.Nodup ∧
      (∀ error chain, s.dispatcher = .returned error chain → ∀ v < g.size, v ∈ s.decided) := by
  obtain ⟨valid, _⟩ := finish_valid finished
  obtain ⟨inv, ring⟩ := run_inv valid run
  obtain ⟨distinct, inside⟩ := inv.decided_nodup valid ring.order once
  have accounted := run_accounted valid run once
  have missing := Tally.missing_add_length distinct inside
  have whole := accounted.pending
  refine ⟨by omega, distinct, ?_⟩
  intro error chain returned v below
  have all := accounted.finishing (by rw [returned]; rfl)
  exact Tally.mem_of_length_ge distinct inside (by omega) below

end Accounts

def rejoinBuilder : GraphBuilder where
  items := List.replicate 6 plainItem
  edges := [(0, 1), (0, 2), (0, 3), (0, 4), (1, 5), (2, 5), (3, 5)]
  root := some 0
  few_items := by decide
  few_edges := by decide

def rejoin : Graph :=
  GraphBuilder.assemble (List.replicate 6 plainItem) [[1, 2, 3, 4], [5], [5], [5], [], []] [0, 1, 1, 1, 1, 3] 0 []

theorem rejoinBuilder_finish : rejoinBuilder.finish = .ok rejoin := rfl

def branching : List Graph.Turn := dispatcherTurns 7 ++ jobTurns 0 24 (.ok .proceed) ++ dispatcherTurns 24

def failingFirst : List Graph.Turn :=
  branching ++ jobTurns 1 8 (.error "failed") ++ jobTurns 2 3 (.ok .proceed) ++ jobTurns 3 3 (.ok .proceed) ++
    jobTurns 4 2 (.ok .proceed) ++ dispatcherTurns 7

theorem failing_first_is_counted :
    ∃ s, Run rejoin.Step rejoin.started failingFirst s ∧ s.dispatcher = .returned (some "failed") false ∧
      s.decided = [0, 1, 5, 2, 3, 4] ∧ s.marked.Nodup ∧
      s.shared.pending = (List.range rejoin.size).countP (fun v => v ∉ s.decided) := by
  have follows : ((Run.follow rejoin.act rejoin.started failingFirst).map fun s =>
      (s.dispatcher, s.decided, s.marked)) = some (.returned (some "failed") false, [0, 1, 5, 2, 3, 4], [5]) := by
    decide +kernel
  obtain ⟨s, reached, facts⟩ := Option.map_eq_some_iff.mp follows
  simp only [Prod.mk.injEq] at facts
  obtain ⟨dispatcher, decided, marked⟩ := facts
  have once : s.marked.Nodup := by
    rw [marked]
    exact nodup_singleton 5
  have run : Run rejoin.Step rejoin.started failingFirst s := Run.of_follow reached
  exact ⟨s, run, dispatcher, decided, once, (pending_counts_undecided rejoinBuilder_finish run once).1⟩

def recancelling : List Graph.Turn :=
  branching ++ jobTurns 2 4 (.ok .proceed) ++ jobTurns 3 3 (.ok .proceed) ++ jobTurns 4 1 (.ok .proceed) ++
    jobTurns 1 8 (.error "failed") ++ jobTurns 2 1 (.ok .proceed) ++ jobTurns 3 3 (.ok .proceed) ++ dispatcherTurns 7

/-- The run returns while vertex 4 is running, because vertex 5 has left `pending` twice. -/
theorem recancelled_vertex_leaves_twice : rejoinBuilder.finish = .ok rejoin ∧
      (Run.follow rejoin.act rejoin.started recancelling).map
          (fun s => (s.dispatcher, s.shared.pending, s.decided, s.jobs.filter (·.pc ≠ .ended))) =
        some (.returned (some "failed") false, 0, [0, 2, 3, 1, 5, 5], [⟨4, .running⟩]) :=
  ⟨rejoinBuilder_finish, by decide +kernel⟩

end Taktora.Exec
