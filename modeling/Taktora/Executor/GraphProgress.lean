import Taktora.Executor.GraphOrder

namespace Taktora.Exec

open List JobPc

/-- Nothing that is ready gets lost before `pending` is found zero. -/
structure GraphRun.Live (g : Graph) (s : GraphRun) : Prop where
  kept : s.dispatcher.finishing = false → ∀ j, (if g.degree j = 0 ∧ j < g.size then 1 else 0) + s.popped.count j ≤
    s.vertices.count j + (s.dispatcher.hand.count j + (s.dispatcher.seeds g).count j)
  pushed : s.aborted = false → ∀ j, s.readied.count j ≤ s.reserved.count j + s.pushing.count j
  ready : ∀ j < g.size, j ∉ s.swapped → g.degree j ≠ 0 → s.released.count j = g.degree j → j ∈ s.readied

section Live

variable {g : Graph} {s s' : GraphRun} {turns : List Graph.Turn}

theorem Dispatches.unfinished
    (dispatches : Dispatches g s s')
    (more : s'.dispatcher.finishing = false) : s.dispatcher.finishing = false := by
  cases dispatches with
  | finishes here none => cases more
  | spins head drain here unfilled => exact more
  | _ =>
    simp [*]
    first | rfl | exact more

theorem Dispatches.pushing (dispatches : Dispatches g s s') : s'.pushing = s.pushing := by
  rw [GraphRun.pushing, GraphRun.pushing]
  rcases dispatches.jobs with same | ⟨v, more, _⟩
  · rw [same]
  · rw [more, flatMap_append]
    exact append_nil _

theorem Effect.ready_of_last {m m' : GraphShared} {j : Nat} {ready : Bool} (effect : Effect m (.releases j ready) m')
    (last : m.counter j = 1) : ready = true := by
  cases effect with
  | releases _ _ found => exact found.trans (decide_eq_true last)

theorem GraphRun.Live.step
    (inv : s.Inv g)
    (live : s.Live g)
    (alive : s.aborted = false)
    (moves : g.Moves s s') : s'.Live g := by
  cases moves with
  | clashes member queued busy => exact ⟨live.kept, nofun, live.ready⟩
  | dispatcher dispatches =>
    obtain ⟨log, aborted, _⟩ := dispatches.keeps
    refine ⟨?_, ?_, ?_⟩
    · intro more j
      have tokens := (dispatches.tokens j).2 more
      have old := live.kept (dispatches.unfinished more) j
      omega
    · intro whole j
      have old := live.pushed (aborted ▸ whole) j
      have pushing := dispatches.pushing
      simp only [readied, reserved, log, pushing] at old ⊢
      exact old
    · simp only [swapped, released, readied, log]
      exact live.ready
  | @job job op pc _ moves =>
    refine ⟨?_, ?_, ?_⟩
    · rw [moves.dispatcher, moves.popped, moves.vertices]
      exact live.kept
    · intro aborted j
      have old := live.pushed alive j
      have step := moves.program.pushes_count j
      have pushing := moves.pushing j
      rw [moves.aborted] at aborted
      rw [aborted, if_neg Bool.false_ne_true] at step
      unfold reserved readied at *
      rw [moves.logged, moves.logged, count_append, count_append]
      omega
    · intro j below unswapped inner all
      unfold swapped released readied at *
      rw [moves.logged, mem_append, not_or] at unswapped
      rw [moves.logged, count_append] at all
      rw [moves.logged, mem_append]
      by_cases releases : j ∈ op.released
      · obtain ⟨_, _, _, named⟩ := moves.program.of_released releases
        have equal := inv.unmarked j below unswapped.1
        have effect := moves.effect
        unfold released at equal
        subst named
        rw [Op.released, count_singleton_self] at all
        right
        rw [effect.ready_of_last (by omega)]
        exact mem_singleton_self j
      · rw [count_eq_zero_of_not_mem releases] at all
        exact .inl (live.ready j below unswapped.1 inner all)

theorem GraphRun.Live.start (g : Graph) : g.started.Live g := by
  refine ⟨fun _ j => ?_, fun _ j => le_refl _, fun j below _ inner all => ?_⟩
  · split
    · rename_i root
      have seed : j ∈ (DispatcherPc.seeding 0).seeds g := by
        simp [DispatcherPc.seeds, root.1, root.2]
      have counted := count_pos_iff.mpr seed
      simp only [Graph.started, count_nil]
      omega
    · exact Nat.zero_le _
  · exact absurd all.symm inner

theorem run_live (valid : g.Valid) (run : Run g.Step g.started turns s) : s.Live g := by
  induction run with
  | nil => exact .start g
  | snoc before last ih =>
    obtain ⟨alive, moves⟩ := last.moves
    exact ih.step (run_inv valid before).1 alive moves

end Live

def JobPc.continuing : JobPc → Bool
  | .skipping | .chainStopping | .stopping _ | .failing _ | .cancelling _ _ _ | .counting _ _ _ => false
  | _ => true

/-- A bound on the steps that a job has left when it runs alone. A stale tail costs another round. -/
def JobPc.work (g : Graph) (v tail : Nat) : JobPc → Nat
  | .queued => 5 * (g.succ v).length + 4
  | .running => 5 * (g.succ v).length + 3
  | .completing => 5 * (g.succ v).length + 2
  | .deciding => 5 * (g.succ v).length + 1
  | .releasing _ rest => 5 * rest.length + 5
  | .loadingTail _ rest => 5 * rest.length + 4
  | .loadingHead _ rest t => 5 * rest.length + if t = tail then 3 else 6
  | .reserving _ rest t => 5 * rest.length + if t = tail then 2 else 5
  | .storing _ rest _ => 5 * rest.length + 1
  | _ => 0

/-- A state of a run in which nothing went wrong, and every item has returned `Continue`. -/
structure GraphRun.Calm (g : Graph) (s : GraphRun) : Prop where
  run : ∃ turns, Run g.UnovertakenStep g.started turns s
  continued : s.Continued
  unovertaken : s.overtaken = false

def Graph.Leads (g : Graph) (s s' : GraphRun) : Prop := ∃ more, Run g.UnovertakenStep s more s'

section Jobs

variable {g : Graph} {s s' : GraphRun} {v : Nat} {m : GraphShared} {pc : JobPc} {job : VertexJob}

theorem releaseNext_work (g : Graph) (v tail : Nat) (rest : List Nat) :
    (releaseNext rest).work g v tail = 5 * rest.length := by
  cases rest <;> rfl

theorem vertexJob_work
    (go : m.stopFlag = false)
    (continuing : pc.continuing = true)
    (unended : pc ≠ .ended) :
    ∃ op m' pc', g.vertexJob v (.ok .proceed) m pc = some (op, m', pc') ∧
      (∀ result, op = .returns result → result = .ok .proceed) ∧ m'.readyRing.head = m.readyRing.head ∧
      (∀ t, pc'.read = some t → t = m.readyRing.tail) ∧
      pc'.work g v m'.readyRing.tail < pc.work g v m.readyRing.tail := by
  have released (rest : List Nat) : ∀ t, (releaseNext rest).read ≠ some t := by
    cases rest <;> nofun
  cases pc with
  | queued =>
    refine ⟨.begins, m, .running, ?_, nofun, rfl, nofun, Nat.lt_succ_self _⟩
    simp only [Graph.vertexJob, go]
    rfl
  | running => exact ⟨_, m, .completing, rfl, fun _ same => (Op.returns.inj same).symm, rfl, nofun, Nat.lt_succ_self _⟩
  | completing =>
    by_cases last : m.pending = 1
    · refine ⟨.completes true, m.countDown, .ended, ?_, nofun, rfl, nofun, Nat.succ_pos _⟩
      simp only [Graph.vertexJob, if_pos last]
    · refine ⟨.completes false, m.countDown, .deciding, ?_, nofun, rfl, nofun, Nat.lt_succ_self _⟩
      simp only [Graph.vertexJob, if_neg last]
  | deciding =>
    refine ⟨.proceeds, m, releaseNext (g.succ v), ?_, nofun, rfl, fun t read => absurd read (released _ t), ?_⟩
    · simp only [Graph.vertexJob, go]
      rfl
    · rw [releaseNext_work]
      exact Nat.lt_succ_self _
  | releasing j rest =>
    by_cases last : m.counter j = 1
    · refine ⟨.releases j true, m.setCounter j (fetchSub (m.counter j)), .loadingTail j rest, ?_, nofun, rfl, nofun,
        Nat.lt_succ_self _⟩
      simp only [Graph.vertexJob, if_pos last]
    · refine ⟨.releases j false, m.setCounter j (fetchSub (m.counter j)), releaseNext rest, ?_, nofun, rfl,
        fun t read => absurd read (released _ t), ?_⟩
      · simp only [Graph.vertexJob, if_neg last]
      · rw [releaseNext_work, work]
        omega
  | loadingTail j rest =>
    refine ⟨.loadsTail m.readyRing.tail, m, .loadingHead j rest m.readyRing.tail, rfl, nofun, rfl, ?_, ?_⟩
    · exact fun t read => (Option.some.inj read).symm
    · rw [work, work, if_pos rfl]
      omega
  | loadingHead j rest t =>
    by_cases full : m.readyRing.full t = true
    · refine ⟨.overflows t, m, .ended, ?_, nofun, rfl, nofun, ?_⟩
      · simp only [Graph.vertexJob, if_pos full]
      · have none : ended.work g v m.readyRing.tail = 0 := rfl
        rw [work]
        split <;> omega
    · refine ⟨.loadsHead t, m, .reserving j rest t, ?_, nofun, rfl, nofun, ?_⟩
      · simp only [Graph.vertexJob, if_neg full]
      · rw [work, work]
        split <;> omega
  | reserving j rest t =>
    by_cases same : m.readyRing.tail = t
    · refine ⟨.reserves j t, { m with readyRing := { m.readyRing with tail := (t + 1) % 2 ^ 64 } }, .storing j rest t,
        ?_, nofun, rfl, nofun, ?_⟩
      · simp only [Graph.vertexJob, if_pos same]
      · rw [work, work, if_pos same.symm]
        omega
    · refine ⟨.loses t, m, .loadingTail j rest, ?_, nofun, rfl, nofun, ?_⟩
      · simp only [Graph.vertexJob, if_neg same]
      · rw [work, work, if_neg fun equal => same equal.symm]
        omega
  | storing j rest t =>
    refine ⟨.stores j t, _, releaseNext rest, rfl, nofun, rfl, fun t read => absurd read (released _ t), ?_⟩
    rw [releaseNext_work, work]
    omega
  | ended => exact absurd rfl unended
  | _ => cases continuing

theorem GraphRun.Calm.inv (valid : g.Valid) (calm : s.Calm g) : s.Inv g ∧ s.RingInv g := by
  obtain ⟨_, run⟩ := calm.run
  exact run_inv valid (run.mono fun _ _ _ step => step.2)

theorem GraphRun.Calm.alive
    (valid : g.Valid)
    (calm : s.Calm g) :
    s.aborted = false ∧ ∀ v t, (v, .overflows t) ∉ s.log := by
  obtain ⟨_, run⟩ := calm.run
  exact run_alive valid run

theorem GraphRun.Calm.live (valid : g.Valid) (calm : s.Calm g) : s.Live g := by
  obtain ⟨_, run⟩ := calm.run
  exact run_live valid (run.mono fun _ _ _ step => step.2)

theorem GraphRun.Calm.accounted (valid : g.Valid) (calm : s.Calm g) : s.Accounted g := by
  obtain ⟨_, run⟩ := calm.run
  apply run_accounted valid (run.mono fun _ _ _ step => step.2)
  rw [(calm.inv valid).1.unmarked_continued calm.continued]
  exact nodup_nil

theorem Trail.continuing {ops : List Op}
    (trail : Trail g v ops pc)
    (continued : ∀ result, .returns result ∈ ops → result = .ok .proceed)
    (unskipped : .skips ∉ ops)
    (unwithheld : .withholds ∉ ops) : pc.continuing = true := by
  cases trail with
  | skipping => simp at unskipped
  | chainStopping | stopping | stoppingError | failing => cases continued _ (mem_cons_of_mem _ mem_cons_self)
  | cancels withheld cancels =>
    rcases withheld.silent.2 with skips | withholds
    · exact absurd (mem_append_left _ skips) unskipped
    · exact absurd (mem_append_left _ withholds) unwithheld
  | releases ran releases =>
    have mode := releases.mode
    cases pc <;> first | rfl | cases mode
  | _ => rfl

theorem GraphRun.Calm.unhalted
    (valid : g.Valid)
    (calm : s.Calm g)
    (v : Nat) :
    .skips ∉ own v s.log ∧ .withholds ∉ own v s.log := by
  obtain ⟨inv, _⟩ := calm.inv valid
  have go := inv.unstopped calm.continued
  rw [mem_own, mem_own, ← not_or]
  intro halted
  rw [inv.halted v halted] at go
  cases go

theorem GraphRun.Calm.continuing
    (valid : g.Valid)
    (calm : s.Calm g)
    (member : job ∈ s.jobs) : job.pc.continuing = true := by
  obtain ⟨unskipped, unwithheld⟩ := calm.unhalted valid job.vertex
  apply ((calm.inv valid).1.trails job member).continuing _ unskipped unwithheld
  exact fun result returned => calm.continued _ result (mem_own.mp returned)

theorem GraphRun.Calm.next {turn : Graph.Turn}
    (calm : s.Calm g)
    (step : g.Step s turn s')
    (continued : s'.Continued)
    (unovertaken : s'.overtaken = false) : s'.Calm g ∧ g.Leads s s' := by
  obtain ⟨_, run⟩ := calm.run
  exact ⟨⟨⟨_, run.snoc ⟨calm.unovertaken, step⟩⟩, continued, unovertaken⟩, ⟨_, .snoc .nil ⟨calm.unovertaken, step⟩⟩⟩

theorem Graph.Leads.trans {s'' : GraphRun} (first : g.Leads s s') (second : g.Leads s' s'') : g.Leads s s'' := by
  obtain ⟨_, run⟩ := first
  obtain ⟨_, run'⟩ := second
  exact ⟨_, run.trans run'⟩

theorem overtaken_eq_false :
    s.overtaken = false ↔ ∀ job ∈ s.jobs, ∀ t, job.pc.read = some t → s.shared.readyRing.head ≤ t := by
  rw [GraphRun.overtaken, any_eq_false]
  constructor
  · intro calm job member t read
    have passed := calm job member
    rw [read] at passed
    simpa using passed
  · intro behind job member passed
    obtain ⟨t, read, below⟩ := (Option.any_eq_true _ _).mp passed
    have bound := behind job member t read
    have passed := of_decide_eq_true below
    omega

theorem GraphRun.RingInv.head_le (ring : s.RingInv g) : s.shared.readyRing.head ≤ s.shared.readyRing.tail := by
  have head := ring.head
  have order := ring.order.length_le
  have tail := ring.tail
  omega

theorem GraphRun.Calm.job_step
    (valid : g.Valid)
    (calm : s.Calm g)
    {k : Nat}
    (found : s.jobs[k]? = some job)
    (unended : job.pc ≠ .ended) :
    ∃ s' pc', s'.Calm g ∧ g.Leads s s' ∧ s'.jobs = s.jobs.set k ⟨job.vertex, pc'⟩ ∧ s'.dispatcher = s.dispatcher ∧
      pc'.work g job.vertex s'.shared.readyRing.tail < job.pc.work g job.vertex s.shared.readyRing.tail := by
  obtain ⟨inv, ring⟩ := calm.inv valid
  have member := mem_of_getElem? found
  obtain ⟨op, m, pc', stepped, returns, head, read, less⟩ :=
    vertexJob_work (g := g) (v := job.vertex) (inv.unstopped calm.continued) (calm.continuing valid member) unended
  have act : g.Step s (.job k (.ok .proceed)) (s.afterJob k job.vertex (op, m, pc')) := by
    have free : ¬(job.pc = .queued ∧ s.busy job.vertex = true) := by
      rintro ⟨queued, busy⟩
      rw [inv.never_busy ring.order member queued] at busy
      cases busy
    rw [Graph.Step, Graph.act, (calm.alive valid).1]
    simp only [Graph.jobStep, found, Option.bind_some, if_neg free, stepped, Option.map_some]
    rfl
  have continued : (s.afterJob k job.vertex (op, m, pc')).Continued := by
    intro v result member
    rcases mem_append.mp member with old | new
    · exact calm.continued v result old
    · exact returns result (Prod.mk.inj (mem_singleton.mp new)).2.symm
  have unovertaken : (s.afterJob k job.vertex (op, m, pc')).overtaken = false := by
    rw [overtaken_eq_false]
    intro other member t reads
    have same : (s.afterJob k job.vertex (op, m, pc')).shared.readyRing.head = s.shared.readyRing.head := head
    rw [same]
    rcases mem_or_eq_of_mem_set member with old | rfl
    · exact overtaken_eq_false.mp calm.unovertaken other old t reads
    · rw [read t reads]
      exact ring.head_le
  obtain ⟨calm', leads⟩ := calm.next act continued unovertaken
  exact ⟨_, pc', calm', leads, rfl, rfl, less⟩

theorem GraphRun.Calm.job_ends
    (valid : g.Valid)
    (calm : s.Calm g)
    {k : Nat}
    (found : s.jobs[k]? = some job) :
    ∃ s', s'.Calm g ∧ g.Leads s s' ∧ s'.jobs = s.jobs.set k ⟨job.vertex, .ended⟩ ∧ s'.dispatcher = s.dispatcher := by
  generalize bound : job.pc.work g job.vertex s.shared.readyRing.tail = n
  induction n using Nat.strong_induction_on generalizing s job with
  | h n ih =>
    by_cases ended : job.pc = .ended
    · refine ⟨s, calm, ⟨[], .nil⟩, ?_, rfl⟩
      obtain ⟨_, same⟩ := List.getElem?_eq_some_iff.mp found
      rw [← ended, ← same, set_getElem_self]
    · obtain ⟨s', pc', calm', leads, jobs, dispatcher, less⟩ := calm.job_step valid found ended
      have inside := (List.getElem?_eq_some_iff.mp found).1
      have found' : s'.jobs[k]? = some ⟨job.vertex, pc'⟩ := by
        rw [jobs, getElem?_set_self inside]
      obtain ⟨s'', calm'', leads', jobs', dispatcher'⟩ := ih _ (bound ▸ less) calm' found' rfl
      refine ⟨s'', calm'', leads.trans leads', ?_, dispatcher'.trans dispatcher⟩
      rw [jobs', jobs, set_set]

theorem GraphRun.Calm.jobs_end
    (valid : g.Valid)
    (calm : s.Calm g) :
    ∃ s', s'.Calm g ∧ g.Leads s s' ∧ s'.jobs.length = s.jobs.length ∧ s'.dispatcher = s.dispatcher ∧
      ∀ job ∈ s'.jobs, job.pc = .ended := by
  have some (n : Nat) (most : n ≤ s.jobs.length) :
      ∃ s', s'.Calm g ∧ g.Leads s s' ∧ s'.jobs.length = s.jobs.length ∧ s'.dispatcher = s.dispatcher ∧
        ∀ job ∈ s'.jobs.take n, job.pc = .ended := by
    induction n with
    | zero => exact ⟨s, calm, ⟨[], .nil⟩, rfl, rfl, forall_mem_nil _⟩
    | succ n ih =>
      obtain ⟨s', calm', leads, length, dispatcher, ended⟩ := ih (by omega)
      have inside : n < s'.jobs.length := by omega
      obtain ⟨s'', calm'', leads', jobs, dispatcher'⟩ := calm'.job_ends valid (getElem?_eq_getElem inside)
      refine ⟨s'', calm'', leads.trans leads', ?_, dispatcher'.trans dispatcher, ?_⟩
      · rw [jobs, length_set, length]
      · rw [jobs, take_add_one, getElem?_set_self inside, take_set_of_le (le_refl n)]
        exact forall_mem_append.mpr ⟨ended, forall_mem_singleton.mpr rfl⟩
  obtain ⟨s', calm', leads, length, dispatcher, ended⟩ := some s.jobs.length (le_refl _)
  rw [← length, take_length] at ended
  exact ⟨s', calm', leads, length, dispatcher, ended⟩

end Jobs

/-- A bound on the steps that the dispatcher has left when no job runs, until it dispatches a vertex or returns. -/
def DispatcherPc.work (g : Graph) (pending : Nat) : DispatcherPc → Nat
  | .seeding i => 20 + (g.size - i)
  | .loadingHead false => 8
  | .loadingTail _ false => 7
  | .loadingSlot _ false => 6
  | .clearing _ _ false => 8
  | .advancing _ _ false => 7
  | .dispatching _ => 6
  | .checking => if pending = 0 then 5 else 11
  | .rechecking => if pending = 0 then 5 else 10
  | .waiting => 9
  | .loadingHead true => 4
  | .loadingTail _ true => 3
  | .loadingSlot _ true => 2
  | .clearing _ _ true => 6
  | .advancing _ _ true => 5
  | .takingErr => 2
  | .loadingChain _ => 1
  | .returned _ _ => 0

def GraphRun.work (g : Graph) (s : GraphRun) : Nat :=
  10 * (s.reserved.length - s.popped.length) + s.dispatcher.work g s.shared.pending

section Dispatching

variable {g : Graph} {s s' : GraphRun} {v : Nat}

theorem Trail.at_ended {ops : List Op}
    (trail : Trail g v ops .ended)
    (unskipped : .skips ∉ ops)
    (unwithheld : .withholds ∉ ops)
    (more : .completes true ∉ ops)
    (room : ∀ t, .overflows t ∉ ops) :
    ops.flatMap Op.released = g.succ v ∧ .completes false ∈ ops := by
  cases trail with
  | skippedLast => simp at unskipped
  | completedLast ran => exact absurd (mem_append_right _ (mem_singleton_self _)) more
  | cancels withheld cancels =>
    rcases withheld.silent.2 with skips | withholds
    · exact absurd (mem_append_left _ skips) unskipped
    · exact absurd (mem_append_left _ withholds) unwithheld
  | releases ran releases =>
    refine ⟨?_, by simp⟩
    rw [flatMap_append, (flatMap_nil_of_isFront (ran.followed rfl)).2.1]
    rcases releases.all with whole | ⟨_, ⟨t, overflows⟩, _⟩
    · rw [unreleased, append_nil] at whole
      · exact whole
      all_goals nofun
    · exact absurd (mem_append_right _ overflows) (room t)

theorem GraphRun.Calm.all_dispatched
    (valid : g.Valid)
    (calm : s.Calm g)
    (ended : ∀ job ∈ s.jobs, job.pc = .ended)
    (unfinished : s.dispatcher.finishing = false)
    (hand : s.dispatcher.hand = [])
    (seeds : s.dispatcher.seeds g = [])
    (popped : s.popped = s.reserved)
    (more : ∀ v, (v, .completes true) ∉ s.log) :
    ∀ v < g.size, v ∈ s.vertices ∧ (own v s.log).flatMap Op.released = g.succ v ∧ .completes false ∈ own v s.log := by
  obtain ⟨inv, ring⟩ := calm.inv valid
  have live := calm.live valid
  obtain ⟨alive, room⟩ := calm.alive valid
  have job {v : Nat} (member : v ∈ s.vertices) :
      (own v s.log).flatMap Op.released = g.succ v ∧ .completes false ∈ own v s.log := by
    obtain ⟨job, inside, rfl⟩ := mem_map.mp member
    have trail := inv.trails job inside
    obtain ⟨unskipped, unwithheld⟩ := calm.unhalted valid job.vertex
    rw [ended job inside] at trail
    exact trail.at_ended unskipped unwithheld (fun last => more _ (mem_own.mp last)) fun t overflows =>
      room _ t (mem_own.mp overflows)
  have pushing : s.pushing = [] := by
    rw [pushing, flatMap_eq_nil_iff]
    intro job member
    rw [ended job member]
    rfl
  suffices all : ∀ v < g.size, v ∈ s.vertices from fun v below => ⟨all v below, job (all v below)⟩
  refine valid.induction ?_
  intro v below earlier
  have kept := live.kept unfinished v
  rw [hand, seeds, count_nil] at kept
  apply count_pos_iff.mp
  by_cases root : g.degree v = 0
  · rw [if_pos ⟨root, below⟩] at kept
    omega
  · have released : s.released.count v = g.degree v := by
      rw [inv.released_eq ring.order, valid.degree_eq]
      apply Finset.sum_congr rfl
      intro u _
      by_cases edge : v ∈ g.succ u
      · rw [(job (earlier u edge)).1]
      · have none := count_le_of_initial (inv.own_released u) v
        rw [count_eq_zero_of_not_mem edge] at none ⊢
        omega
    have ready := count_pos_iff.mpr (live.ready v below (inv.unswapped calm.continued v) root released)
    have pushed := live.pushed alive v
    rw [pushing, count_nil, ← popped] at pushed
    omega

theorem GraphRun.Calm.none_pending
    (valid : g.Valid)
    (calm : s.Calm g)
    (ended : ∀ job ∈ s.jobs, job.pc = .ended)
    (unfinished : s.dispatcher.finishing = false)
    (hand : s.dispatcher.hand = [])
    (seeds : s.dispatcher.seeds g = [])
    (popped : s.popped = s.reserved) : s.shared.pending = 0 := by
  have accounted := calm.accounted valid
  have whole := accounted.pending
  by_cases last : ∃ v, (v, .completes true) ∈ s.log
  · obtain ⟨v, completes⟩ := last
    have all := accounted.last v completes
    omega
  · obtain ⟨inv, ring⟩ := calm.inv valid
    have jobs := calm.all_dispatched valid ended unfinished hand seeds popped (not_exists.mp last)
    have once : s.marked.Nodup := by
      rw [inv.unmarked_continued calm.continued]
      exact nodup_nil
    obtain ⟨distinct, inside⟩ := inv.decided_nodup valid ring.order once
    have missing := Tally.missing_add_length distinct inside
    have none : (range g.size).countP (fun v => v ∉ s.decided) = 0 := by
      rw [countP_eq_zero]
      intro v member undecided
      have completes := (jobs v (mem_range.mp member)).2.2
      have counted : 0 < (own v s.log).countP Op.leaves := countP_pos_iff.mpr ⟨_, completes, rfl⟩
      have total := count_leaving s.log v
      apply of_decide_eq_true undecided
      apply count_pos_iff.mp
      rw [decided]
      omega
    omega

theorem dispatcherStep_total (unreturned : ∀ error chain, s.dispatcher ≠ .returned error chain) :
    ∃ s', g.dispatcherStep s = some s' := by
  unfold Graph.dispatcherStep
  cases here : s.dispatcher with
  | returned error chain => exact absurd here (unreturned error chain)
  | _ => exact ⟨_, rfl⟩

variable (valid : g.Valid)
include valid

variable (calm : s.Calm g)
include calm

section

variable (ended : ∀ job ∈ s.jobs, job.pc = .ended)
include ended

theorem GraphRun.Calm.work_step
    (dispatches : Dispatches g s s') :
    s'.jobs.length = s.jobs.length + 1 ∨ (s'.jobs = s.jobs ∧ s'.work g < s.work g) := by
  obtain ⟨inv, ring⟩ := calm.inv valid
  have log : s'.reserved = s.reserved := by rw [reserved, dispatches.keeps.1, reserved]
  have pending := dispatches.keeps.2.2.2.1
  have less (popped : s'.popped = s.popped)
      (work : s'.dispatcher.work g s.shared.pending < s.dispatcher.work g s.shared.pending) : s'.work g < s.work g := by
    rw [GraphRun.work, GraphRun.work, log, popped, pending]
    omega
  cases dispatches with
  | seeds | dispatches => exact .inl length_append
  | spins head drain here unfilled =>
    have below := ring.spinning head drain here
    have loaded := ring.loaded head (by rw [here]; rfl)
    have popped := ring.head
    rw [here] at popped
    rcases ring.filled head _ (by rw [← popped, loaded]; rfl) (getElem?_eq_getElem below) with _ | waits
    · have known := (inv.readied_lt (inv.reserved_readied (getElem_mem below))).2.1
      have small := valid.small
      have max : sentinel = 18446744073709551615 := rfl
      omega
    · obtain ⟨_, job, member, stores⟩ := waits
      rw [ended job member] at stores
      cases stores
  | takes head drain here filled =>
    have next := (ring.next_popped here filled).length_le
    rw [length_append, length_singleton] at next
    refine .inr ⟨rfl, ?_⟩
    have more : { s.jumps (.clearing head (s.shared.readyRing.load head) drain) with
        popped := s.popped ++ [s.shared.readyRing.load head] }.work g =
        10 * (s.reserved.length - (s.popped.length + 1)) +
          (DispatcherPc.clearing head (s.shared.readyRing.load head) drain).work g s.shared.pending := by
      rw [work, length_append]
      rfl
    rw [more, work]
    cases drain <;> simp only [DispatcherPc.work] <;> omega
  | empty head here none =>
    have zero := calm.none_pending valid ended (by rw [here]; rfl) (by rw [here]; rfl) (by rw [here]; rfl)
      (ring.found_empty here none)
    refine .inr ⟨rfl, less rfl ?_⟩
    rw [here, zero]
    exact Nat.lt_of_sub_eq_succ rfl
  | passes i here | seeded i here =>
    refine .inr ⟨rfl, less rfl ?_⟩
    rw [here]
    simp only [jumps, DispatcherPc.work]
    omega
  | finishes here none =>
    refine .inr ⟨rfl, less rfl ?_⟩
    rcases here with here | here <;> rw [here] <;> simp [jumps, DispatcherPc.work, none]
  | loadsHead drain here | finds head drain here | clears head v drain here =>
    refine .inr ⟨rfl, less rfl ?_⟩
    rw [here]
    cases drain <;> simp [jumps, DispatcherPc.work]
  | locks here some | waits here some =>
    refine .inr ⟨rfl, less rfl ?_⟩
    rw [here]
    simp [jumps, DispatcherPc.work, some]
  | _ =>
    refine .inr ⟨rfl, less rfl ?_⟩
    simp [*, jumps, withRing, DispatcherPc.work]

theorem GraphRun.Calm.dispatcher_step
    (unreturned : ∀ error chain, s.dispatcher ≠ .returned error chain) : ∃ s', s'.Calm g ∧ g.Leads s s' ∧
      (s'.jobs.length = s.jobs.length + 1 ∨ (s'.jobs = s.jobs ∧ s'.work g < s.work g)) := by
  obtain ⟨s', step⟩ := dispatcherStep_total unreturned
  have dispatches := dispatcherStep_sound step
  have act : g.Step s .dispatcher s' := by
    rw [Graph.Step, Graph.act, (calm.alive valid).1]
    exact step
  have continued : s'.Continued := by
    rw [Continued, dispatches.keeps.1]
    exact calm.continued
  have unovertaken : s'.overtaken = false := by
    rw [overtaken_eq_false]
    intro job member t read
    by_cases queued : job.pc = .queued
    · rw [queued] at read
      cases read
    · rw [ended job (dispatches.old member queued)] at read
      cases read
  obtain ⟨calm', leads⟩ := calm.next act continued unovertaken
  exact ⟨s', calm', leads, calm.work_step valid ended dispatches⟩

theorem GraphRun.Calm.dispatcher_runs : ∃ s', s'.Calm g ∧ g.Leads s s' ∧
      (s'.jobs.length = s.jobs.length + 1 ∨ ∃ error chain, s'.dispatcher = .returned error chain) := by
  generalize bound : s.work g = n
  induction n using Nat.strong_induction_on generalizing s with
  | h n ih =>
    by_cases returned : ∃ error chain, s.dispatcher = .returned error chain
    · exact ⟨s, calm, ⟨[], .nil⟩, .inr returned⟩
    · have unreturned : ∀ error chain, s.dispatcher ≠ .returned error chain :=
        fun error chain here => returned ⟨error, chain, here⟩
      obtain ⟨s', calm', leads, more | ⟨jobs, less⟩⟩ := calm.dispatcher_step valid ended unreturned
      · exact ⟨s', calm', leads, .inl more⟩
      · obtain ⟨s'', calm'', leads', result⟩ := ih _ (bound ▸ less) calm' (jobs ▸ ended) rfl
        exact ⟨s'', calm'', leads.trans leads', jobs ▸ result⟩

end

/-- A run in which every item returns `Continue` and no push is overtaken can always go on to its return. -/
theorem GraphRun.Calm.returns :
    ∃ s', s'.Calm g ∧ g.Leads s s' ∧ ∃ error chain, s'.dispatcher = .returned error chain := by
  generalize bound : g.size - s.jobs.length = n
  induction n using Nat.strong_induction_on generalizing s with
  | h n ih =>
    obtain ⟨_, calm', leads, _, _, ended⟩ := calm.jobs_end valid
    obtain ⟨s'', calm'', leads', _ | returned⟩ := calm'.dispatcher_runs valid ended
    · have most : s''.jobs.length ≤ g.size := by
        obtain ⟨inv, ring⟩ := calm''.inv valid
        have distinct := Tally.length_le_range (inv.vertices_nodup ring.order)
          fun v member => (inv.vertex_released ring.order member).1
        rwa [vertices, length_map] at distinct
      obtain ⟨final, calm, further, returned⟩ := ih (g.size - s''.jobs.length) (by omega) calm'' rfl
      exact ⟨final, calm, (leads.trans leads').trans further, returned⟩
    · exact ⟨s'', calm'', leads.trans leads', returned⟩

end Dispatching

/-- Every item executes at most once, after its predecessors, and without errors each has when the run returns. -/
theorem items_execute_in_order {b : GraphBuilder} {g : Graph} {s : GraphRun} {turns : List Graph.Turn}
    (finished : b.finish = .ok g)
    (run : Run g.Step g.started turns s) :
    (∀ v, (own v s.log).count .begins ≤ 1) ∧ Ordered g s.log ∧
      (∀ error chain, s.dispatcher = .returned error chain →
      (∀ e, error = some e → ∃ v, (v, .returns (.error e)) ∈ s.log) ∧
      (s.marked.Nodup → error = none → ∀ v e, (v, .returns (.error e)) ∉ s.log) ∧
      (s.Continued → ∀ v < g.size, (own v s.log).count .begins = 1)) ∧
      (Run g.UnovertakenStep g.started turns s → s.overtaken = false → s.Continued →
      ∃ more s', Run g.UnovertakenStep s more s' ∧ s'.Continued ∧
      (∃ error chain, s'.dispatcher = .returned error chain) ∧ ∀ v < g.size, (own v s'.log).count .begins = 1) := by
  obtain ⟨valid, _⟩ := finish_valid finished
  obtain ⟨inv, _⟩ := run_inv valid run
  refine ⟨fun v => (inv.told v).once, run_ordered valid run, ?_, ?_⟩
  · intro error chain returned
    have taken : s.dispatcher.error? = some error := by
      rw [returned]
      rfl
    refine ⟨?_, ?_, ?_⟩
    · intro e same
      obtain ⟨v, recorded⟩ := (run_errors run).taken e (same ▸ taken)
      exact ⟨v, mem_own.mp ((inv.told v).recorded e (mem_own.mpr recorded))⟩
    · intro once none
      exact run_complete valid run once (none ▸ taken)
    · intro continued
      exact run_executed valid run continued (finishing_of_error taken)
  · intro unovertaken level continued
    have calm : s.Calm g := ⟨⟨turns, unovertaken⟩, continued, level⟩
    obtain ⟨s', calm', ⟨more, further⟩, error, chain, returned⟩ := calm.returns valid
    obtain ⟨_, whole⟩ := calm'.run
    refine ⟨more, s', further, calm'.continued, ⟨error, chain, returned⟩, ?_⟩
    apply run_executed valid (whole.mono fun _ _ _ step => step.2) calm'.continued
    rw [returned]
    rfl

def midPush : List Graph.Turn :=
  dispatcherTurns 6 ++ jobTurns 0 14 (.ok .proceed) ++ dispatcherTurns 12 ++ jobTurns 1 6 (.ok .proceed)

def Op.result? : Op → Option ExecuteResult
  | .returns result => some result
  | _ => none

theorem midPush_executes_all :
    ∃ s more s', Run fork.UnovertakenStep fork.started midPush s ∧ s.jobs.map (·.vertex) = [0, 1, 2] ∧
      Run fork.UnovertakenStep s more s' ∧ ∀ v < fork.size, (own v s'.log).count .begins = 1 := by
  have follows : ((Run.follow fork.actUnovertaken fork.started midPush).map fun s =>
      (s.jobs.map (·.vertex), s.overtaken, s.log.filterMap (·.2.result?))) =
      some ([0, 1, 2], false, [.ok .proceed, .ok .proceed]) := by
    decide +kernel
  obtain ⟨s, reached, facts⟩ := Option.map_eq_some_iff.mp follows
  simp only [Prod.mk.injEq] at facts
  obtain ⟨vertices, level, results⟩ := facts
  have continued : s.Continued := by
    intro v result member
    have known : result ∈ [.ok .proceed, .ok .proceed] := by
      rw [← results]
      exact mem_filterMap.mpr ⟨_, member, rfl⟩
    simpa using known
  have run := unovertaken_of_follow reached
  obtain ⟨more, s', further, _, _, executed⟩ :=
    (items_execute_in_order forkBuilder_finish (run.mono fun _ _ _ step => step.2)).2.2.2 run level continued
  exact ⟨s, more, s', run, vertices, further, executed⟩

/-- Vertex 1 stops the chain and cancels vertex 5, which is cancelled again. Vertex 4 returns an error. -/
def failingLate : List Graph.Turn :=
  branching ++ jobTurns 2 4 (.ok .proceed) ++ jobTurns 3 3 (.ok .proceed) ++ jobTurns 4 1 (.ok .proceed) ++
    jobTurns 1 8 (.ok .stopChain) ++ jobTurns 2 1 (.ok .proceed) ++ jobTurns 3 3 (.ok .proceed) ++
    jobTurns 4 1 (.error "late") ++ dispatcherTurns 7

/-- An error is missed, and a run in which every item returns `Continue` aborts before all have executed. -/
theorem late_error_is_missed : rejoinBuilder.finish = .ok rejoin ∧
      (Run.follow rejoin.act rejoin.started failingLate).map
          (fun s => (s.dispatcher, decide ((4, .returns (.error "late")) ∈ s.log))) =
        some (.returned none true, true) ∧
      forkBuilder.finish = .ok fork ∧
      (Run.follow fork.act fork.started overtaking).map
          (fun s => (s.aborted, (List.range 5).map fun v => (own v s.log).count .begins)) =
        some (true, [1, 1, 1, 0, 0]) :=
  ⟨rejoinBuilder_finish, by decide +kernel, forkBuilder_finish, by decide +kernel⟩

end Taktora.Exec
