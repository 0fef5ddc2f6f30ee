import Taktora.Executor.GraphRun

namespace Taktora.Exec

open GraphShared List

inductive Program (g : Graph) (v : Nat) : JobPc → Op → JobPc → Prop where
  | skips : Program g v .queued .skips .skipping
  | begins : Program g v .queued .begins .running
  | skippedLast : Program g v .skipping (.skipped true) .ended
  | skipped : Program g v .skipping (.skipped false) (cancelNext [] (g.succ v))
  | returnsProceed : Program g v .running (.returns (.ok .proceed)) .completing
  | returnsStop : Program g v .running (.returns (.ok .stopChain)) .chainStopping
  | returnsError (e) : Program g v .running (.returns (.error e)) (.stopping (some e))
  | seesChain : Program g v .chainStopping .seesChain (.stopping none)
  | stops : Program g v (.stopping none) .stops .completing
  | stopsError (e) : Program g v (.stopping (some e)) .stops (.failing e)
  | records (e) : Program g v (.failing e) (.records e) .completing
  | completesLast : Program g v .completing (.completes true) .ended
  | completes : Program g v .completing (.completes false) .deciding
  | withholds : Program g v .deciding .withholds (cancelNext [] (g.succ v))
  | proceeds : Program g v .deciding .proceeds (releaseNext (g.succ v))
  | swapsFresh (u stack rest) : Program g v (.cancelling u stack rest) (.swaps u true) (.counting u stack rest)
  | swaps (u stack rest) : Program g v (.cancelling u stack rest) (.swaps u false) (cancelNext stack rest)
  | cancelsLast (u stack rest) : Program g v (.counting u stack rest) (.cancels u true) (cancelNext [] rest)
  | cancels (u stack rest) :
      Program g v (.counting u stack rest) (.cancels u false) (cancelNext ((g.succ u).reverse ++ stack) rest)
  | releasesReady (j rest) : Program g v (.releasing j rest) (.releases j true) (.loadingTail j rest)
  | releases (j rest) : Program g v (.releasing j rest) (.releases j false) (releaseNext rest)
  | loadsTail (j rest t) : Program g v (.loadingTail j rest) (.loadsTail t) (.loadingHead j rest t)
  | overflows (j rest t) : Program g v (.loadingHead j rest t) (.overflows t) .ended
  | loadsHead (j rest t) : Program g v (.loadingHead j rest t) (.loadsHead t) (.reserving j rest t)
  | reserves (j rest t) : Program g v (.reserving j rest t) (.reserves j t) (.storing j rest t)
  | loses (j rest t) : Program g v (.reserving j rest t) (.loses t) (.loadingTail j rest)
  | stores (j rest t) : Program g v (.storing j rest t) (.stores j t) (releaseNext rest)

inductive Effect (m : GraphShared) : Op → GraphShared → Prop where
  | skips (stop : m.stopFlag = true) : Effect m .skips m
  | begins (go : m.stopFlag = false) : Effect m .begins m
  | skipped (last) (found : last = decide (m.pending = 1)) : Effect m (.skipped last) m.countDown
  | returns (result) : Effect m (.returns result) m
  | seesChain : Effect m .seesChain { m with stopChainSeen := true }
  | stops : Effect m .stops { m with stopFlag := true }
  | records (e) : Effect m (.records e) { m with firstErr := m.firstErr.or (some e) }
  | completes (last) (found : last = decide (m.pending = 1)) : Effect m (.completes last) m.countDown
  | withholds (stop : m.stopFlag = true) : Effect m .withholds m
  | proceeds (go : m.stopFlag = false) : Effect m .proceeds m
  | swaps (u fresh) (found : fresh = decide (m.counter u ≠ usizeMax)) :
      Effect m (.swaps u fresh) (m.setCounter u usizeMax)
  | cancels (u last) (found : last = decide (m.pending = 1)) : Effect m (.cancels u last) m.countDown
  | releases (j ready) (found : ready = decide (m.counter j = 1)) :
      Effect m (.releases j ready) (m.setCounter j (fetchSub (m.counter j)))
  | loadsTail : Effect m (.loadsTail m.readyRing.tail) m
  | overflows (t) (full : m.readyRing.full t = true) : Effect m (.overflows t) m
  | loadsHead (t) (room : m.readyRing.full t = false) : Effect m (.loadsHead t) m
  | reserves (j) :
      Effect m (.reserves j m.readyRing.tail)
        { m with readyRing := { m.readyRing with tail := (m.readyRing.tail + 1) % 2 ^ 64 } }
  | loses (t) (moved : m.readyRing.tail ≠ t) : Effect m (.loses t) m
  | stores (j t) : Effect m (.stores j t) { m with readyRing := m.readyRing.store t j }

section Job

variable {g : Graph} {v : Nat} {m m' : GraphShared} {pc pc' : JobPc} {op : Op} {result : ExecuteResult}

theorem vertexJob_sound (step : g.vertexJob v result m pc = some (op, m', pc')) :
    Program g v pc op pc' ∧ Effect m op m' := by
  unfold Graph.vertexJob at step
  cases pc with
  | queued =>
    dsimp only at step
    split at step
    · rename_i stop
      cases step
      exact ⟨.skips, .skips stop⟩
    · rename_i go
      cases step
      exact ⟨.begins, .begins (Bool.eq_false_iff.mpr go)⟩
  | skipping =>
    dsimp only at step
    split at step
    · rename_i last
      cases step
      exact ⟨.skippedLast, .skipped true (decide_eq_true last).symm⟩
    · rename_i more
      cases step
      exact ⟨.skipped, .skipped false (decide_eq_false more).symm⟩
  | running =>
    rcases result with e | _ | _ <;> cases step
    · exact ⟨.returnsError e, .returns _⟩
    · exact ⟨.returnsProceed, .returns _⟩
    · exact ⟨.returnsStop, .returns _⟩
  | chainStopping =>
    cases step
    exact ⟨.seesChain, .seesChain⟩
  | stopping error =>
    cases error with
    | none =>
      cases step
      exact ⟨.stops, .stops⟩
    | some e =>
      cases step
      exact ⟨.stopsError e, .stops⟩
  | failing e =>
    cases step
    exact ⟨.records e, .records e⟩
  | completing =>
    dsimp only at step
    split at step
    · rename_i last
      cases step
      exact ⟨.completesLast, .completes true (decide_eq_true last).symm⟩
    · rename_i more
      cases step
      exact ⟨.completes, .completes false (decide_eq_false more).symm⟩
  | deciding =>
    dsimp only at step
    split at step
    · rename_i stop
      cases step
      exact ⟨.withholds, .withholds stop⟩
    · rename_i go
      cases step
      exact ⟨.proceeds, .proceeds (Bool.eq_false_iff.mpr go)⟩
  | cancelling u stack rest =>
    dsimp only at step
    split at step
    · rename_i fresh
      cases step
      exact ⟨.swapsFresh u stack rest, .swaps u true (decide_eq_true fresh).symm⟩
    · rename_i marked
      cases step
      exact ⟨.swaps u stack rest, .swaps u false (decide_eq_false marked).symm⟩
  | counting u stack rest =>
    dsimp only at step
    split at step
    · rename_i last
      cases step
      exact ⟨.cancelsLast u stack rest, .cancels u true (decide_eq_true last).symm⟩
    · rename_i more
      cases step
      exact ⟨.cancels u stack rest, .cancels u false (decide_eq_false more).symm⟩
  | releasing j rest =>
    dsimp only at step
    split at step
    · rename_i ready
      cases step
      exact ⟨.releasesReady j rest, .releases j true (decide_eq_true ready).symm⟩
    · rename_i unready
      cases step
      exact ⟨.releases j rest, .releases j false (decide_eq_false unready).symm⟩
  | loadingTail j rest =>
    cases step
    exact ⟨.loadsTail j rest _, .loadsTail⟩
  | loadingHead j rest t =>
    dsimp only at step
    split at step
    · rename_i full
      cases step
      exact ⟨.overflows j rest t, .overflows t full⟩
    · rename_i room
      cases step
      exact ⟨.loadsHead j rest t, .loadsHead t (Bool.eq_false_iff.mpr room)⟩
  | reserving j rest t =>
    dsimp only at step
    split at step
    · rename_i same
      cases step
      subst same
      exact ⟨.reserves j rest _, .reserves j⟩
    · rename_i moved
      cases step
      exact ⟨.loses j rest t, .loses t moved⟩
  | storing j rest t =>
    cases step
    exact ⟨.stores j rest t, .stores j t⟩
  | ended => cases step

end Job

namespace Op

def released : Op → List Nat
  | .releases j _ => [j]
  | _ => []

def readied : Op → List Nat
  | .releases j true => [j]
  | _ => []

def reserved : Op → List Nat
  | .reserves j _ => [j]
  | _ => []

def swapped : Op → List Nat
  | .swaps u _ => [u]
  | _ => []

def marked : Op → List Nat
  | .swaps u true => [u]
  | _ => []

def cancelled : Op → List Nat
  | .cancels u _ => [u]
  | _ => []

def leaves : Op → Bool
  | .skipped _ | .completes _ => true
  | _ => false

def ofCancel : Op → Bool
  | .swaps _ _ | .cancels _ _ => true
  | _ => false

def ofRelease : Op → Bool
  | .releases _ _ | .loadsTail _ | .overflows _ | .loadsHead _ | .reserves _ _ | .loses _ | .stores _ _ => true
  | _ => false

def isFront (op : Op) : Bool := !(op.ofCancel || op.ofRelease)

end Op

namespace JobPc

def toCancel : JobPc → List Nat
  | .cancelling u stack rest => u :: stack ++ rest
  | .counting _ stack rest => stack ++ rest
  | _ => []

def counted : JobPc → List Nat
  | .counting u _ _ => [u]
  | _ => []

def unreleased : JobPc → List Nat
  | .releasing j rest => j :: rest
  | .loadingTail _ rest | .loadingHead _ rest _ | .reserving _ rest _ | .storing _ rest _ => rest
  | _ => []

def pushes : JobPc → List Nat
  | .loadingTail j _ | .loadingHead j _ _ | .reserving j _ _ => [j]
  | _ => []

def inCancel : JobPc → Bool
  | .cancelling _ _ _ | .counting _ _ _ | .ended => true
  | _ => false

def inRelease : JobPc → Bool
  | .releasing _ _ | .loadingTail _ _ | .loadingHead _ _ _ | .reserving _ _ _ | .storing _ _ _ | .ended => true
  | _ => false

end JobPc

inductive Ran : List Op → Prop where
  | proceeded : Ran [.begins, .returns (.ok .proceed)]
  | stopped : Ran [.begins, .returns (.ok .stopChain), .seesChain, .stops]
  | failed (e) : Ran [.begins, .returns (.error e), .stops, .records e]

inductive Withheld : List Op → Prop where
  | skipped : Withheld [.skips, .skipped false]
  | ran {ops} (ran : Ran ops) : Withheld (ops ++ [.completes false, .withholds])

inductive Front : List Op → Prop where
  | idle : Front []
  | skipping : Front [.skips]
  | skipped (last) : Front [.skips, .skipped last]
  | running : Front [.begins]
  | chainStopping : Front [.begins, .returns (.ok .stopChain)]
  | stopping : Front [.begins, .returns (.ok .stopChain), .seesChain]
  | stoppingError (e) : Front [.begins, .returns (.error e)]
  | failing (e) : Front [.begins, .returns (.error e), .stops]
  | ran {ops} (ran : Ran ops) : Front ops
  | completed {ops} (ran : Ran ops) (last) : Front (ops ++ [.completes last])
  | withheld {ops} (ran : Ran ops) : Front (ops ++ [.completes false, .withholds])
  | proceeded {ops} (ran : Ran ops) : Front (ops ++ [.completes false, .proceeds])

structure Told (ops : List Op) : Prop where
  ran : ∀ r, .returns r ∈ ops → .begins ∈ ops
  completed : ∀ last, .completes last ∈ ops → .begins ∈ ops
  skipped : ∀ last, .skipped last ∈ ops → .skips ∈ ops
  stopped : .stops ∈ ops → ∃ r, r ≠ .ok .proceed ∧ .returns r ∈ ops
  recorded : ∀ e, .records e ∈ ops → .returns (.error e) ∈ ops
  failed : ∀ e, .returns (.error e) ∈ ops → ∀ o ∈ ops, o.leaves = true → .records e ∈ ops
  once : ops.count .begins ≤ 1
  leaves : ops.countP Op.leaves ≤ 1

def Doomed (g : Graph) (v : Nat) (later : List Op) (u : Nat) : Prop :=
  u ∈ g.succ v ∨ ∃ w, u ∈ g.succ w ∧ .swaps w true ∈ later

structure Cancels (g : Graph) (v : Nat) (later : List Op) (pc : JobPc) : Prop where
  mode : pc.inCancel = true
  only : ∀ op ∈ later, op.ofCancel = true
  done : ∀ u ∈ later.flatMap Op.swapped, Doomed g v later u
  next : ∀ u ∈ pc.toCancel, Doomed g v later u
  counted : later.flatMap Op.marked = later.flatMap Op.cancelled ++ pc.counted

structure Releases (g : Graph) (v : Nat) (later : List Op) (pc : JobPc) : Prop where
  mode : pc.inRelease = true
  only : ∀ op ∈ later, op.ofRelease = true
  all : later.flatMap Op.released ++ pc.unreleased = g.succ v ∨
    (pc = .ended ∧ (∃ t, .overflows t ∈ later) ∧ later.flatMap Op.released <+: g.succ v)

inductive Trail (g : Graph) (v : Nat) : List Op → JobPc → Prop where
  | queued : Trail g v [] .queued
  | skipping : Trail g v [.skips] .skipping
  | skippedLast : Trail g v [.skips, .skipped true] .ended
  | running : Trail g v [.begins] .running
  | chainStopping : Trail g v [.begins, .returns (.ok .stopChain)] .chainStopping
  | stopping : Trail g v [.begins, .returns (.ok .stopChain), .seesChain] (.stopping none)
  | stoppingError (e) : Trail g v [.begins, .returns (.error e)] (.stopping (some e))
  | failing (e) : Trail g v [.begins, .returns (.error e), .stops] (.failing e)
  | completing {ops} (ran : Ran ops) : Trail g v ops .completing
  | completedLast {ops} (ran : Ran ops) : Trail g v (ops ++ [.completes true]) .ended
  | deciding {ops} (ran : Ran ops) : Trail g v (ops ++ [.completes false]) .deciding
  | cancels {before later pc} (withheld : Withheld before) (cancels : Cancels g v later pc) :
      Trail g v (before ++ later) pc
  | releases {ops later pc} (ran : Ran ops) (releases : Releases g v later pc) :
      Trail g v (ops ++ [.completes false, .proceeds] ++ later) pc

section Trails

variable {g : Graph} {v : Nat} {ops later : List Op} {op : Op} {pc pc' : JobPc} (stack rest : List Nat)

theorem cancelNext_inCancel : (cancelNext stack rest).inCancel = true := by
  cases stack <;> cases rest <;> rfl

theorem cancelNext_toCancel : (cancelNext stack rest).toCancel = stack ++ rest := by
  cases stack <;> cases rest <;> rfl

theorem cancelNext_counted : (cancelNext stack rest).counted = [] := by
  cases stack <;> cases rest <;> rfl

theorem releaseNext_inRelease (rest : List Nat) : (releaseNext rest).inRelease = true := by
  cases rest <;> rfl

theorem releaseNext_unreleased (rest : List Nat) : (releaseNext rest).unreleased = rest := by
  cases rest <;> rfl

variable {u : Nat} {rest : List Nat}

theorem Doomed.append (doomed : Doomed g v later u) (op : Op) : Doomed g v (later ++ [op]) u := by
  rcases doomed with own | ⟨w, edge, member⟩
  · exact .inl own
  · exact .inr ⟨w, edge, mem_append_left _ member⟩

theorem Cancels.start (g : Graph) (v : Nat) : Cancels g v [] (cancelNext [] (g.succ v)) := by
  refine ⟨cancelNext_inCancel _ _, forall_mem_nil _, forall_mem_nil _, ?_, ?_⟩
  · rw [cancelNext_toCancel]
    exact fun u member => .inl member
  · rw [cancelNext_counted]
    rfl

theorem swaps_of_marked (mark : u ∈ op.marked) : op = .swaps u true := by
  unfold Op.marked at mark
  split at mark
  · rw [mem_singleton.mp mark]
  · cases mark

theorem flatMap_snoc (f : Op → List Nat) (later : List Op) (op : Op) :
    (later ++ [op]).flatMap f = later.flatMap f ++ f op := by
  rw [flatMap_append, flatMap_singleton]

theorem Cancels.step
    (cancels : Cancels g v later pc)
    (step : Program g v pc op pc') : Cancels g v (later ++ [op]) pc' := by
  obtain ⟨mode, only, done, next, counted⟩ := cancels
  have extend (cancel : op.ofCancel = true) : ∀ o ∈ later ++ [op], o.ofCancel = true :=
    forall_mem_append.mpr ⟨only, forall_mem_singleton.mpr cancel⟩
  have doomed (fresh : ∀ u ∈ op.swapped, u ∈ pc.toCancel) :
      ∀ u ∈ (later ++ [op]).flatMap Op.swapped, Doomed g v (later ++ [op]) u := by
    intro u member
    rw [flatMap_snoc] at member
    rcases mem_append.mp member with old | new
    · exact (done u old).append op
    · exact (next u (fresh u new)).append op
  have tally (own : pc.counted ++ op.marked = op.cancelled ++ pc'.counted) :
      (later ++ [op]).flatMap Op.marked = (later ++ [op]).flatMap Op.cancelled ++ pc'.counted := by
    rw [flatMap_snoc, flatMap_snoc, counted, append_assoc, own, append_assoc]
  cases step with
  | swapsFresh u stack rest =>
    refine ⟨rfl, extend rfl, doomed ?_, ?_, tally rfl⟩
    · exact forall_mem_singleton.mpr mem_cons_self
    · exact fun w member => (next w (mem_cons_of_mem u member)).append _
  | swaps u stack rest =>
    refine ⟨cancelNext_inCancel _ _, extend rfl, doomed ?_, ?_, tally (by rw [cancelNext_counted]; rfl)⟩
    · exact forall_mem_singleton.mpr mem_cons_self
    · rw [cancelNext_toCancel]
      exact fun w member => (next w (mem_cons_of_mem u member)).append _
  | cancelsLast u stack rest =>
    refine ⟨cancelNext_inCancel _ _, extend rfl, doomed (forall_mem_nil _), ?_, tally (by rw [cancelNext_counted]; rfl)⟩
    · rw [cancelNext_toCancel]
      exact fun w member => (next w (mem_append_right stack member)).append _
  | cancels u stack rest =>
    refine ⟨cancelNext_inCancel _ _, extend rfl, doomed (forall_mem_nil _), ?_, tally (by rw [cancelNext_counted]; rfl)⟩
    · rw [cancelNext_toCancel]
      intro w member
      have marked : .swaps u true ∈ later := by
        have own : u ∈ later.flatMap Op.marked := by
          rw [counted]
          exact mem_append_right _ (mem_singleton_self u)
        obtain ⟨o, inside, mark⟩ := mem_flatMap.mp own
        rwa [swaps_of_marked mark] at inside
      rw [append_assoc] at member
      rcases mem_append.mp member with successor | old
      · exact .inr ⟨u, mem_reverse.mp successor, mem_append_left _ marked⟩
      · exact (next w old).append _
  | _ => cases mode

theorem Releases.start (g : Graph) (v : Nat) : Releases g v [] (releaseNext (g.succ v)) := by
  refine ⟨releaseNext_inRelease _, forall_mem_nil _, .inl ?_⟩
  rw [releaseNext_unreleased]
  rfl

theorem Releases.step
    (releases : Releases g v later pc)
    (step : Program g v pc op pc') : Releases g v (later ++ [op]) pc' := by
  obtain ⟨mode, only, all⟩ := releases
  have extend (release : op.ofRelease = true) : ∀ o ∈ later ++ [op], o.ofRelease = true :=
    forall_mem_append.mpr ⟨only, forall_mem_singleton.mpr release⟩
  have going (unended : pc ≠ .ended) : later.flatMap Op.released ++ pc.unreleased = g.succ v := by
    rcases all with whole | ⟨ended, _⟩
    · exact whole
    · exact absurd ended unended
  have whole := going (by intro ended; rw [ended] at step; cases step)
  cases step with
  | releasesReady | loadsTail | loadsHead | reserves | loses =>
    refine ⟨rfl, extend rfl, .inl ?_⟩
    rw [flatMap_snoc, append_assoc]
    exact whole
  | releases | stores =>
    refine ⟨releaseNext_inRelease _, extend rfl, .inl ?_⟩
    rw [flatMap_snoc, releaseNext_unreleased, append_assoc]
    exact whole
  | overflows j rest t =>
    refine ⟨rfl, extend rfl, .inr ⟨rfl, ⟨t, mem_append_right _ (mem_singleton_self _)⟩, ?_⟩⟩
    rw [flatMap_snoc, ← whole]
    simp only [Op.released, append_nil, prefix_append]
  | _ => cases mode

theorem Trail.step (trail : Trail g v ops pc) (step : Program g v pc op pc') : Trail g v (ops ++ [op]) pc' := by
  cases trail with
  | cancels withheld cancels =>
    rw [append_assoc]
    exact .cancels withheld (cancels.step step)
  | releases ran releases =>
    rw [append_assoc]
    exact .releases ran (releases.step step)
  | completing ran =>
    cases step with
    | completesLast => exact .completedLast ran
    | completes => exact .deciding ran
  | deciding ran =>
    rw [append_assoc]
    cases step with
    | withholds =>
      have started := cancels (.ran ran) (Cancels.start g v)
      rwa [append_nil] at started
    | proceeds =>
      have started := releases ran (Releases.start g v)
      rwa [append_nil] at started
  | skipping =>
    cases step with
    | skippedLast => exact .skippedLast
    | skipped =>
      have started := cancels .skipped (Cancels.start g v)
      rwa [append_nil] at started
  | queued =>
    cases step with
    | skips => exact .skipping
    | begins => exact .running
  | running =>
    cases step with
    | returnsProceed => exact .completing .proceeded
    | returnsStop => exact .chainStopping
    | returnsError e => exact .stoppingError e
  | chainStopping =>
    cases step
    exact .stopping
  | stopping =>
    cases step
    exact .completing .stopped
  | stoppingError e =>
    cases step
    exact .failing e
  | failing e =>
    cases step
    exact .completing (.failed e)
  | skippedLast | completedLast => cases step

theorem Ran.isFront (ran : Ran ops) : ∀ o ∈ ops, o.isFront = true := by
  cases ran <;> simp [Op.isFront, Op.ofCancel, Op.ofRelease]

theorem Ran.followed {more : List Op}
    (ran : Ran ops)
    (early : more.all Op.isFront = true) : ∀ o ∈ ops ++ more, o.isFront = true :=
  forall_mem_append.mpr ⟨ran.isFront, all_eq_true.mp early⟩

theorem Withheld.isFront (withheld : Withheld ops) : ∀ o ∈ ops, o.isFront = true := by
  cases withheld with
  | skipped => exact all_eq_true.mp rfl
  | ran ran => exact ran.followed rfl

theorem Op.isFront_swapped (early : op.isFront = true) : op.swapped = [] ∧ op.released = [] ∧ op.cancelled = [] := by
  cases op <;> first | exact ⟨rfl, rfl, rfl⟩ | cases early

theorem flatMap_nil_of_isFront (early : ∀ o ∈ ops, o.isFront = true) :
    ops.flatMap Op.swapped = [] ∧ ops.flatMap Op.released = [] ∧ ops.flatMap Op.cancelled = [] := by
  simp only [flatMap_eq_nil_iff]
  exact ⟨fun o member => (Op.isFront_swapped (early o member)).1,
    fun o member => (Op.isFront_swapped (early o member)).2.1,
    fun o member => (Op.isFront_swapped (early o member)).2.2⟩

theorem Trail.phase (trail : Trail g v ops pc) : (∀ o ∈ ops, o.isFront = true) ∨
      (∃ before later, ops = before ++ later ∧ Withheld before ∧ Cancels g v later pc) ∨
      ∃ ran later, ops = ran ++ [.completes false, .proceeds] ++ later ∧ Ran ran ∧ Releases g v later pc := by
  cases trail with
  | cancels withheld cancels => exact .inr (.inl ⟨_, _, rfl, withheld, cancels⟩)
  | releases ran releases => exact .inr (.inr ⟨_, _, rfl, ran, releases⟩)
  | completing ran => exact .inl ran.isFront
  | completedLast ran | deciding ran => exact .inl (ran.followed rfl)
  | _ => exact .inl (all_eq_true.mp rfl)

theorem Cancels.released (cancels : Cancels g v later pc) : later.flatMap Op.released = [] := by
  rw [flatMap_eq_nil_iff]
  intro o member
  have cancel := cancels.only o member
  cases o <;> first | rfl | cases cancel

theorem Trail.released_in_order (trail : Trail g v ops pc) : ops.flatMap Op.released <+: g.succ v := by
  rcases trail.phase with early | ⟨_, _, rfl, withheld, cancels⟩ | ⟨_, _, rfl, done, releases⟩
  · rw [(flatMap_nil_of_isFront early).2.1]
    exact nil_prefix
  · rw [flatMap_append, (flatMap_nil_of_isFront withheld.isFront).2.1, cancels.released]
    exact nil_prefix
  · rw [flatMap_append, (flatMap_nil_of_isFront (done.followed rfl)).2.1]
    rcases releases.all with whole | ⟨_, _, some⟩
    · rw [← whole]
      exact prefix_append _ _
    · exact some

theorem Trail.releasing {j : Nat} (trail : Trail g v ops (.releasing j rest)) :
    ops.flatMap Op.released ++ j :: rest = g.succ v := by
  cases trail with
  | cancels withheld cancels => cases cancels.mode
  | releases ran releases =>
    rw [flatMap_append, (flatMap_nil_of_isFront (ran.followed rfl)).2.1]
    rcases releases.all with whole | ⟨ended, _⟩
    · exact whole
    · cases ended

theorem Ran.proceeded_or_stops (ran : Ran ops) : .returns (.ok .proceed) ∈ ops ∨ .stops ∈ ops := by
  cases ran <;> simp

theorem Trail.at_deciding (trail : Trail g v ops .deciding) : .returns (.ok .proceed) ∈ ops ∨ .stops ∈ ops := by
  cases trail with
  | cancels withheld cancels => cases cancels.mode
  | releases ran releases => cases releases.mode
  | deciding ran => exact ran.proceeded_or_stops.imp (mem_append_left _) (mem_append_left _)

theorem Trail.at_running (trail : Trail g v ops .running) : ops = [.begins] := by
  cases trail with
  | running => rfl
  | cancels withheld cancels => cases cancels.mode
  | releases ran releases => cases releases.mode

theorem filter_isFront {front back : List Op} (early : ∀ o ∈ front, o.isFront = true)
    (late : ∀ o ∈ back, o.isFront = false) : (front ++ back).filter Op.isFront = front := by
  rw [filter_append, filter_eq_self.mpr early, filter_eq_nil_iff.mpr, append_nil]
  intro o member front
  rw [late o member] at front
  cases front

theorem Trail.front (trail : Trail g v ops pc) : Front (ops.filter Op.isFront) := by
  cases trail with
  | cancels withheld cancels =>
    rw [filter_isFront withheld.isFront fun o member => by rw [Op.isFront, cancels.only o member]; rfl]
    cases withheld with
    | skipped => exact .skipped false
    | ran ran => exact .withheld ran
  | releases ran releases =>
    rw [filter_isFront (ran.followed rfl) fun o member => by rw [Op.isFront, releases.only o member, Bool.or_true]; rfl]
    exact .proceeded ran
  | completing ran =>
    rw [filter_eq_self.mpr ran.isFront]
    exact .ran ran
  | completedLast ran =>
    rw [filter_eq_self.mpr (ran.followed rfl)]
    exact .completed ran true
  | deciding ran =>
    rw [filter_eq_self.mpr (ran.followed rfl)]
    exact .completed ran false
  | queued => exact .idle
  | skipping => exact .skipping
  | skippedLast => exact .skipped true
  | running => exact .running
  | chainStopping => exact .chainStopping
  | stopping => exact .stopping
  | stoppingError e => exact .stoppingError e
  | failing e => exact .failing e

theorem Front.told (front : Front ops) : Told ops := by
  cases front with
  | ran ran | completed ran => cases ran <;> constructor <;> simp [Op.leaves]
  | withheld ran | proceeded ran => cases ran <;> constructor <;> simp [Op.leaves, countP_cons]
  | _ => constructor <;> simp [Op.leaves]

theorem Op.isFront_of_leaves (leaves : op.leaves = true) : op.isFront = true := by
  cases op <;> first | rfl | cases leaves

theorem Trail.told (trail : Trail g v ops pc) : Told ops := by
  have told := trail.front.told
  have same (o : Op) (early : o.isFront = true) : o ∈ ops.filter Op.isFront ↔ o ∈ ops := by
    rw [mem_filter, and_iff_left early]
  constructor
  · intro r returns
    exact (same _ rfl).mp (told.ran r ((same _ rfl).mpr returns))
  · intro last completes
    exact (same _ rfl).mp (told.completed last ((same _ rfl).mpr completes))
  · intro last skipped
    exact (same _ rfl).mp (told.skipped last ((same _ rfl).mpr skipped))
  · intro stops
    obtain ⟨r, other, returns⟩ := told.stopped ((same _ rfl).mpr stops)
    exact ⟨r, other, (same _ rfl).mp returns⟩
  · intro e records
    exact (same _ rfl).mp (told.recorded e ((same _ rfl).mpr records))
  · intro e returns o member leaves
    exact (same _ rfl).mp (told.failed e ((same _ rfl).mpr returns) o
      ((same o (Op.isFront_of_leaves leaves)).mpr member) leaves)
  · have once := told.once
    rwa [count_filter rfl] at once
  · have leaves := told.leaves
    rw [countP_filter] at leaves
    have same : ops.countP Op.leaves = ops.countP fun o => o.leaves && o.isFront := by
      apply countP_congr
      intro o _
      rw [Bool.and_eq_true, and_iff_left_of_imp Op.isFront_of_leaves]
    rwa [same]

theorem Withheld.silent (withheld : Withheld ops) : .proceeds ∉ ops ∧ (.skips ∈ ops ∨ .withholds ∈ ops) := by
  cases withheld with
  | skipped => simp
  | ran ran => cases ran <;> simp

theorem Releases.quiet (releases : Releases g v later pc) :
    later.flatMap Op.swapped = [] ∧ later.flatMap Op.cancelled = [] := by
  have none (o : Op) (release : o.ofRelease = true) : o.swapped = [] ∧ o.cancelled = [] := by
    cases o <;> first | exact ⟨rfl, rfl⟩ | cases release
  simp only [flatMap_eq_nil_iff]
  exact ⟨fun o member => (none o (releases.only o member)).1, fun o member => (none o (releases.only o member)).2⟩

/-- A job that marks a vertex has not proceeded. It marks its successors, and those of what it has marked. -/
theorem Trail.swapped_cause
    (trail : Trail g v ops pc)
    (member : u ∈ ops.flatMap Op.swapped) :
    .proceeds ∉ ops ∧ (.skips ∈ ops ∨ .withholds ∈ ops) ∧ (u ∈ g.succ v ∨ ∃ w, u ∈ g.succ w ∧ .swaps w true ∈ ops) := by
  rcases trail.phase with early | ⟨_, _, rfl, withheld, cancels⟩ | ⟨_, _, rfl, done, releases⟩
  · rw [(flatMap_nil_of_isFront early).1] at member
    cases member
  · rw [flatMap_append, (flatMap_nil_of_isFront withheld.isFront).1] at member
    refine ⟨?_, withheld.silent.2.imp (mem_append_left _) (mem_append_left _), (cancels.done u member).imp_right ?_⟩
    · intro proceeds
      rcases mem_append.mp proceeds with first | second
      · exact withheld.silent.1 first
      · cases cancels.only _ second
    · rintro ⟨w, edge, marked⟩
      exact ⟨w, edge, mem_append_right _ marked⟩
  · rw [flatMap_append, (flatMap_nil_of_isFront (done.followed rfl)).1, releases.quiet.1] at member
    cases member

theorem Trail.proceeds_of_released
    (trail : Trail g v ops pc)
    (member : u ∈ ops.flatMap Op.released) : .proceeds ∈ ops := by
  rcases trail.phase with early | ⟨_, _, rfl, withheld, cancels⟩ | ⟨_, _, rfl, _⟩
  · rw [(flatMap_nil_of_isFront early).2.1] at member
    cases member
  · rw [flatMap_append, (flatMap_nil_of_isFront withheld.isFront).2.1, cancels.released] at member
    cases member
  · simp

theorem Trail.cancelled_le (trail : Trail g v ops pc) (u : Nat) :
    (ops.flatMap Op.cancelled).count u ≤ (ops.flatMap Op.marked).count u := by
  rcases trail.phase with early | ⟨_, _, rfl, withheld, cancels⟩ | ⟨_, _, rfl, done, releases⟩
  · rw [(flatMap_nil_of_isFront early).2.2]
    exact Nat.zero_le _
  · rw [flatMap_append, flatMap_append, cancels.counted, (flatMap_nil_of_isFront withheld.isFront).2.2]
    simp only [count_append]
    simp only [count_nil]
    omega
  · rw [flatMap_append, releases.quiet.2, (flatMap_nil_of_isFront (done.followed rfl)).2.2]
    exact Nat.zero_le _

theorem Doomed.lt (valid : g.Valid) (doomed : Doomed g v later u) : u < g.size := by
  rcases doomed with edge | ⟨w, edge, _⟩
  · exact valid.succ_lt edge
  · exact valid.succ_lt edge

theorem Trail.cancelling {stack : List Nat}
    (valid : g.Valid)
    (trail : Trail g v ops (.cancelling u stack rest)) : u < g.size := by
  cases trail with
  | cancels withheld cancels => exact (cancels.next u mem_cons_self).lt valid
  | releases ran releases => cases releases.mode

theorem Trail.names_lt
    (valid : g.Valid)
    (trail : Trail g v ops pc)
    (step : Program g v pc op pc')
    (named : u ∈ op.swapped ∨ u ∈ op.released) : u < g.size := by
  have released {j : Nat} {rest : List Nat} (trail : Trail g v ops (.releasing j rest)) : j < g.size := by
    apply valid.succ_lt
    rw [← trail.releasing]
    exact mem_append_right _ mem_cons_self
  cases step <;> simp only [Op.swapped, Op.released, not_mem_nil, mem_singleton, or_false, false_or] at named
  all_goals subst named
  · exact trail.cancelling valid
  · exact trail.cancelling valid
  · exact released trail
  · exact released trail

end Trails

section Effects

variable {g : Graph} {v : Nat} {m m' : GraphShared} {op : Op} {pc pc' : JobPc}

theorem fetchSub_eq {n : Nat} (positive : 0 < n) (fits : n ≤ usizeMax) : fetchSub n = n - 1 := by
  have max : usizeMax = 18446744073709551615 := rfl
  rw [fetchSub]
  omega

theorem Effect.stopFlag (effect : Effect m op m') : m'.stopFlag = true ↔ m.stopFlag = true ∨ op = .stops := by
  cases effect <;> simp [countDown, setCounter]

theorem Effect.counters_length (effect : Effect m op m') : m'.counters.length = m.counters.length := by
  cases effect <;> simp [countDown, setCounter]

variable {j : Nat}

theorem counter_setCounter {u value : Nat} (inside : u < m.counters.length) :
    (m.setCounter u value).counter j = if j = u then value else m.counter j := by
  unfold counter setCounter
  rw [getD_eq_getElem?_getD, getElem?_set, getD_eq_getElem?_getD]
  by_cases same : u = j
  · subst same
    rw [if_pos rfl, if_pos inside, if_pos rfl]
    rfl
  · rw [if_neg same, if_neg fun equal => same equal.symm]

theorem Effect.counter
    (effect : Effect m op m')
    (inside : ∀ u, u ∈ op.swapped ∨ u ∈ op.released → u < m.counters.length)
    (j : Nat) :
    m'.counter j = if j ∈ op.swapped then usizeMax else if j ∈ op.released then fetchSub (m.counter j) else m.counter
      j := by
  cases effect with
  | swaps u fresh found =>
    rw [counter_setCounter (inside u (.inl (mem_singleton_self u)))]
    simp [Op.swapped, Op.released]
  | releases u ready found =>
    rw [counter_setCounter (inside u (.inr (mem_singleton_self u)))]
    by_cases same : j = u <;> simp [Op.swapped, Op.released, same]
  | _ => simp [Op.swapped, Op.released, counter, countDown]

theorem Effect.last_release (effect : Effect m (.releases j true) m') : m.counter j = 1 := by
  cases effect with
  | releases _ _ found => exact of_decide_eq_true found.symm

theorem Op.released_of_readied (member : j ∈ op.readied) : j ∈ op.released := by
  unfold readied at member
  split at member
  · exact member
  · cases member

theorem Program.of_released
    (step : Program g v pc op pc')
    (member : j ∈ op.released) :
    ∃ rest ready, pc = .releasing j rest ∧ op = .releases j ready := by
  cases step <;> simp_all [Op.released]

theorem Program.pushes_count (step : Program g v pc op pc') (j : Nat) :
    op.reserved.count j + pc'.pushes.count j + (if op.aborts then pc.pushes.count j else 0) =
      pc.pushes.count j + op.readied.count j := by
  have cancel (stack rest : List Nat) : (cancelNext stack rest).pushes = [] := by
    cases stack <;> cases rest <;> rfl
  have release (rest : List Nat) : (releaseNext rest).pushes = [] := by
    cases rest <;> rfl
  cases step <;> (try simp only [cancel, release]) <;> simp [Op.reserved, Op.readied, Op.aborts, JobPc.pushes]

end Effects

end Taktora.Exec
