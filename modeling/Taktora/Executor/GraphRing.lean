import Taktora.Executor.GraphTokens

namespace Taktora.Exec

open List hiding head

open ReadyRing

section Slots

variable {r : ReadyRing} {i k t v : Nat}

theorem ReadyRing.slot_eq (power : r.buf.length = 2 ^ k) (inside : i < r.buf.length) : r.slot i = i := by
  rw [slot, power, Nat.and_two_pow_sub_one_eq_mod]
  exact Nat.mod_eq_of_lt (power ▸ inside)

theorem ReadyRing.load_store
    (power : r.buf.length = 2 ^ k)
    (inside : i < r.buf.length)
    (stored : t < r.buf.length) :
    (r.store t v).load i = if i = t then v else r.load i := by
  have length : (r.store t v).buf.length = r.buf.length := length_set
  rw [load, load, slot_eq (length.trans power) (length ▸ inside), slot_eq power inside,
    store, slot_eq power stored, getD_eq_getElem?_getD, getElem?_set, getD_eq_getElem?_getD]
  by_cases same : i = t
  · subst same
    rw [if_pos rfl, if_pos inside, if_pos rfl]
    rfl
  · rw [if_neg fun equal => same equal.symm, if_neg same]

end Slots

namespace DispatcherPc

def taken : DispatcherPc → Nat
  | .clearing _ _ _ | .advancing _ _ _ => 1
  | _ => 0

def loaded : DispatcherPc → Option Nat
  | .loadingTail head _ | .loadingSlot head _ | .clearing head _ _ | .advancing head _ _ => some head
  | _ => none

end DispatcherPc

def JobPc.stores : JobPc → Option (Nat × Nat)
  | .storing j _ t => some (j, t)
  | _ => none

def JobPc.read : JobPc → Option Nat
  | .loadingHead _ _ t => some t
  | _ => none

/-- The ring holds what was reserved and not popped, in that order. No index is used twice. -/
structure GraphRun.RingInv (g : Graph) (s : GraphRun) : Prop where
  power : ∃ k, s.shared.readyRing.buf.length = 2 ^ k
  room : g.size ≤ s.shared.readyRing.buf.length
  tail : s.shared.readyRing.tail = s.reserved.length
  order : s.popped <+: s.reserved
  head : s.shared.readyRing.head + s.dispatcher.taken = s.popped.length
  loaded : ∀ head, s.dispatcher.loaded = some head → head = s.shared.readyRing.head
  spinning : ∀ head drain, s.dispatcher = .loadingSlot head drain → head < s.reserved.length
  storing : ∀ job ∈ s.jobs, ∀ j t, job.pc.stores = some (j, t) → s.reserved[t]? = some j
  read : ∀ job ∈ s.jobs, ∀ t, job.pc.read = some t → t ≤ s.reserved.length
  filled : ∀ i j, s.popped.length ≤ i → s.reserved[i]? = some j → s.shared.readyRing.load i = j ∨
    (s.shared.readyRing.load i = sentinel ∧ ∃ job ∈ s.jobs, job.pc.stores = some (j, i))
  unused : ∀ i, s.reserved.length ≤ i → i < s.shared.readyRing.buf.length → s.shared.readyRing.load i = sentinel

section Steps

variable {g : Graph} {s s' : GraphRun} {job : VertexJob} {op : Op} {m m' : GraphShared} {v : Nat} {pc pc' : JobPc}

theorem Effect.readyRing (effect : Effect m op m') :
    (m'.readyRing = m.readyRing ∧ op.reserved = [] ∧ ∀ j t, op ≠ .stores j t) ∨
      (∃ j, op = .reserves j m.readyRing.tail ∧
        m'.readyRing = { m.readyRing with tail := (m.readyRing.tail + 1) % 2 ^ 64 }) ∨
      ∃ j t, op = .stores j t ∧ m'.readyRing = m.readyRing.store t j := by
  cases effect with
  | reserves j => exact .inr (.inl ⟨j, rfl, rfl⟩)
  | stores j t => exact .inr (.inr ⟨j, t, rfl, rfl⟩)
  | _ => exact .inl ⟨rfl, rfl, nofun⟩

theorem Effect.keeps_ring (effect : Effect m op m') :
    m'.readyRing.head = m.readyRing.head ∧ m'.readyRing.buf.length = m.readyRing.buf.length := by
  cases effect with
  | stores j t => exact ⟨rfl, length_set⟩
  | _ => exact ⟨rfl, rfl⟩

theorem Effect.loaded_tail {t : Nat} (effect : Effect m (.loadsTail t) m') : t = m.readyRing.tail := by
  cases effect
  rfl

section

variable (step : Program g v pc op pc')
include step

theorem Program.reserves_of_stores {j t : Nat} (stores : pc'.stores = some (j, t)) : op = .reserves j t := by
  have cancel (stack rest : List Nat) : (cancelNext stack rest).stores = none := by
    cases stack <;> cases rest <;> rfl
  have release (rest : List Nat) : (releaseNext rest).stores = none := by
    cases rest <;> rfl
  cases step with
  | reserves j rest t =>
    cases stores
    rfl
  | _ => first | cases stores | (rw [cancel] at stores; cases stores) | (rw [release] at stores; cases stores)

theorem Program.loadsTail_of_read {t : Nat} (read : pc'.read = some t) : op = .loadsTail t := by
  have cancel (stack rest : List Nat) : (cancelNext stack rest).read = none := by
    cases stack <;> cases rest <;> rfl
  have release (rest : List Nat) : (releaseNext rest).read = none := by
    cases rest <;> rfl
  cases step with
  | loadsTail j rest t =>
    cases read
    rfl
  | _ => first | cases read | (rw [cancel] at read; cases read) | (rw [release] at read; cases read)

theorem Program.stored {j t : Nat} : pc.stores = some (j, t) ↔ op = .stores j t := by
  cases step <;> simp [JobPc.stores]

theorem Program.reserved_stores {j t : Nat}
    (named : op = .reserves j t) :
    pc'.stores = some (j, t) ∧ j ∈ pc.pushes := by
  subst named
  cases step
  exact ⟨rfl, mem_singleton_self j⟩

end

namespace GraphRun

theorem RingInv.bound
    (valid : g.Valid)
    (inv : s.Inv g)
    (ring : s.RingInv g) :
    s.reserved.length ≤ s.shared.readyRing.buf.length ∧ s.reserved.length < 2 ^ 63 := by
  have reserved := inv.reserved_le
  have small := valid.small
  have room := ring.room
  omega

theorem RingInv.waiting_step
    (moves : JobMoves g s job op pc s')
    {i j : Nat}
    (unstored : op ≠ .stores j i)
    (waits : ∃ other ∈ s.jobs, other.pc.stores = some (j, i)) :
    ∃ other ∈ s'.jobs, other.pc.stores = some (j, i) := by
  obtain ⟨other, member, stores⟩ := waits
  rcases moves.kept member with rfl | member
  · exact absurd (moves.program.stored.mp stores) unstored
  · exact ⟨other, member, stores⟩

theorem RingInv.job_step
    (valid : g.Valid)
    (inv : s.Inv g)
    (ring : s.RingInv g)
    (moves : JobMoves g s job op pc s') : s'.RingInv g := by
  have bound := (inv.job_step valid ring.order moves).reserved_le
  have small := valid.small
  have room := ring.room
  obtain ⟨k, power⟩ := ring.power
  obtain ⟨front, length⟩ := moves.effect.keeps_ring
  have log : s'.reserved = s.reserved ++ op.reserved := moves.logged Op.reserved
  have head : s'.shared.readyRing.head + s'.dispatcher.taken = s'.popped.length := by
    rw [front, moves.dispatcher, moves.popped]
    exact ring.head
  have loaded : ∀ head, s'.dispatcher.loaded = some head → head = s'.shared.readyRing.head := by
    rw [front, moves.dispatcher]
    exact ring.loaded
  have grown {i j : Nat} (found : s.reserved[i]? = some j) : s'.reserved[i]? = some j := by
    rw [log, getElem?_append_left (List.getElem?_eq_some_iff.mp found).1]
    exact found
  have order : s'.popped <+: s'.reserved := by
    rw [moves.popped, log]
    exact ring.order.trans (prefix_append _ _)
  have storing (fresh : ∀ j t, op = .reserves j t → s'.reserved[t]? = some j) :
      ∀ other ∈ s'.jobs, ∀ j t, other.pc.stores = some (j, t) → s'.reserved[t]? = some j := by
    intro other member j t stores
    rcases moves.old member with rfl | member
    · exact fresh j t (moves.program.reserves_of_stores stores)
    · exact grown (ring.storing other member j t stores)
  have read : ∀ other ∈ s'.jobs, ∀ t, other.pc.read = some t → t ≤ s'.reserved.length := by
    intro other member t read
    rw [log, length_append]
    rcases moves.old member with rfl | member
    · have effect := moves.effect
      rw [moves.program.loadsTail_of_read read] at effect
      have tail := effect.loaded_tail
      rw [ring.tail] at tail
      omega
    · have below := ring.read other member t read
      omega
  have spinning : ∀ head drain, s'.dispatcher = .loadingSlot head drain → head < s'.reserved.length := by
    intro head drain here
    rw [moves.dispatcher] at here
    have below := ring.spinning head drain here
    rw [log, length_append]
    omega
  rcases moves.effect.readyRing with ⟨same, none, unstored⟩ | ⟨j, named, moved⟩ | ⟨j, t, named, moved⟩
  · rw [none, append_nil] at log
    refine ⟨⟨k, length.trans power⟩,
      length.symm ▸ room, by rw [same, log]; exact ring.tail, order, head, loaded, spinning, storing ?_, read, ?_, ?_⟩
    · intro j t named
      rw [named] at none
      cases none
    · intro i j popped found
      rw [moves.popped] at popped
      rw [log] at found
      rw [same]
      exact (ring.filled i j popped found).imp_right (.imp_right (waiting_step moves (unstored j i)))
    · rw [log, same]
      exact ring.unused
  · rw [named] at log
    have longer : s'.reserved.length = s.reserved.length + 1 := by
      rw [log, length_append]
      rfl
    have last : s'.reserved[s.reserved.length]? = some j := by
      rw [log]
      exact getElem?_concat_length
    have load (i : Nat) : s'.shared.readyRing.load i = s.shared.readyRing.load i := by
      rw [moved]
      rfl
    refine ⟨⟨k, length.trans power⟩, length.symm ▸ room, ?_, order, head, loaded, spinning, storing ?_, read, ?_, ?_⟩
    · rw [moved]
      dsimp only
      rw [ring.tail]
      omega
    · intro x t same
      rw [named, ring.tail] at same
      cases same
      exact last
    · intro i x popped found
      rw [moves.popped] at popped
      rw [load]
      by_cases old : i < s.reserved.length
      · rw [log, getElem?_append_left old] at found
        exact (ring.filled i x popped found).imp_right (.imp_right (waiting_step moves (by rw [named]; nofun)))
      · have inside := (List.getElem?_eq_some_iff.mp found).1
        have same : i = s.reserved.length := by omega
        subst same
        cases last.symm.trans found
        refine .inr ⟨ring.unused _ (le_refl _) (by omega), ⟨_, moves.member', ?_⟩⟩
        rw [← ring.tail]
        exact (moves.program.reserved_stores named).1
    · intro i above inside
      rw [load]
      exact ring.unused i (by omega) (length ▸ inside)
  · have reserved := ring.storing job moves.member j t (moves.program.stored.mpr named)
    have below := (List.getElem?_eq_some_iff.mp reserved).1
    have none : op.reserved = [] := by
      rw [named]
      rfl
    rw [none, append_nil] at log
    rw [log] at bound
    have load {i : Nat} (inside : i < s.shared.readyRing.buf.length) :
        s'.shared.readyRing.load i = if i = t then j else s.shared.readyRing.load i := by
      rw [moved]
      exact load_store power inside (by omega)
    refine ⟨⟨k, length.trans power⟩, length.symm ▸ room, ?_, order, head, loaded, spinning, storing ?_, read, ?_, ?_⟩
    · rw [moved, log]
      exact ring.tail
    · intro x i same
      rw [named] at same
      cases same
    · intro i x popped found
      rw [moves.popped] at popped
      rw [log] at found
      have inside := (List.getElem?_eq_some_iff.mp found).1
      rw [load (by omega)]
      by_cases same : i = t
      · subst same
        cases reserved.symm.trans found
        exact .inl (if_pos rfl)
      · rw [if_neg same]
        refine (ring.filled i x popped found).imp_right (.imp_right (waiting_step moves ?_))
        rw [named]
        intro equal
        cases equal
        exact same rfl
    · intro i above inside
      rw [log] at above
      rw [length] at inside
      rw [load inside, if_neg (by omega)]
      exact ring.unused i above inside

theorem RingInv.at_head
    (ring : s.RingInv g)
    {pc : DispatcherPc} {head : Nat}
    (here : s.dispatcher = pc)
    (loaded : pc.loaded = some head) :
    head = s.shared.readyRing.head ∧ head + pc.taken = s.popped.length := by
  subst here
  have same := ring.loaded head loaded
  exact ⟨same, same ▸ ring.head⟩

theorem RingInv.next_popped
    (ring : s.RingInv g)
    {head : Nat} {drain : Bool}
    (here : s.dispatcher = .loadingSlot head drain)
    (filled : s.shared.readyRing.load head ≠ sentinel) :
    s.popped ++ [s.shared.readyRing.load head] <+: s.reserved := by
  have next : head = s.popped.length := (ring.at_head here rfl).2
  have below := ring.spinning head drain here
  have found := getElem?_eq_getElem below
  rcases ring.filled head _ (by omega) found with stored | ⟨empty, _⟩
  · rw [stored, prefix_iff_eq_take.mp ring.order]
    subst next
    rw [take_append_getElem]
    exact take_prefix _ _
  · exact absurd empty filled

end GraphRun

theorem Dispatches.mem_jobs (dispatches : Dispatches g s s') (member : job ∈ s.jobs) : job ∈ s'.jobs := by
  rcases dispatches.jobs with same | ⟨v, more, _⟩
  · rwa [same]
  · rw [more]
    exact mem_append_left _ member

theorem Dispatches.old
    (dispatches : Dispatches g s s')
    (member : job ∈ s'.jobs)
    (begun : job.pc ≠ .queued) : job ∈ s.jobs := by
  rcases dispatches.jobs with same | ⟨v, more, _⟩
  · rwa [← same]
  · rw [more] at member
    rcases mem_append.mp member with old | new
    · exact old
    · cases mem_singleton.mp new
      exact absurd rfl begun

namespace GraphRun

theorem RingInv.idle_step
    (ring : s.RingInv g)
    (dispatches : Dispatches g s s')
    (same : s'.shared.readyRing = s.shared.readyRing)
    (popped : s'.popped = s.popped)
    (taken : s'.dispatcher.taken = s.dispatcher.taken)
    (loaded : ∀ head, s'.dispatcher.loaded = some head → head = s.shared.readyRing.head)
    (spinning : ∀ head drain, s'.dispatcher = .loadingSlot head drain → head < s.reserved.length) : s'.RingInv g := by
  have log : s'.reserved = s.reserved := by rw [reserved, dispatches.keeps.1, reserved]
  refine ⟨by rw [same]; exact ring.power, by rw [same]; exact ring.room, by rw [same, log]; exact ring.tail,
    by rw [popped, log]; exact ring.order, by rw [same, popped, taken]; exact ring.head, by rw [same]; exact loaded,
    by rw [log]; exact spinning, ?_, ?_, ?_, by rw [log, same]; exact ring.unused⟩
  · intro job member j t stores
    rw [log]
    apply ring.storing job (dispatches.old member _) j t stores
    intro queued
    rw [queued] at stores
    cases stores
  · intro job member t read
    rw [log]
    apply ring.read job (dispatches.old member _) t read
    intro queued
    rw [queued] at read
    cases read
  · intro i j above found
    rw [popped] at above
    rw [log] at found
    rw [same]
    rcases ring.filled i j above found with here | ⟨empty, job, member, stores⟩
    · exact .inl here
    · exact .inr ⟨empty, job, dispatches.mem_jobs member, stores⟩

theorem RingInv.advance_step (valid : g.Valid) (inv : s.Inv g) (ring : s.RingInv g) {head v : Nat} {drain : Bool}
    (here : s.dispatcher = .advancing head v drain)
    (next : DispatcherPc)
    (taken : next.taken = 0)
    (loaded : next.loaded = none) :
    ((s.withRing { s.shared.readyRing with head := (head + 1) % 2 ^ 64 }).jumps next).RingInv g := by
  obtain ⟨rfl, popped⟩ := ring.at_head here rfl
  change _ + 1 = _ at popped
  have ordered := ring.order.length_le
  have bound := ring.bound valid inv
  refine { ring with head := ?_, loaded := ?_, spinning := ?_ }
  · rw [jumps, withRing]
    dsimp only
    omega
  · intro other found
    have none := loaded.symm.trans found
    cases none
  · intro other drain slot
    rw [jumps] at slot
    dsimp only at slot
    rw [slot] at loaded
    cases loaded

theorem RingInv.dispatcher_step
    (valid : g.Valid)
    (inv : s.Inv g)
    (ring : s.RingInv g)
    (dispatches : Dispatches g s s') : s'.RingInv g := by
  have whole := dispatches
  cases dispatches with
  | takes head drain here filled =>
    obtain ⟨rfl, popped⟩ := ring.at_head here rfl
    refine { ring with
      order := ring.next_popped here filled, head := ?_, loaded := ?_, spinning := nofun, filled := ?_ }
    · rw [length_append]
      exact congrArg (· + 1) popped
    · intro other same
      cases same
      rfl
    · intro i j above found
      apply ring.filled i j _ found
      simp only [length_append] at above
      omega
  | clears head v drain here =>
    obtain ⟨loaded, popped⟩ := ring.at_head here rfl
    change _ + 1 = _ at popped
    have ordered := ring.order.length_le
    have bound := ring.bound valid inv
    obtain ⟨k, power⟩ := ring.power
    have length : (s.shared.readyRing.store head sentinel).buf.length = s.shared.readyRing.buf.length := length_set
    have load {i : Nat} (above : s.popped.length ≤ i) (inside : i < s.shared.readyRing.buf.length) :
        (s.shared.readyRing.store head sentinel).load i = s.shared.readyRing.load i := by
      rw [load_store power inside (by omega), if_neg (by omega)]
    refine ⟨⟨k, length.trans power⟩, length.symm ▸ ring.room, ring.tail, ring.order, loaded ▸ popped, ?_, nofun,
      ring.storing, ring.read, ?_, ?_⟩
    · intro other same
      cases same
      exact loaded
    · intro i j above found
      have inside : i < s.reserved.length := (List.getElem?_eq_some_iff.mp found).1
      have same := load above (by omega)
      exact same ▸ ring.filled i j above found
    · intro i above inside
      have reserved : s.reserved.length ≤ i := above
      exact (load (by omega) (length ▸ inside)).trans (ring.unused i above (length ▸ inside))
  | advances head v here | drops head v here => exact ring.advance_step valid inv here _ rfl rfl
  | loadsHead drain here =>
    refine ring.idle_step whole rfl rfl (by rw [here]; rfl) ?_ nofun
    intro head loaded
    cases loaded
    rfl
  | finds head drain here more =>
    obtain ⟨rfl, popped⟩ := ring.at_head here rfl
    refine ring.idle_step whole rfl rfl (by rw [here]; rfl) ?_ ?_
    · intro head loaded
      cases loaded
      rfl
    · intro head drain same
      cases same
      have reserved := ring.order.length_le
      have tail := ring.tail
      omega
  | spins head drain here unfilled => exact ring
  | finishes here none =>
    refine ring.idle_step whole rfl rfl ?_ nofun nofun
    rcases here with here | here <;> rw [here] <;> rfl
  | _ => exact ring.idle_step whole rfl rfl (by simp [*]; rfl) nofun nofun

theorem RingInv.step (valid : g.Valid) (inv : s.Inv g) (ring : s.RingInv g) (moves : g.Moves s s') : s'.RingInv g := by
  cases moves with
  | clashes member queued busy => exact { ring with }
  | job moves => exact ring.job_step valid inv moves
  | dispatcher dispatches => exact ring.dispatcher_step valid inv dispatches

theorem RingInv.start (g : Graph) : g.started.RingInv g := by
  have length : (new g.size).buf.length = 2 ^ Nat.clog 2 (max g.size 2) := length_replicate
  refine ⟨⟨_, length⟩, ?_, rfl, nil_prefix, rfl, nofun, nofun, nofun, nofun, nofun, ?_⟩
  · have power := Nat.le_pow_clog (by decide : 1 < 2) (max g.size 2)
    rw [Graph.started]
    dsimp only
    omega
  · intro i _ inside
    have below : i < 2 ^ Nat.clog 2 (max g.size 2) := length ▸ inside
    rw [Graph.started]
    rw [load, slot_eq length inside, new, getD_replicate _ below]

end GraphRun

theorem run_inv {turns : List Graph.Turn}
    (valid : g.Valid)
    (run : Run g.Step g.started turns s) : s.Inv g ∧ s.RingInv g := by
  apply run.invariant ⟨.start valid, .start g⟩
  intro s turn s' inv step
  have moves := step.moves.2
  exact ⟨inv.1.step valid inv.2.order moves, inv.2.step valid inv.1 moves⟩

end Steps

/-- Whether the head has passed the tail that some push has read. -/
def GraphRun.overtaken (s : GraphRun) : Bool :=
  s.jobs.any fun job => job.pc.read.any (· < s.shared.readyRing.head)

def Graph.UnovertakenStep (g : Graph) (s : GraphRun) (turn : Graph.Turn) (s' : GraphRun) : Prop :=
  s.overtaken = false ∧ g.Step s turn s'

section Overflow

variable {g : Graph} {s s' : GraphRun} {job : VertexJob} {turns : List Graph.Turn}

theorem GraphRun.Inv.never_busy
    (inv : s.Inv g)
    (order : s.popped <+: s.reserved)
    (member : job ∈ s.jobs)
    (queued : job.pc = .queued) : s.busy job.vertex = false := by
  rw [busy, any_eq_false]
  intro other there busy
  have same := inj_on_of_nodup_map (inv.vertices_nodup order) there member (of_decide_eq_true busy).1
  rw [same] at busy
  exact (of_decide_eq_true busy).2.1 queued

theorem GraphRun.Inv.slot_free
    (inv : s.Inv g)
    {j : Nat}
    (member : job ∈ s.jobs)
    (pushes : j ∈ job.pc.pushes) : s.reserved.length < g.size := by
  have pushing : j ∈ s.pushing := mem_flatMap.mpr ⟨job, member, pushes⟩
  have counted := count_pos_iff.mpr pushing
  have pushed := inv.pushed j
  have once := inv.readied_count j
  have fresh : j ∉ s.reserved := by
    rw [← count_eq_zero]
    omega
  have readied : j ∈ s.readied := count_pos_iff.mp (by omega)
  have more := Tally.length_le_range (nodup_cons.mpr ⟨fresh, inv.reserved_nodup⟩)
    (forall_mem_cons.mpr ⟨(inv.readied_lt readied).2.1, fun i other =>
      (inv.readied_lt (inv.reserved_readied other)).2.1⟩)
  rw [length_cons] at more
  omega

theorem Program.overflowing {v t : Nat} {pc pc' : JobPc} (step : Program g v pc (.overflows t) pc') :
    pc.read = some t ∧ ∃ j, j ∈ pc.pushes := by
  cases step with
  | overflows j rest t => exact ⟨rfl, j, mem_singleton_self j⟩

theorem Effect.found_full {t : Nat} {m m' : GraphShared} (effect : Effect m (.overflows t) m') :
    m.readyRing.full t = true := by
  cases effect
  assumption

theorem GraphRun.RingInv.alive_step
    (valid : g.Valid)
    (inv : s.Inv g)
    (ring : s.RingInv g)
    (calm : s.overtaken = false)
    (alive : s.aborted = false)
    (moves : g.Moves s s') : s'.aborted = false := by
  cases moves with
  | clashes member queued busy =>
    rw [inv.never_busy ring.order member queued] at busy
    cases busy
  | dispatcher dispatches => exact dispatches.keeps.2.1.trans alive
  | @job job op _ _ moves =>
    rw [moves.aborted]
    cases op with
    | overflows t =>
      obtain ⟨read, j, pushes⟩ := moves.program.overflowing
      have full := of_decide_eq_true moves.effect.found_full
      have free := inv.slot_free moves.member pushes
      have below := ring.read job moves.member t read
      have behind : s.shared.readyRing.head ≤ t := by
        rw [overtaken, any_eq_false] at calm
        have passed := calm job moves.member
        rw [read] at passed
        simpa using passed
      have small := valid.small
      have room := ring.room
      unfold wrappingSub at full
      omega
    | _ => rfl

theorem Graph.Moves.quiet
    (moves : g.Moves s s')
    (alive : s'.aborted = false)
    (quiet : ∀ v t, (v, .overflows t) ∉ s.log) : ∀ v t, (v, .overflows t) ∉ s'.log := by
  cases moves with
  | clashes member queued busy => exact quiet
  | dispatcher dispatches =>
    rw [dispatches.keeps.1]
    exact quiet
  | job moves =>
    intro v t member
    rw [moves.log] at member
    rcases mem_append.mp member with old | new
    · exact quiet v t old
    · rw [moves.aborted, ← (Prod.mk.inj (mem_singleton.mp new)).2] at alive
      cases alive

theorem run_alive
    (valid : g.Valid)
    (run : Run g.UnovertakenStep g.started turns s) :
    s.aborted = false ∧ ∀ v t, (v, .overflows t) ∉ s.log := by
  suffices all : (s.Inv g ∧ s.RingInv g) ∧ s.aborted = false ∧ ∀ v t, (v, .overflows t) ∉ s.log from all.2
  apply run.invariant ⟨⟨.start valid, .start g⟩, rfl, nofun⟩
  intro s turn s' inv step
  obtain ⟨⟨inv, ring⟩, alive, quiet⟩ := inv
  have moves := step.2.moves.2
  have alive' := ring.alive_step valid inv step.1 alive moves
  exact ⟨⟨inv.step valid ring.order moves, ring.step valid inv moves⟩, alive', moves.quiet alive' quiet⟩

theorem GraphRun.RingInv.found_empty
    (ring : s.RingInv g)
    {head : Nat} {drain : Bool}
    (here : s.dispatcher = .loadingTail head drain)
    (none : head = s.shared.readyRing.tail) : s.popped = s.reserved := by
  apply ring.order.eq_of_length
  rw [← ring.tail, ← none]
  exact (ring.at_head here rfl).2.symm

/-- While no push is overtaken, none overflows, and what is popped was pushed, each value once and in order. -/
theorem pushes_never_overflow {b : GraphBuilder}
    (finished : b.finish = .ok g)
    (run : Run g.UnovertakenStep g.started turns s) :
    s.aborted = false ∧ (∀ v t, (v, .overflows t) ∉ s.log) ∧ s.popped <+: s.reserved ∧ s.reserved.Nodup ∧
      ∀ head drain, s.dispatcher = .loadingTail head drain → head = s.shared.readyRing.tail →
      s.popped = s.reserved := by
  obtain ⟨valid, _⟩ := finish_valid finished
  obtain ⟨inv, ring⟩ := run_inv valid (run.mono fun _ _ _ step => step.2)
  obtain ⟨alive, quiet⟩ := run_alive valid run
  exact ⟨alive, quiet, ring.order, inv.reserved_nodup, fun head drain => ring.found_empty⟩

end Overflow

def plainItem : Item :=
  { taskId := none, declareTriggers := .ok ⟨[], none⟩, integrityLevel := .qualityManaged, appId := none
    appInstanceId := none }

def forkBuilder : GraphBuilder where
  items := List.replicate 5 plainItem
  edges := [(0, 1), (0, 2), (1, 3), (2, 4)]
  root := some 0
  few_items := by decide
  few_edges := by decide

def fork : Graph :=
  GraphBuilder.assemble (List.replicate 5 plainItem) [[1, 2], [3], [4], [], []] [0, 1, 1, 1, 1] 0 []

theorem forkBuilder_finish : forkBuilder.finish = .ok fork := rfl

def dispatcherTurns (n : Nat) : List Graph.Turn := List.replicate n .dispatcher

def jobTurns (k n : Nat) (result : ExecuteResult) : List Graph.Turn := List.replicate n (.job k result)

def inTurn : List Graph.Turn :=
  dispatcherTurns 6 ++ jobTurns 0 14 (.ok .proceed) ++ dispatcherTurns 12 ++ jobTurns 1 9 (.ok .proceed) ++
    jobTurns 2 9 (.ok .proceed) ++ dispatcherTurns 12 ++ jobTurns 3 4 (.ok .proceed) ++ jobTurns 4 3 (.ok .proceed) ++
    dispatcherTurns 7

def Graph.actUnovertaken (g : Graph) (s : GraphRun) (turn : Graph.Turn) : Option GraphRun :=
  if s.overtaken = false then g.act s turn else none

theorem unovertaken_of_follow {g : Graph} {start s : GraphRun} {turns : List Graph.Turn}
    (follows : Run.follow g.actUnovertaken start turns = some s) : Run g.UnovertakenStep start turns s :=
  (Run.of_follow follows).mono fun _ _ _ step => (Option.ite_none_right_eq_some.mp step)

theorem pushes_in_turn_never_overflow :
    ∃ s, Run fork.UnovertakenStep fork.started inTurn s ∧ s.dispatcher = .returned none false ∧
      s.popped = [1, 2, 3, 4] ∧ s.aborted = false ∧ s.popped <+: s.reserved := by
  have follows : ((Run.follow fork.actUnovertaken fork.started inTurn).map fun s => (s.dispatcher, s.popped)) =
      some (.returned none false, [1, 2, 3, 4]) := by
    decide +kernel
  obtain ⟨s, reached, facts⟩ := Option.map_eq_some_iff.mp follows
  have run := unovertaken_of_follow reached
  have ring := pushes_never_overflow forkBuilder_finish run
  exact ⟨s, run, (Prod.mk.inj facts).1, (Prod.mk.inj facts).2, ring.1, ring.2.2.1⟩

def overtaking : List Graph.Turn :=
  dispatcherTurns 6 ++ jobTurns 0 14 (.ok .proceed) ++ dispatcherTurns 12 ++ jobTurns 1 6 (.ok .proceed) ++
    jobTurns 2 9 (.ok .proceed) ++ dispatcherTurns 6 ++ jobTurns 1 1 (.ok .proceed)

/-- The push finds the ring full, although it has eight slots and only three values were ever pushed. -/
theorem overtaken_push_overflows : forkBuilder.finish = .ok fork ∧
      (Run.follow fork.act fork.started overtaking).map
          (fun s => (s.aborted, s.log.getLast?, s.reserved, s.popped, s.shared.readyRing.buf.length)) =
        some (true, some (1, .overflows 2), [1, 2, 4], [1, 2, 4], 8) :=
  ⟨forkBuilder_finish, by decide +kernel⟩

end Taktora.Exec
