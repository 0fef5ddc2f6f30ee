import Taktora.Alloc.Pool
import Taktora.Lib.Run

namespace Taktora.Alloc

open Checked List Function

structure Arenas where
  sc : Arena
  qm : Arena
  shared : qm.blockSize = sc.blockSize
  apart : sc.base + sc.maxBlocks * stride sc.blockSize ≤ qm.base ∨
    qm.base + qm.maxBlocks * stride qm.blockSize ≤ sc.base

variable (arenas : Arenas)

def Arenas.arena : IntegrityLevel → Arena
  | .safetyCritical => arenas.sc
  | .qualityManaged => arenas.qm

theorem Arenas.arena_blockSize (level : IntegrityLevel) :
    (arenas.arena level).blockSize = arenas.sc.blockSize := by
  cases level with
  | safetyCritical => rfl
  | qualityManaged => exact arenas.shared

structure PartitionedBoundedAllocator where
  scPool : BoundedAllocator
  qmPool : BoundedAllocator
deriving DecidableEq, Repr

namespace PartitionedBoundedAllocator

variable (arenas : Arenas) (p : PartitionedBoundedAllocator)

def new : PartitionedBoundedAllocator := ⟨.new arenas.sc, .new arenas.qm⟩

def pool : IntegrityLevel → BoundedAllocator
  | .safetyCritical => p.scPool
  | .qualityManaged => p.qmPool

def withPool (pool : BoundedAllocator) : IntegrityLevel → PartitionedBoundedAllocator
  | .safetyCritical => { p with scPool := pool }
  | .qualityManaged => { p with qmPool := pool }

def allocIn (level : IntegrityLevel) (layout : Layout) :
    Except Panic (Option Pointer × PartitionedBoundedAllocator) := do
  let (ptr, pool) ← (p.pool level).alloc (arenas.arena level) layout
  .ok (ptr, p.withPool pool level)

def alloc (currentIntegrityLevel : IntegrityLevel) (layout : Layout) :
    Except Panic (Option Pointer × PartitionedBoundedAllocator) := p.allocIn arenas currentIntegrityLevel layout

def deallocIn (level : IntegrityLevel) (addr : Nat) : Except Panic PartitionedBoundedAllocator := do
  let pool ← (p.pool level).dealloc (arenas.arena level) addr
  .ok (p.withPool pool level)

def ownerOf (addr : Nat) : IntegrityLevel :=
  let scArenaStart := arenas.sc.base
  let scArenaEnd := scArenaStart + arenas.sc.capacityBytes
  if scArenaStart ≤ addr ∧ addr < scArenaEnd then .safetyCritical else .qualityManaged

def dealloc (addr : Nat) : Except Panic PartitionedBoundedAllocator := p.deallocIn arenas (ownerOf arenas addr) addr

@[simp] theorem pool_withPool (pool : BoundedAllocator) (level other : IntegrityLevel) :
    (p.withPool pool level).pool other = if other = level then pool else p.pool other := by
  cases level <;> cases other <;> rfl

end PartitionedBoundedAllocator

open PartitionedBoundedAllocator

structure Usage where
  pools : PartitionedBoundedAllocator
  live : IntegrityLevel → List Pointer

inductive Use where
  | allocIn (level : IntegrityLevel) (layout : Layout)
  | alloc (currentIntegrityLevel : IntegrityLevel) (layout : Layout)
  | dealloc (level : IntegrityLevel) (ptr : Pointer)
deriving DecidableEq, Repr

namespace Usage

def start : Usage := ⟨.new arenas, fun _ => []⟩

variable (s : Usage) (level : IntegrityLevel)

def allocated (ptr : Option Pointer) (pools : PartitionedBoundedAllocator) : Usage :=
  ⟨pools, update s.live level (ptr.toList ++ s.live level)⟩

def freed (ptr : Pointer) (pools : PartitionedBoundedAllocator) : Usage :=
  ⟨pools, update s.live level ((s.live level).erase ptr)⟩

def perform : Use → Option Usage
  | .allocIn level layout =>
    (s.pools.allocIn arenas level layout).toOption.map fun result => s.allocated level result.1 result.2
  | .alloc level layout =>
    (s.pools.alloc arenas level layout).toOption.map fun result => s.allocated level result.1 result.2
  | .dealloc level ptr =>
    if ptr ∈ s.live level then (s.pools.dealloc arenas ptr.addr).toOption.map (s.freed level ptr) else none

def Step (use : Use) (s' : Usage) : Prop := s.perform arenas use = some s'

def blocks : List Nat := (s.live level).map (·.block)

/-- The flags are the complement of the live blocks, and freeing a pointer frees its block and nothing else. -/
structure Accounted (arenas : Arenas) (s : Usage) : Prop where
  distinct : ∀ level, (s.blocks level).Nodup
  complement : ∀ level, ∀ b < (arenas.arena level).maxBlocks,
    (s.pools.pool level).bitmap.flag b = true ↔ b ∉ s.blocks level
  inUse : ∀ level, (s.pools.pool level).inUse = (s.blocks level).length
  frees : ∀ level, ∀ ptr ∈ s.live level, ∃ pools, s.pools.dealloc arenas ptr.addr = .ok pools ∧
    (∀ b < (arenas.arena level).maxBlocks,
      (pools.pool level).bitmap.flag b = ((s.pools.pool level).bitmap.flag b || decide (b = ptr.block))) ∧
    ∀ other ≠ level, pools.pool other = s.pools.pool other

structure Inv (arenas : Arenas) (s : Usage) : Prop where
  holds : ∀ level, (s.pools.pool level).Holds (arenas.arena level) (s.blocks level)
  pointers : ∀ level, s.live level = (s.blocks level).map (arenas.arena level).pointer
  unlocked : ∀ level, (s.pools.pool level).locked = false

end Usage

/-- Every block of the first arena starts within the range that `dealloc` takes for that arena. -/
def Arenas.Separable : Prop :=
  (arenas.sc.maxBlocks = 0 ∨
    (arenas.sc.maxBlocks - 1) * stride arenas.sc.blockSize < arenas.sc.maxBlocks * arenas.sc.blockSize) ∧
      (arenas.qm.maxBlocks = 0 ∨ 0 < arenas.sc.blockSize)

theorem le_stride (size : Nat) : size ≤ stride size := by
  unfold stride
  omega

theorem stride_pos {size : Nat} (positive : 0 < size) : 0 < stride size := lt_of_lt_of_le positive (le_stride size)

namespace Usage

variable {arenas : Arenas} {s s' : Usage} {level other : IntegrityLevel} {ptr : Pointer} {use : Use}
    {history : List Use}

theorem start_inv (arenas : Arenas) : (start arenas).Inv arenas := by
  constructor
  · intro level
    cases level <;> exact BoundedAllocator.Holds.new _
  · intro level
    rfl
  · intro level
    cases level <;> rfl

theorem Inv.update
    (inv : s.Inv arenas)
    {pool : BoundedAllocator} {used : List Nat}
    (holds : pool.Holds (arenas.arena level) used)
    (unlocked : pool.locked = false) :
    Inv arenas ⟨s.pools.withPool pool level, update s.live level (used.map (arenas.arena level).pointer)⟩ := by
  have blocks : (used.map (arenas.arena level).pointer).map (·.block) = used := by
    rw [map_map]
    exact map_id used
  constructor
  · intro other
    by_cases same : other = level
    · subst same
      simpa [Usage.blocks, blocks] using holds
    · simpa [Usage.blocks, same] using inv.holds other
  · intro other
    by_cases same : other = level
    · subst same
      simp only [Usage.blocks, update_self, blocks]
    · simpa [Usage.blocks, same] using inv.pointers other
  · intro other
    by_cases same : other = level
    · simpa [same] using unlocked
    · simpa [same] using inv.unlocked other

theorem Inv.allocIn (inv : s.Inv arenas) {layout : Layout} {ptr : Option Pointer} {pools : PartitionedBoundedAllocator}
    (returned : s.pools.allocIn arenas level layout = .ok (ptr, pools)) : (s.allocated level ptr pools).Inv arenas := by
  obtain ⟨⟨_, _⟩, served, same⟩ := bind_ok returned
  cases same
  cases ptr with
  | none =>
    cases BoundedAllocator.alloc_none served
    have kept := inv.update (inv.holds level) (inv.unlocked level)
    rwa [← inv.pointers level] at kept
  | some ptr =>
    obtain ⟨pointed, holds, locked⟩ := (inv.holds level).alloc served
    have added := inv.update holds (locked.trans (inv.unlocked level))
    rwa [map_cons, ← pointed, ← inv.pointers level] at added

theorem block_of_live
    (inv : s.Inv arenas)
    (member : ptr ∈ s.live level) :
    ptr = (arenas.arena level).pointer ptr.block ∧ ptr.block ∈ s.blocks level := by
  have here := member
  rw [inv.pointers level] at here
  obtain ⟨_, _, same⟩ := mem_map.mp here
  subst same
  exact ⟨rfl, mem_map_of_mem member⟩

section Separable

variable (separable : arenas.Separable)
include separable

theorem stride_of_block {block : Nat} (inside : block < (arenas.arena level).maxBlocks) :
    0 < stride (arenas.arena level).blockSize := by
  apply stride_pos
  cases level with
  | safetyCritical =>
    rcases separable.1 with none | less
    · exact absurd inside (none ▸ Nat.not_lt_zero block)
    · exact Nat.pos_of_mul_pos_left (lt_of_le_of_lt (Nat.zero_le _) less)
  | qualityManaged =>
    rcases separable.2 with none | positive
    · exact absurd inside (none ▸ Nat.not_lt_zero block)
    · exact arenas.shared ▸ positive

theorem ownerOf_pointer {block : Nat} (inside : block < (arenas.arena level).maxBlocks) :
    ownerOf arenas ((arenas.arena level).pointer block).addr = level := by
  have positive := stride_of_block separable inside
  have capacity : arenas.sc.capacityBytes ≤ arenas.sc.maxBlocks * stride arenas.sc.blockSize :=
    Nat.mul_le_mul_left _ (le_stride _)
  dsimp only [Arena.pointer]
  cases level with
  | safetyCritical =>
    dsimp only [Arenas.arena] at *
    have last : block * stride arenas.sc.blockSize ≤ (arenas.sc.maxBlocks - 1) * stride arenas.sc.blockSize :=
      Nat.mul_le_mul_right _ (by omega)
    rcases separable.1 with _ | less
    · omega
    · exact if_pos ⟨Nat.le_add_right _ _, Nat.add_lt_add_left (lt_of_le_of_lt last less) _⟩
  | qualityManaged =>
    dsimp only [Arenas.arena] at *
    have below : block * stride arenas.qm.blockSize < arenas.qm.maxBlocks * stride arenas.qm.blockSize :=
      Nat.mul_lt_mul_of_pos_right inside positive
    apply if_neg
    rcases arenas.apart with _ | _ <;> omega

variable (inv : s.Inv arenas)
include inv

theorem Inv.dealloc
    (member : ptr ∈ s.live level) :
    s.pools.dealloc arenas ptr.addr =
      .ok (s.pools.withPool ((s.pools.pool level).restore ptr.block).countDealloc level) := by
  obtain ⟨pointed, used⟩ := block_of_live inv member
  have inside := (inv.holds level).inside _ used
  have released := ((inv.holds level).dealloc (stride_of_block separable inside) used).1
  have owner := ownerOf_pointer separable inside
  rw [← pointed] at released owner
  rw [PartitionedBoundedAllocator.dealloc, owner, PartitionedBoundedAllocator.deallocIn, released]
  rfl

theorem Inv.freed (member : ptr ∈ s.live level) :
    (s.freed level ptr (s.pools.withPool ((s.pools.pool level).restore ptr.block).countDealloc level)).Inv arenas := by
  obtain ⟨pointed, used⟩ := block_of_live inv member
  have inside := (inv.holds level).inside _ used
  have released := ((inv.holds level).dealloc (stride_of_block separable inside) used).2
  have updated := inv.update released (inv.unlocked level)
  have injective : Injective (arenas.arena level).pointer := fun _ _ same => congrArg Pointer.block same
  rwa [map_erase injective, ← inv.pointers level, ← pointed] at updated

theorem Inv.step (step : s.Step arenas use s') : s'.Inv arenas := by
  cases use with
  | allocIn | alloc =>
    obtain ⟨⟨_, _⟩, returned, same⟩ := Option.map_eq_some_iff.mp step
    exact same ▸ inv.allocIn (ok_of_toOption returned)
  | dealloc level ptr =>
    obtain ⟨member, freed⟩ := Option.ite_none_right_eq_some.mp step
    obtain ⟨_, returned, same⟩ := Option.map_eq_some_iff.mp freed
    cases (inv.dealloc separable member).symm.trans (ok_of_toOption returned)
    exact same ▸ inv.freed separable member

theorem Inv.accounted : s.Accounted arenas := by
  refine ⟨fun level => (inv.holds level).distinct, fun level => (inv.holds level).complement,
    fun level => (inv.holds level).inUse, ?_⟩
  intro level ptr member
  refine ⟨_, inv.dealloc separable member, ?_, ?_⟩
  · intro b _
    have inside := (inv.holds level).inside _ (block_of_live inv member).2
    rw [pool_withPool, if_pos rfl]
    exact BoundedAllocator.restore_flag ((inv.holds level).words ▸ bitmapWords_bound inside) b
  · intro other different
    rw [pool_withPool, if_neg different]

end Separable

theorem fill (arenas : Arenas) (level : IntegrityLevel) {count : Nat}
    (enough : count ≤ (arenas.arena level).maxBlocks) :
    ∃ history s, Run (Step arenas) (start arenas) history s ∧ s.Inv arenas ∧ (s.blocks level).length = count := by
  induction count with
  | zero =>
    exact ⟨[], _, .nil, start_inv arenas, rfl⟩
  | succ count ih =>
    obtain ⟨_, s, run, inv, length⟩ := ih (le_of_lt enough)
    have room : (s.blocks level).length < (arenas.arena level).maxBlocks := length.trans_lt enough
    have succeeds : ∃ ptr pool, (s.pools.pool level).alloc (arenas.arena level) ⟨0, 1⟩ = .ok (some ptr, pool) :=
      (inv.holds level).alloc_succeeds (inv.unlocked level) room (Nat.zero_le _) (by decide)
    obtain ⟨ptr, pool, served⟩ := succeeds
    have returned : s.pools.allocIn arenas level ⟨0, 1⟩ = .ok (some ptr, s.pools.withPool pool level) := by
      rw [allocIn, served]
      rfl
    have step : s.Step arenas (.allocIn level ⟨0, 1⟩) (s.allocated level (some ptr) (s.pools.withPool pool level)) := by
      rw [Step, perform, returned]
      rfl
    refine ⟨_, _, .snoc run step, inv.allocIn returned, ?_⟩
    simp [blocks, allocated, ← length]

theorem not_accounted_of_owner
    (inv : s.Inv arenas)
    (member : ptr ∈ s.live level)
    (owner : ownerOf arenas ptr.addr ≠ level) : ¬s.Accounted arenas := by
  intro accounted
  obtain ⟨_, used⟩ := block_of_live inv member
  have inside := (inv.holds level).inside _ used
  obtain ⟨_, freed, flags, _⟩ := accounted.frees level ptr member
  obtain ⟨_, _, same⟩ := bind_ok freed
  cases same
  have flag := flags ptr.block inside
  rw [pool_withPool, if_neg owner.symm, decide_eq_true rfl, Bool.or_true,
    accounted.complement level _ inside] at flag
  exact flag used

theorem separable_of_accounted
    (accounted : ∀ history s, Run (Step arenas) (start arenas) history s → s.Accounted arenas) : arenas.Separable := by
  constructor
  · by_contra apart
    obtain ⟨some_, beyond⟩ := not_or.mp apart
    obtain ⟨history, s, run, inv, length⟩ := fill arenas .safetyCritical le_rfl
    have holds := inv.holds .safetyCritical
    have last : arenas.sc.maxBlocks - 1 ∈ s.blocks .safetyCritical :=
      Tally.mem_of_length_ge holds.distinct holds.inside length.ge (Nat.sub_one_lt some_)
    obtain ⟨ptr, member, block⟩ := mem_map.mp last
    refine not_accounted_of_owner inv member ?_ (accounted history s run)
    have addr : ptr.addr = arenas.sc.base + ptr.block * stride arenas.sc.blockSize :=
      congrArg Pointer.addr (block_of_live inv member).1
    have past : ¬(arenas.sc.base ≤ ptr.addr ∧ ptr.addr < arenas.sc.base + arenas.sc.capacityBytes) := by
      rw [addr, block, add_lt_add_iff_left]
      exact fun within => beyond within.2
    rw [ownerOf, if_neg past]
    decide
  · by_contra apart
    obtain ⟨some_, empty⟩ := not_or.mp apart
    obtain ⟨history, s, run, _, length⟩ := fill arenas .qualityManaged (Nat.one_le_iff_ne_zero.mpr some_)
    obtain ⟨block, used⟩ := length_eq_one_iff.mp length
    have here : block ∈ s.blocks .qualityManaged := used ▸ mem_singleton_self block
    obtain ⟨ptr, member, _⟩ := mem_map.mp here
    obtain ⟨_, freed, _⟩ := (accounted history s run).frees _ ptr member
    obtain ⟨_, released, _⟩ := bind_ok freed
    obtain ⟨_, divided, _⟩ := bind_ok released
    rw [Arena.blockIndexOf, arenas.arena_blockSize, Nat.eq_zero_of_not_pos empty] at divided
    cases divided

/-- Every freed block goes back to its own pool exactly if the first arena's blocks start in its nominal size. -/
theorem freed_blocks_return_iff (arenas : Arenas) :
    (∀ history s, Run (Step arenas) (start arenas) history s → s.Accounted arenas) ↔ arenas.Separable := by
  refine ⟨separable_of_accounted, fun separable history s run => ?_⟩
  have inv : s.Inv arenas := run.invariant (start_inv arenas) fun _ _ _ inv step => inv.step separable step
  exact inv.accounted separable

/-- An allocation is refused exactly if the layout does not fit or every block of the level is live. -/
theorem allocation_refused_iff
    (separable : arenas.Separable)
    (run : Run (Step arenas) (start arenas) history s)
    (level : IntegrityLevel) (layout : Layout) :
    ∃ ptr pools, s.pools.allocIn arenas level layout = .ok (ptr, pools) ∧
      (ptr = none ↔ (arenas.arena level).blockSize < layout.size ∨ 64 < layout.align ∨
      (s.blocks level).length = (arenas.arena level).maxBlocks) := by
  have inv : s.Inv arenas := run.invariant (start_inv arenas) fun _ _ _ inv step => inv.step separable step
  have holds := inv.holds level
  rw [allocIn, BoundedAllocator.alloc, inv.unlocked, if_neg Bool.false_ne_true]
  split_ifs with large wide
  · exact ⟨none, _, rfl, by simp [large]⟩
  · exact ⟨none, _, rfl, by simp [wide]⟩
  cases claimed : (s.pools.pool level).tryClaimBlock (arenas.arena level) with
  | none =>
    have all : range (arenas.arena level).maxBlocks ⊆ s.blocks level := by
      intro b member
      have inside := mem_range.mp member
      have flag := holds.complement b inside
      simpa [BoundedAllocator.tryClaimBlock_none claimed inside] using flag
    have most := length_range ▸ (nodup_range.subperm all).length_le
    exact ⟨none, _, rfl, by simp [most.antisymm holds.few]⟩
  | some found =>
    obtain ⟨inside, free, _⟩ := BoundedAllocator.tryClaimBlock_some claimed
    have more := Tally.length_le_range (nodup_cons.mpr ⟨(holds.complement _ inside).mp free, holds.distinct⟩)
      (forall_mem_cons.mpr ⟨inside, holds.inside⟩)
    exact ⟨some _, _, rfl, by simp [large, wide, (Nat.lt_of_succ_le more).ne]⟩

end Usage

/-- The only block of a level is taken, the next allocation is refused, and the one after the block is freed is served.
-/
theorem freed_level_serves :
    let request := Use.allocIn .qualityManaged ⟨64, 8⟩
    ∃ arenas s s' refused served pools pools', Run (Usage.Step arenas) (.start arenas) [request] s ∧
      s.pools.allocIn arenas .qualityManaged ⟨64, 8⟩ = .ok (refused, pools) ∧ refused = none ∧
      Run (Usage.Step arenas) (.start arenas) [request, request, .dealloc .qualityManaged ⟨0, 8192⟩] s' ∧
      s'.pools.allocIn arenas .qualityManaged ⟨64, 8⟩ = .ok (served, pools') ∧ served ≠ none := by
  intro request
  let arenas : Arenas := ⟨⟨1, 64, 4096, by decide, by decide⟩, ⟨1, 64, 8192, by decide, by decide⟩, rfl,
    .inl (by decide)⟩
  have separable : arenas.Separable := ⟨.inr (by decide), .inr (by decide)⟩
  have full : (Run.follow (Usage.perform arenas) (.start arenas) [request]).map
      (fun s => (s.blocks .qualityManaged).length) = some 1 := by
    decide +kernel
  have freed : (Run.follow (Usage.perform arenas) (.start arenas)
      [request, request, .dealloc .qualityManaged ⟨0, 8192⟩]).map
      (fun s => (s.blocks .qualityManaged).length) = some 0 := by
    decide +kernel
  obtain ⟨s, followed, taken⟩ := Option.map_eq_some_iff.mp full
  obtain ⟨s', followed', left⟩ := Option.map_eq_some_iff.mp freed
  have run : Run (Usage.Step arenas) _ _ s := Run.of_follow followed
  have run' : Run (Usage.Step arenas) _ _ s' := Run.of_follow followed'
  obtain ⟨refused, pools, returned, refuses⟩ := Usage.allocation_refused_iff separable run .qualityManaged ⟨64, 8⟩
  obtain ⟨served, pools', returned', serves⟩ := Usage.allocation_refused_iff separable run' .qualityManaged ⟨64, 8⟩
  refine ⟨arenas, s, s', refused, served, pools, pools', run, returned, refuses.mpr (.inr (.inr taken)), run',
    returned', mt serves.mp ?_⟩
  rw [left]
  decide

def narrowArenas : Arenas where
  sc := ⟨4, 32, 4096, by decide, by decide⟩
  qm := ⟨4, 32, 8192, by decide, by decide⟩
  shared := rfl
  apart := .inl (by decide)

/-- The third block starts where the range of the first pool ends, and the second pool does not know it. -/
theorem third_block_panics : ((Run.follow (Usage.perform narrowArenas) (.start narrowArenas)
        (List.replicate 3 (.allocIn .safetyCritical ⟨32, 8⟩))).map fun s =>
      (s.live .safetyCritical, s.pools.dealloc narrowArenas 4224)) =
        some ([⟨2, 4224⟩, ⟨1, 4160⟩, ⟨0, 4096⟩], .error .assertion) ∧
      ¬narrowArenas.Separable := by
  refine ⟨by decide +kernel, ?_⟩
  rintro ⟨few | less, _⟩
  · cases few
  · exact absurd less (by decide)

end Taktora.Alloc
