import Taktora.Lib.Bitmap
import Taktora.Lib.Checked
import Taktora.Lib.Tally

namespace Taktora.Alloc

open Checked List Bitmap

inductive IntegrityLevel where
  | safetyCritical
  | qualityManaged
deriving DecidableEq, Repr

structure Layout where
  size : Nat
  align : Nat
deriving DecidableEq, Repr

def stride (blockSize : Nat) : Nat := (blockSize + 63) / 64 * 64

/-- A pointer into an arena. The block it was made from is not visible to `dealloc`. -/
structure Pointer where
  block : Nat
  addr : Nat
deriving DecidableEq, Repr

structure Arena where
  maxBlocks : Nat
  blockSize : Nat
  base : Nat
  count : maxBlocks < 2 ^ 64
  fits : base + maxBlocks * stride blockSize < 2 ^ 64

namespace Arena

variable (arena : Arena)

def bitmapWords : Nat := (arena.maxBlocks + 63) / 64

def capacityBytes : Nat := arena.maxBlocks * arena.blockSize

def pointer (block : Nat) : Pointer := ⟨block, arena.base + block * stride arena.blockSize⟩

def blockIndexOf (addr : Nat) : Except Panic Nat :=
  Checked.div ((addr + 2 ^ 64 - arena.base) % 2 ^ 64) (stride arena.blockSize)

def candidate (wordIdx : Nat) (word : BitVec 64) : Option Nat :=
  if word = 0 then none
  else if arena.maxBlocks ≤ wordIdx * 64 + word.ctz.toNat then none
  else some (wordIdx * 64 + word.ctz.toNat)

end Arena

structure BoundedAllocator where
  bitmap : Bitmap 64
  allocCount : Nat
  deallocCount : Nat
  peakInUse : Nat
  inUse : Nat
  locked : Bool
deriving DecidableEq, Repr

namespace BoundedAllocator

variable (arena : Arena)

def new : BoundedAllocator := ⟨Bitmap.ones 64 arena.bitmapWords, 0, 0, 0, 0, false⟩

variable (a : BoundedAllocator)

def lock : BoundedAllocator := { a with locked := true }

def claim (block : Nat) : BoundedAllocator :=
  { a with bitmap := a.bitmap.set (block / 64) (Bitmap.cleared (a.bitmap.word (block / 64)) (block % 64)) }

def restore (block : Nat) : BoundedAllocator :=
  { a with bitmap := a.bitmap.set (block / 64) (Bitmap.raised (a.bitmap.word (block / 64)) (block % 64)) }

def countAlloc : BoundedAllocator :=
  { a with
    allocCount := (a.allocCount + 1) % 2 ^ 64
    inUse := (a.inUse + 1) % 2 ^ 64
    peakInUse := max a.peakInUse (a.inUse + 1) }

def countDealloc : BoundedAllocator :=
  { a with deallocCount := (a.deallocCount + 1) % 2 ^ 64, inUse := (a.inUse + 2 ^ 64 - 1) % 2 ^ 64 }

/-- The scan of a call that runs alone, whose `compare_exchange` succeeds. -/
def tryClaimBlock : Option (Nat × BoundedAllocator) :=
  ((List.range arena.bitmapWords).findSome? fun w => arena.candidate w (a.bitmap.word w)).map fun block =>
    (block, a.claim block)

def releaseBlock (block : Nat) : Except Panic BoundedAllocator :=
  if block < arena.maxBlocks then .ok (a.restore block) else .error .assertion

def alloc (layout : Layout) : Except Panic (Option Pointer × BoundedAllocator) :=
  if a.locked then .error .assertion
  else if arena.blockSize < layout.size then .ok (none, a)
  else if 64 < layout.align then .ok (none, a)
  else
    match a.tryClaimBlock arena with
    | none => .ok (none, a)
    | some (block, a) => .ok (some (arena.pointer block), a.countAlloc)

def dealloc (addr : Nat) : Except Panic BoundedAllocator := do
  let block ← arena.blockIndexOf addr
  let a ← a.releaseBlock arena block
  .ok a.countDealloc

end BoundedAllocator

section Arenas

variable {arena : Arena} {word : BitVec 64} {words : Bitmap 64} {w block : Nat}

theorem bitmapWords_bound (inside : block < arena.maxBlocks) : block / 64 < arena.bitmapWords := by
  unfold Arena.bitmapWords
  omega

theorem candidate_eq
    (found : (arena.candidate w word).isSome) :
    arena.candidate w word = some (w * 64 + word.ctz.toNat) := by
  unfold Arena.candidate at *
  split at found
  · cases found
  · split at found
    · cases found
    · rename_i nonzero inside
      rw [if_neg nonzero, if_neg inside]

theorem candidate_some (found : arena.candidate w (words.word w) = some block) :
    block < arena.maxBlocks ∧ words.flag block = true ∧ block / 64 = w := by
  unfold Arena.candidate at found
  split at found
  · cases found
  · rename_i nonzero
    split at found
    · cases found
    · rename_i inside
      cases found
      have small := ctz_lt nonzero
      refine ⟨not_le.mp inside, ?_, by omega⟩
      rw [flag_at (by decide) small]
      exact BitVec.getLsbD_true_ctz_of_ne_zero nonzero

theorem candidate_none
    (missing : arena.candidate w (words.word w) = none)
    (inside : block < arena.maxBlocks)
    (here : block / 64 = w) : words.flag block = false := by
  have position : block = w * 64 + block % 64 := by omega
  rw [position, flag_at (by decide) (Nat.mod_lt block (by decide))]
  unfold Arena.candidate at missing
  split at missing
  · rename_i zero
    rw [zero]
    exact BitVec.getLsbD_zero
  · split at missing
    · apply BitVec.getLsbD_false_of_lt_ctz
      omega
    · cases missing

theorem blockIndexOf_pointer
    (positive : 0 < stride arena.blockSize)
    (inside : block < arena.maxBlocks) :
    arena.blockIndexOf (arena.pointer block).addr = .ok block := by
  have below : block * stride arena.blockSize ≤ arena.maxBlocks * stride arena.blockSize :=
    Nat.mul_le_mul_right _ inside.le
  have fits := arena.fits
  have offset : (arena.pointer block).addr + 2 ^ 64 - arena.base = block * stride arena.blockSize + 2 ^ 64 := by
    dsimp only [Arena.pointer]
    omega
  unfold Arena.blockIndexOf
  rw [offset, Nat.add_mod_right, Nat.mod_eq_of_lt (by omega), div_ok (ne_of_gt positive), Nat.mul_div_cancel _ positive]

end Arenas

namespace BoundedAllocator

variable {arena : Arena} {a a' : BoundedAllocator} {used : List Nat} {block b : Nat} {layout : Layout} {ptr : Pointer}

theorem claim_flag (inside : block / 64 < a.bitmap.length) (b : Nat) :
    (a.claim block).bitmap.flag b = (a.bitmap.flag b && decide (b ≠ block)) := flag_clear (by decide) inside

theorem restore_flag (inside : block / 64 < a.bitmap.length) (b : Nat) :
    (a.restore block).bitmap.flag b = (a.bitmap.flag b || decide (b = block)) := flag_raise (by decide) inside

theorem tryClaimBlock_some (found : a.tryClaimBlock arena = some (block, a')) :
    block < arena.maxBlocks ∧ a.bitmap.flag block = true ∧ a' = a.claim block := by
  obtain ⟨b, scanned, same⟩ := Option.map_eq_some_iff.mp found
  cases same
  obtain ⟨w, _, here⟩ := exists_of_findSome?_eq_some scanned
  obtain ⟨inside, free, _⟩ := candidate_some here
  exact ⟨inside, free, rfl⟩

theorem tryClaimBlock_none
    (missing : a.tryClaimBlock arena = none)
    (inside : b < arena.maxBlocks) : a.bitmap.flag b = false := by
  have scanned := findSome?_eq_none_iff.mp (Option.map_eq_none_iff.mp missing)
  exact candidate_none (scanned (b / 64) (mem_range.mpr (bitmapWords_bound inside))) inside rfl

theorem alloc_some (returned : a.alloc arena layout = .ok (some ptr, a')) :
    ∃ block, a.tryClaimBlock arena = some (block, a.claim block) ∧ ptr = arena.pointer block ∧
      a' = (a.claim block).countAlloc := by
  unfold alloc at returned
  split_ifs at returned
  · cases returned
  · cases returned
  · split at returned
    · cases returned
    · rename_i block _ claimed
      obtain ⟨_, _, rfl⟩ := tryClaimBlock_some claimed
      cases returned
      exact ⟨block, claimed, rfl, rfl⟩

theorem alloc_none (returned : a.alloc arena layout = .ok (none, a')) : a' = a := by
  unfold alloc at returned
  split_ifs at returned
  · cases returned
    rfl
  · cases returned
    rfl
  · split at returned
    · cases returned
      rfl
    · cases returned

structure Holds (arena : Arena) (a : BoundedAllocator) (used : List Nat) : Prop where
  words : a.bitmap.length = arena.bitmapWords
  distinct : used.Nodup
  inside : ∀ b ∈ used, b < arena.maxBlocks
  complement : ∀ b < arena.maxBlocks, a.bitmap.flag b = true ↔ b ∉ used
  inUse : a.inUse = used.length

namespace Holds

theorem new (arena : Arena) : Holds arena (.new arena) [] := by
  refine ⟨length_replicate, nodup_nil, nofun, ?_, rfl⟩
  intro b inside
  have enough : b < arena.bitmapWords * 64 := by
    unfold Arena.bitmapWords
    omega
  simp only [not_mem_nil, not_false_eq_true, iff_true]
  exact flag_ones (by decide) enough

section

variable (holds : Holds arena a used)
include holds

theorem few : used.length ≤ arena.maxBlocks := Tally.length_le_range holds.distinct holds.inside

theorem alloc (returned : a.alloc arena layout = .ok (some ptr, a')) :
    ptr = arena.pointer ptr.block ∧ Holds arena a' (ptr.block :: used) ∧ a'.locked = a.locked := by
  obtain ⟨block, claimed, pointed, counted⟩ := alloc_some returned
  obtain ⟨inside, free, _⟩ := tryClaimBlock_some claimed
  subst pointed counted
  have fresh := (holds.complement block inside).mp free
  have distinct : (block :: used).Nodup := nodup_cons.mpr ⟨fresh, holds.distinct⟩
  have bounds : ∀ b ∈ block :: used, b < arena.maxBlocks := forall_mem_cons.mpr ⟨inside, holds.inside⟩
  refine ⟨rfl, ⟨?_, distinct, bounds, ?_, ?_⟩, rfl⟩
  · exact length_set.trans holds.words
  · intro b below
    have flag := claim_flag (holds.words ▸ bitmapWords_bound inside) b
    rw [show ((a.claim block).countAlloc).bitmap.flag b = _ from flag, Bool.and_eq_true, holds.complement b below,
      decide_eq_true_eq, mem_cons, not_or, and_comm]
    rfl
  · have count := Tally.length_le_range distinct bounds
    have machine := arena.count
    rw [length_cons] at count
    show (a.inUse + 1) % 2 ^ 64 = used.length + 1
    rw [holds.inUse, Nat.mod_eq_of_lt (by omega)]

theorem dealloc
    (positive : 0 < stride arena.blockSize)
    (member : block ∈ used) :
    a.dealloc arena (arena.pointer block).addr = .ok (a.restore block).countDealloc ∧
      Holds arena (a.restore block).countDealloc (used.erase block) := by
  have inside := holds.inside block member
  constructor
  · unfold BoundedAllocator.dealloc
    rw [blockIndexOf_pointer positive inside, ok_bind, releaseBlock, if_pos inside]
    rfl
  · refine ⟨length_set.trans holds.words, holds.distinct.erase block, ?_, ?_, ?_⟩
    · intro b kept
      exact holds.inside b (mem_of_mem_erase kept)
    · intro b below
      have flag := restore_flag (holds.words ▸ bitmapWords_bound inside) b
      rw [show ((a.restore block).countDealloc).bitmap.flag b = _ from flag, Bool.or_eq_true, holds.complement b below,
        decide_eq_true_eq, holds.distinct.mem_erase_iff]
      tauto
    · have some_ := length_pos_of_mem member
      have count := holds.few
      have machine := arena.count
      show (a.inUse + 2 ^ 64 - 1) % 2 ^ 64 = _
      rw [holds.inUse, length_erase_of_mem member]
      omega

theorem alloc_succeeds
    (unlocked : a.locked = false)
    (room : used.length < arena.maxBlocks)
    (size : layout.size ≤ arena.blockSize)
    (align : layout.align ≤ 64) :
    ∃ ptr a', a.alloc arena layout = .ok (some ptr, a') := by
  unfold BoundedAllocator.alloc
  rw [unlocked, if_neg (by decide), if_neg (by omega), if_neg (by omega)]
  cases claimed : a.tryClaimBlock arena with
  | some found => exact ⟨_, _, rfl⟩
  | none =>
    have full : (range arena.maxBlocks).countP (fun b => b ∉ used) = 0 := by
      rw [countP_eq_zero]
      intro b member
      have inside := mem_range.mp member
      rw [decide_eq_true_eq, ← holds.complement b inside, tryClaimBlock_none claimed inside]
      decide
    have count := Tally.missing_add_length holds.distinct holds.inside
    omega

end

end Holds

end BoundedAllocator

end Taktora.Alloc
