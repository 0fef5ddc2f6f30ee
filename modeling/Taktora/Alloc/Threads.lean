import Taktora.Alloc.Pool
import Taktora.Lib.Run

namespace Taktora.Alloc

open Checked Function BoundedAllocator List

inductive Thread where
  | idle
  | null
  | load (wordIdx : Nat)
  | exchange (wordIdx : Nat) (word : BitVec 64)
  | claimed (block : Nat)
  | release (block : Nat)
  | released
  | panicked (kept : Option Nat)
deriving DecidableEq, Repr

namespace Thread

def ready : Thread → Bool
  | idle | null => true
  | _ => false

def block? : Thread → Option Nat
  | claimed block => some block
  | release block => some block
  | panicked kept => kept
  | _ => none

@[simp] theorem claimed_block (block : Nat) : (claimed block).block? = some block := rfl

@[simp] theorem release_block (block : Nat) : (release block).block? = some block := rfl

@[simp] theorem idle_block : idle.block? = none := rfl

@[simp] theorem released_block : released.block? = none := rfl

def allocating (arena : Arena) (locked : Bool) (layout : Layout) : Thread :=
  if locked then panicked none
  else if arena.blockSize < layout.size then null
  else if 64 < layout.align then null
  else load 0

def freeing (arena : Arena) (ptr : Pointer) : Thread :=
  match arena.blockIndexOf ptr.addr with
  | .ok block => if block < arena.maxBlocks then release block else panicked (some ptr.block)
  | .error _ => panicked (some ptr.block)

def loaded (arena : Arena) (wordIdx : Nat) (word : BitVec 64) : Thread :=
  if arena.bitmapWords ≤ wordIdx then null
  else if (arena.candidate wordIdx word).isSome then exchange wordIdx word else load (wordIdx + 1)

end Thread

open Thread

structure Heap where
  pool : BoundedAllocator
  threads : Nat → Thread
  live : List Pointer

inductive HeapAction where
  | alloc (t : Nat) (layout : Layout)
  | dealloc (t : Nat) (ptr : Pointer)
  | lock
  | step (t : Nat)
deriving DecidableEq, Repr

namespace Heap

variable (arena : Arena)

def start : Heap := ⟨.new arena, fun _ => .idle, []⟩

variable (s : Heap)

def goto (t : Nat) (thread : Thread) : Heap := { s with threads := Function.update s.threads t thread }

def exchange (t wordIdx : Nat) (word : BitVec 64) : Heap :=
  if s.pool.bitmap.word wordIdx = word then
    { s.goto t (.claimed (wordIdx * 64 + word.ctz.toNat)) with pool := s.pool.claim (wordIdx * 64 + word.ctz.toNat) }
  else s.goto t (.load wordIdx)

def advance (t : Nat) : Thread → Option Heap
  | .load wordIdx => some (s.goto t (.loaded arena wordIdx (s.pool.bitmap.word wordIdx)))
  | .exchange wordIdx word => some (s.exchange t wordIdx word)
  | .claimed block => some { s.goto t .idle with pool := s.pool.countAlloc, live := arena.pointer block :: s.live }
  | .release block => some { s.goto t .released with pool := s.pool.restore block }
  | .released => some { s.goto t .idle with pool := s.pool.countDealloc }
  | .idle | .null | .panicked _ => none

def act : HeapAction → Option Heap
  | .alloc t layout =>
    if (s.threads t).ready then some (s.goto t (.allocating arena s.pool.locked layout)) else none
  | .dealloc t ptr =>
    if (s.threads t).ready ∧
      ptr ∈ s.live then some { s.goto t (.freeing arena ptr) with live := s.live.erase ptr } else none
  | .lock => some { s with pool := s.pool.lock }
  | .step t => s.advance arena t (s.threads t)

def Step (action : HeapAction) (s' : Heap) : Prop := s.act arena action = some s'

def blocks : List Nat := s.live.map (·.block)

/-- A block belongs to the live pointers (`none`) or to a thread. -/
def Owns (block : Nat) : Option Nat → Prop
  | none => block ∈ s.blocks
  | some t => (s.threads t).block? = some block

def InUse (block : Nat) : Prop := ∃ holder, s.Owns block holder

structure Inv (arena : Arena) (s : Heap) (owner : Nat → Option (Option Nat)) : Prop where
  words : s.pool.bitmap.length = arena.bitmapWords
  owns : ∀ block holder, s.Owns block holder ↔ owner block = some holder
  inside : ∀ block holder, owner block = some holder → block < arena.maxBlocks
  free : ∀ block < arena.maxBlocks, s.pool.bitmap.flag block = true ↔ owner block = none
  distinct : s.blocks.Nodup
  pointers : ∀ ptr ∈ s.live, ptr = arena.pointer ptr.block
  exchanges : ∀ t wordIdx word, s.threads t = .exchange wordIdx word → (arena.candidate wordIdx word).isSome

section Invariant

variable {arena : Arena} {s s' : Heap} {owner : Nat → Option (Option Nat)} {t block : Nat} {thread : Thread}
  {action : HeapAction} {history : List HeapAction}

theorem goto_threads (s : Heap) (t : Nat) (thread : Thread) (u : Nat) :
    (s.goto t thread).threads u = if u = t then thread else s.threads u := update_apply _ _ _ _

theorem start_inv (arena : Arena) : (start arena).Inv arena fun _ => none := by
  refine ⟨length_replicate, ?_, nofun, ?_, nodup_nil, nofun, nofun⟩
  · intro block holder
    cases holder <;> simp [Owns, start, blocks, block?]
  · intro block inside
    exact iff_of_true ((Holds.new arena).complement block inside |>.mpr not_mem_nil) rfl

theorem goto_exchanges (inv : s.Inv arena owner)
    (valid : ∀ wordIdx word, thread = .exchange wordIdx word → (arena.candidate wordIdx word).isSome)
    (u wordIdx : Nat) (word : BitVec 64)
    (here : (s.goto t thread).threads u = .exchange wordIdx word) : (arena.candidate wordIdx word).isSome := by
  rw [goto_threads] at here
  split at here
  · exact valid wordIdx word here
  · exact inv.exchanges u wordIdx word here

theorem Inv.quiet (inv : s.Inv arena owner) {pool : BoundedAllocator}
    (bitmap : pool.bitmap = s.pool.bitmap)
    (keeps : thread.block? = (s.threads t).block?)
    (valid : ∀ wordIdx word, thread = .exchange wordIdx word → (arena.candidate wordIdx word).isSome) :
    Inv arena { s.goto t thread with pool } owner := by
  refine ⟨bitmap ▸ inv.words, ?_, inv.inside, bitmap ▸ inv.free, inv.distinct, inv.pointers, goto_exchanges inv valid⟩
  intro block holder
  rw [← inv.owns]
  cases holder with
  | none => rfl
  | some u =>
    simp only [Owns, goto_threads]
    split
    · rename_i same
      rw [keeps, same]
    · rfl

theorem goto_others {b : Nat}
    (before : (s.threads t).block? ≠ some b)
    (after : thread.block? ≠ some b)
    (u : Nat) :
    ((s.goto t thread).threads u).block? = some b ↔ (s.threads u).block? = some b := by
  rw [goto_threads]
  split
  · rename_i same
    subst same
    exact iff_of_false after before
  · rfl

section

variable (inv : s.Inv arena owner)
include inv

theorem goto_owner (mine : ∀ u, owner block = some (some u) → u = t) (u : Nat) :
    ((s.goto t thread).threads u).block? = some block ↔ thread.block? = some block ∧ u = t := by
  rw [goto_threads]
  split
  · rename_i same
    simp [same]
  · rename_i other
    refine iff_of_false ?_ fun both => other both.2
    intro holds
    exact other (mine u ((inv.owns block (some u)).mp holds))

theorem Inv.moved {pool : BoundedAllocator} {live : List Pointer} {new : Option (Option Nat)}
    (inside : block < arena.maxBlocks)
    (words : pool.bitmap.length = s.pool.bitmap.length)
    (mine : ∀ u, owner block = some (some u) → u = t)
    (taken : ∀ u, thread.block? = some block ∧ u = t ↔ new = some (some u))
    (listed : block ∈ live.map (·.block) ↔ new = some none)
    (before : ∀ b ≠ block, (s.threads t).block? ≠ some b)
    (after : ∀ b ≠ block, thread.block? ≠ some b)
    (others : ∀ b ≠ block, b ∈ live.map (·.block) ↔ b ∈ s.blocks)
    (free : pool.bitmap.flag block = true ↔ new = none)
    (flags : ∀ b ≠ block, pool.bitmap.flag b = s.pool.bitmap.flag b)
    (distinct : (live.map (·.block)).Nodup)
    (pointers : ∀ ptr ∈ live, ptr = arena.pointer ptr.block)
    (valid : ∀ wordIdx word, thread = .exchange wordIdx word → (arena.candidate wordIdx word).isSome) :
    Inv arena { s.goto t thread with pool, live } (update owner block new) := by
  refine ⟨words.trans inv.words, ?_, ?_, ?_, distinct, pointers, goto_exchanges inv valid⟩
  · intro b holder
    by_cases same : b = block
    · rw [same, update_self]
      cases holder with
      | none => exact listed
      | some u => exact (goto_owner inv mine u).trans (taken u)
    · rw [update_of_ne same, ← inv.owns]
      cases holder with
      | none => exact others b same
      | some u => exact goto_others (before b same) (after b same) u
  · intro b holder owned
    by_cases same : b = block
    · exact same ▸ inside
    · rw [update_of_ne same] at owned
      exact inv.inside b holder owned
  · intro b below
    by_cases same : b = block
    · rw [same, update_self, free]
    · rw [update_of_ne same, flags b same, inv.free b below]

theorem Inv.claim (nothing : (s.threads t).block? = none) (inside : block < arena.maxBlocks)
    (free : s.pool.bitmap.flag block = true) :
    Inv arena { s.goto t (.claimed block) with pool := s.pool.claim block } (update owner block (some (some t))) := by
  have unowned := (inv.free block inside).mp free
  have absent : ¬s.Owns block none := by
    rw [inv.owns, unowned]
    nofun
  have word : block / 64 < s.pool.bitmap.length := inv.words ▸ bitmapWords_bound inside
  refine inv.moved inside length_set (by simp [unowned]) (by simp [eq_comm]) (iff_of_false absent nofun)
    (by simp [nothing]) (by simp [eq_comm]) (fun _ _ => .rfl) (by simp [claim_flag word]) ?_ inv.distinct inv.pointers
      nofun
  intro b other
  simp [claim_flag word, other]

section Holder

variable (holds : (s.threads t).block? = some block)
include holds

theorem Inv.returns {pool : BoundedAllocator} (bitmap : pool.bitmap = s.pool.bitmap) :
    Inv arena { s.goto t .idle with pool, live := arena.pointer block :: s.live } (update owner block (some none)) := by
  have owned : owner block = some (some t) := (inv.owns block (some t)).mp holds
  have inside := inv.inside block _ owned
  have absent : ¬s.Owns block none := by
    rw [inv.owns, owned]
    nofun
  have taken : s.pool.bitmap.flag block ≠ true := by
    rw [ne_eq, inv.free block inside, owned]
    nofun
  refine inv.moved inside (congrArg length bitmap) (by simp [owned]) (by simp) (iff_of_true mem_cons_self rfl)
    (by simp [holds, eq_comm]) (by simp) (fun b other => mem_cons.trans (or_iff_right other)) ?_
      (fun _ _ => by rw [bitmap])
    (nodup_cons.mpr ⟨absent, inv.distinct⟩) (forall_mem_cons.mpr ⟨rfl, inv.pointers⟩) nofun
  rw [bitmap]
  exact iff_of_false taken nofun

theorem Inv.release : Inv arena { s.goto t .released with pool := s.pool.restore block } (update owner block none) := by
  have owned : owner block = some (some t) := (inv.owns block (some t)).mp holds
  have inside := inv.inside block _ owned
  have absent : ¬s.Owns block none := by
    rw [inv.owns, owned]
    nofun
  have word : block / 64 < s.pool.bitmap.length := inv.words ▸ bitmapWords_bound inside
  refine inv.moved inside length_set (by simp [owned]) (by simp) (iff_of_false absent nofun) (by simp [holds, eq_comm])
    (by simp) (fun _ _ => .rfl) (by simp [restore_flag word]) ?_ inv.distinct inv.pointers nofun
  intro b other
  simp [restore_flag word, other]

end Holder

variable {ptr : Pointer}

theorem erase_blocks (member : ptr ∈ s.live) : (s.live.erase ptr).map (·.block) = s.blocks.erase ptr.block := by
  have injective : Injective arena.pointer := fun _ _ same => congrArg Pointer.block same
  have known : s.live = s.blocks.map arena.pointer := by
    rw [blocks, map_map]
    exact (map_id' s.live).symm.trans (map_congr_left inv.pointers)
  rw [inv.pointers ptr member, known, ← map_erase injective, map_map]
  exact map_id _

theorem Inv.frees (member : ptr ∈ s.live) (nothing : (s.threads t).block? = none)
    (takes : thread.block? = some ptr.block) (calls : ∀ wordIdx word, thread ≠ .exchange wordIdx word) :
    Inv arena { s.goto t thread with live := s.live.erase ptr } (update owner ptr.block (some (some t))) := by
  have owned : owner ptr.block = some none := (inv.owns ptr.block none).mp (mem_map_of_mem member)
  have inside := inv.inside _ _ owned
  have taken : s.pool.bitmap.flag ptr.block ≠ true := by
    rw [ne_eq, inv.free _ inside, owned]
    nofun
  have blocks := erase_blocks inv member
  refine inv.moved inside rfl (by simp [owned]) (by simp [takes, eq_comm]) ?_ (by simp [nothing])
    (by simp [takes, eq_comm]) ?_ (iff_of_false taken nofun) (fun _ _ => rfl) ?_ ?_ fun w word same =>
      absurd same (calls w word)
  · rw [blocks, inv.distinct.mem_erase_iff]
    exact iff_of_false (fun both => both.1 rfl) nofun
  · intro b other
    rw [blocks, inv.distinct.mem_erase_iff]
    exact and_iff_right other
  · rw [blocks]
    exact inv.distinct.erase _
  · intro other kept
    exact inv.pointers other (mem_of_mem_erase kept)

end

theorem ready_block (ready : thread.ready = true) : thread.block? = none := by
  cases thread <;> first | rfl | cases ready

theorem allocating_block (locked : Bool) (layout : Layout) : (allocating arena locked layout).block? = none := by
  unfold allocating
  split_ifs <;> rfl

theorem freeing_block {ptr : Pointer}
    (pointed : ptr = arena.pointer ptr.block)
    (inside : ptr.block < arena.maxBlocks) :
    (freeing arena ptr).block? = some ptr.block := by
  unfold freeing
  cases indexed : arena.blockIndexOf ptr.addr with
  | error panic => rfl
  | ok block =>
    dsimp only
    split
    · rcases eq_zero_or_pos (stride arena.blockSize) with zero | positive
      · rw [Arena.blockIndexOf, zero] at indexed
        cases indexed
      · rw [pointed, blockIndexOf_pointer positive inside] at indexed
        cases indexed
        rfl
    · rfl

theorem loaded_block (w : Nat) (word : BitVec 64) : (loaded arena w word).block? = none := by
  unfold loaded
  split_ifs <;> rfl

variable {w v : Nat} {called : Heap}

theorem loaded_exchange {w' : Nat} {word word' : BitVec 64} (loaded : loaded arena w word = .exchange w' word') :
    (arena.candidate w' word').isSome := by
  unfold Thread.loaded at loaded
  split_ifs at loaded
  · rename_i found
    cases loaded
    exact found

theorem Inv.exchange
    (inv : s.Inv arena owner)
    {word : BitVec 64}
    (here : s.threads t = .exchange w word) :
    ∃ owner', (s.exchange t w word).Inv arena owner' := by
  have nothing : (s.threads t).block? = none := here ▸ rfl
  unfold Heap.exchange
  split
  · rename_i unchanged
    have found := candidate_eq (inv.exchanges t w word here)
    rw [← unchanged] at found
    obtain ⟨inside, free, _⟩ := candidate_some found
    rw [unchanged] at inside free
    exact ⟨_, inv.claim nothing inside free⟩
  · exact ⟨owner, inv.quiet rfl nothing.symm nofun⟩

theorem Inv.advance (inv : s.Inv arena owner)
    (here : s.threads t = thread)
    (step : s.advance arena t thread = some s') : ∃ owner', s'.Inv arena owner' := by
  cases thread with
  | idle | null | panicked => cases step
  | load w =>
    have nothing : none = (s.threads t).block? := here ▸ rfl
    cases step
    exact ⟨owner, inv.quiet rfl ((loaded_block _ _).trans nothing) fun w' word' => loaded_exchange⟩
  | exchange w word =>
    cases step
    exact inv.exchange here
  | claimed block =>
    cases step
    exact ⟨_, inv.returns (here ▸ rfl) rfl⟩
  | release block =>
    cases step
    exact ⟨_, inv.release (here ▸ rfl)⟩
  | released =>
    cases step
    exact ⟨owner, inv.quiet rfl (here ▸ rfl) nofun⟩

theorem Inv.step (inv : s.Inv arena owner) (step : s.Step arena action s') : ∃ owner', s'.Inv arena owner' := by
  cases action with
  | lock =>
    cases step
    exact ⟨owner, { inv with }⟩
  | alloc t layout =>
    obtain ⟨ready, same⟩ := Option.ite_none_right_eq_some.mp step
    cases same
    refine ⟨owner, inv.quiet rfl ((allocating_block _ _).trans (ready_block ready).symm) ?_⟩
    intro w word same
    unfold allocating at same
    split_ifs at same
  | dealloc t ptr =>
    obtain ⟨⟨ready, member⟩, same⟩ := Option.ite_none_right_eq_some.mp step
    cases same
    have inside := inv.inside _ _ ((inv.owns ptr.block none).mp (mem_map_of_mem member))
    refine ⟨_, inv.frees member (ready_block ready) (freeing_block (inv.pointers ptr member) inside) ?_⟩
    intro w word same
    have takes := freeing_block (inv.pointers ptr member) inside
    rw [same] at takes
    cases takes
  | step t => exact inv.advance rfl step

theorem run_inv {first : Heap}
    (init : ∃ owner, first.Inv arena owner)
    (run : Run (Step arena) first history s) : ∃ owner, s.Inv arena owner := by
  refine run.invariant (I := fun s => ∃ owner, s.Inv arena owner) init ?_
  rintro s _ _ ⟨_, inv⟩ step
  exact inv.step step

def Full (arena : Arena) (w : Nat) (s : Heap) : Prop := ∀ b < arena.maxBlocks, b / 64 = w → s.InUse b

def Seen (arena : Arena) (called : Heap) (history : List HeapAction) (s : Heap) (w : Nat) : Prop :=
  ∃ before after middle, history = before ++ after ∧ Run (Step arena) called before middle ∧
    Run (Step arena) middle after s ∧ middle.Full arena w

def passed (arena : Arena) : Thread → Nat
  | .load w => w
  | .exchange w _ => w
  | .null => arena.bitmapWords
  | _ => 0

theorem Inv.full
    (inv : s.Inv arena owner)
    (missing : arena.candidate w (s.pool.bitmap.word w) = none) : s.Full arena w := by
  intro b inside here
  have taken := candidate_none missing inside here
  have owned : owner b ≠ none := by
    rw [ne_eq, ← inv.free b inside, taken]
    decide
  obtain ⟨holder, owned⟩ := Option.ne_none_iff_exists'.mp owned
  exact ⟨holder, (inv.owns b holder).mpr owned⟩

theorem passed_freeing (ptr : Pointer) : passed arena (freeing arena ptr) = 0 := by
  unfold freeing
  split
  · split <;> rfl
  · rfl

theorem Inv.passed_loaded (inv : s.Inv arena owner)
    (left : v < passed arena (loaded arena w (s.pool.bitmap.word w))) : v < w ∨ s.Full arena v := by
  unfold loaded at left
  split_ifs at left with behind found
  · exact .inl (lt_of_lt_of_le left behind)
  · exact .inl left
  · rcases lt_or_eq_of_le (Nat.le_of_lt_succ left) with less | same
    · exact .inl less
    · exact .inr (same ▸ inv.full (Option.not_isSome_iff_eq_none.mp found))

theorem Inv.passed_advance (inv : s.Inv arena owner)
    (here : s.threads t = thread)
    (step : s.advance arena t thread = some s')
    (left : v < passed arena (s'.threads t)) :
    v < passed arena thread ∨ s.Full arena v := by
  cases thread with
  | idle | null | panicked => cases step
  | load w =>
    cases step
    rw [goto_threads, if_pos rfl] at left
    exact inv.passed_loaded left
  | exchange w word =>
    cases step
    unfold Heap.exchange at left
    split at left
    · rw [goto_threads s t _ t, if_pos rfl] at left
      exact absurd left (Nat.not_lt_zero v)
    · rw [goto_threads, if_pos rfl] at left
      exact .inl left
  | _ =>
    cases step
    rw [goto_threads s t _ t, if_pos rfl] at left
    exact absurd left (Nat.not_lt_zero v)

theorem advance_others {u : Nat}
    (step : s.advance arena t thread = some s')
    (other : u ≠ t) : s'.threads u = s.threads u := by
  have kept : ∀ thread, (s.goto t thread).threads u = s.threads u := fun thread => by rw [goto_threads, if_neg other]
  cases thread with
  | idle | null | panicked => cases step
  | exchange w word =>
    cases step
    unfold exchange
    split <;> exact kept _
  | _ =>
    cases step
    exact kept _

theorem Inv.passed_step (inv : s.Inv arena owner)
    (step : s.Step arena action s')
    (running : ∀ layout, action ≠ .alloc t layout)
    (left : v < passed arena (s'.threads t)) :
    v < passed arena (s.threads t) ∨ s.Full arena v := by
  cases action with
  | lock =>
    cases step
    exact .inl left
  | alloc u layout =>
    have other : t ≠ u := fun same => running layout (same ▸ rfl)
    obtain ⟨_, same⟩ := Option.ite_none_right_eq_some.mp step
    cases same
    rw [goto_threads, if_neg other] at left
    exact .inl left
  | dealloc u ptr =>
    obtain ⟨_, same⟩ := Option.ite_none_right_eq_some.mp step
    cases same
    rw [goto_threads s u _ t] at left
    split at left
    · rw [passed_freeing] at left
      exact absurd left (Nat.not_lt_zero v)
    · exact .inl left
  | step u =>
    by_cases other : t = u
    · subst other
      exact inv.passed_advance rfl step left
    · rw [advance_others step other] at left
      exact .inl left

theorem Seen.extend (seen : Seen arena called history s w) (step : s.Step arena action s') :
    Seen arena called (history ++ [action]) s' w := by
  obtain ⟨before, after, middle, same, reached, left, full⟩ := seen
  exact ⟨before, after ++ [action], middle, by rw [same, append_assoc], reached, .snoc left step, full⟩

theorem passed_seen
    (inv : ∃ owner, called.Inv arena owner)
    (entered : passed arena (called.threads t) = 0)
    (run : Run (Step arena) called history s)
    (running : ∀ layout, .alloc t layout ∉ history) :
    ∀ w < passed arena (s.threads t), Seen arena called history s w := by
  induction run with
  | nil =>
    intro w left
    rw [entered] at left
    exact absurd left (Nat.not_lt_zero w)
  | snoc before last ih =>
    intro w left
    rename_i history s action s'
    obtain ⟨_, inv⟩ := run_inv inv before
    have earlier : ∀ layout, .alloc t layout ∉ history := fun layout member =>
      running layout (mem_append_left _ member)
    have now : ∀ layout, action ≠ .alloc t layout := fun layout same =>
      running layout (mem_append_right _ (same ▸ mem_singleton_self _))
    rcases inv.passed_step last now left with less | full
    · exact (ih earlier w less).extend last
    · exact ⟨history, [action], s, rfl, before, .snoc .nil last, full⟩

theorem Inv.live_le (inv : s.Inv arena owner) : s.live.length ≤ arena.maxBlocks := by
  have few := Tally.length_le_range inv.distinct (forall_mem_map.mpr fun ptr member =>
    inv.inside _ _ ((inv.owns ptr.block none).mp (mem_map_of_mem member)))
  rwa [blocks, length_map] at few

/-- Live pointers have different blocks, and a small request fails only if each word was full during the call. -/
theorem live_blocks_are_exclusive
    (run : Run (Step arena) (start arena) history s) :
    s.blocks.Nodup ∧ (∀ ptr ∈ s.live, ptr.block < arena.maxBlocks) ∧ s.live.length ≤ arena.maxBlocks ∧
      ∀ t layout called later s', layout.size ≤ arena.blockSize → layout.align ≤ 64 →
      s.Step arena (.alloc t layout) called → Run (Step arena) called later s' → (∀ layout, .alloc t layout ∉ later) →
      s'.threads t = .null → ∀ w < arena.bitmapWords, Seen arena called later s' w := by
  obtain ⟨_, inv⟩ := run_inv ⟨_, start_inv arena⟩ run
  have inside : ∀ ptr ∈ s.live, ptr.block < arena.maxBlocks := fun ptr member =>
    inv.inside _ _ ((inv.owns ptr.block none).mp (mem_map_of_mem member))
  refine ⟨inv.distinct, inside, inv.live_le, ?_⟩
  · intro t layout called later s' size align call during running failed w valid
    have entered : passed arena (called.threads t) = 0 := by
      obtain ⟨_, same⟩ := Option.ite_none_right_eq_some.mp call
      cases same
      rw [goto_threads, if_pos rfl, allocating, if_neg (not_lt.mpr size), if_neg (not_lt.mpr align)]
      split <;> rfl
    apply passed_seen (inv.step call) entered during running
    rw [failed]
    exact valid

end Invariant

def singleArena : Arena := ⟨1, 64, 4096, by decide, by decide⟩

theorem second_request_fails :
    ∃ s called s', Run (Step singleArena) (start singleArena) [.alloc 0 ⟨64, 8⟩, .step 0, .step 0, .step 0] s ∧
      s.Step singleArena (.alloc 1 ⟨64, 8⟩) called ∧ Run (Step singleArena) called [.step 1, .step 1] s' ∧
      s.blocks = [0] ∧ s'.threads 1 = .null ∧ Seen singleArena called [.step 1, .step 1] s' 0 := by
  have follows : ((Run.follow (act singleArena) (start singleArena) [.alloc 0 ⟨64, 8⟩, .step 0, .step 0, .step 0]).bind
      fun s =>
      (s.act singleArena (.alloc 1 ⟨64, 8⟩)).bind fun called =>
        (Run.follow (act singleArena) called [.step 1, .step 1]).map fun s' => (s.blocks, s'.threads 1)) =
          some ([0], .null) := by
    decide +kernel
  obtain ⟨s, first, follows⟩ := Option.bind_eq_some_iff.mp follows
  obtain ⟨called, call, follows⟩ := Option.bind_eq_some_iff.mp follows
  obtain ⟨s', second, facts⟩ := Option.map_eq_some_iff.mp follows
  simp only [Prod.mk.injEq] at facts
  obtain ⟨blocks, failed⟩ := facts
  have run := Run.of_follow first
  have during := Run.of_follow second
  refine ⟨s, called, s', run, call, during, blocks, failed, ?_⟩
  exact (live_blocks_are_exclusive run).2.2.2 1 ⟨64, 8⟩ called _ s' (by decide) (by decide) call during (by simp) failed
    0 (by decide)

end Heap

end Taktora.Alloc
