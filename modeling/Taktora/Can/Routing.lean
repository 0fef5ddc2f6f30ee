import Taktora.Can.Health

namespace Taktora.Can

open List

def canEffFlag : Nat := 0x80000000

structure CanRouting where
  iface : CanIface
  canId : CanId
  mask : Nat
  kind : CanFrameKind
deriving DecidableEq

structure CanFilter where
  canId : Nat
  canMask : Nat
deriving DecidableEq

/-- The kernel's form of a routing, with the kind of identifier folded into its highest bit. -/
def filterFor (r : CanRouting) : CanFilter :=
  { canId := r.canId.value ||| (if r.canId.extended then canEffFlag else 0), canMask := r.mask ||| canEffFlag }

def compile (routings : List CanRouting) : List CanFilter :=
  routings.foldl (fun filters r => if filterFor r ∈ filters then filters else filters ++ [filterFor r]) []

def CanRouting.matches (routing : CanRouting) (frame : CanData) : Bool :=
  routing.canId.extended == frame.id.extended && ((routing.canId.value ^^^ frame.id.value) &&& routing.mask) == 0

def CanId.word (id : CanId) : Nat := id.value ||| (if id.extended then canEffFlag else 0)

def CanFilter.accepts (f : CanFilter) (id : CanId) : Bool := (id.word ^^^ f.canId) &&& f.canMask == 0

def CanId.Valid (id : CanId) : Prop := id.value ≤ if id.extended then 0x1FFFFFFF else 0x7FF

instance : DecidablePred CanId.Valid := fun id => inferInstanceAs (Decidable (id.value ≤ _))

theorem compile_foldl (routings : List CanRouting) {filters : List CanFilter} (distinct : filters.Nodup) :
    let compiled :=
      routings.foldl (fun filters r => if filterFor r ∈ filters then filters else filters ++ [filterFor r]) filters
    compiled.Nodup ∧ ∀ f, f ∈ compiled ↔ f ∈ filters ∨ ∃ r ∈ routings, filterFor r = f := by
  induction routings generalizing filters with
  | nil => simp [distinct]
  | cons r rest ih =>
    rw [foldl_cons]
    split
    · obtain ⟨_, _⟩ := ih distinct
      grind
    · have fresh : (filters ++ [filterFor r]).Nodup := by simpa [nodup_append] using ⟨distinct, by grind⟩
      obtain ⟨nodup, members⟩ := ih fresh
      refine ⟨nodup, fun f => (members f).trans ?_⟩
      simp [or_assoc, eq_comm]

theorem mem_compile (routings : List CanRouting) (f : CanFilter) :
    f ∈ compile routings ↔ ∃ r ∈ routings, filterFor r = f :=
  ((compile_foldl routings nodup_nil).2 f).trans (by simp)

theorem canEffFlag_testBit (i : Nat) : canEffFlag.testBit i = decide (31 = i) := by
  rw [show canEffFlag = 2 ^ 31 from rfl, Nat.testBit_two_pow]

theorem CanId.Valid.testBit {id : CanId} (valid : id.Valid) : id.value.testBit 31 = false := by
  apply Nat.testBit_lt_two_pow
  unfold Valid at valid
  split at valid <;> omega

theorem CanId.word_testBit (id : CanId) (i : Nat) :
    id.word.testBit i = (id.value.testBit i || id.extended && decide (31 = i)) := by
  cases extended : id.extended <;> simp [word, extended, canEffFlag_testBit]

theorem filterFor_accepts {r : CanRouting} {frame : CanData}
    (clear : r.canId.value.testBit 31 = false)
    (own : frame.id.Valid) :
    (filterFor r).accepts frame.id = r.matches frame := by
  have zero (n : Nat) : n = 0 ↔ ∀ i, n.testBit i = false :=
    ⟨fun none i => none ▸ Nat.zero_testBit i, fun none => Nat.eq_of_testBit_eq (by simpa using none)⟩
  have word : (filterFor r).canId = r.canId.word := rfl
  have mask (i : Nat) : (filterFor r).canMask.testBit i = (r.mask.testBit i || decide (31 = i)) := by
    rw [filterFor, Nat.testBit_or, canEffFlag_testBit]
  rw [Bool.eq_iff_iff]
  simp only [CanFilter.accepts, CanRouting.matches, word, beq_iff_eq, Bool.and_eq_true, zero, Nat.testBit_and,
    Nat.testBit_xor, mask, CanId.word_testBit]
  constructor
  · intro accepted
    have top := accepted 31
    simp only [clear, own.testBit] at top
    refine ⟨symm (by simpa using top), fun i => ?_⟩
    have here := accepted i
    by_cases last : 31 = i
    · simp [← last, clear, own.testBit]
    · simpa [last, Bool.xor_comm] using here
  · rintro ⟨same, low⟩ i
    have here := low i
    by_cases last : 31 = i
    · simp [← last, clear, own.testBit, same]
    · simpa [last, Bool.xor_comm] using here

/-- The kernel lets a frame through if and only if a channel wants it. -/
theorem compiled_filter_is_union (routings : List CanRouting) (frame : CanData)
    (clear : ∀ r ∈ routings, r.canId.value.testBit 31 = false)
    (own : frame.id.Valid) :
    (compile routings).Nodup ∧
      ((∃ f ∈ compile routings, f.accepts frame.id = true) ↔ ∃ r ∈ routings, r.matches frame = true) := by
  refine ⟨(compile_foldl routings nodup_nil).1, ?_⟩
  simp only [mem_compile, exists_exists_and_eq_and]
  constructor
  · rintro ⟨r, member, accepted⟩
    exact ⟨r, member, filterFor_accepts (clear r member) own ▸ accepted⟩
  · rintro ⟨r, member, matching⟩
    exact ⟨r, member, (filterFor_accepts (clear r member) own).trans matching⟩

theorem extended_frame_accepted :
    let routings : List CanRouting := [⟨CanHealthMonitor.vcan0, ⟨0x123, true⟩, 0xFFFFFFFF, .classical⟩,
      ⟨CanHealthMonitor.vcan0, ⟨0x123, false⟩, 0, .fd⟩]
    (∃ f ∈ compile (routings ++ routings), f.accepts ⟨0x123, true⟩ = true) ∧ (compile (routings ++ routings)).Nodup :=
  have union := compiled_filter_is_union _ ⟨⟨0x123, true⟩, .classical, []⟩ (by decide) (by decide)
  ⟨union.2.mpr ⟨_, mem_cons_self, by decide⟩, union.1⟩

/-- `CanId` has public fields: with the flag's own bit in a standard identifier the kernel drops the channel's frames.
-/
theorem flagged_id_filtered_out :
    let routing : CanRouting := ⟨CanHealthMonitor.vcan0, ⟨0x80000123, false⟩, 0x7FF, .classical⟩
    let frame : CanData := ⟨⟨0x123, false⟩, .classical, []⟩
    frame.id.Valid ∧ routing.matches frame = true ∧ ¬∃ f ∈ compile [routing], f.accepts frame.id = true := by
  decide

structure RegisteredChannel where
  descriptorName : String
  routing : CanRouting
  direction : Direction
  binding : ChannelBinding

abbrev ChannelRegistry := List RegisteredChannel

def ChannelRegistry.iterIfaceDirection (registry : ChannelRegistry) (iface : CanIface) (direction : Direction) :
    List RegisteredChannel :=
  registry.filter fun c => c.routing.iface = iface ∧ c.direction = direction

end Taktora.Can
