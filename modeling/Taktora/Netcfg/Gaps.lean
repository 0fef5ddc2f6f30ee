import Taktora.Lib.Sorting
import Taktora.Netcfg.Config

namespace Taktora.Netcfg

open List Sorting

def DeviceSource.entries (source : DeviceSource) : PdoDirection → List PdoEntry
  | .rx => source.rx
  | .tx => source.tx

def imageBits (device : DeviceInstance) (direction : PdoDirection) : Nat :=
  ((device.source.entries direction).map fun e => e.bitOffset + e.bitLength).max?.getD 0

structure UnmappedGap where
  device : String
  direction : PdoDirection
  startBit : Nat
  endBit : Nat

def UnmappedGap.Covers (gap : UnmappedGap) (bit : Nat) : Prop := gap.startBit ≤ bit ∧ bit < gap.endBit

def PdoEntry.Covers (entry : PdoEntry) (bit : Nat) : Prop :=
  entry.bitOffset ≤ bit ∧ bit < entry.bitOffset + entry.bitLength

def gapsFrom (device : String) (direction : PdoDirection) : Nat → List (Nat × Nat) → List UnmappedGap
  | _, [] => []
  | cursor, (start, stop) :: ranges =>
    (if start > cursor then [⟨device, direction, cursor, start⟩] else []) ++
      gapsFrom device direction (max cursor stop) ranges

def gapWarningsFor (device : DeviceInstance) (direction : PdoDirection) : List UnmappedGap :=
  let entries := device.source.entries direction
  if entries.isEmpty then [] else
    gapsFrom device.label direction 0 (sortBy (·.1) (entries.map fun e => (e.bitOffset, e.bitOffset + e.bitLength)))

def warnings (config : NetworkConfig) : List UnmappedGap :=
  config.devices.flatMap fun device => [PdoDirection.tx, .rx].flatMap (gapWarningsFor device)

variable {label : String} {direction : PdoDirection} {cursor bit : Nat} {ranges : List (Nat × Nat)}

theorem mem_gapsFrom {range : Nat × Nat} {gap : UnmappedGap} :
    gap ∈ gapsFrom label direction cursor (range :: ranges) ↔
      (cursor < range.1 ∧ gap = ⟨label, direction, cursor, range.1⟩) ∨
      gap ∈ gapsFrom label direction (max cursor range.2) ranges := by
  rw [gapsFrom]
  split_ifs <;> simp_all

theorem gapsFrom_bounds {gap : UnmappedGap} (member : gap ∈ gapsFrom label direction cursor ranges) :
    cursor ≤ gap.startBit ∧ gap.startBit < gap.endBit := by
  induction ranges generalizing cursor with
  | nil => cases member
  | cons range ranges ih =>
    rcases mem_gapsFrom.mp member with ⟨later, rfl⟩ | member
    · exact ⟨le_rfl, later⟩
    · have bounds := ih member
      omega

theorem gapsFrom_pairwise (wide : ∀ range ∈ ranges, range.1 ≤ range.2) :
    (gapsFrom label direction cursor ranges).Pairwise (·.endBit ≤ ·.startBit) := by
  induction ranges generalizing cursor with
  | nil => exact .nil
  | cons range ranges ih =>
    obtain ⟨wide', wide⟩ := forall_mem_cons.mp wide
    rw [gapsFrom]
    split_ifs
    · refine pairwise_cons.mpr ⟨fun gap member => ?_, ih wide⟩
      have bounds := gapsFrom_bounds member
      dsimp only
      omega
    · exact ih wide

theorem gapsFrom_covers (sorted : ranges.Pairwise (·.1 ≤ ·.1)) :
    (∃ gap ∈ gapsFrom label direction cursor ranges, gap.Covers bit) ↔
      cursor ≤ bit ∧ (∃ range ∈ ranges, bit < range.1) ∧ ∀ range ∈ ranges, range.1 ≤ bit → range.2 ≤ bit := by
  induction ranges generalizing cursor with
  | nil => simp [gapsFrom]
  | cons range ranges ih =>
    obtain ⟨least, sorted⟩ := pairwise_cons.mp sorted
    have first : (∃ gap ∈ gapsFrom label direction cursor (range :: ranges), gap.Covers bit) ↔
        (cursor ≤ bit ∧ bit < range.1) ∨ ∃ gap ∈ gapsFrom label direction (max cursor range.2) ranges,
          gap.Covers bit := by
      simp only [mem_gapsFrom, or_and_right, exists_or, and_assoc, exists_and_left, exists_eq_left]
      exact or_congr_left ⟨And.right, fun inside => ⟨inside.1.trans_lt inside.2, inside⟩⟩
    rw [first, ih sorted, max_le_iff, exists_mem_cons_iff, forall_mem_cons]
    by_cases before : bit < range.1
    · have uncovered : ∀ range ∈ ranges, range.1 ≤ bit → range.2 ≤ bit := by
        intro later member
        have order := least later member
        omega
      have late : ¬ range.1 ≤ bit := not_le.mpr before
      tauto
    · have late := not_lt.mp before
      tauto

theorem lt_imageBits_iff {device : DeviceInstance} : bit < imageBits device direction ↔
    ∃ e ∈ device.source.entries direction, bit < e.bitOffset + e.bitLength := by
  unfold imageBits
  cases last : ((device.source.entries direction).map fun e => e.bitOffset + e.bitLength).max? with
  | none => simp_all
  | some last' =>
    obtain ⟨member, greatest⟩ := max?_eq_some_iff.mp last
    obtain ⟨e, held, rfl⟩ := mem_map.mp member
    refine ⟨fun below => ⟨e, held, below⟩, ?_⟩
    rintro ⟨_, member', below⟩
    exact below.trans_le (greatest _ (mem_map_of_mem member'))

/-- The gaps are disjoint and ascending, and cover what no entry covers below the end of the image. -/
theorem gap_warnings_are_unmapped_bits (device : DeviceInstance) (direction : PdoDirection) :
    (gapWarningsFor device direction).Pairwise (·.endBit ≤ ·.startBit) ∧
      (∀ gap ∈ gapWarningsFor device direction, gap.startBit < gap.endBit) ∧
      (∀ bit, (∃ gap ∈ gapWarningsFor device direction, gap.Covers bit) ↔
        bit < imageBits device direction ∧ ∀ entry ∈ device.source.entries direction, ¬ entry.Covers bit) ∧
      ∀ config : NetworkConfig, device ∈ config.devices → gapWarningsFor device direction <:+: warnings config := by
  have looped : gapWarningsFor device direction = gapsFrom device.label direction 0 (sortBy (·.1)
      ((device.source.entries direction).map fun e => (e.bitOffset, e.bitOffset + e.bitLength))) := by
    unfold gapWarningsFor
    cases device.source.entries direction <;> rfl
  have sorted :=
    sortBy_pairwise (·.1) ((device.source.entries direction).map fun e => (e.bitOffset, e.bitOffset + e.bitLength))
  refine ⟨?_, ?_, fun bit => ?_, fun config member => ?_⟩
  · rw [looped]
    apply gapsFrom_pairwise
    simp only [mem_sortBy]
    simp
  · intro gap member
    rw [looped] at member
    exact (gapsFrom_bounds member).2
  · simp only [looped, gapsFrom_covers sorted, mem_sortBy, lt_imageBits_iff, PdoEntry.Covers, not_and, not_lt]
    simp only [zero_le, true_and, mem_map, exists_exists_and_eq_and, forall_exists_index, and_imp,
      forall_apply_eq_imp_iff₂]
    refine and_congr_left fun uncovered => exists_congr fun e => and_congr_right fun member => ?_
    have outside := uncovered e member
    omega
  · have listed : direction ∈ [PdoDirection.tx, .rx] := by cases direction <;> simp
    exact (infix_of_mem_flatten (mem_map_of_mem listed)).trans (infix_of_mem_flatten (mem_map_of_mem member))

end Taktora.Netcfg
