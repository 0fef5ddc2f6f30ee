import Taktora.Esi.Codec

namespace Taktora.Esi

open Checked Spans List

def codecWidth (e : PdoEntry) : Nat :=
  if e.index = 0 then e.bitLength else Typemap.layoutWidth e.dataType e.bitLength

def fieldSpans (resolved : List ResolvedPdo) : List (Nat × Nat) :=
  (resolved.flatMap ResolvedPdo.fields).map fun f => (f.layout.offset, f.layout.width)

def declaredSpans (entries : List PdoEntry) : List (Nat × Nat) :=
  (entries.zipIdx.filter fun (e, _) => e.index != 0).map fun (e, k) => (declaredBits (entries.take k), e.bitLength)

/-- The codec of one direction and the bus map describe the same process image. -/
structure SameImage (naming : Naming) (deviceStruct : String) (pdos : List Pdo) (resolved : List ResolvedPdo)
    (bits : Nat) (reported : List ResolvedPdoEntry) : Prop where
  fields : fieldSpans resolved = declaredSpans (pdos.flatMap Pdo.entries)
  disjoint : (fieldSpans resolved).Pairwise fun span later => span.1 + span.2 ≤ later.1
  width : bits = declaredBits (pdos.flatMap Pdo.entries)
  starts : ∀ k entry, reported[k]? = some entry →
    ∃ before, resolveDirection naming (pdos.take k) deviceStruct = .ok (before, entry.bitOffset)

/-- Every entry is as wide as its data type, and the PDOs before each one add up without saturating. -/
structure Aligned (pool pdos : List Pdo) (indices : List Nat) : Prop where
  exact : ∀ e ∈ pdos.flatMap Pdo.entries, e.index ≠ 0 → Typemap.layoutWidth e.dataType e.bitLength = e.bitLength
  reported : ∀ k < indices.length,
    Saturating.saturate 16 (total (foundBits pool) (indices.take k)) = declaredBits ((pdos.take k).flatMap Pdo.entries)

variable {naming : Naming} {deviceStruct : String} {pdos pool : List Pdo} {resolved : List ResolvedPdo}
  {indices : List Nat} {start bits : Nat} {entries : List PdoEntry} (width : PdoEntry → Nat)

def placed (start : Nat) (entries : List PdoEntry) : List (Nat × Nat) :=
  ((place width start entries).filter fun item => item.1.index != 0).map fun item => (item.2, width item.1)

theorem placed_append (start : Nat) (xs ys : List PdoEntry) :
    placed width start (xs ++ ys) = placed width start xs ++ placed width (start + total width xs) ys := by
  rw [placed, place_append, filter_append, map_append]
  rfl

theorem placed_congr {width width' : PdoEntry → Nat} (same : ∀ e ∈ entries, width e = width' e) :
    placed width start entries = placed width' start entries := by
  rw [placed, place_congr same]
  apply map_congr_left
  intro item member
  have among := mem_map_of_mem (f := Prod.fst) (mem_of_mem_filter member)
  rw [place_map_fst] at among
  rw [same item.1 among]

theorem declaredSpans_eq (entries : List PdoEntry) : declaredSpans entries = placed PdoEntry.bitLength 0 entries := by
  rw [placed, place_eq, filter_map, map_map]
  apply map_congr_left
  simp [declaredBits]

theorem resolveEntries_placed {seen : Seen} {fields : List ResolvedField} {finish : Nat}
    (resolved : resolveEntries naming seen start entries = .ok (fields, finish)) :
    fields.map (fun f => (f.layout.offset, f.layout.width)) = placed codecWidth start entries ∧
      finish = start + total codecWidth entries := by
  induction entries generalizing seen start fields with
  | nil =>
    cases resolved
    exact ⟨rfl, rfl⟩
  | cons e entries ih =>
    rw [resolveEntries] at resolved
    rw [total_cons, ← add_assoc]
    by_cases padding : e.index = 0
    · rw [if_pos padding] at resolved
      have width : codecWidth e = e.bitLength := if_pos padding
      simpa [placed, place, padding, width] using ih resolved
    · rw [if_neg padding] at resolved
      obtain ⟨_, _, resolved⟩ := bind_ok resolved
      obtain ⟨_, _, resolved⟩ := bind_ok resolved
      obtain ⟨⟨_, layout⟩, mapped, resolved⟩ := bind_ok resolved
      obtain ⟨⟨_, _⟩, others, resolved⟩ := bind_ok resolved
      cases resolved
      obtain ⟨offset, width⟩ := Typemap.resolve_layout mapped
      have here : codecWidth e = layout.width := (if_neg padding).trans width.symm
      obtain ⟨spans, finish⟩ := ih others
      rw [here]
      refine ⟨?_, finish⟩
      rw [map_cons, spans, offset]
      simp [placed, place, padding, here]

theorem resolveFrom_placed (done : resolveFrom naming deviceStruct start pdos = .ok (resolved, bits)) :
    fieldSpans resolved = placed codecWidth start (pdos.flatMap Pdo.entries) ∧
      bits = start + total codecWidth (pdos.flatMap Pdo.entries) := by
  induction pdos generalizing start resolved with
  | nil =>
    cases done
    exact ⟨rfl, rfl⟩
  | cons pdo pdos ih =>
    obtain ⟨⟨_, _⟩, first, done⟩ := bind_ok done
    obtain ⟨_, _, done⟩ := bind_ok done
    obtain ⟨_, _, done⟩ := bind_ok done
    obtain ⟨⟨_, _⟩, others, done⟩ := bind_ok done
    cases done
    obtain ⟨spans, width⟩ := resolveEntries_placed first
    obtain ⟨spans', width'⟩ := ih others
    rw [width] at spans' width'
    rw [flatMap_cons, placed_append, total_append, ← add_assoc]
    refine ⟨?_, width'⟩
    rw [← spans, ← spans', fieldSpans, flatMap_cons, map_append]
    rfl

theorem resolveFrom_take (done : resolveFrom naming deviceStruct start pdos = .ok (resolved, bits)) (k : Nat) :
    ∃ before finish, resolveFrom naming deviceStruct start (pdos.take k) = .ok (before, finish) := by
  induction pdos generalizing start resolved bits k with
  | nil => exact ⟨[], start, by rw [take_nil]; rfl⟩
  | cons pdo pdos ih =>
    cases k with
    | zero => exact ⟨[], start, rfl⟩
    | succ k =>
      obtain ⟨⟨fields, _⟩, first, done⟩ := bind_ok done
      obtain ⟨fieldIdent, second, done⟩ := bind_ok done
      obtain ⟨structIdent, third, done⟩ := bind_ok done
      obtain ⟨⟨_, _⟩, others, _⟩ := bind_ok done
      obtain ⟨before, finish, taken⟩ := ih others k
      refine ⟨⟨fieldIdent, structIdent, fields⟩ :: before, finish, ?_⟩
      simp only [take_succ_cons, resolveFrom, first, second, third, taken, bind, Except.bind]

theorem exact_of_placed {other : Nat}
    (same : placed codecWidth start entries = placed PdoEntry.bitLength other entries) :
    ∀ e ∈ entries, e.index ≠ 0 → Typemap.layoutWidth e.dataType e.bitLength = e.bitLength := by
  have widths (width : PdoEntry → Nat) (start : Nat) :
      (placed width start entries).map Prod.snd = (entries.filter fun e => e.index != 0).map width := by
    have names : (place width start entries).map Prod.fst = entries := place_map_fst start entries
    have step (items : List (PdoEntry × Nat)) :
        (items.filter fun item => item.1.index != 0).map (fun item => width item.1) =
        ((items.map Prod.fst).filter fun e => e.index != 0).map width := by
      rw [filter_map, map_map]
      rfl
    have filtered := step (place width start entries)
    rw [names] at filtered
    rwa [placed, map_map]
  have all := congrArg (map Prod.snd) same
  rw [widths, widths, map_inj_left] at all
  intro e member real
  have here := all e (mem_filter.mpr ⟨member, by simpa using real⟩)
  rwa [codecWidth, if_neg real] at here

theorem codecWidth_eq
    (exact : ∀ e ∈ entries, e.index ≠ 0 → Typemap.layoutWidth e.dataType e.bitLength = e.bitLength) :
    ∀ e ∈ entries, codecWidth e = e.bitLength := by
  intro e member
  by_cases padding : e.index = 0
  · exact if_pos padding
  · exact (if_neg padding).trans (exact e member padding)

theorem placed_disjoint (start : Nat) (entries : List PdoEntry) :
    (placed width start entries).Pairwise fun span later => span.1 + span.2 ≤ later.1 :=
  pairwise_map.mpr ((place_pairwise start entries).filter _)

theorem sameImage_iff (done : resolveDirection naming pdos deviceStruct = .ok (resolved, bits)) :
    SameImage naming deviceStruct pdos resolved bits (entriesFor pool indices) ↔ Aligned pool pdos indices := by
  obtain ⟨spans, width⟩ := resolveFrom_placed done
  have before (k : Nat) : ∃ before, resolveDirection naming (pdos.take k) deviceStruct =
      .ok (before, total codecWidth ((pdos.take k).flatMap Pdo.entries)) := by
    obtain ⟨before, _, taken⟩ := resolveFrom_take done k
    have finished := (resolveFrom_placed taken).2
    rw [zero_add] at finished
    exact ⟨before, finished ▸ taken⟩
  have inside (k : Nat) : ∀ e ∈ (pdos.take k).flatMap Pdo.entries, e ∈ pdos.flatMap Pdo.entries := by
    intro e member
    obtain ⟨pdo, taken, member⟩ := mem_flatMap.mp member
    exact mem_flatMap.mpr ⟨pdo, mem_of_mem_take taken, member⟩
  constructor
  · intro same
    have exact := exact_of_placed (spans.symm.trans (same.fields.trans (declaredSpans_eq _)))
    refine ⟨exact, ?_⟩
    intro k low
    have entry := entriesFor_getElem? pool indices k
    rw [List.getElem?_eq_getElem low] at entry
    obtain ⟨_, offset⟩ := same.starts k _ entry
    obtain ⟨_, offset'⟩ := before k
    have offsets := congrArg Prod.snd (Except.ok.inj (offset.symm.trans offset'))
    simp only at offsets
    rw [offsets]
    exact total_congr fun e member => codecWidth_eq exact e (inside k e member)
  · intro aligned
    have widths := codecWidth_eq aligned.exact
    refine ⟨?_, ?_, ?_, ?_⟩
    · rw [spans, placed_congr widths, declaredSpans_eq]
    · rw [spans]
      exact placed_disjoint _ _ _
    · rw [width, zero_add]
      exact total_congr widths
    · intro k entry found
      rw [entriesFor_getElem?] at found
      obtain ⟨_, here, same⟩ := Option.map_eq_some_iff.mp found
      subst same
      obtain ⟨low, _⟩ := List.getElem?_eq_some_iff.mp here
      obtain ⟨taken, offset⟩ := before k
      refine ⟨taken, ?_⟩
      rw [offset, aligned.reported k low]
      rw [declaredBits, total_congr fun e member => widths e (inside k e member)]

namespace EsiDevice

def outputPdos (d : EsiDevice) (a : CodecAssignment) : List Pdo :=
  if d.altSmMappings.isEmpty then d.rxPdos.filter Pdo.byDefault else collectPdos d.rxPdos a.rxIndices

def inputPdos (d : EsiDevice) (a : CodecAssignment) : List Pdo :=
  if d.altSmMappings.isEmpty then d.txPdos.filter Pdo.byDefault else collectPdos d.txPdos a.txIndices

end EsiDevice

theorem resolveAssignments_directions {d : EsiDevice} {assigns : List CodecAssignment} {a : CodecAssignment}
    (generated : resolveAssignments naming deviceStruct d = .ok assigns)
    (member : a ∈ assigns) :
    resolveDirection naming (d.outputPdos a) a.structIdent = .ok (a.outputs, a.outputBits) ∧
      resolveDirection naming (d.inputPdos a) a.structIdent = .ok (a.inputs, a.inputBits) := by
  unfold resolveAssignments at generated
  unfold EsiDevice.outputPdos EsiDevice.inputPdos
  by_cases none : d.altSmMappings.isEmpty = true
  · rw [if_pos none] at generated ⊢
    rw [if_pos none]
    obtain ⟨_, resolved, generated⟩ := bind_ok generated
    cases generated
    rw [mem_singleton.mp member]
    obtain ⟨_, _, resolved⟩ := bind_ok resolved
    obtain ⟨⟨_, _⟩, inputs_done, resolved⟩ := bind_ok resolved
    obtain ⟨⟨_, _⟩, outputs_done, resolved⟩ := bind_ok resolved
    obtain ⟨_, _, resolved⟩ := bind_ok resolved
    cases resolved
    exact ⟨outputs_done, inputs_done⟩
  · rw [if_neg none] at generated ⊢
    rw [if_neg none]
    obtain ⟨_, _, generated⟩ := bind_ok generated
    obtain ⟨p, _, resolved⟩ := exists_of_mapM generated member
    obtain ⟨⟨_, _⟩, inputs_done, resolved⟩ := bind_ok resolved
    obtain ⟨⟨_, _⟩, outputs_done, resolved⟩ := bind_ok resolved
    cases resolved
    exact ⟨outputs_done, inputs_done⟩

/-- A codec and the bus map of one assignment agree on the process image exactly if both directions are aligned. -/
theorem same_image_iff {d : EsiDevice} {assigns : List CodecAssignment} {a : CodecAssignment} {name : Option String}
    {bus : ResolvedAssignment}
    (generated : resolveAssignments naming deviceStruct d = .ok assigns)
    (member : a ∈ assigns)
    (resolved : d.resolveAssignment name = .ok bus)
    (rx : bus.rx.map ResolvedPdoEntry.index = a.rxIndices)
    (tx : bus.tx.map ResolvedPdoEntry.index = a.txIndices) :
    SameImage naming a.structIdent (d.outputPdos a) a.outputs a.outputBits bus.rx ∧
      SameImage naming a.structIdent (d.inputPdos a) a.inputs a.inputBits bus.tx ↔
      Aligned d.rxPdos (d.outputPdos a) a.rxIndices ∧ Aligned d.txPdos (d.inputPdos a) a.txIndices := by
  obtain ⟨outputs, inputs⟩ := resolveAssignments_directions generated member
  obtain ⟨_, _, resolved⟩ := bind_ok resolved
  obtain ⟨⟨_, _⟩, _, resolved⟩ := bind_ok resolved
  cases resolved
  rw [entriesFor_index] at rx tx
  subst rx tx
  exact and_congr (sameImage_iff outputs) (sameImage_iff inputs)

def verbatim : Naming where
  fieldIdent := .ok
  pdoFieldIdent := fun name _ => .ok (name.getD "pdo")
  pdoStructIdent := fun device name _ => .ok (device ++ name.getD "Pdo")
  opModeVariantIdent := fun name _ => .ok (name.getD "Mode")
  opModeVariantStructIdent := fun device name _ => .ok (device ++ name.getD "Mode")

def twoPdos (first : PdoEntry) : EsiDevice where
  identity := ⟨2, 3, 4⟩
  syncManagers := []
  txPdos := []
  rxPdos := [⟨0x1600, some "A", some 2, false, [first]⟩,
    ⟨0x1601, some "B", some 2, false, [⟨0x7010, 1, 8, some "out", some .u8⟩]⟩]
  supportsCoe := true
  altSmMappings := []

def twoPdosCodec (first : ResolvedField) (next : Nat) : CodecAssignment where
  variantIdent := "Default"
  structIdent := "DevDefault"
  inputs := []
  inputBits := 0
  outputs := [⟨"A", "DevDefaultA", [first]⟩,
    ⟨"B", "DevDefaultB", [⟨"out", .int false 8, .field next 8 .int, none⟩]⟩]
  outputBits := next + 8
  rxIndices := [0x1600, 0x1601]
  txIndices := []

def opaqueEntry : PdoEntry := ⟨0x7000, 1, 100, some "blob", some (.named "ARRAY")⟩

def opaqueCodec : CodecAssignment :=
  twoPdosCodec ⟨"blob", .bytes 13, .bytes 0 13, some "opaque ARRAY (100 bits)"⟩ 104

theorem opaque_entry_shifts_the_rest : resolveAssignments verbatim "Dev" (twoPdos opaqueEntry) = .ok [opaqueCodec] ∧
      (twoPdos opaqueEntry).resolveAssignment none = .ok ⟨[⟨0x1600, 0, 100⟩, ⟨0x1601, 100, 8⟩], []⟩ ∧
      fieldSpans opaqueCodec.outputs = [(0, 104), (104, 8)] ∧
      declaredSpans ((twoPdos opaqueEntry).rxPdos.flatMap Pdo.entries) = [(0, 100), (100, 8)] ∧
      ¬ SameImage verbatim "DevDefault" ((twoPdos opaqueEntry).outputPdos opaqueCodec) opaqueCodec.outputs
        opaqueCodec.outputBits [⟨0x1600, 0, 100⟩, ⟨0x1601, 100, 8⟩] := by
  refine ⟨rfl, rfl, rfl, rfl, ?_⟩
  intro same
  have fields : [(0, 104), (104, 8)] = [(0, 100), (100, 8)] := same.fields
  exact absurd fields (by decide)

def wordEntry : PdoEntry := ⟨0x7000, 1, 16, some "word", some .u16⟩

def wordCodec : CodecAssignment := twoPdosCodec ⟨"word", .int false 16, .field 0 16 .int, none⟩ 16

theorem word_entry_same_image : resolveAssignments verbatim "Dev" (twoPdos wordEntry) = .ok [wordCodec] ∧
      (twoPdos wordEntry).resolveAssignment none = .ok ⟨[⟨0x1600, 0, 16⟩, ⟨0x1601, 16, 8⟩], []⟩ ∧
      SameImage verbatim wordCodec.structIdent ((twoPdos wordEntry).outputPdos wordCodec) wordCodec.outputs
        wordCodec.outputBits [⟨0x1600, 0, 16⟩, ⟨0x1601, 16, 8⟩] := by
  have generated : resolveAssignments verbatim "Dev" (twoPdos wordEntry) = .ok [wordCodec] := rfl
  have resolved : (twoPdos wordEntry).resolveAssignment none = .ok ⟨[⟨0x1600, 0, 16⟩, ⟨0x1601, 16, 8⟩], []⟩ := rfl
  have outputs : Aligned (twoPdos wordEntry).rxPdos ((twoPdos wordEntry).outputPdos wordCodec) wordCodec.rxIndices :=
    ⟨by decide, by decide⟩
  have inputs : Aligned (twoPdos wordEntry).txPdos ((twoPdos wordEntry).inputPdos wordCodec) wordCodec.txIndices :=
    ⟨by decide, by decide⟩
  have same := same_image_iff generated (mem_singleton_self _) resolved rfl rfl
  exact ⟨generated, resolved, (same.mpr ⟨outputs, inputs⟩).1⟩

end Taktora.Esi
