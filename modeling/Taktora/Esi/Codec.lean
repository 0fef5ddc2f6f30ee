import Taktora.Esi.Device

namespace Taktora.Esi

inductive CodegenError where
  | invalidIdent (ident reason : String)
  | unsupportedEntryType (index subIndex : Nat) (field reason : String)
  | unknownAssignmentPdo (device : String) (index : Nat)
deriving DecidableEq, Repr

inductive RustType where
  | bool
  | int (signed : Bool) (bits : Nat)
  | f32
  | f64
  | bytes (n : Nat)
deriving DecidableEq, Repr

structure FieldType where
  rustType : RustType
  doc : Option String
deriving DecidableEq, Repr

inductive ScalarKind where
  | int
  | f32
  | f64
deriving DecidableEq, Repr

inductive Layout where
  | bool (offset : Nat)
  | field (offset width : Nat) (kind : ScalarKind)
  | bytes (offset count : Nat)
deriving DecidableEq, Repr

namespace Layout

def offset : Layout → Nat
  | bool offset | field offset _ _ | bytes offset _ => offset

def width : Layout → Nat
  | bool _ => 1
  | field _ width _ => width
  | bytes _ count => count * 8

end Layout

namespace Typemap

def storageBits (width : Nat) : Nat := if width ≤ 8 then 8 else if width ≤ 16 then 16 else if width ≤ 32 then 32 else 64

def exactInt (signed : Bool) (width offset : Nat) : FieldType × Layout :=
  (⟨.int signed width, none⟩, .field offset width .int)

def widthUnsigned (width offset : Nat) : FieldType × Layout :=
  (⟨.int false (storageBits width), none⟩, .field offset width .int)

def opaqueField (width offset : Nat) (name : String) (index subIndex : Nat) (field : String) :
    Except CodegenError (FieldType × Layout) :=
  let doc := "opaque " ++ name ++ " (" ++ toString width ++ " bits)"
  if width = 0 then .error (.unsupportedEntryType index subIndex field (name ++ " has zero bit length"))
  else if width = 1 then .ok (⟨.bool, some doc⟩, .bool offset)
  else if width ≤ 64 then .ok (⟨.int false (storageBits width), some doc⟩, .field offset width .int)
  else .ok (⟨.bytes ((width + 7) / 8), some doc⟩, .bytes offset ((width + 7) / 8))

def resolve (dataType : Option DataType) (width offset index subIndex : Nat) (field : String) :
    Except CodegenError (FieldType × Layout) :=
  match dataType with
  | some .bool => .ok (⟨.bool, none⟩, .bool offset)
  | some .i8 => .ok (exactInt true 8 offset)
  | some .i16 => .ok (exactInt true 16 offset)
  | some .i32 => .ok (exactInt true 32 offset)
  | some .i64 => .ok (exactInt true 64 offset)
  | some .u8 => .ok (exactInt false 8 offset)
  | some .u16 => .ok (exactInt false 16 offset)
  | some .u32 => .ok (exactInt false 32 offset)
  | some .u64 => .ok (exactInt false 64 offset)
  | some .real32 => .ok (⟨.f32, none⟩, .field offset 32 .f32)
  | some .real64 => .ok (⟨.f64, none⟩, .field offset 64 .f64)
  | some (.bitN _) | none => if width = 1 then .ok (⟨.bool, none⟩, .bool offset) else .ok (widthUnsigned width offset)
  | some .visibleString => opaqueField width offset "VisibleString" index subIndex field
  | some .octetString => opaqueField width offset "OctetString" index subIndex field
  | some .unicodeString => opaqueField width offset "UnicodeString" index subIndex field
  | some (.named name) => opaqueField width offset name index subIndex field

def layoutWidth (dataType : Option DataType) (bitLength : Nat) : Nat :=
  match dataType with
  | some .bool => 1
  | some .i8 | some .u8 => 8
  | some .i16 | some .u16 => 16
  | some .i32 | some .u32 | some .real32 => 32
  | some .i64 | some .u64 | some .real64 => 64
  | some (.bitN _) | none => bitLength
  | some .visibleString | some .octetString | some .unicodeString | some (.named _) =>
    if bitLength ≤ 64 then bitLength else (bitLength + 7) / 8 * 8

theorem opaqueField_layout {width offset index subIndex : Nat} {name field : String} {ty : FieldType} {layout : Layout}
    (resolved : opaqueField width offset name index subIndex field = .ok (ty, layout)) :
    layout.offset = offset ∧ layout.width = if width ≤ 64 then width else (width + 7) / 8 * 8 := by
  unfold opaqueField at resolved
  by_cases zero : width = 0
  · simp [zero] at resolved
  · by_cases one : width = 1
    · simp only [one] at resolved
      cases resolved
      exact ⟨rfl, by simp [one, Layout.width]⟩
    · by_cases narrow : width ≤ 64
      · simp only [zero, one, narrow] at resolved
        cases resolved
        exact ⟨rfl, (if_pos narrow).symm⟩
      · simp only [zero, one, narrow] at resolved
        cases resolved
        exact ⟨rfl, (if_neg narrow).symm⟩

theorem resolve_layout {dataType : Option DataType} {width offset index subIndex : Nat} {field : String}
    {ty : FieldType} {layout : Layout}
    (resolved : resolve dataType width offset index subIndex field = .ok (ty, layout)) :
    layout.offset = offset ∧ layout.width = layoutWidth dataType width := by
  unfold resolve at resolved
  split at resolved
  case h_12 | h_13 =>
    split at resolved
    · rename_i one
      cases resolved
      exact ⟨rfl, one.symm⟩
    · cases resolved
      exact ⟨rfl, rfl⟩
  case h_14 | h_15 | h_16 | h_17 => exact opaqueField_layout resolved
  all_goals
    cases resolved
    exact ⟨rfl, rfl⟩

end Typemap

/-- The policy that makes identifiers from the names of the file. -/
structure Naming where
  fieldIdent : String → Except CodegenError String
  pdoFieldIdent : Option String → Nat → Except CodegenError String
  pdoStructIdent : String → Option String → Nat → Except CodegenError String
  opModeVariantIdent : Option String → Nat → Except CodegenError String
  opModeVariantStructIdent : String → Option String → Nat → Except CodegenError String

structure ResolvedField where
  ident : String
  rustType : RustType
  layout : Layout
  doc : Option String
deriving DecidableEq, Repr

structure ResolvedPdo where
  fieldIdent : String
  structIdent : String
  fields : List ResolvedField
deriving DecidableEq, Repr

def hex4 (n : Nat) : String :=
  let digits := Nat.toDigits 16 n
  String.ofList (List.replicate (4 - digits.length) '0' ++ digits)

def PdoEntry.rawName (e : PdoEntry) : String :=
  match e.name with
  | some name => name
  | none => "entry_" ++ hex4 e.index ++ "_" ++ toString e.subIndex

abbrev Seen := String → Nat

def Seen.count (seen : Seen) (base : String) : Seen := fun ident => if ident = base then seen base + 1 else seen ident

variable (naming : Naming)

def dedupIdent (ident : String) (seen : Seen) : Except CodegenError String :=
  if seen ident = 0 then .ok ident else naming.fieldIdent (ident ++ "_" ++ toString (seen ident + 1))

def resolveEntries (naming : Naming) : Seen → Nat → List PdoEntry → Except CodegenError (List ResolvedField × Nat)
  | _, offset, [] => .ok ([], offset)
  | seen, offset, e :: rest =>
    if e.index = 0 then resolveEntries naming seen (offset + e.bitLength) rest
    else do
      let base ← naming.fieldIdent e.rawName
      let ident ← dedupIdent naming base seen
      let (ty, layout) ← Typemap.resolve e.dataType e.bitLength offset e.index e.subIndex e.rawName
      let (fields, finish) ← resolveEntries naming (seen.count base) (offset + layout.width) rest
      .ok (⟨ident, ty.rustType, layout, ty.doc⟩ :: fields, finish)

def resolvePdoFields (pdo : Pdo) (offset : Nat) : Except CodegenError (List ResolvedField × Nat) :=
  resolveEntries naming (fun _ => 0) offset pdo.entries

def resolveFrom (naming : Naming) (deviceStruct : String) : Nat → List Pdo →
    Except CodegenError (List ResolvedPdo × Nat)
  | offset, [] => .ok ([], offset)
  | offset, pdo :: rest => do
    let (fields, next) ← resolvePdoFields naming pdo offset
    let fieldIdent ← naming.pdoFieldIdent pdo.name pdo.index
    let structIdent ← naming.pdoStructIdent deviceStruct pdo.name pdo.index
    let (resolved, finish) ← resolveFrom naming deviceStruct next rest
    .ok (⟨fieldIdent, structIdent, fields⟩ :: resolved, finish)

def resolveDirection (pdos : List Pdo) (deviceStruct : String) :
    Except CodegenError (List ResolvedPdo × Nat) := resolveFrom naming deviceStruct 0 pdos

structure CodecAssignment where
  variantIdent : String
  structIdent : String
  inputs : List ResolvedPdo
  inputBits : Nat
  outputs : List ResolvedPdo
  outputBits : Nat
  rxIndices : List Nat
  txIndices : List Nat
deriving DecidableEq, Repr

def collectPdos (pool : List Pdo) (indices : List Nat) : List Pdo :=
  indices.filterMap fun index => pool.find? (·.index == index)

structure Planned where
  variantIdent : String
  structIdent : String
  rxIndices : List Nat
  txIndices : List Nat
deriving DecidableEq, Repr

def dedupPlanned (seen : Seen) : List Planned → List Planned
  | [] => []
  | p :: rest =>
    let count := seen p.structIdent + 1
    let renamed :=
      if 1 < count then
        { p with
          variantIdent := p.variantIdent ++ toString count
          structIdent := p.structIdent ++ toString count }
      else p
    renamed :: dedupPlanned (seen.count p.structIdent) rest

def mappingOrder (mappings : List AlternativeSmMapping) : List AlternativeSmMapping :=
  mappings.filter AlternativeSmMapping.default ++ mappings.filter fun m => !m.default

variable (deviceStruct : String)

def ofResolveError : ResolveError → CodegenError
  | .unknownAssignmentPdo index => .unknownAssignmentPdo deviceStruct index
  | _ => .invalidIdent deviceStruct "unreachable"

variable (d : EsiDevice)

def planMapping (m : AlternativeSmMapping) (ordinal : Nat) : Except CodegenError Planned := do
  let (rxIndices, txIndices) ← (classifyAssignment m d.rxPdos d.txPdos).mapError (ofResolveError deviceStruct)
  let variantIdent ← naming.opModeVariantIdent m.name ordinal
  let structIdent ← naming.opModeVariantStructIdent deviceStruct m.name ordinal
  .ok ⟨variantIdent, structIdent, rxIndices, txIndices⟩

def resolvePlanned (p : Planned) : Except CodegenError CodecAssignment := do
  let (inputs, inputBits) ← resolveDirection naming (collectPdos d.txPdos p.txIndices) p.structIdent
  let (outputs, outputBits) ← resolveDirection naming (collectPdos d.rxPdos p.rxIndices) p.structIdent
  .ok ⟨p.variantIdent, p.structIdent, inputs, inputBits, outputs, outputBits, p.rxIndices, p.txIndices⟩

def resolveDefaultAssignment : Except CodegenError CodecAssignment := do
  let inDefault := d.txPdos.filter Pdo.byDefault
  let outDefault := d.rxPdos.filter Pdo.byDefault
  let variantStruct ← naming.opModeVariantStructIdent deviceStruct (some "Default") 0
  let (inputs, inputBits) ← resolveDirection naming inDefault variantStruct
  let (outputs, outputBits) ← resolveDirection naming outDefault variantStruct
  let variantIdent ← naming.opModeVariantIdent (some "Default") 0
  .ok ⟨variantIdent, variantStruct, inputs, inputBits, outputs, outputBits, outDefault.map Pdo.index,
    inDefault.map Pdo.index⟩

def resolveAssignments : Except CodegenError (List CodecAssignment) :=
  if d.altSmMappings.isEmpty then do
    let assignment ← resolveDefaultAssignment naming deviceStruct d
    .ok [assignment]
  else do
    let planned ← (mappingOrder d.altSmMappings).zipIdx.mapM fun (m, ordinal) =>
        planMapping naming deviceStruct d m ordinal
    (dedupPlanned (fun _ => 0) planned).mapM (resolvePlanned naming d)

end Taktora.Esi
