import Taktora.Idl.Dbc

namespace Taktora.Idl

open Checked List

inductive FieldKind where
  | unsigned (s : Scalar)
  | signed (s : Scalar)
  | float (s : Scalar)
  | enum (ident : String) (underlying : Scalar)
deriving DecidableEq, Repr

structure ResolvedField where
  ident : String
  sourceName : String
  kind : FieldKind
deriving DecidableEq, Repr

structure ResolvedStruct where
  ident : String
  sourceName : String
  fields : List ResolvedField
deriving DecidableEq, Repr

structure ResolvedEnum where
  ident : String
  sourceName : String
  underlying : Scalar
  variants : List (String × Int)
deriving DecidableEq, Repr

structure ResolvedModule where
  name : String
  enums : List ResolvedEnum
  structs : List ResolvedStruct
deriving DecidableEq, Repr

inductive CodegenError where
  | unsupportedField (structName field detail : String)
  | unknownEnum (structName field enumName : String)
  | backend (what detail : String)
  | duplicateType (ident : String)
  | duplicateField (structName ident : String)
  | duplicateVariant (enumName ident : String)
deriving DecidableEq, Repr

structure Naming where
  typeIdent : String → String
  variantIdent : String → String
  fieldIdent : String → String

def scalarKind (s : Scalar) : FieldKind :=
  if s.isFloat then .float s else if s.isSignedInteger then .signed s else .unsigned s

variable (naming : Naming)

def resolveEnum (e : EnumDef) : ResolvedEnum :=
  ⟨naming.typeIdent e.name, e.name, e.underlying, e.variants.map fun v => (naming.variantIdent v.name, v.value)⟩

def resolveKind (structName : String) (f : Field) (enums : List ResolvedEnum) : Except CodegenError FieldKind :=
  match f.ty with
  | .scalar s => .ok (scalarKind s)
  | .enum name =>
    match enums.find? (·.sourceName == name) with
    | some e => .ok (.enum e.ident e.underlying)
    | none => .error (.unknownEnum structName f.name name)
  | .string _ => .error (.unsupportedField structName f.name "bounded string")
  | .array _ _ => .error (.unsupportedField structName f.name "array")
  | .sequence _ _ => .error (.unsupportedField structName f.name "sequence")
  | .struct _ => .error (.unsupportedField structName f.name "nested struct")

variable (enums : List ResolvedEnum)

def resolveField (structName : String) (f : Field) : Except CodegenError ResolvedField := do
  let kind ← resolveKind structName f enums
  .ok ⟨naming.fieldIdent f.name, f.name, kind⟩

def resolveStruct (s : Struct) : Except CodegenError ResolvedStruct := do
  let fields ← s.fields.mapM (resolveField naming enums s.name)
  .ok ⟨naming.typeIdent s.name, s.name, fields⟩

def checkUniqueIdents (structs : List ResolvedStruct) : Except CodegenError Unit := do
  rejectRepeated .duplicateType [] (enums.map ResolvedEnum.ident ++ structs.map ResolvedStruct.ident)
  enums.forM fun e => rejectRepeated (.duplicateVariant e.sourceName) [] (e.variants.map Prod.fst)
  structs.forM fun s => rejectRepeated (.duplicateField s.sourceName) [] (s.fields.map ResolvedField.ident)

def resolve (m : Module) : Except CodegenError ResolvedModule := do
  let enums := m.enums.map (resolveEnum naming)
  let structs ← m.structs.mapM (resolveStruct naming enums)
  checkUniqueIdents enums structs
  .ok ⟨m.name, enums, structs⟩

inductive CodecKind where
  | unsigned (s : Scalar)
  | signed (s : Scalar)
  | enum (ident : String) (underlying : Scalar)
deriving DecidableEq, Repr

def CodecKind.scalar : CodecKind → Scalar
  | unsigned s | signed s | enum _ s => s

structure FieldCode where
  ident : String
  kind : CodecKind
  startBit : Nat
  bitLen : Nat
  byteOrder : ByteOrder
deriving DecidableEq, Repr

structure GeneratedEnum where
  ident : String
  repr : Scalar
  variants : List (String × Int)
deriving DecidableEq, Repr

structure GeneratedStruct where
  ident : String
  dlc : Nat
  fields : List FieldCode
deriving DecidableEq, Repr

structure Generated where
  enums : List GeneratedEnum
  structs : List GeneratedStruct
deriving DecidableEq, Repr

def Generated.enumNamed (g : Generated) (ident : String) : Option GeneratedEnum := g.enums.find? (·.ident == ident)

namespace CanBackend

def emitEnum (e : ResolvedEnum) : GeneratedEnum := ⟨e.ident, e.underlying, e.variants⟩

def signalFor (signals : List SignalLayout) (f : ResolvedField) : Option SignalLayout :=
  signals.find? (·.fieldName == f.sourceName)

def codecKind (structName : String) (f : ResolvedField) : Except CodegenError CodecKind :=
  match f.kind with
  | .unsigned s => .ok (.unsigned s)
  | .signed s => .ok (.signed s)
  | .enum ident underlying => .ok (.enum ident underlying)
  | .float _ => .error (.backend (structName ++ "." ++ f.sourceName) "CAN backend handles integer and enum fields only")

def emitField (structName : String) (frame : FrameLayout) (f : ResolvedField) : Except CodegenError FieldCode :=
  match signalFor frame.signals f with
  | none => .error (.backend (structName ++ "." ++ f.sourceName) "no signal layout for this field")
  | some sig => do
    let kind ← codecKind structName f
    .ok ⟨f.ident, kind, sig.startBit, sig.bitLen, sig.byteOrder⟩

def emitStruct (layout : DbcLayout) (s : ResolvedStruct) : Except CodegenError GeneratedStruct :=
  match layout.frame s.sourceName with
  | none => .error (.backend s.sourceName "no CAN frame layout for this struct")
  | some frame => do
    let fields ← s.fields.mapM (emitField s.sourceName frame)
    .ok ⟨s.ident, frame.dlc, fields⟩

end CanBackend

open CanBackend

def generate (m : Module) (layout : DbcLayout) : Except CodegenError Generated := do
  let resolved ← resolve naming m
  let structs ← resolved.structs.mapM (CanBackend.emitStruct layout)
  .ok ⟨resolved.enums.map CanBackend.emitEnum, structs⟩

/-- The code of a field matches its integer type, and the enum it names is generated on that type. -/
def CodecKind.Sound (g : Generated) : CodecKind → Prop
  | unsigned s => s.isSignedInteger = false
  | signed s => s.isSignedInteger = true
  | enum ident underlying => ∃ e, g.enumNamed ident = some e ∧ e.repr = underlying

structure FieldCode.Sound (g : Generated) (dlc : Nat) (f : FieldCode) : Prop where
  fits : check dlc f.startBit f.bitLen f.byteOrder = .ok ()
  holds : f.bitLen ≤ f.kind.scalar.bitWidth ∧ f.kind.scalar.bitWidth ≤ 64
  kind : f.kind.Sound g

variable {naming : Naming} {g : Generated}

/-- What generation has resolved: the structs one by one, and identifiers that are pairwise distinct. -/
structure Resolves (naming : Naming) (m : Module) (layout : DbcLayout) (g : Generated)
    (structs : List ResolvedStruct) : Prop where
  resolved : m.structs.mapM (resolveStruct naming (m.enums.map (resolveEnum naming))) = .ok structs
  emitted : structs.mapM (CanBackend.emitStruct layout) = .ok g.structs
  enums : g.enums = (m.enums.map (resolveEnum naming)).map CanBackend.emitEnum
  distinct : (g.enums.map GeneratedEnum.ident).Nodup
  fields : ∀ s ∈ structs, (s.fields.map ResolvedField.ident).Nodup

variable {m : Module} {layout : DbcLayout} {structs : List ResolvedStruct} {structName : String}
    {enums : List ResolvedEnum} {r : ResolvedStruct} {lowered : LoweredDbc}

theorem generate_resolves (generated : generate naming m layout = .ok g) :
    ∃ structs, Resolves naming m layout g structs := by
  obtain ⟨r, resolved, generated⟩ := bind_ok generated
  obtain ⟨_, each, generated⟩ := bind_ok generated
  cases generated
  obtain ⟨structs, resolved_structs, resolved⟩ := bind_ok resolved
  obtain ⟨_, unique, resolved⟩ := bind_ok resolved
  cases resolved
  obtain ⟨_, types, unique⟩ := bind_ok unique
  obtain ⟨_, _, fields⟩ := bind_ok unique
  have distinct := (nodup_append.mp (rejectRepeated_eq_ok.mp types).1).1
  refine ⟨structs, resolved_structs, each, rfl, ?_, ?_⟩
  · simpa only [map_map, Function.comp_def, emitEnum] using distinct
  · intro s member
    exact (rejectRepeated_eq_ok.mp (forM_eq_ok.mp fields s member)).1

theorem codecKind_sound {ls : LoweredSignal} {structName' : String} {f : ResolvedField} {codec : CodecKind}
    (carries : ls.Carries)
    (known : ∀ e ∈ ls.enums, e ∈ m.enums)
    (names : (m.enums.map EnumDef.name).Nodup)
    (resolves : Resolves naming m layout g structs)
    (resolved : resolveKind structName ls.field (m.enums.map (resolveEnum naming)) = .ok f.kind)
    (emitted : codecKind structName' f = .ok codec) :
    codec.Sound g ∧ ls.layout.bitLen ≤ codec.scalar.bitWidth ∧ codec.scalar.bitWidth ≤ 64 := by
  unfold codecKind at emitted
  rcases carries with ⟨_, signed, found, typed⟩ | ⟨e, member, _, found, typed⟩
  · obtain ⟨width, float, sign⟩ := Scalar.integerForBits_eq_some found
    simp only [resolveKind, typed, scalarKind, float, sign, Bool.false_eq_true, if_false] at resolved
    cases signed with
    | false | true =>
      rw [← Except.ok.inj resolved] at emitted
      cases emitted
      exact ⟨sign, width.2⟩
  · have width := (Scalar.integerForBits_eq_some found).1
    have own : (m.enums.map (resolveEnum naming)).find? (·.sourceName == e.name) = some (resolveEnum naming e) := by
      apply find?_key ResolvedEnum.sourceName (x := resolveEnum naming e)
      · simpa only [map_map, Function.comp_def, resolveEnum] using names
      · exact mem_map_of_mem (known e member)
    simp only [resolveKind, typed, own] at resolved
    rw [← Except.ok.inj resolved] at emitted
    cases emitted
    refine ⟨⟨emitEnum (resolveEnum naming e), ?_, rfl⟩, width.2⟩
    apply find?_key GeneratedEnum.ident (x := emitEnum (resolveEnum naming e)) resolves.distinct
    rw [resolves.enums]
    exact mem_map_of_mem (mem_map_of_mem (known e member))

theorem resolveStruct_fields {s : Struct} (resolved : resolveStruct naming enums s = .ok r) :
    r.sourceName = s.name ∧ s.fields.mapM (resolveField naming enums s.name) = .ok r.fields := by
  obtain ⟨_, each, resolved⟩ := bind_ok resolved
  cases resolved
  exact ⟨rfl, each⟩

theorem resolveField_eq_ok {f : Field} {r : ResolvedField} (resolved : resolveField naming enums structName f = .ok r) :
    r.ident = naming.fieldIdent f.name ∧ r.sourceName = f.name ∧ resolveKind structName f enums = .ok r.kind := by
  obtain ⟨_, found, resolved⟩ := bind_ok resolved
  cases resolved
  exact ⟨rfl, rfl, found⟩

theorem names_of_idents {fs : List Field} {rs : List ResolvedField}
    (resolved : fs.mapM (resolveField naming enums structName) = .ok rs)
    (distinct : (rs.map ResolvedField.ident).Nodup) : (fs.map Field.name).Nodup := by
  have idents : rs.map ResolvedField.ident = (fs.map Field.name).map naming.fieldIdent := by
    have related := mapM_eq_ok.mp resolved
    clear resolved distinct
    induction related with
    | nil => rfl
    | cons head tail ih => rw [map_cons, map_cons, map_cons, ih, (resolveField_eq_ok head).1]
  rw [idents] at distinct
  exact distinct.of_map

theorem emitStruct_sound {messages : List LoweredMessage} {message : LoweredMessage} {s : GeneratedStruct}
    (parts : lowered.Parts messages)
    (resolves : Resolves naming lowered.module lowered.layout g structs)
    (among : message ∈ messages)
    (member : r ∈ structs)
    (resolved : resolveStruct naming (lowered.module.enums.map (resolveEnum naming)) message.struct = .ok r)
    (emitted : emitStruct lowered.layout r = .ok s) : ∀ f ∈ s.fields, f.Sound g s.dlc := by
  obtain ⟨_, shaped⟩ := parts.shaped message among
  obtain ⟨source, each⟩ := resolveStruct_fields resolved
  simp only [emitStruct, source, parts.frame_found among] at emitted
  obtain ⟨_, coded, emitted⟩ := bind_ok emitted
  cases emitted
  intro f code
  obtain ⟨_, field, emitted⟩ := exists_of_mapM coded code
  obtain ⟨_, origin, resolved⟩ := exists_of_mapM each field
  rw [shaped.fields] at origin
  obtain ⟨ls, signal, same⟩ := mem_map.mp origin
  subst same
  obtain ⟨_, sourceName, kind⟩ := resolveField_eq_ok resolved
  have place := shaped.signal_found (names_of_idents each (resolves.fields r member)) signal
  have placed := shaped.placed ls signal
  simp only [emitField, signalFor, sourceName, place] at emitted
  obtain ⟨_, emitted_kind, emitted⟩ := bind_ok emitted
  cases emitted
  have sound := codecKind_sound placed.carries (parts.enum_known among shaped signal) parts.enumNames resolves kind
    emitted_kind
  exact ⟨placed.fits, sound.2, sound.1⟩

/-- All code generated from a lowered database stays inside its frame and inside the types of its fields. -/
theorem generate_sound {db : DbcDatabase} {moduleName : String}
    (accepted : lower db moduleName = .ok lowered)
    (generated : generate naming lowered.module lowered.layout = .ok g) :
    ∀ s ∈ g.structs, ∀ f ∈ s.fields, f.Sound g s.dlc := by
  obtain ⟨_, parts⟩ := lower_parts accepted
  obtain ⟨_, resolves⟩ := generate_resolves generated
  intro s member
  obtain ⟨r, resolved_member, emitted⟩ := exists_of_mapM resolves.emitted member
  obtain ⟨_, struct_member, resolved⟩ := exists_of_mapM resolves.resolved resolved_member
  rw [parts.structs] at struct_member
  obtain ⟨_, among, same⟩ := mem_map.mp struct_member
  subst same
  exact emitStruct_sound parts resolves among resolved_member resolved emitted

end Taktora.Idl
