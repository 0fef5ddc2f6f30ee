import Taktora.Lib.Outcome
import Taktora.UiContract.Encoding

namespace Taktora.UiContract

open Checked Readable Sorting FieldType

mutual

variable {P : FieldType → Prop}

theorem FieldType.induct (scalar : ∀ s, P (.scalar s)) (array : ∀ elem len, P elem → P (.array elem len))
    (str : ∀ cap, P (.str cap)) (struct : ∀ fields : List FieldSchema, (∀ f ∈ fields, P f.ty) → P (.struct fields))
    (enum : ∀ name variants width, P (.enum name variants width)) : ∀ ty, P ty
  | .scalar s => scalar s
  | .array elem len => array elem len (induct scalar array str struct enum elem)
  | .str cap => str cap
  | .struct fields => struct fields (induct_fields scalar array str struct enum fields)
  | .enum name variants width => enum name variants width

theorem FieldType.induct_fields (scalar : ∀ s, P (.scalar s)) (array : ∀ elem len, P elem → P (.array elem len))
    (str : ∀ cap, P (.str cap)) (struct : ∀ fields : List FieldSchema, (∀ f ∈ fields, P f.ty) → P (.struct fields))
    (enum : ∀ name variants width, P (.enum name variants width)) : ∀ fields : List FieldSchema, ∀ f ∈ fields, P f.ty
  | [] => List.forall_mem_nil _
  | .mk _ ty :: rest => List.forall_mem_cons.mpr
    ⟨induct scalar array str struct enum ty, induct_fields scalar array str struct enum rest⟩

end

mutual

/-- The names are valid, and those of the fields of one struct are distinct. -/
def FieldType.Valid : FieldType → Prop
  | .scalar _ | .str _ => True
  | .array elem _ => elem.Valid
  | .struct fields => (fields.map FieldSchema.name).Nodup ∧ TypesValid fields
  | .enum name variants _ => validateName name = true ∧ ∀ variant ∈ variants, validateName variant.1 = true

def TypesValid : List FieldSchema → Prop
  | [] => True
  | .mk name ty :: rest => validateName name = true ∧ ty.Valid ∧ TypesValid rest

end

def FieldsValid (fields : List FieldSchema) : Prop := (fields.map FieldSchema.name).Nodup ∧ TypesValid fields

mutual

/-- The types are equal but for the order of struct fields and of enum variants. -/
def FieldType.Same : FieldType → FieldType → Prop
  | .scalar s, .scalar s' => s = s'
  | .array elem len, .array elem' len' => elem.Same elem' ∧ len = len'
  | .str cap, .str cap' => cap = cap'
  | .struct fields, .struct fields' => ∃ permuted, TypesSame fields permuted ∧ permuted.Perm fields'
  | .enum name variants width, .enum name' variants' width' => name = name' ∧ variants.Perm variants' ∧ width = width'
  | _, _ => False

def TypesSame : List FieldSchema → List FieldSchema → Prop
  | [], [] => True
  | .mk name ty :: rest, .mk name' ty' :: rest' => name = name' ∧ ty.Same ty' ∧ TypesSame rest rest'
  | _, _ => False

end

def FieldSchema.Same (f g : FieldSchema) : Prop := f.name = g.name ∧ f.ty.Same g.ty

structure ViewModelSchema.Same (v w : ViewModelSchema) : Prop where
  name : v.name = w.name
  fields : UpToOrder FieldSchema.Same v.fields w.fields

structure CommandSchema.Same (c d : CommandSchema) : Prop where
  name : c.name = d.name
  params : UpToOrder FieldSchema.Same c.params d.params
  kind : c.kind = d.kind
  idempotent : c.idempotent = d.idempotent

/-- The manifests have the same view models and commands, in any order. -/
structure Manifest.Same (m n : Manifest) : Prop where
  viewModels : UpToOrder ViewModelSchema.Same m.viewModels n.viewModels
  commands : UpToOrder CommandSchema.Same m.commands n.commands

inductive Head where
  | scalar (s : Scalar)
  | array
  | str
  | struct
  | enum
deriving DecidableEq, Repr

def Head.keyword : Head → List Char
  | scalar s => s.tag.toList
  | array => "array".toList
  | str => "str".toList
  | struct => "struct".toList
  | enum => "enum".toList

def FieldType.head : FieldType → Head
  | .scalar s => .scalar s
  | .array _ _ => .array
  | .str _ => .str
  | .struct _ => .struct
  | .enum _ _ _ => .enum

def fieldText (field : String × List Char) : List Char := field.1.toList ++ ':' :: field.2

mutual

def FieldType.body : FieldType → List Char
  | .scalar _ => []
  | .array elem len => '<' :: (elem.head.keyword ++ (elem.body ++ ';' :: ((toString len).toList ++ ['>'])))
  | .str cap => '<' :: ((toString cap).toList ++ ['>'])
  | .struct fields => '{' :: (separated ';' ((sortBy Prod.fst (typeTexts fields)).map fieldText) ++ ['}'])
  | .enum name variants width => ':' :: (name.toList ++ '<' :: ((toString width).toList ++ '>' :: '(' ::
      (separated ',' ((sortBy variantKey variants).map variantText) ++ [')'])))

def typeTexts : List FieldSchema → List (String × List Char)
  | [] => []
  | .mk name ty :: rest => (name, ty.head.keyword ++ ty.body) :: typeTexts rest

end

def FieldType.text (ty : FieldType) : List Char := ty.head.keyword ++ ty.body

def FieldSchema.text (f : FieldSchema) : List Char := f.name.toList ++ ':' :: f.ty.text

def fieldsText (fields : List FieldSchema) : List Char :=
  separated ';' ((sortBy FieldSchema.name fields).map FieldSchema.text)

def ViewModelSchema.text (v : ViewModelSchema) : List Char :=
  "VM:".toList ++ (v.name.toList ++ '{' :: (fieldsText v.fields ++ ['}']))

def CommandSchema.text (c : CommandSchema) : List Char :=
  "CMD:".toList ++ (c.name.toList ++ '(' :: (fieldsText c.params ++ ')' :: ("kind=".toList ++
    ((kindTag c.kind).toList ++ "idem".toList ++ '=' :: (if c.idempotent then "true" else "false").toList))))

def Manifest.text (m : Manifest) : List Char :=
  (sortBy ViewModelSchema.name m.viewModels).flatMap ViewModelSchema.text ++
    (sortBy CommandSchema.name m.commands).flatMap CommandSchema.text

structure Manifest.Valid (m : Manifest) : Prop where
  viewModels : (m.viewModels.map (·.name)).Nodup
  commands : (m.commands.map (·.name)).Nodup
  viewModel : ∀ v ∈ m.viewModels, validateName v.name = true ∧ FieldsValid v.fields
  command : ∀ c ∈ m.commands, validateName c.name = true ∧ FieldsValid c.params

variable {fields : List FieldSchema} {α : Type} {xs : List α}

theorem typesValid_iff : TypesValid fields ↔ ∀ f ∈ fields, validateName f.name = true ∧ f.ty.Valid := by
  induction fields with
  | nil => simp [TypesValid]
  | cons f fields ih =>
    obtain ⟨_, _⟩ := f
    rw [TypesValid, ih, List.forall_mem_cons, and_assoc]
    rfl

theorem typesSame_iff {fields' : List FieldSchema} :
    TypesSame fields fields' ↔ List.Forall₂ FieldSchema.Same fields fields' := by
  induction fields generalizing fields' with
  | nil =>
    cases fields' with
    | nil | cons => simp [TypesSame]
  | cons f fields ih =>
    obtain ⟨_, _⟩ := f
    cases fields' with
    | nil => simp [TypesSame]
    | cons g fields' =>
      obtain ⟨_, _⟩ := g
      rw [TypesSame, ih, List.forall₂_cons, ← and_assoc]
      rfl

theorem typeTexts_eq (fields : List FieldSchema) : typeTexts fields = fields.map fun f => (f.name, f.ty.text) := by
  induction fields with
  | nil => rfl
  | cons f fields ih =>
    obtain ⟨_, _⟩ := f
    rw [typeTexts, ih]
    rfl

theorem fieldsText_eq (fields : List FieldSchema) :
    separated ';' ((sortBy Prod.fst (typeTexts fields)).map fieldText) = fieldsText fields := by
  rw [typeTexts_eq, ← map_sortBy, List.map_map]
  rfl

theorem neighboursDiffer_of_nodup {names : List String} (distinct : names.Nodup) : neighboursDiffer names = true := by
  induction names with
  | nil => rfl
  | cons a names ih =>
    cases names with
    | nil => rfl
    | cons b names =>
      rw [List.nodup_cons] at distinct
      rw [neighboursDiffer, ih distinct.2]
      simpa using fun same : a = b => distinct.1 (same ▸ List.mem_cons_self)

theorem neighboursDiffer_sortBy (name : α → String) (distinct : (xs.map name).Nodup) :
    neighboursDiffer ((sortBy name xs).map name) = true :=
  neighboursDiffer_of_nodup (((sortBy_perm name xs).map name).nodup_iff.mpr distinct)

theorem forM_debugAssert {build : Build} {holds : α → Bool} (all : ∀ x ∈ xs, holds x = true) :
    xs.forM (fun x => build.debugAssert (holds x)) = .ok () := by
  induction xs with
  | nil => rfl
  | cons x xs ih =>
    rw [List.forall_mem_cons] at all
    show (build.debugAssert (holds x) >>= fun _ => xs.forM fun x => build.debugAssert (holds x)) = .ok ()
    rw [Build.debugAssert_true all.1]
    exact ih all.2

section Encoded

variable {build : Build}

variable {fields : List FieldSchema}

theorem joinFields_eq (valid : FieldsValid fields) : joinFields build (typeTexts fields) = .ok (fieldsText fields) := by
  have names : (typeTexts fields).map Prod.fst = fields.map FieldSchema.name := by
    rw [typeTexts_eq, List.map_map]
    rfl
  have all (field : String × List Char) (member : field ∈ sortBy Prod.fst (typeTexts fields)) :
      validateName field.1 = true := by
    have among := List.mem_map_of_mem (f := Prod.fst) (mem_sortBy.mp member)
    rw [names] at among
    obtain ⟨f, among, same⟩ := List.mem_map.mp among
    exact same ▸ (typesValid_iff.mp valid.2 f among).1
  rw [joinFields, Build.debugAssert_true (neighboursDiffer_sortBy Prod.fst (names ▸ valid.1)), forM_debugAssert all]
  exact congrArg Except.ok (fieldsText_eq fields)

theorem encodeTypes_eq (each : ∀ f ∈ fields, encodeFieldType build f.ty = .ok f.ty.text) :
    encodeTypes build fields = .ok (typeTexts fields) := by
  induction fields with
  | nil => rw [encodeTypes, typeTexts]
  | cons f fields ih =>
    obtain ⟨_, ty⟩ := f
    rw [List.forall_mem_cons] at each
    have here : encodeFieldType build ty = .ok ty.text := each.1
    rw [encodeTypes, here, ih each.2]
    rfl

theorem encodeFieldType_eq {ty : FieldType} (valid : ty.Valid) : encodeFieldType build ty = .ok ty.text := by
  induction ty using induct with
  | scalar s => rw [text, body, List.append_nil]; rfl
  | array elem len ih =>
    rw [encodeFieldType, ih valid]
    simp [text, body, head, Head.keyword]
  | str cap =>
    rw [encodeFieldType, text, body]
    simp [head, Head.keyword]
  | struct fields ih =>
    have each (f : FieldSchema) (member : f ∈ fields) : encodeFieldType build f.ty = .ok f.ty.text :=
      ih f member (typesValid_iff.mp valid.2 f member).2
    rw [encodeFieldType, encodeTypes_eq each, ok_bind, joinFields_eq valid, text, body, fieldsText_eq]
    simp [head, Head.keyword]
  | enum name variants width =>
    have all (variant : String × Int) (member : variant ∈ sortBy variantKey variants) : validateName variant.1 = true :=
      valid.2 variant (mem_sortBy.mp member)
    rw [encodeFieldType, Build.debugAssert_true valid.1]
    simp only [forM_debugAssert all]
    rw [text, body]
    simp [head, Head.keyword]

theorem encodeFields_eq (valid : FieldsValid fields) : encodeFields build fields = .ok (fieldsText fields) := by
  have each (f : FieldSchema) (member : f ∈ fields) : encodeFieldType build f.ty = .ok f.ty.text :=
    encodeFieldType_eq (typesValid_iff.mp valid.2 f member).2
  rw [encodeFields, encodeTypes_eq each, ok_bind, joinFields_eq valid]

theorem encodeViewModel_eq {v : ViewModelSchema}
    (named : validateName v.name = true)
    (valid : FieldsValid v.fields) : encodeViewModel build v = .ok v.text := by
  rw [encodeViewModel, Build.debugAssert_true named, encodeFields_eq valid]
  simp [ViewModelSchema.text]

theorem encodeCommand_eq {c : CommandSchema}
    (named : validateName c.name = true)
    (valid : FieldsValid c.params) : encodeCommand build c = .ok c.text := by
  rw [encodeCommand, Build.debugAssert_true named, encodeFields_eq valid]
  simp [CommandSchema.text]

theorem canonicalEncoding_eq {m : Manifest}
    (valid : m.Valid) :
    canonicalEncoding build m = .ok (String.ofList m.text) := by
  have models (v : ViewModelSchema) (member : v ∈ sortBy ViewModelSchema.name m.viewModels) :
      encodeViewModel build v = .ok v.text := by
    obtain ⟨named, fields⟩ := valid.viewModel v (mem_sortBy.mp member)
    exact encodeViewModel_eq named fields
  have commands (c : CommandSchema) (member : c ∈ sortBy CommandSchema.name m.commands) :
      encodeCommand build c = .ok c.text := by
    obtain ⟨named, params⟩ := valid.command c (mem_sortBy.mp member)
    exact encodeCommand_eq named params
  rw [canonicalEncoding, Build.debugAssert_true (neighboursDiffer_sortBy ViewModelSchema.name valid.viewModels),
    ok_bind, mapM_of_forall models, ok_bind]
  dsimp only
  rw [Build.debugAssert_true (neighboursDiffer_sortBy CommandSchema.name valid.commands), ok_bind,
    mapM_of_forall commands, ok_bind, Manifest.text, List.flatMap_def, List.flatMap_def]

end Encoded

end Taktora.UiContract
