import Mathlib.Data.Prod.Lex
import Mathlib.Data.String.Basic
import Taktora.Lib.Checked
import Taktora.Lib.Readable
import Taktora.Lib.Sorting

namespace Taktora.UiContract

open Checked Readable Sorting

inductive Scalar where
  | bool
  | i8
  | i16
  | i32
  | i64
  | u8
  | u16
  | u32
  | u64
  | f32
  | f64
deriving DecidableEq, Repr

mutual

inductive FieldType where
  | scalar (s : Scalar)
  | array (elem : FieldType) (len : Nat)
  | str (cap : Nat)
  | struct (fields : List FieldSchema)
  | enum (name : String) (variants : List (String × Int)) (width : Nat)

inductive FieldSchema where
  | mk (name : String) (ty : FieldType)

end

def FieldSchema.name : FieldSchema → String
  | .mk name _ => name

def FieldSchema.ty : FieldSchema → FieldType
  | .mk _ ty => ty

inductive Kind where
  | property
  | command
  | canExecute
  | event
deriving DecidableEq, Repr

structure ViewModelSchema where
  name : String
  service : String
  fields : List FieldSchema

structure CommandSchema where
  name : String
  requestService : String
  replyService : String
  params : List FieldSchema
  kind : Kind
  idempotent : Bool
  canExecuteService : Option String

structure Manifest where
  instanceName : String
  epoch : Nat
  contractHash : String
  viewModels : List ViewModelSchema
  commands : List CommandSchema

def validateName (name : String) : Bool :=
  !name.toList.isEmpty && name.toList.all fun c => c.isAlphanum || c == '_'

def kindTag : Kind → String
  | .property => "property"
  | .command => "command"
  | .canExecute => "can_execute"
  | .event => "event"

def Scalar.tag : Scalar → String
  | bool => "bool"
  | i8 => "i8"
  | i16 => "i16"
  | i32 => "i32"
  | i64 => "i64"
  | u8 => "u8"
  | u16 => "u16"
  | u32 => "u32"
  | u64 => "u64"
  | f32 => "f32"
  | f64 => "f64"

def neighboursDiffer : List String → Bool
  | a :: b :: rest => a != b && neighboursDiffer (b :: rest)
  | _ => true

def variantKey (variant : String × Int) : Int ×ₗ String := toLex (variant.2, variant.1)

def variantText (variant : String × Int) : List Char := variant.1.toList ++ '=' :: (toString variant.2).toList

variable (build : Build)

def joinFields (fields : List (String × List Char)) : Except Panic (List Char) := do
  let sorted := sortBy Prod.fst fields
  build.debugAssert (neighboursDiffer (sorted.map Prod.fst))
  sorted.forM fun field => build.debugAssert (validateName field.1)
  .ok (separated ';' (sorted.map fun field => field.1.toList ++ ':' :: field.2))

mutual

def encodeFieldType (build : Build) : FieldType → Except Panic (List Char)
  | .scalar s => .ok s.tag.toList
  | .array elem len => do
    let inner ← encodeFieldType build elem
    .ok ("array<".toList ++ inner ++ ';' :: (toString len).toList ++ ['>'])
  | .str cap => .ok ("str<".toList ++ (toString cap).toList ++ ['>'])
  | .struct fields => do
    let types ← encodeTypes build fields
    let inner ← joinFields build types
    .ok ("struct\x7b".toList ++ inner ++ ['}'])
  | .enum name variants width => do
    build.debugAssert (validateName name)
    let sorted := sortBy variantKey variants
    sorted.forM fun variant => build.debugAssert (validateName variant.1)
    .ok ("enum:".toList ++ name.toList ++ '<' :: (toString width).toList ++ ">(".toList ++
      separated ',' (sorted.map variantText) ++ [')'])

def encodeTypes (build : Build) : List FieldSchema → Except Panic (List (String × List Char))
  | [] => .ok []
  | .mk name ty :: rest => do
    let type ← encodeFieldType build ty
    let types ← encodeTypes build rest
    .ok ((name, type) :: types)

end

def encodeFields (fields : List FieldSchema) : Except Panic (List Char) := do
  let types ← encodeTypes build fields
  joinFields build types

def encodeViewModel (vm : ViewModelSchema) : Except Panic (List Char) := do
  build.debugAssert (validateName vm.name)
  let fields ← encodeFields build vm.fields
  .ok ("VM:".toList ++ vm.name.toList ++ '{' :: fields ++ ['}'])

def encodeCommand (cmd : CommandSchema) : Except Panic (List Char) := do
  build.debugAssert (validateName cmd.name)
  let params ← encodeFields build cmd.params
  .ok ("CMD:".toList ++ cmd.name.toList ++ '(' :: params ++ ")kind=".toList ++ (kindTag cmd.kind).toList ++
    "idem=".toList ++ (if cmd.idempotent then "true" else "false").toList)

def canonicalEncoding (m : Manifest) : Except Panic String := do
  let vms := sortBy ViewModelSchema.name m.viewModels
  build.debugAssert (neighboursDiffer (vms.map (·.name)))
  let models ← vms.mapM (encodeViewModel build)
  let cmds := sortBy CommandSchema.name m.commands
  build.debugAssert (neighboursDiffer (cmds.map (·.name)))
  let commands ← cmds.mapM (encodeCommand build)
  .ok (String.ofList (models.flatten ++ commands.flatten))

end Taktora.UiContract
