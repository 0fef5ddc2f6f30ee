import Taktora.Lib.Outcome
import Taktora.Lib.Saturating

namespace Taktora.Idl

open Outcome

inductive Scalar where
  | bool
  | u8
  | u16
  | u32
  | u64
  | i8
  | i16
  | i32
  | i64
  | f32
  | f64
deriving DecidableEq, Repr

namespace Scalar

def wireSize : Scalar → Nat
  | bool | u8 | i8 => 1
  | u16 | i16 => 2
  | u32 | i32 | f32 => 4
  | u64 | i64 | f64 => 8

def bitWidth : Scalar → Nat
  | bool | u8 | i8 => 8
  | u16 | i16 => 16
  | u32 | i32 | f32 => 32
  | u64 | i64 | f64 => 64

def isSignedInteger : Scalar → Bool
  | i8 | i16 | i32 | i64 => true
  | _ => false

def isFloat : Scalar → Bool
  | f32 | f64 => true
  | _ => false

def integerForBits (bits : Nat) (signed : Bool) : Option Scalar :=
  if bits = 0 then none
  else if bits ≤ 8 then some (if signed then i8 else u8)
  else if bits ≤ 16 then some (if signed then i16 else u16)
  else if bits ≤ 32 then some (if signed then i32 else u32)
  else if bits ≤ 64 then some (if signed then i64 else u64)
  else none

theorem integerForBits_eq_some {bits : Nat} {signed : Bool} {s : Scalar} (found : integerForBits bits signed = some s) :
    (0 < bits ∧ bits ≤ s.bitWidth ∧ s.bitWidth ≤ 64) ∧ s.isFloat = false ∧ s.isSignedInteger = signed := by
  cases signed with
  | false | true => grind [integerForBits, bitWidth, isFloat, isSignedInteger]

end Scalar

def lengthPrefixBytes : Nat := 4

inductive Ty where
  | scalar (s : Scalar)
  | string (capacity : Nat)
  | array (element : Ty) (len : Nat)
  | sequence (element : Ty) (capacity : Nat)
  | struct (name : String)
  | enum (name : String)
deriving DecidableEq, Repr

structure Field where
  name : String
  ty : Ty
deriving DecidableEq, Repr

structure Struct where
  name : String
  fields : List Field
deriving DecidableEq, Repr

structure EnumVariant where
  name : String
  value : Int
deriving DecidableEq, Repr

structure EnumDef where
  name : String
  underlying : Scalar
  variants : List EnumVariant
deriving DecidableEq, Repr

structure Service where
  name : String
  request : String
  response : Option String
deriving DecidableEq, Repr

inductive IrError where
  | unknownType (referrer name : String)
  | duplicateType (name : String)
  | recursiveType (cycle : List String)
deriving DecidableEq, Repr

structure Module where
  name : String
  structs : List Struct
  enums : List EnumDef
  services : List Service
deriving DecidableEq, Repr

namespace Module

variable (m : Module)

def structByName (name : String) : Option Struct := m.structs.find? (·.name == name)

def enumByName (name : String) : Option EnumDef := m.enums.find? (·.name == name)

def unknown (stack : List String) (name : String) : IrError := .unknownType (stack.getLast?.getD "") name

def maxLenInner (m : Module) (fieldsLen : Struct → List String → Outcome IrError Nat) (stack : List String) :
    Ty → Outcome IrError Nat
  | .scalar s => .ok s.wireSize
  | .string capacity => ofChecked (Checked.add 64 lengthPrefixBytes capacity)
  | .array element len => do
    let size ← m.maxLenInner fieldsLen stack element
    .ok (Saturating.mul 64 size len)
  | .sequence element capacity => do
    let size ← m.maxLenInner fieldsLen stack element
    ofChecked (Checked.add 64 lengthPrefixBytes (Saturating.mul 64 size capacity))
  | .enum name =>
    match m.enumByName name with
    | some e => .ok e.underlying.wireSize
    | none => .error (.error (unknown stack name))
  | .struct name =>
    match m.structByName name with
    | none => .error (.error (unknown stack name))
    | some s =>
      if stack.contains s.name then .error (.error (.recursiveType (stack ++ [s.name])))
      else fieldsLen s (stack ++ [s.name])

def structFieldsLen (m : Module) : Nat → Struct → List String → Outcome IrError Nat
  | 0, _, stack => .error (.error (.recursiveType stack))
  | depth + 1, s, stack =>
    s.fields.foldlM (fun total f => do
      let size ← m.maxLenInner (m.structFieldsLen depth) stack f.ty
      return Saturating.add 64 total size) 0

def maxDepth : Nat := m.structs.length + 1

def maxSerializedLen (ty : Ty) : Outcome IrError Nat :=
  m.maxLenInner (m.structFieldsLen m.maxDepth) [] ty

def structMaxSerializedLen (s : Struct) : Outcome IrError Nat := m.structFieldsLen m.maxDepth s [s.name]

def checkUniqueNames : Except IrError Unit :=
  Checked.rejectRepeated .duplicateType [] (m.structs.map Struct.name ++ m.enums.map EnumDef.name)

def reframeUnknown (service : String) : Abort IrError → Abort IrError
  | .error (.unknownType _ name) => .error (.unknownType service name)
  | other => other

def validateService (svc : Service) : Outcome IrError Unit := do
  let _ ← (m.maxSerializedLen (.struct svc.request)).mapError (reframeUnknown svc.name)
  match svc.response with
  | none => .ok ()
  | some resp =>
    let _ ← (m.maxSerializedLen (.struct resp)).mapError (reframeUnknown svc.name)
    .ok ()

def validate : Outcome IrError Unit := do
  ofResult m.checkUniqueNames
  m.structs.forM fun s => do
    let _ ← m.structMaxSerializedLen s
    .ok ()
  m.services.forM m.validateService

theorem names_nodup_of_validate {m : Module} (valid : m.validate = .ok ()) :
    (m.structs.map Struct.name).Nodup ∧ (m.enums.map EnumDef.name).Nodup := by
  obtain ⟨_, unique, _⟩ := Checked.bind_ok valid
  have distinct := (Checked.rejectRepeated_eq_ok.mp (ofResult_eq_ok.mp unique)).1
  rw [List.nodup_append] at distinct
  exact ⟨distinct.1, distinct.2.1⟩

end Module

end Taktora.Idl
