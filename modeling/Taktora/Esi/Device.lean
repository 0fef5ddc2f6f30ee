import Taktora.Lib.Outcome
import Taktora.Lib.Saturating
import Taktora.Lib.Spans

namespace Taktora.Esi

open Saturating

inductive DataType where
  | bool
  | i8
  | i16
  | i32
  | i64
  | u8
  | u16
  | u32
  | u64
  | real32
  | real64
  | bitN (n : Nat)
  | visibleString
  | octetString
  | unicodeString
  | named (name : String)
deriving DecidableEq, Repr

structure Identity where
  vendorId : UInt32
  productCode : UInt32
  revision : UInt32
deriving DecidableEq, Repr

inductive SmDirection where
  | output
  | input
  | unspecified
deriving DecidableEq, Repr

structure SyncManager where
  index : Nat
  direction : SmDirection
  watchdogTriggerEnable : Bool
deriving DecidableEq, Repr

structure PdoEntry where
  index : Nat
  subIndex : Nat
  bitLength : Nat
  name : Option String
  dataType : Option DataType
deriving DecidableEq, Repr

structure Pdo where
  index : Nat
  name : Option String
  sm : Option Nat
  mandatory : Bool
  entries : List PdoEntry
deriving DecidableEq, Repr

structure SmAssignment where
  sm : Nat
  pdos : List Nat
deriving DecidableEq, Repr

structure AlternativeSmMapping where
  name : Option String
  default : Bool
  smAssignments : List SmAssignment
deriving DecidableEq, Repr

structure EsiDevice where
  identity : Identity
  syncManagers : List SyncManager
  txPdos : List Pdo
  rxPdos : List Pdo
  supportsCoe : Bool
  altSmMappings : List AlternativeSmMapping
deriving DecidableEq, Repr

structure ResolvedPdoEntry where
  index : Nat
  bitOffset : Nat
  bitLength : Nat
deriving DecidableEq, Repr

structure ResolvedAssignment where
  rx : List ResolvedPdoEntry
  tx : List ResolvedPdoEntry
deriving DecidableEq, Repr

inductive ResolveError where
  | noAlternativeMappings
  | mappingNotFound (requested : String) (available : List String)
  | noDefaultMapping
  | unknownAssignmentPdo (index : Nat)
deriving DecidableEq, Repr

def classify (rxPdos txPdos : List Pdo) : List Nat → Except ResolveError (List Nat × List Nat)
  | [] => .ok ([], [])
  | index :: rest =>
    if rxPdos.any (·.index == index) then do
      let (rx, tx) ← classify rxPdos txPdos rest
      .ok (index :: rx, tx)
    else if txPdos.any (·.index == index) then do
      let (rx, tx) ← classify rxPdos txPdos rest
      .ok (rx, index :: tx)
    else .error (.unknownAssignmentPdo index)

def classifyAssignment (mapping : AlternativeSmMapping) (rxPdos txPdos : List Pdo) :
    Except ResolveError (List Nat × List Nat) :=
  classify rxPdos txPdos (mapping.smAssignments.flatMap SmAssignment.pdos)

variable (entries : List PdoEntry)

def saturatingBits : Nat :=
  entries.foldl (fun acc e => Saturating.add 16 acc e.bitLength) 0

variable (pool : List Pdo) (index : Nat)

def pdoTotalBits : Nat :=
  match pool.find? (·.index == index) with
  | some p => saturatingBits p.entries
  | none => 0

def entriesFrom (pool : List Pdo) : Nat → List Nat → List ResolvedPdoEntry
  | _, [] => []
  | bitOffset, index :: rest =>
    let bitLength := pdoTotalBits pool index
    ⟨index, bitOffset, bitLength⟩ :: entriesFrom pool (Saturating.add 16 bitOffset bitLength) rest

variable (indices : List Nat)

def entriesFor : List ResolvedPdoEntry := entriesFrom pool 0 indices

def Pdo.byDefault (p : Pdo) : Bool := p.sm.isSome || p.mandatory

namespace EsiDevice

def selectMapping (d : EsiDevice) (name : Option String) : Except ResolveError (Option AlternativeSmMapping) :=
  if d.altSmMappings.isEmpty then
    match name with
    | some _ => .error .noAlternativeMappings
    | none => .ok none
  else
    match name with
    | some n =>
      match d.altSmMappings.find? (·.name == some n) with
      | some m => .ok (some m)
      | none => .error (.mappingNotFound n (d.altSmMappings.filterMap AlternativeSmMapping.name))
    | none =>
      match d.altSmMappings.find? AlternativeSmMapping.default with
      | some m => .ok (some m)
      | none => .error .noDefaultMapping

def assignedIndices (d : EsiDevice) : Option AlternativeSmMapping → Except ResolveError (List Nat × List Nat)
  | none => .ok ((d.rxPdos.filter Pdo.byDefault).map Pdo.index, (d.txPdos.filter Pdo.byDefault).map Pdo.index)
  | some mapping => classifyAssignment mapping d.rxPdos d.txPdos

def resolveAssignment (d : EsiDevice) (name : Option String) : Except ResolveError ResolvedAssignment := do
  let mapping ← d.selectMapping name
  let (rx, tx) ← d.assignedIndices mapping
  .ok ⟨entriesFor d.rxPdos rx, entriesFor d.txPdos tx⟩

end EsiDevice

def declaredBits : Nat := Spans.total PdoEntry.bitLength entries

def foundBits : Nat :=
  match pool.find? (·.index == index) with
  | some p => declaredBits p.entries
  | none => 0

theorem saturatingBits_eq : saturatingBits entries = saturate 16 (declaredBits entries) := by
  have running (acc : Nat) : entries.foldl (fun acc e => add 16 acc e.bitLength) (saturate 16 acc) =
      saturate 16 (acc + declaredBits entries) := by
    induction entries generalizing acc with
    | nil => rfl
    | cons e entries ih =>
      have step : add 16 (saturate 16 acc) e.bitLength = saturate 16 (acc + e.bitLength) := by
        simp only [add, saturate]
        omega
      rw [List.foldl_cons, step, ih, declaredBits, declaredBits, Spans.total_cons, add_assoc]
  have start := running 0
  rwa [zero_add] at start

theorem pdoTotalBits_eq : pdoTotalBits pool index = saturate 16 (foundBits pool index) := by
  unfold pdoTotalBits foundBits
  cases pool.find? (·.index == index) with
  | none => rfl
  | some p => exact saturatingBits_eq p.entries

theorem entriesFor_getElem? (k : Nat) : (entriesFor pool indices)[k]? = indices[k]?.map fun index =>
      ⟨index, saturate 16 (Spans.total (foundBits pool) (indices.take k)), pdoTotalBits pool index⟩ := by
  have running (start : Nat) : (entriesFrom pool (saturate 16 start) indices)[k]? = indices[k]?.map fun index =>
      ⟨index, saturate 16 (start + Spans.total (foundBits pool) (indices.take k)), pdoTotalBits pool index⟩ := by
    induction indices generalizing start k with
    | nil => rfl
    | cons index indices ih =>
      cases k with
      | zero => rfl
      | succ k =>
        have step : add 16 (saturate 16 start) (pdoTotalBits pool index) =
            saturate 16 (start + foundBits pool index) := by
          rw [pdoTotalBits_eq]
          simp only [add, saturate]
          omega
        simp only [entriesFrom, List.getElem?_cons_succ, step, ih, List.take_succ_cons, Spans.total_cons, add_assoc]
  have start := running 0
  simp only [zero_add] at start
  exact start

theorem entriesFor_index : (entriesFor pool indices).map ResolvedPdoEntry.index = indices := by
  unfold entriesFor
  generalize 0 = start
  induction indices generalizing start with
  | nil => rfl
  | cons index indices ih => rw [entriesFrom, List.map_cons, ih]

end Taktora.Esi
