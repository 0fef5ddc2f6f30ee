import Mathlib.Data.List.Induction
import Mathlib.Logic.Function.Basic
import Taktora.Lib.LittleEndian

namespace Taktora.Dlt

open LittleEndian List

inductive Level where
  | error
  | warn
  | info
  | debug
  | trace
deriving DecidableEq

namespace Level

def rank : Level → Nat
  | error => 1
  | warn => 2
  | info => 3
  | debug => 4
  | trace => 5

def toU8 : Level → UInt8
  | error => 2
  | warn => 3
  | info => 4
  | debug => 5
  | trace => 6

def ofU8 (v : UInt8) : Level :=
  if v = 3 then warn else if v = 4 then info else if v = 5 then debug else if v = 6 then trace else error

@[simp] theorem ofU8_toU8 (level : Level) : ofU8 level.toU8 = level := by
  cases level <;> rfl

end Level

def decodeDltLevel (b : UInt8) : Option Level :=
  if b = 1 ∨ b = 2 then some .error else if b = 3 then some .warn else if b = 4 then some .info
  else if b = 5 then some .debug else if b = 6 then some .trace else none

@[ext]
structure CtxId where
  bytes : List UInt8
  length : bytes.length = 4
  ascii : bytes.all (· < 128) = true
deriving DecidableEq

def CtxId.new (bytes : List UInt8) : Option CtxId :=
  if h : bytes.length = 4 ∧ bytes.all (· < 128) = true then some ⟨bytes, h.1, h.2⟩ else none

inductive ControlMessage where
  | setLogLevel (ctx : CtxId) (level : Level)
  | setDefaultLogLevel (level : Level)
  | unsupported (serviceId : Nat)

/-- The conversion of the id to a string fails only on bytes that `CtxId.new` refuses as well. -/
def parseControl (buf : List UInt8) : Option ControlMessage :=
  if buf.length < 4 then none
  else
    let svc := join4 (buf.getD 0 0) (buf.getD 1 0) (buf.getD 2 0) (buf.getD 3 0)
    if svc = 0x01 then
      if buf.length < 4 + 4 + 4 + 1 then none
      else do
        let ctx ← CtxId.new ((buf.drop 8).take 4)
        let level ← decodeDltLevel (buf.getD 12 0)
        return .setLogLevel ctx level
    else if svc = 0x11 then
      if buf.length < 4 + 1 then none else (decodeDltLevel (buf.getD 4 0)).map .setDefaultLogLevel
    else some (.unsupported svc)

structure LevelTable where
  fallback : UInt8
  byCtx : CtxId → Option UInt8

namespace LevelTable

def new (fallback : Level) : LevelTable := { fallback := fallback.toU8, byCtx := fun _ => none }

variable (table : LevelTable)

def current (ctx : CtxId) : Level := .ofU8 ((table.byCtx ctx).getD table.fallback)

def apply : ControlMessage → LevelTable
  | .setLogLevel ctx level => { table with byCtx := Function.update table.byCtx ctx (some level.toU8) }
  | .setDefaultLogLevel level => { table with fallback := level.toU8 }
  | .unsupported _ => table

def ingest (buffers : List (List UInt8)) : LevelTable :=
  (buffers.filterMap parseControl).foldl apply table

end LevelTable

open LevelTable

structure Record where
  target : String
  level : Level

/-- The last four ASCII characters of the target, filled up with spaces from the left. -/
def fourOf (target : String) : List UInt8 :=
  let trimmed := (target.toList.filter (·.toNat < 128)).map fun c => UInt8.ofNat c.toNat
  if 4 ≤ trimmed.length then trimmed.drop (trimmed.length - 4) else List.replicate (4 - trimmed.length) 32 ++ trimmed

def main : CtxId := ⟨[77, 65, 73, 78], rfl, by decide⟩

def deriveCtxFromTarget (target : String) : CtxId := (CtxId.new (fourOf target)).getD main

def wireId (bytes : List UInt8) : List UInt8 := (bytes ++ List.replicate 4 0).take 4

structure Backend where
  appId : CtxId
  defaultCtx : CtxId
  table : LevelTable

structure ExtendedHeader where
  level : Level
  appId : List UInt8
  contextId : List UInt8

namespace Backend

variable (backend : Backend) (record : Record)

def enabled : Bool := record.level.rank ≤ (backend.table.current (deriveCtxFromTarget record.target)).rank

def encode : ExtendedHeader := ⟨record.level, wireId backend.appId.bytes, wireId backend.defaultCtx.bytes⟩

def emit : Option ExtendedHeader := if ¬ backend.enabled record then none else some (backend.encode record)

end Backend

def ControlMessage.levelFor (id : List UInt8) : ControlMessage → Option Level
  | setLogLevel ctx level => if ctx.bytes = id then some level else none
  | _ => none

def ControlMessage.defaultLevel : ControlMessage → Option Level
  | setDefaultLogLevel level => some level
  | _ => none

/-- The level that the messages leave for an id: the one last set for it, or else the last default. -/
def effective (initial : Level) (messages : List ControlMessage) (id : List UInt8) : Level :=
  (messages.filterMap (·.levelFor id)).getLast?.getD ((messages.filterMap (·.defaultLevel)).getLast?.getD initial)

theorem current_ingest (initial : Level) (buffers : List (List UInt8)) (ctx : CtxId) :
    ((new initial).ingest buffers).current ctx = effective initial (buffers.filterMap parseControl) ctx.bytes := by
  unfold ingest
  generalize buffers.filterMap parseControl = messages
  have slots : (messages.foldl apply (.new initial)).byCtx ctx =
        (messages.filterMap (·.levelFor ctx.bytes)).getLast?.map Level.toU8 ∧
      (messages.foldl apply (.new initial)).fallback =
        ((messages.filterMap (·.defaultLevel)).getLast?.getD initial).toU8 := by
    induction messages using reverseRecOn with
    | nil => exact ⟨rfl, rfl⟩
    | append_singleton messages message ih =>
      cases message with
      | setLogLevel other level =>
        by_cases same : other = ctx
        · simp [apply, ControlMessage.levelFor, ControlMessage.defaultLevel, same, ih.2]
        · have apart : other.bytes ≠ ctx.bytes := fun bytes => same (CtxId.ext bytes)
          simp [apply, ControlMessage.levelFor, ControlMessage.defaultLevel, apart, Ne.symm same, ih]
      | setDefaultLogLevel | unsupported =>
        simp [apply, ControlMessage.levelFor, ControlMessage.defaultLevel, ih]
  rw [current, slots.1, slots.2, effective]
  cases (messages.filterMap (·.levelFor ctx.bytes)).getLast? with
  | none | some => simp

theorem wireId_ctx (ctx : CtxId) : wireId ctx.bytes = ctx.bytes := by
  rw [wireId, take_append_of_le_length ctx.length.ge, take_of_length_le ctx.length.le]

def setLevel (ctx : CtxId) (level : UInt8) : List UInt8 := [1, 0, 0, 0, 0, 0, 0, 0] ++ ctx.bytes ++ [level]

def setDefault (level : UInt8) : List UInt8 := [0x11, 0, 0, 0, level]

theorem parse_setLevel (ctx : CtxId) : parseControl (setLevel ctx 6) = some (.setLogLevel ctx .trace) := by
  have id : CtxId.new ctx.bytes = some ctx := dif_pos ⟨ctx.length, ctx.ascii⟩
  simp [parseControl, setLevel, join4, join3, ctx.length, id, decodeDltLevel]

/-- The level of a record is held against the context it carries exactly if its target derives to the default one. -/
theorem control_acts_iff (appId defaultCtx : CtxId) (initial : Level) (target : String) :
    (∀ buffers level,
      ((Backend.mk appId defaultCtx ((LevelTable.new initial).ingest buffers)).emit ⟨target, level⟩).isSome ↔
      level.rank ≤ (effective initial (buffers.filterMap parseControl)
      ((Backend.mk appId defaultCtx ((LevelTable.new initial).ingest buffers)).encode
      ⟨target, level⟩).contextId).rank) ↔ deriveCtxFromTarget target = defaultCtx := by
  have decided (buffers : List (List UInt8)) (level : Level) :
      ((Backend.mk appId defaultCtx ((new initial).ingest buffers)).emit ⟨target, level⟩).isSome ↔
        level.rank ≤ (effective initial (buffers.filterMap parseControl) (deriveCtxFromTarget target).bytes).rank := by
    rw [← current_ingest]
    simp [Backend.emit, Backend.enabled]
  simp only [decided, Backend.encode, wireId_ctx]
  constructor
  · intro agree
    by_contra apart
    have bytes : defaultCtx.bytes ≠ (deriveCtxFromTarget target).bytes := fun same => apart (CtxId.ext same.symm)
    have message : parseControl (setDefault 2) = some (.setDefaultLogLevel .error) := rfl
    have silenced := agree [setDefault 2, setLevel defaultCtx 6] .trace
    simp [effective, message, parse_setLevel, ControlMessage.levelFor, ControlMessage.defaultLevel, bytes,
      Level.rank] at silenced
  · rintro rfl _ _
    rfl

/-- The daemon silences the context `MAIN`, and a record that carries it is sent all the same. -/
theorem silenced_context_is_sent : effective .info ([setLevel main 2].filterMap parseControl) main.bytes = .error ∧
      ((Backend.mk main main ((LevelTable.new .info).ingest [setLevel main 2])).emit ⟨"app::net", .info⟩).map
        (·.contextId) = some main.bytes := by
  constructor
  · rfl
  · rfl

end Taktora.Dlt
