import Mathlib.Data.Vector.Basic
import Taktora.J1939.Identifier

namespace Taktora.J1939

open LittleEndian

def addressClaimedPgn : Nat := 60928
def requestPgn : Nat := 59904
def commandedAddressPgn : Nat := 65240
def nullAddress : UInt8 := 0xFE
def addressClaimPriority : UInt8 := 6
def requestForAddressClaimed : List UInt8 := [0x00, 0xEE, 0x00]

inductive ClaimState where
  | claiming
  | claimed
  | cannotClaim
deriving DecidableEq

inductive AcEvent where
  | claiming (sourceAddr : UInt8)
  | claimed (sourceAddr : UInt8)
  | cannotClaim
deriving DecidableEq

structure AcOutFrame where
  wirePgn : Pgn
  priority : UInt8
  sourceAddr : UInt8
  destAddr : Option UInt8
  data : List.Vector UInt8 8
deriving DecidableEq

def toLeBytes (name : UInt64) : List.Vector UInt8 8 := List.Vector.ofFn fun i => byteAt name.toNat i.1

def fromLeBytes (data : List UInt8) : UInt64 :=
  UInt64.ofNat ((data.take 8).foldr (fun byte high => byte.toNat + 256 * high) 0)

structure AddrClaimEngine where
  name : UInt64
  currentSa : UInt8
  state : ClaimState
  claimWait : Nat
  startedAt : Option Nat
  priority : UInt8
  out : List AcOutFrame
deriving DecidableEq

namespace AddrClaimEngine

def new (configuredSa : UInt8) (name : UInt64) (claimWait : Nat) : AddrClaimEngine :=
  { name, currentSa := configuredSa, state := .claiming, claimWait, startedAt := none
    priority := addressClaimPriority, out := [] }

variable (a : AddrClaimEngine)

def addressClaimedFrame (sa : UInt8) : AcOutFrame :=
  { wirePgn := (Pgn.new addressClaimedPgn).toOption.getD Pgn.zero, priority := a.priority, sourceAddr := sa
    destAddr := some globalAddress, data := toLeBytes a.name }

def emitAddressClaimed (sa : UInt8) : AddrClaimEngine :=
  { a with out := a.out ++ [a.addressClaimedFrame sa] }

def emitCannotClaim : AddrClaimEngine :=
  { a with out := a.out ++ [a.addressClaimedFrame nullAddress] }

def takeOutbound : List AcOutFrame × AddrClaimEngine := (a.out, { a with out := [] })

def poll (now : Nat) : List AcEvent × AddrClaimEngine :=
  if a.state ≠ .claiming then ([], a)
  else match a.startedAt with
    | none => ([.claiming a.currentSa], { a with startedAt := some now }.emitAddressClaimed a.currentSa)
    | some start =>
      if now - start ≥ a.claimWait then ([.claimed a.currentSa], { a with state := .claimed }) else ([], a)

def onAddressClaimed (competitorSa : UInt8) (data : List UInt8) : List AcEvent × AddrClaimEngine :=
  if a.state = .cannotClaim ∨ competitorSa ≠ a.currentSa ∨ data.length < 8 then ([], a)
  else
    let competitorName := fromLeBytes data
    if competitorName = a.name then ([], a)
    else if competitorName < a.name then
      ([.cannotClaim],
        { a with state := .cannotClaim, currentSa := nullAddress, startedAt := none }.emitCannotClaim)
    else ([], a.emitAddressClaimed a.currentSa)

def onRequest (data : List UInt8) : AddrClaimEngine :=
  if data.length < 3 ∨ data.take 3 ≠ requestForAddressClaimed then a
  else match a.state with
    | .cannotClaim => a.emitCannotClaim
    | .claiming | .claimed => a.emitAddressClaimed a.currentSa

def onCommandedAddress (data : List UInt8) (now : Nat) : List AcEvent × AddrClaimEngine :=
  match data[8]? with
  | none => ([], a)
  | some newSa =>
    if fromLeBytes data ≠ a.name then ([], a)
    else
      ([.claiming newSa],
        { a with currentSa := newSa, state := .claiming, startedAt := some now }.emitAddressClaimed newSa)

variable (decoded : DecodedId)

def onFrame (data : List UInt8) (now : Nat) : List AcEvent × AddrClaimEngine :=
  if decoded.pgn.value = addressClaimedPgn then a.onAddressClaimed decoded.sourceAddr data
  else if decoded.pgn.value = requestPgn then ([], a.onRequest data)
  else if decoded.pgn.value = commandedAddressPgn then a.onCommandedAddress data now
  else ([], a)

inductive Input where
  | poll (now : Nat)
  | frame (decoded : DecodedId) (data : List UInt8) (now : Nat)

def handle : Input → List AcEvent × AddrClaimEngine
  | .poll now => a.poll now
  | .frame decoded data now => a.onFrame decoded data now

/-- The frame commands the engine to claim `newSa`. -/
def Commands (data : List UInt8) (newSa : UInt8) : Prop :=
  decoded.pgn.value = commandedAddressPgn ∧ data[8]? = some newSa ∧ fromLeBytes data = a.name

inductive Effect (a : AddrClaimEngine) : Input → List AcEvent → AddrClaimEngine → Prop where
  | ignored {i} : Effect a i [] a
  | started {now} (claiming : a.state = .claiming) :
      Effect a (.poll now) [.claiming a.currentSa] ({ a with startedAt := some now }.emitAddressClaimed a.currentSa)
  | settled {now} (claiming : a.state = .claiming) :
      Effect a (.poll now) [.claimed a.currentSa] { a with state := .claimed }
  | ceded {decoded data now} (holding : a.state ≠ .cannotClaim) (lower : fromLeBytes data < a.name) :
      Effect a (.frame decoded data now) [.cannotClaim]
        { a with state := .cannotClaim, currentSa := nullAddress, startedAt := none }.emitCannotClaim
  | asserted {i} (holding : a.state ≠ .cannotClaim) : Effect a i [] (a.emitAddressClaimed a.currentSa)
  | declined {i} (lost : a.state = .cannotClaim) : Effect a i [] a.emitCannotClaim
  | commanded {decoded data now newSa} (command : a.Commands decoded data newSa) :
      Effect a (.frame decoded data now) [.claiming newSa]
        ({ a with currentSa := newSa, state := .claiming, startedAt := some now }.emitAddressClaimed newSa)

theorem poll_effect (now : Nat) : a.Effect (.poll now) (a.poll now).1 (a.poll now).2 := by
  unfold poll
  split
  · exact .ignored
  · rename_i claiming
    split
    · exact .started (not_not.mp claiming)
    · split
      · exact .settled (not_not.mp claiming)
      · exact .ignored

theorem onFrame_effect (data : List UInt8) (now : Nat) :
    a.Effect (.frame decoded data now) (a.onFrame decoded data now).1 (a.onFrame decoded data now).2 := by
  unfold onFrame
  split
  · unfold onAddressClaimed
    split
    · exact .ignored
    · rename_i contends
      have holding : a.state ≠ .cannotClaim := fun lost => contends (.inl lost)
      dsimp only
      split
      · exact .ignored
      · split
        · rename_i lower
          exact .ceded holding lower
        · exact .asserted holding
  · split
    · unfold onRequest
      split
      · exact .ignored
      · cases state : a.state with
        | cannotClaim => exact .declined state
        | claiming | claimed => exact .asserted (by rw [state]; decide)
    · split
      · rename_i commanded
        unfold onCommandedAddress
        split
        · exact .ignored
        · rename_i newSa last
          split
          · exact .ignored
          · rename_i ours
            exact .commanded ⟨commanded, last, not_not.mp ours⟩
      · exact .ignored

theorem handle_effect (i : Input) : a.Effect i (a.handle i).1 (a.handle i).2 := by
  cases i with
  | poll now => exact a.poll_effect now
  | frame decoded data now => exact a.onFrame_effect decoded data now

end AddrClaimEngine

def AcOutFrame.Claims (f : AcOutFrame) : Prop :=
  f.wirePgn = ⟨addressClaimedPgn, by decide⟩ ∧ f.destAddr = some globalAddress

namespace AddrClaimEngine

def Announces (a : AddrClaimEngine) : Prop := ∀ f ∈ a.out, f.Claims

variable {a : AddrClaimEngine}

theorem Announces.emit
    (announces : a.Announces)
    {frame : AcOutFrame}
    (claims : frame.Claims) : ∀ f ∈ a.out ++ [frame], f.Claims := by
  intro f member
  rcases List.mem_append.mp member with member | member
  · exact announces f member
  · rwa [List.mem_singleton.mp member]

theorem addressClaimedFrame_claims (a : AddrClaimEngine) (sa : UInt8) : (a.addressClaimedFrame sa).Claims := by
  refine ⟨?_, rfl⟩
  simp only [addressClaimedFrame]
  rfl

theorem Effect.announces {i : Input} {events : List AcEvent} {a' : AddrClaimEngine} (effect : a.Effect i events a')
    (announces : a.Announces) : a'.Announces := by
  cases effect with
  | ignored | settled => exact announces
  | started | ceded | asserted | declined | commanded => exact announces.emit (addressClaimedFrame_claims _ _)

end AddrClaimEngine

end Taktora.J1939
