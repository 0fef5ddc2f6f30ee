import Taktora.Can.Driver
import Taktora.Ethercat.Runner
import Mathlib.Logic.Function.Basic

namespace Taktora.Ethercat

open Can BitField Fallible CycleRunner List Function

def maxInboundPayload : Nat := 4096

structure RegisteredChannel where
  descriptorName : String
  routing : EthercatRouting
  direction : PdoDirection
  binding : ChannelBinding

abbrev ChannelRegistry := List RegisteredChannel

structure DispatchReport where
  outboundEnvelopes : Nat
  inboundEnvelopes : Nat
  cycle : Option CycleReport
deriving DecidableEq

structure BusSurroundings where
  registry : ChannelRegistry
  outputs : ProcessData
  now : Nat
  cycle : Except ConnectorError UInt16
  recoveries : List (Except ConnectorError BringUp)
  reread : ChannelRegistry
  inputs : ProcessData

namespace EthercatDispatcher

def hex (address : UInt16) : String := String.ofList (List.leftpad 4 '0' (Nat.toDigits 16 address.toNat))

def missingSubdevice (address : UInt16) (direction : String) : Failure :=
  .connector (.stack ("ethercat dispatcher: no SubDevice at address 0x" ++ hex address ++ " for " ++ direction ++
    " PDI access"))

def outcome {α : Type} : Except Checked.Panic (Except ConnectorError α) → Except Failure α
  | .error p => .error (.panicked p)
  | .ok (.error e) => .error (.connector e)
  | .ok (.ok a) => .ok a

def writeOutputs (routing : EthercatRouting) (payload : List UInt8) : Cycling Unit := do
  let runner ← get
  match runner.outputs routing.subdeviceAddress with
  | none => throw (missingSubdevice routing.subdeviceAddress "outputs")
  | some pdi => do
    let pdi ← Fallible.ofExcept (outcome (writeRouting pdi routing payload))
    set { runner with
      outputs := update runner.outputs routing.subdeviceAddress (some pdi)
      written := runner.written ++ [(routing, payload)] }

def drainChannel (routing : EthercatRouting) : List (Except ConnectorError (List UInt8)) → Nat → Cycling Nat
  | [], envelopes => pure envelopes
  | message :: rest, envelopes => do
    let payload ← Fallible.ofExcept ((drainInto maxInboundPayload message).mapError Failure.connector)
    writeOutputs routing payload
    drainChannel routing rest (envelopes + 1)

def dispatchOutbound : ChannelRegistry → Nat → Cycling Nat
  | [], envelopes => pure envelopes
  | channel :: rest, envelopes =>
    match channel.direction, channel.binding with
    | .rx, .outbound pending => do
      let envelopes ← drainChannel channel.routing pending envelopes
      dispatchOutbound rest envelopes
    | _, _ => dispatchOutbound rest envelopes

def readInputs (inputs : ProcessData) (routing : EthercatRouting) : Except Failure (List UInt8) :=
  let payloadLen := (routing.bitLength.toNat + 7) / 8
  if payloadLen > maxInboundPayload then .error (.connector (.payloadOverflow payloadLen maxInboundPayload))
  else
    match inputs routing.subdeviceAddress with
    | none => .error (missingSubdevice routing.subdeviceAddress "inputs")
    | some pdi => outcome (readRouting pdi routing (List.replicate payloadLen 0))

def dispatchInbound (inputs : ProcessData) : ChannelRegistry → Nat → Cycling Nat
  | [], envelopes => pure envelopes
  | channel :: rest, envelopes =>
    match channel.direction, channel.binding with
    | .tx, .inbound publish =>
      if channel.routing.bitLength.toNat = 0 then dispatchInbound inputs rest envelopes
      else do
        let bytes ← Fallible.ofExcept (readInputs inputs channel.routing)
        Fallible.ofExcept ((publish bytes).mapError Failure.connector)
        modify fun r => { r with published := r.published ++ [(channel.descriptorName, bytes)] }
        dispatchInbound inputs rest (envelopes + 1)
    | _, _ => dispatchInbound inputs rest envelopes

def dispatchOneCycle (env : BusSurroundings) : Cycling DispatchReport := do
  modify fun r => { r with outputs := env.outputs }
  let outboundEnvelopes ← dispatchOutbound env.registry 0
  let cycle ← tick env.now env.cycle env.recoveries
  let inboundEnvelopes ← if cycle.isSome then dispatchInbound env.inputs env.reread 0 else pure 0
  pure { outboundEnvelopes, inboundEnvelopes, cycle }

def dispatcherLoop : List BusSurroundings → Cycling Unit
  | [] => pure ()
  | env :: rest => do
    let _ ← dispatchOneCycle env
    dispatcherLoop rest

end EthercatDispatcher

open EthercatDispatcher

def EthercatRouting.Carries (routing : EthercatRouting) (outputs : ProcessData)
    (pending : Except ConnectorError (List UInt8)) : Prop :=
  ∃ message, pending = .ok message ∧ message.length ≤ maxInboundPayload ∧ routing.bitLength.toNat ≤ message.length * 8 ∧
    ∃ size, (outputs routing.subdeviceAddress).map List.length = some size ∧ routing.Within size

variable (channel : RegisteredChannel)

def RegisteredChannel.Carried (outputs : ProcessData) : Prop :=
  channel.direction = .rx → ∀ pending, channel.binding = .outbound pending →
    ∀ message ∈ pending, channel.routing.Carries outputs message

def pendingWrites (routing : EthercatRouting) (pending : Except ConnectorError (List UInt8)) :
    List (EthercatRouting × List UInt8) :=
  pending.toOption.elim [] fun message => [(routing, message)]

def channelWrites : List (EthercatRouting × List UInt8) :=
  match channel.direction, channel.binding with
  | .rx, .outbound pending => pending.flatMap (pendingWrites channel.routing)
  | _, _ => []

def ProcessData.image (outputs : ProcessData) (address : UInt16) : Nat → Bool := bitAt ((outputs address).getD [])

def overlaid (writes : List (EthercatRouting × List UInt8)) (address : UInt16) (image : Nat → Bool) : Nat → Bool :=
  writes.foldl (fun image w => if w.1.subdeviceAddress = address then w.1.overlay w.2 image else image) image

structure Handed (r : CycleRunner) (writes : List (EthercatRouting × List UInt8)) (r' : CycleRunner) : Prop where
  rest : r' = { r with outputs := r'.outputs, written := r.written ++ writes }
  sizes : ∀ address, (r'.outputs address).map List.length = (r.outputs address).map List.length
  image : ∀ address, r'.outputs.image address = overlaid writes address (r.outputs.image address)

section Outbound

variable {r r' r'' : CycleRunner} {writes more : List (EthercatRouting × List UInt8)} {routing : EthercatRouting}
  {pending : List (Except ConnectorError (List UInt8))} {W : Prop}

theorem Handed.refl (r : CycleRunner) : Handed r [] r where
  rest := by rw [append_nil]
  sizes _ := rfl
  image _ := rfl

theorem Handed.trans (first : Handed r writes r') (second : Handed r' more r'') : Handed r (writes ++ more) r'' where
  rest := by
    rw [second.rest, first.rest]
    simp only [append_assoc]
  sizes address := (second.sizes address).trans (first.sizes address)
  image address := by rw [second.image, first.image, overlaid, overlaid, overlaid, foldl_append]

theorem carries_congr {data data' : ProcessData} {message : Except ConnectorError (List UInt8)}
    (sizes : ∀ address, (data' address).map List.length = (data address).map List.length) :
    routing.Carries data' message ↔ routing.Carries data message := by
  unfold EthercatRouting.Carries
  rw [sizes]

theorem outcome_eq_ok {α : Type} {result : Except Checked.Panic (Except ConnectorError α)} {a : α} :
    outcome result = .ok a ↔ result = .ok (.ok a) := by
  rcases result with p | e | b <;> simp [outcome]

theorem handed_update {pdi pdi' message : List UInt8}
    (found : r.outputs routing.subdeviceAddress = some pdi)
    (length : pdi'.length = pdi.length)
    (image : bitAt pdi' = routing.overlay message (bitAt pdi)) :
    Handed r [(routing, message)]
      { r with
        outputs := update r.outputs routing.subdeviceAddress (some pdi')
        written := r.written ++ [(routing, message)] } where
  rest := rfl
  sizes address := by
    dsimp only
    by_cases here : address = routing.subdeviceAddress
    · subst here
      rw [update_self, found]
      exact congrArg some length
    · rw [update_of_ne here]
  image address := by
    rw [overlaid, foldl_cons, foldl_nil, ProcessData.image, ProcessData.image]
    dsimp only
    by_cases here : address = routing.subdeviceAddress
    · subst here
      rw [if_pos rfl, update_self, found]
      exact image
    · rw [if_neg (Ne.symm here), update_of_ne here]

theorem writeOutputs_spec {message : List UInt8}
    (short : message.length ≤ maxInboundPayload)
    (carries : W → routing.Carries r.outputs (.ok message)) :
    Ensures (· = r) (writeOutputs routing message) (fun _ r' => routing.Carries r.outputs (.ok message) ∧
      Handed r [(routing, message)] r') fun _ => ¬ W := by
  refine ensures_get_bind ?_
  rintro r rfl
  cases found : r.outputs routing.subdeviceAddress with
  | none =>
    refine ensures_throw fun _ _ works => ?_
    obtain ⟨_, _, _, _, _, held, _⟩ := carries works
    rw [found] at held
    cases held
  | some pdi =>
    dsimp only
    cases result : outcome (writeRouting pdi routing message) with
    | error e =>
      refine ensures_throw fun _ _ works => ?_
      obtain ⟨_, ⟨⟩, _, covered, _, held, within⟩ := carries works
      rw [found] at held
      cases held
      obtain ⟨_, written, _⟩ := writeRouting_ok covered within
      cases result.symm.trans (outcome_eq_ok.mpr written)
    | ok pdi' =>
      rintro r rfl
      have written := outcome_eq_ok.mp result
      obtain ⟨covered, held⟩ := writeRouting_covered written
      obtain ⟨_, same, length, image⟩ := writeRouting_ok covered held
      cases written.symm.trans same
      refine ⟨⟨message, rfl, short, covered, pdi.length, ?_, held⟩, handed_update found length image⟩
      rw [found]
      rfl

theorem drainChannel_spec {n : Nat} (carries : W → ∀ message ∈ pending, routing.Carries r.outputs message) :
    Ensures (· = r) (drainChannel routing pending n)
      (fun count r' => (∀ message ∈ pending, routing.Carries r.outputs message) ∧ count = n + pending.length ∧
        Handed r (pending.flatMap (pendingWrites routing)) r')
      fun _ => ¬ W := by
  induction pending generalizing r n with
  | nil => exact ensures_pure fun _ same => ⟨forall_mem_nil _, rfl, same ▸ Handed.refl r⟩
  | cons message rest ih =>
    unfold drainChannel
    cases drained : drainInto maxInboundPayload message with
    | error e =>
      refine ensures_throw fun _ _ works => ?_
      obtain ⟨_, rfl, short, _⟩ := carries works message mem_cons_self
      cases drained.symm.trans (drainInto_eq_ok.mpr ⟨rfl, short⟩)
    | ok payload =>
      obtain ⟨rfl, short⟩ := drainInto_eq_ok.mp drained
      show Ensures _ (writeOutputs routing payload >>= fun _ => drainChannel routing rest (n + 1)) _ _
      refine ensures_bind (writeOutputs_spec short fun works => carries works _ mem_cons_self) ?_
      rintro _ r' ⟨here, handed⟩
      have others (message : Except ConnectorError (List UInt8)) :
          routing.Carries r'.outputs message ↔ routing.Carries r.outputs message := carries_congr handed.sizes
      have rest : W → ∀ message ∈ rest, routing.Carries r'.outputs message :=
        fun works message member => (others message).mpr (carries works message (mem_cons_of_mem _ member))
      refine (ih rest).weaken ?_ (fun _ failed => failed) r' rfl
      rintro _ _ ⟨later, rfl, more⟩
      refine ⟨forall_mem_cons.mpr ⟨here, fun message member => (others message).mp (later message member)⟩, ?_,
        handed.trans more⟩
      rw [length_cons]
      omega

/-- The outbound pass writes every message in its order exactly if every one can be written. -/
theorem dispatchOutbound_spec {registry : ChannelRegistry} {n : Nat}
    (carried : W → ∀ c ∈ registry, c.Carried r.outputs) :
    Ensures (· = r) (dispatchOutbound registry n) (fun _ r' => (∀ c ∈ registry, c.Carried r.outputs) ∧
      Handed r (registry.flatMap channelWrites) r') fun _ => ¬ W := by
  induction registry generalizing r n with
  | nil => exact ensures_pure fun _ same => ⟨forall_mem_nil _, same ▸ Handed.refl r⟩
  | cons channel rest ih =>
    -- A channel that is not drained owes nothing.
    have skipped (idle : channel.direction = .rx → ∀ pending, channel.binding ≠ .outbound pending)
        (nothing : channelWrites channel = []) (same : dispatchOutbound (channel :: rest) n = dispatchOutbound rest n) :
        Ensures (· = r) (dispatchOutbound (channel :: rest) n)
          (fun _ r' => (∀ c ∈ channel :: rest, c.Carried r.outputs) ∧
            Handed r ((channel :: rest).flatMap channelWrites) r') fun _ => ¬ W := by
      rw [same, flatMap_cons, nothing]
      refine (ih fun works c member => carried works c (mem_cons_of_mem _ member)).weaken ?_ fun _ failed => failed
      rintro _ _ ⟨others, handed⟩
      exact ⟨forall_mem_cons.mpr ⟨fun rx pending bound => absurd bound (idle rx pending), others⟩, handed⟩
    obtain ⟨_, routing, direction, binding⟩ := channel
    cases direction with
    | tx => exact skipped (fun impossible => by cases impossible) rfl rfl
    | rx =>
      cases binding with
      | unbound | inbound => exact skipped (fun _ _ impossible => by cases impossible) rfl rfl
      | outbound pending =>
        have own : W → ∀ message ∈ pending, routing.Carries r.outputs message :=
          fun works => carried works _ mem_cons_self rfl pending rfl
        refine ensures_bind (drainChannel_spec own) ?_
        rintro _ r' ⟨here, _, handed⟩
        have others (c : RegisteredChannel) : c.Carried r'.outputs ↔ c.Carried r.outputs := by
          unfold RegisteredChannel.Carried
          simp only [carries_congr handed.sizes]
        refine (ih fun works c member => (others c).mpr (carried works c (mem_cons_of_mem _ member))).weaken ?_
          (fun _ failed => failed) r' rfl
        rintro _ _ ⟨later, more⟩
        refine ⟨forall_mem_cons.mpr ⟨fun _ _ same => ?_, fun c member => (others c).mp (later c member)⟩,
          handed.trans more⟩
        cases same
        exact here

end Outbound

def RegisteredChannel.Served (inputs : ProcessData) : Prop :=
  channel.direction = .tx → ∀ publish, channel.binding = .inbound publish → channel.routing.bitLength.toNat = 0 ∨
    ((channel.routing.bitLength.toNat + 7) / 8 ≤ maxInboundPayload ∧
      (∃ pdi, inputs channel.routing.subdeviceAddress = some pdi ∧ channel.routing.Within pdi.length) ∧
      ∀ bytes, bytes.length = (channel.routing.bitLength.toNat + 7) / 8 → publish bytes = .ok ())

structure BusSurroundings.Works (env : BusSurroundings) : Prop where
  carries : ∀ c ∈ env.registry, c.Carried env.outputs
  serves : ∀ c ∈ env.reread, c.Served env.inputs

section Inbound

variable {inputs : ProcessData} {W : Prop}

theorem readInputs_ok {routing : EthercatRouting} {pdi : List UInt8}
    (short : (routing.bitLength.toNat + 7) / 8 ≤ maxInboundPayload)
    (found : inputs routing.subdeviceAddress = some pdi)
    (held : routing.Within pdi.length) :
    ∃ bytes, readInputs inputs routing = .ok bytes ∧ bytes.length = (routing.bitLength.toNat + 7) / 8 := by
  have room : routing.bitLength.toNat ≤ (replicate ((routing.bitLength.toNat + 7) / 8) (0 : UInt8)).length * 8 := by
    rw [length_replicate]
    omega
  obtain ⟨bytes, read, length, _⟩ := readRouting_ok room held
  refine ⟨bytes, ?_, length.trans length_replicate⟩
  rw [readInputs, if_neg (not_lt.mpr short), found]
  exact outcome_eq_ok.mpr read

theorem dispatchInbound_spec {registry : ChannelRegistry} {n : Nat} (served : W → ∀ c ∈ registry, c.Served inputs) :
    Ensures (fun _ => True) (dispatchInbound inputs registry n) (fun _ _ => True) fun _ => ¬ W := by
  induction registry generalizing n with
  | nil => exact ensures_pure fun _ _ => trivial
  | cons channel rest ih =>
    have others {n : Nat} := ih (n := n) fun works c member => served works c (mem_cons_of_mem _ member)
    obtain ⟨_, routing, direction, binding⟩ := channel
    cases direction with
    | rx => exact others
    | tx =>
      cases binding with
      | unbound | outbound => exact others
      | inbound publish =>
        unfold dispatchInbound
        dsimp only
        split
        · exact others
        · rename_i some
          have here := fun works => (served works _ mem_cons_self rfl publish rfl).resolve_left some
          have reads (works : W) : ∃ bytes, readInputs inputs routing = .ok bytes ∧ publish bytes = .ok () := by
            obtain ⟨short, ⟨_, found, held⟩, accepts⟩ := here works
            obtain ⟨bytes, read, length⟩ := readInputs_ok short found held
            exact ⟨bytes, read, accepts bytes length⟩
          refine ensures_bind (ensures_ofExcept (fun _ read _ _ => read) ?_) fun bytes => ?_
          · intro e failed _ _ works
            obtain ⟨_, read, _⟩ := reads works
            cases failed.symm.trans read
          refine ensures_bind (ensures_ofExcept (fun _ _ _ _ => trivial) ?_) fun _ => ?_
          · intro e failed _ read works
            obtain ⟨_, same, published⟩ := reads works
            cases read.symm.trans same
            rw [published] at failed
            cases failed
          exact ensures_bind (ensures_modify fun _ _ => trivial) fun _ => others

end Inbound

theorem dispatchOneCycle_spec {env : BusSurroundings} {W : Prop} (works : W → env.Works) :
    Ensures (fun _ => True) (dispatchOneCycle env) (fun _ _ => True) fun r => W → r.health.current.kind = .down := by
  have broken {r : CycleRunner} (failed : ¬ W) : W → r.health.current.kind = .down := fun holds => absurd holds failed
  refine ensures_bind (ensures_modify (R := fun r => r.outputs = env.outputs) fun _ _ => rfl) fun _ => ?_
  refine ensures_bind (Q := fun _ _ => True) ?_ fun _ => ?_
  · intro r outputs
    refine (dispatchOutbound_spec fun holds => ?_).weaken (fun _ _ _ => trivial) (fun _ failed => broken failed) r rfl
    rw [outputs]
    exact (works holds).carries
  refine ensures_bind ((tick_spec _ _ _).failing fun _ down _ => down) fun cycle => ?_
  split
  · refine ensures_bind ((dispatchInbound_spec fun holds => (works holds).serves).failing
      fun _ failed => broken failed) fun _ => ?_
    exact ensures_pure fun _ _ => trivial
  · exact fun _ _ => trivial

end Taktora.Ethercat
