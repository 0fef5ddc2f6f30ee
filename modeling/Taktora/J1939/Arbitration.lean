import Taktora.Lib.Broadcast
import Taktora.J1939.AddrClaim

namespace Taktora.J1939

open LittleEndian AddrClaimEngine List

theorem fromLeBytes_toLeBytes (name : UInt64) : fromLeBytes (toLeBytes name).1 = name := by
  have bytes : (toLeBytes name).1.take 8 = (range 8).map (byteAt name.toNat) := rfl
  have bound : name.toNat < 256 ^ 8 := name.toNat_lt
  rw [fromLeBytes, bytes, foldr_byteAt, Nat.mod_eq_of_lt bound]
  exact UInt64.ofNat_toNat

def AcOutFrame.decoded (f : AcOutFrame) : DecodedId :=
  decodeExtendedId (encodeExtendedId f.wirePgn f.priority f.sourceAddr f.destAddr)

theorem AcOutFrame.Claims.decoded {f : AcOutFrame} (claims : f.Claims) :
    f.decoded.pgn.value = addressClaimedPgn ∧ f.decoded.sourceAddr = f.sourceAddr := by
  rw [AcOutFrame.decoded, claims.1, claims.2, decode_encode_pdu1 _ _ _ _ (by decide) (by decide)]
  exact ⟨rfl, rfl⟩

def AcOutFrame.Signed (name : UInt64) (f : AcOutFrame) : Prop := f.Claims ∧ f.data = toLeBytes name

namespace AddrClaimEngine

variable {a a' : AddrClaimEngine} {i : Input} {events : List AcEvent}

theorem Effect.name (effect : a.Effect i events a') : a'.name = a.name := by
  cases effect <;> rfl

theorem Effect.out (effect : a.Effect i events a') : ∃ sent, a'.out = a.out ++ sent ∧ (∀ f ∈ sent, f.Signed a.name) ∧
    (a'.state ≠ .cannotClaim → (a.state ≠ .cannotClaim ∧ a'.currentSa = a.currentSa ∧ sent = []) ∨
      ∃ f ∈ sent, f.sourceAddr = a'.currentSa) := by
  have signed (b : AddrClaimEngine) (same : b.name = a.name) (sa : UInt8) :
      ∀ f ∈ [b.addressClaimedFrame sa], f.Signed a.name := by
    intro f member
    rw [mem_singleton.mp member, ← same]
    exact ⟨addressClaimedFrame_claims b sa, rfl⟩
  cases effect with
  | ignored => exact ⟨[], (append_nil _).symm, forall_mem_nil _, fun holding => .inl ⟨holding, rfl, rfl⟩⟩
  | settled claiming =>
    refine ⟨[], (append_nil _).symm, forall_mem_nil _, fun _ => .inl ⟨?_, rfl, rfl⟩⟩
    rw [claiming]
    decide
  | started claiming =>
    exact ⟨_, rfl, signed _ rfl _, fun _ => .inr ⟨_, mem_singleton_self _, rfl⟩⟩
  | ceded holding lower => exact ⟨_, rfl, signed _ rfl _, fun holding => absurd rfl holding⟩
  | asserted | commanded => exact ⟨_, rfl, signed _ rfl _, fun _ => .inr ⟨_, mem_singleton_self _, rfl⟩⟩
  | declined lost => exact ⟨_, rfl, signed _ rfl _, fun holding => absurd lost holding⟩

theorem onFrame_rival {f : AcOutFrame} {name : UInt64}
    (signed : f.Signed name)
    (rival : name ≠ a.name)
    (now : Nat)
    (holding : (a.onFrame f.decoded f.data.1 now).2.state ≠ .cannotClaim)
    (same : (a.onFrame f.decoded f.data.1 now).2.currentSa = f.sourceAddr) :
    ∃ reply ∈ (a.onFrame f.decoded f.data.1 now).2.out, reply.sourceAddr = f.sourceAddr := by
  obtain ⟨claims, data⟩ := signed
  obtain ⟨pgn, source⟩ := claims.decoded
  have carried : fromLeBytes f.data.1 = name := by rw [data, fromLeBytes_toLeBytes]
  have full : ¬ f.data.1.length < 8 := by rw [f.data.2]; decide
  revert holding same
  rw [onFrame, if_pos pgn, source, onAddressClaimed]
  split
  · rename_i apart
    intro holding same
    rcases apart with lost | other | short
    · exact absurd lost holding
    · exact absurd same.symm other
    · exact absurd short full
  · rw [carried, if_neg rival]
    split
    · intro holding same
      exact absurd rfl holding
    · intro holding same
      exact ⟨_, mem_append_right _ (mem_singleton_self _), same⟩

def Harmless (a : AddrClaimEngine) (i : Input) : Prop :=
  ∀ decoded data now, i = .frame decoded data now → decoded.pgn.value = addressClaimedPgn ∧ ¬ fromLeBytes data < a.name

def Seeks (a : AddrClaimEngine) (sa : UInt8) : Prop := a.state ≠ .cannotClaim ∧ a.currentSa = sa

theorem Effect.seeks {sa : UInt8}
    (effect : a.Effect i events a')
    (harmless : a.Harmless i)
    (seeks : a.Seeks sa) : a'.Seeks sa := by
  cases effect with
  | ignored | started | asserted => exact seeks
  | settled => exact ⟨ClaimState.noConfusion, seeks.2⟩
  | ceded _ lower => exact absurd lower (harmless _ _ _ rfl).2
  | declined lost => exact absurd lost seeks.1
  | commanded command => exact absurd ((harmless _ _ _ rfl).1.symm.trans command.1) (by decide)

end AddrClaimEngine

structure Claimant where
  engine : AddrClaimEngine
  emitted : List AcOutFrame

namespace Claimant

def new (configuredSa : UInt8) (name : UInt64) (claimWait : Nat) : Claimant :=
  ⟨AddrClaimEngine.new configuredSa name claimWait, []⟩

def becomes (c : Claimant) (engine : AddrClaimEngine) : Claimant :=
  ⟨engine, c.emitted ++ engine.out.drop c.engine.out.length⟩

/-- The engine has emitted a claim, and it holds or seeks the address. -/
def Owns (c : Claimant) (sa : UInt8) : Prop :=
  c.emitted ≠ [] ∧ (c.engine.state = .claiming ∨ c.engine.state = .claimed) ∧ c.engine.currentSa = sa

end Claimant

/-- The engines drain their frames onto the bus, which delivers each to every other engine. -/
def claimBus : Station Claimant AcOutFrame Input Nat where
  outbox c := c.engine.out
  flush c := { c with engine := c.engine.takeOutbound.2 }
  act i c := c.becomes (c.engine.handle i).2
  hear now f c := c.becomes (c.engine.onFrame f.decoded f.data.1 now).2

def addressContest : Contest Claimant AcOutFrame UInt64 UInt8 where
  ident c := c.engine.name
  Signed := AcOutFrame.Signed
  named f := f.sourceAddr
  Holds := Claimant.Owns

theorem Claimant.becomes_continues (c : Claimant) {i : Input} {events : List AcEvent} {a : AddrClaimEngine}
    (effect : c.engine.Effect i events a) : addressContest.Continues claimBus c (c.becomes a) := by
  obtain ⟨sent, queued, signed, claimed⟩ := effect.out
  have emitted : (c.becomes a).emitted = c.emitted ++ sent := by
    rw [becomes, queued, drop_left]
  refine ⟨effect.name, ?_, ?_, ?_⟩
  · intro f member
    show f ∈ a.out
    rw [queued]
    exact mem_append_left _ member
  · intro f member
    have member : f ∈ a.out := member
    rw [queued] at member
    exact (mem_append.mp member).imp_right (signed f)
  · intro sa owns
    obtain ⟨spoken, holding, same⟩ := owns
    have active : a.state ≠ .cannotClaim := by
      rcases holding with state | state <;> exact fun lost => by cases state.symm.trans lost
    rcases claimed active with ⟨before, kept, rfl⟩ | ⟨f, member, source⟩
    · refine .inl ⟨?_, ?_, kept.symm.trans same⟩
      · rwa [emitted, append_nil] at spoken
      · cases state : c.engine.state with
        | claiming => exact .inl rfl
        | claimed => exact .inr rfl
        | cannotClaim => exact absurd state before
    · refine .inr ⟨f, ?_, source.trans same⟩
      show f ∈ a.out
      rw [queued]
      exact mem_append_right _ member

theorem claimBus_arbitrates : addressContest.Arbitrates claimBus where
  flush_outbox _ := rfl
  flush_ident _ := rfl
  flush_holds _ _ owns := owns
  act i c := c.becomes_continues (c.engine.handle_effect i)
  hear now f c := c.becomes_continues (c.engine.onFrame_effect f.decoded f.data.1 now)
  rival now f c name signed other owns := by
    obtain ⟨_, holding, same⟩ := owns
    refine onFrame_rival signed other now ?_ same
    rcases holding with state | state <;> exact fun lost => by cases state.symm.trans lost

section Bus

variable {ι : Type} [DecidableEq ι] {configuredSa : ι → UInt8} {name : ι → UInt64} {claimWait : ι → Nat}
  {history : List (Medium.Action ι AcOutFrame Input Nat)} {w : Medium ι Claimant AcOutFrame}

/-- No two engines own the same address once all claims are delivered. -/
theorem addresses_claimed_exclusively
    (distinct : Function.Injective name)
    (run : Run (Medium.Step claimBus)
      ⟨fun i => .new (configuredSa i) (name i) (claimWait i), fun _ _ => []⟩ history w) :
    (w.Quiet claimBus → ∀ i j sa, i ≠ j → (w.node i).Owns sa → ¬ (w.node j).Owns sa) ∧
      ∀ i j sa, i ≠ j → (w.node i).Owns sa → (w.node j).Owns sa → ∃ f : AcOutFrame, f.sourceAddr = sa ∧
        (w.Pending claimBus i j f ∧ f.Signed (w.node i).engine.name ∨
          w.Pending claimBus j i f ∧ f.Signed (w.node j).engine.name) := by
  have start : addressContest.Contested claimBus ⟨fun i => .new (configuredSa i) (name i) (claimWait i),
      fun _ _ => []⟩ :=
    Contest.contested_start (fun _ => rfl) (fun _ _ same => distinct same) fun _ _ owns => owns.1 rfl
  have contested := Contest.run_contested claimBus_arbitrates start run
  constructor
  · intro quiet i j sa other owns
    exact contested.exclusive quiet other owns
  · intro i j sa other first second
    obtain ⟨f, named, pending⟩ := contested.contact i j sa other first second
    refine ⟨f, named, pending.imp ?_ ?_⟩
    · intro pending
      exact ⟨pending, contested.signed i j f pending⟩
    · intro pending
      exact ⟨pending, contested.signed j i f pending⟩

open Function

variable {i : ι} {sa : UInt8} {w' : Medium ι Claimant AcOutFrame} {action : Medium.Action ι AcOutFrame Input Nat}

def GuardedStep (i : ι) (w : Medium ι Claimant AcOutFrame) (action : Medium.Action ι AcOutFrame Input Nat)
    (w' : Medium ι Claimant AcOutFrame) : Prop :=
  Medium.Step claimBus w action w' ∧ ∀ input, action = .act i input → (w.node i).engine.Harmless input

structure Defends (name : ι → UInt64) (i : ι) (sa : UInt8) (w : Medium ι Claimant AcOutFrame) : Prop where
  contested : addressContest.Contested claimBus w
  nodes : ∀ k, (w.node k).engine.name = name k ∧ (k = i → (w.node k).engine.Seeks sa)

theorem Defends.step
    (defends : Defends name i sa w)
    (lowest : ∀ j, ¬ name j < name i)
    (step : GuardedStep i w action w') : Defends name i sa w' := by
  obtain ⟨step, harmless⟩ := step
  refine ⟨defends.contested.step claimBus_arbitrates step, ?_⟩
  have changed (j : ι) (c : Claimant) :=
    (forall_update_iff w.node (a := j) (b := c) fun k c => c.engine.name = name k ∧ (k = i → c.engine.Seeks sa)).mpr
  cases step with
  | act j input =>
    have effect := (w.node j).engine.handle_effect input
    refine changed j _ ⟨⟨effect.name.trans (defends.nodes j).1, ?_⟩, fun k _ => defends.nodes k⟩
    rintro rfl
    exact effect.seeks (harmless input rfl) ((defends.nodes j).2 rfl)
  | flush j => exact changed j _ ⟨defends.nodes j, fun k _ => defends.nodes k⟩
  | @deliver k j before f after now distinct sent =>
    have effect := (w.node j).engine.onFrame_effect f.decoded f.data.1 now
    have signed : f.Signed (name k) := (defends.nodes k).1 ▸ defends.contested.signed k j f (.inr (by simp [sent]))
    refine changed j _ ⟨⟨effect.name.trans (defends.nodes j).1, ?_⟩, fun k _ => defends.nodes k⟩
    rintro rfl
    refine effect.seeks ?_ ((defends.nodes j).2 rfl)
    rintro _ _ _ ⟨⟩
    refine ⟨signed.1.decoded.1, ?_⟩
    rw [signed.2, fromLeBytes_toLeBytes, (defends.nodes j).1]
    exact lowest k

/-- The lowest NAME never gives up its address, and owns it alone once all claims are delivered. -/
theorem lowest_name_keeps_address
    (distinct : Injective name)
    (lowest : ∀ j, ¬ name j < name i)
    (run : Run (GuardedStep i) ⟨fun i => .new (configuredSa i) (name i) (claimWait i), fun _ _ => []⟩ history w) :
    (w.node i).engine.Seeks (configuredSa i) ∧
      (w.Quiet claimBus → (w.node i).emitted ≠ [] → (w.node i).Owns (configuredSa i) ∧
      ∀ j ≠ i, ¬ (w.node j).Owns (configuredSa i)) := by
  have start : addressContest.Contested claimBus ⟨fun i => .new (configuredSa i) (name i) (claimWait i),
      fun _ _ => []⟩ :=
    Contest.contested_start (fun _ => rfl) (fun _ _ same => distinct same) fun _ _ owns => owns.1 rfl
  have defends : Defends name i (configuredSa i) w := by
    refine run.invariant ⟨start, fun k => ⟨rfl, ?_⟩⟩ fun _ _ _ defends step => defends.step lowest step
    rintro rfl
    exact ⟨ClaimState.noConfusion, rfl⟩
  have seeks := (defends.nodes i).2 rfl
  refine ⟨seeks, ?_⟩
  intro quiet spoken
  have owns : (w.node i).Owns (configuredSa i) := by
    refine ⟨spoken, ?_, seeks.2⟩
    cases state : (w.node i).engine.state <;> simp_all [Seeks]
  exact ⟨owns, fun j other => defends.contested.exclusive quiet other.symm owns⟩

end Bus

theorem first_name_keeps_address :
    ∃ w : Medium Bool Claimant AcOutFrame, (w.node true).Owns 0x80 ∧ (w.node false).engine.Seeks 0x80 := by
  let name (late : Bool) : UInt64 := bif late then 2 else 1
  have distinct : ∀ late later, name late = name later → late = later := by decide
  have run : Run (GuardedStep false) ⟨fun late => .new 0x80 (name late) 250, fun _ _ => []⟩ _ _ :=
    (Run.nil.snoc ⟨.act true (Input.poll 0), nofun⟩).snoc ⟨.act false (Input.poll 7), by rintro _ ⟨⟩; nofun⟩
  exact ⟨_, ⟨by decide, .inl rfl, rfl⟩, (lowest_name_keeps_address distinct (by decide) run).1⟩

theorem addresses_claimed_exclusively_two_engines :
    ∃ w : Medium Bool Claimant AcOutFrame, (w.node false).Owns 0x80 ∧ (w.node true).Owns 0x80 ∧ ¬ w.Quiet claimBus ∧
      ∃ f : AcOutFrame, f.sourceAddr = 0x80 ∧ (w.Pending claimBus false true f ∧ f.Signed (w.node false).engine.name ∨
        w.Pending claimBus true false f ∧ f.Signed (w.node true).engine.name) := by
  have apart : ∀ late later : Bool, (bif late then (2 : UInt64) else 1) = (bif later then 2 else 1) → late = later := by
    decide
  have distinct : Function.Injective (fun late : Bool => bif late then (2 : UInt64) else 1) :=
    fun late later same => apart late later same
  have run : Run (Medium.Step claimBus)
      ⟨fun late : Bool => .new 0x80 (bif late then (2 : UInt64) else 1) 250, fun _ _ => []⟩ _ _ :=
    (Run.nil.snoc (.act false (Input.poll 0))).snoc (.act true (Input.poll 7))
  obtain ⟨exclusive, contact⟩ := addresses_claimed_exclusively distinct run
  have first := contact false true 0x80 (by decide) ⟨by decide, .inl rfl, rfl⟩ ⟨by decide, .inl rfl, rfl⟩
  refine ⟨_, ⟨by decide, .inl rfl, rfl⟩, ⟨by decide, .inl rfl, rfl⟩, fun quiet => ?_, first⟩
  exact exclusive quiet false true 0x80 (by decide) ⟨by decide, .inl rfl, rfl⟩ ⟨by decide, .inl rfl, rfl⟩

namespace AddrClaimEngine

variable (a : AddrClaimEngine)

def Step (call : Input × List AcEvent) (a' : AddrClaimEngine) : Prop :=
  a.handle call.1 = (call.2, a')

def Reserved (sa : UInt8) : Prop := sa = nullAddress ∨ sa = globalAddress

instance : DecidablePred Reserved := fun sa => inferInstanceAs (Decidable (sa = nullAddress ∨ sa = globalAddress))

def CommandsReserved (i : Input) : Prop :=
  ∃ decoded data now newSa, i = .frame decoded data now ∧ a.Commands decoded data newSa ∧ Reserved newSa

def UncommandedStep (call : Input × List AcEvent) (a' : AddrClaimEngine) : Prop :=
  a.Step call a' ∧ ¬ a.CommandsReserved call.1

def Proper : Prop :=
  (a.state ≠ .cannotClaim ∧ ¬ Reserved a.currentSa) ∨ (a.state = .cannotClaim ∧ a.currentSa = nullAddress)

theorem Step.effect {a a' : AddrClaimEngine} {call : Input × List AcEvent} (step : a.Step call a') :
    a.Effect call.1 call.2 a' := by
  have effect := a.handle_effect call.1
  rwa [step] at effect

theorem Effect.proper {a a' : AddrClaimEngine} {i : Input} {events : List AcEvent}
    (effect : a.Effect i events a')
    (proper : a.Proper)
    (allowed : ¬ a.CommandsReserved i) :
    a'.Proper ∧ ∀ sa, .claimed sa ∈ events → ¬ Reserved sa := by
  have seeking (claiming : a.state = .claiming) : ¬ Reserved a.currentSa := by
    rcases proper with ⟨_, free⟩ | ⟨lost, _⟩
    · exact free
    · cases claiming.symm.trans lost
  cases effect with
  | ignored | asserted | declined => exact ⟨proper, fun _ member => (not_mem_nil member).elim⟩
  | started claiming =>
    refine ⟨proper, fun sa member => ?_⟩
    cases mem_singleton.mp member
  | settled claiming =>
    refine ⟨.inl ⟨ClaimState.noConfusion, seeking claiming⟩, fun sa member => ?_⟩
    cases mem_singleton.mp member
    exact seeking claiming
  | ceded holding lower =>
    refine ⟨.inr ⟨rfl, rfl⟩, fun sa member => ?_⟩
    cases mem_singleton.mp member
  | commanded command =>
    refine ⟨.inl ⟨ClaimState.noConfusion, fun taken => allowed ⟨_, _, _, _, rfl, command, taken⟩⟩, fun sa member => ?_⟩
    cases mem_singleton.mp member

variable {configuredSa : UInt8} {name : UInt64} {claimWait : Nat} {history : List (Input × List AcEvent)}
  {a : AddrClaimEngine}

/-- Unless it is commanded to, an engine never owns the null or the global address. -/
theorem uncommanded_run_owns_no_reserved
    (configured : ¬ Reserved configuredSa)
    (run : Run UncommandedStep (.new configuredSa name claimWait) history a) :
    (a.state = .claiming ∨ a.state = .claimed → a.currentSa ≠ nullAddress ∧ a.currentSa ≠ globalAddress) ∧
      (a.currentSa = nullAddress ↔ a.state = .cannotClaim) ∧ ∀ call ∈ history, ∀ sa, .claimed sa ∈ call.2 →
      sa ≠ nullAddress ∧ sa ≠ globalAddress := by
  have start : (new configuredSa name claimWait).Proper := .inl ⟨ClaimState.noConfusion, configured⟩
  have proper : a.Proper ∧ ∀ call ∈ history, ∀ sa, .claimed sa ∈ call.2 → ¬ Reserved sa := by
    refine run.invariant_history (I := fun history a =>
      a.Proper ∧ ∀ call ∈ history, ∀ sa, .claimed sa ∈ call.2 → ¬ Reserved sa) ⟨start, forall_mem_nil _⟩ ?_
    rintro _ a _ _ ⟨proper, earlier⟩ ⟨step, allowed⟩
    obtain ⟨proper', now⟩ := step.effect.proper proper allowed
    refine ⟨proper', forall_mem_append.mpr ⟨earlier, ?_⟩⟩
    intro other member
    rw [mem_singleton.mp member]
    exact now
  obtain ⟨proper, events⟩ := proper
  refine ⟨?_, ?_, fun call member sa raised => not_or.mp (events call member sa raised)⟩
  · intro holding
    rcases proper with ⟨_, free⟩ | ⟨lost, _⟩
    · exact not_or.mp free
    · rcases holding with state | state <;> cases state.symm.trans lost
  · rcases proper with ⟨holding, free⟩ | ⟨lost, ceded⟩
    · exact ⟨fun null => absurd (.inl null) free, fun lost => absurd lost holding⟩
    · exact ⟨fun _ => lost, fun _ => ceded⟩

theorem uncommanded_run_owns_no_reserved_uncontested :
    ∃ a : AddrClaimEngine, a.state = .claimed ∧ a.currentSa ≠ nullAddress ∧ a.currentSa ≠ globalAddress := by
  have polled {b b' : AddrClaimEngine} {now : Nat} {events : List AcEvent} (done : b.poll now = (events, b')) :
      b.UncommandedStep (.poll now, events) b' := by
    refine ⟨done, ?_⟩
    rintro ⟨_, _, _, _, frame, _⟩
    cases frame
  have run : Run UncommandedStep (AddrClaimEngine.new 0x80 0x1000 250) _ _ :=
    (Run.nil.snoc (a := (Input.poll 0, _)) (polled rfl)).snoc (a := (Input.poll 250, _)) (polled rfl)
  obtain ⟨owns, _, _⟩ := uncommanded_run_owns_no_reserved (by decide) run
  exact ⟨_, rfl, owns (.inr rfl)⟩

/-- Commanded to the null address, an engine claims it. -/
theorem commanded_engine_claims_null :
    let a := AddrClaimEngine.new 0x80 0x1000 250
    let command : Input := .frame (decodeExtendedId (encodeExtendedId ⟨65240, by decide⟩ 6 0x10 none))
      [0x00, 0x10, 0, 0, 0, 0, 0, 0, 0xFE] 0
    let later := ((a.handle command).2.handle (.poll 250))
    (a.handle command).2.state = .claiming ∧ (a.handle command).2.currentSa = nullAddress ∧
      later.2.state = .claimed ∧ later.2.currentSa = nullAddress ∧ later.1 = [.claimed nullAddress] := by
  decide

end AddrClaimEngine

end Taktora.J1939
