import Mathlib.Data.List.Basic
import Taktora.Core.Health
import Taktora.Lib.LittleEndian

namespace Taktora.Transport

open LittleEndian

structure ConnectorEnvelope (N : Nat) where
  sequenceNumber : UInt64
  timestampNs : UInt64
  correlationId : Vector UInt8 32
  payloadLen : UInt32
  reserved : UInt32
  crc32 : UInt32
  version : UInt16
  padding : UInt16
  payload : Vector UInt8 N

variable {N : Nat} {T ε : Type} (crc : List UInt8 → UInt32)

namespace ConnectorEnvelope

variable (env : ConnectorEnvelope N)

def payloadBytes : List UInt8 := env.payload.toList.take (min env.payloadLen.toNat N)

def neBytes (count v : Nat) : List UInt8 := (List.range count).map (byteAt v)

def computeCrc : UInt32 :=
  crc (neBytes 8 env.sequenceNumber.toNat ++ neBytes 8 env.timestampNs.toNat ++ env.correlationId.toList ++
    neBytes 4 env.payloadLen.toNat ++ neBytes 4 env.reserved.toNat ++ neBytes 2 env.version.toNat ++
    neBytes 2 env.padding.toNat ++ env.payloadBytes)

def verifyCrc : Bool := env.crc32 == env.computeCrc crc

end ConnectorEnvelope

structure RecvEnvelope (T : Type) where
  sequenceNumber : UInt64
  timestampNs : UInt64
  correlationId : Vector UInt8 32
  value : T

abbrev Received (T ε : Type) := Except ε (Option (RecvEnvelope T))

structure ChannelReader where
  healthSink : Option (List HealthEvent)
  expectedSequence : UInt64
  crcErrors : UInt64
  sequenceGaps : UInt64

namespace ChannelReader

def new (healthSink : Option (List HealthEvent)) : ChannelReader :=
  { healthSink, expectedSequence := 0, crcErrors := 0, sequenceGaps := 0 }

variable (decode : List UInt8 → Except ε T) (r : ChannelReader)

def report (reason : String) : ChannelReader :=
  { r with healthSink := r.healthSink.map (· ++ [⟨.up, .degraded reason⟩]) }

/-- The sequence number of an intact envelope is compared with the expected one, and the next one is expected. -/
def follow (number : UInt64) : ChannelReader :=
  let noted := if number ≠ r.expectedSequence then
      { r with sequenceGaps := r.sequenceGaps + 1 }.report
        ("envelope sequence gap (expected " ++ toString r.expectedSequence ++ ", got " ++ toString number ++ ")")
    else r
  { noted with expectedSequence := number + 1 }

def tryRecv : Except ε (Option (ConnectorEnvelope N)) → Received T ε × ChannelReader
  | .error e => (.error e, r)
  | .ok none => (.ok none, r)
  | .ok (some env) =>
    if env.verifyCrc crc = false then (.ok none, r.report "envelope crc mismatch")
    else
      ((decode env.payloadBytes).map fun value =>
          some ⟨env.sequenceNumber, env.timestampNs, env.correlationId, value⟩,
        r.follow env.sequenceNumber)

def recvAll (r : ChannelReader) : List (ConnectorEnvelope N) → List (Received T ε) × ChannelReader
  | [] => ([], r)
  | env :: envs =>
    let (received, r') := r.tryRecv crc decode (.ok (some env))
    let (others, r'') := r'.recvAll envs
    (received :: others, r'')

end ChannelReader

def returned (received : List (Received T ε)) : List T :=
  received.filterMap fun | .ok (some taken) => some taken.value | _ => none

def failed (received : List (Received T ε)) : List ε := received.filterMap fun | .error e => some e | _ => none

def gaps (expected : UInt64) (numbers : List UInt64) : Nat :=
  (numbers.zip (expected :: numbers.map (· + 1))).countP fun pair => pair.1 ≠ pair.2

/-- What a reader should have returned and counted when it has taken the envelopes `envs`. -/
structure Accounted (decode : List UInt8 → Except ε T) (envs : List (ConnectorEnvelope N))
    (received : List (Received T ε)) (r : ChannelReader) : Prop where
  values : returned received = (envs.filter (·.verifyCrc crc)).filterMap fun env => (decode env.payloadBytes).toOption
  crcErrors : r.crcErrors.toNat = envs.countP (!·.verifyCrc crc)
  sequenceGaps : r.sequenceGaps.toNat = gaps 0 ((envs.filter (·.verifyCrc crc)).map (·.sequenceNumber))
  once : (returned received).length + (failed received).length + r.crcErrors.toNat = envs.length

namespace ChannelReader

variable (decode : List UInt8 → Except ε T)

theorem follow_counters (r : ChannelReader) (number : UInt64) :
    (r.follow number).crcErrors = r.crcErrors ∧ (r.follow number).expectedSequence = number + 1 ∧
      (r.follow number).sequenceGaps = r.sequenceGaps + if number ≠ r.expectedSequence then 1 else 0 := by
  unfold follow
  by_cases gap : number ≠ r.expectedSequence
  · simp [gap, report]
  · simp [gap]

theorem gaps_cons (expected number : UInt64) (numbers : List UInt64) :
    gaps expected (number :: numbers) = (if number ≠ expected then 1 else 0) + gaps (number + 1) numbers := by
  simp [gaps, List.countP_cons, add_comm]

theorem recvAll_spec (r : ChannelReader) (envs : List (ConnectorEnvelope N)) : returned (r.recvAll crc decode envs).1 =
        (envs.filter (·.verifyCrc crc)).filterMap (fun env => (decode env.payloadBytes).toOption) ∧
      (returned (r.recvAll crc decode envs).1).length + (failed (r.recvAll crc decode envs).1).length +
        envs.countP (!·.verifyCrc crc) = envs.length ∧
      (r.recvAll crc decode envs).2.crcErrors = r.crcErrors ∧
      (r.recvAll crc decode envs).2.sequenceGaps = r.sequenceGaps +
        .ofNat (gaps r.expectedSequence ((envs.filter (·.verifyCrc crc)).map (·.sequenceNumber))) := by
  induction envs generalizing r with
  | nil => simp [recvAll, returned, failed, gaps]
  | cons env envs ih =>
    by_cases intact : env.verifyCrc crc = true
    · obtain ⟨errors, expected, counted⟩ := r.follow_counters env.sequenceNumber
      obtain ⟨values, once, crcErrors, sequenceGaps⟩ := ih (r.follow env.sequenceNumber)
      simp only [recvAll, tryRecv, intact, Bool.true_eq_false, if_false, List.filter_cons_of_pos, List.map_cons,
        gaps_cons]
      rw [crcErrors, sequenceGaps, errors, expected, counted, UInt64.ofNat_add, ← UInt64.add_assoc]
      have one : UInt64.ofNat (if env.sequenceNumber ≠ r.expectedSequence then 1 else 0) =
          if env.sequenceNumber ≠ r.expectedSequence then 1 else 0 := apply_ite UInt64.ofNat _ 1 0
      cases decoded : decode env.payloadBytes with
      | ok | error =>
        refine ⟨?_, ?_, rfl, by rw [one]⟩
        · simpa [returned, Except.map, decoded, Except.toOption] using values
        · simp [returned, failed, Except.map, intact] at once ⊢
          omega
    · obtain ⟨values, once, crcErrors, sequenceGaps⟩ := ih (r.report "envelope crc mismatch")
      simp [recvAll, tryRecv, intact, returned, failed, crcErrors, sequenceGaps] at values once ⊢
      refine ⟨values, ?_, rfl, rfl⟩
      omega

/-- A reader accounts for what it has taken exactly if no envelope was altered. -/
theorem reader_accounts_iff (healthSink : Option (List HealthEvent)) (envs : List (ConnectorEnvelope N)) :
    Accounted crc decode envs ((new healthSink).recvAll crc decode envs).1
      ((new healthSink).recvAll crc decode envs).2 ↔ (∀ env ∈ envs, env.verifyCrc crc = true) ∧
      gaps 0 ((envs.filter (·.verifyCrc crc)).map (·.sequenceNumber)) < 2 ^ 64 := by
  obtain ⟨values, _, crcErrors, sequenceGaps⟩ := (new healthSink).recvAll_spec crc decode envs
  have none : ((new healthSink).recvAll crc decode envs).2.crcErrors.toNat = 0 := by rw [crcErrors]; rfl
  have counted : ((new healthSink).recvAll crc decode envs).2.sequenceGaps.toNat =
      gaps 0 ((envs.filter (·.verifyCrc crc)).map (·.sequenceNumber)) % 2 ^ 64 := by
    rw [sequenceGaps]
    exact (congrArg UInt64.toNat (UInt64.zero_add _)).trans (UInt64.toNat_ofNat' ..)
  have intact : envs.countP (!·.verifyCrc crc) = 0 ↔ ∀ env ∈ envs, env.verifyCrc crc = true := by
    simp [List.countP_eq_zero]
  rw [← intact]
  constructor
  · intro accounted
    have errors := accounted.crcErrors
    have gaps := accounted.sequenceGaps
    rw [counted] at gaps
    exact ⟨by omega, gaps ▸ Nat.mod_lt _ (by decide)⟩
  · rintro ⟨_, few⟩
    exact ⟨values, by omega, counted.trans (Nat.mod_eq_of_lt few), by omega⟩

/-- Whatever the checksum, an empty envelope whose stored checksum is off by one is taken and counted nowhere. -/
theorem altered_envelope_is_not_counted :
    ∃ env : (List UInt8 → UInt32) → ConnectorEnvelope 0, ∀ crc, (env crc).verifyCrc crc = false ∧
      (new none).recvAll crc (fun _ => (.ok () : Except Unit Unit)) [env crc] = ([.ok none], new none) := by
  let blank : ConnectorEnvelope 0 := ⟨0, 0, .replicate 32 0, 0, 0, 0, 2, 0, #v[]⟩
  refine ⟨fun crc => { blank with crc32 := blank.computeCrc crc + 1 }, fun crc => ?_⟩
  have altered : { blank with crc32 := blank.computeCrc crc + 1 }.verifyCrc crc = false := by
    apply beq_false_of_ne
    intro same
    have wrapped : blank.computeCrc crc + 1 = blank.computeCrc crc := same
    simp at wrapped
  simp only [recvAll, tryRecv, altered, if_true]
  exact ⟨trivial, rfl⟩

end ChannelReader

end Taktora.Transport
