import Mathlib.Data.List.Induction

namespace Taktora.Ui

open List

abbrev Payload := List UInt8

structure Reading where
  subscribers : Nat
  snapshot : Option Payload
  flag : Bool
  accepts : Bool
deriving DecidableEq, Repr

/-- The encode closures with their state. Those of the manifest and the heartbeat always report a change. -/
inductive Encoder where
  | property (lastJson : Option Payload)
  | canExecute (last : Option Bool)
  | always
deriving DecidableEq, Repr

def boolJson : Bool → Payload
  | true => [0x74, 0x72, 0x75, 0x65]
  | false => [0x66, 0x61, 0x6c, 0x73, 0x65]

namespace Encoder

def value (reading : Reading) : Encoder → Option Payload
  | .property _ | .always => reading.snapshot
  | .canExecute _ => some (boolJson reading.flag)

def encode (reading : Reading) : Encoder → Option (Payload × Bool) × Encoder
  | .property lastJson =>
    match reading.snapshot with
    | none => (none, .property lastJson)
    | some json => (some (json, lastJson != some json), .property (some json))
  | .canExecute last => (some (boolJson reading.flag, last != some reading.flag), .canExecute (some reading.flag))
  | .always =>
    match reading.snapshot with
    | none => (none, .always)
    | some json => (some (json, true), .always)

end Encoder

inductive EntryOutcome where
  | published
  | skippedZeroSub
  | skippedUnchanged
  | noValue
  | publishError
deriving DecidableEq, Repr

/-- An entry with its publisher. `published` has the payloads that were published, the last one at the end. -/
structure PumpEntry where
  name : String
  exempt : Bool
  encoder : Encoder
  hadSubscribers : Bool
  published : List Payload
deriving DecidableEq, Repr

namespace PumpEntry

def new (name : String) (exempt : Bool) (encoder : Encoder) : PumpEntry := ⟨name, exempt, encoder, false, []⟩

def publish (entry : PumpEntry) (accepts : Bool) (payload : Payload) : EntryOutcome × PumpEntry :=
  if accepts then (.published, { entry with published := entry.published ++ [payload] }) else (.publishError, entry)

def tick (entry : PumpEntry) (reading : Reading) : EntryOutcome × PumpEntry :=
  let subscribed := decide (0 < reading.subscribers)
  if !(entry.exempt || subscribed) then (.skippedZeroSub, { entry with hadSubscribers := false })
  else
    let force := entry.exempt || (!entry.hadSubscribers && subscribed)
    match entry.encoder.encode reading with
    | (none, encoder) => (.noValue, { entry with hadSubscribers := subscribed, encoder := encoder })
    | (some (payload, changed), encoder) =>
      let entry := { entry with hadSubscribers := subscribed, encoder := encoder }
      if changed || force then entry.publish reading.accepts payload else (.skippedUnchanged, entry)

end PumpEntry

def propertyEntry (name : String) : PumpEntry := .new name false (.property none)

structure PumpTickStats where
  published : Nat
  skippedZeroSub : Nat
  skippedUnchanged : Nat
  noValue : Nat
  publishErrors : Nat
deriving DecidableEq, Repr

def PumpTickStats.add (stats : PumpTickStats) : EntryOutcome → PumpTickStats
  | .published => { stats with published := stats.published + 1 }
  | .skippedZeroSub => { stats with skippedZeroSub := stats.skippedZeroSub + 1 }
  | .skippedUnchanged => { stats with skippedUnchanged := stats.skippedUnchanged + 1 }
  | .noValue => { stats with noValue := stats.noValue + 1 }
  | .publishError => { stats with publishErrors := stats.publishErrors + 1 }

abbrev Pump := List PumpEntry

namespace Pump

def tick (pump : Pump) (readings : Nat → Reading) : PumpTickStats × Pump :=
  let ticked := pump.mapIdx fun i entry => entry.tick (readings i)
  (ticked.foldl (fun stats outcome => stats.add outcome.1) ⟨0, 0, 0, 0, 0⟩, ticked.map Prod.snd)

def run (pump : Pump) (ticks : List (Nat → Reading)) : Pump :=
  ticks.foldl (fun pump readings => (pump.tick readings).2) pump

end Pump

namespace Encoder

def marker : Encoder → Option Payload
  | .property lastJson => lastJson
  | .canExecute last => last.map boolJson
  | .always => none

theorem encode_cases (encoder : Encoder) (reading : Reading) : (encoder.value reading = none ∧ encoder.encode reading =
    (none, encoder)) ∨ ∃ payload changed encoder', encoder.value reading = some payload ∧
      encoder.encode reading = (some (payload, changed), encoder') ∧
      (changed = false → encoder.marker = some payload) ∧ ∀ text, encoder'.marker = some text → text = payload := by
  cases encoder with
  | property lastJson =>
    cases found : reading.snapshot with
    | none => exact Or.inl ⟨found, by simp only [encode, found]⟩
    | some json =>
      refine Or.inr ⟨json, _, _, found, by simp only [encode, found]; rfl, ?_, ?_⟩
      · intro unchanged
        simpa [marker] using unchanged
      · intro text same
        cases same
        rfl
  | canExecute last =>
    refine Or.inr ⟨_, _, _, rfl, rfl, ?_, ?_⟩
    · intro unchanged
      have same : last = some reading.flag := by simpa using unchanged
      rw [same]
      rfl
    · intro text same
      cases same
      rfl
  | always =>
    cases found : reading.snapshot with
    | none => exact Or.inl ⟨found, by simp only [encode, found]⟩
    | some json =>
      refine Or.inr ⟨json, true, .always, found, by simp only [encode, found], ?_, ?_⟩
      · intro unchanged
        cases unchanged
      · intro text same
        cases same

end Encoder

namespace EntryOutcome

def isAttempt : EntryOutcome → Bool
  | .published | .publishError => true
  | .skippedZeroSub | .skippedUnchanged | .noValue => false

def Settled (outcomes : List EntryOutcome) : Prop := (outcomes.filter isAttempt).getLast? ≠ some .publishError

instance (outcomes : List EntryOutcome) : Decidable (Settled outcomes) := instDecidableNot

end EntryOutcome

namespace PumpEntry

open EntryOutcome

variable {entry : PumpEntry} {reading : Reading} {outcomes : List EntryOutcome}

def run (entry : PumpEntry) (readings : List Reading) : List EntryOutcome × PumpEntry :=
  readings.foldl (fun reached reading => (reached.1 ++ [(reached.2.tick reading).1], (reached.2.tick reading).2))
    ([], entry)

/-- The marker of the encoder is what was published last, unless the last publish has failed. -/
def Marked (entry : PumpEntry) (outcomes : List EntryOutcome) : Prop :=
  Settled outcomes → ∀ text, entry.encoder.marker = some text → entry.published.getLast? = some text

theorem settled_concat (outcomes : List EntryOutcome) (outcome : EntryOutcome) :
    Settled (outcomes ++ [outcome]) ↔ if outcome.isAttempt then outcome = .published else Settled outcomes := by
  unfold Settled
  cases outcome <;> simp [isAttempt]

/-- What a tick does: it skips the entry, finds no value, publishes the value, fails to, or finds it unchanged. -/
theorem tick_cases (entry : PumpEntry) (reading : Reading) :
    (reading.subscribers = 0 ∧ ∃ had, entry.tick reading = (.skippedZeroSub, { entry with hadSubscribers := had })) ∨
    (entry.encoder.value reading = none ∧ ∃ had,
      entry.tick reading = (.noValue, { entry with hadSubscribers := had })) ∨
    ∃ payload had encoder, entry.encoder.value reading = some payload ∧
      (∀ text, encoder.marker = some text → text = payload) ∧
      (entry.tick reading =
          PumpEntry.publish { entry with hadSubscribers := had, encoder := encoder } reading.accepts payload ∨
        entry.tick reading = (.skippedUnchanged, { entry with hadSubscribers := had, encoder := encoder }) ∧
          entry.encoder.marker = some payload) := by
  by_cases active : entry.exempt = true ∨ 0 < reading.subscribers
  · have guard : (!(entry.exempt || decide (0 < reading.subscribers))) = false := by
      rcases active with exempt | subscribed
      · simp [exempt]
      · simp [subscribed]
    rcases entry.encoder.encode_cases reading with ⟨missing, encoded⟩ | ⟨payload, _, encoder, found, encoded, same,
      last⟩
    · refine Or.inr (Or.inl ⟨missing, decide (0 < reading.subscribers), ?_⟩)
      simp only [tick, guard, encoded]
      rfl
    · refine Or.inr (Or.inr ⟨payload, decide (0 < reading.subscribers), encoder, found, last, ?_⟩)
      simp only [tick, guard, encoded, Bool.false_eq_true, if_false]
      split
      · exact Or.inl rfl
      · rename_i unforced
        refine Or.inr ⟨rfl, same ?_⟩
        simp only [Bool.or_eq_true, not_or, Bool.not_eq_true] at unforced
        exact unforced.1
  · simp only [not_or, Bool.not_eq_true, Nat.not_lt, Nat.le_zero] at active
    simp [tick, active]

theorem Marked.tick (marked : entry.Marked outcomes) (reading : Reading) :
    (entry.tick reading).2.Marked (outcomes ++ [(entry.tick reading).1]) := by
  intro settled text marker
  rw [settled_concat] at settled
  rcases entry.tick_cases reading with ⟨_, _, ticked⟩ | ⟨_, _, ticked⟩ | ⟨payload, _, _, _, last, ticked⟩
  · rw [ticked] at settled marker ⊢
    exact marked settled text marker
  · rw [ticked] at settled marker ⊢
    exact marked settled text marker
  · rcases ticked with attempted | ⟨skipped, unchanged⟩
    · rw [attempted] at settled marker ⊢
      unfold publish at settled marker ⊢
      split at settled
      · rename_i accepts
        simp only [accepts, if_true] at marker ⊢
        rw [getLast?_concat, last text marker]
      · cases settled
    · rw [skipped] at settled marker ⊢
      rw [last text marker]
      exact marked settled payload unchanged

theorem run_concat (entry : PumpEntry) (readings : List Reading) (reading : Reading) :
    entry.run (readings ++ [reading]) = ((entry.run readings).1 ++ [((entry.run readings).2.tick reading).1],
      ((entry.run readings).2.tick reading).2) :=
  foldl_append ..

theorem marked_run (fresh : entry.encoder.marker = none) (readings : List Reading) :
    (entry.run readings).2.Marked (entry.run readings).1 := by
  induction readings using reverseRecOn with
  | nil =>
    intro _ text marker
    exact nomatch fresh.symm.trans marker
  | append_singleton readings reading ih =>
    rw [run_concat]
    exact ih.tick reading

/-- With a subscriber, a value and an accepting publisher, a tick leaves the value as the last one published. -/
theorem Marked.current
    (marked : entry.Marked outcomes)
    (settled : Settled outcomes)
    {payload : Payload}
    (subscribed : 0 < reading.subscribers)
    (found : entry.encoder.value reading = some payload)
    (accepts : reading.accepts = true) :
    (entry.tick reading).2.published.getLast? = some payload := by
  rcases entry.tick_cases reading with ⟨_, _⟩ | ⟨missing, _⟩ | ⟨_, _, _, found', _, ticked⟩
  · omega
  · exact nomatch missing.symm.trans found
  · cases found'.symm.trans found
    rcases ticked with attempted | ⟨skipped, unchanged⟩
    · rw [attempted, publish, if_pos accepts]
      exact getLast?_concat
    · rw [skipped]
      exact marked settled payload unchanged

end PumpEntry

namespace Pump

open EntryOutcome

theorem getElem?_tick (pump : Pump) (readings : Nat → Reading) (i : Nat) :
    (pump.tick readings).2[i]? = pump[i]?.map fun entry => (entry.tick (readings i)).2 := by
  simp only [tick, getElem?_map, getElem?_mapIdx, Option.map_map]
  rfl

theorem run_concat (pump : Pump) (ticks : List (Nat → Reading)) (readings : Nat → Reading) :
    pump.run (ticks ++ [readings]) = ((pump.run ticks).tick readings).2 := foldl_append ..

theorem getElem?_run (pump : Pump) (ticks : List (Nat → Reading)) (i : Nat) :
    (pump.run ticks)[i]? = pump[i]?.map fun entry => (entry.run (ticks.map fun readings => readings i)).2 := by
  induction ticks using reverseRecOn with
  | nil => simp [run, PumpEntry.run]
  | append_singleton ticks readings ih =>
    rw [run_concat, getElem?_tick, ih, map_append, map_singleton, Option.map_map]
    congr 1
    funext entry
    rw [Function.comp_apply, PumpEntry.run_concat]

/-- A tick with a subscriber and a value leaves the value published, if no publish has failed since the last one. -/
theorem published_is_current (pump : Pump)
    (fresh : ∀ entry ∈ pump, entry.encoder.marker = none)
    (ticks : List (Nat → Reading)) (readings : Nat → Reading) (i : Nat) (entry : PumpEntry) (payload : Payload)
    (present : pump[i]? = some entry)
    (settled : Settled (entry.run (ticks.map fun readings => readings i)).1)
    (subscribed : 0 < (readings i).subscribers)
    (accepts : (readings i).accepts = true)
    (found : (entry.run (ticks.map fun readings => readings i)).2.encoder.value (readings i) = some payload) :
    ∃ after, (pump.run (ticks ++ [readings]))[i]? = some after ∧ after.published.getLast? = some payload := by
  have marked := PumpEntry.marked_run (fresh entry (mem_of_getElem? present)) (ticks.map fun readings => readings i)
  refine ⟨_, ?_, marked.current settled subscribed found accepts⟩
  rw [getElem?_run, present, map_append, map_singleton, Option.map_some, PumpEntry.run_concat]

theorem republished_value_current : ∃ after, (run [propertyEntry "Stepper"] ([fun _ => ⟨1, some [0x31], false, true⟩] ++
      [fun _ => ⟨1, some [0x32], false, true⟩]))[0]? = some after ∧ after.published.getLast? = some [0x32] :=
  published_is_current [propertyEntry "Stepper"] (by simp [propertyEntry, PumpEntry.new, Encoder.marker])
    [fun _ => ⟨1, some [0x31], false, true⟩] (fun _ => ⟨1, some [0x32], false, true⟩) 0 _ _ rfl (by decide) (by decide)
      rfl rfl

/-- The value is marked as sent before the publish fails, so no later tick publishes it. -/
theorem failed_publish_not_repeated :
    (run [propertyEntry "Stepper"] [fun _ => ⟨1, some [0x31], false, false⟩,
      fun _ => ⟨1, some [0x31], false, true⟩])[0]?.map PumpEntry.published = some [] := by
  decide

end Pump

end Taktora.Ui
