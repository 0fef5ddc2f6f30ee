import Mathlib.Data.Fintype.Basic
import Mathlib.Data.Nat.Bitwise
import Taktora.Lib.Run

namespace Taktora.Telemetry

open Function List Option

def WRITING : Nat := 2 ^ 63

abbrev PodRecord (n : Nat) (W : Type) := Fin n → W

structure Slot (n : Nat) (W : Type) where
  seq : Nat
  rec_ : PodRecord n W

inductive Producer (n : Nat) (W : Type) where
  | idle
  | writing (record : PodRecord n W) (left : List (Fin n))
  | publishing

def Producer.isIdle {n : Nat} {W : Type} : Producer n W → Bool
  | .idle => true
  | _ => false

theorem idle_of_isIdle {n : Nat} {W : Type} {producer : Producer n W}
    (idle : producer.isIdle = true) : producer = .idle := by
  cases producer with
  | idle => rfl
  | _ => cases idle

inductive Consumer (n : Nat) (W : Type) where
  | top
  | checked
  | reading (s1 : Nat) (left : List (Fin n)) (copy : PodRecord n W)

inductive RecvOutcome (n : Nat) (W : Type) where
  | record (read : PodRecord n W)
  | lapped (skipped : Nat)
  | empty

def RecvOutcome.record? {n : Nat} {W : Type} : RecvOutcome n W → Option (PodRecord n W)
  | .record read => some read
  | _ => none

/-- The ring with both of its halves. `pushed` lists the records of the pushes that have begun. -/
structure CycleRing (n : Nat) (W : Type) where
  mask : Nat
  head : Nat
  slots : Nat → Slot n W
  producer : Producer n W
  pushed : List (PodRecord n W)
  next : Nat
  consumer : Consumer n W
  outcomes : List (RecvOutcome n W)

/-- The payload is written and copied in the given order of words, and the copy is made over what the stack held. -/
inductive RingAction (n : Nat) (W : Type) where
  | push (record : PodRecord n W) (order : List (Fin n))
  | produce
  | consume (order : List (Fin n)) (held : PodRecord n W)

structure DrainSummary where
  written : Nat
  lapped : Nat
deriving DecidableEq, Repr

def DrainSummary.count {n : Nat} {W : Type} (summary : DrainSummary) : RecvOutcome n W → DrainSummary
  | .record _ => { summary with written := summary.written + 1 }
  | .lapped skipped => { summary with lapped := summary.lapped + skipped }
  | .empty => summary

namespace CycleRing

variable {n : Nat} {W : Type}

def withCapacity (capacity : Nat) (blank : PodRecord n W) : CycleRing n W where
  mask := (max capacity 2).nextPowerOfTwo - 1
  head := 0
  slots := fun _ => ⟨WRITING, blank⟩
  producer := .idle
  pushed := []
  next := 0
  consumer := .top
  outcomes := []

variable (r : CycleRing n W)

def cap : Nat := r.mask + 1

def slot (seq : Nat) : Slot n W := r.slots (seq &&& r.mask)

def setSlot (seq : Nat) (slot : Slot n W) : CycleRing n W :=
  { r with slots := Function.update r.slots (seq &&& r.mask) slot }

def mark (record : PodRecord n W) (order : List (Fin n)) : CycleRing n W :=
  { r.setSlot r.head { r.slot r.head with seq := r.head ||| WRITING } with
    producer := .writing record order
    pushed := r.pushed ++ [record] }

def write (record : PodRecord n W) (word : Fin n) (left : List (Fin n)) : CycleRing n W :=
  { r.setSlot r.head { r.slot r.head with rec_ := Function.update (r.slot r.head).rec_ word (record word) } with
    producer := .writing record left }

def publish : CycleRing n W :=
  { r.setSlot r.head { r.slot r.head with seq := r.head } with producer := .publishing }

def produce : Producer n W → Option (CycleRing n W)
  | .idle => none
  | .writing record (word :: left) => some (r.write record word left)
  | .writing _ [] => some r.publish
  | .publishing => some { r with head := r.head + 1, producer := .idle }

def returns (next : Nat) (outcome : RecvOutcome n W) : CycleRing n W :=
  { r with next, consumer := .top, outcomes := r.outcomes ++ [outcome] }

def check : CycleRing n W :=
  if r.head ≤ r.next then r.returns r.next .empty
  else if r.cap < r.head - r.next then r.returns (r.head - r.cap) (.lapped (r.head - r.cap - r.next))
  else { r with consumer := .checked }

def load (order : List (Fin n)) (held : PodRecord n W) : CycleRing n W :=
  let s1 := (r.slot r.next).seq
  if s1 &&& WRITING ≠ 0 then { r with consumer := .top }
  else if s1 ≠ r.next then { r with consumer := .top }
  else { r with consumer := .reading s1 order held }

def reload (s1 : Nat) (copy : PodRecord n W) : CycleRing n W :=
  let s2 := (r.slot r.next).seq
  if s1 ≠ s2 then { r with consumer := .top } else r.returns (r.next + 1) (.record copy)

def consume (order : List (Fin n)) (held : PodRecord n W) : Consumer n W → CycleRing n W
  | .top => r.check
  | .checked => r.load order held
  | .reading s1 (word :: left) copy =>
    { r with consumer := .reading s1 left (Function.update copy word ((r.slot r.next).rec_ word)) }
  | .reading s1 [] copy => r.reload s1 copy

def act : RingAction n W → Option (CycleRing n W)
  | .push record order => if r.producer.isIdle ∧ ∀ word, word ∈ order then some (r.mark record order) else none
  | .produce => r.produce r.producer
  | .consume order held => if ∀ word, word ∈ order then some (r.consume order held r.consumer) else none

def Step (action : RingAction n W) (r' : CycleRing n W) : Prop :=
  r.act action = some r' ∧ r'.pushed.length < WRITING

def summary : DrainSummary := r.outcomes.foldl DrainSummary.count ⟨0, 0⟩

def records : List (PodRecord n W) := r.outcomes.filterMap RecvOutcome.record?

section Words

theorem and_writing {w : Nat} (small : w < WRITING) : w &&& WRITING = 0 := by
  rw [WRITING, Nat.and_two_pow, Nat.testBit_lt_two_pow small]
  rfl

theorem writing_le_or (w : Nat) : WRITING ≤ w ||| WRITING := Nat.right_le_or

theorem index_eq_mod {r : CycleRing n W} {k : Nat} (pow : r.cap = 2 ^ k) (w : Nat) : w &&& r.mask = w % r.cap := by
  rw [pow, ← Nat.and_two_pow_sub_one_eq_mod, ← pow]
  rfl

theorem index_ne {r : CycleRing n W} {k : Nat}
    (pow : r.cap = 2 ^ k)
    {j w : Nat}
    (less : j < w)
    (near : w < j + r.cap) : j &&& r.mask ≠ w &&& r.mask := by
  rw [index_eq_mod pow, index_eq_mod pow]
  intro same
  have divides := Nat.sub_mod_eq_zero_of_mod_eq same.symm
  rw [Nat.mod_eq_of_lt (by omega)] at divides
  omega

theorem setSlot_slots (seq : Nat) (slot : Slot n W) (i : Nat) :
    (r.setSlot seq slot).slots i = if i = seq &&& r.mask then slot else r.slots i := update_apply _ _ _ _

theorem setSlot_slot (seq : Nat) (slot : Slot n W) (j : Nat) :
    (r.setSlot seq slot).slot j = if j &&& r.mask = seq &&& r.mask then slot else r.slot j := setSlot_slots r seq slot _

end Words

def open_ : Producer n W → Nat
  | .idle => 0
  | _ => 1

def ahead : Producer n W → Nat
  | .publishing => 1
  | _ => 0

structure Shared (r : CycleRing n W) : Prop where
  pow : ∃ k, r.cap = 2 ^ k
  count : r.pushed.length = r.head + open_ r.producer
  few : r.pushed.length < WRITING
  clean : ∀ i, (r.slots i).seq < WRITING →
    (r.slots i).seq < r.head + ahead r.producer ∧ r.pushed[(r.slots i).seq]? = some (r.slots i).rec_
  writing : ∀ record left, r.producer = .writing record left → WRITING ≤ (r.slot r.head).seq ∧
    r.pushed[r.head]? = some record ∧ ∀ word ∉ left, (r.slot r.head).rec_ word = record word
  resident : ∀ j < r.head + ahead r.producer, r.head + ahead r.producer ≤ j + r.cap →
    (∀ record left, r.producer = .writing record left → j &&& r.mask ≠ r.head &&& r.mask) → (r.slot j).seq = j

/-- What the consumer has copied is what the slot holds, unless the slot was written meanwhile. -/
structure Reader (r : CycleRing n W) : Prop where
  next : r.next ≤ r.head
  checked : r.consumer = .checked → r.next < r.head
  reading : ∀ s1 left copy, r.consumer = .reading s1 left copy → s1 = r.next ∧ r.next < r.head ∧
    ((r.slot r.next).seq = r.next → ∀ word ∉ left, copy word = (r.slot r.next).rec_ word)

structure Delivered (r : CycleRing n W) : Prop where
  records : r.records.Sublist (r.pushed.take r.next)
  total : r.summary.written + r.summary.lapped = r.next

structure Inv (r : CycleRing n W) : Prop where
  shared : r.Shared
  reader : r.Reader
  delivered : r.Delivered

section Producing

variable {r : CycleRing n W} {record : PodRecord n W} {order left : List (Fin n)} {word : Fin n}

theorem Shared.mark
    (shared : r.Shared)
    (idle : r.producer = .idle)
    (covers : ∀ word, word ∈ order)
    (few : (r.mark record order).pushed.length < WRITING) : (r.mark record order).Shared := by
  have count := shared.count
  rw [idle] at count
  refine ⟨shared.pow, ?_, few, ?_, ?_, ?_⟩
  · rw [show (r.mark record order).pushed.length = r.pushed.length + 1 from length_append, count]
    rfl
  · intro i
    rw [show (r.mark record order).slots i = _ from setSlot_slots r _ _ i]
    split
    · intro small
      exact absurd small (not_lt.mpr (writing_le_or r.head))
    · intro small
      obtain ⟨below, named⟩ := shared.clean i small
      rw [idle] at below
      exact ⟨below, (getElem?_append_left (count.symm ▸ below)).trans named⟩
  · intro record' left' same
    cases same
    refine ⟨?_, ?_, fun word missing => absurd (covers word) missing⟩
    · show WRITING ≤ ((r.setSlot r.head _).slot r.head).seq
      rw [setSlot_slot, if_pos rfl]
      exact writing_le_or r.head
    · show (r.pushed ++ [record])[r.head]? = some record
      rw [show r.head = r.pushed.length from count.symm, getElem?_concat_length]
  · intro j below near apart
    have other : j &&& r.mask ≠ r.head &&& r.mask := apart record order rfl
    show ((r.setSlot r.head _).slot j).seq = j
    rw [setSlot_slot, if_neg other]
    apply shared.resident j
    · rwa [idle]
    · rwa [idle]
    · intro record' left' same
      rw [idle] at same
      cases same

theorem Shared.write
    (shared : r.Shared)
    (here : r.producer = .writing record (word :: left)) : (r.write record word left).Shared := by
  obtain ⟨marked, current, written⟩ := shared.writing record _ here
  have count := shared.count
  have seqs : ∀ i, ((r.write record word left).slots i).seq = (r.slots i).seq := by
    intro i
    rw [show (r.write record word left).slots i = _ from setSlot_slots r _ _ i]
    split
    · rename_i same
      rw [same]
      rfl
    · rfl
  rw [here] at count
  refine ⟨shared.pow, count, shared.few, ?_, ?_, ?_⟩
  · intro i
    rw [seqs, show (r.write record word left).slots i = _ from setSlot_slots r _ _ i]
    intro small
    have clean := shared.clean i small
    rw [here] at clean
    split
    · rename_i same
      rw [same] at small
      exact absurd small (not_lt.mpr marked)
    · exact clean
  · intro record' left' same
    cases same
    refine ⟨(seqs _).symm ▸ marked, current, ?_⟩
    intro other missing
    show ((r.setSlot r.head _).slot r.head).rec_ other = record other
    rw [setSlot_slot, if_pos rfl]
    dsimp only
    rw [update_apply]
    split
    · rename_i same
      rw [same]
    · rename_i different
      exact written other fun member => (mem_cons.mp member).elim different missing
  · intro j below near apart
    rw [show ((r.write record word left).slot j).seq = _ from seqs _]
    apply shared.resident j
    · rwa [here]
    · rwa [here]
    · exact fun _ _ _ => apart record left rfl

theorem Shared.publish (shared : r.Shared) (here : r.producer = .writing record []) : r.publish.Shared := by
  obtain ⟨_, current, written⟩ := shared.writing record _ here
  obtain ⟨k, pow⟩ := shared.pow
  have count := shared.count
  rw [here] at count
  refine ⟨⟨k, pow⟩, count, shared.few, ?_, nofun, ?_⟩
  · intro i
    rw [show r.publish.slots i = _ from setSlot_slots r _ _ i]
    split
    · intro small
      refine ⟨Nat.lt_succ_self _, current.trans (congrArg some ?_)⟩
      funext word
      exact (written word not_mem_nil).symm
    · intro small
      obtain ⟨below, named⟩ := shared.clean i small
      rw [here] at below
      exact ⟨Nat.lt_succ_of_lt below, named⟩
  · intro j below near _
    show ((r.setSlot r.head _).slot j).seq = j
    rw [setSlot_slot]
    rcases lt_or_eq_of_le (Nat.le_of_lt_succ below) with less | same
    · have apart : j &&& r.mask ≠ r.head &&& r.mask := index_ne pow less near
      rw [if_neg apart]
      apply shared.resident j
      · rwa [here]
      · rw [here]
        exact le_of_lt near
      · exact fun _ _ _ => apart
    · have same : j = r.head := same
      rw [same, if_pos rfl]

theorem Shared.store (shared : r.Shared) (here : r.producer = .publishing) :
    Shared { r with head := r.head + 1, producer := .idle } := by
  have count := shared.count
  rw [here] at count
  refine ⟨shared.pow, count, shared.few, ?_, nofun, ?_⟩
  · intro i small
    have clean := shared.clean i small
    rwa [here] at clean
  · intro j below near _
    apply shared.resident j
    · rwa [here]
    · rwa [here]
    · intro record left same
      rw [here] at same
      cases same

theorem Reader.produce {r' : CycleRing n W}
    (reader : r.Reader)
    (next : r'.next = r.next)
    (consumer : r'.consumer = r.consumer)
    (head : r.head ≤ r'.head)
    (slot : r.next < r.head → r'.slot r.next = r.slot r.next ∨ (r'.slot r.next).seq ≠ r.next) : r'.Reader := by
  refine ⟨next ▸ reader.next.trans head, ?_, ?_⟩
  · intro here
    rw [consumer] at here
    exact next ▸ lt_of_lt_of_le (reader.checked here) head
  · intro s1 left copy here
    rw [consumer] at here
    obtain ⟨first, below, _⟩ := reader.reading s1 left copy here
    rw [next]
    refine ⟨first, lt_of_lt_of_le below head, ?_⟩
    rcases slot below with same | changed
    · rwa [same]
    · exact fun same => absurd same changed

theorem setSlot_seen {slot : Slot n W}
    (changed : r.next < r.head → slot.seq ≠ r.next)
    (below : r.next < r.head) :
    (r.setSlot r.head slot).slot r.next = r.slot r.next ∨ ((r.setSlot r.head slot).slot r.next).seq ≠ r.next := by
  rw [setSlot_slot]
  split
  · exact .inr (changed below)
  · exact .inl rfl

theorem Shared.next_lt (shared : r.Shared) (below : r.next < r.head) : r.next < WRITING := by
  have count := shared.count
  have few := shared.few
  omega

theorem Delivered.produce {r' : CycleRing n W}
    (delivered : r.Delivered)
    (next : r'.next = r.next)
    (outcomes : r'.outcomes = r.outcomes)
    (pushed : r'.pushed.take r.next = r.pushed.take r.next) : r'.Delivered := by
  constructor
  · rw [next, pushed, CycleRing.records, outcomes]
    exact delivered.records
  · rw [next, summary, outcomes]
    exact delivered.total

theorem Inv.mark
    (inv : r.Inv)
    (idle : r.producer = .idle)
    (covers : ∀ word, word ∈ order)
    (few : (r.mark record order).pushed.length < WRITING) : (r.mark record order).Inv := by
  refine ⟨inv.shared.mark idle covers few, ?_, ?_⟩
  · refine inv.reader.produce rfl rfl le_rfl (setSlot_seen ?_)
    intro below same
    have marked := writing_le_or r.head
    have small := inv.shared.next_lt below
    exact absurd (same ▸ marked) (not_le.mpr small)
  · have count := inv.shared.count
    have next := inv.reader.next
    exact inv.delivered.produce rfl rfl (take_append_of_le_length (by omega))

theorem Inv.produce (inv : r.Inv) {r' : CycleRing n W} (step : r.produce r.producer = some r') : r'.Inv := by
  generalize here : r.producer = producer at step
  cases producer with
  | idle => cases step
  | writing record left =>
    have marked := (inv.shared.writing record left here).1
    cases left with
    | cons word left =>
      cases step
      refine ⟨inv.shared.write here, inv.reader.produce rfl rfl le_rfl (setSlot_seen ?_),
        inv.delivered.produce rfl rfl rfl⟩
      intro below same
      have small := inv.shared.next_lt below
      exact absurd (same ▸ marked) (not_le.mpr small)
    | nil =>
      cases step
      refine ⟨inv.shared.publish here, inv.reader.produce rfl rfl le_rfl (setSlot_seen ?_),
        inv.delivered.produce rfl rfl rfl⟩
      exact fun below => ne_of_gt below
  | publishing =>
    cases step
    exact ⟨inv.shared.store here, inv.reader.produce rfl rfl (Nat.le_succ _) fun _ => .inl rfl,
      inv.delivered.produce rfl rfl rfl⟩

end Producing

section Consuming

variable {r : CycleRing n W} {order left : List (Fin n)} {held copy : PodRecord n W} {s1 : Nat}

theorem Shared.consumed (shared : r.Shared) (next : Nat) (consumer : Consumer n W) (outcomes : List (RecvOutcome n W)) :
    Shared { r with next, consumer, outcomes } :=
  { shared with }

variable (r)

theorem summary_append (next : Nat) (outcome : RecvOutcome n W) :
    (r.returns next outcome).summary = r.summary.count outcome := foldl_concat _ _ _ _

theorem records_append (next : Nat) (outcome : RecvOutcome n W) :
    (r.returns next outcome).records = r.records ++ outcome.record?.toList := by
  rw [records, returns, filterMap_append]
  cases outcome <;> rfl

theorem returns_reader {next : Nat} (below : next ≤ r.head) (outcome : RecvOutcome n W) :
    (r.returns next outcome).Reader := ⟨below, nofun, nofun⟩

variable {r}

section

variable (inv : r.Inv)
include inv

theorem Inv.top : Inv { r with consumer := .top } :=
  ⟨inv.shared.consumed _ _ _, ⟨inv.reader.next, nofun, nofun⟩, ⟨inv.delivered.records, inv.delivered.total⟩⟩

theorem Inv.check : r.check.Inv := by
  have total := inv.delivered.total
  unfold CycleRing.check
  split_ifs with caught far
  · refine ⟨inv.shared.consumed _ _ _, returns_reader r inv.reader.next _, ?_, ?_⟩
    · rw [records_append]
      exact (append_nil _).symm ▸ inv.delivered.records
    · rw [summary_append]
      exact total
  · refine ⟨inv.shared.consumed _ _ _, returns_reader r (Nat.sub_le _ _) _, ?_, ?_⟩
    · rw [records_append]
      have later : r.next ≤ r.head - r.cap := by omega
      exact (append_nil _).symm ▸ inv.delivered.records.trans (take_prefix_take_left later).sublist
    · rw [summary_append]
      show r.summary.written + (r.summary.lapped + (r.head - r.cap - r.next)) = r.head - r.cap
      omega
  · exact ⟨inv.shared.consumed _ _ _, ⟨inv.reader.next, fun _ => not_le.mp caught, nofun⟩,
      ⟨inv.delivered.records, inv.delivered.total⟩⟩

theorem Inv.load (here : r.consumer = .checked) (covers : ∀ word, word ∈ order) : (r.load order held).Inv := by
  have below := inv.reader.checked here
  unfold CycleRing.load
  dsimp only
  split_ifs with marked other
  · exact inv.top
  · exact inv.top
  · refine ⟨inv.shared.consumed _ _ _, ⟨inv.reader.next, nofun, ?_⟩, ⟨inv.delivered.records, inv.delivered.total⟩⟩
    intro s1 left copy same
    cases same
    exact ⟨not_not.mp other, below, fun _ word missing => absurd (covers word) missing⟩

theorem Inv.read {word : Fin n} (here : r.consumer = .reading s1 (word :: left) copy) :
    Inv { r with consumer := .reading s1 left (update copy word ((r.slot r.next).rec_ word)) } := by
  obtain ⟨first, below, copied⟩ := inv.reader.reading _ _ _ here
  refine ⟨inv.shared.consumed _ _ _, ⟨inv.reader.next, nofun, ?_⟩, ⟨inv.delivered.records, inv.delivered.total⟩⟩
  intro s1 left copy same
  cases same
  refine ⟨first, below, ?_⟩
  intro seq other missing
  rw [update_apply]
  split
  · rename_i same
    rw [same]
    rfl
  · rename_i different
    exact copied seq other fun member => (mem_cons.mp member).elim different missing

theorem Inv.copied
    (here : r.consumer = .reading s1 [] copy)
    (same : s1 = (r.slot r.next).seq) :
    r.next < r.head ∧ r.pushed[r.next]? = some copy := by
  obtain ⟨first, below, copied⟩ := inv.reader.reading _ _ _ here
  have seq : (r.slot r.next).seq = r.next := same.symm.trans first
  have clean := (inv.shared.clean (r.next &&& r.mask) (seq.trans_lt (inv.shared.next_lt below))).2
  refine ⟨below, ?_⟩
  rw [show (r.slots (r.next &&& r.mask)).seq = r.next from seq] at clean
  rw [clean]
  congr 1
  funext word
  exact (copied seq word not_mem_nil).symm

theorem Inv.reload (here : r.consumer = .reading s1 [] copy) : (r.reload s1 copy).Inv := by
  unfold CycleRing.reload
  dsimp only
  split_ifs with changed
  · exact inv.top
  · obtain ⟨below, named⟩ := inv.copied here (not_not.mp changed)
    refine ⟨inv.shared.consumed _ _ _, returns_reader r below _, ?_, ?_⟩
    · rw [records_append]
      show (r.records ++ [copy]).Sublist (r.pushed.take (r.next + 1))
      rw [take_add_one, named]
      exact inv.delivered.records.append_right [copy]
    · rw [summary_append]
      show r.summary.written + 1 + r.summary.lapped = r.next + 1
      have total := inv.delivered.total
      omega

theorem Inv.consume (covers : ∀ word, word ∈ order) : (r.consume order held r.consumer).Inv := by
  cases here : r.consumer with
  | top => exact inv.check
  | checked => exact inv.load here covers
  | reading s1 left copy =>
    cases left with
    | cons word left => exact inv.read here
    | nil => exact inv.reload here

end

end Consuming

section Runs

variable {r r' : CycleRing n W} {action : RingAction n W}

theorem withCapacity_inv (capacity : Nat) (blank : PodRecord n W) : (withCapacity capacity blank).Inv := by
  obtain ⟨k, pow⟩ := Nat.isPowerOfTwo_nextPowerOfTwo (max capacity 2)
  refine ⟨⟨⟨k, ?_⟩, rfl, ?_, ?_, nofun, nofun⟩, ⟨le_rfl, nofun, nofun⟩, ⟨Sublist.slnil, rfl⟩⟩
  · rw [cap, withCapacity, pow, Nat.sub_add_cancel (Nat.one_le_two_pow)]
  · exact Nat.two_pow_pos 63
  · exact fun i small => absurd small (lt_irrefl _)

theorem Inv.step (inv : r.Inv) (step : r.Step action r') : r'.Inv := by
  obtain ⟨acted, few⟩ := step
  cases action with
  | push record order =>
    obtain ⟨⟨idle, covers⟩, same⟩ := ite_none_right_eq_some.mp acted
    cases same
    exact inv.mark (idle_of_isIdle idle) covers few
  | produce => exact inv.produce acted
  | consume order held =>
    obtain ⟨covers, same⟩ := ite_none_right_eq_some.mp acted
    cases same
    exact inv.consume covers

end Runs

section Draining

variable {r r' : CycleRing n W} {order left : List (Fin n)} {held copy : PodRecord n W} {s1 : Nat}

def recv (order : List (Fin n)) (held : PodRecord n W) (r : CycleRing n W) : CycleRing n W :=
  r.consume order held r.consumer

structure Untouched (r r' : CycleRing n W) : Prop where
  mask : r'.mask = r.mask
  head : r'.head = r.head
  slots : r'.slots = r.slots
  producer : r'.producer = r.producer
  pushed : r'.pushed = r.pushed

theorem Untouched.trans {r'' : CycleRing n W} (first : Untouched r r') (second : Untouched r' r'') : Untouched r r'' :=
  ⟨second.mask.trans first.mask, second.head.trans first.head, second.slots.trans first.slots,
    second.producer.trans first.producer, second.pushed.trans first.pushed⟩

theorem recv_untouched (order : List (Fin n)) (held : PodRecord n W) (r : CycleRing n W) :
    Untouched r (recv order held r) := by
  unfold recv
  cases r.consumer with
  | top =>
    dsimp only [consume, check]
    split_ifs <;> exact ⟨rfl, rfl, rfl, rfl, rfl⟩
  | checked =>
    dsimp only [consume, load]
    split_ifs <;> exact ⟨rfl, rfl, rfl, rfl, rfl⟩
  | reading s1 left copy =>
    cases left with
    | cons word left => exact ⟨rfl, rfl, rfl, rfl, rfl⟩
    | nil =>
      dsimp only [consume, reload]
      split_ifs <;> exact ⟨rfl, rfl, rfl, rfl, rfl⟩

def Drains (order : List (Fin n)) (held : PodRecord n W) (r r' : CycleRing n W) : Prop :=
  ∃ steps, (recv order held)^[steps] r = r'

theorem Drains.step (r : CycleRing n W) : Drains order held r (recv order held r) := ⟨1, rfl⟩

theorem Drains.trans {r'' : CycleRing n W}
    (first : Drains order held r r')
    (second : Drains order held r' r'') : Drains order held r r'' := by
  obtain ⟨a, rfl⟩ := first
  obtain ⟨b, rfl⟩ := second
  exact ⟨b + a, iterate_add_apply _ b a r⟩

theorem Drains.untouched (drains : Drains order held r r') : Untouched r r' := by
  obtain ⟨steps, rfl⟩ := drains
  induction steps with
  | zero => exact ⟨rfl, rfl, rfl, rfl, rfl⟩
  | succ steps ih =>
    rw [iterate_succ_apply']
    exact ih.trans (recv_untouched order held _)

theorem Drains.run
    (covers : ∀ word, word ∈ order)
    (few : r.pushed.length < WRITING)
    (drains : Drains order held r r') :
    ∃ steps, Run Step r (List.replicate steps (.consume order held)) r' := by
  obtain ⟨steps, rfl⟩ := drains
  refine ⟨steps, ?_⟩
  induction steps with
  | zero => exact .nil
  | succ steps ih =>
    rw [iterate_succ_apply', replicate_succ']
    refine .snoc ih ⟨if_pos covers, ?_⟩
    rw [(recv_untouched order held _).pushed, (untouched ⟨steps, rfl⟩).pushed]
    exact few

theorem Drains.inv (inv : r.Inv) (covers : ∀ word, word ∈ order) (drains : Drains order held r r') : r'.Inv := by
  obtain ⟨steps, rfl⟩ := drains
  induction steps with
  | zero => exact inv
  | succ steps ih =>
    rw [iterate_succ_apply']
    exact ih.consume covers

theorem Untouched.slot (same : Untouched r r') (seq : Nat) : r'.slot seq = r.slot seq := by
  rw [CycleRing.slot, same.slots, same.mask]
  rfl

/-- The copy ends with an outcome if the slot still has its number, and with another turn otherwise. -/
theorem reading_ends (order : List (Fin n)) (held : PodRecord n W) (here : r.consumer = .reading s1 left copy) :
    ∃ r', (recv order held)^[left.length + 1] r = r' ∧ r'.consumer = .top ∧
      (s1 = (r.slot r.next).seq → r'.next = r.next + 1 ∧ r'.outcomes.length = r.outcomes.length + 1) ∧
      (s1 ≠ (r.slot r.next).seq → r'.next = r.next ∧ r'.outcomes = r.outcomes) := by
  induction left generalizing r copy with
  | nil =>
    refine ⟨_, rfl, ?_⟩
    rw [length_nil, iterate_one, recv, here, consume, reload]
    split_ifs with changed
    · exact ⟨rfl, fun same => absurd same changed, fun _ => ⟨rfl, rfl⟩⟩
    · exact ⟨rfl, fun _ => ⟨rfl, length_append⟩, fun other => absurd other changed⟩
  | cons word left ih =>
    have stepped : recv order held r =
        { r with consumer := .reading s1 left (update copy word ((r.slot r.next).rec_ word)) } := by
      rw [recv, here, consume]
    rw [iterate_succ_apply, stepped]
    exact ih rfl

/-- A push is in progress on the slot that the consumer, one whole ring behind, reads next. -/
def Blocked (r : CycleRing n W) : Prop := r.producer ≠ .idle ∧ r.head = r.next + r.cap

theorem Inv.resident_next (inv : r.Inv)
    (behind : r.next < r.head)
    (near : r.head ≤ r.next + r.cap)
    (free : ¬r.Blocked) : (r.slot r.next).seq = r.next := by
  obtain ⟨k, pow⟩ := inv.shared.pow
  have strict : r.producer ≠ .idle → r.head < r.next + r.cap := fun busy =>
    lt_of_le_of_ne near fun full => free ⟨busy, full⟩
  apply inv.shared.resident r.next (Nat.lt_add_right _ behind)
  · cases here : r.producer with
    | publishing => exact strict (by simp [here])
    | _ => exact near
  · intro record left here
    exact index_ne pow behind (strict (by simp [here]))

theorem load_clean (clean : (r.slot r.next).seq = r.next) (small : r.next < WRITING) :
    r.load order held = { r with consumer := .reading r.next order held } := by
  unfold load
  dsimp only
  rw [clean, and_writing small, if_neg (not_not.mpr rfl), if_neg (not_not.mpr rfl)]

theorem turn_returns (order : List (Fin n)) (held : PodRecord n W) (inv : r.Inv)
    (free : ¬r.Blocked)
    (top : r.consumer = .top) :
    ∃ steps ≤ order.length + 3, ∃ r', (recv order held)^[steps] r = r' ∧ r'.consumer = .top ∧
      r'.outcomes.length = r.outcomes.length + 1 ∧ (r.next < r.head → r.next < r'.next) := by
  have checked : recv order held r = r.check := by rw [recv, top, consume]
  by_cases caught : r.head ≤ r.next
  · refine ⟨1, by omega, _, rfl, ?_⟩
    rw [iterate_one, checked, check, if_pos caught]
    exact ⟨rfl, length_append, fun behind => absurd behind (not_lt.mpr caught)⟩
  by_cases far : r.cap < r.head - r.next
  · refine ⟨1, by omega, _, rfl, ?_⟩
    rw [iterate_one, checked, check, if_neg caught, if_pos far]
    exact ⟨rfl, length_append, fun _ => (show r.next < r.head - r.cap by omega)⟩
  · have resident := inv.resident_next (by omega) (by omega) free
    have small := inv.shared.next_lt (not_le.mp caught)
    have first : recv order held r = { r with consumer := .checked } := by
      rw [checked, check, if_neg caught, if_neg far]
    have second : recv order held { r with consumer := .checked } = { r with consumer := .reading r.next order held } :=
      load_clean resident small
    obtain ⟨r', reached, top, returned, _⟩ :=
      reading_ends order held (r := { r with consumer := .reading r.next order held }) rfl
    obtain ⟨next, outcomes⟩ := returned resident.symm
    refine ⟨order.length + 1 + 1 + 1, by omega, r', ?_, top, outcomes, fun _ => next ▸ Nat.lt_succ_self _⟩
    rw [iterate_succ_apply, iterate_succ_apply, first, second, reached]

def uncopied : Consumer n W → Nat
  | .reading _ left _ => left.length
  | _ => 0

theorem returns_of_free (order : List (Fin n)) (held : PodRecord n W) (inv : r.Inv)
    (covers : ∀ word, word ∈ order)
    (free : ¬r.Blocked) :
    ∃ steps ≤ uncopied r.consumer + order.length + 4, ∃ r', (recv order held)^[steps] r = r' ∧ r'.consumer = .top ∧
      r'.outcomes.length = r.outcomes.length + 1 := by
  -- a call in progress returns or comes back to the top of the loop, where nothing has changed
  have again : ∀ steps r', (recv order held)^[steps] r = r' → r'.consumer = .top → r'.next = r.next →
      r'.outcomes = r.outcomes →
      steps ≤ uncopied r.consumer + 1 → ∃ steps ≤ uncopied r.consumer + order.length + 4, ∃ r'',
        (recv order held)^[steps] r = r'' ∧ r''.consumer = .top ∧ r''.outcomes.length = r.outcomes.length + 1 := by
    intro steps r' reached top next outcomes short
    have same := Drains.untouched ⟨steps, reached⟩
    have free' : ¬r'.Blocked := by
      rw [Blocked, same.producer, same.head, next, cap, same.mask]
      exact free
    obtain ⟨more, _, r'', later, top, returned, _⟩ :=
      turn_returns order held (Drains.inv inv covers ⟨steps, reached⟩) free' top
    refine ⟨more + steps, by omega, r'', ?_, top, returned.trans (by rw [outcomes])⟩
    rw [iterate_add_apply, reached, later]
  cases here : r.consumer with
  | top => exact here ▸ again 0 r rfl here rfl rfl (Nat.zero_le _)
  | checked =>
    have stepped : recv order held r = r.load order held := by rw [recv, here, consume]
    by_cases clean : (r.slot r.next).seq = r.next
    · rw [load_clean clean (inv.shared.next_lt (inv.reader.checked here))] at stepped
      obtain ⟨r', reached, top, returned, _⟩ :=
        reading_ends order held (r := { r with consumer := .reading r.next order held }) rfl
      refine ⟨order.length + 1 + 1, by omega, r', ?_, top, (returned clean.symm).2⟩
      rw [iterate_succ_apply, stepped, reached]
    · have back : r.load order held = { r with consumer := .top } := by
        unfold load
        dsimp only
        split_ifs <;> rfl
      exact here ▸ again 1 _ (stepped.trans back) rfl rfl rfl (by omega)
  | reading s1 left copy =>
    obtain ⟨r', reached, top, returned, kept⟩ := reading_ends order held here
    by_cases same : s1 = (r.slot r.next).seq
    · exact ⟨left.length + 1, by simp only [uncopied]; omega, r', reached, top, (returned same).2⟩
    · obtain ⟨next, outcomes⟩ := kept same
      exact here ▸ again _ r' reached top next outcomes (by rw [here, uncopied])

def Spins (r r' : CycleRing n W) : Prop :=
  Untouched r r' ∧ r'.next = r.next ∧ r'.outcomes = r.outcomes ∧ ∀ s1 left copy, r'.consumer = .reading s1 left copy →
    s1 = r.next

theorem Inv.blocked_seq (inv : r.Inv) (blocked : r.Blocked) : (r.slot r.next).seq ≠ r.next := by
  obtain ⟨k, pow⟩ := inv.shared.pow
  obtain ⟨busy, full⟩ := blocked
  have positive : 0 < r.cap := Nat.succ_pos r.mask
  have same : r.slot r.next = r.slot r.head := by
    rw [slot, slot, index_eq_mod pow, index_eq_mod pow, full, Nat.add_mod_right]
  have small := inv.shared.next_lt (show r.next < r.head by omega)
  rw [same]
  cases here : r.producer with
  | idle => exact absurd here busy
  | writing record left =>
    have marked := (inv.shared.writing record left here).1
    omega
  | publishing =>
    have published := inv.shared.resident r.head (by simp [here, ahead]) (by simp [here, ahead]; omega) (by simp [here])
    omega

theorem spins_of_blocked (inv : r.Inv)
    (blocked : r.Blocked)
    (order : List (Fin n)) (held : PodRecord n W) (steps : Nat) : Spins r ((recv order held)^[steps] r) := by
  have occupied := inv.blocked_seq blocked
  induction steps with
  | zero =>
    exact ⟨⟨rfl, rfl, rfl, rfl, rfl⟩, rfl, rfl, fun s1 left copy here => (inv.reader.reading s1 left copy here).1⟩
  | succ steps ih =>
    rw [iterate_succ_apply']
    generalize (recv order held)^[steps] r = r' at ih
    obtain ⟨same, next, outcomes, reading⟩ := ih
    have seq : (r'.slot r'.next).seq ≠ r.next := by rwa [same.slot, next]
    have lag : ¬r'.head ≤ r'.next ∧ ¬r'.cap < r'.head - r'.next := by
      rw [same.head, next, cap, same.mask, blocked.2]
      exact ⟨by simp [cap], by simp [cap]⟩
    refine ⟨same.trans (recv_untouched order held r'), ?_⟩
    cases here : r'.consumer with
    | top =>
      rw [recv, here, consume, check, if_neg lag.1, if_neg lag.2]
      exact ⟨next, outcomes, nofun⟩
    | checked =>
      rw [recv, here, consume, load]
      split_ifs with marked other
      · exact ⟨next, outcomes, nofun⟩
      · exact ⟨next, outcomes, nofun⟩
      · exact absurd (not_not.mp other) (next ▸ seq)
    | reading s1 left copy =>
      have mine := reading s1 left copy here
      cases left with
      | cons word left =>
        rw [recv, here]
        refine ⟨next, outcomes, ?_⟩
        rintro _ _ _ ⟨⟩
        exact mine
      | nil =>
        rw [recv, here, consume, reload, if_pos (mine ▸ seq.symm)]
        exact ⟨next, outcomes, nofun⟩

theorem drains_empty {r : CycleRing n W} (held : PodRecord n W)
    (covers : ∀ word, word ∈ order)
    (inv : r.Inv)
    (idle : r.producer = .idle)
    (top : r.consumer = .top) :
    ∃ r', Drains order held r r' ∧ r'.outcomes.getLast? = some .empty ∧ r'.next = r'.head := by
  rcases lt_or_ge r.next r.head with behind | caught
  · obtain ⟨steps, _, r₁, reached, top, _, _⟩ := turn_returns order held inv (fun blocked => blocked.1 idle) top
    have turn : Drains order held r r₁ := ⟨steps, reached⟩
    have same := turn.untouched
    have closer : r₁.head - r₁.next < r.head - r.next := by
      rw [same.head]
      omega
    obtain ⟨r', rest, empty⟩ := drains_empty held covers (turn.inv inv covers) (same.producer.trans idle) top
    exact ⟨r', turn.trans rest, empty⟩
  · refine ⟨_, .step r, ?_⟩
    rw [recv, top, consume, check, if_pos caught]
    exact ⟨getLast?_concat, le_antisymm inv.reader.next caught⟩
termination_by r.head - r.next

theorem caught_up_of_empty (returned : (recv order held r).outcomes = r.outcomes ++ [.empty]) : r.head ≤ r.next := by
  have silent : r.outcomes ≠ r.outcomes ++ [.empty] := fun same => absurd (congrArg length same) (by simp)
  unfold recv at returned
  cases here : r.consumer with
  | top =>
    rw [here, consume, check] at returned
    split_ifs at returned with caught far
    · exact caught
    · cases (append_inj' returned rfl).2
    · exact absurd returned silent
  | checked =>
    rw [here, consume, load] at returned
    split_ifs at returned <;> exact absurd returned silent
  | reading s1 left copy =>
    cases left with
    | cons word left =>
      rw [here] at returned
      exact absurd returned silent
    | nil =>
      rw [here, consume, reload] at returned
      split_ifs at returned
      · exact absurd returned silent
      · cases (append_inj' returned rfl).2

end Draining

/-- A returned record is that of one push, none is returned twice or out of order, and the rest is reported. -/
theorem ring_accounts_for_pushes {capacity : Nat} {blank : PodRecord n W} {history : List (RingAction n W)}
    {r : CycleRing n W}
    (run : Run Step (withCapacity capacity blank) history r) :
    r.records.Sublist (r.pushed.take r.head) ∧ r.summary.written + r.summary.lapped = r.next ∧
      (r.producer = .idle → (∀ order held r', r.Step (.consume order held) r' → r'.outcomes = r.outcomes ++ [.empty] →
      r'.summary.written + r'.summary.lapped = r.pushed.length) ∧ ∀ order held, (∀ word, word ∈ order) →
      ∃ steps r', Run Step r (List.replicate steps (.consume order held)) r' ∧ r'.outcomes.getLast? = some .empty ∧
      r'.summary.written + r'.summary.lapped = r.pushed.length) := by
  have inv : r.Inv := run.invariant (withCapacity_inv capacity blank) fun _ _ _ inv step => inv.step step
  refine ⟨inv.delivered.records.trans (take_prefix_take_left inv.reader.next).sublist, inv.delivered.total, ?_⟩
  intro idle
  have count : r.pushed.length = r.head := by rw [inv.shared.count, idle]; rfl
  constructor
  · intro order held r' step returned
    obtain ⟨_, same⟩ := ite_none_right_eq_some.mp step.1
    cases same
    have caught := caught_up_of_empty returned
    have same : (recv order held r).summary = r.summary := by
      rw [summary, show (recv order held r).outcomes = _ from returned, foldl_concat]
      rfl
    rw [show (r.consume order held r.consumer).summary = _ from same, inv.delivered.total, count]
    exact le_antisymm inv.reader.next caught
  · intro order held covers
    obtain ⟨steps, _, r₁, reached, top, _⟩ := returns_of_free order held inv covers fun blocked => blocked.1 idle
    have first : Drains order held r r₁ := ⟨steps, reached⟩
    have same := first.untouched
    obtain ⟨r', second, empty, caught⟩ := drains_empty held covers (first.inv inv covers) (same.producer.trans idle) top
    have whole := first.trans second
    obtain ⟨steps, run⟩ := whole.run covers inv.shared.few
    refine ⟨steps, r', run, empty, ?_⟩
    rw [(whole.inv inv covers).delivered.total, caught, whole.untouched.head, count]

def follow (capacity : Nat) (blank : PodRecord n W) (history : List (RingAction n W)) : Option (CycleRing n W) :=
  Run.follow (fun r action => (act r action).filter fun r' => r'.pushed.length < WRITING) (withCapacity capacity blank)
    history

theorem followed_run {β : Type} {blank : PodRecord n W} {history : List (RingAction n W)} {capacity : Nat}
    {facts : CycleRing n W → β} {found : β} (follows : (follow capacity blank history).map facts = some found) :
    ∃ r, Run Step (withCapacity capacity blank) history r ∧ facts r = found := by
  obtain ⟨r, reached, found⟩ := map_eq_some_iff.mp follows
  refine ⟨r, (Run.of_follow reached).mono fun _ _ _ step => ?_, found⟩
  obtain ⟨acted, few⟩ := filter_eq_some_iff.mp step
  exact ⟨acted, of_decide_eq_true few⟩

def threePushes : List (RingAction 2 Nat) :=
  [1, 2, 3].flatMap (fun k => RingAction.push (fun _ => k) [0, 1] :: List.replicate 4 .produce) ++
    [.consume [0, 1] fun _ => 0]

theorem threePushes_accounted : ∃ r, Run Step (withCapacity 2 fun _ => 0) threePushes r ∧ r.summary = ⟨0, 1⟩ ∧
      ∃ steps r', Run Step r (List.replicate steps (.consume [0, 1] fun _ => 0)) r' ∧
        r'.outcomes.getLast? = some .empty ∧ r'.summary.written + r'.summary.lapped = 3 := by
  have follows : (follow 2 (fun _ => 0) threePushes).map (fun r => (r.summary, r.producer.isIdle, r.pushed.length)) =
      some (⟨0, 1⟩, true, 3) := by
    decide +kernel
  obtain ⟨r, run, facts⟩ := followed_run follows
  simp only [Prod.mk.injEq] at facts
  obtain ⟨summary, idle, pushed⟩ := facts
  obtain ⟨steps, r', drained, empty, total⟩ :=
    ((ring_accounts_for_pushes run).2.2 (idle_of_isIdle idle)).2 [0, 1] (fun _ => 0) (by decide)
  exact ⟨r, run, summary, steps, r', drained, empty, pushed ▸ total⟩

/-- A call returns after boundedly many steps unless the producer stopped in a push to the slot it waits for. -/
theorem try_recv_returns_unless_blocked {capacity : Nat} {blank : PodRecord n W} {history : List (RingAction n W)}
    {r : CycleRing n W}
    (run : Run Step (withCapacity capacity blank) history r)
    (order : List (Fin n)) (held : PodRecord n W)
    (covers : ∀ word, word ∈ order) :
    (¬r.Blocked → ∃ steps ≤ uncopied r.consumer + order.length + 4,
      ((recv order held)^[steps] r).outcomes.length = r.outcomes.length + 1) ∧
      (r.Blocked → ∀ steps, ((recv order held)^[steps] r).outcomes = r.outcomes) := by
  have inv : r.Inv := run.invariant (withCapacity_inv capacity blank) fun _ _ _ inv step => inv.step step
  constructor
  · intro free
    obtain ⟨steps, few, _, reached, _, returned⟩ := returns_of_free order held inv covers free
    exact ⟨steps, few, reached ▸ returned⟩
  · intro blocked steps
    exact (spins_of_blocked inv blocked order held steps).2.2.1

theorem lapped_consumer_returns :
    ∃ r, Run Step (withCapacity 2 fun _ => 0) threePushes r ∧
      ∃ steps ≤ 6, ((recv [0, 1] fun _ => 0)^[steps] r).outcomes.length = 2 := by
  have follows : (follow 2 (fun _ => 0) threePushes).map
      (fun r => (r.producer.isIdle, uncopied r.consumer, r.outcomes.length)) = some (true, 0, 1) := by
    decide +kernel
  obtain ⟨r, run, facts⟩ := followed_run follows
  simp only [Prod.mk.injEq] at facts
  obtain ⟨idle, left, outcomes⟩ := facts
  have free : ¬r.Blocked := fun blocked => blocked.1 (idle_of_isIdle idle)
  obtain ⟨steps, few, returned⟩ := (try_recv_returns_unless_blocked run [0, 1] (fun _ => 0) (by decide)).1 free
  exact ⟨r, run, steps, by simpa [left] using few, returned.trans (by rw [outcomes])⟩

def thirdPush : List (RingAction 2 Nat) :=
  [1, 2].flatMap (fun k => RingAction.push (fun _ => k) [0, 1] :: List.replicate 4 .produce) ++
    [.push (fun _ => 3) [0, 1]]

theorem suspended_push_blocks : ∃ r, Run Step (withCapacity 2 fun _ => 0) thirdPush r ∧
    ∀ order held steps, ((recv order held)^[steps] r).outcomes = [] := by
  have follows : (follow 2 (fun _ => 0) thirdPush).map
      (fun r => (r.producer.isIdle, r.head, r.next, r.mask, r.outcomes.length)) = some (false, 2, 0, 1, 0) := by
    decide +kernel
  obtain ⟨r, run, facts⟩ := followed_run follows
  simp only [Prod.mk.injEq] at facts
  obtain ⟨busy, head, next, mask, outcomes⟩ := facts
  have inv : r.Inv := run.invariant (withCapacity_inv 2 _) fun _ _ _ inv step => inv.step step
  have blocked : r.Blocked := by
    refine ⟨fun idle => ?_, by rw [head, next, cap, mask]⟩
    rw [idle] at busy
    cases busy
  refine ⟨r, run, fun order held steps => ?_⟩
  rw [(spins_of_blocked inv blocked order held steps).2.2.1]
  exact length_eq_zero_iff.mp outcomes

end CycleRing

end Taktora.Telemetry
