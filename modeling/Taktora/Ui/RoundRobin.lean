import Mathlib.Data.Nat.ModEq
import Taktora.Lib.Run

namespace Taktora.Ui

open Function List

abbrev RawSample := List UInt8 × List UInt8

/-- What `try_recv_into` makes of an envelope: a request, a frame dropped for its checksum, or an error. -/
abbrev Receipt := Except String (Option RawSample)

structure CommandInvocation where
  name : String
  params : List UInt8

/-- The registered commands with the queues of their request readers. -/
structure IoxCommandTransport where
  names : List String
  queue : Nat → List Receipt
  pending : List UInt8 → Option Nat
  cursor : Nat
  inside : 0 < names.length → cursor < names.length

namespace IoxCommandTransport

def scan (count cursor : Nat) : List Nat → (Nat → List Receipt) → Option (Nat × RawSample) × (Nat → List Receipt)
  | [], queue => (none, queue)
  | offset :: offsets, queue =>
    let idx := (cursor + offset) % count
    match queue idx with
    | [] => scan count cursor offsets queue
    | .ok (some sample) :: left => (some (idx, sample), update queue idx left)
    | _ :: left => scan count cursor offsets (update queue idx left)

def scanned (t : IoxCommandTransport) : Option (Nat × RawSample) × (Nat → List Receipt) :=
  scan t.names.length t.cursor (range t.names.length) t.queue

def tryRecv (t : IoxCommandTransport) : Option (List UInt8 × CommandInvocation) × IoxCommandTransport :=
  match t.scanned.1 with
  | some (idx, sample) =>
    (some (sample.1, ⟨t.names.getD idx "", sample.2⟩),
      { t with
        queue := t.scanned.2, cursor := (idx + 1) % t.names.length, inside := Nat.mod_lt _
        pending := update t.pending sample.1 (some idx) })
  | none => (none, { t with queue := t.scanned.2 })

inductive Event where
  | arrived (port : Nat) (receipt : Receipt)
  | received (taken : Option (Nat × RawSample))

def Event.port? : Event → Option Nat
  | arrived _ _ => none
  | received taken => taken.map Prod.fst

def ports (history : List Event) : List Nat := history.filterMap Event.port?

inductive Step (t : IoxCommandTransport) : Event → IoxCommandTransport → Prop where
  | arrived {port receipt} :
      Step t (.arrived port receipt) { t with queue := update t.queue port (t.queue port ++ [receipt]) }
  | received : Step t (.received t.scanned.1) t.tryRecv.2

/-- Port `q` comes `d` after the port the next scan begins with, and has a request at its head. -/
structure Asks (t : IoxCommandTransport) (q d : Nat) (sample : RawSample) : Prop where
  port : (t.cursor + d) % t.names.length = q
  near : d < t.names.length
  head : (t.queue q).head? = some (.ok (some sample))

theorem scan_asks {count cursor q d k m : Nat} {queue : Nat → List Receipt} {sample : RawSample}
    (port : (cursor + d) % count = q)
    (near : d < count)
    (head : (queue q).head? = some (.ok (some sample)))
    (whole : k + m = count)
    (start : k ≤ d) :
    (scan count cursor (range' k m) queue).1 = some (q, sample) ∨
      ∃ offset < d, ∃ other, (scan count cursor (range' k m) queue).1 = some ((cursor + offset) % count, other) ∧
      (cursor + offset) % count ≠ q ∧ ((scan count cursor (range' k m) queue).2 q).head? =
      some (.ok (some sample)) := by
  induction m generalizing k queue with
  | zero => omega
  | succ m ih =>
    rw [range'_succ, scan]
    rcases Nat.eq_or_lt_of_le start with first | later
    · rcases head?_eq_some_iff.mp head with ⟨left, held⟩
      rw [first, port]
      simp [held]
    have other : q ≠ (cursor + k) % count := by
      intro same
      have equal : cursor + d ≡ cursor + k [MOD count] := port.trans same
      have := (Nat.ModEq.add_left_cancel' cursor equal).eq_of_lt_of_lt near (by omega)
      omega
    split
    · exact ih head (by omega) later
    · exact .inr ⟨k, later, _, rfl, other.symm, by simpa [other] using head⟩
    · exact ih (by simpa [other] using head) (by omega) later

variable {t s s' : IoxCommandTransport} {q d : Nat} {sample : RawSample} {history : List Event} {event : Event}

/-- A receive takes the request, or one of a port that comes before. -/
theorem Asks.received
    (asks : t.Asks q d sample) :
    t.scanned.1 = some (q, sample) ∨ ∃ offset < d, ∃ other, t.scanned.1 =
      some ((t.cursor + offset) % t.names.length, other) ∧ (t.cursor + offset) % t.names.length ≠ q ∧
      t.tryRecv.2.names = t.names ∧ t.tryRecv.2.cursor = (t.cursor + (offset + 1)) % t.names.length ∧
      t.tryRecv.2.Asks q (d - (offset + 1)) sample := by
  have found := scan_asks asks.port asks.near asks.head (zero_add _) (Nat.zero_le _)
  rw [← range_eq_range'] at found
  rcases found with found | ⟨offset, before, other, found, apart, kept⟩
  · exact .inl found
  have cursor : ((t.cursor + offset) % t.names.length + 1) % t.names.length =
      (t.cursor + (offset + 1)) % t.names.length := by rw [Nat.mod_add_mod, add_assoc]
  refine .inr ⟨offset, before, other, found, apart, ?_⟩
  rw [tryRecv, scanned, found]
  refine ⟨rfl, cursor, ?_, by have := asks.near; dsimp only; omega, kept⟩
  dsimp only
  rw [cursor, Nat.mod_add_mod, add_assoc, Nat.add_sub_of_le before, asks.port]

theorem ports_snoc : ports (history ++ [event]) = ports history ++ event.port?.toList := by
  rw [ports, filterMap_append, filterMap_cons]
  cases event.port? <;> rfl

/-- The scans since `t` have moved on by `moved` ports, and have not reached the request yet. -/
structure Waits (t : IoxCommandTransport) (q d : Nat) (sample : RawSample) (history : List Event)
    (s : IoxCommandTransport) (moved : Nat) : Prop where
  names : s.names = t.names
  cursor : s.cursor = (t.cursor + moved) % t.names.length
  taken : (ports history).length ≤ moved
  short : moved ≤ d
  asks : s.Asks q (d - moved) sample

theorem Waits.step {moved : Nat}
    (waits : t.Waits q d sample history s moved)
    (step : s.Step event s')
    (unserved : event.port? ≠ some q) :
    ∃ moved', t.Waits q d sample (history ++ [event]) s' moved' := by
  rcases waits with ⟨names, cursor, taken, short, asks⟩
  cases step with
  | @arrived port receipt =>
    refine ⟨moved, names, cursor, by simpa [ports_snoc, Event.port?] using taken, short, asks.port, asks.near, ?_⟩
    rcases head?_eq_some_iff.mp asks.head with ⟨left, held⟩
    by_cases same : q = port
    · subst same
      simp [held]
    · simpa [same] using asks.head
  | received =>
    rcases asks.received with served | ⟨offset, before, other, served, _, names', cursor', asks'⟩
    · exact absurd (by rw [Event.port?, served]; rfl) unserved
    refine ⟨moved + (offset + 1), names'.trans names, ?_, ?_, by omega, by rwa [← Nat.sub_sub]⟩
    · rw [cursor', names, cursor, Nat.mod_add_mod, add_assoc]
    · simp [ports_snoc, Event.port?, served]
      omega

theorem Asks.waits
    (asks : t.Asks q d sample)
    (run : Run Step t history s)
    (unserved : q ∉ ports history) :
    ∃ moved, t.Waits q d sample history s moved := by
  induction run with
  | nil =>
    have start := t.inside (by have := asks.near; omega)
    exact ⟨0, rfl, (Nat.mod_eq_of_lt start).symm, Nat.le_refl 0, Nat.zero_le d, asks⟩
  | snoc before last ih =>
    rw [ports_snoc, mem_append, not_or, Option.mem_toList] at unserved
    rcases ih unserved.1 with ⟨moved, waits⟩
    exact waits.step last unserved.2

/-- A request at the head of a port is taken before as many others as there are ports, and before a second one of
the port that was served last. -/
theorem round_robin_is_fair
    (run : Run Step t history s)
    (port : q < t.names.length)
    (head : (t.queue q).head? = some (.ok (some sample))) :
    (q ∉ ports history → (ports history).length < t.names.length ∧ ∀ other, s.scanned.1 = some (q, other) →
      other = sample) ∧ ∀ (earlier : IoxCommandTransport) (p : Nat) (x y : RawSample), earlier.scanned.1 = some (p, x) →
      earlier.tryRecv.2 = t → p ≠ q → s.scanned.1 = some (p, y) → q ∈ ports history := by
  have start := t.inside (by omega)
  obtain ⟨d, near, there⟩ : ∃ d < t.names.length, (t.cursor + d) % t.names.length = q := by
    by_cases low : t.cursor ≤ q
    · exact ⟨q - t.cursor, by omega, by rw [Nat.add_sub_of_le low, Nat.mod_eq_of_lt port]⟩
    · refine ⟨q + t.names.length - t.cursor, by omega, ?_⟩
      rw [Nat.add_sub_of_le (by omega), Nat.add_mod_right, Nat.mod_eq_of_lt port]
  have asks : t.Asks q d sample := ⟨there, near, head⟩
  constructor
  · intro unserved
    rcases asks.waits run unserved with ⟨moved, waits⟩
    refine ⟨waits.taken.trans_lt (waits.short.trans_lt near), ?_⟩
    intro other taken
    rcases waits.asks.received with first | ⟨_, _, _, first, apart, _⟩
    all_goals
      rw [taken] at first
      cases first
    · rfl
    · exact absurd rfl apart
  · intro earlier p x y served next different again
    by_contra unserved
    rcases asks.waits run unserved with ⟨moved, waits⟩
    have last : t.cursor = (p + 1) % t.names.length := by rw [← next, tryRecv, served]
    rcases waits.asks.received with first | ⟨offset, before, _, first, _⟩
    all_goals
      rw [again] at first
      cases first
    · exact different rfl
    rw [waits.names, waits.cursor, Nat.mod_add_mod, add_assoc, Nat.mod_add_mod, add_assoc] at last
    have round : t.cursor + 0 ≡ t.cursor + (moved + (offset + 1)) [MOD t.names.length] :=
      (Nat.mod_eq_of_lt start).trans last
    have := (Nat.ModEq.add_left_cancel' _ round).eq_of_lt_of_lt (by omega) (by omega)
    omega

def envelope (id : UInt8) : Receipt := .ok (some ([id], []))

def twoPorts (first second : List Receipt) : IoxCommandTransport where
  names := ["start", "stop"]
  queue port := if port = 0 then first else second
  pending _ := none
  cursor := 0
  inside _ := by decide

/-- The first frame of the second port is corrupt: the first port is served twice while a request waits there. -/
theorem corrupt_frame_costs_the_turn :
    let t := twoPorts [envelope 1, envelope 2] [.ok none, envelope 3]
    t.tryRecv.2.scanned.1 = some (0, [2], []) ∧ t.scanned.1 = some (0, [1], []) ∧
      t.tryRecv.2.queue 1 = [.ok none, envelope 3] ∧ t.tryRecv.2.tryRecv.2.queue 1 = [envelope 3] := by
  decide

theorem second_port_is_served :
    let earlier := twoPorts [envelope 1, envelope 2] [envelope 3]
    let t := earlier.tryRecv.2
    ∃ history, Run Step t history t.tryRecv.2 ∧ earlier.scanned.1 = some (0, [1], []) ∧
      t.tryRecv.2.scanned.1 = some (0, [2], []) ∧ 1 ∈ ports history ∧
      ∀ other, t.scanned.1 = some (1, other) → other = ([3], []) := by
  intro earlier t
  have run : Run Step t _ t.tryRecv.2 := .snoc .nil .received
  have first := (round_robin_is_fair (t := t) (q := 1) .nil (by decide) rfl).1 not_mem_nil
  exact ⟨_, run, by decide, by decide,
    (round_robin_is_fair (q := 1) run (by decide) rfl).2 earlier 0 ([1], []) ([2], []) (by decide) rfl
      (by decide) (by decide), first.2⟩

end IoxCommandTransport
end Taktora.Ui
