import Taktora.J1939.Tp.Inbound

namespace Taktora.J1939

open Checked Packets List

def dataOf (kind : SessionKind) (source : UInt8) : TpInput × List TpEvent → Option (List UInt8)
  | (.frame decoded (_ :: rest) _, _) =>
    if dataKind decoded = some kind ∧ decoded.sourceAddr = source then some rest else none
  | _ => none

def carried (carriers : List (List UInt8)) : List UInt8 := (carriers.map fun rest => rest.take tpDtDataLen).flatten

/-- The last accepted announcement for the key of `a`, and some of the data frames that followed it. -/
def Opening (history : List (TpInput × List TpEvent)) (a : Announcement) (carriers : List (List UInt8)) : Prop :=
  ∃ before opening after, history = before ++ opening :: after ∧ opening.1.announced = some a ∧ opening.2 = [] ∧
    (∀ call ∈ after, ∀ a', call.1.announced = some a' → a'.kind = a.kind → a'.key = a.key → call.2 ≠ []) ∧
    carriers.Sublist (after.filterMap (dataOf a.kind a.key.1))

theorem Opening.start {history : List (TpInput × List TpEvent)} {i : TpInput} {a : Announcement}
    (announced : i.announced = some a) : Opening (history ++ [(i, [])]) a [] :=
  ⟨history, (i, []), [], rfl, announced, rfl, nofun, Sublist.refl _⟩

section Extension

variable {history : List (TpInput × List TpEvent)} {a : Announcement} {carriers : List (List UInt8)}
  {call : TpInput × List TpEvent}

variable (opening : Opening history a carriers)
include opening

variable (other : ∀ a', call.1.announced = some a' → a'.kind = a.kind →
    a'.key = a.key → call.2 ≠ [])
include other

theorem Opening.extend {carriers' : List (List UInt8)}
    (grows : ∀ earlier, carriers.Sublist earlier →
      carriers'.Sublist (earlier ++ [call].filterMap (dataOf a.kind a.key.1))) :
    Opening (history ++ [call]) a carriers' := by
  obtain ⟨before, opened, after, rfl, announced, quiet, latest, sub⟩ := opening
  refine ⟨before, opened, after ++ [call], by simp, announced, quiet, ?_, ?_⟩
  · intro later member
    rcases mem_append.mp member with member | member
    · exact latest later member
    · obtain rfl := mem_singleton.mp member
      exact other
  · rw [filterMap_append]
    exact grows _ sub

theorem Opening.pass : Opening (history ++ [call]) a carriers :=
  opening.extend other fun _ sub => sub.trans (sublist_append_left _ _)

theorem Opening.carry {rest : List UInt8} (data : dataOf a.kind a.key.1 call = some rest) :
    Opening (history ++ [call]) a (carriers ++ [rest]) := by
  refine opening.extend other fun _ sub => ?_
  rw [filterMap_cons_some data]
  exact sub.append_right _

end Extension

/-- The session grew out of an opening: what it has received is what the data frames since then carried. -/
structure Traced (history : List (TpInput × List TpEvent)) (a : Announcement) (carriers : List (List UInt8))
    (r : Reassembly) : Prop where
  opening : Opening history a carriers
  size : r.totalSize = a.totalSize
  received : r.received = carried carriers
  full : r.received.length = tpDtDataLen * (r.next - 1)

namespace TpEngine

/-- A data frame that a session of its source expects is too short to hold the packet. -/
def Starves (e : TpEngine) (i : TpInput) : Prop :=
  ∃ decoded seq rest now kind key r, i = .frame decoded (seq :: rest) now ∧ dataKind decoded = some kind ∧
    decoded.sourceAddr = key.1 ∧ e.inbound kind key = some r ∧ r.Expects seq ∧
    rest.length < min (r.totalSize - tpDtDataLen * (r.next - 1)) tpDtDataLen

def FedStep (e : TpEngine) (call : TpInput × List TpEvent) (e' : TpEngine) : Prop :=
  e.Step call e' ∧ ¬ e.Starves call.1

def FullyTraced (history : List (TpInput × List TpEvent)) (e : TpEngine) : Prop :=
  ∀ kind key r, e.inbound kind key = some r →
    ∃ a carriers, a.kind = kind ∧ a.key = key ∧ Traced history a carriers r

end TpEngine

theorem carried_snoc (carriers : List (List UInt8)) (rest : List UInt8) :
    carried (carriers ++ [rest]) = carried carriers ++ rest.take tpDtDataLen := by
  simp [carried]

section Growth

variable {history : List (TpInput × List TpEvent)} {a : Announcement} {carriers : List (List UInt8)} {r : Reassembly}
  {rest : List UInt8}

theorem Traced.accept
    (traced : Traced history a carriers r)
    (positive : 1 ≤ r.next)
    (inside : tpDtDataLen * r.next ≤ r.totalSize)
    (enough : min (r.totalSize - tpDtDataLen * (r.next - 1)) tpDtDataLen ≤ rest.length)
    (kind : SessionKind) :
    (r.accept kind rest).received = carried (carriers ++ [rest]) ∧
      (r.accept kind rest).received.length = tpDtDataLen * r.next := by
  have whole : min (r.totalSize - tpDtDataLen * (r.next - 1)) tpDtDataLen = tpDtDataLen := by
    simp only [tpDtDataLen] at inside ⊢
    omega
  rw [← traced.full] at enough whole
  have received : (r.accept kind rest).received = carried (carriers ++ [rest]) := by
    simp only [Reassembly.accept]
    rw [chunk_full enough, whole, carried_snoc, traced.received]
  refine ⟨received, ?_⟩
  rw [received, carried_snoc, length_append, ← traced.received, traced.full, length_take]
  rw [whole] at enough
  simp only [tpDtDataLen] at enough ⊢
  omega

theorem Traced.complete
    (traced : Traced history a carriers r)
    (last : r.totalSize ≤ tpDtDataLen * r.next)
    (start : tpDtDataLen * (r.next - 1) ≤ r.totalSize)
    (positive : 1 ≤ r.next)
    (enough : min (r.totalSize - tpDtDataLen * (r.next - 1)) tpDtDataLen ≤ rest.length)
    (kind : SessionKind) :
    (r.accept kind rest).received = (carried (carriers ++ [rest])).take a.totalSize ∧
      (r.accept kind rest).received.length = a.totalSize := by
  have whole : min (r.totalSize - tpDtDataLen * (r.next - 1)) tpDtDataLen =
      r.totalSize - tpDtDataLen * (r.next - 1) := by
    simp only [tpDtDataLen] at last ⊢
    omega
  have exact_ := traced.full
  rw [← exact_] at enough whole start
  have received : (r.accept kind rest).received = r.received ++ rest.take (r.totalSize - r.received.length) := by
    simp only [Reassembly.accept]
    rw [chunk_full enough, whole]
  refine ⟨?_, ?_⟩
  · rw [received, carried_snoc, ← traced.received, ← traced.size, take_append, take_of_length_le start, take_take]
    congr 2
    omega
  · rw [received, length_append, length_take, ← traced.size]
    omega

end Growth

namespace TpEngine

variable {history : List (TpInput × List TpEvent)} {e : TpEngine}

theorem FullyTraced.step {e' : TpEngine} {call : TpInput × List TpEvent}
    (traced : FullyTraced history e)
    (wf : e.WellFormed)
    (step : e.FedStep call e') : FullyTraced (history ++ [call]) e' := by
  intro kind key r' held'
  obtain ⟨_, reordered, effect⟩ := step.1.effect
  by_cases reopened : ∃ a, call.1.announced = some a ∧ a.kind = kind ∧ a.key = key ∧ call.2 = []
  · obtain ⟨a, announced, rfl, rfl, quiet⟩ := reopened
    rcases effect.announced announced with ⟨_, _, opened, _⟩ | ⟨_, loud, _⟩
    · cases opened.symm.trans held'
      obtain ⟨i, events⟩ := call
      obtain rfl : events = [] := quiet
      exact ⟨a, [], rfl, rfl, Opening.start announced, rfl, rfl, rfl⟩
    · exact absurd quiet loud
  have other (a : Announcement) (kind_eq : a.kind = kind) (key_eq : a.key = key) (a' : Announcement)
      (announced : call.1.announced = some a') (kind' : a'.kind = a.kind) (key' : a'.key = a.key) : call.2 ≠ [] :=
    fun quiet => reopened ⟨a', announced, kind'.trans kind_eq, key'.trans key_eq, quiet⟩
  have advance := effect.advance (wf.reordered reordered) kind key
  rw [reordered.inbound, held'] at advance
  generalize before : e.inbound kind key = old at advance
  cases advance with
  | kept | rebased =>
    obtain ⟨a, carriers, kind_eq, key_eq, trace⟩ := traced kind key _ before
    exact ⟨a, carriers, kind_eq, key_eq, { trace with opening := trace.opening.pass (other a kind_eq key_eq) }⟩
  | opened old frame announced admitted kind_eq key_eq quiet =>
    exact absurd ⟨_, by rw [frame]; exact announced, kind_eq, key_eq, quiet⟩ reopened
  | accepted frame data source expected more quiet =>
    rename_i decoded seq rest now r
    obtain ⟨a, carriers, kind_eq, key_eq, trace⟩ := traced kind key _ before
    obtain ⟨size, packets, positive, _⟩ := wf.inbound before
    have enough : min (r.totalSize - tpDtDataLen * (r.next - 1)) tpDtDataLen ≤ rest.length :=
      Nat.le_of_not_lt fun short => step.2 ⟨decoded, seq, rest, now, kind, key, r, frame, data, source, before,
        expected, short⟩
    have inside := packetsFor_short (p := r.next + 1) size (by rw [← packets]; exact more)
    obtain ⟨received, full⟩ := trace.accept positive (by simp only [tpDtDataLen]; omega) enough kind
    refine ⟨a, carriers ++ [rest], kind_eq, key_eq, trace.opening.carry (other a kind_eq key_eq) ?_, trace.size,
      received, full⟩
    obtain ⟨i, _⟩ := call
    obtain rfl : i = _ := frame
    simp only [dataOf, kind_eq, key_eq, data, source, and_self, ite_true]

theorem fed_run_traced {start : TpEngine}
    (wf : start.WellFormed)
    (fresh : ∀ kind key, start.inbound kind key = none)
    (run : Run FedStep start history e) : e.WellFormed ∧ FullyTraced history e := by
  refine run.invariant_history (I := fun history e => e.WellFormed ∧ FullyTraced history e) ⟨wf, ?_⟩ ?_
  · intro kind key r held
    cases (fresh kind key).symm.trans held
  · rintro _ s _ _ ⟨wf, traced⟩ step
    exact ⟨wf.step step.1, traced.step wf step⟩

theorem not_starves_full {decoded : DecodedId} {data : List UInt8} {now : Nat} (full : data.length = 8) :
    ¬ e.Starves (.frame decoded data now) := by
  rintro ⟨_, _, _, _, _, _, r, frame, _, _, _, _, short⟩
  cases frame
  simp only [length_cons, tpDtDataLen] at full short
  omega

/-- If no data frame is too short, a completed message consists of the announced number of bytes sent. -/
theorem completed_message_is_whole (timers : TpTimers) (maxSessions : Nat) (window : UInt8) (limit : Nat)
    (history : List (TpInput × List TpEvent)) (e e' : TpEngine) (call : TpInput × List TpEvent)
    (run : Run FedStep (configured timers maxSessions window limit) history e)
    (step : e.FedStep call e')
    (pgn : Pgn) (source : UInt8) (payload : List UInt8)
    (reported : .completed pgn source payload ∈ call.2) :
    ∃ a carriers, a.key = (source, pgn) ∧ Opening (history ++ [call]) a carriers ∧ payload.length = a.totalSize ∧
      payload = (carried carriers).take a.totalSize := by
  obtain ⟨wf, traced⟩ := fed_run_traced (configured_wellFormed timers maxSessions window limit)
    (configured_inbound timers maxSessions window limit) run
  obtain ⟨kind, decoded, seq, rest, now, r, frame, data, sent, held, expected, last, rfl⟩ :=
    step.1.completes wf reported
  obtain ⟨a, carriers, rfl, key_eq, trace⟩ := traced kind (source, pgn) r held
  obtain ⟨size, packets, positive, inside⟩ := wf.inbound held
  have enough : min (r.totalSize - tpDtDataLen * (r.next - 1)) tpDtDataLen ≤ rest.length :=
    Nat.le_of_not_lt fun short => step.2 ⟨decoded, seq, rest, now, a.kind, (source, pgn), r, frame, data, sent, held,
      expected, short⟩
  have covers := packetsFor_covers r.totalSize
  have start := packetsFor_short size (packets ▸ inside)
  rw [← packets] at covers
  rw [mul_comm] at covers start
  obtain ⟨whole, length⟩ := trace.complete (le_trans covers (Nat.mul_le_mul_left 7 last))
    (le_of_lt start) positive enough a.kind
  refine ⟨a, carriers ++ [rest], key_eq, trace.opening.carry ?_ ?_, length, whole⟩
  · intro a' announced
    rw [frame] at announced
    cases (announcement_data data _).symm.trans announced
  · obtain ⟨i, _⟩ := call
    obtain rfl : i = _ := frame
    simp only [dataOf, key_eq, data, sent, and_self, ite_true]

theorem completed_message_is_whole_broadcast :
    ∃ (e e' : TpEngine) (a : Announcement) (carriers : List (List UInt8)),
      Run FedStep (configured ⟨750, 1250, 1250⟩ 4 16 0)
      [(.frame (decodeExtendedId 0x18ECFF80) [0x20, 9, 0, 2, 0xFF, 0xF6, 0xFE, 0] 0, []),
      (.frame (decodeExtendedId 0x18EBFF80) [1, 10, 11, 12, 13, 14, 15, 16] 1, [])] e ∧
      e.FedStep (.frame (decodeExtendedId 0x18EBFF80) [2, 17, 18, 0xFF, 0xFF, 0xFF, 0xFF, 0xFF] 2,
      [.completed ⟨65270, by decide⟩ 0x80 [10, 11, 12, 13, 14, 15, 16, 17, 18]]) e' ∧
      a.key = (0x80, ⟨65270, by decide⟩) ∧ [10, 11, 12, 13, 14, 15, 16, 17, 18].length = a.totalSize ∧
      [10, 11, 12, 13, 14, 15, 16, 17, 18] = (carried carriers).take a.totalSize := by
  have run : Run FedStep (configured ⟨750, 1250, 1250⟩ 4 16 0) _ _ :=
    .snoc (.snoc .nil ⟨Step.of_handle (i := .frame (decodeExtendedId 0x18ECFF80)
      [0x20, 9, 0, 2, 0xFF, 0xF6, 0xFE, 0] 0) rfl, not_starves_full rfl⟩)
      ⟨Step.of_handle (i := .frame (decodeExtendedId 0x18EBFF80) [1, 10, 11, 12, 13, 14, 15, 16] 1) rfl,
        not_starves_full rfl⟩
  have step := fun e e' (handled : handle e (.frame (decodeExtendedId 0x18EBFF80)
      [2, 17, 18, 0xFF, 0xFF, 0xFF, 0xFF, 0xFF] 2) = .ok ([.completed ⟨65270, by decide⟩ 0x80
        [10, 11, 12, 13, 14, 15, 16, 17, 18]], e')) =>
    (⟨Step.of_handle handled, not_starves_full rfl⟩ : FedStep e _ e')
  obtain ⟨a, carriers, key, _, length, whole⟩ := completed_message_is_whole _ _ _ _ _ _ _ _ run (step _ _ rfl) _ _ _
    (mem_singleton_self _)
  exact ⟨_, _, a, carriers, run, step _ _ rfl, key, length, whole⟩

/-- Two data frames without data complete a nine-byte broadcast with an empty payload. -/
theorem short_frames_complete_empty : ∃ e e', Run Step (configured ⟨750, 1250, 1250⟩ 4 16 0)
        [(.frame (decodeExtendedId 0x18ECFF80) [0x20, 9, 0, 2, 0xFF, 0xF6, 0xFE, 0] 0, []),
          (.frame (decodeExtendedId 0x18EBFF80) [1] 1, [])] e ∧
      e.Step (.frame (decodeExtendedId 0x18EBFF80) [2] 2, [.completed ⟨65270, by decide⟩ 0x80 []]) e' ∧
      announcement (decodeExtendedId 0x18ECFF80) [0x20, 9, 0, 2, 0xFF, 0xF6, 0xFE, 0] =
        some ⟨.bam, (0x80, ⟨65270, by decide⟩), 9⟩ := by
  have run : Run Step (configured ⟨750, 1250, 1250⟩ 4 16 0) _ _ :=
    .snoc (.snoc .nil (Step.of_handle (i := .frame (decodeExtendedId 0x18ECFF80)
      [0x20, 9, 0, 2, 0xFF, 0xF6, 0xFE, 0] 0) rfl))
      (Step.of_handle (i := .frame (decodeExtendedId 0x18EBFF80) [1] 1) rfl)
  exact ⟨_, _, run, Step.of_handle rfl, rfl⟩

end TpEngine

end Taktora.J1939
