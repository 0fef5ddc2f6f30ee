import Mathlib.Algebra.BigOperators.Fin
import Taktora.J1939.Tp.Source
import Taktora.Lib.Tally

namespace Taktora.J1939

open Checked LittleEndian Packets Function List TpEngine SentMessage

namespace SentMessage

variable (m : SentMessage)

def hear (granted : Nat) (f : TpOutFrame) : Nat :=
  match control f.decoded f.data.1 with
  | some (.cts, pgn, b) =>
    if pgn = m.pgn ∧ f.decoded.destAddr = some m.source then b.b2.toNat + b.b1.toNat - 1 else granted
  | _ => granted

def Cleared (sent granted : Nat) : Prop :=
  match m.mode with
  | .bam => True
  | .conn _ _ _ => sent = 0 ∨ sent ≤ granted

instance (sent granted : Nat) : Decidable (m.Cleared sent granted) :=
  match mode : m.mode with
  | .bam => .isTrue (by rw [Cleared, mode]; exact True.intro)
  | .conn _ _ _ => decidable_of_iff (sent = 0 ∨ sent ≤ granted) (by rw [Cleared, mode])

def hearAlone (e : TpEngine) (times : List Nat) : Except Panic TpEngine :=
  times.zipIdx.foldlM (fun e call => (e.onFrame (m.frame call.2).decoded (m.frame call.2).data.1 call.1).map (·.2)) e

section Hear

variable {m} {window node maxPerCts : UInt8} {specific : node ≠ globalAddress}

theorem grantWindow_bounds {remaining : Nat} (some_ : 1 ≤ remaining) (window maxPerCts : UInt8) :
    1 ≤ grantWindow remaining window maxPerCts ∧ grantWindow remaining window maxPerCts ≤ remaining := by
  unfold grantWindow
  dsimp only
  split <;> omega

theorem cleared_bounds (window maxPerCts : UInt8) {k : Nat} (inside : k < m.packets) :
    1 ≤ m.cleared window maxPerCts k ∧ k + m.cleared window maxPerCts k ≤ m.packets := by
  induction k with
  | zero =>
    have bounds := grantWindow_bounds inside window maxPerCts
    rw [cleared]
    omega
  | succ k ih =>
    have bounds := grantWindow_bounds (show 1 ≤ m.packets - (k + 1) by omega) window maxPerCts
    rw [cleared]
    split <;> omega

theorem hear_cts (m : SentMessage) (node dest priority : UInt8) (pgn : Pgn) {count next : Nat} (count_le : count ≤ 255)
    (next_le : next ≤ 255) (granted : Nat) : m.hear granted (ctsFrame node dest priority pgn count next) =
      if pgn = m.pgn ∧ dest = m.source then next + count - 1 else granted := by
  have named : control (ctsFrame node dest priority pgn count next).decoded
      (ctsFrame node dest priority pgn count next).data.1 =
        some (.cts, pgn, cmBytes ctsControl (UInt8.ofNat count) (UInt8.ofNat next) 0xFF 0xFF pgn) := by
    rw [ctsFrame, cmFrame_decoded rfl, control, cmFrame_bytes]
    simp only [cmBytes_pgn]
    rfl
  have decoded : (ctsFrame node dest priority pgn count next).decoded = wireId cmPgn priority node dest :=
    cmFrame_decoded rfl _ _ _ _ _ _ _ _ _
  unfold hear
  rw [named, decoded]
  simp only [wireId, cmBytes, Option.some.injEq, ofNat_toNat (Nat.lt_succ_of_le count_le),
    ofNat_toNat (Nat.lt_succ_of_le next_le)]

theorem hear_endOfMsgAck (m : SentMessage) (node dest priority : UInt8) (pgn : Pgn) (size packets granted : Nat) :
    m.hear granted (endOfMsgAckFrame node dest priority pgn size packets) = granted := by
  have named : control (endOfMsgAckFrame node dest priority pgn size packets).decoded
      (endOfMsgAckFrame node dest priority pgn size packets).data.1 =
        some (.eoma, pgn, cmBytes eomaControl (byteAt size 0) (byteAt size 1) (UInt8.ofNat packets) 0xFF pgn) := by
    rw [endOfMsgAckFrame, cmFrame_decoded rfl, control, cmFrame_bytes]
    simp only [cmBytes_pgn]
    rfl
  unfold hear
  rw [named]

theorem hear_others {other : SentMessage}
    (apart : other.source ≠ m.source)
    {sent : Nat}
    (inside : sent ≤ m.packets)
    (granted : Nat) :
    (m.answers window sent).foldl other.hear granted = granted := by
  have small := m.packets_le
  rcases mode : m.mode with _ | ⟨_, maxPerCts, _⟩
  · rw [answers, mode]
    rfl
  · rw [answers, mode]
    dsimp only
    split
    · exact hear_endOfMsgAck _ _ _ _ _ _ _ _
    · rename_i unfinished
      have bounds := cleared_bounds window maxPerCts (lt_of_le_of_ne inside unfinished)
      split
      · rw [foldl_cons, foldl_nil, hear_cts _ _ _ _ _ (by omega) (by omega), if_neg fun both => apart both.2.symm]
      · rfl

theorem hear_own
    (conn : m.mode = .conn node maxPerCts specific)
    {sent granted : Nat}
    (unfinished : sent < m.packets)
    (before : sent ≠ 0 → granted = sent - 1 + m.cleared window maxPerCts (sent - 1)) :
    (m.answers window sent).foldl m.hear granted = sent + m.cleared window maxPerCts sent := by
  have small := m.packets_le
  have bounds := cleared_bounds window maxPerCts unfinished
  rw [answers, conn]
  dsimp only
  rw [if_neg unfinished.ne]
  split
  · rw [foldl_cons, foldl_nil, hear_cts _ _ _ _ _ (by omega) (by omega), if_pos ⟨rfl, rfl⟩]
    omega
  · rename_i goes_on
    obtain ⟨later, open_⟩ := not_or.mp goes_on
    obtain ⟨k, rfl⟩ := Nat.exists_eq_succ_of_ne_zero later
    have granted := before later
    rw [Nat.succ_eq_add_one, Nat.add_sub_cancel] at granted open_
    rw [foldl_nil, cleared, if_neg open_]
    omega

end Hear

theorem hearAlone_ok {m : SentMessage} {e : TpEngine}
    (free : e.sessionsOf m.source = .empty)
    (room : e.totalInbound < e.maxSessions)
    {times : List Nat}
    (inside : times.length ≤ m.packets + 1) :
    ∃ e', m.hearAlone e times = .ok e' ∧ e'.sessionsOf m.source = m.sessionsAfter e.ctsWindow times ∧
      e'.ctsWindow = e.ctsWindow ∧ (times = [] → e' = e) := by
  induction times using reverseRecOn with
  | nil => exact ⟨e, rfl, free, rfl, fun _ => rfl⟩
  | append_singleton times now ih =>
    rw [length_append] at inside
    obtain ⟨e₁, heard, held, window, unheard⟩ := ih (Nat.le_of_succ_le inside)
    rw [← window] at held
    have still : times = [] → e₁.totalInbound < e₁.maxSessions := by
      intro empty
      rw [unheard empty]
      exact room
    obtain ⟨e₂, evaluated, received⟩ := receives held still (Nat.le_of_succ_le_succ inside) now
    refine ⟨e₂, ?_, ?_, received.config.1.trans window, fun empty => absurd empty (by simp)⟩
    · unfold hearAlone at heard ⊢
      rw [zipIdx_append, foldlM_append, heard, zero_add]
      show ((e₁.onFrame (m.frame times.length).decoded (m.frame times.length).data.1 now).map (·.2) >>= pure) = _
      rw [evaluated]
      rfl
    · rw [received.own, window]

end SentMessage

/-- A receiving engine and the senders it hears: how many frames each has sent, and how many packets it may send. -/
structure Bus (n : Nat) where
  engine : TpEngine
  sent : Fin n → Nat
  granted : Fin n → Nat

inductive BusCall (n : Nat) where
  | send (i : Fin n) (now : Nat)
  | transmit
  | poll (now : Nat)
deriving DecidableEq

def BusCall.time? {n : Nat} (i : Fin n) : BusCall n → Option Nat
  | .send j now => if j = i then some now else none
  | _ => none

namespace Bus

variable {n : Nat}

def start (e : TpEngine) : Bus n := ⟨e, fun _ => 0, fun _ => 0⟩

/-- A sender sends its next frame, the engine's answers reach the senders, or the engine is polled. -/
inductive Step (messages : Fin n → SentMessage) : Bus n → BusCall n × List TpEvent → Bus n → Prop where
  | send {s : Bus n} {i : Fin n} {now : Nat} {events : List TpEvent} {e' : TpEngine}
      (unfinished : s.sent i ≤ (messages i).packets) (cleared : (messages i).Cleared (s.sent i) (s.granted i))
      (received : s.engine.Step (.frame ((messages i).frame (s.sent i)).decoded ((messages i).frame (s.sent i)).data.1
        now, events) e') :
      Step messages s (.send i now, events) ⟨e', Function.update s.sent i (s.sent i + 1), s.granted⟩
  | transmit {s : Bus n} {events : List TpEvent} {e' : TpEngine} (drained : s.engine.Step (.takeOutbound, events) e') :
      Step messages s (.transmit, events)
        ⟨e', s.sent, fun i => s.engine.pendingOut.foldl (messages i).hear (s.granted i)⟩
  | poll {s : Bus n} {now : Nat} {events : List TpEvent} {e' : TpEngine} (unexpired : s.engine.Unexpired now)
      (polled : s.engine.Step (.pollTimeouts now, events) e') :
      Step messages s (.poll now, events) { s with engine := e' }

def times (i : Fin n) (history : List (BusCall n × List TpEvent)) : List Nat := history.filterMap (·.1.time? i)

def reported (history : List (BusCall n × List TpEvent)) : List TpEvent := history.flatMap (·.2)

def active (m : SentMessage) (sent : Nat) : Nat := if 1 ≤ sent ∧ sent ≤ m.packets then 1 else 0

structure Inv (messages : Fin n → SentMessage) (window : UInt8) (history : List (BusCall n × List TpEvent))
    (s : Bus n) : Prop where
  config : s.engine.ctsWindow = window
  room : n ≤ s.engine.maxSessions
  sent : ∀ i, s.sent i = (times i history).length
  bounded : ∀ i, s.sent i ≤ (messages i).packets + 1
  held : ∀ i, s.engine.sessionsOf (messages i).source = (messages i).sessionsAfter window (times i history)
  count : s.engine.totalInbound = ∑ i, active (messages i) (s.sent i)
  heard : ∀ i node maxPerCts specific, (messages i).mode = .conn node maxPerCts specific → 1 ≤ s.sent i →
    s.sent i ≤ (messages i).packets → s.engine.pendingOut.foldl (messages i).hear (s.granted i) =
      s.sent i - 1 + (messages i).cleared window maxPerCts (s.sent i - 1)
  reported : ∃ order : List (Fin n), order.Nodup ∧ (∀ i, i ∈ order ↔ s.sent i = (messages i).packets + 1) ∧
    Bus.reported history = order.map fun i => .completed (messages i).pgn (messages i).source (messages i).payload

section Steps

variable {messages : Fin n → SentMessage} {window : UInt8} {history : List (BusCall n × List TpEvent)} {s : Bus n}

theorem times_snoc (i : Fin n) (history : List (BusCall n × List TpEvent)) (call : BusCall n × List TpEvent) :
    times i (history ++ [call]) = times i history ++ (call.1.time? i).toList := by
  unfold times
  cases time : call.1.time? i with
  | none | some => simp [time]

theorem reported_snoc (history : List (BusCall n × List TpEvent)) (call : BusCall n × List TpEvent) :
    reported (history ++ [call]) = reported history ++ call.2 := by
  unfold reported
  rw [flatMap_append, flatMap_singleton]

theorem active_succ {m : SentMessage} {sent : Nat} (inside : sent ≤ m.packets) :
    active m (sent + 1) + (if sent = m.packets then 1 else 0) = active m sent + (if sent = 0 then 1 else 0) := by
  unfold active
  split_ifs <;> omega

variable {i : Fin n} {e e' : TpEngine} {now : Nat}

theorem sum_active_lt {sent : Fin n → Nat} (unsent : sent i = 0) : ∑ j, active (messages j) (sent j) < n := by
  have le (j : Fin n) : active (messages j) (sent j) ≤ 1 := by
    unfold active
    split <;> omega
  have lt : active (messages i) (sent i) < 1 := by
    rw [unsent]
    exact zero_lt_one
  have bound := Finset.sum_lt_sum (fun j _ => le j) ⟨i, Finset.mem_univ i, lt⟩
  rwa [Finset.sum_const, Finset.card_univ, Fintype.card_fin, smul_eq_mul, mul_one] at bound

theorem Inv.room_of_unsent
    (inv : s.Inv messages window history)
    (reordered : s.engine.Reordered e)
    (unsent : times i history = []) : e.totalInbound < e.maxSessions := by
  have zero : s.sent i = 0 := by rw [inv.sent i, unsent]; rfl
  rw [reordered.totalInbound, reordered.maxSessions, inv.count]
  exact lt_of_lt_of_le (sum_active_lt zero) inv.room

theorem Inv.receives
    (inv : s.Inv messages window history)
    (unfinished : s.sent i ≤ (messages i).packets)
    (reordered : s.engine.Reordered e)
    (now : Nat) :
    ∃ e', e.onFrame ((messages i).frame (s.sent i)).decoded ((messages i).frame (s.sent i)).data.1 now =
      .ok ((messages i).reports (s.sent i), e') ∧ (messages i).Received (times i history) now e e' := by
  have held : e.sessionsOf (messages i).source = (messages i).sessionsAfter e.ctsWindow (times i history) := by
    rw [reordered.sessionsOf, reordered.ctsWindow, inv.config]
    exact inv.held i
  have sent := inv.sent i
  rw [sent] at unfinished ⊢
  exact SentMessage.receives held (inv.room_of_unsent reordered) unfinished now

theorem times_send_self (i : Fin n) (now : Nat) (events : List TpEvent) (history : List (BusCall n × List TpEvent)) :
    times i (history ++ [(.send i now, events)]) = times i history ++ [now] := by
  rw [times_snoc, BusCall.time?, if_pos rfl]
  rfl

theorem times_send_other {j : Fin n} (apart : j ≠ i) (now : Nat) (events : List TpEvent)
    (history : List (BusCall n × List TpEvent)) : times j (history ++ [(.send i now, events)]) = times j history := by
  rw [times_snoc, BusCall.time?, if_neg (symm apart)]
  exact append_nil _

section

variable (inv : s.Inv messages window history)
include inv

variable {i : Fin n} {events : List TpEvent} {e' : TpEngine}

theorem Inv.reported_send
    (unfinished : s.sent i ≤ (messages i).packets)
    (now : Nat) :
    ∃ order : List (Fin n), order.Nodup ∧ (∀ j, j ∈ order ↔
      update s.sent i (s.sent i + 1) j = (messages j).packets + 1) ∧
      Bus.reported (history ++ [(.send i now, (messages i).reports (s.sent i))]) =
      order.map fun i => .completed (messages i).pgn (messages i).source (messages i).payload := by
  obtain ⟨order, distinct, members, reports⟩ := inv.reported
  have fresh : i ∉ order := by
    intro member
    have finished := (members i).mp member
    omega
  have others (j : Fin n) (apart : j ≠ i) : j ∈ order ↔
      update s.sent i (s.sent i + 1) j = (messages j).packets + 1 := by
    rw [update_of_ne apart]
    exact members j
  rw [reported_snoc, reports, SentMessage.reports]
  split
  · rename_i done
    refine ⟨order ++ [i], nodup_append.mpr ⟨distinct, nodup_singleton i, ?_⟩, ?_, ?_⟩
    · rintro j member _ last rfl
      exact fresh (mem_singleton.mp last ▸ member)
    · intro j
      by_cases same : j = i
      · rw [same, done]
        simp
      · rw [← others j same]
        simp [same]
    · rw [map_append]
      rfl
  · refine ⟨order, distinct, ?_, append_nil _⟩
    intro j
    by_cases same : j = i
    · rw [same, update_self]
      exact iff_of_false fresh (by omega)
    · exact others j same

theorem Inv.send
    (distinct : Injective fun i => (messages i).source)
    {now : Nat}
    (unfinished : s.sent i ≤ (messages i).packets)
    (received : s.engine.Step
      (.frame ((messages i).frame (s.sent i)).decoded ((messages i).frame (s.sent i)).data.1 now, events) e') :
    Inv messages window (history ++ [(.send i now, events)]) ⟨e', update s.sent i (s.sent i + 1), s.granted⟩ := by
  obtain ⟨e, reordered, handled⟩ := received
  obtain ⟨e₁, evaluated, result⟩ := inv.receives unfinished reordered now
  obtain ⟨rfl, rfl⟩ := Prod.mk.inj (Except.ok.inj (evaluated.symm.trans handled))
  have config : e₁.ctsWindow = window := result.config.1.trans (reordered.ctsWindow.trans inv.config)
  have sources (j : Fin n) (apart : j ≠ i) : (messages j).source ≠ (messages i).source :=
    fun same => apart (distinct same)
  have length := inv.sent i
  constructor
  · exact config
  · rw [result.config.2.2.1, reordered.maxSessions]
    exact inv.room
  · intro j
    dsimp only
    by_cases same : j = i
    · subst same
      rw [times_send_self, length_append, length_singleton, ← inv.sent, update_self]
    · rw [times_send_other same, ← inv.sent, update_of_ne same]
  · intro j
    dsimp only
    by_cases same : j = i
    · subst same
      rw [update_self]
      omega
    · rw [update_of_ne same]
      exact inv.bounded j
  · intro j
    by_cases same : j = i
    · subst same
      rw [times_send_self, result.own, reordered.ctsWindow, inv.config]
    · rw [times_send_other same, result.others _ (sources j same), reordered.sessionsOf]
      exact inv.held j
  · have counted := result.count
    have total := Tally.sum_update (fun j => active (messages j)) s.sent i (s.sent i + 1)
    have step := active_succ unfinished
    have begun : times i history = [] ↔ s.sent i = 0 := by rw [length, length_eq_zero_iff]
    simp only [← length, begun, reordered.totalInbound, inv.count] at counted
    dsimp only
    omega
  · intro j node maxPerCts specific conn positive inside
    dsimp only at positive inside ⊢
    rw [result.queued, reordered.pendingOut, foldl_append, reordered.ctsWindow, inv.config, ← length]
    by_cases same : j = i
    · subst same
      rw [update_self] at inside ⊢
      apply hear_own conn inside
      intro later
      exact inv.heard j node maxPerCts specific conn (pos_of_ne_zero later) unfinished
    · rw [update_of_ne same] at positive inside ⊢
      rw [hear_others (sources j same) unfinished]
      exact inv.heard j node maxPerCts specific conn positive inside
  · exact inv.reported_send unfinished now

theorem Inv.idle {call : BusCall n}
    (silent : ∀ i, call.time? i = none)
    {granted : Fin n → Nat}
    (config : e'.ctsWindow = s.engine.ctsWindow)
    (room : e'.maxSessions = s.engine.maxSessions)
    (sessions : ∀ source, e'.sessionsOf source = s.engine.sessionsOf source)
    (count : e'.totalInbound = s.engine.totalInbound)
    (heard : ∀ i, e'.pendingOut.foldl (messages i).hear (granted i) =
      s.engine.pendingOut.foldl (messages i).hear (s.granted i)) :
    Inv messages window (history ++ [(call, [])]) ⟨e', s.sent, granted⟩ := by
  have same (i : Fin n) : times i (history ++ [(call, [])]) = times i history := by
    rw [times_snoc, silent i]
    exact append_nil _
  constructor
  · exact config.trans inv.config
  · rw [room]
    exact inv.room
  · intro i
    rw [same]
    exact inv.sent i
  · exact inv.bounded
  · intro i
    rw [same, sessions]
    exact inv.held i
  · exact count.trans inv.count
  · intro i node maxPerCts specific conn positive inside
    rw [heard]
    exact inv.heard i node maxPerCts specific conn positive inside
  · rw [reported_snoc]
    simp only [append_nil]
    exact inv.reported

theorem Inv.transmit (drained : s.engine.Step (.takeOutbound, events) e') :
    Inv messages window (history ++ [(.transmit, events)])
      ⟨e', s.sent, fun i => s.engine.pendingOut.foldl (messages i).hear (s.granted i)⟩ := by
  obtain ⟨e, reordered, handled⟩ := drained
  obtain ⟨rfl, rfl⟩ := Prod.mk.inj (Except.ok.inj handled)
  exact inv.idle (fun _ => rfl) reordered.ctsWindow reordered.maxSessions reordered.sessionsOf reordered.totalInbound
    fun _ => rfl

end

theorem unexpired_reordered (reordered : e.Reordered e') (unexpired : e.Unexpired now) : e'.Unexpired now := by
  constructor
  · rw [reordered.timers]
    exact unexpired.bam.perm reordered.sessions
  · rw [reordered.timers]
    exact unexpired.rx.perm reordered.rxConn
  · rw [reordered.timers]
    exact unexpired.tx.perm reordered.txConn
  · rw [reordered.timers]
    exact unexpired.etpRx.perm reordered.etpRx
  · rw [reordered.timers]
    exact unexpired.etpTx.perm reordered.etpTx

theorem Inv.poll (inv : s.Inv messages window history) {events : List TpEvent} (unexpired : s.engine.Unexpired now)
    (polled : s.engine.Step (.pollTimeouts now, events) e') :
    Inv messages window (history ++ [(.poll now, events)]) { s with engine := e' } := by
  obtain ⟨e, reordered, handled⟩ := polled
  have quiet := pollTimeouts_unexpired (unexpired_reordered reordered unexpired)
  obtain ⟨rfl, rfl⟩ := Prod.mk.inj (Except.ok.inj (quiet.symm.trans handled))
  apply inv.idle (fun _ => rfl) reordered.ctsWindow reordered.maxSessions reordered.sessionsOf reordered.totalInbound
  intro i
  rw [reordered.pendingOut]

theorem Inv.step (inv : s.Inv messages window history)
    (distinct : Injective fun i => (messages i).source)
    {call : BusCall n × List TpEvent} {s' : Bus n}
    (step : Step messages s call s') :
    s'.Inv messages window (history ++ [call]) := by
  cases step with
  | send unfinished _ received => exact inv.send distinct unfinished received
  | transmit drained => exact inv.transmit drained
  | poll unexpired polled => exact inv.poll unexpired polled

theorem start_inv (messages : Fin n → SentMessage) (timers : TpTimers) {maxSessions : Nat}
    (few : n ≤ maxSessions)
    (window : UInt8) (limit : Nat) :
    Inv messages (configured timers maxSessions window limit).ctsWindow []
      (start (configured timers maxSessions window limit)) where
  config := rfl
  room := Nat.le_trans few (Nat.le_max_left _ _)
  sent := fun _ => rfl
  bounded := fun _ => Nat.zero_le _
  held := fun _ => rfl
  count := by
    have idle (i : Fin n) : active (messages i) 0 = 0 := rfl
    simp only [start, idle, Finset.sum_const_zero]
    rfl
  heard := fun _ _ _ _ _ positive => absurd positive (Nat.not_succ_le_zero 0)
  reported := ⟨[], nodup_nil, fun i => iff_of_false not_mem_nil (Nat.succ_ne_zero _).symm, rfl⟩

end Steps

variable {messages : Fin n → SentMessage} {s : Bus n}

/-- However the frames of the senders interleave, every message is reported once, and nothing else is. -/
theorem concurrent_messages_complete (timers : TpTimers) {maxSessions : Nat} (window : UInt8) (limit : Nat)
    {messages : Fin n → SentMessage}
    (distinct : Function.Injective fun i => (messages i).source)
    (few : n ≤ maxSessions)
    {history : List (BusCall n × List TpEvent)} {s : Bus n}
    (run : Run (Step messages) (start (configured timers maxSessions window limit)) history s) :
    (∃ order : List (Fin n), order.Nodup ∧ (∀ i, i ∈ order ↔ s.sent i = (messages i).packets + 1) ∧
      reported history = order.map fun i => .completed (messages i).pgn (messages i).source (messages i).payload) ∧
      (∀ i, ∃ alone, (messages i).hearAlone (configured timers maxSessions window limit) (times i history) = .ok alone ∧
      s.engine.sessionsOf (messages i).source = alone.sessionsOf (messages i).source) ∧
      ∀ i, s.sent i ≤ (messages i).packets → (∀ e now, s.engine.Reordered e →
      ∃ result, e.onFrame ((messages i).frame (s.sent i)).decoded ((messages i).frame (s.sent i)).data.1 now =
      .ok result) ∧ ∃ s', Step messages s (.transmit, []) s' ∧ (messages i).Cleared (s'.sent i) (s'.granted i) := by
  have inv := run.invariant_history (start_inv messages timers few window limit)
    fun history s call s' inv step => inv.step distinct step
  refine ⟨inv.reported, ?_, ?_⟩
  · intro i
    have inside := inv.bounded i
    rw [inv.sent i] at inside
    obtain ⟨alone, heard, held, _⟩ := hearAlone_ok (e := configured timers maxSessions window limit) rfl
      (lt_of_lt_of_le zero_lt_one (le_max_right _ _)) inside
    exact ⟨alone, heard, (inv.held i).trans held.symm⟩
  · intro i unfinished
    constructor
    · intro e now reordered
      obtain ⟨_, evaluated, _⟩ := inv.receives unfinished reordered now
      exact ⟨_, evaluated⟩
    · refine ⟨_, .transmit (Step.of_handle rfl), ?_⟩
      unfold SentMessage.Cleared
      rcases mode : (messages i).mode with _ | ⟨node, maxPerCts, specific⟩
      · exact True.intro
      · rcases eq_zero_or_pos (s.sent i) with unsent | positive
        · exact .inl unsent
        · have heard := inv.heard i node maxPerCts specific mode positive unfinished
          have bounds := cleared_bounds (m := messages i)
            (configured timers maxSessions window limit).ctsWindow maxPerCts (k := s.sent i - 1) (by omega)
          refine .inr ?_
          show s.sent i ≤ s.engine.pendingOut.foldl (messages i).hear (s.granted i)
          omega

def act (messages : Fin n → SentMessage) (s : Bus n) : BusCall n × List TpEvent → Option (Bus n)
  | (.send i now, events) =>
    if s.sent i ≤ (messages i).packets ∧ (messages i).Cleared (s.sent i) (s.granted i) then
      match s.engine.onFrame ((messages i).frame (s.sent i)).decoded ((messages i).frame (s.sent i)).data.1 now with
      | .ok (returned, e') =>
        if returned = events then some ⟨e', Function.update s.sent i (s.sent i + 1), s.granted⟩ else none
      | .error _ => none
    else none
  | (.transmit, events) =>
    if events = [] then
      some ⟨s.engine.takeOutbound.2, s.sent, fun i => s.engine.pendingOut.foldl (messages i).hear (s.granted i)⟩
    else none
  | (.poll _, _) => none

theorem Step.of_act {s' : Bus n} {call : BusCall n × List TpEvent} (acted : act messages s call = some s') :
    Step messages s call s' := by
  obtain ⟨call, _⟩ := call
  cases call with
  | send i now =>
    obtain ⟨⟨unfinished, cleared⟩, acted⟩ := Option.ite_none_right_eq_some.mp acted
    split at acted
    · rename_i returned e' received
      obtain ⟨rfl, same⟩ := Option.ite_none_right_eq_some.mp acted
      cases same
      exact .send unfinished cleared (Step.of_handle received)
    · cases acted
  | transmit =>
    obtain ⟨rfl, same⟩ := Option.ite_none_right_eq_some.mp acted
    cases same
    exact .transmit (Step.of_handle rfl)
  | poll now => cases acted

def crossing : Fin 2 → SentMessage
  | 0 => ⟨⟨65226, by decide⟩, 6, 0x80, [1, 2, 3, 4, 5, 6, 7, 8, 9], .bam, by decide⟩
  | 1 => ⟨⟨61184, by decide⟩, 6, 0x81, [9, 8, 7, 6, 5, 4, 3, 2, 1], .conn 0x10 0xFF (by decide), by decide⟩

def crossed (i j : Fin 2) : List (BusCall 2 × List TpEvent) :=
  [(.send i 0, []), (.send j 0, []), (.transmit, []), (.send i 1, []), (.send j 1, []),
    (.send j 2, [.completed (crossing j).pgn (crossing j).source (crossing j).payload]),
    (.send i 3, [.completed (crossing i).pgn (crossing i).source (crossing i).payload])]

theorem crossing_messages_complete :
    ∃ s, Run (Step crossing) (start (configured ⟨750, 1250, 1250⟩ 2 16 0)) (crossed 0 1) s ∧
      (∀ i, s.sent i = (crossing i).packets + 1) ∧ ∃ order : List (Fin 2), order.Nodup ∧
      (∀ i, i ∈ order ↔ s.sent i = (crossing i).packets + 1) ∧
      reported (crossed 0 1) = order.map fun i =>
      .completed (crossing i).pgn (crossing i).source (crossing i).payload := by
  have finished : (Run.follow (act crossing) (start (configured ⟨750, 1250, 1250⟩ 2 16 0)) (crossed 0 1)).map
      (fun s => (s.sent 0, s.sent 1)) = some (3, 3) := by decide +kernel
  obtain ⟨s, reached, sent⟩ := Option.map_eq_some_iff.mp finished
  obtain ⟨first, second⟩ := Prod.mk.inj sent
  have run : Run (Step crossing) (start (configured ⟨750, 1250, 1250⟩ 2 16 0)) (crossed 0 1) s :=
    (Run.of_follow reached).mono fun _ _ _ acted => Step.of_act acted
  refine ⟨s, run, Fin.forall_fin_two.mpr ⟨first, second⟩, ?_⟩
  exact (concurrent_messages_complete _ _ _ (by decide) (by decide) run).1

end Bus

end Taktora.J1939
