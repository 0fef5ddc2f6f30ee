import Taktora.Lib.Burst
import Taktora.J1939.Tp.Wire

namespace Taktora.J1939

open Checked LittleEndian Packets Table

namespace TpEngine

structure Unexpired (e : TpEngine) (now : Nat) : Prop where
  bam : e.sessions.Forall fun _ s => idleLongerThan e.timers.t1 now s.lastActivity = false
  rx : e.rxConn.Forall fun _ s => idleLongerThan e.timers.t2 now s.lastActivity = false
  tx : e.txConn.Forall fun _ s => idleLongerThan e.timers.t3 now s.lastActivity = false
  etpRx : e.etpRx.Forall fun _ s => idleLongerThan e.timers.t2 now s.lastActivity = false
  etpTx : e.etpTx.Forall fun _ s => idleLongerThan e.timers.t3 now s.lastActivity = false

variable {e : TpEngine} {Q : TpEngine → Prop}

theorem pollTimeouts_unexpired {now : Nat} (unexpired : e.Unexpired now) : e.pollTimeouts now = .ok ([], e) := by
  have bam := matching_eq_nil unexpired.bam
  have rx := matching_eq_nil unexpired.rx
  have tx := matching_eq_nil unexpired.tx
  have etpRx := matching_eq_nil unexpired.etpRx
  have etpTx := matching_eq_nil unexpired.etpTx
  have kept {ν : Type} {m : Table Key ν} {late : ν → Bool} (none : m.Forall fun _ s => late s = false) :
      (m.retain fun s => !late s) = m :=
    retain_eq_self fun key s found => congrArg not (none key s found)
  rw [pollTimeouts_eq, timeoutEvents, swept, timeoutFrames, bam, rx, tx, etpRx, etpTx, kept unexpired.bam,
    kept unexpired.rx, kept unexpired.tx, kept unexpired.etpRx, kept unexpired.etpTx]
  simp only [List.map_nil, List.append_nil]

/-- An engine on a link. Frames cross it encoded, and the engine may be polled whenever `may` allows it. -/
def party (may : TpEngine → Nat → Prop) : Party TpEngine TpOutFrame Nat TpEvent Panic where
  outbox e := e.pendingOut
  flush e := e.takeOutbound.2
  receives e f now result := ∃ e₀, e.Reordered e₀ ∧ e₀.handle (.frame f.decoded f.data.1 now) = result
  ticks e now events e' := may e now ∧ e.Step (.pollTimeouts now, events) e'
  outbox_flush _ := rfl

theorem party_total (may : TpEngine → Nat → Prop) (e : TpEngine) (f : TpOutFrame) (now : Nat) :
    ∃ result, (party may).receives e f now result := ⟨_, e, .refl e, rfl⟩

structure Holds (e : TpEngine) (rxConn : Table Key InboundConnSession) (txConn : Table Key OutboundConnSession)
    (etpRx : Table Key InboundEtpSession) (etpTx : Table Key OutboundEtpSession) : Prop where
  sessions : e.sessions = ∅
  rxConn : e.rxConn = rxConn
  txConn : e.txConn = txConn
  etpRx : e.etpRx = etpRx
  etpTx : e.etpTx = etpTx

def Blank (e : TpEngine) : Prop := e.Holds ∅ ∅ ∅ ∅

theorem configured_blank (timers : TpTimers) (maxSessions : Nat) (window : UInt8) (limit : Nat) :
    (configured timers maxSessions window limit).Blank := ⟨rfl, rfl, rfl, rfl, rfl⟩

structure Small (e : TpEngine) : Prop where
  sessions : e.sessions.size ≤ 1
  rxConn : e.rxConn.size ≤ 1
  txConn : e.txConn.size ≤ 1
  etpRx : e.etpRx.size ≤ 1
  etpTx : e.etpTx.size ≤ 1

theorem Holds.small {rx : Table Key InboundConnSession} {tx : Table Key OutboundConnSession}
    {etpRx : Table Key InboundEtpSession} {etpTx : Table Key OutboundEtpSession}
    (holds : e.Holds rx tx etpRx etpTx)
    (rx_small : rx.size ≤ 1)
    (tx_small : tx.size ≤ 1)
    (etpRx_small : etpRx.size ≤ 1)
    (etpTx_small : etpTx.size ≤ 1) : e.Small := by
  obtain ⟨bam, rfl, rfl, rfl, rfl⟩ := holds
  exact ⟨by rw [bam]; exact Nat.zero_le 1, rx_small, tx_small, etpRx_small, etpTx_small⟩

theorem Reordered.eq {e' : TpEngine} (h : e.Reordered e') (small : e.Small) : e' = e := by
  obtain ⟨sessions, rxConn, txConn, etpRx, etpTx, pendingOut, window, timers, maxSessions, limit⟩ := h
  cases e
  cases e'
  simp only [mk.injEq]
  exact ⟨eq_of_perm sessions small.sessions, eq_of_perm rxConn small.rxConn, eq_of_perm txConn small.txConn, pendingOut,
    eq_of_perm etpRx small.etpRx, eq_of_perm etpTx small.etpTx, window, timers, maxSessions, limit⟩

/-- With at most one session a table has one iteration order. -/
theorem answers_of_handle {may : TpEngine → Nat → Prop}
    (small : e.Small)
    {f : TpOutFrame} {events : List TpEvent} {sent : List TpOutFrame}
    (handled : ∀ now, ∃ e', e.onFrame f.decoded f.data.1 now = .ok (events, e') ∧
      e'.pendingOut = e.pendingOut ++ sent ∧ Q e') : (party may).Answers e f events sent Q := by
  rintro now _ ⟨_, reordered, received⟩
  obtain rfl := reordered.eq small
  obtain ⟨e', evaluated, queued, holds⟩ := handled now
  exact ⟨e', received.symm.trans evaluated, queued, holds⟩

theorem keeps_of_small (small : ∀ e, Q e → e.Small) (flush : ∀ e, Q e → Q { e with pendingOut := [] }) :
    (party Unexpired).Keeps Q := by
  refine ⟨flush, ?_⟩
  rintro e _ _ _ holds ⟨unexpired, _, reordered, polled⟩
  obtain rfl := reordered.eq (small e holds)
  cases (pollTimeouts_unexpired unexpired).symm.trans polled
  exact ⟨rfl, rfl, holds⟩

theorem Blank.small (blank : e.Blank) : e.Small :=
  Holds.small blank (Nat.zero_le 1) (Nat.zero_le 1) (Nat.zero_le 1) (Nat.zero_le 1)

theorem blank_keeps : (party Unexpired).Keeps Blank := by
  apply keeps_of_small
  · intro e blank
    exact blank.small
  · intro e blank
    exact { blank with }

end TpEngine

end Taktora.J1939
