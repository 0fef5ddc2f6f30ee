import Taktora.Lib.Run
import Taktora.J1939.Tp.Effect

namespace Taktora.J1939

open Checked

namespace TpEngine

/-- The same engine with its hash maps iterated in another order. -/
structure Reordered (e e' : TpEngine) : Prop where
  sessions : e.sessions.entries.Perm e'.sessions.entries
  rxConn : e.rxConn.entries.Perm e'.rxConn.entries
  txConn : e.txConn.entries.Perm e'.txConn.entries
  etpRx : e.etpRx.entries.Perm e'.etpRx.entries
  etpTx : e.etpTx.entries.Perm e'.etpTx.entries
  pendingOut : e'.pendingOut = e.pendingOut
  ctsWindow : e'.ctsWindow = e.ctsWindow
  timers : e'.timers = e.timers
  maxSessions : e'.maxSessions = e.maxSessions
  maxEtpBytes : e'.maxEtpBytes = e.maxEtpBytes

theorem Reordered.refl (e : TpEngine) : e.Reordered e :=
  ⟨.refl _, .refl _, .refl _, .refl _, .refl _, rfl, rfl, rfl, rfl, rfl⟩

variable {e e' : TpEngine}

theorem Reordered.totalInbound (h : e.Reordered e') : e'.totalInbound = e.totalInbound := by
  simp only [TpEngine.totalInbound, Table.size_of_perm h.sessions, Table.size_of_perm h.rxConn,
    Table.size_of_perm h.etpRx]

/-- A call with the events it returned. The hash maps may have been rehashed since the call before. -/
def Step (e : TpEngine) (call : TpInput × List TpEvent) (e' : TpEngine) : Prop :=
  ∃ e₀, e.Reordered e₀ ∧ e₀.handle call.1 = .ok (call.2, e')

theorem Step.effect {call : TpInput × List TpEvent} (step : e.Step call e') :
    ∃ e₀, e.Reordered e₀ ∧ Effect e₀ call.1 call.2 e' := by
  obtain ⟨e₀, reordered, handled⟩ := step
  exact ⟨e₀, reordered, handle_effect handled⟩

theorem Step.of_handle {i : TpInput} {events : List TpEvent} (handled : e.handle i = .ok (events, e')) :
    e.Step (i, events) e' := ⟨e, .refl e, handled⟩

def configured (timers : TpTimers) (maxSessions : Nat) (window : UInt8) (limit : Nat) : TpEngine :=
  ((new timers maxSessions).withCtsWindow window).withMaxEtpBytes limit

def SameConfig (e e' : TpEngine) : Prop :=
  e'.ctsWindow = e.ctsWindow ∧ e'.timers = e.timers ∧ e'.maxSessions = e.maxSessions ∧
    e'.maxEtpBytes = e.maxEtpBytes

end TpEngine

variable {e e' : TpEngine}

theorem Effect.sameConfig {i : TpInput} {events : List TpEvent} (effect : Effect e i events e') : e.SameConfig e' := by
  cases effect <;> exact ⟨rfl, rfl, rfl, rfl⟩

theorem TpEngine.Step.sameConfig {call : TpInput × List TpEvent} (step : e.Step call e') : e.SameConfig e' := by
  obtain ⟨_, reordered, effect⟩ := step.effect
  obtain ⟨window, timers, sessions, limit⟩ := effect.sameConfig
  exact ⟨window.trans reordered.ctsWindow, timers.trans reordered.timers, sessions.trans reordered.maxSessions,
    limit.trans reordered.maxEtpBytes⟩

theorem TpEngine.run_sameConfig {history : List (TpInput × List TpEvent)} (run : Run Step e history e') :
    e.SameConfig e' := by
  refine run.invariant ⟨rfl, rfl, rfl, rfl⟩ fun s call s' same step => ?_
  obtain ⟨window, timers, sessions, limit⟩ := step.sameConfig
  obtain ⟨window', timers', sessions', limit'⟩ := same
  exact ⟨window.trans window', timers.trans timers', sessions.trans sessions', limit.trans limit'⟩

end Taktora.J1939
