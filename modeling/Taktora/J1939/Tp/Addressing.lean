import Taktora.J1939.Tp.Inbound
import Taktora.J1939.Tp.Sender

namespace Taktora.J1939

open Checked List AList

def Control.Finds (e : TpEngine) (key : Key) : Control → Prop
  | .cts => key ∈ e.txConn
  | .eoma => key ∈ e.txConn
  | .abort => key ∈ e.rxConn ∨ key ∈ e.txConn
  | .etpCts => key ∈ e.etpTx
  | .etpDpo => key ∈ e.etpRx
  | .etpEoma => key ∈ e.etpTx
  | .etpAbort => key ∈ e.etpRx ∨ key ∈ e.etpTx

namespace TpEngine

/-- The frame announces a message, controls a session, or carries the packet one waits for. -/
inductive Engages (e : TpEngine) (decoded : DecodedId) (data : List UInt8) : Prop where
  | announces {a} (announced : announcement decoded data = some a)
  | controls {c pgn b} (named : control decoded data = some (c, pgn, b)) (found : c.Finds e (decoded.sourceAddr, pgn))
  | carries {kind seq rest key r} (carried : dataKind decoded = some kind) (bytes : data = seq :: rest)
      (held : e.inbound kind key = some r) (source : decoded.sourceAddr = key.1) (expected : r.Expects seq)

structure Owned (x : UInt8) (e : TpEngine) : Prop where
  txConn : e.txConn = ∅
  etpTx : e.etpTx = ∅
  rxConn : e.rxConn.Forall fun _ s => s.ourSa = x
  etpRx : e.etpRx.Forall fun _ s => s.ourSa = x
  pending : ∀ f ∈ e.pendingOut, f.sourceAddr = x

structure Passive (e : TpEngine) : Prop where
  txConn : e.txConn = ∅
  etpTx : e.etpTx = ∅

section Ignored

variable {e e' : TpEngine} {decoded : DecodedId} {data : List UInt8} {now : Nat}

variable {pgn : Pgn} {b : CmBytes}

theorem onFrame_cts_unfound (named : control decoded data = some (.cts, pgn, b))
    (absent : (decoded.sourceAddr, pgn) ∉ e.txConn) : e.onFrame decoded data now = .ok ([], e) := by
  obtain ⟨cm, bytes, cts, parsed⟩ := control_sound named
  rw [onFrame_cts cm bytes cts, onCts, parsed]
  dsimp only
  rw [lookup_eq_none.mpr absent]

theorem onFrame_etpCts_unfound (named : control decoded data = some (.etpCts, pgn, b))
    (absent : (decoded.sourceAddr, pgn) ∉ e.etpTx) : e.onFrame decoded data now = .ok ([], e) := by
  obtain ⟨cm, bytes, cts, parsed⟩ := control_sound named
  rw [onFrame_etpCts cm bytes cts, onEtpCts, parsed]
  dsimp only
  rw [lookup_eq_none.mpr absent]

variable {seq : UInt8} {rest : List UInt8} {key : Key}

theorem engages_of_chooses {ν : Type} {kind : SessionKind} {m : Table Key ν} {s : ν} {view : ν → Reassembly}
    (chooses : Chooses kind m decoded key s)
    (table : e.inbound kind key = (m.lookup key).map view)
    (expected : (view s).Expects seq) : e.Engages decoded (seq :: rest) := by
  rw [chooses.found] at table
  exact .carries chooses.kind rfl table chooses.source expected

theorem onFrame_ignored
    (wf : e.WellFormed)
    (aloof : ¬ e.Engages decoded data)
    (now : Nat) :
    e.onFrame decoded data now = .ok ([], e) := by
  by_cases requests : RequestsPackets decoded data
  · obtain ⟨_, b, named | named⟩ := requests
    · exact onFrame_cts_unfound named fun found => aloof (.controls named found)
    · exact onFrame_etpCts_unfound named fun found => aloof (.controls named found)
  · obtain ⟨⟨events, e'⟩, handled⟩ := onFrame_total wf requests now
    have effect : Effect e (.frame decoded data now) events e' := handle_effect handled
    rw [handled]
    cases effect with
    | ignored => rfl
    | bamRefused announced | bamOpened announced | connRefused _ _ announced | connOpened _ _ announced
    | etpOversize _ _ announced | etpRefused _ _ announced | etpOpened _ _ announced =>
      exact absurd (.announces announced) aloof
    | bamAccepted takes | bamCompleted takes | connWaiting takes | connGranted takes | connCompleted takes =>
      exact absurd (engages_of_chooses takes.toChooses rfl ((expects_seq rfl).mpr takes.expected)) aloof
    | etpWaiting takes | etpGranted takes | etpCompleted takes =>
      exact absurd (engages_of_chooses takes.toChooses rfl takes.expected) aloof
    | cts named found | etpCts named found | etpDpo named found =>
      exact absurd (.controls named (Table.mem_of_lookup found)) aloof
    | connAcked named =>
      have absent : (decoded.sourceAddr, _) ∉ e.txConn := fun found => aloof (.controls named found)
      rw [Table.erase_absent absent]
    | connAborted named | etpAborted named =>
      obtain ⟨absent, absent'⟩ := not_or.mp fun found => aloof (.controls named found)
      rw [Table.erase_absent absent, Table.erase_absent absent', lookup_eq_none.mpr absent, lookup_eq_none.mpr absent']
      rfl
    | etpAcked named =>
      have absent : (decoded.sourceAddr, _) ∉ e.etpTx := fun found => aloof (.controls named found)
      rw [Table.erase_absent absent]

end Ignored

section Reordering

variable {e e₀ : TpEngine}

theorem Engages.reordered {decoded : DecodedId} {data : List UInt8} (reordered : e.Reordered e₀)
    (engages : e₀.Engages decoded data) : e.Engages decoded data := by
  cases engages with
  | announces announced => exact .announces announced
  | @controls c pgn b named found =>
    refine .controls named ?_
    have tx := mem_of_perm (a := (decoded.sourceAddr, pgn)) reordered.txConn
    have rx := mem_of_perm (a := (decoded.sourceAddr, pgn)) reordered.rxConn
    have etpTx := mem_of_perm (a := (decoded.sourceAddr, pgn)) reordered.etpTx
    have etpRx := mem_of_perm (a := (decoded.sourceAddr, pgn)) reordered.etpRx
    cases c <;> simpa only [Control.Finds, tx, rx, etpTx, etpRx] using found
  | carries carried bytes held source expected =>
    rw [reordered.inbound] at held
    exact .carries carried bytes held source expected

theorem Passive.reordered (passive : e.Passive) (reordered : e.Reordered e₀) : e₀.Passive where
  txConn := by
    rw [← passive.txConn]
    exact Table.eq_of_perm reordered.txConn (by rw [passive.txConn]; exact Nat.zero_le 1)
  etpTx := by
    rw [← passive.etpTx]
    exact Table.eq_of_perm reordered.etpTx (by rw [passive.etpTx]; exact Nat.zero_le 1)

theorem Passive.onFrame_total
    (passive : e.Passive)
    (wf : e.WellFormed)
    (decoded : DecodedId) (data : List UInt8) (now : Nat) :
    ∃ result, e.onFrame decoded data now = .ok result := by
  by_cases requests : RequestsPackets decoded data
  · obtain ⟨_, b, named | named⟩ := requests
    · refine ⟨_, onFrame_cts_unfound named ?_⟩
      rw [passive.txConn]
      exact notMem_empty _
    · refine ⟨_, onFrame_etpCts_unfound named ?_⟩
      rw [passive.etpTx]
      exact notMem_empty _
  · exact TpEngine.onFrame_total wf requests now

theorem Owned.reordered {x : UInt8} (owned : e.Owned x) (reordered : e.Reordered e₀) : e₀.Owned x where
  txConn := (Passive.reordered ⟨owned.txConn, owned.etpTx⟩ reordered).txConn
  etpTx := (Passive.reordered ⟨owned.txConn, owned.etpTx⟩ reordered).etpTx
  rxConn := owned.rxConn.perm reordered.rxConn
  etpRx := owned.etpRx.perm reordered.etpRx
  pending := by
    rw [reordered.pendingOut]
    exact owned.pending

end Reordering

theorem Owned.timeoutFrames {x : UInt8} {e : TpEngine} (owned : e.Owned x) (now : Nat) :
    ∀ f ∈ e.timeoutFrames now, f.sourceAddr = x := by
  intro f member
  simp only [TpEngine.timeoutFrames, mem_append, mem_map] at member
  rcases member with ((⟨s, member, rfl⟩ | ⟨s, member, rfl⟩) | ⟨s, member, rfl⟩) | ⟨s, member, rfl⟩
  · exact owned.rxConn.matching member
  · rw [owned.txConn] at member
    cases member
  · exact owned.etpRx.matching member
  · rw [owned.etpTx] at member
    cases member

end TpEngine

variable {e e' : TpEngine} {i : TpInput} {events : List TpEvent}

theorem Effect.passive
    (effect : Effect e i events e')
    (passive : e.Passive)
    (received : (∃ decoded data now, i = .frame decoded data now) ∨ ∃ now, i = .pollTimeouts now) : e'.Passive := by
  obtain ⟨txConn, etpTx⟩ := passive
  cases effect with
  | cts named found =>
    rw [txConn] at found
    cases found
  | etpCts named found =>
    rw [etpTx] at found
    cases found
  | connAcked | connAborted => exact ⟨by rw [txConn]; rfl, etpTx⟩
  | etpAcked | etpAborted => exact ⟨txConn, by rw [etpTx]; rfl⟩
  | startedConnection | startedEtp => simp at received
  | swept now => exact ⟨by simp only [TpEngine.swept, txConn]; rfl, by simp only [TpEngine.swept, etpTx]; rfl⟩
  | _ => exact ⟨txConn, etpTx⟩

theorem Effect.owned {x : UInt8}
    (effect : Effect e i events e')
    (owned : e.Owned x)
    (received : (∃ decoded data now, i = .frame decoded data now) ∨ ∃ now, i = .pollTimeouts now)
    (addressed : ∀ decoded data now a ourSa, i = .frame decoded data now → announcement decoded data = some a →
      decoded.destAddr = some ourSa → ourSa ≠ globalAddress → ourSa = x) : e'.Owned x := by
  obtain ⟨txConn', etpTx'⟩ := effect.passive ⟨owned.txConn, owned.etpTx⟩ received
  have timeouts := owned.timeoutFrames
  obtain ⟨txConn, etpTx, rxConn, etpRx, pending⟩ := owned
  have replied {f : TpOutFrame} (own : f.sourceAddr = x) : ∀ g ∈ e.pendingOut ++ [f], g.sourceAddr = x := by
    intro g member
    rcases mem_append.mp member with member | member
    · exact pending g member
    · rwa [mem_singleton.mp member]
  cases effect with
  | ignored | bamRefused | bamOpened | bamAccepted | bamCompleted | connAcked | etpAcked =>
    exact ⟨txConn', etpTx', rxConn, etpRx, pending⟩
  | connRefused bytes parsed announced =>
    obtain ⟨_, dest, specific, _⟩ := parseConnRts_sound parsed
    exact ⟨txConn', etpTx', rxConn, etpRx, replied (addressed _ _ _ _ _ rfl announced dest specific)⟩
  | connOpened bytes parsed announced =>
    obtain ⟨_, dest, specific, _⟩ := parseConnRts_sound parsed
    have own := addressed _ _ _ _ _ rfl announced dest specific
    exact ⟨txConn', etpTx', rxConn.insert own, etpRx, replied own⟩
  | connWaiting takes =>
    have own := rxConn _ _ takes.found
    exact ⟨txConn', etpTx', rxConn.insert own, etpRx, pending⟩
  | connGranted takes =>
    have own := rxConn _ _ takes.found
    exact ⟨txConn', etpTx', rxConn.insert own, etpRx, replied own⟩
  | connCompleted takes =>
    have own := rxConn _ _ takes.found
    exact ⟨txConn', etpTx', rxConn.erase _, etpRx, replied own⟩
  | cts named found =>
    rw [txConn] at found
    cases found
  | connAborted => exact ⟨txConn', etpTx', rxConn.erase _, etpRx, pending⟩
  | etpOversize bytes parsed announced | etpRefused bytes parsed announced =>
    obtain ⟨_, dest, specific, _⟩ := parseEtpRts_sound parsed
    exact ⟨txConn', etpTx', rxConn, etpRx, replied (addressed _ _ _ _ _ rfl announced dest specific)⟩
  | etpOpened bytes parsed announced =>
    obtain ⟨_, dest, specific, _⟩ := parseEtpRts_sound parsed
    have own := addressed _ _ _ _ _ rfl announced dest specific
    exact ⟨txConn', etpTx', rxConn, etpRx.insert own, replied own⟩
  | etpCts named found =>
    rw [etpTx] at found
    cases found
  | etpDpo named found =>
    have own := etpRx _ _ found
    exact ⟨txConn', etpTx', rxConn, etpRx.insert own, pending⟩
  | etpWaiting takes =>
    have own := etpRx _ _ takes.found
    exact ⟨txConn', etpTx', rxConn, etpRx.insert own, pending⟩
  | etpGranted takes =>
    have own := etpRx _ _ takes.found
    exact ⟨txConn', etpTx', rxConn, etpRx.insert own, replied own⟩
  | etpCompleted takes =>
    have own := etpRx _ _ takes.found
    exact ⟨txConn', etpTx', rxConn, etpRx.erase _, replied own⟩
  | etpAborted => exact ⟨txConn', etpTx', rxConn, etpRx.erase _, pending⟩
  | startedConnection | startedEtp | drained => simp at received
  | swept now =>
    refine ⟨txConn', etpTx', rxConn.retain _, etpRx.retain _, ?_⟩
    intro f member
    rcases mem_append.mp member with member | member
    · exact pending f member
    · exact timeouts now f member

end Taktora.J1939
