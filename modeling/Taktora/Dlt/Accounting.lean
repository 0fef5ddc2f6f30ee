import Mathlib.Algebra.GroupWithZero.Nat
import Taktora.Dlt.Flusher

namespace Taktora.Dlt

open List Option Write

variable {R : Type}

def Write.count : Write R → Option Nat
  | ⟨.dropSummary count, true⟩ => some count
  | _ => none

def Phase.reported : Phase R → Nat
  | .drain reported => reported
  | _ => 0

def Phase.Sound (drops : Nat) : Phase R → Prop
  | .summary read => 0 < read ∧ read ≤ drops
  | .drain reported => reported ≤ drops
  | _ => True

theorem Phase.Sound.mono {phase : Phase R} {drops drops' : Nat}
    (sound : phase.Sound drops)
    (grows : drops ≤ drops') : phase.Sound drops' := by
  cases phase with
  | summary read => exact ⟨sound.1, Nat.le_trans sound.2 grows⟩
  | drain reported => exact Nat.le_trans sound grows
  | _ => exact True.intro

namespace DltBackend

variable (s : DltBackend R)

def reported : Nat := (s.writes.filterMap Write.count).sum

/-- The records written, in the channel, in the ring and with the flusher, the drops reported and the counter. -/
def total : Nat :=
  s.written.length + s.channel.length + s.ring.inner.length + s.phase.held.length + s.reported + s.ring.drops

def Accounted : Prop := s.accepted.length = s.total

def CountedOnce : Prop := s.accepted.length + s.phase.reported = s.total

def lostIn : Phase R → Nat
  | .drain reported => s.ring.drops - reported
  | .loop => if s.stop then s.channel.length else 0
  | _ => 0

/-- The drops that a drain clears though no summary has reported them, and the records that an exit discards. -/
def lost : DltEvent R → Nat
  | .flusher _ => s.lostIn s.phase
  | _ => 0

def reports : Phase R → DltEvent R → Bool
  | .summary _, .flusher true => true
  | _, _ => false

variable (event : DltEvent R)

def Careful : Prop := s.lost event = 0

def Quiet : Prop := s.lost event = 0 ∧ reports s.phase event = false

def CarefulStep (s' : DltBackend R) : Prop := s.Careful event ∧ s.Step event s'

def QuietStep (s' : DltBackend R) : Prop := s.Quiet event ∧ s.Step event s'

structure Balanced (s : DltBackend R) (lost : Nat) : Prop where
  sound : s.phase.Sound s.ring.drops
  balance : s.accepted.length + s.phase.reported = s.total + lost

section Steps

variable {s s' : DltBackend R} {event : DltEvent R} {lost : Nat}

variable (s) (frame : Frame R)

theorem written_write (ok : Bool) (next : Phase R) :
    (s.write frame ok next).written = s.written ++ (delivered ⟨frame, ok⟩).toList := by
  show filterMap _ (_ ++ [_]) = _
  rw [filterMap_append]
  rcases delivered : delivered ⟨frame, ok⟩ with _ | _
  · rw [filterMap_cons_none delivered]
    rfl
  · rw [filterMap_cons_some delivered]
    rfl

theorem reported_write (ok : Bool) (next : Phase R) :
    (s.write frame ok next).reported = s.reported + (Write.count ⟨frame, ok⟩).getD 0 := by
  show (filterMap _ (_ ++ [_])).sum = _
  rw [filterMap_append, sum_append]
  rcases counted : Write.count ⟨frame, ok⟩ with _ | _
  · rw [filterMap_cons_none counted]
    rfl
  · rw [filterMap_cons_some counted]
    rfl

theorem total_write (ok : Bool) (next : Phase R) : (s.write frame ok next).total + s.phase.held.length =
      s.total + (delivered ⟨frame, ok⟩).toList.length + (count ⟨frame, ok⟩).getD 0 + next.held.length := by
  have written := congrArg length (s.written_write frame ok next)
  have reported := s.reported_write frame ok next
  rw [length_append] at written
  unfold total
  rw [written, reported]
  simp only [write]
  omega

theorem total_push (bytes : R) (refused : Nat → Option R) (accepted : List R) (connected : Bool) (next : Phase R) :
    ({ s with ring := s.ring.push bytes, refused, accepted, connected, phase := next } : DltBackend R).total +
      s.phase.held.length = s.total + 1 + next.held.length := by
  have counts := s.ring.push_counts bytes
  simp only [total, written, reported]
  omega

theorem total_goto (next : Phase R) :
    (s.goto next).total + s.phase.held.length = s.total + next.held.length := by
  simp only [total, written, reported, goto]
  omega

variable {s}

section

variable {phase next : Phase R} (balanced : s.Balanced lost)
include balanced

theorem Balanced.goto
    (here : s.phase = phase)
    (sound : next.Sound s.ring.drops)
    (held : next.held.length = phase.held.length)
    (reported : next.reported = phase.reported) : (s.goto next).Balanced lost := by
  have balance := balanced.balance
  have total := s.total_goto next
  subst here
  constructor
  · exact sound
  · show s.accepted.length + next.reported = _
    omega

theorem Balanced.write {frame : Frame R} {ok : Bool}
    (here : s.phase = phase)
    (sound : next.Sound s.ring.drops)
    (held : phase.held.length = (delivered ⟨frame, ok⟩).toList.length + next.held.length)
    (reported : next.reported = phase.reported + (count ⟨frame, ok⟩).getD 0) :
    (s.write frame ok next).Balanced lost := by
  have balance := balanced.balance
  have total := s.total_write frame ok next
  subst here
  constructor
  · exact sound
  · show s.accepted.length + next.reported = _
    omega

theorem Balanced.exit
    (here : s.phase = phase)
    (held : phase.held = [])
    (reported : phase.reported = 0) :
    s.exit.Balanced (lost + s.channel.length) := by
  have balance := balanced.balance
  subst here
  have discarded : s.exit.total + s.channel.length = s.total := by
    simp only [total, written, DltBackend.reported, held]
    simp only [DltBackend.exit, Phase.held, length_nil]
    omega
  constructor
  · exact True.intro
  · show s.accepted.length + 0 = _
    omega

theorem Balanced.check (here : s.phase = .loop) : s.check.Balanced (lost + s.lostIn .loop) := by
  unfold DltBackend.check lostIn
  split
  · exact balanced.exit here rfl rfl
  · split
    · exact balanced.goto here True.intro rfl rfl
    · exact balanced.goto here True.intro rfl rfl

theorem Balanced.snapshot (here : s.phase = .snapshot) : s.snapshot.Balanced lost := by
  unfold DltBackend.snapshot
  split
  · rename_i dropped
    exact balanced.goto here ⟨dropped, Nat.le_refl _⟩ rfl rfl
  · exact balanced.goto here (Nat.zero_le _) rfl rfl

theorem Balanced.drain {reported : Nat} (here : s.phase = .drain reported) :
    s.drain.Balanced (lost + (s.ring.drops - reported)) := by
  have balance := balanced.balance
  have sound := balanced.sound
  rw [here] at balance sound
  have covers : reported ≤ s.ring.drops := sound
  have cleared : s.drain.total + s.ring.drops = s.total := by
    simp only [total, written, DltBackend.reported, here]
    simp only [DltBackend.drain, OfflineRing.drainAll, OfflineRing.drained, Phase.held, length_nil]
    omega
  constructor
  · exact True.intro
  · show s.accepted.length + 0 = _
    simp only [Phase.reported] at balance
    omega

theorem Balanced.connected (connected : Bool) (here : s.phase = phase) (sound : next.Sound s.ring.drops)
    (held : next.held.length = phase.held.length) (reported : next.reported = phase.reported) :
    ({ s with connected, phase := next } : DltBackend R).Balanced lost := by
  have moved := balanced.goto here sound held reported
  exact ⟨moved.sound, moved.balance⟩

theorem Balanced.push (bytes : R) (connected : Bool) (here : s.phase = phase)
    (sound : next.Sound (s.ring.push bytes).drops) (held : phase.held.length = next.held.length + 1)
    (reported : next.reported = phase.reported) :
    ({ s with ring := s.ring.push bytes, connected, phase := next } : DltBackend R).Balanced lost := by
  have balance := balanced.balance
  have total := s.total_push bytes s.refused s.accepted connected next
  subst here
  constructor
  · exact sound
  · show s.accepted.length + next.reported = _
    omega

theorem Balanced.send (ok : Bool) {left : List R} (here : s.phase = .send left) : (s.send ok left).Balanced lost := by
  cases left with
  | nil => exact balanced.connected true here True.intro rfl rfl
  | cons bytes rest =>
    cases ok with
    | false => exact balanced.write here True.intro (by simp [delivered, Phase.held]) rfl
    | true => exact balanced.write here True.intro (by simp [delivered, Phase.held, add_comm]) rfl

theorem Balanced.rebuffer {left : List R} (here : s.phase = .rebuffer left) : (s.rebuffer left).Balanced lost := by
  cases left with
  | nil => exact balanced.connected false here True.intro rfl rfl
  | cons bytes rest => exact balanced.push bytes s.connected here True.intro rfl rfl

theorem Balanced.receive (here : s.phase = .receive) : s.receive.Balanced lost := by
  have balance := balanced.balance
  unfold DltBackend.receive
  split
  · rename_i bytes rest channel
    have moved : { s with channel := rest, phase := .handle bytes }.total = s.total := by
      simp only [total, written, DltBackend.reported, here, channel]
      simp only [Phase.held, length_cons, length_nil]
      omega
    constructor
    · exact True.intro
    · rw [moved, ← balance, here]
      rfl
  · rename_i empty
    split
    · have left := balanced.exit here rfl rfl
      rwa [empty] at left
    · exact balanced.goto here True.intro rfl rfl

theorem Balanced.handle {bytes : R} (ok : Bool)
    (here : s.phase = .handle bytes) : (s.handle bytes ok).Balanced lost := by
  unfold DltBackend.handle
  split
  · cases ok with
    | false | true => exact balanced.write here True.intro rfl rfl
  · exact balanced.goto here True.intro rfl rfl

theorem Balanced.summary {drops : Nat} (ok : Bool) (here : s.phase = .summary drops) :
    (s.write (.dropSummary drops) ok (if ok then .drain drops else .loop)).Balanced lost := by
  have sound := balanced.sound
  rw [here] at sound
  cases ok with
  | false => exact balanced.write here True.intro rfl rfl
  | true => exact balanced.write here sound.2 rfl (zero_add drops).symm

theorem Balanced.flush {ok : Bool}
    (here : s.phase = phase)
    (flushed : s.flush ok phase = some s') : s'.Balanced (lost + s.lostIn phase) := by
  cases phase with
  | loop => cases flushed; exact balanced.check here
  | connect =>
    cases flushed
    cases ok with
    | false | true => exact balanced.goto here True.intro rfl rfl
  | snapshot => cases flushed; exact balanced.snapshot here
  | summary drops => cases flushed; exact balanced.summary ok here
  | drain reported => cases flushed; exact balanced.drain here
  | send left => cases flushed; exact balanced.send ok here
  | rebuffer left => cases flushed; exact balanced.rebuffer here
  | receive => cases flushed; exact balanced.receive here
  | handle bytes => cases flushed; exact balanced.handle ok here
  | buffer bytes =>
    cases flushed
    exact balanced.push bytes false here True.intro rfl rfl
  | idle =>
    cases flushed
    exact balanced.connected _ here True.intro rfl rfl
  | exited => cases flushed

theorem Balanced.trySend (producer : Nat) (bytes : R) : (s.trySend producer bytes).Balanced lost := by
  have balance := balanced.balance
  unfold DltBackend.trySend
  split
  · exact ⟨balanced.sound, balance⟩
  · constructor
    · exact balanced.sound
    · simp only [total, written, reported, length_append, length_singleton] at balance ⊢
      omega

theorem Balanced.pushRefused (producer : Nat) (bytes : R) : (s.pushRefused producer bytes).Balanced lost := by
  have balance := balanced.balance
  have total := s.total_push bytes (Function.update s.refused producer none) (s.accepted ++ [bytes]) s.connected s.phase
  constructor
  · exact balanced.sound.mono (s.ring.drops_le_push bytes)
  · show (s.accepted ++ [bytes]).length + s.phase.reported = _
    rw [length_append, length_singleton]
    unfold DltBackend.pushRefused
    omega

theorem Balanced.step (step : s.Step event s') : s'.Balanced (lost + s.lost event) := by
  cases event with
  | trySend producer bytes =>
    obtain ⟨_, same⟩ := ite_none_right_eq_some.mp step
    cases same
    exact balanced.trySend producer bytes
  | pushRefused producer =>
    obtain ⟨bytes, _, rfl⟩ := map_eq_some_iff.mp step
    exact balanced.pushRefused producer bytes
  | shutdown | dropSender => cases step; exact ⟨balanced.sound, balanced.balance⟩
  | flusher ok => exact balanced.flush rfl step

end

theorem step_functional (s : DltBackend R) (event : DltEvent R) (t t' : DltBackend R) (first : s.Step event t)
    (second : s.Step event t') : t = t' := some.inj (first.symm.trans second)

theorem receive_reported (s : DltBackend R) : s.receive.phase.reported = 0 := by
  unfold receive
  split
  · rfl
  · split <;> rfl

theorem flush_reported {ok : Bool} {phase : Phase R} (quiet : reports phase (.flusher ok) = false)
    (flushed : s.flush ok phase = some s') : s'.phase.reported = 0 := by
  cases phase with
  | loop =>
    cases flushed
    unfold check
    split
    · rfl
    · split <;> rfl
  | connect => cases flushed; cases ok <;> rfl
  | snapshot =>
    cases flushed
    unfold snapshot
    split <;> rfl
  | summary drops =>
    cases ok with
    | false => cases flushed; rfl
    | true => cases quiet
  | send left => cases flushed; cases left <;> cases ok <;> rfl
  | rebuffer left => cases flushed; cases left <;> rfl
  | receive => cases flushed; exact s.receive_reported
  | handle bytes =>
    cases flushed
    unfold handle
    split
    · cases ok <;> rfl
    · rfl
  | exited => cases flushed
  | _ => cases flushed; rfl

theorem step_reported
    (quiet : reports s.phase event = false)
    (step : s.Step event s')
    (unreported : s.phase.reported = 0) : s'.phase.reported = 0 := by
  cases event with
  | trySend producer bytes =>
    obtain ⟨_, same⟩ := ite_none_right_eq_some.mp step
    cases same
    unfold trySend
    split <;> exact unreported
  | pushRefused producer =>
    obtain ⟨_, _, rfl⟩ := map_eq_some_iff.mp step
    exact unreported
  | shutdown | dropSender => cases step; exact unreported
  | flusher ok => exact flush_reported quiet step

theorem lost_of_reports (reporting : reports s.phase event = true) : s.lost event = 0 := by
  unfold reports at reporting
  split at reporting
  · rename_i drops phase
    show s.lostIn s.phase = 0
    rw [phase]
    rfl
  · cases reporting

theorem reported_of_reports
    (balanced : s.Balanced lost)
    (reporting : reports s.phase event = true)
    (step : s.Step event s') : 0 < s'.phase.reported := by
  unfold reports at reporting
  split at reporting
  · rename_i drops phase
    have sound := balanced.sound
    rw [phase] at sound
    change s.flush true s.phase = some s' at step
    rw [phase] at step
    cases step
    exact sound.1
  · cases reporting

end Steps

section Runs

variable {ringCapacity : Nat} {history : List (DltEvent R)} {finish : DltBackend R}

theorem exists_lost (run : Run Step (build ringCapacity) history finish) :
    ∃ lost, finish.Balanced lost ∧ (lost = 0 ↔ Run CarefulStep (build ringCapacity) history finish) := by
  induction run with
  | nil => exact ⟨0, ⟨True.intro, rfl⟩, iff_of_true rfl .nil⟩
  | snoc before last ih =>
    obtain ⟨lost, balanced, careful⟩ := ih
    apply Exists.intro (lost + _)
    apply And.intro (balanced.step last)
    apply trans _ (Run.snoc_iff step_functional before last).symm
    rw [Nat.add_eq_zero_iff, careful]
    rfl

theorem balanced_of_careful (run : Run CarefulStep (build ringCapacity) history finish) : finish.Balanced 0 := by
  obtain ⟨_, balanced, careful⟩ := exists_lost (run.mono fun _ _ _ step => step.2)
  cases careful.mpr run
  exact balanced

theorem reported_of_quiet (run : Run QuietStep (build ringCapacity) history finish) : finish.phase.reported = 0 :=
  run.invariant (I := fun s => s.phase.reported = 0) rfl fun _ _ _ unreported step =>
    step_reported step.1.2 step.2 unreported

theorem accounted_of_quiet (run : Run QuietStep (build ringCapacity) history finish) : finish.Accounted := by
  have balance := (balanced_of_careful (run.mono fun _ _ _ step => ⟨step.1.1, step.2⟩)).balance
  rw [reported_of_quiet run] at balance
  exact balance

theorem quiet_of_accounted {s : DltBackend R} {event : DltEvent R}
    (run : Run QuietStep (build ringCapacity) history s)
    (step : s.Step event finish)
    (accounted : finish.Accounted) : s.Quiet event := by
  have balanced := balanced_of_careful (run.mono fun _ _ _ step => ⟨step.1.1, step.2⟩)
  have balance := (balanced.step step).balance
  unfold Accounted at accounted
  cases reporting : reports s.phase event with
  | true =>
    have twice := reported_of_reports balanced reporting step
    rw [lost_of_reports reporting] at balance
    omega
  | false =>
    rw [step_reported reporting step (reported_of_quiet run)] at balance
    exact ⟨by omega, reporting⟩

/-- The records are accounted for exactly if no drain cleared unreported drops and no exit discarded records. -/
theorem records_accounted_iff (ringCapacity : Nat) {history : List (DltEvent R)} {finish : DltBackend R}
    (run : Run Step (build ringCapacity) history finish) :
    (finish.CountedOnce ↔ Run CarefulStep (build ringCapacity) history finish) ∧
      ((∀ earlier s, earlier <+: history → Run Step (build ringCapacity) earlier s → s.Accounted) ↔
      Run QuietStep (build ringCapacity) history finish) := by
  constructor
  · obtain ⟨_, balanced, careful⟩ := exists_lost run
    have balance := balanced.balance
    unfold CountedOnce
    rw [← careful]
    omega
  · induction run with
    | nil =>
      apply iff_of_true _ .nil
      intro earlier s begins run
      cases prefix_nil.mp begins
      cases run.eq_start rfl
      rfl
    | snoc before last ih =>
      constructor
      · intro always
        have quiet := ih.mp fun earlier s begins => always earlier s (begins.trans (prefix_append _ _))
        have accounted := always _ _ (prefix_refl _) (.snoc before last)
        exact .snoc quiet ⟨quiet_of_accounted quiet last accounted, last⟩
      · intro quiet earlier s begins run
        rcases prefix_concat_iff.mp begins with rfl | begins
        · cases run.unique step_functional (.snoc before last)
          exact accounted_of_quiet quiet
        · exact ih.mpr ((Run.snoc_iff step_functional before last).mp quiet).1 earlier s begins run

def overflowing (events : List (DltEvent Nat)) : List (DltEvent Nat) :=
  (List.range PRODUCER_QUEUE_CAP).map (.trySend 0) ++ [.trySend 0 4096, .pushRefused 0] ++ events

theorem run_overflowing {events : List (DltEvent Nat)} {finish : DltBackend Nat}
    (follows : Run.follow act (filled 1 (List.range PRODUCER_QUEUE_CAP))
      ([.trySend 0 4096, .pushRefused 0] ++ events) = some finish) :
    Run Step (build 1) (overflowing events) finish := by
  rw [overflowing, append_assoc]
  exact (Run.of_follow (follow_filled 1 (Nat.le_of_eq length_range))).trans (Run.of_follow follows)

theorem reported_drop_is_accounted :
    ∃ history finish, Run CarefulStep (build 1) history finish ∧ finish.CountedOnce ∧
      (finish.reported, finish.written) = (1, [4097]) := by
  have drains : (Run.follow act (filled 1 (List.range PRODUCER_QUEUE_CAP)) ([.trySend 0 4096, .pushRefused 0] ++
      ([.trySend 0 4097, .pushRefused 0] ++ List.replicate 6 (.flusher true)))).map
        (fun s => (s.accepted.length, s.phase.reported, s.total, s.reported, s.written)) =
          some (4098, 0, 4098, 1, [4097]) := by
    decide +kernel
  obtain ⟨finish, follows, facts⟩ := map_eq_some_iff.mp drains
  simp only [Prod.mk.injEq] at facts ⊢
  have run := run_overflowing follows
  have counted : finish.CountedOnce := by
    unfold CountedOnce
    omega
  exact ⟨_, finish, (records_accounted_iff 1 run).1.mp counted, counted, facts.2.2.2⟩

/-- The drop is cleared with the counter and never reported. -/
theorem late_drop_is_lost :
    ∃ finish, Run Step (build 1) (overflowing [.flusher true, .flusher true, .flusher true, .trySend 0 4097,
        .pushRefused 0, .flusher true]) finish ∧ ¬finish.CountedOnce ∧ ¬finish.Accounted ∧
      (finish.accepted.length, finish.total, finish.ring.drops, finish.reported) = (4098, 4097, 0, 0) := by
  have drains : (Run.follow act (filled 1 (range PRODUCER_QUEUE_CAP)) ([.trySend 0 4096, .pushRefused 0] ++
      [.flusher true, .flusher true, .flusher true, .trySend 0 4097, .pushRefused 0, .flusher true])).map
        (fun s => (s.accepted.length, s.total, s.ring.drops, s.reported, s.phase.reported)) =
        some (4098, 4097, 0, 0, 0) := by
    decide +kernel
  obtain ⟨finish, follows, facts⟩ := map_eq_some_iff.mp drains
  simp only [Prod.mk.injEq] at facts ⊢
  apply Exists.intro finish
  apply And.intro (run_overflowing follows)
  unfold CountedOnce Accounted
  omega

end Runs

end DltBackend

end Taktora.Dlt
