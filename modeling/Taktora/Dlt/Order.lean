import Taktora.Dlt.Flusher
import Taktora.Lib.Retry

namespace Taktora.Dlt

open List Option Bool

variable {R : Type}

def Write.attempt : Write R → Option (R × Bool)
  | ⟨.record bytes, ok⟩ => some (bytes, ok)
  | ⟨.dropSummary _, _⟩ => none

def Phase.reconnects : Phase R → Bool
  | .connect | .snapshot | .summary _ | .drain _ | .send _ | .rebuffer _ => true
  | _ => false

def Phase.sends : Phase R → Bool
  | .send _ => true
  | _ => false

namespace DltBackend

variable (s : DltBackend R)

def attempts : List (R × Bool) := s.writes.filterMap Write.attempt

def pushes : Phase R → DltEvent R → Bool
  | _, .pushRefused _ => true
  | .buffer _, .flusher _ => true
  | .rebuffer (_ :: _), .flusher _ => true
  | _, _ => false

variable (event : DltEvent R)

def NoOverflow : Prop :=
  pushes s.phase event = true → s.ring.inner.length ≠ s.ring.capacity

def Roomy : DltEvent R → Prop
  | .trySend _ _ => s.phase.exits = true ∨ s.channel.length ≠ PRODUCER_QUEUE_CAP
  | _ => True

instance (s : DltBackend R) (event : DltEvent R) : Decidable (s.NoOverflow event) :=
  inferInstanceAs (Decidable (pushes s.phase event = true → s.ring.inner.length ≠ s.ring.capacity))

instance (s : DltBackend R) : (event : DltEvent R) → Decidable (s.Roomy event)
  | .trySend _ _ => inferInstanceAs (Decidable (s.phase.exits = true ∨ s.channel.length ≠ PRODUCER_QUEUE_CAP))
  | .pushRefused _ | .shutdown | .dropSender | .flusher _ => inferInstanceAs (Decidable True)

def BufferedStep (s' : DltBackend R) : Prop := s.NoOverflow event ∧ s.Step event s'

def RoomyStep (s' : DltBackend R) : Prop :=
  (s.NoOverflow event ∧ s.Roomy event) ∧ s.Step event s'

/-- What is accepted and not written, from the oldest record to the newest. -/
def pending : List R := s.ring.inner ++ (s.phase.held ++ s.channel)

structure InOrder (s : DltBackend R) : Prop where
  follows : Retry.Follows s.accepted s.attempts
  pending : s.phase.exits = false → s.accepted = Retry.delivered s.attempts ++ s.pending
  begins : Retry.delivered s.attempts <+: s.accepted
  refused : s.phase.exits = false → ∀ producer, s.refused producer = none
  connected : s.connected = true → s.phase.exits = false → s.ring.inner = []
  reconnects : s.phase.reconnects = true → s.connected = false
  sends : s.phase.sends = true → s.ring.inner = []

section Steps

variable {s s' : DltBackend R} {event : DltEvent R}

variable (s)

theorem written_eq : s.written = Retry.delivered s.attempts := by
  unfold written attempts
  induction s.writes with
  | nil => rfl
  | cons write rest ih =>
    obtain ⟨frame, ok⟩ := write
    cases frame with
    | record bytes =>
      cases ok with
      | false => exact ih
      | true => exact congrArg (bytes :: ·) ih
    | dropSummary count => exact ih

theorem attempts_write (bytes : R) (ok : Bool) (next : Phase R) :
    (s.write (.record bytes) ok next).attempts = s.attempts ++ [(bytes, ok)] := by
  show filterMap _ (_ ++ [_]) = _
  rw [filterMap_append]
  rfl

theorem attempts_summary (drops : Nat) (ok : Bool) (next : Phase R) :
    (s.write (.dropSummary drops) ok next).attempts = s.attempts := by
  show filterMap _ (_ ++ [_]) = _
  rw [filterMap_append]
  exact append_nil _

variable {s}

section

variable (order : s.InOrder)
include order

variable {channel : List R} {bytes : R} {ok : Bool} {phase next : Phase R}

theorem InOrder.online (runs : s.phase.exits = false) : s.connected = false ∨ s.ring.inner = [] := by
  cases connected : s.connected with
  | false => exact .inl rfl
  | true => exact .inr (order.connected connected runs)

theorem InOrder.moved (here : s.phase = phase) (runs : phase.exits = false) {connected : Bool}
    (held : next.held ++ channel = phase.held ++ s.channel) (online : connected = false ∨ s.ring.inner = [])
    (offline : next.reconnects = false ∨ connected = false) (sends : next.sends = false ∨ s.ring.inner = []) :
    ({ s with phase := next, channel, connected } : DltBackend R).InOrder where
  follows := order.follows
  pending := fun _ => by
    subst here
    show s.accepted = Retry.delivered s.attempts ++ (s.ring.inner ++ (next.held ++ channel))
    rw [held]
    exact order.pending runs
  begins := order.begins
  refused := fun _ => order.refused (here ▸ runs)
  connected := fun now _ => online.resolve_left (ne_false_of_eq_true now)
  reconnects := fun now => offline.resolve_left (ne_false_of_eq_true now)
  sends := fun now => sends.resolve_left (ne_false_of_eq_true now)

theorem InOrder.tried
    (runs : s.phase.exits = false)
    {rest : List R}
    (empty : s.ring.inner = [])
    (held : s.phase.held = bytes :: rest)
    (left : next.held = if ok then rest else bytes :: rest)
    (offline : next.reconnects = true → s.connected = false) :
    (s.write (.record bytes) ok next).InOrder := by
  have split := order.pending runs
  rw [DltBackend.pending, empty, held] at split
  have attempts := s.attempts_write bytes ok next
  have now : s.accepted = Retry.delivered (s.write (.record bytes) ok next).attempts ++
      (s.write (.record bytes) ok next).pending := by
    rw [attempts]
    show s.accepted = _ ++ (s.ring.inner ++ (next.held ++ s.channel))
    rw [empty, left]
    cases ok with
    | false | true => simpa [Retry.delivered] using split
  constructor
  · rw [attempts]
    exact order.follows.attempt ok split
  · exact fun _ => now
  · exact ⟨_, now.symm⟩
  · exact fun _ => order.refused runs
  · exact fun _ _ => empty
  · exact offline
  · exact fun _ => empty

theorem InOrder.buffered (runs : s.phase.exits = false)
    (room : s.ring.inner.length ≠ s.ring.capacity) (held : s.phase.held = bytes :: next.held)
    (silent : next.sends = false) :
    ({ s with ring := s.ring.push bytes, connected := false, phase := next } : DltBackend R).InOrder where
  follows := order.follows
  pending := fun _ => by
    have split := order.pending runs
    rw [DltBackend.pending, held] at split
    show s.accepted = Retry.delivered s.attempts ++ ((s.ring.push bytes).inner ++ (next.held ++ s.channel))
    rw [OfflineRing.push_of_room room, append_assoc]
    exact split
  begins := order.begins
  refused := fun _ => order.refused runs
  connected := fun now => absurd now false_ne_true
  reconnects := fun _ => rfl
  sends := fun now => absurd (silent.symm.trans now) false_ne_true

theorem InOrder.exit : s.exit.InOrder where
  follows := order.follows
  pending := fun now => absurd now.symm false_ne_true
  begins := order.begins
  refused := fun now => absurd now.symm false_ne_true
  connected := fun _ now => absurd now.symm false_ne_true
  reconnects := fun now => absurd now false_ne_true
  sends := fun now => absurd now false_ne_true

theorem InOrder.check (here : s.phase = .loop) : s.check.InOrder := by
  unfold DltBackend.check
  split
  · exact order.exit
  · split
    · exact order.moved here rfl rfl (order.online (congrArg Phase.exits here)) (.inl rfl) (.inl rfl)
    · rename_i offline
      have offline := eq_false_iff.mpr offline
      exact order.moved here rfl rfl (.inl offline) (.inr offline) (.inl rfl)

theorem InOrder.send {left : List R} (here : s.phase = .send left) (ok : Bool) : (s.send ok left).InOrder := by
  have runs : s.phase.exits = false := congrArg Phase.exits here
  have held : s.phase.held = left := congrArg Phase.held here
  have empty := order.sends (congrArg Phase.sends here)
  have offline := order.reconnects (congrArg Phase.reconnects here)
  cases left with
  | nil => exact order.moved here rfl rfl (.inr empty) (.inl rfl) (.inl rfl)
  | cons bytes rest =>
    apply order.tried runs empty held _ fun _ => offline
    cases ok <;> rfl

theorem InOrder.rebuffer {left : List R}
    (here : s.phase = .rebuffer left)
    (room : s.NoOverflow (.flusher ok)) : (s.rebuffer left).InOrder := by
  have runs : s.phase.exits = false := congrArg Phase.exits here
  have held : s.phase.held = left := congrArg Phase.held here
  have offline := order.reconnects (congrArg Phase.reconnects here)
  cases left with
  | nil => exact order.moved here rfl rfl (.inl rfl) (.inl rfl) (.inl rfl)
  | cons bytes rest =>
    have buffered : { s with ring := s.ring.push bytes, connected := false, phase := .rebuffer rest }.InOrder :=
      order.buffered runs (room (by rw [here]; rfl)) held rfl
    rwa [← offline] at buffered

theorem InOrder.receive (here : s.phase = .receive) : s.receive.InOrder := by
  have online := order.online (congrArg Phase.exits here)
  unfold DltBackend.receive
  split
  · rename_i bytes rest channel
    exact order.moved here rfl channel.symm online (.inl rfl) (.inl rfl)
  · split
    · exact order.exit
    · exact order.moved here rfl rfl online (.inl rfl) (.inl rfl)

theorem InOrder.handle (here : s.phase = .handle bytes) (ok : Bool) : (s.handle bytes ok).InOrder := by
  have runs : s.phase.exits = false := congrArg Phase.exits here
  have held : s.phase.held = [bytes] := congrArg Phase.held here
  unfold DltBackend.handle
  split
  · rename_i connected
    apply order.tried runs (order.connected connected runs) held
    · cases ok <;> rfl
    · cases ok <;> exact fun now => absurd now false_ne_true
  · rename_i offline
    exact order.moved here rfl rfl (.inl (eq_false_iff.mpr offline)) (.inl rfl) (.inl rfl)

theorem InOrder.drain {reported : Nat} (here : s.phase = .drain reported) : s.drain.InOrder where
  follows := order.follows
  pending := fun _ => by
    have split := order.pending (congrArg Phase.exits here)
    rw [DltBackend.pending, here] at split
    exact split
  begins := order.begins
  refused := fun _ => order.refused (congrArg Phase.exits here)
  connected := fun _ _ => rfl
  reconnects := fun _ => order.reconnects (congrArg Phase.reconnects here)
  sends := fun _ => rfl

theorem InOrder.summary {drops : Nat} (here : s.phase = .summary drops) (ok : Bool) :
    (s.write (.dropSummary drops) ok (if ok then .drain drops else .loop)).InOrder := by
  have offline := order.reconnects (congrArg Phase.reconnects here)
  have attempts := s.attempts_summary drops ok (if ok then .drain drops else .loop)
  have next : (if ok then .drain drops else .loop : Phase R).held = [] := by cases ok <;> rfl
  have silent : (if ok then .drain drops else .loop : Phase R).sends = false := by cases ok <;> rfl
  have moved : (s.goto (if ok then .drain drops else .loop)).InOrder :=
    order.moved here rfl (by rw [next]; rfl) (.inl offline) (.inr offline) (.inl silent)
  refine { moved with follows := ?_, pending := ?_, begins := ?_ }
  · rw [attempts]
    exact moved.follows
  · rw [attempts]
    exact moved.pending
  · rw [attempts]
    exact moved.begins

theorem InOrder.flush
    (here : s.phase = phase)
    (room : s.NoOverflow (.flusher ok))
    (flushed : s.flush ok phase = some s') : s'.InOrder := by
  cases phase with
  | loop => cases flushed; exact order.check here
  | connect =>
    cases flushed
    have offline := order.reconnects (congrArg Phase.reconnects here)
    cases ok with
    | false | true => exact order.moved here rfl rfl (.inl offline) (.inr offline) (.inl rfl)
  | snapshot =>
    cases flushed
    have offline := order.reconnects (congrArg Phase.reconnects here)
    unfold snapshot
    split
    · exact order.moved here rfl rfl (.inl offline) (.inr offline) (.inl rfl)
    · exact order.moved here rfl rfl (.inl offline) (.inr offline) (.inl rfl)
  | summary drops => cases flushed; exact order.summary here ok
  | drain reported => cases flushed; exact order.drain here
  | send left => cases flushed; exact order.send here ok
  | rebuffer left => cases flushed; exact order.rebuffer here room
  | receive => cases flushed; exact order.receive here
  | handle bytes => cases flushed; exact order.handle here ok
  | buffer bytes =>
    cases flushed
    exact order.buffered (by rw [here]; rfl) (room (by rw [here]; rfl)) (by rw [here]; rfl) rfl
  | idle =>
    cases flushed
    have online := order.online (congrArg Phase.exits here)
    exact order.moved here rfl rfl (online.imp_left fun offline => by rw [offline, Bool.false_and]) (.inl rfl)
      (.inl rfl)
  | exited => cases flushed

theorem InOrder.accepted {ring : OfflineRing R} {refused : Nat → Option R} (bytes : R)
    (runs : s.phase.exits = false → ring = s.ring ∧ channel = s.channel ++ [bytes] ∧ refused = s.refused) :
    ({ s with ring, channel, refused, accepted := s.accepted ++ [bytes] } : DltBackend R).InOrder := by
  cases exits : s.phase.exits with
  | false =>
    obtain ⟨rfl, rfl, rfl⟩ := runs exits
    have split := order.pending exits
    have now : s.accepted ++ [bytes] =
        Retry.delivered s.attempts ++ (s.ring.inner ++ (s.phase.held ++ (s.channel ++ [bytes]))) := by
      rw [split, DltBackend.pending]
      simp only [append_assoc]
    exact { order with follows := order.follows.grow _, pending := fun _ => now, begins := ⟨_, now.symm⟩ }
  | true =>
    have gone : s.phase = .exited := by
      cases phase : s.phase with
      | exited => rfl
      | _ => rw [phase] at exits; cases exits
    constructor
    · exact order.follows.grow _
    · exact fun now => absurd (exits.symm.trans now).symm false_ne_true
    · exact order.begins.trans (prefix_append _ _)
    · exact fun now => absurd (exits.symm.trans now).symm false_ne_true
    · exact fun _ now => absurd (exits.symm.trans now).symm false_ne_true
    · exact order.reconnects
    · intro now
      rw [gone] at now
      cases now

theorem InOrder.trySend (producer : Nat) (bytes : R)
    (room : s.phase.exits = true ∨ s.channel.length ≠ PRODUCER_QUEUE_CAP) : (s.trySend producer bytes).InOrder := by
  unfold DltBackend.trySend
  split
  · rename_i refuses
    have gone : s.phase.exits = true := by
      unfold DltBackend.refuses at refuses
      simp only [or_eq_true, decide_eq_true_eq] at refuses
      exact refuses.elim id fun full => room.resolve_right fun short => short full
    exact { order with refused := fun now => absurd (gone.symm.trans now).symm false_ne_true }
  · exact order.accepted bytes fun _ => ⟨rfl, rfl, rfl⟩

theorem InOrder.step (step : s.RoomyStep event s') : s'.InOrder := by
  obtain ⟨⟨room, roomy⟩, step⟩ := step
  cases event with
  | trySend producer bytes =>
    obtain ⟨_, same⟩ := ite_none_right_eq_some.mp step
    cases same
    exact order.trySend producer bytes roomy
  | pushRefused producer =>
    obtain ⟨bytes, refused, rfl⟩ := map_eq_some_iff.mp step
    apply order.accepted bytes
    intro runs
    rw [order.refused runs producer] at refused
    cases refused
  | shutdown | dropSender =>
    cases step
    exact { order with }
  | flusher ok => exact order.flush rfl room step

end

theorem build_inOrder (ringCapacity : Nat) : (build ringCapacity : DltBackend R).InOrder where
  follows := Retry.follows_nil _
  pending := fun _ => rfl
  begins := nil_prefix
  refused := fun _ _ => rfl
  connected := fun _ _ => rfl
  reconnects := fun _ => rfl
  sends := fun _ => rfl

end Steps

/-- While the channel has room, the records are written in the order they were accepted, from the first on. -/
theorem writes_in_order (ringCapacity : Nat) {history : List (DltEvent R)} {finish : DltBackend R}
    (run : Run RoomyStep (build ringCapacity) history finish) :
    finish.written <+: finish.accepted ∧ Retry.InOrder finish.accepted finish.attempts := by
  have order := run.invariant (build_inOrder ringCapacity) fun _ _ _ order step => order.step step
  apply And.intro _ order.follows.inOrder
  rw [written_eq]
  exact order.begins

theorem failed_record_is_retried :
    ∃ history finish, Run RoomyStep (build 4) history finish ∧ finish.attempts = [(7, false), (7, true), (8, true)] ∧
      finish.written <+: finish.accepted := by
  have follows : (Run.follow (fun s event => if s.NoOverflow event ∧ s.Roomy event then s.act event else none) (build 4)
      ([.trySend 0 7, .trySend 0 8] ++ List.replicate 6 (.flusher true) ++ .flusher false ::
        List.replicate 9 (.flusher true))).map (·.attempts) = some [(7, false), (7, true), (8, true)] := by
    decide +kernel
  obtain ⟨finish, reached, attempts⟩ := map_eq_some_iff.mp follows
  have run : Run RoomyStep (build 4) _ finish :=
    (Run.of_follow reached).mono fun _ _ _ step => ite_none_right_eq_some.mp step
  exact ⟨_, finish, run, attempts, (writes_in_order 4 run).1⟩

section Outage

variable {first : R} {rest : List R}

def outage (sent : List R) (last : R) : List (DltEvent R) :=
  sent.map (.trySend 0) ++ (.trySend 0 last :: .pushRefused 0 :: List.replicate 8 (.flusher true))

theorem run_filled (ringCapacity : Nat) {sent : List R} (room : sent.length ≤ PRODUCER_QUEUE_CAP) :
    Run BufferedStep (build ringCapacity) (sent.map (.trySend 0)) (filled ringCapacity sent) := by
  apply (Run.of_follow (follow_filled ringCapacity room)).mono_of_mem
  intro s event s' taken step
  obtain ⟨_, _, rfl⟩ := mem_map.mp taken
  exact ⟨fun pushes => absurd pushes (by cases s.phase <;> exact false_ne_true), step⟩

theorem outage_overtakes (last : R) (full : (first :: rest).length = PRODUCER_QUEUE_CAP) :
    ∃ finish, Run BufferedStep (build 1) (outage (first :: rest) last) finish ∧
      finish.accepted = first :: rest ++ [last] ∧ finish.attempts = [(last, true), (first, true)] := by
  have refused : (filled 1 (first :: rest)).act (.trySend 0 last) =
      some { filled 1 (first :: rest) with refused := Function.update (fun _ => none) 0 (some last) } := by
    have refuses : (filled 1 (first :: rest)).refuses = true := by
      unfold refuses
      rw [or_eq_true]
      exact .inr (decide_eq_true full)
    simp only [act, trySend, refuses]
    rfl
  have drains : (Run.follow (fun s event => if s.NoOverflow event then s.act event else none) { filled 1 (first :: rest)
      with refused := Function.update (fun _ => none) 0 (some last) }
        (.pushRefused 0 :: replicate 8 (.flusher true))).map
      (fun s => (s.accepted, s.attempts)) = some (first :: rest ++ [last], [(last, true), (first, true)]) := rfl
  obtain ⟨finish, follows, facts⟩ := map_eq_some_iff.mp drains
  simp only [Prod.mk.injEq] at facts
  have later := (Run.of_follow follows).mono fun _ _ _ step => ite_none_right_eq_some.mp step
  have sends : BufferedStep (filled 1 (first :: rest)) (.trySend 0 last) _ :=
    And.intro (fun pushes => absurd pushes false_ne_true) refused
  have run := (Run.snoc (run_filled 1 (Nat.le_of_eq full)) sends).trans later
  rw [append_assoc] at run
  exact ⟨finish, run, facts⟩

end Outage

/-- The last record of an outage is written before the first. -/
theorem last_record_is_written_first :
    ∃ finish, Run BufferedStep (build 1) (outage (List.range PRODUCER_QUEUE_CAP) PRODUCER_QUEUE_CAP) finish ∧
      finish.accepted = List.range (PRODUCER_QUEUE_CAP + 1) ∧ finish.written = [PRODUCER_QUEUE_CAP, 0] ∧
      ¬Retry.InOrder finish.accepted finish.attempts := by
  have sent : range PRODUCER_QUEUE_CAP = 0 :: (range 4095).map Nat.succ := range_succ_eq_map
  have full := length_range (n := PRODUCER_QUEUE_CAP)
  rw [sent] at full
  obtain ⟨finish, run, accepted, attempts⟩ := outage_overtakes PRODUCER_QUEUE_CAP full
  rw [← sent] at run accepted
  rw [← range_succ] at accepted
  apply Exists.intro finish
  apply And.intro run
  apply And.intro accepted
  constructor
  · rw [written_eq, attempts]
    rfl
  · rw [accepted, attempts]
    rintro ⟨_, found, ordered⟩
    have first := List.getElem?_eq_some_iff.mp (found 0 _ rfl)
    have second := List.getElem?_eq_some_iff.mp (found 1 _ rfl)
    have later := (ordered 0 1 _ Nat.one_pos (by decide) rfl).1
    simp only [getElem_range] at first second
    have capacity : PRODUCER_QUEUE_CAP = 4096 := rfl
    omega

end DltBackend

end Taktora.Dlt
