import Mathlib.Data.List.Perm.Basic
import Mathlib.Logic.Function.Basic
import Taktora.Lib.Run

namespace Taktora.Zenoh

open List Option Function

inductive FrameKind where
  | data
  | endOfStream
  | timeout
deriving DecidableEq, Repr

def FrameKind.discriminator : FrameKind → UInt8
  | .data => 0x01
  | .endOfStream => 0x02
  | .timeout => 0x03

structure Replies (Q : Type) where
  sealedQueries : List Q
  published : List (Q × List UInt8)

namespace Replies

variable {Q : Type} [DecidableEq Q] (s : Replies Q) (id : Q)

def publishWithCorrelation (bytes : List UInt8) : Replies Q :=
  { s with published := s.published ++ [(id, bytes)] }

def onReply (bytes : List UInt8) : Replies Q :=
  if id ∈ s.sealedQueries then s else s.publishWithCorrelation id (FrameKind.data.discriminator :: bytes)

def terminate (kind : FrameKind) : Replies Q :=
  if id ∈ s.sealedQueries then s
  else { s.publishWithCorrelation id [kind.discriminator] with sealedQueries := id :: s.sealedQueries }

def onDone : Replies Q := s.terminate id .endOfStream

def onTimeout : Replies Q := s.terminate id .timeout

def evict : Replies Q := { s with sealedQueries := s.sealedQueries.filter (· ≠ id) }

def frames : List (List UInt8) := (s.published.filter (·.1 = id)).map (·.2)

end Replies

open Replies

inductive QueryTask where
  | unspawned
  | running
  | completed
  | failed
  | timedOut
  | evicted
deriving DecidableEq, Repr

structure Queries (Q : Type) where
  replies : Replies Q
  task : Q → QueryTask
  done : Q → Bool

inductive QueryEvent (Q : Type) where
  | spawn (id : Q)
  | reply (id : Q) (bytes : List UInt8)
  | done (id : Q)
  | completed (id : Q)
  | failed (id : Q)
  | timeout (id : Q)
  | evict (id : Q)
deriving DecidableEq, Repr

namespace Queries

variable {Q : Type} [DecidableEq Q]

def start : Queries Q := ⟨⟨[], []⟩, fun _ => .unspawned, fun _ => false⟩

variable (s : Queries Q)

def goto (id : Q) (task : QueryTask) (replies : Replies Q) : Queries Q :=
  { s with task := update s.task id task, replies }

/-- The session may call `on_reply` at any time after the query was spawned, and `on_done` once. -/
def act : QueryEvent Q → Option (Queries Q)
  | .spawn id => if s.task id = .unspawned then some (s.goto id .running s.replies) else none
  | .reply id bytes => if s.task id ≠ .unspawned then some { s with replies := s.replies.onReply id bytes } else none
  | .done id =>
    if s.task id ≠ .unspawned ∧ s.done id = false then
      some { s with done := update s.done id true, replies := s.replies.onDone id }
    else none
  | .completed id => if s.task id = .running then some (s.goto id .completed s.replies) else none
  | .failed id => if s.task id = .running then some (s.goto id .failed s.replies) else none
  | .timeout id => if s.task id = .running then some (s.goto id .timedOut (s.replies.onTimeout id)) else none
  | .evict id => if s.task id = .timedOut then some (s.goto id .evicted (s.replies.evict id)) else none

/-- No callback comes after the eviction, and the session gives up only on a query that it has ended. -/
def Timely : QueryEvent Q → Prop
  | .reply id _ => s.task id ≠ .evicted
  | .done id => s.task id ≠ .evicted
  | .failed id => id ∈ s.replies.sealedQueries
  | _ => True

instance (s : Queries Q) : (event : QueryEvent Q) → Decidable (s.Timely event)
  | .reply id _ => inferInstanceAs (Decidable (s.task id ≠ .evicted))
  | .done id => inferInstanceAs (Decidable (s.task id ≠ .evicted))
  | .failed id => inferInstanceAs (Decidable (id ∈ s.replies.sealedQueries))
  | .spawn _ | .completed _ | .timeout _ | .evict _ => inferInstanceAs (Decidable True)

def Step (event : QueryEvent Q) (s' : Queries Q) : Prop := s.act event = some s'

def TimelyStep (event : QueryEvent Q) (s' : Queries Q) : Prop := s.Timely event ∧ s.Step event s'

def Terminator (frame : List UInt8) : Prop :=
  frame = [FrameKind.endOfStream.discriminator] ∨ frame = [FrameKind.timeout.discriminator]

def Ended (frames : List (List UInt8)) : Prop :=
  ∃ data last, frames = data ++ [last] ∧ Terminator last ∧ ∀ frame ∈ data, ¬Terminator frame

structure Good (s : Queries Q) (id : Q) : Prop where
  ended : id ∈ s.replies.sealedQueries ∨ s.task id = .evicted → Ended (s.replies.frames id)
  streaming : id ∉ s.replies.sealedQueries → s.task id ≠ .evicted → ∀ frame ∈ s.replies.frames id, ¬Terminator frame
  waits : s.task id = .timedOut ∨ s.task id = .failed → id ∈ s.replies.sealedQueries

section Invariant

variable {s s' : Queries Q} {r : Replies Q} {id other : Q} {event : QueryEvent Q} {task : QueryTask}
    {bytes : List UInt8} {kind : FrameKind}

theorem frames_publish (r : Replies Q) (id other : Q) (bytes : List UInt8) :
    (r.publishWithCorrelation id bytes).frames other = if other = id then r.frames other ++
      [bytes] else r.frames other := by
  unfold frames publishWithCorrelation
  split
  · rename_i same
    simp [same]
  · rename_i different
    simp [Ne.symm different]

theorem data_not_terminator (bytes : List UInt8) : ¬Terminator (FrameKind.data.discriminator :: bytes) := by
  rintro (same | same)
  · exact absurd (cons.inj same).1 (by decide)
  · exact absurd (cons.inj same).1 (by decide)

theorem terminator_of_kind (terminates : kind ≠ .data) : Terminator [kind.discriminator] := by
  cases kind with
  | data => exact absurd rfl terminates
  | endOfStream => exact .inl rfl
  | timeout => exact .inr rfl

theorem Good.elsewhere
    (good : s.Good other)
    (frames : s'.replies.frames other = s.replies.frames other)
    (sealed_ : other ∈ s'.replies.sealedQueries ↔ other ∈ s.replies.sealedQueries)
    (same : s'.task other = s.task other) : s'.Good other := by
  constructor
  · rw [frames, sealed_, same]
    exact good.ended
  · rw [frames, sealed_, same]
    exact good.streaming
  · rw [sealed_, same]
    exact good.waits

theorem Good.goto
    (good : s.Good id)
    (alive : s.task id ≠ .evicted)
    (going : task ≠ .evicted)
    (waits : task = .timedOut ∨ task = .failed → id ∈ s.replies.sealedQueries) :
    (s.goto id task s.replies).Good id := by
  have here : (s.goto id task s.replies).task id = task := update_self _ _ _
  refine ⟨?_, fun unsealed _ => good.streaming unsealed alive, ?_⟩
  · rintro (member | evicted)
    · exact good.ended (.inl member)
    · exact absurd (here.symm.trans evicted) going
  · rw [here]
    exact waits

theorem Good.reply (good : s.Good id) (alive : s.task id ≠ .evicted) (bytes : List UInt8) :
    Good { s with replies := s.replies.onReply id bytes } id := by
  unfold onReply
  split
  · exact good
  · rename_i unsealed
    refine ⟨?_, ?_, good.waits⟩
    · rintro (member | evicted)
      · exact absurd member unsealed
      · exact absurd evicted alive
    · intro _ _ frame member
      rw [frames_publish, if_pos rfl] at member
      rcases mem_append.mp member with earlier | last
      · exact good.streaming unsealed alive frame earlier
      · exact mem_singleton.mp last ▸ data_not_terminator bytes

theorem Good.terminate
    (good : s.Good id)
    (alive : s.task id ≠ .evicted)
    (terminates : kind ≠ .data)
    (replies : s'.replies = s.replies.terminate id kind) : s'.Good id := by
  have member : id ∈ s'.replies.sealedQueries := by
    rw [replies, Replies.terminate]
    split
    · assumption
    · exact mem_cons_self
  refine ⟨fun _ => ?_, fun unsealed => absurd member unsealed, fun _ => member⟩
  rw [replies, Replies.terminate]
  split
  · rename_i earlier
    exact good.ended (.inl earlier)
  · rename_i unsealed
    refine ⟨s.replies.frames id, [kind.discriminator], ?_, terminator_of_kind terminates, good.streaming unsealed alive⟩
    show (s.replies.publishWithCorrelation id _).frames id = _
    rw [frames_publish, if_pos rfl]

theorem Good.evict
    (good : s.Good id)
    (timedOut : s.task id = .timedOut) :
    (s.goto id .evicted (s.replies.evict id)).Good id := by
  have here : (s.goto id .evicted (s.replies.evict id)).task id = .evicted := update_self _ _ _
  refine ⟨fun _ => good.ended (.inl (good.waits (.inl timedOut))), fun _ alive => absurd here alive, ?_⟩
  rw [here]
  rintro (never | never) <;> cases never

theorem onReply_elsewhere (different : other ≠ id) (bytes : List UInt8) :
    (r.onReply id bytes).frames other = r.frames other ∧ (r.onReply id bytes).sealedQueries = r.sealedQueries := by
  unfold onReply
  split
  · exact ⟨rfl, rfl⟩
  · exact ⟨by rw [frames_publish, if_neg different], rfl⟩

theorem terminate_elsewhere (different : other ≠ id) (kind : FrameKind) :
    (r.terminate id kind).frames other = r.frames other ∧
      (other ∈ (r.terminate id kind).sealedQueries ↔ other ∈ r.sealedQueries) := by
  unfold terminate
  split
  · exact ⟨rfl, Iff.rfl⟩
  · refine ⟨?_, mem_cons.trans (or_iff_right different)⟩
    show (r.publishWithCorrelation id _).frames other = _
    rw [frames_publish, if_neg different]

theorem Good.step (good : ∀ id, s.Good id) (step : s.TimelyStep event s') (other : Q) : s'.Good other := by
  obtain ⟨timely, acted⟩ := step
  cases event with
  | spawn id | completed id =>
    obtain ⟨before, same⟩ := ite_none_right_eq_some.mp acted
    cases same
    by_cases here : other = id
    · subst here
      exact (good other).goto (by rw [before]; decide) (by decide) (by rintro (never | never) <;> cases never)
    · exact (good other).elsewhere rfl Iff.rfl (update_of_ne here _ _)
  | reply id bytes =>
    obtain ⟨_, same⟩ := ite_none_right_eq_some.mp acted
    cases same
    by_cases here : other = id
    · subst here
      exact (good other).reply timely bytes
    · obtain ⟨frames, sealed_⟩ := onReply_elsewhere here bytes
      exact (good other).elsewhere frames (iff_of_eq (congrArg (other ∈ ·) sealed_)) rfl
  | done id =>
    obtain ⟨_, same⟩ := ite_none_right_eq_some.mp acted
    cases same
    by_cases here : other = id
    · subst here
      exact (good other).terminate timely (by decide) rfl
    · obtain ⟨frames, sealed_⟩ := terminate_elsewhere here .endOfStream
      exact (good other).elsewhere frames sealed_ rfl
  | failed id =>
    obtain ⟨running, same⟩ := ite_none_right_eq_some.mp acted
    cases same
    by_cases here : other = id
    · subst here
      exact (good other).goto (by rw [running]; decide) (by decide) fun _ => timely
    · exact (good other).elsewhere rfl Iff.rfl (update_of_ne here _ _)
  | timeout id =>
    obtain ⟨running, same⟩ := ite_none_right_eq_some.mp acted
    cases same
    by_cases here : other = id
    · subst here
      exact (good other).terminate (by rw [running]; decide) (by decide) rfl
    · obtain ⟨frames, sealed_⟩ := terminate_elsewhere here .timeout
      exact (good other).elsewhere frames sealed_ (update_of_ne here _ _)
  | evict id =>
    obtain ⟨timedOut, same⟩ := ite_none_right_eq_some.mp acted
    cases same
    by_cases here : other = id
    · subst here
      exact (good other).evict timedOut
    · refine (good other).elsewhere rfl ?_ (update_of_ne here _ _)
      simp [Queries.goto, Replies.evict, here]

theorem start_good (id : Q) : (start : Queries Q).Good id := by
  refine ⟨?_, fun _ _ => nofun, ?_⟩
  · rintro (never | never) <;> cases never
  · rintro (never | never) <;> cases never

theorem Ended.last {frames earlier later : List (List UInt8)} {frame : List UInt8}
    (ended : Ended frames)
    (split : frames = earlier ++ frame :: later)
    (terminator : Terminator frame) : later = [] := by
  obtain ⟨_, _, same, _, none⟩ := ended
  rcases eq_nil_or_concat later with nothing | ⟨_, x, rfl⟩
  · exact nothing
  · rw [same, concat_eq_append, ← cons_append, ← append_assoc] at split
    have first := (append_inj' split rfl).1
    exact absurd terminator (none frame (first ▸ mem_append_right _ mem_cons_self))

end Invariant

/-- In a timely run a terminator is the last frame of its query, and a query that failed or timed out has one. -/
theorem terminator_is_last {history : List (QueryEvent Q)} {s : Queries Q}
    (run : Run TimelyStep start history s)
    (id : Q) :
    (∀ earlier frame later, s.replies.frames id = earlier ++ frame :: later → Terminator frame → later = []) ∧
      (s.task id = .failed ∨ s.task id = .timedOut ∨ s.task id = .evicted →
      ∃ frame ∈ s.replies.frames id, Terminator frame) := by
  have good : s.Good id := run.invariant start_good (fun _ _ _ good step => Good.step good step) id
  constructor
  · intro earlier frame later split terminator
    by_cases closed : id ∈ s.replies.sealedQueries ∨ s.task id = .evicted
    · exact (good.ended closed).last split terminator
    · obtain ⟨unsealed, alive⟩ := not_or.mp closed
      have member : frame ∈ s.replies.frames id := split ▸ mem_append_right _ mem_cons_self
      exact absurd terminator (good.streaming unsealed alive frame member)
  · intro ends
    have closed : Ended (s.replies.frames id) := by
      rcases ends with failed | timedOut | evicted
      · exact good.ended (.inl (good.waits (.inr failed)))
      · exact good.ended (.inl (good.waits (.inl timedOut)))
      · exact good.ended (.inr evicted)
    obtain ⟨_, last, frames, terminator, _⟩ := closed
    exact ⟨last, frames ▸ mem_append_right _ (mem_singleton_self last), terminator⟩

def answeredQuery : List (QueryEvent Nat) := [.spawn 7, .reply 7 [42], .done 7, .reply 7 [43], .timeout 7, .evict 7]

theorem answered_query_ends_once : ∃ s, Run TimelyStep start answeredQuery s ∧ s.replies.frames 7 = [[1, 42], [2]] ∧
      ∃ frame ∈ s.replies.frames 7, Terminator frame := by
  have follows : (Run.follow (fun s event => if s.Timely event then s.act event else none) start answeredQuery).map
      (fun s => (s.replies.frames 7, s.task 7)) = some ([[1, 42], [2]], .evicted) := by
    decide +kernel
  obtain ⟨s, reached, facts⟩ := map_eq_some_iff.mp follows
  simp only [Prod.mk.injEq] at facts
  have run : Run TimelyStep start answeredQuery s :=
    (Run.of_follow reached).mono fun _ _ _ step => ite_none_right_eq_some.mp step
  exact ⟨s, run, facts.1, (terminator_is_last run 7).2 (.inr (.inr facts.2))⟩

/-- A late callback gets through after the eviction, and a query whose session fails gets no terminator. -/
theorem evicted_query_ends_twice :
    (Run.follow (act (Q := Nat)) start [.spawn 7, .timeout 7, .evict 7, .reply 7 [42], .done 7, .spawn 8,
      .failed 8]).map
      (fun s => (s.replies.frames 7, s.replies.frames 8, s.task 8)) = some ([[3], [1, 42], [2]], [], .failed) := by
  decide +kernel

def Pending (id : Q) : Prop := s.task id = .running ∨ s.task id = .timedOut

section Sealing

variable {s s' : Queries Q} {event : QueryEvent Q} {history : List (QueryEvent Q)}

theorem mem_terminate (r : Replies Q) (id other : Q) (kind : FrameKind) :
    other ∈ (r.terminate id kind).sealedQueries ↔ other = id ∨ other ∈ r.sealedQueries := by
  unfold terminate
  split
  · rename_i earlier
    exact ⟨.inr, fun either => either.elim (· ▸ earlier) fun member => member⟩
  · exact mem_cons

theorem nodup_terminate {r : Replies Q} (distinct : r.sealedQueries.Nodup) (id : Q) (kind : FrameKind) :
    (r.terminate id kind).sealedQueries.Nodup := by
  unfold terminate
  split
  · exact distinct
  · exact nodup_cons.mpr ⟨‹_›, distinct⟩

theorem sublist_pair_snoc {α : Type} {a b x : α} {xs : List α} :
    [a, b].Sublist (xs ++ [x]) ↔ [a, b].Sublist xs ∨ b = x ∧ a ∈ xs := by
  rw [← reverse_sublist, ← @reverse_sublist _ _ xs]
  simp [cons_sublist_cons']

/-- What the events of a run say about a query: how its task stands, and whether its id is sealed. -/
structure Traced (s : Queries Q) (history : List (QueryEvent Q)) (id : Q) : Prop where
  spawned : .done id ∈ history → s.task id ≠ .unspawned
  completed : s.task id = .completed ↔ .completed id ∈ history
  failed : s.task id = .failed ↔ .failed id ∈ history
  timedOut : s.task id = .timedOut ∨ s.task id = .evicted ↔ .timeout id ∈ history
  evicted : s.task id = .evicted ↔ .evict id ∈ history
  sealedBy : id ∈ s.replies.sealedQueries ↔ s.task id = .timedOut ∨
    .done id ∈ history ∧ (s.task id = .evicted → [.evict id, .done id].Sublist history)

theorem Traced.step {id : Q}
    (traced : Traced s history id)
    (step : s.Step event s') : Traced s' (history ++ [event]) id := by
  obtain ⟨spawned, completed, failed, timedOut, evicted, sealedBy⟩ := traced
  cases event with
  | spawn i | completed i | failed i =>
    obtain ⟨_, same⟩ := ite_none_right_eq_some.mp step
    cases same
    constructor <;> simp only [goto, update_apply, mem_append, mem_singleton, sublist_pair_snoc] <;> grind
  | reply i bytes =>
    obtain ⟨_, same⟩ := ite_none_right_eq_some.mp step
    cases same
    have kept : (s.replies.onReply i bytes).sealedQueries = s.replies.sealedQueries := by
      unfold onReply
      split <;> rfl
    constructor <;> simp only [kept, mem_append, mem_singleton, sublist_pair_snoc] <;> grind
  | done i =>
    obtain ⟨_, same⟩ := ite_none_right_eq_some.mp step
    cases same
    constructor <;> simp only [onDone, mem_terminate, mem_append, mem_singleton, sublist_pair_snoc] <;> grind
  | timeout i =>
    obtain ⟨_, same⟩ := ite_none_right_eq_some.mp step
    cases same
    constructor <;> simp only [goto, onTimeout, mem_terminate, update_apply, mem_append, mem_singleton,
      sublist_pair_snoc] <;> grind
  | evict i =>
    obtain ⟨_, same⟩ := ite_none_right_eq_some.mp step
    cases same
    constructor <;> simp only [goto, evict, mem_filter, update_apply, mem_append, mem_singleton,
      sublist_pair_snoc] <;> grind

theorem run_traced (run : Run Step start history s) (id : Q) : Traced s history id := by
  induction run with
  | nil => constructor <;> simp [start]
  | snoc before step ih => exact ih.step step

theorem nodup_step
    (distinct : s.replies.sealedQueries.Nodup)
    (step : s.Step event s') : s'.replies.sealedQueries.Nodup := by
  cases event with
  | reply i bytes =>
    obtain ⟨_, same⟩ := ite_none_right_eq_some.mp step
    cases same
    unfold onReply
    split <;> exact distinct
  | done i | timeout i =>
    obtain ⟨_, same⟩ := ite_none_right_eq_some.mp step
    cases same
    exact nodup_terminate distinct i _
  | evict i =>
    obtain ⟨_, same⟩ := ite_none_right_eq_some.mp step
    cases same
    exact distinct.filter _
  | spawn i | completed i | failed i =>
    obtain ⟨_, same⟩ := ite_none_right_eq_some.mp step
    cases same
    exact distinct

/-- The session ended a query that completed or failed, or one that was evicted before. -/
def Leaks (history : List (QueryEvent Q)) (id : Q) : Prop :=
  .done id ∈ history ∧ (.completed id ∈ history ∨ .failed id ∈ history ∨ [.evict id, .done id].Sublist history)

omit [DecidableEq Q] in
theorem Traced.leaks_iff {id : Q} (traced : Traced s history id) :
    Leaks history id ↔ id ∈ s.replies.sealedQueries ∧ ¬s.Pending id := by
  obtain ⟨spawned, completed, failed, timedOut, evicted, sealedBy⟩ := traced
  have late (after : [.evict id, .done id].Sublist history) : .evict id ∈ history := after.subset mem_cons_self
  unfold Leaks Pending
  cases task : s.task id <;> grind

omit [DecidableEq Q] in
theorem Traced.open_iff {id : Q}
    (traced : Traced s history id)
    (pending : s.Pending id) :
    id ∉ s.replies.sealedQueries ↔ .done id ∉ history ∧ .timeout id ∉ history := by
  obtain ⟨spawned, completed, failed, timedOut, evicted, sealedBy⟩ := traced
  unfold Pending at pending
  grind

end Sealing

/-- The sealed ids are those of pending queries exactly if none leaks; they are no more than the pending queries exactly
if the leaks are no more than the queries that wait for their end or their timeout. -/
theorem sealed_set_bounded_iff {history : List (QueryEvent Q)} {s : Queries Q} (run : Run Step start history s) :
    ((∀ id ∈ s.replies.sealedQueries, s.Pending id) ↔ ∀ id, ¬Leaks history id) ∧
      ∀ pending leaked : List Q, pending.Nodup → leaked.Nodup → (∀ id, id ∈ pending ↔ s.Pending id) →
        (∀ id, id ∈ leaked ↔ Leaks history id) → (s.replies.sealedQueries.length ≤ pending.length ↔
          leaked.length ≤ (pending.filter fun id => .done id ∉ history ∧ .timeout id ∉ history).length) := by
  have traced := run_traced run
  have distinct : s.replies.sealedQueries.Nodup :=
    run.invariant (I := fun s => s.replies.sealedQueries.Nodup) nodup_nil fun _ _ _ distinct step =>
      nodup_step distinct step
  refine ⟨?_, ?_⟩
  · simp only [(traced _).leaks_iff, not_and, not_not]
  intro pending leaked once unique waiting leaks
  have split : s.replies.sealedQueries.Perm (leaked ++ pending.filter (· ∈ s.replies.sealedQueries)) := by
    refine (perm_ext_iff_of_nodup distinct (nodup_append.mpr ⟨unique, once.filter _, ?_⟩)).mpr fun id => ?_
    · intro id leaking other waits same
      exact ((traced id).leaks_iff.mp ((leaks id).mp leaking)).2 ((waiting id).mp (same ▸ (mem_filter.mp waits).1))
    · simp only [mem_append, mem_filter, leaks, (traced id).leaks_iff, waiting, decide_eq_true_eq]
      by_cases waits : s.Pending id <;> simp [waits]
  have opened : pending.filter (fun id => .done id ∉ history ∧ .timeout id ∉ history) =
      pending.filter (fun id => !decide (id ∈ s.replies.sealedQueries)) := by
    refine filter_congr fun id member => ?_
    have iff := (traced id).open_iff ((waiting id).mp member)
    simp [← iff]
  rw [opened, split.length_eq, length_append, length_eq_length_filter_add (l := pending) (· ∈ s.replies.sealedQueries)]
  omega

def threeQueries : List (QueryEvent (Fin 3)) :=
  [.spawn 0, .done 0, .timeout 0, .evict 0, .spawn 1, .done 1, .completed 1, .spawn 2]

theorem timed_out_query_swept : ∃ s, Run Step start threeQueries s ∧ ¬(∀ id ∈ s.replies.sealedQueries, s.Pending id) ∧
    s.replies.sealedQueries.length ≤ [(2 : Fin 3)].length := by
  have follows : (Run.follow act start threeQueries).map (fun s => (s.task 0, s.task 1, s.task 2)) =
      some (.evicted, .completed, .running) := by
    decide +kernel
  obtain ⟨s, reached, tasks⟩ := map_eq_some_iff.mp follows
  simp only [Prod.mk.injEq] at tasks
  have run : Run Step start threeQueries s := .of_follow reached
  have leaks : ∀ id, id ∈ [(1 : Fin 3)] ↔ Leaks threeQueries id := by
    unfold Leaks
    decide
  have waiting : ∀ id, id ∈ [(2 : Fin 3)] ↔ s.Pending id := by simp [Fin.forall_fin_succ, Pending, tasks]
  obtain ⟨bounded, size⟩ := sealed_set_bounded_iff run
  refine ⟨s, run, ?_, (size [2] [1] (by decide) (by decide) waiting leaks).mpr (by decide)⟩
  exact fun all => bounded.mp all 1 ((leaks 1).mp mem_cons_self)

theorem completed_query_stays_sealed :
    (Run.follow (act (Q := Nat)) start [.spawn 7, .done 7, .completed 7]).map (fun s =>
      (s.replies.sealedQueries, s.task 7)) = some ([7], .completed) := by
  decide +kernel

end Queries

end Taktora.Zenoh
