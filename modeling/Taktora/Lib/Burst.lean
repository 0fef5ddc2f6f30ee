import Taktora.Lib.Link

variable {σ μ τ ε π : Type}

/-- A transfer in bursts: the far end clears the near end to send one burst after another. -/
structure BurstTransfer (P : Party σ μ τ ε π) (ι : Type) where
  first : ι
  next : ι → Option ι
  request : μ
  clear : ι → μ
  burst : ι → List μ
  acknowledge : μ
  delivered : ε
  /-- An upper bound for the deliveries left once burst `i` is cleared. -/
  cost : ι → Nat
  Sending : σ → Prop
  Waiting : σ → Prop
  /-- The far end still expects these messages of burst `i`. -/
  Receiving : ι → List μ → σ → Prop
  Done : σ → Prop
  burst_ne_nil : ∀ i, burst i ≠ []
  burst_cost : ∀ i, (burst i).length + 1 + (next i).elim 1 cost ≤ cost i
  sending_keeps : P.Keeps Sending
  waiting_keeps : P.Keeps Waiting
  receiving_keeps : ∀ i rest, P.Keeps (Receiving i rest)
  done_keeps : P.Keeps Done
  requested : ∀ s, Waiting s → P.Answers s request [] [clear first] (Receiving first (burst first))
  cleared : ∀ s i, Sending s → P.Answers s (clear i) [] (burst i) Sending
  continued : ∀ s i m m' rest, Receiving i (m :: m' :: rest) s → P.Answers s m [] [] (Receiving i (m' :: rest))
  resumed : ∀ s i i' m, next i = some i' → Receiving i [m] s →
    P.Answers s m [] [clear i'] (Receiving i' (burst i'))
  completed : ∀ s i m, next i = none → Receiving i [m] s → P.Answers s m [delivered] [acknowledge] Done
  acknowledged : ∀ s, Sending s → P.Answers s acknowledge [] [] Done

namespace BurstTransfer

open Link Action List Bool

variable {ι : Type} {P : Party σ μ τ ε π} (B : BurstTransfer P ι)

/-- The deliveries left, both ends, the messages under way and the events reported. -/
inductive Phase : Nat → σ → σ → List μ → List μ → List ε → Prop where
  | requesting {near far} (sending : B.Sending near) (waiting : B.Waiting far) :
      Phase (B.cost B.first + 1) near far [B.request] [] []
  | clearing {near far i} (sending : B.Sending near) (receiving : B.Receiving i (B.burst i) far) :
      Phase (B.cost i) near far [] [B.clear i] []
  | bursting {near far i m rest} (sending : B.Sending near) (receiving : B.Receiving i (m :: rest) far) :
      Phase (rest.length + 1 + (B.next i).elim 1 B.cost) near far (m :: rest) [] []
  | acknowledging {near far} (sending : B.Sending near) (done : B.Done far) :
      Phase 1 near far [] [B.acknowledge] [B.delivered]
  | closed {near far} (done : B.Done near) (done' : B.Done far) : Phase 0 near far [] [] [B.delivered]

variable {B} {d : Nat} {near far : σ} {forward backward : List μ} {reported : List ε}

section

variable (phase : B.Phase d near far forward backward reported)
include phase

theorem Phase.flight_le : forward.length + backward.length ≤ d := by
  cases phase with
  | requesting => exact Nat.succ_le_succ (Nat.zero_le _)
  | clearing => exact Nat.le_trans (Nat.le_add_left 1 _) (Nat.le_trans (Nat.le_add_right _ _) (B.burst_cost _))
  | bursting => exact Nat.le_add_right _ _
  | acknowledging | closed => exact Nat.le_refl _

theorem Phase.reported_prefix : reported <+: [B.delivered] := by
  cases phase with
  | acknowledging | closed => exact prefix_refl _
  | _ => exact nil_prefix

theorem Phase.near_keeps {near' : σ} (keeps : ∀ Q, P.Keeps Q → Q near → Q near') :
    B.Phase d near' far forward backward reported := by
  cases phase with
  | requesting sending waiting => exact .requesting (keeps _ B.sending_keeps sending) waiting
  | clearing sending receiving => exact .clearing (keeps _ B.sending_keeps sending) receiving
  | bursting sending receiving => exact .bursting (keeps _ B.sending_keeps sending) receiving
  | acknowledging sending done => exact .acknowledging (keeps _ B.sending_keeps sending) done
  | closed done done' => exact .closed (keeps _ B.done_keeps done) done'

theorem Phase.far_keeps {far' : σ} (keeps : ∀ Q, P.Keeps Q → Q far → Q far') :
    B.Phase d near far' forward backward reported := by
  cases phase with
  | requesting sending waiting => exact .requesting sending (keeps _ B.waiting_keeps waiting)
  | clearing sending receiving => exact .clearing sending (keeps _ (B.receiving_keeps _ _) receiving)
  | bursting sending receiving => exact .bursting sending (keeps _ (B.receiving_keeps _ _) receiving)
  | acknowledging sending done => exact .acknowledging sending (keeps _ B.done_keeps done)
  | closed done done' => exact .closed done (keeps _ B.done_keeps done')

theorem Phase.kept : (∃ Q, P.Keeps Q ∧ Q near) ∧ ∃ Q, P.Keeps Q ∧ Q far := by
  cases phase with
  | requesting sending waiting => exact ⟨⟨_, B.sending_keeps, sending⟩, _, B.waiting_keeps, waiting⟩
  | clearing sending receiving | bursting sending receiving =>
    exact ⟨⟨_, B.sending_keeps, sending⟩, _, B.receiving_keeps _ _, receiving⟩
  | acknowledging sending done => exact ⟨⟨_, B.sending_keeps, sending⟩, _, B.done_keeps, done⟩
  | closed done done' => exact ⟨⟨_, B.done_keeps, done⟩, _, B.done_keeps, done'⟩

end

theorem Phase.far_receives {m : μ} {now : τ} {result : Except π (List ε × σ)}
    (phase : B.Phase d near far (m :: forward) backward reported) (received : P.receives far m now result) :
    ∃ events far' sent d', result = .ok (events, far') ∧ P.outbox far' = P.outbox far ++ sent ∧ d' < d ∧
      B.Phase d' near far' forward (backward ++ sent) (reported ++ events) := by
  cases phase with
  | requesting sending waiting =>
    obtain ⟨far', rfl, sent, receiving⟩ := B.requested far waiting now result received
    exact ⟨_, far', _, _, rfl, sent, Nat.lt_succ_self _, .clearing sending receiving⟩
  | @bursting _ _ i _ _ sending receiving =>
    cases forward with
    | cons m' rest =>
      obtain ⟨far', rfl, sent, receiving⟩ := B.continued far i m m' rest receiving now result received
      refine ⟨_, far', _, _, rfl, sent, ?_, .bursting sending receiving⟩
      rw [length_cons]
      omega
    | nil =>
      cases following : B.next i with
      | some i' =>
        obtain ⟨far', rfl, sent, receiving⟩ := B.resumed far i i' m following receiving now result received
        refine ⟨_, far', _, _, rfl, sent, ?_, .clearing sending receiving⟩
        rw [Option.elim_some]
        omega
      | none =>
        obtain ⟨far', rfl, sent, done⟩ := B.completed far i m following receiving now result received
        refine ⟨_, far', _, _, rfl, sent, ?_, .acknowledging sending done⟩
        rw [Option.elim_none]
        omega

theorem Phase.near_receives {m : μ} {now : τ} {result : Except π (List ε × σ)}
    (phase : B.Phase d near far forward (m :: backward) reported) (received : P.receives near m now result) :
    ∃ near' sent d', result = .ok ([], near') ∧ P.outbox near' = P.outbox near ++ sent ∧ d' < d ∧
      B.Phase d' near' far (forward ++ sent) backward reported := by
  cases phase with
  | @clearing _ _ i sending receiving =>
    obtain ⟨near', rfl, sent, sending⟩ := B.cleared near i sending now result received
    have cost := B.burst_cost i
    cases messages : B.burst i with
    | nil => exact absurd messages (B.burst_ne_nil i)
    | cons m rest =>
      rw [messages] at receiving cost sent
      rw [length_cons] at cost
      exact ⟨near', _, _, rfl, sent, by omega, .bursting sending receiving⟩
  | acknowledging sending done =>
    obtain ⟨near', rfl, sent, done'⟩ := B.acknowledged near sending now result received
    exact ⟨near', _, _, rfl, sent, Nat.zero_lt_one, .closed done' done⟩

variable (B) in
def At (d : Nat) (l : Link σ μ) (reported : List ε) : Prop :=
  B.Phase d l.near l.far (l.forward P) (l.backward P) reported

variable {l l' : Link σ μ} {call : Action μ τ × List ε} {history : List (Action μ τ × List ε)}

section

variable (at_ : B.At d l reported)
include at_

/-- Every action but the passing of time uses up some of the work left. -/
theorem At.step (step : ReliableStep P l call l') :
    ∃ d', B.At d' l' (reported ++ if call.1.isFar then call.2 else []) ∧ (call.1.isFar = false → call.2 = []) ∧
      (if call.1.isTick then 0 else 1) + 2 * d' + l.onWire ≤ 2 * d + l'.onWire := by
  obtain ⟨step, kept⟩ := step
  cases step with
  | flushNear queued =>
    rename_i near far toFar toNear
    refine ⟨d, ?_, fun _ => rfl, ?_⟩
    · have flushed : ((⟨P.flush near, far, toFar ++ P.outbox near, toNear⟩ : Link σ μ).forward P) =
          toFar ++ P.outbox near := by
        simp only [forward, P.outbox_flush, append_nil]
      simp only [isFar, false_eq_true, ite_false, append_nil]
      rw [At, flushed]
      exact Phase.near_keeps at_ fun Q keeps holds => keeps.flush _ holds
    · have some := length_pos_iff.mpr queued
      simp only [isTick, false_eq_true, ite_false, onWire, length_append]
      omega
  | flushFar queued =>
    rename_i near far toFar toNear
    refine ⟨d, ?_, fun _ => rfl, ?_⟩
    · have flushed : ((⟨near, P.flush far, toFar, toNear ++ P.outbox far⟩ : Link σ μ).backward P) =
          toNear ++ P.outbox far := by
        simp only [backward, P.outbox_flush, append_nil]
      simp only [isFar, false_eq_true, ite_false, append_nil]
      rw [At, flushed]
      exact Phase.far_keeps at_ fun Q keeps holds => keeps.flush _ holds
    · have some := length_pos_iff.mpr queued
      simp only [isTick, false_eq_true, ite_false, onWire, length_append]
      omega
  | deliverFar received =>
    obtain ⟨_, _, _, d', same, queued, _, phase⟩ := Phase.far_receives at_ received
    cases same
    refine ⟨d', ?_, nofun, ?_⟩
    · rw [At, backward, queued, ← append_assoc]
      exact phase
    · simp only [isTick, false_eq_true, ite_false, onWire, length_cons]
      omega
  | deliverNear received =>
    obtain ⟨_, _, d', same, queued, _, phase⟩ := Phase.near_receives at_ received
    cases same
    refine ⟨d', ?_, fun _ => rfl, ?_⟩
    · simp only [isFar, false_eq_true, ite_false, append_nil]
      rw [At, forward, queued, ← append_assoc]
      exact phase
    · simp only [isTick, false_eq_true, ite_false, onWire, length_cons]
      omega
  | loseFar | loseNear => cases kept
  | tickNear ticked =>
    obtain ⟨⟨Q, keeps, holds⟩, _⟩ := Phase.kept at_
    obtain ⟨rfl, queued, _⟩ := keeps.tick _ _ _ _ holds ticked
    refine ⟨d, ?_, fun _ => rfl, ?_⟩
    · simp only [isFar, false_eq_true, ite_false, append_nil]
      rw [At, forward, queued]
      exact Phase.near_keeps at_ fun Q keeps holds => (keeps.tick _ _ _ _ holds ticked).2.2
    · simp only [isTick, ite_true, onWire]
      omega
  | tickFar ticked =>
    obtain ⟨_, Q, keeps, holds⟩ := Phase.kept at_
    obtain ⟨rfl, queued, _⟩ := keeps.tick _ _ _ _ holds ticked
    refine ⟨d, ?_, nofun, ?_⟩
    · simp only [isFar, ite_true, append_nil]
      rw [At, backward, queued]
      exact Phase.far_keeps at_ fun Q keeps holds => (keeps.tick _ _ _ _ holds ticked).2.2
    · simp only [isTick, ite_true, onWire]
      omega

theorem At.run (run : Run (ReliableStep P) l history l') :
    ∃ d', B.At d' l' (reported ++ farEvents history) ∧ nearEvents history = [] ∧
      progress history + 2 * d' + l.onWire ≤ 2 * d + l'.onWire := by
  induction run with
  | nil => exact ⟨d, by rwa [farEvents, flatMap_nil, append_nil], rfl, by simp [progress]⟩
  | @snoc history middle call l' before last ih =>
    obtain ⟨_, at_', silent, _⟩ := ih
    obtain ⟨d'', at_'', quiet, work'⟩ := at_'.step last
    obtain ⟨a, _⟩ := call
    refine ⟨d'', ?_, ?_, ?_⟩
    · rw [farEvents_snoc, ← append_assoc]
      exact at_''
    · rw [nearEvents_snoc, silent]
      cases side : a.isFar with
      | true => rfl
      | false => exact quiet side
    · rw [progress_snoc]
      dsimp only at work'
      omega

theorem At.onWire_le : l.onWire ≤ d := by
  have flight := Phase.flight_le at_
  simp only [forward, backward, length_append] at flight
  simp only [onWire]
  omega

theorem At.quiescent (quiescent : l.Quiescent P) : B.Done l.near ∧ B.Done l.far ∧ reported = [B.delivered] := by
  obtain ⟨forward, backward⟩ := quiescent
  rw [At, forward, backward] at at_
  cases at_ with
  | closed done done' => exact ⟨done, done', rfl⟩

end

theorem At.advance [Nonempty τ]
    (total : ∀ s m now, ∃ result, P.receives s m now result)
    (at_ : B.At d l reported)
    (active : ¬ l.Quiescent P) :
    ∃ call l', ReliableStep P l call l' ∧ call.1.isTick = false := by
  obtain ⟨now⟩ := ‹Nonempty τ›
  obtain ⟨near, far, toFar, toNear⟩ := l
  cases toFar with
  | cons m toFar =>
    obtain ⟨_, received⟩ := total far m now
    obtain ⟨_, _, _, _, rfl, _⟩ := Phase.far_receives at_ received
    exact ⟨_, _, ⟨.deliverFar received, rfl⟩, rfl⟩
  | nil =>
    cases toNear with
    | cons m toNear =>
      obtain ⟨_, received⟩ := total near m now
      obtain ⟨_, _, _, rfl, _⟩ := Phase.near_receives at_ received
      exact ⟨_, _, ⟨.deliverNear received, rfl⟩, rfl⟩
    | nil =>
      by_cases queued : P.outbox near = []
      · by_cases queued' : P.outbox far = []
        · exact absurd ⟨queued, queued'⟩ active
        · exact ⟨_, _, ⟨.flushFar queued', rfl⟩, rfl⟩
      · exact ⟨_, _, ⟨.flushNear queued, rfl⟩, rfl⟩

theorem At.completes [Nonempty τ]
    (total : ∀ s m now, ∃ result, P.receives s m now result)
    (at_ : B.At d l reported) :
    ∃ history l', Run (ReliableStep P) l history l' ∧ l'.Quiescent P := by
  generalize budget : 2 * d - l.onWire = n
  induction n using Nat.strongRecOn generalizing d l reported with
  | _ n ih =>
    by_cases quiescent : l.Quiescent P
    · exact ⟨[], l, .nil, quiescent⟩
    · obtain ⟨_, middle, step, active⟩ := at_.advance total quiescent
      obtain ⟨d', at_', _, work⟩ := at_.step step
      have wire := at_'.onWire_le
      rw [active] at work
      simp only [false_eq_true, ite_false] at work
      obtain ⟨_, l', run, done⟩ := ih (2 * d' - middle.onWire) (by omega) at_' rfl
      exact ⟨_, l', (Run.snoc .nil step).trans run, done⟩

theorem At.safe (at_ : B.At d l reported) : l.Safe P := by
  obtain ⟨_, _⟩ := l
  constructor
  · rintro m _ _ _ rfl received
    obtain ⟨_, _, _, _, rfl, _⟩ := Phase.far_receives at_ received
    exact ⟨_, rfl⟩
  · rintro m _ _ _ rfl received
    obtain ⟨_, _, _, rfl, _⟩ := Phase.near_receives at_ received
    exact ⟨_, rfl⟩

theorem at_start
    (sending : B.Sending near)
    (waiting : B.Waiting far)
    (empty : P.outbox near = [])
    (empty' : P.outbox far = []) :
    B.At (B.cost B.first + 1) ⟨near, far, [B.request], []⟩ [] := by
  rw [At, forward, backward, empty, empty']
  exact .requesting sending waiting

/-- Every reliable run is safe and bounded, and delivers the message once. -/
theorem At.every_run_completes [Nonempty τ]
    (total : ∀ s m now, ∃ result, P.receives s m now result)
    (start : B.At d l [])
    (run : Run (ReliableStep P) l history l') :
    progress history ≤ 2 * d ∧ l'.Safe P ∧ nearEvents history = [] ∧ farEvents history <+: [B.delivered] ∧
      (¬ l'.Quiescent P → ∃ call l'', ReliableStep P l' call l'' ∧ call.1.isTick = false) ∧
      (l'.Quiescent P → farEvents history = [B.delivered] ∧ B.Done l'.near ∧ B.Done l'.far) := by
  obtain ⟨_, at_, silent, _⟩ := start.run run
  have wire := at_.onWire_le
  refine ⟨by omega, at_.safe, silent, Phase.reported_prefix at_, at_.advance total, ?_⟩
  intro quiescent
  obtain ⟨done, done', reported⟩ := at_.quiescent quiescent
  exact ⟨reported, done, done'⟩

end BurstTransfer
