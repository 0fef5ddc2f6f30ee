import Mathlib.Logic.Function.Basic
import Taktora.Lib.Run

/-- A node on a broadcast medium. It queues what it has to say, acts on its own, and hears what the others say. -/
structure Station (σ μ α τ : Type) where
  outbox : σ → List μ
  flush : σ → σ
  act : α → σ → σ
  hear : τ → μ → σ → σ

/-- The nodes, and for each two of them the messages of the first that have not reached the second. -/
structure Medium (ι σ μ : Type) where
  node : ι → σ
  flight : ι → ι → List μ

variable {ι σ μ α τ κ ρ : Type}

namespace Medium

inductive Action (ι μ α τ : Type) where
  | act (i : ι) (a : α)
  | flush (i : ι)
  | deliver (i j : ι) (m : μ) (now : τ)

/-- One action on the medium. Each message reaches every other node once, but in any order. -/
inductive Step [DecidableEq ι] (S : Station σ μ α τ) : Medium ι σ μ → Action ι μ α τ → Medium ι σ μ → Prop where
  | act {w} (i : ι) (a : α) :
      Step S w (.act i a) ⟨Function.update w.node i (S.act a (w.node i)), w.flight⟩
  | flush {w} (i : ι) :
      Step S w (.flush i) ⟨Function.update w.node i (S.flush (w.node i)),
        fun k l => if k = i ∧ l ≠ i then w.flight k l ++ S.outbox (w.node i) else w.flight k l⟩
  | deliver {w i j before m after now} (distinct : i ≠ j) (sent : w.flight i j = before ++ m :: after) :
      Step S w (.deliver i j m now) ⟨Function.update w.node j (S.hear now m (w.node j)),
        fun k l => if k = i ∧ l = j then before ++ after else w.flight k l⟩

/-- Node `i` has said `m`, or is about to, and `j` has not heard it. -/
def Pending (S : Station σ μ α τ) (w : Medium ι σ μ) (i j : ι) (m : μ) : Prop :=
  m ∈ S.outbox (w.node i) ∨ m ∈ w.flight i j

def Quiet (S : Station σ μ α τ) (w : Medium ι σ μ) : Prop :=
  (∀ i, S.outbox (w.node i) = []) ∧ ∀ i j, w.flight i j = []

end Medium

/-- Who a node is, what it signs, what a message lays claim to, and what a node holds. -/
structure Contest (σ μ κ ρ : Type) where
  ident : σ → κ
  Signed : κ → μ → Prop
  named : μ → ρ
  Holds : σ → ρ → Prop

namespace Contest

open List Function

/-- The node keeps its identity, takes nothing back that it has queued, and announces what it comes to hold. -/
structure Continues (C : Contest σ μ κ ρ) (S : Station σ μ α τ) (s s' : σ) : Prop where
  ident : C.ident s' = C.ident s
  kept : ∀ m ∈ S.outbox s, m ∈ S.outbox s'
  signed : ∀ m ∈ S.outbox s', m ∈ S.outbox s ∨ C.Signed (C.ident s) m
  announced : ∀ r, C.Holds s' r → C.Holds s r ∨ ∃ m ∈ S.outbox s', C.named m = r

structure Arbitrates (C : Contest σ μ κ ρ) (S : Station σ μ α τ) : Prop where
  flush_outbox : ∀ s, S.outbox (S.flush s) = []
  flush_ident : ∀ s, C.ident (S.flush s) = C.ident s
  flush_holds : ∀ s r, C.Holds (S.flush s) r → C.Holds s r
  act : ∀ a s, C.Continues S s (S.act a s)
  hear : ∀ now m s, C.Continues S s (S.hear now m s)
  rival : ∀ now m s k, C.Signed k m → k ≠ C.ident s → C.Holds (S.hear now m s) (C.named m) →
    ∃ m' ∈ S.outbox (S.hear now m s), C.named m' = C.named m

/-- A claim of one of the two nodes to `r` has not reached the other. -/
def Contact (C : Contest σ μ κ ρ) (S : Station σ μ α τ) (w : Medium ι σ μ) (i j : ι) (r : ρ) : Prop :=
  ∃ m, C.named m = r ∧ (w.Pending S i j m ∨ w.Pending S j i m)

/-- Any two nodes that hold the same have yet to hear of each other. -/
structure Contested (C : Contest σ μ κ ρ) (S : Station σ μ α τ) (w : Medium ι σ μ) : Prop where
  distinct : ∀ i j, C.ident (w.node i) = C.ident (w.node j) → i = j
  signed : ∀ i j m, w.Pending S i j m → C.Signed (C.ident (w.node i)) m
  contact : ∀ i j r, i ≠ j → C.Holds (w.node i) r → C.Holds (w.node j) r → C.Contact S w i j r

variable {C : Contest σ μ κ ρ} {S : Station σ μ α τ} {w : Medium ι σ μ} {i j : ι} {r : ρ}

theorem Contact.symm (contact : C.Contact S w i j r) : C.Contact S w j i r := by
  obtain ⟨m, named, pending⟩ := contact
  exact ⟨m, named, pending.symm⟩

theorem contested_start {start : ι → σ}
    (silent : ∀ i, S.outbox (start i) = [])
    (distinct : ∀ i j, C.ident (start i) = C.ident (start j) → i = j)
    (free : ∀ i r, ¬ C.Holds (start i) r) : C.Contested S ⟨start, fun _ _ => []⟩ where
  distinct := distinct
  signed := by
    intro i j m pending
    rcases pending with queued | sent
    · rw [silent i] at queued
      cases queued
    · cases sent
  contact := by
    intro i j r _ held
    exact absurd held (free i r)

section Step

variable [DecidableEq ι] {s : σ}

theorem Contested.changed
    (contested : C.Contested S w)
    (continues : C.Continues S (w.node j) s) :
    C.Contested S ⟨update w.node j s, w.flight⟩ where
  distinct := by
    have ident (k : ι) : C.ident (update w.node j s k) = C.ident (w.node k) := by
      by_cases same : k = j
      · subst same
        rw [update_self]
        exact continues.ident
      · rw [update_of_ne same]
    intro k l agree
    rw [ident k, ident l] at agree
    exact contested.distinct k l agree
  signed := by
    intro k l m pending
    by_cases same : k = j
    · subst same
      simp only [Medium.Pending, update_self] at pending ⊢
      rw [continues.ident]
      rcases pending with queued | sent
      · rcases continues.signed m queued with queued | signed
        · exact contested.signed k l m (.inl queued)
        · exact signed
      · exact contested.signed k l m (.inr sent)
    · simp only [Medium.Pending, update_of_ne same] at pending ⊢
      exact contested.signed k l m pending
  contact := by
    have kept {k l : ι} {m : μ} (pending : w.Pending S k l m) :
        Medium.Pending S ⟨update w.node j s, w.flight⟩ k l m := by
      by_cases same : k = j
      · subst same
        simp only [Medium.Pending, update_self]
        exact pending.imp_left (continues.kept m)
      · simp only [Medium.Pending, update_of_ne same]
        exact pending
    have one {k : ι} {r : ρ} (other : j ≠ k) (mine : C.Holds s r) (theirs : C.Holds (w.node k) r) :
        C.Contact S ⟨update w.node j s, w.flight⟩ j k r := by
      rcases continues.announced r mine with mine | ⟨m, queued, named⟩
      · obtain ⟨m, named, pending⟩ := contested.contact j k r other mine theirs
        exact ⟨m, named, pending.imp kept kept⟩
      · refine ⟨m, named, .inl (.inl ?_)⟩
        show m ∈ S.outbox (update w.node j s j)
        rwa [update_self]
    intro k l r other first second
    dsimp only at first second
    by_cases left : k = j
    · subst left
      rw [update_self] at first
      rw [update_of_ne other.symm] at second
      exact one other first second
    · rw [update_of_ne left] at first
      by_cases right : l = j
      · subst right
        rw [update_self] at second
        exact (one other.symm second first).symm
      · rw [update_of_ne right] at second
        obtain ⟨m, named, pending⟩ := contested.contact k l r other first second
        exact ⟨m, named, pending.imp kept kept⟩

theorem Contested.delivered
    (contested : C.Contested S w)
    {before after : List μ} {m : μ}
    (sent : w.flight i j = before ++ m :: after)
    (answered : C.Holds (w.node j) (C.named m) → ∃ m' ∈ S.outbox (w.node j), C.named m' = C.named m) :
    C.Contested S ⟨w.node, fun k l => if k = i ∧ l = j then before ++ after else w.flight k l⟩ where
  distinct := contested.distinct
  signed := by
    intro k l m' pending
    apply contested.signed k l m'
    refine pending.imp_right ?_
    intro member
    dsimp only at member
    split at member
    · rename_i here
      rw [here.1, here.2, sent]
      rcases mem_append.mp member with member | member
      · exact mem_append_left _ member
      · exact mem_append_right _ (mem_cons_of_mem _ member)
    · exact member
  contact := by
    have kept {k l : ι} {m' : μ} (pending : w.Pending S k l m') : (k = i ∧ l = j ∧ m' = m) ∨
        Medium.Pending S ⟨w.node, fun k l => if k = i ∧ l = j then before ++ after else w.flight k l⟩ k l m' := by
      rcases pending with queued | flying
      · exact .inr (.inl queued)
      · by_cases here : k = i ∧ l = j
        · rw [here.1, here.2, sent] at flying
          have around : m' ∈ before ∨ m' = m ∨ m' ∈ after := by
            rw [mem_append, mem_cons] at flying
            exact flying
          rcases around with member | same | member
          · refine .inr (.inr ?_)
            simp only [if_pos here]
            exact mem_append_left _ member
          · exact .inl ⟨here.1, here.2, same⟩
          · refine .inr (.inr ?_)
            simp only [if_pos here]
            exact mem_append_right _ member
        · refine .inr (.inr ?_)
          simp only [if_neg here]
          exact flying
    intro k l r other first second
    obtain ⟨m', named, pending⟩ := contested.contact k l r other first second
    rcases pending with pending | pending
    · rcases kept pending with ⟨rfl, rfl, rfl⟩ | pending
      · subst named
        obtain ⟨reply, queued, named⟩ := answered second
        exact ⟨reply, named, .inr (.inl queued)⟩
      · exact ⟨m', named, .inl pending⟩
    · rcases kept pending with ⟨rfl, rfl, rfl⟩ | pending
      · subst named
        obtain ⟨reply, queued, named⟩ := answered first
        exact ⟨reply, named, .inl (.inl queued)⟩
      · exact ⟨m', named, .inr pending⟩

variable (arbitrates : C.Arbitrates S)
include arbitrates

variable (contested : C.Contested S w)
include contested

theorem Contested.flushed : C.Contested S ⟨update w.node i (S.flush (w.node i)),
      fun k l => if k = i ∧ l ≠ i then w.flight k l ++ S.outbox (w.node i) else w.flight k l⟩ where
  distinct := by
    have ident (k : ι) : C.ident (update w.node i (S.flush (w.node i)) k) = C.ident (w.node k) := by
      by_cases same : k = i
      · subst same
        rw [update_self]
        exact arbitrates.flush_ident _
      · rw [update_of_ne same]
    intro k l agree
    rw [ident k, ident l] at agree
    exact contested.distinct k l agree
  signed := by
    intro k l m pending
    by_cases same : k = i
    · subst same
      simp only [Medium.Pending, update_self, arbitrates.flush_outbox, not_mem_nil, false_or,
        true_and] at pending ⊢
      rw [arbitrates.flush_ident]
      split at pending
      · rcases mem_append.mp pending with flying | queued
        · exact contested.signed k l m (.inr flying)
        · exact contested.signed k l m (.inl queued)
      · exact contested.signed k l m (.inr pending)
    · simp only [Medium.Pending, update_of_ne same, same, false_and, if_false] at pending ⊢
      exact contested.signed k l m pending
  contact := by
    have held {k : ι} {r : ρ} (holds : C.Holds (update w.node i (S.flush (w.node i)) k) r) :
        C.Holds (w.node k) r := by
      by_cases same : k = i
      · subst same
        rw [update_self] at holds
        exact arbitrates.flush_holds _ _ holds
      · rwa [update_of_ne same] at holds
    have kept {k l : ι} {m : μ} (other : k ≠ l) (pending : w.Pending S k l m) :
        Medium.Pending S ⟨update w.node i (S.flush (w.node i)),
          fun k l => if k = i ∧ l ≠ i then w.flight k l ++ S.outbox (w.node i) else w.flight k l⟩ k l m := by
      by_cases same : k = i
      · subst same
        refine .inr ?_
        simp only [true_and, if_pos other.symm]
        rcases pending with queued | flying
        · exact mem_append_right _ queued
        · exact mem_append_left _ flying
      · simp only [Medium.Pending, update_of_ne same, same, false_and, if_false]
        exact pending
    intro k l r other first second
    obtain ⟨m, named, pending⟩ := contested.contact k l r other (held first) (held second)
    exact ⟨m, named, pending.imp (kept other) (kept other.symm)⟩

theorem Contested.step {action : Medium.Action ι μ α τ}
    {w' : Medium ι σ μ} (step : Medium.Step S w action w') : C.Contested S w' := by
  cases step with
  | act i a => exact contested.changed (arbitrates.act a _)
  | flush i => exact contested.flushed arbitrates
  | @deliver i j before m after now distinct sent =>
    have heard := contested.changed (arbitrates.hear now m (w.node j))
    refine heard.delivered sent ?_
    dsimp only
    rw [update_self]
    have signed : C.Signed (C.ident (w.node i)) m := by
      apply contested.signed i j m
      refine .inr ?_
      rw [sent]
      exact mem_append_right _ mem_cons_self
    exact arbitrates.rival now m (w.node j) _ signed fun same => distinct (contested.distinct i j same)

theorem run_contested {history : List (Medium.Action ι μ α τ)}
    {w' : Medium ι σ μ} (run : Run (Medium.Step S) w history w') : C.Contested S w' :=
  run.invariant contested fun _ _ _ contested step => contested.step arbitrates step

end Step

theorem Contested.exclusive
    (contested : C.Contested S w)
    (quiet : w.Quiet S)
    (other : i ≠ j)
    (first : C.Holds (w.node i) r) : ¬ C.Holds (w.node j) r := by
  intro second
  obtain ⟨m, _, (queued | flying) | (queued | flying)⟩ := contested.contact i j r other first second
  · rw [quiet.1 i] at queued
    cases queued
  · rw [quiet.2 i j] at flying
    cases flying
  · rw [quiet.1 j] at queued
    cases queued
  · rw [quiet.2 j i] at flying
    cases flying

end Contest
