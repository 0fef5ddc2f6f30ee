import Taktora.Executor.GraphPending

namespace Taktora.Exec

open List

/-- An item begins after the items of all predecessors have returned `Continue`. -/
def Ordered (g : Graph) (log : List (Nat × Op)) : Prop :=
  ∀ before v after, log = before ++ (v, .begins) :: after → ∀ u, v ∈ g.succ u → (u, .returns (.ok .proceed)) ∈ before

def DispatcherPc.error? : DispatcherPc → Option (Option ItemError)
  | .loadingChain error | .returned error _ => some error
  | _ => none

structure GraphRun.ErrorInv (s : GraphRun) : Prop where
  first : ∀ e, s.shared.firstErr = some e → ∃ v, (v, .records e) ∈ s.log
  kept : s.dispatcher.error? = none → ∀ v e, (v, .records e) ∈ s.log → s.shared.firstErr ≠ none
  taken : ∀ e, s.dispatcher.error? = some (some e) → ∃ v, (v, .records e) ∈ s.log

section Order

variable {g : Graph} {s s' : GraphRun} {v : Nat} {turns : List Graph.Turn}

theorem GraphRun.Inv.told (inv : s.Inv g) (v : Nat) : Told (own v s.log) := by
  by_cases member : v ∈ s.vertices
  · obtain ⟨_, trail⟩ := inv.trail member
    exact trail.told
  · rw [inv.silent v member]
    exact Front.idle.told

theorem Ordered.snoc {log : List (Nat × Op)} {entry : Nat × Op}
    (ordered : Ordered g log)
    (last : ∀ v, entry = (v, .begins) → ∀ u, v ∈ g.succ u → (u, .returns (.ok .proceed)) ∈ log) :
    Ordered g (log ++ [entry]) := by
  intro before v after whole
  rcases after.eq_nil_or_concat with rfl | ⟨rest, _, rfl⟩
  · obtain ⟨rfl, same⟩ := append_inj' whole rfl
    exact last v (cons.inj same).1
  · rw [concat_eq_append, ← cons_append, ← append_assoc] at whole
    exact ordered before v rest (append_inj' whole rfl).1

theorem Ordered.step
    (valid : g.Valid)
    (inv : s.Inv g)
    (order : s.popped <+: s.reserved)
    (ordered : Ordered g s.log)
    (moves : g.Moves s s') : Ordered g s'.log := by
  cases moves with
  | clashes member queued busy => exact ordered
  | dispatcher dispatches =>
    rw [dispatches.keeps.1]
    exact ordered
  | job moves =>
    rw [moves.log]
    apply ordered.snoc
    intro v same u edge
    cases same
    obtain ⟨_, root | all⟩ := inv.vertex_released order (mem_map_of_mem moves.member)
    · exact absurd edge (valid.adjacent.degree_zero.mp root u)
    · exact inv.continued u (inv.predecessor_released valid order all edge).2

theorem run_ordered (valid : g.Valid) (run : Run g.Step g.started turns s) : Ordered g s.log := by
  induction run with
  | nil =>
    intro before v after whole
    exact absurd whole.symm (append_ne_nil_of_right_ne_nil _ (cons_ne_nil _ _))
  | snoc before last ih =>
    obtain ⟨inv, ring⟩ := run_inv valid before
    exact ih.step valid inv ring.order last.moves.2

end Order

section Errors

variable {g : Graph} {s s' : GraphRun} {turns : List Graph.Turn}

theorem Effect.firstErr {m m' : GraphShared} {op : Op}
    (effect : Effect m op m') :
    (m'.firstErr = m.firstErr ∧ ∀ e, op ≠ .records e) ∨ ∃ e, op = .records e ∧
      m'.firstErr = m.firstErr.or (some e) := by
  cases effect with
  | records e => exact .inr ⟨e, rfl, rfl⟩
  | _ => exact .inl ⟨rfl, nofun⟩

theorem Dispatches.error (dispatches : Dispatches g s s') :
    (s'.shared.firstErr = s.shared.firstErr ∧ s'.dispatcher.error? = s.dispatcher.error?) ∨
      (s.dispatcher = .takingErr ∧ s'.dispatcher.error? = some s.shared.firstErr ∧ s'.shared.firstErr = none) := by
  cases dispatches with
  | takesErr here => exact .inr ⟨here, rfl, rfl⟩
  | finishes here none =>
    left
    rcases here with here | here <;> rw [here] <;> exact ⟨rfl, rfl⟩
  | spins head drain here unfilled => exact .inl ⟨rfl, rfl⟩
  | _ =>
    simp [*]
    exact ⟨rfl, rfl⟩

theorem GraphRun.ErrorInv.step (inv : s.ErrorInv) (moves : g.Moves s s') : s'.ErrorInv := by
  cases moves with
  | clashes member queued busy => exact { inv with }
  | dispatcher dispatches =>
    have log := dispatches.keeps.1
    rcases dispatches.error with ⟨first, error⟩ | ⟨_, error, first⟩
    · refine ⟨?_, ?_, ?_⟩ <;> rw [log]
      · rw [first]
        exact inv.first
      · rw [first, error]
        exact inv.kept
      · rw [error]
        exact inv.taken
    · refine ⟨?_, ?_, ?_⟩
      · rw [first]
        nofun
      · rw [error]
        nofun
      · intro e same
        rw [error] at same
        rw [log]
        exact inv.first e (Option.some.inj same)
  | job moves =>
    have old {e : ItemError} (recorded : ∃ v, (v, .records e) ∈ s.log) : ∃ v, (v, .records e) ∈ s'.log := by
      obtain ⟨v, member⟩ := recorded
      rw [moves.log]
      exact ⟨v, mem_append_left _ member⟩
    refine ⟨?_, ?_, ?_⟩
    · intro e found
      rcases moves.effect.firstErr with ⟨same, _⟩ | ⟨_, named, recorded⟩
      · rw [same] at found
        exact old (inv.first e found)
      · rw [recorded] at found
        rcases Option.or_eq_some_iff.mp found with earlier | ⟨_, here⟩
        · exact old (inv.first e earlier)
        · cases here
          rw [moves.log, named]
          exact ⟨_, mem_append_right _ (mem_singleton_self _)⟩
    · intro untaken v e member
      rw [moves.dispatcher] at untaken
      rw [moves.log] at member
      rcases moves.effect.firstErr with ⟨same, other⟩ | ⟨_, _, recorded⟩
      · rw [same]
        rcases mem_append.mp member with earlier | last
        · exact inv.kept untaken v e earlier
        · exact absurd (Prod.mk.inj (mem_singleton.mp last)).2.symm (other e)
      · rw [recorded]
        cases s.shared.firstErr <;> nofun
    · intro e taken
      rw [moves.dispatcher] at taken
      exact old (inv.taken e taken)

theorem run_errors (run : Run g.Step g.started turns s) : s.ErrorInv := by
  apply run.invariant ⟨nofun, nofun, nofun⟩
  exact fun s turn s' inv step => inv.step step.moves.2

theorem GraphRun.Accounted.left
    (valid : g.Valid)
    (inv : s.Inv g)
    (order : s.popped <+: s.reserved)
    (once : s.marked.Nodup)
    (accounted : s.Accounted g)
    (finishing : s.dispatcher.finishing = true)
    {v : Nat}
    (member : v ∈ s.vertices) : ∃ op ∈ own v s.log, op.leaves = true := by
  obtain ⟨distinct, inside⟩ := inv.decided_nodup valid order once
  have whole := accounted.finishing finishing
  have decided := Tally.mem_of_length_ge distinct inside whole.ge (inv.vertex_released order member).1
  have total := count_leaving s.log v
  have cancels := inv.cancelled_le order v
  have counted := count_pos_iff.mpr decided
  have unmarked : s.marked.count v = 0 := by
    rw [count_eq_zero]
    exact fun marks => inv.vertex_unswapped valid order member (marked_swapped marks)
  rw [GraphRun.decided] at counted
  apply countP_pos_iff.mp
  omega

theorem finishing_of_error {pc : DispatcherPc} {error : Option ItemError} (taken : pc.error? = some error) :
    pc.finishing = true := by
  cases pc <;> first | rfl | cases taken

theorem Program.at_returns {v : Nat} {pc pc' : JobPc} {result : ExecuteResult}
    (step : Program g v pc (.returns result) pc') : pc = .running := by
  cases step <;> rfl

theorem run_complete
    (valid : g.Valid)
    (run : Run g.Step g.started turns s)
    (once : s.marked.Nodup)
    (none : s.dispatcher.error? = some none) : ∀ v e, (v, .returns (.error e)) ∉ s.log := by
  induction run with
  | nil => cases none
  | @snoc _ s _ s' before last ih =>
    have moves := last.moves.2
    have once' := once.sublist moves.marked.sublist
    have accounted := run_accounted valid before once'
    obtain ⟨inv, ring⟩ := run_inv valid before
    have errors := run_errors before
    cases moves with
    | clashes member queued busy => exact ih once' none
    | dispatcher dispatches =>
      rw [dispatches.keeps.1]
      rcases dispatches.error with ⟨_, same⟩ | ⟨here, taken, _⟩
      · exact ih once' (same ▸ none)
      · intro v e returned
        have empty : s.shared.firstErr = .none := Option.some.inj (taken.symm.trans none)
        obtain ⟨op, inside, leaves⟩ :=
          accounted.left valid inv ring.order once' (by rw [here]; rfl) (inv.owner returned)
        have recorded := (inv.told v).failed e (mem_own.mpr returned) op inside leaves
        exact errors.kept (by rw [here]; rfl) v e (mem_own.mp recorded) empty
    | job moves =>
      rw [moves.dispatcher] at none
      intro v e returned
      rw [moves.log] at returned
      rcases mem_append.mp returned with old | new
      · exact ih once' none v e old
      · -- an item that is still running has not left `pending`
        cases mem_singleton.mp new
        obtain ⟨_, inside, leaves⟩ := accounted.left valid inv ring.order once' (finishing_of_error none)
          (mem_map_of_mem moves.member)
        have trail := inv.trails _ moves.member
        rw [moves.program.at_returns] at trail
        rw [trail.at_running] at inside
        cases mem_singleton.mp inside
        cases leaves

end Errors

section Continuing

variable {g : Graph} {s : GraphRun} {turns : List Graph.Turn}

namespace GraphRun

/-- Every item that has returned, returned `Continue`. -/
def Continued (s : GraphRun) : Prop := ∀ v result, (v, .returns result) ∈ s.log → result = .ok .proceed

theorem Inv.unstopped (inv : s.Inv g) (continued : s.Continued) : s.shared.stopFlag = false := by
  rw [Bool.eq_false_iff]
  intro stop
  obtain ⟨v, stops⟩ := inv.stop.mp stop
  obtain ⟨result, other, returned⟩ := (inv.told v).stopped (mem_own.mpr stops)
  exact other (continued v result (mem_own.mp returned))

theorem Inv.unswapped (inv : s.Inv g) (continued : s.Continued) (j : Nat) : j ∉ s.swapped := by
  intro swapped
  obtain ⟨v, _, halted, _⟩ := inv.swapped_cause swapped
  have stop := inv.halted v halted
  rw [inv.unstopped continued] at stop
  cases stop

theorem Inv.unmarked_continued (inv : s.Inv g) (continued : s.Continued) : s.marked = [] := by
  rw [eq_nil_iff_forall_not_mem]
  exact fun j marks => inv.unswapped continued j (marked_swapped marks)

end GraphRun

theorem run_executed
    (valid : g.Valid)
    (run : Run g.Step g.started turns s)
    (continued : s.Continued)
    (finishing : s.dispatcher.finishing = true) :
    ∀ v < g.size, (own v s.log).count .begins = 1 := by
  intro v below
  obtain ⟨inv, ring⟩ := run_inv valid run
  have once : s.marked.Nodup := by
    rw [inv.unmarked_continued continued]
    exact nodup_nil
  have accounted := run_accounted valid run once
  obtain ⟨distinct, inside⟩ := inv.decided_nodup valid ring.order once
  have decided := Tally.mem_of_length_ge distinct inside (accounted.finishing finishing).ge below
  have total := count_leaving s.log v
  have cancels := inv.cancelled_le ring.order v
  rw [inv.unmarked_continued continued, count_nil] at cancels
  have counted := count_pos_iff.mpr decided
  rw [GraphRun.decided] at counted
  obtain ⟨op, member, leaves⟩ := countP_pos_iff.mp (show 0 < (own v s.log).countP Op.leaves by omega)
  have begins : .begins ∈ own v s.log := by
    cases op with
    | completes last => exact (inv.told v).completed last member
    | skipped last =>
      have stop := inv.halted v (.inl (mem_own.mp ((inv.told v).skipped last member)))
      rw [inv.unstopped continued] at stop
      cases stop
    | _ => cases leaves
  have some := count_pos_iff.mpr begins
  have once := (inv.told v).once
  omega

end Continuing

end Taktora.Exec
