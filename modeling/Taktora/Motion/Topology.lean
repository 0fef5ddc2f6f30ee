import Mathlib.Data.List.FinRange
import Taktora.Lib.Frontier

namespace Taktora.Nc

open List

/-- The coupling graph; bit `s` of word `m` is the edge from master `m` to slave `s`. -/
structure CouplingTopology (N : Nat) where
  declared : Fin N → BitVec 64
  engaged : Fin N → BitVec 64
  small : N ≤ 64
  inside : ∀ m s, (engaged m).getLsbD s = true → s < N

namespace CouplingTopology

variable {N : Nat} (t : CouplingTopology N) (m s : Fin N) {axis : Fin N}

def new (small : N ≤ 64) : CouplingTopology N where
  declared _ := 0#64
  engaged _ := 0#64
  small := small
  inside m s set := by
    rw [BitVec.getLsbD_zero] at set
    cases set

def addEdge : CouplingTopology N :=
  { t with declared := Function.update t.declared m (Bitmap.raised (t.declared m) s) }

include t in
theorem lt_width : s.val < 64 := s.isLt.trans_le t.small

def switched (on : Bool) : BitVec 64 :=
  if on then Bitmap.raised (t.engaged m) s else Bitmap.cleared (t.engaged m) s

theorem switched_getLsbD (on : Bool) {i : Nat} (below : i < 64) :
    (t.switched m s on).getLsbD i = if i = s.val then on else (t.engaged m).getLsbD i := by
  unfold switched
  cases on with
  | false =>
    rw [if_neg Bool.false_ne_true, Bitmap.cleared_getLsbD _ (t.lt_width s) below]
    by_cases same : i = s.val <;> simp [same]
  | true =>
    rw [if_pos rfl, Bitmap.raised_getLsbD _ (t.lt_width s)]
    by_cases same : i = s.val <;> simp [same]

def setEngaged (on : Bool) : CouplingTopology N :=
  { t with
    engaged := Function.update t.engaged m (t.switched m s on)
    inside := by
      intro m' i set
      by_cases same : m' = m
      · rw [same, Function.update_self, t.switched_getLsbD m s on (BitVec.lt_of_getLsbD set)] at set
        by_cases target : i = s.val
        · rw [target]
          exact s.isLt
        · rw [if_neg target] at set
          exact t.inside m i set
      · rw [Function.update_of_ne same] at set
        exact t.inside m' i set }

def declaredEdge : Bool := (t.declared m).getLsbD s

def Engaged : Prop := (t.engaged m).getLsbD s = true

def rowAt (rows : Fin N → BitVec 64) (s : Nat) : BitVec 64 := if h : s < N then rows ⟨s, h⟩ else 0#64

theorem rowAt_path {rows : Fin N → BitVec 64} (inside : ∀ m s, (rows m).getLsbD s = true → s < N) {i : Nat} :
    Relation.TransGen (Frontier.Edge (rowAt rows)) axis i ↔
      ∃ h : i < N, Relation.TransGen (fun m s => (rows m).getLsbD s.val = true) axis ⟨i, h⟩ := by
  have known (a : Fin N) : rowAt rows a = rows a := dif_pos a.isLt
  constructor
  · intro path
    induction path with
    | single edge =>
      rw [Frontier.Edge, known] at edge
      exact ⟨inside axis _ edge, .single edge⟩
    | tail _ edge ih =>
      obtain ⟨below, reached⟩ := ih
      rw [Frontier.Edge, known ⟨_, below⟩] at edge
      exact ⟨inside _ _ edge, reached.tail edge⟩
  · rintro ⟨h, path⟩
    apply path.lift Fin.val
    intro a b edge
    show (rowAt rows a).getLsbD b = true
    rw [known]
    exact edge

def downstreamBits (axis : Fin N) : BitVec 64 := Frontier.reach (rowAt t.engaged) (t.engaged axis)

theorem mem_downstreamBits {i : Nat} :
    (t.downstreamBits axis).getLsbD i = true ↔ ∃ h : i < N, Relation.TransGen t.Engaged axis ⟨i, h⟩ := by
  have own : rowAt t.engaged axis = t.engaged axis := dif_pos axis.isLt
  rw [downstreamBits, Frontier.reach_iff, ← own]
  exact Relation.TransGen.head'_iff.symm.trans (rowAt_path t.inside)

def engagedDownstream (axis : Fin N) : List (Fin N) :=
  (Frontier.positions (t.downstreamBits axis)).pmap (fun i h => ⟨i, h⟩) fun _ member =>
    (t.mem_downstreamBits.mp (Frontier.mem_positions.mp member)).1

theorem mem_engagedDownstream {i : Fin N} : i ∈ t.engagedDownstream axis ↔ Relation.TransGen t.Engaged axis i := by
  unfold engagedDownstream
  rw [mem_pmap]
  constructor
  · rintro ⟨_, member, rfl⟩
    exact (t.mem_downstreamBits.mp (Frontier.mem_positions.mp member)).2
  · intro path
    exact ⟨i.val, Frontier.mem_positions.mpr (t.mem_downstreamBits.mpr ⟨i.isLt, path⟩), rfl⟩

def directMaster : Option (Fin N) := (List.finRange N).find? fun m => m ≠ s && t.declaredEdge m s

def inDegree : Nat := (List.finRange N).countP fun m => m ≠ s && t.declaredEdge m s

end CouplingTopology

def TickOrder (N : Nat) := { order : List (Fin N) // order.Nodup ∧ order.length = N }

namespace TickOrder

variable {N : Nat}

def identity : TickOrder N := ⟨List.finRange N, nodup_finRange N, length_finRange⟩

theorem mem (order : TickOrder N) (i : Fin N) : i ∈ order.val := by
  have full : order.val.toFinset = Finset.univ := by
    rw [← Finset.card_eq_iff_eq_univ, toFinset_card_of_nodup order.property.1, order.property.2, Fintype.card_fin]
  rw [← mem_toFinset, full]
  exact Finset.mem_univ i

end TickOrder

/-- A state of the ordering loop: the axes emitted so far and the masters each axis still waits for. -/
structure Emission (N : Nat) where
  emitted : List (Fin N)
  distinct : emitted.Nodup
  inDegree : Fin N → Nat

namespace Emission

variable {N : Nat} (t : CouplingTopology N)

def start : Emission N := { emitted := [], distinct := nodup_nil, inDegree := t.inDegree }

def emit (e : Emission N) (m : Fin N) (new : m ∉ e.emitted) : Emission N where
  emitted := e.emitted ++ [m]
  distinct := e.distinct.append (nodup_singleton m) (disjoint_singleton.mpr new)
  inDegree s := if t.declaredEdge m s && !(e.emitted ++ [m]).contains s then e.inDegree s - 1 else e.inDegree s

theorem not_mem_of_found {e : Emission N} {m : Fin N}
    (found : ((List.finRange N).find? fun i => !e.emitted.contains i && e.inDegree i == 0) = some m) :
    m ∉ e.emitted := by
  have chosen := find?_some found
  rw [Bool.and_eq_true] at chosen
  intro member
  rw [contains_iff_mem.mpr member] at chosen
  cases chosen.1

def run : Nat → Emission N → Emission N
  | 0, e => e
  | fuel + 1, e =>
    match found : (List.finRange N).find? fun i => !e.emitted.contains i && e.inDegree i == 0 with
    | none => e
    | some m => run fuel (e.emit t m (not_mem_of_found found))

end Emission

def CouplingTopology.tickOrder {N : Nat} (t : CouplingTopology N) : TickOrder N :=
  let e := (Emission.start t).run t N
  if full : e.emitted.length = N then ⟨e.emitted, e.distinct, full⟩ else .identity

end Taktora.Nc
