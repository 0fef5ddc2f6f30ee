import Mathlib.Algebra.BigOperators.Group.Finset.Piecewise
import Mathlib.Data.List.GetD
import Taktora.Executor.Item
import Taktora.Lib.Checked
import Taktora.Lib.Tally

namespace Taktora.Exec

open List

structure GraphBuilder where
  items : List Item
  edges : List (Nat × Nat)
  root : Option Nat
  few_items : items.length < 2 ^ 63
  few_edges : edges.length < 2 ^ 63

structure Graph where
  successors : List (List Nat)
  inDegree : List Nat
  root : Nat
  decls : List TriggerDecl
  itemsShared : List Item
  integrityLevels : List IntegrityLevel
  rootTaskId : Option String

namespace GraphBuilder

def validateRoot (root : Option Nat) (n : Nat) : Except ExecutorError Nat :=
  if n = 0 then .error (.invalidGraph "graph has no vertices")
  else
    match root with
    | none => .error (.invalidGraph "no root vertex set")
    | some root => if n ≤ root then .error (.invalidGraph "root index out of bounds") else .ok root

def addEdge (n : Nat) (adjacency : List (List Nat) × List Nat) (edge : Nat × Nat) :
    Except ExecutorError (List (List Nat) × List Nat) :=
  if n ≤ edge.1 ∨ n ≤ edge.2 then .error (.invalidGraph "edge index out of bounds")
  else if edge.1 = edge.2 then .error (.invalidGraph "self-loops are not allowed")
  else .ok (adjacency.1.modify edge.1 (· ++ [edge.2]), adjacency.2.modify edge.2 (· + 1))

def buildAdjacency (edges : List (Nat × Nat)) (n : Nat) : Except ExecutorError (List (List Nat) × List Nat) :=
  edges.foldlM (addEdge n) (List.replicate n [], List.replicate n 0)

def relax (state : List Nat × List Nat) (v : Nat) : List Nat × List Nat :=
  let kIn := state.1.modify v (· - 1)
  (kIn, if kIn.getD v 0 = 0 then v :: state.2 else state.2)

def visit (successors : List (List Nat)) : Nat → List Nat × List Nat → Nat
  | 0, _ => 0
  | _ + 1, (_, []) => 0
  | rounds + 1, (kIn, u :: queue) => visit successors rounds ((successors.getD u []).foldl relax (kIn, queue)) + 1

def assertAcyclic (successors : List (List Nat)) (inDegree : List Nat) (n : Nat) : Except ExecutorError Unit :=
  let queue := ((List.range n).filter fun i => inDegree.getD i 0 = 0).reverse
  -- one round more than there are vertices, so that a longer visit is not mistaken for one of `n`
  if visit successors (n + 1) (inDegree, queue) ≠ n then .error (.invalidGraph "graph contains a cycle") else .ok ()

def search (successors : List (List Nat)) : Nat → List Bool × List Nat → List Bool
  | 0, (reach, _) => reach
  | _ + 1, (reach, []) => reach
  | rounds + 1, (reach, u :: stack) =>
    if reach.getD u false then search successors rounds (reach, stack)
    else search successors rounds (reach.set u true, (successors.getD u []).reverse ++ stack)

def assertReachable (successors : List (List Nat)) (root n : Nat) : Except ExecutorError Unit :=
  -- every round takes one vertex off the stack, and every edge puts one there at most once
  let reach := search successors (successors.flatten.length + 1) (List.replicate n false, [root])
  if reach.any (!·) then .error (.invalidGraph "every vertex must be reachable from the root") else .ok ()

def collectRootDecls (items : List Item) (root : Nat) : Except ExecutorError (List TriggerDecl) :=
  match items[root]? with
  | none => .ok []
  | some item => item.declareTriggers.map (·.decls)

def assemble (items : List Item) (successors : List (List Nat)) (inDegree : List Nat) (root : Nat)
    (decls : List TriggerDecl) : Graph :=
  { successors, inDegree, root, decls, itemsShared := items, integrityLevels := items.map (·.integrityLevel)
    rootTaskId := items[root]?.bind (·.taskId) }

def finish (b : GraphBuilder) : Except ExecutorError Graph := do
  let n := b.items.length
  let root ← validateRoot b.root n
  let (successors, inDegree) ← buildAdjacency b.edges n
  assertAcyclic successors inDegree n
  assertReachable successors root n
  let decls ← collectRootDecls b.items root
  .ok (assemble b.items successors inDegree root decls)

end GraphBuilder

open GraphBuilder

namespace Graph

def size (g : Graph) : Nat := g.itemsShared.length

def succ (g : Graph) (i : Nat) : List Nat := g.successors.getD i []

def degree (g : Graph) (j : Nat) : Nat := g.inDegree.getD j 0

end Graph

def Topological (succ : Nat → List Nat) : List Nat → Prop
  | [] => True
  | v :: earlier => (∀ u, v ∈ succ u → u ∈ earlier) ∧ Topological succ earlier

structure Adjacency (n : Nat) (successors : List (List Nat)) (inDegree : List Nat) : Prop where
  rows : successors.length = n
  columns : inDegree.length = n
  inside : ∀ u, ∀ v ∈ successors.getD u [], v < n
  counted : ∀ v, inDegree.getD v 0 = ∑ u ∈ Finset.range n, (successors.getD u []).count v

section Adjacent

variable {n : Nat} {successors : List (List Nat)} {inDegree : List Nat} {edge : Nat × Nat}
  {adjacency : List (List Nat) × List Nat} {edges : List (Nat × Nat)}

theorem getD_modify {α : Type} {xs : List α} {i j : Nat} {f : α → α} {d : α} (inside : i < xs.length) :
    (xs.modify i f).getD j d = if i = j then f (xs.getD j d) else xs.getD j d := by
  rw [getD_eq_getElem?_getD, getD_eq_getElem?_getD, getElem?_modify]
  split
  · rename_i same
    subst same
    rw [getElem?_eq_getElem inside]
    rfl
  · simp

theorem Adjacency.source {u v : Nat}
    (adjacent : Adjacency n successors inDegree)
    (edge : v ∈ successors.getD u []) : u < n := by
  by_contra _
  rw [getD_eq_default _ _ (by rw [adjacent.rows]; omega)] at edge
  cases edge

theorem Adjacency.empty (n : Nat) : Adjacency n (List.replicate n []) (List.replicate n 0) := by
  have row (u : Nat) : (replicate n ([] : List Nat)).getD u [] = [] := by simp
  have column (v : Nat) : (replicate n 0).getD v 0 = 0 := by simp
  refine ⟨length_replicate, length_replicate, ?_, ?_⟩
  · intro u v member
    rw [row] at member
    cases member
  · intro v
    simp only [row, column, count_nil, Finset.sum_const_zero]

theorem Adjacency.addEdge {most : Nat}
    (valid : Adjacency n successors inDegree)
    (few : ∀ v, inDegree.getD v 0 ≤ most)
    (added : addEdge n (successors, inDegree) edge = .ok adjacency) :
    Adjacency n adjacency.1 adjacency.2 ∧ ∀ v, adjacency.2.getD v 0 ≤ most + 1 := by
  unfold GraphBuilder.addEdge at added
  split at added
  · cases added
  split at added
  · cases added
  cases added
  have source : edge.1 < successors.length := by
    have := valid.rows
    omega
  have target : edge.2 < inDegree.length := by
    have := valid.columns
    omega
  have row (u : Nat) : (successors.modify edge.1 (· ++ [edge.2])).getD u [] =
      if edge.1 = u then successors.getD u [] ++ [edge.2] else successors.getD u [] := getD_modify source
  have column (v : Nat) : (inDegree.modify edge.2 (· + 1)).getD v 0 =
      if edge.2 = v then inDegree.getD v 0 + 1 else inDegree.getD v 0 := getD_modify target
  refine ⟨⟨?_, ?_, ?_, ?_⟩, ?_⟩
  · rw [length_modify, valid.rows]
  · rw [length_modify, valid.columns]
  · intro u v member
    rw [row] at member
    split at member
    · rcases mem_append.mp member with old | new
      · exact valid.inside u v old
      · rw [mem_singleton] at new
        omega
    · exact valid.inside u v member
  · intro v
    have count (u : Nat) : ((successors.modify edge.1 (· ++ [edge.2])).getD u []).count v =
        (successors.getD u []).count v + if edge.1 = u then [edge.2].count v else 0 := by
      rw [row]
      split
      · rw [count_append]
      · rfl
    have member : edge.1 ∈ Finset.range n := by
      rw [Finset.mem_range]
      omega
    rw [column, Finset.sum_congr rfl fun u _ => count u, Finset.sum_add_distrib, ← valid.counted, Finset.sum_ite_eq,
      if_pos member, count_singleton]
    by_cases same : edge.2 = v
    · rw [if_pos same, if_pos (beq_iff_eq.mpr same)]
    · rw [if_neg same, if_neg (by simpa using same)]
      rfl
  · intro v
    have := few v
    rw [column]
    split <;> omega

theorem addEdges_valid {result : List (List Nat) × List Nat} {most : Nat}
    (valid : Adjacency n adjacency.1 adjacency.2)
    (few : ∀ v, adjacency.2.getD v 0 ≤ most)
    (built : edges.foldlM (addEdge n) adjacency = .ok result) :
    Adjacency n result.1 result.2 ∧ ∀ v, result.2.getD v 0 ≤ most + edges.length := by
  induction edges generalizing adjacency most with
  | nil =>
    cases built
    exact ⟨valid, few⟩
  | cons edge rest ih =>
    obtain ⟨_, added, built⟩ := Checked.bind_ok built
    obtain ⟨valid, few⟩ := valid.addEdge few added
    obtain ⟨valid, few⟩ := ih valid few built
    refine ⟨valid, fun v => ?_⟩
    have := few v
    rw [length_cons]
    omega

theorem buildAdjacency_valid
    (built : buildAdjacency edges n = .ok adjacency) :
    Adjacency n adjacency.1 adjacency.2 ∧ ∀ v, adjacency.2.getD v 0 ≤ edges.length := by
  have zero (v : Nat) : (replicate n 0).getD v 0 ≤ 0 := by simp
  have result := addEdges_valid (Adjacency.empty n) zero built
  rwa [zero_add] at result

end Adjacent

structure Visiting (n : Nat) (successors : List (List Nat)) (inDegree done used kIn queue : List Nat) : Prop where
  columns : kIn.length = n
  left : ∀ v, kIn.getD v 0 = inDegree.getD v 0 - used.count v
  distinct : (queue ++ done).Nodup
  inside : ∀ v ∈ queue ++ done, v < n
  ready : ∀ v ∈ queue ++ done, kIn.getD v 0 = 0
  ordered : Topological (fun u => successors.getD u []) done

section Visit

variable {n u : Nat} {successors : List (List Nat)} {inDegree done used kIn queue pre rest : List Nat}

theorem count_flatMap_le
    (adjacent : Adjacency n successors inDegree)
    (distinct : done.Nodup)
    (below : ∀ u ∈ done, u < n)
    (v : Nat) :
    (done.flatMap fun u => successors.getD u []).count v ≤ inDegree.getD v 0 := by
  rw [adjacent.counted, count_flatMap]
  exact Tally.sum_le_range distinct below

theorem Visiting.relax {v : Nat}
    (adjacent : Adjacency n successors inDegree)
    (whole : pre ++ v :: rest = successors.getD u [])
    (visiting : Visiting n successors inDegree (u :: done)
      (pre ++ done.flatMap fun u => successors.getD u []) kIn queue) :
    Visiting n successors inDegree (u :: done) ((pre ++ [v]) ++ done.flatMap fun u => successors.getD u [])
      (relax (kIn, queue) v).1 (relax (kIn, queue) v).2 := by
  obtain ⟨columns, left, distinct, inside, ready, ordered⟩ := visiting
  have below : v < n := adjacent.inside u v (by rw [← whole]; simp)
  -- this edge into `v` has not been counted down yet
  have open_ : (pre ++ done.flatMap fun u => successors.getD u []).count v < inDegree.getD v 0 := by
    have total := count_flatMap_le adjacent (nodup_append.mp distinct).2.1
      (fun w member => inside w (mem_append_right _ member)) v
    rw [flatMap_cons, ← whole, count_append, count_append, count_cons_self] at total
    rw [count_append]
    omega
  have fresh : v ∉ queue ++ u :: done := by
    intro member
    have zero := ready v member
    rw [left] at zero
    omega
  have column (w : Nat) : (kIn.modify v (· - 1)).getD w 0 = if v = w then kIn.getD w 0 - 1 else kIn.getD w 0 :=
    getD_modify (by omega)
  have left' (w : Nat) : (kIn.modify v (· - 1)).getD w 0 =
      inDegree.getD w 0 - ((pre ++ [v]) ++ done.flatMap fun u => successors.getD u []).count w := by
    have count : ((pre ++ [v]) ++ done.flatMap fun u => successors.getD u []).count w =
        (pre ++ done.flatMap fun u => successors.getD u []).count w + if v = w then 1 else 0 := by
      rw [count_append, count_append, count_append, count_singleton]
      simp only [beq_iff_eq]
      omega
    rw [column, left, count]
    split <;> omega
  have ready' : ∀ w ∈ queue ++ u :: done, (kIn.modify v (· - 1)).getD w 0 = 0 := by
    intro w member
    have zero := ready w member
    rw [column]
    split <;> omega
  unfold GraphBuilder.relax
  dsimp only
  split
  · rename_i last
    refine ⟨by rw [length_modify, columns], left', ?_, ?_, ?_, ordered⟩
    · exact nodup_cons.mpr ⟨fresh, distinct⟩
    · exact forall_mem_cons.mpr ⟨below, inside⟩
    · exact forall_mem_cons.mpr ⟨last, ready'⟩
  · exact ⟨by rw [length_modify, columns], left', distinct, inside, ready', ordered⟩

theorem Visiting.relax_all (pre : List Nat)
    (adjacent : Adjacency n successors inDegree)
    (whole : pre ++ rest = successors.getD u [])
    (visiting : Visiting n successors inDegree (u :: done)
      (pre ++ done.flatMap fun u => successors.getD u []) kIn queue) :
    Visiting n successors inDegree (u :: done) ((u :: done).flatMap fun u => successors.getD u [])
      (rest.foldl GraphBuilder.relax (kIn, queue)).1 (rest.foldl GraphBuilder.relax (kIn, queue)).2 := by
  induction rest generalizing pre kIn queue with
  | nil =>
    rw [append_nil] at whole
    rw [flatMap_cons, ← whole]
    exact visiting
  | cons v rest ih => exact ih (pre ++ [v]) (by rw [append_assoc]; exact whole) (visiting.relax adjacent whole)

section

variable (adjacent : Adjacency n successors inDegree)
include adjacent

theorem Visiting.pop
    (visiting : Visiting n successors inDegree done (done.flatMap fun u => successors.getD u []) kIn (u :: queue)) :
    Visiting n successors inDegree (u :: done) ([] ++ done.flatMap fun u => successors.getD u []) kIn queue := by
  obtain ⟨columns, left, distinct, inside, ready, ordered⟩ := visiting
  have moved : (queue ++ u :: done).Perm (u :: queue ++ done) := perm_middle
  refine ⟨columns, left, moved.nodup_iff.mpr distinct, fun v member => inside v (moved.mem_iff.mp member),
    fun v member => ready v (moved.mem_iff.mp member), ?_, ordered⟩
  intro w edge
  have zero := ready u mem_cons_self
  rw [left, adjacent.counted, count_flatMap] at zero
  exact Tally.mem_of_sum_range_le (nodup_append.mp distinct).2.1 (fun v member => inside v (mem_append_right _ member))
    (Nat.le_of_sub_eq_zero zero) (adjacent.source edge) (count_pos_iff.mpr edge)

theorem Visiting.visit (rounds : Nat)
    (visiting : Visiting n successors inDegree done (done.flatMap fun u => successors.getD u []) kIn queue) :
    ∃ later, (later ++ done).Nodup ∧ (∀ v ∈ later ++ done, v < n) ∧
      Topological (fun u => successors.getD u []) (later ++ done) ∧
      later.length = visit successors rounds (kIn, queue) := by
  induction rounds generalizing done kIn queue with
  | zero =>
    exact ⟨[], (nodup_append.mp visiting.distinct).2.1,
      fun v member => visiting.inside v (mem_append_right _ member), visiting.ordered, rfl⟩
  | succ rounds ih =>
    cases queue with
    | nil => exact ⟨[], visiting.distinct, visiting.inside, visiting.ordered, rfl⟩
    | cons u queue =>
      obtain ⟨later, _, _, _, visited⟩ := ih ((visiting.pop adjacent).relax_all [] adjacent rfl)
      refine ⟨later ++ [u], ?_, ?_, ?_, ?_⟩
      · rwa [append_assoc]
      · rwa [append_assoc]
      · rwa [append_assoc]
      · rw [length_append, visited]
        rfl

theorem assertAcyclic_ordered (acyclic : assertAcyclic successors inDegree n = .ok ()) :
    ∃ order : List Nat, order.Nodup ∧ (∀ v, v ∈ order ↔ v < n) ∧ Topological (fun u => successors.getD u []) order := by
  unfold assertAcyclic at acyclic
  dsimp only at acyclic
  split at acyclic
  · cases acyclic
  rename_i visited
  rw [not_not] at visited
  have start : Visiting n successors inDegree [] ([].flatMap fun u => successors.getD u []) inDegree
      ((range n).filter fun i => inDegree.getD i 0 = 0).reverse := by
    refine ⟨adjacent.columns, fun v => rfl, ?_, ?_, ?_, trivial⟩
    · rw [append_nil, nodup_reverse]
      exact nodup_range.filter _
    · intro v member
      rw [append_nil, mem_reverse, mem_filter, mem_range] at member
      exact member.1
    · intro v member
      rw [append_nil, mem_reverse, mem_filter] at member
      exact of_decide_eq_true member.2
  obtain ⟨order, distinct, inside, ordered, _⟩ := start.visit adjacent (n + 1)
  rw [append_nil] at distinct inside ordered
  exact ⟨order, distinct, fun v => ⟨inside v, Tally.mem_of_length_ge distinct inside (by omega)⟩, ordered⟩

end

end Visit

section Search

variable {n root : Nat} {successors : List (List Nat)} {inDegree stack : List Nat} {reach : List Bool}

def Edge (successors : List (List Nat)) (u v : Nat) : Prop := v ∈ successors.getD u []

theorem search_reachable (rounds : Nat) (reach : List Bool) (stack : List Nat)
    (marked : ∀ v, reach.getD v false = true → Relation.ReflTransGen (Edge successors) root v)
    (stacked : ∀ v ∈ stack, Relation.ReflTransGen (Edge successors) root v) :
    ∀ v, (search successors rounds (reach, stack)).getD v false = true →
      Relation.ReflTransGen (Edge successors) root v := by
  induction rounds generalizing reach stack with
  | zero => exact marked
  | succ rounds ih =>
    cases stack with
    | nil => exact marked
    | cons u stack =>
      obtain ⟨reachable, stacked⟩ := forall_mem_cons.mp stacked
      rw [search]
      split
      · exact ih _ _ marked stacked
      · apply ih
        · intro v mark
          by_cases same : u = v
          · exact same ▸ reachable
          · rw [getD_eq_getElem?_getD, getElem?_set_ne same] at mark
            exact marked v mark
        · intro v member
          rcases mem_append.mp member with edge | old
          · exact reachable.tail (mem_reverse.mp edge)
          · exact stacked v old

theorem search_length (rounds : Nat) : (search successors rounds (reach, stack)).length = reach.length := by
  induction rounds generalizing reach stack with
  | zero => rfl
  | succ rounds ih =>
    cases stack with
    | nil => rfl
    | cons u stack =>
      rw [search]
      split
      · exact ih
      · exact ih.trans length_set

theorem assertReachable_reachable (reachable : assertReachable successors root n = .ok ()) {v : Nat}
    (below : v < n) : Relation.ReflTransGen (Edge successors) root v := by
  unfold assertReachable at reachable
  dsimp only at reachable
  split at reachable
  · cases reachable
  rename_i all
  apply search_reachable (successors.flatten.length + 1) (replicate n false) [root]
  · intro w mark
    simp at mark
  · intro w member
    cases mem_singleton.mp member
    exact .refl
  · generalize found : search successors _ _ = reach at all
    have length : reach.length = n := by
      rw [← found, search_length, length_replicate]
    rw [getD_eq_getElem _ _ (by omega)]
    by_contra unmarked
    apply all
    rw [any_eq_true]
    exact ⟨_, getElem_mem _, by simpa using unmarked⟩

end Search

structure Graph.Valid (g : Graph) : Prop where
  small : g.size < 2 ^ 63
  adjacent : Adjacency g.size g.successors g.inDegree
  bounded : ∀ v, g.degree v < 2 ^ 63
  root_lt : g.root < g.size
  ordered : ∃ order : List Nat, order.Nodup ∧ (∀ v, v ∈ order ↔ v < g.size) ∧ Topological g.succ order
  root_only : ∀ v < g.size, g.degree v = 0 ↔ v = g.root

section Finish

variable {b : GraphBuilder} {g : Graph} {successors : List (List Nat)}

theorem Graph.Valid.degree_eq
    (valid : g.Valid)
    (v : Nat) :
    g.degree v = ∑ u ∈ Finset.range g.size, (g.succ u).count v :=
  valid.adjacent.counted v

theorem Graph.Valid.succ_lt {u v : Nat} (valid : g.Valid) (edge : v ∈ g.succ u) : v < g.size :=
  valid.adjacent.inside u v edge

theorem Topological.induction {succ : Nat → List Nat} {order : List Nat} {P : Nat → Prop}
    (ordered : Topological succ order)
    (step : ∀ v ∈ order, (∀ u, v ∈ succ u → P u) → P v) : ∀ v ∈ order, P v := by
  induction order with
  | nil => exact forall_mem_nil P
  | cons v earlier ih =>
    obtain ⟨before, ordered⟩ := ordered
    have rest := ih ordered fun u member => step u (mem_cons_of_mem v member)
    exact forall_mem_cons.mpr ⟨step v mem_cons_self fun u edge => rest u (before u edge), rest⟩

theorem Graph.Valid.induction {P : Nat → Prop}
    (valid : g.Valid)
    (step : ∀ v < g.size, (∀ u, v ∈ g.succ u → P u) → P v) : ∀ v < g.size, P v := by
  obtain ⟨_, _, all, ordered⟩ := valid.ordered
  intro v below
  apply ordered.induction _ v ((all v).mpr below)
  exact fun u member => step u ((all u).mp member)

theorem Adjacency.degree_zero {n v : Nat} {inDegree : List Nat}
    (adjacent : Adjacency n successors inDegree) :
    inDegree.getD v 0 = 0 ↔ ∀ u, v ∉ successors.getD u [] := by
  rw [adjacent.counted, Finset.sum_eq_zero_iff]
  constructor
  · intro none u edge
    have zero := none u (mem_range.mpr (adjacent.source edge))
    exact count_eq_zero.mp zero edge
  · intro none u _
    exact count_eq_zero.mpr (none u)

theorem root_only_of_ordered {n root : Nat} {inDegree order : List Nat}
    (adjacent : Adjacency n successors inDegree)
    (inside : root < n)
    (reached : ∀ v < n, Relation.ReflTransGen (Edge successors) root v)
    (all : ∀ v, v ∈ order ↔ v < n)
    (ordered : Topological (fun u => successors.getD u []) order)
    {v : Nat}
    (below : v < n) : inDegree.getD v 0 = 0 ↔ v = root := by
  have only (w : Nat) (below : w < n) (zero : inDegree.getD w 0 = 0) : w = root := by
    rcases Relation.ReflTransGen.cases_tail (reached w below) with same | ⟨u, _, edge⟩
    · exact same
    · exact absurd edge (adjacent.degree_zero.mp zero u)
  refine ⟨only v below, ?_⟩
  rintro rfl
  -- the first vertex of the order has no predecessor, so it is the root
  have first : ∃ w ∈ order, ∀ u, w ∉ successors.getD u [] := by
    have some : order ≠ [] := ne_nil_of_mem ((all v).mpr inside)
    clear all
    induction order with
    | nil => exact absurd rfl some
    | cons w earlier ih =>
      obtain ⟨before, ordered⟩ := ordered
      cases earlier with
      | nil => exact ⟨w, mem_cons_self, fun u edge => not_mem_nil (before u edge)⟩
      | cons x earlier =>
        obtain ⟨w', member, none⟩ := ih ordered (cons_ne_nil _ _)
        exact ⟨w', mem_cons_of_mem _ member, none⟩
  obtain ⟨w, member, none⟩ := first
  have zero := adjacent.degree_zero.mpr none
  rwa [only w ((all w).mp member) zero] at zero

theorem finish_valid (finished : b.finish = .ok g) : g.Valid ∧ g.itemsShared = b.items ∧
    g.integrityLevels = b.items.map (·.integrityLevel) := by
  obtain ⟨root, rooted, finished⟩ := Checked.bind_ok finished
  obtain ⟨⟨_, _⟩, built, finished⟩ := Checked.bind_ok finished
  obtain ⟨_, acyclic, finished⟩ := Checked.bind_ok finished
  obtain ⟨_, reachable, finished⟩ := Checked.bind_ok finished
  obtain ⟨_, _, finished⟩ := Checked.bind_ok finished
  cases finished
  obtain ⟨adjacent, few⟩ := buildAdjacency_valid built
  have inside : root < b.items.length := by
    unfold validateRoot at rooted
    split at rooted
    · cases rooted
    split at rooted
    · cases rooted
    split at rooted
    · cases rooted
    cases rooted
    omega
  obtain ⟨order, distinct, all, ordered⟩ := assertAcyclic_ordered adjacent acyclic
  refine ⟨⟨b.few_items, adjacent, fun v => lt_of_le_of_lt (few v) b.few_edges, inside,
    ⟨order, distinct, all, ordered⟩, fun v below => ?_⟩, rfl, rfl⟩
  exact root_only_of_ordered adjacent inside (fun v below => assertReachable_reachable reachable below) all ordered
    below

end Finish

end Taktora.Exec
