import Taktora.Lib.Ageing
import Taktora.Lib.Checked
import Taktora.Lib.Rank
import Taktora.Stats.Buckets

namespace Taktora.Stats

open Checked Ageing List

structure RollingHistogram (B S : Nat) where
  seg : List (List Nat)
  cur : Nat
  nInCur : Nat
  segCapacity : Nat
deriving DecidableEq, Repr

namespace RollingHistogram

variable {B S : Nat}

def new (B S window : Nat) : Except Panic (RollingHistogram B S) := do
  let sU32 := S % 2 ^ 32
  let share ← Checked.div window sU32
  .ok ⟨List.replicate S (List.replicate B 0), 0, 0, max share 1⟩

variable (h : RollingHistogram B S)

def advance : RollingHistogram B S :=
  let cur := (h.cur + 1) % S
  { h with cur, seg := h.seg.set cur (List.replicate B 0), nInCur := 0 }

def increment (valueNs : Nat) : Except Panic (RollingHistogram B S) := do
  let row ← Checked.index h.seg h.cur
  let count ← Checked.index row (bucketIndex valueNs)
  let count ← Checked.add 32 count 1
  let nInCur ← Checked.add 32 h.nInCur 1
  .ok { h with seg := h.seg.set h.cur (row.set (bucketIndex valueNs) count), nInCur }

def record (valueNs : Nat) : Except Panic (RollingHistogram B S) :=
  (if h.segCapacity ≤ h.nInCur then h.advance else h).increment valueNs

def column (b : Nat) : Nat := (h.seg.map (·.getD b 0)).sum

def count : Nat := (h.seg.map List.sum).sum

def percentileFrom (h : RollingHistogram B S) (target : Nat) : List Nat → Nat → Nat
  | [], _ => bucketMidpoint (B - 1)
  | b :: later, cum =>
    if target ≤ cum + h.column b then bucketMidpoint b else percentileFrom h target later (cum + h.column b)

def percentile (permille : Nat) : Nat :=
  if h.count = 0 then 0 else h.percentileFrom ((h.count * permille + 999) / 1000) (List.range B) 0

section Counts

def bucketCounts (B : Nat) (xs : List Nat) : List Nat := (List.range B).map fun b => xs.countP (bucketIndex · = b)

variable {xs : List Nat} {x b : Nat}

@[simp] theorem bucketCounts_length (B : Nat) (xs : List Nat) : (bucketCounts B xs).length = B := by
  rw [bucketCounts, length_map, length_range]

theorem bucketCounts_get (inside : b < B) : (bucketCounts B xs)[b]? = some (xs.countP (bucketIndex · = b)) := by
  rw [bucketCounts, getElem?_map, getElem?_range inside, Option.map_some]

theorem bucketCounts_nil (B : Nat) : bucketCounts B [] = List.replicate B 0 := by
  rw [bucketCounts]
  simp only [countP_nil, map_const', length_range]

theorem bucketCounts_append
    (inside : bucketIndex x < B) :
    bucketCounts B (xs ++ [x]) =
      (bucketCounts B xs).set (bucketIndex x) (xs.countP (bucketIndex · = bucketIndex x) + 1) := by
  apply ext_getElem?
  intro b
  rcases lt_or_ge b B with below | above
  · rw [bucketCounts_get below]
    by_cases same : bucketIndex x = b
    · subst same
      simp [inside]
    · simp [same, bucketCounts_get below]
  · rw [getElem?_eq_none (by simpa using above), getElem?_eq_none (by simpa using above)]

theorem countP_lt_succ (xs : List Nat) (b : Nat) :
    xs.countP (bucketIndex · < b + 1) = xs.countP (bucketIndex · < b) + xs.countP (bucketIndex · = b) := by
  induction xs with
  | nil => rfl
  | cons x xs ih =>
    simp only [countP_cons, ih, decide_eq_true_eq]
    split_ifs <;> omega

theorem bucketCounts_sum (B : Nat) (xs : List Nat) : (bucketCounts B xs).sum = xs.countP (bucketIndex · < B) := by
  induction B with
  | zero => simp [bucketCounts]
  | succ b ih =>
    rw [countP_lt_succ, ← ih, bucketCounts, range_succ, map_append, sum_append, map_singleton]
    rfl

end Counts

structure Refines (h : RollingHistogram B S) (w : Ageing Nat) : Prop where
  segments : w.parts.length = S
  seg : h.seg = w.parts.map (bucketCounts B)
  cur : h.cur = w.cursor
  nInCur : h.nInCur = w.current.length

section Refinement

variable {h h' : RollingHistogram B S} {w : Ageing Nat} {x : Nat} (refines : h.Refines w)
include refines

theorem Refines.advance : h.advance.Refines w.advance := by
  have cursor : (h.cur + 1) % S = w.advance.cursor := by
    rw [advance_cursor, refines.segments, refines.cur]
  refine ⟨w.advance_length.trans refines.segments, ?_, cursor, ?_⟩
  · rw [advance_parts, map_set, bucketCounts_nil, ← refines.seg, ← cursor]
    rfl
  · rw [advance_current]
    rfl

theorem Refines.increment
    (inside : bucketIndex x < B)
    (room : w.current.length + 1 < 2 ^ 32) :
    ∃ h', h.increment x = .ok h' ∧ h'.Refines (w.append x) ∧ h'.segCapacity = h.segCapacity := by
  have row : index h.seg h.cur = .ok (bucketCounts B w.current) := by
    rw [index, refines.seg, refines.cur, getElem?_map, parts_cursor]
    rfl
  have count : index (bucketCounts B w.current) (bucketIndex x) =
      .ok (w.current.countP (bucketIndex · = bucketIndex x)) := by
    rw [index, bucketCounts_get inside]
  have few : w.current.countP (bucketIndex · = bucketIndex x) ≤ w.current.length := countP_le_length
  unfold RollingHistogram.increment
  rw [row, ok_bind, count, ok_bind, add_ok (by omega), refines.nInCur, add_ok room]
  refine ⟨_, rfl, ⟨?_, ?_, refines.cur, ?_⟩, rfl⟩
  · rw [append_parts, length_set, refines.segments]
  · rw [append_parts, map_set, bucketCounts_append inside, ← refines.seg, refines.cur]
  · rw [append, length_append]
    rfl

theorem Refines.record
    (positive : 1 ≤ h.segCapacity)
    (small : h.segCapacity < 2 ^ 32)
    (inside : bucketIndex x < B) :
    ∃ h', h.record x = .ok h' ∧ h'.Refines (w.push h.segCapacity x) ∧ h'.segCapacity = h.segCapacity := by
  unfold RollingHistogram.record push
  rw [refines.nInCur]
  split
  · apply refines.advance.increment inside
    rw [advance_current, length_nil]
    omega
  · exact refines.increment inside (by omega)

theorem Refines.record_all {capacity : Nat}
    (capacityIs : h.segCapacity = capacity)
    (positive : 1 ≤ capacity)
    (small : capacity < 2 ^ 32)
    {xs : List Nat}
    (inside : ∀ x ∈ xs, bucketIndex x < B) :
    ∃ h', xs.foldlM RollingHistogram.record h = .ok h' ∧ h'.Refines (xs.foldl (push capacity) w) := by
  induction xs generalizing h w with
  | nil => exact ⟨h, rfl, refines⟩
  | cons x xs ih =>
    obtain ⟨first, later⟩ := forall_mem_cons.mp inside
    subst capacityIs
    obtain ⟨_, recorded, refines, same⟩ := refines.record positive small first
    obtain ⟨h', done, refines⟩ := ih refines same later
    refine ⟨h', ?_, refines⟩
    rw [foldlM_cons, recorded]
    exact done

theorem Refines.column {b : Nat} (inside : b < B) : h.column b = w.contents.countP (bucketIndex · = b) := by
  have row : ∀ part ∈ w.parts, (bucketCounts B part).getD b 0 = part.countP (bucketIndex · = b) := by
    intro part _
    rw [getD_eq_getElem?_getD, bucketCounts_get inside, Option.getD_some]
  rw [RollingHistogram.column, refines.seg, map_map, ← w.parts_perm.countP_eq, countP_flatten]
  exact congrArg sum (map_congr_left row)

theorem Refines.count (inside : ∀ x ∈ w.contents, bucketIndex x < B) : h.count = w.contents.length := by
  have all : w.contents.countP (bucketIndex · < B) = w.contents.length :=
    countP_eq_length.mpr fun x member => decide_eq_true (inside x member)
  rw [RollingHistogram.count, refines.seg, map_map, ← all, ← w.parts_perm.countP_eq, countP_flatten]
  exact congrArg sum (map_congr_left fun part _ => bucketCounts_sum B part)

theorem Refines.percentileFrom {rank : Nat}
    (positive : 1 ≤ rank)
    (found : Rank.orderStatistic w.contents rank = some x)
    {start steps : Nat}
    (whole : start + steps = B)
    (ahead : start ≤ bucketIndex x)
    (inside : bucketIndex x < B) :
    h.percentileFrom rank (List.range' start steps) (w.contents.countP (bucketIndex · < start)) =
      bucketMidpoint (bucketIndex x) := by
  induction steps generalizing start with
  | zero => omega
  | succ steps ih =>
    have reached := Rank.le_countP_iff bucketIndex_monotone positive found start
    rw [range'_succ, RollingHistogram.percentileFrom, refines.column (by omega), ← countP_lt_succ]
    simp only [Nat.lt_succ_iff]
    split
    · rename_i enough
      rw [le_antisymm (reached.mp enough) ahead]
    · rename_i short
      have later := @ih (start + 1) (by omega) (by omega)
      simpa only [Nat.lt_succ_iff] using later

end Refinement

section Percentiles

variable {h : RollingHistogram buckets S} {w : Ageing Nat}

theorem Refines.percentile
    (refines : h.Refines w)
    (nonempty : w.contents ≠ [])
    (range : ∀ x ∈ w.contents, 100 ≤ x ∧ x ≤ 10 ^ 10)
    {permille : Nat}
    (positive : 1 ≤ permille)
    (most : permille ≤ 1000) :
    ∃ x, Rank.orderStatistic w.contents ((w.contents.length * permille + 999) / 1000) = some x ∧
      100 * |(h.percentile permille : Int) - x| ≤ x := by
  have some_ := length_pos_of_ne_nil nonempty
  have count := refines.count fun x _ => bucketIndex_lt x
  have least : w.contents.length * 1 ≤ w.contents.length * permille := Nat.mul_le_mul_left _ positive
  have bound : w.contents.length * permille ≤ w.contents.length * 1000 := Nat.mul_le_mul_left _ most
  have first : 1 ≤ (w.contents.length * permille + 999) / 1000 := by omega
  have last : (w.contents.length * permille + 999) / 1000 ≤ w.contents.length := by omega
  obtain ⟨x, found⟩ := Rank.exists_orderStatistic first last
  refine ⟨x, found, ?_⟩
  have walk := refines.percentileFrom first found (zero_add _) (Nat.zero_le _) (bucketIndex_lt x)
  have none : w.contents.countP (bucketIndex · < 0) = 0 := by
    simp
  rw [none, ← range_eq_range'] at walk
  have same : h.percentile permille = bucketMidpoint (bucketIndex x) := by
    rw [RollingHistogram.percentile, if_neg (by omega), count, walk]
  obtain ⟨_, high⟩ := range x (Rank.mem_of_orderStatistic found)
  rw [same]
  exact bucketMidpoint_near (by omega) (lt_of_le_of_lt high (by decide))

theorem new_refines (window : Nat)
    (positive : 1 ≤ S)
    (fits : S < 2 ^ 32) :
    ∃ h : RollingHistogram buckets S, new buckets S window = .ok h ∧ h.Refines (.empty S) ∧
      h.segCapacity = max (window / S) 1 := by
  unfold new
  dsimp only
  rw [Nat.mod_eq_of_lt fits, div_ok (ne_of_gt positive)]
  refine ⟨_, rfl, ⟨?_, ?_, rfl, rfl⟩, rfl⟩
  · simp only [empty, parts, nil_append, length_cons, length_replicate]
    omega
  · obtain ⟨n, rfl⟩ := Nat.exists_eq_add_of_le' positive
    simp [empty, parts, replicate_succ, bucketCounts_nil]

/-- The histogram counts about the last samples of the window, with percentiles within one percent. -/
theorem percentiles_within_one_percent {S window : Nat} {samples : List Nat}
    (positive : 1 ≤ S)
    (fits : S < 2 ^ 32)
    (bounded : window < 2 ^ 32)
    (range : ∀ x ∈ samples, 100 ≤ x ∧ x ≤ 10 ^ 10) :
    ∃ (empty h : RollingHistogram buckets S) (k : Nat), new buckets S window = .ok empty ∧
      samples.foldlM record empty = .ok h ∧ k ≤ samples.length ∧
      (samples.length ≤ S * max (window / S) 1 → k = samples.length) ∧
      (S * max (window / S) 1 < samples.length → (S - 1) * max (window / S) 1 < k ∧ k ≤ S * max (window / S) 1) ∧
      (∀ b < buckets, h.column b = (samples.drop (samples.length - k)).countP (bucketIndex · = b)) ∧
      (samples ≠ [] → ∀ permille, 1 ≤ permille → permille ≤ 1000 →
      ∃ x, Rank.orderStatistic (samples.drop (samples.length - k)) ((k * permille + 999) / 1000) = some x ∧
      100 * |(h.percentile permille : Int) - x| ≤ x) := by
  obtain ⟨empty, created, refines, capacity⟩ := new_refines window positive fits
  have small : max (window / S) 1 < 2 ^ 32 := max_lt (lt_of_le_of_lt (Nat.div_le_self _ _) bounded) (by decide)
  have room : 1 ≤ max (window / S) 1 := le_max_right _ _
  generalize max (window / S) 1 = cap at *
  obtain ⟨h, recorded, refines⟩ := refines.record_all capacity room small fun x _ => bucketIndex_lt x
  have holds := Holds.fill positive room samples
  generalize samples.foldl (push cap) (.empty S) = w at *
  have last := suffix_iff_eq_drop.mp holds.kept
  refine ⟨empty, h, w.contents.length, created, recorded, holds.kept.length_le, ?_, holds.contents_of_long, ?_, ?_⟩
  · intro short
    rw [holds.contents_of_short short]
  · intro b inside
    rw [← last]
    exact refines.column inside
  · intro nonempty permille least most
    rw [← last]
    refine refines.percentile ?_ (fun x member => range x (holds.kept.subset member)) least most
    intro nothing
    rcases lt_or_ge (S * cap) samples.length with long | short
    · have positive := (holds.contents_of_long long).1
      rw [nothing] at positive
      exact absurd positive (Nat.not_lt_zero _)
    · exact nonempty ((holds.contents_of_short short).symm.trans nothing)

theorem three_segments_keep_three : ∃ empty h : RollingHistogram buckets 3, new buckets 3 4 = .ok empty ∧
      [100, 200, 400, 1600, 800].foldlM record empty = .ok h ∧ 100 * |(h.percentile 500 : Int) - 800| ≤ 800 := by
  have range : ∀ x ∈ [100, 200, 400, 1600, 800], 100 ≤ x ∧ x ≤ 10 ^ 10 := by decide
  have three : 1 ≤ 3 := by decide
  have four : 4 < 2 ^ 32 := by decide
  obtain ⟨empty, h, k, created, recorded, _, _, long, _, near⟩ :=
    percentiles_within_one_percent three (by decide) four range
  obtain ⟨more, most⟩ := long (by decide)
  have kept : k = 3 := Nat.le_antisymm most more
  subst kept
  obtain ⟨x, found, close⟩ := near (cons_ne_nil _ _) 500 (by decide) (by decide)
  have median : some 800 = some x := found
  cases median
  exact ⟨empty, h, created, recorded, close⟩

theorem truncated_segments_panic : new buckets (2 ^ 32) 1000 = .error .divideByZero := rfl

end Percentiles

end RollingHistogram

end Taktora.Stats
