import Mathlib.Data.List.AList
import Mathlib.Data.List.Induction
import Taktora.Lib.Checked

universe u

/-- A hash map. The order of its entries is the order in which it is iterated. -/
abbrev Table (κ ν : Type u) := AList (fun _ : κ => ν)

namespace Table

open List

variable {κ ν : Type u} (m : Table κ ν)

def size : Nat := m.entries.length

def firstKey (p : κ → Bool) : Option κ := m.keys.find? p

variable (p : ν → Bool)

def matching : List ν := (m.entries.filter fun x => p x.2).map Sigma.snd

def matchingKeys : List κ := (m.entries.filter fun x => p x.2).map Sigma.fst

def retain : Table κ ν :=
  ⟨m.entries.filter fun x => p x.2, m.nodupKeys.sublist filter_sublist⟩

def reverse (m : Table κ ν) : Table κ ν :=
  ⟨m.entries.reverse, (perm_nodupKeys m.entries.reverse_perm).mpr m.nodupKeys⟩

variable [DecidableEq κ]

def removeAll (m : Table κ ν) : List κ → Except Checked.Panic (List ν × Table κ ν)
  | [] => .ok ([], m)
  | key :: keys => do
    let value ← Checked.expect (m.lookup key)
    let (values, rest) ← removeAll (m.erase key) keys
    .ok (value :: values, rest)

theorem lookup_insert_ite (key other : κ) (value : ν) :
    (m.insert key value).lookup other = if other = key then some value else m.lookup other := by
  split
  · rename_i same
    subst same
    exact AList.lookup_insert m
  · rename_i different
    exact AList.lookup_insert_ne different

theorem lookup_erase_ite (key other : κ) :
    (m.erase key).lookup other = if other = key then none else m.lookup other := by
  split
  · rename_i same
    subst same
    exact AList.lookup_erase _ m
  · rename_i different
    exact AList.lookup_erase_ne different

variable {key : κ} {m m' : Table κ ν} {p : κ → Bool} {before : List (Sigma fun _ : κ => ν)}
  {value : ν} {after : List (Sigma fun _ : κ => ν)}

theorem mem_of_lookup (h : m.lookup key = some value) : key ∈ m := AList.lookup_isSome.mp (by rw [h]; rfl)

theorem lookup_of_mem (h : key ∈ m) : ∃ value, m.lookup key = some value :=
  Option.isSome_iff_exists.mp (AList.lookup_isSome.mpr h)

theorem lookup_eq_some_iff : m.lookup key = some value ↔ (⟨key, value⟩ : Sigma fun _ : κ => ν) ∈ m.entries :=
  mem_dlookup_iff m.nodupKeys

theorem lookup_retain (m : Table κ ν) (p : ν → Bool) (key : κ) : (m.retain p).lookup key = (m.lookup key).filter p := by
  apply Option.ext
  intro value
  rw [lookup_eq_some_iff, Option.filter_eq_some_iff, lookup_eq_some_iff]
  exact mem_filter

theorem mem_matching {p : ν → Bool}
    (found : m.lookup key = some value)
    (matched : p value = true) : value ∈ m.matching p :=
  mem_map.mpr ⟨⟨key, value⟩, mem_filter.mpr ⟨lookup_eq_some_iff.mp found, matched⟩, rfl⟩

theorem size_erase (m : Table κ ν) (key : κ) (present : key ∈ m) : size (m.erase key) + 1 = size m := by
  have keys : (m.erase key).keys.length + 1 = m.keys.length := by
    rw [AList.keys_erase, length_erase_of_mem (AList.mem_keys.mp present)]
    have positive := length_pos_of_mem (AList.mem_keys.mp present)
    omega
  simpa [AList.keys, List.keys, size] using keys

theorem erase_absent (absent : key ∉ m) : m.erase key = m := AList.ext (kerase_of_notMem_keys absent)

variable (m)

theorem size_insert_present (key : κ) (value : ν) (present : key ∈ m) : size (m.insert key value) = size m := by
  rw [← size_erase m key present]
  rfl

theorem size_insert_absent (key : κ) (value : ν) (absent : key ∉ m) :
    size (m.insert key value) = size m + 1 := by
  simp only [size, AList.entries_insert_of_notMem absent, length_cons]

theorem size_insert_le (key : κ) (value : ν) : size (m.insert key value) ≤ size m + 1 := by
  by_cases present : key ∈ m
  · rw [size_insert_present _ _ _ present]
    exact Nat.le_succ _
  · rw [size_insert_absent _ _ _ present]

theorem size_erase_le (key : κ) : size (m.erase key) ≤ size m :=
  Sublist.length_le (kerase_sublist key m.entries)

variable {m}

omit [DecidableEq κ] in
theorem size_retain_le (m : Table κ ν) (p : ν → Bool) : size (m.retain p) ≤ size m := length_filter_le _ _

omit [DecidableEq κ] in
theorem size_of_perm (h : m.entries.Perm m'.entries) : size m = size m' := h.length_eq

omit [DecidableEq κ] in
theorem firstKey_some (h : m.firstKey p = some key) : key ∈ m ∧ p key = true :=
  ⟨AList.mem_keys.mpr (mem_of_find?_eq_some h), List.find?_some h⟩

omit [DecidableEq κ] in
theorem firstKey_none (h : m.firstKey p = none) (present : key ∈ m) : p key = false := by
  simpa using List.find?_eq_none.mp h key (AList.mem_keys.mp present)

omit [DecidableEq κ] in
theorem firstKey_unique
    (present : key ∈ m)
    (matched : p key = true)
    (unique : ∀ other ∈ m, p other = true → other = key) : m.firstKey p = some key := by
  cases found : m.firstKey p with
  | none => rw [firstKey_none found present] at matched; cases matched
  | some other =>
    obtain ⟨member, matches'⟩ := firstKey_some found
    rw [unique other member matches']

omit [DecidableEq κ] in
theorem firstKey_of_perm
    (perm : m.entries.Perm m'.entries)
    (unique : ∀ key key', key ∈ m → key' ∈ m → p key = true → p key' = true → key = key') :
    m'.firstKey p = m.firstKey p := by
  have member (key : κ) : key ∈ m' ↔ key ∈ m := AList.mem_of_perm perm.symm
  cases found : m.firstKey p with
  | none =>
    cases found' : m'.firstKey p with
    | none => rfl
    | some key =>
      obtain ⟨present, matched⟩ := firstKey_some found'
      rw [firstKey_none found ((member key).mp present)] at matched
      cases matched
  | some key =>
    obtain ⟨present, matched⟩ := firstKey_some found
    exact firstKey_unique ((member key).mpr present) matched
      fun other present' matched' => unique other key ((member other).mp present') present matched' matched

def Forall (m : Table κ ν) (P : κ → ν → Prop) : Prop := ∀ key value, m.lookup key = some value → P key value

theorem forall_empty (P : κ → ν → Prop) : Forall (∅ : Table κ ν) P := by
  intro key value found
  cases found

section

variable {m : Table κ ν} {P : κ → ν → Prop} (h : m.Forall P)
include h

theorem Forall.insert {value : ν} (holds : P key value) : Forall (AList.insert key value m) P := by
  intro other found present
  rw [lookup_insert_ite] at present
  split at present
  · rename_i same
    cases present
    rwa [same]
  · exact h _ _ present

theorem Forall.erase (key : κ) : Forall (AList.erase key m) P := by
  intro other found present
  rw [lookup_erase_ite] at present
  split at present
  · cases present
  · exact h _ _ present

theorem Forall.retain (p : ν → Bool) : (m.retain p).Forall P := by
  intro key value present
  rw [lookup_retain, Option.filter_eq_some_iff] at present
  exact h _ _ present.1

end

theorem Forall.matching {P : ν → Prop} (h : m.Forall fun _ value => P value) {p : ν → Bool}
    (member : value ∈ m.matching p) : P value := by
  obtain ⟨entry, kept, rfl⟩ := mem_map.mp member
  exact h entry.1 entry.2 (lookup_eq_some_iff.mpr (mem_filter.mp kept).1)

theorem Forall.perm {P : κ → ν → Prop} (h : m.Forall P) (perm : m.entries.Perm m'.entries) : m'.Forall P :=
  fun key value found => h key value (by rwa [AList.perm_lookup perm])

/-- 1 if `key` leaves on the way from `m` to `m'`, 0 otherwise. -/
def left (m m' : Table κ ν) (key : κ) : Nat := if key ∈ m ∧ key ∉ m' then 1 else 0

variable (m)

@[simp] theorem left_self (key : κ) : left m m key = 0 := if_neg fun gone => gone.2 gone.1

@[simp] theorem left_insert (changed : κ) (value : ν) (key : κ) : left m (m.insert changed value) key = 0 :=
  if_neg fun gone => gone.2 ((AList.mem_insert m).mpr (.inr gone.1))

theorem left_erase (changed key : κ) :
    left m (m.erase changed) key = if key = changed ∧ changed ∈ m then 1 else 0 := by
  refine if_congr ?_ rfl rfl
  rw [AList.mem_erase]
  constructor
  · rintro ⟨present, gone⟩
    obtain rfl := by_contra fun other => gone ⟨other, present⟩
    exact ⟨rfl, present⟩
  · rintro ⟨rfl, present⟩
    exact ⟨present, fun stays => stays.1 rfl⟩

variable {m}

theorem left_of_perm {m₀ : Table κ ν} (perm : m.entries.Perm m₀.entries) (key : κ) :
    left m₀ m' key = left m m' key := by
  simp only [left, AList.mem_of_perm perm]

theorem countP_matching (m : Table κ ν) (late q : ν → Bool) (key : κ)
    (named : ∀ other value, m.lookup other = some value → (q value = true ↔ other = key)) :
    (m.matching late).countP q = left m (m.retain fun v => !late v) key := by
  have counted : (m.matching late).countP q = (m.retain late).keys.count key := by
    rw [matching, countP_map, AList.keys, keys, count, countP_map]
    refine countP_congr fun entry member => ?_
    have found := lookup_eq_some_iff.mpr (mem_filter.mp member).1
    simpa using named _ _ found
  have leaves : key ∈ (m.retain late).keys ↔ key ∈ m ∧ key ∉ m.retain fun v => !late v := by
    rw [← AList.mem_keys, ← AList.lookup_isSome, ← AList.lookup_isSome, ← AList.lookup_isSome, lookup_retain,
      lookup_retain]
    cases m.lookup key with
    | none => simp
    | some value => cases expired : late value <;> simp [expired]
  rw [counted, (m.retain late).keys_nodup.count]
  exact if_congr leaves rfl rfl

theorem lookup_middle {nodup : (before ++ ⟨key, value⟩ :: after).NodupKeys} :
    AList.lookup key (⟨before ++ ⟨key, value⟩ :: after, nodup⟩ : Table κ ν) = some value :=
  lookup_eq_some_iff.mpr (by simp)

theorem erase_middle (nodup : (before ++ ⟨key, value⟩ :: after).NodupKeys)
    : (AList.erase key (⟨before ++ ⟨key, value⟩ :: after, nodup⟩ : Table κ ν)).entries = before ++ after := by
  have absent : key ∉ keys before := by
    intro member
    have distinct := nodup
    rw [NodupKeys, keys_append, nodup_append] at distinct
    exact distinct.2.2 key member key mem_cons_self rfl
  change kerase key (before ++ ⟨key, value⟩ :: after) = before ++ after
  rw [kerase_append_right absent]
  exact congrArg (before ++ ·) (kerase_cons_eq rfl)

theorem removeAll_from (p : ν → Bool) (after : List (Sigma fun _ : κ => ν)) :
    ∀ (before : List (Sigma fun _ : κ => ν)) (nodup : (before ++ after).NodupKeys),
      ∃ nodup', removeAll (⟨before ++ after, nodup⟩ : Table κ ν) ((after.filter fun x => p x.2).map Sigma.fst) =
        .ok ((after.filter fun x => p x.2).map Sigma.snd,
          ⟨before ++ after.filter fun x => !p x.2, nodup'⟩) := by
  induction after with
  | nil => exact fun before nodup => ⟨nodup, rfl⟩
  | cons entry after ih =>
    intro before nodup
    obtain ⟨key, value⟩ := entry
    cases late : p value with
    | true =>
      have erased := erase_middle nodup
      have nodup' : (before ++ after).NodupKeys := erased ▸ (AList.erase key _).nodupKeys
      obtain ⟨rest, removed⟩ := ih before nodup'
      refine ⟨by simpa [late] using rest, ?_⟩
      have same : AList.erase key ⟨before ++ ⟨key, value⟩ :: after, nodup⟩ = ⟨before ++ after, nodup'⟩ :=
        AList.ext erased
      simp only [filter_cons, late, map_cons, removeAll, lookup_middle, same, removed,
        Checked.expect, Checked.ok_bind, ite_true, Bool.not_true, Bool.false_eq_true, ite_false]
    | false =>
      have shifted : before ++ ⟨key, value⟩ :: after = (before ++ [⟨key, value⟩]) ++ after := by simp
      obtain ⟨rest, removed⟩ := ih (before ++ [⟨key, value⟩]) (shifted ▸ nodup)
      refine ⟨by simpa [late] using rest, ?_⟩
      simpa [late] using removed

theorem removeAll_matching (m : Table κ ν) (p : ν → Bool) :
    m.removeAll (m.matchingKeys p) = .ok (m.matching p, m.retain fun v => !p v) := by
  obtain ⟨_, removed⟩ := removeAll_from p m.entries [] m.nodupKeys
  exact removed

theorem matching_eq_nil {p : ν → Bool} (none : m.Forall fun _ value => p value = false) : m.matching p = [] := by
  rw [matching, map_eq_nil_iff, filter_eq_nil_iff]
  intro entry member
  rw [none entry.1 entry.2 (lookup_eq_some_iff.mpr member)]
  exact Bool.false_ne_true

theorem retain_eq_self {p : ν → Bool} (all : m.Forall fun _ value => p value = true) : m.retain p = m := by
  apply AList.ext
  apply filter_eq_self.mpr
  intro entry member
  exact all entry.1 entry.2 (lookup_eq_some_iff.mpr member)

omit [DecidableEq κ] in
theorem eq_of_perm (perm : m.entries.Perm m'.entries) (small : size m ≤ 1) : m' = m := by
  apply AList.ext
  rw [size] at small
  cases entries : m.entries with
  | nil =>
    rw [entries] at perm
    exact nil_perm.mp perm
  | cons entry rest =>
    rw [entries, length_cons] at small
    obtain rfl : rest = [] := length_eq_zero_iff.mp (by omega)
    rw [entries] at perm
    exact (singleton_perm.mp perm).symm

@[simp] theorem insert_empty (key : κ) (value : ν) :
    AList.insert key value (∅ : Table κ ν) = AList.singleton key value :=
  rfl

@[simp] theorem lookup_singleton (key : κ) (value : ν) :
    AList.lookup key (AList.singleton key value : Table κ ν) = some value := by
  rw [← insert_empty, AList.lookup_insert]

@[simp] theorem erase_singleton (key : κ) (value : ν) :
    AList.erase key (AList.singleton key value : Table κ ν) = ∅ := by
  apply AList.ext
  exact kerase_cons_eq rfl

omit [DecidableEq κ] in
theorem firstKey_singleton (matched : p key = true) (value : ν) :
    firstKey (AList.singleton key value : Table κ ν) p = some key :=
  List.find?_cons_of_pos matched

end Table
