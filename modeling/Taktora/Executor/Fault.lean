import Taktora.Lib.Saturating

namespace Taktora.Exec

open Saturating

inductive FaultReason where
  | budgetExceeded (tookMs budgetMs : Nat)
  | executorFaulted
deriving DecidableEq

inductive FaultState where
  | running
  | faulted (reason : FaultReason) (sinceMs : Nat)
deriving DecidableEq

inductive ExecutorFaultReason where
  | iterationBudgetExceeded (taskIdx tookMs budgetMs : Nat)
deriving DecidableEq

inductive ExecutorFaultState where
  | running
  | faulted (reason : ExecutorFaultReason) (sinceMs : Nat)
deriving DecidableEq

def FaultState.isFaulted : FaultState → Bool
  | .running => false
  | .faulted _ _ => true

def FaultState.isCascaded : FaultState → Bool
  | .faulted .executorFaulted _ => true
  | _ => false

def ExecutorFaultState.isFaulted : ExecutorFaultState → Bool
  | .running => false
  | .faulted _ _ => true

/-- The word of both fault states: two bits for the state, thirty for a duration, and the time of the fault. -/
def packFault (disc tookMs sinceMs : Nat) : Nat := disc <<< 62 ||| (tookMs &&& 0x3FFFFFFF) <<< 32 ||| sinceMs

def faultDisc (packed : Nat) : Nat := packed >>> 62 &&& 0x3

def faultTookMs (packed : Nat) : Nat := packed >>> 32 &&& 0x3FFFFFFF

def faultSinceMs (packed : Nat) : Nat := packed &&& 0xFFFFFFFF

structure FaultAtomic where
  packed : Nat
deriving DecidableEq

namespace FaultAtomic

def new : FaultAtomic := ⟨0⟩

def pack : FaultState → Nat
  | .running => 0
  | .faulted (.budgetExceeded tookMs _) sinceMs => packFault 1 tookMs sinceMs
  | .faulted .executorFaulted sinceMs => packFault 2 0 sinceMs

def unpack (packed budgetMs : Nat) : FaultState :=
  match faultDisc packed with
  | 1 => .faulted (.budgetExceeded (faultTookMs packed) budgetMs) (faultSinceMs packed)
  | 2 => .faulted .executorFaulted (faultSinceMs packed)
  | _ => .running

def load (a : FaultAtomic) (budgetMs : Nat) : FaultState := unpack a.packed budgetMs

def swap (a : FaultAtomic) (state : FaultState) (budgetMs : Nat) : FaultState × FaultAtomic :=
  (unpack a.packed budgetMs, ⟨pack state⟩)

end FaultAtomic

structure ExecutorFaultAtomic where
  packed : Nat
deriving DecidableEq

namespace ExecutorFaultAtomic

def new : ExecutorFaultAtomic := ⟨0⟩

def pack : ExecutorFaultState → Nat
  | .running => 0
  | .faulted (.iterationBudgetExceeded _ tookMs _) sinceMs => packFault 1 tookMs sinceMs

def unpack (packed taskIdx budgetMs : Nat) : ExecutorFaultState :=
  match faultDisc packed with
  | 1 => .faulted (.iterationBudgetExceeded taskIdx (faultTookMs packed) budgetMs) (faultSinceMs packed)
  | _ => .running

def load (a : ExecutorFaultAtomic) (taskIdx budgetMs : Nat) : ExecutorFaultState := unpack a.packed taskIdx budgetMs

def swap (a : ExecutorFaultAtomic) (state : ExecutorFaultState) (taskIdx budgetMs : Nat) :
    ExecutorFaultState × ExecutorFaultAtomic :=
  (unpack a.packed taskIdx budgetMs, ⟨pack state⟩)

end ExecutorFaultAtomic

open ExecutorFaultAtomic

def durationToMsSat (duration : Nat) : Nat := saturate 32 (duration / 1000000)

def instantToSinceMs (at_ start : Nat) : Nat := durationToMsSat (at_ - start)

def FaultState.tookMs : FaultState → Nat
  | .faulted (.budgetExceeded tookMs _) _ => tookMs
  | _ => 0

def FaultState.sinceMs : FaultState → Nat
  | .running => 0
  | .faulted _ sinceMs => sinceMs

def ExecutorFaultState.tookMs : ExecutorFaultState → Nat
  | .running => 0
  | .faulted (.iterationBudgetExceeded _ tookMs _) _ => tookMs

def ExecutorFaultState.sinceMs : ExecutorFaultState → Nat
  | .running => 0
  | .faulted _ sinceMs => sinceMs

def FaultState.saturated (budgetMs : Nat) : FaultState → FaultState
  | .faulted (.budgetExceeded tookMs _) sinceMs => .faulted (.budgetExceeded (saturate 30 tookMs) budgetMs) sinceMs
  | state => state

def ExecutorFaultState.saturated (taskIdx budgetMs : Nat) : ExecutorFaultState → ExecutorFaultState
  | .faulted (.iterationBudgetExceeded _ tookMs _) sinceMs =>
    .faulted (.iterationBudgetExceeded taskIdx (saturate 30 tookMs) budgetMs) sinceMs
  | .running => .running

/-- The low thirty bits of the duration are the duration, or are all set. -/
def Storable (tookMs : Nat) : Prop := tookMs < 2 ^ 30 ∨ tookMs % 2 ^ 30 = 2 ^ 30 - 1

section Packing

variable {disc tookMs sinceMs budgetMs taskIdx : Nat}

theorem packFault_eq (since : sinceMs < 2 ^ 32) :
    packFault disc tookMs sinceMs = disc * 2 ^ 62 + tookMs % 2 ^ 30 * 2 ^ 32 + sinceMs := by
  have took : tookMs &&& 0x3FFFFFFF = tookMs % 2 ^ 30 := Nat.and_two_pow_sub_one_eq_mod tookMs 30
  have low : (tookMs % 2 ^ 30) <<< 32 ||| sinceMs = tookMs % 2 ^ 30 * 2 ^ 32 + sinceMs := by
    rw [← Nat.shiftLeft_add_eq_or_of_lt since, Nat.shiftLeft_eq]
  have bound : tookMs % 2 ^ 30 * 2 ^ 32 + sinceMs < 2 ^ 62 := by omega
  rw [packFault, took, Nat.or_assoc, low, ← Nat.shiftLeft_add_eq_or_of_lt bound, Nat.shiftLeft_eq, add_assoc]

theorem faultDisc_packFault
    (fits : disc < 4)
    (since : sinceMs < 2 ^ 32) :
    faultDisc (packFault disc tookMs sinceMs) = disc := by
  have two : ∀ n : Nat, n &&& 0x3 = n % 2 ^ 2 := fun n => Nat.and_two_pow_sub_one_eq_mod n 2
  rw [faultDisc, packFault_eq since, two]
  omega

theorem faultSinceMs_packFault (since : sinceMs < 2 ^ 32) : faultSinceMs (packFault disc tookMs sinceMs) = sinceMs := by
  have low : ∀ n : Nat, n &&& 0xFFFFFFFF = n % 2 ^ 32 := fun n => Nat.and_two_pow_sub_one_eq_mod n 32
  rw [faultSinceMs, packFault_eq since, low]
  omega

theorem instantToSinceMs_lt (at_ start : Nat) : instantToSinceMs at_ start < 2 ^ 32 := by
  rw [instantToSinceMs, durationToMsSat, saturate]
  omega

theorem load_running : FaultAtomic.load ⟨FaultAtomic.pack .running⟩ budgetMs = .running := rfl

theorem faultTookMs_packFault
    (since : sinceMs < 2 ^ 32) :
    faultTookMs (packFault disc tookMs sinceMs) = tookMs % 2 ^ 30 := by
  have thirty : ∀ n : Nat, n &&& 0x3FFFFFFF = n % 2 ^ 30 := fun n => Nat.and_two_pow_sub_one_eq_mod n 30
  rw [faultTookMs, packFault_eq since, thirty]
  omega

theorem mod_eq_saturate_iff : tookMs % 2 ^ 30 = saturate 30 tookMs ↔ Storable tookMs := by
  simp only [saturate, Storable]
  omega

theorem unpack_pack_iff {state : FaultState} (since : state.sinceMs < 2 ^ 32) :
    FaultAtomic.unpack (FaultAtomic.pack state) budgetMs = state.saturated budgetMs ↔ Storable state.tookMs := by
  rw [← mod_eq_saturate_iff]
  rcases state with _ | ⟨⟨tookMs, _⟩ | _, sinceMs⟩
  · simp [FaultAtomic.unpack, FaultAtomic.pack, faultDisc, FaultState.saturated, FaultState.tookMs, saturate]
  all_goals
    have word : sinceMs < 2 ^ 32 := since
    rw [FaultAtomic.unpack, FaultAtomic.pack, faultDisc_packFault (by decide) word, faultSinceMs_packFault word]
    simp [faultTookMs_packFault word, FaultState.saturated, FaultState.tookMs, saturate]

theorem executor_unpack_pack_iff {state : ExecutorFaultState} (since : state.sinceMs < 2 ^ 32) :
    unpack (pack state) taskIdx budgetMs = state.saturated taskIdx budgetMs ↔
      Storable state.tookMs := by
  rw [← mod_eq_saturate_iff]
  rcases state with _ | ⟨⟨_, tookMs, _⟩, sinceMs⟩
  · simp [unpack, pack, faultDisc, ExecutorFaultState.saturated,
      ExecutorFaultState.tookMs, saturate]
  · have word : sinceMs < 2 ^ 32 := since
    rw [unpack, pack, faultDisc_packFault (by decide) word]
    simp [faultTookMs_packFault word, faultSinceMs_packFault word, ExecutorFaultState.saturated,
      ExecutorFaultState.tookMs]

end Packing

/-- What the storage of a fault state promises, with the durations that it keeps. -/
structure Saturates {S : Type} (pack : S → Nat) (unpack : Nat → S) (saturated : S → S) (tookMs sinceMs : S → Nat) :
    Prop where
  exact_iff : ∀ s, sinceMs s < 2 ^ 32 → (unpack (pack s) = saturated s ↔ Storable (tookMs s))
  apart : ∀ s s', sinceMs s < 2 ^ 32 → sinceMs s' < 2 ^ 32 → Storable (tookMs s) → Storable (tookMs s') →
    pack s = pack s' → saturated s = saturated s'
  monotone : ∀ s s' duration duration', sinceMs s < 2 ^ 32 → sinceMs s' < 2 ^ 32 →
    tookMs s = durationToMsSat duration → tookMs s' = durationToMsSat duration' → duration ≤ duration' →
    Storable (tookMs s) → Storable (tookMs s') → tookMs (unpack (pack s)) ≤ tookMs (unpack (pack s'))

theorem Saturates.of_exact {S : Type} {pack : S → Nat} {unpack : Nat → S} {saturated : S → S} {tookMs sinceMs : S → Nat}
    (exact_iff : ∀ s, sinceMs s < 2 ^ 32 → (unpack (pack s) = saturated s ↔ Storable (tookMs s)))
    (took : ∀ s, tookMs (saturated s) = saturate 30 (tookMs s)) : Saturates pack unpack saturated tookMs sinceMs where
  exact_iff := exact_iff
  apart s s' word word' kept kept' same := by
    rw [← (exact_iff s word).mpr kept, same, (exact_iff s' word').mpr kept']
  monotone s s' duration duration' word word' lasted lasted' shorter kept kept' := by
    have ordered : duration / 1000000 ≤ duration' / 1000000 := Nat.div_le_div_right shorter
    rw [(exact_iff s word).mpr kept, (exact_iff s' word').mpr kept', took, took, lasted, lasted']
    simp only [durationToMsSat, saturate]
    omega

theorem fault_words_saturate (budgetMs taskIdx : Nat) :
    Saturates FaultAtomic.pack (FaultAtomic.unpack · budgetMs) (·.saturated budgetMs) FaultState.tookMs
      FaultState.sinceMs ∧
    Saturates ExecutorFaultAtomic.pack (ExecutorFaultAtomic.unpack · taskIdx budgetMs) (·.saturated taskIdx budgetMs)
      ExecutorFaultState.tookMs ExecutorFaultState.sinceMs := by
  constructor
  · refine .of_exact (fun _ since => unpack_pack_iff since) ?_
    rintro (_ | ⟨_ | _, _⟩) <;> simp [FaultState.tookMs, FaultState.saturated, saturate]
  · refine .of_exact (fun _ since => executor_unpack_pack_iff since) ?_
    rintro (_ | ⟨_, _⟩) <;> simp [ExecutorFaultState.tookMs, ExecutorFaultState.saturated, saturate]

theorem long_overrun_reads_zero :
    FaultAtomic.unpack (FaultAtomic.pack (.faulted (.budgetExceeded (durationToMsSat (2 ^ 30 * 1000000)) 5) 9)) 5 =
      .faulted (.budgetExceeded 0 5) 9 ∧ FaultAtomic.pack (.faulted (.budgetExceeded (2 ^ 30) 5) 9) =
      FaultAtomic.pack (.faulted (.budgetExceeded 0 5) 9) := by
  decide

end Taktora.Exec
