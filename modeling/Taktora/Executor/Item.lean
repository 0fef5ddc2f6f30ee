import Mathlib.Data.List.Basic

namespace Taktora.Exec

open List

abbrev TaskId := String

abbrev ItemError := String

inductive ItemFlow where
  | proceed
  | stopChain
deriving DecidableEq

abbrev ExecuteResult := Except ItemError ItemFlow

inductive IntegrityLevel where
  | safetyCritical
  | qualityManaged
deriving DecidableEq

inductive ExecutorError where
  | invalidGraph (message : String)
  | declareTriggers (message : String)
  | item (taskId : TaskId) (source : ItemError)
  | builder (message : String)
  | taskNotFound (taskId : TaskId)
  | taskNotFaulted (taskId : TaskId)
  | executorNotFaulted
  | mixedIntegrity (expected found : IntegrityLevel)
deriving DecidableEq

inductive TriggerDecl where
  | subscriber (listener : Nat)
  | interval (period : Nat)
  | deadline (listener deadline : Nat)
  | rawListener (listener : Nat)
deriving DecidableEq

def TriggerDecl.isInterval : TriggerDecl → Bool
  | .interval _ => true
  | _ => false

def TriggerDecl.isListener (decl : TriggerDecl) : Bool := !decl.isInterval

def TriggerDecl.interval? : TriggerDecl → Option Nat
  | .interval period => some period
  | _ => none

structure TriggerDeclarer where
  decls : List TriggerDecl
  budget : Option Nat
deriving DecidableEq

structure Item where
  taskId : Option String
  declareTriggers : Except ExecutorError TriggerDeclarer
  integrityLevel : IntegrityLevel
  appId : Option Nat
  appInstanceId : Option Nat

def validateDecls (id : TaskId) (decls : List TriggerDecl) : Except ExecutorError Unit :=
  let intervalCount := decls.countP (·.isInterval)
  if decls.any (·.isInterval) && decls.any (·.isListener) then
    .error (.declareTriggers ("task `" ++ id ++ "` declares both an interval (cyclic) and a listener (event-driven) " ++
      "trigger; a task may be cyclic (interval) or event-driven (listener) but not both — split it into two tasks"))
  else if intervalCount > 1 then
    .error (.declareTriggers ("task `" ++ id ++ "` declares " ++ toString intervalCount ++
      " interval triggers; a cyclic task must declare exactly one scan period — split it into separate tasks"))
  else if .interval 0 ∈ decls then
    .error (.declareTriggers ("task `" ++ id ++
      "` declares a zero-duration interval; a cyclic scan period must be strictly positive"))
  else .ok ()

def scanPeriodFromDecls (decls : List TriggerDecl) : Option Nat :=
  decls.findSome? TriggerDecl.interval?

section Triggers

variable {decls : List TriggerDecl} {id : TaskId}

/-- The triggers of a task that may join the table: listeners, or one positive interval alone. -/
def ValidTriggers (decls : List TriggerDecl) : Prop :=
  (∀ decl ∈ decls, decl.isListener = true) ∨ ∃ period, 0 < period ∧ decls = [.interval period]

theorem validTriggers_of_validateDecls (valid : validateDecls id decls = .ok ()) : ValidTriggers decls := by
  unfold validateDecls at valid
  dsimp only at valid
  split at valid
  · cases valid
  rename_i notBoth
  split at valid
  · cases valid
  rename_i few
  split at valid
  · cases valid
  rename_i positive
  by_cases cyclic : decls.any (·.isInterval) = true
  · right
    have intervals : ∀ decl ∈ decls, decl.isInterval = true := by
      intro decl member
      by_contra listener
      apply notBoth
      rw [cyclic, Bool.true_and, any_eq_true]
      exact ⟨decl, member, Bool.not_eq_eq_eq_not.mpr (Bool.eq_false_iff.mpr listener)⟩
    rw [countP_eq_length.mpr intervals] at few
    obtain ⟨decl, member, interval⟩ := any_eq_true.mp cyclic
    have one : decls.length = 1 := by
      have := length_pos_of_mem member
      omega
    obtain ⟨_, rfl⟩ := length_eq_one_iff.mp one
    cases mem_singleton.mp member
    cases decl with
    | interval period =>
      refine ⟨period, Nat.pos_of_ne_zero ?_, rfl⟩
      rintro rfl
      exact positive mem_cons_self
    | subscriber | deadline | rawListener => cases interval
  · left
    intro decl member
    rw [TriggerDecl.isListener, Bool.not_eq_true', Bool.eq_false_iff]
    intro interval
    exact cyclic (any_eq_true.mpr ⟨decl, member, interval⟩)

end Triggers

end Taktora.Exec
