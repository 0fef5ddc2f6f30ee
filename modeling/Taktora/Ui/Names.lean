import Mathlib.Data.List.Basic

namespace Taktora.Ui

open List String

def manifestServiceName (app : String) : String := app ++ ".manifest"

def viewModelServiceName (app name : String) : String := app ++ ".vm." ++ name

def commandRequestServiceName (app name : String) : String := app ++ ".cmd." ++ name ++ ".req"

def commandReplyServiceName (app name : String) : String := app ++ ".cmd." ++ name ++ ".rep"

def canExecuteServiceName (app name : String) : String := app ++ ".cmd." ++ name ++ ".can"

inductive Service where
  | manifest
  | viewModel (name : String)
  | request (name : String)
  | reply (name : String)
  | canExecute (name : String)

namespace Service

def name (app : String) : Service → String
  | manifest => manifestServiceName app
  | viewModel name => viewModelServiceName app name
  | request name => commandRequestServiceName app name
  | reply name => commandReplyServiceName app name
  | canExecute name => canExecuteServiceName app name

def word : Service → String
  | manifest => "manifest"
  | viewModel _ => "vm"
  | request _ | reply _ | canExecute _ => "cmd"

def more : Service → List Char
  | manifest => []
  | viewModel name => '.' :: name.toList
  | request name => '.' :: name.toList ++ ".req".toList
  | reply name => '.' :: name.toList ++ ".rep".toList
  | canExecute name => '.' :: name.toList ++ ".can".toList

/-- The second instance name goes on as a service name of the first does. -/
def Extends (app other : String) : Prop :=
  ∃ word ∈ ["vm", "cmd"], ∃ rest : String, other = app ++ "." ++ word ++ rest ∧ ∀ c ∈ rest.toList.head?, c = '.'

variable {app other : String} {service : Service} {start tail rest after : List Char}

theorem toList_name (app : String) (service : Service) :
    (service.name app).toList = app.toList ++ '.' :: (service.word.toList ++ service.more) := by
  cases service <;> simp [word, more, name, manifestServiceName, viewModelServiceName, commandRequestServiceName,
    commandReplyServiceName, canExecuteServiceName]

theorem name_injective (app : String) : Function.Injective (name app) := by
  intro service service' same
  have tails := congrArg toList same
  rw [toList_name, toList_name] at tails
  have ends := congrArg reverse tails
  cases service <;> cases service' <;> simp [word, more, toList_inj] at tails ends ⊢ <;> exact tails

theorem split_at_dot
    (free : '.' ∉ start)
    (split : '.' :: (start ++ tail) = rest ++ '.' :: after)
    (longer : rest ≠ []) :
    ∃ between, rest = '.' :: (start ++ between) ∧ tail = between ++ '.' :: after := by
  obtain ⟨_, _, rfl⟩ := exists_cons_of_ne_nil longer
  rw [cons_append, cons_eq_cons] at split
  obtain ⟨rfl, split⟩ := split
  rcases append_eq_append_iff.mp split with ⟨between, rfl, same⟩ | ⟨between, rfl, same⟩
  · exact ⟨between, rfl, same⟩
  · cases between with
    | nil => exact ⟨[], by simp, by simpa using same.symm⟩
    | cons c between => simp_all

theorem extends_of_split (app : String)
    (longer : rest ≠ [])
    (split : '.' :: (service.word.toList ++ service.more) = rest ++ '.' :: after) :
    service ≠ manifest ∧ Extends app (app ++ ofList rest) := by
  obtain ⟨between, rfl, same⟩ := split_at_dot (by cases service <;> simp [word]) split longer
  have named : service ≠ manifest := by
    rintro rfl
    simp [more] at same
  refine ⟨named, service.word, ?_, ofList between, ?_, ?_⟩
  · cases service <;> simp [word] at named ⊢
  · apply toList_inj.mp
    simp
  · cases between with
    | nil => simp
    | cons c between => cases service <;> simp [more] at same <;> simp [← same.1]

theorem Extends.collides (extending : Extends app other) :
    ∃ service service' : Service, service.name app = service'.name other := by
  obtain ⟨_, listed, rest, rfl, dotted⟩ := extending
  have starts (tail : List Char) : ∃ text : String, '.' :: text.toList = rest.toList ++ '.' :: tail := by
    cases found : rest.toList with
    | nil => exact ⟨.ofList tail, by simp⟩
    | cons c cs =>
      rw [found] at dotted
      exact ⟨.ofList (cs ++ '.' :: tail), by simpa using (dotted c rfl).symm⟩
  rcases mem_pair.mp listed with rfl | rfl
  · obtain ⟨text, same⟩ := starts "manifest".toList
    refine ⟨viewModel text, manifest, toList_inj.mp ?_⟩
    simpa [toList_name, word, more] using same
  · obtain ⟨text, same⟩ := starts "cmd.go".toList
    refine ⟨request text, request "go", toList_inj.mp ?_⟩
    have closed := congrArg (· ++ ".req".toList) same
    simpa [toList_name, word, more] using closed

/-- Names of two instances collide exactly if one instance name extends the other by a reserved word. -/
theorem service_names_collide_iff (app : String) :
    (∀ other ≠ app, (∃ service service' : Service, service.name app = service'.name other) ↔
      Extends app other ∨ Extends other app) ∧
    Function.Injective (name app) ∧
    (app ≠ "" → ∀ service : Service, ".manifest".toList <:+ (service.name app).toList ↔
      ∃ other ≠ "", service.name app = manifestServiceName other) := by
  refine ⟨fun other different => ⟨?_, ?_⟩, name_injective app, fun nonempty service => ⟨?_, ?_⟩⟩
  · rintro ⟨_, _, same⟩
    have lists := congrArg toList same
    rw [toList_name, toList_name] at lists
    rcases append_eq_append_iff.mp lists with ⟨rest, longer, split⟩ | ⟨rest, longer, split⟩
    · obtain rfl : other = app ++ ofList rest := toList_inj.mp (by simpa using longer)
      exact .inl (extends_of_split _ (by rintro rfl; simp at different) split).2
    · obtain rfl : app = other ++ ofList rest := toList_inj.mp (by simpa using longer)
      exact .inr (extends_of_split _ (by rintro rfl; simp at different) split).2
  · rintro (extending | extending)
    · exact extending.collides
    · obtain ⟨service, service', same⟩ := extending.collides
      exact ⟨service', service, same.symm⟩
  · rintro ⟨other, ended⟩
    refine ⟨.ofList other, ?_, toList_inj.mp (by simpa [manifestServiceName] using ended.symm)⟩
    intro empty
    have split : '.' :: (manifest.word.toList ++ manifest.more) = app.toList ++
        '.' :: (service.word.toList ++ service.more) := by
      rw [← toList_name]
      simp_all [word, more]
    exact (extends_of_split "" (by simpa using nonempty) split).1 rfl
  · rintro ⟨other, _, same⟩
    rw [same]
    exact ⟨other.toList, by simp [manifestServiceName]⟩

theorem nested_instance_collides : "a" ≠ "a.vm" ∧ viewModelServiceName "a" "manifest" = manifestServiceName "a.vm" := by
  decide

end Service

end Taktora.Ui
