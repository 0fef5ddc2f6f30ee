import Mathlib.Data.List.Forall2
import Taktora.Mqtt.Subscriptions

namespace Taktora.Mqtt

open List MqttTopicFilter

abbrev Level := List Char

def maxTopicBytes : Nat := 65535

def levels (text : String) : List Level := text.toList.splitOn '/'

inductive TopicFilterError where
  | empty
  | tooLong
  | containsNull
  | containsSpace
  | singleLevelWildcardNotAlone
  | multiLevelWildcardNotAlone
  | multiLevelWildcardNotLast
deriving DecidableEq, Repr

namespace MqttTopicFilter

def levelViolation (last : Nat) (entry : Level × Nat) : Option TopicFilterError :=
  if '#' ∈ entry.1 ∧ entry.1 ≠ ['#'] then some .multiLevelWildcardNotAlone
  else if '#' ∈ entry.1 ∧ entry.2 ≠ last then some .multiLevelWildcardNotLast
  else if '+' ∈ entry.1 ∧ entry.1 ≠ ['+'] then some .singleLevelWildcardNotAlone
  else none

def wildcardViolation (filter : String) : Option TopicFilterError :=
  (levels filter).zipIdx.findSome? (levelViolation ((levels filter).length - 1))

def new (filter : String) : Except TopicFilterError MqttTopicFilter :=
  let violation :=
    if filter.toList = [] then some .empty
    else if maxTopicBytes < filter.utf8ByteSize then some .tooLong
    else if '\x00' ∈ filter.toList then some .containsNull
    else if ' ' ∈ filter.toList then some .containsSpace
    else wildcardViolation filter
  match violation with
  | some err => .error err
  | none => .ok ⟨filter⟩

end MqttTopicFilter

def levelsMatch : List Level → List Level → Bool
  | [], topic => topic.isEmpty
  | f :: filter, topic =>
    if f = ['#'] then true
    else match topic with
      | [] => false
      | t :: topic => if f = ['+'] ∨ f = t then levelsMatch filter topic else false

variable (filter : MqttTopicFilter) (topic : String)

def topicMatches : Bool := levelsMatch (levels filter.text) (levels topic)

def routeInbound (t : InboundTable) (topic : String) (payload : List UInt8) : List (InboundRoute × List UInt8) :=
  (t.routes.filter fun route => topicMatches route.filter topic).map (·, payload)

/-- Level by level, where a final `#` stands for its parent and any further levels. -/
def Covers (filter topic : List Level) : Prop :=
  List.Forall₂ (fun f t => f = ['+'] ∨ f = t) filter topic ∨
    ∃ parent above below, filter = parent ++ [['#']] ∧ topic = above ++ below ∧
      List.Forall₂ (fun f t => f = ['+'] ∨ f = t) parent above

/-- The filter begins with a wildcard, and the topic with `$`. -/
def Reserved : Prop :=
  ((levels filter.text).head? = some ['+'] ∨ (levels filter.text).head? = some ['#']) ∧ topic.toList.head? = some '$'

/-- The rules of MQTT 3.1.1, section 4.7. -/
def MqttMatches : Prop :=
  Covers (levels filter.text) (levels topic) ∧ ¬Reserved filter topic

section Matching

variable {filter topic : List Level} {text : String} {t : InboundTable}

theorem hash_last_of_new (accepted : new text = .ok ⟨text⟩) {before after : List Level}
    (split : levels text = before ++ ['#'] :: after) : after = [] := by
  have clean : wildcardViolation text = none := by
    unfold new at accepted
    split_ifs at accepted
    dsimp only at accepted
    split at accepted
    · cases accepted
    · assumption
  have entry := findSome?_eq_none_iff.mp clean (['#'], before.length) (by simp [split, zipIdx_append])
  have last : before.length = (levels text).length - 1 := by
    by_contra other
    simp [levelViolation, other] at entry
  rw [split, length_append, length_cons] at last
  exact length_eq_zero_iff.mp (by omega)

theorem covers_cons {f : Level} (literal : f ≠ ['#']) :
    Covers (f :: filter) topic ↔ ∃ t rest, topic = t :: rest ∧ (f = ['+'] ∨ f = t) ∧ Covers filter rest := by
  constructor
  · rintro (all | ⟨parent, _, below, split, rfl, all⟩)
    · obtain ⟨t, rest, here, later, rfl⟩ := forall₂_cons_left_iff.mp all
      exact ⟨t, rest, rfl, here, .inl later⟩
    · cases parent with
      | nil => exact absurd (cons.inj split).1 literal
      | cons p parent =>
        obtain ⟨rfl, rfl⟩ := cons.inj split
        obtain ⟨t, rest, here, later, rfl⟩ := forall₂_cons_left_iff.mp all
        exact ⟨t, rest ++ below, rfl, here, .inr ⟨parent, rest, below, rfl, rfl, later⟩⟩
  · rintro ⟨t, _, rfl, here, all | ⟨parent, above, below, rfl, rfl, all⟩⟩
    · exact .inl (.cons here all)
    · exact .inr ⟨f :: parent, t :: above, below, rfl, rfl, .cons here all⟩

theorem levelsMatch_iff (last : ∀ before after, filter = before ++ ['#'] :: after → after = []) :
    levelsMatch filter topic = true ↔ Covers filter topic := by
  induction filter generalizing topic with
  | nil => simp [levelsMatch, Covers]
  | cons f rest ih =>
    by_cases hash : f = ['#']
    · have none := last [] rest (by rw [hash, nil_append])
      subst hash none
      exact iff_of_true (by simp [levelsMatch]) (.inr ⟨[], [], topic, rfl, rfl, .nil⟩)
    · have later : ∀ before after, rest = before ++ ['#'] :: after → after = [] := fun before after split =>
        last (f :: before) after (by rw [split, cons_append])
      rw [covers_cons hash]
      cases topic with
      | nil => simp [levelsMatch, hash]
      | cons t topic => simp [levelsMatch, hash, ih later]

theorem topicMatches_iff {filter : MqttTopicFilter} {topic : String} (accepted : new filter.text = .ok filter) :
    topicMatches filter topic = true ↔ Covers (levels filter.text) (levels topic) :=
  levelsMatch_iff fun _ _ split => hash_last_of_new accepted split

/-- A message goes once to the channels whose filter matches, exactly if no wildcard covers a `$` topic. -/
theorem demux_follows_mqtt_iff (accepted : ∀ route ∈ t.routes, MqttTopicFilter.new route.filter.text = .ok route.filter)
    (topic : String) (payload : List UInt8) :
    (∃ chosen : InboundRoute → Bool, (∀ route ∈ t.routes, chosen route = true ↔ MqttMatches route.filter topic) ∧
      routeInbound t topic payload = (t.routes.filter chosen).map (·, payload)) ↔
    ∀ route ∈ t.routes, Reserved route.filter topic → ¬Covers (levels route.filter.text) (levels topic) := by
  constructor
  · rintro ⟨chosen, exact_, same⟩ route member reserved covered
    have filters := map_injective_iff.mpr (fun _ _ equal => congrArg Prod.fst equal) same
    have forwarded : route ∈ t.routes.filter chosen :=
      filters ▸ mem_filter.mpr ⟨member, (topicMatches_iff (accepted route member)).mpr covered⟩
    exact ((exact_ route member).mp (mem_filter.mp forwarded).2).2 reserved
  · intro apart
    refine ⟨fun route => topicMatches route.filter topic, fun route member => ?_, rfl⟩
    rw [topicMatches_iff (accepted route member)]
    exact ⟨fun covered => ⟨covered, fun reserved => apart route member reserved covered⟩, fun both => both.1⟩

theorem plant_message_forwarded :
    ∃ chosen : InboundRoute → Bool, routeInbound ⟨[⟨⟨"plant/+"⟩, "a"⟩, ⟨⟨"#"⟩, "b"⟩], []⟩ "plant/1" [7] =
      ([⟨⟨"plant/+"⟩, "a"⟩, ⟨⟨"#"⟩, "b"⟩].filter chosen).map (·, [7]) := by
  obtain ⟨chosen, _, same⟩ :=
    (demux_follows_mqtt_iff (t := ⟨[⟨⟨"plant/+"⟩, "a"⟩, ⟨⟨"#"⟩, "b"⟩], []⟩) (by decide +kernel)
      "plant/1" [7]).mpr fun _ _ reserved => absurd reserved.2 (by decide +kernel)
  exact ⟨chosen, same⟩

/-- A message of the broker on itself reaches a channel that asked for everything. -/
theorem system_message_forwarded :
    MqttTopicFilter.new "#" = .ok ⟨"#"⟩ ∧ routeInbound ⟨[⟨⟨"#"⟩, "a"⟩], []⟩ "$SYS/uptime" [7] = [(⟨⟨"#"⟩, "a"⟩, [7])] ∧
      ¬MqttMatches ⟨"#"⟩ "$SYS/uptime" := by
  exact ⟨by decide +kernel, by decide +kernel, fun matching => matching.2 ⟨.inr (by decide +kernel), by decide +kernel⟩⟩

end Matching

end Taktora.Mqtt
