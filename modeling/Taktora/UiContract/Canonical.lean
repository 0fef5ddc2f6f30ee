import Taktora.UiContract.Grammar

namespace Taktora.UiContract

open Checked Readable Sorting FieldSchema List

def wordChar (c : Char) : Bool := c.isAlphanum || c == '_' || c == '-'

section Words

theorem name_word {name : String} (valid : validateName name = true) : ∀ c ∈ name.toList, wordChar c = true := by
  intro c member
  rw [validateName, Bool.and_eq_true, all_eq_true] at valid
  rw [wordChar, valid.2 c member]
  rfl

theorem name_starts {name : String} (valid : validateName name = true) (rest : List Char) :
    ∃ c tail, name.toList ++ rest = c :: tail ∧ wordChar c = true := by
  have word := name_word valid
  cases here : name.toList with
  | nil =>
    rw [validateName, here] at valid
    cases valid
  | cons c tail =>
    rw [here] at word
    exact ⟨c, tail ++ rest, rfl, word c mem_cons_self⟩

theorem digits_isDigit (n : Nat) : ∀ c ∈ (toString n).toList, c.isDigit = true := by
  intro c member
  rw [Nat.toString_eq_repr, Nat.toList_repr] at member
  exact Nat.isDigit_of_mem_toDigits (by omega) (by omega) member

theorem toList_negSucc (n : Nat) : (toString (Int.negSucc n)).toList = '-' :: (toString (n + 1)).toList := by
  show ("-" ++ toString (n + 1)).toList = _
  rw [String.toList_append]
  rfl

theorem digits_word (n : Nat) : ∀ c ∈ (toString n).toList, wordChar c = true := by
  intro c member
  simp [wordChar, Char.isAlphanum, digits_isDigit n c member]

theorem number_word (z : Int) : ∀ c ∈ (toString z).toList, wordChar c = true := by
  intro c member
  cases z with
  | ofNat n => exact digits_word n c member
  | negSucc n =>
    rw [toList_negSucc] at member
    rcases mem_cons.mp member with sign | digit
    · rw [sign]
      rfl
    · exact digits_word (n + 1) c digit

theorem keyword_word (h : Head) : ∀ c ∈ h.keyword, wordChar c = true := by
  have all : h.keyword.all wordChar = true := by
    cases h with
    | scalar s => cases s <;> rfl
    | _ => rfl
  exact all_eq_true.mp all

def heads : List Head :=
  [.scalar .bool, .scalar .i8, .scalar .i16, .scalar .i32, .scalar .i64, .scalar .u8, .scalar .u16, .scalar .u32,
    .scalar .u64, .scalar .f32, .scalar .f64, .array, .str, .struct, .enum]

theorem find_keyword (h : Head) : heads.find? (fun other => other.keyword == h.keyword) = some h := by
  cases h with
  | scalar s => cases s <;> decide
  | _ => decide

theorem keyword_injective {h h' : Head} (same : h.keyword = h'.keyword) : h = h' := by
  have found := find_keyword h
  rw [same, find_keyword h'] at found
  exact (Option.some.inj found).symm

end Words

section Normal

variable {fields fields' : List FieldSchema}

theorem fieldsText_congr
    (order : UpToOrder Same fields fields')
    (valid : FieldsValid fields)
    (each : ∀ f ∈ fields, ∀ g ∈ fields', f.ty.Same g.ty → f.ty.text = g.ty.text) :
    fieldsText fields = fieldsText fields' := by
  refine congrArg (separated ';') (order.map_sortBy_eq ?_ valid.1)
  intro f member g member' ⟨name, ty⟩
  exact ⟨name, by rw [text, text, name, each f member g member' ty]⟩

theorem variantKey_injective {v w : String × Int} (same : variantKey v = variantKey w) : v = w := by
  have pair := toLex.injective same
  exact Prod.ext (congrArg Prod.snd pair) (congrArg Prod.fst pair)

theorem FieldType.Same.text_eq {a b : FieldType}
    (valid : a.Valid)
    (valid' : b.Valid)
    (same : a.Same b) : a.text = b.text := by
  induction a using FieldType.induct generalizing b with
  | scalar s =>
    cases b with
    | scalar s' => rw [same]
    | _ => exact same.elim
  | array elem len ih =>
    cases b with
    | array elem' len' =>
      have inner : elem.text = elem'.text := ih valid valid' same.1
      rw [text, text] at inner
      rw [text, text, body, ← append_assoc, inner, same.2, append_assoc]
      rfl
    | _ => exact same.elim
  | str cap =>
    cases b with
    | str cap' => rw [same]
    | _ => exact same.elim
  | struct fields ih =>
    cases b with
    | struct fields' =>
      obtain ⟨permuted, types, perm⟩ := same
      have texts : fieldsText fields = fieldsText fields' := by
        apply fieldsText_congr ⟨permuted, typesSame_iff.mp types, perm⟩ valid
        intro f member g member' same
        exact ih f member (typesValid_iff.mp valid.2 f member).2 (typesValid_iff.mp valid'.2 g member').2 same
      simp only [text, body, fieldsText_eq, texts, head]
    | _ => exact same.elim
  | enum name variants width =>
    cases b with
    | enum name' variants' width' =>
      obtain ⟨names, perm, widths⟩ := same
      have sorted : sortBy variantKey variants = sortBy variantKey variants' :=
        sortBy_eq_of_perm perm fun v _ w _ => variantKey_injective
      simp only [text, body, names, sorted, widths, head]
    | _ => exact same.elim

theorem schemaText_congr
    (order : UpToOrder Same fields fields')
    (valid : FieldsValid fields)
    (valid' : FieldsValid fields') : fieldsText fields = fieldsText fields' :=
  fieldsText_congr order valid fun f member g member' => FieldType.Same.text_eq (typesValid_iff.mp valid.2 f member).2
    (typesValid_iff.mp valid'.2 g member').2

theorem Manifest.Same.text_eq {m n : Manifest}
    (valid : m.Valid)
    (valid' : n.Valid)
    (same : m.Same n) : m.text = n.text := by
  have models : (sortBy ViewModelSchema.name m.viewModels).map ViewModelSchema.text =
      (sortBy ViewModelSchema.name n.viewModels).map ViewModelSchema.text := by
    refine same.viewModels.map_sortBy_eq ?_ valid.viewModels
    intro v member w member' alike
    refine ⟨alike.name, ?_⟩
    rw [ViewModelSchema.text, ViewModelSchema.text, alike.name,
      schemaText_congr alike.fields (valid.viewModel v member).2 (valid'.viewModel w member').2]
  have commands : (sortBy CommandSchema.name m.commands).map CommandSchema.text =
      (sortBy CommandSchema.name n.commands).map CommandSchema.text := by
    refine same.commands.map_sortBy_eq ?_ valid.commands
    intro c member d member' alike
    refine ⟨alike.name, ?_⟩
    rw [CommandSchema.text, CommandSchema.text, alike.name, alike.kind, alike.idempotent,
      schemaText_congr alike.params (valid.command c member).2 (valid'.command d member').2]
  simp only [text, flatMap_def, models, commands]

end Normal

section Reading

variable {x y : List Char}

variable {close : Char} {fields fields' : List FieldSchema} {a b : FieldType}

theorem word_close_inj {s t : List Char}
    (word : ∀ c ∈ s, wordChar c = true)
    (word' : ∀ c ∈ t, wordChar c = true)
    (outside : wordChar close = false)
    (same : s ++ close :: x = t ++ close :: y) : s = t ∧ x = y := by
  obtain ⟨words, rest⟩ := word_append_inj word word' (stops_cons outside) (stops_cons outside) same
  exact ⟨words, (cons.inj rest).2⟩

theorem digits_inj {m n : Nat} (same : (toString m).toList = (toString n).toList) : m = n := by
  rw [Nat.toString_eq_repr, Nat.toString_eq_repr, Nat.toList_repr, Nat.toList_repr] at same
  rw [← Nat.ofDigitChars_ten_toDigits (n := m), same, Nat.ofDigitChars_ten_toDigits]

theorem number_inj {m n : Int} (same : (toString m).toList = (toString n).toList) : m = n := by
  have unsigned (k : Nat) (rest : List Char) : (toString k).toList ≠ '-' :: rest := by
    intro signed
    cases digits_isDigit k '-' (signed ▸ mem_cons_self)
  cases m with
  | ofNat m =>
    cases n with
    | ofNat n => exact congrArg Int.ofNat (digits_inj same)
    | negSucc n => exact absurd (same.trans (toList_negSucc n)) (unsigned m _)
  | negSucc m =>
    cases n with
    | ofNat n => exact absurd (same.symm.trans (toList_negSucc m)) (unsigned n _)
    | negSucc n =>
      rw [toList_negSucc, toList_negSucc] at same
      exact congrArg Int.negSucc (Nat.succ.inj (digits_inj (cons.inj same).2))

theorem digits_close_inj {m n : Nat} (outside : wordChar close = false)
    (same : (toString m).toList ++ close :: x = (toString n).toList ++ close :: y) : m = n ∧ x = y := by
  obtain ⟨digits, rest⟩ := word_close_inj (digits_word m) (digits_word n) outside same
  exact ⟨digits_inj digits, rest⟩

theorem name_close_inj {name name' : String}
    (valid : validateName name = true)
    (valid' : validateName name' = true)
    (outside : wordChar close = false)
    (same : name.toList ++ close :: x = name'.toList ++ close :: y) : name = name' ∧ x = y := by
  obtain ⟨names, rest⟩ := word_close_inj (name_word valid) (name_word valid') outside same
  exact ⟨String.toList_inj.mp names, rest⟩

theorem variant_reads {v w : String × Int}
    (valid : validateName v.1 = true)
    (valid' : validateName w.1 = true) : Reads wordChar variantText Eq v w := by
  intro x y stops stops' same
  rw [variantText, variantText, append_assoc, append_assoc] at same
  obtain ⟨names, same⟩ := name_close_inj valid valid' (by decide) same
  obtain ⟨numbers, same⟩ := word_append_inj (number_word v.2) (number_word w.2) stops stops' same
  exact ⟨Prod.ext names (number_inj numbers), same⟩

theorem field_reads {f g : FieldSchema}
    (valid : validateName f.name = true)
    (valid' : validateName g.name = true)
    (reads : Reads wordChar FieldType.text FieldType.Same f.ty g.ty) : Reads wordChar text Same f g := by
  intro x y stops stops' same
  rw [text, text, append_assoc, append_assoc] at same
  obtain ⟨names, same⟩ := name_close_inj valid valid' (by decide) same
  obtain ⟨types, same⟩ := reads x y stops stops' same
  exact ⟨⟨names, types⟩, same⟩

theorem starts_open {name : String} {rest : List Char} (valid : validateName name = true)
    (outside : wordChar close = false) : ∃ c tail, name.toList ++ rest = c :: tail ∧ c ≠ close := by
  obtain ⟨c, tail, here, inside⟩ := name_starts valid rest
  refine ⟨c, tail, here, fun same => ?_⟩
  rw [same, outside] at inside
  cases inside

theorem fields_read
    (valid : FieldsValid fields)
    (valid' : FieldsValid fields')
    (each : ∀ f ∈ fields, ∀ g ∈ fields', Reads wordChar FieldType.text FieldType.Same f.ty g.ty)
    (outside : wordChar close = false)
    (different : close ≠ ';')
    (same : fieldsText fields ++ close :: x = fieldsText fields' ++ close :: y) :
    UpToOrder Same fields fields' ∧ x = y := by
  have named := typesValid_iff.mp valid.2
  have named' := typesValid_iff.mp valid'.2
  have starts (f : FieldSchema) (member : f ∈ sortBy name fields ++ sortBy name fields') :
      ∃ c rest, f.text = c :: rest ∧ c ≠ close := by
    rcases mem_append.mp member with member | member
    · exact starts_open (named f (mem_sortBy.mp member)).1 outside
    · exact starts_open (named' f (mem_sortBy.mp member)).1 outside
  have reads (f : FieldSchema) (member : f ∈ sortBy name fields) (g : FieldSchema)
      (member' : g ∈ sortBy name fields') : Reads wordChar text Same f g :=
    field_reads (named f (mem_sortBy.mp member)).1 (named' g (mem_sortBy.mp member')).1
      (each f (mem_sortBy.mp member) g (mem_sortBy.mp member'))
  obtain ⟨related, rest⟩ := separated_reads (by decide) outside different starts reads same
  exact ⟨upToOrder_of_sortBy related, rest⟩

theorem variants_read {variants variants' : List (String × Int)} (valid : ∀ v ∈ variants, validateName v.1 = true)
    (valid' : ∀ v ∈ variants', validateName v.1 = true)
    (same : separated ',' ((sortBy variantKey variants).map variantText) ++ ')' :: x =
      separated ',' ((sortBy variantKey variants').map variantText) ++ ')' :: y) : variants.Perm variants' ∧ x = y := by
  have outside : wordChar ')' = false := by decide
  have starts (v : String × Int) (member : v ∈ sortBy variantKey variants ++ sortBy variantKey variants') :
      ∃ c rest, variantText v = c :: rest ∧ c ≠ ')' := by
    rcases mem_append.mp member with member | member
    · exact starts_open (valid v (mem_sortBy.mp member)) outside
    · exact starts_open (valid' v (mem_sortBy.mp member)) outside
  have reads (v : String × Int) (member : v ∈ sortBy variantKey variants) (w : String × Int)
      (member' : w ∈ sortBy variantKey variants') : Reads wordChar variantText Eq v w :=
    variant_reads (valid v (mem_sortBy.mp member)) (valid' w (mem_sortBy.mp member'))
  obtain ⟨related, rest⟩ := separated_reads (by decide) outside (by decide) starts reads same
  rw [forall₂_eq_eq_eq] at related
  exact ⟨(sortBy_perm variantKey variants).symm.trans (related ▸ sortBy_perm variantKey variants'), rest⟩

theorem body_stops (ty : FieldType) (stops : Stops wordChar x) : Stops wordChar (ty.body ++ x) := by
  cases ty with
  | scalar s =>
    exact stops
  | _ =>
    exact stops_cons (by decide)

theorem text_split
    (stops : Stops wordChar x)
    (stops' : Stops wordChar y)
    (same : a.text ++ x = b.text ++ y) :
    a.head = b.head ∧ a.body ++ x = b.body ++ y := by
  rw [FieldType.text, FieldType.text, append_assoc, append_assoc] at same
  obtain ⟨keywords, bodies⟩ := word_append_inj (keyword_word a.head) (keyword_word b.head) (body_stops a stops)
    (body_stops b stops') same
  exact ⟨keyword_injective keywords, bodies⟩

theorem FieldType.reads (valid : a.Valid) (valid' : b.Valid) : Reads wordChar FieldType.text FieldType.Same a b := by
  induction a using induct generalizing b with
  | scalar s =>
    intro x y stops stops' same
    obtain ⟨heads, bodies⟩ := text_split stops stops' same
    cases b with
    | scalar s' => exact ⟨Head.scalar.inj heads, bodies⟩
    | _ => cases heads
  | array elem len ih =>
    intro x y stops stops' same
    obtain ⟨heads, bodies⟩ := text_split stops stops' same
    cases b with
    | array elem' len' =>
      simp only [body, cons_append, append_assoc, nil_append, cons.injEq, true_and] at bodies
      rw [← append_assoc, ← append_assoc (Head.keyword _)] at bodies
      have elems : Reads wordChar text Same elem elem' := ih valid valid'
      obtain ⟨types, bodies⟩ := elems _ _ (stops_cons (by decide)) (stops_cons (by decide)) bodies
      obtain ⟨lengths, rest⟩ := digits_close_inj (by decide) (cons.inj bodies).2
      exact ⟨⟨types, lengths⟩, rest⟩
    | _ => cases heads
  | str cap =>
    intro x y stops stops' same
    obtain ⟨heads, bodies⟩ := text_split stops stops' same
    cases b with
    | str cap' =>
      simp only [body, cons_append, append_assoc, nil_append, cons.injEq, true_and] at bodies
      exact digits_close_inj (by decide) bodies
    | _ => cases heads
  | struct fields ih =>
    intro x y stops stops' same
    obtain ⟨heads, bodies⟩ := text_split stops stops' same
    cases b with
    | struct fields' =>
      simp only [body, fieldsText_eq, cons_append, append_assoc, nil_append, cons.injEq, true_and] at bodies
      obtain ⟨⟨permuted, related, perm⟩, rest⟩ := fields_read valid valid' (fun f member g member' =>
        ih f member (typesValid_iff.mp valid.2 f member).2 (typesValid_iff.mp valid'.2 g member').2) (by decide)
          (by decide) bodies
      exact ⟨⟨permuted, typesSame_iff.mpr related, perm⟩, rest⟩
    | _ => cases heads
  | enum name variants width =>
    intro x y stops stops' same
    obtain ⟨heads, bodies⟩ := text_split stops stops' same
    cases b with
    | enum name' variants' width' =>
      simp only [body, cons_append, append_assoc, nil_append, cons.injEq, true_and] at bodies
      obtain ⟨names, bodies⟩ := name_close_inj valid.1 valid'.1 (by decide) bodies
      obtain ⟨widths, bodies⟩ := digits_close_inj (by decide) bodies
      obtain ⟨perm, rest⟩ := variants_read valid.2 valid'.2 (cons.inj bodies).2
      exact ⟨⟨names, perm, widths⟩, rest⟩
    | _ => cases heads

theorem schema_reads
    (valid : FieldsValid fields)
    (valid' : FieldsValid fields')
    (outside : wordChar close = false)
    (different : close ≠ ';')
    (same : fieldsText fields ++ close :: x = fieldsText fields' ++ close :: y) :
    UpToOrder Same fields fields' ∧ x = y :=
  fields_read valid valid' (fun f member g member' => FieldType.reads (typesValid_iff.mp valid.2 f member).2
    (typesValid_iff.mp valid'.2 g member').2) outside different same

theorem viewModel_reads {v w : ViewModelSchema} (valid : validateName v.name = true ∧ FieldsValid v.fields)
    (valid' : validateName w.name = true ∧ FieldsValid w.fields) :
    Reads (fun _ => false) ViewModelSchema.text ViewModelSchema.Same v w := by
  intro x y _ _ same
  simp only [ViewModelSchema.text, append_assoc, cons_append, nil_append] at same
  obtain ⟨names, same⟩ := name_close_inj valid.1 valid'.1 (by decide) (append_cancel_left same)
  obtain ⟨fields, rest⟩ := schema_reads valid.2 valid'.2 (by decide) (by decide) same
  exact ⟨⟨names, fields⟩, rest⟩

theorem kind_close_inj {k k' : Kind}
    (same : (kindTag k).toList ++ "idem".toList ++ '=' :: x = (kindTag k').toList ++ "idem".toList ++ '=' :: y) :
    k = k' ∧ x = y := by
  have word (k : Kind) : ∀ c ∈ (kindTag k).toList ++ "idem".toList, wordChar c = true :=
    all_eq_true.mp (by cases k <;> rfl)
  obtain ⟨words, rest⟩ := word_close_inj (word k) (word k') (by decide) same
  have tags := String.toList_inj.mp (append_cancel_right words)
  refine ⟨?_, rest⟩
  cases k <;> cases k' <;> first | rfl | exact absurd tags (by decide)

theorem flag_inj {b b' : Bool}
    (same : (if b then "true" else "false").toList ++ x = (if b' then "true" else "false").toList ++ y) :
    b = b' ∧ x = y := by
  cases b <;> cases b' <;> simp_all

theorem command_reads {c d : CommandSchema} (valid : validateName c.name = true ∧ FieldsValid c.params)
    (valid' : validateName d.name = true ∧ FieldsValid d.params) :
    Reads (fun _ => false) CommandSchema.text CommandSchema.Same c d := by
  intro x y _ _ same
  simp only [CommandSchema.text, append_assoc, cons_append] at same
  obtain ⟨names, same⟩ := name_close_inj valid.1 valid'.1 (by decide) (append_cancel_left same)
  obtain ⟨params, same⟩ := schema_reads valid.2 valid'.2 (by decide) (by decide) same
  rw [append_cancel_left_eq, ← append_assoc, ← append_assoc (kindTag d.kind).toList] at same
  obtain ⟨kinds, same⟩ := kind_close_inj same
  obtain ⟨flags, rest⟩ := flag_inj same
  exact ⟨⟨names, params, kinds, flags⟩, rest⟩

theorem Manifest.same_of_text {m n : Manifest}
    (valid : m.Valid)
    (valid' : n.Valid)
    (same : m.text = n.text) : m.Same n := by
  have first (cs : List CommandSchema) : (cs.flatMap CommandSchema.text).head? ≠ some 'V' := by
    cases cs with
    | nil => simp
    | cons c cs => simp [CommandSchema.text]
  obtain ⟨models, same⟩ := sequence_reads rfl (fun v => ⟨_, rfl⟩) (fun _ _ => rfl) (fun _ _ => rfl) (first _) (first _)
    (fun v member w member' => viewModel_reads (valid.viewModel v (mem_sortBy.mp member))
      (valid'.viewModel w (mem_sortBy.mp member'))) same
  have same : (sortBy CommandSchema.name m.commands).flatMap CommandSchema.text ++ [] =
      (sortBy CommandSchema.name n.commands).flatMap CommandSchema.text ++ [] := by rw [same]
  obtain ⟨commands, _⟩ := sequence_reads rfl (fun c => ⟨_, rfl⟩) (fun _ _ => rfl) (fun _ _ => rfl) (by simp) (by simp)
    (fun c member d member' => command_reads (valid.command c (mem_sortBy.mp member))
      (valid'.command d (mem_sortBy.mp member'))) same
  exact ⟨upToOrder_of_sortBy models, upToOrder_of_sortBy commands⟩

end Reading

/-- Valid manifests are encoded, and to the same string exactly if they are the same. -/
theorem canonical_encoding_eq_iff (build : Build) (m n : Manifest)
    (valid : m.Valid)
    (valid' : n.Valid) :
    ∃ s t, canonicalEncoding build m = .ok s ∧ canonicalEncoding build n = .ok t ∧ (s = t ↔ m.Same n) := by
  refine ⟨_, _, canonicalEncoding_eq valid, canonicalEncoding_eq valid', ?_⟩
  rw [String.ofList_inj]
  exact ⟨Manifest.same_of_text valid valid', Manifest.Same.text_eq valid valid'⟩

def driveState (variants : List (String × Int)) : FieldSchema := .mk "state" (.enum "State" variants 1)

def drivePosition : FieldSchema := .mk "position" (.scalar .f64)

def stepper (instanceName : String) (fields : List FieldSchema) : Manifest where
  instanceName := instanceName
  epoch := 0
  contractHash := ""
  viewModels := [⟨"Stepper", instanceName ++ "/vm/Stepper", [.mk "drive" (.struct fields)]⟩]
  commands := [⟨"stop", instanceName ++ "/cmd/stop/req", instanceName ++ "/cmd/stop/rep", [], .command, true, none⟩]

variable {fields : List FieldSchema}

theorem stepper_valid {instanceName : String} (valid : FieldsValid fields) : (stepper instanceName fields).Valid := by
  have named : validateName "Stepper" = true ∧ validateName "drive" = true ∧ validateName "stop" = true := by decide
  refine ⟨nodup_singleton _, nodup_singleton _, ?_, ?_⟩
  · intro v member
    cases mem_singleton.mp member
    exact ⟨named.1, nodup_singleton _, named.2.1, valid, True.intro⟩
  · intro c member
    cases mem_singleton.mp member
    exact ⟨named.2.2, nodup_nil, True.intro⟩

theorem stepper_same {name name' : String} {fields' : List FieldSchema} (order : UpToOrder Same fields fields') :
    (stepper name fields).Same (stepper name' fields') := by
  obtain ⟨permuted, related, perm⟩ := order
  have inner : Same (.mk "drive" (.struct fields)) (.mk "drive" (.struct fields')) :=
    ⟨rfl, permuted, typesSame_iff.mpr related, perm⟩
  exact ⟨⟨(stepper name' fields').viewModels, .cons ⟨rfl, _, .cons inner .nil, .refl _⟩ .nil, .refl _⟩,
    ⟨(stepper name' fields').commands, .cons ⟨rfl, ⟨[], .nil, .refl _⟩, rfl, rfl⟩ .nil, .refl _⟩⟩

theorem permuted_stepper_encoded_alike :
    ∃ s, canonicalEncoding .debug (stepper "left" [drivePosition, driveState [("Idle", 0), ("Run", 1)]]) = .ok s ∧
      canonicalEncoding .debug (stepper "right" [driveState [("Run", 1), ("Idle", 0)], drivePosition]) = .ok s := by
  have valid : FieldsValid [drivePosition, driveState [("Idle", 0), ("Run", 1)]] :=
    ⟨by decide, by decide, True.intro, by decide, ⟨by decide, by decide⟩, True.intro⟩
  have valid' : FieldsValid [driveState [("Run", 1), ("Idle", 0)], drivePosition] :=
    ⟨by decide, by decide, ⟨by decide, by decide⟩, by decide, True.intro, True.intro⟩
  have same : UpToOrder FieldSchema.Same [drivePosition, driveState [("Idle", 0), ("Run", 1)]]
      [driveState [("Run", 1), ("Idle", 0)], drivePosition] := by
    refine ⟨[drivePosition, driveState [("Run", 1), ("Idle", 0)]], ?_, .swap _ _ _⟩
    exact typesSame_iff.mp ⟨rfl, rfl, rfl, ⟨rfl, .swap _ _ _, rfl⟩, True.intro⟩
  obtain ⟨s, t, left, right, alike⟩ := canonical_encoding_eq_iff .debug _ _ (stepper_valid valid) (stepper_valid valid')
  exact ⟨s, left, alike.mpr (stepper_same same) ▸ right⟩

end Taktora.UiContract
