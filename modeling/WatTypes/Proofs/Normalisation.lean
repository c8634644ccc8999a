import WatTypes.Proofs.Nesting
import WatTypes.Proofs.Scanning

/-!
# What is read can be written

What a phrase denotes can be written, provided that a source can hold the lexemes of the phrase, and
its canonical lexemes nest no deeper than these (`Phrase.Normalises`). All ways to put phrases
together keep this, and so it holds of the phrases of the grammar, up to modules
(`normalises_module`).
-/

set_option autoImplicit false
set_option relaxedAutoImplicit false

namespace WatTypes.Grammar

open Phrase
open Lexeme (parenthesised NoDeeper noDeeper_of_forall_isPlain)

namespace Phrase

variable {α β : Type} {phrase : Phrase α} {good : α → Prop} {lexemes : α → List Lexeme}

/-- What a phrase denotes is good if a source can hold the lexemes of the phrase, and is written as
lexemes that nest no deeper than these. -/
def Normalises (phrase : Phrase α) (good : α → Prop) (lexemes : α → List Lexeme) : Prop :=
  ∀ ⦃tokens value⦄, phrase tokens value → (∀ lexeme ∈ lexemesOf tokens, lexeme.IsScannable) →
    good value ∧ NoDeeper (lexemes value) (lexemesOf tokens)

/-- A single token, for something that is written without parentheses. -/
theorem Normalises.single {meaning : Token → Option α}
    (hgood : ∀ token value, meaning token = some value → token.lexeme.IsScannable → good value)
    (hplain : ∀ value, ∀ lexeme ∈ lexemes value, lexeme.IsPlain) :
    Normalises (single meaning) good lexemes := by
  rintro _ value ⟨token, rfl, hmeaning⟩ hscannable
  exact ⟨hgood token value hmeaning (hscannable _ List.mem_cons_self),
    noDeeper_of_forall_isPlain (hplain value)⟩

/-- Two phrases one after the other. -/
theorem Normalises.both {second : Phrase β} {fine : β → Prop} {others : β → List Lexeme}
    (hbalanced : IsBalanced phrase) (hfirst : Normalises phrase good lexemes)
    (hsecond : Normalises second fine others) :
    Normalises (both phrase second) (fun pair ↦ good pair.1 ∧ fine pair.2)
      fun pair ↦ lexemes pair.1 ++ others pair.2 := by
  rintro _ value ⟨left, right, rfl, hleft, hright⟩ hscannable
  rw [lexemesOf_append] at hscannable ⊢
  obtain ⟨hbefore, hbehind⟩ := List.forall_mem_append.mp hscannable
  obtain ⟨hgood, hlexemes⟩ := hfirst hleft hbefore
  obtain ⟨hfine, hothers⟩ := hsecond hright hbehind
  exact ⟨⟨hgood, hfine⟩, hlexemes.append (hbalanced hleft) hothers⟩

/-- A phrase that may be missing. -/
theorem Normalises.optional (h : Normalises phrase good lexemes) :
    Normalises (optional phrase) (fun found ↦ ∀ value ∈ found, good value)
      fun found ↦ (found.map lexemes).getD [] := by
  rintro tokens (_ | present) hphrase hscannable
  · exact ⟨fun value hvalue ↦ (nomatch hvalue),
      noDeeper_of_forall_isPlain fun _ hmem ↦ (List.not_mem_nil hmem).elim⟩
  · obtain ⟨hgood, hlexemes⟩ := h hphrase hscannable
    refine ⟨fun value hvalue ↦ ?_, hlexemes⟩
    cases hvalue
    exact hgood

/-- Any number of phrases. -/
theorem Normalises.many (hbalanced : IsBalanced phrase) (h : Normalises phrase good lexemes) :
    Normalises (Many phrase) (fun values ↦ ∀ value ∈ values, good value)
      fun values ↦ values.flatMap lexemes := by
  intro tokens values hmany hscannable
  induction hmany with
  | nil => exact ⟨fun _ hmem ↦ (List.not_mem_nil hmem).elim, .refl []⟩
  | cons hfirst _ ih =>
    rw [lexemesOf_append] at hscannable ⊢
    obtain ⟨hbefore, hbehind⟩ := List.forall_mem_append.mp hscannable
    obtain ⟨hgood, hlexemes⟩ := h hfirst hbefore
    obtain ⟨hfine, hothers⟩ := ih hbehind
    exact ⟨List.forall_mem_cons.mpr ⟨hgood, hfine⟩, hlexemes.append (hbalanced hfirst) hothers⟩

/-- A phrase with another meaning. -/
theorem Normalises.map {fine : β → Prop} {others : β → List Lexeme} (meaning : α → β)
    (h : Normalises phrase good lexemes) (hfine : ∀ value, good value → fine (meaning value))
    (hothers : ∀ value, good value → NoDeeper (others (meaning value)) (lexemes value)) :
    Normalises (map meaning phrase) fine others := by
  rintro tokens _ ⟨value, hvalue, rfl⟩ hscannable
  obtain ⟨hgood, hlexemes⟩ := h hvalue hscannable
  exact ⟨hfine value hgood, (hothers value hgood).trans hlexemes⟩

/-- One phrase or another one. -/
theorem Normalises.either {second : Phrase α} (hfirst : Normalises phrase good lexemes)
    (hsecond : Normalises second good lexemes) :
    Normalises (either phrase second) good lexemes := by
  rintro tokens value (hvalue | hvalue) hscannable
  · exact hfirst hvalue hscannable
  · exact hsecond hvalue hscannable

/-- Some phrases of a kind. -/
theorem Normalises.only (allowed : α → Prop) (h : Normalises phrase good lexemes) :
    Normalises (only allowed phrase) good lexemes :=
  fun _ _ hphrase ↦ h hphrase.1

/-- A phrase in parentheses. -/
theorem Normalises.parens (h : Normalises phrase good lexemes) :
    Normalises (parens phrase) good fun value ↦ parenthesised (lexemes value) := by
  rintro _ value ⟨opening, closing, inner, rfl, hopening, hclosing, hinner⟩ hscannable
  rw [lexemesOf_parens inner hopening hclosing] at hscannable ⊢
  obtain ⟨hgood, hlexemes⟩ := h hinner fun lexeme hmem ↦
    hscannable lexeme (List.mem_cons_of_mem _ (List.mem_append_left _ hmem))
  exact ⟨hgood, hlexemes.parenthesised⟩

/-- A phrase in parentheses with another meaning. -/
theorem Normalises.parens_map {fine : β → Prop} {others : β → List Lexeme} (meaning : α → β)
    (h : Normalises phrase good lexemes) (hfine : ∀ value, good value → fine (meaning value))
    (hothers : ∀ value, good value →
      NoDeeper (others (meaning value)) (parenthesised (lexemes value))) :
    Normalises (Phrase.parens (Phrase.map meaning phrase)) fine others := by
  rintro tokens _ ⟨opening, closing, inner, rfl, hopening, hclosing, value, hvalue, rfl⟩
  exact h.parens.map meaning hfine hothers
    ⟨value, ⟨opening, closing, inner, rfl, hopening, hclosing, hvalue⟩, rfl⟩

end Phrase

/-! ### Types -/

theorem normalises_word (text : String) :
    Normalises (word text) (fun _ ↦ True) fun _ ↦ [.keyword text] :=
  .single (fun _ _ _ _ ↦ trivial) fun _ ↦ List.forall_mem_singleton.mpr (by simp [Lexeme.IsPlain])

theorem normalises_valType :
    Normalises Derivation.valType (fun _ ↦ True) ValType.lexemes :=
  .single (fun _ _ _ _ ↦ trivial) fun _ ↦ List.forall_mem_singleton.mpr (by simp [Lexeme.IsPlain])

theorem normalises_elemType :
    Normalises Derivation.elemType (fun _ ↦ True) ElemType.lexemes :=
  .single (fun _ _ _ _ ↦ trivial) fun _ ↦ List.forall_mem_singleton.mpr (by simp [Lexeme.IsPlain])

/-- The numbers that literals are read as fit into 32 bits. -/
theorem isUnsigned32_of_unsigned32? {literal : String} {value : Nat}
    (h : Lexeme.Number.unsigned32? literal = some value) : IsUnsigned32 value := by
  unfold Lexeme.Number.unsigned32? at h
  split at h
  · cases h
  · cases h
  · obtain ⟨-, hvalue⟩ := Option.ite_none_left_eq_some.mp h
    have hbound := of_decide_eq_true (Option.filter_eq_some_iff.mp hvalue).2
    exact ⟨Int.natCast_nonneg _, by omega⟩

theorem normalises_unsigned :
    Normalises Derivation.unsigned (fun value ↦ IsUnsigned32 value)
      fun value ↦ [.integer (toString value)] := by
  refine .single (fun token value hvalue _ ↦ ?_)
    fun _ ↦ List.forall_mem_singleton.mpr (by simp [Lexeme.IsPlain])
  unfold Token.unsigned? at hvalue
  split at hvalue
  · exact isUnsigned32_of_unsigned32? hvalue
  · cases hvalue

theorem normalises_limits :
    Normalises Derivation.limits Limits.WellFormed Limits.lexemes := by
  refine (normalises_unsigned.both isBalanced_unsigned normalises_unsigned.optional).map _ ?_ ?_
  · rintro ⟨least, greatest⟩ ⟨hleast, hgreatest⟩
    refine ⟨hleast, fun most hmost ↦ ?_⟩
    obtain ⟨value, hvalue, rfl⟩ := Option.map_eq_some_iff.mp hmost
    exact hgreatest value hvalue
  · rintro ⟨least, _ | most⟩ - <;> exact .refl _

theorem normalises_globalType :
    Normalises Derivation.globalType (fun _ ↦ True) GlobalType.lexemes := by
  exact .either (normalises_valType.map _ (fun _ _ ↦ trivial) fun _ _ ↦ .refl _)
    (((normalises_word "mut").both (isBalanced_word "mut") normalises_valType).parens_map _
      (fun _ _ ↦ trivial) fun _ _ ↦ .refl _)

theorem normalises_tableType :
    Normalises Derivation.tableType (·.limits.WellFormed) TableType.lexemes :=
  (normalises_limits.both isBalanced_limits normalises_elemType).map _ (fun _ h ↦ h.1)
    fun _ _ ↦ .refl _

theorem normalises_memoryType :
    Normalises Derivation.memoryType (·.limits.WellFormed) MemoryType.lexemes := by
  refine (normalises_limits.both isBalanced_limits (normalises_word "shared").optional).map _
    (fun _ h ↦ h.1) ?_
  rintro ⟨limits, _ | shared⟩ - <;> exact .refl _

/-! ### Names and references -/

theorem normalises_id : Normalises Derivation.id Id.WellFormed Id.lexemes := by
  refine .single (fun token id hid hscannable ↦ ?_)
    fun _ ↦ List.forall_mem_singleton.mpr (by simp [Lexeme.IsPlain])
  rw [Token.id?_eq_some_iff.mp hid] at hscannable
  exact hscannable

theorem normalises_index : Normalises Derivation.index Index.WellFormed Index.lexemes := by
  refine .single (fun token index hindex hscannable ↦ ?_) fun index ↦ ?_
  · obtain ⟨lexeme, span⟩ := token
    cases lexeme with
    | integer literal =>
      obtain ⟨_, hnumber, rfl⟩ := Option.map_eq_some_iff.mp hindex
      obtain ⟨value, hvalue, hcast⟩ := Option.bind_eq_some_iff.mp hnumber
      cases hcast
      exact isUnsigned32_of_unsigned32? hvalue
    | id name =>
      cases hindex
      exact hscannable
    | _ => cases hindex
  · obtain ⟨reference, span⟩ := index
    cases reference <;> exact List.forall_mem_singleton.mpr (by simp [Lexeme.IsPlain])

theorem normalises_displayName :
    Normalises Derivation.displayName (fun _ ↦ True) DisplayName.lexemes := by
  rintro _ name ⟨opening, head, text, closing, rfl, hopening, hhead, htext, hclosing, -⟩ -
  refine ⟨trivial, ?_⟩
  rw [lexemesOf_cons, lexemesOf_cons, lexemesOf_cons, lexemesOf_cons, hopening, hhead, htext,
    hclosing]
  exact .refl _

/-! ### Signatures -/

theorem normalises_namedParam :
    Normalises Derivation.namedParam Param.WellFormed fun param ↦
      Id.optionalLexemes param.id ++ (DisplayName.optionalLexemes param.name ++ param.ty.lexemes) :=
  ((normalises_id.optional.both isBalanced_id.optional (normalises_displayName.optional.both
    isBalanced_displayName.optional normalises_valType)).map _ (fun _ h ↦ h.1)
      fun _ _ ↦ .refl _).only _

theorem normalises_group (allowsNames : Bool) :
    Normalises (Derivation.group allowsNames) (fun group ↦ ∀ param ∈ group.params, param.WellFormed)
      SignatureGroup.lexemes := by
  have htypes (word : String) := (normalises_word word).both (isBalanced_word word)
    (normalises_valType.many isBalanced_valType)
  refine .either ((htypes "param").parens_map _ ?_ fun _ _ ↦ .refl _) (.either (.only _ ?_)
    ((htypes "result").parens_map _ ?_ fun _ _ ↦ .refl _))
  · rintro ⟨_, types⟩ - param hparam
    obtain ⟨ty, -, rfl⟩ := List.mem_map.mp hparam
    exact fun id hid ↦ (nomatch hid)
  · refine ((normalises_word "param").both (isBalanced_word "param")
      normalises_namedParam).parens_map _ ?_ ?_
    · rintro ⟨_, param⟩ ⟨-, hparam⟩
      exact List.forall_mem_singleton.mpr hparam
    · rintro ⟨_, param⟩ -
      simp only [SignatureGroup.lexemes, List.cons_append, List.append_assoc]
      exact .refl _
  · exact fun _ _ _ hparam ↦ (List.not_mem_nil hparam).elim

theorem normalises_signature (allowsNames : Bool) :
    Normalises (Derivation.signature allowsNames) FunctionType.WellFormed FunctionType.lexemes := by
  refine ((((normalises_group allowsNames).many (isBalanced_group allowsNames)).only _).map _ ?_ ?_)
  · intro groups hgroups param hparam
    obtain ⟨group, hgroup, hmem⟩ := List.mem_flatMap.mp hparam
    exact hgroups group hgroup param hmem
  · exact fun groups _ ↦ noDeeper_groups groups

theorem normalises_functionType :
    Normalises (parens Derivation.functionType) FunctionType.WellFormed fun ty ↦
      parenthesised (.keyword "func" :: ty.lexemes) :=
  ((normalises_word "func").both (isBalanced_word "func") (normalises_signature true)).parens_map _
    (fun _ h ↦ h.2) fun _ _ ↦ .refl _

theorem normalises_typeUse (allowsNames : Bool) :
    Normalises (Derivation.typeUse allowsNames) TypeUse.WellFormed TypeUse.lexemes := by
  have hindex : Normalises (parens (Phrase.map Prod.snd (both (word "type") Derivation.index)))
      Index.WellFormed fun index ↦ parenthesised (.keyword "type" :: index.lexemes) :=
    ((normalises_word "type").both (isBalanced_word "type") normalises_index).parens_map _
      (fun _ h ↦ h.2) fun _ _ ↦ .refl _
  have hbalanced := (((isBalanced_word "type").both isBalanced_index).map Prod.snd).parens.optional
  exact (hindex.optional.both hbalanced (normalises_signature allowsNames)).map _ (fun _ h ↦ h)
    fun _ _ ↦ .refl _

/-! ### Modules -/

/-- What a kind of field declares. -/
theorem FieldKind.normalises_phrase (kind : FieldKind) :
    Normalises kind.phrase
      (fun declared ↦ declared.WellFormed ∧ declared.keyword = kind.word) Declaration.lexemes := by
  cases kind with
  | type =>
    exact normalises_functionType.map _ (fun _ h ↦ ⟨h, rfl⟩) fun _ _ ↦ .refl _
  | global =>
    exact normalises_globalType.map _ (fun _ h ↦ ⟨h, rfl⟩) fun _ _ ↦ .refl _
  | table =>
    exact normalises_tableType.map _ (fun _ h ↦ ⟨h, rfl⟩) fun _ _ ↦ .refl _
  | memory =>
    exact normalises_memoryType.map _ (fun _ h ↦ ⟨h, rfl⟩) fun _ _ ↦ .refl _
  | func =>
    exact (normalises_typeUse true).map _ (fun _ h ↦ ⟨h, rfl⟩) fun _ _ ↦ .refl _

/-- A field can be written, and nests no deeper. -/
theorem normalises_field : Normalises (parens Derivation.field) Field.WellFormed Field.lexemes := by
  rintro tokens found ⟨opening, closing, inner, rfl, hopening, hclosing, hfield⟩
  obtain ⟨kind, hkind⟩ := (field_iff_exists_kind inner found).mp hfield
  refine ((normalises_word kind.word).both (isBalanced_word kind.word)
    (normalises_id.optional.both isBalanced_id.optional kind.normalises_phrase)).parens_map _ ?_ ?_
      ⟨opening, closing, inner, rfl, hopening, hclosing, hkind⟩
  · exact fun _ h ↦ ⟨h.2.1, h.2.2.1⟩
  · rintro ⟨span, id, declared⟩ ⟨-, -, -, hword⟩
    simp only [Field.lexemes, hword, List.cons_append, List.nil_append]
    exact .refl _

/-- Assumes: a source can hold the lexemes. A module that tokens denote can be written, and nests no
deeper than they do, also if it is written without the parentheses that they stand in. -/
theorem normalises_module (span : Span) :
    Normalises Derivation.module (fun parts ↦ (TypeModule.mk parts.1 parts.2 span).WellFormed)
      fun parts ↦ (TypeModule.mk parts.1 parts.2 span).lexemes := by
  have hfields := normalises_field.many isBalanced_field.parens
  refine .either (((normalises_word "module").both (isBalanced_word "module")
    (normalises_id.optional.both isBalanced_id.optional hfields)).parens_map _ (fun _ h ↦ h.2) ?_)
    (hfields.map _ (fun _ h ↦ ⟨fun _ hid ↦ (nomatch hid), h⟩) fun _ _ ↦ .refl _)
  rintro ⟨place, _ | id, fields⟩ ⟨-, -, hwellFormed⟩
  · have hword : Lexeme.Balanced [.keyword "module"] := .plain (by simp [Lexeme.IsPlain])
    have hbalanced : Lexeme.Balanced (fields.flatMap Field.lexemes) :=
      Writes.balanced (.many fun field hfield ↦ writes_field (hwellFormed field hfield))
        isBalanced_field.parens.many
    exact (hword.noDeeper_append _).trans (hword.append hbalanced).noDeeper_parenthesised
  · exact .refl _

end WatTypes.Grammar
