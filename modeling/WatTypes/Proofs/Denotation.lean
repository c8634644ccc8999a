import WatTypes.Proofs.Layout.Canonical
import WatTypes.Proofs.Reading.Module
import WatTypes.Tree.Erasure

/-!
# What canonical lexemes denote

Tokens of the lexemes that a tree is written with are a phrase, and the phrase denotes the tree up
to the spans of the tokens. This is shown for each kind of phrase from its parts (`Phrase.Writes`),
up to modules (`writes_module`).
-/

set_option autoImplicit false
set_option relaxedAutoImplicit false

namespace WatTypes.Grammar

open Phrase
open Lexeme (parenthesised)

/-! ### Phrases of given lexemes -/

namespace Phrase

variable {α β γ ι : Type}

/-- All tokens of the given lexemes are a phrase that denotes something with a property. -/
def Writes (phrase : Phrase α) (lexemes : List Lexeme) (good : α → Prop) : Prop :=
  ∀ tokens, lexemesOf tokens = lexemes → ∃ value, phrase tokens value ∧ good value

/-- A single token. -/
theorem Writes.single {meaning : Token → Option α} {lexeme : Lexeme} {good : α → Prop}
    (h : ∀ span, ∃ value, meaning ⟨lexeme, span⟩ = some value ∧ good value) :
    Writes (single meaning) [lexeme] good := by
  intro tokens htokens
  obtain ⟨⟨found, span⟩, rfl, rfl⟩ := List.map_eq_singleton_iff.mp htokens
  obtain ⟨value, hvalue, hgood⟩ := h span
  exact ⟨value, ⟨_, rfl, hvalue⟩, hgood⟩

/-- Two phrases one after the other. -/
theorem Writes.both {first : Phrase α} {second : Phrase β} {before behind : List Lexeme}
    {good : α → Prop} {fine : β → Prop} (hfirst : Writes first before good)
    (hsecond : Writes second behind fine) :
    Writes (both first second) (before ++ behind) fun pair ↦ good pair.1 ∧ fine pair.2 := by
  intro tokens htokens
  obtain ⟨left, right, rfl, hleft, hright⟩ := List.map_eq_append_iff.mp htokens
  obtain ⟨value, hvalue, hgood⟩ := hfirst left hleft
  obtain ⟨found, hfound, hfine⟩ := hsecond right hright
  exact ⟨(value, found), ⟨left, right, rfl, hvalue, hfound⟩, hgood, hfine⟩

/-- A phrase that is missing. -/
theorem Writes.optional_none (phrase : Phrase α) : Writes (optional phrase) [] (· = none) :=
  fun _ htokens ↦ ⟨none, List.map_eq_nil_iff.mp htokens, rfl⟩

/-- A phrase that may be missing and is there. -/
theorem Writes.optional_some {phrase : Phrase α} {lexemes : List Lexeme} {good : α → Prop}
    (h : Writes phrase lexemes good) :
    Writes (optional phrase) lexemes fun found ↦ ∃ value, found = some value ∧ good value := by
  intro tokens htokens
  obtain ⟨value, hvalue, hgood⟩ := h tokens htokens
  exact ⟨some value, hvalue, value, rfl, hgood⟩

/-- A phrase with another meaning. -/
theorem Writes.map {phrase : Phrase α} {lexemes : List Lexeme} {good : α → Prop}
    {fine : β → Prop} (meaning : α → β) (h : Writes phrase lexemes good)
    (hmeaning : ∀ value, good value → fine (meaning value)) :
    Writes (Phrase.map meaning phrase) lexemes fine := by
  intro tokens htokens
  obtain ⟨value, hvalue, hgood⟩ := h tokens htokens
  exact ⟨meaning value, ⟨value, hvalue, rfl⟩, hmeaning value hgood⟩

/-- A phrase of a wider kind. -/
theorem Writes.mono {phrase wider : Phrase α} {lexemes : List Lexeme} {good : α → Prop}
    (h : Writes phrase lexemes good)
    (hwider : ∀ tokens value, phrase tokens value → good value → wider tokens value) :
    Writes wider lexemes good := by
  intro tokens htokens
  obtain ⟨value, hvalue, hgood⟩ := h tokens htokens
  exact ⟨value, hwider tokens value hvalue hgood, hgood⟩

/-- A phrase in parentheses. -/
theorem Writes.parens {phrase : Phrase α} {lexemes : List Lexeme} {good : α → Prop}
    (h : Writes phrase lexemes good) : Writes (parens phrase) (parenthesised lexemes) good := by
  intro tokens htokens
  obtain ⟨opening, behind, rfl, hopening, hbehind⟩ := List.map_eq_cons_iff.mp htokens
  obtain ⟨inner, last, rfl, hinner, hlast⟩ := List.map_eq_append_iff.mp hbehind
  obtain ⟨closing, rfl, hclosing⟩ := List.map_eq_singleton_iff.mp hlast
  obtain ⟨value, hvalue, hgood⟩ := h inner hinner
  exact ⟨value, ⟨opening, closing, inner, rfl, hopening, hclosing, hvalue⟩, hgood⟩

/-- Any number of phrases, each for an item. -/
theorem Writes.many {phrase : Phrase α} {items : List ι} {lexemes : ι → List Lexeme}
    {view : α → γ} {target : ι → γ}
    (h : ∀ item ∈ items, Writes phrase (lexemes item) fun value ↦ view value = target item) :
    Writes (Many phrase) (items.flatMap lexemes) fun values ↦
      values.map view = items.map target := by
  induction items with
  | nil =>
    intro tokens htokens
    rw [List.map_eq_nil_iff.mp htokens]
    exact ⟨[], .nil, rfl⟩
  | cons item others ih =>
    intro tokens htokens
    rw [List.flatMap_cons] at htokens
    obtain ⟨left, right, rfl, hleft, hright⟩ := List.map_eq_append_iff.mp htokens
    obtain ⟨value, hvalue, hview⟩ := h item List.mem_cons_self left hleft
    obtain ⟨values, hvalues, hviews⟩ :=
      ih (fun other hother ↦ h other (List.mem_cons_of_mem item hother)) right hright
    exact ⟨value :: values, .cons hvalue hvalues, by simp only [List.map_cons, hview, hviews]⟩

/-- What a balanced phrase is written with is balanced. -/
theorem Writes.balanced {phrase : Phrase α} {lexemes : List Lexeme} {good : α → Prop}
    (h : Writes phrase lexemes good) (hbalanced : IsBalanced phrase) :
    Lexeme.Balanced lexemes := by
  have hlexemes : lexemesOf (lexemes.map bareToken) = lexemes := by
    simp [lexemesOf, Function.comp_def, bareToken]
  obtain ⟨value, hvalue, -⟩ := h _ hlexemes
  exact hlexemes ▸ hbalanced hvalue

end Phrase

/-! ### Types -/

theorem writes_word (text : String) : Writes (word text) [.keyword text] fun _ ↦ True :=
  .single fun span ↦ ⟨span, if_pos rfl, trivial⟩

theorem writes_valType (ty : ValType) : Writes Derivation.valType ty.lexemes (· = ty) :=
  .single fun _ ↦ ⟨ty, ValType.ofKeyword?_keyword ty, rfl⟩

theorem writes_elemType (ty : ElemType) : Writes Derivation.elemType ty.lexemes (· = ty) :=
  .single fun _ ↦ ⟨ty, ElemType.ofKeyword?_keyword ty, rfl⟩

theorem writes_unsigned {value : Int} (h : IsUnsigned32 value) :
    Writes Derivation.unsigned [.integer (toString value)] fun found ↦ (found : Int) = value := by
  obtain ⟨hleast, hgreatest⟩ := h
  obtain ⟨magnitude, rfl⟩ := Int.eq_ofNat_of_zero_le hleast
  exact .single fun span ↦ ⟨magnitude, Lexeme.Number.unsigned32?_toString (by omega), rfl⟩

theorem writes_limits {limits : Limits} (h : limits.WellFormed) :
    Writes Derivation.limits limits.lexemes (· = limits) := by
  obtain ⟨least, greatest⟩ := limits
  obtain ⟨hleast, hgreatest⟩ := h
  cases greatest with
  | none =>
    refine ((writes_unsigned hleast).both (.optional_none _)).map _ ?_
    rintro ⟨found, _⟩ ⟨rfl, rfl⟩
    rfl
  | some most =>
    have hmost := writes_unsigned (hgreatest most rfl)
    refine ((writes_unsigned hleast).both hmost.optional_some).map _ ?_
    rintro ⟨found, _⟩ ⟨rfl, value, rfl, rfl⟩
    rfl

theorem writes_globalType (ty : GlobalType) :
    Writes Derivation.globalType ty.lexemes (· = ty) := by
  obtain ⟨valType, isMutable⟩ := ty
  cases isMutable with
  | false =>
    refine ((writes_valType valType).map (⟨·, false⟩) ?_).mono fun _ _ h _ ↦ .inl h
    rintro _ rfl
    rfl
  | true =>
    refine (((writes_word "mut").both (writes_valType valType)).map _ ?_).parens.mono
      fun _ _ h _ ↦ .inr h
    rintro ⟨_, _⟩ ⟨-, rfl⟩
    rfl

theorem writes_tableType {ty : TableType} (h : ty.limits.WellFormed) :
    Writes Derivation.tableType ty.lexemes (· = ty) := by
  refine ((writes_limits h).both (writes_elemType ty.elem)).map _ ?_
  rintro ⟨_, _⟩ ⟨rfl, rfl⟩
  rfl

theorem writes_memoryType {ty : MemoryType} (h : ty.limits.WellFormed) :
    Writes Derivation.memoryType ty.lexemes (· = ty) := by
  obtain ⟨limits, isShared⟩ := ty
  cases isShared with
  | false =>
    refine ((writes_limits h).both (.optional_none _)).map _ ?_
    rintro ⟨_, _⟩ ⟨rfl, rfl⟩
    rfl
  | true =>
    refine ((writes_limits h).both (writes_word "shared").optional_some).map _ ?_
    rintro ⟨_, _⟩ ⟨rfl, span, rfl, -⟩
    rfl

/-! ### Names and references -/

theorem writes_optionalId (id : Option Id) :
    Writes (optional Derivation.id) (Id.optionalLexemes id) fun found ↦
      found.map Id.withoutSpan = id.map Id.withoutSpan := by
  cases id with
  | none =>
    intro tokens htokens
    exact ⟨none, List.map_eq_nil_iff.mp htokens, rfl⟩
  | some id =>
    have hid : Writes Derivation.id id.lexemes (·.withoutSpan = id.withoutSpan) :=
      .single fun span ↦ ⟨⟨id.name, span⟩, rfl, rfl⟩
    intro tokens htokens
    obtain ⟨found, hfound, hname⟩ := hid tokens htokens
    exact ⟨some found, hfound, congrArg some hname⟩

theorem writes_displayName (name : DisplayName) :
    Writes Derivation.displayName name.lexemes (·.withoutSpan = name.withoutSpan) := by
  intro tokens htokens
  obtain ⟨opening, others, rfl, hopening, hothers⟩ := List.map_eq_cons_iff.mp htokens
  obtain ⟨head, others, rfl, hhead, hothers⟩ := List.map_eq_cons_iff.mp hothers
  obtain ⟨text, others, rfl, htext, hothers⟩ := List.map_eq_cons_iff.mp hothers
  obtain ⟨closing, rfl, hclosing⟩ := List.map_eq_singleton_iff.mp hothers
  exact ⟨⟨name.name, opening.span⟩,
    ⟨opening, head, text, closing, rfl, hopening, hhead, htext, hclosing, rfl⟩, rfl⟩

theorem writes_optionalName (name : Option DisplayName) :
    Writes (optional Derivation.displayName) (DisplayName.optionalLexemes name) fun found ↦
      found.map DisplayName.withoutSpan = name.map DisplayName.withoutSpan := by
  intro tokens htokens
  cases name with
  | none => exact ⟨none, List.map_eq_nil_iff.mp htokens, rfl⟩
  | some name =>
    obtain ⟨found, hfound, hname⟩ := writes_displayName name tokens htokens
    exact ⟨some found, hfound, congrArg some hname⟩

theorem writes_index {index : Index} (h : index.WellFormed) :
    Writes Derivation.index index.lexemes (·.withoutSpan = index.withoutSpan) := by
  obtain ⟨reference, span⟩ := index
  cases reference with
  | number value =>
    obtain ⟨hleast, hgreatest⟩ := h
    obtain ⟨magnitude, rfl⟩ := Int.eq_ofNat_of_zero_le hleast
    have hvalue : Lexeme.Number.unsigned32? (toString magnitude) = some magnitude :=
      Lexeme.Number.unsigned32?_toString (by omega)
    have hindex (place : Span) : Token.index? ⟨.integer (toString magnitude), place⟩ =
        some ⟨.number magnitude, place⟩ := by
      simp only [Token.index?, hvalue]
      rfl
    exact .single fun place ↦ ⟨⟨.number magnitude, place⟩, hindex place, rfl⟩
  | symbol name => exact .single fun place ↦ ⟨⟨.symbol name, place⟩, rfl, rfl⟩

/-! ### Signatures -/

theorem writes_types (types : List ValType) :
    Writes (Many Derivation.valType) (types.flatMap ValType.lexemes) (· = types) := by
  have hmany : Writes (Many Derivation.valType) (types.flatMap ValType.lexemes) fun values ↦
      values.map (fun ty ↦ ty) = types.map fun ty ↦ ty := .many fun ty _ ↦ writes_valType ty
  simpa only [List.map_id'] using hmany

theorem writes_namedParam {param : Param} (h : param.isNamed = true) :
    Writes Derivation.namedParam (Id.optionalLexemes param.id ++
      (DisplayName.optionalLexemes param.name ++ param.ty.lexemes))
      (·.withoutSpans = param.withoutSpans) := by
  refine (((writes_optionalId param.id).both
    ((writes_optionalName param.name).both (writes_valType param.ty))).map
      (fun parts ↦ (⟨parts.2.2, parts.1, parts.2.1⟩ : Param)) ?_).mono ?_
  · rintro ⟨id, name, _⟩ ⟨hid, hname, rfl⟩
    simp only at hid hname
    simp only [Param.withoutSpans, hid, hname]
  · intro tokens found hfound hsame
    have hnamed : found.isNamed = true := by
      rw [← Param.isNamed_withoutSpans, hsame, Param.isNamed_withoutSpans, h]
    exact ⟨hfound, hnamed⟩

/-- Tokens of the lexemes of a group are that group, where names may stand. -/
theorem writes_group {group : SignatureGroup}
    (h : ∀ param, group = .named param → param.isNamed = true) :
    Writes (Derivation.group true) group.lexemes (·.withoutSpans = group.withoutSpans) := by
  cases group with
  | anonymous types =>
    refine (((writes_word "param").both (writes_types types)).map _ ?_).parens.mono
      fun _ _ hgroup _ ↦ .inl hgroup
    rintro ⟨_, _⟩ ⟨-, rfl⟩
    rfl
  | named param =>
    have hlexemes : (SignatureGroup.named param).lexemes = parenthesised
        ([.keyword "param"] ++ (Id.optionalLexemes param.id ++
          (DisplayName.optionalLexemes param.name ++ param.ty.lexemes))) := by
      simp [SignatureGroup.lexemes]
    rw [hlexemes]
    refine (((writes_word "param").both (writes_namedParam (h param rfl))).map _ ?_).parens.mono
      fun _ _ hgroup _ ↦ .inr (.inl ⟨hgroup, rfl⟩)
    rintro ⟨_, found⟩ ⟨-, hfound⟩
    exact congrArg SignatureGroup.named hfound
  | results types =>
    refine (((writes_word "result").both (writes_types types)).map _ ?_).parens.mono
      fun _ _ hgroup _ ↦ .inr (.inr hgroup)
    rintro ⟨_, _⟩ ⟨-, rfl⟩
    rfl

/-- Only parameters with a name are written in groups of their own. -/
theorem isNamed_of_mem_ofParams {params : List Param} {param : Param}
    (h : SignatureGroup.named param ∈ SignatureGroup.ofParams params) : param.isNamed = true := by
  have hcons (ty : ValType) (groups : List SignatureGroup)
      (hmem : SignatureGroup.named param ∈ SignatureGroup.consAnonymous ty groups) :
      SignatureGroup.named param ∈ groups := by
    revert hmem
    fun_cases SignatureGroup.consAnonymous ty groups <;> simp
  induction params with
  | nil => exact (List.not_mem_nil h).elim
  | cons first others ih =>
    rw [SignatureGroup.ofParams] at h
    split at h
    · rename_i hnamed
      rcases List.mem_cons.mp h with heq | hmem
      · cases heq
        exact hnamed
      · exact ih hmem
    · exact ih (hcons _ _ h)

theorem isNamed_of_mem_groups {ty : FunctionType} {param : Param}
    (h : SignatureGroup.named param ∈ ty.groups) : param.isNamed = true := by
  rcases List.mem_append.mp h with hparams | hresults
  · exact isNamed_of_mem_ofParams hparams
  · rw [SignatureGroup.ofResults] at hresults
    split at hresults <;> simp at hresults

/-- The groups that a signature is written in are in order. -/
theorem inOrder_groups (ty : FunctionType) : SignatureGroup.InOrder ty.groups := by
  have hnone (group : SignatureGroup) (hgroup : group ∈ SignatureGroup.ofParams ty.params) :
      group.resultTypes = [] :=
    List.flatMap_eq_nil_iff.mp (SignatureGroup.flatMap_resultTypes_ofParams ty.params) group hgroup
  have hresults : SignatureGroup.InOrder (SignatureGroup.ofResults ty.results) := by
    rw [SignatureGroup.ofResults]
    split
    · exact .nil
    · exact List.pairwise_singleton _ _
  have hparams : SignatureGroup.InOrder (SignatureGroup.ofParams ty.params) :=
    List.pairwise_iff_forall_sublist.mpr fun hsub hsome ↦
      absurd (hnone _ (hsub.subset List.mem_cons_self)) hsome
  exact List.pairwise_append.mpr ⟨hparams, hresults, fun first hfirst second _ hsome ↦
    absurd (hnone first hfirst) hsome⟩

theorem resultTypes_withoutSpans (group : SignatureGroup) :
    group.withoutSpans.resultTypes = group.resultTypes := by
  cases group <;> rfl

theorem isResults_withoutSpans (group : SignatureGroup) :
    group.withoutSpans.isResults = group.isResults := by
  cases group <;> rfl

theorem params_withoutSpans (group : SignatureGroup) :
    group.withoutSpans.params = group.params.map Param.withoutSpans := by
  cases group with
  | anonymous types => simp [SignatureGroup.withoutSpans, SignatureGroup.params,
      Param.withoutSpans, Param.anonymous]
  | named param => rfl
  | results types => rfl

/-- The order of groups does not depend on spans. -/
theorem inOrder_withoutSpans (groups : List SignatureGroup) :
    SignatureGroup.InOrder (groups.map SignatureGroup.withoutSpans) ↔
      SignatureGroup.InOrder groups := by
  simp [SignatureGroup.InOrder, List.pairwise_map, resultTypes_withoutSpans,
    isResults_withoutSpans]

/-- A signature without spans is what its groups without spans denote. -/
theorem ofGroups_withoutSpans (groups : List SignatureGroup) :
    (FunctionType.ofGroups groups).withoutSpans =
      FunctionType.ofGroups (groups.map SignatureGroup.withoutSpans) := by
  simp [FunctionType.ofGroups, FunctionType.withoutSpans, List.map_flatMap, List.flatMap_map,
    params_withoutSpans, resultTypes_withoutSpans]

theorem writes_signature (ty : FunctionType) :
    Writes (Derivation.signature true) ty.lexemes (·.withoutSpans = ty.withoutSpans) := by
  have hgroups : Writes (Many (Derivation.group true)) ty.lexemes fun found ↦
      found.map SignatureGroup.withoutSpans = ty.groups.map SignatureGroup.withoutSpans :=
    .many fun group hgroup ↦ writes_group fun param hparam ↦ isNamed_of_mem_groups (hparam ▸ hgroup)
  refine (hgroups.mono ?_).map FunctionType.ofGroups ?_
  · intro tokens found hfound hsame
    refine ⟨hfound, ?_⟩
    rw [← inOrder_withoutSpans, hsame, inOrder_withoutSpans]
    exact inOrder_groups ty
  · intro found hsame
    rw [ofGroups_withoutSpans, hsame, ← ofGroups_withoutSpans, ty.ofGroups_groups]

theorem writes_functionType (ty : FunctionType) :
    Writes Derivation.functionType (.keyword "func" :: ty.lexemes)
      (·.withoutSpans = ty.withoutSpans) :=
  ((writes_word "func").both (writes_signature ty)).map Prod.snd fun _ h ↦ h.2

theorem writes_typeUse {use : TypeUse} (h : use.WellFormed) :
    Writes (Derivation.typeUse true) use.lexemes (·.withoutSpans = use.withoutSpans) := by
  obtain ⟨index, func⟩ := use
  obtain ⟨hindex, -⟩ := h
  cases index with
  | none =>
    refine ((Writes.optional_none _).both (writes_signature func)).map
      (fun parts ↦ (⟨parts.1, parts.2⟩ : TypeUse)) ?_
    rintro ⟨_, found⟩ ⟨rfl, hfound⟩
    exact congrArg (TypeUse.mk none) hfound
  | some index =>
    have hreference : Writes (Phrase.map Prod.snd (both (word "type") Derivation.index))
        (.keyword "type" :: index.lexemes) (·.withoutSpan = index.withoutSpan) :=
      ((writes_word "type").both (writes_index (hindex index rfl))).map Prod.snd fun _ h ↦ h.2
    refine (hreference.parens.optional_some.both (writes_signature func)).map
      (fun parts ↦ (⟨parts.1, parts.2⟩ : TypeUse)) ?_
    rintro ⟨_, found⟩ ⟨⟨place, rfl, hplace⟩, hfound⟩
    simp only at hfound
    simp only [TypeUse.withoutSpans, Option.map_some, hplace, hfound]

/-! ### Modules -/

/-- The kind of field that makes a declaration. -/
def FieldKind.ofDeclaration : Declaration → FieldKind
  | .type _ => .type
  | .global _ => .global
  | .table _ => .table
  | .memory _ => .memory
  | .func _ => .func

theorem FieldKind.word_ofDeclaration (declaration : Declaration) :
    (FieldKind.ofDeclaration declaration).word = declaration.keyword := by
  cases declaration <;> rfl

theorem writes_declaration {declaration : Declaration} (h : declaration.WellFormed) :
    Writes (FieldKind.ofDeclaration declaration).phrase declaration.lexemes
      (·.withoutSpans = declaration.withoutSpans) := by
  cases declaration with
  | type func =>
    refine (writes_functionType func).parens.map Declaration.type ?_
    exact fun found hfound ↦ congrArg Declaration.type hfound
  | global ty =>
    refine (writes_globalType ty).map Declaration.global ?_
    rintro _ rfl
    rfl
  | table ty =>
    refine (writes_tableType h).map Declaration.table ?_
    rintro _ rfl
    rfl
  | memory ty =>
    refine (writes_memoryType h).map Declaration.memory ?_
    rintro _ rfl
    rfl
  | func use =>
    refine (writes_typeUse h).map Declaration.func ?_
    exact fun found hfound ↦ congrArg Declaration.func hfound

/-- Tokens of the lexemes of a field that can be written are a field, the same up to spans. -/
theorem writes_field {field : Field} (h : field.WellFormed) :
    Writes (Phrase.parens Derivation.field) field.lexemes
      (·.withoutSpans = field.withoutSpans) := by
  have hlexemes : field.lexemes = parenthesised ([.keyword field.declaration.keyword] ++
      (Id.optionalLexemes field.id ++ field.declaration.lexemes)) := by
    simp [Field.lexemes]
  rw [hlexemes]
  refine Writes.parens (((((writes_word _).both ((writes_optionalId field.id).both
    (writes_declaration h.2))).map (fun parts ↦ (⟨parts.2.1, parts.2.2, parts.1⟩ : Field))
      ?_)).mono ?_)
  · rintro ⟨span, id, declared⟩ ⟨-, hid, hdeclared⟩
    simp only at hid hdeclared
    simp only [Field.withoutSpans, hid, hdeclared]
  · intro tokens found hfound _
    rw [← FieldKind.word_ofDeclaration] at hfound
    exact (field_iff_exists_kind tokens found).mpr ⟨_, hfound⟩

/-- Tokens of the lexemes of a module that can be written are a module, the same up to spans. -/
theorem writes_module {m : TypeModule} (h : m.WellFormed) :
    Writes Derivation.module m.lexemes fun parts ↦
      parts.1.map Id.withoutSpan = m.id.map Id.withoutSpan ∧
        parts.2.map Field.withoutSpans = m.fields.map Field.withoutSpans := by
  obtain ⟨id, fields, span⟩ := m
  obtain ⟨-, hfields⟩ := h
  have hwritten : Writes Derivation.fields (fields.flatMap Field.lexemes) fun found ↦
      found.map Field.withoutSpans = fields.map Field.withoutSpans :=
    .many fun field hfield ↦ writes_field (hfields field hfield)
  cases id with
  | none =>
    refine (hwritten.map (fun fields ↦ ((none : Option Id), fields)) ?_).mono fun _ _ h _ ↦ .inr h
    exact fun found hfound ↦ ⟨rfl, hfound⟩
  | some id =>
    refine (((writes_word "module").both ((writes_optionalId (some id)).both hwritten)).map
      Prod.snd ?_).parens.mono fun _ _ h _ ↦ .inl h
    exact fun parts hparts ↦ hparts.2

end WatTypes.Grammar
