import WatTypes.Proofs.Denotation
import WatTypes.Proofs.Parsing

/-!
# Meaning does not depend on spans

A phrase ignores spans (`Phrase.IgnoresSpans`) if all tokens of the same lexemes are such a phrase
as well, and denote the same in a view of what is denoted: the view without spans. Every way to put
phrases together keeps this, and so it holds of the phrases of the grammar, up to modules
(`ignoresSpans_module`). Hence tokens of the same lexemes are both read, as modules that are the
same up to spans, or neither of them is (`sameUpToSpans_ofTokens`).
-/

set_option autoImplicit false
set_option relaxedAutoImplicit false

namespace WatTypes

namespace Grammar

open Phrase

namespace Phrase

variable {α β γ δ : Type} {phrase : Phrase α} {view : α → γ}

/-- All tokens of the lexemes of a phrase are such a phrase, and denote the same in a view. -/
def IgnoresSpans (phrase : Phrase α) (view : α → γ) : Prop :=
  ∀ ⦃tokens value⦄, phrase tokens value →
    Writes phrase (lexemesOf tokens) fun found ↦ view found = view value

/-- Assumes: a lexeme has the same meaning in the view at all places. A single token. -/
theorem IgnoresSpans.single {meaning : Token → Option α}
    (h : ∀ lexeme span value, meaning ⟨lexeme, span⟩ = some value →
      ∀ other, ∃ found, meaning ⟨lexeme, other⟩ = some found ∧ view found = view value) :
    IgnoresSpans (single meaning) view := by
  rintro _ value ⟨⟨lexeme, span⟩, rfl, hmeaning⟩
  exact .single (h lexeme span value hmeaning)

/-- Two phrases one after the other. -/
theorem IgnoresSpans.both {second : Phrase β} {look : β → δ} (hfirst : IgnoresSpans phrase view)
    (hsecond : IgnoresSpans second look) :
    IgnoresSpans (both phrase second) fun pair ↦ (view pair.1, look pair.2) := by
  rintro _ pair ⟨left, right, rfl, hleft, hright⟩ tokens htokens
  rw [lexemesOf_append] at htokens
  obtain ⟨found, hfound, hview, hlook⟩ := (hfirst hleft).both (hsecond hright) tokens htokens
  exact ⟨found, hfound, Prod.ext hview hlook⟩

/-- A phrase that may be missing. -/
theorem IgnoresSpans.optional (h : IgnoresSpans phrase view) :
    IgnoresSpans (optional phrase) (Option.map view) := by
  intro before value hbefore tokens htokens
  cases value with
  | none =>
    subst hbefore
    exact ⟨none, List.map_eq_nil_iff.mp htokens, rfl⟩
  | some present =>
    obtain ⟨found, hfound, hview⟩ := h hbefore tokens htokens
    exact ⟨some found, hfound, congrArg some hview⟩

/-- Any number of phrases. -/
theorem IgnoresSpans.many (h : IgnoresSpans phrase view) :
    IgnoresSpans (Many phrase) (List.map view) := by
  intro before values hmany
  induction hmany with
  | nil =>
    intro tokens htokens
    rw [List.map_eq_nil_iff.mp htokens]
    exact ⟨[], .nil, rfl⟩
  | cons hfirst _ ih =>
    intro tokens htokens
    rw [lexemesOf_append] at htokens
    obtain ⟨left, right, rfl, hleft, hright⟩ := List.map_eq_append_iff.mp htokens
    obtain ⟨value, hvalue, hview⟩ := h hfirst left hleft
    obtain ⟨values, hvalues, hviews⟩ := ih right hright
    exact ⟨value :: values, .cons hvalue hvalues, by simp only [List.map_cons, hview, hviews]⟩

/-- Assumes: meanings made from what is the same in the view are the same. A phrase with another
meaning. -/
theorem IgnoresSpans.map {look : β → δ} (meaning : α → β) (h : IgnoresSpans phrase view)
    (hmeaning : ∀ value found, view found = view value →
      look (meaning found) = look (meaning value)) :
    IgnoresSpans (map meaning phrase) look := by
  rintro before _ ⟨value, hvalue, rfl⟩
  exact (h hvalue).map meaning (hmeaning value)

/-- One phrase or another one. -/
theorem IgnoresSpans.either {second : Phrase α} (hfirst : IgnoresSpans phrase view)
    (hsecond : IgnoresSpans second view) : IgnoresSpans (either phrase second) view := by
  rintro before value (hvalue | hvalue)
  · exact (hfirst hvalue).mono fun _ _ h _ ↦ .inl h
  · exact (hsecond hvalue).mono fun _ _ h _ ↦ .inr h

/-- Assumes: what is the same in the view is allowed alike. Some phrases of a kind. -/
theorem IgnoresSpans.only {allowed : α → Prop} (h : IgnoresSpans phrase view)
    (hallowed : ∀ value found, view found = view value → allowed value → allowed found) :
    IgnoresSpans (only allowed phrase) view := by
  rintro before value ⟨hvalue, hfine⟩
  exact (h hvalue).mono fun tokens found hfound hview ↦ ⟨hfound, hallowed value found hview hfine⟩

/-- A phrase in parentheses. -/
theorem IgnoresSpans.parens (h : IgnoresSpans phrase view) : IgnoresSpans (parens phrase) view := by
  rintro _ value ⟨opening, closing, inner, rfl, hopening, hclosing, hinner⟩
  rw [lexemesOf_parens inner hopening hclosing]
  exact (h hinner).parens

end Phrase

/-! ### Types -/

/-- A lexeme with a meaning that is the same at all places. -/
theorem ignoresSpans_single {α : Type} {meaning : Token → Option α}
    (h : ∀ lexeme span other, meaning ⟨lexeme, span⟩ = meaning ⟨lexeme, other⟩) :
    IgnoresSpans (single meaning) fun value ↦ value :=
  .single fun lexeme span value hvalue other ↦ ⟨value, h lexeme span other ▸ hvalue, rfl⟩

theorem ignoresSpans_word (text : String) : IgnoresSpans (word text) fun _ ↦ () := by
  refine .single fun lexeme span value hvalue other ↦ ⟨other, ?_, rfl⟩
  exact if_pos (Option.ite_none_right_eq_some.mp hvalue).1

theorem ignoresSpans_valType : IgnoresSpans Derivation.valType fun ty ↦ ty :=
  ignoresSpans_single fun _ _ _ ↦ rfl

theorem ignoresSpans_elemType : IgnoresSpans Derivation.elemType fun ty ↦ ty :=
  ignoresSpans_single fun _ _ _ ↦ rfl

theorem ignoresSpans_unsigned : IgnoresSpans Derivation.unsigned fun value ↦ value :=
  ignoresSpans_single fun _ _ _ ↦ rfl

theorem ignoresSpans_limits : IgnoresSpans Derivation.limits fun limits ↦ limits := by
  refine (ignoresSpans_unsigned.both ignoresSpans_unsigned.optional).map _ ?_
  rintro ⟨least, greatest⟩ ⟨other, most⟩ h
  simp only [Option.map_id', Prod.mk.injEq] at h
  rw [h.1, h.2]

theorem ignoresSpans_globalType : IgnoresSpans Derivation.globalType fun ty ↦ ty := by
  refine (ignoresSpans_valType.map _ fun value found h ↦ by rw [h]).either
    (((ignoresSpans_word "mut").both ignoresSpans_valType).map _ ?_).parens
  rintro ⟨_, ty⟩ ⟨_, other⟩ h
  cases h
  rfl

theorem ignoresSpans_tableType : IgnoresSpans Derivation.tableType fun ty ↦ ty := by
  refine (ignoresSpans_limits.both ignoresSpans_elemType).map _ ?_
  rintro ⟨limits, elem⟩ ⟨bounds, other⟩ h
  cases h
  rfl

theorem ignoresSpans_memoryType : IgnoresSpans Derivation.memoryType fun ty ↦ ty := by
  refine (ignoresSpans_limits.both (ignoresSpans_word "shared").optional).map _ ?_
  rintro ⟨limits, shared⟩ ⟨bounds, other⟩ h
  obtain ⟨hlimits, hshared⟩ := Prod.mk.inj h
  have hsome := congrArg Option.isSome hshared
  simp only [Option.isSome_map] at hsome
  simp only at hlimits
  simp only [hlimits, hsome]

/-! ### Names and references -/

theorem ignoresSpans_id : IgnoresSpans Derivation.id Id.withoutSpan := by
  refine .single fun lexeme span id hid other ↦ ⟨⟨id.name, other⟩, ?_, rfl⟩
  rw [Token.id?_eq_some_iff, Token.mk.injEq] at hid ⊢
  exact ⟨hid.1, rfl⟩

theorem ignoresSpans_index : IgnoresSpans Derivation.index Index.withoutSpan := by
  refine .single fun lexeme span index hindex other ↦ ⟨⟨index.reference, other⟩, ?_, rfl⟩
  cases lexeme with
  | integer literal =>
    obtain ⟨value, hvalue, rfl⟩ := Option.map_eq_some_iff.mp hindex
    exact Option.map_eq_some_iff.mpr ⟨value, hvalue, rfl⟩
  | id name =>
    cases hindex
    rfl
  | _ => cases hindex

theorem ignoresSpans_displayName :
    IgnoresSpans Derivation.displayName DisplayName.withoutSpan := by
  rintro _ name ⟨opening, head, text, closing, rfl, hopening, hhead, htext, hclosing, -⟩
  have hlexemes : lexemesOf [opening, head, text, closing] = name.lexemes := by
    simp [DisplayName.lexemes, Lexeme.parenthesised, hopening, hhead, htext, hclosing]
  rw [hlexemes]
  exact writes_displayName name

/-! ### Signatures -/

theorem ignoresSpans_types : IgnoresSpans (Many Derivation.valType) fun types ↦ types := by
  have hmany := ignoresSpans_valType.many
  simpa only [IgnoresSpans, List.map_id'] using hmany

theorem ignoresSpans_namedParam : IgnoresSpans Derivation.namedParam Param.withoutSpans := by
  refine ((ignoresSpans_id.optional.both
    (ignoresSpans_displayName.optional.both ignoresSpans_valType)).map _ ?_).only ?_
  · rintro ⟨id, name, ty⟩ ⟨otherId, otherName, other⟩ h
    simp only [Prod.mk.injEq] at h
    obtain ⟨hid, hname, rfl⟩ := h
    simp only [Param.withoutSpans, hid, hname]
  · intro param found hsame hnamed
    rw [← Param.isNamed_withoutSpans, hsame, Param.isNamed_withoutSpans, hnamed]

theorem ignoresSpans_group (allowsNames : Bool) :
    IgnoresSpans (Derivation.group allowsNames) SignatureGroup.withoutSpans := by
  refine .either (((ignoresSpans_word "param").both ignoresSpans_types).map _ ?_).parens
    (.either (.only (((ignoresSpans_word "param").both ignoresSpans_namedParam).map _ ?_).parens
      fun _ _ _ h ↦ h) (((ignoresSpans_word "result").both ignoresSpans_types).map _ ?_).parens)
  · rintro ⟨_, types⟩ ⟨_, others⟩ h
    cases h
    rfl
  · rintro ⟨_, param⟩ ⟨_, found⟩ h
    exact congrArg SignatureGroup.named (Prod.mk.inj h).2
  · rintro ⟨_, types⟩ ⟨_, others⟩ h
    cases h
    rfl

theorem ignoresSpans_signature (allowsNames : Bool) :
    IgnoresSpans (Derivation.signature allowsNames) FunctionType.withoutSpans := by
  refine ((ignoresSpans_group allowsNames).many.only ?_).map _ ?_
  · intro groups found hsame horder
    rw [← inOrder_withoutSpans, hsame, inOrder_withoutSpans]
    exact horder
  · intro groups found hsame
    rw [ofGroups_withoutSpans, hsame, ← ofGroups_withoutSpans]

theorem ignoresSpans_functionType :
    IgnoresSpans Derivation.functionType FunctionType.withoutSpans :=
  ((ignoresSpans_word "func").both (ignoresSpans_signature true)).map _
    fun _ _ h ↦ (Prod.mk.inj h).2

theorem ignoresSpans_typeUse (allowsNames : Bool) :
    IgnoresSpans (Derivation.typeUse allowsNames) TypeUse.withoutSpans := by
  have hreference : IgnoresSpans (parens (Phrase.map Prod.snd (both (word "type")
      Derivation.index))) Index.withoutSpan :=
    (((ignoresSpans_word "type").both ignoresSpans_index).map _
      fun _ _ h ↦ (Prod.mk.inj h).2).parens
  refine (hreference.optional.both (ignoresSpans_signature allowsNames)).map _ ?_
  rintro ⟨index, func⟩ ⟨other, found⟩ h
  obtain ⟨hindex, hfunc⟩ := Prod.mk.inj h
  simp only at hindex hfunc
  simp only [TypeUse.withoutSpans, hindex, hfunc]

/-! ### Modules -/

/-- What a kind of field declares. -/
theorem FieldKind.ignoresSpans_phrase (kind : FieldKind) :
    IgnoresSpans kind.phrase Declaration.withoutSpans := by
  cases kind with
  | type => exact ignoresSpans_functionType.parens.map _ fun _ _ h ↦ congrArg Declaration.type h
  | global => exact ignoresSpans_globalType.map _ fun _ _ h ↦ by rw [h]
  | table => exact ignoresSpans_tableType.map _ fun _ _ h ↦ by rw [h]
  | memory => exact ignoresSpans_memoryType.map _ fun _ _ h ↦ by rw [h]
  | func => exact (ignoresSpans_typeUse true).map _ fun _ _ h ↦ congrArg Declaration.func h

theorem ignoresSpans_field : IgnoresSpans Derivation.field Field.withoutSpans := by
  have hfield (kind : FieldKind) :
      IgnoresSpans (Derivation.fieldOf kind.word kind.phrase) Field.withoutSpans := by
    refine ((ignoresSpans_word kind.word).both
      (ignoresSpans_id.optional.both kind.ignoresSpans_phrase)).map _ ?_
    rintro ⟨_, id, declared⟩ ⟨_, other, found⟩ h
    simp only [Prod.mk.injEq, true_and] at h
    simp only [Field.withoutSpans, h.1, h.2]
  exact (hfield .type).either ((hfield .global).either ((hfield .table).either
    ((hfield .memory).either (hfield .func))))

/-- Modules ignore spans. -/
theorem ignoresSpans_module : IgnoresSpans Derivation.module fun parts ↦
    (parts.1.map Id.withoutSpan, parts.2.map Field.withoutSpans) := by
  have hfields := ignoresSpans_field.parens.many
  refine (((ignoresSpans_word "module").both (ignoresSpans_id.optional.both hfields)).map _
    fun _ _ h ↦ (Prod.mk.inj h).2).parens.either (hfields.map _ ?_)
  exact fun fields found h ↦ congrArg (Prod.mk none) h

end Grammar

/-! ### Tokens -/

open Grammar

/-- Tokens of the same lexemes as those of a module are a module that is the same up to spans. -/
theorem ofTokens_eq_ok_of_lexemesOf_eq {tokens others : TokenList} (hends : tokens.EndsOnce)
    (hsame : lexemesOf others.body = lexemesOf tokens.body) {m : TypeModule}
    (h : TypeModule.ofTokens tokens = .ok m) :
    ∃ found, TypeModule.ofTokens others = .ok found ∧ found.withoutSpans = m.withoutSpans := by
  obtain ⟨hmodule, -⟩ := module_of_ofTokens hends h
  obtain ⟨parts, hparts, hview⟩ := ignoresSpans_module hmodule others.body hsame
  obtain ⟨hid, hfields⟩ := Prod.mk.inj hview
  refine ⟨_, ofTokens_of_module hparts, ?_⟩
  simp only at hid hfields
  simp only [TypeModule.withoutSpans, hid, hfields]

/-- Two outcomes are modules that are the same up to spans, or neither of them is a module. -/
def SameUpToSpans {ε : Type} : Except ε TypeModule → Except ε TypeModule → Prop
  | .ok m, .ok found => found.withoutSpans = m.withoutSpans
  | .error _, .error _ => True
  | _, _ => False

/-- Whether tokens are a module, and which one up to spans, is up to their lexemes. -/
theorem sameUpToSpans_ofTokens {tokens others : TokenList} (hends : tokens.EndsOnce)
    (hothers : others.EndsOnce) (hsame : lexemesOf others.body = lexemesOf tokens.body) :
    SameUpToSpans (TypeModule.ofTokens tokens) (TypeModule.ofTokens others) := by
  cases hread : TypeModule.ofTokens tokens with
  | ok m =>
    obtain ⟨found, hfound, hspans⟩ := ofTokens_eq_ok_of_lexemesOf_eq hends hsame hread
    rw [hfound]
    exact hspans
  | error error =>
    cases hfound : TypeModule.ofTokens others with
    | error other => trivial
    | ok found =>
      obtain ⟨m, hm, -⟩ := ofTokens_eq_ok_of_lexemesOf_eq hothers hsame.symm hfound
      rw [hread] at hm
      cases hm

end WatTypes
