import WatTypes.Proofs.Acceptance
import WatTypes.Proofs.Reading.Types

/-!
# Accepting units and types

The rules of units and of types accept the phrases that the grammar as a relation gives them. A
rule that ends in an element that may be missing needs to know that the element does not show
behind it; at the end of a group none does (`shows_of_isGroupEnd`).
-/

set_option autoImplicit false
set_option relaxedAutoImplicit false

namespace WatTypes

/-! ### What shows -/

namespace Cursor

/-- At the end of a group no element shows. -/
theorem shows_of_isGroupEnd {here : Cursor} (h : here.isGroupEnd = true) (element : Element) :
    here.shows 0 element = false := by
  simp only [isGroupEnd, current, Bool.or_eq_true, beq_iff_eq] at h
  rcases h with h | h <;> cases element <;>
    simp [shows, h, Token.keyword?, Token.unsigned?, Token.id?, Token.string?, Token.index?]

/-- Where an element shows the group has not ended. -/
theorem isGroupEnd_of_shows {here : Cursor} {element : Element}
    (h : here.shows 0 element = true) : here.isGroupEnd = false := by
  cases hend : here.isGroupEnd with
  | false => rfl
  | true =>
    rw [shows_of_isGroupEnd hend] at h
    cases h

/-- At the end of a group no group opens. -/
theorem opensWith_of_isGroupEnd {here : Cursor} (h : here.isGroupEnd = true) (element : Element) :
    here.opensWith element = false := by
  simp only [isGroupEnd, Bool.or_eq_true, beq_iff_eq] at h
  rcases h with h | h <;> simp [opensWith, h]

/-- A closing parenthesis ends a group. -/
theorem isGroupEnd_of_closing {here : Cursor} (h : here.current.lexeme = .closing) :
    here.isGroupEnd = true := by
  simp [isGroupEnd, h]

/-- Where a reserved word stands nothing but reserved words shows. -/
theorem shows_of_keyword {here : Cursor} {text : String} (h : here.current.lexeme = .keyword text)
    {element : Element} (helement : ∀ word, element ≠ .keyword word) :
    here.shows 0 element = false := by
  rw [current] at h
  cases element with
  | keyword word => exact absurd rfl (helement word)
  | _ => simp [shows, h, Token.unsigned?, Token.id?, Token.string?, Token.index?]

end Cursor

namespace Grammar

open Rule Phrase

variable {α β : Type}

/-- A reserved word starts with itself. -/
theorem starts_word (text : String) :
    Starts (word text) fun here ↦ here.current.lexeme = .keyword text := by
  rintro _ span here there ⟨token, rfl, hmeaning⟩ hpasses
  rw [hpasses.current_eq, Token.keyword?_eq_some_iff.mp hmeaning]

/-- A value type starts with a reserved word. -/
theorem starts_valType :
    Starts Derivation.valType fun here ↦ ∃ text, here.current.lexeme = .keyword text := by
  rintro _ ty here there ⟨⟨lexeme, span⟩, rfl, hmeaning⟩ hpasses
  rw [hpasses.current_eq]
  cases lexeme with
  | keyword text => exact ⟨text, rfl⟩
  | _ => cases hmeaning

/-- A value type does not start at the end of a group. -/
theorem starts_valType_inside :
    Starts Derivation.valType fun here ↦ here.isGroupEnd = false := by
  intro taken ty here there hty hpasses
  obtain ⟨text, hlexeme⟩ := starts_valType hty hpasses
  simp [Cursor.isGroupEnd, hlexeme]

/-- An element type starts with a reserved word. -/
theorem starts_elemType :
    Starts Derivation.elemType fun here ↦ ∃ text, here.current.lexeme = .keyword text := by
  rintro _ ty here there ⟨⟨lexeme, span⟩, rfl, hmeaning⟩ hpasses
  rw [hpasses.current_eq]
  cases lexeme with
  | keyword text => exact ⟨text, rfl⟩
  | _ => cases hmeaning

/-- A group that starts with a reserved word opens with it and with no other. -/
theorem starts_group (text : String) (phrase : Phrase α) :
    Starts (Phrase.parens (Phrase.both (word text) phrase)) fun here ↦
      ∀ other, here.opensWith (.keyword other) = decide (text = other) := by
  rintro _ value here there ⟨opening, closing, _, rfl, hopening, -, _, right, rfl,
    ⟨token, rfl, hmeaning⟩, -⟩ hpasses other
  have hfirst : here.current = opening := hpasses.current_eq
  have hsecond : here.tokenAt 1 = token := hpasses.tokenAt_one_eq
  simp [Cursor.opensWith, Cursor.shows, hfirst, hsecond, hopening,
    Token.keyword?_eq_some_iff.mp hmeaning, Token.keyword?, apply_ite]

/-- A group whose meaning is made from that of its inside starts as it does. -/
theorem starts_group_map (text : String) (phrase : Phrase α) (meaning : Span × α → β) :
    Starts (Phrase.parens (Phrase.map meaning (Phrase.both (word text) phrase))) fun here ↦
      ∀ other, here.opensWith (.keyword other) = decide (text = other) := by
  rintro _ value here there ⟨opening, closing, inner, rfl, hopening, hclosing, found, hinner, -⟩
    hpasses
  exact starts_group text phrase ⟨opening, closing, inner, rfl, hopening, hclosing, hinner⟩ hpasses

/-! ### Elements that may be missing -/

/-- The rule of an identifier that may be missing accepts one. -/
theorem accepts_optionalId : Accepts Element.id.readOptional (Phrase.optional Derivation.id)
    fun there ↦ there.shows 0 .id = false :=
  accepts_readOptional (accepts_token _ _) (starts_single Token.id?)

/-- The rule of an unsigned integer that may be missing accepts one. -/
theorem accepts_optionalUnsigned :
    Accepts Element.unsigned.readOptional (Phrase.optional Derivation.unsigned)
      fun there ↦ there.shows 0 .unsigned = false :=
  accepts_readOptional (accepts_token _ _) (starts_single Token.unsigned?)

/-- The rule of a reserved word that may be missing accepts it. -/
theorem accepts_optionalKeyword (text : String) :
    Accepts (Element.keyword text).readOptional (Phrase.optional (word text))
      fun there ↦ there.shows 0 (.keyword text) = false :=
  accepts_readOptional (accepts_keyword text) (starts_single (Token.keyword? text))

/-- A display name shows where it stands. -/
theorem starts_displayName :
    Starts Derivation.displayName fun here ↦ here.shows 0 .displayName = true := by
  rintro _ name here there ⟨opening, head, text, closing, rfl, hopening, hhead, -⟩ hpasses
  have hfirst : here.tokenAt 0 = opening := hpasses.current_eq
  have hsecond : here.tokenAt 1 = head := hpasses.tokenAt_one_eq
  simp [Cursor.shows, hfirst, hsecond, hopening, hhead]

/-- The rule of a display name accepts one. -/
theorem accepts_displayName : Accepts Rule.displayName Derivation.displayName anything := by
  intro taken name here there hname hpasses _
  have hheaded : Accepts headedName _ anything := (accepts_token _ _).bind_anywhere fun span ↦
    (accepts_token _ _).bind_anywhere fun _ ↦ (accepts_token _ Token.string?).bind_anywhere
      fun text ↦ (accepts_token _ _).map fun _ ↦ DisplayName.mk text span
  have hshows := starts_displayName hname hpasses
  rw [displayName_eq_headedName hshows]
  refine hheaded ?_ hpasses trivial
  obtain ⟨opening, head, text, closing, rfl, hopening, hhead, htext, hclosing, hspan⟩ := hname
  exact ⟨[opening], [head, text, closing], name.span, rfl,
    ⟨opening, rfl, (if_pos hopening).trans (congrArg some hspan)⟩,
    [head], [text, closing], (), rfl, ⟨head, rfl, if_pos hhead⟩,
    [text], [closing], name.name, rfl, ⟨text, rfl, Token.string?_eq_some_iff.mpr htext⟩,
    (), ⟨closing, rfl, if_pos hclosing⟩, rfl⟩

/-- The rule of a display name that may be missing accepts one. -/
theorem accepts_optionalName :
    Accepts Element.displayName.readOptional (Phrase.optional Derivation.displayName)
      fun there ↦ there.shows 0 .displayName = false :=
  accepts_readOptional accepts_displayName starts_displayName

/-! ### Types -/

/-- The rule of limits accepts them where no integer follows. -/
theorem accepts_limits : Accepts Grammar.limits Derivation.limits
    fun there ↦ there.shows 0 .unsigned = false :=
  Accepts.both_anywhere
    (fun (least : Nat) (greatest : Option Nat) ↦
      (⟨least, greatest.map fun (value : Nat) ↦ (value : Int)⟩ : Limits))
    (accepts_token _ _) accepts_optionalUnsigned

/-- The rule of value types accepts one. -/
theorem accepts_valType : Accepts Grammar.valType Derivation.valType anything :=
  accepts_token _ _

/-- The rule of references accepts one. -/
theorem accepts_index : Accepts Rule.index Derivation.index anything :=
  accepts_token _ _

/-- The rule of the types of tables accepts one. -/
theorem accepts_tableType : Accepts Grammar.tableType Derivation.tableType anything := by
  refine accepts_limits.both TableType.mk (accepts_token _ _)
    fun taken ty here there hty hpasses _ ↦ ?_
  obtain ⟨text, hlexeme⟩ := starts_elemType hty hpasses
  exact Cursor.shows_of_keyword hlexeme fun word ↦ by simp

/-- The rule of the types of memories accepts one at the end of a group. -/
theorem accepts_memoryType : Accepts Grammar.memoryType Derivation.memoryType
    fun there ↦ there.isGroupEnd = true := by
  refine Accepts.both (fun bounds (shared : Option Span) ↦ (⟨bounds, shared.isSome⟩ : MemoryType))
    accepts_limits ((accepts_optionalKeyword "shared").before fun there hend ↦
      Cursor.shows_of_isGroupEnd hend _) ?_
  rintro taken (_ | span) here there hshared hpasses hend
  · cases hshared
    rw [hpasses.eq_of_same (.refl here)] at hend
    exact Cursor.shows_of_isGroupEnd hend _
  · exact Cursor.shows_of_keyword (starts_word "shared" hshared hpasses) fun word ↦ by simp

/-- The rule of the types of globals accepts one. -/
theorem accepts_globalType : Accepts Grammar.globalType Derivation.globalType anything := by
  have hmutable := (Accepts.both (fun _ ty ↦ (⟨ty, true⟩ : GlobalType)) (accepts_keyword "mut")
    accepts_valType.anywhere fun _ _ _ _ _ _ _ ↦ trivial).parens
  rintro taken value here there (hfixed | hmut) hpasses _
  · have hopens : here.opensWith (.keyword "mut") = false := by
      obtain ⟨ty, hty, -⟩ := hfixed
      obtain ⟨text, hlexeme⟩ := starts_valType hty hpasses
      simp [Cursor.opensWith, hlexeme]
    rw [← (accepts_valType.map fun ty ↦ (⟨ty, false⟩ : GlobalType)) hfixed hpasses trivial]
    simp only [Grammar.globalType, Step.bind_apply, Step.state_apply, hopens, Bool.false_eq_true,
      if_false]
  · have hopens : here.opensWith (.keyword "mut") = true := by
      simp [starts_group_map _ _ _ hmut hpasses]
    rw [← hmutable hmut hpasses trivial]
    simp only [Grammar.globalType, Step.bind_apply, Step.state_apply, hopens, if_true]

end Grammar

end WatTypes
