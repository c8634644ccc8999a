import WatTypes.Proofs.Acceptance.Signature
import WatTypes.Proofs.Reading.Module

/-!
# Accepting modules

Each kind of field accepts what it declares at the end of a group, and a module is accepted where
the input ends behind it (`accepts_moduleParts`).
-/

set_option autoImplicit false
set_option relaxedAutoImplicit false

namespace WatTypes

namespace Grammar

open Rule Phrase

/-! ### Fields -/

namespace FieldKind

/-- The rule of each kind accepts what it declares at the end of a group. -/
theorem accepts_rule (kind : FieldKind) :
    Accepts kind.rule kind.phrase fun there ↦ there.isGroupEnd = true := by
  cases kind with
  | type =>
    exact (accepts_functionType.before fun there ↦
      Cursor.isGroupEnd_of_closing).parens.anywhere.map Declaration.type
  | global => exact accepts_globalType.anywhere.map Declaration.global
  | table => exact accepts_tableType.anywhere.map Declaration.table
  | memory => exact accepts_memoryType.map Declaration.memory
  | func => exact (accepts_typeUse true).map Declaration.func

end FieldKind

/-- Where a parenthesis opens no identifier shows. -/
theorem shows_id_of_opening {here : Cursor} (h : here.current.lexeme = .opening) :
    here.shows 0 .id = false := by
  rw [Cursor.current] at h
  simp [Cursor.shows, Token.id?, h]

/-- Limits do not start with an identifier. -/
theorem starts_limits : Starts Derivation.limits fun here ↦ here.shows 0 .id = false := by
  rintro _ _ here there
    ⟨⟨least, greatest⟩, ⟨left, right, rfl, ⟨⟨lexeme, span⟩, rfl, hleast⟩, -⟩, rfl⟩
    hpasses
  have hfirst : here.tokenAt 0 = ⟨lexeme, span⟩ := hpasses.current_eq
  cases lexeme with
  | integer literal => simp [Cursor.shows, hfirst, Token.id?]
  | _ => cases hleast

/-- What a field declares does not start with an identifier. -/
theorem shows_id_of_declaration (kind : FieldKind) {taken : List Token} {declared : Declaration}
    {here there : Cursor} (hdeclared : kind.phrase taken declared)
    (hpasses : Cursor.Passes taken here there) (hend : there.isGroupEnd = true) :
    here.shows 0 .id = false := by
  cases kind with
  | type =>
    obtain ⟨func, hfunc, rfl⟩ := hdeclared
    exact shows_id_of_opening (starts_parens _ hfunc hpasses)
  | global =>
    obtain ⟨ty, hfixed | hmutable, rfl⟩ := hdeclared
    · obtain ⟨valType, hty, -⟩ := hfixed
      obtain ⟨text, hlexeme⟩ := starts_valType hty hpasses
      exact Cursor.shows_of_keyword hlexeme fun word ↦ by simp
    · exact shows_id_of_opening (starts_parens _ hmutable hpasses)
  | table =>
    obtain ⟨ty, ⟨parts, ⟨left, right, rfl, hlimits, -⟩, rfl⟩, rfl⟩ := hdeclared
    obtain ⟨middle, hleft, -⟩ := hpasses.split
    exact starts_limits hlimits hleft
  | memory =>
    obtain ⟨ty, ⟨parts, ⟨left, right, rfl, hlimits, -⟩, rfl⟩, rfl⟩ := hdeclared
    obtain ⟨middle, hleft, -⟩ := hpasses.split
    exact starts_limits hlimits hleft
  | func =>
    obtain ⟨use, ⟨⟨index | index, func⟩, ⟨left, right, rfl, hindex, hfunc⟩, rfl⟩, rfl⟩ := hdeclared
    · cases hindex
      rw [List.nil_append] at hpasses
      rcases isGroupEnd_or_opening_of_signature hfunc hpasses hend with hhere | ⟨hopening, -⟩
      · exact Cursor.shows_of_isGroupEnd hhere _
      · exact shows_id_of_opening hopening
    · obtain ⟨middle, hleft, -⟩ := hpasses.split
      exact shows_id_of_opening (starts_parens _ hindex hleft)

/-- The rule of fields of one kind accepts one at the end of a group. -/
theorem accepts_fieldOf (kind : FieldKind) :
    Accepts (Grammar.fieldOf kind.word kind.rule) (Derivation.fieldOf kind.word kind.phrase)
      fun there ↦ there.isGroupEnd = true := by
  refine ((accepts_keyword kind.word).bind_anywhere fun span ↦ accepts_optionalId.both
    (fun id declared ↦ (⟨id, declared, span⟩ : Field)) kind.accepts_rule
    fun taken declared here _ ↦ shows_id_of_declaration kind).narrow ?_
  rintro tokens field ⟨⟨span, id, declared⟩, ⟨before, inside, rfl, hword, hinside⟩, rfl⟩
  exact ⟨before, inside, span, rfl, hword, (id, declared), hinside, rfl⟩

/-- The rule of a field accepts one at the end of a group. -/
theorem accepts_field :
    Accepts Grammar.field Derivation.field fun there ↦ there.isGroupEnd = true := by
  intro taken field here there hfield hpasses hend
  obtain ⟨kind, parts, hparts, rfl⟩ := (field_iff_exists_kind taken field).mp hfield
  have hshows : here.shows 0 (.keyword kind.word) = true := by
    obtain ⟨before, inside, rfl, hword, -⟩ := hparts
    obtain ⟨middle, hleft, -⟩ := hpasses.split
    exact shows_keyword_iff.mpr (starts_word _ hword hleft)
  rw [field_eq_of_shows hshows]
  exact accepts_fieldOf kind ⟨parts, hparts, rfl⟩ hpasses hend

/-! ### Modules -/

/-- The rule of a field in its parentheses accepts one. -/
theorem accepts_parens_field :
    Accepts (parens Grammar.field) (Phrase.parens Derivation.field) anything :=
  (accepts_field.before fun _ ↦ Cursor.isGroupEnd_of_closing).parens

/-- The rule of fields accepts them at the end of a group. -/
theorem accepts_fields : Accepts Grammar.fields Derivation.fields
    fun there ↦ there.isGroupEnd = true := by
  refine accepts_parens_field.untilGroupEnd ?_ fun found ↦ not_parens_nil found
  intro taken field here there hfield hpasses
  simp [Cursor.isGroupEnd, starts_parens _ hfield hpasses]

/-- A field opens no module. -/
theorem starts_field :
    Starts (Phrase.parens Derivation.field) fun here ↦
      here.opensWith (.keyword "module") = false := by
  rintro taken field here there ⟨opening, closing, inner, rfl, hopening, hclosing, hfield⟩ hpasses
  obtain ⟨kind, parts, hparts, rfl⟩ := (field_iff_exists_kind inner field).mp hfield
  have hopens := starts_group kind.word _
    ⟨opening, closing, inner, rfl, hopening, hclosing, hparts⟩ hpasses
  rw [hopens]
  cases kind <;> decide

/-- The rule of the inside of a module in parentheses accepts it. -/
theorem accepts_wrappedModule : Accepts wrappedModule
    (andThen (word "module") fun _ ↦ Phrase.map (fun pair ↦ (pair.1, pair.2))
      (Phrase.both (Phrase.optional Derivation.id) Derivation.fields))
    fun there ↦ there.isGroupEnd = true := by
  refine (accepts_keyword "module").bind_anywhere fun _ ↦
    accepts_optionalId.both Prod.mk accepts_fields ?_
  intro taken fields here there hfields hpasses hend
  cases hfields with
  | nil =>
    rw [hpasses.eq_of_same (.refl here)] at hend
    exact Cursor.shows_of_isGroupEnd hend _
  | cons hfirst hothers =>
    obtain ⟨middle, hleft, -⟩ := hpasses.split
    exact shows_id_of_opening (starts_parens _ hfirst hleft)

/-- The rule of the parts of a module accepts them at the end of the input. -/
theorem accepts_moduleParts :
    Accepts moduleParts Derivation.module fun there ↦ there.isAtEnd = true := by
  rintro taken parts here there (⟨opening, closing, inner, rfl, hopening, hclosing,
    ⟨span, found⟩, hinner, rfl⟩ | ⟨fields, hfields, rfl⟩) hpasses hstop
  · have hopens : here.opensWith (.keyword "module") = true := by
      simp [starts_group _ _ ⟨opening, closing, inner, rfl, hopening, hclosing, hinner⟩ hpasses]
    obtain ⟨before, inside, rfl, hword, hinside⟩ := hinner
    rw [moduleParts, if_pos hopens]
    exact (accepts_wrappedModule.before fun there ↦
      Cursor.isGroupEnd_of_closing).parens ⟨opening, closing, _, rfl, hopening, hclosing,
        before, inside, span, rfl, hword, found, hinside, rfl⟩ hpasses trivial
  · have hend : there.isGroupEnd = true := by
      rw [Cursor.isAtEnd] at hstop
      rw [Cursor.isGroupEnd, hstop, Bool.or_true]
    have hopens : here.opensWith (.keyword "module") = false := by
      cases hfields with
      | nil =>
        rw [hpasses.eq_of_same (.refl here)] at hend
        exact Cursor.opensWith_of_isGroupEnd hend _
      | cons hfirst hothers =>
        obtain ⟨middle, hleft, -⟩ := Cursor.Passes.split hpasses
        exact starts_field hfirst hleft
    rw [moduleParts, if_neg (by simp [hopens])]
    exact (accepts_fields.map fun fields ↦ ((none : Option Id), fields)) ⟨fields, hfields, rfl⟩
      hpasses hend

end Grammar

end WatTypes
