import WatTypes.Canonical
import WatTypes.Outline

/-!
# Trees without their spans

Where the parts of a tree were written is of no account for what it means. Two trees mean the same
if they agree once every span is replaced by one and the same (`TypeModule.withoutSpans`). Neither
canonical text nor outlines depend on spans (`canonicalText_withoutSpans`,
`ofModule_withoutSpans`).
-/

set_option autoImplicit false
set_option relaxedAutoImplicit false

namespace WatTypes

/-- The span that takes the place of all others. -/
def Span.erased : Span := .single "" .first

/-- An identifier without its span. -/
def Id.withoutSpan (id : Id) : Id := ⟨id.name, .erased⟩

/-- A display name without its span. -/
def DisplayName.withoutSpan (name : DisplayName) : DisplayName := ⟨name.name, .erased⟩

/-- A reference without its span. -/
def Index.withoutSpan (index : Index) : Index := ⟨index.reference, .erased⟩

/-- A parameter without spans. -/
def Param.withoutSpans (param : Param) : Param :=
  ⟨param.ty, param.id.map Id.withoutSpan, param.name.map DisplayName.withoutSpan⟩

/-- A signature without spans. -/
def FunctionType.withoutSpans (ty : FunctionType) : FunctionType :=
  ⟨ty.params.map Param.withoutSpans, ty.results⟩

/-- A use of a function type without spans. -/
def TypeUse.withoutSpans (use : TypeUse) : TypeUse :=
  ⟨use.index.map Index.withoutSpan, use.func.withoutSpans⟩

/-- What a field declares, without spans. -/
def Declaration.withoutSpans : Declaration → Declaration
  | .type signature => .type signature.withoutSpans
  | .func use => .func use.withoutSpans
  | other => other

/-- A field without spans. -/
def Field.withoutSpans (field : Field) : Field :=
  ⟨field.id.map Id.withoutSpan, field.declaration.withoutSpans, .erased⟩

/-- A module without spans. -/
def TypeModule.withoutSpans (m : TypeModule) : TypeModule :=
  ⟨m.id.map Id.withoutSpan, m.fields.map Field.withoutSpans, .erased⟩

/-! ### Canonical text -/

theorem Id.optionalLexemes_withoutSpan (id : Option Id) :
    optionalLexemes (id.map withoutSpan) = optionalLexemes id := by
  cases id <;> rfl

theorem DisplayName.optionalLexemes_withoutSpan (name : Option DisplayName) :
    optionalLexemes (name.map withoutSpan) = optionalLexemes name := by
  cases name <;> rfl

theorem Param.isNamed_withoutSpans (param : Param) :
    param.withoutSpans.isNamed = param.isNamed := by
  simp [isNamed, withoutSpans]

/-- A group of a signature without spans. -/
def SignatureGroup.withoutSpans : SignatureGroup → SignatureGroup
  | .named param => .named param.withoutSpans
  | other => other

theorem SignatureGroup.lexemes_withoutSpans (group : SignatureGroup) :
    group.withoutSpans.lexemes = group.lexemes := by
  cases group <;>
    simp [withoutSpans, lexemes, Param.withoutSpans, Id.optionalLexemes_withoutSpan,
      DisplayName.optionalLexemes_withoutSpan]

theorem SignatureGroup.map_withoutSpans_consAnonymous (ty : ValType)
    (groups : List SignatureGroup) :
    (consAnonymous ty groups).map withoutSpans = consAnonymous ty (groups.map withoutSpans) := by
  rcases groups with _ | ⟨group, others⟩
  · rfl
  · cases group <;> rfl

theorem SignatureGroup.ofParams_withoutSpans (params : List Param) :
    ofParams (params.map Param.withoutSpans) = (ofParams params).map withoutSpans := by
  induction params with
  | nil => rfl
  | cons param others ih =>
    simp only [List.map_cons, ofParams, Param.isNamed_withoutSpans, ih]
    split
    · rfl
    · rw [map_withoutSpans_consAnonymous]
      rfl

theorem FunctionType.groups_withoutSpans (ty : FunctionType) :
    ty.withoutSpans.groups = ty.groups.map SignatureGroup.withoutSpans := by
  have kept : (SignatureGroup.ofResults ty.results).map SignatureGroup.withoutSpans =
      SignatureGroup.ofResults ty.results := by
    rw [SignatureGroup.ofResults]
    split <;> rfl
  simp [groups, withoutSpans, SignatureGroup.ofParams_withoutSpans, kept]

theorem FunctionType.lexemes_withoutSpans (ty : FunctionType) :
    ty.withoutSpans.lexemes = ty.lexemes := by
  simp [lexemes, groups_withoutSpans, List.flatMap_map, SignatureGroup.lexemes_withoutSpans]

theorem TypeUse.lexemes_withoutSpans (use : TypeUse) : use.withoutSpans.lexemes = use.lexemes := by
  obtain ⟨index, func⟩ := use
  cases index with
  | none => simp [lexemes, withoutSpans, FunctionType.lexemes_withoutSpans]
  | some index =>
    simp [lexemes, withoutSpans, FunctionType.lexemes_withoutSpans, Index.withoutSpan,
      Index.lexemes]

theorem Declaration.lexemes_withoutSpans (declaration : Declaration) :
    declaration.withoutSpans.lexemes = declaration.lexemes := by
  cases declaration <;>
    simp [lexemes, withoutSpans, FunctionType.lexemes_withoutSpans, TypeUse.lexemes_withoutSpans]

theorem Declaration.keyword_withoutSpans (declaration : Declaration) :
    declaration.withoutSpans.keyword = declaration.keyword := by
  cases declaration <;> rfl

theorem Field.lexemes_withoutSpans (field : Field) :
    field.withoutSpans.lexemes = field.lexemes := by
  simp [lexemes, withoutSpans, Id.optionalLexemes_withoutSpan, Declaration.lexemes_withoutSpans,
    Declaration.keyword_withoutSpans]

/-- Canonical text does not depend on spans. -/
theorem TypeModule.canonicalText_withoutSpans (indent : String) (m : TypeModule) :
    m.withoutSpans.canonicalText indent = m.canonicalText indent := by
  obtain ⟨id, fields, span⟩ := m
  cases id <;>
    simp [canonicalText, withoutSpans, Function.comp_def, Field.lexemes_withoutSpans,
      Id.withoutSpan, Id.lexemes]

/-! ### Outlines -/

namespace Outline

theorem ofParam_withoutSpans (param : Param) : ofParam param.withoutSpans = ofParam param := by
  obtain ⟨ty, id, name⟩ := param
  cases id <;> cases name <;> rfl

theorem ofFunctionType_withoutSpans (ty : FunctionType) :
    ofFunctionType ty.withoutSpans = ofFunctionType ty := by
  simp [ofFunctionType, FunctionType.withoutSpans, many, List.flatMap_map, ofParam_withoutSpans]

theorem ofTypeUse_withoutSpans (use : TypeUse) : ofTypeUse use.withoutSpans = ofTypeUse use := by
  obtain ⟨index, func⟩ := use
  cases index <;>
    simp [ofTypeUse, TypeUse.withoutSpans, ofFunctionType_withoutSpans, Index.withoutSpan, ofIndex,
      optional]

theorem ofField_withoutSpans (field : Field) : ofField field.withoutSpans = ofField field := by
  obtain ⟨id, declaration, span⟩ := field
  cases id <;> cases declaration <;>
    simp [ofField, Field.withoutSpans, Declaration.withoutSpans, ofDeclaration, kindOf,
      ofFunctionType_withoutSpans, ofTypeUse_withoutSpans, Id.withoutSpan, ofId, optional]

/-- Outlines do not depend on spans. -/
theorem ofModule_withoutSpans (m : TypeModule) : ofModule m.withoutSpans = ofModule m := by
  obtain ⟨id, fields, span⟩ := m
  cases id <;>
    simp [ofModule, TypeModule.withoutSpans, many, List.flatMap_map, ofField_withoutSpans,
      Id.withoutSpan, ofId, optional]

end Outline

end WatTypes
