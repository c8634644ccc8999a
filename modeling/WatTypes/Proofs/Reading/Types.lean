import WatTypes.Grammar.Types
import WatTypes.Proofs.Reading

/-!
# Reading units and types

The rules of single tokens, of elements that may be missing, and of types each read the kind of
phrase that the grammar as a relation gives them. A display name is read where its first two tokens
show it, and there it is read token by token (`displayName_eq_headedName`).
-/

set_option autoImplicit false
set_option relaxedAutoImplicit false

namespace WatTypes.Grammar

open Rule Phrase

/-! ### Units -/

/-- Only one reserved word shows at a time. -/
theorem shows_keyword_iff {here : Cursor} {word : String} :
    here.shows 0 (.keyword word) = true ↔ here.current.lexeme = .keyword word := by
  simp [Cursor.shows, Token.keyword?, Cursor.current]

/-- The rule of value types reads one. -/
theorem reads_valType : Reads Grammar.valType Derivation.valType := by
  refine Reads.token (fun stop ↦ rfl) ⟨bareToken (.keyword "i32"), .i32, rfl⟩ fun name hname ↦ ?_
  obtain ⟨ty, -, rfl⟩ := List.mem_map.mp hname
  exact ⟨bareToken (.keyword ty.keyword), ty, .described rfl, ValType.ofKeyword?_keyword ty⟩

/-- The rule of element types reads one. -/
theorem reads_elemType : Reads Grammar.elemType Derivation.elemType := by
  refine Reads.token (fun stop ↦ rfl) ⟨bareToken (.keyword "funcref"), .funcref, rfl⟩
    fun name hname ↦ ?_
  obtain ⟨ty, -, rfl⟩ := List.mem_map.mp hname
  exact ⟨bareToken (.keyword ty.keyword), ty, .described rfl, ElemType.ofKeyword?_keyword ty⟩

/-- The rule of unsigned integers reads one. -/
theorem reads_unsigned : Reads Rule.unsigned Derivation.unsigned := by
  have hzero : Token.unsigned? (bareToken (.integer "0")) = some 0 := by decide
  refine Reads.token (fun stop ↦ rfl) ⟨_, 0, hzero⟩ fun name hname ↦ ?_
  rw [List.mem_singleton.mp hname]
  exact ⟨_, 0, .unsigned (by rw [hzero]; rfl), hzero⟩

/-- The rule of identifiers reads one. -/
theorem reads_identifier : Reads Rule.identifier Derivation.id := by
  refine Reads.token (fun stop ↦ rfl) ⟨bareToken (.id "x"), _, rfl⟩ fun name hname ↦ ?_
  rw [List.mem_singleton.mp hname]
  exact ⟨bareToken (.id "x"), _, .id rfl, rfl⟩

/-- The rule of strings reads one. -/
theorem reads_string : Reads Rule.string (single Token.string?) := by
  refine Reads.token (fun stop ↦ rfl) ⟨bareToken (.string ""), _, rfl⟩ fun name hname ↦ ?_
  rw [List.mem_singleton.mp hname]
  exact ⟨bareToken (.string ""), _, .string rfl, rfl⟩

/-- The rule of references reads one. -/
theorem reads_index : Reads Rule.index Derivation.index := by
  have hzero : Token.unsigned? (bareToken (.integer "0")) = some 0 := by decide
  have hindex : Token.index? (bareToken (.integer "0")) =
      some ⟨.number 0, .single "" .first⟩ := by decide
  refine Reads.token (fun stop ↦ rfl) ⟨_, _, hindex⟩ fun name hname ↦ ?_
  simp only [List.mem_cons, List.not_mem_nil, or_false] at hname
  rcases hname with rfl | rfl
  · exact ⟨_, _, .unsigned (by rw [hzero]; rfl), hindex⟩
  · exact ⟨bareToken (.id "x"), _, .id rfl, rfl⟩

/-- Assumes: the rule of an element reads a phrase where the element shows. Reading the element if
it shows reads the phrase, which may be missing. -/
theorem reads_readOptional {element : Element} {phrase : Phrase element.Value}
    (h : ∀ here, here.shows 0 element = true → ReadsAt element.read phrase here) :
    Reads element.readOptional (Phrase.optional phrase) := by
  intro here
  cases hshows : here.shows 0 element with
  | true =>
    refine (((h here hshows).map some).mono ?_).of_eq fun there hagrees ↦ ?_
    · rintro tokens _ ⟨value, hvalue, rfl⟩
      exact hvalue
    · simp [Element.readOptional, hagrees.shows_eq, hshows]
  | false =>
    refine ((Reads.pure none).mono ?_ here).of_eq fun there hagrees ↦ ?_
    · rintro tokens _ ⟨rfl, rfl⟩
      rfl
    · simp [Element.readOptional, hagrees.shows_eq, hshows]

/-- The rule of an identifier that may be missing reads one. -/
theorem reads_optionalId : Reads Element.id.readOptional (Phrase.optional Derivation.id) :=
  reads_readOptional fun here _ ↦ reads_identifier here

/-- The rule of an unsigned integer that may be missing reads one. -/
theorem reads_optionalUnsigned :
    Reads Element.unsigned.readOptional (Phrase.optional Derivation.unsigned) :=
  reads_readOptional fun here _ ↦ reads_unsigned here

/-- The rule of a reserved word that may be missing reads it. -/
theorem reads_optionalKeyword (word : String) :
    Reads (Element.keyword word).readOptional (Phrase.optional (Phrase.word word)) :=
  reads_readOptional fun here _ ↦ Reads.keyword word here

/-! ### Display names -/

/-- Reads a display name token by token. -/
def headedName : Rule Cursor DisplayName := do
  let span ← token [Lexeme.opening.describe] fun found ↦
    if found.lexeme = .opening then some found.span else none
  let _ ← token [(Lexeme.annotationHead "name").describe] fun found ↦
    if found.lexeme = .annotationHead "name" then some () else none
  let name ← Rule.string
  closing
  return ⟨name, span⟩

/-- Where a display name shows, reading it and reading it token by token are the same. -/
theorem displayName_eq_headedName {here : Cursor} (h : here.shows 0 .displayName = true) :
    Rule.displayName here = headedName here := by
  obtain ⟨behind, ahead, stop⟩ := here
  have hlexemes := h
  simp only [Cursor.shows, Bool.and_eq_true, beq_iff_eq] at hlexemes
  obtain ⟨hopening, hhead⟩ := hlexemes
  rcases ahead with _ | ⟨first, _ | ⟨second, rest⟩⟩
  · cases hopening
  · cases hhead
  · change first.lexeme = .opening at hopening
    change second.lexeme = .annotationHead "name" at hhead
    simp only [Rule.displayName, headedName, Rule.parens, Rule.opening, Rule.skip, Rule.token,
      Cursor.current_cons, Cursor.advance_cons, Step.bind_apply, Step.state_apply, Step.pure_apply,
      h, hopening, hhead, if_true]
    rcases Rule.string ⟨second :: first :: behind, rest, stop⟩ with ⟨text, there⟩
    cases text with
    | error error => rfl
    | ok text =>
      rcases hclosing : closing there with ⟨closed, stop⟩
      cases closed <;> simp only [hclosing]

/-- The rule of a display name that may be missing reads one. -/
theorem reads_optionalName :
    Reads Element.displayName.readOptional (Phrase.optional Derivation.displayName) := by
  refine reads_readOptional fun here hshows ↦ ?_
  have hopening : Reads (token [Lexeme.opening.describe] fun found ↦
      if found.lexeme = .opening then some found.span else none) _ :=
    Reads.token (fun stop ↦ rfl) ⟨bareToken .opening, _, rfl⟩ fun name hname ↦ by
      rw [List.mem_singleton.mp hname]
      exact ⟨bareToken .opening, _, .described rfl, rfl⟩
  have hhead := Reads.lexeme (.annotationHead "name") (by decide) rfl
  have hclosing := Reads.lexeme .closing (by decide) rfl
  have hread : Reads headedName _ := hopening.bind fun span ↦ hhead.bind fun _ ↦
    reads_string.bind fun name ↦ hclosing.bind fun _ ↦ Reads.pure (DisplayName.mk name span)
  refine (hread.mono ?_ here).of_eq fun there hagrees ↦
    displayName_eq_headedName (by rw [hagrees.shows_eq, hshows])
  rintro tokens found ⟨_, _, span, rfl, ⟨opening, rfl, hopen⟩, _, _, _, rfl, ⟨head, rfl, hname⟩,
    _, _, text, rfl, ⟨quoted, rfl, htext⟩, _, _, _, rfl, ⟨closing, rfl, hclose⟩, rfl, rfl⟩
  obtain ⟨hopening, hspan⟩ := Option.ite_none_right_eq_some.mp hopen
  exact ⟨opening, head, quoted, closing, rfl, hopening, (Option.ite_none_right_eq_some.mp hname).1,
    Token.string?_eq_some_iff.mp htext, (Option.ite_none_right_eq_some.mp hclose).1,
    Option.some.inj hspan⟩

/-! ### Types -/

/-- The rule of limits reads them. -/
theorem reads_limits : Reads Grammar.limits Derivation.limits :=
  Reads.both (fun (least : Nat) (greatest : Option Nat) ↦
    (⟨least, greatest.map fun (value : Nat) ↦ (value : Int)⟩ : Limits))
    reads_unsigned reads_optionalUnsigned

/-- The rule of the types of tables reads one. -/
theorem reads_tableType : Reads Grammar.tableType Derivation.tableType :=
  reads_limits.both TableType.mk reads_elemType

/-- The rule of the types of memories reads one. -/
theorem reads_memoryType : Reads Grammar.memoryType Derivation.memoryType :=
  Reads.both (fun bounds (shared : Option Span) ↦ (⟨bounds, shared.isSome⟩ : MemoryType))
    reads_limits (reads_optionalKeyword "shared")

/-- The rule of the types of globals reads one. -/
theorem reads_globalType : Reads Grammar.globalType Derivation.globalType := by
  have hmutable := ((Reads.keyword "mut").both (fun _ ty ↦ (⟨ty, true⟩ : GlobalType))
    reads_valType).parens
  have hfixed := reads_valType.map fun ty ↦ (⟨ty, false⟩ : GlobalType)
  intro here
  cases hopens : here.opensWith (.keyword "mut") with
  | true =>
    refine (hmutable.mono (fun tokens value h ↦ Or.inr h) here).of_eq fun there hagrees ↦ ?_
    simp only [globalType, Step.bind_apply, Step.state_apply, hagrees.opensWith_eq, hopens, if_true]
  | false =>
    refine (hfixed.mono (fun tokens value h ↦ Or.inl h) here).of_eq fun there hagrees ↦ ?_
    simp only [globalType, Step.bind_apply, Step.state_apply, hagrees.opensWith_eq, hopens,
      Bool.false_eq_true, if_false]

end WatTypes.Grammar
