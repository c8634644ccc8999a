import WatTypes.Proofs.Denotation
import WatTypes.Proofs.Parsing

/-!
# Canonical text is read back

The text of a tree that can be written is read to its end and gives the tree back, up to spans, and
this holds of modules with whatever indent and of all the parts of a module (`round_trip`). Reading
the text gives the lexemes of the tree, tokens of these lexemes denote it, and the rules accept what
denotes something.
-/

set_option autoImplicit false
set_option relaxedAutoImplicit false

namespace WatTypes

open Grammar Rule Phrase

variable {α : Type} {phrase : Phrase α} {lexemes : List Lexeme} {good : α → Prop}

/-- A rule reads the text of lexemes to its end, and answers with something that has a property. -/
def ReadsBack (rule : Rule Cursor α) (lexemes : List Lexeme) (good : α → Prop) : Prop :=
  ∀ file, ∃ tokens value there,
    TokenList.read file none (Lexeme.spaced lexemes) = .ok tokens ∧
      rule (.start tokens) = (.ok value, there) ∧ there.ahead = [] ∧ good value

/-- Assumes: legible lexemes that write a balanced phrase, and a rule that accepts the phrase at the
end of a group. The rule reads back the text of the lexemes. -/
theorem readsBack_of_writes {rule : Rule Cursor α} (hlegible : Lexeme.AreLegible lexemes)
    (hwrites : phrase.Writes lexemes good) (hbalanced : phrase.IsBalanced)
    (haccepts : Accepts rule phrase fun there ↦ there.isGroupEnd = true) :
    ReadsBack rule lexemes good := by
  intro file
  have hnests := (hwrites.balanced hbalanced).nests_none 0
  obtain ⟨tokens, htokens, hlexemes⟩ :=
    Lexeme.read_of_layout file (Lexeme.laysOut_spaced hlegible).layout hnests
  obtain ⟨value, hvalue, hgood⟩ := hwrites tokens.body hlexemes
  have hbody : (Cursor.start tokens).ahead = tokens.body ++ [] :=
    (List.append_nil tokens.body).symm
  obtain ⟨there, hpasses, hahead⟩ := Cursor.exists_passes hbody
  have hend : there.isGroupEnd = true := by
    simp [Cursor.isGroupEnd, Cursor.current, Cursor.tokenAt, Cursor.endToken, hahead]
  exact ⟨tokens, value, there, htokens, haccepts hvalue hpasses hend, hahead, hgood⟩

/-- Assumes: a module that can be written, blanks as the indent, and parentheses that nest as deep
as allowed. The canonical text of the module is read, and gives the module back. -/
theorem read_canonicalText {m : TypeModule} (h : m.WellFormed) {indent : String}
    (hindent : ∀ c ∈ indent.toList, isGapChar c = true) {limit : Option NestingLimit}
    (hnests : Lexeme.Nests limit 0 m.lexemes) (file : String) :
    ∃ found, TypeModule.read file limit (m.canonicalText indent) = .ok found ∧
      found.withoutSpans = m.withoutSpans := by
  obtain ⟨tokens, htokens, hlexemes⟩ :=
    Lexeme.read_of_layout file (layout_canonicalText h hindent) hnests
  obtain ⟨⟨id, fields⟩, hparts, hid, hfields⟩ := writes_module h tokens.body hlexemes
  simp only at hid hfields
  refine ⟨⟨id, fields, tokens.span⟩, ?_, by simp only [TypeModule.withoutSpans, hid, hfields]⟩
  simp only [TypeModule.read, htokens, ofTokens_of_module hparts]

/-- The lexemes of a module that can be written nest without a limit. -/
theorem nests_lexemes {m : TypeModule} (h : m.WellFormed) : Lexeme.Nests none 0 m.lexemes :=
  ((writes_module h).balanced isBalanced_module).nests_none 0

/-- Assumes, of each tree: that it can be written. The canonical text of a module, with blanks as
the indent, is read as the module up to spans, and the texts of limits, of the types of globals,
tables and memories, of signatures, of uses of function types and of fields are read to their end as
what they were written for. -/
theorem round_trip :
    (∀ (m : TypeModule) (indent file : String), m.WellFormed →
      (∀ c ∈ indent.toList, isGapChar c = true) →
        ∃ found, TypeModule.read file none (m.canonicalText indent) = .ok found ∧
          found.withoutSpans = m.withoutSpans) ∧
    (∀ limits : Limits, limits.WellFormed →
      ReadsBack Grammar.limits limits.lexemes (· = limits)) ∧
    (∀ ty : GlobalType, ReadsBack Grammar.globalType ty.lexemes (· = ty)) ∧
    (∀ ty : TableType, ty.limits.WellFormed → ReadsBack Grammar.tableType ty.lexemes (· = ty)) ∧
    (∀ ty : MemoryType, ty.limits.WellFormed → ReadsBack Grammar.memoryType ty.lexemes (· = ty)) ∧
    (∀ ty : FunctionType, ty.WellFormed →
      ReadsBack (Grammar.signature true) ty.lexemes (·.withoutSpans = ty.withoutSpans)) ∧
    (∀ use : TypeUse, use.WellFormed →
      ReadsBack (Grammar.typeUse true) use.lexemes (·.withoutSpans = use.withoutSpans)) ∧
    (∀ field : Field, field.WellFormed →
      ReadsBack (parens Grammar.field) field.lexemes (·.withoutSpans = field.withoutSpans)) := by
  refine ⟨fun m indent file hm hindent ↦ read_canonicalText hm hindent (nests_lexemes hm) file,
    fun limits h ↦ ?_, fun ty ↦ ?_, fun ty h ↦ ?_, fun ty h ↦ ?_, fun ty h ↦ ?_, fun use h ↦ ?_,
    fun field h ↦ ?_⟩
  · exact readsBack_of_writes (areLegible_limits h) (writes_limits h) isBalanced_limits
      (accepts_limits.before fun there hend ↦ Cursor.shows_of_isGroupEnd hend _)
  · exact readsBack_of_writes (areLegible_globalType ty) (writes_globalType ty)
      isBalanced_globalType accepts_globalType.anywhere
  · exact readsBack_of_writes (areLegible_tableType h) (writes_tableType h) isBalanced_tableType
      accepts_tableType.anywhere
  · exact readsBack_of_writes (areLegible_memoryType h) (writes_memoryType h)
      isBalanced_memoryType accepts_memoryType
  · exact readsBack_of_writes (areLegible_signature h) (writes_signature ty)
      (isBalanced_signature true) (accepts_signature true)
  · exact readsBack_of_writes (areLegible_typeUse h) (writes_typeUse h) (isBalanced_typeUse true)
      (accepts_typeUse true)
  · exact readsBack_of_writes (areLegible_field h) (writes_field h) isBalanced_field.parens
      accepts_parens_field.anywhere

/-- A module with a field of each kind. One parameter of its function bears both an identifier and
an empty display name, and stands between others that bear none. -/
def oneOfEach : TypeModule :=
  let place : Span := .single "" .first
  let use : TypeUse := ⟨some ⟨.symbol "0", place⟩,
    ⟨[.anonymous .i32, .anonymous .v128, ⟨.f64, some ⟨"x", place⟩, some ⟨"", place⟩⟩,
      .anonymous .i64], [.funcref]⟩⟩
  ⟨some ⟨"m", place⟩,
    [⟨some ⟨"0", place⟩, .type ⟨[], []⟩, place⟩, ⟨none, .global ⟨.i32, true⟩, place⟩,
      ⟨none, .table ⟨⟨0, some 4294967295⟩, .anyref⟩, place⟩,
      ⟨none, .memory ⟨⟨1, none⟩, true⟩, place⟩, ⟨some ⟨"f", place⟩, .func use, place⟩], place⟩

theorem round_trip_oneOfEach : oneOfEach.WellFormed ∧
    (∃ found, TypeModule.read "" none (oneOfEach.canonicalText "\t") = .ok found ∧
      found.withoutSpans = oneOfEach.withoutSpans) ∧
    ReadsBack Grammar.limits (Limits.mk 0 (some 4294967295)).lexemes
      (· = ⟨0, some 4294967295⟩) ∧
    ∀ field ∈ oneOfEach.fields,
      ReadsBack (parens Grammar.field) field.lexemes (·.withoutSpans = field.withoutSpans) := by
  have hm : oneOfEach.WellFormed := by decide
  obtain ⟨hmodule, hlimits, -, -, -, -, -, hfield⟩ := round_trip
  have hindent : ∀ c ∈ "\t".toList, isGapChar c = true := List.all_eq_true.mp (by decide)
  exact ⟨hm, hmodule oneOfEach "\t" "" hm hindent, hlimits _ (by decide),
    fun field hmem ↦ hfield field (hm.2 field hmem)⟩

end WatTypes
