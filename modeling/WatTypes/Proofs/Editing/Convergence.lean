import Mathlib.Data.List.Induction
import WatTypes.Proofs.Editing
import WatTypes.Proofs.Stability

/-!
# One edit brings a document into canonical form

An editor counts the lines of a document by its line feeds and carriage returns, a pair of both
being one break (`lineBreaks`). The edit that brings a document into canonical form ends behind all
lines of a text that falls into lines at more characters and has no line behind its last break; it
still ends behind all lines that the editor counts (`lineBreaks_le_length_lines`), so that it covers
the document whatever breaks are mixed in it. Once the document is changed to the new text no edit
is left, and its symbols are those that were there before (`converges_of_read`).
-/

set_option autoImplicit false
set_option relaxedAutoImplicit false

namespace WatTypes

/-! ### Lines of an editor -/

namespace Text

/-- How many line breaks an editor counts in a text: line feeds, carriage returns, and pairs of
both. -/
def lineBreaks : List Char → Nat
  | [] => 0
  | '\r' :: '\n' :: rest => lineBreaks rest + 1
  | c :: rest => if c = '\n' ∨ c = '\r' then lineBreaks rest + 1 else lineBreaks rest

/-- No line is lost to a character in front of the first one. -/
theorem length_consToFirstLine (c : Char) (pieces : List (List Char × List Char)) :
    pieces.length ≤ (consToFirstLine c pieces).length := by
  cases pieces with
  | nil => exact Nat.zero_le _
  | cons piece others => exact Nat.le_refl _

/-- A text has as many lines as an editor counts breaks in it, or more. -/
theorem lineBreaks_le_length_lines (text : List Char) : lineBreaks text ≤ (lines text).length := by
  rw [lines, List.length_map]
  fun_induction brokenLines text with
  | case1 => exact Nat.zero_le _
  | case2 rest ih =>
    rw [lineBreaks, List.length_cons]
    exact Nat.succ_le_succ ih
  | case3 c rest hpair _ ih =>
    rw [lineBreaks, List.length_cons]
    · split
      · exact Nat.succ_le_succ ih
      · exact Nat.le_succ_of_le ih
    · exact hpair
  | case4 c rest hpair hbreak ih =>
    have hother : ¬(c = '\n' ∨ c = '\r') := by
      rintro (rfl | rfl) <;> exact hbreak rfl
    rw [lineBreaks, if_neg hother]
    · exact Nat.le_trans ih (length_consToFirstLine c _)
    · exact hpair

end Text

namespace Editor

open SourceText

/-- A point lies before another one. -/
def Point.Before (point other : Point) : Prop :=
  point.line < other.line ∨ point.line = other.line ∧ point.character < other.character

/-- A point lies on one of the lines of a text, however far into it. -/
structure Point.IsOn (text : SourceText) (point : Point) : Prop where
  /-- Lines are counted from zero. -/
  line_nonneg : 0 ≤ point.line
  /-- There is a line behind each break. -/
  line_le : point.line ≤ Text.lineBreaks text.seen.toList
  /-- Characters are counted from zero. -/
  character_nonneg : 0 ≤ point.character

/-- A range covers what is not before its start but before its end. -/
def Range.Covers (range : Range) (point : Point) : Prop :=
  ¬point.Before range.start ∧ point.Before range.stop

/-- What ends behind the last line covers all lines. -/
theorem Range.covers_of_lineBreaks_lt {text : SourceText} {stop : Point}
    (h : Text.lineBreaks text.seen.toList < stop.line) {point : Point} (hpoint : point.IsOn text) :
    (Range.mk ⟨0, 0⟩ stop).Covers point := by
  have hline := hpoint.line_nonneg
  have hcharacter := hpoint.character_nonneg
  refine ⟨?_, .inl (Int.lt_of_le_of_lt hpoint.line_le h)⟩
  rintro (hbefore | ⟨-, hbefore⟩)
  · exact absurd hline (Int.not_le.mpr hbefore)
  · exact absurd hcharacter (Int.not_le.mpr hbefore)

/-! ### Symbols -/

theorem SymbolKind.ofDeclaration_withoutSpans (declaration : Declaration) :
    ofDeclaration declaration.withoutSpans = ofDeclaration declaration := by
  cases declaration <;> rfl

theorem typeLexemes_withoutSpans (declaration : Declaration) :
    typeLexemes declaration.withoutSpans = typeLexemes declaration := by
  cases declaration with
  | type signature => exact signature.lexemes_withoutSpans
  | func use => exact use.lexemes_withoutSpans
  | global | table | memory => rfl

/-- Two symbols show the same, if not at the same place. -/
structure DocumentSymbol.Resembles (symbol other : DocumentSymbol) : Prop where
  /-- They bear one name. -/
  name_eq : symbol.name = other.name
  /-- They are of one kind. -/
  kind_eq : symbol.kind = other.kind
  /-- They have one detail, or none. -/
  detail_eq : symbol.detail = other.detail

/-- The symbol of a field shows nothing of the spans in it. -/
theorem DocumentSymbol.resembles_of_withoutSpans {field other : Field}
    (h : field.withoutSpans = other.withoutSpans) : (ofField field).Resembles (ofField other) := by
  obtain ⟨id, declaration, span⟩ := field
  obtain ⟨otherId, otherDeclaration, otherSpan⟩ := other
  obtain ⟨hid, hdeclaration, -⟩ := Field.mk.injEq .. ▸ h
  have hkeyword : declaration.keyword = otherDeclaration.keyword := by
    rw [← declaration.keyword_withoutSpans, hdeclaration, otherDeclaration.keyword_withoutSpans]
  have hkind : SymbolKind.ofDeclaration declaration = .ofDeclaration otherDeclaration := by
    rw [← SymbolKind.ofDeclaration_withoutSpans, hdeclaration,
      SymbolKind.ofDeclaration_withoutSpans]
  have htype : typeLexemes declaration = typeLexemes otherDeclaration := by
    rw [← typeLexemes_withoutSpans, hdeclaration, typeLexemes_withoutSpans]
  refine ⟨?_, hkind, ?_⟩
  · cases id with
    | none =>
      cases otherId with
      | none => simp only [ofField, hkeyword]
      | some otherId => cases hid
    | some id =>
      cases otherId with
      | none => cases hid
      | some otherId =>
        have hname : id.name = otherId.name := (Id.mk.inj (Option.some.inj hid)).1
        simp only [ofField, hname]
  · simp only [ofField, htype]

/-- Modules that are the same up to spans have the same symbols up to places. -/
theorem DocumentSymbol.resembles_of_modules {m other : TypeModule}
    (h : m.withoutSpans = other.withoutSpans) :
    List.Forall₂ Resembles (m.fields.map ofField) (other.fields.map ofField) := by
  have hfields : m.fields.map Field.withoutSpans = other.fields.map Field.withoutSpans :=
    congrArg TypeModule.fields h
  rw [List.forall₂_map_left_iff, List.forall₂_map_right_iff]
  rw [← List.forall₂_eq_eq_eq, List.forall₂_map_left_iff, List.forall₂_map_right_iff] at hfields
  exact hfields.imp fun _ _ ↦ resembles_of_withoutSpans

/-! ### Documents of a session -/

namespace Session

/-- A document of a session has been read from its text. -/
theorem isReadAs_of_document? {notices : List Notice} {uri : String} {document : Document}
    (h : (afterAll notices).document? uri = some document) : document.IsReadAs uri := by
  induction notices using List.reverseRecOn with
  | nil => cases h
  | append_singleton earlier last ih =>
    rw [afterAll_append_singleton] at h
    by_cases hlost : last.IsLost
    · rw [step_of_isLost hlost] at h
      exact ih h
    rw [document?_step hlost] at h
    split at h
    · rename_i huri
      obtain ⟨text, -, hdocument⟩ := Option.bind_eq_some_iff.mp h
      exact huri ▸ (Document.isReadAs_of_ofText? hdocument).2
    · exact ih h

/-- A session asks for one edit that puts a text in place of the whole of another one. -/
def ReplacesAll (session : Session) (uri : String) (text : SourceText) (newText : String) : Prop :=
  ∃ range : Range, session.formatting uri = some [⟨range, newText⟩] ∧ range.start = ⟨0, 0⟩ ∧
    Text.lineBreaks text.seen.toList < range.stop.line ∧
    ∀ point : Point, point.IsOn text → range.Covers point

/-- A document whose text is not in canonical form is replaced as a whole. -/
theorem replacesAll_of_document? {session : Session} {uri : String} {document : Document}
    {m : TypeModule} (hopen : session.document? uri = some document)
    (hmodule : document.outcome = .ok m)
    (hother : .ofString (m.canonicalText TypeModule.standardIndent) ≠ document.text) :
    session.ReplacesAll uri document.text (m.canonicalText TypeModule.standardIndent) := by
  have hlines : (Text.lineBreaks document.text.seen.toList : Int) <
      (Text.lines document.text.seen.toList).length + 1 := by
    have := Text.lineBreaks_le_length_lines document.text.seen.toList
    omega
  refine ⟨⟨⟨0, 0⟩, ⟨(Text.lines document.text.seen.toList).length + 1, 0⟩⟩, ?_, rfl, hlines,
    fun _ ↦ Range.covers_of_lineBreaks_lt hlines⟩
  rw [formatting, hopen, Option.bind_some, Document.formatting, Document.module?, hmodule]
  exact congrArg some (if_neg hother)

/-- Assumes: after some notices a document is open whose text is read as a module, and is not the
canonical text of it. The session asks for one edit, from the start to behind the last line, that
puts the canonical text in place of the document. Once the document is changed to this text, the
session asks for no edit any more and shows the symbols it showed before, if at other places. -/
theorem converges_of_read (notices : List Notice) (uri : String) (document : Document)
    (m : TypeModule) (hopen : (afterAll notices).document? uri = some document)
    (hread : document.text.read? uri = some (.ok m))
    (hother : .ofString (m.canonicalText TypeModule.standardIndent) ≠ document.text) :
    (afterAll notices).ReplacesAll uri document.text
        (m.canonicalText TypeModule.standardIndent) ∧
    ∀ earlier : List SourceText,
      let changed := (afterAll notices).step
        (.changed uri (earlier ++ [.ofString (m.canonicalText TypeModule.standardIndent)]))
      changed.formatting uri = some [] ∧
        List.Forall₂ DocumentSymbol.Resembles (changed.symbols uri)
          ((afterAll notices).symbols uri) := by
  have hreadAs := isReadAs_of_document? hopen
  have hmodule : document.outcome = .ok m := by
    rw [Document.IsReadAs, hread, Option.some.injEq] at hreadAs
    exact hreadAs.symm
  refine ⟨replacesAll_of_document? hopen hmodule hother, ?_⟩
  intro earlier changed
  obtain ⟨found, hfound, hsame, hstable⟩ :=
    stable_of_read uri uri document.text.seen none m (read_of_read? hread)
  have hagain : SourceText.read? uri (m.canonicalText TypeModule.standardIndent) =
      some (.ok found) := read?_ofString_eq_ok_iff.mpr hfound
  have hchanged : changed.document? uri =
      some ⟨m.canonicalText TypeModule.standardIndent, .ok found⟩ := by
    have hdocument : (Notice.changed uri (earlier ++
        [.ofString (m.canonicalText TypeModule.standardIndent)])).document? =
          some ⟨m.canonicalText TypeModule.standardIndent, .ok found⟩ :=
      Notice.document?_of_read?
        (by rw [Notice.text?, List.getLast?_concat, Option.getD_some]) hagain
    exact (document?_step (Notice.not_isLost_of_document? hdocument) uri).trans
      ((if_pos rfl).trans hdocument)
  constructor
  · refine (shows_of_document? hchanged hagain).formatting_eq_nil_iff.mpr ⟨found, hagain, ?_⟩
    exact congrArg SourceText.ofString hstable.symm
  · have hbefore : (afterAll notices).symbols uri = m.fields.map .ofField := by
      rw [symbols, hopen, Option.map_some, Option.getD_some, Document.symbols, Document.module?,
        hmodule]
      rfl
    have hafter : changed.symbols uri = found.fields.map .ofField := by
      rw [symbols, hchanged]
      rfl
    rw [hbefore, hafter]
    exact DocumentSymbol.resembles_of_modules hsame

/-- A module with an identifier, a global and a memory. -/
def twoFields : TypeModule :=
  let place : Span := .single "" .first
  ⟨some ⟨"m", place⟩, [⟨none, .global ⟨.i32, true⟩, place⟩,
    ⟨some ⟨"0", place⟩, .memory ⟨⟨1, none⟩, false⟩, place⟩], place⟩

/-- A text of it with a line feed, a pair, and a carriage return in front of each field. -/
def mixedBreaks : String := twoFields.canonicalText "\r\n\r"

theorem converges_of_read_mixedBreaks :
    Text.lineBreaks mixedBreaks.toList = 7 ∧ ∃ m, TypeModule.read "a" none mixedBreaks = .ok m ∧
      (afterAll [.opened "a" mixedBreaks]).ReplacesAll "a" mixedBreaks
        (m.canonicalText TypeModule.standardIndent) ∧
      let changed := (afterAll [.opened "a" mixedBreaks]).step
        (.changed "a" ["", m.canonicalText TypeModule.standardIndent])
      changed.formatting "a" = some [] ∧
        List.Forall₂ DocumentSymbol.Resembles (changed.symbols "a")
          ((afterAll [.opened "a" mixedBreaks]).symbols "a") := by
  have hwellFormed : twoFields.WellFormed := by decide
  obtain ⟨m, hread, hsame⟩ := read_canonicalText hwellFormed
    (List.all_eq_true.mp (by decide) : ∀ c ∈ "\r\n\r".toList, isGapChar c = true)
    (nests_lexemes hwellFormed) "a"
  have hother : m.canonicalText TypeModule.standardIndent ≠ mixedBreaks := by
    rw [← m.canonicalText_withoutSpans, hsame, twoFields.canonicalText_withoutSpans]
    decide +kernel
  have htext : SourceText.read? "a" mixedBreaks = some (.ok m) := read?_ofString_eq_ok_iff.mpr hread
  have hopened : (Notice.opened "a" mixedBreaks).document? = some ⟨mixedBreaks, .ok m⟩ :=
    Notice.document?_of_read? rfl htext
  have hopen : (afterAll [.opened "a" mixedBreaks]).document? "a" = some ⟨mixedBreaks, .ok m⟩ :=
    (document?_afterAll [] (Notice.not_isLost_of_document? hopened) (by simp)).trans hopened
  obtain ⟨hreplaces, hchanged⟩ := converges_of_read [.opened "a" mixedBreaks] "a"
    ⟨mixedBreaks, .ok m⟩ m hopen htext (mt ofString_inj.mp hother)
  exact ⟨by decide +kernel, m, hread, hreplaces, hchanged [""]⟩

end Session

end Editor

end WatTypes
