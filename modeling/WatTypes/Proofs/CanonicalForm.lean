import WatTypes.CommandLine.Run
import WatTypes.Proofs.Layout.Literal
import WatTypes.Proofs.Outlining.Quotation
import WatTypes.Proofs.SettingsText
import WatTypes.Proofs.Stability

/-!
# The canonical form of a file

Canonical text holds no control character but the line feed (`hasClearLines_canonicalText`), so that
a file to which it is written is read as it (`decoded_canonicalText`). What formatting makes of the
bytes of a file depends on them and on the settings alone (`Settings.formatted`), and to format them
twice is to format them once (`formatted_formatted`). A file that holds the settings themselves says
the same when it is formatted (`ofBytes_formatted`).
-/

set_option autoImplicit false
set_option relaxedAutoImplicit false

namespace WatTypes

open Grammar

/-! ### Characters of canonical text -/

namespace Lexeme

/-- What spells a lexeme that is no string holds no control character. -/
theorem Spells.isClear {spelled : List Char} {lexeme : Lexeme} (h : Spells spelled lexeme)
    (hstring : ∀ text, lexeme ≠ .string text) : Text.IsClear spelled := by
  cases h with
  | opening | closing => decide
  | word hword _ => exact fun c hc ↦ Nat.le_of_succ_le (toNat_of_isIdChar (hword c hc)).1
  | @string _ text _ => exact absurd rfl (hstring text)

/-- The spelling of a legible lexeme holds no control character. -/
theorem IsLegible.isClear {lexeme : Lexeme} (h : lexeme.IsLegible) :
    Text.IsClear lexeme.spelling.toList := by
  cases lexeme with
  | string text => exact fun c hc ↦ (isVisible_stringLiteral hc).1
  | _ => exact Spells.isClear h (by simp)

theorem isClear_spaced {lexemes : List Lexeme} (h : AreLegible lexemes) :
    Text.IsClear (spaced lexemes).toList := by
  induction lexemes with
  | nil => decide
  | cons first others ih =>
    have hfirst := (h first List.mem_cons_self).isClear
    cases others with
    | nil => exact hfirst
    | cons second others =>
      have hothers := ih fun lexeme hlexeme ↦ h lexeme (List.mem_cons_of_mem first hlexeme)
      have hseparator : Text.IsClear (separator first second).toList := by
        rcases separator_cases first second with ⟨hnone, -⟩ | hspace
        · rw [hnone]
          decide
        · rw [hspace]
          decide
      rw [spaced, String.toList_append, String.toList_append]
      exact (hfirst.append hseparator).append hothers

end Lexeme

open Lexeme

/-- A text whose lines have no control characters. -/
def Text.HasClearLines (text : List Char) : Prop := ∀ c ∈ text, c = '\n' ∨ 32 ≤ c.toNat

instance (text : List Char) : Decidable (Text.HasClearLines text) :=
  List.decidableBAll (fun c : Char ↦ c = '\n' ∨ 32 ≤ c.toNat) text

namespace Text

theorem IsClear.hasClearLines {text : List Char} (h : IsClear text) : HasClearLines text :=
  fun c hc ↦ .inr (h c hc)

theorem HasClearLines.append {text more : List Char} (htext : HasClearLines text)
    (hmore : HasClearLines more) : HasClearLines (text ++ more) := fun c hc ↦
  (List.mem_append.mp hc).elim (htext c) (hmore c)

theorem hasClearLines_intercalate {lines : List String} (h : ∀ line ∈ lines, IsClear line.toList) :
    HasClearLines (String.intercalate "\n" lines).toList := by
  induction lines with
  | nil => decide
  | cons line lines ih =>
    obtain ⟨hline, hothers⟩ := List.forall_mem_cons.mp h
    cases lines with
    | nil =>
      rw [String.intercalate_singleton]
      exact hline.hasClearLines
    | cons second lines =>
      have hfeed : HasClearLines "\n".toList := by decide
      rw [String.intercalate_cons_cons, String.toList_append, String.toList_append]
      exact (hline.hasClearLines.append hfeed).append (ih hothers)

end Text

namespace TypeModule

/-- Canonical text holds no control character but the line feed, if its indent holds none. -/
theorem hasClearLines_canonicalText {m : TypeModule} (h : m.WellFormed) {indent : String}
    (hindent : Text.IsClear indent.toList) :
    Text.HasClearLines (m.canonicalText indent).toList := by
  obtain ⟨id, fields, span⟩ := m
  obtain ⟨hid, hfields⟩ := h
  have hline (field : Field) (hfield : field ∈ fields) :
      Text.IsClear (spaced field.lexemes).toList :=
    isClear_spaced (areLegible_field (hfields field hfield))
  cases id with
  | none =>
    have hend : Text.HasClearLines "\n".toList := by decide
    rw [canonicalText, String.toList_append]
    refine (Text.hasClearLines_intercalate fun line hmem ↦ ?_).append hend
    obtain ⟨field, hfield, rfl⟩ := List.mem_map.mp hmem
    exact hline field hfield
  | some id =>
    have hend : Text.HasClearLines ")\n".toList := by decide
    rw [canonicalText, String.toList_append]
    refine (Text.hasClearLines_intercalate fun line hmem ↦ ?_).append hend
    rcases List.mem_cons.mp hmem with rfl | hmem
    · exact isClear_spaced (.cons .opening (.cons (isLegible_reserved (by simp))
        (areLegible_id hid)))
    · obtain ⟨text, htext, rfl⟩ := List.mem_map.mp hmem
      obtain ⟨field, hfield, rfl⟩ := List.mem_map.mp htext
      rw [String.toList_append]
      exact hindent.append (hline field hfield)

end TypeModule

/-! ### Files that hold canonical text -/

theorem Text.withLineFeeds_of_notMem {text : List Char} (h : '\r' ∉ text) :
    withLineFeeds text = text := by
  induction text with
  | nil => rfl
  | cons c rest ih =>
    have hreturn : c ≠ '\r' := fun heq ↦ h (heq ▸ List.mem_cons_self)
    have hrest : '\r' ∉ rest := fun hmem ↦ h (List.mem_cons_of_mem c hmem)
    rw [withLineFeeds, if_neg hreturn, ih hrest]
    rintro _ rfl
    exact absurd rfl hreturn

/-- A text as it is read from a file: its lines end in line feeds. -/
def Text.asRead (text : String) : String := String.ofList (withLineFeeds text.toList)

theorem Text.asRead_of_notMem {text : String} (h : '\r' ∉ text.toList) : asRead text = text := by
  rw [asRead, withLineFeeds_of_notMem h, String.ofList_toList]

/-- A text is read as it is if and only if it has no carriage return. -/
theorem Text.asRead_eq_self_iff {text : String} : asRead text = text ↔ '\r' ∉ text.toList := by
  refine ⟨fun hsame hreturn ↦ ?_, asRead_of_notMem⟩
  rw [← hsame, asRead, String.toList_ofList] at hreturn
  exact not_mem_withLineFeeds _ hreturn

theorem Text.fromUTF8?_toUTF8 (text : String) : String.fromUTF8? text.toUTF8 = some text :=
  dif_pos text.isValidUTF8

/-- Texts with the same bytes are the same. -/
theorem Text.toUTF8_inj {text other : String} : text.toUTF8 = other.toUTF8 ↔ text = other := by
  refine ⟨fun h ↦ Option.some.inj ?_, fun h ↦ congrArg String.toUTF8 h⟩
  rw [← fromUTF8?_toUTF8, h, fromUTF8?_toUTF8]

namespace FileTree

/-- What holds the bytes of a text is read as it, but for its line breaks. -/
theorem decoded_toUTF8 (text : String) : decoded text.toUTF8 = .ok (Text.asRead text) := by
  simp only [decoded, Text.fromUTF8?_toUTF8, Text.asRead]

/-- A file to which canonical text is written is read as it. -/
theorem decoded_canonicalText {m : TypeModule} (h : m.WellFormed) {indent : String}
    (hindent : Text.IsClear indent.toList) :
    decoded (m.canonicalText indent).toUTF8 = .ok (m.canonicalText indent) := by
  rw [decoded_toUTF8, Text.asRead_of_notMem fun hmem ↦ ?_]
  exact absurd (TypeModule.hasClearLines_canonicalText h hindent _ hmem) (by decide)

end FileTree

/-! ### The canonical form of a source -/

namespace Settings

/-- The canonical text of the module that a source holds, if it holds one. -/
def canonicalForm? (settings : Settings) (source : String) : Option String :=
  match settings.readModule "" source with
  | .ok (.ok m) => some (m.canonicalText TypeModule.standardIndent)
  | _ => none

section

variable {settings : Settings} {limit : Option NestingLimit} {name source text : String}

/-- Under settings with a limit that means something, reading is reading under that limit. -/
theorem readModule_of_limit (hlimit : settings.limit = .ok limit) :
    settings.readModule name source = .ok (TypeModule.read name limit source) := by
  simp only [readModule, hlimit]

/-- Whether a source holds a module, and its canonical text, do not depend on its name. -/
theorem canonicalForm?_eq_some_iff (hlimit : settings.limit = .ok limit) (name : String) :
    settings.canonicalForm? source = some text ↔
      ∃ m, TypeModule.read name limit source = .ok m ∧
        m.canonicalText TypeModule.standardIndent = text := by
  have hname (first second : String) {m : TypeModule}
      (h : TypeModule.read first limit source = .ok m) :
      ∃ found, TypeModule.read second limit source = .ok found ∧
        found.canonicalText TypeModule.standardIndent =
          m.canonicalText TypeModule.standardIndent := by
    obtain ⟨found, hfound, hsame⟩ := TypeModule.exists_read_inFile second h
    refine ⟨found, hfound, ?_⟩
    rw [← TypeModule.canonicalText_withoutSpans, hsame, TypeModule.canonicalText_withoutSpans]
  rw [canonicalForm?, readModule_of_limit hlimit]
  constructor
  · intro h
    cases hread : TypeModule.read "" limit source with
    | error refusal =>
      rw [hread] at h
      cases h
    | ok m =>
      rw [hread] at h
      cases h
      exact hname "" name hread
  · rintro ⟨m, hm, rfl⟩
    obtain ⟨found, hfound, hsame⟩ := hname name "" hm
    simp only [hfound, hsame]

theorem canonicalForm?_eq_none_iff (hlimit : settings.limit = .ok limit) (name : String) :
    settings.canonicalForm? source = none ↔
      ∃ refusal, TypeModule.read name limit source = .error refusal := by
  cases hread : TypeModule.read name limit source with
  | ok m =>
    have hsome := (canonicalForm?_eq_some_iff hlimit name).mpr ⟨m, hread, rfl⟩
    simp [hsome]
  | error refusal =>
    cases hform : settings.canonicalForm? source with
    | none => simp
    | some text =>
      obtain ⟨m, hm, -⟩ := (canonicalForm?_eq_some_iff hlimit name).mp hform
      rw [hread] at hm
      cases hm

theorem canonicalForm?_of_module {m : TypeModule} (hlimit : settings.limit = .ok limit)
    (hread : settings.readModule name source = .ok (.ok m)) :
    settings.canonicalForm? source = some (m.canonicalText TypeModule.standardIndent) := by
  rw [readModule_of_limit hlimit, Except.ok.injEq] at hread
  exact (canonicalForm?_eq_some_iff hlimit name).mpr ⟨m, hread, rfl⟩

theorem canonicalForm?_of_refused {refusal : Refusal} (hlimit : settings.limit = .ok limit)
    (hread : settings.readModule name source = .ok (.error refusal)) :
    settings.canonicalForm? source = none := by
  rw [readModule_of_limit hlimit, Except.ok.injEq] at hread
  exact (canonicalForm?_eq_none_iff hlimit name).mpr ⟨refusal, hread⟩

/-- A canonical form is its own canonical form. -/
theorem canonicalForm?_of_canonicalForm? (hlimit : settings.limit = .ok limit)
    (h : settings.canonicalForm? source = some text) :
    settings.canonicalForm? text = some text := by
  obtain ⟨m, hm, rfl⟩ := (canonicalForm?_eq_some_iff hlimit "").mp h
  obtain ⟨found, hfound, -, hsame⟩ := stable_of_read "" "" source limit m hm
  exact (canonicalForm?_eq_some_iff hlimit "").mpr ⟨found, hfound, hsame⟩

/-- A canonical form is read as it is. -/
theorem asRead_of_canonicalForm? (hlimit : settings.limit = .ok limit)
    (h : settings.canonicalForm? source = some text) : Text.asRead text = text := by
  obtain ⟨m, hm, rfl⟩ := (canonicalForm?_eq_some_iff hlimit "").mp h
  have hdecoded := FileTree.decoded_canonicalText (wellFormed_of_read hm).1
    (by decide : Text.IsClear TypeModule.standardIndent.toList)
  rw [FileTree.decoded_toUTF8] at hdecoded
  exact Except.ok.inj hdecoded

/-- A file to which a canonical form is written is read as it. -/
theorem decoded_of_canonicalForm? (hlimit : settings.limit = .ok limit)
    (h : settings.canonicalForm? source = some text) :
    FileTree.decoded text.toUTF8 = .ok text := by
  rw [FileTree.decoded_toUTF8, asRead_of_canonicalForm? hlimit h]

end

/-! ### What formatting makes of a file -/

/-- The bytes that formatting leaves of those of a file: it writes the canonical form of a source
that is not in it, and leaves everything else as it is. -/
def formatted (settings : Settings) (bytes : ByteArray) : ByteArray :=
  match FileTree.decoded bytes with
  | .error _ => bytes
  | .ok source =>
    match settings.canonicalForm? source with
    | none => bytes
    | some text => if text = source then bytes else text.toUTF8

section

variable {settings : Settings} {limit : Option NestingLimit} {bytes : ByteArray}
  {source text : String}

/-- What is refused is left as it is. -/
theorem formatted_of_none (hsource : FileTree.decoded bytes = .ok source)
    (h : settings.canonicalForm? source = none) : settings.formatted bytes = bytes := by
  simp only [formatted, hsource, h]

/-- What is left of a source that holds a module is read as its canonical form. -/
theorem decoded_formatted (hlimit : settings.limit = .ok limit)
    (hsource : FileTree.decoded bytes = .ok source)
    (h : settings.canonicalForm? source = some text) :
    FileTree.decoded (settings.formatted bytes) = .ok text := by
  simp only [formatted, hsource, h]
  split
  · rename_i hsame
    rw [hsource, hsame]
  · exact decoded_of_canonicalForm? hlimit h

/-- What is left is in canonical form, or refused. -/
theorem formatted_formatted (hlimit : settings.limit = .ok limit) (bytes : ByteArray) :
    settings.formatted (settings.formatted bytes) = settings.formatted bytes := by
  cases hsource : FileTree.decoded bytes with
  | error error =>
    have hkept : settings.formatted bytes = bytes := by simp only [formatted, hsource]
    rw [hkept, hkept]
  | ok source =>
    cases hform : settings.canonicalForm? source with
    | none => rw [formatted_of_none hsource hform, formatted_of_none hsource hform]
    | some text =>
      have hread := decoded_formatted hlimit hsource hform
      have hagain := canonicalForm?_of_canonicalForm? hlimit hform
      rw [formatted, hread]
      simp only [hagain, if_true]

/-- Assumes: a file that is read as settings. It is read as the same settings when it has been
formatted, under whatever limit. -/
theorem ofBytes_formatted {own : Settings} (hlimit : settings.limit = .ok limit)
    (h : ofBytes bytes = .ok own) : ofBytes (settings.formatted bytes) = .ok own := by
  unfold formatted
  split
  · exact h
  · rename_i source hsource
    split
    · exact h
    · rename_i text hform
      split
      · exact h
      · obtain ⟨m, hm, rfl⟩ := (canonicalForm?_eq_some_iff hlimit "").mp hform
        exact ofBytes_canonicalText h hsource hm

end

end Settings

end WatTypes
