import WatTypes.Proofs.Highlighting.Plain
import WatTypes.Proofs.Sources

/-!
# Highlighting agrees with reading

A source that is read as a module is highlighted without an error, and left outside of comments and
strings (`aligned_of_read`). Its segments run along its tokens (`Aligned`): the slice that a token
covers is a run of whole segments, and every other segment is made up of blanks or belongs to a
comment. Reading accepts more between the braces of a code point escape than hexadecimal digits, and
highlighting does not, so that these escapes are asked to hold digits alone (`PlainCodePoints`).

Along the parts of a source a run of blanks is held back until something else comes
(`highlights_of_tokenized`), for it is a single segment, however many parts of a gap it makes up.
-/

set_option autoImplicit false
set_option relaxedAutoImplicit false

namespace WatTypes

open Grammar Lexeme Lexeme.Syntax

/-! ### Parts of a source -/

section Parts

variable {slice : List Char} {lexeme : Lexeme}

/-- What spells a lexeme does not start with a blank. -/
theorem Lexeme.Spells.isBlank_head (h : Spells slice lexeme) (rest : List Char) :
    ∀ c ∈ (slice ++ rest).head?, Text.isBlank c = false := by
  intro c hc
  cases h with
  | opening | closing | string =>
    cases hc
    decide
  | word hword =>
    cases hc
    exact isBlank_of_isIdChar (hword c List.mem_cons_self)

/-- A part of a gap is a blank, or does not start with one. -/
theorem GapPart.isBlank_head {part rest : List Char} (h : GapPart rest part) :
    (∃ c, part = [c] ∧ isGapChar c = true) ∨
      ∀ c ∈ (part ++ rest).head?, Text.isBlank c = false := by
  cases h with
  | blank hc => exact .inl ⟨_, rfl, hc⟩
  | lineComment | blockComment =>
    right
    intro c hc
    cases hc
    decide

/-- The characters that are no part of words, and that a part of a source can start with. -/
theorem Text.isWordCharacter_of_mem {c : Char}
    (h : c ∈ [' ', '\t', '\n', '\r', ';', '(', ')', '"']) : isWordCharacter c = false := by
  have hall : ∀ d ∈ [' ', '\t', '\n', '\r', ';', '(', ')', '"'], (!isWordCharacter d) = true :=
    List.all_eq_true.mp (by decide +kernel)
  simpa using hall c h

/-- A tokenized text starts with a word character only where a word does. -/
theorem Tokenized.isWordCharacter_head {file : String} {here : Position} {text : List Char}
    {tokens : List Token} (h : Tokenized file here text tokens) :
    ∀ c ∈ text.head?, isIdChar c = false → Text.isWordCharacter c = false := by
  intro c hc hother
  cases h with
  | nil => cases hc
  | gapPart hpart =>
    cases hpart with
    | blank hblank =>
      cases hc
      apply Text.isWordCharacter_of_mem
      simp only [isGapChar, Bool.or_eq_true, beq_iff_eq] at hblank
      rcases hblank with ((rfl | rfl) | rfl) | rfl <;> decide
    | lineComment | blockComment =>
      cases hc
      exact Text.isWordCharacter_of_mem (by decide)
  | token hspells =>
    cases hspells with
    | opening | closing | string =>
      cases hc
      exact Text.isWordCharacter_of_mem (by decide)
    | word hword =>
      cases hc
      rw [hword c List.mem_cons_self] at hother
      cases hother

/-- What spells a lexeme behind some text is a slice, and the span of the lexeme covers it. -/
theorem Lexeme.Spells.exists_covers (h : Spells slice lexeme) (file : String)
    (before rest : List Char) :
    ∃ last, Span.Covers file (before ++ (slice ++ rest))
        (.upTo file (.afterAll .first before) (.afterAll .first (before ++ slice)))
        before.length last ∧
      last + 1 = (before ++ slice).length ∧
      (before ++ (slice ++ rest)).extract before.length (last + 1) = slice := by
  obtain ⟨-, front, c, rfl, hc⟩ := h.ends
  have hcovers := Span.covers_upTo file before front rest hc
  have hcount : before.length + front.length + 1 = before.length + (front ++ [c]).length := by
    rw [List.length_append, List.length_singleton, Nat.add_assoc]
  rw [List.append_assoc] at hcovers
  refine ⟨_, hcovers, ?_, ?_⟩
  · rw [hcount, ← List.length_append]
  · rw [hcount, extract_append_left, List.take_left]

end Parts

namespace Highlight

/-! ### Segments along tokens -/

/-- From an offset of a text on, segments run along the tokens of a file: every slice that a token
covers is a run of segments, and every segment outside of these slices is one of a gap. -/
inductive Aligned (file : String) (text : List Char) : Nat → List Token → List Segment → Prop
  /-- Nothing is left. -/
  | nil : Aligned file text text.length [] []
  /-- A segment outside of the slices of tokens. -/
  | gap {start stop : Nat} {tokens : List Token} {segment : Segment} {segments : List Segment} :
    segment.IsGap → start ≤ stop → segment.text = text.extract start stop →
    Aligned file text stop tokens segments → Aligned file text start tokens (segment :: segments)
  /-- The segments of the slice that a token covers. -/
  | token {first last : Nat} {token : Token} {tokens : List Token}
    {pieces segments : List Segment} :
    token.span.Covers file text first last →
    pieces.flatMap Segment.text = text.extract first (last + 1) →
    Aligned file text (last + 1) tokens segments →
    Aligned file text first (token :: tokens) (pieces ++ segments)

/-- In the slices of a text that tokens of strings cover, there are only hexadecimal digits in the
braces of code point escapes. -/
def PlainCodePoints (file : String) (text : List Char) (tokens : List Token) : Prop :=
  ∀ token ∈ tokens, ∀ string, token.lexeme = .string string →
    ∀ first last, token.span.Covers file text first last →
      ∀ digits ∈ codePointTexts (text.extract first (last + 1)), ∀ c ∈ digits,
        Text.isHexDigit c = true

/-- Behind some text, another one is highlighted from outside of comments and strings without an
error, back to there, and its segments run along tokens. -/
def Highlights (file : String) (before text : List Char) (tokens : List Token) : Prop :=
  ∀ previous, ∃ segments, segmentsFrom .start previous text = (segments, .start) ∧
    (∀ segment ∈ segments, segment.IsValid) ∧
      Aligned file (before ++ text) before.length tokens segments

section Along

variable {file : String} {before rest : List Char} {tokens : List Token}

/-- Segments of a gap may stand in front. -/
theorem Aligned.gaps {gaps segments : List Segment} (hgaps : ∀ segment ∈ gaps, segment.IsGap)
    (h : Aligned file (before ++ gaps.flatMap Segment.text ++ rest)
      (before ++ gaps.flatMap Segment.text).length tokens segments) :
    Aligned file (before ++ gaps.flatMap Segment.text ++ rest) before.length tokens
      (gaps ++ segments) := by
  induction gaps generalizing before with
  | nil => simpa using h
  | cons segment gaps ih =>
    obtain ⟨hsegment, hothers⟩ := List.forall_mem_cons.mp hgaps
    rw [List.flatMap_cons, ← List.append_assoc before] at h ⊢
    refine .gap hsegment ?_ ?_ (ih hothers h)
    · rw [List.length_append]
      exact Nat.le_add_right _ _
    · rw [List.append_assoc, List.append_assoc, List.length_append, extract_append_left,
        List.take_left]

theorem Highlights.nil (file : String) (before : List Char) : Highlights file before [] [] := by
  refine fun previous ↦ ⟨[], by rw [segmentsFrom], fun _ h ↦ (List.not_mem_nil h).elim, ?_⟩
  rw [List.append_nil]
  exact .nil

/-- A part of a gap in front. -/
theorem Highlights.gap {part : List Char} (hpart : Cuts Segment.IsGap .start part rest .start)
    (h : Highlights file (before ++ part) rest tokens) :
    Highlights file before (part ++ rest) tokens := by
  intro previous
  obtain ⟨gaps, last, hgaps, htext, hcut⟩ := hpart previous
  obtain ⟨segments, hsegments, hvalid, haligned⟩ := h last
  refine ⟨gaps ++ segments, ?_, ?_, ?_⟩
  · rw [hcut, hsegments]
  · exact List.forall_mem_append.mpr ⟨fun segment hmem ↦ (hgaps segment hmem).isValid, hvalid⟩
  · rw [← htext] at haligned ⊢
    rw [← List.append_assoc]
    exact haligned.gaps hgaps

/-- A run of blanks in front, which does not go on behind it. -/
theorem Highlights.blanks {blanks : List Char} (hblanks : ∀ c ∈ blanks, isGapChar c = true)
    (hrest : ∀ c ∈ rest.head?, Text.isBlank c = false)
    (h : Highlights file (before ++ blanks) rest tokens) :
    Highlights file before (blanks ++ rest) tokens := by
  by_cases hnone : blanks = []
  · subst hnone
    simpa using h
  · exact h.gap (cuts_blanks hnone hblanks hrest)

/-- The slice of a token in front. -/
theorem Highlights.token {slice : List Char} {lexeme : Lexeme} (hspells : Spells slice lexeme)
    (hslice : Cuts Segment.IsValid .start slice rest .start)
    (h : Highlights file (before ++ slice) rest tokens) :
    Highlights file before (slice ++ rest)
      (⟨lexeme, .upTo file (.afterAll .first before) (.afterAll .first (before ++ slice))⟩ ::
        tokens) := by
  intro previous
  obtain ⟨pieces, final, hpieces, htext, hcut⟩ := hslice previous
  obtain ⟨segments, hsegments, hvalid, haligned⟩ := h final
  obtain ⟨last, hcovers, hlast, hextract⟩ := hspells.exists_covers file before rest
  rw [List.append_assoc, ← hlast] at haligned
  refine ⟨pieces ++ segments, ?_, List.forall_mem_append.mpr ⟨hpieces, hvalid⟩,
    .token hcovers (htext.trans hextract.symm) haligned⟩
  rw [hcut, hsegments]

/-- Code points are plain in the tokens behind the first one. -/
theorem PlainCodePoints.tail {text : List Char} {token : Token}
    (h : PlainCodePoints file text (token :: tokens)) : PlainCodePoints file text tokens :=
  fun other hmem ↦ h other (List.mem_cons_of_mem token hmem)

/-- Code points are plain in the slice of the first token. -/
theorem PlainCodePoints.head {slice : List Char} {lexeme : Lexeme} (hspells : Spells slice lexeme)
    (h : PlainCodePoints file (before ++ (slice ++ rest))
      (⟨lexeme, .upTo file (.afterAll .first before) (.afterAll .first (before ++ slice))⟩ ::
        tokens)) (text : String) (htext : lexeme = .string text) :
    ∀ digits ∈ codePointTexts slice, ∀ c ∈ digits, Text.isHexDigit c = true := by
  obtain ⟨last, hcovers, -, hextract⟩ := hspells.exists_covers file before rest
  have hslice := h _ List.mem_cons_self text htext _ _ hcovers
  rwa [hextract] at hslice

/-- Assumes: behind blanks, a text has tokens of lexemes that the grammar has a use for, with plain
code points. It is highlighted along them. -/
theorem highlights_of_tokenized {here : Position} (h : Tokenized file here rest tokens)
    {blanks : List Char} (hblanks : ∀ c ∈ blanks, isGapChar c = true)
    (hhere : here = .afterAll .first (before ++ blanks))
    (hvocabulary : ∀ token ∈ tokens, token.lexeme.InVocabulary)
    (hdigits : PlainCodePoints file (before ++ blanks ++ rest) tokens) :
    Highlights file before (blanks ++ rest) tokens := by
  induction h generalizing before blanks with
  | nil =>
    refine .blanks hblanks ?_ (.nil file _)
    exact fun c hc ↦ by cases hc
  | @gapPart here part rest tokens hpart _ ih =>
    subst hhere
    rcases hpart.isBlank_head with ⟨c, rfl, hc⟩ | hhead
    · have hmore : ∀ d ∈ blanks ++ [c], isGapChar d = true :=
        List.forall_mem_append.mpr ⟨hblanks, List.forall_mem_singleton.mpr hc⟩
      rw [← List.append_assoc]
      refine ih hmore ?_ hvocabulary ?_
      · rw [← Position.afterAll_append, List.append_assoc]
      · simpa only [List.append_assoc] using hdigits
    · refine .blanks hblanks hhead (.gap (cuts_comment hpart hhead) ?_)
      refine ih (List.forall_mem_nil _) ?_ hvocabulary ?_
      · rw [List.append_nil, Position.afterAll_append _ (before ++ blanks)]
      · rwa [List.append_nil, List.append_assoc]
  | @token here slice rest lexeme tokens hspells hrest htokenized ih =>
    subst hhere
    rw [← Position.afterAll_append] at htokenized ih hdigits ⊢
    have hslice : Cuts Segment.IsValid .start slice rest .start :=
      cuts_of_spells hspells (hvocabulary _ List.mem_cons_self) hrest
        htokenized.isWordCharacter_head (PlainCodePoints.head hspells hdigits)
    refine .blanks hblanks (hspells.isBlank_head rest) (.token hspells hslice ?_)
    refine ih (List.forall_mem_nil _) ?_ (List.forall_mem_cons.mp hvocabulary).2 ?_
    · rw [List.append_nil]
    · rw [List.append_nil, List.append_assoc]
      exact hdigits.tail

/-- Assumes: a source with nothing but hexadecimal digits between the opening brace of an escape and
the next closing brace. Code points are plain, whatever the tokens. -/
theorem plainCodePoints_of_tails {text : List Char}
    (h : ∀ tail ∈ text.tails, ['\\', 'u', '{'] <+: tail →
      ((tail.drop 3).takeWhile (· ≠ '}')).all Text.isHexDigit = true) :
    PlainCodePoints file text tokens := by
  intro token _ string _ first last _ digits hdigits c hc
  obtain ⟨front, body, hslice, rfl⟩ := exists_append_of_mem_codePointTexts hdigits
  rw [List.extract_eq_take_drop] at hslice
  let behind := (text.drop first).drop (last + 1 - first)
  have htail : front ++ '\\' :: 'u' :: '{' :: (body ++ behind) <:+ text := by
    have hwhole : front ++ '\\' :: 'u' :: '{' :: body ++ behind = text.drop first := by
      rw [← hslice, List.take_append_drop]
    rw [List.append_assoc] at hwhole
    exact hwhole ▸ List.drop_suffix first text
  have hall := h _ ((List.mem_tails _ _).mpr ((List.suffix_append front _).trans htail))
    (List.prefix_append _ _)
  refine List.all_eq_true.mp hall c ?_
  change c ∈ (body ++ behind).takeWhile (· ≠ '}')
  rw [List.takeWhile_append]
  split
  · exact List.mem_append_left _ ((List.takeWhile_sublist _).subset hc)
  · exact hc

end Along

/-- Assumes: a source that is read as a module. It is read into tokens, and if its code points are
plain, it is highlighted without an error, from outside of comments and strings back to there, and
its segments run along the tokens. -/
theorem aligned_of_read {file : String} {limit : Option NestingLimit} {source : String}
    {m : TypeModule} (h : TypeModule.read file limit source = .ok m) :
    ∃ tokens, TokenList.read file limit source = .ok tokens ∧
      (PlainCodePoints file source.toList tokens.body →
        (segmentsFrom .start none source.toList).2 = .start ∧
        (∀ segment ∈ segments source.toList, segment.category ≠ .error) ∧
        Aligned file source.toList 0 tokens.body (segments source.toList)) := by
  obtain ⟨tokens, htokens, hmodule, -⟩ := TypeModule.read_eq_ok_iff.mp h
  refine ⟨tokens, htokens, fun hdigits ↦ ?_⟩
  obtain ⟨htokenized, -, -⟩ := read_eq_ok_iff_tokenized.mp htokens
  have hvocabulary : ∀ token ∈ tokens.body, token.lexeme.InVocabulary :=
    fun token hmem ↦ (wordedIn_module hmodule).vocabulary _ (List.mem_map_of_mem hmem)
  have hhighlights : Highlights file [] source.toList tokens.body :=
    highlights_of_tokenized htokenized (List.forall_mem_nil _) rfl hvocabulary hdigits
  obtain ⟨found, hfound, hvalid, haligned⟩ := hhighlights none
  have hsegments : segments source.toList = found := by rw [segments, hfound]
  rw [hsegments, hfound]
  exact ⟨rfl, hvalid, haligned⟩

/-- A function with a parameter that bears a display name. -/
def namedParameter : TypeModule :=
  let place : Span := .single "" .first
  ⟨none, [⟨none, .func ⟨none, ⟨[⟨.i32, none, some ⟨"A", place⟩⟩], []⟩⟩, place⟩], place⟩

/-- A source of that function, with the name as an escape, and comments, one of which nests. -/
def escapedName : String := "(func(;(;;);)(param(@name\"\\u\x7b41\x7d\")i32));;"

/-- The source is read as a module, its code points are plain, and highlighting runs along its
tokens. -/
theorem aligned_of_read_escapedName :
    ∃ m tokens, TypeModule.read "" none escapedName = .ok m ∧
      TokenList.read "" none escapedName = .ok tokens ∧
      PlainCodePoints "" escapedName.toList tokens.body ∧
      (segmentsFrom .start none escapedName.toList).2 = .start ∧
      (∀ segment ∈ segments escapedName.toList, segment.category ≠ .error) ∧
      Aligned "" escapedName.toList 0 tokens.body (segments escapedName.toList) := by
  have hhead : Written "@name".toList (.annotationHead "name") :=
    .annotationHead (by decide) (List.all_eq_true.mp (by decide))
  have hescape : Written ('"' :: "\\u\x7b41\x7d".toList ++ ['"']) (.string "A") :=
    .string (.cons (@StringPiece.codePoint "41".toList 'A' (by decide)
      (List.all_eq_true.mp (by decide)) (by decide)) .nil) rfl
  have hcomment (isLast : Bool) : Gap isLast "(;(;;);)".toList :=
    .blockComment (.nested .close .close) .nil
  have hlast : Arranged [.closing] ");;".toList :=
    @Arranged.cons .closing [] [')'] ";;".toList [] .closing (.lastComment rfl (by decide))
      (by simp) (by simp) .nil
  have hname : Arranged [.opening, .annotationHead "name", .string "A", .closing, .keyword "i32",
      .closing, .closing] "(@name\"\\u\x7b41\x7d\")i32));;".toList :=
    .closely .opening rfl (.closely hhead rfl
      (.closely hescape rfl (.closely .closing rfl
        (.closely (written_of_mem_reservedWords (by decide : "i32" ∈ _)) rfl
          (.closely .closing rfl hlast)))))
  have harranged : Arranged namedParameter.lexemes escapedName.toList :=
    .closely .opening rfl (.cons (written_of_mem_reservedWords (by decide : "func" ∈ _))
      (hcomment _) (by simp) (by simp) (.closely .opening rfl
        (.closely (written_of_mem_reservedWords (by decide : "param" ∈ _)) rfl hname)))
  obtain ⟨_, m, -, -, hm, -⟩ := TypeModule.exists_read_of_arrangement ""
    (by decide : namedParameter.WellFormed) ⟨[], _, rfl, .nil, harranged⟩
  obtain ⟨found, hfound, haligned⟩ := aligned_of_read hm
  have hdigits : PlainCodePoints "" escapedName.toList found.body :=
    plainCodePoints_of_tails (by decide)
  exact ⟨m, found, hm, hfound, hdigits, haligned hdigits⟩

end Highlight

end WatTypes
