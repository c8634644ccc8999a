import WatTypes.Proofs.Lexical.Escapes
import WatTypes.Proofs.Lexical.Tokenized

/-!
# Which string literals are accepted

The grammar writes a code point as hexadecimal digits in braces. Reading accepts every numeral of it
that the braces hold, and nothing else that the grammar has not: each token of a string is over a
literal whose pieces are those of the grammar but for these numerals (`strings_of_read`), and each
such literal is read as a string (`read_of_lenientInside`). The padding of a numeral may be a line
feed, so that a literal goes on over several lines, which it does for no other reason.
-/

set_option autoImplicit false
set_option relaxedAutoImplicit false

namespace WatTypes

open Lexeme Lexeme.Syntax Scan

/-! ### Lines of literals -/

namespace Lexeme

variable {piece body : List Char} {bytes : List UInt8}

/-- There is a line feed in the braces of a code point. -/
def BreaksInBraces (body : List Char) : Prop := ∃ numeral ∈ codePointTexts body, '\n' ∈ numeral

/-- A piece of the grammar stays on its line. -/
theorem notMem_of_stringPiece (h : StringPiece piece bytes) : '\n' ∉ piece := by
  have hdigit (c : Char) (hc : Text.isHexDigit c = true) : c ≠ '\n' := ne_of_digit hc (by decide)
  cases h with
  | char _ _ hfeed => simpa using hfeed.symm
  | letter hletter =>
    simp only [letterEscapes, List.mem_cons, Prod.mk.injEq, List.not_mem_nil, or_false] at hletter
    rcases hletter with ⟨rfl, -⟩ | ⟨rfl, -⟩ | ⟨rfl, -⟩ | ⟨rfl, -⟩ | ⟨rfl, -⟩ | ⟨rfl, -⟩ <;> decide
  | @byte high low h l hupper hlower =>
    have hhigh := hdigit high (by rw [Text.isHexDigit, hupper, Option.isSome_some])
    have hlow := hdigit low (by rw [Text.isHexDigit, hlower, Option.isSome_some])
    simp [hhigh.symm, hlow.symm]
  | @codePoint digits _ _ hdigits _ =>
    have hinside : '\n' ∉ digits := fun hmem ↦ hdigit _ (hdigits _ hmem) rfl
    simp [hinside]

/-- A piece that goes on over several lines does so in braces. -/
theorem mem_piece_iff_breaksInBraces (h : LenientPiece piece bytes) :
    '\n' ∈ piece ↔ BreaksInBraces piece := by
  cases h with
  | plain hpiece =>
    refine iff_of_false (notMem_of_stringPiece hpiece) ?_
    rintro ⟨numeral, hnumeral, hmem⟩
    have hdigit := (codePointTexts_append_of_stringPiece hpiece []).2 numeral hnumeral _ hmem
    exact absurd hdigit (by decide)
  | @codePoint numeral _ hbrace _ =>
    have htexts := codePointTexts_codePoint hbrace []
    rw [codePointTexts_nil] at htexts
    have hpiece : '\\' :: 'u' :: '{' :: numeral ++ ['}'] =
        '\\' :: 'u' :: '{' :: (numeral ++ '}' :: []) := rfl
    rw [hpiece, BreaksInBraces, htexts]
    simp

/-- A literal that goes on over several lines does so in braces. -/
theorem mem_inside_iff_breaksInBraces (h : LenientInside body bytes) :
    '\n' ∈ body ↔ BreaksInBraces body := by
  induction h with
  | nil => simp [BreaksInBraces, codePointTexts_nil]
  | cons hpiece _ ih =>
    rw [List.mem_append, mem_piece_iff_breaksInBraces hpiece, ih, BreaksInBraces, BreaksInBraces,
      BreaksInBraces, codePointTexts_append_of_lenientPiece hpiece]
    simp only [List.mem_append, or_and_right, exists_or]

/-- Every literal that is accepted is read as the text whose bytes its pieces stand for. -/
theorem read_of_lenientInside (file : String) (limit : Option NestingLimit) {text : String}
    (h : LenientInside body (text.toList.flatMap String.utf8EncodeChar)) :
    let stop := Position.first.afterAll ('"' :: body ++ ['"'])
    TokenList.read file limit (String.ofList ('"' :: body ++ ['"'])) =
      .ok ⟨[⟨.string text, .upTo file .first stop⟩], .upTo file stop stop⟩ := by
  intro stop
  have hspells : Spells ('"' :: body ++ ['"']) (.string text) :=
    .string (isLiteralBody_iff_lenientInside.mpr h)
  have htokenized : Tokenized file .first (('"' :: body ++ ['"']) ++ [])
      [⟨.string text, .upTo file .first stop⟩] := .token hspells (mayPrecede_nil _) .nil
  rw [List.append_nil] at htokenized
  rw [read_eq_ok_iff_tokenized, String.toList_ofList]
  exact ⟨htokenized, nests_of_isPlain (by simp [IsPlain]), rfl⟩

end Lexeme

/-! ### Tokens of strings -/

/-- A span is on a single line if the characters before its last one end none. -/
theorem Span.Covers.isSingleLine_iff {file : String} {text : List Char} {span : Span}
    {first last : Nat} (h : Covers file text span first last) :
    span.isSingleLine = true ↔ '\n' ∉ text.extract first last := by
  have hsplit : text.take last = text.take first ++ text.extract first last := by
    rw [List.extract_eq_take_drop, ← List.take_add, Nat.add_sub_cancel' h.ordered]
  rw [isSingleLine, beq_iff_eq, h.first, h.last, Position.ofOffset, Position.ofOffset, hsplit,
    List.count_append, ← List.count_eq_zero]
  simp only
  omega

/-- What a span covers ends with the character at its last offset. -/
theorem Span.Covers.exists_extract_eq {file : String} {text : List Char} {span : Span}
    {first last : Nat} (h : Covers file text span first last) :
    ∃ c, text.extract first (last + 1) = text.extract first last ++ [c] := by
  have hordered := h.ordered
  have hlast : last - first < (text.drop first).length := by
    have hinside := h.inside
    rw [List.length_drop]
    omega
  refine ⟨(text.drop first)[last - first], ?_⟩
  rw [List.extract_eq_take_drop, List.extract_eq_take_drop, Nat.succ_sub hordered,
    List.take_succ_eq_append_getElem hlast]

/-- A token is over a slice that shows it. -/
theorem Tiles.exists_of_mem {shows : List Char → Lexeme → Prop} {file : String} {text : List Char}
    {start : Nat} {tokens : List Token} (h : Tiles shows file text start tokens) {token : Token}
    (hmem : token ∈ tokens) : ∃ first last, token.span.Covers file text first last ∧
      shows (text.extract first (last + 1)) token.lexeme := by
  induction h with
  | nil _ => cases hmem
  | cons _ _ hcovers hshows _ ih =>
    rcases List.mem_cons.mp hmem with rfl | hbehind
    · exact ⟨_, _, hcovers, hshows⟩
    · exact ih hbehind

/-- The tokens that are read are over slices that spell them. -/
theorem tiles_spells_of_read {file source : String} {limit : Option NestingLimit}
    {tokens : TokenList} (h : TokenList.read file limit source = .ok tokens) :
    Tiles Spells file source.toList 0 tokens.body := by
  obtain ⟨hclean, rfl⟩ := read_eq_ok_iff.mp h
  have htiles : Tiles Spells file ([] ++ source.toList) 0
      ((ofSource file limit source).tokens file).body :=
    tiles_of_readFrom rfl (map_token_of_diagnostic? hclean)
  exact htiles

/-- A token is over a literal of a string, of which the inside is `body`. -/
structure IsOverLiteral (file : String) (source : List Char) (token : Token) (text : String)
    (body : List Char) : Prop where
  /-- The token covers the literal, with both its marks. -/
  covers : ∃ first last, token.span.Covers file source first last ∧
    source.extract first (last + 1) = '"' :: body ++ ['"']
  /-- The pieces of the literal stand for the bytes of the string, with any numerals in braces. -/
  inside : LenientInside body (text.toList.flatMap String.utf8EncodeChar)
  /-- The literal is one of the grammar if and only if these are hexadecimal digits alone. -/
  stringInside_iff : StringInside body (text.toList.flatMap String.utf8EncodeChar) ↔
    ∀ numeral ∈ codePointTexts body, ∀ c ∈ numeral, Text.isHexDigit c = true
  /-- It is on a single line if and only if none of them holds a line feed. -/
  isSingleLine_iff : token.span.isSingleLine = true ↔ ¬BreaksInBraces body

/-- Assumes: a source is read. Each token of a string in it is over a literal whose pieces are those
of the grammar, but for the numerals in braces. -/
theorem strings_of_read (file source : String) (limit : Option NestingLimit) (tokens : TokenList)
    (h : TokenList.read file limit source = .ok tokens) (token : Token)
    (hmem : token ∈ tokens.body) (text : String) (htext : token.lexeme = .string text) :
    ∃ body, IsOverLiteral file source.toList token text body := by
  obtain ⟨first, last, hcovers, hspells⟩ := (tiles_spells_of_read h).exists_of_mem hmem
  rw [htext] at hspells
  generalize hslice : source.toList.extract first (last + 1) = slice at hspells
  cases hspells with
  | word _ hlexeme => exact absurd rfl ((kind_of_ofWord hlexeme).2 text)
  | @string body _ hbody =>
    have hinside := isLiteralBody_iff_lenientInside.mp hbody
    have hline : source.toList.extract first last = '"' :: body := by
      obtain ⟨c, hlast⟩ := hcovers.exists_extract_eq
      exact (List.append_inj_left' (hslice.symm.trans hlast) rfl).symm
    refine ⟨body, ⟨first, last, hcovers, hslice⟩, hinside, ?_, ?_⟩
    · rw [Lexeme.stringInside_iff]
      exact and_iff_right hinside
    · rw [hcovers.isSingleLine_iff, hline, ← mem_inside_iff_breaksInBraces hinside]
      simp

/-! ### Undocumented numerals -/

/-- The escape of a code point with a character in front of its digits. -/
def markedEscape (mark : Char) : List Char := '\\' :: 'u' :: '{' :: [mark, '4', '1'] ++ ['}']

/-- The literal of that escape alone. -/
def markedLiteral (mark : Char) : String := String.ofList ('"' :: markedEscape mark ++ ['"'])

/-- What is no hexadecimal digit is no part of an escape of the grammar. -/
theorem not_stringInside_markedEscape {mark : Char} (hmark : Text.isHexDigit mark = false)
    (hbrace : '}' ≠ mark) (bytes : List UInt8) : ¬StringInside (markedEscape mark) bytes := by
  intro hinside
  have htexts := @codePointTexts_codePoint [mark, '4', '1'] (by simp [hbrace]) []
  have hdigit := (stringInside_iff.mp hinside).2 [mark, '4', '1'] (htexts ▸ List.mem_cons_self) mark
    List.mem_cons_self
  rw [hmark] at hdigit
  cases hdigit

/-- The escape is accepted for the character that the reader of numerals finds in it. -/
theorem lenientInside_markedEscape {mark : Char} (hbrace : '}' ≠ mark)
    (h : Text.HexNumeral.codePoint? [mark, '4', '1'] = some 'A') :
    LenientInside (markedEscape mark) ("A".toList.flatMap String.utf8EncodeChar) := by
  have hpiece : LenientPiece (markedEscape mark) (String.utf8EncodeChar 'A') :=
    .codePoint (by simp [hbrace]) (Text.HexNumeral.codePoint?_eq_some_iff.mp h)
  have hinside : LenientInside (markedEscape mark ++ []) (String.utf8EncodeChar 'A' ++ []) :=
    .cons hpiece .nil
  rwa [List.append_nil] at hinside

/-- The escape is accepted with a sign. -/
theorem read_signed : TokenList.read "" none (markedLiteral '+') =
    .ok ⟨[⟨.string "A", ⟨"", ⟨1, 1⟩, ⟨1, 9⟩⟩⟩], .upTo "" ⟨1, 10⟩ ⟨1, 10⟩⟩ :=
  read_of_lenientInside "" none (lenientInside_markedEscape (by decide) rfl)

/-- The escape is accepted with a line feed. -/
theorem read_broken : TokenList.read "" none (markedLiteral '\n') =
    .ok ⟨[⟨.string "A", ⟨"", ⟨1, 1⟩, ⟨2, 4⟩⟩⟩], .upTo "" ⟨2, 5⟩ ⟨2, 5⟩⟩ :=
  read_of_lenientInside "" none (lenientInside_markedEscape (by decide) rfl)

theorem strings_of_read_markedLiterals :
    (∃ body, IsOverLiteral "" (markedLiteral '+').toList ⟨.string "A", ⟨"", ⟨1, 1⟩, ⟨1, 9⟩⟩⟩ "A"
      body) ∧
    ∃ body, IsOverLiteral "" (markedLiteral '\n').toList ⟨.string "A", ⟨"", ⟨1, 1⟩, ⟨2, 4⟩⟩⟩ "A"
      body :=
  ⟨strings_of_read "" _ none _ read_signed _ List.mem_cons_self "A" rfl,
    strings_of_read "" _ none _ read_broken _ List.mem_cons_self "A" rfl⟩

/-- Two literals that are read, although neither is one of the grammar. One of them goes on over two
lines. -/
theorem exists_read_markedLiterals :
    (∀ mark ∈ ['+', '\n'], (∃ tokens, TokenList.read "" none (markedLiteral mark) = .ok tokens) ∧
      ∀ body bytes, (markedLiteral mark).toList = '"' :: body ++ ['"'] →
        ¬StringInside body bytes) ∧
    ∃ tokens token, TokenList.read "" none (markedLiteral '\n') = .ok tokens ∧
      tokens.body = [token] ∧ token.lexeme = .string "A" ∧ token.span.isSingleLine = false := by
  have hforeign (mark : Char) (hmark : Text.isHexDigit mark = false) (hbrace : '}' ≠ mark)
      (body : List Char) (bytes : List UInt8)
      (h : (markedLiteral mark).toList = '"' :: body ++ ['"']) : ¬StringInside body bytes := by
    rw [markedLiteral, String.toList_ofList] at h
    have hbody : markedEscape mark = body := List.append_cancel_right (List.cons.inj h).2
    exact hbody ▸ not_stringInside_markedEscape hmark hbrace bytes
  refine ⟨?_, _, _, read_broken, rfl, rfl, rfl⟩
  rw [List.forall_mem_cons, List.forall_mem_singleton]
  exact ⟨⟨⟨_, read_signed⟩, hforeign '+' (by decide) (by decide)⟩,
    ⟨⟨_, read_broken⟩, hforeign '\n' (by decide) (by decide)⟩⟩

end WatTypes
