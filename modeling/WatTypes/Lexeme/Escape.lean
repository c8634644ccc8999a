import WatTypes.Lexeme.Fault
import WatTypes.Text.HexNumeral

/-!
# Escapes in string literals

What follows a backslash in a string literal: a letter for a control character, a quotation mark
or a backslash, two hexadecimal digits for one byte, or `u` and a code point in braces, which
stands for the bytes of its UTF-8 form. An escape that is none of these contributes no bytes and a
fault. In every case the characters taken and the characters left make up the text
(`taken_append_rest_readEscape`).
-/

set_option autoImplicit false
set_option relaxedAutoImplicit false

namespace WatTypes.Lexeme

/-- An escape that has been read. -/
structure Escape where
  /-- The bytes it stands for, or what is wrong with it. -/
  bytes : Except Fault (List UInt8)
  /-- The characters that belong to it, without the backslash. -/
  taken : List Char
  /-- The characters behind it. -/
  rest : List Char

/-- The character that a one-letter escape stands for. -/
def escapedLetter? : Char → Option Char
  | 'n' => some '\n'
  | 't' => some '\t'
  | 'r' => some '\r'
  | '\\' => some '\\'
  | '\'' => some '\''
  | '"' => some '"'
  | _ => none

/-- The character that the text in the braces of a code point escape denotes, as bytes. -/
def codePointBytes (digits : List Char) : Except Fault (List UInt8) :=
  match Text.HexNumeral.codePoint? digits with
  | some c => .ok (String.utf8EncodeChar c)
  | none => .error .malformedCodePoint

/-- A code point escape, from behind its opening brace: it reaches to the closing brace, or to the
end of the text where there is none. -/
def readCodePoint (cs : List Char) : Escape :=
  let digits := cs.takeWhile (· ≠ '}')
  match cs.dropWhile (· ≠ '}') with
  | [] => ⟨codePointBytes digits, digits, []⟩
  | brace :: rest => ⟨codePointBytes digits, digits ++ [brace], rest⟩

/-- An escape of two hexadecimal digits, the first of which has been read. -/
def readByte (high : Char) : List Char → Escape
  | low :: rest =>
    match Text.hexValue? high, Text.hexValue? low with
    | some h, some l => ⟨.ok [UInt8.ofNat (h * 16 + l)], [high, low], rest⟩
    | _, _ => ⟨.error (.unknownEscape high), [high], low :: rest⟩
  | [] => ⟨.error (.unknownEscape high), [high], []⟩

/-- The escape that a text behind a backslash starts with. -/
def readEscape : List Char → Escape
  | [] => ⟨.error .endInEscape, [], []⟩
  | c :: rest =>
    match escapedLetter? c with
    | some letter => ⟨.ok (String.utf8EncodeChar letter), [c], rest⟩
    | none =>
      match c, rest with
      | 'u', '{' :: body =>
        let inner := readCodePoint body
        { inner with taken := 'u' :: '{' :: inner.taken }
      | _, _ => readByte c rest

theorem taken_append_rest_readCodePoint (cs : List Char) :
    (readCodePoint cs).taken ++ (readCodePoint cs).rest = cs := by
  have whole : cs.takeWhile (· ≠ '}') ++ cs.dropWhile (· ≠ '}') = cs :=
    List.takeWhile_append_dropWhile
  unfold readCodePoint
  split
  · rename_i h
    simpa only [h] using whole
  · rename_i brace rest h
    rw [h] at whole
    simpa using whole

theorem taken_append_rest_readByte (high : Char) (cs : List Char) :
    (readByte high cs).taken ++ (readByte high cs).rest = high :: cs := by
  unfold readByte
  split
  · split <;> rfl
  · rfl

/-- An escape takes characters from the front of the text and leaves the others. -/
theorem taken_append_rest_readEscape (cs : List Char) :
    (readEscape cs).taken ++ (readEscape cs).rest = cs := by
  unfold readEscape
  split
  · rfl
  · rename_i c rest
    split
    · rfl
    · split
      · rename_i body _
        simpa using taken_append_rest_readCodePoint body
      · exact taken_append_rest_readByte c rest

theorem length_rest_readEscape_le (cs : List Char) :
    (readEscape cs).rest.length ≤ cs.length := by
  have whole := congrArg List.length (taken_append_rest_readEscape cs)
  rw [List.length_append] at whole
  omega

end WatTypes.Lexeme
