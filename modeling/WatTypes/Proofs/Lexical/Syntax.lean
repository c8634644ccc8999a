import Mathlib.Computability.Language
import WatTypes.Lexeme.Scan

/-!
# The lexical grammar as a relation

What a source may be written as, without saying how it is read. Number literals are the words of two
regular languages (`integer`, `float`). A string literal is a sequence of characters and escapes
that stand for bytes, and denotes the text whose UTF-8 form these bytes are (`StringInside`). Block
comments nest (`CommentInside`). A source is a sequence of lexemes as they may be written
(`Written`), with gaps of blanks and comments before, between and behind them (`Arrangement`).
-/

set_option autoImplicit false
set_option relaxedAutoImplicit false

namespace WatTypes.Lexeme.Syntax

open scoped Computability

/-! ### Numbers -/

/-- A single character of a kind. -/
def oneOf (test : Char → Bool) : Language Char := {word | ∃ c, test c = true ∧ word = [c]}

/-- A single text. -/
def exactly (text : String) : Language Char := {text.toList}

/-- A text that may be missing. -/
def maybe (language : Language Char) : Language Char := 1 + language

/-- A run of digits, single low lines allowed between them. -/
def digits (isDigit : Char → Bool) : Language Char :=
  oneOf isDigit * (maybe (exactly "_") * oneOf isDigit)∗

/-- A sign, or none. -/
def sign : Language Char := 1 + exactly "+" + exactly "-"

/-- An integer literal: decimal digits, or hexadecimal ones after `0x`, with an optional sign. -/
def integer : Language Char :=
  sign * (exactly "0x" * digits Text.isHexDigit + digits Char.isDigit)

/-- Digits with an optional point, behind which digits may be missing. -/
def pointed (isDigit : Char → Bool) : Language Char :=
  digits isDigit * maybe (exactly "." * maybe (digits isDigit))

/-- Digits with an optional point, and an optional exponent in decimal digits behind a mark. -/
def scaled (isDigit isMark : Char → Bool) : Language Char :=
  pointed isDigit * maybe (oneOf isMark * (sign * digits Char.isDigit))

/-- A float literal without its sign: an infinity, a NaN, or a hexadecimal or decimal number. -/
def unsignedFloat : Language Char :=
  exactly "inf" + exactly "nan" * maybe (exactly ":0x" * digits Text.isHexDigit) +
    exactly "0x" * scaled Text.isHexDigit (fun c ↦ c == 'p' || c == 'P') +
    scaled Char.isDigit (fun c ↦ c == 'e' || c == 'E')

/-- A float literal. -/
def float : Language Char := sign * unsignedFloat

/-! ### Strings -/

/-- The letters that are escapes, each with the character that it stands for. -/
def letterEscapes : List (Char × Char) :=
  [('n', '\n'), ('t', '\t'), ('r', '\r'), ('\\', '\\'), ('\'', '\''), ('"', '"')]

/-- A character or an escape of a string literal, with the bytes it stands for. -/
inductive StringPiece : List Char → List UInt8 → Prop
  /-- A character stands for itself, other than a quotation mark, a backslash or a line feed. -/
  | char {c : Char} : c ≠ '"' → c ≠ '\\' → c ≠ '\n' → StringPiece [c] (String.utf8EncodeChar c)
  /-- A letter escape. -/
  | letter {letter meant : Char} : (letter, meant) ∈ letterEscapes →
    StringPiece ['\\', letter] (String.utf8EncodeChar meant)
  /-- A single byte by its two hexadecimal digits. -/
  | byte {high low : Char} {h l : Nat} :
    Text.hexValue? high = some h → Text.hexValue? low = some l →
    StringPiece ['\\', high, low] [UInt8.ofNat (h * 16 + l)]
  /-- A character by its code point. -/
  | codePoint {digits : List Char} {c : Char} : digits ≠ [] →
    (∀ digit ∈ digits, Text.isHexDigit digit = true) → Text.ofDigits 16 digits = c.toNat →
    StringPiece ('\\' :: 'u' :: '{' :: digits ++ ['}']) (String.utf8EncodeChar c)

/-- The inside of a string literal, with the bytes it stands for. -/
inductive StringInside : List Char → List UInt8 → Prop
  /-- Nothing. -/
  | nil : StringInside [] []
  /-- A piece in front. -/
  | cons {piece rest : List Char} {bytes others : List UInt8} :
    StringPiece piece bytes → StringInside rest others →
    StringInside (piece ++ rest) (bytes ++ others)

/-! ### Lexemes -/

/-- A text may be written for a lexeme. Among the words, integers come before other numbers, and
numbers before reserved words. -/
inductive Written : List Char → Lexeme → Prop
  /-- An opening parenthesis. -/
  | opening : Written ['('] .opening
  /-- A closing parenthesis. -/
  | closing : Written [')'] .closing
  /-- An identifier. -/
  | id {name : List Char} : name ≠ [] → (∀ c ∈ name, isIdChar c = true) →
    Written ('$' :: name) (.id (String.ofList name))
  /-- The head of an annotation. -/
  | annotationHead {name : List Char} : name ≠ [] → (∀ c ∈ name, isIdChar c = true) →
    Written ('@' :: name) (.annotationHead (String.ofList name))
  /-- An integer. -/
  | integer {word : List Char} : word ∈ integer → Written word (.integer (String.ofList word))
  /-- A number that is not an integer. -/
  | float {word : List Char} : word ∈ float → word ∉ integer →
    Written word (.float (String.ofList word))
  /-- A reserved word. -/
  | keyword {c : Char} {rest : List Char} : 'a' ≤ c ∧ c ≤ 'z' →
    (∀ d ∈ c :: rest, isIdChar d = true) → c :: rest ∉ float →
    Written (c :: rest) (.keyword (String.ofList (c :: rest)))
  /-- A string. -/
  | string {inside : List Char} {bytes : List UInt8} {text : String} :
    StringInside inside bytes → String.fromUTF8? ⟨bytes.toArray⟩ = some text →
    Written ('"' :: inside ++ ['"']) (.string text)

/-- Whether a lexeme is a word, which another word behind it would continue. -/
def isWord : Lexeme → Bool
  | .opening | .closing | .string _ | .endOfInput => false
  | .keyword _ | .id _ | .annotationHead _ | .integer _ | .float _ => true

/-! ### Gaps -/

/-- A block comment from behind its opening mark up to and with the mark that closes it. -/
inductive CommentInside : List Char → Prop
  /-- The closing mark. -/
  | close : CommentInside [';', ')']
  /-- A character that starts no mark. -/
  | char {c : Char} {rest : List Char} : ¬ ['(', ';'] <+: c :: rest → ¬ [';', ')'] <+: c :: rest →
    CommentInside rest → CommentInside (c :: rest)
  /-- A comment inside of the comment. -/
  | nested {inner rest : List Char} : CommentInside inner → CommentInside rest →
    CommentInside ('(' :: ';' :: inner ++ rest)

/-- Blanks and comments; only at the end of a source a line comment needs no end of its line. -/
inductive Gap (isLast : Bool) : List Char → Prop
  /-- Nothing. -/
  | nil : Gap isLast []
  /-- A blank. -/
  | blank {c : Char} {rest : List Char} : isGapChar c = true → Gap isLast rest →
    Gap isLast (c :: rest)
  /-- A line comment, and the end of its line. -/
  | lineComment {comment rest : List Char} : '\n' ∉ comment → Gap isLast rest →
    Gap isLast (';' :: ';' :: comment ++ '\n' :: rest)
  /-- A line comment at the end of the source. -/
  | lastComment {comment : List Char} : isLast = true → '\n' ∉ comment →
    Gap isLast (';' :: ';' :: comment)
  /-- A block comment. -/
  | blockComment {inside rest : List Char} : CommentInside inside → Gap isLast rest →
    Gap isLast ('(' :: ';' :: inside ++ rest)

/-! ### Sources -/

/-- Lexemes as they may be written, each with a gap behind it. Two words have something between
them, and no comment of a line starts right behind an opening parenthesis. -/
inductive Arranged : List Lexeme → List Char → Prop
  /-- Nothing. -/
  | nil : Arranged [] []
  /-- A lexeme and a gap in front. -/
  | cons {lexeme : Lexeme} {others : List Lexeme} {written gap rest : List Char} :
    Written written lexeme → Gap others.isEmpty gap →
    (lexeme = .opening → ¬ [';', ';'] <+: gap) →
    (isWord lexeme = true → (∃ second ∈ others.head?, isWord second = true) → gap ≠ []) →
    Arranged others rest → Arranged (lexeme :: others) (written ++ (gap ++ rest))

/-- A source of lexemes: a gap, and behind it the lexemes with theirs. -/
def Arrangement (lexemes : List Lexeme) (source : List Char) : Prop :=
  ∃ gap rest, source = gap ++ rest ∧ Gap lexemes.isEmpty gap ∧ Arranged lexemes rest

end WatTypes.Lexeme.Syntax
