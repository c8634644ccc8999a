import WatTypes.Span
import WatTypes.Text.Quoted

/-!
# Lexemes and tokens

The lexemes of the text format: parentheses, keywords, identifiers, annotations, numbers, strings
and the end of the input. Identifiers and annotations are held without their sigil, strings by the
text they denote, numbers as they are written. A token is a lexeme at its span.
-/

set_option autoImplicit false
set_option relaxedAutoImplicit false

namespace WatTypes

/-- The smallest unit of the text format. -/
inductive Lexeme where
  /-- An opening parenthesis. -/
  | opening
  /-- A closing parenthesis. -/
  | closing
  /-- A reserved word. -/
  | keyword (word : String)
  /-- An identifier, without its dollar sign. -/
  | id (name : String)
  /-- The head of an annotation, without its at sign. -/
  | annotationHead (name : String)
  /-- An integer as it is written. -/
  | integer (literal : String)
  /-- A number that is not an integer as it is written. -/
  | float (literal : String)
  /-- A string, by the text it denotes. -/
  | string (text : String)
  /-- The end of the input. -/
  | endOfInput
deriving DecidableEq, Repr

namespace Lexeme

/-- The text that a lexeme carries. -/
def text : Lexeme → String
  | .opening => "("
  | .closing => ")"
  | .keyword word => word
  | .id name => name
  | .annotationHead name => name
  | .integer literal => literal
  | .float literal => literal
  | .string text => text
  | .endOfInput => ""

/-- How an error message names a lexeme that it found. -/
def describe : Lexeme → String
  | .opening => "`(`"
  | .closing => "`)`"
  | .keyword word => s!"`{word}`"
  | .id name => s!"`${name}`"
  | .annotationHead name => s!"`@{name}`"
  | .integer literal => s!"`{literal}`"
  | .float literal => s!"`{literal}`"
  | .string text => s!"string {Text.quoted text}"
  | .endOfInput => "end of input"

end Lexeme

/-- A lexeme at its place. -/
structure Token where
  /-- The lexeme. -/
  lexeme : Lexeme
  /-- Where it stands. -/
  span : Span
deriving DecidableEq, Repr

/-- The tokens of a source, and the span at which it ends. -/
structure TokenList where
  /-- The tokens before the end of the input. -/
  body : List Token
  /-- Where the input ends. -/
  stop : Span
deriving DecidableEq, Repr

/-- All tokens, the end of the input last. -/
def TokenList.toList (tokens : TokenList) : List Token :=
  tokens.body ++ [⟨.endOfInput, tokens.stop⟩]

/-- The punctuation that words may hold. -/
def idPunctuation : List Char := "!#$%&'*+-./:<=>?@\\^_`|~".toList

/-- Whether a character can be part of a keyword, an identifier, an annotation or a number. -/
def isIdChar (c : Char) : Bool := c.isAlphanum || idPunctuation.contains c

/-- The characters of words are visible ones of ASCII. -/
theorem toNat_of_isIdChar {c : Char} (h : isIdChar c = true) : 33 ≤ c.toNat ∧ c.toNat ≤ 126 := by
  have hall : ∀ d ∈ idPunctuation, decide (33 ≤ d.toNat ∧ d.toNat ≤ 126) = true :=
    List.all_eq_true.mp (by decide)
  rw [isIdChar, Bool.or_eq_true] at h
  rcases h with halphanum | hpunctuation
  · change (decide (65 ≤ c.val ∧ c.val ≤ 90) || decide (97 ≤ c.val) && decide (c.val ≤ 122) ||
      decide (48 ≤ c.val) && decide (c.val ≤ 57)) = true at halphanum
    simp only [Bool.or_eq_true, Bool.and_eq_true, decide_eq_true_eq, UInt32.le_iff_toNat_le]
      at halphanum
    change ((65 ≤ c.toNat ∧ c.toNat ≤ 90) ∨ 97 ≤ c.toNat ∧ c.toNat ≤ 122) ∨
      48 ≤ c.toNat ∧ c.toNat ≤ 57 at halphanum
    omega
  · exact of_decide_eq_true (hall c (List.contains_iff_mem.mp hpunctuation))

end WatTypes
