import WatTypes.Lexeme
import WatTypes.Lexeme.Number
import WatTypes.Tree

/-!
# What single tokens denote

Most of the grammar's units are one token long: a reserved word, an unsigned integer of 32 bits, an
identifier, a string, a reference, a value type, an element type. Each function here gives what a
token denotes when it is read as such a unit, and nothing when it is none.
-/

set_option autoImplicit false
set_option relaxedAutoImplicit false

namespace WatTypes.Token

/-- The place of a token that is a given reserved word. -/
def keyword? (word : String) (token : Token) : Option Span :=
  if token.lexeme = .keyword word then some token.span else none

/-- The value of an unsigned integer of 32 bits. -/
def unsigned? (token : Token) : Option Nat :=
  match token.lexeme with
  | .integer literal => Lexeme.Number.unsigned32? literal
  | _ => none

/-- An identifier. -/
def id? (token : Token) : Option Id :=
  match token.lexeme with
  | .id name => some ⟨name, token.span⟩
  | _ => none

/-- The text of a string. -/
def string? (token : Token) : Option String :=
  match token.lexeme with
  | .string text => some text
  | _ => none

/-- A reference by number or by identifier. -/
def index? (token : Token) : Option Index :=
  match token.lexeme with
  | .integer literal =>
    (Lexeme.Number.unsigned32? literal).map fun value ↦ ⟨.number value, token.span⟩
  | .id name => some ⟨.symbol name, token.span⟩
  | _ => none

/-- A value type. -/
def valType? (token : Token) : Option ValType :=
  match token.lexeme with
  | .keyword word => ValType.ofKeyword? word
  | _ => none

/-- An element type. -/
def elemType? (token : Token) : Option ElemType :=
  match token.lexeme with
  | .keyword word => ElemType.ofKeyword? word
  | _ => none

/-! ### Tokens by their meaning -/

theorem keyword?_eq_some_iff {word : String} {token : Token} {span : Span} :
    token.keyword? word = some span ↔ token = ⟨.keyword word, span⟩ := by
  obtain ⟨lexeme, place⟩ := token
  simp [keyword?]

theorem id?_eq_some_iff {token : Token} {id : Id} :
    token.id? = some id ↔ token = ⟨.id id.name, id.span⟩ := by
  obtain ⟨lexeme, place⟩ := token
  obtain ⟨name, span⟩ := id
  cases lexeme <;> simp [id?]

theorem string?_eq_some_iff {token : Token} {text : String} :
    token.string? = some text ↔ token.lexeme = .string text := by
  obtain ⟨lexeme, place⟩ := token
  cases lexeme <;> simp [string?]

end WatTypes.Token
