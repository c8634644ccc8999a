import WatTypes.GrammarError
import WatTypes.Token

/-!
# A cursor over tokens

The tokens of a source are read from left to right through a cursor, which holds the tokens it has
passed and those ahead of it. Behind the last of them the end of the input shows at every distance,
and the cursor never moves past it. A cursor is asked for tokens at a distance (`Cursor.tokenAt`)
and for the elements of the grammar (`Cursor.shows`), of which none needs more than two tokens to be
told. Rules look ahead only; a reader from outside may also look back (`Cursor.tokenAtOffset?`).
-/

set_option autoImplicit false
set_option relaxedAutoImplicit false

namespace WatTypes

/-- A place between the tokens of a source. -/
structure Cursor where
  /-- The tokens passed, the nearest first. -/
  behind : List Token
  /-- The tokens ahead, without the end of the input. -/
  ahead : List Token
  /-- Where the input ends. -/
  stop : Span
deriving DecidableEq, Repr

/-- A unit of the grammar that is told by its first one or two tokens. -/
inductive Element where
  /-- A reserved word. -/
  | keyword (word : String)
  /-- An unsigned integer of 32 bits. -/
  | unsigned
  /-- An identifier. -/
  | id
  /-- A string. -/
  | string
  /-- A display name in its parentheses. -/
  | displayName
  /-- A reference by number or by identifier. -/
  | index
deriving DecidableEq, Repr

namespace Element

/-- How a message names an element that it expected. -/
def display : Element → String
  | .keyword word => s!"`{word}`"
  | .unsigned => "u32"
  | .id => "identifier"
  | .string => "string"
  | .displayName => "`(@name ...)`"
  | .index => "index"

/-- What an element denotes. -/
abbrev Value : Element → Type
  | .keyword _ => Span
  | .unsigned => Nat
  | .id => Id
  | .string => String
  | .displayName => DisplayName
  | .index => Index

end Element

namespace Cursor

/-- The cursor before the first token. -/
def start (tokens : TokenList) : Cursor := ⟨[], tokens.body, tokens.stop⟩

/-- The number of tokens passed. -/
def position (here : Cursor) : Nat := here.behind.length

/-- The token at the end of the input. -/
def endToken (here : Cursor) : Token := ⟨.endOfInput, here.stop⟩

/-- The token at a distance from the cursor; behind the last one the end of the input. -/
def tokenAt (here : Cursor) (distance : Nat) : Token :=
  (here.ahead[distance]?).getD here.endToken

/-- The next token. -/
def current (here : Cursor) : Token := here.tokenAt 0

/-- The cursor behind the next token; at the end of the input it stays. -/
def advance (here : Cursor) : Cursor :=
  match here.ahead with
  | [] => here
  | token :: rest => ⟨token :: here.behind, rest, here.stop⟩

/-- The token at an offset from the cursor; a negative one counts the tokens passed. Before the
first token the count goes on with the end of the input and the tokens before it, once around. -/
def tokenAtOffset? (here : Cursor) : Int → Option Token
  | .ofNat distance => some (here.tokenAt distance)
  | .negSucc back => (here.behind ++ here.endToken :: here.ahead.reverse ++ here.behind)[back]?

/-- Whether the input ends here. -/
def isAtEnd (here : Cursor) : Bool := here.current.lexeme == .endOfInput

/-- Whether the group around the cursor holds nothing more. -/
def isGroupEnd (here : Cursor) : Bool :=
  here.current.lexeme == .closing || here.current.lexeme == .endOfInput

/-- Whether an element shows at a distance from the cursor. -/
def shows (here : Cursor) (distance : Nat) : Element → Bool
  | .keyword word => ((here.tokenAt distance).keyword? word).isSome
  | .unsigned => (here.tokenAt distance).unsigned?.isSome
  | .id => (here.tokenAt distance).id?.isSome
  | .string => (here.tokenAt distance).string?.isSome
  | .displayName =>
    (here.tokenAt distance).lexeme == .opening &&
      (here.tokenAt (distance + 1)).lexeme == .annotationHead "name"
  | .index => (here.tokenAt distance).index?.isSome

/-- Whether a group that starts with an element comes next. -/
def opensWith (here : Cursor) (element : Element) : Bool :=
  here.current.lexeme == .opening && here.shows 1 element

/-- The error that the next token is none of the given alternatives. -/
def unexpected (here : Cursor) (expected : List String) : GrammarError :=
  .unexpected expected here.current.lexeme.describe here.current.span

/-- Whether a group of parameters or of results comes next. -/
def opensSignatureGroup (here : Cursor) : Bool :=
  here.opensWith (.keyword "param") || here.opensWith (.keyword "result")

/-! ### Small facts -/

@[simp] theorem current_cons (behind : List Token) (token : Token) (rest : List Token)
    (stop : Span) : current ⟨behind, token :: rest, stop⟩ = token := rfl

@[simp] theorem advance_cons (behind : List Token) (token : Token) (rest : List Token)
    (stop : Span) : advance ⟨behind, token :: rest, stop⟩ = ⟨token :: behind, rest, stop⟩ := rfl

@[simp] theorem position_start (tokens : TokenList) : (start tokens).position = 0 := rfl

end Cursor

end WatTypes
