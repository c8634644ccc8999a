import WatTypes.Diagnostic

/-!
# Grammar errors

Reading a grammar rule stops at the first error: the next token is none of those that could come
next, or a group of parameters follows results. Both point at the token that could not be read.
-/

set_option autoImplicit false
set_option relaxedAutoImplicit false

namespace WatTypes

/-- Why a grammar rule could not be read. -/
inductive GrammarError where
  /-- The next token is none of the alternatives; both are given as messages name them. -/
  | unexpected (expected : List String) (found : String) (span : Span)
  /-- Parameters are listed after results. -/
  | paramAfterResult (span : Span)
deriving DecidableEq, Repr

namespace GrammarError

/-- How a message names what was expected. -/
def wanted : List String → String
  | [only] => only
  | alternatives => "one of \x7b" ++ String.intercalate ", " alternatives ++ "\x7d"

/-- The wording of an error. -/
def message : GrammarError → String
  | .unexpected expected found _ => s!"expected {wanted expected}, found {found}"
  | .paramAfterResult _ => "cannot list params after results"

/-- The token that an error is about. -/
def span : GrammarError → Span
  | .unexpected _ _ span => span
  | .paramAfterResult span => span

/-- The code of an error. -/
def code : GrammarError → String
  | .unexpected _ _ _ => "E200"
  | .paramAfterResult _ => "E201"

/-- The remarks that go with an error. -/
def notes : GrammarError → List String
  | .unexpected _ _ _ => []
  | .paramAfterResult _ => ["parameters must precede results in a signature"]

/-- An error as a diagnostic. -/
def diagnostic (error : GrammarError) : Diagnostic :=
  .ofSpan error.code error.message error.span error.notes

end GrammarError

end WatTypes
