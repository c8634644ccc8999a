import WatTypes.Grammar.Production

/-!
# Scripts of cursor operations

Every operation that a cursor offers, as a value, and sequences of them. A script runs on a cursor
and a builder of signatures. An operation fails as the rules of the grammar do, or because there is
no token where it looks for one. Run as the inside of parentheses a script stops at the first error
(`Script.answers`); run on its own it goes on after an error from where the cursor was left
(`Script.run`).
-/

set_option autoImplicit false
set_option relaxedAutoImplicit false

namespace WatTypes

/-- A single operation of a cursor. -/
inductive Operation where
  /-- Asks whether an element shows at a distance. -/
  | shows (distance : Nat) (element : Element)
  /-- Asks whether a group starts with an element. -/
  | opensWith (element : Element)
  /-- Asks whether a value type comes next. -/
  | showsValType
  /-- Asks whether an element type comes next. -/
  | showsElemType
  /-- Asks whether a group of a signature comes next. -/
  | opensSignatureGroup
  /-- Asks whether the input ends. -/
  | isAtEnd
  /-- Asks whether the group around the cursor ends. -/
  | isGroupEnd
  /-- Asks for the place of the next token. -/
  | currentSpan
  /-- Asks for the token at an offset, which may be negative. -/
  | tokenAt (offset : Int)
  /-- Asks which of some elements comes next; it is an error if none does. -/
  | choose (elements : List Element)
  /-- Passes the next token. -/
  | advance
  /-- Reads an element. -/
  | read (element : Element)
  /-- Reads an element if it shows. -/
  | readOptional (element : Element)
  /-- Reads a rule of the grammar. -/
  | rule (production : Production)
  /-- Takes a new builder of signatures. -/
  | renewBuilder (allowsNames : Bool)
  /-- Reads groups of a signature into the builder. -/
  | signatureGroups
deriving DecidableEq, Repr

/-- What an operation answers. -/
inductive Answer where
  /-- Yes or no. -/
  | flag (holds : Bool)
  /-- A place. -/
  | span (span : Span)
  /-- A token. -/
  | token (token : Token)
  /-- The name of an element. -/
  | display (name : String)
  /-- What an element denotes. -/
  | element (element : Element) (value : element.Value)
  /-- What a rule of the grammar reads. -/
  | production (production : Production) (value : production.Value)
  /-- The signature gathered so far. -/
  | gathered (signature : FunctionType)
  /-- Nothing. -/
  | none
  /-- The answers from the inside of parentheses. -/
  | group (answers : List Answer)

/-- Why an operation failed. -/
inductive OperationError where
  /-- A rule of the grammar could not be read. -/
  | grammar (error : GrammarError)
  /-- There is no token at the offset. -/
  | noToken
deriving DecidableEq, Repr

/-- A step of a script. -/
abbrev ScriptStep : Type → Type := Step OperationError (SignatureBuilder × Cursor)

namespace Operation

open Grammar

/-- Asks the cursor. -/
def ask (question : Cursor → Answer) : ScriptStep Answer := do
  return question (← Step.state).2

/-- Asks for the token at an offset. -/
def askToken (offset : Int) : ScriptStep Answer := do
  match (← Step.state).2.tokenAtOffset? offset with
  | some token => return .token token
  | none => Step.fail .noToken

/-- Reads a rule of the cursor. -/
def reading {α : Type} (rule : Rule Cursor α) : ScriptStep α :=
  Step.mapError .grammar (onCursor rule)

/-- The first of some elements that comes next, by its name, or the error that none does. -/
def choice (elements : List Element) : Rule Cursor String := fun here ↦
  match elements.find? (here.shows 0) with
  | some element => (.ok element.display, here)
  | none => (.error (here.unexpected (elements.map Element.display)), here)

/-- Runs an operation. -/
def perform : Operation → ScriptStep Answer
  | .shows distance element => ask fun here ↦ .flag (here.shows distance element)
  | .opensWith element => ask fun here ↦ .flag (here.opensWith element)
  | .showsValType => ask fun here ↦ .flag here.current.valType?.isSome
  | .showsElemType => ask fun here ↦ .flag here.current.elemType?.isSome
  | .opensSignatureGroup => ask fun here ↦ .flag here.opensSignatureGroup
  | .isAtEnd => ask fun here ↦ .flag here.isAtEnd
  | .isGroupEnd => ask fun here ↦ .flag here.isGroupEnd
  | .currentSpan => ask fun here ↦ .span here.current.span
  | .tokenAt offset => askToken offset
  | .choose elements => do return .display (← reading (choice elements))
  | .advance => do return .token (← reading Rule.skip)
  | .read element => do return .element element (← reading element.read)
  | .readOptional element => do
    match ← reading element.readOptional with
    | some value => return .element element value
    | none => return .none
  | .rule production => do return .production production (← reading production.rule)
  | .renewBuilder allowsNames => do
    Step.mapError .grammar (gather fun _ ↦ .empty allowsNames)
    return .none
  | .signatureGroups => do
    Step.mapError .grammar Grammar.signatureGroups
    return .gathered (← Step.state).1.finish

end Operation

/-- A sequence of operations, some of them inside of parentheses. -/
inductive Script where
  /-- No operation. -/
  | done
  /-- An operation, and those behind it. -/
  | step (operation : Operation) (rest : Script)
  /-- Operations inside of parentheses, and those behind them. -/
  | parens (body rest : Script)
deriving DecidableEq, Repr, Inhabited

namespace Script

open Grammar

/-- Runs operations inside of parentheses, which they have to read to their end. -/
def inParens (body : ScriptStep (List Answer)) : ScriptStep Answer := do
  Operation.reading Rule.opening
  let answers ← body
  Operation.reading Rule.closing
  return .group answers

/-- The answers of the operations, up to the first error. -/
def answers : Script → ScriptStep (List Answer)
  | .done => pure []
  | .step operation rest => do
    let answer ← operation.perform
    return answer :: (← rest.answers)
  | .parens body rest => do
    let answer ← inParens body.answers
    return answer :: (← rest.answers)

/-- The answer or the error of each operation together with the state behind it; an error ends the
operation in which it arises and no other. -/
def run : Script → SignatureBuilder × Cursor →
    List (Except OperationError Answer × (SignatureBuilder × Cursor))
  | .done, _ => []
  | .step operation rest, here =>
    let outcome := operation.perform here
    outcome :: rest.run outcome.2
  | .parens body rest, here =>
    let outcome := inParens body.answers here
    outcome :: rest.run outcome.2

end Script

end WatTypes
