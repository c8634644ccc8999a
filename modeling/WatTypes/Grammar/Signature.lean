import WatTypes.Grammar.Types

/-!
# Signatures

A signature is a sequence of groups of parameters and groups of results. A builder gathers what the
groups hold, one type at a time, and keeps what it has when a group cannot be read to its end; once
it holds a result no group of parameters may follow, not even an empty one. Where names are
allowed, a group of parameters that starts with an identifier or a display name holds exactly one
parameter.
-/

set_option autoImplicit false
set_option relaxedAutoImplicit false

namespace WatTypes

/-- What has been gathered of a signature. -/
structure SignatureBuilder where
  /-- Whether parameters may bear names. -/
  allowsNames : Bool
  /-- The parameters so far. -/
  params : List Param
  /-- The results so far. -/
  results : List ValType
deriving DecidableEq, Repr

namespace SignatureBuilder

/-- The builder that has gathered nothing. -/
def empty (allowsNames : Bool) : SignatureBuilder := ⟨allowsNames, [], []⟩

/-- The signature gathered so far. -/
def finish (builder : SignatureBuilder) : FunctionType := ⟨builder.params, builder.results⟩

/-- Adds a parameter. -/
def addParam (param : Param) (builder : SignatureBuilder) : SignatureBuilder :=
  { builder with params := builder.params ++ [param] }

/-- Adds a result. -/
def addResult (ty : ValType) (builder : SignatureBuilder) : SignatureBuilder :=
  { builder with results := builder.results ++ [ty] }

end SignatureBuilder

namespace Grammar

open Rule Step

/-- A rule that reads from a cursor into a builder. -/
abbrev SignatureRule : Type → Type := Rule (SignatureBuilder × Cursor)

/-- Runs a rule of the cursor and leaves the builder alone. -/
def onCursor {α : Type} (rule : Rule Cursor α) : SignatureRule α := fun (builder, here) ↦
  match rule here with
  | (answer, there) => (answer, (builder, there))

/-- Changes the builder and leaves the cursor alone. -/
def gather (change : SignatureBuilder → SignatureBuilder) : SignatureRule Unit :=
  update fun (builder, here) ↦ (change builder, here)

/-- Runs a rule as long as the cursor shows that more comes. -/
def gatherWhile (more : Cursor → Bool) (rule : SignatureRule Unit) : SignatureRule Unit := do
  let _ ← whileMore (·.2.ahead.length) (fun here ↦ more here.2) rule
  return ()

/-- Reads the inside of a group of parameters, behind its keyword. -/
def params : SignatureRule Unit := do
  let (builder, here) ← state
  if here.isGroupEnd then return ()
  else
    let id ← if builder.allowsNames then onCursor Element.id.readOptional else pure none
    let name ← if builder.allowsNames then onCursor Element.displayName.readOptional else pure none
    if id.isSome || name.isSome then
      let ty ← onCursor valType
      gather (.addParam ⟨ty, id, name⟩)
    else
      gatherWhile (fun there ↦ !there.isGroupEnd) do
        let ty ← onCursor valType
        gather (.addParam (.anonymous ty))

/-- Reads the inside of a group of results, behind its keyword. -/
def results : SignatureRule Unit :=
  gatherWhile (fun there ↦ !there.isGroupEnd) do
    let ty ← onCursor valType
    gather (.addResult ty)

/-- Reads a group of parameters or of results. -/
def signatureGroup : SignatureRule Unit := do
  onCursor opening
  let (builder, here) ← state
  if here.shows 0 (.keyword "param") then
    if builder.results.isEmpty then
      let _ ← onCursor (keyword "param")
      params
    else fail (.paramAfterResult here.current.span)
  else
    let _ ← onCursor (keyword "result")
    results
  onCursor closing

/-- Reads groups as long as they come. -/
def signatureGroups : SignatureRule Unit :=
  gatherWhile Cursor.opensSignatureGroup signatureGroup

/-- Reads a whole signature. -/
def signature (allowsNames : Bool) : Rule Cursor FunctionType := fun here ↦
  match signatureGroups (.empty allowsNames, here) with
  | (.ok _, (builder, there)) => (.ok builder.finish, there)
  | (.error error, (_, there)) => (.error error, there)

/-- Reads the keyword of functions and a signature. -/
def functionType : Rule Cursor FunctionType := do
  let _ ← keyword "func"
  signature true

/-- Reads a use of a function type: a reference in parentheses, a signature, or both. -/
def typeUse (allowsNames : Bool) : Rule Cursor TypeUse := do
  let index ←
    if (← state).opensWith (.keyword "type") then
      parens do
        let _ ← keyword "type"
        return some (← index)
    else pure none
  return ⟨index, ← signature allowsNames⟩

end Grammar

end WatTypes
