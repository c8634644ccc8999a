import WatTypes.Span

/-!
# Diagnostics

A diagnostic is an error report: a code, a message, labels that point into sources, and notes. A
source that cannot be read is refused with all diagnostics at once (`Refusal`), in the order in
which the faults were met.
-/

set_option autoImplicit false
set_option relaxedAutoImplicit false

namespace WatTypes

/-- A place in a source that a diagnostic points to, with a message of its own that may be empty. -/
structure Label where
  /-- The place. -/
  span : Span
  /-- What is said about it. -/
  message : String
deriving DecidableEq, Repr

/-- An error report. -/
structure Diagnostic where
  /-- The code of the kind of error. -/
  code : String
  /-- What is wrong. -/
  message : String
  /-- The places concerned. -/
  labels : List Label
  /-- Further remarks. -/
  notes : List String
deriving DecidableEq, Repr

/-- A diagnostic with a single label that says nothing more. -/
def Diagnostic.ofSpan (code message : String) (span : Span) (notes : List String) : Diagnostic :=
  ⟨code, message, [⟨span, ""⟩], notes⟩

/-- The refusal of a whole source. -/
structure Refusal where
  /-- Everything that is wrong with the source. -/
  diagnostics : List Diagnostic
deriving DecidableEq, Repr

/-- The count of the errors and all their messages. -/
def Refusal.message (refusal : Refusal) : String :=
  let messages := String.intercalate "; " (refusal.diagnostics.map Diagnostic.message)
  s!"{refusal.diagnostics.length} error(s): {messages}"

end WatTypes
