import WatTypes.Diagnostic.Rendering
import WatTypes.FileTree

/-!
# The sources behind diagnostics

Rendering shows lines of the sources that labels point into. A source that has not been handed over
as text is looked for under its name in the file tree; where there is no file of that name, no line
is shown, but a file that is not text is an error.
-/

set_option autoImplicit false
set_option relaxedAutoImplicit false

namespace WatTypes

/-- The text of the file that a source is named after, if there is one. -/
def FileTree.sourceText (tree : FileTree) (name : String) : Except FileError (Option String) :=
  match (tree.find? (.ofString name)).bind tree.node? with
  | some (.file content) => (decoded content).map some
  | _ => .ok none

namespace Diagnostic

/-- The names of the sources that diagnostics point into. -/
def sourceNames (diagnostics : List Diagnostic) : List String :=
  diagnostics.flatMap fun diagnostic ↦ diagnostic.labels.map (·.span.file)

/-- Diagnostics as text, with the sources they point into read from a file tree. -/
def renderFrom (color : Bool) (tree : FileTree) (diagnostics : List Diagnostic) :
    Except FileError (List String) := do
  let texts ← (sourceNames diagnostics).mapM fun name ↦ do
    return (name, ← tree.sourceText name)
  let sources (name : String) : Option String := (texts.lookup name).bind fun found ↦ found
  return diagnostics.map (render color sources)

end Diagnostic

end WatTypes
