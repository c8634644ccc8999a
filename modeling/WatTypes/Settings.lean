import WatTypes.Decimal.Shortest
import WatTypes.FileTree
import WatTypes.Grammar.Module
import WatTypes.Toml.Document

/-!
# Settings

Settings are read from the nearest file of a fixed name, in the directory that work starts in or in
one above it (`Settings.nearest`). They hold the limit on nesting and whether output is in colour,
each as the value that was written; what such a value means is decided here too. A limit may be any
number, and reading a source fails at its first opening parenthesis if the limit is no number
(`Settings.readModule`).
-/

set_option autoImplicit false
set_option relaxedAutoImplicit false

namespace WatTypes

/-- Why settings cannot be used. -/
inductive SettingsError where
  /-- Their file cannot be read. -/
  | file (error : FileError)
  /-- Their file is no document. -/
  | document (fault : Toml.Fault)
  /-- What should be a section of the document is no table. -/
  | sectionNotTable (name : String)
  /-- The limit on nesting is no number. -/
  | limitNotNumber
deriving DecidableEq, Repr

/-- The settings, as they were written. -/
structure Settings where
  /-- The limit on nesting, if there is one. -/
  maxDepth : Option Toml.Value
  /-- Whether output is in colour. -/
  color : Toml.Value

namespace Settings

/-- The settings without a file. -/
def standard : Settings := ⟨none, .boolean true⟩

/-! ### Reading -/

/-- The entries of a section, none if it is missing. -/
def sectionEntries (name : String) (entries : Toml.Entries) : Except SettingsError Toml.Entries :=
  match entries.lookup name with
  | none => .ok []
  | some (.table _ inner) => .ok inner
  | some _ => .error (.sectionNotTable name)

/-- The settings that a document holds. -/
def ofEntries (entries : Toml.Entries) : Except SettingsError Settings := do
  let check ← sectionEntries "check" entries
  let output ← sectionEntries "output" entries
  return ⟨check.lookup "max_depth", (output.lookup "color").getD standard.color⟩

/-- The settings in a file with some bytes. -/
def ofBytes (bytes : ByteArray) : Except SettingsError Settings :=
  match String.fromUTF8? bytes with
  | none => .error (.file .notUtf8)
  | some text =>
    match Toml.read text with
    | .error fault => .error (.document fault)
    | .ok entries => ofEntries entries

/-- The settings in the file at a location. -/
def load (tree : FileTree) (location : Location) : Except SettingsError Settings :=
  match tree.bytesAt location with
  | .error error => .error (.file error)
  | .ok bytes => ofBytes bytes

/-! ### The nearest file -/

/-- The name of the file that holds settings. -/
def fileName : String := "wattle.toml"

/-- What is said where there is no such file. -/
def notFoundMessage : String := "No " ++ fileName ++ " found in any parent directory"

/-- The location of the nearest settings, from a path upward, if there are any. -/
def find (tree : FileTree) (start : Path) : Except FileError (Option Location) :=
  let here := tree.resolve start
  let directory := if tree.isFile here then here.dropLast else here
  if start.names.any Path.holdsNull then .error .nullInPath
  else if tree.isTooLong (directory ++ [fileName]) then .error .nameTooLong
  else .ok (((FileTree.upward directory).map (· ++ [fileName])).find? tree.hasNode)

/-- The nearest settings, from a path upward. -/
def nearest (tree : FileTree) (start : Path) : Except SettingsError Settings :=
  match find tree start with
  | .error error => .error (.file error)
  | .ok (some location) => load tree location
  | .ok none => .ok standard

/-! ### Meaning -/

/-- How floating-point numbers are written. -/
def numberLayout : Decimal.Layout := ⟨-4, 16, 2, "inf", "nan"⟩

/-- The limit that a floating-point number stands for. Nesting exceeds it where the depth is the
number plus one, so that a number with a fraction is never exceeded. -/
def limitOfFloat (number : Binary64) : Option NestingLimit :=
  number.addOne.toInt?.map fun exceeded ↦ ⟨exceeded - 1, Decimal.text numberLayout number⟩

/-- The limit on nesting. -/
def limit (settings : Settings) : Except SettingsError (Option NestingLimit) :=
  match settings.maxDepth with
  | none => .ok none
  | some (.integer depth) => .ok (some (.ofInt depth))
  | some (.boolean true) => .ok (some ⟨1, "True"⟩)
  | some (.boolean false) => .ok (some ⟨0, "False"⟩)
  | some (.float number) => .ok (limitOfFloat number)
  | some _ => .error .limitNotNumber

/-- Whether output is in colour: what is zero or empty says no. -/
def isColored (settings : Settings) : Bool :=
  match settings.color with
  | .string text => !text.isEmpty
  | .integer value => value != 0
  | .float number => !number.isZero
  | .boolean value => value
  | .moment _ => true
  | .array _ items => !items.isEmpty
  | .table _ entries => !entries.isEmpty

/-- Whether a source opens a parenthesis. -/
def opensParenthesis (file source : String) : Bool :=
  (Scan.ofSource file none source).events.any fun event ↦
    event.token?.any (·.lexeme == .opening)

/-- The module that a source holds, read under the limit on nesting. -/
def readModule (settings : Settings) (file source : String) :
    Except SettingsError (Except Refusal TypeModule) :=
  match settings.limit with
  | .ok limit => .ok (TypeModule.read file limit source)
  | .error error =>
    if opensParenthesis file source then .error error
    else .ok (TypeModule.read file none source)

end Settings

end WatTypes
