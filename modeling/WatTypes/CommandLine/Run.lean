import WatTypes.Canonical
import WatTypes.CommandLine.Request
import WatTypes.CommandLine.World
import WatTypes.Diagnostic.Rendering
import WatTypes.Highlight.Segment
import WatTypes.Outline

/-!
# Running commands

A command works on one file, on all sources below a directory, or on the standard input. Sources
are read under the nearest settings; what is wrong with one is reported, and work goes on with the
next. What formatting makes of a source depends on its text and the settings alone
(`Formatting.ofSource`), and decides what is written, what is said, and whether the run succeeds.
-/

set_option autoImplicit false
set_option relaxedAutoImplicit false

namespace WatTypes

/-! ### Sources -/

/-- Whether a file is a source, by the end of its name. -/
def isSourceName (name : String) : Bool :=
  [".wat", ".wast"].any fun ending ↦ ending.toList.isSuffixOf name.toList

/-- The sources that a path stands for: all below a directory, or what it names itself. -/
def FileTree.sources (tree : FileTree) (path : Path) : List Path :=
  match tree.find? path with
  | none => [path]
  | some location =>
    if tree.isDirectory location then
      ((tree.walk location).filter fun names ↦ names.getLast?.any isSourceName).map path.append
    else [path]

/-- What formatting makes of a source. -/
inductive Formatting where
  /-- It cannot be read. -/
  | refused (refusal : Refusal)
  /-- It is in canonical form. -/
  | canonical
  /-- It has another canonical form. -/
  | changed (text : String)
deriving DecidableEq, Repr

namespace Formatting

/-- What formatting makes of a source that may hold a module. -/
def ofModule (source : String) : Except Refusal TypeModule → Formatting
  | .error refusal => .refused refusal
  | .ok found =>
    let text := found.canonicalText TypeModule.standardIndent
    if text = source then .canonical else .changed text

/-- What formatting makes of a source. -/
def ofSource (settings : Settings) (name source : String) : Except SettingsError Formatting :=
  (settings.readModule name source).map (ofModule source)

end Formatting

namespace CommandLine

/-! ### Commands -/

namespace Program

/-- Diagnostics of a source, each with its lines, as a text. -/
def report (settings : Settings) (name source : String) (refusal : Refusal) : String :=
  let sources (other : String) : Option String := if other = name then some source else none
  String.join (refusal.diagnostics.map fun diagnostic ↦
    diagnostic.render settings.isColored sources ++ "\n")

/-- Reports the errors of a file, and tells whether it has any. -/
def checkFile (settings : Settings) (file : Path) : Program Bool := do
  let source ← readFile file
  match ← orFail .settings (settings.readModule file.toString source) with
  | .ok _ => return false
  | .error refusal =>
    complain (report settings file.toString source refusal)
    return true

/-- Reports the errors of all sources at a path. -/
def check (path : Path) : Program Unit := do
  let settings ← settingsFor path
  match (← Step.state).tree.sources path with
  | [] => complain "warning: no .wat files found\n"
  | files =>
    if ← anyOf (checkFile settings) files then Step.fail .refused
    else say s!"checked {files.length} file(s) — no errors\n"

/-- Brings a file into canonical form, or only says that it is not, and tells whether that is a
fault of the run. -/
def formatFile (settings : Settings) (onlyCheck : Bool) (file : Path) : Program Bool := do
  let source ← readFile file
  match ← orFail .settings (Formatting.ofSource settings file.toString source) with
  | .refused refusal =>
    complain (report settings file.toString source refusal)
    return true
  | .canonical => return false
  | .changed text =>
    if onlyCheck then
      say ("would reformat " ++ file.toString ++ "\n")
      return true
    else
      writeFile file text
      say ("formatted " ++ file.toString ++ "\n")
      return false

/-- Brings all sources at a path into canonical form, or only checks them. -/
def format (path : Path) (onlyCheck : Bool) : Program Unit := do
  let settings ← settingsFor path
  match (← Step.state).tree.sources path with
  | [] => complain "no .wat files found\n"
  | files => if ← anyOf (formatFile settings onlyCheck) files then Step.fail .refused

/-- The name of the standard input in diagnostics. -/
def inputName : String := "<stdin>"

/-- Writes the canonical form of the standard input, or only checks it. -/
def formatInput (path : Path) (onlyCheck : Bool) : Program Unit := do
  let settings ← settingsFor path
  let source ← readInput
  match ← orFail .settings (Formatting.ofSource settings inputName source) with
  | .refused refusal =>
    complain (report settings inputName source refusal)
    Step.fail .refused
  | .canonical => if !onlyCheck then sayRaw source
  | .changed text => if onlyCheck then Step.fail .refused else sayRaw text

/-- Prints the outline of a file, which diagnostics name as it was given. -/
def view (file : String) : Program Unit := do
  let settings ← settingsFor (.ofString file)
  let source ← readFile (.ofString file)
  match ← orFail .settings (settings.readModule file source) with
  | .ok found => say (String.join ((Outline.ofModule found).map (· ++ "\n")))
  | .error refusal =>
    complain (report settings file source refusal)
    Step.fail .refused

/-- Prints a file, in colours if the settings want them. -/
def highlight (file : Path) : Program Unit := do
  let source ← readFile file
  let settings ← settingsFor file
  say (if settings.isColored then Highlight.coloredDocument source else source)

end Program

/-- What is done for a request. Editors are not served from here. -/
def Request.program : Request → Program Unit
  | .version => Program.say (versionText ++ "\n")
  | .help topic => Program.say (helpText topic ++ "\n")
  | .check path => Program.check (.ofString path)
  | .format path onlyCheck => Program.format (.ofString path) onlyCheck
  | .formatInput path onlyCheck => Program.formatInput (.ofString path) onlyCheck
  | .highlight file => Program.highlight (.ofString file)
  | .serve => return ()
  | .view file => Program.view file

/-! ### Runs -/

/-- How a run ended. -/
inductive Ending where
  /-- All went well. -/
  | success
  /-- The program stopped early. -/
  | stopped (stop : Stop)
  /-- The arguments are wrong. -/
  | usageError (error : UsageError)
deriving DecidableEq, Repr

/-- The exit status of an ending. -/
def Ending.status : Ending → Nat
  | .success => 0
  | .stopped _ => 1
  | .usageError _ => 2

/-- Runs the program with its arguments. -/
def run (arguments : List String) (world : World) : Ending × World :=
  match Request.ofArguments world.tree arguments with
  | .error (.usage error) => (.usageError error, (Program.complain (error.text ++ "\n") world).2)
  | .error (.file error) => (.stopped (.failed (.file error)), world)
  | .ok request =>
    match request.program world with
    | (.ok (), stop) => (.success, stop)
    | (.error reason, stop) => (.stopped reason, stop)

end CommandLine

end WatTypes
