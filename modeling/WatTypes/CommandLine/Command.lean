import WatTypes.Text.Quoted

/-!
# Commands

The program has a command for each of its jobs. A command takes options, which are all flags, and
at most one operand: a path that may be left out, or a file that may not. Its help is laid out from
this description (`helpText`).
-/

set_option autoImplicit false
set_option relaxedAutoImplicit false

namespace WatTypes.CommandLine

/-- What the program is asked to do. -/
inductive Command where
  /-- Report the errors of sources. -/
  | check
  /-- Bring sources into canonical form. -/
  | format
  /-- Print a source in colours. -/
  | highlight
  /-- Serve an editor. -/
  | lsp
  /-- Print the outline of a source. -/
  | view
deriving DecidableEq, Repr

/-- What stands behind a command. -/
inductive Operand where
  /-- A file or a directory, the working directory if it is left out. -/
  | path
  /-- A file. -/
  | file
deriving DecidableEq, Repr

namespace Operand

/-- An operand as usage lines show it. -/
def shown : Operand → String
  | .path => "[PATH]"
  | .file => "FILE"

/-- What an operand names. -/
def kind : Operand → String
  | .path => "Path"
  | .file => "File"

/-- What stands for an operand that is left out. -/
def standard? : Operand → Option String
  | .path => some "."
  | .file => none

end Operand

/-- An option, with what its help says. -/
structure Flag where
  /-- The option. -/
  name : String
  /-- What it does. -/
  summary : String
deriving DecidableEq, Repr

namespace Flag

/-- The option that asks for help. -/
def help : Flag := ⟨"--help", "Show this message and exit."⟩

/-- The option that asks for the version. -/
def version : Flag := ⟨"--version", "Show the version and exit."⟩

/-- The option that only checks the format of sources. -/
def check : Flag := ⟨"--check", "Check formatting without modifying files."⟩

/-- The option that formats the standard input. -/
def stdin : Flag := ⟨"--stdin", "Read from stdin, write to stdout."⟩

end Flag

namespace Command

/-- All commands, in the order of their names. -/
def all : List Command := [.check, .format, .highlight, .lsp, .view]

/-- The name of a command. -/
def name : Command → String
  | .check => "check"
  | .format => "format"
  | .highlight => "highlight"
  | .lsp => "lsp"
  | .view => "view"

/-- The command with a name. -/
def ofName? (name : String) : Option Command := all.find? (·.name = name)

/-- What a command does. -/
def summary : Command → String
  | .check => "Parse .wat files and report grammar errors."
  | .format => "Rewrite .wat files in canonical shorthand form."
  | .highlight => "Print a .wat file with syntax highlighting."
  | .lsp => "Start the wattle language server."
  | .view => "Print the parsed tree of a .wat file."

/-- The operand of a command, if it takes one. -/
def operand? : Command → Option Operand
  | .check | .format => some .path
  | .highlight | .view => some .file
  | .lsp => none

/-- The options of a command. -/
def flags : Command → List Flag
  | .format => [.check, .stdin, .help]
  | _ => [.help]

end Command

/-! ### The program as a whole -/

/-- The name of the program. -/
def programName : String := "wattle"

/-- What the program says about its version. -/
def versionText : String := programName ++ ", version 0.1.0"

/-- What usage and help are about: a command, or the program as a whole. -/
abbrev Topic : Type := Option Command

namespace Topic

/-- The words that invoke a topic. -/
def invocation : Topic → String
  | none => programName
  | some command => programName ++ " " ++ command.name

/-- What a topic is for. -/
def summary : Topic → String
  | none => "Type-grammar front end for the WebAssembly text format."
  | some command => command.summary

/-- The options of a topic. -/
def flags : Topic → List Flag
  | none => [.version, .help]
  | some command => command.flags

/-- The line that shows how a topic is used. -/
def usage (topic : Topic) : String :=
  let operands := match topic with
    | none => " COMMAND [ARGS]..."
    | some command => (command.operand?.map (" " ++ ·.shown)).getD ""
  "Usage: " ++ invocation topic ++ " [OPTIONS]" ++ operands

end Topic

/-! ### Help -/

/-- Rows of two columns under a heading; the second column starts two spaces behind the longest
entry of the first one. -/
def table (heading : String) (rows : List (String × String)) : String :=
  let width := rows.foldl (fun width row ↦ max width row.1.length) 0
  let line (row : String × String) : String :=
    "  " ++ row.1 ++ String.ofList (List.replicate (width - row.1.length) ' ') ++ "  " ++ row.2
  "\n\n" ++ String.intercalate "\n" ((heading ++ ":") :: rows.map line)

/-- The help on a topic. -/
def helpText (topic : Topic) : String :=
  topic.usage ++ "\n\n  " ++ topic.summary ++
    table "Options" (topic.flags.map fun flag ↦ (flag.name, flag.summary)) ++
    match topic with
    | none => table "Commands" (Command.all.map fun command ↦ (command.name, command.summary))
    | some _ => ""

end WatTypes.CommandLine
