import WatTypes.Settings
import WatTypes.Step
import WatTypes.Text.ControlSequence

/-!
# What commands act on

A command reads and writes files, reads the standard input, and writes to two streams. It is a step
from world to world (`Program`), which stops early where sources are refused or where something
fails. What is written is free of control sequences unless the streams show colours.
-/

set_option autoImplicit false
set_option relaxedAutoImplicit false

namespace WatTypes.CommandLine

/-- What a command acts on. -/
structure World where
  /-- The files. -/
  tree : FileTree
  /-- The standard input. -/
  input : ByteArray
  /-- Whether the standard input turns the ends of lines into line feeds, as files do when they are
  read. -/
  turnsLineEnds : Bool
  /-- Whether the streams show colours. -/
  showsColors : Bool
  /-- What has been written to the standard output. -/
  output : String
  /-- What has been written to the standard error. -/
  errors : String

/-- The text that the standard input delivers. -/
def World.inputText (world : World) : Except FileError String :=
  if world.turnsLineEnds then FileTree.decoded world.input
  else
    match String.fromUTF8? world.input with
    | some text => .ok text
    | none => .error .notUtf8

/-- What keeps a command from its work. -/
inductive Failure where
  /-- A file or the input cannot be read. -/
  | file (error : FileError)
  /-- The settings cannot be used. -/
  | settings (error : SettingsError)
deriving DecidableEq, Repr

/-- What a failure is, in words. -/
def Failure.message : Failure → String
  | .file .notFound => "file not found"
  | .file .isDirectory => "is a directory"
  | .file .notUtf8 => "not valid UTF-8"
  | .file .nullInPath => "null character in a path"
  | .file .nameTooLong => "file name too long"
  | .settings (.file _) => Settings.fileName ++ " cannot be read"
  | .settings (.document _) => Settings.fileName ++ " is not a valid document"
  | .settings (.sectionNotTable name) => name ++ " is not a table in " ++ Settings.fileName
  | .settings .limitNotNumber => "max_depth is not a number in " ++ Settings.fileName

/-- Why a command stops early. -/
inductive Stop where
  /-- A source was refused, or is not in canonical form where it should be. -/
  | refused
  /-- Something failed. -/
  | failed (failure : Failure)
deriving DecidableEq, Repr

/-- A step from world to world that may stop early. -/
abbrev Program (α : Type) : Type := Step Stop World α

namespace Program

open Step

variable {α : Type}

/-- A text as it reaches a stream. -/
def shown (world : World) (text : String) : String :=
  if world.showsColors then text
  else String.ofList (Text.withoutControlSequences text.toList)

/-- Writes a text to the standard output. -/
def say (text : String) : Program Unit :=
  update fun world ↦ { world with output := world.output ++ shown world text }

/-- Writes a text to the standard output as it is. -/
def sayRaw (text : String) : Program Unit :=
  update fun world ↦ { world with output := world.output ++ text }

/-- Writes a text to the standard error. -/
def complain (text : String) : Program Unit :=
  update fun world ↦ { world with errors := world.errors ++ shown world text }

/-- Goes on with an outcome, or fails. -/
def orFail {ε : Type} (failure : ε → Failure) (outcome : Except ε α) : Program α :=
  ofExcept (outcome.mapError fun error ↦ .failed (failure error))

/-- Reads the file at a path. -/
def readFile (path : Path) : Program String := do
  orFail .file ((← state).tree.readText path)

/-- Writes to the file at a path. -/
def writeFile (path : Path) (text : String) : Program Unit :=
  update fun world ↦ { world with tree := world.tree.writeText path text }

/-- Reads the standard input. -/
def readInput : Program String := do
  orFail .file (← state).inputText

/-- The settings for work on a path. -/
def settingsFor (path : Path) : Program Settings := do
  orFail .settings (Settings.nearest (← state).tree path)

/-- Runs a program for each of some files, and tells whether any of the answers is yes. -/
def anyOf (program : Path → Program Bool) : List Path → Program Bool
  | [] => return false
  | file :: files => do
    let first ← program file
    let others ← anyOf program files
    return first || others

end Program

end WatTypes.CommandLine
