import WatTypes.Text.Lines

/-!
# File trees

The part of a file system that a program sees: files with their bytes and directories, each at its
location, and the working directory. A location is the list of names on the way from the root. A
path is what a user writes: its names are followed one by one, and every name but the last has to
be a directory (`FileTree.locate`); shown again it is free of empty names and dots
(`Path.toString`), and its last name loses a trailing slash. No path holds the null character, and
names and paths have a greatest length.
-/

set_option autoImplicit false
set_option relaxedAutoImplicit false

namespace WatTypes

/-- The names on the way from the root to a file or a directory. -/
abbrev Location : Type := List String

/-! ### Paths -/

/-- A path, without empty names and single dots. -/
structure Path where
  /-- Whether it starts at the root. -/
  isAbsolute : Bool
  /-- Its names. -/
  names : List String
deriving DecidableEq, Repr

namespace Path

/-- A text cut at its slashes. -/
def pieces : List Char → List (List Char)
  | [] => [[]]
  | c :: rest =>
    if c = '/' then [] :: pieces rest
    else
      match pieces rest with
      | [] => [[c]]
      | piece :: others => (c :: piece) :: others

/-- The names that a text spells, empty ones and dots included. -/
def spelledNames (text : String) : List String := (pieces text.toList).map String.ofList

/-- The path that a text spells. -/
def ofString (text : String) : Path :=
  ⟨text.toList.head? == some '/', (spelledNames text).filter fun name ↦ name ≠ "" ∧ name ≠ "."⟩

/-- A path as it is shown. -/
def toString (path : Path) : String :=
  let joined := String.intercalate "/" path.names
  if path.isAbsolute then "/" ++ joined else if path.names.isEmpty then "." else joined

/-- A path with further names behind it. -/
def append (path : Path) (names : List String) : Path := ⟨path.isAbsolute, path.names ++ names⟩

/-- Whether a text holds the null character, which no path does. -/
def holdsNull (text : String) : Bool := text.toList.contains '\x00'

/-- The most bytes that a name has. -/
def mostNameBytes : Nat := 255

/-- The most bytes that a path has. -/
def mostBytes : Nat := 4095

end Path

/-! ### Trees -/

/-- A file or a directory. -/
inductive FileNode where
  /-- A file with its bytes. -/
  | file (content : ByteArray)
  /-- A directory. -/
  | directory

/-- Files and directories at their locations. -/
structure FileTree where
  /-- The directory that relative paths start at. -/
  workingDirectory : Location
  /-- The files and the directories but the root; the first entry of a location counts. -/
  entries : List (Location × FileNode)

/-- Why a file cannot be looked up or read as text. -/
inductive FileError where
  /-- There is nothing at its location. -/
  | notFound
  /-- It is a directory. -/
  | isDirectory
  /-- Its bytes are not UTF-8. -/
  | notUtf8
  /-- Its path holds the null character. -/
  | nullInPath
  /-- Its path is too long, or a name in it. -/
  | nameTooLong
deriving DecidableEq, Repr

namespace FileTree

/-- What is at a location. -/
def node? (tree : FileTree) (location : Location) : Option FileNode :=
  if location = [] then some .directory else tree.entries.lookup location

/-- Whether there is anything at a location. -/
def hasNode (tree : FileTree) (location : Location) : Bool := (tree.node? location).isSome

/-- Whether there is a directory at a location. -/
def isDirectory (tree : FileTree) (location : Location) : Bool :=
  match tree.node? location with
  | some .directory => true
  | _ => false

/-- Whether there is a file at a location. -/
def isFile (tree : FileTree) (location : Location) : Bool :=
  match tree.node? location with
  | some (.file _) => true
  | _ => false

/-- The location where a path starts. -/
def origin (tree : FileTree) (isAbsolute : Bool) : Location :=
  if isAbsolute then [] else tree.workingDirectory

/-- Follows names from a location on. Each one has to start in a directory; an empty name and a dot
stay there, and two dots go up. -/
def follow (tree : FileTree) : Location → List String → Option Location
  | here, [] => if tree.hasNode here then some here else none
  | here, name :: names =>
    if tree.isDirectory here then
      if name = "" ∨ name = "." then tree.follow here names
      else if name = ".." then tree.follow here.dropLast names
      else tree.follow (here ++ [name]) names
    else none

/-- The location that a spelled path leads to, if there is something. A path that is empty or too
long leads nowhere. -/
def locate (tree : FileTree) (text : String) : Except FileError (Option Location) :=
  if Path.holdsNull text then .error .nullInPath
  else if text.isEmpty || Path.mostBytes < text.utf8ByteSize then .ok none
  else .ok (tree.follow (tree.origin (Path.ofString text).isAbsolute) (Path.spelledNames text))

/-- The location of a path, if there is something. -/
def find? (tree : FileTree) (path : Path) : Option Location :=
  tree.follow (tree.origin path.isAbsolute) path.names

/-- The location that a path names, whether there is something or not: two dots take the name
before them away. -/
def resolve (tree : FileTree) (path : Path) : Location :=
  path.names.foldl (fun here name ↦ if name = ".." then here.dropLast else here ++ [name])
    (tree.origin path.isAbsolute)

/-- Whether a name that is too long is looked up below a location: one that stands in a
directory. -/
def meetsLongName (tree : FileTree) : Location → List String → Bool
  | _, [] => false
  | here, name :: names =>
    tree.isDirectory here &&
      (Path.mostNameBytes < name.utf8ByteSize || tree.meetsLongName (here ++ [name]) names)

/-- Whether a location cannot be looked up because it is too long, or a name in it. -/
def isTooLong (tree : FileTree) (location : Location) : Bool :=
  Path.mostBytes < (Path.toString ⟨true, location⟩).utf8ByteSize || tree.meetsLongName [] location

/-- The bytes of the file at a location. -/
def bytesAt (tree : FileTree) (location : Location) : Except FileError ByteArray :=
  match tree.node? location with
  | none => .error .notFound
  | some .directory => .error .isDirectory
  | some (.file content) => .ok content

/-- The bytes of the file at a path. -/
def read (tree : FileTree) (path : Path) : Except FileError ByteArray :=
  match tree.find? path with
  | none => .error .notFound
  | some location => tree.bytesAt location

/-- The text of a file: its bytes are UTF-8, and its lines end in line feeds. -/
def decoded (content : ByteArray) : Except FileError String :=
  match String.fromUTF8? content with
  | some text => .ok (String.ofList (Text.withLineFeeds text.toList))
  | none => .error .notUtf8

/-- The text of the file at a path. -/
def readText (tree : FileTree) (path : Path) : Except FileError String := do
  decoded (← tree.read path)

/-- Replaces what is at a location. -/
def write (tree : FileTree) (location : Location) (content : ByteArray) : FileTree :=
  { tree with
    entries := tree.entries.map fun (place, node) ↦
      (place, if place = location then .file content else node) }

/-- Replaces the text of the file at a path. -/
def writeText (tree : FileTree) (path : Path) (text : String) : FileTree :=
  match tree.find? path with
  | some location => tree.write location text.toUTF8
  | none => tree

/-- The way from a location down to one below it. -/
def below? : Location → Location → Option (List String)
  | [], names => some names
  | first :: here, name :: names => if first = name then below? here names else none
  | _ :: _, [] => none

/-- Whether a name comes before another one, by the first characters that differ. -/
def nameBefore (first second : String) : Bool :=
  first.toList.lex second.toList fun c d ↦ c.toNat < d.toNat

/-- Whether a location comes before another one, by the first names that differ. -/
def isBefore (first second : Location) : Bool := first.lex second nameBefore

/-- Everything below a location, each by the names that lead to it, in the order of these names. -/
def walk (tree : FileTree) (location : Location) : List (List String) :=
  ((tree.entries.filterMap fun (place, _) ↦ below? location place).filter (· ≠ [])).mergeSort
    fun first second ↦ !isBefore second first

/-- The locations on the way from the root to a location, both included. -/
def wayTo : Location → List Location
  | [] => [[]]
  | name :: names => [] :: (wayTo names).map (name :: ·)

/-- A location and all those above it, from below. -/
def upward (location : Location) : List Location := (wayTo location).reverse

/-- A tree with a file or a directory added, and with it the directories on the way to it. -/
def add (tree : FileTree) (location : Location) (node : FileNode) : FileTree :=
  let missing := ((wayTo location).drop 1).dropLast.filter fun place ↦ !tree.hasNode place
  { tree with
    entries := missing.map (·, .directory) ++
      (if tree.hasNode location then tree.entries else tree.entries ++ [(location, node)]) }

/-- The tree that has nothing but a working directory. -/
def empty (workingDirectory : Location) : FileTree :=
  ⟨workingDirectory, ((wayTo workingDirectory).drop 1).map (·, .directory)⟩

end FileTree

end WatTypes
