import WatTypes.CommandLine.Run

/-!
# The program

The part of the file system that a run can see is taken into a file tree, the run is computed on
it, and what has changed is written back: the two streams, and the files with new content. A run
sees the places that its arguments name, the directories whose sources it works on with everything
below, and the settings in all directories above these.
-/

set_option autoImplicit false
set_option relaxedAutoImplicit false

namespace WatTypes.Disk

/-- The text of a location, as the file system wants it. -/
def text (location : Location) : String := "/" ++ String.intercalate "/" location

/-- Takes what is at a location, without what is below. The content of a file may be left out. -/
def take (tree : FileTree) (location : Location) (withContent : Bool) : IO FileTree := do
  let place := (← IO.currentDir) / text location
  if ← place.isDir then return tree.add location .directory
  else if ← place.pathExists then
    let content ← if withContent then IO.FS.readBinFile place else pure .empty
    return tree.add location (.file content)
  else return tree

/-- Takes what is at a location and everything below. Of files, only sources have content. -/
partial def takeAll (tree : FileTree) (location : Location) : IO FileTree := do
  let tree ← take tree location (location.getLast?.any isSourceName)
  if tree.isDirectory location then
    (← ((← IO.currentDir) / text location).readDir).foldlM
      (fun tree entry ↦ takeAll tree (location ++ [entry.fileName])) tree
  else return tree

/-- Takes the places on the way of a path. -/
def takeWay (tree : FileTree) (spelled : String) : IO FileTree := do
  let path := Path.ofString spelled
  (List.range (path.names.length + 1)).foldlM (fun tree count ↦
    take tree (tree.resolve ⟨path.isAbsolute, path.names.take count⟩) true) tree

/-- Takes the settings around a path. -/
def takeSettings (tree : FileTree) (spelled : String) : IO FileTree :=
  (FileTree.upward (tree.resolve (.ofString spelled))).foldlM
    (fun tree directory ↦ take tree (directory ++ [Settings.fileName]) true) tree

/-- The part of the file system that a run with some arguments can see. -/
def snapshot (arguments : List String) : IO FileTree := do
  let here := (Path.ofString (← IO.currentDir).toString).names
  let tree ← arguments.foldlM takeWay (.empty here)
  match CommandLine.Request.ofArguments tree arguments with
  | .ok (.check path) | .ok (.format path _) =>
    takeSettings (← takeAll tree (tree.resolve (.ofString path))) path
  | .ok (.formatInput path _) | .ok (.highlight path) | .ok (.view path) => takeSettings tree path
  | _ => return tree

/-- Writes the files whose content has changed. -/
def writeBack (before after : FileTree) : IO Unit :=
  after.entries.forM fun (location, node) ↦ do
    match node with
    | .file content =>
      if (before.bytesAt location).toOption.all fun old ↦ old.data ≠ content.data then
        IO.FS.writeBinFile ((← IO.currentDir) / text location) content
    | .directory => return ()

end WatTypes.Disk

open WatTypes in
/-- Runs the program with its arguments, and answers with its exit status. -/
def main (arguments : List String) : IO UInt32 := do
  let stdout ← IO.getStdout
  let tree ← Disk.snapshot arguments
  let input ←
    if arguments.contains CommandLine.Flag.stdin.name then (← IO.getStdin).readBinToEnd
    else pure .empty
  let (ending, world) := CommandLine.run arguments ⟨tree, input, false, ← stdout.isTty, "", ""⟩
  Disk.writeBack tree world.tree
  stdout.putStr world.output
  let stderr ← IO.getStderr
  stderr.putStr world.errors
  match ending with
  | .stopped (.failed failure) => stderr.putStrLn ("error: " ++ failure.message)
  | _ => pure ()
  return ending.status.toUInt32
