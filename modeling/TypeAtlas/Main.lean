import Std.Time.DateTime.Timestamp
import TypeAtlas.Cli.Session

/-!
# The program

The part of the file system that a command can look at is taken into a file tree, the command is run
on it, and what has changed in the tree is written back.
-/
namespace TypeAtlas
namespace Program

/-- What stands at an absolute path. -/
def entryAt (path : String) : IO (Option Entry) := do
  try
    let here ← IO.currentDir
    let place := here / path
    if ← place.isDir then
      return some .directory
    else if ← place.pathExists then
      return some (.file (← IO.FS.readBinFile place))
    else
      return none
  catch _ =>
    return none

/-- The names in a directory. -/
def namesIn (path : String) : IO (List String) := do
  let here ← IO.currentDir
  return (← (here / path).readDir).toList.map fun e => e.fileName

/-- Takes what stands at a place, and the directories above it, into a tree. -/
def takePlace (t : FileTree) (p : Place) : IO FileTree := do
  match ← entryAt (FileTree.placeText p) with
  | some e => return t.plant p e
  | none => return t

/-- Takes what a path leads to, and the directories above it, into a tree. -/
def takePath (t : FileTree) (path : String) : IO FileTree := do
  let mut tree := t
  let mut place := t.origin path
  for piece in Path.pieces path do
    if piece == ".." then
      place := place.dropLast
    else if piece != "." then
      place := place ++ [piece]
      tree ← takePlace tree place
  return tree

/-- Takes everything below a place into a tree. -/
partial def takeBelow (t : FileTree) (p : Place) : IO FileTree := do
  let mut tree ← takePlace t p
  if tree.get? p == some .directory then
    for name in ← namesIn (FileTree.placeText p) do
      tree ← takeBelow tree (p ++ [name])
  return tree

/-- Takes everything that a path leads to into a tree. -/
def takeAll (t : FileTree) (path : String) : IO FileTree := do
  let tree ← takePath t path
  match tree.lookup path with
  | .ok (place, _) => takeBelow tree place
  | .error _ => return tree

/-- Takes the files of settings that can be found from a directory upwards into a tree. -/
def takeSettings (t : FileTree) (start : String) : IO FileTree := do
  let mut tree := t
  for dir in Path.chain start do
    tree ← takePath tree (Config.fileIn dir)
  return tree

/-- Takes the ignore files in the directories above a place into a tree. -/
def takeIgnoreFiles (t : FileTree) (p : Place) : IO FileTree := do
  let mut tree := t
  for dir in Scan.dirsAbove p do
    for file in [[".ignore"], [".gitignore"], [".git", "info", "exclude"]] do
      tree ← takePath tree (FileTree.placeText (dir ++ file))
  return tree

/-- Takes what an analysis can look at into a tree. -/
def takeForAnalysis (t : FileTree) (config source output : Option String) : IO FileTree := do
  let mut tree ← takeSettings t (FileTree.placeText t.workingDir)
  if let some path := config then
    tree ← takePath tree path
    tree ← takePath tree (Path.join path Config.fileName)
  match Cli.load tree config with
  | .error _ => return tree
  | .ok loaded =>
    let root := source.getD (loaded.config.sourceDir loaded.dir)
    tree ← takeAll tree root
    tree ← takeAll tree (output.getD (loaded.config.outputDir loaded.dir))
    match tree.lookup root with
    | .ok (place, _) => takeIgnoreFiles tree place
    | .error _ => return tree

/-- Takes what arguments can look at into a tree. -/
def take (args : List String) : IO FileTree := do
  let here ← IO.currentDir
  let place := Path.pieces here.toString
  let start ← takePlace ⟨[], place⟩ place
  match Cli.parse? args with
  | some (.run i) =>
    match i.command with
    | .analyze source output _ => takeForAnalysis start i.config source output
    | .init _ => takePath start (Path.join Config.dirName Config.fileName)
    | .show graph => takePath start graph
  | _ => return start

/-- Writes back what has changed. -/
def writeBack (old new : FileTree) : IO Unit := do
  let here ← IO.currentDir
  for (p, e) in new.entries do
    if old.get? p != some e then
      let path := here / FileTree.placeText p
      match e with
      | .directory => IO.FS.createDirAll path
      | .file bytes => IO.FS.writeBinFile path bytes

/-- The present time. -/
def now : IO Timestamp := do
  let t ← Std.Time.Timestamp.now
  let nanos := t.toNanosecondsSinceUnixEpoch.val
  return ⟨nanos / 1000000000, (nanos % 1000000000).toNat, by omega⟩

end Program
end TypeAtlas

open TypeAtlas in
/-- Does what the arguments ask for. -/
def main (args : List String) : IO UInt32 := do
  let start ← Program.now
  let old ← Program.take args
  let stage := Cli.begin old args start
  let outcome := stage.conclude (← Program.now)
  Program.writeBack old outcome.files
  (← IO.getStdout).putStr outcome.stdout
  (← IO.getStderr).putStr outcome.stderr
  return outcome.exitCode.toUInt32
