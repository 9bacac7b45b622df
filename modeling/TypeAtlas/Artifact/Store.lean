import TypeAtlas.Artifact.Layout
import TypeAtlas.Files.Access
import TypeAtlas.Graph.Build
import TypeAtlas.Graph.Table
import TypeAtlas.Record.Document
import TypeAtlas.Run.Timestamp

/-!
# Writing and reading artifacts

What a run writes is a list of steps on a file tree. A step makes a directory with those above it or
writes a file. The first step that fails ends the list; what was done before it stays.

Each run can have a directory of its own, named after the time of its start. A name that is taken is
never used again: the next free suffix is.
-/
namespace TypeAtlas

/-- One step of writing artifacts. -/
inductive WriteStep where
  | makeDirs (path : String)
  | writeFile (path : String) (text : String)
  deriving DecidableEq, Repr

/-- Why artifacts could not be written. -/
inductive WriteFault where
  | directory (path : String) (fault : FileFault)
  | file (path : String) (fault : FileFault)
  deriving DecidableEq, Repr

/-- The wording of a failure. -/
def WriteFault.message : WriteFault → String
  | directory path fault => "Failed to create directory " ++ path ++ ": " ++ fault.message
  | file path fault => "Failed to write " ++ path ++ ": " ++ fault.message

/-- What is behind a failure. -/
def WriteFault.cause : WriteFault → String
  | directory _ fault => fault.message
  | file _ fault => fault.message

namespace WriteStep

/-- Takes a step on a file tree. -/
def run (t : FileTree) : WriteStep → FileTree × Option WriteFault
  | makeDirs path =>
    match t.makeDirs path with
    | (made, none) => (made, none)
    | (made, some fault) => (made, some (.directory path fault))
  | writeFile path text =>
    match t.write path text.toUTF8 with
    | .ok written => (written, none)
    | .error fault => (t, some (.file path fault))

/-- Takes steps one after another up to the first failure. -/
def runAll (t : FileTree) : List WriteStep → FileTree × Option WriteFault
  | [] => (t, none)
  | s :: rest =>
    match s.run t with
    | (next, none) => runAll next rest
    | (next, some fault) => (next, some fault)

end WriteStep

namespace Layout

/-- The steps that write the artifacts of a type. -/
def typeSteps (l : Layout) (r : TypeRecord) (declaration : String) : List WriteStep :=
  [.makeDirs (l.typeDir r), .writeFile (l.metadataPath r) r.render,
    .writeFile (l.declarationPath r) declaration]

/-- The steps that write the artifacts of all types of an index with their declarations. -/
def indexSteps (l : Layout) (ix : TypeIndex) (declarations : List String) : List WriteStep :=
  (ix.records.zip declarations).flatMap fun (r, text) => l.typeSteps r text

/-- The steps that write a graph. -/
def graphSteps (l : Layout) (g : Graph) : List WriteStep :=
  [.makeDirs (l.scopeDir g.scope), .writeFile (l.graphPath g.scope) g.render]

/-- The declaration of a type as it was written before. -/
def declaration? (l : Layout) (t : FileTree) (r : TypeRecord) : Option String :=
  (t.readText (l.declarationPath r)).toOption

/-- The declarations that were written before. -/
def texts (l : Layout) (t : FileTree) : Texts :=
  l.declaration? t

/-- The table of a namespace as it was written before. -/
def readTable (l : Layout) (t : FileTree) (scope : String) : Except FileFault Table :=
  (t.readText (l.graphPath scope)).map Table.parse

/-! ### Run directories -/

/-- The name of a run directory after so many taken ones. -/
def runName (stamp : String) (suffix : Nat) : String :=
  if suffix = 0 then stamp else stamp ++ "_" ++ toString suffix

/-- The directory that a run tries to make with a suffix. -/
def candidate (base stamp : String) (suffix : Nat) : String :=
  Path.join base (runName stamp suffix)

end Layout

/-- How far the search for a run directory has come. Suffixes are counted in 32 bits. -/
inductive RunSearch where
  /-- The candidate with this suffix comes next. -/
  | trying (suffix : UInt32)
  /-- There is no suffix after the last one. -/
  | overflowed
  | ended (result : Except WriteFault Layout)

namespace RunSearch
open Layout (candidate)

/-- One round of the search: the tree after it, and how far the search has come then. -/
def next (base stamp : String) : FileTree × RunSearch → FileTree × RunSearch
  | (t, trying suffix) =>
    match t.makeDir (candidate base stamp suffix.toNat) with
    | .ok made => (made, .ended (.ok ⟨candidate base stamp suffix.toNat⟩))
    | .error .alreadyExists =>
      if suffix.toNat + 1 < UInt32.size then (t, .trying (suffix + 1)) else (t, .overflowed)
    | .error fault => (t, .ended (.error (.directory (candidate base stamp suffix.toNat) fault)))
  | (t, overflowed) => (t, .overflowed)
  | (t, ended result) => (t, .ended result)

/-- What a search has come to. One that has found no candidate has met a taken one last. -/
def result (base stamp : String) : RunSearch → Except WriteFault Layout
  | trying suffix => .error (.directory (candidate base stamp suffix.toNat) .alreadyExists)
  | overflowed => .error (.directory (candidate base stamp (UInt32.size - 1)) .alreadyExists)
  | ended result => result

end RunSearch

/-- A new directory for a run below a base directory, which is made if it is missing. One round more
than there are entries is enough: each round that goes on has met another entry. -/
def Layout.forRun (t : FileTree) (base : String) (start : Timestamp) :
    FileTree × Except WriteFault Layout :=
  match t.makeDirs base with
  | (made, some fault) => (made, .error (.directory base fault))
  | (made, none) =>
    let last := Nat.repeat (RunSearch.next base start.stamp) (made.entries.length + 1)
      (made, .trying 0)
    (last.1, last.2.result base start.stamp)

end TypeAtlas
