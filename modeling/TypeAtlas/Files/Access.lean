import TypeAtlas.Files.Tree

/-!
# Access by path

How a path leads to a place in a file tree, and reading, writing and making directories by path.
Every piece of a path but the last one must be a directory when the next piece is looked up in it; a
path that ends in a slash leads to a directory.
-/
namespace TypeAtlas

/-- Why an access failed. -/
inductive FileFault where
  | notFound
  | alreadyExists
  | notADirectory
  | isADirectory
  | nameTooLong
  | nulInPath
  | notUtf8
  deriving DecidableEq, Repr

/-- The wording of a failure. -/
def FileFault.message : FileFault → String
  | notFound => "No such file or directory (os error 2)"
  | alreadyExists => "File exists (os error 17)"
  | notADirectory => "Not a directory (os error 20)"
  | isADirectory => "Is a directory (os error 21)"
  | nameTooLong => "File name too long (os error 36)"
  | nulInPath => "file name contained an unexpected NUL byte"
  | notUtf8 => "stream did not contain valid UTF-8"

namespace Path

/-- The longest name that a directory can hold, in bytes. -/
def nameLimit : Nat := 255

/-- The pieces of a path by which it is followed. -/
def pieces (p : String) : List String :=
  (Text.split '/' p).filter fun s => decide (s ≠ "")

/-- The path ends in a slash. -/
def endsInSlash (p : String) : Bool :=
  p.toList.getLast? == some '/'

/-- The path and all paths above it, the path itself first, each the parent of the one before. -/
def chain (p : String) : List String :=
  go p.length p
where
  /-- At most so many paths above this one. -/
  go : Nat → String → List String
    | 0, p => [p]
    | n + 1, p =>
      match parent? p with
      | some above => p :: go n above
      | none => [p]

end Path

namespace FileTree

/-- Looks a piece of a path up in the place reached so far. -/
def step (t : FileTree) (at_ : Place) (piece : String) : Except FileFault Place :=
  match t.get? at_ with
  | none => .error .notFound
  | some (.file _) => .error .notADirectory
  | some .directory =>
    if piece = "." then .ok at_
    else if piece = ".." then .ok at_.dropLast
    else if Path.nameLimit < piece.utf8ByteSize then .error .nameTooLong
    else .ok (at_ ++ [piece])

/-- Follows pieces of a path. What the last one leads to need not exist. -/
def follow (t : FileTree) (at_ : Place) (pieces : List String) : Except FileFault Place :=
  pieces.foldlM t.step at_

/-- Where a path begins. -/
def origin (t : FileTree) (path : String) : Place :=
  if Path.isAbsolute path then [] else t.workingDir

/-- The place that a path leads to, where something may be made. -/
def locate (t : FileTree) (path : String) : Except FileFault Place :=
  if path.toList.any fun c => decide (c.toNat = 0) then .error .nulInPath
  else if path = "" then .error .notFound
  else t.follow (t.origin path) (Path.pieces path)

/-- The place that a path leads to and what stands there. -/
def lookup (t : FileTree) (path : String) : Except FileFault (Place × Entry) := do
  let place ← t.locate path
  match t.get? place with
  | none => .error .notFound
  | some (.file bytes) =>
    if Path.endsInSlash path then .error .notADirectory else .ok (place, .file bytes)
  | some .directory => .ok (place, .directory)

/-- Something stands where the path leads to. -/
def pathExists (t : FileTree) (path : String) : Bool :=
  match t.lookup path with
  | .ok _ => true
  | .error _ => false

/-- A directory stands where the path leads to. -/
def isDirectory (t : FileTree) (path : String) : Bool :=
  match t.lookup path with
  | .ok (_, .directory) => true
  | _ => false

/-- The absolute path of a place. -/
def placeText (p : Place) : String :=
  "/" ++ Text.join "/" p

/-- The absolute path of what a path leads to. -/
def canonical (t : FileTree) (path : String) : Except FileFault String :=
  (t.lookup path).map fun (place, _) => placeText place

/-- The bytes of a file. -/
def read (t : FileTree) (path : String) : Except FileFault ByteArray := do
  match ← t.lookup path with
  | (_, .file bytes) => .ok bytes
  | (_, .directory) => .error .isADirectory

/-- The text of a file. -/
def readText (t : FileTree) (path : String) : Except FileFault String := do
  match String.fromUTF8? (← t.read path) with
  | some s => .ok s
  | none => .error .notUtf8

/-- Writes a file, which may exist. -/
def write (t : FileTree) (path : String) (bytes : ByteArray) : Except FileFault FileTree := do
  let place ← t.locate path
  if Path.endsInSlash path then .error .isADirectory
  else
    match t.get? place with
    | some .directory => .error .isADirectory
    | _ => .ok (t.set place (.file bytes))

/-- Makes a file with nothing in it unless there is one. -/
def touch (t : FileTree) (path : String) : Except FileFault FileTree := do
  let place ← t.locate path
  match t.get? place with
  | some .directory => .error .isADirectory
  | some (.file _) => .ok t
  | none => .ok (t.set place (.file ByteArray.empty))

/-- Makes a directory where nothing stands. -/
def makeDir (t : FileTree) (path : String) : Except FileFault FileTree := do
  let place ← t.locate path
  if (t.get? place).isSome then .error .alreadyExists else .ok (t.set place .directory)

/-- Makes the first directory of a chain, and before it those above it as far as they are missing.
A directory that is there already is no failure. What has been made stays, even if the rest
fails. -/
def makeChain (t : FileTree) : List String → FileTree × Option FileFault
  | [] => (t, some .notFound)
  | path :: above =>
    if path = "" then (t, none)
    else
      match t.makeDir path with
      | .ok made => (made, none)
      | .error .notFound =>
        match t.makeChain above with
        | (under, some fault) => (under, some fault)
        | (under, none) =>
          match under.makeDir path with
          | .ok made => (made, none)
          | .error fault => (under, if under.isDirectory path then none else some fault)
      | .error fault => (t, if t.isDirectory path then none else some fault)

/-- Makes a directory and those above it as far as they are missing. -/
def makeDirs (t : FileTree) (path : String) : FileTree × Option FileFault :=
  t.makeChain (Path.chain path)

end FileTree
end TypeAtlas
