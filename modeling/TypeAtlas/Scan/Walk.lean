import TypeAtlas.Files.Access
import TypeAtlas.Scan.IgnoreRule
import TypeAtlas.Text.Lowercase

/-!
# Finding source files

The source files of a run are the files below a directory that have one of the wanted extensions and
whose way is not barred: none of the names from the directory down to the file may be passed over. A
name is passed over if ignore files say so or, where they say nothing, if it is hidden.

A file named `.ignore` counts in every directory. The two kinds of ignore files that belong to a
repository count only inside one, and from a directory upwards only as far as the directory that
holds the repository. Files of one kind in deeper directories come before those in higher ones, and
the kinds come one after another.
-/
namespace TypeAtlas

/-- What to look for. -/
structure ScanOptions where
  extensions : List String
  respectIgnoreFiles : Bool
  includeHidden : Bool
  deriving DecidableEq, Repr

/-- Why no files could be looked for. -/
inductive ScanFault where
  | rootNotFound (path : String)
  deriving DecidableEq, Repr

/-- The wording of a failure. -/
def ScanFault.message : ScanFault → String
  | rootNotFound path => "Source root not found: " ++ path

/-- What the ignore files seen so far say, and whether a repository has been left. -/
structure Findings where
  plain : Option Verdict
  repository : Option Verdict
  excluded : Option Verdict
  leftRepository : Bool
  deriving DecidableEq, Repr

namespace Scan

/-- The directory that makes the one it stands in a repository. -/
def repositoryName : String := ".git"

/-- The rules of the file at a place. -/
def rulesAt (t : FileTree) (p : Place) : List IgnoreRule :=
  match t.get? p with
  | some (.file bytes) => IgnoreRule.ofFile bytes
  | _ => []

/-- A directory is a repository. -/
def isRepository (t : FileTree) (dir : Place) : Bool :=
  (t.get? (dir ++ [repositoryName])).isSome

/-- What the file at a place in a directory says about something below the directory. -/
def sayingAt (t : FileTree) (dir file : Place) (p : Place) (isDir : Bool) : Option Verdict :=
  IgnoreRule.verdict? (rulesAt t (dir ++ file)) (Text.join "/" (p.drop dir.length)) isDir

/-- Hears the ignore files of one more directory above a place. -/
def hear (t : FileTree) (inRepository : Bool) (p : Place) (isDir : Bool) (f : Findings)
    (dir : Place) : Findings :=
  let counts := inRepository && !f.leftRepository
  let ask := fun (known : Option Verdict) (file : Place) =>
    known.orElse fun _ => sayingAt t dir file p isDir
  { plain := ask f.plain [".ignore"]
    repository := if counts then ask f.repository [".gitignore"] else f.repository
    excluded :=
      if counts then ask f.excluded [repositoryName, "info", "exclude"] else f.excluded
    leftRepository := f.leftRepository || isRepository t dir }

/-- The directories above a place, the nearest first. -/
def dirsAbove (p : Place) : List Place :=
  ((List.range p.length).map fun n => p.take n).reverse

/-- What the ignore files in the directories above a place say about it. -/
def saying (t : FileTree) (p : Place) (isDir : Bool) : Option Verdict :=
  let dirs := dirsAbove p
  let f := dirs.foldl (hear t (dirs.any (isRepository t)) p isDir) ⟨none, none, none, false⟩
  f.plain.orElse fun _ => f.repository.orElse fun _ => f.excluded

/-- The name of a place is hidden. -/
def isHidden (p : Place) : Bool :=
  ((p.getLast?.map String.toList).getD []).head? == some '.'

/-- What stands at a place is passed over. -/
def skips (t : FileTree) (o : ScanOptions) (p : Place) : Bool :=
  let isDir := decide (t.get? p = some .directory)
  match if o.respectIgnoreFiles then saying t p isDir else none with
  | some .skip => true
  | some .keep => false
  | none => !o.includeHidden && isHidden p

/-- The places on the way from a directory down to a place below it, the place itself included. -/
def way (root p : Place) : List Place :=
  (List.range (p.length - root.length)).map fun n => p.take (root.length + n + 1)

/-- A place below a directory is reached: nothing on the way to it is passed over. -/
def reaches (t : FileTree) (o : ScanOptions) (root p : Place) : Bool :=
  root.isPrefixOf p && (way root p).all fun q => !skips t o q

/-- An extension as it is compared: without leading dots, in lower case. -/
def wantedExtension (lower : String → String) (ext : String) : String :=
  lower (Text.dropLeadingDots ext)

/-- A path has one of the wanted extensions, which are put into lower case by a mapping. -/
def wantsBy (lower : String → String) (extensions : List String) (path : String) : Bool :=
  match Path.extension? path with
  | some ext => extensions.any fun e => Text.eqIgnoreAsciiCase (wantedExtension lower e) ext
  | none => false

/-- A path has one of the wanted extensions. -/
def wants (extensions : List String) (path : String) : Bool :=
  wantsBy Text.lowercase extensions path

/-- The path of a place below a directory that is spelled in some way. -/
def spelled (root : String) (base p : Place) : String :=
  (p.drop base.length).foldl Path.join root

/-- The source files below a directory in the order of their paths, which begin as the path of the
directory is written. The wanted extensions are put into lower case by a mapping. -/
def filesBy (lower : String → String) (t : FileTree) (o : ScanOptions) (root : String) :
    Except ScanFault (List String) :=
  match t.lookup root with
  | .ok (base, .directory) =>
    let found := t.files.filterMap fun (p, _) =>
      let path := spelled root base p
      if wantsBy lower o.extensions path && reaches t o base p then some path else none
    .ok (found.mergeSort Path.le)
  | _ => .error (.rootNotFound root)

/-- The source files below a directory in the order of their paths. -/
def files (t : FileTree) (o : ScanOptions) (root : String) : Except ScanFault (List String) :=
  filesBy Text.lowercase t o root

end Scan
end TypeAtlas
