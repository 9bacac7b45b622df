import TypeAtlas.Files.Access
import TypeAtlas.Source.Reading

/-!
# Extraction from files

Types are taken out of one source file after another. A file that cannot be read is left out with
the reason and does not touch the others. What texts are read with is a parameter (`Toolkit`); the
program reads them with the grammars of this library.
-/
namespace TypeAtlas

/-- Why a source file is left out. -/
inductive SkipReason where
  | noLanguage (path : String)
  | unreadable (path : String) (fault : FileFault)
  | notUtf8 (path : String)
  | noGrammar (l : Source.Language) (reason : String)
  | noTree (path : String)
  deriving DecidableEq, Repr

/-- The wording of a reason. -/
def SkipReason.message : SkipReason → String
  | noLanguage path => "No declaration extractor for " ++ path
  | unreadable path fault => "Failed to read " ++ path ++ ": " ++ fault.message
  | notUtf8 path => path ++ " is not valid UTF-8"
  | noGrammar l reason => l.label ++ " grammar unavailable: " ++ reason
  | noTree path => "Parser produced no tree for " ++ path

namespace Source

/-- A text without the byte order mark it begins with. -/
def dropMark (s : String) : String :=
  match s.toList with
  | c :: cs => if c.toNat = 0xFEFF then String.ofList cs else s
  | [] => s

/-- The text of a source file. -/
def readFile (t : FileTree) (path : String) : Except SkipReason String :=
  match t.read path with
  | .error fault => .error (.unreadable path fault)
  | .ok bytes =>
    match String.fromUTF8? bytes with
    | some s => .ok (dropMark s)
    | none => .error (.notUtf8 path)

/-- The path under which a file is recorded: relative to the root if it lies below it, with plain
slashes. -/
def recordedPath (root : Option String) (path : String) : String :=
  let relative := (root.bind fun r => Path.relativeTo? path r).getD path
  Text.replaceChar '\\' '/' relative

end Source

/-- What source texts are read with. -/
structure Toolkit where
  /-- Why there is nothing to take types out of a language with. -/
  unavailable : Source.Language → Option String
  /-- Why a parser does not take the grammar of a language; it stays as it is then. -/
  refusal : Source.Language → Option String
  /-- What a parser makes of a text, by the grammar that is loaded. -/
  parse : Source.Language → List Char → Option Source.Parsed

namespace Toolkit
open Source (Language Extraction)

/-- The grammars of this library, which are always at hand and read every text. -/
def own : Toolkit :=
  ⟨fun _ => none, fun _ => none, fun l source => some (l.parse source)⟩

/-- Takes the types out of a text that is recorded under a path. -/
def extract (k : Toolkit) (l : Language) (source path : String) : Except SkipReason Extraction :=
  match k.unavailable l, k.refusal l, k.parse l source.toList with
  | some reason, _, _ => .error (.noGrammar l reason)
  | none, some reason, _ => .error (.noGrammar l reason)
  | none, none, none => .error (.noTree path)
  | none, none, some p => .ok ⟨l.dialect.declarations p path, p.root.hasError⟩

/-- Takes the types out of one file. -/
def extractFile (k : Toolkit) (t : FileTree) (root : Option String) (path : String) :
    Except SkipReason Extraction :=
  match Language.ofPath? path with
  | none => .error (.noLanguage path)
  | some l => (Source.readFile t path).bind fun source =>
      k.extract l source (Source.recordedPath root path)

end Toolkit

/-- Takes the types out of one file with the grammars of this library. -/
def Source.extractFile (t : FileTree) (root : Option String) (path : String) :
    Except SkipReason Extraction :=
  Toolkit.own.extractFile t root path

/-- What came out of a list of files, and which of them were left out. -/
structure Batch where
  files : List (String × Source.Extraction)
  skipped : List (String × SkipReason)
  deriving DecidableEq, Repr

/-- Takes the types out of files, in the order of the list. -/
def Toolkit.batch (k : Toolkit) (t : FileTree) (root : Option String) (paths : List String) :
    Batch :=
  let results := paths.map fun path => (path, k.extractFile t root path)
  { files := results.filterMap fun (path, r) => r.toOption.map fun e => (path, e)
    skipped := results.filterMap fun (path, r) =>
      match r with
      | .ok _ => none
      | .error reason => some (path, reason) }

namespace Batch

/-- What comes out of files with the grammars of this library. -/
def ofPaths (t : FileTree) (root : Option String) (paths : List String) : Batch :=
  Toolkit.own.batch t root paths

/-- All declarations in the order of the files. -/
def declarations (b : Batch) : List Source.Declaration :=
  b.files.flatMap fun f => f.2.types

/-- The number of files that are not in the grammar of their language. -/
def faultyCount (b : Batch) : Nat :=
  (b.files.filter fun f => f.2.hasErrors).length

end Batch
end TypeAtlas
