import TypeAtlas.Artifact.Layout
import TypeAtlas.Scan.Walk
import TypeAtlas.Source.Language
import TypeAtlas.Toml.Reader

/-!
# Settings

The settings of a project, their defaults, how they are read from a document, and what is wrong with
them. A section of the document is a table, or a list of its values in order; what is missing has its
default, and what is not known is passed over.
-/
namespace TypeAtlas

/-- The settings of a project. -/
structure Config where
  /-- The directory of the sources. -/
  projectRoot : String
  /-- The directory of the artifacts. -/
  outputRoot : String
  /-- Every run has a directory of its own. -/
  runSubdir : Bool
  extensions : List String
  respectIgnoreFiles : Bool
  includeHidden : Bool
  /-- Messages are also written into a file. -/
  logFile : Bool
  deriving DecidableEq, Repr

namespace Config

/-- The directory of a project that holds its settings. -/
def dirName : String := ".typegraph"

/-- The name of the file of the settings. -/
def fileName : String := "config.toml"

/-- The settings without a document. -/
def standard : Config :=
  { projectRoot := "."
    outputRoot := "output"
    runSubdir := true
    extensions := Source.Language.extensions
    respectIgnoreFiles := false
    includeHidden := false
    logFile := true }

/-! ### Reading -/

open Toml (Value Members)

/-- The values of a section with the given names, in order. A date has the form of a table without
any of them. -/
def sectionValues? (names : List String) : Value → Option (List (Option Value))
  | .table _ ms => some (names.map (Members.get? ms))
  | .list vs => some ((List.range names.length).map fun i => vs[i]?)
  | .tables ts => some ((List.range names.length).map fun i => (ts[i]?).map (.table .header))
  | .date => some (names.map fun _ => none)
  | _ => none

/-- A text, with a default. -/
def textOr (default : String) : Option Value → Option String
  | none => some default
  | some (.text s) => some s
  | some _ => none

/-- A truth value, with a default. -/
def boolOr (default : Bool) : Option Value → Option Bool
  | none => some default
  | some (.bool b) => some b
  | some _ => none

/-- A list of texts, with a default. -/
def textsOr (default : List String) : Option Value → Option (List String)
  | none => some default
  | some (.list vs) => vs.mapM fun v => textOr "" (some v)
  | some _ => none

/-- Reads a section if it is there. -/
def readSection (ms : Members) (name : String) (fields : List String)
    (read : Config → List (Option Value) → Option Config) (c : Config) : Option Config :=
  match ms.get? name with
  | none => some c
  | some v => (sectionValues? fields v).bind (read c)

/-- Reads the section of the project. -/
def readProject (c : Config) : List (Option Value) → Option Config
  | [root] => do pure { c with projectRoot := ← textOr c.projectRoot root }
  | _ => none

/-- Reads the section of the output. -/
def readOutput (c : Config) : List (Option Value) → Option Config
  | [root, runSubdir] => do
    pure { c with
      outputRoot := ← textOr c.outputRoot root
      runSubdir := ← boolOr c.runSubdir runSubdir }
  | _ => none

/-- Reads the section of the scan. -/
def readScan (c : Config) : List (Option Value) → Option Config
  | [extensions, respect, hidden] => do
    pure { c with
      extensions := ← textsOr c.extensions extensions
      respectIgnoreFiles := ← boolOr c.respectIgnoreFiles respect
      includeHidden := ← boolOr c.includeHidden hidden }
  | _ => none

/-- Reads the section of the messages. -/
def readLogging (c : Config) : List (Option Value) → Option Config
  | [file] => do pure { c with logFile := ← boolOr c.logFile file }
  | _ => none

/-- The settings that the members of a document stand for. -/
def ofMembers? (ms : Members) : Option Config := do
  let c ← readSection ms "project" ["root"] readProject standard
  let c ← readSection ms "output" ["root", "run_subdir"] readOutput c
  let c ← readSection ms "scan" ["extensions", "respect_gitignore", "include_hidden"] readScan c
  readSection ms "logging" ["file"] readLogging c

/-- The settings that a text stands for. -/
def parse? (s : String) : Option Config :=
  (Toml.parse? s).bind ofMembers?

/-! ### Checking -/

/-- Something wrong with a setting. -/
inductive Flaw where
  | noExtensions
  | unknownExtension (ext : String)
  | noOutputRoot
  deriving DecidableEq, Repr

/-- The setting and what is wrong with it. -/
def Flaw.message : Flaw → String
  | noExtensions => "scan.extensions: At least one source extension is required."
  | unknownExtension ext =>
    "scan.extensions: Unsupported extension '" ++ ext ++ "'. Expected one of: "
      ++ Text.join ", " Source.Language.extensions ++ "."
  | noOutputRoot => "output.root: Output root cannot be empty."

/-- An extension belongs to a language. Leading dots do not matter. -/
def isKnownExtension (ext : String) : Bool :=
  (Source.Language.ofExtension? (Text.dropLeadingDots ext)).isSome

/-- What is wrong with the settings. -/
def flaws (c : Config) : List Flaw :=
  (if c.extensions = [] then [.noExtensions] else [])
    ++ (c.extensions.filter fun e => !isKnownExtension e).map .unknownExtension
    ++ (if c.outputRoot = "" then [.noOutputRoot] else [])

/-! ### Using -/

/-- What to look for in the sources. -/
def scanOptions (c : Config) : ScanOptions :=
  { extensions := c.extensions.map Text.dropLeadingDots
    respectIgnoreFiles := c.respectIgnoreFiles
    includeHidden := c.includeHidden }

/-- The directory of the sources, given the directory of the settings. -/
def sourceDir (c : Config) (dir : Option String) : String :=
  match dir with
  | some d => Path.join d c.projectRoot
  | none => c.projectRoot

/-- The directory of the artifacts, given the directory of the settings. -/
def outputDir (c : Config) (dir : Option String) : String :=
  Path.join (dir.getD dirName) c.outputRoot

end Config
end TypeAtlas
