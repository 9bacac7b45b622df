import TypeAtlas.Config.Basic
import TypeAtlas.Files.Access

/-!
# Files of settings

Settings are read from a file that is named, or from the nearest directory of settings in the
working directory and those above it.
-/
namespace TypeAtlas

/-- Why settings could not be read. -/
inductive ConfigFault where
  | unreadable (path : String) (fault : FileFault)
  | malformed (path : String)
  deriving DecidableEq, Repr

namespace ConfigFault

/-- The wording of a failure. -/
def message : ConfigFault → String
  | unreadable path _ => "Failed to read config file: " ++ path
  | malformed path => "Failed to parse config file: " ++ path

/-- What is behind a failure. -/
def cause : ConfigFault → String
  | unreadable _ fault => fault.message
  | malformed _ => "TOML parse error"

end ConfigFault

namespace Config

/-- The settings in a file. -/
def ofFile (t : FileTree) (path : String) : Except ConfigFault Config :=
  match t.readText path with
  | .error fault => .error (.unreadable path fault)
  | .ok s =>
    match parse? s with
    | some c => .ok c
    | none => .error (.malformed path)

/-- The directory of settings in a directory. -/
def dirIn (dir : String) : String :=
  Path.join dir dirName

/-- The file of settings in a directory. -/
def fileIn (dir : String) : String :=
  Path.join (dirIn dir) fileName

/-- The settings of the nearest directory that has a file of settings, from a directory upwards, with
the directory of the settings. -/
def find (t : FileTree) (start : String) : Except ConfigFault (Option (Config × String)) :=
  match (Path.chain start).find? fun dir => t.pathExists (fileIn dir) with
  | none => .ok none
  | some dir => (ofFile t (fileIn dir)).map fun c => some (c, dirIn dir)

/-- The settings at a path, which is a file of settings or a directory of settings, with their
directory. -/
def ofPath (t : FileTree) (path : String) : Except ConfigFault (Config × String) :=
  let file := if t.isDirectory path then Path.join path fileName else path
  (ofFile t file).map fun c => (c, (Path.parent? file).getD path)

end Config
end TypeAtlas
