import TypeAtlas.Path
import TypeAtlas.Record.Basic

/-!
# Artifact paths

Where the artifacts of a run lie below its root. A namespace has the directory of its segments, and
in it the table of its graph; a type has a directory of its own in that of its namespace, and in it
its metadata and its declaration.
-/
namespace TypeAtlas

/-- The segments of a namespace, freed of blanks at both ends; empty ones are dropped. -/
def scopeSegments (scope : String) : List String :=
  (((Text.splitAtChar '.' scope.toList).map Text.trim).filter fun s => decide (s ≠ [])).map
    String.ofList

/-- The directory of a namespace, relative to the root. -/
def scopeDir (scope : String) : String :=
  Path.joinAll "" (scopeSegments scope)

/-- The directory of a type, relative to the root. -/
def TypeRecord.dir (r : TypeRecord) : String :=
  Path.join (scopeDir r.scope) r.name

/-- The directory that holds the artifacts of a run. -/
structure Layout where
  root : String
  deriving DecidableEq, Repr

namespace Layout

/-- The name of a metadata document. -/
def metadataName : String := "metadata.json"

/-- The name of a declaration text. -/
def declarationName : String := "syntaxtree.txt"

/-- The name of a graph table. -/
def graphName : String := "graph.csv"

/-- The directory of a namespace. -/
def scopeDir (l : Layout) (scope : String) : String :=
  Path.join l.root (TypeAtlas.scopeDir scope)

/-- The directory of a type. -/
def typeDir (l : Layout) (r : TypeRecord) : String :=
  Path.join l.root r.dir

/-- The metadata document of a type. -/
def metadataPath (l : Layout) (r : TypeRecord) : String :=
  Path.join (l.typeDir r) metadataName

/-- The declaration text of a type. -/
def declarationPath (l : Layout) (r : TypeRecord) : String :=
  Path.join (l.typeDir r) declarationName

/-- The graph table of a namespace. -/
def graphPath (l : Layout) (scope : String) : String :=
  Path.join (l.scopeDir scope) graphName

end Layout
end TypeAtlas
