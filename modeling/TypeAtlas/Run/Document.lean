import TypeAtlas.Record.Document
import TypeAtlas.Run.Timestamp

/-!
# Run documents

What is written down about a run beside its artifacts: when it started and ended, what it read and
how much came out.
-/
namespace TypeAtlas

/-- The counts of a run. -/
structure RunSummary where
  filesScanned : Nat
  filesSkipped : Nat
  types : Nat
  /-- Declarations taken into an earlier one of the same type. -/
  mergedDeclarations : Nat
  scopes : Nat
  nodes : Nat
  edges : Nat
  deriving DecidableEq, Repr

/-- What is written down about a run. -/
structure RunRecord where
  startedAt : Timestamp
  finishedAt : Option Timestamp
  sourceRoot : String
  extensions : List String
  summary : Option RunSummary
  deriving DecidableEq, Repr

open Json (Value)

/-- A count. -/
def countValue (n : Nat) : Value :=
  .number (toString n)

/-- The document of the counts. -/
def RunSummary.document (s : RunSummary) : Value :=
  .object [("files_scanned", countValue s.filesScanned),
    ("files_skipped", countValue s.filesSkipped), ("types", countValue s.types),
    ("merged_declarations", countValue s.mergedDeclarations),
    ("namespaces", countValue s.scopes), ("nodes", countValue s.nodes),
    ("edges", countValue s.edges)]

namespace RunRecord

/-- The name of the document. -/
def fileName : String := "run.json"

/-- A run that has started. -/
def start (at_ : Timestamp) (sourceRoot : String) (extensions : List String) : RunRecord :=
  ⟨at_, none, sourceRoot, extensions, none⟩

/-- A run that has ended. -/
def finish (r : RunRecord) (at_ : Timestamp) (summary : RunSummary) : RunRecord :=
  { r with finishedAt := some at_, summary := some summary }

/-- The document of a run. -/
def document (r : RunRecord) : Value :=
  .object ([("started_at", .text r.startedAt.render)]
    ++ optionalMember "finished_at" (r.finishedAt.map fun t => .text t.render)
    ++ [("source_root", .text r.sourceRoot), ("extensions", textList r.extensions)]
    ++ optionalMember "summary" (r.summary.map RunSummary.document))

/-- The text of the document of a run. -/
def render (r : RunRecord) : String :=
  r.document.render

end RunRecord
end TypeAtlas
