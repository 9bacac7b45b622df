import TypeAtlas.Analysis.Batch
import TypeAtlas.Artifact.Store
import TypeAtlas.Run.Document
import TypeAtlas.Scan.Walk

/-!
# A whole analysis

The source files below a directory are found and read, the declarations of a type are put together,
and the artifacts of all types are written. Then the graphs are inferred from what has been written
and written themselves.

A failure ends the analysis; what was written before it stays.
-/
namespace TypeAtlas

/-- Why an analysis failed. -/
inductive AnalysisFault where
  | scan (fault : ScanFault)
  | artifacts (fault : WriteFault)
  deriving DecidableEq, Repr

/-- The wording of a failure. -/
def AnalysisFault.message : AnalysisFault → String
  | scan fault => "Scan failed: " ++ fault.message
  | artifacts fault => "Writing artifacts failed: " ++ fault.message

/-- A failure and what is behind it, from the outside in. -/
def AnalysisFault.causes (f : AnalysisFault) : List String :=
  match f with
  | scan fault => [f.message, fault.message]
  | artifacts fault => [f.message, fault.message, fault.cause]

/-- The types of a run with their declaration texts, which stand in the order of the types. -/
structure Collection where
  index : TypeIndex
  texts : List String
  /-- The number of declarations taken into earlier ones. -/
  merged : Nat
  deriving DecidableEq, Repr

namespace Collection

/-- Nothing is known. -/
def empty : Collection :=
  ⟨.empty, [], 0⟩

/-- Adds a declaration. The texts of the declarations of one type stand in lines of their own. -/
def add (c : Collection) (d : Source.Declaration) : Collection :=
  match c.index.insert d.record with
  | (ix, .added _) => ⟨ix, c.texts ++ [d.text], c.merged⟩
  | (ix, .merged id) => ⟨ix, c.texts.modify id fun s => s ++ "\n" ++ d.text, c.merged + 1⟩

/-- The types of a list of declarations. -/
def ofList (ds : List Source.Declaration) : Collection :=
  ds.foldl add empty

end Collection

/-- The graphs of a run, inferred from the declarations as they were written. -/
def graphsOf (t : FileTree) (l : Layout) (ix : TypeIndex) : List Graph :=
  Graph.buildAll ix (l.texts t)

/-- The sum of a count over all graphs. -/
def countAll (graphs : List Graph) (count : Graph → Nat) : Nat :=
  graphs.foldl (fun acc g => acc + count g) 0

/-- The counts of a run. -/
def RunSummary.of (paths : List String) (b : Batch) (c : Collection) (graphs : List Graph) :
    RunSummary :=
  { filesScanned := paths.length
    filesSkipped := b.skipped.length
    types := c.index.size
    mergedDeclarations := c.merged
    scopes := graphs.length
    nodes := countAll graphs fun g => g.nodes.length
    edges := countAll graphs fun g => g.edges.length }

/-- Analyses the sources below a directory and writes the artifacts into a layout. -/
def Toolkit.analyze (k : Toolkit) (t : FileTree) (o : ScanOptions) (l : Layout) (root : String) :
    FileTree × Except AnalysisFault RunSummary :=
  match Scan.files t o root with
  | .error fault => (t, .error (.scan fault))
  | .ok paths =>
    let b := k.batch t (some root) paths
    let c := Collection.ofList b.declarations
    match WriteStep.runAll t (l.indexSteps c.index c.texts) with
    | (t', some fault) => (t', .error (.artifacts fault))
    | (t', none) =>
      let graphs := graphsOf t' l c.index
      match WriteStep.runAll t' (graphs.flatMap l.graphSteps) with
      | (t'', some fault) => (t'', .error (.artifacts fault))
      | (t'', none) => (t'', .ok (.of paths b c graphs))

/-- An analysis with the grammars of this library. -/
def analyze (t : FileTree) (o : ScanOptions) (l : Layout) (root : String) :
    FileTree × Except AnalysisFault RunSummary :=
  Toolkit.own.analyze t o l root

end TypeAtlas
