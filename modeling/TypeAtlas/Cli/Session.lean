import TypeAtlas.Analysis.Run
import TypeAtlas.Cli.Help
import TypeAtlas.Cli.Report
import TypeAtlas.Config.Template

/-!
# What commands do

A command turns a file tree into another one and leaves texts for the two output streams. An
analysis is done in two parts: the time of its end is known only when its artifacts have been
written.
-/
namespace TypeAtlas
namespace Cli

/-- What is left of a command when it is over. -/
structure Outcome where
  exitCode : Nat
  stdout : String
  stderr : String
  files : FileTree
  deriving DecidableEq

/-- A command has done its work. -/
def Outcome.success (files : FileTree) (stdout stderr : String) : Outcome :=
  ⟨0, stdout, stderr, files⟩

/-- A command has failed after it left some text. -/
def Outcome.failure (files : FileTree) (stderr failure : String) (causes : List String) : Outcome :=
  ⟨1, "", stderr ++ report failure causes, files⟩

/-- A command has broken off at something that it takes for impossible. -/
def Outcome.breakdown (files : FileTree) (cause : String) : Outcome :=
  ⟨101, "", cause ++ "\n", files⟩

/-- A command that is over, or an analysis whose end is still to be written down. -/
inductive Stage where
  | ended (o : Outcome)
  | analyzed (files : FileTree) (stderr : String) (layout : Layout) (record : RunRecord)
      (summary : RunSummary)

/-- The name of the file for messages. -/
def logName : String := "typegraph.log"

/-! ### Analysis -/

/-- Settings with their directory, and what is to be said about how they were found. -/
structure Loaded where
  config : Config
  dir : Option String
  stderr : String

/-- Loads the settings that are named, or else those of the working directory. Settings that are not
named and cannot be read are replaced by the standard ones with a warning. -/
def load (t : FileTree) (path : Option String) : Except ConfigFault Loaded :=
  match path with
  | some p => (Config.ofPath t p).map fun (c, dir) => ⟨c, some dir, ""⟩
  | none =>
    match Config.find t (FileTree.placeText t.workingDir) with
    | .ok (some (c, dir)) => .ok ⟨c, some dir, ""⟩
    | .ok none => .ok ⟨.standard, none, ""⟩
    | .error fault =>
      .ok ⟨.standard, none, "Warning: Error searching for config: " ++ fault.message ++ ": "
        ++ fault.cause ++ ", using defaults\n"⟩

/-- The directory of the artifacts of a run, made below the output directory or equal to it. -/
def openLayout (t : FileTree) (output : String) (ownDir : Bool) (start : Timestamp) :
    FileTree × Except (String × List String) Layout :=
  if ownDir then
    match Layout.forRun t output start with
    | (t', .ok l) => (t', .ok l)
    | (t', .error fault) => (t', .error (fault.message, [fault.cause]))
  else
    match t.makeDirs output with
    | (t', none) => (t', .ok ⟨output⟩)
    | (t', some fault) =>
      (t', .error ("Failed to create output directory " ++ output, [fault.message]))

/-- Makes the file for messages. That it cannot be made is no more than a warning. -/
def openLog (t : FileTree) (l : Layout) (wanted : Bool) : FileTree × String :=
  if wanted then
    match t.touch (Path.join l.root logName) with
    | .ok t' => (t', "")
    | .error fault => (t, "Warning: Failed to create log file: " ++ fault.message ++ "\n")
  else (t, "")

/-- Analyses with settings that are sound. -/
def analyzeWith (t : FileTree) (loaded : Loaded) (source output : Option String) (noRunDir : Bool)
    (start : Timestamp) : Stage :=
  let c := loaded.config
  let sourceRoot := source.getD (c.sourceDir loaded.dir)
  let sourceRoot := (t.canonical sourceRoot).toOption.getD sourceRoot
  let outputRoot := output.getD (c.outputDir loaded.dir)
  match openLayout t outputRoot (c.runSubdir && !noRunDir) start with
  | (t, .error (failure, causes)) => .ended (.failure t loaded.stderr failure causes)
  | (t, .ok l) =>
    let (t, warning) := openLog t l c.logFile
    let stderr := loaded.stderr ++ warning
    match analyze t c.scanOptions l sourceRoot with
    | (t, .error fault) =>
      .ended (.failure t stderr ("Analysis of " ++ sourceRoot ++ " failed") fault.causes)
    | (t, .ok summary) =>
      .analyzed t stderr l (.start start sourceRoot c.scanOptions.extensions) summary

/-- Loads and checks the settings, then analyses. -/
def runAnalyze (t : FileTree) (config source output : Option String) (noRunDir : Bool)
    (start : Timestamp) : Stage :=
  match load t config with
  | .error fault => .ended (.failure t "" fault.message [fault.cause])
  | .ok loaded =>
    match loaded.config.flaws with
    | [] => analyzeWith t loaded source output noRunDir start
    | flaws =>
      let lines := String.join (flaws.map fun f => "Config error: " ++ f.message ++ "\n")
      .ended (.failure t (loaded.stderr ++ lines)
        ("Invalid configuration (" ++ toString flaws.length ++ " errors)") [])

/-! ### The other commands -/

/-- Writes the settings of a new project into the working directory. -/
def runInit (t : FileTree) (force : Bool) : Outcome :=
  let path := Path.join Config.dirName Config.fileName
  if t.pathExists path && !force then
    .failure t "" (path ++ " already exists. Use --force to overwrite.") []
  else
    let (t, fault) := if t.pathExists Config.dirName then (t, none) else t.makeDirs Config.dirName
    match fault with
    | some f => .failure t "" f.message []
    | none =>
      match t.write path Config.template.toUTF8 with
      | .ok t' => .success t' "" ""
      | .error f => .failure t "" f.message []

/-- Lists a graph table. One with a column that is too wide breaks the command off. -/
def runShow (t : FileTree) (graph : String) : Outcome :=
  match t.readText graph with
  | .ok s =>
    match (Table.parse s).listing? with
    | some text => .success t text ""
    | none => .breakdown t "Formatting argument out of range"
  | .error fault => .failure t "" ("Failed to read " ++ graph) [fault.message]

/-! ### Running -/

/-- Does what arguments ask for, up to the end of an analysis. -/
def begin (t : FileTree) (args : List String) (start : Timestamp) : Stage :=
  match parse? args with
  | none => .ended ⟨2, "", "Usage: typegraph [OPTIONS] <COMMAND>\n", t⟩
  | some .version => .ended (.success t versionText "")
  | some (.help topic) => .ended (.success t (helpText topic) "")
  | some (.run i) =>
    match i.command with
    | .analyze source output noRunDir => runAnalyze t i.config source output noRunDir start
    | .init force => .ended (runInit t force)
    | .show graph => .ended (runShow t graph)

/-- Writes down that an analysis is over. -/
def Stage.conclude (finish : Timestamp) : Stage → Outcome
  | ended o => o
  | analyzed t stderr l record summary =>
    let done := record.finish finish summary
    match t.write (Path.join l.root RunRecord.fileName) done.render.toUTF8 with
    | .ok t' => .success t' (l.root ++ "\n") stderr
    | .error fault => .failure t stderr fault.message []

/-- Does what arguments ask for. -/
def run (t : FileTree) (args : List String) (start finish : Timestamp) : Outcome :=
  (begin t args start).conclude finish

end Cli
end TypeAtlas
