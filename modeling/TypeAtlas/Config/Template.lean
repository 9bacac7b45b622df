import TypeAtlas.Config.File

/-!
# The settings of a new project
-/
namespace TypeAtlas
namespace Config

/-- The lines of the document that a new project begins with. -/
def templateLines : List String :=
  [ "# typegraph configuration",
    "# All paths are relative to this .typegraph/ directory unless absolute",
    "",
    "[project]",
    "root = \"..\"  # Parent directory (the actual project root)",
    "",
    "[output]",
    "root = \"output\"    # Runs are written below .typegraph/output/",
    "run_subdir = true  # One timestamped directory per run",
    "",
    "[scan]",
    "extensions = [\"cs\", \"java\"]",
    "respect_gitignore = false",
    "include_hidden = false",
    "",
    "[logging]",
    "file = true  # Also write typegraph.log into the run directory" ]

/-- The document that a new project begins with. -/
def template : String :=
  String.join (templateLines.map fun l => l ++ "\n")

end Config
end TypeAtlas
