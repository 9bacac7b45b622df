import TypeAtlas.Cli.Arguments

/-!
# Help texts
-/
namespace TypeAtlas
namespace Cli

/-- The name of the program and its version. -/
def versionText : String :=
  "typegraph 0.1.0\n"

/-- The line about messages. -/
def verboseLine : String :=
  "  -v, --verbose          Enable verbose logging"

/-- The line about the option for the settings. -/
def configLine : String :=
  "      --config <CONFIG>  Path to .typegraph directory or config file "
    ++ "(default: search for .typegraph/config.toml)"

/-- The line about help. -/
def helpLine : String :=
  "  -h, --help             Print help"

/-- The lines of a page of help. -/
def helpLines : Topic → List String
  | .program =>
    [ "Extract type declarations and namespace dependency graphs from C# and Java sources",
      "",
      "Usage: typegraph [OPTIONS] <COMMAND>",
      "",
      "Commands:",
      "  analyze  Analyze a source tree and write per-type artifacts and namespace graphs",
      "  init     Initialize a new .typegraph directory with config file",
      "  show     Print the nodes and edges of a graph.csv",
      "  help     Print this message or the help of the given subcommand(s)",
      "",
      "Options:",
      verboseLine,
      configLine,
      helpLine,
      "  -V, --version          Print version" ]
  | .analyze =>
    [ "Analyze a source tree and write per-type artifacts and namespace graphs",
      "",
      "Usage: typegraph analyze [OPTIONS]",
      "",
      "Options:",
      "      --source <SOURCE>  Source directory (default: project root from config or current dir)",
      verboseLine,
      configLine,
      "      --output <OUTPUT>  Output directory (default: output root from config)",
      "      --no-run-dir       Write directly into the output directory instead of a timestamped "
        ++ "run directory",
      helpLine ]
  | .init =>
    [ "Initialize a new .typegraph directory with config file",
      "",
      "Usage: typegraph init [OPTIONS]",
      "",
      "Options:",
      "      --force            Force overwrite existing config",
      verboseLine,
      configLine,
      helpLine ]
  | .show =>
    [ "Print the nodes and edges of a graph.csv",
      "",
      "Usage: typegraph show [OPTIONS] <GRAPH>",
      "",
      "Arguments:",
      "  <GRAPH>  Path to a graph.csv file",
      "",
      "Options:",
      verboseLine,
      configLine,
      helpLine ]
  | .help =>
    [ "Print this message or the help of the given subcommand(s)",
      "",
      "Usage: typegraph help [COMMAND]...",
      "",
      "Arguments:",
      "  [COMMAND]...  Print help for the subcommand(s)" ]

/-- A page of help. -/
def helpText (topic : Topic) : String :=
  String.join ((helpLines topic).map fun l => l ++ "\n")

end Cli
end TypeAtlas
