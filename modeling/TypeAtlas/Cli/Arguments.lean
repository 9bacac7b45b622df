import TypeAtlas.Text.Search

/-!
# Command-line arguments

Arguments are read from left to right. The first fault, request for help or request for the version
decides; what follows it is not looked at.

The arguments before the name of a command and those behind it are read by the same rules. A few
options are known on both sides, where the later side comes first.
-/
namespace TypeAtlas
namespace Cli

/-- What is to be done. -/
inductive Command where
  | analyze (source output : Option String) (noRunDir : Bool)
  | init (force : Bool)
  | show (graph : String)
  deriving DecidableEq, Repr

/-- What is to be done, and with which settings. -/
structure Invocation where
  verbose : Bool
  config : Option String
  command : Command
  deriving DecidableEq, Repr

/-- What a page of help is about. -/
inductive Topic where
  | program
  | analyze
  | init
  | show
  | help
  deriving DecidableEq, Repr

/-- What the user asks for. -/
inductive Request where
  | run (i : Invocation)
  | help (topic : Topic)
  | version
  deriving DecidableEq, Repr

/-- Which arguments are known. -/
structure Grammar where
  /-- Options without a value. -/
  flags : List String
  /-- Options with a value. -/
  options : List String
  /-- The version can be asked for. -/
  hasVersion : Bool
  /-- The first word is the name of a command and ends the reading. -/
  namesCommand : Bool
  /-- The number of words that are taken otherwise. -/
  wordLimit : Nat

/-- The arguments read so far. -/
structure Given where
  flags : List String
  options : List (String × String)
  words : List String
  deriving DecidableEq, Repr

/-- Why reading ended before its time. -/
inductive Halt where
  | usage
  | help
  | version
  deriving DecidableEq, Repr

namespace Given

/-- No arguments. -/
def empty : Given :=
  ⟨[], [], []⟩

/-- A flag is given. -/
def has (g : Given) (name : String) : Bool :=
  g.flags.contains name

/-- The value of an option. -/
def value? (g : Given) (name : String) : Option String :=
  (g.options.find? fun o => o.1 == name).map Prod.snd

/-- Takes a flag, which may be given once. -/
def addFlag (g : Given) (name : String) : Except Halt Given :=
  if g.has name then .error .usage else .ok { g with flags := g.flags ++ [name] }

/-- Takes the value of an option, which may be given once and is not empty. -/
def addOption (g : Given) (name value : String) : Except Halt Given :=
  if (g.value? name).isSome || value == "" then .error .usage
  else .ok { g with options := g.options ++ [(name, value)] }

/-- Takes words as far as there is room. A word is not empty. -/
def addWords (g : Given) (limit : Nat) (ws : List String) : Except Halt Given :=
  if g.words.length + ws.length ≤ limit ∧ (ws.all fun w => w != "") = true then
    .ok { g with words := g.words ++ ws }
  else .error .usage

end Given

/-- An argument has the form of an option. -/
def isOption (arg : String) : Bool :=
  Text.startsWith arg "-" && arg != "-"

/-- Name and value of a long option; the value follows an equals sign. -/
def splitLong (arg : String) : String × Option String :=
  let body := arg.toList.drop 2
  let name := String.ofList (body.takeWhile (· != '='))
  if body.contains '=' then (name, some (String.ofList ((body.dropWhile (· != '=')).drop 1)))
  else (name, none)

/-- Takes the letters of a group of short options. -/
def readLetters (grammar : Grammar) (g : Given) : List Char → Except Halt Given
  | [] => .ok g
  | 'h' :: _ => .error .help
  | 'v' :: cs =>
    match g.addFlag "verbose" with
    | .ok next => readLetters grammar next cs
    | .error halt => .error halt
  | 'V' :: _ => .error (if grammar.hasVersion then .version else .usage)
  | _ :: _ => .error .usage

/-- Takes a long option without a value of its own. -/
def readFlag (grammar : Grammar) (g : Given) (name : String) (value : Option String) :
    Except Halt Given :=
  if value.isSome then .error .usage
  else if name = "help" then .error .help
  else if name = "version" ∧ grammar.hasVersion = true then .error .version
  else if name ∈ grammar.flags then g.addFlag name
  else .error .usage

/-- Reads arguments. What is left over begins with the name of a command. -/
def readArguments (grammar : Grammar) : Given → List String → Except Halt (Given × List String)
  | g, [] => .ok (g, [])
  | g, arg :: rest =>
    if arg = "--" then
      (g.addWords (if grammar.namesCommand then 0 else grammar.wordLimit) rest).map fun g => (g, [])
    else if Text.startsWith arg "--" then
      let (name, value) := splitLong arg
      if name ∈ grammar.options then
        match value with
        | some v => (g.addOption name v).bind fun g => readArguments grammar g rest
        | none =>
          match rest with
          | v :: more =>
            if isOption v then .error .usage
            else (g.addOption name v).bind fun g => readArguments grammar g more
          | [] => .error .usage
      else (readFlag grammar g name value).bind fun g => readArguments grammar g rest
    else if isOption arg then
      (readLetters grammar g (arg.toList.drop 1)).bind fun g => readArguments grammar g rest
    else if grammar.namesCommand then .ok (g, arg :: rest)
    else (g.addWords grammar.wordLimit [arg]).bind fun g => readArguments grammar g rest

/-- The arguments before the name of a command. -/
def programGrammar : Grammar :=
  ⟨["verbose"], ["config"], true, true, 0⟩

/-- The arguments of a command. -/
def commandGrammar (flags options : List String) (words : Nat) : Grammar :=
  ⟨"verbose" :: flags, "config" :: options, false, false, words⟩

/-- The topic with the name of a command. -/
def topicOf? (name : String) : Option Topic :=
  if name = "analyze" then some .analyze
  else if name = "init" then some .init
  else if name = "show" then some .show
  else if name = "help" then some .help
  else none

/-- The request for help that follows the word for it. -/
def helpRequest? : List String → Option Request
  | [] => some (.help .program)
  | [name] => (topicOf? name).map .help
  | _ => none

/-- What a command with its arguments asks for. -/
def commandRequest? (outer : Given) (topic : Topic) (grammar : Grammar)
    (command : Given → Option Command) (args : List String) : Option Request :=
  match readArguments grammar .empty args with
  | .error .help => some (.help topic)
  | .error .version => some .version
  | .error .usage => none
  | .ok (inner, _) =>
    (command inner).map fun c =>
      .run
        { verbose := outer.has "verbose" || inner.has "verbose"
          config := (inner.value? "config").orElse fun _ => outer.value? "config"
          command := c }

/-- What the arguments behind the name of a command ask for. -/
def dispatch? (outer : Given) (name : String) (args : List String) : Option Request :=
  if name = "analyze" then
    commandRequest? outer .analyze (commandGrammar ["no-run-dir"] ["source", "output"] 0)
      (fun g => some (.analyze (g.value? "source") (g.value? "output") (g.has "no-run-dir"))) args
  else if name = "init" then
    commandRequest? outer .init (commandGrammar ["force"] [] 0)
      (fun g => some (.init (g.has "force"))) args
  else if name = "show" then
    commandRequest? outer .show (commandGrammar [] [] 1)
      (fun g => g.words.head?.map .show) args
  else if name = "help" then helpRequest? args
  else none

/-- What arguments ask for; none if they are not understood. -/
def parse? (args : List String) : Option Request :=
  match readArguments programGrammar .empty args with
  | .error .help => some (.help .program)
  | .error .version => some .version
  | .error .usage => none
  | .ok (_, []) => none
  | .ok (outer, name :: rest) => dispatch? outer name rest

end Cli
end TypeAtlas
