import TypeAtlas.Text.Search

/-!
# Reports of failures

A failure is reported with what is behind it, from the outside in. Several causes are numbered. The
lines of a cause that has several are set in.
-/
namespace TypeAtlas
namespace Cli

/-- A text whose lines begin with a lead, the first one with a lead of its own. -/
def indented (first further text : String) : String :=
  first ++ Text.join ("\n" ++ further) (Text.split '\n' text)

/-- A number as the lead of a cause. -/
def numberLead (n : Nat) : String :=
  let digits := toString n
  String.ofList (List.replicate (5 - digits.length) ' ') ++ digits ++ ": "

/-- The causes of a failure. -/
def causeLines : List String → List String
  | [] => []
  | [cause] => [indented "    " "    " cause]
  | causes => causes.zipIdx.map fun (cause, n) => indented (numberLead n) "       " cause

/-- The report of a failure with its causes. -/
def report (failure : String) (causes : List String) : String :=
  let behind :=
    if causes = [] then "" else "\n\nCaused by:\n" ++ Text.join "\n" (causeLines causes)
  "Error: " ++ failure ++ behind ++ "\n"

end Cli
end TypeAtlas
