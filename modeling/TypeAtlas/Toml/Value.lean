/-!
# TOML values

What a TOML document holds. Numbers and dates are told apart from other values and no more is kept
of them.

A table may be spread over a document, within limits that depend on how it came about: through a
header of its own, as a part of the name in the header of another table, through the dots of a key,
or as one value in braces. `Members.descend` walks along names and makes the tables that are
missing; it keeps these limits.
-/
namespace TypeAtlas
namespace Toml

/-- How a table came about. -/
inductive Origin where
  /-- It has a header of its own. -/
  | header
  /-- It stands above a table that has a header. -/
  | implied
  /-- It stands before a dot in a key. -/
  | dotted
  /-- It is written as one value. -/
  | inline
  deriving DecidableEq, Repr

/-- A value. -/
inductive Value where
  | text (s : String)
  | number
  | bool (b : Bool)
  | date
  | list (elements : List Value)
  | table (origin : Origin) (members : List (String × Value))
  /-- Tables of one name, each with a header of its own. -/
  | tables (elements : List (List (String × Value)))
  deriving Repr

/-- The members of a table. -/
abbrev Members := List (String × Value)

namespace Members

/-- The value of a member. -/
def get? (ms : Members) (name : String) : Option Value :=
  (ms.find? fun m => m.1 == name).map Prod.snd

/-- Sets the value of a member. -/
def set (ms : Members) (name : String) (v : Value) : Members :=
  if ms.any fun m => m.1 == name then ms.map fun m => if m.1 == name then (name, v) else m
  else ms ++ [(name, v)]

/-- Changes the table that names lead to from a table of some origin. Tables that are missing are
made. Of several tables of one name the last one is meant. A table that is one value is closed, and
dots do not lead into a table that has a header. -/
def descend (dots : Bool) (change : Origin → Members → Option Members) :
    List String → Origin → Members → Option Members
  | [], origin, ms => change origin ms
  | name :: rest, _, ms =>
    match ms.get? name with
    | none =>
      let origin := if dots then Origin.dotted else .implied
      (descend dots change rest origin []).map fun inner => ms.set name (.table origin inner)
    | some (.table origin inner) =>
      if origin = .inline ∨ (dots = true ∧ origin = .header) then none
      else (descend dots change rest origin inner).map fun new => ms.set name (.table origin new)
    | some (.tables elements) =>
      match elements.getLast? with
      | none => none
      | some last =>
        (descend dots change rest .header last).map fun new =>
          ms.set name (.tables (elements.dropLast ++ [new]))
    | some _ => none

/-- Adds a new member to a table. A key with dots ends in a table that dots have made, and one
without dots does not. -/
def addTo (dots : Bool) (name : String) (v : Value) (origin : Origin) (ms : Members) :
    Option Members :=
  if decide (origin = .dotted) != dots then none
  else if (ms.get? name).isSome then none
  else some (ms ++ [(name, v)])

/-- Adds the value of a key, whose last name is given apart, to a table. -/
def addKey (path : List String) (name : String) (v : Value) (origin : Origin) (ms : Members) :
    Option Members :=
  descend true (addTo (!path.isEmpty) name v) path origin ms

/-- Opens the table of a header in the table above it. -/
def openTable (name : String) (_ : Origin) (ms : Members) : Option Members :=
  match ms.get? name with
  | none => some (ms ++ [(name, .table .header [])])
  | some (.table .implied inner) => some (ms.set name (.table .header inner))
  | some _ => none

/-- Opens one more table of a name in the table above it. -/
def openElement (name : String) (_ : Origin) (ms : Members) : Option Members :=
  match ms.get? name with
  | none => some (ms ++ [(name, .tables [[]])])
  | some (.tables elements) => some (ms.set name (.tables (elements ++ [[]])))
  | some _ => none

end Members
end Toml
end TypeAtlas
