import TypeAtlas.Text.Search

/-!
# Paths

A path is a text in which slashes separate names. Nothing is normalised: joining, cutting off and
comparing look at the text as it is written. The *components* of a path are what is left when empty
pieces and single dots are passed over; a single dot at the very front of a relative path is a
component.
-/
namespace TypeAtlas

/-- A component of a path. -/
inductive Component where
  | root
  | here
  | up
  | name (text : List Char)
  deriving DecidableEq, Repr

namespace Path

/-- The path begins at the root of the file system. -/
def isAbsolute (p : String) : Bool :=
  p.toList.head? == some '/'

/-- Continues a path with another one. An absolute continuation replaces everything; otherwise a
slash is put in between unless there is one already or nothing stands before it. -/
def joinChars (base rest : List Char) : List Char :=
  if rest.head? = some '/' then rest
  else if base = [] ∨ base.getLast? = some '/' then base ++ rest
  else base ++ '/' :: rest

/-- `joinChars` on texts. -/
def join (base rest : String) : String :=
  String.ofList (joinChars base.toList rest.toList)

/-- Continues a path with one piece after another. -/
def joinAll (base : String) (rest : List String) : String :=
  rest.foldl join base

/-- A piece of a path that is passed over. -/
def isIdle (piece : List Char) : Bool :=
  piece == [] || piece == ['.']

/-- What a piece of a path that is not passed over stands for. -/
def componentOf (piece : List Char) : Component :=
  if piece == ['.', '.'] then .up else if piece == ['.'] then .here else .name piece

/-- The components of the pieces of a path behind its first piece. -/
def restComponents (pieces : List (List Char)) : List Component :=
  (pieces.filter fun s => !isIdle s).map componentOf

/-- The components of a path. -/
def components (p : String) : List Component :=
  match Text.splitAtChar '/' p.toList with
  | [] => []
  | first :: rest =>
    let front :=
      if first == [] then (if rest == [] then [] else [.root]) else [componentOf first]
    front ++ restComponents rest

/-- The name of what the path leads to; none for the root, for a dot and for two dots. -/
def fileName? (p : String) : Option String :=
  match (components p).getLast? with
  | some (.name s) => some (String.ofList s)
  | _ => none

/-- What follows the last dot of a name. A dot in front does not count. -/
def nameExtension? (name : List Char) : Option (List Char) :=
  let ext := Text.afterLast (· == '.') name
  let stemLength := name.length - ext.length - 1
  if ext.length == name.length || stemLength == 0 then none else some ext

/-- The extension of the name that a path leads to. -/
def extension? (p : String) : Option String :=
  match fileName? p with
  | some name => (nameExtension? name.toList).map String.ofList
  | none => none

/-- The pieces of a path put together again. -/
def ofPieces (pieces : List (List Char)) : String :=
  String.ofList (List.intercalate ['/'] pieces)

/-- The pieces of a path, the last one first, without those at the end that are passed over. The
first piece stays. -/
def trimPieces : List (List Char) → List (List Char)
  | [] => []
  | [first] => [first]
  | piece :: rest => if isIdle piece then trimPieces rest else piece :: rest

/-- The path without its last component. A path of no component and the root have no parent. -/
def parent? (p : String) : Option String :=
  match trimPieces (Text.splitAtChar '/' p.toList).reverse with
  | [] => none
  | [first] => if first == [] then none else some ""
  | _ :: rest =>
    match trimPieces rest with
    | [[]] => some "/"
    | left => some (ofPieces left.reverse)

/-- The pieces of a path behind its first components, which must be the given ones. -/
def dropComponents : List Component → List (List Char) → Option (List (List Char))
  | wanted, [] => if wanted = [] then some [] else none
  | wanted, piece :: rest =>
    if isIdle piece then dropComponents wanted rest
    else
      match wanted with
      | [] => some (piece :: rest)
      | w :: ws => if componentOf piece = w then dropComponents ws rest else none

/-- The rest of a path below another one, whose components must be the first ones of the path. -/
def relativeTo? (p base : String) : Option String :=
  let finish := fun pieces => ofPieces (trimPieces (pieces : List (List Char)).reverse).reverse
  let pieces := Text.splitAtChar '/' p.toList
  match components base, pieces with
  | .root :: wanted, [] :: rest =>
    if rest = [] then none else (dropComponents wanted rest).map finish
  | .root :: _, _ => none
  | .here :: wanted, ['.'] :: rest => (dropComponents wanted rest).map finish
  | .here :: _, _ => none
  | wanted, first :: rest =>
    if (first = [] ∧ rest ≠ []) ∨ first = ['.'] then (if wanted = [] then some p else none)
    else (dropComponents wanted pieces).map finish
  | wanted, [] => if wanted = [] then some "" else none

/-- The order of characters in names: by code point, a shorter name before its continuations. -/
def compareChars : List Char → List Char → Ordering
  | [], [] => .eq
  | [], _ :: _ => .lt
  | _ :: _, [] => .gt
  | c :: cs, d :: ds =>
    if c.toNat < d.toNat then .lt
    else if d.toNat < c.toNat then .gt
    else compareChars cs ds

/-- The place of a component before names are compared. -/
def rank : Component → Nat
  | .root => 0
  | .here => 1
  | .up => 2
  | .name _ => 3

/-- The order of components. -/
def compareComponent : Component → Component → Ordering
  | .name s, .name t => compareChars s t
  | a, b => compare (rank a) (rank b)

/-- The order of component lists. -/
def compareComponents : List Component → List Component → Ordering
  | [], [] => .eq
  | [], _ :: _ => .lt
  | _ :: _, [] => .gt
  | a :: as, b :: bs =>
    match compareComponent a b with
    | .eq => compareComponents as bs
    | o => o

/-- Paths are ordered component by component, not as texts. -/
def le (p q : String) : Bool :=
  (compareComponents (components p) (components q)).isLE

end Path
end TypeAtlas
