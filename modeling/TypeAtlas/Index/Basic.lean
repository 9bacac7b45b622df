import TypeAtlas.Path
import TypeAtlas.Record.Basic

/-!
# The index of types

All types of a run in the order of their first declaration. The place of a type in the index is its
number; types are told apart by namespace and name. A further declaration of a type that is in the
index is taken into it.

Beside the records the index keeps two tables of numbers: one leads from namespace and name to the
number of a type, the other one from a namespace to the numbers of its types. Namespaces are listed
in the order of their characters, the types of a namespace in the order of the index.
-/
namespace TypeAtlas

/-- The types of a run, one record for each namespace and name. -/
structure TypeIndex where
  /-- The records; the place of a record is its number. -/
  records : List TypeRecord
  /-- The number of the type with a namespace and a name. -/
  numbers : List ((String × String) × Nat)
  /-- The namespaces in rising order with the numbers of their types. -/
  members : List (String × List Nat)
  deriving DecidableEq, Repr

/-- What became of a declaration. -/
inductive Registration where
  /-- The first declaration of its type, which got this number. -/
  | added (id : Nat)
  /-- A further declaration of the type with this number. -/
  | merged (id : Nat)
  deriving DecidableEq, Repr

namespace TypeIndex

/-- The index without types. -/
def empty : TypeIndex :=
  ⟨[], [], []⟩

/-- The number of the type with a namespace and a name. -/
def find? (ix : TypeIndex) (key : String × String) : Option Nat :=
  ix.numbers.lookup key

/-- Puts a number behind those of a namespace, in a table whose namespaces are in rising order. -/
def enroll (scope : String) (id : Nat) : List (String × List Nat) → List (String × List Nat)
  | [] => [(scope, [id])]
  | (s, ids) :: rest =>
    match Path.compareChars scope.toList s.toList with
    | .lt => (scope, [id]) :: (s, ids) :: rest
    | .eq => (s, ids ++ [id]) :: rest
    | .gt => (s, ids) :: enroll scope id rest

/-- Registers a declaration. -/
def insert (ix : TypeIndex) (r : TypeRecord) : TypeIndex × Registration :=
  match ix.find? r.key with
  | some id => ({ ix with records := ix.records.modify id fun first => first.absorb r }, .merged id)
  | none =>
    let id := ix.records.length
    (⟨ix.records ++ [r], (r.key, id) :: ix.numbers, enroll r.scope id ix.members⟩, .added id)

/-- Registers declarations one after another. -/
def insertAll (ix : TypeIndex) (rs : List TypeRecord) : TypeIndex :=
  rs.foldl (fun acc r => (acc.insert r).1) ix

/-- The index of a list of declarations. -/
def ofList (rs : List TypeRecord) : TypeIndex :=
  empty.insertAll rs

/-- The records with the given numbers. -/
def select (ix : TypeIndex) (ids : List Nat) : List TypeRecord :=
  ids.filterMap fun id => ix.records[id]?

/-- The types of one namespace. -/
def group (ix : TypeIndex) (scope : String) : List TypeRecord :=
  ix.select ((ix.members.lookup scope).getD [])

/-- The namespaces of all types in rising order, each once. -/
def scopes (ix : TypeIndex) : List String :=
  ix.members.map Prod.fst

/-- The namespaces with their types. -/
def groups (ix : TypeIndex) : List (String × List TypeRecord) :=
  ix.members.map fun (s, ids) => (s, ix.select ids)

/-- The number of types. -/
def size (ix : TypeIndex) : Nat :=
  ix.records.length

end TypeIndex
end TypeAtlas
