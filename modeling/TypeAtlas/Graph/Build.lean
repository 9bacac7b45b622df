import TypeAtlas.Graph.Row
import TypeAtlas.Index.Basic

/-!
# Inferring the graph of a namespace

The graph of a namespace has a node for each of its types. Then every type of the namespace is
compared with every other one, and after that every type of another namespace whose imports mention
this namespace is compared with every type of it. Where `classify` finds a dependency, the graph
gets the edge, and before it the node of the type that the pair brings in.

A row that is in the graph already is not put in again, and an edge from a type to itself is left
out together with its node.
-/
namespace TypeAtlas

/-- Where the declaration texts of types come from; a type may have none. -/
abbrev Texts := TypeRecord → Option String

/-- The dependency of one type on another one, if there is one. A type in the base list is
inherited or implemented. Otherwise a type whose name occurs in the declaration text is referred
to. Where the name occurs in the dependent type's own name, it must also be used by a method. -/
def classify (dependent : TypeRecord) (text : Option String) (target : TypeRecord) :
    Option EdgeLabel :=
  if dependent.flags.isInherited && decide (target.name ∈ dependent.baseNames) then
    some (.forBase target.kind)
  else if !(text.map fun t => Text.contains t target.name).getD false then none
  else if !Text.contains dependent.name target.name || dependent.uses target.name then
    some .reference
  else none

/-- Some import of the type mentions the namespace. -/
def importsScope (r : TypeRecord) (scope : String) : Bool :=
  r.imports.any fun i => Text.contains i scope

namespace Graph

/-- Puts a row behind the others unless it is there already. -/
def push (rows : List Row) (r : Row) : List Row :=
  if r ∈ rows then rows else rows ++ [r]

/-- Puts a node and the edge of a dependency behind the others. -/
def pushDependency (rows : List Row) (node dependent target : TypeRecord) (label : EdgeLabel) :
    List Row :=
  let edge : GraphEdge := ⟨dependent.identifier, target.identifier, label⟩
  if edge.isLoop then rows
  else push (push rows (.node (.ofRecord node))) (.edge edge)

/-- The dependencies of one type of the namespace on the others. -/
def pushInner (texts : Texts) (group : List TypeRecord) (rows : List Row)
    (dependent : TypeRecord) : List Row :=
  let text := texts dependent
  (group.filter fun t => decide (t.name ≠ dependent.name)).foldl
    (fun acc target =>
      match classify dependent text target with
      | some label => pushDependency acc target dependent target label
      | none => acc)
    rows

/-- The dependencies of one type of another namespace on those of this one. -/
def pushOuter (texts : Texts) (scope : String) (group : List TypeRecord) (rows : List Row)
    (foreign : TypeRecord) : List Row :=
  if importsScope foreign scope then
    let text := texts foreign
    group.foldl
      (fun acc target =>
        match classify foreign text target with
        | some label => pushDependency acc foreign foreign target label
        | none => acc)
      rows
  else rows

/-- The types of all other namespaces, in the order of the namespaces. -/
def foreigners (ix : TypeIndex) (scope : String) : List TypeRecord :=
  (ix.groups.filter fun g => decide (g.1 ≠ scope)).flatMap Prod.snd

/-- The graph of one namespace. -/
def build (ix : TypeIndex) (texts : Texts) (scope : String) : Graph :=
  let group := ix.group scope
  let nodes := group.foldl (fun acc r => push acc (.node (.ofRecord r))) []
  let inner := group.foldl (pushInner texts group) nodes
  ⟨scope, (foreigners ix scope).foldl (pushOuter texts scope group) inner⟩

/-- The graphs of all namespaces in the order of the namespaces. -/
def buildAll (ix : TypeIndex) (texts : Texts) : List Graph :=
  ix.scopes.map (build ix texts)

end Graph

/-- Declaration texts by identifier; of two texts the later one counts. -/
def Texts.ofList (texts : List (String × String)) : Texts :=
  fun r => ((texts.reverse.find? fun t => decide (t.1 = r.identifier)).map Prod.snd)

end TypeAtlas
