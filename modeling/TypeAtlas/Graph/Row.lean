import TypeAtlas.Record.Basic

/-!
# Rows of a graph

A graph of types is a list of rows. A row is a node, which stands for a type, or an edge from a
type to one that it depends on. Rows are written as lines of six columns; values are never quoted.
-/
namespace TypeAtlas

/-- How one type depends on another one. -/
inductive EdgeLabel where
  /-- The other type is a base, and no interface. -/
  | inherit
  /-- The other type is a base and an interface. -/
  | implement
  /-- The declaration mentions the other type. -/
  | reference
  deriving DecidableEq, Repr

namespace EdgeLabel

/-- The name of a label. -/
def label : EdgeLabel → String
  | inherit => "inherit"
  | implement => "implement"
  | reference => "reference"

/-- The label with a name. -/
def ofLabel? (s : String) : Option EdgeLabel :=
  if s = "inherit" then some inherit
  else if s = "implement" then some implement
  else if s = "reference" then some reference
  else none

theorem ofLabel?_label (l : EdgeLabel) : ofLabel? l.label = some l := by
  cases l <;> rfl

/-- The label of an edge to a base of some kind. -/
def forBase (kind : TypeKind) : EdgeLabel :=
  if kind = .interfaceType then implement else inherit

end EdgeLabel

/-- A type as a node. -/
structure GraphNode where
  identifier : String
  name : String
  kind : TypeKind
  deriving DecidableEq, Repr

/-- The node of a type. -/
def GraphNode.ofRecord (r : TypeRecord) : GraphNode :=
  ⟨r.identifier, r.name, r.kind⟩

/-- A dependency between two types. -/
structure GraphEdge where
  source : String
  target : String
  label : EdgeLabel
  deriving DecidableEq, Repr

/-- Both ends are the same node. -/
def GraphEdge.isLoop (e : GraphEdge) : Bool :=
  decide (e.source = e.target)

/-- A row of a graph. -/
inductive Row where
  | node (n : GraphNode)
  | edge (e : GraphEdge)
  deriving DecidableEq, Repr

namespace Row

/-- The node that a row is. -/
def node? : Row → Option GraphNode
  | node n => some n
  | edge _ => none

/-- The edge that a row is. -/
def edge? : Row → Option GraphEdge
  | node _ => none
  | edge e => some e

/-- The columns of a row. -/
def columns : Row → List String
  | node n => ["node", n.identifier, "", "", n.name, n.kind.label]
  | edge e => ["edge", "", e.source, e.target, e.label.label, ""]

/-- The line of a row. -/
def line (r : Row) : String :=
  Text.join "," r.columns

end Row

/-- The graph of a namespace. -/
structure Graph where
  scope : String
  rows : List Row
  deriving DecidableEq, Repr

namespace Graph

/-- The nodes of a graph. -/
def nodes (g : Graph) : List GraphNode :=
  g.rows.filterMap Row.node?

/-- The edges of a graph. -/
def edges (g : Graph) : List GraphEdge :=
  g.rows.filterMap Row.edge?

end Graph
end TypeAtlas
