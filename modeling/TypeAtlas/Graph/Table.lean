import TypeAtlas.Graph.Row

/-!
# Graph tables

The text of a graph: a header line and a line for each row. Reading a text back passes over what
is no row: blank lines, headers, lines without exactly six columns, unknown kinds and labels.
-/
namespace TypeAtlas

/-- The header of every table. -/
def tableHeader : String :=
  "Type,Identifier,Source,Target,Label,TypeKind"

/-- The text of a list of rows. -/
def renderRows (rows : List Row) : String :=
  String.join ((tableHeader :: rows.map Row.line).map fun l => l ++ "\n")

/-- The text of a graph. -/
def Graph.render (g : Graph) : String :=
  renderRows g.rows

/-- The nodes and edges read from a text. -/
structure Table where
  nodes : List GraphNode
  edges : List GraphEdge
  deriving DecidableEq, Repr

namespace Table

/-- The row that six columns stand for. -/
def rowOf? : List String → Option Row
  | [type, identifier, source, target, label, kind] =>
    if type = "node" then (TypeKind.ofLabel? kind).map fun k => .node ⟨identifier, label, k⟩
    else if type = "edge" then
      (EdgeLabel.ofLabel? label).map fun l => .edge ⟨source, target, l⟩
    else none
  | _ => none

/-- The row that a line stands for. -/
def rowOfLine? (line : List Char) : Option Row :=
  if line = [] ∨ line = tableHeader.toList then none
  else rowOf? ((Text.splitAtChar ',' line).map String.ofList)

/-- The rows of a text. -/
def parseRows (s : String) : List Row :=
  (Text.lines s.toList).filterMap rowOfLine?

/-- The table of a list of rows. -/
def ofRows (rows : List Row) : Table :=
  ⟨rows.filterMap Row.node?, rows.filterMap Row.edge?⟩

/-- The table of a text. -/
def parse (s : String) : Table :=
  ofRows (parseRows s)

/-- The rows of a table, nodes first. -/
def rows (t : Table) : List Row :=
  t.nodes.map .node ++ t.edges.map .edge

/-- The first node with an identifier. -/
def node? (t : Table) (identifier : String) : Option GraphNode :=
  t.nodes.find? fun n => decide (n.identifier = identifier)

/-! ### Listings -/

/-- The most characters that a text can be filled up to. -/
def widthLimit : Nat :=
  65535

/-- The width of a column. -/
structure Width where
  size : Nat
  size_le : size ≤ widthLimit := by decide

/-- The width of so many characters, unless no text can be filled up to it. -/
def Width.ofNat? (n : Nat) : Option Width :=
  if h : n ≤ widthLimit then some ⟨n, h⟩ else none

/-- A text filled up with blanks. The width counts characters. -/
def pad (width : Width) (s : String) : String :=
  s ++ String.ofList (List.replicate (width.size - s.length) ' ')

/-- The most bytes of an entry, but no less than the first argument. -/
def mostBytes (least : Nat) (entries : List String) : Nat :=
  entries.foldl (fun w s => max w s.utf8ByteSize) least

/-- The width of a column: that of the widest entry, counted in bytes. -/
def columnWidth? (least : Nat) (entries : List String) : Option Width :=
  Width.ofNat? (mostBytes least entries)

/-- What stands in the three columns of a line. -/
structure Cells where
  first : String
  second : String
  third : String

/-- The width of the second column. -/
def secondWidth : Width :=
  { size := 10 }

/-- A line of a listing. The first column has a width of its own, the third one has none. -/
def Cells.line (width : Width) (c : Cells) : String :=
  "  " ++ pad width c.first ++ "  " ++ pad secondWidth c.second ++ "  " ++ c.third

/-- The lines of a listing: a title with the number of entries, a header and a line for each
entry. -/
def blockLines (title : String) (header : Cells) (entries : List Cells) (width : Width) :
    List String :=
  (title ++ " (" ++ toString entries.length ++ "):") :: header.line width ::
    entries.map (Cells.line width)

/-- Entries in aligned columns, unless one of them is too wide. -/
def block? (title : String) (header : Cells) (least : Nat) (entries : List Cells) :
    Option String :=
  (columnWidth? least (entries.map Cells.first)).map fun width =>
    String.join ((blockLines title header entries width).map fun l => l ++ "\n")

/-- The cells of a node. -/
def nodeCells (n : GraphNode) : Cells :=
  ⟨n.identifier, n.kind.label, n.name⟩

/-- The cells of an edge. -/
def edgeCells (e : GraphEdge) : Cells :=
  ⟨e.source, e.label.label, e.target⟩

/-- The nodes of a table in aligned columns. -/
def nodeListing? (t : Table) : Option String :=
  block? "Nodes" ⟨"IDENTIFIER", "KIND", "NAME"⟩ 10 (t.nodes.map nodeCells)

/-- The edges of a table in aligned columns. -/
def edgeListing? (t : Table) : Option String :=
  block? "Edges" ⟨"SOURCE", "LABEL", "TARGET"⟩ 6 (t.edges.map edgeCells)

/-- A table as two listings. There are none if an identifier or a source is too wide. -/
def listing? (t : Table) : Option String :=
  t.nodeListing?.bind fun nodes => t.edgeListing?.map fun edges => nodes ++ "\n" ++ edges

end Table
end TypeAtlas
