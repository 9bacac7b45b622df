import TypeAtlas.Proofs.Graph.RoundTrip
import Mathlib.Order.Bounds.Basic

/-! # Listings are aligned

A listing shows the nodes and the edges of a table in three columns.  The first column is as
wide as the entry with the most bytes, while entries are filled up by the count of their
characters.  No text has more characters than bytes (`Text.length_le_utf8ByteSize`), so every
entry fits, and the columns of a block begin in the same places on all its lines
(`Table.Cells.standIn_line`).  The second column has a fixed width, which the names of all kinds
and labels fit.

A value that was read from a text has no line feed, so the lines of a listing are those that
were put in: no entry is cut in two and none is lost.  But no text can be filled up to more than
65535 characters, and if an identifier or a source has more bytes than that, then there is no
listing (`Table.listing_aligned`).
-/
namespace TypeAtlas

namespace Text

/-- A character takes at least one byte. -/
theorem length_le_utf8ByteSize (s : String) : s.length ≤ s.utf8ByteSize := by
  rw [← String.ofList_toList (s := s)]
  induction s.toList with
  | nil => exact Nat.le_refl 0
  | cons c cs ih =>
    have hc := c.utf8Size_pos
    rw [String.ofList_cons, String.utf8ByteSize_append, String.utf8ByteSize_singleton,
      String.length_append, String.length_singleton]
    omega

/-- Lines that each end in a line feed are cut apart again. -/
theorem split_join_terminated {ls : List String} (h : ∀ l ∈ ls, '\n' ∉ l.toList) :
    split '\n' (String.join (ls.map fun l => l ++ "\n")) = ls ++ [""] := by
  have hls : ∀ l ∈ ls.map String.toList, '\n' ∉ l := by
    intro l hl
    obtain ⟨s, hs, rfl⟩ := List.mem_map.mp hl
    exact h s hs
  rw [split, toList_join_terminated, splitAtChar_flatMap_terminated hls]
  simp

end Text

namespace Table

/-! ### Columns of a line -/

/-- A line has an entry in a column: the entry, filled up with blanks to the width of the column,
and two more blanks. -/
structure HasColumn (line : List Char) (start width : Nat) (entry : String) : Prop where
  fits : entry.length ≤ width
  text : (line.drop start).take (width + 2) =
    entry.toList ++ List.replicate (width + 2 - entry.length) ' '

/-- A filled entry and two blanks are a column, and the rest of the line begins behind it. -/
theorem hasColumn_of_drop {line rest : List Char} {start : Nat} (width : Width) {entry : String}
    (hfits : entry.length ≤ width.size)
    (h : line.drop start = (pad width entry).toList ++ ([' ', ' '] ++ rest)) :
    HasColumn line start width.size entry ∧ line.drop (start + (width.size + 2)) = rest := by
  have hblanks : (pad width entry).toList ++ [' ', ' '] =
      entry.toList ++ List.replicate (width.size + 2 - entry.length) ' ' := by
    have hcount : width.size + 2 - entry.length = (width.size - entry.length) + 2 := by omega
    rw [pad, String.toList_append, String.toList_ofList, List.append_assoc, hcount,
      List.replicate_add]
    rfl
  have hlength : ((pad width entry).toList ++ [' ', ' ']).length = width.size + 2 := by
    rw [hblanks, List.length_append, List.length_replicate, String.length_toList]
    omega
  rw [← List.append_assoc] at h
  constructor
  · exact ⟨hfits, by rw [h, List.take_left' hlength, hblanks]⟩
  · rw [← List.drop_drop, h, List.drop_left' hlength]

namespace Cells

/-- A line shows the cells: two blanks, the first column with a width of its own, the second one
with a width of ten, and the third one up to the end of the line. -/
structure StandIn (c : Cells) (width : Nat) (line : String) : Prop where
  margin : line.toList.take 2 = [' ', ' ']
  first : HasColumn line.toList 2 width c.first
  second : HasColumn line.toList (width + 4) 10 c.second
  third : line.toList.drop (width + 16) = c.third.toList

theorem toList_line (width : Width) (c : Cells) :
    (c.line width).toList = [' ', ' '] ++ ((pad width c.first).toList ++ ([' ', ' '] ++
      ((pad secondWidth c.second).toList ++ ([' ', ' '] ++ c.third.toList)))) := by
  simp [line, String.toList_append]

/-- **The line of cells that fit shows them.** -/
theorem standIn_line {width : Width} {c : Cells} (hfirst : c.first.length ≤ width.size)
    (hsecond : c.second.length ≤ 10) : c.StandIn width.size (c.line width) := by
  have hline := c.toList_line width
  have hmargin : (c.line width).toList.take 2 = [' ', ' '] := by
    rw [hline]
    rfl
  have hdrop := congrArg (List.drop 2) hline
  obtain ⟨hcolumn, hrest⟩ := hasColumn_of_drop width hfirst hdrop
  rw [show 2 + (width.size + 2) = width.size + 4 by omega] at hrest
  obtain ⟨hcolumn', hrest'⟩ := hasColumn_of_drop secondWidth hsecond hrest
  exact ⟨hmargin, hcolumn, hcolumn', hrest'⟩

/-- The line has no line feed that the cells have not. -/
theorem feed_not_mem_line {c : Cells} (hfirst : '\n' ∉ c.first.toList)
    (hsecond : '\n' ∉ c.second.toList) (hthird : '\n' ∉ c.third.toList) (width : Width) :
    '\n' ∉ (c.line width).toList := by
  rw [toList_line]
  simp [pad, hfirst, hsecond, hthird]

end Cells

/-! ### Widths -/

theorem mostBytes_concat (least : Nat) (entries : List String) (s : String) :
    mostBytes least (entries ++ [s]) = max (mostBytes least entries) s.utf8ByteSize := by
  rw [mostBytes, List.foldl_append]
  rfl

/-- **What is taken for the width of a column is its least width or the most bytes of an entry, if
that is more.** -/
theorem isGreatest_mostBytes (least : Nat) (entries : List String) :
    IsGreatest {b | b = least ∨ ∃ s ∈ entries, b = s.utf8ByteSize} (mostBytes least entries) := by
  induction entries using List.reverseRecOn with
  | nil => exact ⟨Or.inl rfl, by rintro b (rfl | ⟨s, hs, -⟩) <;> simp_all [mostBytes]⟩
  | append_singleton entries s ih =>
    obtain ⟨hmem, hle⟩ := ih
    rw [mostBytes_concat]
    constructor
    · rcases max_choice (mostBytes least entries) s.utf8ByteSize with hmax | hmax
      · rw [hmax]
        exact hmem.imp_right fun ⟨t, ht, hb⟩ => ⟨t, List.mem_append_left [s] ht, hb⟩
      · exact Or.inr ⟨s, List.mem_append_right entries (List.mem_singleton_self s), hmax⟩
    · rintro b (rfl | ⟨t, ht, rfl⟩)
      · exact (hle (Or.inl rfl)).trans (le_max_left _ _)
      · rcases List.mem_append.mp ht with ht | ht
        · exact (hle (Or.inr ⟨t, ht, rfl⟩)).trans (le_max_left _ _)
        · rw [List.mem_singleton.mp ht]
          exact le_max_right _ _

-- an entry of seven characters and twelve bytes
example : mostBytes 10 ["Größäöü"] = 12 := by decide

theorem size_of_columnWidth? {least : Nat} {entries : List String} {width : Width}
    (h : columnWidth? least entries = some width) : width.size = mostBytes least entries := by
  unfold columnWidth? Width.ofNat? at h
  split at h
  · cases h
    rfl
  · cases h

/-- A column has a width unless an entry of it has too many bytes. -/
theorem columnWidth?_eq_none_iff {least : Nat} {entries : List String} (h : least ≤ widthLimit) :
    columnWidth? least entries = none ↔ ∃ s ∈ entries, widthLimit < s.utf8ByteSize := by
  obtain ⟨hmem, hle⟩ := isGreatest_mostBytes least entries
  have hnone : columnWidth? least entries = none ↔ widthLimit < mostBytes least entries := by
    unfold columnWidth? Width.ofNat?
    split
    · rename_i hle
      exact iff_of_false nofun (Nat.not_lt.mpr hle)
    · rename_i hlt
      exact iff_of_true rfl (Nat.not_le.mp hlt)
  rw [hnone]
  constructor
  · intro hlt
    rcases hmem with hleast | ⟨s, hs, hbytes⟩
    · rw [hleast] at hlt
      exact absurd h (Nat.not_le.mpr hlt)
    · exact ⟨s, hs, hbytes ▸ hlt⟩
  · rintro ⟨s, hs, hlt⟩
    exact hlt.trans_le (hle (Or.inr ⟨s, hs, rfl⟩))

/-! ### Blocks of lines -/

/-- Lines that list some entries: a title with their number, a header, and for each entry a line in
which its cells stand in the columns of the header. -/
def IsBlock (title : String) (header : Cells) (least : Nat) (entries : List Cells)
    (lines : List String) : Prop :=
  ∃ (width : Nat) (head : String) (body : List String),
    lines = (title ++ " (" ++ toString entries.length ++ "):") :: head :: body ∧
      IsGreatest {b | b = least ∨ ∃ c ∈ entries, b = c.first.utf8ByteSize} width ∧
      header.StandIn width head ∧ List.Forall₂ (fun c line => c.StandIn width line) entries body

theorem isBlock_blockLines {title : String} {header : Cells} {least : Nat} {entries : List Cells}
    {width : Width} (hwidth : columnWidth? least (entries.map Cells.first) = some width)
    (hfirst : header.first.length ≤ least) (hheader : header.second.length ≤ 10)
    (hentries : ∀ c ∈ entries, c.second.length ≤ 10) :
    IsBlock title header least entries (blockLines title header entries width) := by
  have hgreatest := isGreatest_mostBytes least (entries.map Cells.first)
  rw [← size_of_columnWidth? hwidth] at hgreatest
  have hleast : least ≤ width.size := hgreatest.2 (Or.inl rfl)
  -- the width bounds the bytes of an entry, and these bound its characters
  have hfits : ∀ c ∈ entries, c.first.length ≤ width.size :=
    fun c hc => (Text.length_le_utf8ByteSize c.first).trans
      (hgreatest.2 (Or.inr ⟨c.first, List.mem_map_of_mem hc, rfl⟩))
  refine ⟨_, _, _, rfl, ?_, Cells.standIn_line (hfirst.trans hleast) hheader, ?_⟩
  · simpa only [List.mem_map, exists_exists_and_eq_and] using hgreatest
  · rw [List.forall₂_map_right_iff, List.forall₂_same]
    exact fun c hc => Cells.standIn_line (hfits c hc) (hentries c hc)

theorem feed_not_mem_toDigits (n : Nat) : '\n' ∉ Nat.toDigits 10 n := fun h =>
  absurd (Nat.isDigit_of_mem_toDigits (by decide) (by decide) h) (by decide)

theorem feed_not_mem_blockLines {title : String} {header : Cells} {entries : List Cells}
    (htitle : '\n' ∉ title.toList)
    (hcells : ∀ c ∈ header :: entries,
      '\n' ∉ c.first.toList ∧ '\n' ∉ c.second.toList ∧ '\n' ∉ c.third.toList) (width : Width) :
    ∀ l ∈ blockLines title header entries width, '\n' ∉ l.toList := by
  have hline : ∀ c ∈ header :: entries, '\n' ∉ (c.line width).toList := fun c hc =>
    Cells.feed_not_mem_line (hcells c hc).1 (hcells c hc).2.1 (hcells c hc).2.2 width
  intro l hl
  rcases List.mem_cons.mp hl with rfl | hl
  · simp [htitle, feed_not_mem_toDigits]
  · rw [← List.map_cons] at hl
    obtain ⟨c, hc, rfl⟩ := List.mem_map.mp hl
    exact hline c hc

/-! ### The two blocks of a listing -/

/-- The names of all kinds fit the second column. -/
theorem length_second_nodeCells (n : GraphNode) : (nodeCells n).second.length ≤ 10 := by
  change n.kind.label.length ≤ 10
  cases n.kind <;> decide

/-- The names of all labels fit the second column. -/
theorem length_second_edgeCells (e : GraphEdge) : (edgeCells e).second.length ≤ 10 := by
  change e.label.label.length ≤ 10
  cases e.label <;> decide

theorem feed_not_mem_nodeCells {n : GraphNode} (h : (Row.node n).Readable) :
    '\n' ∉ (nodeCells n).first.toList ∧ '\n' ∉ (nodeCells n).second.toList ∧
      '\n' ∉ (nodeCells n).third.toList := by
  have hkind : '\n' ∉ n.kind.label.toList := by cases n.kind <;> decide
  exact ⟨(h n.identifier (by simp [Row.values])).2, hkind, (h n.name (by simp [Row.values])).2⟩

theorem feed_not_mem_edgeCells {e : GraphEdge} (h : (Row.edge e).Readable) :
    '\n' ∉ (edgeCells e).first.toList ∧ '\n' ∉ (edgeCells e).second.toList ∧
      '\n' ∉ (edgeCells e).third.toList := by
  have hlabel : '\n' ∉ e.label.label.toList := by cases e.label <;> decide
  exact ⟨(h e.source (by simp [Row.values])).2, hlabel, (h e.target (by simp [Row.values])).2⟩

/-- An identifier or a source is too wide for a listing. -/
def TooWide (t : Table) : Prop :=
  (∃ n ∈ t.nodes, widthLimit < n.identifier.utf8ByteSize) ∨
    ∃ e ∈ t.edges, widthLimit < e.source.utf8ByteSize

instance (t : Table) : Decidable t.TooWide :=
  inferInstanceAs (Decidable (_ ∨ _))

/-- There is no listing exactly if something is too wide. -/
theorem listing?_eq_none_iff (t : Table) : t.listing? = none ↔ t.TooWide := by
  have hnodes : t.nodeListing? = none ↔ ∃ n ∈ t.nodes, widthLimit < n.identifier.utf8ByteSize := by
    rw [nodeListing?, block?, Option.map_eq_none_iff, columnWidth?_eq_none_iff (by decide)]
    simp [nodeCells]
  have hedges : t.edgeListing? = none ↔ ∃ e ∈ t.edges, widthLimit < e.source.utf8ByteSize := by
    rw [edgeListing?, block?, Option.map_eq_none_iff, columnWidth?_eq_none_iff (by decide)]
    simp [edgeCells]
  rw [TooWide, ← hnodes, ← hedges, listing?]
  cases t.nodeListing? <;> simp

/-- The lines of a listing: a block of the nodes, an empty line and a block of the edges, each with
one line for an entry, in the order of the table. -/
def IsListing (t : Table) (lines : List String) : Prop :=
  ∃ nodeBlock edgeBlock : List String, lines = nodeBlock ++ "" :: edgeBlock ∧
    IsBlock "Nodes" ⟨"IDENTIFIER", "KIND", "NAME"⟩ 10 (t.nodes.map nodeCells) nodeBlock ∧
    IsBlock "Edges" ⟨"SOURCE", "LABEL", "TARGET"⟩ 6 (t.edges.map edgeCells) edgeBlock

/-- A listing of readable rows is made of its lines, each with a line feed at its end. -/
theorem split_of_listing? {t : Table} (h : ∀ r ∈ t.rows, r.Readable) {text : String}
    (htext : t.listing? = some text) :
    ∃ lines, Text.split '\n' text = lines ++ [""] ∧ t.IsListing lines := by
  obtain ⟨nodes, hnodes, htext⟩ := Option.bind_eq_some_iff.mp htext
  obtain ⟨edges, hedges, rfl⟩ := Option.map_eq_some_iff.mp htext
  obtain ⟨width, hwidth, rfl⟩ := Option.map_eq_some_iff.mp hnodes
  obtain ⟨width', hwidth', rfl⟩ := Option.map_eq_some_iff.mp hedges
  have hnodeFeeds : ∀ l ∈ blockLines "Nodes" ⟨"IDENTIFIER", "KIND", "NAME"⟩
      (t.nodes.map nodeCells) width, '\n' ∉ l.toList := by
    refine feed_not_mem_blockLines (by decide) (List.forall_mem_cons.mpr ⟨by decide, ?_⟩) width
    intro c hc
    obtain ⟨n, hn, rfl⟩ := List.mem_map.mp hc
    exact feed_not_mem_nodeCells (h (.node n) (List.mem_append_left _ (List.mem_map_of_mem hn)))
  have hedgeFeeds : ∀ l ∈ blockLines "Edges" ⟨"SOURCE", "LABEL", "TARGET"⟩
      (t.edges.map edgeCells) width', '\n' ∉ l.toList := by
    refine feed_not_mem_blockLines (by decide) (List.forall_mem_cons.mpr ⟨by decide, ?_⟩) width'
    intro c hc
    obtain ⟨e, he, rfl⟩ := List.mem_map.mp hc
    exact feed_not_mem_edgeCells (h (.edge e) (List.mem_append_right _ (List.mem_map_of_mem he)))
  refine ⟨_, ?_, _, _, rfl, isBlock_blockLines hwidth (by decide) (by decide) ?_,
    isBlock_blockLines hwidth' (by decide) (by decide) ?_⟩
  · rw [← Text.split_join_terminated, List.map_append, List.map_cons, String.join_append,
      String.join_cons, String.append_assoc]
    · rfl
    · intro l hl
      rcases List.mem_append.mp hl with hl | hl
      · exact hnodeFeeds l hl
      · rcases List.mem_cons.mp hl with rfl | hl
        · decide
        · exact hedgeFeeds l hl
  · intro c hc
    obtain ⟨n, -, rfl⟩ := List.mem_map.mp hc
    exact length_second_nodeCells n
  · intro c hc
    obtain ⟨e, -, rfl⟩ := List.mem_map.mp hc
    exact length_second_edgeCells e

/-- **The listing of any text that is read is aligned, and nothing is lost, unless something in it
is too wide; then there is no listing.**  Its lines are a block of the nodes, an empty line and a
block of the edges, each with one line for an entry, in the order of the table. -/
theorem listing_aligned (s : String) :
    ((parse s).listing? = none ↔ (parse s).TooWide) ∧
      (¬ (parse s).TooWide → ∃ text lines, (parse s).listing? = some text ∧
        Text.split '\n' text = lines ++ [""] ∧ (parse s).IsListing lines) := by
  refine ⟨listing?_eq_none_iff _, fun hfits => ?_⟩
  have hrows : ∀ r ∈ (parse s).rows, r.Readable := fun r hr =>
    readable_of_mem_parseRows (mem_rows_ofRows.mp hr)
  have hsome : (parse s).listing? ≠ none := fun hnone => hfits ((listing?_eq_none_iff _).mp hnone)
  obtain ⟨text, htext⟩ := Option.ne_none_iff_exists'.mp hsome
  obtain ⟨lines, hsplit, hlines⟩ := split_of_listing? hrows htext
  exact ⟨text, lines, htext, hsplit, hlines⟩

/-- An identifier of seven characters and twelve bytes. -/
theorem listing_aligned_umlauts :
    let t := parse "node,Größäöü,,,A,Class\nedge,,b,Größäöü,inherit,"
    (t.nodes.length = 1 ∧ t.edges.length = 1) ∧ ¬ t.TooWide ∧
      ∃ text lines, t.listing? = some text ∧ Text.split '\n' text = lines ++ [""] ∧
        t.IsListing lines := by
  intro t
  have hfits : ¬ t.TooWide := by decide
  exact ⟨by decide, hfits, (listing_aligned _).2 hfits⟩

theorem utf8ByteSize_replicate (n : Nat) :
    (String.ofList (List.replicate n 'a')).utf8ByteSize = n := by
  induction n with
  | zero => rfl
  | succ n ih =>
    rw [List.replicate_succ, String.ofList_cons, String.utf8ByteSize_append, ih,
      String.utf8ByteSize_singleton, Nat.add_comm]
    rfl

theorem readable_replicate (k : Nat) :
    (Row.node ⟨String.ofList (List.replicate k 'a'), "A", .classType⟩).Readable := by
  simp [Row.Readable, Row.values]

theorem parse_renderRows_node {n : GraphNode} (h : (Row.node n).Readable) :
    parse (renderRows [.node n]) = ⟨[n], []⟩ := by
  rw [parse, parseRows_renderRows (by simpa using h)]
  rfl

/-- A node with an identifier of 65536 letters can be written and read, but not listed. -/
theorem no_listing_of_wide_identifier :
    let n : GraphNode := ⟨String.ofList (List.replicate 65536 'a'), "A", .classType⟩
    (parse (renderRows [.node n])).nodes = [n] ∧
      (parse (renderRows [.node n])).listing? = none := by
  intro n
  rw [parse_renderRows_node (readable_replicate 65536), listing?_eq_none_iff]
  refine ⟨rfl, Or.inl ⟨n, List.mem_singleton_self n, ?_⟩⟩
  change widthLimit < (String.ofList (List.replicate 65536 'a')).utf8ByteSize
  rw [utf8ByteSize_replicate]
  decide

end Table
end TypeAtlas
