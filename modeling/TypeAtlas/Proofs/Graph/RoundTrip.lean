import TypeAtlas.Proofs.Graph.Emission
import TypeAtlas.Proofs.Text.Columns
import TypeAtlas.Proofs.Text.Occurrence

/-! # Reading a table back

A table is written without quoting, so a value with a comma or a line feed in it ends
up in other columns or on other lines.  Nothing else is lost: a row whose values have
neither is read back as it was (`Row.Readable`), even where a value is empty, ends in
carriage returns or looks like a header.

The converse needs no search for what a spoilt line turns into.  Whatever the text is,
the values that come out of reading are pieces between commas on one line
(`readable_of_mem_parseRows`), so a list with any other value is never read back, and a
table that was read once is read again as it is.
-/
namespace TypeAtlas
namespace Text

/-! ### Lines of a text -/

/-- Lines that each end in a line feed are cut apart again, with nothing behind the last one. -/
theorem splitAtChar_flatMap_terminated {sep : Char} {ls : List (List Char)}
    (h : ∀ l ∈ ls, sep ∉ l) : splitAtChar sep (ls.flatMap fun l => l ++ [sep]) = ls ++ [[]] := by
  induction ls with
  | nil => rfl
  | cons l ls ih =>
    rw [List.flatMap_cons, List.append_assoc, List.singleton_append,
      splitAtChar_append_cons (h l List.mem_cons_self),
      ih fun m hm => h m (List.mem_cons_of_mem l hm), List.cons_append]

theorem dropEndWhile_concat_of_not {p : Char → Bool} {c : Char} (hc : p c = false)
    (cs : List Char) : dropEndWhile p (cs ++ [c]) = cs ++ [c] := by
  simp [dropEndWhile, hc]

theorem mem_of_mem_dropEndWhile {p : Char → Bool} {cs : List Char} {c : Char}
    (h : c ∈ dropEndWhile p cs) : c ∈ cs := by
  rw [dropEndWhile, List.mem_reverse] at h
  exact List.mem_reverse.mp (List.dropWhile_subset p h)

theorem lines_flatMap_terminated {ls : List (List Char)} (h : ∀ l ∈ ls, '\n' ∉ l) :
    lines (ls.flatMap fun l => l ++ ['\n']) = ls.map (dropEndWhile (· == '\r')) := by
  unfold lines
  simp [splitAtChar_flatMap_terminated h]

theorem not_mem_of_mem_lines {cs line : List Char} (h : line ∈ lines cs) : '\n' ∉ line := by
  obtain ⟨piece, hpiece, rfl⟩ := List.mem_map.mp h
  have hmem : piece ∈ splitAtChar '\n' cs := by
    split_ifs at hpiece
    · exact List.dropLast_subset _ hpiece
    · exact hpiece
  exact fun hc => not_mem_of_mem_splitAtChar hmem (mem_of_mem_dropEndWhile hc)

theorem toList_join_terminated (ls : List String) :
    (String.join (ls.map fun l => l ++ "\n")).toList =
      (ls.map String.toList).flatMap fun l => l ++ ['\n'] := by
  rw [String.toList_join, List.flatMap_map, List.flatMap_map]
  exact List.flatMap_congr fun l _ => String.toList_append

end Text

namespace Row

/-! ### Rows that can be read back -/

/-- The values of a row that are not chosen from a fixed list. -/
def values : Row → List String
  | node n => [n.identifier, n.name]
  | edge e => [e.source, e.target]

/-- No value of the row has a comma or a line feed. -/
def Readable (r : Row) : Prop :=
  ∀ v ∈ r.values, ',' ∉ v.toList ∧ '\n' ∉ v.toList

/-- The columns of a row are its values, fixed words and empty ones. -/
theorem mem_columns {r : Row} {c : String} (h : c ∈ r.columns) :
    c ∈ r.values ∨ ',' ∉ c.toList ∧ '\n' ∉ c.toList := by
  cases r with
  | node n =>
    have hkind : ',' ∉ n.kind.label.toList ∧ '\n' ∉ n.kind.label.toList := by
      cases n.kind <;> decide
    simp only [columns, List.mem_cons, List.not_mem_nil, or_false] at h
    rcases h with rfl | rfl | rfl | rfl | rfl | rfl <;> simp [values, hkind]
  | edge e =>
    have hlabel : ',' ∉ e.label.label.toList ∧ '\n' ∉ e.label.label.toList := by
      cases e.label <;> decide
    simp only [columns, List.mem_cons, List.not_mem_nil, or_false] at h
    rcases h with rfl | rfl | rfl | rfl | rfl | rfl <;> simp [values, hlabel]

theorem Readable.of_mem_columns {r : Row} (h : r.Readable) {c : String} (hc : c ∈ r.columns) :
    ',' ∉ c.toList ∧ '\n' ∉ c.toList :=
  (mem_columns hc).elim (h c) id

theorem Readable.plain {r : Row} (h : r.Readable) : r.Plain :=
  fun _ hc => (h.of_mem_columns hc).1

theorem Readable.not_mem_line {r : Row} (h : r.Readable) : '\n' ∉ r.line.toList := by
  intro hmem
  rcases Text.mem_join hmem with hsep | ⟨c, hc, hmem⟩
  · exact absurd hsep (by decide)
  · exact (h.of_mem_columns hc).2 hmem

/-- No line of a row ends in a carriage return: it ends in the name of a kind or in a comma. -/
theorem dropEndWhile_line (r : Row) :
    Text.dropEndWhile (· == '\r') r.line.toList = r.line.toList := by
  have hlast : ∃ cs c, r.line.toList = cs ++ [c] ∧ (c == '\r') = false := by
    cases r with
    | node n =>
      obtain ⟨identifier, name, kind⟩ := n
      refine ⟨("node," ++ identifier ++ ",,," ++ name ++ ",").toList ++
        kind.label.toList.dropLast, (kind.label.toList.getLast?).getD ',', ?_, ?_⟩
      · cases kind <;> simp [line, columns, Text.join, TypeKind.label]
      · cases kind <;> decide
    | edge e =>
      refine
        ⟨("edge,," ++ e.source ++ "," ++ e.target ++ "," ++ e.label.label).toList, ',', ?_, rfl⟩
      simp [line, columns, Text.join]
  obtain ⟨cs, c, hline, hc⟩ := hlast
  rw [hline]
  exact Text.dropEndWhile_concat_of_not (p := (· == '\r')) hc cs

end Row

namespace Table

/-! ### One line -/

/-- The line of a readable row is read as that row. -/
theorem rowOfLine?_line {r : Row} (h : r.Readable) : rowOfLine? r.line.toList = some r := by
  have hcols : rowOf? ((Text.splitAtChar ',' r.line.toList).map String.ofList) = some r := by
    rw [Row.split_line h.plain, rowOf?_columns]
  unfold rowOfLine?
  rw [if_neg, hcols]
  -- the columns of an empty line and of the header are no row
  rintro (hempty | hheader)
  · have hnone : rowOf? ((Text.splitAtChar ',' []).map String.ofList) = none := by decide
    rw [hempty, hnone] at hcols
    cases hcols
  · have hnone : rowOf? ((Text.splitAtChar ',' tableHeader.toList).map String.ofList) = none := by
      decide
    rw [hheader, hnone] at hcols
    cases hcols

/-- The values of a row that is read are columns. -/
theorem values_subset_of_rowOf? {cols : List String} {r : Row} (h : rowOf? cols = some r) :
    ∀ v ∈ r.values, v ∈ cols := by
  unfold rowOf? at h
  split at h
  · split_ifs at h
    · obtain ⟨k, -, rfl⟩ := Option.map_eq_some_iff.mp h
      simp [Row.values]
    · obtain ⟨l, -, rfl⟩ := Option.map_eq_some_iff.mp h
      simp [Row.values]
  · cases h

/-- A row that is read from one line is readable. -/
theorem readable_of_rowOfLine? {line : List Char} {r : Row} (hline : '\n' ∉ line)
    (h : rowOfLine? line = some r) : r.Readable := by
  unfold rowOfLine? at h
  split_ifs at h
  intro v hv
  obtain ⟨piece, hpiece, rfl⟩ := List.mem_map.mp (values_subset_of_rowOf? h v hv)
  rw [String.toList_ofList]
  exact ⟨Text.not_mem_of_mem_splitAtChar hpiece,
    fun hc => hline (Text.mem_of_mem_splitAtChar hpiece hc).2⟩

/-! ### Whole texts -/

/-- Rows that are readable are read back one by one. -/
theorem parseRows_renderRows {rows : List Row} (h : ∀ r ∈ rows, r.Readable) :
    parseRows (renderRows rows) = rows := by
  have hlines : ∀ l ∈ (tableHeader :: rows.map Row.line).map String.toList, '\n' ∉ l := by
    intro l hl
    obtain ⟨s, hs, rfl⟩ := List.mem_map.mp hl
    rcases List.mem_cons.mp hs with rfl | hs
    · decide
    · obtain ⟨r, hr, rfl⟩ := List.mem_map.mp hs
      exact (h r hr).not_mem_line
  have hheader :
      (rowOfLine? ∘ Text.dropEndWhile (· == '\r') ∘ String.toList) tableHeader = none := by
    decide
  have hrows : ∀ r ∈ rows, (rowOfLine? ∘ Text.dropEndWhile (· == '\r') ∘ String.toList) r.line =
      some r := by
    intro r hr
    simp only [Function.comp_apply, Row.dropEndWhile_line, rowOfLine?_line (h r hr)]
  rw [parseRows, renderRows, Text.toList_join_terminated, Text.lines_flatMap_terminated hlines,
    List.map_map, List.filterMap_map, List.filterMap_cons_none hheader, List.filterMap_map]
  exact (List.filterMap_congr hrows).trans List.filterMap_some

/-- Whatever a text is, the rows that are read from it are readable. -/
theorem readable_of_mem_parseRows {s : String} {r : Row} (h : r ∈ parseRows s) : r.Readable := by
  obtain ⟨line, hline, hr⟩ := List.mem_filterMap.mp h
  exact readable_of_rowOfLine? (Text.not_mem_of_mem_lines hline) hr

theorem mem_rows_ofRows {rows : List Row} {r : Row} : r ∈ (ofRows rows).rows ↔ r ∈ rows := by
  have hnode : ∀ n, n ∈ (ofRows rows).nodes ↔ Row.node n ∈ rows := fun _ =>
    Graph.mem_nodes_iff (g := ⟨"", rows⟩)
  have hedge : ∀ e, e ∈ (ofRows rows).edges ↔ Row.edge e ∈ rows := fun _ =>
    Graph.mem_edges_iff (g := ⟨"", rows⟩)
  rw [Table.rows, List.mem_append, List.mem_map, List.mem_map]
  cases r with
  | node n => simp [hnode]
  | edge e => simp [hedge]

theorem ofRows_rows (t : Table) : ofRows t.rows = t := by
  simp [ofRows, rows, List.filterMap_append, List.filterMap_map, Row.node?, Row.edge?,
    Function.comp_def]

/-- A list of rows is read back exactly if all of them are readable. -/
theorem parse_renderRows_iff (rows : List Row) :
    parse (renderRows rows) = ofRows rows ↔ ∀ r ∈ rows, r.Readable := by
  constructor
  · intro h r hr
    have hmem : r ∈ (parse (renderRows rows)).rows := by
      rw [h]
      exact mem_rows_ofRows.mpr hr
    exact readable_of_mem_parseRows (mem_rows_ofRows.mp hmem)
  · intro h
    rw [parse, parseRows_renderRows h]

/-- **Writing and reading a table.**  The nodes and the edges of a list of rows are read back,
each in their order, iff no identifier, name, source or target has a comma or a line feed; and
whatever the text, the table that is read from it is written and read again without a change. -/
theorem table_round_trip :
    (∀ rows : List Row,
      parse (renderRows rows) = ⟨rows.filterMap Row.node?, rows.filterMap Row.edge?⟩ ↔
        (∀ n, Row.node n ∈ rows → (',' ∉ n.identifier.toList ∧ '\n' ∉ n.identifier.toList) ∧
          ',' ∉ n.name.toList ∧ '\n' ∉ n.name.toList) ∧
        ∀ e, Row.edge e ∈ rows → (',' ∉ e.source.toList ∧ '\n' ∉ e.source.toList) ∧
          ',' ∉ e.target.toList ∧ '\n' ∉ e.target.toList) ∧
      ∀ text : String, parse (renderRows (parse text).rows) = parse text := by
  constructor
  · intro rows
    refine (parse_renderRows_iff rows).trans ⟨fun h => ⟨fun n hn => ?_, fun e he => ?_⟩, ?_⟩
    · simpa [Row.Readable, Row.values] using h _ hn
    · simpa [Row.Readable, Row.values] using h _ he
    · rintro ⟨hnodes, hedges⟩ r hr
      cases r with
      | node n => simpa [Row.Readable, Row.values] using hnodes n hr
      | edge e => simpa [Row.Readable, Row.values] using hedges e hr
  · intro text
    have hreadable : ∀ r ∈ (parse text).rows, r.Readable := fun r hr =>
      readable_of_mem_parseRows (mem_rows_ofRows.mp hr)
    rw [(parse_renderRows_iff _).mpr hreadable, ofRows_rows]

/-- Values that look like a header, are empty or end in a carriage return are read back. -/
example : parse (renderRows [.node ⟨"Type\r", "", .classType⟩, .edge ⟨"", "Label\r", .inherit⟩]) =
    ⟨[⟨"Type\r", "", .classType⟩], [⟨"", "Label\r", .inherit⟩]⟩ := by decide +kernel

end Table
end TypeAtlas
