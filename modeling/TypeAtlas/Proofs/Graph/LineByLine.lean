import TypeAtlas.Proofs.Graph.RoundTrip

/-! # A table is read line by line

The lines of a text are what stands between its line feeds, with two exceptions: nothing
is a line behind a line feed at the very end, and the carriage returns at the end of a line
are not part of it.  Neither exception can be seen in a table.  An empty line stands for no
row, so the rows of a text are those of all its pieces, whether the last one counts as a
line or not (`Table.parseRows_eq`), and pieces that differ in carriage returns at their ends
stand for the same row.

So a text can be cut at any line feed, and the rows of its parts are read one after another
(`Table.parseRows_join`).  What stands for no row can be put between any two lines.
-/
namespace TypeAtlas
namespace Text

/-! ### Carriage returns -/

/-- The text with a carriage return in front of every line feed. -/
def withReturns (cs : List Char) : List Char :=
  cs.flatMap fun c => if c = '\n' then ['\r', '\n'] else [c]

theorem withReturns_cons_feed (cs : List Char) :
    withReturns ('\n' :: cs) = '\r' :: '\n' :: withReturns cs :=
  rfl

theorem withReturns_cons {c : Char} (h : c ≠ '\n') (cs : List Char) :
    withReturns (c :: cs) = c :: withReturns cs := by
  simp [withReturns, h]

theorem dropEndWhile_append {p : Char → Bool} (cs : List Char) {ds : List Char}
    (h : ∀ d ∈ ds, p d = true) : dropEndWhile p (cs ++ ds) = dropEndWhile p cs := by
  rw [dropEndWhile, List.reverse_append, List.dropWhile_append_of_pos, dropEndWhile]
  exact fun d hd => h d (List.mem_reverse.mp hd)

/-- What is left of a text tells what is left of it with one more character in front. -/
theorem dropEndWhile_cons_congr {p : Char → Bool} {cs ds : List Char} (c : Char)
    (h : dropEndWhile p cs = dropEndWhile p ds) :
    dropEndWhile p (c :: cs) = dropEndWhile p (c :: ds) := by
  have hleft := List.reverse_inj.mp h
  rw [dropEndWhile, dropEndWhile, List.reverse_cons, List.reverse_cons, List.dropWhile_append,
    List.dropWhile_append, hleft]

/-- The pieces of a text are the same with and without carriage returns in front of the line
feeds, but for carriage returns at their ends. -/
theorem splitAtChar_withReturns (cs : List Char) :
    (splitAtChar '\n' (withReturns cs)).map (dropEndWhile (· == '\r')) =
      (splitAtChar '\n' cs).map (dropEndWhile (· == '\r')) := by
  induction cs with
  | nil => rfl
  | cons c cs ih =>
    by_cases hc : c = '\n'
    · subst hc
      have hpieces : splitAtChar '\n' ('\r' :: '\n' :: withReturns cs) =
          ['\r'] :: splitAtChar '\n' (withReturns cs) :=
        splitAtChar_append_cons (by decide : '\n' ∉ ['\r']) _
      have hempty : dropEndWhile (· == '\r') ['\r'] = dropEndWhile (· == '\r') [] := rfl
      rw [withReturns_cons_feed, hpieces, splitAtChar, if_pos rfl, List.map_cons, List.map_cons,
        ih, hempty]
    · obtain ⟨piece, pieces, hcs⟩ :=
        List.exists_cons_of_ne_nil (splitAtChar_ne_nil '\n' cs)
      obtain ⟨piece', pieces', hcs'⟩ :=
        List.exists_cons_of_ne_nil (splitAtChar_ne_nil '\n' (withReturns cs))
      rw [hcs, hcs', List.map_cons, List.map_cons, List.cons_eq_cons] at ih
      rw [withReturns_cons hc, splitAtChar, splitAtChar, if_neg hc, if_neg hc, hcs, hcs']
      simp only [List.map_cons, dropEndWhile_cons_congr c ih.1, ih.2]

end Text

namespace Table

/-! ### Rows of pieces -/

/-- The row that a piece between two line feeds stands for. -/
def rowOfPiece? (piece : List Char) : Option Row :=
  rowOfLine? (Text.dropEndWhile (· == '\r') piece)

/-- **The rows of a text are those of its pieces.**  It does not matter whether the last piece
counts as a line: if it does not, it is empty and stands for no row. -/
theorem parseRows_eq (s : String) :
    parseRows s = (Text.splitAtChar '\n' s.toList).filterMap rowOfPiece? := by
  rw [parseRows, Text.lines, List.filterMap_map]
  split_ifs with hlast
  · obtain ⟨front, hfront⟩ := List.getLast?_eq_some_iff.mp hlast
    have hempty : rowOfPiece? [] = none := rfl
    rw [hfront, List.dropLast_concat, List.filterMap_append,
      List.filterMap_cons_none hempty, List.filterMap_nil, List.append_nil]
    rfl
  · rfl

/-- A text can be cut at any line feed. -/
theorem parseRows_append (a b : String) :
    parseRows (a ++ "\n" ++ b) = parseRows a ++ parseRows b := by
  have hseam : (a ++ "\n" ++ b).toList = a.toList ++ '\n' :: b.toList := by simp
  rw [parseRows_eq, hseam, Text.splitAtChar_append, List.filterMap_append, ← parseRows_eq,
    ← parseRows_eq]

theorem parseRows_empty : parseRows "" = [] :=
  rfl

/-- **The rows of lines that are put together are the rows of each line in turn.** -/
theorem parseRows_join (ls : List String) :
    parseRows (Text.join "\n" ls) = ls.flatMap parseRows := by
  fun_induction Text.join "\n" ls with
  | case1 => exact parseRows_empty
  | case2 s => rw [List.flatMap_singleton]
  | case3 s rest hne ih => rw [parseRows_append, ih, List.flatMap_cons]

/-- Carriage returns in front of line feeds are not seen. -/
theorem parseRows_withReturns (s : String) :
    parseRows (String.ofList (Text.withReturns s.toList)) = parseRows s := by
  have hpieces := congrArg (List.filterMap rowOfLine?) (Text.splitAtChar_withReturns s.toList)
  rw [List.filterMap_map, List.filterMap_map] at hpieces
  rw [parseRows_eq, parseRows_eq, String.toList_ofList]
  exact hpieces

/-! ### Lines that stand for no row -/

theorem ofRows_append (xs ys : List Row) :
    ofRows (xs ++ ys) =
      ⟨(ofRows xs).nodes ++ (ofRows ys).nodes, (ofRows xs).edges ++ (ofRows ys).edges⟩ := by
  rw [ofRows, List.filterMap_append, List.filterMap_append]
  rfl

/-- A table with no nodes and no edges has no rows. -/
theorem parseRows_eq_nil_iff {s : String} : parseRows s = [] ↔ parse s = ⟨[], []⟩ := by
  constructor
  · intro h
    rw [parse, h]
    rfl
  · intro h
    refine List.eq_nil_iff_forall_not_mem.mpr fun r hr => ?_
    have hrow : r ∈ (parse s).rows := mem_rows_ofRows.mpr hr
    rw [h] at hrow
    exact absurd hrow List.not_mem_nil

/-- A line of carriage returns, or a header with carriage returns behind it. -/
theorem parse_of_blank {line : String} (hline : line = "" ∨ line = tableHeader) (n : Nat) :
    parse (line ++ String.ofList (List.replicate n '\r')) = ⟨[], []⟩ := by
  have hreturns : ∀ c ∈ List.replicate n '\r', (c == '\r') = true := fun c hc => by
    rw [List.eq_of_mem_replicate hc]
    rfl
  have hfeed : '\n' ∉ line.toList ++ List.replicate n '\r' := by
    rw [List.mem_append, not_or]
    refine ⟨?_, fun h => absurd (List.eq_of_mem_replicate h) (by decide)⟩
    rcases hline with rfl | rfl <;> decide
  have hrow : rowOfPiece? (line.toList ++ List.replicate n '\r') = none := by
    rw [rowOfPiece?, Text.dropEndWhile_append _ hreturns]
    rcases hline with rfl | rfl <;> decide
  rw [← parseRows_eq_nil_iff, parseRows_eq, String.toList_append, String.toList_ofList,
    Text.splitAtChar_of_not_mem hfeed, List.filterMap_cons_none hrow, List.filterMap_nil]

/-- **Tables are read line by line.**  A text that is cut at a line feed has the nodes and the
edges of its two parts, one after the other.  Carriage returns in front of the line feeds change
nothing.  Neither do lines that are put in between other lines and have no node and no edge of
their own; blank lines and headers are such lines. -/
theorem parse_line_by_line :
    (∀ a b : String,
      (parse (a ++ "\n" ++ b)).nodes = (parse a).nodes ++ (parse b).nodes ∧
        (parse (a ++ "\n" ++ b)).edges = (parse a).edges ++ (parse b).edges) ∧
      (∀ s : String, parse (String.ofList (Text.withReturns s.toList)) = parse s) ∧
      (∀ before inserted after : List String, (∀ l ∈ inserted, parse l = ⟨[], []⟩) →
        parse (Text.join "\n" (before ++ inserted ++ after)) =
          parse (Text.join "\n" (before ++ after))) ∧
      ∀ n : Nat, parse (String.ofList (List.replicate n '\r')) = ⟨[], []⟩ ∧
        parse (tableHeader ++ String.ofList (List.replicate n '\r')) = ⟨[], []⟩ := by
  refine ⟨fun a b => ?_, fun s => ?_, fun before inserted after hidle => ?_, fun n => ⟨?_, ?_⟩⟩
  · rw [parse, parseRows_append, ofRows_append]
    exact ⟨rfl, rfl⟩
  · rw [parse, parseRows_withReturns, ← parse]
  · have hnone : inserted.flatMap parseRows = [] :=
      List.flatMap_eq_nil_iff.mpr fun l hl => parseRows_eq_nil_iff.mpr (hidle l hl)
    rw [parse, parse, parseRows_join, parseRows_join, List.flatMap_append, List.flatMap_append,
      List.flatMap_append, hnone, List.append_nil]
  · simpa using parse_of_blank (Or.inl rfl) n
  · exact parse_of_blank (Or.inr rfl) n

/-- Between a line with a carriage return and one without: a blank line, a header, a line with
five columns and one with an unknown label. -/
theorem parse_line_by_line_mixed :
    let inserted := ["\r", tableHeader ++ "\r\r", "node,A.C,,,C", "edge,,A.C,A.B,calls,"]
    (∀ l ∈ inserted, parse l = ⟨[], []⟩) ∧
      parse (Text.join "\n"
        (["node,A.B,,,B,Class\r"] ++ inserted ++ ["edge,,A.C,A.B,reference,", ""])) =
          parse "node,A.B,,,B,Class\r\nedge,,A.C,A.B,reference,\n" := by
  intro inserted
  have hidle : ∀ l ∈ inserted, parse l = ⟨[], []⟩ := by decide +kernel
  exact ⟨hidle, parse_line_by_line.2.2.1 ["node,A.B,,,B,Class\r"] inserted
    ["edge,,A.C,A.B,reference,", ""] hidle⟩

end Table
end TypeAtlas
