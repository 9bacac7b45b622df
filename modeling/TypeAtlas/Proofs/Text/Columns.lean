import TypeAtlas.Graph.Table
import Mathlib.Data.List.Basic

/-! # Columns of a line

A row is written as columns with commas in between and nothing else: no quoting.  So a
line can be taken apart again (`splitAtChar_join`), and rows be told apart by their
lines (`Row.eq_of_line_eq`), as long as no column has a comma (`Row.Plain`).
-/
namespace TypeAtlas
namespace Text

theorem splitAtChar_of_not_mem {sep : Char} {piece : List Char} (h : sep ∉ piece) :
    splitAtChar sep piece = [piece] := by
  induction piece with
  | nil => rfl
  | cons c piece ih =>
    obtain ⟨hc, hpiece⟩ := not_or.mp (mt List.mem_cons.mpr h)
    rw [splitAtChar, if_neg (Ne.symm hc), ih hpiece]

theorem splitAtChar_ne_nil (sep : Char) (cs : List Char) : splitAtChar sep cs ≠ [] := by
  cases cs with
  | nil => exact List.cons_ne_nil _ _
  | cons c cs =>
    rw [splitAtChar]
    split
    · exact List.cons_ne_nil _ _
    · split <;> exact List.cons_ne_nil _ _

/-- A separator cuts, whatever stands before it. -/
theorem splitAtChar_append (sep : Char) (x y : List Char) :
    splitAtChar sep (x ++ sep :: y) = splitAtChar sep x ++ splitAtChar sep y := by
  induction x with
  | nil => simp [splitAtChar]
  | cons c x ih =>
    rw [List.cons_append, splitAtChar, splitAtChar]
    split
    · rw [ih, List.cons_append]
    · rw [ih]
      cases hs : splitAtChar sep x with
      | nil => exact absurd hs (splitAtChar_ne_nil sep x)
      | cons piece pieces => rfl

theorem splitAtChar_append_cons {sep : Char} {piece : List Char} (h : sep ∉ piece)
    (rest : List Char) : splitAtChar sep (piece ++ sep :: rest) = piece :: splitAtChar sep rest := by
  rw [splitAtChar_append, splitAtChar_of_not_mem h, List.singleton_append]

/-- The pieces have no separator, and only characters of the text. -/
theorem mem_of_mem_splitAtChar {sep : Char} {cs piece : List Char} (h : piece ∈ splitAtChar sep cs)
    {c : Char} (hc : c ∈ piece) : c ≠ sep ∧ c ∈ cs := by
  induction cs generalizing piece with
  | nil =>
    rw [splitAtChar, List.mem_singleton] at h
    exact absurd (h ▸ hc) List.not_mem_nil
  | cons d cs ih =>
    rw [splitAtChar] at h
    split_ifs at h with hd
    · rcases List.mem_cons.mp h with rfl | h
      · exact absurd hc List.not_mem_nil
      · exact ⟨(ih h hc).1, List.mem_cons_of_mem d (ih h hc).2⟩
    · cases hs : splitAtChar sep cs with
      | nil =>
        rw [hs] at h
        obtain rfl := List.mem_singleton.mp h
        obtain rfl := List.mem_singleton.mp hc
        exact ⟨hd, List.mem_cons_self⟩
      | cons first pieces =>
        rw [hs] at h ih
        -- the first piece is the one that the character goes to
        rcases List.mem_cons.mp h with rfl | h
        · rcases List.mem_cons.mp hc with rfl | hc
          · exact ⟨hd, List.mem_cons_self⟩
          · have hfirst := ih List.mem_cons_self hc
            exact ⟨hfirst.1, List.mem_cons_of_mem d hfirst.2⟩
        · have hrest := ih (List.mem_cons_of_mem first h) hc
          exact ⟨hrest.1, List.mem_cons_of_mem d hrest.2⟩

theorem not_mem_of_mem_splitAtChar {sep : Char} {cs piece : List Char}
    (h : piece ∈ splitAtChar sep cs) : sep ∉ piece :=
  fun hc => (mem_of_mem_splitAtChar h hc).1 rfl

/-- What is cut at a character is put together again by it. -/
theorem intercalate_splitAtChar (sep : Char) (cs : List Char) :
    List.intercalate [sep] (splitAtChar sep cs) = cs := by
  induction cs with
  | nil => rfl
  | cons c cs ih =>
    obtain ⟨piece, pieces, hcs⟩ := List.exists_cons_of_ne_nil (splitAtChar_ne_nil sep cs)
    rw [hcs] at ih
    rw [splitAtChar]
    split_ifs with hc
    · rw [hcs, List.intercalate_cons_cons, ih, hc]
      rfl
    · rw [hcs]
      cases pieces with
      | nil => simpa using ih
      | cons next pieces =>
        rw [List.intercalate_cons_cons] at ih ⊢
        rw [List.cons_append, List.cons_append, ih]

/-- Joining and cutting at a character that no piece has are inverse to each other. -/
theorem splitAtChar_join {sep : Char} {cols : List String} (hne : cols ≠ [])
    (h : ∀ c ∈ cols, sep ∉ c.toList) :
    splitAtChar sep (join (String.singleton sep) cols).toList = cols.map String.toList := by
  induction cols with
  | nil => exact absurd rfl hne
  | cons c cols ih =>
    cases cols with
    | nil => exact splitAtChar_of_not_mem (h c List.mem_cons_self)
    | cons d cols =>
      rw [join, String.toList_append, String.toList_append, String.toList_singleton,
        List.append_assoc, List.singleton_append,
        splitAtChar_append_cons (h c List.mem_cons_self),
        ih (List.cons_ne_nil d cols) fun x hx => h x (List.mem_cons_of_mem c hx)]
      · rfl
      · exact List.cons_ne_nil d cols

end Text

/-- The columns of a row stand for that row. -/
theorem Table.rowOf?_columns (r : Row) : rowOf? r.columns = some r := by
  cases r with
  | node n => simp [Row.columns, rowOf?, TypeKind.ofLabel?_label]
  | edge e => simp [Row.columns, rowOf?, EdgeLabel.ofLabel?_label]

namespace Row

/-- No column of the row has a comma. -/
def Plain (r : Row) : Prop :=
  ∀ c ∈ r.columns, ',' ∉ c.toList

theorem split_line {r : Row} (h : r.Plain) :
    (Text.splitAtChar ',' r.line.toList).map String.ofList = r.columns := by
  have hne : r.columns ≠ [] := by cases r <;> exact List.cons_ne_nil _ _
  have hsplit := Text.splitAtChar_join hne h
  change (Text.splitAtChar ',' (Text.join (String.singleton ',') r.columns).toList).map _ = _
  rw [hsplit, List.map_map]
  exact (List.map_congr_left fun s _ => String.ofList_toList).trans (List.map_id _)

/-- Rows without commas are told apart by their lines. -/
theorem eq_of_line_eq {r s : Row} (hr : r.Plain) (hs : s.Plain) (h : r.line = s.line) : r = s := by
  have hcols : r.columns = s.columns := by rw [← split_line hr, ← split_line hs, h]
  have hrow := congrArg Table.rowOf? hcols
  rw [Table.rowOf?_columns, Table.rowOf?_columns] at hrow
  exact Option.some.inj hrow

end Row
end TypeAtlas
