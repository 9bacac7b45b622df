import TypeAtlas.Json.Reader
import Mathlib.Data.List.Basic
import Mathlib.Tactic.SplitIfs

/-! # Documents are read as they were written

The text of a value, read again, is the value (`parse?_render`), for every value without
numbers and broken texts (`Value.Readable`).

A string comes back character by character: what `escape` writes for a character is one
step of `readPieces`, whatever follows it (`readPieces_escape`).  A value comes back by
induction on the value, with any text behind it.  The reader counts its steps down from
the length of the whole text; that a value needs no more steps than it has characters is
carried through the same induction (`value?_write`).
-/
namespace TypeAtlas
namespace Json

/-! ### Strings -/

theorem hexValue?_hexDigit : ∀ n < 16, hexValue? (hexDigit n) = some n := by
  decide

theorem readPieces_short {e c : Char} (he : shortEscape? e = some c) (cs : List Char) :
    readPieces ('\\' :: e :: cs) =
      (readPieces cs).map fun (ps, left) => (.char c :: ps, left) := by
  have hu : e ≠ 'u' := by
    rintro rfl
    have hnone : shortEscape? 'u' = none := by decide
    rw [hnone] at he
    cases he
  rw [readPieces]
  · rw [he]
    cases readPieces cs <;> rfl
  · intro a b c d rest h
    exact absurd h hu

theorem readPieces_unit {n : Nat} (hn : n < 32) (cs : List Char) :
    readPieces ('\\' :: 'u' :: '0' :: '0' :: hexDigit (n / 16) :: hexDigit (n % 16) :: cs) =
      (readPieces cs).map fun (ps, left) => (.char (Char.ofNat n) :: ps, left) := by
  have hunit : hexUnit? '0' '0' (hexDigit (n / 16)) (hexDigit (n % 16)) = some n := by
    have hhigh := hexValue?_hexDigit (n / 16) (by omega)
    have hlow := hexValue?_hexDigit (n % 16) (by omega)
    have hzero : hexValue? '0' = some 0 := by decide
    simp only [hexUnit?, hzero, hhigh, hlow, bind, Option.bind, pure]
    congr 1
    omega
  have hpiece : Piece.ofUnit n = .char (Char.ofNat n) := by
    rw [Piece.ofUnit, if_neg (by omega)]
  rw [readPieces, hunit]
  cases readPieces cs with
  | none => rfl
  | some r => simp only [hpiece, Option.map_some]

theorem readPieces_plain {c : Char} (hquote : c ≠ '"') (hback : c ≠ '\\') (h32 : ¬ c.toNat < 32)
    (cs : List Char) :
    readPieces (c :: cs) = (readPieces cs).map fun (ps, left) => (.char c :: ps, left) := by
  have htest : ¬ (c = '\\' ∨ c.toNat < 32) := fun h => h.elim hback h32
  rw [readPieces, if_neg htest]
  · exact hquote
  · intro a b c' d rest h
    exact absurd h hback
  · intro e rest h
    exact absurd h hback

/-- What is written for a character is read as that character. -/
theorem readPieces_escape (c : Char) (cs : List Char) :
    readPieces (escape c ++ cs) =
      (readPieces cs).map fun (ps, left) => (.char c :: ps, left) := by
  have hchar : Char.ofNat c.toNat = c := Char.ofNat_toNat c
  unfold escape
  split_ifs with hquote hback h8 h9 h10 h12 h13 h32
  · subst hquote
    exact readPieces_short (by decide) cs
  · subst hback
    exact readPieces_short (by decide) cs
  · rw [← hchar, h8]
    exact readPieces_short (by decide) cs
  · rw [← hchar, h9]
    exact readPieces_short (by decide) cs
  · rw [← hchar, h10]
    exact readPieces_short (by decide) cs
  · rw [← hchar, h12]
    exact readPieces_short (by decide) cs
  · rw [← hchar, h13]
    exact readPieces_short (by decide) cs
  · have hunit := readPieces_unit h32 cs
    rw [hchar] at hunit
    exact hunit
  · exact readPieces_plain hquote hback h32 cs

theorem readPieces_flatMap_escape (cs rest : List Char) :
    readPieces (cs.flatMap escape ++ '"' :: rest) = some (cs.map .char, rest) := by
  induction cs with
  | nil => rfl
  | cons c cs ih =>
    rw [List.flatMap_cons, List.append_assoc, readPieces_escape, ih]
    rfl

theorem joinPieces?_map_char (cs : List Char) : joinPieces? (cs.map .char) = some cs := by
  induction cs with
  | nil => rfl
  | cons c cs ih =>
    rw [List.map_cons, joinPieces?, ih]
    rfl

theorem quoted_append (s : String) (rest : List Char) :
    quoted s ++ rest = '"' :: (s.toList.flatMap escape ++ '"' :: rest) := by
  rw [quoted, List.cons_append, List.append_assoc, List.singleton_append]

theorem scalar?_quoted (s : String) (rest : List Char) :
    scalar? (quoted s ++ rest) = some (.text s, rest) := by
  have htext : textOf (s.toList.map .char) = .text s := by
    unfold textOf
    rw [joinPieces?_map_char]
    exact congrArg Value.text String.ofList_toList
  rw [quoted_append, scalar?, if_pos rfl, readPieces_flatMap_escape]
  simp only [Option.map_some, htext]

/-! ### Blanks -/

theorem skipSpace_newline (d : Nat) (cs : List Char) :
    skipSpace (newline d ++ cs) = skipSpace cs := by
  refine List.dropWhile_append_of_pos fun c hc => ?_
  rcases List.mem_cons.mp hc with rfl | hc
  · decide
  · rw [List.eq_of_mem_replicate hc]
    decide

theorem skipSpace_cons {c : Char} (h : isSpace c = false) (cs : List Char) :
    skipSpace (c :: cs) = c :: cs := by
  rw [skipSpace, List.dropWhile_cons_of_neg (by simp [h])]

theorem value?_newline (n d : Nat) (cs : List Char) :
    value? n (newline d ++ cs) = value? n cs := by
  cases n with
  | zero => rfl
  | succ n => rw [value?, value?, skipSpace_newline]

theorem value?_blank (n : Nat) (cs : List Char) : value? n (' ' :: cs) = value? n cs := by
  cases n with
  | zero => rfl
  | succ n => rfl

theorem items?_newline (n d : Nat) (cs : List Char) :
    items? n (newline d ++ cs) = items? n cs := by
  cases n with
  | zero => rfl
  | succ n => rw [items?, items?, value?_newline]

theorem key?_newline (d : Nat) (cs : List Char) : key? (newline d ++ cs) = key? cs := by
  rw [key?, key?, skipSpace_newline]

theorem members?_newline (n d : Nat) (cs : List Char) :
    members? n (newline d ++ cs) = members? n cs := by
  cases n with
  | zero => rfl
  | succ n => rw [members?, members?, key?_newline]

/-- A key is read up to its colon. -/
theorem key?_quoted (k : String) (rest : List Char) :
    key? (quoted k ++ ':' :: rest) = some (k, rest) := by
  rw [quoted_append, key?, skipSpace_cons (by decide)]
  simp only [readPieces_flatMap_escape, joinPieces?_map_char, skipSpace_cons (c := ':') (by decide),
    String.ofList_toList]

/-! ### Values -/

mutual

/-- Neither numbers nor broken texts occur in the value. -/
def Value.Readable : Value → Prop
  | .null => True
  | .bool _ => True
  | .number _ => False
  | .text _ => True
  | .brokenText => False
  | .list vs => ItemsReadable vs
  | .object ms => MembersReadable ms

/-- The elements are readable. -/
def ItemsReadable : List Value → Prop
  | [] => True
  | v :: vs => v.Readable ∧ ItemsReadable vs

/-- The values of the members are readable. -/
def MembersReadable : List (String × Value) → Prop
  | [] => True
  | (_, v) :: ms => v.Readable ∧ MembersReadable ms

end

/-- The text of a value begins with a character that is neither a blank nor a closing
bracket. -/
theorem Value.Readable.write_eq_cons {v : Value} (h : v.Readable) (d : Nat) :
    ∃ c cs, v.write d = c :: cs ∧ isSpace c = false ∧ c ≠ ']' := by
  cases v with
  | null => exact ⟨'n', _, rfl, by decide, by decide⟩
  | bool b =>
    cases b with
    | true => exact ⟨'t', _, rfl, by decide, by decide⟩
    | false => exact ⟨'f', _, rfl, by decide, by decide⟩
  | number s => exact h.elim
  | text s => exact ⟨'"', _, rfl, by decide, by decide⟩
  | brokenText => exact h.elim
  | list vs =>
    cases vs with
    | nil => exact ⟨'[', _, rfl, by decide, by decide⟩
    | cons v vs =>
      rw [Value.write]
      exact ⟨'[', _, rfl, by decide, by decide⟩
  | object ms =>
    cases ms with
    | nil => exact ⟨'\x7b', _, rfl, by decide, by decide⟩
    | cons m ms =>
      rw [Value.write]
      exact ⟨'\x7b', _, rfl, by decide, by decide⟩

/-- A value that does not open a bracket or a brace is a value without parts. -/
theorem value?_eq_scalar? (n : Nat) {c : Char} (hspace : isSpace c = false) (hlist : c ≠ '[')
    (hobject : c ≠ '\x7b') (cs : List Char) : value? (n + 1) (c :: cs) = scalar? (c :: cs) := by
  rw [value?, skipSpace_cons hspace]
  split
  · rename_i h
    exact absurd (List.cons_eq_cons.mp h).1 hlist
  · rename_i h
    exact absurd (List.cons_eq_cons.mp h).1 hobject
  · rfl

/-- A list that does not close at once is read by its elements. -/
theorem value?_list (n : Nat) {c : Char} (hspace : isSpace c = false) (hclose : c ≠ ']') (d : Nat)
    (cs : List Char) : value? (n + 1) ('[' :: (newline d ++ c :: cs)) =
      (items? n (c :: cs)).map fun (vs, left) => (.list vs, left) := by
  rw [value?, skipSpace_cons (by decide)]
  simp only [skipSpace_newline, skipSpace_cons hspace]
  split
  · rename_i h
    exact absurd (List.cons_eq_cons.mp h).1 hclose
  · rfl

/-- An object that does not close at once is read by its members. -/
theorem value?_object (n d : Nat) (k : String) (cs : List Char) :
    value? (n + 1) ('\x7b' :: (newline d ++ (quoted k ++ cs))) =
      (members? n (quoted k ++ cs)).map fun (ms, left) => (.object ms, left) := by
  rw [value?, skipSpace_cons (by decide), quoted_append]
  simp only [skipSpace_newline, skipSpace_cons (c := '"') (by decide)]
  rfl

mutual

/-- **A value is read as it was written**, at any depth and whatever follows it, in no more steps
than its text has characters. -/
theorem value?_write : ∀ (v : Value), v.Readable → ∀ (d n : Nat) (rest : List Char),
    (v.write d).length < n → value? n (v.write d ++ rest) = some (v, rest)
  | _, _, _, 0, _, hn => absurd hn (Nat.not_lt_zero _)
  | .null, _, d, n + 1, rest, _ => by
    rw [Value.write]
    exact value?_eq_scalar? n (by decide) (by decide) (by decide) _
  | .bool true, _, d, n + 1, rest, _ => by
    rw [Value.write]
    exact value?_eq_scalar? n (by decide) (by decide) (by decide) _
  | .bool false, _, d, n + 1, rest, _ => by
    rw [Value.write]
    exact value?_eq_scalar? n (by decide) (by decide) (by decide) _
  | .number _, h, _, _, _, _ => h.elim
  | .text s, _, d, n + 1, rest, _ => by
    rw [Value.write, ← scalar?_quoted, quoted_append]
    exact value?_eq_scalar? n (by decide) (by decide) (by decide) _
  | .brokenText, h, _, _, _, _ => h.elim
  | .list [], _, d, n + 1, rest, _ => by
    rw [Value.write]
    rfl
  | .list (v :: vs), h, d, n + 1, rest, hn => by
    obtain ⟨hv, hvs⟩ := h
    obtain ⟨c, cs, hcons, hspace, hclose⟩ := hv.write_eq_cons (d + 1)
    have hitems := items?_write vs hvs (d + 1) d n v rest (value?_write v hv (d + 1)) (by
      simp only [Value.write, List.length_cons, List.length_append] at hn
      omega)
    rw [Value.write]
    simp only [List.cons_append, List.append_assoc, List.nil_append]
    rw [hcons, List.cons_append] at hitems ⊢
    rw [value?_list n hspace hclose, hitems]
    rfl
  | .object [], _, d, n + 1, rest, _ => by
    rw [Value.write]
    rfl
  | .object ((k, v) :: ms), h, d, n + 1, rest, hn => by
    obtain ⟨hv, hms⟩ := h
    have hmembers := members?_write ms hms (d + 1) d n k v rest (value?_write v hv (d + 1)) (by
      simp only [Value.write, List.length_cons, List.length_append] at hn
      omega)
    rw [Value.write]
    simp only [List.cons_append, List.append_assoc, List.nil_append]
    rw [value?_object, hmembers]
    rfl

/-- Elements are read as they were written, the first one being read so. -/
theorem items?_write : ∀ (vs : List Value), ItemsReadable vs →
    ∀ (d e n : Nat) (v : Value) (rest : List Char),
    (∀ (n : Nat) (rest : List Char), (v.write d).length < n →
      value? n (v.write d ++ rest) = some (v, rest)) →
    (v.write d).length + (writeItems d vs).length + 1 < n →
    items? n (v.write d ++ (writeItems d vs ++ (newline e ++ ']' :: rest))) = some (v :: vs, rest)
  | _, _, _, _, 0, _, _, _, hn => absurd hn (Nat.not_lt_zero _)
  | [], _, d, e, n + 1, v, rest, hv, hn => by
    rw [items?, hv n _ (by omega)]
    simp only [writeItems, List.nil_append, skipSpace_newline,
      skipSpace_cons (c := ']') (by decide)]
  | w :: vs, h, d, e, n + 1, v, rest, hv, hn => by
    have hlength : (writeItems d (w :: vs)).length =
        (newline d).length + (w.write d).length + (writeItems d vs).length + 1 := by
      simp only [writeItems, List.length_cons, List.length_append]
    have hmore := items?_write vs h.2 d e n w rest (value?_write w h.1 d) (by
      have hline : 1 ≤ (newline d).length := Nat.le_add_left 1 _
      omega)
    rw [items?, hv n _ (by omega)]
    simp only [writeItems, List.cons_append, List.append_assoc,
      skipSpace_cons (c := ',') (by decide), items?_newline, hmore, Option.map_some]

/-- Members are read as they were written, the value of the first one being read so. -/
theorem members?_write : ∀ (ms : List (String × Value)), MembersReadable ms →
    ∀ (d e n : Nat) (k : String) (v : Value) (rest : List Char),
    (∀ (n : Nat) (rest : List Char), (v.write d).length < n →
      value? n (v.write d ++ rest) = some (v, rest)) →
    (v.write d).length + (writeMembers d ms).length + 1 < n →
    members? n (quoted k ++ (':' :: ' ' :: (v.write d ++
      (writeMembers d ms ++ (newline e ++ '\x7d' :: rest))))) = some ((k, v) :: ms, rest)
  | _, _, _, _, 0, _, _, _, _, hn => absurd hn (Nat.not_lt_zero _)
  | [], _, d, e, n + 1, k, v, rest, hv, hn => by
    rw [members?, key?_quoted]
    simp only [value?_blank, hv n _ (by omega), writeMembers, List.nil_append, skipSpace_newline,
      skipSpace_cons (c := '\x7d') (by decide)]
  | (l, w) :: ms, h, d, e, n + 1, k, v, rest, hv, hn => by
    have hlength : (writeMembers d ((l, w) :: ms)).length =
        (newline d).length + (quoted l).length + 2 + (w.write d).length +
          (writeMembers d ms).length + 1 := by
      simp only [writeMembers, List.length_cons, List.length_append, List.length_nil]
    have hmore := members?_write ms h.2 d e n l w rest (value?_write w h.1 d) (by omega)
    rw [members?, key?_quoted]
    simp only [value?_blank, hv n _ (by omega), writeMembers, List.cons_append, List.append_assoc,
      List.nil_append, skipSpace_cons (c := ',') (by decide), members?_newline, hmore,
      Option.map_some]

end

/-- **A document is read as it was written.** -/
theorem parse?_render {v : Value} (h : v.Readable) : parse? v.render = some v := by
  have hread := value?_write v h 0 (2 * (v.write 0).length + 2) [] (by omega)
  rw [List.append_nil] at hread
  rw [parse?, Value.render, String.toList_ofList]
  simp only [hread]
  rfl

end Json
end TypeAtlas
