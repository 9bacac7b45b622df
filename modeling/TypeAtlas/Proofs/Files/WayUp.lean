import TypeAtlas.Proofs.Files.Standing
import Mathlib.Algebra.GroupWithZero.Nat

/-! # The way up from a path

The path above a path drops its last component, by its text alone.  It is a shorter text
(`Path.length_lt_of_parent?`), so the way up ends, after as many steps as the path has
characters (`Path.above?_of_length_lt`).  `Path.chain` lists the paths on the way; its count
of steps is always enough, so it can be read one path at a time (`Path.chain_of_parent?`).

Going up from a name that was put behind a path gives that path back, letter by letter
(`Path.parent?_join`), as long as the path ends in a name itself.
-/
namespace TypeAtlas

namespace Path

/-! ### The way up -/

theorem ofPieces_written (p : String) : ofPieces (written p) = p := by
  rw [ofPieces, written, Text.intercalate_splitAtChar, String.ofList_toList]

/-- Every piece has a slash behind it but the last one. -/
theorem length_ofPieces {ps : List (List Char)} (hne : ps ≠ []) :
    (ofPieces ps).length + 1 = (ps.map fun s => s.length + 1).sum := by
  rw [ofPieces, String.length_ofList]
  induction ps with
  | nil => exact absurd rfl hne
  | cons s ps ih =>
    cases ps with
    | nil => simp
    | cons next ps =>
      have hrest := ih (List.cons_ne_nil next ps)
      rw [List.intercalate_cons_cons, List.length_append, List.length_append, List.map_cons,
        List.sum_cons, ← hrest]
      simp only [List.length_singleton]
      omega

/-- **The path above is shorter.** -/
theorem length_lt_of_parent? {p q : String} (h : parent? p = some q) : q.length < p.length := by
  have hp : p.length + 1 = ((written p).reverse.map fun s => s.length + 1).sum := by
    rw [List.map_reverse, List.sum_reverse, ← length_ofPieces (written_ne_nil p),
      ofPieces_written]
  obtain ⟨idle, -, hleft⟩ := exists_trimPieces (written p).reverse
  have htrim := trimPieces_trimPieces (written p).reverse
  unfold parent? at h
  rw [show Text.splitAtChar '/' p.toList = written p from rfl] at h
  split at h
  · cases h
  · rename_i first hone
    split_ifs at h with hfirst
    obtain rfl := Option.some.inj h
    rw [hleft, hone, List.map_append, List.sum_append] at hp
    have hlength : 0 < first.length := List.length_pos_iff.mpr (by simpa using hfirst)
    have hempty : "".length = 0 := rfl
    simp only [List.map_cons, List.map_nil, List.sum_cons, List.sum_nil] at hp
    omega
  · rename_i last rest hne hcons
    have hrest : rest ≠ [] := by
      rintro rfl
      exact hne rfl
    rw [hcons] at htrim hleft
    -- the piece that is cut off is not empty
    have hlast : 0 < last.length := by
      refine List.length_pos_iff.mpr ?_
      rintro rfl
      cases isIdle_eq_false_of_trim hrest htrim
    obtain ⟨between, -, hrestleft⟩ := exists_trimPieces rest
    rw [hleft, hrestleft, List.map_append, List.sum_append, List.map_cons, List.sum_cons,
      List.map_append, List.sum_append] at hp
    split at h
    · rename_i hroot
      obtain rfl := Option.some.inj h
      have hslash : "/".length = 1 := rfl
      rw [hroot] at hp
      simp only [List.map_cons, List.map_nil, List.sum_cons, List.sum_nil,
        List.length_nil] at hp
      omega
    · obtain rfl := Option.some.inj h
      have hq := length_ofPieces (List.reverse_ne_nil_iff.mpr (trimPieces_ne_nil hrest))
      rw [List.map_reverse, List.sum_reverse] at hq
      omega

theorem parent?_of_length_eq_zero {p : String} (h : p.length = 0) : parent? p = none := by
  cases hparent : parent? p with
  | none => rfl
  | some q =>
    have hlt := length_lt_of_parent? hparent
    omega

/-- The length of a path is enough for the way up. -/
theorem chain_go_eq {n m : Nat} {p : String} (hn : p.length ≤ n) (hm : p.length ≤ m) :
    chain.go n p = chain.go m p := by
  induction n generalizing m p with
  | zero =>
    cases m with
    | zero => rfl
    | succ m => rw [chain.go, chain.go, parent?_of_length_eq_zero (Nat.le_zero.mp hn)]
  | succ n ih =>
    cases m with
    | zero => rw [chain.go, chain.go, parent?_of_length_eq_zero (Nat.le_zero.mp hm)]
    | succ m =>
      rw [chain.go, chain.go]
      cases hparent : parent? p with
      | none => rfl
      | some q =>
        have hlt := length_lt_of_parent? hparent
        exact congrArg (p :: ·) (ih (by omega) (by omega))

theorem chain_of_parent? {p q : String} (h : parent? p = some q) : chain p = p :: chain q := by
  have hlt := length_lt_of_parent? h
  have hgo : chain p = chain.go (p.length + 1) p := chain_go_eq (Nat.le_refl _) (Nat.le_succ _)
  rw [hgo, chain.go, h]
  exact congrArg (p :: ·) (chain_go_eq (by omega) (Nat.le_refl _))

theorem chain_of_parent?_eq_none {p : String} (h : parent? p = none) : chain p = [p] := by
  have hgo : chain p = chain.go (p.length + 1) p := chain_go_eq (Nat.le_refl _) (Nat.le_succ _)
  rw [hgo, chain.go, h]

/-- The path so many steps above a path; none where the way up has ended. -/
def above? : Nat → String → Option String
  | 0, p => some p
  | n + 1, p => (parent? p).bind (above? n)

/-- **The way up ends** after as many steps as the path has characters. -/
theorem above?_of_length_lt {n : Nat} {p : String} (h : p.length < n) : above? n p = none := by
  induction n generalizing p with
  | zero => exact absurd h (Nat.not_lt_zero _)
  | succ n ih =>
    rw [above?]
    cases hparent : parent? p with
    | none => rfl
    | some q =>
      have hlt := length_lt_of_parent? hparent
      exact ih (by omega)

/-! ### A name and the path before it -/

/-- The last piece of a path that ends in a name is one that counts. -/
theorem EndsInName.isIdle_eq_false {base : String} (h : EndsInName base)
    {front : List (List Char)} {last : List Char} (hwritten : written base = front ++ [last]) :
    isIdle last = false := by
  obtain ⟨front', last', hwritten', hlast'⟩ := h
  obtain ⟨-, hlast⟩ := List.append_inj' (hwritten.symm.trans hwritten') rfl
  rwa [(List.cons_eq_cons.mp hlast).1]

theorem EndsInName.written_ne {base : String} (h : EndsInName base) : written base ≠ [[]] := by
  intro hwritten
  cases h.isIdle_eq_false (List.nil_append [[]] ▸ hwritten)

theorem EndsInName.ne_empty {base : String} (h : EndsInName base) : base ≠ "" := by
  rintro rfl
  exact h.written_ne rfl

theorem written_join {base name : String} (hbase : EndsInName base) (hname : IsName name) :
    written (join base name) = written base ++ [name.toList] := by
  have hempty : base.toList ≠ [] := fun hnil =>
    hbase.ne_empty (String.toList_eq_nil_iff.mp hnil)
  have hslash : base.toList.getLast? ≠ some '/' := by
    intro hend
    obtain ⟨before, hbefore⟩ := List.getLast?_eq_some_iff.mp hend
    have hwritten : written base = Text.splitAtChar '/' before ++ [[]] := by
      rw [written, hbefore, Text.splitAtChar_append]
      rfl
    cases hbase.isIdle_eq_false hwritten
  have hrel := isAbsolute_eq_false_iff.mp (isAbsolute_of_no_slash hname.no_slash)
  rw [written, join, String.toList_ofList, joinChars, if_neg hrel, if_neg (by tauto),
    Text.splitAtChar_append, Text.splitAtChar_of_not_mem hname.no_slash]
  rfl

/-- **The path above a name is the path that the name was put behind**, letter by letter. -/
theorem parent?_join {base name : String} (hbase : EndsInName base) (hname : IsName name) :
    parent? (join base name) = some base := by
  have hjoin : EndsInName (join base name) :=
    (endsInName_of_isName hname).join base (isAbsolute_of_no_slash hname.no_slash)
  have hpieces : trimPieces (Text.splitAtChar '/' (join base name).toList).reverse =
      name.toList :: (written base).reverse := by
    rw [show trimPieces (Text.splitAtChar '/' (join base name).toList).reverse =
      (written (join base name)).reverse from hjoin.isTrim, written_join hbase hname,
      List.reverse_append, List.reverse_singleton, List.singleton_append]
  have htrim : trimPieces (written base).reverse = (written base).reverse := hbase.isTrim
  have hne : (written base).reverse ≠ [] := List.reverse_ne_nil_iff.mpr (written_ne_nil base)
  unfold parent?
  rw [hpieces]
  split
  · rename_i hnil
    cases hnil
  · rename_i first hone
    exact absurd (List.cons_eq_cons.mp hone).2 hne
  · rename_i last rest hmore hcons
    obtain ⟨-, rfl⟩ := List.cons_eq_cons.mp hcons
    rw [htrim]
    split
    · rename_i hroot
      exact absurd (List.reverse_eq_iff.mp hroot) hbase.written_ne
    · rw [List.reverse_reverse, ofPieces_written]

end Path

end TypeAtlas
