import TypeAtlas.Proofs.Text.Columns
import Mathlib.Data.List.TakeWhile

/-! # Texts up to blanks

Two texts differ in blanks only if they can be laid side by side, character by character,
with nothing but blanks left over on either side (`SameButBlanks`).  This is so if and only
if freeing both of their blanks gives one text (`sameButBlanks_iff`).

A text is freed of blanks by cutting it into words and putting them together again
(`flatten_words`).  It does not matter whether it is cut at a separator before or after that
(`splitAtChar_filter`), and no blank is left for trimming to cut off (`trim_eq_self`).
-/
namespace TypeAtlas
namespace Text

/-- The text without its blanks. -/
def freed (cs : List Char) : List Char :=
  cs.filter fun c => !isBlank c

theorem freed_cons_of_blank {c : Char} (h : isBlank c = true) (cs : List Char) :
    freed (c :: cs) = freed cs :=
  List.filter_cons_of_neg (by simp [h])

theorem freed_cons {c : Char} (h : ¬isBlank c = true) (cs : List Char) :
    freed (c :: cs) = c :: freed cs :=
  List.filter_cons_of_pos (by simp [h])

theorem isBlank_of_mem_freed {c : Char} {cs : List Char} (h : c ∈ freed cs) :
    isBlank c = false := by
  simpa using List.of_mem_filter h

/-- A text without blanks is freed already. -/
theorem freed_eq_self {cs : List Char} (h : ∀ c ∈ cs, isBlank c = false) : freed cs = cs :=
  List.filter_eq_self.mpr fun c hc => by simp [h c hc]

/-! ### Words, pieces and ends -/

/-- **The words of a text are the text without its blanks.** -/
theorem flatten_words (cs : List Char) : (words cs).flatten = freed cs := by
  fun_induction words cs with
  | case1 => rfl
  | case2 c cs hc ih => rw [freed_cons_of_blank hc, ih]
  | case3 c hc =>
    rw [freed_cons hc]
    rfl
  -- the character opens a word of its own, or stands in front of the next one
  | case4 c hc d cs _ ih =>
    rw [freed_cons hc, ← ih]
    rfl
  | case5 c hc d cs _ hwords ih | case6 c hc d cs _ w ws hwords ih =>
    rw [freed_cons hc, ← ih, hwords]
    rfl

/-- Leaving characters out does not move the cuts. -/
theorem splitAtChar_filter {sep : Char} {p : Char → Bool} (hsep : p sep = true) (cs : List Char) :
    splitAtChar sep (cs.filter p) = (splitAtChar sep cs).map (List.filter p) := by
  induction cs with
  | nil => rfl
  | cons c cs ih =>
    obtain ⟨piece, pieces, hcs⟩ := List.exists_cons_of_ne_nil (splitAtChar_ne_nil sep cs)
    rw [hcs] at ih
    rw [splitAtChar]
    split_ifs with hc
    · rw [List.filter_cons_of_pos (hc ▸ hsep), splitAtChar, if_pos hc, ih, hcs]
      rfl
    · cases hp : p c with
      | true => simp [List.filter_cons_of_pos, hp, splitAtChar, hc, ih, hcs]
      | false => simp [List.filter_cons_of_neg, hp, ih, hcs]

/-- Where no blank is, trimming cuts nothing off. -/
theorem trim_eq_self {cs : List Char} (h : ∀ c ∈ cs, isBlank c = false) : trim cs = cs := by
  have hdrop : ∀ ds : List Char, (∀ c ∈ ds, isBlank c = false) → ds.dropWhile isBlank = ds := by
    intro ds hds
    refine List.dropWhile_eq_self_iff.mpr fun hlength => ?_
    rw [hds _ (List.getElem_mem hlength)]
    exact Bool.false_ne_true
  rw [trim, dropEndWhile, hdrop cs h, hdrop cs.reverse fun c hc => h c (List.mem_reverse.mp hc),
    List.reverse_reverse]

/-! ### Differences in blanks only -/

/-- Two texts that differ in blanks only. -/
inductive SameButBlanks : List Char → List Char → Prop where
  | nil : SameButBlanks [] []
  | same (c : Char) {s t : List Char} (h : SameButBlanks s t) : SameButBlanks (c :: s) (c :: t)
  | left {c : Char} (hc : isBlank c = true) {s t : List Char} (h : SameButBlanks s t) :
      SameButBlanks (c :: s) t
  | right {c : Char} (hc : isBlank c = true) {s t : List Char} (h : SameButBlanks s t) :
      SameButBlanks s (c :: t)

theorem SameButBlanks.behind {s t blanks : List Char} (h : SameButBlanks s t)
    (hblanks : ∀ c ∈ blanks, isBlank c = true) : SameButBlanks s (blanks ++ t) := by
  induction blanks with
  | nil => exact h
  | cons c blanks ih =>
    obtain ⟨hc, hblanks⟩ := List.forall_mem_cons.mp hblanks
    exact .right hc (ih hblanks)

theorem SameButBlanks.freed_eq {s t : List Char} (h : SameButBlanks s t) :
    freed s = freed t := by
  induction h with
  | nil => rfl
  | same c _ ih =>
    by_cases hc : isBlank c = true
    · rw [freed_cons_of_blank hc, freed_cons_of_blank hc, ih]
    · rw [freed_cons hc, freed_cons hc, ih]
  | left hc _ ih => rw [freed_cons_of_blank hc, ih]
  | right hc _ ih => rw [freed_cons_of_blank hc, ih]

theorem sameButBlanks_of_freed_eq {s t : List Char} (h : freed s = freed t) :
    SameButBlanks s t := by
  induction s generalizing t with
  | nil =>
    have hblank : ∀ c ∈ t, isBlank c = true := by
      simpa [freed, List.filter_eq_nil_iff] using h.symm
    rw [← List.append_nil t]
    exact SameButBlanks.nil.behind hblank
  | cons c s ih =>
    by_cases hc : isBlank c = true
    · rw [freed_cons_of_blank hc] at h
      exact .left hc (ih h)
    · -- the other text has the character as well, with blanks before it
      rw [freed_cons hc] at h
      obtain ⟨blanks, rest, rfl, hblanks, -, hrest⟩ := List.filter_eq_cons_iff.mp h.symm
      refine ((ih hrest.symm).same c).behind fun b hb => ?_
      simpa using hblanks b hb

/-- **Texts differ in blanks only if they are one text without them, and only then.** -/
theorem sameButBlanks_iff {s t : List Char} : SameButBlanks s t ↔ freed s = freed t :=
  ⟨SameButBlanks.freed_eq, sameButBlanks_of_freed_eq⟩

instance (s t : List Char) : Decidable (SameButBlanks s t) :=
  decidable_of_iff _ sameButBlanks_iff.symm

end Text
end TypeAtlas
