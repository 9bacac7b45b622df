import TypeAtlas.Source.Reading
import Mathlib.Data.List.TakeWhile
import Mathlib.Tactic.Set

/-! # Words have no dots and no slashes

A word of a source text is made of characters that may stand in names, in C# also of
escaped ones and a mark in front.  None of them is a dot or a slash
(`Language.plain_of_mem_tokens`), so a type that is named by a word has a name that can be
one step of a path.
-/
namespace TypeAtlas
namespace Source

/-- The characters have neither a dot nor a slash among them. -/
def Plain (cs : List Char) : Prop :=
  '.' ∉ cs ∧ '/' ∉ cs

theorem Plain.append {xs ys : List Char} (hx : Plain xs) (hy : Plain ys) : Plain (xs ++ ys) :=
  ⟨List.not_mem_append hx.1 hy.1, List.not_mem_append hx.2 hy.2⟩

theorem plain_nil : Plain [] :=
  ⟨List.not_mem_nil, List.not_mem_nil⟩

theorem plain_of_all {p : Char → Bool} (hdot : p '.' = false) (hslash : p '/' = false)
    {cs : List Char} (h : ∀ c ∈ cs, p c = true) : Plain cs := by
  constructor
  · intro hc
    rw [h _ hc] at hdot
    cases hdot
  · intro hc
    rw [h _ hc] at hslash
    cases hslash

/-- A run of characters that pass a test. -/
theorem plain_take_runLength {p : Char → Bool} (hdot : p '.' = false) (hslash : p '/' = false)
    (cs : List Char) : Plain (cs.take (Lexeme.runLength p cs)) := by
  have htake : cs.take (Lexeme.runLength p cs) = cs.takeWhile p :=
    (List.prefix_iff_eq_take.mp (List.takeWhile_prefix p)).symm
  rw [htake]
  exact plain_of_all hdot hslash fun c hc => List.mem_takeWhile_imp hc

/-- What is taken in two steps. -/
theorem plain_take_add {m n : Nat} {cs : List Char} (hm : Plain (cs.take m))
    (hn : Plain ((cs.drop m).take n)) : Plain (cs.take (m + n)) := by
  rw [List.take_add]
  exact hm.append hn

/-- What a text begins with is no word, or it takes plain characters, at least one. -/
def PlainWord (cs : List Char) (lx : Lexeme) : Prop :=
  lx.cls = some .word → lx.length ≠ 0 ∧ Plain (cs.take lx.length)

theorem PlainWord.ite {cs : List Char} {p : Prop} [Decidable p] {x y : Lexeme}
    (hx : p → PlainWord cs x) (hy : ¬ p → PlainWord cs y) : PlainWord cs (if p then x else y) := by
  by_cases h : p
  · rw [if_pos h]
    exact hx h
  · rw [if_neg h]
    exact hy h

/-! ### C# -/

namespace CSharp

theorem plain_hex {cs : List Char} {n : Nat}
    (h : (Lexeme.runLength (Lexeme.isDigitOf 16) (cs.take n) == n) = true) :
    Plain (cs.take n) := by
  have hplain := plain_take_runLength (p := Lexeme.isDigitOf 16) (by decide) (by decide) (cs.take n)
  rwa [beq_iff_eq.mp h, List.take_take, Nat.min_self] at hplain

/-- An escaped character of a name is a backslash, a letter and digits. -/
theorem plain_take_nameEscapeLength (cs : List Char) : Plain (cs.take (nameEscapeLength cs)) := by
  unfold nameEscapeLength
  split
  · split_ifs with h
    · have hfront : Plain ['\\', 'u'] := ⟨by decide, by decide⟩
      exact hfront.append (plain_hex h)
    · exact plain_nil
  · split_ifs with h
    · have hfront : Plain ['\\', 'U'] := ⟨by decide, by decide⟩
      exact hfront.append (plain_hex h)
    · exact plain_nil
  · exact plain_nil

theorem plain_take_wordRest (n : Nat) (cs : List Char) : Plain (cs.take (wordRest n cs)) := by
  induction n generalizing cs with
  | zero => exact plain_nil
  | succ n ih =>
    cases cs with
    | nil => exact plain_nil
    | cons c cs =>
      rw [wordRest]
      split_ifs with hname
      · refine plain_take_add ?_ (ih cs)
        exact plain_of_all (by decide) (by decide) fun d hd =>
          (List.mem_singleton.mp hd) ▸ hname
      · simp only
        split_ifs
        · exact plain_nil
        · exact plain_take_add (plain_take_nameEscapeLength _) (ih _)

theorem plain_take_wordLength (cs : List Char) : Plain (cs.take (wordLength cs)) := by
  unfold wordLength
  extract_lets mark body
  have hdrop : body = cs.drop mark := rfl
  have hfront : Plain (cs.take mark) := by
    have hat : Plain ['@'] := ⟨by decide, by decide⟩
    unfold mark
    split
    · exact hat
    · exact plain_nil
  clear_value body mark
  subst hdrop
  simp only
  split
  · rename_i c rest hbody
    split_ifs with hstart hfirst hfirst
    · exact plain_nil
    · refine plain_take_add (plain_take_add hfront ?_) ?_
      · rw [hbody]
        exact plain_of_all (by decide) (by decide) fun d hd =>
          (List.mem_singleton.mp hd) ▸ hstart
      · rw [← List.drop_drop]
        exact plain_take_wordRest _ _
    · exact plain_nil
    · refine plain_take_add (plain_take_add hfront (plain_take_nameEscapeLength _)) ?_
      rw [← List.drop_drop]
      exact plain_take_wordRest _ _
  · exact plain_nil

theorem plainWord_literalLexeme (modes : List Mode) (cs : List Char) (opening : Nat)
    (length? : List Char → Option Nat) : PlainWord cs (literalLexeme modes cs opening length?) := by
  unfold PlainWord literalLexeme
  split <;> exact nofun

theorem plainWord_directiveLexeme (modes : List Mode) (cs : List Char) :
    PlainWord cs (directiveLexeme modes cs) := by
  unfold PlainWord directiveLexeme
  simp only
  split_ifs <;> exact nofun

theorem plainWord_textLexeme (style : TextStyle) (outer : List Mode) (cs : List Char) :
    PlainWord cs (textLexeme style outer cs) := by
  unfold PlainWord textLexeme
  simp only
  split
  · exact nofun
  · split_ifs <;> exact nofun

theorem plainWord_tokenLexeme (modes : List Mode) (c : Char) (rest : List Char) :
    PlainWord (c :: rest) (tokenLexeme modes c rest) := by
  unfold tokenLexeme
  refine .ite (fun _ => plainWord_literalLexeme _ _ _ _) fun _ => ?_
  refine .ite (fun _ => plainWord_literalLexeme _ _ _ _) fun _ => ?_
  refine .ite (fun _ => plainWord_literalLexeme _ _ _ _) fun _ => .ite (fun _ => ?_) fun _ => ?_
  · split <;> exact nofun
  · split
    · exact nofun
    · refine .ite (fun hword _ => ⟨?_, plain_take_wordLength _⟩) fun _ => .ite nofun fun _ => ?_
      · exact bne_iff_ne.mp hword
      · split <;> exact nofun

theorem plainWord_codeLexeme (modes : List Mode) (cs : List Char) :
    PlainWord cs (codeLexeme modes cs) := by
  unfold codeLexeme
  split
  · exact nofun
  · refine .ite nofun fun _ => .ite nofun fun _ => .ite (fun _ => ?_) fun _ => ?_
    · split <;> exact nofun
    · exact .ite (fun _ => plainWord_directiveLexeme _ _) fun _ => plainWord_tokenLexeme _ _ _

theorem plainWord_lexeme (modes : List Mode) (cs : List Char) : PlainWord cs (lexeme modes cs) := by
  unfold lexeme
  split
  · exact plainWord_codeLexeme _ _
  · exact plainWord_textLexeme _ _ _
  · split_ifs
    · exact nofun
    · exact nofun
    · exact plainWord_codeLexeme _ _

end CSharp

/-! ### Java -/

namespace Java

theorem plainWord_wordLexeme (modes : List Mode) {c : Char} (hc : isWordPart c = true)
    (rest : List Char) : PlainWord (c :: rest) (wordLexeme modes (c :: rest)) := by
  have hrun : Plain ((c :: rest).take (Lexeme.runLength isWordPart (c :: rest))) :=
    plain_take_runLength (by decide) (by decide) _
  have hne : Lexeme.runLength isWordPart (c :: rest) ≠ 0 := by
    rw [Lexeme.runLength, List.takeWhile_cons_of_pos hc]
    exact Nat.succ_ne_zero _
  intro _
  unfold wordLexeme
  simp only
  split_ifs with h
  · refine ⟨by simp only; omega, plain_take_add hrun ?_⟩
    obtain ⟨-, hsealed⟩ := Bool.and_eq_true_iff.mp h
    obtain ⟨more, hmore⟩ := List.isPrefixOf_iff_prefix.mp hsealed
    have hplain : Plain "-sealed".toList := ⟨by decide, by decide⟩
    rw [← hmore]
    exact hplain
  · exact ⟨hne, hrun⟩

theorem isWordPart_of_isWordStart {c : Char} (h : isWordStart c = true) : isWordPart c = true := by
  simp only [isWordStart, isWordPart, Text.isNameStart, Text.isNameContinue, Bool.or_eq_true,
    beq_iff_eq] at h ⊢
  rcases h with (rfl | rfl) | h
  · exact Or.inr (by decide)
  · exact Or.inl (Or.inl rfl)
  · right
    split_ifs at h ⊢
    · rw [Char.isAlphanum, h]
      rfl
    · rw [h]
      rfl

theorem plainWord_codeLexeme (modes : List Mode) (cs : List Char) :
    PlainWord cs (codeLexeme modes cs) := by
  unfold codeLexeme
  split
  · exact nofun
  · refine .ite nofun fun _ => .ite (fun hstart => ?_) fun _ => .ite nofun fun _ => ?_
    · exact plainWord_wordLexeme modes (isWordPart_of_isWordStart hstart) _
    · refine .ite nofun fun _ => .ite (fun _ => ?_) fun _ => .ite nofun fun _ => ?_
      · split <;> exact nofun
      · refine .ite nofun fun _ => .ite (fun _ => ?_) fun _ => .ite nofun fun _ => ?_
        · split
          · intro h
            simp only [Option.some.injEq] at h
            split_ifs at h
          · exact nofun
        · split <;> exact nofun

theorem plainWord_textLexeme (style : TextStyle) (outer : List Mode) (cs : List Char) :
    PlainWord cs (textLexeme style outer cs) := by
  unfold textLexeme
  simp only
  split
  · exact nofun
  · exact nofun
  · exact nofun
  · split_ifs <;> exact nofun
  · split_ifs <;> exact nofun
  · exact nofun

theorem plainWord_lexeme (modes : List Mode) (cs : List Char) : PlainWord cs (lexeme modes cs) := by
  unfold lexeme
  split
  · exact plainWord_codeLexeme _ _
  · exact plainWord_textLexeme _ _ _
  · split
    · exact nofun
    · exact plainWord_codeLexeme _ _

end Java

/-! ### Tokens -/

/-- Words among tokens take plain characters of the text, at least one. -/
theorem Lexeme.plain_of_mem_tokensFrom {next : List Mode → List Char → Lexeme}
    (hnext : ∀ modes cs, PlainWord cs (next modes cs)) (source : List Char) (n : Nat) :
    ∀ {pos : Nat} {touching : Bool} {modes : List Mode} {cs : List Char} {t : Token},
      source.drop pos = cs → t ∈ tokensFrom next n pos touching modes cs → t.cls = .word →
        (source.drop t.start).take (t.stop - t.start) ≠ [] ∧
          Plain ((source.drop t.start).take (t.stop - t.start)) := by
  induction n with
  | zero => exact fun _ ht => absurd ht List.not_mem_nil
  | succ n ih =>
    intro pos touching modes cs t hcs ht hword
    cases cs with
    | nil => exact absurd ht List.not_mem_nil
    | cons c cs =>
      rw [tokensFrom] at ht
      set lx := next modes (c :: cs) with hlx
      set taken := (c :: cs).take (max 1 lx.length) with htaken
      -- what is left begins behind what was taken
      have hrest : source.drop (pos + taken.length) = (c :: cs).drop taken.length := by
        rw [← List.drop_drop, hcs]
      split at ht
      · exact ih hrest ht hword
      · rename_i cls hcls
        rcases List.mem_cons.mp ht with rfl | ht
        · obtain ⟨hne, hplain⟩ := hnext modes (c :: cs) (hcls.trans (congrArg some hword))
          have hspan : (source.drop pos).take (pos + taken.length - pos) = taken := by
            rw [hcs, Nat.add_sub_cancel_left]
            exact (List.prefix_iff_eq_take.mp (List.take_prefix _ _)).symm
          simp only [hspan]
          have hmax : max 1 lx.length = lx.length :=
            Nat.max_eq_right (Nat.one_le_iff_ne_zero.mpr hne)
          refine ⟨?_, ?_⟩
          · rw [htaken, hmax]
            exact fun hnil => (List.take_eq_nil_iff.mp hnil).elim hne (List.cons_ne_nil c cs)
          · rw [htaken, hmax]
            exact hplain
        · exact ih hrest ht hword

/-- **Words are plain**, whatever the text. -/
theorem Language.plain_of_mem_tokens (l : Language) {cs : List Char} {t : Token}
    (ht : t ∈ l.tokens cs) (hword : t.cls = .word) :
    (cs.drop t.start).take (t.stop - t.start) ≠ [] ∧
      Plain ((cs.drop t.start).take (t.stop - t.start)) := by
  cases l with
  | csharp => exact Lexeme.plain_of_mem_tokensFrom CSharp.plainWord_lexeme cs _ rfl ht hword
  | java => exact Lexeme.plain_of_mem_tokensFrom Java.plainWord_lexeme cs _ rfl ht hword

end Source
end TypeAtlas
