import TypeAtlas.Text.Search
import Mathlib.Data.List.Infix

/-! # Occurrences in joined texts

Texts that are joined keep their occurrences, and a text without the separator occurs
in the whole only where it occurs in a part: an occurrence that reached from one part
into the next would have to hold the separator.
-/
namespace TypeAtlas
namespace Text

/-- What has no separator does not stand across one. -/
theorem infix_append_cons_iff {sep : Char} {pat : List Char} (h : sep ∉ pat) (x y : List Char) :
    pat <:+: x ++ sep :: y ↔ pat <:+: x ∨ pat <:+: y := by
  constructor
  · rintro ⟨u, v, huv⟩
    rcases List.append_eq_append_iff.mp huv with ⟨w, hx, -⟩ | ⟨w, hup, hsep⟩
    · exact Or.inl ⟨u, w, hx.symm⟩
    · cases w with
      | nil => exact Or.inl ⟨u, [], by simpa using hup⟩
      | cons c w =>
        obtain ⟨rfl, rfl⟩ := List.cons_eq_cons.mp hsep
        -- the separator stands in front of the occurrence or in it
        rcases List.append_eq_append_iff.mp hup with ⟨z, -, hz⟩ | ⟨z, -, hz⟩
        · exact absurd (hz ▸ by simp) h
        · cases z with
          | nil =>
            rw [List.nil_append] at hz
            exact absurd (hz ▸ List.mem_cons_self) h
          | cons d z =>
            obtain ⟨-, rfl⟩ := List.cons_eq_cons.mp hz
            exact Or.inr ⟨z, v, rfl⟩
  · rintro (hx | hy)
    · exact hx.trans (List.prefix_append x _).isInfix
    · exact hy.trans ((List.suffix_cons sep y).trans (List.suffix_append x _)).isInfix

theorem mem_join {sep : String} {ss : List String} {c : Char} (h : c ∈ (join sep ss).toList) :
    c ∈ sep.toList ∨ ∃ s ∈ ss, c ∈ s.toList := by
  fun_induction join sep ss with
  | case1 => exact absurd h List.not_mem_nil
  | case2 s => exact Or.inr ⟨s, List.mem_cons_self, h⟩
  | case3 s rest hne ih =>
    rw [String.toList_append, String.toList_append, List.mem_append, List.mem_append] at h
    rcases h with (h | h) | h
    · exact Or.inr ⟨s, List.mem_cons_self, h⟩
    · exact Or.inl h
    · exact (ih h).imp_right fun ⟨t, ht, hc⟩ => ⟨t, List.mem_cons_of_mem s ht, hc⟩

/-- A part occurs in the whole. -/
theorem infix_join_of_mem {sep s : String} {ss : List String} (h : s ∈ ss) :
    s.toList <:+: (join sep ss).toList := by
  fun_induction join sep ss with
  | case1 => exact absurd h List.not_mem_nil
  | case2 t =>
    obtain rfl := List.mem_singleton.mp h
    exact List.infix_rfl
  | case3 t rest hne ih =>
    rw [String.toList_append, String.toList_append]
    rcases List.mem_cons.mp h with rfl | h
    · exact ((List.prefix_append _ _).trans (List.prefix_append _ _)).isInfix
    · exact (ih h).trans (List.suffix_append _ _).isInfix

/-- **Joining creates no occurrence and destroys none** of a text without the separator. -/
theorem infix_join_iff {sep : Char} {pat : List Char} (h : sep ∉ pat) {ss : List String}
    (hne : ss ≠ []) :
    pat <:+: (join (String.singleton sep) ss).toList ↔ ∃ s ∈ ss, pat <:+: s.toList := by
  fun_induction join (String.singleton sep) ss with
  | case1 => exact absurd rfl hne
  | case2 s => simp
  | case3 s rest hrest ih =>
    rw [String.toList_append, String.toList_append, String.toList_singleton, List.append_assoc,
      List.singleton_append, infix_append_cons_iff h, ih hrest]
    simp

end Text
end TypeAtlas
