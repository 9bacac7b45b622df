import TypeAtlas.Proofs.Files.Parents
import TypeAtlas.Proofs.Text.ByteOrder
import Mathlib.Data.List.Sort
import Mathlib.Data.List.Lex
import Mathlib.Data.Prod.Lex

/-! # Paths in order

Paths are compared component by component (`Path.le`).  A component has a place in a
linear order (`Component.key`), so the order of paths is the one of the lists of these
(`Path.le_iff`); two paths that are equal in it have the same components.  Below one base
the components tell the names, and hence the path (`Path.components_joinAll`), and the order
is that of the bytes of the names (`Path.bytes_lt_of_le`).

A list in which no path is repeated has therefore only one rising order, and sorting
forgets in which order the paths were found (`Path.mergeSort_eq_of_perm`).
-/
namespace TypeAtlas

/-! ### Components of joined paths -/

namespace Path

/-- The components of a path by its written pieces. -/
def componentsOf (ps : List (List Char)) : List Component :=
  match ps with
  | [] => []
  | first :: rest =>
    (if first == [] then (if rest == [] then [] else [.root]) else [componentOf first]) ++
      restComponents rest

theorem components_eq (p : String) : components p = componentsOf (written p) :=
  rfl

theorem restComponents_append (ps qs : List (List Char)) :
    restComponents (ps ++ qs) = restComponents ps ++ restComponents qs := by
  rw [restComponents, List.filter_append, List.map_append]
  rfl

/-- An empty piece at the end and a name in its place. -/
theorem componentsOf_append_name {ps : List (List Char)} (hne : ps ≠ []) {name : List Char}
    (hname : isIdle name = false) :
    componentsOf (ps ++ [name]) = componentsOf (ps ++ [[]]) ++ [componentOf name] := by
  obtain ⟨first, rest, rfl⟩ := List.exists_cons_of_ne_nil hne
  have hlast : restComponents [name] = [componentOf name] := by
    rw [restComponents, List.filter_cons_of_pos (by rw [hname]; rfl)]
    rfl
  have hempty : restComponents [[]] = [] := rfl
  simp only [List.cons_append, componentsOf, restComponents_append, hlast, hempty,
    List.append_nil, List.append_assoc]
  simp

/-- An empty piece at the end does not count. -/
theorem componentsOf_append_empty {ps : List (List Char)} (hne : ps ≠ []) (hps : ps ≠ [[]]) :
    componentsOf (ps ++ [[]]) = componentsOf ps := by
  obtain ⟨first, rest, rfl⟩ := List.exists_cons_of_ne_nil hne
  have hempty : restComponents [[]] = [] := rfl
  simp only [List.cons_append, componentsOf, restComponents_append, hempty, List.append_nil]
  by_cases hfirst : first = []
  · have hrest : rest ≠ [] := by
      rintro rfl
      exact hps (by rw [hfirst])
    simp [hfirst, hrest]
  · simp [hfirst]

theorem components_join (base : String) {name : String} (h : IsName name) :
    components (join base name) = components base ++ [.name name.toList] := by
  have hrel := isAbsolute_eq_false_iff.mp (isAbsolute_of_no_slash h.no_slash)
  have hname : Text.splitAtChar '/' name.toList = [name.toList] :=
    Text.splitAtChar_of_not_mem h.no_slash
  obtain ⟨hne, hhere⟩ : name.toList ≠ [] ∧ name.toList ≠ ['.'] :=
    ⟨fun he => h.ne_empty (String.toList_eq_nil_iff.mp he),
      fun he => h.ne_here (String.toList_injective he)⟩
  have hup : name.toList ≠ ['.', '.'] := fun he => h.ne_up (String.toList_injective he)
  have hidle : isIdle name.toList = false := by simp [isIdle, hne, hhere]
  have hcomponent : componentOf name.toList = .name name.toList := by
    simp [componentOf, hup, hhere]
  rw [components_eq, components_eq, ← hcomponent]
  by_cases hempty : base.toList = []
  · obtain rfl := String.toList_eq_nil_iff.mp hempty
    have hwritten : written (join "" name) = [name.toList] := by
      rw [written, join, String.toList_ofList, joinChars, if_neg hrel, if_pos (Or.inl hempty),
        hempty, List.nil_append, hname]
    rw [hwritten]
    simp [componentsOf, restComponents, hne, written, Text.splitAtChar]
  · by_cases hslash : base.toList.getLast? = some '/'
    · obtain ⟨front, hfront⟩ := List.getLast?_eq_some_iff.mp hslash
      have hbase : written base = Text.splitAtChar '/' front ++ [[]] := by
        rw [written, hfront, Text.splitAtChar_append]
        rfl
      have hwritten : written (join base name) = Text.splitAtChar '/' front ++ [name.toList] := by
        rw [written, join, String.toList_ofList, joinChars, if_neg hrel, if_pos (Or.inr hslash),
          hfront, List.append_assoc, List.singleton_append, Text.splitAtChar_append, hname]
      rw [hwritten, hbase]
      exact componentsOf_append_name (Text.splitAtChar_ne_nil '/' front) hidle
    · have hwritten : written (join base name) = written base ++ [name.toList] := by
        rw [written, join, String.toList_ofList, joinChars, if_neg hrel, if_neg (by tauto),
          Text.splitAtChar_append, hname]
        rfl
      have hbase : written base ≠ [[]] := fun he =>
        hempty (String.toList_eq_nil_iff.mpr (eq_empty_of_written he))
      rw [hwritten, componentsOf_append_name (written_ne_nil base) hidle,
        componentsOf_append_empty (written_ne_nil base) hbase]

theorem joinAll_concat (base : String) (front : List String) (last : String) :
    joinAll base (front ++ [last]) = join (joinAll base front) last := by
  rw [joinAll, List.foldl_append]
  rfl

/-- The names behind a base are the last components. -/
theorem components_joinAll (base : String) {names : List String} (h : ∀ n ∈ names, IsName n) :
    components (joinAll base names) =
      components base ++ names.map fun n => .name n.toList := by
  induction names generalizing base with
  | nil => simp [joinAll]
  | cons n names ih =>
    obtain ⟨hn, hnames⟩ := List.forall_mem_cons.mp h
    rw [joinAll, List.foldl_cons, ← joinAll, ih (join base n) hnames, components_join base hn,
      List.map_cons, List.append_assoc, List.singleton_append]

/-! ### The order -/

/-- The place of a component in the order. -/
def key : Component → ℕ ×ₗ List Char
  | .name s => toLex (3, s)
  | c => toLex (rank c, [])

theorem key_injective : Function.Injective key := by
  intro a b h
  cases a <;> cases b <;> simp_all [key, rank]

theorem compareComponent_eq_lt_iff {a b : Component} :
    compareComponent a b = .lt ↔ key a < key b := by
  cases a <;> cases b <;>
    simp [compareComponent, key, rank, Prod.Lex.toLex_lt_toLex, compareChars_eq_lt_iff,
      Nat.compare_eq_lt]

theorem compareComponent_eq_eq_iff {a b : Component} : compareComponent a b = .eq ↔ a = b := by
  cases a <;> cases b <;> simp [compareComponent, rank, compareChars_eq_eq_iff]

theorem compareComponents_eq_gt_iff {as bs : List Component} :
    compareComponents as bs = .gt ↔ bs.map key < as.map key := by
  induction as generalizing bs with
  | nil => cases bs <;> simp [compareComponents]
  | cons a as ih =>
    cases bs with
    | nil => simp [compareComponents]
    | cons b bs =>
      rw [compareComponents, List.map_cons, List.map_cons, List.cons_lt_cons_iff, ← ih]
      cases hc : compareComponent a b with
      | lt =>
        have hlt := compareComponent_eq_lt_iff.mp hc
        simp [hlt.not_gt, hlt.ne']
      | eq =>
        obtain rfl := compareComponent_eq_eq_iff.mp hc
        simp
      | gt =>
        have hgt : key b < key a := by
          rcases lt_trichotomy (key a) (key b) with hlt | he | hgt
          · rw [compareComponent_eq_lt_iff.mpr hlt] at hc
            cases hc
          · rw [compareComponent_eq_eq_iff.mpr (key_injective he)] at hc
            cases hc
          · exact hgt
        simp [hgt]

/-- **Paths are in the order of the keys of their components.** -/
theorem le_iff {p q : String} :
    le p q = true ↔ (components p).map key ≤ (components q).map key := by
  rw [← not_lt, ← compareComponents_eq_gt_iff, le]
  cases compareComponents (components p) (components q) <;> simp

theorem components_eq_of_le {p q : String} (hpq : le p q = true) (hqp : le q p = true) :
    components p = components q :=
  List.map_injective_iff.mpr key_injective ((le_iff.mp hpq).antisymm (le_iff.mp hqp))

/-- Lists are in the same order by two measures of their members that agree on members. -/
theorem map_lt_map_iff {α β γ : Type*} [LT β] [LT γ] {f : α → β} {g : α → γ}
    (hf : Function.Injective f) (hg : Function.Injective g)
    (h : ∀ a b, f a < f b ↔ g a < g b) {as bs : List α} :
    as.map f < bs.map f ↔ as.map g < bs.map g := by
  induction as generalizing bs with
  | nil => cases bs <;> simp
  | cons a as ih =>
    cases bs with
    | nil => simp
    | cons b bs =>
      rw [List.map_cons, List.map_cons, List.map_cons, List.map_cons, List.cons_lt_cons_iff,
        List.cons_lt_cons_iff, h, ih, hf.eq_iff, hg.eq_iff]

/-- Below one base, paths are in the order of the bytes of their names. -/
theorem bytes_lt_of_le {base : String} {names names' : List String}
    (h : ∀ n ∈ names, IsName n) (h' : ∀ n ∈ names', IsName n)
    (hle : le (joinAll base names) (joinAll base names') = true) (hne : names ≠ names') :
    names.map Text.bytes < names'.map Text.bytes := by
  have hkey : Function.Injective fun n : String => key (.name n.toList) :=
    fun n m hnm => String.toList_injective (Component.name.inj (key_injective hnm))
  rw [le_iff, components_joinAll base h, components_joinAll base h', List.map_append,
    List.map_append, List.map_map, List.map_map] at hle
  have hlt := lt_of_le_of_ne hle fun he =>
    hne (List.map_injective_iff.mpr hkey (List.append_cancel_left he))
  rw [Text.append_lt_append_iff lt_irrefl] at hlt
  refine (map_lt_map_iff hkey Text.bytes_injective fun n m => ?_).mp hlt
  rw [Text.bytes_lt_iff, key, key, Prod.Lex.toLex_lt_toLex]
  simp

theorem pairwise_mergeSort (paths : List String) :
    (paths.mergeSort le).Pairwise fun p q => le p q = true := by
  refine List.pairwise_mergeSort (fun p q r hpq hqr => ?_) (fun p q => ?_) paths
  · exact le_iff.mpr ((le_iff.mp hpq).trans (le_iff.mp hqr))
  · rw [Bool.or_eq_true, le_iff, le_iff]
    exact le_total _ _

/-- **Sorting forgets the order in which paths were found**, if their components tell them
apart. -/
theorem mergeSort_eq_of_perm {ps qs : List String} (hperm : ps.Perm qs)
    (hinj : ∀ p ∈ ps, ∀ q ∈ ps, components p = components q → p = q) :
    ps.mergeSort le = qs.mergeSort le := by
  have hps := List.mergeSort_perm ps le
  have hqs := List.mergeSort_perm qs le
  refine List.Perm.eq_of_pairwise ?_ (pairwise_mergeSort ps) (pairwise_mergeSort qs)
    (hps.trans (hperm.trans hqs.symm))
  intro p q hp hq hpq hqp
  refine hinj p (hps.mem_iff.mp hp) q (hperm.mem_iff.mpr (hqs.mem_iff.mp hq)) ?_
  exact components_eq_of_le hpq hqp

end Path
end TypeAtlas
