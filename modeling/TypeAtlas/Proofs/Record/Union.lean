import TypeAtlas.Record.Basic
import Mathlib.Data.List.Induction
import Mathlib.Data.List.Nodup

/-! # Taking the parts of a type together

`union` takes the entries of a second list into a first one, one at a time, and passes over
those that are already there.  So the first list stays in front, and what comes behind it is
fixed by three properties (`Arrivals`): it has the entries that the first list lacks, each
once, in the order in which they first stand in the second list.

Whether an entry is passed over depends on all that was taken in before, but not on how it
came in.  Two lists may therefore be united before they are taken in (`union_assoc`), and two
parts of a type may be merged before they are absorbed (`TypeRecord.absorb_orderly`).
-/
namespace TypeAtlas

/-! ### Lists -/

theorem union_concat (own other : List String) (x : String) :
    union own (other ++ [x]) =
      if x ∈ union own other then union own other else union own other ++ [x] := by
  rw [union, List.foldl_append]
  rfl

theorem mem_union {own other : List String} {x : String} :
    x ∈ union own other ↔ x ∈ own ∨ x ∈ other := by
  induction other using List.reverseRecOn with
  | nil => simp [union]
  | append_singleton other y ih =>
    rw [union_concat, List.mem_append, List.mem_singleton, ← or_assoc, ← ih]
    split
    · rename_i hy
      refine ⟨Or.inl, fun h => h.elim id fun he => ?_⟩
      rwa [he]
    · rw [List.mem_append, List.mem_singleton]

/-- **Lists may be united before they are taken in.** -/
theorem union_assoc (own mid other : List String) :
    union (union own mid) other = union own (union mid other) := by
  induction other using List.reverseRecOn with
  | nil => rfl
  | append_singleton other x ih =>
    rw [union_concat, union_concat mid]
    by_cases hx : x ∈ union mid other
    · -- an entry that is passed over in the middle is there on the left as well
      have hleft : x ∈ union (union own mid) other := by
        rw [ih, mem_union]
        exact Or.inr hx
      rw [if_pos hx, if_pos hleft, ih]
    · rw [if_neg hx, union_concat, ih]

/-- What comes behind a list when another one is taken in: the entries that are new, each once, in
the order in which they first stand in the other list. -/
structure Arrivals (own other fresh : List String) : Prop where
  nodup : fresh.Nodup
  mem_iff : ∀ x, x ∈ fresh ↔ x ∈ other ∧ x ∉ own
  ordered : fresh.Pairwise fun x y => other.idxOf x < other.idxOf y

theorem Arrivals.nil (own : List String) : Arrivals own [] [] :=
  ⟨List.nodup_nil, by simp, List.Pairwise.nil⟩

section
variable {own other fresh : List String} (h : Arrivals own other fresh) {x : String}
include h

/-- The places of arrivals do not change if the list goes on. -/
theorem Arrivals.ordered_concat :
    fresh.Pairwise fun y z => (other ++ [x]).idxOf y < (other ++ [x]).idxOf z := by
  refine h.ordered.imp_of_mem fun hy hz hlt => ?_
  rwa [List.idxOf_append_of_mem ((h.mem_iff _).mp hy).1,
    List.idxOf_append_of_mem ((h.mem_iff _).mp hz).1]

theorem Arrivals.concat_of_known (hx : x ∈ own ∨ x ∈ other) :
    Arrivals own (other ++ [x]) fresh where
  nodup := h.nodup
  mem_iff y := by
    rw [h.mem_iff, List.mem_append, List.mem_singleton]
    constructor
    · exact fun hy => ⟨Or.inl hy.1, hy.2⟩
    · rintro ⟨hy | rfl, hown⟩
      · exact ⟨hy, hown⟩
      · exact ⟨hx.resolve_left hown, hown⟩
  ordered := h.ordered_concat

theorem Arrivals.concat_of_new (hown : x ∉ own) (hother : x ∉ other) :
    Arrivals own (other ++ [x]) (fresh ++ [x]) where
  nodup := by
    refine List.nodup_append.mpr ⟨h.nodup, List.nodup_singleton x, fun y hy z hz he => ?_⟩
    rw [List.mem_singleton] at hz
    exact hother (hz ▸ he ▸ ((h.mem_iff y).mp hy).1)
  mem_iff y := by
    rw [List.mem_append, List.mem_append, List.mem_singleton, h.mem_iff]
    constructor
    · rintro (hy | rfl)
      · exact ⟨Or.inl hy.1, hy.2⟩
      · exact ⟨Or.inr rfl, hown⟩
    · rintro ⟨hy | rfl, hyown⟩
      · exact Or.inl ⟨hy, hyown⟩
      · exact Or.inr rfl
  ordered := by
    refine List.pairwise_append.mpr ⟨h.ordered_concat, List.pairwise_singleton _ _, ?_⟩
    intro y hy z hz
    obtain rfl := List.mem_singleton.mp hz
    -- the new entry stands behind all that came before
    have hplace : (other ++ [z]).idxOf z = other.length := by
      rw [List.idxOf_append_of_notMem hother, List.idxOf_cons_self, Nat.add_zero]
    have hmem := ((h.mem_iff y).mp hy).1
    rw [hplace, List.idxOf_append_of_mem hmem]
    exact List.idxOf_lt_length_of_mem hmem

end

/-- **Taking a list in leaves the first one in front and puts the arrivals behind it.** -/
theorem exists_arrivals (own other : List String) :
    ∃ fresh, union own other = own ++ fresh ∧ Arrivals own other fresh := by
  induction other using List.reverseRecOn with
  | nil => exact ⟨[], (List.append_nil own).symm, .nil own⟩
  | append_singleton other x ih =>
    obtain ⟨fresh, hunion, h⟩ := ih
    rw [union_concat]
    split
    · rename_i hx
      exact ⟨fresh, hunion, h.concat_of_known (mem_union.mp hx)⟩
    · rename_i hx
      rw [mem_union, not_or] at hx
      exact ⟨fresh ++ [x], by rw [hunion, List.append_assoc], h.concat_of_new hx.1 hx.2⟩

namespace TypeRecord

/-! ### Base lists -/

/-- There is a base list as soon as one part has one. -/
theorem isSome_mergedBases (own other : Option (List String)) :
    (mergedBases own other).isSome = (own.isSome || other.isSome) := by
  cases other with
  | none => exact (Bool.or_false _).symm
  | some bases => exact (Bool.or_true _).symm

theorem mergedBases_eq_none_iff {own other : Option (List String)} :
    mergedBases own other = none ↔ own = none ∧ other = none := by
  cases other <;> simp [mergedBases]

/-- A missing base list counts as an empty one. -/
theorem getD_mergedBases (own other : Option (List String)) :
    (mergedBases own other).getD [] = union (own.getD []) (other.getD []) := by
  cases other <;> rfl

theorem mergedBases_assoc (own mid other : Option (List String)) :
    mergedBases (mergedBases own mid) other = mergedBases own (mergedBases mid other) := by
  cases other with
  | none => rfl
  | some bases =>
    have hleft := getD_mergedBases own mid
    change some (union ((mergedBases own mid).getD []) bases) =
      some (union (own.getD []) (union (mid.getD []) bases))
    rw [hleft, union_assoc]

/-! ### Records -/

theorem baseNames_absorb (a b : TypeRecord) :
    (a.absorb b).baseNames = union a.baseNames b.baseNames :=
  getD_mergedBases a.bases b.bases

theorem absorb_assoc (a b c : TypeRecord) : (a.absorb b).absorb c = a.absorb (b.absorb c) := by
  simp only [absorb, union_assoc, mergedBases_assoc, isSome_mergedBases, List.append_assoc,
    Bool.or_assoc]

/-- **Absorbing is an associative union in order.**  It does not matter whether two parts are
absorbed one after the other or merged first.  The imports of the first part stay in front,
with the new ones of the other part behind them, and so do the bases; a base list is missing
only if both parts have none.  What the type is and where it was found is as in the first part. -/
theorem absorb_orderly (a b c : TypeRecord) :
    (a.absorb b).absorb c = a.absorb (b.absorb c) ∧
      (∃ fresh, (a.absorb b).imports = a.imports ++ fresh ∧
        Arrivals a.imports b.imports fresh) ∧
      (∃ fresh, (a.absorb b).baseNames = a.baseNames ++ fresh ∧
        Arrivals a.baseNames b.baseNames fresh) ∧
      ((a.absorb b).bases = none ↔ a.bases = none ∧ b.bases = none) ∧
      (a.absorb b).kind = a.kind ∧ (a.absorb b).name = a.name ∧ (a.absorb b).scope = a.scope ∧
      (a.absorb b).fileName = a.fileName ∧ (a.absorb b).filePath = a.filePath := by
  refine ⟨absorb_assoc a b c, exists_arrivals a.imports b.imports, ?_, mergedBases_eq_none_iff,
    rfl, rfl, rfl, rfl, rfl⟩
  rw [baseNames_absorb]
  exact exists_arrivals a.baseNames b.baseNames

end TypeRecord
end TypeAtlas
