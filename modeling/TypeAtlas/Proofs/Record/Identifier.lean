import TypeAtlas.Record.Basic
import Mathlib.Data.List.Basic

/-! # Identifiers

An identifier is a namespace, a dot and a name.  It tells types apart as well as the
pair of both does, provided names have no dot: then the last dot of an identifier is
the one that was put in.  With a dot in a name it need not, since `A.B` and `C` have
the identifier of `A` and `B.C`.
-/
namespace TypeAtlas

/-- The last place of a separator determines what stands on either side of it. -/
theorem eq_of_append_cons_eq {α : Type} {sep : α} {x y z w : List α} (hz : sep ∉ z) (hw : sep ∉ w)
    (h : x ++ sep :: z = y ++ sep :: w) : x = y ∧ z = w := by
  rcases List.append_eq_append_iff.mp h with ⟨c, rfl, hc⟩ | ⟨c, rfl, hc⟩
  · cases c with
    | nil => simpa using hc
    | cons a c =>
      obtain ⟨-, rfl⟩ := List.cons_eq_cons.mp hc
      exact absurd (List.mem_append_right c List.mem_cons_self) hz
  · cases c with
    | nil => simpa [eq_comm] using hc
    | cons a c =>
      obtain ⟨-, rfl⟩ := List.cons_eq_cons.mp hc
      exact absurd (List.mem_append_right c List.mem_cons_self) hw

namespace TypeRecord

theorem identifier_toList (r : TypeRecord) :
    r.identifier.toList = r.scope.toList ++ '.' :: r.name.toList := by
  rw [identifier, String.toList_append, String.toList_append, List.append_assoc]
  rfl

/-- Types whose names have no dot have one identifier iff they have one key. -/
theorem identifier_eq_iff {a b : TypeRecord} (ha : '.' ∉ a.name.toList)
    (hb : '.' ∉ b.name.toList) : a.identifier = b.identifier ↔ a.key = b.key := by
  constructor
  · intro h
    have hl := congrArg String.toList h
    rw [identifier_toList, identifier_toList] at hl
    obtain ⟨hscope, hname⟩ := eq_of_append_cons_eq ha hb hl
    exact Prod.ext (String.toList_inj.mp hscope) (String.toList_inj.mp hname)
  · intro h
    obtain ⟨hscope, hname⟩ := Prod.ext_iff.mp h
    change a.scope = b.scope at hscope
    change a.name = b.name at hname
    rw [identifier, identifier, hscope, hname]

end TypeRecord
end TypeAtlas
