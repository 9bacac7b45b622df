import TypeAtlas.Path
import Mathlib.Data.String.Basic

/-! # The order of names is the order of their bytes

`Path.compareChars` compares names character by character, by code point.  A
stored text is a sequence of UTF-8 bytes, and the order of names that a file
system or a byte-wise sort shows is the order of these bytes (`bytes`).  The two
orders are the same one (`bytes_lt_iff`): of two characters the smaller one has the
smaller encoding, whatever follows (`encode_append_lt`).
-/
namespace TypeAtlas

/-! ### Comparing characters -/

namespace Path

theorem compareChars_eq_lt_iff {s t : List Char} : compareChars s t = .lt ↔ s < t := by
  induction s generalizing t with
  | nil => cases t <;> simp [compareChars]
  | cons c s ih =>
    cases t with
    | nil => simp [compareChars]
    | cons d t =>
      rw [compareChars, List.cons_lt_cons_iff, ← ih, Char.lt_def, UInt32.lt_iff_toNat_lt,
        ← Char.val_inj, ← UInt32.toNat_inj]
      change _ ↔ c.toNat < d.toNat ∨ c.toNat = d.toNat ∧ _
      split_ifs with h1 h2
      · simp [h1]
      · simp [h1, Nat.ne_of_gt h2]
      · have he : c.toNat = d.toNat := by omega
        simp [he]

theorem compareChars_eq_eq_iff {s t : List Char} : compareChars s t = .eq ↔ s = t := by
  induction s generalizing t with
  | nil => cases t <;> simp [compareChars]
  | cons c s ih =>
    cases t with
    | nil => simp [compareChars]
    | cons d t =>
      rw [compareChars, List.cons.injEq, ← ih, ← Char.val_inj, ← UInt32.toNat_inj]
      change _ ↔ c.toNat = d.toNat ∧ _
      split_ifs with h1 h2
      · simp [Nat.ne_of_lt h1]
      · simp [Nat.ne_of_gt h2]
      · have he : c.toNat = d.toNat := by omega
        simp [he]

theorem compareChars_eq_gt_iff {s t : List Char} : compareChars s t = .gt ↔ t < s := by
  constructor
  · intro h
    rcases lt_trichotomy s t with hlt | he | hgt
    · rw [compareChars_eq_lt_iff.mpr hlt] at h
      cases h
    · rw [compareChars_eq_eq_iff.mpr he] at h
      cases h
    · exact hgt
  · intro h
    cases hc : compareChars s t with
    | lt => exact absurd h (lt_asymm (compareChars_eq_lt_iff.mp hc))
    | eq => exact absurd (compareChars_eq_eq_iff.mp hc).symm (ne_of_lt h)
    | gt => rfl

end Path

namespace Text

/-! ### Comparing bytes -/

/-- The bytes of a text in UTF-8. -/
def bytes (s : String) : List UInt8 :=
  s.toUTF8.data.toList

theorem bytes_eq_flatMap (s : String) : bytes s = s.toList.flatMap String.utf8EncodeChar := by
  have h : s.toUTF8 = (s.toList.flatMap String.utf8EncodeChar).toByteArray := by
    rw [String.toUTF8_eq_toByteArray, ← List.utf8Encode, ← String.toByteArray_ofList,
      String.ofList_toList]
  rw [bytes, h, List.data_toByteArray]

theorem ofNat_lt_ofNat_iff {a b : Nat} (ha : a < 256) (hb : b < 256) :
    UInt8.ofNat a < UInt8.ofNat b ↔ a < b := by
  rw [UInt8.lt_iff_toNat_lt, UInt8.toNat_ofNat', UInt8.toNat_ofNat', Nat.mod_eq_of_lt ha,
    Nat.mod_eq_of_lt hb]

theorem ofNat_eq_ofNat_iff {a b : Nat} (ha : a < 256) (hb : b < 256) :
    UInt8.ofNat a = UInt8.ofNat b ↔ a = b := by
  rw [← UInt8.toNat_inj, UInt8.toNat_ofNat', UInt8.toNat_ofNat', Nat.mod_eq_of_lt ha,
    Nat.mod_eq_of_lt hb]

/-- Numbers are compared by what stands above their last digit to base 64, then by
that digit: one continuation byte holds one digit. -/
theorem lt_iff_div_mod (a b : Nat) :
    a < b ↔ a / 64 < b / 64 ∨ a / 64 = b / 64 ∧ a % 64 < b % 64 := by
  omega

/-- **The encoding of a smaller character is smaller**, whatever follows either of
them: the first bytes tell encodings of different lengths apart, and encodings of
one length are the digits of the code points. -/
theorem encode_append_lt {c d : Char} (h : c < d) (u v : List UInt8) :
    String.utf8EncodeChar c ++ u < String.utf8EncodeChar d ++ v := by
  have hlt : c.val.toNat < d.val.toNat := h
  have hd : d.val.toNat < 1114112 := by
    rcases d.valid with h | h
    · exact h.trans (by decide)
    · exact h.2
  have h1 := (lt_iff_div_mod _ _).mp hlt
  have h2 := lt_iff_div_mod (c.val.toNat / 64) (d.val.toNat / 64)
  have h3 := lt_iff_div_mod (c.val.toNat / 4096) (d.val.toNat / 4096)
  rw [Nat.div_div_eq_div_mul, Nat.div_div_eq_div_mul] at h2 h3
  simp only [String.utf8EncodeChar]
  -- one case for each pair of lengths
  split_ifs <;>
    simp (disch := omega) only [List.cons_append, List.nil_append, List.cons_lt_cons_iff,
      ofNat_lt_ofNat_iff, ofNat_eq_ofNat_iff, Nat.add_lt_add_iff_right, Nat.add_right_cancel_iff,
      Nat.mod_eq_of_lt] <;>
    omega

theorem append_lt_append_iff {α : Type*} [LT α] (hirrefl : ∀ x : α, ¬ x < x) (p u v : List α) :
    p ++ u < p ++ v ↔ u < v := by
  induction p with
  | nil => rfl
  | cons x p ih =>
    rw [List.cons_append, List.cons_append, List.cons_lt_cons_iff, ih]
    simp only [hirrefl x, false_or, true_and]

theorem flatMap_encode_lt {s t : List Char} (h : s < t) :
    s.flatMap String.utf8EncodeChar < t.flatMap String.utf8EncodeChar := by
  induction s generalizing t with
  | nil =>
    cases t with
    | nil => exact absurd h (lt_irrefl _)
    | cons d t =>
      rw [List.flatMap_nil, List.flatMap_cons]
      cases he : String.utf8EncodeChar d with
      | nil => exact absurd he String.utf8EncodeChar_ne_nil
      | cons x u => exact List.nil_lt_cons x _
  | cons c s ih =>
    cases t with
    | nil => exact absurd h (List.not_lt_nil _)
    | cons d t =>
      rw [List.flatMap_cons, List.flatMap_cons]
      rcases List.cons_lt_cons_iff.mp h with hcd | ⟨rfl, hst⟩
      · exact encode_append_lt hcd _ _
      · exact (append_lt_append_iff UInt8.lt_irrefl _ _ _).mpr (ih hst)

theorem bytes_lt_iff {s t : String} : bytes s < bytes t ↔ s.toList < t.toList := by
  rw [bytes_eq_flatMap, bytes_eq_flatMap]
  refine ⟨fun h => ?_, flatMap_encode_lt⟩
  rcases lt_trichotomy s.toList t.toList with hlt | he | hgt
  · exact hlt
  · rw [he] at h
    exact absurd h (List.lt_irrefl _)
  · exact absurd h (List.lt_asymm (flatMap_encode_lt hgt))

theorem bytes_injective : Function.Injective bytes := by
  intro s t h
  have hnot : ∀ {u v : String}, bytes u = bytes v → ¬ u.toList < v.toList :=
    fun he hlt => List.lt_irrefl _ (he ▸ bytes_lt_iff.mpr hlt)
  exact String.toList_injective (le_antisymm (not_lt.mp (hnot h.symm)) (not_lt.mp (hnot h)))

end Text
end TypeAtlas
