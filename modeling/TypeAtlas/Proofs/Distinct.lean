import Mathlib.Data.List.Induction
import Mathlib.Data.List.Nodup

/-! # First occurrences

`List.eraseDups` keeps the first occurrence of every entry of a list, in the order of
the list.  A program that collects entries one at a time and passes over those it has
already met computes it: `eraseDups_concat` is the step of such a program.
-/
namespace TypeAtlas
variable {α β : Type} [BEq α] [LawfulBEq α] [BEq β] [LawfulBEq β]

/-- One more entry is kept unless it has been met. -/
theorem eraseDups_concat (xs : List α) (x : α) :
    (xs ++ [x]).eraseDups = if x ∈ xs then xs.eraseDups else xs.eraseDups ++ [x] := by
  rw [List.eraseDups_append, List.removeAll]
  by_cases hx : x ∈ xs <;> simp [hx, List.eraseDups_cons]

theorem nodup_eraseDups (xs : List α) : xs.eraseDups.Nodup := by
  induction xs using List.reverseRecOn with
  | nil => exact List.nodup_nil
  | append_singleton xs x ih =>
    rw [eraseDups_concat]
    split
    · exact ih
    · rename_i hx
      refine List.nodup_append.mpr ⟨ih, List.nodup_singleton x, ?_⟩
      intro a ha b hb he
      rw [List.mem_singleton] at hb
      exact hx (List.mem_eraseDups.mp (hb ▸ he ▸ ha))

/-- A function that tells the entries of a list apart commutes with keeping first
occurrences. -/
theorem map_eraseDups {f : α → β} {xs : List α} (hf : ∀ x ∈ xs, ∀ y ∈ xs, f x = f y → x = y) :
    xs.eraseDups.map f = (xs.map f).eraseDups := by
  induction xs using List.reverseRecOn with
  | nil => rfl
  | append_singleton xs x ih =>
    have hf' : ∀ y ∈ xs, ∀ z ∈ xs, f y = f z → y = z := fun y hy z hz =>
      hf y (List.mem_append_left [x] hy) z (List.mem_append_left [x] hz)
    have hmem : f x ∈ xs.map f ↔ x ∈ xs := by
      constructor
      · intro h
        obtain ⟨y, hy, he⟩ := List.mem_map.mp h
        have hyx : y = x := hf y (List.mem_append_left [x] hy) x (by simp) he
        exact hyx ▸ hy
      · exact List.mem_map_of_mem
    rw [List.map_append, List.map_singleton, eraseDups_concat, eraseDups_concat, ← ih hf']
    by_cases hx : x ∈ xs <;> simp [hx, hmem]

end TypeAtlas
