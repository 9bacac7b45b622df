import TypeAtlas.Path

/-!
# File trees

A file tree as a value: what stands at which place. A place is the list of names that leads to it
from the root, which is always a directory. Links do not occur.

A tree also knows the directory at which relative paths begin.
-/
namespace TypeAtlas

/-- The names from the root to a file or directory. -/
abbrev Place := List String

/-- What can stand at a place. -/
inductive Entry where
  | directory
  | file (bytes : ByteArray)

/-- Entries are compared by what they hold. -/
instance : DecidableEq Entry
  | .directory, .directory => .isTrue rfl
  | .directory, .file _ => .isFalse Entry.noConfusion
  | .file _, .directory => .isFalse Entry.noConfusion
  | .file a, .file b =>
    match ByteArray.instDecidableEq a b with
    | .isTrue h => .isTrue (congrArg Entry.file h)
    | .isFalse h => .isFalse fun he => h (Entry.file.inj he)

/-- Directories and files by their places, and the directory where relative paths begin. -/
structure FileTree where
  entries : List (Place × Entry)
  workingDir : Place
  deriving DecidableEq

namespace FileTree

/-- Nothing but the root. -/
def empty : FileTree :=
  ⟨[], []⟩

/-- What stands at a place. -/
def get? (t : FileTree) (p : Place) : Option Entry :=
  if p = [] then some .directory
  else (t.entries.find? fun e => decide (e.1 = p)).map Prod.snd

/-- Puts an entry at a place, in the stead of what was there. -/
def set (t : FileTree) (p : Place) (e : Entry) : FileTree :=
  if t.entries.any fun x => decide (x.1 = p) then
    { t with entries := t.entries.map fun x => if x.1 = p then (p, e) else x }
  else { t with entries := t.entries ++ [(p, e)] }

/-- The names of what stands in a directory. -/
def children (t : FileTree) (p : Place) : List String :=
  t.entries.filterMap fun e =>
    match e.1.getLast? with
    | some name => if e.1 = p ++ [name] then some name else none
    | none => none

/-- All files with their contents. -/
def files (t : FileTree) : List (Place × ByteArray) :=
  t.entries.filterMap fun e =>
    match e.2 with
    | .file bytes => some (e.1, bytes)
    | .directory => none

/-- Puts an entry at a place together with the directories above it. -/
def plant (t : FileTree) (p : Place) (e : Entry) : FileTree :=
  let above := (List.range p.length).map fun n => p.take n
  let grown := above.foldl
    (fun acc q => if (acc.get? q).isSome then acc else acc.set q .directory) t
  if e = .directory ∧ (grown.get? p).isSome then grown else grown.set p e

/-! ### Lookups after a change -/

theorem find?_map_replace (es : List (Place × Entry)) (p : Place) (e : Entry) :
    (es.map fun x => if x.1 = p then (p, e) else x).find? (fun x => decide (x.1 = p))
      = if es.any (fun x => decide (x.1 = p)) then some (p, e) else none := by
  induction es with
  | nil => rfl
  | cons x xs ih =>
    by_cases h : x.1 = p
    · simp [h]
    · simp only [List.map_cons, h, if_false, List.find?_cons, decide_false, List.any_cons,
        Bool.false_or]
      exact ih

theorem find?_map_other (es : List (Place × Entry)) {p q : Place} (e : Entry) (h : q ≠ p) :
    (es.map fun x => if x.1 = p then (p, e) else x).find? (fun x => decide (x.1 = q))
      = es.find? (fun x => decide (x.1 = q)) := by
  induction es with
  | nil => rfl
  | cons x xs ih =>
    by_cases hx : x.1 = p
    · have hp : p ≠ q := fun he => h he.symm
      have hq : x.1 ≠ q := by rw [hx]; exact hp
      simp only [List.map_cons, hx, if_true, List.find?_cons, hp, decide_false]
      exact ih
    · simp only [List.map_cons, hx, if_false, List.find?_cons]
      split
      · rfl
      · exact ih

/-- What was put at a place stands there. -/
theorem get?_set_self (t : FileTree) {p : Place} (e : Entry) (hp : p ≠ []) :
    (t.set p e).get? p = some e := by
  unfold set get?
  by_cases h : t.entries.any (fun x => decide (x.1 = p)) = true
  · simp only [h, if_true, hp, if_false, find?_map_replace]
    rfl
  · have hn : t.entries.find? (fun x => decide (x.1 = p)) = none := by
      rw [List.find?_eq_none]
      intro x hx hd
      exact h (List.any_eq_true.2 ⟨x, hx, hd⟩)
    simp [h, hp, hn, List.find?_append]

/-- Putting an entry somewhere leaves all other places alone. -/
theorem get?_set_other (t : FileTree) {p q : Place} (e : Entry) (h : q ≠ p) :
    (t.set p e).get? q = t.get? q := by
  unfold set get?
  by_cases hq : q = []
  · simp [hq]
  · by_cases ha : t.entries.any (fun x => decide (x.1 = p)) = true
    · simp only [ha, if_true, hq, if_false, find?_map_other _ e h]
    · have hp : ¬ p = q := fun he => h he.symm
      simp [ha, hq, List.find?_append, hp]

end FileTree
end TypeAtlas
