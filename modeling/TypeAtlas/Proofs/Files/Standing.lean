import TypeAtlas.Proofs.Files.Parents

/-! # Directories under their paths

A path stands in a tree if it leads to a directory there (`FileTree.Stands`).  What
stands goes on standing in every tree that comes later: directories stay directories and
files stay files, whatever is written (`FileTree.Matures`).  Looking back from a later
tree, an access in an earlier one can only fail because something is not there yet
(`Matures.locate_eq_error`), and it finds what it looks for once the path above stands
(`locate_of_extends`).
-/
namespace TypeAtlas
namespace FileTree

/-! ### Where paths lead -/

theorem locate_eq_ok_iff {t : FileTree} {path : String} {place : Place} :
    t.locate path = .ok place ↔
      Path.NulFree path ∧ path ≠ "" ∧ t.follow (t.origin path) (Path.pieces path) = .ok place := by
  have hnul : path.toList.any (fun c => decide (c.toNat = 0)) = true ↔ ¬ Path.NulFree path := by
    simp [Path.NulFree]
  rw [locate]
  split_ifs with h1 h2
  · exact iff_of_false (by simp) fun h => absurd h.1 (hnul.mp h1)
  · exact iff_of_false (by simp) fun h => absurd h2 h.2.1
  · have hfree : Path.NulFree path := by
      by_contra h
      exact h1 (hnul.mpr h)
    exact ⟨fun h => ⟨hfree, h2, h⟩, fun h => h.2.2⟩

theorem get?_of_step {t : FileTree} {at_ p : Place} {piece : String}
    (h : t.step at_ piece = .ok p) : t.get? at_ = some .directory := by
  unfold step at h
  split at h
  · cases h
  · cases h
  · assumption

/-- Where a piece leads to does not depend on what else stands in the tree. -/
theorem step_congr {t v : FileTree} {at_ : Place} (ht : t.get? at_ = some .directory)
    (hv : v.get? at_ = some .directory) (piece : String) : t.step at_ piece = v.step at_ piece := by
  rw [step, step, ht, hv]

theorem follow_append {t : FileTree} {at_ place : Place} {xs ys : List String} :
    t.follow at_ (xs ++ ys) = .ok place ↔
      ∃ mid, t.follow at_ xs = .ok mid ∧ t.follow mid ys = .ok place := by
  unfold follow
  rw [List.foldlM_append]
  cases xs.foldlM t.step at_ with
  | error fault => exact ⟨nofun, fun ⟨_, h, _⟩ => nomatch h⟩
  | ok mid => exact ⟨fun h => ⟨mid, rfl, h⟩, fun ⟨_, h, h'⟩ => Except.ok.inj h ▸ h'⟩

theorem follow_singleton (t : FileTree) (at_ : Place) (piece : String) :
    t.follow at_ [piece] = t.step at_ piece := by
  rw [follow, List.foldlM_cons]
  cases t.step at_ piece <;> rfl

theorem follow_dots {t : FileTree} {at_ : Place} (h : t.get? at_ = some .directory)
    {dots : List String} (hdots : ∀ s ∈ dots, s = ".") : t.follow at_ dots = .ok at_ := by
  induction dots with
  | nil => rfl
  | cons s dots ih =>
    obtain ⟨rfl, hrest⟩ := List.forall_mem_cons.mp hdots
    have hstep : t.step at_ "." = .ok at_ := by
      rw [step, h]
      rfl
    rw [follow, List.foldlM_cons, hstep]
    exact ih hrest

/-- What is followed further begins at a directory. -/
theorem get?_of_follow_cons {t : FileTree} {at_ place : Place} {pieces : List String}
    (hne : pieces ≠ []) (h : t.follow at_ pieces = .ok place) : t.get? at_ = some .directory := by
  obtain ⟨s, rest, rfl⟩ := List.exists_cons_of_ne_nil hne
  rw [← List.singleton_append, follow_append] at h
  obtain ⟨mid, hmid, -⟩ := h
  rw [follow_singleton] at hmid
  exact get?_of_step hmid

/-- The path leads to a directory; the empty path leads to where relative paths begin. -/
structure Stands (t : FileTree) (path : String) : Prop where
  nulFree : Path.NulFree path
  leads : ∃ place, t.follow (t.origin path) (Path.pieces path) = .ok place ∧
    t.get? place = some .directory

theorem isDirectory_iff {t : FileTree} {path : String} :
    t.isDirectory path = true ↔ path ≠ "" ∧ t.Stands path := by
  constructor
  · intro h
    unfold isDirectory lookup at h
    cases hl : t.locate path with
    | error fault =>
      rw [hl] at h
      cases h
    | ok place =>
      obtain ⟨hnul, hne, hfollow⟩ := locate_eq_ok_iff.mp hl
      refine ⟨hne, hnul, place, hfollow, ?_⟩
      cases hget : t.get? place with
      | none => simp [hl, hget, bind, Except.bind] at h
      | some e =>
        cases e with
        | directory => rfl
        | file bytes =>
          simp only [hl, hget, bind, Except.bind] at h
          split_ifs at h
  · rintro ⟨hne, hnul, place, hfollow, hget⟩
    have hl : t.locate path = .ok place := locate_eq_ok_iff.mpr ⟨hnul, hne, hfollow⟩
    simp [isDirectory, lookup, hl, hget, bind, Except.bind]

theorem Stands.locate {t : FileTree} {path : String} (h : t.Stands path) (hne : path ≠ "") :
    ∃ place, t.locate path = .ok place ∧ t.get? place = some .directory := by
  obtain ⟨hnul, place, hfollow, hget⟩ := h
  exact ⟨place, locate_eq_ok_iff.mpr ⟨hnul, hne, hfollow⟩, hget⟩

theorem stands_of_locate {t : FileTree} {path : String} {place : Place}
    (hl : t.locate path = .ok place) (hget : t.get? place = some .directory) : t.Stands path := by
  obtain ⟨hnul, -, hfollow⟩ := locate_eq_ok_iff.mp hl
  exact ⟨hnul, place, hfollow, hget⟩

theorem lookup_eq_directory {t : FileTree} {path : String} {place : Place}
    (h : t.lookup path = .ok (place, .directory)) :
    t.locate path = .ok place ∧ t.get? place = some .directory := by
  unfold lookup at h
  cases hl : t.locate path with
  | error fault =>
    rw [hl] at h
    cases h
  | ok place' =>
    simp only [hl, bind, Except.bind] at h
    split at h
    · cases h
    · split_ifs at h
      cases h
    · rename_i hget
      cases h
      exact ⟨rfl, hget⟩

theorem locate_of_lookup {t : FileTree} {path : String} {place : Place} {e : Entry}
    (h : t.lookup path = .ok (place, e)) : t.locate path = .ok place := by
  unfold lookup at h
  cases hl : t.locate path with
  | error fault =>
    rw [hl] at h
    cases h
  | ok place' =>
    simp only [hl, bind, Except.bind] at h
    split at h
    · cases h
    · split_ifs at h
      cases h
      rfl
    · cases h
      rfl

theorem lookup_of_locate {t : FileTree} {path : String} {place : Place}
    (hl : t.locate path = .ok place) (hget : t.get? place = some .directory) :
    t.lookup path = .ok (place, .directory) := by
  simp [lookup, hl, hget, bind, Except.bind]

/-- A directory is found where it was. -/
theorem Grows.lookup {t t' : FileTree} (h : t.Grows t') {path : String} {place : Place}
    (hfound : t.lookup path = .ok (place, .directory)) :
    t'.lookup path = .ok (place, .directory) := by
  obtain ⟨hl, hget⟩ := lookup_eq_directory hfound
  exact lookup_of_locate (h.locate hl) (h.directory place hget)

/-- The empty path and the root stand in every tree in which relative paths begin somewhere. -/
theorem stands_of_parent?_eq_none {t : FileTree} {path : String} (h : Path.parent? path = none)
    (hnul : Path.NulFree path)
    (hbegin : Path.isAbsolute path = false → t.get? t.workingDir = some .directory) :
    t.Stands path := by
  rcases Path.eq_empty_or_root_of_parent? h with rfl | ⟨habsolute, hdots⟩
  · exact ⟨hnul, t.workingDir, rfl, hbegin rfl⟩
  · have hroot : t.get? [] = some .directory := if_pos rfl
    refine ⟨hnul, [], ?_, hroot⟩
    rw [origin, if_pos habsolute]
    exact follow_dots hroot hdots

/-- A path stands if another one goes on from it and leads somewhere. -/
theorem stands_of_pieces_append {t : FileTree} {p q : String} {rest : List String} {place : Place}
    (hl : t.locate p = .ok place) (habs : Path.isAbsolute q = Path.isAbsolute p)
    (hpieces : Path.pieces p = Path.pieces q ++ rest) (hrest : rest ≠ []) (hnul : Path.NulFree q) :
    t.Stands q := by
  obtain ⟨-, -, hfollow⟩ := locate_eq_ok_iff.mp hl
  have horigin : t.origin p = t.origin q := by rw [origin, origin, habs]
  rw [hpieces, horigin, follow_append] at hfollow
  obtain ⟨mid, hmid, hfollow⟩ := hfollow
  exact ⟨hnul, mid, hmid, get?_of_follow_cons hrest hfollow⟩

theorem stands_of_extends {t : FileTree} {p q : String} {place : Place} (he : Path.Extends q p)
    (hl : t.locate p = .ok place) : t.Stands q := by
  obtain ⟨dots, last, -, hpieces⟩ := he.pieces_eq
  rw [List.append_assoc] at hpieces
  refine stands_of_pieces_append hl he.isAbsolute_eq hpieces ?_
    (he.nulFree (locate_eq_ok_iff.mp hl).1)
  exact List.append_ne_nil_of_right_ne_nil dots (List.cons_ne_nil last [])

/-- Where a path stands, the one that it extends stands too. -/
theorem Stands.of_extends {t : FileTree} {p q : String} (h : t.Stands p) (he : Path.Extends q p) :
    t.Stands q := by
  obtain ⟨place, hl, -⟩ := h.locate he.ne_empty
  exact stands_of_extends he hl

/-! ### Where relative paths begin -/

/-- If a relative path leads anywhere, it begins at a directory. -/
theorem get?_workingDir_of_locate {t : FileTree} {path : String} {place : Place}
    (hrel : Path.isAbsolute path = false) (hl : t.locate path = .ok place) :
    t.get? t.workingDir = some .directory := by
  obtain ⟨-, hne, hfollow⟩ := locate_eq_ok_iff.mp hl
  rw [origin, hrel] at hfollow
  exact get?_of_follow_cons (Path.pieces_ne_nil hrel hne) hfollow

theorem locate_of_makeDir {t made : FileTree} {path : String} (h : t.makeDir path = .ok made) :
    ∃ place, t.locate path = .ok place := by
  cases hl : t.locate path with
  | ok place => exact ⟨place, rfl⟩
  | error fault =>
    rw [makeDir, hl] at h
    cases h

theorem makeDir_of_locate {t : FileTree} {path : String} {place : Place}
    (hl : t.locate path = .ok place) : t.makeDir path =
      if (t.get? place).isSome then .error .alreadyExists else .ok (t.set place .directory) := by
  rw [makeDir, hl]
  rfl

/-- A directory is made where nothing stands. -/
theorem makeDir_eq_ok_iff {t t' : FileTree} {path : String} : t.makeDir path = .ok t' ↔
    ∃ place, t.locate path = .ok place ∧ t.get? place = none ∧ t' = t.set place .directory := by
  constructor
  · intro h
    obtain ⟨place, hl⟩ := locate_of_makeDir h
    rw [makeDir_of_locate hl] at h
    split_ifs at h with hsome
    exact ⟨place, hl, Option.not_isSome_iff_eq_none.mp hsome, (Except.ok.inj h).symm⟩
  · rintro ⟨place, hl, hnone, rfl⟩
    rw [makeDir_of_locate hl, hnone]
    rfl

/-- Without a directory where relative paths begin, none is made under relative paths. -/
theorem makeChain_eq_self {t : FileTree} (hbegin : t.get? t.workingDir ≠ some .directory)
    {paths : List String} (hrel : ∀ p ∈ paths, Path.isAbsolute p = false) :
    (t.makeChain paths).1 = t := by
  induction paths with
  | nil => rfl
  | cons path above ih =>
    obtain ⟨hpath, habove⟩ := List.forall_mem_cons.mp hrel
    have hmake : ∀ made, t.makeDir path ≠ .ok made := by
      intro made hmade
      obtain ⟨place, hl⟩ := locate_of_makeDir hmade
      exact hbegin (get?_workingDir_of_locate hpath hl)
    have habove := ih habove
    rw [makeChain]
    split
    · rfl
    · split
      · rename_i made hmade
        exact absurd hmade (hmake made)
      · split
        · rename_i hunder
          rw [hunder] at habove
          exact habove
        · rename_i under hunder
          rw [hunder] at habove
          obtain rfl : under = t := habove
          split
          · rename_i made hmade
            exact absurd hmade (hmake made)
          · rfl
      · rfl

/-! ### Trees that come later -/

/-- Directories stay directories and files stay files. -/
structure Matures (t t' : FileTree) : Prop extends Grows t t' where
  file : ∀ p bytes, t.get? p = some (.file bytes) → ∃ bytes', t'.get? p = some (.file bytes')

theorem Keeps.matures {t t' : FileTree} (h : t.Keeps t') : t.Matures t' :=
  ⟨h.grows, fun p bytes hp => ⟨bytes, h.entry p _ hp⟩⟩

theorem Matures.rfl {t : FileTree} : t.Matures t :=
  Keeps.rfl.matures

theorem Matures.trans {t u v : FileTree} (h : t.Matures u) (h' : u.Matures v) : t.Matures v := by
  refine ⟨⟨h'.workingDir_eq.trans h.workingDir_eq, fun p hp => ?_⟩, fun p bytes hp => ?_⟩
  · exact h'.directory p (h.directory p hp)
  · obtain ⟨bytes', hp'⟩ := h.file p bytes hp
    exact h'.file p bytes' hp'

theorem write_of_locate {t : FileTree} {path : String} {place : Place} {bytes : ByteArray}
    (hl : t.locate path = .ok place) (hslash : Path.endsInSlash path = false)
    (hdir : t.get? place ≠ some .directory) :
    t.write path bytes = .ok (t.set place (.file bytes)) := by
  rw [write, hl]
  simp [bind, Except.bind, hslash]

theorem matures_write {t t' : FileTree} {path : String} {bytes : ByteArray}
    (h : t.write path bytes = .ok t') : t.Matures t' := by
  obtain ⟨place, -, -, hdir, rfl⟩ := write_eq_ok h
  refine ⟨grows_set hdir _, fun p b hp => ?_⟩
  by_cases he : p = place
  · subst he
    have hne : p ≠ [] := by
      rintro rfl
      exact hdir (if_pos rfl)
    exact ⟨bytes, get?_set_self t _ hne⟩
  · exact ⟨b, by rw [get?_set_other t _ he, hp]⟩

namespace Matures
variable {t v : FileTree} (h : t.Matures v)
include h

theorem origin (path : String) : v.origin path = t.origin path := by
  rw [FileTree.origin, FileTree.origin, h.workingDir_eq]

theorem stands {path : String} (hs : t.Stands path) : v.Stands path := by
  obtain ⟨hnul, place, hfollow, hget⟩ := hs
  exact ⟨hnul, place, by rw [h.origin]; exact h.toGrows.follow hfollow, h.directory place hget⟩

/-- Where the later tree has an entry and the earlier one has any, they are of one kind. -/
theorem get?_eq_directory {place : Place} {e : Entry} (hv : v.get? place = some .directory)
    (ht : t.get? place = some e) : e = .directory := by
  cases e with
  | directory => exact Eq.refl _
  | file bytes =>
    obtain ⟨bytes', hfile⟩ := h.file place bytes ht
    rw [hv] at hfile
    cases hfile

theorem follow_eq_error {at_ place : Place} {pieces : List String} {fault : FileFault}
    (hv : v.follow at_ pieces = .ok place) (ht : t.follow at_ pieces = .error fault) :
    fault = .notFound := by
  induction pieces generalizing at_ with
  | nil => cases ht
  | cons s pieces ih =>
    rw [← List.singleton_append, follow_append] at hv
    obtain ⟨mid, hmid, hrest⟩ := hv
    rw [follow_singleton] at hmid
    have hdir := get?_of_step hmid
    rw [follow, List.foldlM_cons] at ht
    cases hget : t.get? at_ with
    | none =>
      rw [show t.step at_ s = .error .notFound by rw [FileTree.step, hget]] at ht
      exact (Except.error.inj ht).symm
    | some e =>
      obtain rfl := h.get?_eq_directory hdir hget
      rw [step_congr hget hdir, hmid] at ht
      exact ih hrest ht

/-- What can be located later can fail to be located now only because it is not there. -/
theorem locate_eq_error {path : String} {place : Place} {fault : FileFault}
    (hv : v.locate path = .ok place) (ht : t.locate path = .error fault) : fault = .notFound := by
  obtain ⟨hnul, hne, hfollow⟩ := locate_eq_ok_iff.mp hv
  rw [h.origin] at hfollow
  cases hf : t.follow (t.origin path) (Path.pieces path) with
  | ok place' =>
    rw [locate_eq_ok_iff.mpr ⟨hnul, hne, hf⟩] at ht
    cases ht
  | error fault' =>
    have hlocate : t.locate path = .error fault' := by
      unfold FileTree.locate
      rw [if_neg, if_neg hne, hf]
      intro hany
      obtain ⟨c, hc, hzero⟩ := List.any_eq_true.mp hany
      exact hnul c hc (of_decide_eq_true hzero)
    rw [hlocate] at ht
    obtain rfl := Except.error.inj ht
    exact h.follow_eq_error hfollow hf

/-- Once the path above stands, a path leads to where it will lead later. -/
theorem locate_of_extends {p q : String} {place : Place} (hq : t.Stands q)
    (he : Path.Extends q p) (hv : v.locate p = .ok place) : t.locate p = .ok place := by
  obtain ⟨hnul, hne, hfollow⟩ := locate_eq_ok_iff.mp hv
  refine locate_eq_ok_iff.mpr ⟨hnul, hne, ?_⟩
  obtain ⟨dots, last, hdots, hpieces⟩ := he.pieces_eq
  obtain ⟨-, mid, hmid, hdir⟩ := hq
  have horigin : t.origin p = t.origin q := by
    rw [FileTree.origin, FileTree.origin, he.isAbsolute_eq]
  -- the later tree goes through the same directory
  rw [hpieces, h.origin, horigin, List.append_assoc, follow_append] at hfollow
  obtain ⟨mid', hmid', hrest⟩ := hfollow
  obtain rfl : mid = mid' := Except.ok.inj ((h.toGrows.follow hmid).symm.trans hmid')
  obtain ⟨mid', hmid', hlast⟩ := follow_append.mp hrest
  rw [follow_dots (h.directory mid hdir) hdots] at hmid'
  obtain rfl := Except.ok.inj hmid'
  rw [hpieces, horigin, List.append_assoc, follow_append]
  refine ⟨mid, hmid, follow_append.mpr ⟨mid, follow_dots hdir hdots, ?_⟩⟩
  rw [follow_singleton] at hlast ⊢
  rw [step_congr hdir (h.directory mid hdir), hlast]

end Matures
end FileTree
end TypeAtlas
