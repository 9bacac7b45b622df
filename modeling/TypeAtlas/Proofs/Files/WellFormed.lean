import TypeAtlas.Proofs.Files.Jobs
import Mathlib.Data.List.Nodup
import Mathlib.Data.List.Induction

/-! # Well-formed file trees

A file tree is well-formed if no place is listed twice, every place is made of names, and
above everything that stands somewhere stands a directory (`FileTree.WellFormed`).  What
is written under a path keeps a tree well-formed, since a path leads to a place below a
directory (`WellFormed.runAll`).

A run changes nothing but the files that it writes and directories that were missing
(`FileTree.Touches`).  Where its files are there already, with the same contents, it
changes nothing at all (`Job.runAll_eq_self`).
-/
namespace TypeAtlas

instance : DecidablePred Path.IsName := fun s =>
  decidable_of_iff (s ≠ "" ∧ '/' ∉ s.toList ∧ s ≠ "." ∧ s ≠ "..")
    ⟨fun ⟨h1, h2, h3, h4⟩ => ⟨h1, h2, h3, h4⟩, fun ⟨h1, h2, h3, h4⟩ => ⟨h1, h2, h3, h4⟩⟩

namespace FileTree

/-- Places are listed once, are made of names, and have a directory above them. -/
structure WellFormed (t : FileTree) : Prop where
  nodup : (t.entries.map Prod.fst).Nodup
  entry : ∀ e ∈ t.entries, e.1 ≠ [] ∧ (∀ n ∈ e.1, Path.IsName n) ∧
    t.get? e.1.dropLast = some .directory

instance : DecidablePred WellFormed := fun t =>
  decidable_of_iff ((t.entries.map Prod.fst).Nodup ∧ ∀ e ∈ t.entries, e.1 ≠ [] ∧
      (∀ n ∈ e.1, Path.IsName n) ∧ t.get? e.1.dropLast = some .directory)
    ⟨fun ⟨h1, h2⟩ => ⟨h1, h2⟩, fun ⟨h1, h2⟩ => ⟨h1, h2⟩⟩

theorem mem_entries_of_get? {t : FileTree} {p : Place} {e : Entry} (hp : p ≠ [])
    (h : t.get? p = some e) : (p, e) ∈ t.entries := by
  rw [get?, if_neg hp, Option.map_eq_some_iff] at h
  obtain ⟨⟨q, e'⟩, hfind, rfl⟩ := h
  obtain rfl : q = p := by simpa using List.find?_some hfind
  exact List.mem_of_find?_eq_some hfind

namespace WellFormed
variable {t : FileTree} (h : t.WellFormed)
include h

theorem get?_of_mem {p : Place} {e : Entry} (hmem : (p, e) ∈ t.entries) :
    t.get? p = some e := by
  have hp : p ≠ [] := (h.entry _ hmem).1
  have hfind : (t.entries.find? fun x => decide (x.1 = p)).isSome := by
    exact List.find?_isSome.mpr ⟨(p, e), hmem, decide_eq_true rfl⟩
  obtain ⟨x, hx⟩ := Option.isSome_iff_exists.mp hfind
  have hplace : x.1 = p := by simpa using List.find?_some hx
  have heq : x = (p, e) :=
    List.inj_on_of_nodup_map h.nodup (List.mem_of_find?_eq_some hx) hmem hplace
  rw [get?, if_neg hp, hx, heq]
  rfl

theorem isName {p : Place} {e : Entry} (hget : t.get? p = some e) : ∀ n ∈ p, Path.IsName n := by
  by_cases hp : p = []
  · rw [hp]
    exact fun n hn => absurd hn List.not_mem_nil
  · exact (h.entry _ (mem_entries_of_get? hp hget)).2.1

theorem parent {p : Place} {e : Entry} (hget : t.get? p = some e) :
    t.get? p.dropLast = some .directory := by
  by_cases hp : p = []
  · rw [hp]
    exact if_pos rfl
  · exact (h.entry _ (mem_entries_of_get? hp hget)).2.2

/-- Whatever is above something is a directory. -/
theorem above {p more : Place} {e : Entry} (hget : t.get? (p ++ more) = some e)
    (hmore : more ≠ []) : t.get? p = some .directory := by
  induction more using List.reverseRecOn generalizing e with
  | nil => exact absurd rfl hmore
  | append_singleton more n ih =>
    have hparent := h.parent hget
    rw [← List.append_assoc, List.dropLast_concat] at hparent
    by_cases hnil : more = []
    · rwa [hnil, List.append_nil] at hparent
    · exact ih hparent hnil

end WellFormed

/-! ### Where something can be put -/

/-- Something can stand at the place: it is made of names and below a directory. -/
structure CanHold (t : FileTree) (p : Place) : Prop where
  isName : ∀ n ∈ p, Path.IsName n
  parent : t.get? p.dropLast = some .directory

theorem WellFormed.canHold {t : FileTree} (h : t.WellFormed) {p : Place} {e : Entry}
    (hget : t.get? p = some e) : t.CanHold p :=
  ⟨h.isName hget, h.parent hget⟩

theorem WellFormed.canHold_step {t : FileTree} (h : t.WellFormed) {at_ p : Place} {piece : String}
    (hne : piece ≠ "") (hslash : '/' ∉ piece.toList) (hs : t.step at_ piece = .ok p) :
    t.CanHold p := by
  have hdir := get?_of_step hs
  rw [step, hdir] at hs
  simp only at hs
  split_ifs at hs with hhere hup hlong
  · obtain rfl := Except.ok.inj hs
    exact h.canHold hdir
  · obtain rfl := Except.ok.inj hs
    exact h.canHold (h.parent hdir)
  · obtain rfl := Except.ok.inj hs
    refine ⟨fun n hn => ?_, by rwa [List.dropLast_concat]⟩
    rcases List.mem_append.mp hn with hn | hn
    · exact h.isName hdir n hn
    · obtain rfl := List.mem_singleton.mp hn
      exact ⟨hne, hslash, hhere, hup⟩

/-- A path leads to where something can be put. -/
theorem WellFormed.canHold_locate {t : FileTree} (h : t.WellFormed) {path : String} {place : Place}
    (hl : t.locate path = .ok place) : t.CanHold place := by
  obtain ⟨-, hpath, hfollow⟩ := locate_eq_ok_iff.mp hl
  rcases List.eq_nil_or_concat' (Path.pieces path) with hnil | ⟨front, last, hlast⟩
  · -- only the root has no pieces
    have habs : Path.isAbsolute path = true := by
      by_contra hrel
      exact Path.pieces_ne_nil (Bool.not_eq_true _ ▸ hrel) hpath hnil
    rw [hnil, origin, if_pos habs] at hfollow
    obtain rfl : [] = place := Except.ok.inj hfollow
    exact h.canHold (if_pos rfl)
  · have hmem : last ∈ Path.pieces path := by
      rw [hlast]
      exact List.mem_append_right _ (List.mem_singleton_self last)
    obtain ⟨hwritten, hne⟩ := List.mem_filter.mp hmem
    obtain ⟨s, hs, rfl⟩ := List.mem_map.mp hwritten
    rw [hlast, follow_append] at hfollow
    obtain ⟨mid, -, hstep⟩ := hfollow
    rw [follow_singleton] at hstep
    refine h.canHold_step (of_decide_eq_true hne) ?_ hstep
    rw [String.toList_ofList]
    exact Path.no_slash_of_mem_written hs

theorem map_fst_set (t : FileTree) (p : Place) (e : Entry) :
    (t.set p e).entries.map Prod.fst =
      if p ∈ t.entries.map Prod.fst then t.entries.map Prod.fst
      else t.entries.map Prod.fst ++ [p] := by
  have hany : t.entries.any (fun x => decide (x.1 = p)) = true ↔ p ∈ t.entries.map Prod.fst := by
    simp
  unfold set
  split_ifs with h1 h2 h2
  · rw [List.map_map]
    refine List.map_congr_left fun x _ => ?_
    simp only [Function.comp_apply]
    split_ifs with hx
    · exact hx.symm
    · rfl
  · exact absurd (hany.mp h1) h2
  · exact absurd (hany.mpr h2) h1
  · rw [List.map_append]
    rfl

theorem mem_entries_set {t : FileTree} {p : Place} {e : Entry} {x : Place × Entry}
    (hx : x ∈ (t.set p e).entries) : x = (p, e) ∨ x ∈ t.entries := by
  unfold set at hx
  split_ifs at hx
  · obtain ⟨y, hy, rfl⟩ := List.mem_map.mp hx
    split_ifs
    · exact Or.inl rfl
    · exact Or.inr hy
  · rcases List.mem_append.mp hx with hx | hx
    · exact Or.inr hx
    · exact Or.inl (List.mem_singleton.mp hx)

/-- What is put where something can be put, in the stead of no directory, keeps a tree
well-formed. -/
theorem WellFormed.set {t : FileTree} (h : t.WellFormed) {p : Place} (hp : t.CanHold p)
    (hdir : t.get? p ≠ some .directory) (e : Entry) : (t.set p e).WellFormed := by
  -- no directory is lost, so what was above something still is
  have hkept : ∀ q, t.get? q = some .directory → (t.set p e).get? q = some .directory :=
    (grows_set hdir e).directory
  constructor
  · rw [map_fst_set]
    split_ifs with hmem
    · exact h.nodup
    · exact List.concat_eq_append ▸ List.Nodup.concat hmem h.nodup
  · intro x hx
    rcases mem_entries_set hx with rfl | hx
    · refine ⟨?_, hp.isName, hkept _ hp.parent⟩
      intro hnil
      exact hdir (if_pos hnil)
    · obtain ⟨hne, hname, hparent⟩ := h.entry x hx
      exact ⟨hne, hname, hkept _ hparent⟩

end FileTree

/-! ### What a run keeps -/

namespace FileTree

/-- What holds of a tree and is kept when a missing directory of a chain is made holds when the chain
has been made. -/
theorem makeChain_induction {P : FileTree → Prop} {paths : List String}
    (hmake : ∀ {t : FileTree} {path : String} {place : Place}, path ∈ paths → P t →
      t.locate path = .ok place → t.get? place = none → P (t.set place .directory))
    {t : FileTree} (ht : P t) : P (t.makeChain paths).1 := by
  induction paths with
  | nil => exact ht
  | cons path above ih =>
    have hfirst : ∀ {t made : FileTree}, P t → t.makeDir path = .ok made → P made := by
      intro t made ht hmade
      obtain ⟨place, hl, hnone, rfl⟩ := makeDir_eq_ok_iff.mp hmade
      exact hmake List.mem_cons_self ht hl hnone
    have habove := ih fun hpath => hmake (List.mem_cons_of_mem path hpath)
    unfold makeChain
    split
    · exact ht
    · split
      · exact hfirst ht ‹_›
      · split
        · rename_i hunder
          rw [hunder] at habove
          exact habove
        · rename_i under hunder
          rw [hunder] at habove
          split
          · exact hfirst habove ‹_›
          · exact habove
      · exact ht

end FileTree

/-- What is kept by every change that steps can make holds after a run of them. -/
theorem WriteStep.runAll_induction {P : FileTree → Prop} {files : List (String × String)}
    (hmake : ∀ {t : FileTree} {path : String} {place : Place}, P t → t.locate path = .ok place →
      t.get? place = none → P (t.set place .directory))
    (hwrite : ∀ {t : FileTree} {path text : String} {place : Place}, P t →
      t.locate path = .ok place → t.get? place ≠ some .directory → (path, text) ∈ files →
      P (t.set place (.file text.toUTF8)))
    {steps : List WriteStep} (hfiles : ∀ f ∈ writes steps, f ∈ files) {t u : FileTree} (ht : P t)
    (hrun : runAll t steps = (u, none)) : P u := by
  induction steps generalizing t with
  | nil =>
    obtain ⟨rfl, -⟩ := Prod.mk.inj hrun
    exact ht
  | cons s steps ih =>
    obtain ⟨next, hstep, hrest⟩ := runAll_cons hrun
    cases s with
    | makeDirs path =>
      refine ih hfiles ?_ hrest
      have hmade : P (t.makeChain (Path.chain path)).1 :=
        FileTree.makeChain_induction (fun _ => hmake) ht
      rwa [← FileTree.makeDirs, run_makeDirs_eq hstep] at hmade
    | writeFile path text =>
      obtain ⟨hfirst, hothers⟩ := List.forall_mem_cons.mp hfiles
      refine ih hothers ?_ hrest
      obtain ⟨place, hl, -, hdir, rfl⟩ := FileTree.write_eq_ok (run_writeFile_eq hstep)
      exact hwrite ht hl hdir hfirst

namespace FileTree

/-- **A run keeps a tree well-formed.** -/
theorem WellFormed.runAll {t u : FileTree} (h : t.WellFormed) {steps : List WriteStep}
    (hrun : WriteStep.runAll t steps = (u, none)) : u.WellFormed := by
  refine WriteStep.runAll_induction (fun ht hl hnone => ?_) (fun ht hl hdir _ => ?_)
    (fun f hf => hf) h hrun
  · exact ht.set (ht.canHold_locate hl) (by rw [hnone]; exact nofun) _
  · exact ht.set (ht.canHold_locate hl) hdir _

/-- One tree comes from another by writing some files and making missing directories. -/
structure Touches (t : FileTree) (files : List (String × String)) (u : FileTree) : Prop where
  workingDir_eq : u.workingDir = t.workingDir
  entry : ∀ p, u.get? p = t.get? p ∨ t.get? p = none ∧ u.get? p = some .directory ∨
    ∃ f ∈ files, u.locate f.1 = .ok p

/-- What changes at one place, which is a file that is written or was empty. -/
theorem Touches.set {t v : FileTree} {files : List (String × String)} (h : t.Touches files v)
    {place : Place} {e : Entry} (hdir : v.get? place ≠ some .directory)
    (hplace : v.get? place = none ∧ e = .directory ∨ ∃ f ∈ files, v.locate f.1 = .ok place) :
    t.Touches files (v.set place e) := by
  have hgrows := grows_set hdir e
  refine ⟨(workingDir_set v place e).trans h.workingDir_eq, fun p => ?_⟩
  by_cases hp : p = place
  · subst hp
    rcases hplace with ⟨hnone, rfl⟩ | ⟨f, hf, hl⟩
    · have hroot : p ≠ [] := by
        rintro rfl
        exact hdir (if_pos rfl)
      rcases h.entry p with he | ⟨-, hmade⟩ | ⟨f, hf, hl⟩
      · exact Or.inr (Or.inl ⟨he.symm.trans hnone, get?_set_self v _ hroot⟩)
      · exact absurd hmade hdir
      · exact Or.inr (Or.inr ⟨f, hf, hgrows.locate hl⟩)
    · exact Or.inr (Or.inr ⟨f, hf, hgrows.locate hl⟩)
  · rw [get?_set_other v e hp]
    rcases h.entry p with he | hmade | ⟨f, hf, hl⟩
    · exact Or.inl he
    · exact Or.inr (Or.inl hmade)
    · exact Or.inr (Or.inr ⟨f, hf, hgrows.locate hl⟩)

/-- **A run changes its files and missing directories only.** -/
theorem touches_runAll {t u : FileTree} {steps : List WriteStep}
    (hrun : WriteStep.runAll t steps = (u, none)) : t.Touches (WriteStep.writes steps) u := by
  have hrefl : t.Touches (WriteStep.writes steps) t := ⟨rfl, fun p => Or.inl rfl⟩
  refine WriteStep.runAll_induction (fun hv hl hnone => ?_) (fun hv hl hdir hmem => ?_)
    (fun f hf => hf) hrefl hrun
  · exact hv.set (by rw [hnone]; exact nofun) (Or.inl ⟨hnone, rfl⟩)
  · exact hv.set hdir (Or.inr ⟨_, hmem, hl⟩)

/-! ### Runs that change nothing -/

theorem set_eq_self {t : FileTree} (hnodup : (t.entries.map Prod.fst).Nodup) {p : Place}
    (hp : p ≠ []) {e : Entry} (hget : t.get? p = some e) : t.set p e = t := by
  have hmem := mem_entries_of_get? hp hget
  have hany : t.entries.any (fun x => decide (x.1 = p)) = true :=
    List.any_eq_true.mpr ⟨_, hmem, decide_eq_true rfl⟩
  have hmap : (t.entries.map fun x => if x.1 = p then (p, e) else x) = t.entries.map id := by
    refine List.map_congr_left fun x hx => ?_
    split_ifs with hplace
    · exact (List.inj_on_of_nodup_map hnodup hx hmem hplace).symm
    · rfl
  rw [set, if_pos hany, hmap, List.map_id]

theorem write_eq_self {t : FileTree} (h : t.WellFormed) {path : String} {bytes : ByteArray}
    (hfile : t.HasFile path bytes) (hslash : Path.endsInSlash path = false) :
    t.write path bytes = .ok t := by
  obtain ⟨place, hl, hget⟩ := hfile
  have hdir : t.get? place ≠ some .directory := by
    rw [hget]
    exact nofun
  have hroot : place ≠ [] := by
    rintro rfl
    exact hdir (if_pos rfl)
  rw [write_of_locate hl hslash hdir, set_eq_self h.nodup hroot hget]

theorem makeDirs_eq_self {t : FileTree} {path : String} (h : t.Stands path) :
    t.makeDirs path = (t, none) := by
  obtain ⟨above, hchain⟩ := Path.chain_eq_cons path
  rw [makeDirs, hchain, makeChain]
  by_cases hempty : path = ""
  · rw [if_pos hempty]
  · have hdir : t.isDirectory path = true := isDirectory_iff.mpr ⟨hempty, h⟩
    rw [if_neg hempty, makeDir_of_isDirectory hdir]
    simp only [hdir, if_true]

end FileTree

/-- **Jobs that are done already change nothing.** -/
theorem Job.runAll_eq_self {jobs : List Job} (hproper : ∀ j ∈ jobs, j.Proper) {t : FileTree}
    (h : t.WellFormed) (hfiled : ∀ f ∈ allWritten jobs, t.HasFile f.1 f.2.toUTF8) :
    WriteStep.runAll t (jobs.flatMap steps) = (t, none) := by
  have hstep : ∀ s ∈ jobs.flatMap steps, s.run t = (t, none) := by
    intro s hs
    obtain ⟨j, hj, hs⟩ := List.mem_flatMap.mp hs
    have hwritten : ∀ f ∈ j.written, t.HasFile f.1 f.2.toUTF8 :=
      fun f hf => hfiled f (List.mem_flatMap.mpr ⟨j, hj, hf⟩)
    rcases List.mem_cons.mp hs with rfl | hs
    · simp only [WriteStep.run, FileTree.makeDirs_eq_self ((hproper j hj).stands hwritten)]
    · obtain ⟨f, hf, rfl⟩ := List.mem_map.mp hs
      have hslash : Path.endsInSlash f.1 = false := by
        obtain ⟨g, hg, rfl⟩ := List.mem_map.mp hf
        exact Path.endsInSlash_join j.dir ((hproper j hj).isName g hg)
      simp only [WriteStep.run, FileTree.write_eq_self h (hwritten f hf) hslash]
  generalize jobs.flatMap steps = all at hstep
  induction all with
  | nil => rfl
  | cons s all ih =>
    obtain ⟨hs, hall⟩ := List.forall_mem_cons.mp hstep
    rw [WriteStep.runAll, hs]
    exact ih hall

end TypeAtlas
