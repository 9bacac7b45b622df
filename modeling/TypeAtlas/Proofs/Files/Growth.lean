import TypeAtlas.Artifact.Store
import Mathlib.Data.List.Basic

/-! # File trees only grow

Writing artifacts makes directories and writes files; it never takes anything away, and
no directory becomes a file.  So a path that leads to a place goes on leading there,
whatever is written afterwards (`Grows.locate`), and a file that was written is found
again under its path as long as later steps write to other places
(`HasFile.runAll`).  It does not matter what stood in the tree before: a written file
replaces it.
-/
namespace TypeAtlas
namespace FileTree

/-! ### Trees that grow -/

/-- Directories stay directories, and relative paths begin where they did. -/
structure Grows (t t' : FileTree) : Prop where
  workingDir_eq : t'.workingDir = t.workingDir
  directory : ∀ p, t.get? p = some .directory → t'.get? p = some .directory

/-- Whatever stands somewhere stays there. -/
structure Keeps (t t' : FileTree) : Prop where
  workingDir_eq : t'.workingDir = t.workingDir
  entry : ∀ p e, t.get? p = some e → t'.get? p = some e

theorem Keeps.rfl {t : FileTree} : t.Keeps t :=
  ⟨Eq.refl _, fun _ _ h => h⟩

theorem Keeps.trans {t u v : FileTree} (h : t.Keeps u) (h' : u.Keeps v) : t.Keeps v :=
  ⟨h'.workingDir_eq.trans h.workingDir_eq, fun p e he => h'.entry p e (h.entry p e he)⟩

theorem Keeps.grows {t t' : FileTree} (h : t.Keeps t') : t.Grows t' :=
  ⟨h.workingDir_eq, fun p hp => h.entry p _ hp⟩

theorem workingDir_set (t : FileTree) (p : Place) (e : Entry) :
    (t.set p e).workingDir = t.workingDir := by
  unfold set
  split <;> rfl

theorem keeps_set {t : FileTree} {p : Place} (h : t.get? p = none) (e : Entry) :
    t.Keeps (t.set p e) := by
  refine ⟨workingDir_set t p e, fun q f hq => ?_⟩
  rw [get?_set_other t e, hq]
  rintro rfl
  rw [h] at hq
  cases hq

theorem grows_set {t : FileTree} {p : Place} (h : t.get? p ≠ some .directory) (e : Entry) :
    t.Grows (t.set p e) := by
  refine ⟨workingDir_set t p e, fun q hq => ?_⟩
  rw [get?_set_other t e, hq]
  rintro rfl
  exact h hq

/-! ### Paths lead where they led -/

namespace Grows
variable {t t' : FileTree} (h : t.Grows t')
include h

theorem step {at_ p : Place} {piece : String} (hs : t.step at_ piece = .ok p) :
    t'.step at_ piece = .ok p := by
  unfold FileTree.step at hs ⊢
  cases hget : t.get? at_ with
  | none => simp [hget] at hs
  | some e =>
    cases e with
    | file bytes => simp [hget] at hs
    | directory =>
      rw [hget] at hs
      rw [h.directory at_ hget]
      exact hs

theorem follow {at_ p : Place} {pieces : List String} (hf : t.follow at_ pieces = .ok p) :
    t'.follow at_ pieces = .ok p := by
  induction pieces generalizing at_ with
  | nil => exact hf
  | cons piece pieces ih =>
    unfold FileTree.follow at hf ih ⊢
    rw [List.foldlM_cons] at hf ⊢
    cases hs : t.step at_ piece with
    | error fault =>
      rw [hs] at hf
      cases hf
    | ok q =>
      rw [hs] at hf
      rw [h.step hs]
      exact ih hf

theorem locate {path : String} {p : Place} (hl : t.locate path = .ok p) :
    t'.locate path = .ok p := by
  unfold FileTree.locate at hl ⊢
  have horigin : t'.origin path = t.origin path := by
    rw [origin, origin, h.workingDir_eq]
  split_ifs at hl ⊢
  rw [horigin]
  exact h.follow hl

end Grows

/-! ### What one access does -/

theorem makeDir_eq_ok {t t' : FileTree} {path : String} (h : t.makeDir path = .ok t') :
    t.Keeps t' := by
  unfold makeDir at h
  cases hl : t.locate path with
  | error fault =>
    rw [hl] at h
    cases h
  | ok place =>
    simp only [hl, bind, Except.bind] at h
    split_ifs at h with hsome
    cases h
    exact keeps_set (by simpa using hsome) _

theorem write_eq_ok {t t' : FileTree} {path : String} {bytes : ByteArray}
    (h : t.write path bytes = .ok t') :
    ∃ place, t.locate path = .ok place ∧ Path.endsInSlash path = false ∧
      t.get? place ≠ some .directory ∧ t' = t.set place (.file bytes) := by
  unfold write at h
  cases hl : t.locate path with
  | error fault =>
    rw [hl] at h
    cases h
  | ok place =>
    simp only [hl, bind, Except.bind] at h
    split_ifs at h with hslash
    refine ⟨place, rfl, by simpa using hslash, ?_⟩
    split at h
    · cases h
    · rename_i hne
      cases h
      exact ⟨hne, rfl⟩

theorem makeChain_keeps (t : FileTree) (paths : List String) :
    t.Keeps (t.makeChain paths).1 := by
  induction paths with
  | nil => exact Keeps.rfl
  | cons path above ih =>
    unfold makeChain
    split
    · exact Keeps.rfl
    · split
      · exact makeDir_eq_ok ‹_›
      · split
        · rename_i hunder
          rw [hunder] at ih
          exact ih
        · rename_i under hunder
          rw [hunder] at ih
          split
          · exact ih.trans (makeDir_eq_ok ‹_›)
          · exact ih
      · exact Keeps.rfl

theorem makeDirs_keeps (t : FileTree) (path : String) : t.Keeps (t.makeDirs path).1 :=
  t.makeChain_keeps _

/-! ### A file under its path -/

/-- The path leads to a file with these bytes. -/
def HasFile (t : FileTree) (path : String) (bytes : ByteArray) : Prop :=
  ∃ place, t.locate path = .ok place ∧ t.get? place = some (.file bytes)

theorem hasFile_of_write {t t' : FileTree} {path : String} {bytes : ByteArray}
    (h : t.write path bytes = .ok t') : t'.HasFile path bytes := by
  obtain ⟨place, hl, -, hdir, rfl⟩ := write_eq_ok h
  have hne : place ≠ [] := by
    rintro rfl
    exact hdir (by simp [get?])
  exact ⟨place, (grows_set hdir _).locate hl, get?_set_self t _ hne⟩

/-- Two paths lead to different places in every tree. -/
def LeadApart (path path' : String) : Prop :=
  ∀ (t : FileTree) (place : Place), t.locate path = .ok place → t.locate path' ≠ .ok place

theorem fromUTF8?_toUTF8 (s : String) : String.fromUTF8? s.toUTF8 = some s := by
  rw [String.fromUTF8?, String.toUTF8_eq_toByteArray, dif_pos s.isValidUTF8]
  rfl

/-- A text that was written is read as it is. -/
theorem HasFile.readText {t : FileTree} {path s : String} (h : t.HasFile path s.toUTF8)
    (hslash : Path.endsInSlash path = false) : t.readText path = .ok s := by
  obtain ⟨place, hl, hget⟩ := h
  have hread : t.read path = .ok s.toUTF8 := by
    simp [read, lookup, hl, hget, hslash, bind, Except.bind]
  simp only [FileTree.readText, hread, bind, Except.bind, fromUTF8?_toUTF8]

end FileTree

/-! ### Steps of writing -/

namespace WriteStep
open FileTree

/-- The step does not write to where the path leads. -/
def Spares (path : String) : WriteStep → Prop
  | makeDirs _ => True
  | writeFile path' _ => LeadApart path path'

theorem run_makeDirs_keeps {t t' : FileTree} {path : String} {fault : Option WriteFault}
    (h : (makeDirs path).run t = (t', fault)) : t.Keeps t' := by
  have hkeeps := t.makeDirs_keeps path
  unfold run at h
  simp only at h
  split at h
  · rename_i hmade
    obtain ⟨rfl, -⟩ := Prod.mk.inj h
    rw [hmade] at hkeeps
    exact hkeeps
  · rename_i hmade
    obtain ⟨rfl, -⟩ := Prod.mk.inj h
    rw [hmade] at hkeeps
    exact hkeeps

theorem run_makeDirs_eq {t t' : FileTree} {path : String}
    (h : (makeDirs path).run t = (t', none)) : t.makeDirs path = (t', none) := by
  unfold run at h
  simp only at h
  split at h
  · rename_i made hmade
    rw [hmade, (Prod.mk.inj h).1]
  · cases (Prod.mk.inj h).2

theorem run_writeFile_eq {t t' : FileTree} {path text : String}
    (h : (writeFile path text).run t = (t', none)) : t.write path text.toUTF8 = .ok t' := by
  unfold run at h
  simp only at h
  split at h
  · rename_i written hw
    rw [hw, (Prod.mk.inj h).1]
  · cases (Prod.mk.inj h).2

/-- A run without a failure is known by its tree. -/
theorem runAll_eq_of_snd {t : FileTree} {steps : List WriteStep} (h : (runAll t steps).2 = none) :
    runAll t steps = ((runAll t steps).1, none) :=
  Prod.ext rfl h

theorem runAll_cons {t t' : FileTree} {s : WriteStep} {steps : List WriteStep}
    (h : runAll t (s :: steps) = (t', none)) :
    ∃ u, s.run t = (u, none) ∧ runAll u steps = (t', none) := by
  rw [runAll] at h
  split at h
  · exact ⟨_, ‹_›, h⟩
  · cases (Prod.mk.inj h).2

theorem runAll_append {t t' : FileTree} {xs ys : List WriteStep}
    (h : runAll t (xs ++ ys) = (t', none)) :
    ∃ u, runAll t xs = (u, none) ∧ runAll u ys = (t', none) := by
  induction xs generalizing t with
  | nil => exact ⟨t, rfl, h⟩
  | cons s xs ih =>
    rw [List.cons_append, runAll] at h
    rw [runAll]
    split at h
    · exact ih h
    · cases (Prod.mk.inj h).2

/-- A run goes on from where its first part ends. -/
theorem runAll_append_of_runAll {t u : FileTree} {xs : List WriteStep}
    (h : runAll t xs = (u, none)) (ys : List WriteStep) : runAll t (xs ++ ys) = runAll u ys := by
  induction xs generalizing t with
  | nil =>
    obtain ⟨rfl, -⟩ := Prod.mk.inj h
    rfl
  | cons s xs ih =>
    obtain ⟨next, hstep, hrest⟩ := runAll_cons h
    rw [List.cons_append, runAll, hstep]
    exact ih hrest

/-- What a step spares stays under its path. -/
theorem hasFile_run {t t' : FileTree} {path : String} {bytes : ByteArray} {s : WriteStep}
    (h : t.HasFile path bytes) (hs : s.Spares path) (hrun : s.run t = (t', none)) :
    t'.HasFile path bytes := by
  obtain ⟨place, hl, hget⟩ := h
  cases s with
  | makeDirs path' =>
    have hkeeps := run_makeDirs_keeps hrun
    exact ⟨place, hkeeps.grows.locate hl, hkeeps.entry _ _ hget⟩
  | writeFile path' text =>
    obtain ⟨place', hl', -, hdir, rfl⟩ := write_eq_ok (run_writeFile_eq hrun)
    refine ⟨place, (grows_set hdir _).locate hl, ?_⟩
    rw [get?_set_other _ _, hget]
    rintro rfl
    exact hs t place hl hl'

/-- What all steps of a run spare stays under its path. -/
theorem hasFile_runAll {t t' : FileTree} {path : String} {bytes : ByteArray}
    {steps : List WriteStep} (h : t.HasFile path bytes) (hs : ∀ s ∈ steps, s.Spares path)
    (hrun : runAll t steps = (t', none)) : t'.HasFile path bytes := by
  induction steps generalizing t with
  | nil =>
    obtain ⟨rfl, -⟩ := Prod.mk.inj hrun
    exact h
  | cons s steps ih =>
    obtain ⟨u, hstep, hrest⟩ := runAll_cons hrun
    exact ih (hasFile_run h (hs s List.mem_cons_self) hstep)
      (fun s' hs' => hs s' (List.mem_cons_of_mem s hs')) hrest

/-- **A file that a run writes and spares afterwards is there at its end**, whatever stood in
the tree before. -/
theorem hasFile_of_runAll {t t' : FileTree} {path text : String} {before after : List WriteStep}
    (hs : ∀ s ∈ after, s.Spares path)
    (hrun : runAll t (before ++ .writeFile path text :: after) = (t', none)) :
    t'.HasFile path text.toUTF8 := by
  obtain ⟨u, -, hrest⟩ := runAll_append hrun
  obtain ⟨v, hstep, hlast⟩ := runAll_cons hrest
  exact hasFile_runAll (hasFile_of_write (run_writeFile_eq hstep)) hs hlast

/-! ### All files of a run -/

/-- The file that a step writes. -/
def file? : WriteStep → Option (String × String)
  | makeDirs _ => none
  | writeFile path text => some (path, text)

/-- The files that some steps write, with their texts. -/
def writes (steps : List WriteStep) : List (String × String) :=
  steps.filterMap file?

theorem writes_append (xs ys : List WriteStep) : writes (xs ++ ys) = writes xs ++ writes ys :=
  List.filterMap_append

theorem spares_of_writes {path : String} {steps : List WriteStep}
    (h : ∀ f ∈ writes steps, LeadApart path f.1) : ∀ s ∈ steps, s.Spares path := by
  intro s hs
  cases s with
  | makeDirs path' => exact trivial
  | writeFile path' text => exact h (path', text) (List.mem_filterMap.mpr ⟨_, hs, rfl⟩)

/-- **A run that writes no file twice has written them all.** -/
theorem hasFile_of_mem_writes {t t' : FileTree} {steps : List WriteStep}
    (hapart : (writes steps).Pairwise fun f g => LeadApart f.1 g.1)
    (hrun : runAll t steps = (t', none)) :
    ∀ f ∈ writes steps, t'.HasFile f.1 f.2.toUTF8 := by
  induction steps generalizing t with
  | nil => exact fun f hf => absurd hf List.not_mem_nil
  | cons s steps ih =>
    obtain ⟨u, hstep, hrest⟩ := runAll_cons hrun
    cases s with
    | makeDirs path => exact ih hapart hrest
    | writeFile path text =>
      obtain ⟨hfirst, hothers⟩ := List.pairwise_cons.mp hapart
      refine List.forall_mem_cons.mpr ⟨?_, ih hothers hrest⟩
      exact hasFile_runAll (hasFile_of_write (run_writeFile_eq hstep)) (spares_of_writes hfirst)
        hrest

end WriteStep
end TypeAtlas
