import TypeAtlas.Proofs.Files.Writers
import Mathlib.Algebra.GroupWithZero.Nat

/-! # Jobs of writers

A job is to make one directory with those above it and then to write files in it
(`Job`).  Given are jobs of which each names its own files, and a tree in which they can be
done one after another.  Then they can be done by writers that take turns in any way: no
access fails, every run comes to an end, and in the end the tree holds the same as after
the sequential run (`Job.settles`).

The sequential run is itself one of the ways to take turns (`Job.reach_of_runAll`).  Its
last tree bounds what any other run can do, and the last tree of the other run bounds the
sequential one; where each of two trees is between the first tree and the other, they hold
the same.
-/
namespace TypeAtlas

open FileTree (HasFile)
open Relation (ReflTransGen)

/-! ### Trees that hold the same -/

namespace FileTree

/-- The same stands at every place, and relative paths begin at the same one. -/
structure Same (t u : FileTree) : Prop where
  workingDir_eq : u.workingDir = t.workingDir
  get?_eq : ∀ p, u.get? p = t.get? p

theorem Same.rfl {t : FileTree} : t.Same t :=
  ⟨Eq.refl _, fun _ => Eq.refl _⟩

theorem Same.symm {t u : FileTree} (h : t.Same u) : u.Same t :=
  ⟨h.workingDir_eq.symm, fun p => (h.get?_eq p).symm⟩

theorem Same.matures {t u : FileTree} (h : t.Same u) : t.Matures u :=
  Keeps.matures ⟨h.workingDir_eq, fun p _ hp => (h.get?_eq p).trans hp⟩

theorem Same.locate {t u : FileTree} (h : t.Same u) (path : String) :
    u.locate path = t.locate path := by
  have hstep : u.step = t.step := by
    funext at_ piece
    rw [step, step, h.get?_eq]
  simp only [FileTree.locate, follow, hstep, origin, h.workingDir_eq]

theorem Same.readText {t u : FileTree} (h : t.Same u) (path : String) :
    u.readText path = t.readText path := by
  simp only [FileTree.readText, read, lookup, h.locate, h.get?_eq]

/-- Of two trees, each is between a first one and the other. -/
theorem same_of_between {t t' u v : FileTree} (h : t.Same t') (hv : Between t' u v)
    (hu : Between t v u) : v.Same u := by
  refine ⟨?_, fun p => ?_⟩
  · rw [hu.workingDir_eq, hv.workingDir_eq, h.workingDir_eq]
  · rcases hu.entry p with he | he
    · rcases hv.entry p with hv | hv
      · rw [he, hv, h.get?_eq]
      · exact hv.symm
    · exact he

end FileTree

/-! ### Runs come to an end -/

/-- How many turns an access can still give rise to. -/
def Access.weight : Access → Nat
  | enter chain => 3 * chain.length + 2
  | again _ => 2
  | check _ _ => 1
  | put _ _ => 1

/-- How many turns a writer can still take. -/
def Access.total (as : List Access) : Nat :=
  (as.map weight).sum

namespace Access

theorem total_append (as bs : List Access) : total (as ++ bs) = total as + total bs := by
  rw [total, List.map_append, List.sum_append]
  rfl

/-- An access leaves less behind than it was. -/
theorem total_lt_weight {a : Access} {t t' : FileTree} {more : List Access}
    (h : a.run t = .ok (t', more)) : total more < a.weight := by
  cases a with
  | enter chain =>
    cases chain with
    | nil => cases h
    | cons path above =>
      rw [run] at h
      split at h
      · cases h
        exact Nat.succ_pos _
      · split at h
        · cases h
          exact Nat.succ_pos _
        · cases h
          simp only [total, weight, List.map_cons, List.map_nil, List.sum_cons, List.sum_nil,
            List.length_cons]
          omega
        · cases h
          simp only [total, weight, List.map_cons, List.map_nil, List.sum_cons, List.sum_nil]
          omega
  | again path =>
    rw [run] at h
    split at h
    · cases h
      exact Nat.succ_pos _
    · cases h
      exact Nat.lt_succ_self 1
  | check path fault =>
    rw [run] at h
    split at h
    · cases h
      exact Nat.succ_pos _
    · cases h
  | put path text =>
    rw [run] at h
    cases hw : t.write path text.toUTF8 with
    | error fault =>
      rw [hw] at h
      cases h
    | ok written =>
      rw [hw] at h
      cases h
      exact Nat.succ_pos _

end Access

namespace Writers

/-- How many turns can still be taken. -/
def weight (w : Writers) : Nat :=
  (w.left.map Access.total).sum

theorem Step.weight_lt {w w' : Writers} (h : Step w w') : w'.weight < w.weight := by
  cases h with
  | @turn t t' a more rest before after hrun =>
    have hlt := Access.total_lt_weight hrun
    have hcons : Access.total (a :: rest) = a.weight + Access.total rest := by
      rw [Access.total, List.map_cons, List.sum_cons]
      rfl
    simp only [weight, List.map_append, List.map_cons, List.sum_append, List.sum_cons,
      Access.total_append, hcons]
    omega

/-- There is no way to take turns forever. -/
theorem wellFounded_step : WellFounded fun w' w : Writers => Step w w' :=
  Subrelation.wf (fun h => Step.weight_lt h) (measure weight).wf

/-- Writers of whom none can take a turn are done, or one of them has failed. -/
theorem done_of_no_step {w : Writers} (hfails : ¬ w.Fails) (hstep : ∀ w', ¬ Step w w') :
    w.Done := by
  intro as has
  cases as with
  | nil => rfl
  | cons a rest =>
    exfalso
    obtain ⟨t, left⟩ := w
    obtain ⟨before, after, rfl⟩ := List.append_of_mem has
    cases hrun : a.run t with
    | error fault => exact hfails ⟨a, rest, fault, has, hrun⟩
    | ok result => exact hstep _ (.turn hrun)

/-- However the writers take turns, it comes to an end without a failure, and then all of them are
done and the tree holds what another tree holds. -/
structure Settles (start : Writers) (last : FileTree) : Prop where
  ends : Acc (fun w' w => Step w w') start
  not_fails : ∀ w, ReflTransGen Step start w → ¬ w.Fails
  same : ∀ w, ReflTransGen Step start w → (∀ w', ¬ Step w w') → w.Done ∧ w.tree.Same last

end Writers

/-! ### Jobs -/

/-- A directory to make and files to write in it: their names and texts. -/
structure Job where
  dir : String
  files : List (String × String)

namespace Job

/-- The paths of the files with their texts. -/
def written (j : Job) : List (String × String) :=
  j.files.map fun f => (Path.join j.dir f.1, f.2)

theorem mem_written {j : Job} {f : String × String} (h : f ∈ j.files) :
    (Path.join j.dir f.1, f.2) ∈ j.written :=
  List.mem_map_of_mem h

/-- The steps of a job. -/
def steps (j : Job) : List WriteStep :=
  .makeDirs j.dir :: j.written.map fun f => .writeFile f.1 f.2

/-- One writer for each job, before any of them has begun. -/
def start (t : FileTree) (jobs : List Job) : Writers :=
  ⟨t, jobs.map fun j => j.steps.map WriteStep.access⟩

/-- The job writes files, under names. -/
structure Proper (j : Job) : Prop where
  ne_nil : j.files ≠ []
  isName : ∀ f ∈ j.files, Path.IsName f.1

/-- The directory of the job stands or can be made. -/
structure Fits (t : FileTree) (j : Job) : Prop extends Proper j where
  chain : t.Stands j.dir ∨ Path.IsChain t.Stands (Path.chain j.dir)

/-- Where a job has been done, its directory stands. -/
theorem Proper.stands {v : FileTree} {j : Job} (h : j.Proper)
    (hv : ∀ f ∈ j.written, v.HasFile f.1 f.2.toUTF8) : v.Stands j.dir := by
  obtain ⟨f, hf⟩ := List.exists_mem_of_ne_nil _ h.ne_nil
  obtain ⟨place, hl, -⟩ := hv _ (mem_written hf)
  exact FileTree.stands_of_extends (Path.extends_join j.dir (h.isName f hf)) hl

theorem linked_files {v : FileTree} {dir : String} {files : List (String × String)}
    (hname : ∀ f ∈ files, Path.IsName f.1)
    (hv : ∀ f ∈ files, v.HasFile (Path.join dir f.1) f.2.toUTF8) :
    Linked v dir (files.map fun f => .put (Path.join dir f.1) f.2) := by
  induction files with
  | nil => exact .done
  | cons f files ih =>
    obtain ⟨hf, hfiles⟩ := List.forall_mem_cons.mp hname
    obtain ⟨hvf, hvfiles⟩ := List.forall_mem_cons.mp hv
    exact .put (Path.extends_join dir hf) (Path.endsInSlash_join dir hf) hvf (ih hfiles hvfiles)

/-- A writer that has not begun is sound. -/
theorem Fits.sound {t v : FileTree} {j : Job} (h : j.Fits t)
    (hv : ∀ f ∈ j.written, v.HasFile f.1 f.2.toUTF8) :
    Sound t v t (j.steps.map WriteStep.access) := by
  have haccess : j.steps.map WriteStep.access =
      .enter (Path.chain j.dir) :: j.files.map fun f => .put (Path.join j.dir f.1) f.2 := by
    simp only [steps, written, List.map_cons, List.map_map, Function.comp_def, WriteStep.access]
  have hput : ∀ f ∈ j.files, v.HasFile (Path.join j.dir f.1) f.2.toUTF8 :=
    fun f hf => hv (Path.join j.dir f.1, f.2) (mem_written hf)
  have hdir := h.chain
  obtain ⟨above, hchain⟩ := Path.chain_eq_cons j.dir
  rw [hchain] at haccess hdir
  rw [haccess]
  exact .enter (h.stands hv) hdir (linked_files h.isName hput)

theorem Fits.of_same {t t' : FileTree} {j : Job} (h : j.Fits t) (hsame : t.Same t') :
    j.Fits t' := by
  refine ⟨h.toProper, h.chain.imp hsame.matures.stands fun hchain => ?_⟩
  exact hchain.mono fun _ => hsame.matures.stands

/-! ### Working one after another -/

theorem lift_alone {before after : List (List Access)} {t t' : FileTree} {as as' : List Access}
    (h : ReflTransGen Access.Alone (t, as) (t', as')) :
    ReflTransGen Writers.Step ⟨t, before ++ as :: after⟩ ⟨t', before ++ as' :: after⟩ := by
  refine h.lift (fun s => (⟨s.1, before ++ s.2 :: after⟩ : Writers)) ?_
  rintro _ _ ⟨hrun⟩
  exact .turn hrun

/-- **To work one after another is a way to take turns.** -/
theorem reach_of_runAll {jobs : List Job} {t u : FileTree}
    (h : WriteStep.runAll t (jobs.flatMap steps) = (u, none)) :
    ∃ w, ReflTransGen Writers.Step (start t jobs) w ∧ w.Done ∧ w.tree = u := by
  have hreach : ∀ before, ReflTransGen Writers.Step
      ⟨t, before ++ jobs.map fun j => j.steps.map WriteStep.access⟩
      ⟨u, before ++ jobs.map fun _ => []⟩ := by
    induction jobs generalizing t with
    | nil =>
      obtain ⟨rfl, -⟩ := Prod.mk.inj h
      exact fun before => .refl
    | cons j jobs ih =>
      intro before
      rw [List.flatMap_cons] at h
      obtain ⟨mid, hfirst, hrest⟩ := WriteStep.runAll_append h
      have halone : ReflTransGen Access.Alone (t, j.steps.map WriteStep.access ++ []) (mid, []) :=
        Access.alone_of_runAll hfirst
      rw [List.append_nil] at halone
      have hothers := ih hrest (before ++ [[]])
      simp only [List.append_assoc, List.singleton_append] at hothers
      exact (lift_alone halone).trans hothers
  refine ⟨_, hreach [], fun as has => ?_, rfl⟩
  obtain ⟨j, -, rfl⟩ := List.mem_map.mp has
  rfl

theorem matures_runAll {t u : FileTree} {steps : List WriteStep}
    (h : WriteStep.runAll t steps = (u, none)) : t.Matures u := by
  induction steps generalizing t with
  | nil =>
    obtain ⟨rfl, -⟩ := Prod.mk.inj h
    exact .rfl
  | cons s steps ih =>
    obtain ⟨next, hstep, hrest⟩ := WriteStep.runAll_cons h
    refine FileTree.Matures.trans ?_ (ih hrest)
    cases s with
    | makeDirs path => exact (WriteStep.run_makeDirs_keeps hstep).matures
    | writeFile path text => exact FileTree.matures_write (WriteStep.run_writeFile_eq hstep)

/-! ### Taking turns -/

/-- All files of some jobs. -/
def allWritten (jobs : List Job) : List (String × String) :=
  jobs.flatMap written

theorem onWay_start {jobs : List Job} {t v : FileTree} (hfits : ∀ j ∈ jobs, j.Fits t)
    (hv : ∀ f ∈ allWritten jobs, v.HasFile f.1 f.2.toUTF8) :
    Writers.OnWay t v (allWritten jobs) (start t jobs) := by
  refine ⟨.left, fun as has => ?_, fun f hf => Or.inl ?_⟩
  · obtain ⟨j, hj, rfl⟩ := List.mem_map.mp has
    exact (hfits j hj).sound fun f hf => hv f (List.mem_flatMap.mpr ⟨j, hj, hf⟩)
  · obtain ⟨j, hj, hf⟩ := List.mem_flatMap.mp hf
    refine ⟨_, List.mem_map_of_mem hj, ?_⟩
    rw [steps, List.map_cons, List.map_map]
    exact List.mem_cons_of_mem _ (List.mem_map_of_mem hf)

/-- **Writers that take turns do what they do one after another.**  The tree that they start with
may be another one that holds the same. -/
theorem settles {jobs : List Job} {t t' u : FileTree} (hsame : t.Same t')
    (hfits : ∀ j ∈ jobs, j.Fits t) (hrun : WriteStep.runAll t (jobs.flatMap steps) = (u, none))
    (hfiled : ∀ f ∈ allWritten jobs, u.HasFile f.1 f.2.toUTF8) :
    (start t' jobs).Settles u := by
  have htu : t.Matures u := matures_runAll hrun
  have ht'u : t'.Matures u := hsame.symm.matures.trans htu
  have honway : ∀ w, ReflTransGen Writers.Step (start t' jobs) w →
      Writers.OnWay t' u (allWritten jobs) w := fun w hreach =>
    (onWay_start (fun j hj => (hfits j hj).of_same hsame) hfiled).steps ht'u hfiled hreach
  refine ⟨Writers.wellFounded_step.apply _, fun w hreach => (honway w hreach).not_fails ht'u, ?_⟩
  intro w hreach hlast
  have hw := honway w hreach
  have hdone : w.Done := Writers.done_of_no_step (hw.not_fails ht'u) hlast
  refine ⟨hdone, ?_⟩
  -- now the sequential run is seen from the last tree of this one
  have hv := hw.hasFile_of_done hdone
  have htv : t.Matures w.tree := hsame.matures.trans (hw.between.matures_left ht'u)
  obtain ⟨w', hreach', -, rfl⟩ := reach_of_runAll hrun
  have hseq := (onWay_start hfits hv).steps htv hv hreach'
  exact FileTree.same_of_between hsame hw.between hseq.between

/-! ### Directories that can be made -/

/-- A job with a relative directory can be done only if relative paths begin at a directory. -/
theorem get?_workingDir_of_runAll {j : Job} {t u : FileTree} (hproper : j.Proper)
    (hdir : Path.EndsInName j.dir) (hrel : Path.isAbsolute j.dir = false)
    (hrun : WriteStep.runAll t j.steps = (u, none)) : t.get? t.workingDir = some .directory := by
  by_contra hbegin
  obtain ⟨⟨name, text⟩, files, hfiles⟩ := List.exists_cons_of_ne_nil hproper.ne_nil
  have hname : Path.IsName name := hproper.isName (name, text) (hfiles ▸ List.mem_cons_self)
  have hsteps : j.steps = .makeDirs j.dir ::
      .writeFile (Path.join j.dir name) text :: files.map fun f =>
        .writeFile (Path.join j.dir f.1) f.2 := by
    rw [steps, written, hfiles, List.map_cons, List.map_cons, List.map_map]
    rfl
  rw [hsteps] at hrun
  obtain ⟨mid, hmake, hrest⟩ := WriteStep.runAll_cons hrun
  obtain ⟨written, hwrite, -⟩ := WriteStep.runAll_cons hrest
  obtain ⟨place, hl, -⟩ := FileTree.write_eq_ok (WriteStep.run_writeFile_eq hwrite)
  have hext := Path.extends_join j.dir hname
  have hchain : Path.IsChain (fun _ => True) (Path.chain j.dir) :=
    Path.isChain_chain hdir.isTrim (hext.nulFree (FileTree.locate_eq_ok_iff.mp hl).1)
      fun _ _ _ _ => trivial
  have hpaths : ∀ p ∈ Path.chain j.dir, Path.isAbsolute p = false := by
    obtain ⟨above, hcons⟩ := Path.chain_eq_cons j.dir
    rw [hcons] at hchain ⊢
    exact List.forall_mem_cons.mpr ⟨hrel, fun q hq => (hchain.isAbsolute_eq q hq).trans hrel⟩
  -- no directory is made, so the file is looked for in the tree as it was
  have hmid : mid = t := by
    have hself := FileTree.makeChain_eq_self hbegin hpaths
    rwa [← FileTree.makeDirs, WriteStep.run_makeDirs_eq hmake] at hself
  rw [hmid] at hl
  exact hbegin (FileTree.get?_workingDir_of_locate (hext.isAbsolute_eq.symm.trans hrel) hl)

/-- Jobs that can be done one after another fit the tree, if their directories are all relative or
all absolute. -/
theorem fits_of_runAll {jobs : List Job} {t u : FileTree} (hproper : ∀ j ∈ jobs, j.Proper)
    (hdir : ∀ j ∈ jobs, Path.EndsInName j.dir) {absolute : Bool}
    (habs : ∀ j ∈ jobs, Path.isAbsolute j.dir = absolute)
    (hrun : WriteStep.runAll t (jobs.flatMap steps) = (u, none))
    (hfiled : ∀ f ∈ allWritten jobs, u.HasFile f.1 f.2.toUTF8) : ∀ j ∈ jobs, j.Fits t := by
  have hbegin : absolute = false → jobs ≠ [] → t.get? t.workingDir = some .directory := by
    intro hrel hne
    obtain ⟨j, others, rfl⟩ := List.exists_cons_of_ne_nil hne
    rw [List.flatMap_cons] at hrun
    obtain ⟨mid, hfirst, -⟩ := WriteStep.runAll_append hrun
    have hmem : j ∈ j :: others := List.mem_cons_self
    exact get?_workingDir_of_runAll (hproper j hmem) (hdir j hmem) ((habs j hmem).trans hrel) hfirst
  intro j hj
  have hstands : u.Stands j.dir :=
    (hproper j hj).stands fun f hf => hfiled f (List.mem_flatMap.mpr ⟨j, hj, hf⟩)
  refine ⟨hproper j hj, Or.inr (Path.isChain_chain (hdir j hj).isTrim hstands.nulFree ?_)⟩
  intro q hq hnul hnone
  refine FileTree.stands_of_parent?_eq_none hnone hnul fun hrel => ?_
  exact hbegin ((habs j hj).symm.trans (hq.symm.trans hrel)) (List.ne_nil_of_mem hj)

end Job
end TypeAtlas
