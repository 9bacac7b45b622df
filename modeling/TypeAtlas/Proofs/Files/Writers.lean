import TypeAtlas.Proofs.Files.Standing
import Mathlib.Logic.Relation

/-! # Writers that take turns

Several writers work on one tree.  Each has a list of accesses, and they take turns in any
way whatever.  An access is one thing that is done to the tree at once: to try to make one
directory, to look whether it is there already, or to write one file.  To make a directory
with those above it takes a writer several accesses, and others may come in between
(`Access.run`).  A writer that works alone does what `WriteStep.runAll` does
(`alone_of_runAll`).

What is followed here is one tree `v` that the writers are known to be able to reach: the
tree is always *between* the first one and `v` (`FileTree.Between`).  So directories are
missing at worst, never anything else is in the way, and every file that is written gets
the text that it has in `v`.  A writer whose accesses all belong to `v` is sound
(`Sound`), its next access succeeds, and what is left is sound again (`Sound.run`).
-/
namespace TypeAtlas

open FileTree (HasFile)
open Relation (ReflTransGen)

/-! ### How directories are made -/

namespace FileTree

theorem makeDir_of_isDirectory {t : FileTree} {path : String} (h : t.isDirectory path = true) :
    t.makeDir path = .error .alreadyExists := by
  obtain ⟨hne, hstands⟩ := isDirectory_iff.mp h
  obtain ⟨place, hl, hget⟩ := hstands.locate hne
  simp [makeDir, hl, hget, bind, Except.bind]

/-- A directory is made, or it is there already. -/
def Makes (t : FileTree) (path : String) (t' : FileTree) : Prop :=
  t.makeDir path = .ok t' ∨ t.isDirectory path = true ∧ t' = t

theorem makes_of_error {t t' : FileTree} {path : String} {fault : FileFault}
    (h : (t, if t.isDirectory path then none else some fault) = (t', none)) : t.Makes path t' := by
  obtain ⟨rfl, hnone⟩ := Prod.mk.inj h
  split_ifs at hnone with hdir
  exact Or.inr ⟨hdir, rfl⟩

/-- How a chain of directories comes to be made: there is nothing to do, its first directory is
made at once, or those above it are made before. -/
theorem makeChain_cases {t t' : FileTree} {path : String} {above : List String}
    (h : t.makeChain (path :: above) = (t', none)) :
    path = "" ∧ t' = t ∨ path ≠ "" ∧ t.Makes path t' ∨
      path ≠ "" ∧ t.makeDir path = .error .notFound ∧
        ∃ under, t.makeChain above = (under, none) ∧ under.Makes path t' := by
  rw [makeChain] at h
  by_cases hne : path = ""
  · rw [if_pos hne] at h
    exact Or.inl ⟨hne, (Prod.mk.inj h).1.symm⟩
  rw [if_neg hne] at h
  right
  split at h
  · rename_i made hmake
    exact Or.inl ⟨hne, Or.inl ((Prod.mk.inj h).1 ▸ hmake)⟩
  · rename_i hmake
    right
    refine ⟨hne, hmake, ?_⟩
    split at h
    · cases (Prod.mk.inj h).2
    · rename_i under hunder
      refine ⟨under, hunder, ?_⟩
      split at h
      · rename_i made hagain
        exact Or.inl ((Prod.mk.inj h).1 ▸ hagain)
      · exact makes_of_error h
  · exact Or.inl ⟨hne, makes_of_error h⟩

end FileTree

/-! ### Accesses -/

/-- One access of a writer to the tree. -/
inductive Access where
  /-- Makes the first directory of a chain; if those above it are missing, they come first. -/
  | enter (chain : List String)
  /-- Makes a directory after those above it. -/
  | again (path : String)
  /-- Looks whether a directory that could not be made is there already. -/
  | check (path : String) (fault : FileFault)
  /-- Writes a file. -/
  | put (path text : String)

namespace Access

/-- Takes an access: the tree behind it, and what the writer has to do before all else. -/
def run (t : FileTree) : Access → Except FileFault (FileTree × List Access)
  | enter [] => .error .notFound
  | enter (path :: above) =>
    if path = "" then .ok (t, [])
    else
      match t.makeDir path with
      | .ok made => .ok (made, [])
      | .error .notFound => .ok (t, [.enter above, .again path])
      | .error fault => .ok (t, [.check path fault])
  | again path =>
    match t.makeDir path with
    | .ok made => .ok (made, [])
    | .error fault => .ok (t, [.check path fault])
  | check path fault => if t.isDirectory path then .ok (t, []) else .error fault
  | put path text => (t.write path text.toUTF8).map fun written => (written, [])

/-- One turn of a writer that is alone. -/
inductive Alone : FileTree × List Access → FileTree × List Access → Prop where
  | turn {t t' : FileTree} {a : Access} {more rest : List Access} (h : a.run t = .ok (t', more)) :
      Alone (t, a :: rest) (t', more ++ rest)

/-- A turn that leaves nothing behind. -/
theorem Alone.finish {t t' : FileTree} {a : Access} {rest : List Access}
    (h : a.run t = .ok (t', [])) : Alone (t, a :: rest) (t', rest) :=
  .turn h

theorem alone_again {t t' : FileTree} {path : String} {rest : List Access} (h : t.Makes path t') :
    ReflTransGen Alone (t, .again path :: rest) (t', rest) := by
  rcases h with hmake | ⟨hdir, rfl⟩
  · refine .single (.finish ?_)
    rw [run, hmake]
  · have hrun : (again path).run t' = .ok (t', [.check path .alreadyExists]) := by
      rw [run, FileTree.makeDir_of_isDirectory hdir]
    exact .head (.turn hrun) (.single (.finish (if_pos hdir)))

theorem alone_enter {t t' : FileTree} {path : String} {rest : List Access} {chain : List String}
    (hne : path ≠ "") (h : t.Makes path t') :
    ReflTransGen Alone (t, .enter (path :: chain) :: rest) (t', rest) := by
  rcases h with hmake | ⟨hdir, rfl⟩
  · refine .single (.finish ?_)
    rw [run, if_neg hne, hmake]
  · have hrun : (enter (path :: chain)).run t' = .ok (t', [.check path .alreadyExists]) := by
      rw [run, if_neg hne, FileTree.makeDir_of_isDirectory hdir]
    exact .head (.turn hrun) (.single (.finish (if_pos hdir)))

/-- A writer that is alone makes a chain of directories. -/
theorem alone_makeChain {paths : List String} {t t' : FileTree} {rest : List Access}
    (h : t.makeChain paths = (t', none)) :
    ReflTransGen Alone (t, .enter paths :: rest) (t', rest) := by
  induction paths generalizing t t' rest with
  | nil => cases (Prod.mk.inj h).2
  | cons path above ih =>
    rcases FileTree.makeChain_cases h with ⟨hempty, rfl⟩ | ⟨hne, hmakes⟩ |
      ⟨hne, hmissing, under, hunder, hmakes⟩
    · exact .single (.finish (if_pos hempty))
    · exact alone_enter hne hmakes
    · have hrun : (enter (path :: above)).run t = .ok (t, [.enter above, .again path]) := by
        rw [run, if_neg hne, hmissing]
      exact .head (.turn hrun) ((ih hunder).trans (alone_again hmakes))

end Access

/-- The access with which a step begins. -/
def WriteStep.access : WriteStep → Access
  | makeDirs path => .enter (Path.chain path)
  | writeFile path text => .put path text

namespace Access

theorem alone_run {t t' : FileTree} {s : WriteStep} {rest : List Access}
    (h : s.run t = (t', none)) : ReflTransGen Alone (t, s.access :: rest) (t', rest) := by
  cases s with
  | makeDirs path => exact alone_makeChain (WriteStep.run_makeDirs_eq h)
  | writeFile path text =>
    refine .single (.finish ?_)
    rw [WriteStep.access, run, WriteStep.run_writeFile_eq h]
    rfl

/-- **A writer that is alone does what its steps do one after another.** -/
theorem alone_of_runAll {steps : List WriteStep} {t t' : FileTree} {rest : List Access}
    (h : WriteStep.runAll t steps = (t', none)) :
    ReflTransGen Alone (t, steps.map WriteStep.access ++ rest) (t', rest) := by
  induction steps generalizing t with
  | nil =>
    obtain ⟨rfl, -⟩ := Prod.mk.inj h
    exact .refl
  | cons s steps ih =>
    obtain ⟨u, hstep, hrest⟩ := WriteStep.runAll_cons h
    exact (alone_run hstep).trans (ih hrest)

end Access

/-! ### Trees on the way from one to another -/

namespace FileTree

/-- At every place the tree holds what one of two trees holds there. -/
structure Between (t v s : FileTree) : Prop where
  workingDir_eq : s.workingDir = t.workingDir
  entry : ∀ p, s.get? p = t.get? p ∨ s.get? p = v.get? p

theorem Between.left {t v : FileTree} : Between t v t :=
  ⟨rfl, fun _ => Or.inl rfl⟩

theorem Between.trans {t v s s' : FileTree} (h : Between t v s) (h' : Between s v s') :
    Between t v s' := by
  refine ⟨h'.workingDir_eq.trans h.workingDir_eq, fun p => ?_⟩
  rcases h'.entry p with he | he
  · rw [he]
    exact h.entry p
  · exact Or.inr he

theorem between_set {s v : FileTree} {place : Place} {e : Entry} (hne : place ≠ [])
    (h : v.get? place = some e) : Between s v (s.set place e) := by
  refine ⟨workingDir_set s place e, fun p => ?_⟩
  by_cases hp : p = place
  · subst hp
    exact Or.inr (by rw [get?_set_self s e hne, h])
  · exact Or.inl (get?_set_other s e hp)

section
variable {t v s : FileTree} (h : Between t v s) (hm : t.Matures v)
include h hm

/-- What is on the way goes on to the end of the way. -/
theorem Between.matures : s.Matures v := by
  refine ⟨⟨hm.workingDir_eq.trans h.workingDir_eq.symm, fun p hp => ?_⟩, fun p bytes hp => ?_⟩
  · rcases h.entry p with he | he
    · exact hm.directory p (he ▸ hp)
    · exact he ▸ hp
  · rcases h.entry p with he | he
    · exact hm.file p bytes (he ▸ hp)
    · exact ⟨bytes, he ▸ hp⟩

theorem Between.matures_left : t.Matures s := by
  refine ⟨⟨h.workingDir_eq, fun p hp => ?_⟩, fun p bytes hp => ?_⟩
  · rcases h.entry p with he | he
    · rw [he, hp]
    · rw [he, hm.directory p hp]
  · rcases h.entry p with he | he
    · exact ⟨bytes, by rw [he, hp]⟩
    · rw [he]
      exact hm.file p bytes hp

/-- A file that is as it will be stays so. -/
theorem Between.hasFile {path : String} {bytes : ByteArray} (ht : t.HasFile path bytes)
    (hv : v.HasFile path bytes) : s.HasFile path bytes := by
  obtain ⟨place, hl, hget⟩ := ht
  obtain ⟨place', hl', hget'⟩ := hv
  obtain rfl : place = place' := Except.ok.inj ((hm.locate hl).symm.trans hl')
  refine ⟨place, (h.matures_left hm).locate hl, ?_⟩
  rcases h.entry place with he | he
  · rw [he, hget]
  · rw [he, hget']

end
end FileTree

/-! ### What a writer has still to do -/

/-- What is left once a directory stands: directories, each in the one before, then files in the
last one.  In the tree `v` all this is done. -/
inductive Linked (v : FileTree) : String → List Access → Prop where
  | done {q : String} : Linked v q []
  | again {q p : String} {rest : List Access} (he : Path.Extends q p) (hp : v.Stands p)
      (hrest : Linked v p rest) : Linked v q (.again p :: rest)
  | put {q path text : String} {rest : List Access} (he : Path.Extends q path)
      (hslash : Path.endsInSlash path = false) (hfile : v.HasFile path text.toUTF8)
      (hrest : Linked v q rest) : Linked v q (.put path text :: rest)

/-- What is left of a writer's accesses in the tree `s`, on the way from `t` to `v`. -/
inductive Sound (t v s : FileTree) : List Access → Prop where
  | enter {p : String} {above : List String} {rest : List Access} (hv : v.Stands p)
      (hchain : s.Stands p ∨ Path.IsChain t.Stands (p :: above)) (hrest : Linked v p rest) :
      Sound t v s (.enter (p :: above) :: rest)
  | check {p : String} {fault : FileFault} {rest : List Access} (hne : p ≠ "") (hp : s.Stands p)
      (hrest : Linked v p rest) : Sound t v s (.check p fault :: rest)
  | linked {q : String} {as : List Access} (hq : s.Stands q) (has : Linked v q as) :
      Sound t v s as

namespace Sound
variable {t v s : FileTree}

/-- Others may go on. -/
theorem mono {s' : FileTree} {as : List Access} (h : Sound t v s as) (hs : s.Matures s') :
    Sound t v s' as := by
  cases h with
  | enter hv hchain hrest => exact .enter hv (hchain.imp_left hs.stands) hrest
  | check hne hp hrest => exact .check hne (hs.stands hp) hrest
  | linked hq has => exact .linked (hs.stands hq) has

/-- To make a directory that stands in the end either makes it, or finds it, or finds that the
way to it is missing. -/
theorem makeDir_cases (hm : s.Matures v) {p : String} (hne : p ≠ "") (hv : v.Stands p) :
    (∃ made, s.makeDir p = .ok made ∧ FileTree.Between s v made ∧ made.Stands p) ∨
      (s.makeDir p = .error .alreadyExists ∧ s.Stands p) ∨
      s.makeDir p = .error .notFound ∧ ∃ fault, s.locate p = .error fault := by
  obtain ⟨place, hl, hget⟩ := hv.locate hne
  cases hs : s.locate p with
  | error fault =>
    right
    right
    obtain rfl := hm.locate_eq_error hl hs
    exact ⟨by simp [FileTree.makeDir, hs, bind, Except.bind], _, rfl⟩
  | ok place' =>
    obtain rfl : place' = place := Except.ok.inj ((hm.locate hs).symm.trans hl)
    cases hentry : s.get? place' with
    | none =>
      left
      have hroot : place' ≠ [] := by
        rintro rfl
        cases hentry
      have hmade : s.makeDir p = .ok (s.set place' .directory) := by
        simp [FileTree.makeDir, hs, hentry, bind, Except.bind]
      refine ⟨_, hmade, FileTree.between_set hroot hget, ?_⟩
      exact FileTree.stands_of_locate ((FileTree.makeDir_eq_ok hmade).grows.locate hs)
        (FileTree.get?_set_self s _ hroot)
    | some e =>
      right
      left
      obtain rfl := hm.get?_eq_directory hget hentry
      refine ⟨?_, FileTree.stands_of_locate hs hentry⟩
      simp [FileTree.makeDir, hs, hentry, bind, Except.bind]

/-- To write a file that is there in the end, in a directory that stands, writes it. -/
theorem write_eq_ok (hm : s.Matures v) {q path : String} {bytes : ByteArray} (hq : s.Stands q)
    (he : Path.Extends q path) (hslash : Path.endsInSlash path = false)
    (hv : v.HasFile path bytes) :
    ∃ written, s.write path bytes = .ok written ∧ FileTree.Between s v written := by
  obtain ⟨place, hl, hget⟩ := hv
  have hs : s.locate path = .ok place := hm.locate_of_extends hq he hl
  have hdir : s.get? place ≠ some .directory := by
    intro hs
    rw [hm.directory place hs] at hget
    cases hget
  have hroot : place ≠ [] := by
    rintro rfl
    exact hdir (if_pos rfl)
  exact ⟨_, FileTree.write_of_locate hs hslash hdir, FileTree.between_set hroot hget⟩

/-- **The next access of a sound writer succeeds**, the tree stays on the way, and what is left is
sound again. -/
theorem run (hm : t.Matures v) (hb : FileTree.Between t v s) {a : Access} {rest : List Access}
    (h : Sound t v s (a :: rest)) :
    ∃ s' more, a.run s = .ok (s', more) ∧ FileTree.Between s v s' ∧ Sound t v s' (more ++ rest) ∧
      ∀ path text, a = .put path text → s'.HasFile path text.toUTF8 := by
  have hsv : s.Matures v := hb.matures hm
  have hts : t.Matures s := hb.matures_left hm
  cases h with
  | @enter p above rest hv hchain hrest =>
    by_cases hempty : p = ""
    · subst hempty
      refine ⟨s, [], by rw [Access.run, if_pos rfl], .left, .linked ?_ hrest, nofun⟩
      rcases hchain with hstands | hchain
      · exact hstands
      · cases above with
        | nil => exact hts.stands hchain
        | cons q above => exact absurd rfl hchain.1.ne_empty
    · rcases makeDir_cases hsv hempty hv with ⟨made, hmake, hbetween, hstands⟩ |
        ⟨hmake, hstands⟩ | ⟨hmake, fault, hmissing⟩
      · exact ⟨made, [], by rw [Access.run, if_neg hempty, hmake], hbetween,
          .linked hstands hrest, nofun⟩
      · exact ⟨s, [.check p .alreadyExists], by rw [Access.run, if_neg hempty, hmake], .left,
          .check hempty hstands hrest, nofun⟩
      · -- the way to it is missing, so it does not stand, and it is not the last of its chain
        have hnot : ¬ s.Stands p := by
          intro hstands
          obtain ⟨place, hl, -⟩ := hstands.locate hempty
          rw [hl] at hmissing
          cases hmissing
        have hchain := hchain.resolve_left hnot
        cases above with
        | nil => exact absurd (hts.stands hchain) hnot
        | cons q above =>
          refine ⟨s, [.enter (q :: above), .again p], ?_, .left, ?_, nofun⟩
          · rw [Access.run, if_neg hempty, hmake]
          · exact .enter (hv.of_extends hchain.1) (Or.inr hchain.2) (.again hchain.1 hv hrest)
  | @check p fault rest hne hp hrest =>
    have hdir : s.isDirectory p = true := FileTree.isDirectory_iff.mpr ⟨hne, hp⟩
    exact ⟨s, [], if_pos hdir, .left, .linked hp hrest, nofun⟩
  | @linked q as hq has =>
    cases has with
    | @again q p rest he hp hrest =>
      rcases makeDir_cases hsv he.ne_empty hp with ⟨made, hmake, hbetween, hstands⟩ |
        ⟨hmake, hstands⟩ | ⟨-, fault, hmissing⟩
      · exact ⟨made, [], by rw [Access.run, hmake], hbetween, .linked hstands hrest, nofun⟩
      · exact ⟨s, [.check p .alreadyExists], by rw [Access.run, hmake], .left,
          .check he.ne_empty hstands hrest, nofun⟩
      · obtain ⟨place, hl, -⟩ := hp.locate he.ne_empty
        rw [hsv.locate_of_extends hq he hl] at hmissing
        cases hmissing
    | @put q path text rest he hslash hfile hrest =>
      obtain ⟨written, hwrite, hbetween⟩ := write_eq_ok hsv hq he hslash hfile
      refine ⟨written, [], by rw [Access.run, hwrite]; rfl, hbetween, ?_, ?_⟩
      · exact .linked ((hbetween.matures_left hsv).stands hq) hrest
      · intro path' text' heq
        cases heq
        exact FileTree.hasFile_of_write hwrite

end Sound

/-! ### Several writers -/

/-- Writers that work on one tree, and what each of them has still to do. -/
structure Writers where
  tree : FileTree
  left : List (List Access)

namespace Writers

/-- One of the writers takes a turn. -/
inductive Step : Writers → Writers → Prop where
  | turn {t t' : FileTree} {a : Access} {more rest : List Access}
      {before after : List (List Access)} (h : a.run t = .ok (t', more)) :
      Step ⟨t, before ++ (a :: rest) :: after⟩ ⟨t', before ++ (more ++ rest) :: after⟩

/-- The next access of one of the writers fails. -/
def Fails (w : Writers) : Prop :=
  ∃ a rest fault, a :: rest ∈ w.left ∧ a.run w.tree = .error fault

/-- No writer has anything to do. -/
def Done (w : Writers) : Prop :=
  ∀ as ∈ w.left, as = []

/-- The tree is on the way from `t` to `v`, all writers are sound, and every file that is wanted is
still to be written or has been. -/
structure OnWay (t v : FileTree) (wanted : List (String × String)) (w : Writers) : Prop where
  between : FileTree.Between t v w.tree
  sound : ∀ as ∈ w.left, Sound t v w.tree as
  filed : ∀ f ∈ wanted, (∃ as ∈ w.left, Access.put f.1 f.2 ∈ as) ∨ w.tree.HasFile f.1 f.2.toUTF8

variable {t v : FileTree} {wanted : List (String × String)} {w w' : Writers}

theorem OnWay.not_fails (hm : t.Matures v) (h : OnWay t v wanted w) : ¬ w.Fails := by
  rintro ⟨a, rest, fault, hmem, hfault⟩
  obtain ⟨s', more, hrun, -⟩ := (h.sound _ hmem).run hm h.between
  rw [hrun] at hfault
  cases hfault

/-- What one turn keeps. -/
theorem OnWay.step (hm : t.Matures v) (hv : ∀ f ∈ wanted, v.HasFile f.1 f.2.toUTF8)
    (h : OnWay t v wanted w) (hstep : Step w w') : OnWay t v wanted w' := by
  cases hstep with
  | @turn s s' a more rest before after hrun =>
    have hmem : a :: rest ∈ before ++ (a :: rest) :: after :=
      List.mem_append_right _ List.mem_cons_self
    obtain ⟨s'', more', hrun', hbetween, hsound, hput⟩ := (h.sound _ hmem).run hm h.between
    rw [hrun] at hrun'
    obtain ⟨rfl, rfl⟩ := Prod.mk.inj (Except.ok.inj hrun')
    have hsv : s.Matures v := h.between.matures hm
    refine ⟨h.between.trans hbetween, ?_, ?_⟩
    · intro as has
      rcases List.mem_append.mp has with has | has
      · exact (h.sound as (List.mem_append_left _ has)).mono (hbetween.matures_left hsv)
      · rcases List.mem_cons.mp has with rfl | has
        · exact hsound
        · exact (h.sound as (List.mem_append_right _ (List.mem_cons_of_mem _ has))).mono
            (hbetween.matures_left hsv)
    · intro f hf
      rcases h.filed f hf with ⟨as, has, hin⟩ | hfile
      · rcases List.mem_append.mp has with has | has
        · exact Or.inl ⟨as, List.mem_append_left _ has, hin⟩
        · rcases List.mem_cons.mp has with rfl | has
          · rcases List.mem_cons.mp hin with heq | hin
            · exact Or.inr (hput f.1 f.2 heq.symm)
            · exact Or.inl ⟨_, List.mem_append_right _ List.mem_cons_self,
                List.mem_append_right _ hin⟩
          · exact Or.inl ⟨as, List.mem_append_right _ (List.mem_cons_of_mem _ has), hin⟩
      · exact Or.inr (hbetween.hasFile hsv hfile (hv f hf))

/-- What any number of turns keeps. -/
theorem OnWay.steps (hm : t.Matures v) (hv : ∀ f ∈ wanted, v.HasFile f.1 f.2.toUTF8)
    (h : OnWay t v wanted w) (hsteps : ReflTransGen Step w w') : OnWay t v wanted w' := by
  induction hsteps with
  | refl => exact h
  | tail _ hstep ih => exact ih.step hm hv hstep

/-- In the end all wanted files are there. -/
theorem OnWay.hasFile_of_done (h : OnWay t v wanted w) (hdone : w.Done) :
    ∀ f ∈ wanted, w.tree.HasFile f.1 f.2.toUTF8 := by
  intro f hf
  rcases h.filed f hf with ⟨as, has, hin⟩ | hfile
  · rw [hdone as has] at hin
    exact absurd hin List.not_mem_nil
  · exact hfile

end Writers
end TypeAtlas
