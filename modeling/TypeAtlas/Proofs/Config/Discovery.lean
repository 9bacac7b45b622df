import TypeAtlas.Cli.Session
import TypeAtlas.Proofs.Files.WayUp
import Mathlib.Data.Nat.Find
import Mathlib.Logic.Function.Iterate

/-! # The nearest settings are found

Settings are looked for in a directory, then in the one above it, and so on up.
`Config.find` takes all paths on the way at once; that is the same as going up one path at a
time (`Config.find_of_isIn`, `Config.find_of_parent?`), and the search as a machine that
takes such steps comes to its result (`Config.Search.iterate_next_looking`).

What is found is read from the nearest directory that has a file of settings
(`Config.Nearest`), and a failure there is not passed over.  A directory of settings that was
found can be given by name instead, and so can the file in it: the settings and their
directory are the same, down to the text of the path (`Config.ofPath_dirIn`,
`Config.ofPath_fileIn`).
-/
namespace TypeAtlas

namespace Config

/-! ### One path at a time -/

/-- A directory has a file of settings. -/
def IsIn (t : FileTree) (dir : String) : Prop :=
  t.pathExists (fileIn dir) = true

instance (t : FileTree) (dir : String) : Decidable (IsIn t dir) :=
  inferInstanceAs (Decidable (t.pathExists (fileIn dir) = true))

section
variable {t : FileTree} {dir : String}

/-- Settings that are there are read, and nothing further up matters. -/
theorem find_of_isIn (h : IsIn t dir) :
    find t dir = (ofFile t (fileIn dir)).map fun c => some (c, dirIn dir) := by
  obtain ⟨above, hchain⟩ := Path.chain_eq_cons dir
  have hhere : t.pathExists (fileIn dir) = true := h
  rw [find, hchain, List.find?_cons, hhere]

/-- Where there are none, the directory above is as good a start. -/
theorem find_of_parent? (h : ¬ IsIn t dir) {up : String} (hup : Path.parent? dir = some up) :
    find t dir = find t up := by
  have hhere : t.pathExists (fileIn dir) = false := Bool.eq_false_iff.mpr h
  rw [find, Path.chain_of_parent? hup, List.find?_cons, hhere]
  rfl

theorem find_of_parent?_eq_none (h : ¬ IsIn t dir) (htop : Path.parent? dir = none) :
    find t dir = .ok none := by
  have hhere : t.pathExists (fileIn dir) = false := Bool.eq_false_iff.mpr h
  rw [find, Path.chain_of_parent?_eq_none htop, List.find?_cons, hhere]
  rfl

end

/-- How far a search for settings has come. -/
inductive Search where
  | looking (dir : String)
  | ended (result : Except ConfigFault (Option (Config × String)))

/-- One step of a search: the settings of a directory are read if they are there; otherwise the
last component of the path is dropped. -/
def Search.next (t : FileTree) : Search → Search
  | looking dir =>
    if IsIn t dir then .ended ((ofFile t (fileIn dir)).map fun c => some (c, dirIn dir))
    else
      match Path.parent? dir with
      | some up => .looking up
      | none => .ended (.ok none)
  | ended result => .ended result

namespace Search

theorem iterate_next_ended (t : FileTree) (result : Except ConfigFault (Option (Config × String)))
    (n : Nat) : (next t)^[n] (.ended result) = .ended result := by
  induction n with
  | zero => rfl
  | succ n ih => rw [Function.iterate_succ_apply, next, ih]

/-- **A search comes to an end**, after at most one step for every character and one more, and
what it comes to is what is found. -/
theorem iterate_next_looking (t : FileTree) {start : String} {n : Nat} (h : start.length < n) :
    (next t)^[n] (.looking start) = .ended (find t start) := by
  induction n generalizing start with
  | zero => exact absurd h (Nat.not_lt_zero _)
  | succ n ih =>
    rw [Function.iterate_succ_apply, next]
    split_ifs with hin
    · rw [iterate_next_ended, find_of_isIn hin]
    · cases hparent : Path.parent? start with
      | none => rw [find_of_parent?_eq_none hin hparent, iterate_next_ended]
      | some up =>
        have hlt := Path.length_lt_of_parent? hparent
        rw [find_of_parent? hin hparent]
        exact ih (by omega)

end Search

/-! ### The nearest directory -/

/-- The directory at or above `start` that has a file of settings, with none nearer. -/
def Nearest (t : FileTree) (start dir : String) : Prop :=
  ∃ n, Path.above? n start = some dir ∧ IsIn t dir ∧
    ∀ k < n, ∀ nearer, Path.above? k start = some nearer → ¬ IsIn t nearer

/-- No directory at or above `start` has a file of settings. -/
def Nowhere (t : FileTree) (start : String) : Prop :=
  ∀ n dir, Path.above? n start = some dir → ¬ IsIn t dir

theorem exists_nearest {t : FileTree} {start : String} (h : ¬ Nowhere t start) :
    ∃ dir, Nearest t start dir := by
  classical
  have hex : ∃ n dir, Path.above? n start = some dir ∧ IsIn t dir := by
    simpa [Nowhere] using h
  obtain ⟨dir, hdir, hin⟩ := Nat.find_spec hex
  refine ⟨dir, Nat.find hex, hdir, hin, fun k hk nearer hnearer hin' => ?_⟩
  exact Nat.find_min hex hk ⟨nearer, hnearer, hin'⟩

/-- **The nearest settings decide.** -/
theorem find_of_nearest {t : FileTree} {start dir : String} (h : Nearest t start dir) :
    find t start = (ofFile t (fileIn dir)).map fun c => some (c, dirIn dir) := by
  obtain ⟨n, hdir, hin, hnearer⟩ := h
  induction n generalizing start with
  | zero =>
    obtain rfl := Option.some.inj hdir
    exact find_of_isIn hin
  | succ n ih =>
    obtain ⟨up, hup, hdir⟩ := Option.bind_eq_some_iff.mp hdir
    rw [find_of_parent? (hnearer 0 (Nat.succ_pos n) start rfl) hup]
    refine ih hdir fun k hk nearer hk' => hnearer (k + 1) (Nat.succ_lt_succ hk) nearer ?_
    rw [Path.above?, hup]
    exact hk'

theorem find_of_nowhere {t : FileTree} {start : String} (h : Nowhere t start) :
    find t start = .ok none := by
  obtain ⟨n, hends⟩ : ∃ n, Path.above? n start = none :=
    ⟨_, Path.above?_of_length_lt (Nat.lt_succ_self start.length)⟩
  induction n generalizing start with
  | zero => cases hends
  | succ n ih =>
    have hhere : ¬ IsIn t start := h 0 start rfl
    cases hparent : Path.parent? start with
    | none => exact find_of_parent?_eq_none hhere hparent
    | some up =>
      rw [Path.above?, hparent] at hends
      rw [find_of_parent? hhere hparent]
      refine ih (fun k dir hdir => h (k + 1) dir ?_) hends
      rw [Path.above?, hparent]
      exact hdir

/-! ### Settings by name -/

theorem ofFile_eq_ok_iff {t : FileTree} {path : String} {c : Config} :
    ofFile t path = .ok c ↔ ∃ s, t.readText path = .ok s ∧ parse? s = some c := by
  unfold ofFile
  cases t.readText path with
  | error fault => simp
  | ok s => cases hs : parse? s <;> simp [hs]

/-- What can be read under a path is a file. -/
theorem lookup_of_ofFile {t : FileTree} {path : String} {c : Config} (h : ofFile t path = .ok c) :
    ∃ place bytes, t.lookup path = .ok (place, .file bytes) := by
  obtain ⟨s, hread, -⟩ := ofFile_eq_ok_iff.mp h
  unfold FileTree.readText FileTree.read at hread
  cases hl : t.lookup path with
  | error fault => simp [hl, bind, Except.bind] at hread
  | ok found =>
    obtain ⟨place, entry⟩ := found
    cases entry with
    | directory => simp [hl, bind, Except.bind] at hread
    | file bytes => exact ⟨place, bytes, rfl⟩

theorem isName_dirName : Path.IsName dirName := by
  constructor <;> decide

theorem isName_fileName : Path.IsName fileName := by
  constructor <;> decide

theorem endsInName_dirIn (dir : String) : Path.EndsInName (dirIn dir) :=
  (Path.endsInName_of_isName isName_dirName).join dir
    (Path.isAbsolute_of_no_slash isName_dirName.no_slash)

theorem parent?_fileIn (dir : String) : Path.parent? (fileIn dir) = some (dirIn dir) :=
  Path.parent?_join (endsInName_dirIn dir) isName_fileName

section
variable {t : FileTree} {dir : String} {c : Config} (h : ofFile t (fileIn dir) = .ok c)
include h

/-- The file of settings by name. -/
theorem ofPath_fileIn : ofPath t (fileIn dir) = .ok (c, dirIn dir) := by
  obtain ⟨place, bytes, hl⟩ := lookup_of_ofFile h
  have hfile : t.isDirectory (fileIn dir) = false := by rw [FileTree.isDirectory, hl]
  simp only [ofPath, hfile, Bool.false_eq_true, if_false, h, parent?_fileIn]
  rfl

/-- The directory of settings by name. -/
theorem ofPath_dirIn : ofPath t (dirIn dir) = .ok (c, dirIn dir) := by
  obtain ⟨place, bytes, hl⟩ := lookup_of_ofFile h
  have hstands : t.Stands (dirIn dir) :=
    FileTree.stands_of_extends (Path.extends_join (dirIn dir) isName_fileName)
      (FileTree.locate_of_lookup hl)
  have hdir : t.isDirectory (dirIn dir) = true :=
    FileTree.isDirectory_iff.mpr ⟨(endsInName_dirIn dir).ne_empty, hstands⟩
  have hfile : Path.join (dirIn dir) fileName = fileIn dir := rfl
  simp only [ofPath, hdir, if_true, hfile, h, parent?_fileIn]
  rfl

end

theorem exists_of_find {t : FileTree} {start dir : String} {c : Config}
    (h : find t start = .ok (some (c, dir))) :
    ∃ d, dir = dirIn d ∧ ofFile t (fileIn d) = .ok c := by
  unfold find at h
  split at h
  · cases h
  · rename_i d hd
    cases hfile : ofFile t (fileIn d) with
    | error fault => simp [hfile, Except.map] at h
    | ok c' =>
      rw [hfile] at h
      obtain ⟨rfl, rfl⟩ := Prod.mk.inj (Option.some.inj (Except.ok.inj h))
      exact ⟨d, rfl, hfile⟩

end Config

/-! ### All routes to settings -/

/-- The directories of the sources and of the artifacts that settings lead to. -/
def Cli.Loaded.dirs (l : Loaded) : String × String :=
  (l.config.sourceDir l.dir, l.config.outputDir l.dir)

namespace Config

/-- **The nearest settings are found, and they can be named.**  From every start the search comes to
an end.  If no directory at or above the start has a file of settings, none are found.  Otherwise
there is a nearest such directory, and what is found are the settings in its file with their
directory; if these cannot be read, that is a failure.  Settings that were found are loaded in the
same way when their directory or their file is named, with the same directory, so that sources and
artifacts are the same ones. -/
theorem nearest_settings_found (t : FileTree) (start : String) :
    (∀ n, start.length < n → (Search.next t)^[n] (.looking start) = .ended (find t start)) ∧
      (Nowhere t start → find t start = .ok none) ∧
      (¬ Nowhere t start → ∃ dir, Nearest t start dir) ∧
      (∀ dir, Nearest t start dir →
        (∀ s c, t.readText (fileIn dir) = .ok s → parse? s = some c →
          find t start = .ok (some (c, dirIn dir))) ∧
        ((∀ s c, t.readText (fileIn dir) = .ok s → parse? s ≠ some c) →
          ∃ fault, ofFile t (fileIn dir) = .error fault ∧ find t start = .error fault)) ∧
      ∀ c dir, find t start = .ok (some (c, dir)) →
        ∀ route, route = some dir ∨ route = some (Path.join dir fileName) ∨
            route = none ∧ start = FileTree.placeText t.workingDir →
          ∃ l, Cli.load t route = .ok l ∧ l.config = c ∧ l.dir = some dir ∧
            l.dirs = (c.sourceDir (some dir), c.outputDir (some dir)) := by
  refine ⟨fun n => Search.iterate_next_looking t, find_of_nowhere, exists_nearest, ?_, ?_⟩
  · intro dir hnearest
    rw [find_of_nearest hnearest]
    constructor
    · intro s c hread hparse
      rw [ofFile_eq_ok_iff.mpr ⟨s, hread, hparse⟩]
      rfl
    · intro hunread
      cases hfile : ofFile t (fileIn dir) with
      | error fault => exact ⟨fault, rfl, rfl⟩
      | ok c =>
        obtain ⟨s, hread, hparse⟩ := ofFile_eq_ok_iff.mp hfile
        exact absurd hparse (hunread s c hread)
  · intro c dir hfind route hroute
    obtain ⟨d, rfl, hfile⟩ := exists_of_find hfind
    refine ⟨⟨c, some (dirIn d), ""⟩, ?_, rfl, rfl, rfl⟩
    rcases hroute with rfl | rfl | ⟨rfl, rfl⟩
    · rw [Cli.load, ofPath_dirIn hfile]
      rfl
    · rw [Cli.load, ← fileIn, ofPath_fileIn hfile]
      rfl
    · rw [Cli.load, hfind]

/-- Settings in a project, and some below it that cannot be read. -/
def nestedSettings : FileTree :=
  ⟨[(["p"], .directory), (["p", ".typegraph"], .directory),
    (["p", ".typegraph", "config.toml"], .file "output.run_subdir = false".toUTF8),
    (["p", "src"], .directory), (["p", "src", ".typegraph"], .directory),
    (["p", "lib"], .directory), (["p", "lib", ".typegraph"], .directory),
    (["p", "lib", ".typegraph", "config.toml"], .file "[scan".toUTF8)], ["p", "src"]⟩

/-- A directory of settings without a file is passed over, a file that is no settings is not. -/
theorem nearest_settings_found_nested :
    find nestedSettings "/q" = .ok none ∧
      find nestedSettings "/p/src" =
        .ok (some ({ standard with runSubdir := false }, "/p/.typegraph")) ∧
      (∃ l, Cli.load nestedSettings (some "/p/.typegraph/config.toml") = .ok l ∧
        l.dirs = ("/p/.typegraph/.", "/p/.typegraph/output")) ∧
      ∃ fault, find nestedSettings "/p/lib" = .error fault := by
  have hnowhere : Nowhere nestedSettings "/q" := by
    intro n dir hdir
    have hshort : n < 3 := by
      by_contra hlong
      rw [Path.above?_of_length_lt (Nat.lt_of_lt_of_le (by decide) (not_lt.mp hlong))] at hdir
      cases hdir
    have hway : ∀ n < 3, ∀ dir ∈ Path.above? n "/q", ¬ IsIn nestedSettings dir := by
      decide +kernel
    exact hway n hshort dir hdir
  have hproject : Nearest nestedSettings "/p/src" "/p" := by
    refine ⟨1, by decide +kernel, by decide +kernel, fun k hk nearer hnearer => ?_⟩
    obtain rfl := Nat.lt_one_iff.mp hk
    obtain rfl := Option.some.inj hnearer
    decide +kernel
  have hlib : Nearest nestedSettings "/p/lib" "/p/lib" :=
    ⟨0, rfl, by decide +kernel, fun k hk => absurd hk (Nat.not_lt_zero k)⟩
  obtain ⟨-, -, -, hnearest, hroutes⟩ := nearest_settings_found nestedSettings "/p/src"
  have hfound := (hnearest "/p" hproject).1 "output.run_subdir = false"
    { standard with runSubdir := false } (by decide +kernel) (by decide +kernel)
  obtain ⟨l, hload, -, -, hdirs⟩ := hroutes _ _ hfound _ (Or.inr (Or.inl rfl))
  refine ⟨(nearest_settings_found nestedSettings "/q").2.1 hnowhere, hfound,
    ⟨l, hload, hdirs⟩, ?_⟩
  have hunread : ∀ s c, nestedSettings.readText (fileIn "/p/lib") = .ok s → parse? s ≠ some c := by
    intro s c hread
    have htext : nestedSettings.readText (fileIn "/p/lib") = .ok "[scan" := by decide +kernel
    obtain rfl := Except.ok.inj (htext.symm.trans hread)
    have hnone : parse? "[scan" = none := by decide +kernel
    rw [hnone]
    exact nofun
  obtain ⟨fault, -, hfault⟩ :=
    ((nearest_settings_found nestedSettings "/p/lib").2.2.2.1 "/p/lib" hlib).2 hunread
  exact ⟨fault, hfault⟩

end Config
end TypeAtlas
