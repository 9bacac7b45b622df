import TypeAtlas.Proofs.Scan.Sources
import Mathlib.Data.List.TakeWhile

/-! # A scan finds just the files that are looked for

Without ignore files, a file below a directory is found if its name has a wanted extension
(`ScanOptions.Wants`) and no name on the way down to it is hidden, unless hidden ones are asked
for (`ScanOptions.Admits`).  The way is looked at as a whole by `Scan.reaches`; a walk that
goes down one directory at a time and leaves out what it does not admit comes to the same
places (`Scan.visits_iff`), so it finds the same files.

Files are told apart by their names below the directory, and the paths come in the order of
these names, compared name by name and byte by byte (`Scan.files_exact`).
-/
namespace TypeAtlas

/-! ### Extensions of names -/

/-- A name has an extension: what follows its last dot, if something stands before that dot. -/
def HasExtension (name ext : String) : Prop :=
  ∃ stem, stem ≠ [] ∧ '.' ∉ ext.toList ∧ name.toList = stem ++ '.' :: ext.toList

namespace Path

theorem takeWhile_no_dot {cs : List Char} (h : '.' ∉ cs) (more : List Char) :
    (cs ++ more).takeWhile (fun c => !(c == '.')) =
      cs ++ more.takeWhile (fun c => !(c == '.')) := by
  refine List.takeWhile_append_of_pos fun c hc => ?_
  have hne : c ≠ '.' := fun he => h (he ▸ hc)
  simpa using hne

theorem afterLast_dot (stem : List Char) {ext : List Char} (h : '.' ∉ ext) :
    Text.afterLast (· == '.') (stem ++ '.' :: ext) = ext := by
  have hbehind : '.' ∉ ext.reverse := fun hmem => h (List.mem_reverse.mp hmem)
  rw [Text.afterLast, List.reverse_append, List.reverse_cons, List.append_assoc,
    takeWhile_no_dot hbehind]
  simp

theorem afterLast_of_not_mem {name : List Char} (h : '.' ∉ name) :
    Text.afterLast (· == '.') name = name := by
  have hbehind : '.' ∉ name.reverse := fun hmem => h (List.mem_reverse.mp hmem)
  have hall := takeWhile_no_dot hbehind []
  rw [List.append_nil, List.takeWhile_nil, List.append_nil] at hall
  rw [Text.afterLast, hall, List.reverse_reverse]

/-- What follows the last dot is the extension, unless that dot is in front. -/
theorem nameExtension?_dot (stem : List Char) {ext : List Char} (h : '.' ∉ ext) :
    nameExtension? (stem ++ '.' :: ext) = if stem = [] then none else some ext := by
  have hlength : (stem ++ '.' :: ext).length = stem.length + ext.length + 1 := by
    simp only [List.length_append, List.length_cons]
    omega
  have hshorter : ¬ ext.length = stem.length + ext.length + 1 := by omega
  have hstem : stem.length + ext.length + 1 - ext.length - 1 = stem.length := by omega
  simp only [nameExtension?, afterLast_dot stem h, hlength, hstem, beq_iff_eq, hshorter,
    Bool.or_eq_true, false_or, List.length_eq_zero_iff]

theorem nameExtension?_of_no_dot {name : List Char} (h : '.' ∉ name) :
    nameExtension? name = none := by
  simp [nameExtension?, afterLast_of_not_mem h]

theorem nameExtension?_eq_some_iff {name ext : List Char} : nameExtension? name = some ext ↔
    ∃ stem, stem ≠ [] ∧ '.' ∉ ext ∧ name = stem ++ '.' :: ext := by
  constructor
  · intro h
    by_cases hdot : '.' ∈ name
    · -- the dot that counts is the first one from behind
      obtain ⟨behind, front, hname, hlast⟩ :=
        List.eq_append_cons_of_mem (List.mem_reverse.mpr hdot)
      have hcut : name = front.reverse ++ '.' :: behind.reverse := by
        rw [← List.reverse_reverse name, hname]
        simp
      have hbehind : '.' ∉ behind.reverse := fun hmem => hlast (List.mem_reverse.mp hmem)
      rw [hcut, nameExtension?_dot _ hbehind] at h
      split_ifs at h with hfront
      obtain rfl := Option.some.inj h
      exact ⟨_, hfront, hbehind, hcut⟩
    · rw [nameExtension?_of_no_dot hdot] at h
      cases h
  · rintro ⟨stem, hstem, hext, rfl⟩
    rw [nameExtension?_dot stem hext, if_neg hstem]

/-- The extension of a path is that of its last name. -/
theorem extension?_joinAll (root : String) {names : List String} (h : ∀ n ∈ names, IsName n)
    {last ext : String} (hlast : names.getLast? = some last) :
    extension? (joinAll root names) = some ext ↔ HasExtension last ext := by
  obtain ⟨front, rfl⟩ := List.getLast?_eq_some_iff.mp hlast
  have hname : IsName last := h last (List.mem_append_right _ (List.mem_singleton_self last))
  rw [joinAll_concat, extension?, fileName?_join _ hname, Option.map_eq_some_iff]
  constructor
  · rintro ⟨cs, hcs, rfl⟩
    simpa [HasExtension] using nameExtension?_eq_some_iff.mp hcs
  · intro hext
    exact ⟨ext.toList, nameExtension?_eq_some_iff.mpr hext, String.ofList_toList⟩

end Path

/-! ### What is looked for -/

namespace ScanOptions

/-- A name has a wanted extension, in letters of any case. -/
def Wants (o : ScanOptions) (lower : String → String) (name : String) : Prop :=
  ∃ ext, HasExtension name ext ∧ ∃ e ∈ o.extensions,
    Text.eqIgnoreAsciiCase (lower (Text.dropLeadingDots e)) ext = true

/-- A name is not passed over: it does not begin with a dot, or hidden names are asked for. -/
def Admits (o : ScanOptions) (name : String) : Prop :=
  o.includeHidden = true ∨ name.toList.head? ≠ some '.'

end ScanOptions

namespace Scan

theorem wantsBy_joinAll_iff {lower : String → String} {o : ScanOptions} (root : String)
    {names : List String} (h : ∀ n ∈ names, Path.IsName n) {last : String}
    (hlast : names.getLast? = some last) :
    wantsBy lower o.extensions (Path.joinAll root names) = true ↔ o.Wants lower last := by
  unfold wantsBy ScanOptions.Wants
  cases hext : Path.extension? (Path.joinAll root names) with
  | none =>
    simp only [Bool.false_eq_true, false_iff]
    rintro ⟨ext, hhas, -⟩
    rw [(Path.extension?_joinAll root h hlast).mpr hhas] at hext
    cases hext
  | some ext =>
    rw [List.any_eq_true]
    constructor
    · rintro ⟨e, he, hequal⟩
      exact ⟨ext, (Path.extension?_joinAll root h hlast).mp hext, e, he, hequal⟩
    · rintro ⟨ext', hhas, hwanted⟩
      rw [(Path.extension?_joinAll root h hlast).mpr hhas] at hext
      obtain rfl := Option.some.inj hext
      exact hwanted

section
variable {t : FileTree} {o : ScanOptions} (hignore : o.respectIgnoreFiles = false)
include hignore

theorem skips_eq_false_iff {p : Place} {name : String} :
    skips t o (p ++ [name]) = false ↔ o.Admits name := by
  simp only [skips, hignore, isHidden, List.getLast?_concat, ScanOptions.Admits]
  cases o.includeHidden <;> simp

/-- The way to a place is free if no name on it is passed over. -/
theorem reaches_append_iff {base : Place} {names : List String} :
    reaches t o base (base ++ names) = true ↔ ∀ n ∈ names, o.Admits n := by
  have hprefix : base.isPrefixOf (base ++ names) = true :=
    List.isPrefixOf_iff_prefix.mpr (List.prefix_append base names)
  have hway : ∀ k (hk : k < names.length),
      (base ++ names).take (base.length + k + 1) = (base ++ names.take k) ++ [names[k]] := by
    intro k hk
    rw [Nat.add_assoc, List.take_length_add_append, List.append_assoc,
      List.take_append_getElem hk]
  rw [reaches, hprefix, Bool.true_and, List.all_eq_true, way, List.length_append,
    Nat.add_sub_cancel_left]
  simp only [List.mem_map, List.mem_range, Bool.not_eq_true']
  constructor
  · intro h n hn
    obtain ⟨k, hk, rfl⟩ := List.mem_iff_getElem.mp hn
    exact (skips_eq_false_iff hignore).mp (hway k hk ▸ h _ ⟨k, hk, rfl⟩)
  · rintro h _ ⟨k, hk, rfl⟩
    rw [hway k hk]
    exact (skips_eq_false_iff hignore).mpr (h _ (List.getElem_mem hk))

end

/-! ### The walk -/

/-- A walk from a directory down comes to a place: to the directory itself, and from a directory to
what stands in it under a name that is not passed over. -/
inductive Visits (t : FileTree) (o : ScanOptions) (base : Place) : Place → Prop where
  | base : Visits t o base base
  | child {dir : Place} {name : String} {e : Entry} (hdir : Visits t o base dir)
      (hopen : t.get? dir = some .directory) (hstands : t.get? (dir ++ [name]) = some e)
      (hadmits : o.Admits name) : Visits t o base (dir ++ [name])

/-- **A walk comes to everything below the directory whose way is free**, and to nothing else. -/
theorem visits_iff {t : FileTree} (h : t.WellFormed) {o : ScanOptions} {base : Place}
    (hbase : t.get? base = some .directory) {p : Place} : Visits t o base p ↔
      ∃ names, p = base ++ names ∧ (∃ e, t.get? p = some e) ∧ ∀ n ∈ names, o.Admits n := by
  constructor
  · intro hvisits
    induction hvisits with
    | base =>
      exact ⟨[], (List.append_nil base).symm, ⟨_, hbase⟩, fun n hn => absurd hn List.not_mem_nil⟩
    | child _ _ hstands hadmits ih =>
      obtain ⟨names, rfl, -, hnames⟩ := ih
      refine ⟨names ++ [_], List.append_assoc .., ⟨_, hstands⟩, fun n hn => ?_⟩
      rcases List.mem_append.mp hn with hn | hn
      · exact hnames n hn
      · exact List.mem_singleton.mp hn ▸ hadmits
  · rintro ⟨names, rfl, ⟨e, he⟩, hnames⟩
    induction names using List.reverseRecOn generalizing e with
    | nil =>
      rw [List.append_nil]
      exact .base
    | append_singleton names name ih =>
      rw [← List.append_assoc] at he ⊢
      have hopen := h.above he (List.cons_ne_nil name [])
      refine .child (ih ?_ _ hopen) hopen he (hnames name ?_)
      · exact fun n hn => hnames n (List.mem_append_left _ hn)
      · exact List.mem_append_right _ (List.mem_singleton_self name)

/-! ### What is found -/

/-- The names that lead down to a file that is looked for. -/
def seen? (lower : String → String) (t : FileTree) (o : ScanOptions) (root : String)
    (base : Place) (f : Place × ByteArray) : Option (List String) :=
  if wantsBy lower o.extensions (spelled root base f.1) && reaches t o base f.1 then
    some (f.1.drop base.length)
  else none

theorem map_seen? (lower : String → String) (t : FileTree) (o : ScanOptions) (root : String)
    (base : Place) :
    (t.files.filterMap (seen? lower t o root base)).map (Path.joinAll root) =
      t.files.filterMap (sighted? lower t o root base) := by
  rw [List.map_filterMap]
  congr 1
  funext f
  rw [seen?, sighted?]
  split_ifs <;> rfl

section
variable {lower : String → String} {t : FileTree} (h : t.WellFormed) {o : ScanOptions}
  {root : String} {base : Place} (hbase : t.get? base = some .directory) {names : List String}
include h hbase

theorem mem_seen_iff (hignore : o.respectIgnoreFiles = false) :
    names ∈ t.files.filterMap (seen? lower t o root base) ↔
      (∃ bytes, t.get? (base ++ names) = some (.file bytes)) ∧
        (∃ last, names.getLast? = some last ∧ o.Wants lower last) ∧ ∀ n ∈ names, o.Admits n := by
  -- below the directory, the last name decides whether a file is looked for
  have hwants : ∀ {bytes}, t.get? (base ++ names) = some (.file bytes) →
      (wantsBy lower o.extensions (Path.joinAll root names) = true ↔
        ∃ last, names.getLast? = some last ∧ o.Wants lower last) := by
    intro bytes hget
    have hnames : ∀ n ∈ names, Path.IsName n :=
      fun n hn => h.isName hget n (List.mem_append_right base hn)
    cases hlast : names.getLast? with
    | none =>
      obtain rfl := List.getLast?_eq_none_iff.mp hlast
      rw [List.append_nil, hbase] at hget
      cases hget
    | some last => simpa using wantsBy_joinAll_iff root hnames hlast
  rw [List.mem_filterMap]
  constructor
  · rintro ⟨⟨p, bytes⟩, hf, hseen⟩
    rw [seen?] at hseen
    split_ifs at hseen with hcond
    obtain ⟨hwanted, hreaches⟩ := Bool.and_eq_true_iff.mp hcond
    obtain ⟨more, rfl⟩ : base <+: p := by
      rw [reaches, Bool.and_eq_true] at hreaches
      exact List.isPrefixOf_iff_prefix.mp hreaches.1
    rw [List.drop_left] at hseen
    obtain rfl := Option.some.inj hseen
    have hget := h.mem_files_iff.mp hf
    rw [spelled, List.drop_left] at hwanted
    exact ⟨⟨bytes, hget⟩, (hwants hget).mp hwanted, (reaches_append_iff hignore).mp hreaches⟩
  · rintro ⟨⟨bytes, hget⟩, hlast, hadmits⟩
    refine ⟨(base ++ names, bytes), h.mem_files_iff.mpr hget, ?_⟩
    have hwanted : wantsBy lower o.extensions (spelled root base (base ++ names)) = true := by
      rw [spelled, List.drop_left]
      exact (hwants hget).mpr hlast
    rw [seen?, hwanted, (reaches_append_iff hignore).mpr hadmits, List.drop_left]
    rfl

/-- Files have names, and no two of them the same ones. -/
theorem nodup_seen : (t.files.filterMap (seen? lower t o root base)).Nodup :=
  List.Nodup.of_map (Path.joinAll root) (map_seen? lower t o root base ▸ nodup_sighted h hbase)

end

/-- The names of the files that are found, in the order of the paths. -/
def found (lower : String → String) (t : FileTree) (o : ScanOptions) (root : String)
    (base : Place) : List (List String) :=
  (t.files.filterMap (seen? lower t o root base)).mergeSort fun names names' =>
    Path.le (Path.joinAll root names) (Path.joinAll root names')

theorem map_found (lower : String → String) (t : FileTree) (o : ScanOptions) (root : String)
    (base : Place) :
    (found lower t o root base).map (Path.joinAll root) =
      (t.files.filterMap (sighted? lower t o root base)).mergeSort Path.le := by
  rw [← map_seen?, found]
  exact List.map_mergeSort fun names _ names' _ => rfl

theorem filesBy_eq_map_found {t : FileTree} {root : String} {base : Place}
    (hroot : t.lookup root = .ok (base, .directory)) (lower : String → String) (o : ScanOptions) :
    filesBy lower t o root = .ok ((found lower t o root base).map (Path.joinAll root)) := by
  rw [map_found, filesBy, hroot]
  rfl

theorem mem_found_iff {lower : String → String} {t : FileTree} {o : ScanOptions} {root : String}
    {base : Place} {names : List String} :
    names ∈ found lower t o root base ↔ names ∈ t.files.filterMap (seen? lower t o root base) :=
  (List.mergeSort_perm _ _).mem_iff

/-- **The files that are found are in a strict order.** -/
theorem pairwise_found {lower : String → String} {t : FileTree} (h : t.WellFormed)
    {o : ScanOptions} (hignore : o.respectIgnoreFiles = false) {root : String} {base : Place}
    (hbase : t.get? base = some .directory) :
    (found lower t o root base).Pairwise fun names names' =>
      names.map Text.bytes < names'.map Text.bytes := by
  have hsorted : (found lower t o root base).Pairwise fun names names' =>
      Path.le (Path.joinAll root names) (Path.joinAll root names') = true := by
    have hpaths := Path.pairwise_mergeSort (t.files.filterMap (sighted? lower t o root base))
    rw [← map_found] at hpaths
    exact List.pairwise_map.mp hpaths
  have hnodup : (found lower t o root base).Nodup :=
    (List.mergeSort_perm _ _).nodup_iff.mpr (nodup_seen h hbase)
  have hname : ∀ names ∈ found lower t o root base, ∀ n ∈ names, Path.IsName n := by
    intro names hnames n hn
    obtain ⟨⟨bytes, hget⟩, -⟩ := (mem_seen_iff h hbase hignore).mp (mem_found_iff.mp hnames)
    exact h.isName hget n (List.mem_append_right base hn)
  refine (hsorted.and hnodup).imp_of_mem fun hnames hnames' ⟨hle, hne⟩ => ?_
  exact Path.bytes_lt_of_le (hname _ hnames) (hname _ hnames') hle hne

/-- **A scan finds just the files that are looked for.**  Ignore files are left aside.  If the root
is no directory, that is a failure.  Otherwise what is found are the files below the root whose
names have a wanted extension and that no hidden name leads to, unless hidden ones are asked for;
the name of the root itself does not matter.  These are the files that a walk from the root down
comes to.  Their paths are those of the root, continued name by name.  They come in the order of
the bytes of their names below the root, name by name, none of them twice.  All this holds
whatever the mapping is that puts the wanted extensions into lower case; `files` takes
`Text.lowercase`. -/
theorem files_exact (lower : String → String) {t : FileTree} (h : t.WellFormed)
    {o : ScanOptions} (hignore : o.respectIgnoreFiles = false) (root : String) :
    (t.isDirectory root = false → filesBy lower t o root = .error (.rootNotFound root)) ∧
      (t.isDirectory root = true → ∃ (base : Place) (found : List (List String)),
        t.lookup root = .ok (base, .directory) ∧
          filesBy lower t o root = .ok (found.map (Path.joinAll root)) ∧
          found.Pairwise (fun names names' => names.map Text.bytes < names'.map Text.bytes) ∧
          (found.map (Path.joinAll root)).Nodup ∧
          ∀ names,
            (names ∈ found ↔ (∃ bytes, t.get? (base ++ names) = some (.file bytes)) ∧
              (∃ last, names.getLast? = some last ∧ o.Wants lower last) ∧ ∀ n ∈ names, o.Admits n) ∧
            (names ∈ found ↔ Visits t o base (base ++ names) ∧
              (∃ bytes, t.get? (base ++ names) = some (.file bytes)) ∧
              ∃ last, names.getLast? = some last ∧ o.Wants lower last)) := by
  constructor
  · intro hnone
    unfold filesBy
    split
    · rename_i base hroot
      rw [FileTree.isDirectory, hroot] at hnone
      cases hnone
    · rfl
  · intro hdir
    obtain ⟨hne, hstands⟩ := FileTree.isDirectory_iff.mp hdir
    obtain ⟨base, hl, hbase⟩ := hstands.locate hne
    have hroot := FileTree.lookup_of_locate hl hbase
    have hmem : ∀ names, names ∈ found lower t o root base ↔
        (∃ bytes, t.get? (base ++ names) = some (.file bytes)) ∧
          (∃ last, names.getLast? = some last ∧ o.Wants lower last) ∧ ∀ n ∈ names, o.Admits n :=
      fun names => mem_found_iff.trans (mem_seen_iff h hbase hignore)
    refine ⟨base, found lower t o root base, hroot, filesBy_eq_map_found hroot lower o,
      pairwise_found h hignore hbase, ?_, fun names => ⟨hmem names, ?_⟩⟩
    · rw [map_found]
      exact (List.mergeSort_perm _ _).nodup_iff.mpr (nodup_sighted h hbase)
    · rw [hmem, visits_iff h hbase]
      constructor
      · rintro ⟨⟨bytes, hget⟩, hlast, hadmits⟩
        exact ⟨⟨names, rfl, ⟨_, hget⟩, hadmits⟩, ⟨bytes, hget⟩, hlast⟩
      · rintro ⟨⟨names', hnames', -, hadmits⟩, hfile, hlast⟩
        obtain rfl := List.append_cancel_left hnames'
        exact ⟨hfile, hlast, hadmits⟩

/-- Sources among hidden ones, dots at both ends of names, and a directory whose name goes on
where another one ends. -/
def mixedSources : FileTree :=
  ⟨[([".p"], .directory), ([".p", "a.b"], .directory),
    ([".p", "a.b", "y.cs"], .file ByteArray.empty), ([".p", "a"], .directory),
    ([".p", "a", "x.CS"], .file ByteArray.empty), ([".p", ".git"], .directory),
    ([".p", ".git", "z.cs"], .file ByteArray.empty), ([".p", ".cs"], .file ByteArray.empty),
    ([".p", "w."], .file ByteArray.empty), ([".p", "cs"], .file ByteArray.empty)], []⟩

theorem files_exact_mixed :
    let o : ScanOptions := ⟨["..Cs", "."], false, false⟩
    files mixedSources o "/.p/cs" = .error (.rootNotFound "/.p/cs") ∧
      ∃ found : List (List String),
        files mixedSources o "/.p/" = .ok (found.map (Path.joinAll "/.p/")) ∧
          [["a", "x.CS"], ["a.b", "y.cs"]].Sublist found ∧ ["w."] ∈ found ∧
          [".git", "z.cs"] ∉ found ∧ ["cs"] ∉ found := by
  intro o
  have hwell : mixedSources.WellFormed := by decide +kernel
  have hignore : o.respectIgnoreFiles = false := rfl
  refine ⟨(files_exact Text.lowercase hwell hignore "/.p/cs").1 (by decide +kernel), ?_⟩
  obtain ⟨base, found, hroot, hfiles, horder, -, hmem⟩ :=
    (files_exact Text.lowercase hwell hignore "/.p/").2 (by decide +kernel)
  obtain rfl : base = [".p"] := by
    have hplace : mixedSources.lookup "/.p/" = .ok ([".p"], .directory) := by decide +kernel
    exact (Prod.mk.inj (Except.ok.inj (hroot.symm.trans hplace))).1
  have hfound : ∀ dir file, o.Wants Text.lowercase file → o.Admits dir → o.Admits file →
      (mixedSources.get? [".p", dir, file] = some (.file ByteArray.empty)) →
      [dir, file] ∈ found := by
    intro dir file hwants hdir hfile hget
    refine (hmem _).1.mpr ⟨⟨_, hget⟩, ⟨file, rfl, hwants⟩, ?_⟩
    simp only [List.forall_mem_cons]
    exact ⟨hdir, hfile, fun n hn => absurd hn List.not_mem_nil⟩
  refine ⟨found, hfiles, ?_, ?_, ?_, ?_⟩
  · have hupper : ["a", "x.CS"] ∈ found := hfound "a" "x.CS"
      ⟨"CS", ⟨['x'], by decide, by decide, rfl⟩, "..Cs", by decide, by decide +kernel⟩
      (Or.inr (by decide)) (Or.inr (by decide)) rfl
    have hlower : ["a.b", "y.cs"] ∈ found := hfound "a.b" "y.cs"
      ⟨"cs", ⟨['y'], by decide, by decide, rfl⟩, "..Cs", by decide, by decide +kernel⟩
      (Or.inr (by decide)) (Or.inr (by decide)) rfl
    -- as texts the two paths are the other way round
    obtain ⟨front, behind, hsplit⟩ := List.append_of_mem hupper
    rw [hsplit] at horder hlower ⊢
    obtain ⟨-, -, hcross⟩ := List.pairwise_append.mp horder
    rcases List.mem_append.mp hlower with hfront | hbehind
    · exact absurd (hcross _ hfront _ List.mem_cons_self) (by decide +kernel)
    · obtain hsame | hbehind := List.mem_cons.mp hbehind
      · exact absurd hsame (by decide)
      · exact ((List.singleton_sublist.mpr hbehind).cons_cons _).trans
          (List.sublist_append_right front _)
  · have hwants : o.Wants Text.lowercase "w." :=
      ⟨"", ⟨['w'], by decide, by decide, rfl⟩, ".", by decide, by decide +kernel⟩
    exact (hmem _).1.mpr ⟨⟨_, rfl⟩, ⟨_, rfl, hwants⟩, by simp [ScanOptions.Admits]⟩
  · intro hhidden
    have hadmits := ((hmem _).1.mp hhidden).2.2 ".git" List.mem_cons_self
    exact absurd hadmits (by simp [ScanOptions.Admits, o])
  · intro hbare
    obtain ⟨-, ⟨last, hlast, ext, ⟨stem, -, -, hname⟩, -⟩, -⟩ := (hmem _).1.mp hbare
    obtain rfl : "cs" = last := Option.some.inj hlast
    have hdot : '.' ∈ "cs".toList := by
      rw [hname]
      exact List.mem_append_right _ List.mem_cons_self
    exact absurd hdot (by decide)

end Scan
end TypeAtlas
