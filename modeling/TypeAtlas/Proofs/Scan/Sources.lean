import TypeAtlas.Analysis.Run
import TypeAtlas.Proofs.Files.WellFormed
import TypeAtlas.Proofs.Scan.Order

/-! # What a scan sees

With ignore files left aside, a scan for the extensions of the languages sees nothing of a
tree but its source files: the files whose names have such an extension
(`FileTree.sources`).  Two trees with the same source files give the same paths, in the
same order (`Scan.files_eq`), and under each path the same is read (`Scan.read_eq`),
whatever else the trees hold.  So the types that are taken out of them are the same
(`Scan.batch_eq`).
-/
namespace TypeAtlas

open Source (Language)

/-! ### Extensions -/

namespace Text

theorem toNat_lt_of_toLower {c : Char} (h : c.toLower.toNat < 128) : c.toNat < 128 := by
  unfold Char.toLower at h
  split at h
  · rename_i hupper
    exact Nat.lt_of_le_of_lt (UInt32.le_iff_toNat_le.mp hupper.2) (by decide)
  · exact h

theorem lowerFrom_of_ascii (before : List Char) {cs : List Char} (h : ∀ c ∈ cs, c.toNat < 128) :
    lowerFrom before cs = cs.map Char.toLower := by
  induction cs generalizing before with
  | nil => rfl
  | cons c cs ih =>
    obtain ⟨hc, hcs⟩ := List.forall_mem_cons.mp h
    have hdot : ¬ (c.toNat == 0x130) = true := by
      rw [beq_iff_eq]
      omega
    have hsigma : ¬ (c.toNat == 0x3A3) = true := by
      rw [beq_iff_eq]
      omega
    rw [lowerFrom, if_neg hdot, if_neg hsigma, lowerChar, if_pos hc, ih (c :: before) hcs]
    rfl

end Text

/-- The extension of a language is found in lower case. -/
theorem Scan.wantedExtension_of_language {e : String} {l : Language}
    (h : Text.eqIgnoreAsciiCase l.extension (Text.dropLeadingDots e) = true) :
    wantedExtension Text.lowercase e = l.extension := by
  have hlower : (Text.dropLeadingDots e).toList.map Char.toLower = l.extension.toList := by
    rw [Text.eqIgnoreAsciiCase, beq_iff_eq] at h
    rw [← h]
    cases l <;> decide
  have hascii : ∀ c ∈ (Text.dropLeadingDots e).toList, c.toNat < 128 := by
    intro c hc
    refine Text.toNat_lt_of_toLower ?_
    have hmem : c.toLower ∈ l.extension.toList := hlower ▸ List.mem_map_of_mem hc
    have hall : l.extension.toList.all (fun d => decide (d.toNat < 128)) = true := by
      cases l <;> rfl
    exact of_decide_eq_true (List.all_eq_true.mp hall _ hmem)
  rw [wantedExtension, Text.lowercase, Text.lowerFrom_of_ascii _ hascii, hlower,
    String.ofList_toList]

/-- All extensions that are looked for are those of languages, in letters of any case and with any
number of dots in front. -/
def ScanOptions.WantsSources (o : ScanOptions) : Prop :=
  ∀ e ∈ o.extensions, (Language.ofExtension? (Text.dropLeadingDots e)).isSome

instance : DecidablePred ScanOptions.WantsSources := fun o =>
  inferInstanceAs (Decidable (∀ e ∈ o.extensions,
    (Language.ofExtension? (Text.dropLeadingDots e)).isSome))

/-- What is looked for has a language. -/
theorem ScanOptions.WantsSources.ofPath? {o : ScanOptions} (h : o.WantsSources) {path : String}
    (hwants : Scan.wants o.extensions path = true) : (Language.ofPath? path).isSome := by
  unfold Scan.wants Scan.wantsBy at hwants
  split at hwants
  · rename_i ext hext
    obtain ⟨e, he, hequal⟩ := List.any_eq_true.mp hwants
    obtain ⟨l, hl⟩ := Option.isSome_iff_exists.mp (h e he)
    rw [Language.ofExtension?] at hl
    have hlanguage : Text.eqIgnoreAsciiCase l.extension (Text.dropLeadingDots e) = true := by
      simpa only using List.find?_some hl
    rw [Scan.wantedExtension_of_language hlanguage] at hequal
    rw [Language.ofPath?, hext]
    exact List.find?_isSome.mpr ⟨l, by cases l <;> decide, hequal⟩
  · cases hwants

namespace Path

theorem join_empty {name : String} (h : IsName name) : join "" name = name := by
  have hrel := isAbsolute_eq_false_iff.mp (isAbsolute_of_no_slash h.no_slash)
  rw [join, joinChars, if_neg hrel, String.toList_empty, if_pos (Or.inl rfl), List.nil_append,
    String.ofList_toList]

theorem fileName?_join (base : String) {name : String} (h : IsName name) :
    fileName? (join base name) = some name := by
  rw [fileName?, components_join base h, List.getLast?_concat]
  exact congrArg some String.ofList_toList

theorem extension?_join (base : String) {name : String} (h : IsName name) :
    extension? (join base name) = extension? name := by
  have hname : fileName? name = some name := by
    rw [← fileName?_join "" h, join_empty h]
  rw [extension?, extension?, fileName?_join base h, hname]

end Path

/-! ### Where paths lead -/

namespace FileTree

/-- A path leads to one place at most, whatever stands in a tree. -/
theorem locate_unique {t v : FileTree} (hwd : v.workingDir = t.workingDir) {path : String}
    {p q : Place} (ht : t.locate path = .ok p) (hv : v.locate path = .ok q) : p = q := by
  obtain ⟨-, -, ht⟩ := locate_eq_ok_iff.mp ht
  obtain ⟨-, -, hv⟩ := locate_eq_ok_iff.mp hv
  have horigin : v.origin path = t.origin path := by rw [origin, origin, hwd]
  rw [horigin] at hv
  generalize t.origin path = at_ at ht hv
  generalize Path.pieces path = pieces at ht hv
  induction pieces generalizing at_ with
  | nil => exact Except.ok.inj (ht.symm.trans hv)
  | cons s pieces ih =>
    rw [← List.singleton_append, follow_append, follow_singleton] at ht hv
    obtain ⟨mid, hmid, ht⟩ := ht
    obtain ⟨mid', hmid', hv⟩ := hv
    rw [step_congr (get?_of_step hmid') (get?_of_step hmid), hmid] at hmid'
    obtain rfl := Except.ok.inj hmid'
    exact ih mid ht hv

/-- Down to something that stands in two well-formed trees, names are followed in the same way. -/
theorem WellFormed.follow_eq {t v : FileTree} (ht : t.WellFormed) (hv : v.WellFormed)
    {base : Place} {names : List String} {e e' : Entry} (hte : t.get? (base ++ names) = some e)
    (hve : v.get? (base ++ names) = some e') : t.follow base names = v.follow base names := by
  induction names generalizing base with
  | nil => rfl
  | cons n names ih =>
    have hstep : t.step base n = v.step base n :=
      step_congr (ht.above hte (List.cons_ne_nil n names))
        (hv.above hve (List.cons_ne_nil n names)) n
    rw [follow, follow, List.foldlM_cons, List.foldlM_cons, hstep]
    cases hnext : v.step base n with
    | error fault => rfl
    | ok next =>
      have hname : Path.IsName n :=
        ht.isName hte n (List.mem_append_right _ List.mem_cons_self)
      rw [← follow_singleton] at hnext
      obtain rfl := follow_names (fun m hm => List.mem_singleton.mp hm ▸ hname) hnext
      rw [← List.singleton_append, ← List.append_assoc] at hte hve
      exact ih hte hve

/-- **A file that stands in two well-formed trees is read in the same way**, under a path that goes
on from one that leads to the same place in both. -/
theorem WellFormed.read_eq {t v : FileTree} (ht : t.WellFormed) (hv : v.WellFormed)
    {root : String} {base : Place} {names : List String} {e : Entry}
    (htroot : t.locate root = .ok base) (hvroot : v.locate root = .ok base)
    (hte : t.get? (base ++ names) = some e) (hve : v.get? (base ++ names) = some e) :
    t.read (Path.joinAll root names) = v.read (Path.joinAll root names) := by
  have hnames : ∀ n ∈ names, Path.IsName n :=
    fun n hn => ht.isName hte n (List.mem_append_right _ hn)
  have hleads := (Path.leads_self root).joinAll hnames
  rw [List.nil_append] at hleads
  have hfollow : t.follow (t.origin root) (Path.pieces root ++ names) =
      v.follow (v.origin root) (Path.pieces root ++ names) := by
    obtain ⟨-, -, htroot⟩ := locate_eq_ok_iff.mp htroot
    obtain ⟨-, -, hvroot⟩ := locate_eq_ok_iff.mp hvroot
    unfold follow at htroot hvroot ⊢
    rw [List.foldlM_append, List.foldlM_append, htroot, hvroot]
    exact ht.follow_eq hv hte hve
  have horigin : ∀ u : FileTree, u.origin (Path.joinAll root names) = u.origin root :=
    fun u => by rw [origin, origin, hleads.isAbsolute_eq]
  have hlocate : t.locate (Path.joinAll root names) = v.locate (Path.joinAll root names) := by
    rw [locate, locate, horigin, horigin, hleads.pieces_eq, hfollow]
  cases hl : v.locate (Path.joinAll root names) with
  | error fault =>
    rw [hl] at hlocate
    simp only [read, lookup, hlocate, hl, bind, Except.bind]
  | ok place =>
    rw [hl] at hlocate
    obtain ⟨at_, hat, rfl⟩ := locate_of_leads hleads hnames hl
    obtain rfl : at_ = base :=
      Except.ok.inj (hat.symm.trans (locate_eq_ok_iff.mp hvroot).2.2)
    simp only [read, lookup, hlocate, hl, hte, hve, bind, Except.bind]

/-! ### Source files -/

/-- The name of a place has the extension of a language. -/
def isSource (p : Place) : Bool :=
  (p.getLast?.bind Language.ofPath?).isSome

/-- The source files of a tree. -/
def sources (t : FileTree) : List (Place × ByteArray) :=
  t.files.filter fun f => isSource f.1

/-- Two trees hold the same source files. -/
def SameSources (t v : FileTree) : Prop :=
  ∀ f, f ∈ t.sources ↔ f ∈ v.sources

theorem SameSources.symm {t v : FileTree} (h : t.SameSources v) : v.SameSources t :=
  fun f => (h f).symm

theorem WellFormed.mem_files_iff {t : FileTree} (h : t.WellFormed) {p : Place}
    {bytes : ByteArray} : (p, bytes) ∈ t.files ↔ t.get? p = some (.file bytes) := by
  rw [files, List.mem_filterMap]
  constructor
  · rintro ⟨⟨q, e⟩, hmem, he⟩
    cases e with
    | directory => cases he
    | file bytes' =>
      cases he
      exact h.get?_of_mem hmem
  · intro hget
    have hp : p ≠ [] := by
      rintro rfl
      cases hget
    exact ⟨_, mem_entries_of_get? hp hget, rfl⟩

end FileTree

/-! ### The scan -/

namespace Scan

/-- The path under which a file is found below a place, if it is looked for. -/
def sighted? (lower : String → String) (t : FileTree) (o : ScanOptions) (root : String)
    (base : Place) (f : Place × ByteArray) : Option String :=
  if wantsBy lower o.extensions (spelled root base f.1) && reaches t o base f.1 then
    some (spelled root base f.1)
  else none

theorem filesBy_eq_ok {lower : String → String} {t : FileTree} {o : ScanOptions} {root : String}
    {paths : List String} (h : filesBy lower t o root = .ok paths) :
    ∃ base, t.lookup root = .ok (base, .directory) ∧
      paths = (t.files.filterMap (sighted? lower t o root base)).mergeSort Path.le := by
  unfold filesBy at h
  split at h
  · rename_i base hlookup
    exact ⟨base, hlookup, (Except.ok.inj h).symm⟩
  · cases h

/-- Without ignore files, whether a place is reached is told by its names. -/
theorem reaches_eq {o : ScanOptions} (hignore : o.respectIgnoreFiles = false) (t v : FileTree)
    (base p : Place) : reaches t o base p = reaches v o base p := by
  have hskips : skips t o = skips v o := by
    funext q
    simp [skips, hignore]
  rw [reaches, reaches, hskips]

theorem sighted?_eq (lower : String → String) {o : ScanOptions}
    (hignore : o.respectIgnoreFiles = false) (t v : FileTree) (root : String) (base : Place) :
    sighted? lower t o root base = sighted? lower v o root base := by
  funext f
  rw [sighted?, sighted?, reaches_eq hignore t v]

section
variable {lower : String → String} {t : FileTree} (h : t.WellFormed) {o : ScanOptions}
  {root : String} {base : Place} (hbase : t.get? base = some .directory)
include h hbase

/-- What is sighted lies below the place, through names. -/
theorem exists_of_sighted? {f : Place × ByteArray} (hf : f ∈ t.files) {path : String}
    (hpath : sighted? lower t o root base f = some path) :
    ∃ names, names ≠ [] ∧ (∀ n ∈ names, Path.IsName n) ∧ f.1 = base ++ names ∧
      path = Path.joinAll root names ∧ wantsBy lower o.extensions path = true := by
  have hget := h.mem_files_iff.mp hf
  rw [sighted?] at hpath
  split_ifs at hpath with hcond
  obtain rfl := Option.some.inj hpath
  obtain ⟨hwants, hreaches⟩ := Bool.and_eq_true_iff.mp hcond
  rw [reaches, Bool.and_eq_true, List.isPrefixOf_iff_prefix] at hreaches
  obtain ⟨⟨names, hnames⟩, -⟩ := hreaches
  refine ⟨names, ?_, ?_, hnames.symm, ?_, hwants⟩
  · rintro rfl
    rw [← hnames, List.append_nil, hbase] at hget
    cases hget
  · exact fun n hn => h.isName hget n (hnames ▸ List.mem_append_right _ hn)
  · rw [spelled, ← hnames, List.drop_left]
    rfl

/-- What is sighted is a source file. -/
theorem isSource_of_sighted? (hwants : o.WantsSources) {f : Place × ByteArray} (hf : f ∈ t.files)
    {path : String} (hpath : sighted? Text.lowercase t o root base f = some path) :
    FileTree.isSource f.1 = true := by
  obtain ⟨names, hne, hnames, hplace, rfl, hwanted⟩ := exists_of_sighted? h hbase hf hpath
  have hlanguage := hwants.ofPath? hwanted
  rcases List.eq_nil_or_concat' names with rfl | ⟨front, last, rfl⟩
  · exact absurd rfl hne
  have hlast : Path.IsName last := hnames last (List.mem_append_right _ (List.mem_singleton_self _))
  rw [Language.ofPath?, Path.joinAll_concat, Path.extension?_join _ hlast] at hlanguage
  rw [FileTree.isSource, hplace, ← List.append_assoc, List.getLast?_concat]
  exact hlanguage

/-- Files are sighted under different paths. -/
theorem eq_of_components_eq {f g : Place × ByteArray} (hf : f ∈ t.files) (hg : g ∈ t.files)
    {p q : String} (hp : sighted? lower t o root base f = some p)
    (hq : sighted? lower t o root base g = some q) (he : Path.components p = Path.components q) :
    f.1 = g.1 ∧ p = q := by
  obtain ⟨names, -, hnames, hplace, rfl, -⟩ := exists_of_sighted? h hbase hf hp
  obtain ⟨names', -, hnames', hplace', rfl, -⟩ := exists_of_sighted? h hbase hg hq
  rw [Path.components_joinAll root hnames, Path.components_joinAll root hnames'] at he
  have hinj : Function.Injective fun n : String => Component.name n.toList :=
    fun a b hab => String.toList_injective (Component.name.inj hab)
  obtain rfl : names = names' :=
    List.map_injective_iff.mpr hinj (List.append_cancel_left he)
  exact ⟨hplace.trans hplace'.symm, rfl⟩

theorem nodup_sighted : (t.files.filterMap (sighted? lower t o root base)).Nodup := by
  have hplaces : t.files.Pairwise fun f g => f.1 ≠ g.1 := by
    refine List.Pairwise.filterMap _ ?_ (List.pairwise_map.mp h.nodup)
    rintro ⟨p, e⟩ ⟨q, e'⟩ hne f hf g hg
    cases e with
    | directory => cases hf
    | file bytes =>
      cases e' with
      | directory => cases hg
      | file bytes' =>
        cases hf
        cases hg
        exact hne
  refine List.pairwise_filterMap.mpr (hplaces.imp_of_mem ?_)
  rintro f g hf hg hne p hp q hq rfl
  exact hne (eq_of_components_eq h hbase hf hg hp hq rfl).1

end

theorem sighted_subset {o : ScanOptions} (hwants : o.WantsSources)
    (hignore : o.respectIgnoreFiles = false) {t v : FileTree} (ht : t.WellFormed) {root : String}
    {base : Place} (hbase : t.get? base = some .directory)
    (hsources : ∀ f ∈ t.sources, f ∈ v.sources) {path : String}
    (hpath : path ∈ t.files.filterMap (sighted? Text.lowercase t o root base)) :
    path ∈ v.files.filterMap (sighted? Text.lowercase v o root base) := by
  obtain ⟨f, hf, hsight⟩ := List.mem_filterMap.mp hpath
  have hsource := isSource_of_sighted? ht hbase hwants hf hsight
  have hmem := hsources f (List.mem_filter.mpr ⟨hf, hsource⟩)
  rw [sighted?_eq Text.lowercase hignore t v] at hsight
  exact List.mem_filterMap.mpr ⟨f, (List.mem_filter.mp hmem).1, hsight⟩

section
variable {o : ScanOptions} (hwants : o.WantsSources) (hignore : o.respectIgnoreFiles = false)
  {t v : FileTree} (ht : t.WellFormed) (hv : v.WellFormed) (hwd : v.workingDir = t.workingDir)
  (hsources : t.SameSources v) {root : String} {paths paths' : List String}
  (htfiles : files t o root = .ok paths) (hvfiles : files v o root = .ok paths')
include hwants ht hv hwd hsources htfiles hvfiles

/-- **Under each path the same is read.** -/
theorem read_eq : ∀ path ∈ paths, t.read path = v.read path := by
  intro path hpath
  obtain ⟨base, htroot, rfl⟩ := filesBy_eq_ok htfiles
  obtain ⟨base', hvroot, -⟩ := filesBy_eq_ok hvfiles
  obtain ⟨htl, htbase⟩ := FileTree.lookup_eq_directory htroot
  obtain ⟨hvl, -⟩ := FileTree.lookup_eq_directory hvroot
  obtain rfl : base = base' := FileTree.locate_unique hwd htl hvl
  rw [(List.mergeSort_perm _ _).mem_iff] at hpath
  obtain ⟨f, hf, hsight⟩ := List.mem_filterMap.mp hpath
  have hsource := isSource_of_sighted? ht htbase hwants hf hsight
  have hmem := (hsources f).mp (List.mem_filter.mpr ⟨hf, hsource⟩)
  have hte := ht.mem_files_iff.mp hf
  have hve := hv.mem_files_iff.mp (List.mem_filter.mp hmem).1
  obtain ⟨names, -, -, hplace, rfl, -⟩ := exists_of_sighted? ht htbase hf hsight
  rw [hplace] at hte hve
  exact ht.read_eq hv htl hvl hte hve

include hignore

/-- **Trees with the same source files give the same paths**, in the same order. -/
theorem files_eq : paths = paths' := by
  obtain ⟨base, htroot, rfl⟩ := filesBy_eq_ok htfiles
  obtain ⟨base', hvroot, rfl⟩ := filesBy_eq_ok hvfiles
  obtain ⟨htl, htbase⟩ := FileTree.lookup_eq_directory htroot
  obtain ⟨hvl, hvbase⟩ := FileTree.lookup_eq_directory hvroot
  obtain rfl : base = base' := FileTree.locate_unique hwd htl hvl
  refine Path.mergeSort_eq_of_perm ?_ ?_
  · refine (List.perm_ext_iff_of_nodup (nodup_sighted ht htbase) (nodup_sighted hv hvbase)).mpr ?_
    exact fun path => ⟨sighted_subset hwants hignore ht htbase fun f => (hsources f).mp,
      sighted_subset hwants hignore hv hvbase fun f => (hsources f).mpr⟩
  · intro p hp q hq he
    obtain ⟨f, hf, hp⟩ := List.mem_filterMap.mp hp
    obtain ⟨g, hg, hq⟩ := List.mem_filterMap.mp hq
    exact (eq_of_components_eq ht htbase hf hg hp hq he).2

/-- **What is taken out of the files is the same**, whatever they are read with. -/
theorem batch_eq (k : Toolkit) (recorded : Option String) :
    k.batch t recorded paths = k.batch v recorded paths' := by
  obtain rfl : paths = paths' := files_eq hwants hignore ht hv hwd hsources htfiles hvfiles
  have hextract : ∀ path ∈ paths,
      (path, k.extractFile t recorded path) = (path, k.extractFile v recorded path) := by
    intro path hpath
    have hread := read_eq hwants ht hv hwd hsources htfiles hvfiles path hpath
    simp only [Toolkit.extractFile, Source.readFile, hread]
  rw [Toolkit.batch, Toolkit.batch, List.map_congr_left hextract]

end
end Scan
end TypeAtlas
