import TypeAtlas.Proofs.Analysis.Order
import TypeAtlas.Proofs.Artifact.Interleaving
import TypeAtlas.Proofs.Scan.Sources

/-! # A run does not see what earlier runs left

An analysis reads its sources from a tree and writes its artifacts into the same tree,
and while it runs it reads declarations back that it has written.  Whatever else stands
in the tree, its result depends on the source files alone (`analyze_independent`): the
summary, the artifacts and their texts are the same, and no other file changes.

Three things make it so.  A scan sees source files only, and no artifact is one
(`isSource_artifact`).  What is read back is what was written, so the graphs are those of
the declarations in memory (`graphsOf_eq_graphs`).  And a run overwrites its artifacts
and nothing else (`leaves_of_analyze`).  A second run finds the same sources and its
artifacts as it would write them, hence it changes nothing.
-/
namespace TypeAtlas

open Source (Declaration Language)

/-! ### What a run would write -/

/-- The declarations in the source files below a directory. -/
def Toolkit.declarationsOf (k : Toolkit) (t : FileTree) (o : ScanOptions) (root : String) :
    List Declaration :=
  match Scan.files t o root with
  | .ok paths => (k.batch t (some root) paths).declarations
  | .error _ => []

theorem Collection.map_scope_graphs (c : Collection) :
    c.graphs.map Graph.scope = c.index.scopes := by
  rw [graphs, Graph.buildAll, List.map_map]
  exact List.map_id _

/-- The artifacts of a run with their texts. -/
def Layout.artifacts (l : Layout) (c : Collection) : List (String × String) :=
  WriteStep.writes (l.steps c.index c.texts c.graphs)

/-- The namespaces and the names of all declarations can be directories. -/
def Placeable (ds : List Declaration) : Prop :=
  ∀ d ∈ ds, d.record.IsPlaceable

namespace Placeable
variable {ds : List Declaration} (h : Placeable ds)
include h

theorem records : ∀ r ∈ (Collection.ofList ds).index.records, r.IsPlaceable :=
  Collection.forall_records (fun _ _ ha _ => ⟨ha.scope, ha.name⟩) h

/-- **What is read back gives the graphs of the declarations in memory.** -/
theorem graphsOf_eq_graphs {l : Layout} {t u : FileTree}
    (hrun : WriteStep.runAll t
      (l.indexSteps (Collection.ofList ds).index (Collection.ofList ds).texts) = (u, none)) :
    graphsOf u l (Collection.ofList ds).index = (Collection.ofList ds).graphs := by
  refine Graph.buildAll_congr (Collection.aligned ds) fun r hr => ?_
  obtain ⟨id, hid⟩ := List.mem_iff_getElem?.mp hr
  obtain ⟨s, hs, hmem⟩ := Collection.mem_zip_of_getElem? hid
  rw [Collection.textOf_of_getElem? hid, hs]
  exact l.declaration?_of_runAll (Collection.aligned ds) h.records (Collection.texts_length ds).ge
    hrun hmem

/-- No artifact is a source file. -/
theorem isSource_artifact (l : Layout) {t : FileTree} {p : Place} {f : String × String}
    (hf : f ∈ l.artifacts (Collection.ofList ds)) (hl : t.locate f.1 = .ok p) :
    FileTree.isSource p = false := by
  have hlast : ∀ {path file : String} {names : List String},
      Path.Leads l.root path (names ++ [file]) → (∀ n ∈ names ++ [file], Path.IsName n) →
      t.locate path = .ok p → Language.ofPath? file = none → FileTree.isSource p = false := by
    intro path file names hleads hnames hl hnone
    obtain ⟨at_, -, rfl⟩ := FileTree.locate_of_leads hleads hnames hl
    rw [FileTree.isSource, ← List.append_assoc, List.getLast?_concat]
    exact congrArg Option.isSome hnone
  rw [Layout.artifacts, Layout.steps, WriteStep.writes_append, Layout.writes_indexSteps,
    Layout.writes_graphSteps] at hf
  rcases List.mem_append.mp hf with hf | hf
  · obtain ⟨⟨r, text⟩, hmem, hf⟩ := List.mem_flatMap.mp hf
    have hr := h.records r (List.of_mem_zip hmem).1
    simp only [Layout.typeFiles, List.mem_cons, List.not_mem_nil, or_false] at hf
    rcases hf with rfl | rfl
    · exact hlast (l.leads_typeFile hr Layout.isName_metadataName)
        (hr.isName_file Layout.isName_metadataName) hl (by decide +kernel)
    · exact hlast (l.leads_typeFile hr Layout.isName_declarationName)
        (hr.isName_file Layout.isName_declarationName) hl (by decide +kernel)
  · obtain ⟨g, hg, rfl⟩ := List.mem_map.mp hf
    have hscope := Layout.isDotted_scope (Collection.aligned ds) h.records
      (Collection.map_scope_graphs _) g hg
    exact hlast ((l.leads_scopeDir hscope).join Layout.isName_graphName)
      (Layout.isName_graphNames hscope) hl (by decide +kernel)

end Placeable

/-! ### What a run leaves -/

/-- A tree after some files have been written: they are there, every other file is as it was, and
there are no more. -/
structure FileTree.Leaves (t : FileTree) (files : List (String × String)) (w : FileTree) :
    Prop where
  written : ∀ f ∈ files, w.HasFile f.1 f.2.toUTF8
  other : ∀ p, (∀ f ∈ files, w.locate f.1 ≠ .ok p) → ∀ bytes,
    w.get? p = some (.file bytes) ↔ t.get? p = some (.file bytes)

/-- The two phases of a run that goes well. -/
theorem analyze_eq_ok {k : Toolkit} {t w : FileTree} {o : ScanOptions} {l : Layout} {root : String}
    {s : RunSummary} (h : k.analyze t o l root = (w, .ok s)) :
    ∃ paths u, Scan.files t o root = .ok paths ∧
      let b := k.batch t (some root) paths
      let c := Collection.ofList b.declarations
      WriteStep.runAll t (l.indexSteps c.index c.texts) = (u, none) ∧
        WriteStep.runAll u ((graphsOf u l c.index).flatMap l.graphSteps) = (w, none) ∧
        s = .of paths b c (graphsOf u l c.index) := by
  unfold Toolkit.analyze at h
  split at h
  · cases (Prod.mk.inj h).2
  · rename_i paths hpaths
    simp only at h
    split at h
    · cases (Prod.mk.inj h).2
    · rename_i u hu
      split at h
      · cases (Prod.mk.inj h).2
      · rename_i w' hw
        obtain ⟨rfl, hs⟩ := Prod.mk.inj h
        exact ⟨paths, u, hpaths, hu, hw, (Except.ok.inj hs).symm⟩

/-- A run that goes well is known by its tree. -/
theorem analyze_eq_of_snd {k : Toolkit} {t : FileTree} {o : ScanOptions} {l : Layout}
    {root : String} {s : RunSummary} (h : (k.analyze t o l root).2 = .ok s) :
    k.analyze t o l root = ((k.analyze t o l root).1, .ok s) :=
  Prod.ext rfl h

section
variable {k : Toolkit} {o : ScanOptions} {l : Layout} {root : String} {t w : FileTree}
  {s : RunSummary}
  (hplace : Placeable (k.declarationsOf t o root)) (hrun : k.analyze t o l root = (w, .ok s))
include hplace hrun

/-- A run that goes well, seen from the declarations. -/
theorem runAll_of_analyze :
    let c := Collection.ofList (k.declarationsOf t o root)
    WriteStep.runAll t (l.steps c.index c.texts c.graphs) = (w, none) ∧
      ∃ paths, Scan.files t o root = .ok paths ∧
        s = .of paths (k.batch t (some root) paths) c c.graphs := by
  obtain ⟨paths, u, hpaths, hu, hw, hs⟩ := analyze_eq_ok hrun
  have hds : (k.batch t (some root) paths).declarations = k.declarationsOf t o root := by
    rw [Toolkit.declarationsOf, hpaths]
  rw [hds] at hu hw hs
  rw [hplace.graphsOf_eq_graphs hu] at hw hs
  refine ⟨?_, paths, hpaths, hs⟩
  rw [Layout.steps, WriteStep.runAll_append_of_runAll hu, hw]

/-- **A run writes its artifacts and changes no other file.** -/
theorem leaves_of_analyze :
    t.Leaves (l.artifacts (Collection.ofList (k.declarationsOf t o root))) w := by
  obtain ⟨hsteps, -⟩ := runAll_of_analyze hplace hrun
  have hapart := l.artifacts_apart (Collection.aligned _) hplace.records
    (Collection.texts_length _).ge (Collection.map_scope_graphs _)
  refine ⟨WriteStep.hasFile_of_mem_writes hapart hsteps, fun p hp bytes => ?_⟩
  rcases (FileTree.touches_runAll hsteps).entry p with he | ⟨hnone, hdir⟩ | ⟨f, hf, hl⟩
  · rw [he]
  · rw [hnone, hdir]
    exact ⟨nofun, nofun⟩
  · exact absurd hl (hp f hf)

theorem wellFormed_of_analyze (h : t.WellFormed) : w.WellFormed :=
  h.runAll (runAll_of_analyze hplace hrun).1

/-- A run leaves all source files alone, and adds none. -/
theorem sameSources_of_analyze (h : t.WellFormed) : t.SameSources w := by
  have hleaves := leaves_of_analyze hplace hrun
  have hw := wellFormed_of_analyze hplace hrun h
  rintro ⟨p, bytes⟩
  rw [FileTree.sources, FileTree.sources, List.mem_filter, List.mem_filter, h.mem_files_iff,
    hw.mem_files_iff]
  refine and_congr_left fun hsource => (hleaves.other p (fun f hf hl => ?_) bytes).symm
  have hnot := hplace.isSource_artifact l hf hl
  rw [hsource] at hnot
  cases hnot

/-- The directory of the sources is still there. -/
theorem files_of_analyze : ∃ paths, Scan.files w o root = .ok paths := by
  obtain ⟨hsteps, paths, hpaths, -⟩ := runAll_of_analyze hplace hrun
  obtain ⟨base, hlookup, -⟩ := Scan.filesBy_eq_ok hpaths
  have hlookup' := (Job.matures_runAll hsteps).toGrows.lookup hlookup
  exact ⟨_, by simp only [Scan.files, Scan.filesBy, hlookup']; rfl⟩

end

/-! ### Runs on the same sources -/

namespace Layout

/-- To write the types again changes nothing. -/
theorem runAll_indexSteps_eq_self (l : Layout) {ix : TypeIndex} {texts : List String}
    {w : FileTree} (hw : w.WellFormed)
    (h : ∀ f ∈ WriteStep.writes (l.indexSteps ix texts), w.HasFile f.1 f.2.toUTF8) :
    WriteStep.runAll w (l.indexSteps ix texts) = (w, none) := by
  rw [← flatMap_steps_typeJobs]
  rw [← allWritten_typeJobs] at h
  refine Job.runAll_eq_self (fun j hj => ?_) hw h
  obtain ⟨r, -, text, rfl⟩ := mem_typeJobs hj
  exact l.proper_typeJob (r, text)

/-- To write the graphs again changes nothing. -/
theorem runAll_graphSteps_eq_self (l : Layout) {graphs : List Graph} {w : FileTree}
    (hw : w.WellFormed)
    (h : ∀ f ∈ WriteStep.writes (graphs.flatMap l.graphSteps), w.HasFile f.1 f.2.toUTF8) :
    WriteStep.runAll w (graphs.flatMap l.graphSteps) = (w, none) := by
  rw [← flatMap_steps_graphJobs]
  rw [← allWritten_graphJobs] at h
  refine Job.runAll_eq_self (fun j hj => ?_) hw h
  obtain ⟨g, -, rfl⟩ := List.mem_map.mp hj
  exact l.proper_graphJob g

end Layout

/-- **A second run changes nothing.** -/
theorem analyze_again {k : Toolkit} {o : ScanOptions} (hwants : o.WantsSources)
    (hignore : o.respectIgnoreFiles = false) {l : Layout} {root : String} {t w : FileTree}
    {s : RunSummary} (ht : t.WellFormed) (hplace : Placeable (k.declarationsOf t o root))
    (hrun : k.analyze t o l root = (w, .ok s)) : k.analyze w o l root = (w, .ok s) := by
  have hw := wellFormed_of_analyze hplace hrun ht
  have hsources := sameSources_of_analyze hplace hrun ht
  obtain ⟨hsteps, paths, hpaths, hs⟩ := runAll_of_analyze hplace hrun
  obtain ⟨paths', hpaths'⟩ := files_of_analyze hplace hrun
  have hwd : w.workingDir = t.workingDir := (Job.matures_runAll hsteps).workingDir_eq
  have hbatch := Scan.batch_eq hwants hignore ht hw hwd hsources hpaths hpaths' k (some root)
  obtain rfl := Scan.files_eq hwants hignore ht hw hwd hsources hpaths hpaths'
  have hds : (k.batch w (some root) paths).declarations = k.declarationsOf t o root := by
    rw [← hbatch, Toolkit.declarationsOf, hpaths]
  -- all artifacts are there
  have hwritten := (leaves_of_analyze hplace hrun).written
  rw [Layout.artifacts, Layout.steps, WriteStep.writes_append] at hwritten
  obtain ⟨htypes, hgraphs⟩ := List.forall_mem_append.mp hwritten
  have hindex := l.runAll_indexSteps_eq_self hw htypes
  have hagain := hplace.graphsOf_eq_graphs hindex
  simp only [Toolkit.analyze, hpaths', hds, hindex, hagain, l.runAll_graphSteps_eq_self hw hgraphs]
  rw [hs, hbatch]

/-- **The result of a run depends on the source files alone**, whatever they are read with;
`analyze` reads them with `Toolkit.own`.  Two trees with the same source files may differ in
everything else, also below the root of the artifacts and by what earlier runs left.  If a run
goes well in both, it gives the same summary and writes the same artifacts with the same texts in
the same places, and every other file stays as it is.  A second run changes nothing. -/
theorem analyze_independent (k : Toolkit) (o : ScanOptions) (hwants : o.WantsSources)
    (hignore : o.respectIgnoreFiles = false) (l : Layout) (root : String) (t₁ t₂ w₁ w₂ : FileTree)
    (s₁ s₂ : RunSummary) (ht₁ : t₁.WellFormed) (ht₂ : t₂.WellFormed)
    (hwd : t₂.workingDir = t₁.workingDir) (hsources : t₁.SameSources t₂)
    (hscope : ∀ d ∈ k.declarationsOf t₁ o root, IsDotted d.record.scope)
    (hname : ∀ d ∈ k.declarationsOf t₁ o root, IsTypeName d.record.name)
    (hrun₁ : k.analyze t₁ o l root = (w₁, .ok s₁))
    (hrun₂ : k.analyze t₂ o l root = (w₂, .ok s₂)) :
    let artifacts := l.artifacts (Collection.ofList (k.declarationsOf t₁ o root))
    s₁ = s₂ ∧ t₁.Leaves artifacts w₁ ∧ t₂.Leaves artifacts w₂ ∧
      (∀ f ∈ artifacts, w₁.locate f.1 = w₂.locate f.1) ∧
      k.analyze w₁ o l root = (w₁, .ok s₁) := by
  have hplace : Placeable (k.declarationsOf t₁ o root) := fun d hd => ⟨hscope d hd, hname d hd⟩
  obtain ⟨hsteps₁, paths, hpaths₁, hs₁⟩ := runAll_of_analyze hplace hrun₁
  have hfiles₂ : ∃ paths, Scan.files t₂ o root = .ok paths := by
    obtain ⟨paths, -, hpaths, -⟩ := analyze_eq_ok hrun₂
    exact ⟨paths, hpaths⟩
  obtain ⟨paths', hpaths₂⟩ := hfiles₂
  have hbatch := Scan.batch_eq hwants hignore ht₁ ht₂ hwd hsources hpaths₁ hpaths₂ k (some root)
  obtain rfl := Scan.files_eq hwants hignore ht₁ ht₂ hwd hsources hpaths₁ hpaths₂
  have hds : k.declarationsOf t₁ o root = k.declarationsOf t₂ o root := by
    rw [Toolkit.declarationsOf, Toolkit.declarationsOf, hpaths₁, hpaths₂]
    exact congrArg Batch.declarations hbatch
  have hplace₂ : Placeable (k.declarationsOf t₂ o root) := hds ▸ hplace
  obtain ⟨hsteps₂, _, hpaths, hs₂⟩ := runAll_of_analyze hplace₂ hrun₂
  obtain rfl := Except.ok.inj (hpaths₂.symm.trans hpaths)
  have hleaves₁ := leaves_of_analyze hplace hrun₁
  have hleaves₂ := leaves_of_analyze hplace₂ hrun₂
  rw [← hds] at hleaves₂ hs₂
  refine ⟨?_, hleaves₁, hleaves₂, fun f hf => ?_, analyze_again hwants hignore ht₁ hplace hrun₁⟩
  · rw [hs₁, hs₂, hbatch]
  · obtain ⟨place₁, hl₁, -⟩ := hleaves₁.written f hf
    obtain ⟨place₂, hl₂, -⟩ := hleaves₂.written f hf
    have hwd' : w₂.workingDir = w₁.workingDir := by
      rw [(Job.matures_runAll hsteps₂).workingDir_eq, hwd,
        (Job.matures_runAll hsteps₁).workingDir_eq]
    rw [hl₁, hl₂, FileTree.locate_unique hwd' hl₁ hl₂]

/-- An earlier run left a declaration and a note below the root of the artifacts, which lies among
the sources. -/
theorem analyze_independent_stale :
    let source : Place × Entry := (["A.cs"], .file "namespace N{class A{}}".toUTF8)
    let fresh : FileTree := ⟨[source], []⟩
    let stale : FileTree := ⟨[(["out"], .directory), (["out", "N"], .directory),
      (["out", "N", "A"], .directory),
      (["out", "N", "A", "syntaxtree.txt"], .file "class A{B b;}".toUTF8),
      (["out", "N", "note.txt"], .file "note".toUTF8), source], []⟩
    let o : ScanOptions := ⟨[".CS"], false, false⟩
    let l : Layout := ⟨"out"⟩
    let w₁ := (analyze fresh o l ".").1
    let w₂ := (analyze stale o l ".").1
    let artifacts := l.artifacts (Collection.ofList (Toolkit.own.declarationsOf fresh o "."))
    artifacts.map Prod.fst =
        ["out/N/A/metadata.json", "out/N/A/syntaxtree.txt", "out/N/graph.csv"] ∧
      fresh.Leaves artifacts w₁ ∧ stale.Leaves artifacts w₂ := by
  intro source fresh stale o l w₁ w₂ artifacts
  have hwants : o.WantsSources := by decide +kernel
  have hfresh : fresh.WellFormed := by decide +kernel
  have hstale : stale.WellFormed := by decide +kernel
  have hsources : fresh.sources = stale.sources := by decide +kernel
  have hplace : ∀ d ∈ Toolkit.own.declarationsOf fresh o ".",
      IsDotted d.record.scope ∧ IsTypeName d.record.name := by decide +kernel
  have hrun₁ : (analyze fresh o l ".").2 = .ok ⟨1, 0, 1, 0, 1, 1, 0⟩ := by decide +kernel
  have hrun₂ : (analyze stale o l ".").2 = .ok ⟨1, 0, 1, 0, 1, 1, 0⟩ := by decide +kernel
  obtain ⟨-, hleaves₁, hleaves₂, -⟩ := analyze_independent .own o hwants rfl l "." fresh stale w₁ w₂
    _ _ hfresh hstale rfl (fun f => by rw [hsources]) (fun d hd => (hplace d hd).1)
    (fun d hd => (hplace d hd).2) (analyze_eq_of_snd hrun₁) (analyze_eq_of_snd hrun₂)
  exact ⟨by decide +kernel, hleaves₁, hleaves₂⟩

end TypeAtlas
