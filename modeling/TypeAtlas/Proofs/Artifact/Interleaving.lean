import TypeAtlas.Proofs.Analysis.Persistence
import TypeAtlas.Proofs.Artifact.Apart
import TypeAtlas.Proofs.Files.Jobs

/-! # Artifacts by writers that take turns

The artifacts of all types can be written by one writer for each type, and after that the
graphs by one writer for each namespace.  In whatever way the writers take turns, the
artifacts become what they become when everything is written in the order of the index
(`Layout.writers_settle`).

Writers share directories: those of a namespace are above those of its types, and the
directory of a type can be that of another namespace.  Directories that are there already
are no failure, no two artifacts are in one place, and no artifact is in the way of a
directory, since its name has a dot.
-/
namespace TypeAtlas
namespace Layout

/-! ### The jobs -/

/-- The artifacts of a type as a job. -/
def typeJob (l : Layout) (p : TypeRecord × String) : Job :=
  ⟨l.typeDir p.1, [(metadataName, p.1.render), (declarationName, p.2)]⟩

/-- A graph as a job. -/
def graphJob (l : Layout) (g : Graph) : Job :=
  ⟨l.scopeDir g.scope, [(graphName, g.render)]⟩

/-- One job for each type. -/
def typeJobs (l : Layout) (ix : TypeIndex) (texts : List String) : List Job :=
  (ix.records.zip texts).map l.typeJob

theorem flatMap_steps_typeJobs (l : Layout) (ix : TypeIndex) (texts : List String) :
    (l.typeJobs ix texts).flatMap Job.steps = l.indexSteps ix texts := by
  rw [typeJobs, List.flatMap_map]
  rfl

theorem flatMap_steps_graphJobs (l : Layout) (graphs : List Graph) :
    (graphs.map l.graphJob).flatMap Job.steps = graphs.flatMap l.graphSteps := by
  rw [List.flatMap_map]
  rfl

theorem allWritten_typeJobs (l : Layout) (ix : TypeIndex) (texts : List String) :
    Job.allWritten (l.typeJobs ix texts) = WriteStep.writes (l.indexSteps ix texts) := by
  rw [writes_indexSteps, Job.allWritten, typeJobs, List.flatMap_map]
  rfl

theorem allWritten_graphJobs (l : Layout) (graphs : List Graph) :
    Job.allWritten (graphs.map l.graphJob) = WriteStep.writes (graphs.flatMap l.graphSteps) := by
  rw [writes_graphSteps, Job.allWritten, List.flatMap_map, List.map_eq_flatMap]
  rfl

theorem proper_typeJob (l : Layout) (p : TypeRecord × String) : (l.typeJob p).Proper := by
  refine ⟨List.cons_ne_nil _ _, ?_⟩
  simp only [typeJob, List.forall_mem_cons]
  exact ⟨isName_metadataName, isName_declarationName, fun _ h => absurd h List.not_mem_nil⟩

theorem proper_graphJob (l : Layout) (g : Graph) : (l.graphJob g).Proper := by
  refine ⟨List.cons_ne_nil _ _, fun f hf => ?_⟩
  rw [List.mem_singleton.mp hf]
  exact isName_graphName

theorem mem_typeJobs {l : Layout} {ix : TypeIndex} {texts : List String} {j : Job}
    (hj : j ∈ l.typeJobs ix texts) : ∃ r ∈ ix.records, ∃ text, j = l.typeJob (r, text) := by
  obtain ⟨⟨r, text⟩, hmem, rfl⟩ := List.mem_map.mp hj
  exact ⟨r, (List.of_mem_zip hmem).1, text, rfl⟩

theorem endsInName_typeDir (l : Layout) {r : TypeRecord} (h : r.IsPlaceable) :
    Path.EndsInName (l.typeDir r) := by
  have hname := Path.endsInName_of_isName h.name.isName
  have hdir := hname.join (TypeAtlas.scopeDir r.scope) (Path.isAbsolute_of_no_slash h.name.no_slash)
  exact hdir.join l.root h.leads_dir.isAbsolute_eq

theorem nulFree_scopeDir {l : Layout} {r : TypeRecord} (h : r.IsPlaceable)
    (hnul : Path.NulFree (l.metadataPath r)) : Path.NulFree (l.scopeDir r.scope) := by
  have hscope : Path.isAbsolute (TypeAtlas.scopeDir r.scope) = false :=
    ((Path.leads_self "").joinAll fun s hs => (h.scope.isSegment s hs).isName).isAbsolute_eq
  have htype := ((Path.nulFree_join_iff
    (Path.isAbsolute_of_no_slash isName_metadataName.no_slash)).mp hnul).1
  obtain ⟨hroot, hdir⟩ := (Path.nulFree_join_iff h.leads_dir.isAbsolute_eq).mp htype
  have hnames := (Path.nulFree_join_iff (Path.isAbsolute_of_no_slash h.name.no_slash)).mp hdir
  exact (Path.nulFree_join_iff hscope).mpr ⟨hroot, hnames.1⟩

section
variable (l : Layout) {ix : TypeIndex} (h : ix.Aligned)
  (hplace : ∀ r ∈ ix.records, r.IsPlaceable) {texts : List String}
  (hlength : texts.length = ix.records.length) {t u w : FileTree}
  (hrun : WriteStep.runAll t (l.indexSteps ix texts) = (u, none))
include h hplace hlength hrun

theorem hasFile_typeJobs :
    ∀ f ∈ Job.allWritten (l.typeJobs ix texts), u.HasFile f.1 f.2.toUTF8 := by
  rw [allWritten_typeJobs]
  exact WriteStep.hasFile_of_mem_writes (l.typeFiles_apart h hplace hlength.ge) hrun

/-- When all types are written, the directories of all namespaces stand. -/
theorem stands_scopeDir {scope : String} (hscope : scope ∈ ix.scopes) :
    u.Stands (l.scopeDir scope) := by
  obtain ⟨r, hr, rfl⟩ := h.mem_scopes.mp hscope
  have hplaced := hplace r hr
  have hfile : ∃ bytes, u.HasFile (l.metadataPath r) bytes := by
    rw [← List.map_fst_zip hlength.ge] at hr
    obtain ⟨p, hp, rfl⟩ := List.mem_map.mp hr
    refine ⟨_, l.hasFile_typeJobs h hplace hlength hrun (l.metadataPath p.1, p.1.render) ?_⟩
    rw [allWritten_typeJobs, writes_indexSteps]
    exact List.mem_flatMap.mpr ⟨p, hp, List.mem_cons_self⟩
  obtain ⟨bytes, place, hl, -⟩ := hfile
  have hleads := l.leads_typeFile hplaced isName_metadataName
  have habove := l.leads_scopeDir hplaced.scope
  refine FileTree.stands_of_pieces_append hl
    (habove.isAbsolute_eq.trans hleads.isAbsolute_eq.symm) ?_
    (List.cons_ne_nil r.name [metadataName])
    (nulFree_scopeDir hplaced (FileTree.locate_eq_ok_iff.mp hl).1)
  rw [habove.pieces_eq, metadataPath, hleads.pieces_eq, TypeRecord.dirNames]
  simp only [List.append_assoc, List.singleton_append]

/-- **The types can be written by writers that take turns.** -/
theorem typeJobs_settle : (Job.start t (l.typeJobs ix texts)).Settles u := by
  have hfiled := l.hasFile_typeJobs h hplace hlength hrun
  rw [← flatMap_steps_typeJobs] at hrun
  have habs : ∀ j ∈ l.typeJobs ix texts, Path.isAbsolute j.dir = Path.isAbsolute l.root := by
    intro j hj
    obtain ⟨r, hr, text, rfl⟩ := mem_typeJobs hj
    exact Path.isAbsolute_join (hplace r hr).leads_dir.isAbsolute_eq
  refine Job.settles .rfl (Job.fits_of_runAll ?_ ?_ habs hrun hfiled) hrun hfiled
  · intro j hj
    obtain ⟨r, hr, text, rfl⟩ := mem_typeJobs hj
    exact l.proper_typeJob (r, text)
  · intro j hj
    obtain ⟨r, hr, text, rfl⟩ := mem_typeJobs hj
    exact l.endsInName_typeDir (hplace r hr)

/-- **The graphs can be written by writers that take turns**, from any tree that holds the
same. -/
theorem graphJobs_settle {graphs : List Graph} (hscopes : graphs.map Graph.scope = ix.scopes)
    {u' : FileTree} (hsame : u.Same u')
    (hrun' : WriteStep.runAll u (graphs.flatMap l.graphSteps) = (w, none)) :
    (Job.start u' (graphs.map l.graphJob)).Settles w := by
  have hfiled : ∀ f ∈ Job.allWritten (graphs.map l.graphJob), w.HasFile f.1 f.2.toUTF8 := by
    rw [allWritten_graphJobs]
    exact WriteStep.hasFile_of_mem_writes (l.graphFiles_apart h hplace hscopes) hrun'
  rw [← flatMap_steps_graphJobs] at hrun'
  refine Job.settles hsame (fun j hj => ?_) hrun' hfiled
  obtain ⟨g, hg, rfl⟩ := List.mem_map.mp hj
  refine ⟨l.proper_graphJob g, Or.inl (l.stands_scopeDir h hplace hlength hrun ?_)⟩
  exact hscopes ▸ List.mem_map_of_mem hg

end

/-! ### A whole run -/

theorem graphsOf_of_same {u u' : FileTree} (h : u.Same u') (l : Layout) (ix : TypeIndex) :
    graphsOf u' l ix = graphsOf u l ix := by
  have htexts : l.texts u' = l.texts u := by
    funext r
    rw [texts, texts, declaration?, declaration?, h.readText]
  rw [graphsOf, graphsOf, htexts]

/-- **Writers that take turns write what is written in the order of the index.**  The tree may hold
anything before, as long as the artifacts can be written in that order.  First the writers of
the types take turns, and whatever tree they leave, then those of the graphs that are inferred
from it: no access fails, both come to an end, and then the tree holds what it holds after the
sequential run. -/
theorem writers_settle (l : Layout) (ix : TypeIndex) (h : ix.Aligned) (texts : List String)
    (hlength : texts.length = ix.records.length) (hscope : ∀ r ∈ ix.records, IsDotted r.scope)
    (hname : ∀ r ∈ ix.records, IsTypeName r.name) (t u w : FileTree)
    (htypes : WriteStep.runAll t (l.indexSteps ix texts) = (u, none))
    (hgraphs : WriteStep.runAll u ((graphsOf u l ix).flatMap l.graphSteps) = (w, none)) :
    (Job.start t (l.typeJobs ix texts)).Settles u ∧
      ∀ v, Relation.ReflTransGen Writers.Step (Job.start t (l.typeJobs ix texts)) v →
        (∀ v', ¬ Writers.Step v v') →
        (Job.start v.tree ((graphsOf v.tree l ix).map l.graphJob)).Settles w := by
  have hplace : ∀ r ∈ ix.records, r.IsPlaceable := fun r hr => ⟨hscope r hr, hname r hr⟩
  have hsettles := l.typeJobs_settle h hplace hlength htypes
  refine ⟨hsettles, fun v hreach hlast => ?_⟩
  obtain ⟨-, hsame⟩ := hsettles.same v hreach hlast
  rw [graphsOf_of_same hsame.symm]
  have hscopes : (graphsOf u l ix).map Graph.scope = ix.scopes := by
    rw [graphsOf, Graph.buildAll, List.map_map]
    exact List.map_id _
  exact l.graphJobs_settle h hplace hlength htypes hscopes hsame.symm hgraphs

/-- A type whose directory is that of another namespace, in a tree with an older graph. -/
theorem writers_settle_shared :
    let outer := TypeRecord.new "B" .classType "A" ""
    let inner := TypeRecord.new "C" .classType "A.B" ""
    let ix := TypeIndex.ofList [outer, inner]
    let texts := ["class B { C c; }", "class C { }"]
    let l : Layout := ⟨"out"⟩
    let t : FileTree := ⟨[(["out"], .directory), (["out", "A"], .directory),
      (["out", "A", "graph.csv"], .file "old".toUTF8)], []⟩
    let u := (WriteStep.runAll t (l.indexSteps ix texts)).1
    l.typeDir outer = l.scopeDir inner.scope ∧ u.get? ["out", "A", "B"] = some .directory ∧
      (Job.start t (l.typeJobs ix texts)).Settles u := by
  intro outer inner ix texts l t u
  have hscope : ∀ r ∈ ix.records, IsDotted r.scope := by decide +kernel
  have hname : ∀ r ∈ ix.records, IsTypeName r.name := by decide +kernel
  have htypes : (WriteStep.runAll t (l.indexSteps ix texts)).2 = none := by decide +kernel
  have hgraphs : (WriteStep.runAll u ((graphsOf u l ix).flatMap l.graphSteps)).2 = none := by
    decide +kernel
  refine ⟨by decide +kernel, by decide +kernel, ?_⟩
  exact (writers_settle l ix (TypeIndex.aligned_ofList _) texts (by decide +kernel) hscope hname
    t u _ (WriteStep.runAll_eq_of_snd htypes) (WriteStep.runAll_eq_of_snd hgraphs)).1

end Layout
end TypeAtlas
