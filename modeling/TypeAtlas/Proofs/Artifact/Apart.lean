import TypeAtlas.Proofs.Artifact.Places
import TypeAtlas.Proofs.Index.Alignment
import TypeAtlas.Proofs.Files.Parents

/-! # All artifacts of a run

A run writes two files for every type and one for every namespace.  No two of them are in
one place (`Layout.artifacts_apart`): what tells them apart are the names on the way from
the root, of which only the last one has a dot.  Hence none is written twice, and all are
there when a run has gone well.
-/
namespace TypeAtlas

open FileTree (LeadApart)

/-- The names to the directory of a namespace. -/
theorem IsDotted.leads_scopeDir {scope : String} (h : IsDotted scope) :
    Path.Leads "" (scopeDir scope) (scopeSegments scope) :=
  (Path.leads_self "").joinAll fun s hs => (h.isSegment s hs).isName

namespace Layout

theorem isName_graphName : Path.IsName graphName := by
  constructor <;> decide

/-- The names from the root to the table of a namespace. -/
theorem leads_scopeDir (l : Layout) {scope : String} (h : IsDotted scope) :
    Path.Leads l.root (l.scopeDir scope) (scopeSegments scope) :=
  h.leads_scopeDir.behind l.root

theorem isName_graphNames {scope : String} (h : IsDotted scope) :
    ∀ n ∈ scopeSegments scope ++ [graphName], Path.IsName n := by
  intro n hn
  rcases List.mem_append.mp hn with hn | hn
  · exact (h.isSegment n hn).isName
  · exact List.mem_singleton.mp hn ▸ isName_graphName

/-- Tables of different namespaces are in different places. -/
theorem graphPath_leadApart (l : Layout) {s t : String} (hs : IsDotted s) (ht : IsDotted t)
    (hne : s ≠ t) : LeadApart (l.graphPath s) (l.graphPath t) := by
  refine FileTree.leadApart_of_names_ne ((l.leads_scopeDir hs).join isName_graphName)
    ((l.leads_scopeDir ht).join isName_graphName) (isName_graphNames hs) (isName_graphNames ht)
    fun he => ?_
  exact hne (hs.eq_of_segments_eq ht (List.append_inj' he rfl).1)

/-- No table is where a file of a type is. -/
theorem typeFile_leadApart_graphPath (l : Layout) {r : TypeRecord} {scope file : String}
    (hr : r.IsPlaceable) (hscope : IsDotted scope) (hfile : Path.IsName file)
    (hne : file ≠ graphName) : LeadApart (Path.join (l.typeDir r) file) (l.graphPath scope) := by
  refine FileTree.leadApart_of_names_ne (l.leads_typeFile hr hfile)
    ((l.leads_scopeDir hscope).join isName_graphName) (hr.isName_file hfile)
    (isName_graphNames hscope) fun he => ?_
  exact hne (List.cons_eq_cons.mp (List.append_inj' he rfl).2).1

/-! ### What the steps write -/

/-- The files of a type. -/
def typeFiles (l : Layout) (p : TypeRecord × String) : List (String × String) :=
  [(l.metadataPath p.1, p.1.render), (l.declarationPath p.1, p.2)]

theorem writes_indexSteps (l : Layout) (ix : TypeIndex) (texts : List String) :
    WriteStep.writes (l.indexSteps ix texts) = (ix.records.zip texts).flatMap l.typeFiles := by
  rw [WriteStep.writes, indexSteps, List.filterMap_flatMap]
  rfl

theorem writes_graphSteps (l : Layout) (graphs : List Graph) :
    WriteStep.writes (graphs.flatMap l.graphSteps) =
      graphs.map fun g => (l.graphPath g.scope, g.render) := by
  rw [WriteStep.writes, List.filterMap_flatMap, List.map_eq_flatMap]
  rfl

/-- The steps of a whole run. -/
def steps (l : Layout) (ix : TypeIndex) (texts : List String) (graphs : List Graph) :
    List WriteStep :=
  l.indexSteps ix texts ++ graphs.flatMap l.graphSteps

section
variable (l : Layout) {ix : TypeIndex} (h : ix.Aligned)
  (hplace : ∀ r ∈ ix.records, r.IsPlaceable) {texts : List String}
include h hplace

theorem isDotted_scope {graphs : List Graph} (hscopes : graphs.map Graph.scope = ix.scopes) :
    ∀ g ∈ graphs, IsDotted g.scope := by
  intro g hg
  obtain ⟨r, hr, hscope⟩ := h.mem_scopes.mp (hscopes ▸ List.mem_map_of_mem hg)
  exact hscope ▸ (hplace r hr).scope

theorem typeFiles_apart (hlength : ix.records.length ≤ texts.length) :
    (WriteStep.writes (l.indexSteps ix texts)).Pairwise fun f g => LeadApart f.1 g.1 := by
  have hkeys : (ix.records.zip texts).Pairwise fun p q => p.1.key ≠ q.1.key := by
    have hnodup := h.keys_nodup
    rw [TypeIndex.keys, ← List.map_fst_zip hlength, List.map_map] at hnodup
    exact List.pairwise_map.mp hnodup
  rw [writes_indexSteps, List.pairwise_flatMap]
  constructor
  · rintro ⟨r, text⟩ hmem
    have hr := hplace r (List.of_mem_zip hmem).1
    refine List.pairwise_pair.mpr ?_
    exact l.typeFile_leadApart hr hr isName_metadataName isName_declarationName
      (Or.inr (by decide))
  · refine hkeys.imp_of_mem ?_
    rintro ⟨r, text⟩ ⟨s, text'⟩ hr hs hne f hf g hg
    have hr := hplace r (List.of_mem_zip hr).1
    have hs := hplace s (List.of_mem_zip hs).1
    simp only [typeFiles, List.mem_cons, List.not_mem_nil, or_false] at hf hg
    rcases hf with rfl | rfl <;> rcases hg with rfl | rfl <;>
      exact l.typeFile_leadApart hr hs (by constructor <;> decide) (by constructor <;> decide)
        (Or.inl hne)

theorem graphFiles_apart {graphs : List Graph} (hscopes : graphs.map Graph.scope = ix.scopes) :
    (WriteStep.writes (graphs.flatMap l.graphSteps)).Pairwise fun f g => LeadApart f.1 g.1 := by
  have hdotted : ∀ g ∈ graphs, IsDotted g.scope := isDotted_scope h hplace hscopes
  have hne : graphs.Pairwise fun g g' => g.scope ≠ g'.scope := by
    have hrising := h.scopes_rising
    rw [← hscopes, List.pairwise_map] at hrising
    exact hrising.imp fun hlt => hlt.ne
  rw [writes_graphSteps, List.pairwise_map]
  exact hne.imp_of_mem fun hg hg' hne => l.graphPath_leadApart (hdotted _ hg) (hdotted _ hg') hne

/-- **No two artifacts of a run are in one place.** -/
theorem artifacts_apart (hlength : ix.records.length ≤ texts.length) {graphs : List Graph}
    (hscopes : graphs.map Graph.scope = ix.scopes) :
    (WriteStep.writes (l.steps ix texts graphs)).Pairwise fun f g => LeadApart f.1 g.1 := by
  rw [steps, WriteStep.writes_append, List.pairwise_append]
  refine ⟨l.typeFiles_apart h hplace hlength, l.graphFiles_apart h hplace hscopes, ?_⟩
  intro f hf g hg
  rw [writes_indexSteps] at hf
  obtain ⟨⟨r, text⟩, hmem, hf⟩ := List.mem_flatMap.mp hf
  rw [writes_graphSteps] at hg
  obtain ⟨graph, hgraph, rfl⟩ := List.mem_map.mp hg
  have hr := hplace r (List.of_mem_zip hmem).1
  have hscope := isDotted_scope h hplace hscopes graph hgraph
  simp only [typeFiles, List.mem_cons, List.not_mem_nil, or_false] at hf
  rcases hf with rfl | rfl
  · exact l.typeFile_leadApart_graphPath hr hscope isName_metadataName (by decide)
  · exact l.typeFile_leadApart_graphPath hr hscope isName_declarationName (by decide)

end
end Layout
end TypeAtlas
