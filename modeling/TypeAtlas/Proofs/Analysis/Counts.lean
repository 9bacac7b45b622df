import TypeAtlas.Proofs.Analysis.Evidence
import TypeAtlas.Proofs.Analysis.Rerun
import TypeAtlas.Proofs.Graph.Counts
import TypeAtlas.Proofs.Graph.RoundTrip

/-! # What the counts of a run add up to

The summary of a run counts in several phases: files when they are found and read,
declarations when they are merged, types in the index, namespaces, nodes and edges in the
graphs.  The counts belong together (`RunSummary.Conserves`): no file and no declaration gets
lost between two phases, and the graphs have the nodes and edges that the types call for, no
matter in how many graphs a type appears.

The same numbers of nodes and edges come out of the tables when they are read back, as long
as the artifacts have places of their own and no value has a comma or a line feed
(`analyze_conserves`).
-/
namespace TypeAtlas

open Source (Declaration)

/-! ### Files -/

/-- Every path gives an extraction or is left out. -/
theorem Toolkit.length_batch (k : Toolkit) (t : FileTree) (root : Option String)
    (paths : List String) :
    paths.length = (k.batch t root paths).skipped.length + (k.batch t root paths).files.length := by
  induction paths with
  | nil => rfl
  | cons path paths ih =>
    simp only [batch, Except.toOption, List.map_cons, List.filterMap_cons,
      List.length_cons] at ih ⊢
    cases k.extractFile t root path with
    | ok e =>
      simp only [Option.map_some, List.length_cons]
      omega
    | error reason =>
      simp only [Option.map_none, List.length_cons]
      omega

/-! ### Declarations -/

/-- The flags of a declaration agree with its base list. -/
theorem Source.Dialect.flagAgrees {dialect : Dialect} {p : Parsed} {path : String}
    {d : Declaration} (h : d ∈ dialect.declarations p path) : d.record.FlagAgrees := by
  obtain ⟨⟨kind, n, above⟩, -, hd⟩ := List.mem_filterMap.mp h
  obtain ⟨name, -, rfl⟩ := Option.map_eq_some_iff.mp hd
  rfl

theorem Toolkit.flagAgrees {k : Toolkit} {t : FileTree} {root : Option String}
    {paths : List String} : ∀ d ∈ (k.batch t root paths).declarations, d.record.FlagAgrees := by
  intro d hd
  obtain ⟨l, source, path, p, -, hd⟩ := exists_parsed_of_mem hd
  exact Source.Dialect.flagAgrees hd

namespace Collection

/-- Every declaration makes a type or is taken into one. -/
theorem size_add_merged (ds : List Declaration) :
    (ofList ds).index.size + (ofList ds).merged = ds.length := by
  obtain ⟨hsize, hmerged⟩ := foldl_add_counts empty ds
  rw [ofList, hsize, hmerged, ← length_outcomes empty ds,
    List.length_eq_countP_add_countP Registration.isAdded]
  simp [empty, TypeIndex.size, TypeIndex.empty]

/-- There are as many types as keys of declarations. -/
theorem size_eq_ncard (ds : List Declaration) :
    (ofList ds).index.size = {k | ∃ d ∈ ds, d.key = k}.ncard := by
  have hsize : (ofList ds).index.size = (keysOf ds).length := by
    rw [← keys_index, TypeIndex.keys, List.length_map]
    rfl
  rw [hsize]
  have hnodup : (keysOf ds).Nodup := nodup_eraseDups _
  refine length_eq_ncard (f := id) hnodup (Set.injOn_id _) fun k => ?_
  rw [mem_keysOf]
  constructor
  · exact fun h => ⟨k, h, rfl⟩
  · rintro ⟨k, h, rfl⟩
    exact h

/-- There are as many namespaces as the declarations have. -/
theorem length_scopes_eq_ncard (ds : List Declaration) :
    (ofList ds).index.scopes.length = {scope | ∃ d ∈ ds, d.record.scope = scope}.ncard := by
  have hnodup : (ofList ds).index.scopes.Nodup :=
    (aligned ds).scopes_rising.imp fun hlt => ne_of_lt hlt
  refine length_eq_ncard (f := id) hnodup (Set.injOn_id _) fun scope => ?_
  rw [mem_scopes]
  constructor
  · exact fun h => ⟨scope, h, rfl⟩
  · rintro ⟨scope, h, rfl⟩
    exact h

end Collection

/-! ### The summary -/

theorem countAll_eq_sum (graphs : List Graph) (count : Graph → Nat) :
    countAll graphs count = (graphs.map count).sum := by
  rw [countAll, ← List.foldl_map, List.sum_eq_foldl]

/-- How the counts of a run belong together, for the files that were extracted, the types of their
declarations and the texts from which edges are inferred. -/
structure RunSummary.Conserves (s : RunSummary) (b : Batch) (ix : TypeIndex) (texts : Texts) :
    Prop where
  /-- A file that was found was extracted or left out. -/
  files : s.filesScanned = s.filesSkipped + b.files.length
  /-- A declaration in a file makes a type or is taken into one. -/
  declarations : s.types + s.mergedDeclarations = (b.files.map fun f => f.2.types.length).sum
  /-- Types are the different pairs of a namespace and a name. -/
  types : s.types = {k | ∃ d ∈ b.declarations, d.key = k}.ncard
  scopes : s.scopes = {scope | ∃ d ∈ b.declarations, d.record.scope = scope}.ncard
  /-- A type is a node in its namespace and in every other one that it has an edge into. -/
  nodes : s.nodes = s.types + {p : TypeRecord × String | p.1 ∈ ix.records ∧ p.1.scope ≠ p.2 ∧
    Graph.InfersInto ix texts p.1 p.2}.ncard
  /-- There is one edge for each pair of types between which one is inferred. -/
  edges : s.edges = {p : TypeRecord × TypeRecord | p.1 ∈ ix.records ∧ p.2 ∈ ix.records ∧
    Graph.Infers texts p.1 p.2}.ncard

theorem RunSummary.conserves_of {k : Toolkit} {t : FileTree} {root : Option String}
    {paths : List String}
    (hname : ∀ d ∈ (k.batch t root paths).declarations, '.' ∉ d.record.name.toList)
    (u : FileTree) (l : Layout) :
    let b := k.batch t root paths
    let c := Collection.ofList b.declarations
    (RunSummary.of paths b c (graphsOf u l c.index)).Conserves b c.index (l.texts u) := by
  intro b c
  have hnames : ∀ r ∈ c.index.records, '.' ∉ r.name.toList :=
    Collection.forall_records (fun _ _ ha _ => ha) hname
  have hflags : ∀ r ∈ c.index.records, r.FlagAgrees :=
    Collection.forall_records (fun _ b ha _ => ha.absorb b) Toolkit.flagAgrees
  have haligned := Collection.aligned b.declarations
  constructor
  · exact k.length_batch t root paths
  · rw [← List.length_flatMap]
    exact Collection.size_add_merged b.declarations
  · exact Collection.size_eq_ncard b.declarations
  · rw [← Collection.length_scopes_eq_ncard]
    exact List.length_map _
  · exact (countAll_eq_sum _ _).trans (Graph.sum_nodes_eq_ncard haligned hnames hflags _)
  · exact (countAll_eq_sum _ _).trans (Graph.sum_edges_eq_ncard haligned hnames hflags _)

/-! ### Tables that are read back -/

/-- Neither a comma nor a line feed. -/
def IsCell (s : String) : Prop :=
  ',' ∉ s.toList ∧ '\n' ∉ s.toList

instance : DecidablePred IsCell := fun s =>
  inferInstanceAs (Decidable (',' ∉ s.toList ∧ '\n' ∉ s.toList))

theorem TypeRecord.isCell_identifier {r : TypeRecord} (hscope : IsCell r.scope)
    (hname : IsCell r.name) : IsCell r.identifier := by
  unfold IsCell at hscope hname ⊢
  rw [identifier_toList]
  simp [hscope, hname]

/-- Where no namespace and no name has a comma or a line feed, all rows are read back. -/
theorem Graph.readable_of_mem_rows {ix : TypeIndex} (h : ix.Aligned)
    (hcells : ∀ r ∈ ix.records, IsCell r.scope ∧ IsCell r.name) {texts : Texts} {scope : String}
    {row : Row} (hrow : row ∈ (build ix texts scope).rows) : row.Readable := by
  have hid : ∀ r ∈ ix.records, IsCell r.identifier := fun r hr =>
    TypeRecord.isCell_identifier (hcells r hr).1 (hcells r hr).2
  intro v hv
  cases row with
  | node n =>
    obtain ⟨r, hr, rfl⟩ := exists_record_of_mem_nodes h texts (mem_nodes_iff.mpr hrow)
    simp only [Row.values, List.mem_cons, List.not_mem_nil, or_false] at hv
    rcases hv with rfl | rfl
    · exact hid r hr
    · exact (hcells r hr).2
  | edge e =>
    obtain ⟨d, t, hshows, hsource, htarget⟩ := mem_build_edges_iff.mp (mem_edges_iff.mpr hrow)
    obtain ⟨hd, ht⟩ := hshows.mem_records h
    simp only [Row.values, List.mem_cons, List.not_mem_nil, or_false] at hv
    rcases hv with rfl | rfl
    · exact hsource ▸ hid d hd
    · exact htarget ▸ hid t ht

section
variable {k : Toolkit} {o : ScanOptions} {l : Layout} {root : String} {t w : FileTree}
  {s : RunSummary}
  (hplace : Placeable (k.declarationsOf t o root))
  (hcells : ∀ d ∈ k.declarationsOf t o root, IsCell d.record.scope ∧ IsCell d.record.name)
  (hrun : k.analyze t o l root = (w, .ok s))
include hplace hcells hrun

/-- After a run, the table of a namespace is that of its graph. -/
theorem readTable_of_analyze {g : Graph}
    (hg : g ∈ (Collection.ofList (k.declarationsOf t o root)).graphs) :
    l.readTable w g.scope = .ok (Table.ofRows g.rows) := by
  have hrecords : ∀ r ∈ (Collection.ofList (k.declarationsOf t o root)).index.records,
      IsCell r.scope ∧ IsCell r.name := Collection.forall_records (fun _ _ ha _ => ha) hcells
  have hfile : w.HasFile (l.graphPath g.scope) g.render.toUTF8 := by
    refine (leaves_of_analyze hplace hrun).written (l.graphPath g.scope, g.render) ?_
    rw [Layout.artifacts, Layout.steps, WriteStep.writes_append, Layout.writes_graphSteps]
    exact List.mem_append_right _ (List.mem_map.mpr ⟨g, hg, rfl⟩)
  have hreadable : ∀ r ∈ g.rows, r.Readable := by
    obtain ⟨scope, -, rfl⟩ := List.mem_map.mp hg
    exact fun r hr => Graph.readable_of_mem_rows (Collection.aligned _) hrecords hr
  rw [Layout.readTable, hfile.readText (Path.endsInSlash_join _ Layout.isName_graphName)]
  exact congrArg Except.ok ((Table.parse_renderRows_iff g.rows).mpr hreadable)

/-- The tables of all namespaces have the nodes and edges that the summary counts. -/
theorem exists_tables_of_analyze : ∃ tables,
    List.Forall₂ (fun scope table => l.readTable w scope = .ok table)
        (Collection.ofList (k.declarationsOf t o root)).index.scopes tables ∧
      (tables.map fun table => table.nodes.length).sum = s.nodes ∧
      (tables.map fun table => table.edges.length).sum = s.edges := by
  obtain ⟨-, paths, -, rfl⟩ := runAll_of_analyze hplace hrun
  refine ⟨(Collection.ofList (k.declarationsOf t o root)).graphs.map fun g => .ofRows g.rows,
    ?_, ?_, ?_⟩
  · rw [← Collection.map_scope_graphs, List.forall₂_map_left_iff, List.forall₂_map_right_iff,
      List.forall₂_same]
    exact fun g hg => readTable_of_analyze hplace hcells hrun hg
  · rw [List.map_map]
    exact (countAll_eq_sum _ _).symm
  · rw [List.map_map]
    exact (countAll_eq_sum _ _).symm

end

/-! ### Whole runs -/

/-- **The counts of a run are conserved.**  Whatever the sources are and whatever they are read with
(`analyze` reads them with `Toolkit.own`), if a run goes well and no name has a dot, its counts
belong together as `RunSummary.Conserves` says, where edges are inferred from the declarations
as they were written.  If namespaces and names can be directories and have
no comma and no line feed, the tables of all namespaces, read back, have as many nodes and edges
as the summary says. -/
theorem analyze_conserves (k : Toolkit) (o : ScanOptions) (l : Layout) (root : String)
    (t w : FileTree) (s : RunSummary) (hrun : k.analyze t o l root = (w, .ok s))
    (hname : ∀ d ∈ k.declarationsOf t o root, '.' ∉ d.record.name.toList) :
    ∃ paths, Scan.files t o root = .ok paths ∧ s.filesScanned = paths.length ∧
      let b := k.batch t (some root) paths
      let c := Collection.ofList b.declarations
      let written := (WriteStep.runAll t (l.indexSteps c.index c.texts)).1
      s.Conserves b c.index (l.texts written) ∧
        ((∀ d ∈ b.declarations, IsDotted d.record.scope ∧ IsTypeName d.record.name ∧
            IsCell d.record.scope ∧ IsCell d.record.name) →
          ∃ tables, List.Forall₂ (fun scope table => l.readTable w scope = .ok table)
              c.index.scopes tables ∧
            (tables.map fun table => table.nodes.length).sum = s.nodes ∧
            (tables.map fun table => table.edges.length).sum = s.edges) := by
  obtain ⟨paths, u, hpaths, hu, -, hs⟩ := analyze_eq_ok hrun
  have hds : k.declarationsOf t o root = (k.batch t (some root) paths).declarations := by
    rw [Toolkit.declarationsOf, hpaths]
  refine ⟨paths, hpaths, by rw [hs]; rfl, ?_⟩
  intro b c written
  constructor
  · have hwritten : written = u := congrArg Prod.fst hu
    rw [hwritten, hs]
    exact RunSummary.conserves_of (hds ▸ hname) u l
  · intro hcells
    rw [← hds] at hcells
    have htables := exists_tables_of_analyze (fun d hd => ⟨(hcells d hd).1, (hcells d hd).2.1⟩)
      (fun d hd => (hcells d hd).2.2) hrun
    rwa [hds] at htables

/-- Two parts are one type, and a type that imports another namespace is a node in both. -/
theorem analyze_conserves_two_parts :
    let source := "using N;namespace N{class A{}class A{}}class B:A{}"
    let t : FileTree := ⟨[(["A.cs"], .file source.toUTF8)], []⟩
    let o : ScanOptions := ⟨["cs"], false, false⟩
    let l : Layout := ⟨"out"⟩
    (analyze t o l ".").2 = .ok ⟨1, 0, 2, 1, 2, 3, 1⟩ ∧
      (∀ d ∈ Toolkit.own.declarationsOf t o ".", '.' ∉ d.record.name.toList) ∧
      ∃ tables, List.Forall₂
          (fun scope table => l.readTable (analyze t o l ".").1 scope = .ok table)
          (Collection.ofList (Toolkit.own.declarationsOf t o ".")).index.scopes tables ∧
        (tables.map fun table => table.nodes.length).sum = 3 ∧
        (tables.map fun table => table.edges.length).sum = 1 := by
  intro source t o l
  have hrun : (analyze t o l ".").2 = .ok ⟨1, 0, 2, 1, 2, 3, 1⟩ := by decide +kernel
  have hcells : ∀ d ∈ Toolkit.own.declarationsOf t o ".",
      IsDotted d.record.scope ∧ IsTypeName d.record.name ∧
      IsCell d.record.scope ∧ IsCell d.record.name := by decide +kernel
  have hname : ∀ d ∈ Toolkit.own.declarationsOf t o ".", '.' ∉ d.record.name.toList :=
    fun d hd => (hcells d hd).2.1.no_dot
  obtain ⟨paths, hpaths, -, -, htables⟩ :=
    analyze_conserves .own o l "." t _ _ (analyze_eq_of_snd hrun) hname
  have hds : (Toolkit.own.batch t (some ".") paths).declarations =
      Toolkit.own.declarationsOf t o "." := by
    rw [Toolkit.declarationsOf, hpaths]
  rw [hds] at htables
  exact ⟨hrun, hname, htables hcells⟩

end TypeAtlas
