import TypeAtlas.Proofs.Graph.Edges

/-! # Graphs are well formed

Rows are compared as wholes before they are put in, so that the rows of a graph are
distinct is one thing and that its nodes have distinct identifiers another one.  What
holds of every graph, whatever the names of the types are, is `WellFormed`: distinct
rows, no loop, a node for each type of the namespace and for both ends of each edge.

The rest needs names without a dot, for then an identifier belongs to one record
(`TypeIndex.Aligned.eq_of_identifier_eq`).  A node is the image of a record, so nodes
with one identifier are one node; and the two ends of an edge are records that
determine its label, and its graph, which is that of the namespace of the target.
-/
namespace TypeAtlas
namespace Graph

/-- A graph in which every row is there once and every edge has two ends, for the types
of an index. -/
structure WellFormed (ix : TypeIndex) (g : Graph) : Prop where
  rows_nodup : g.rows.Nodup
  no_loop : ∀ e ∈ g.edges, e.source ≠ e.target
  type_mem : ∀ r ∈ ix.group g.scope, GraphNode.ofRecord r ∈ g.nodes
  source_mem : ∀ e ∈ g.edges, ∃ n ∈ g.nodes, n.identifier = e.source
  target_mem : ∀ e ∈ g.edges, ∃ n ∈ g.nodes, n.identifier = e.target

/-- Every graph of every index is well formed. -/
theorem build_wellFormed (ix : TypeIndex) (texts : Texts) (scope : String) :
    WellFormed ix (build ix texts scope) where
  rows_nodup := by
    rw [build_rows]
    exact nodup_eraseDups _
  no_loop := by
    intro e he
    obtain ⟨d, t, hshows, hsource, htarget⟩ := mem_build_edges_iff.mp he
    rw [← hsource, ← htarget]
    exact hshows.2.2.1
  type_mem := fun r hr => mem_build_nodes_iff.mpr (Or.inl ⟨r, hr, rfl⟩)
  source_mem := by
    intro e he
    obtain ⟨d, t, hshows, hsource, -⟩ := mem_build_edges_iff.mp he
    refine ⟨.ofRecord d, mem_build_nodes_iff.mpr ?_, hsource⟩
    rcases hshows.2.1 with hd | hd
    · exact Or.inl ⟨d, hd.1, rfl⟩
    · exact Or.inr ⟨d, hd.1, rfl, t, e.label, hshows⟩
  target_mem := by
    intro e he
    obtain ⟨d, t, hshows, -, htarget⟩ := mem_build_edges_iff.mp he
    exact ⟨.ofRecord t, mem_build_nodes_iff.mpr (Or.inl ⟨t, hshows.1, rfl⟩), htarget⟩

theorem nodes_nodup {g : Graph} (h : g.rows.Nodup) : g.nodes.Nodup := by
  refine h.filterMap ?_
  intro r r' n hr hr'
  cases r <;> cases r' <;> simp_all [Row.node?]

theorem edges_nodup {g : Graph} (h : g.rows.Nodup) : g.edges.Nodup := by
  refine h.filterMap ?_
  intro r r' e hr hr'
  cases r <;> cases r' <;> simp_all [Row.edge?]

/-! ### Where an identifier belongs to one record -/

section
variable {ix : TypeIndex} (h : ix.Aligned) (hname : ∀ r ∈ ix.records, '.' ∉ r.name.toList)
variable (texts : Texts)
include h

/-- Every node is that of a record. -/
theorem exists_record_of_mem_nodes {scope : String} {n : GraphNode}
    (hn : n ∈ (build ix texts scope).nodes) : ∃ r ∈ ix.records, n = .ofRecord r := by
  rcases mem_build_nodes_iff.mp hn with ⟨r, hr, rfl⟩ | ⟨r, hr, rfl, -⟩
  · exact ⟨r, (h.mem_group_iff.mp hr).1, rfl⟩
  · exact ⟨r, ((mem_foreigners_iff h).mp hr).1, rfl⟩

include hname

/-- No two nodes of a graph have one identifier. -/
theorem nodes_identifier_nodup (scope : String) :
    ((build ix texts scope).nodes.map GraphNode.identifier).Nodup := by
  refine (nodes_nodup (build_wellFormed ix texts scope).rows_nodup).map_on ?_
  intro m hm n hn he
  obtain ⟨a, ha, rfl⟩ := exists_record_of_mem_nodes h texts hm
  obtain ⟨b, hb, rfl⟩ := exists_record_of_mem_nodes h texts hn
  rw [h.eq_of_identifier_eq hname ha hb he]

/-- The ends of an edge determine its label. -/
theorem edge_eq_of_ends_eq {scope : String} {e f : GraphEdge}
    (he : e ∈ (build ix texts scope).edges) (hf : f ∈ (build ix texts scope).edges)
    (hsource : e.source = f.source) (htarget : e.target = f.target) : e = f := by
  obtain ⟨d, t, hs, hd, ht⟩ := mem_build_edges_iff.mp he
  obtain ⟨d', t', hs', hd', ht'⟩ := mem_build_edges_iff.mp hf
  obtain ⟨hdm, htm, -, -, -, hlabel⟩ := (shows_iff h hname).mp hs
  obtain ⟨hdm', htm', -, -, -, hlabel'⟩ := (shows_iff h hname).mp hs'
  have hdd : d = d' := h.eq_of_identifier_eq hname hdm hdm' (by rw [hd, hd', hsource])
  have htt : t = t' := h.eq_of_identifier_eq hname htm htm' (by rw [ht, ht', htarget])
  subst hdd htt
  have hl : e.label = f.label := Option.some.inj (hlabel.symm.trans hlabel')
  cases e
  cases f
  simp_all

/-- The target of an edge is a type of the graph's namespace. -/
theorem target_scope {scope : String} {e : GraphEdge}
    (he : e ∈ (build ix texts scope).edges) :
    ∃ t ∈ ix.records, t.identifier = e.target ∧ t.scope = scope := by
  obtain ⟨d, t, hs, -, ht⟩ := mem_build_edges_iff.mp he
  obtain ⟨-, htm, -, hscope, -⟩ := (shows_iff h hname).mp hs
  exact ⟨t, htm, ht, hscope⟩

/-- Over all graphs together, no two edges lead from one type to another one. -/
theorem buildAll_ends_nodup :
    (((buildAll ix texts).flatMap edges).map fun e => (e.source, e.target)).Nodup := by
  have hends : ∀ scope, ((build ix texts scope).edges.map fun e => (e.source, e.target)).Nodup := by
    intro scope
    refine (edges_nodup (build_wellFormed ix texts scope).rows_nodup).map_on ?_
    intro e he f hf heq
    obtain ⟨hsource, htarget⟩ := Prod.ext_iff.mp heq
    exact edge_eq_of_ends_eq h hname texts he hf hsource htarget
  rw [buildAll, List.flatMap_map, List.map_flatMap]
  refine List.nodup_flatMap.mpr ⟨fun scope _ => hends scope, ?_⟩
  refine h.scopes_rising.imp fun hlt => ?_
  -- one target in the graphs of two namespaces would be a record of both
  intro p hp hp'
  obtain ⟨e, he, rfl⟩ := List.mem_map.mp hp
  obtain ⟨f, hf, heq⟩ := List.mem_map.mp hp'
  obtain ⟨t, ht, hid, hscope⟩ := target_scope h hname texts he
  obtain ⟨t', ht', hid', hscope'⟩ := target_scope h hname texts hf
  have hte : t' = t := h.eq_of_identifier_eq hname ht' ht
    (hid'.trans ((Prod.ext_iff.mp heq).2.trans hid.symm))
  rw [hte, hscope] at hscope'
  exact absurd hscope' (ne_of_lt hlt)

end

/-- **Graphs are well formed.**  Whatever has been registered, every graph has distinct
rows, no loop, a node for each type of its namespace and for both ends of each edge.  Where
no name has a dot, no two nodes of a graph share an identifier, and over all graphs together
each ordered pair of identifiers is on at most one edge, which is in the graph of the
target's namespace. -/
theorem graphs_wellFormed (rs : List TypeRecord) (texts : Texts) :
    (∀ scope, WellFormed (TypeIndex.ofList rs) (build (TypeIndex.ofList rs) texts scope)) ∧
      ((∀ r ∈ rs, '.' ∉ r.name.toList) →
        (∀ scope, ((build (TypeIndex.ofList rs) texts scope).nodes.map
          GraphNode.identifier).Nodup) ∧
        (((buildAll (TypeIndex.ofList rs) texts).flatMap edges).map fun e =>
          (e.source, e.target)).Nodup ∧
        ∀ g ∈ buildAll (TypeIndex.ofList rs) texts, ∀ e ∈ g.edges,
          (∃ t ∈ (TypeIndex.ofList rs).records, t.identifier = e.target) ∧
          ∀ t ∈ (TypeIndex.ofList rs).records, t.identifier = e.target → t.scope = g.scope) := by
  have h := TypeIndex.aligned_ofList rs
  refine ⟨build_wellFormed _ texts, fun hname => ?_⟩
  have hnames : ∀ r ∈ (TypeIndex.ofList rs).records, '.' ∉ r.name.toList :=
    TypeIndex.forall_records_ofList (fun _ _ ha _ => ha) hname
  refine ⟨nodes_identifier_nodup h hnames texts, buildAll_ends_nodup h hnames texts, ?_⟩
  intro g hg e he
  obtain ⟨scope, -, rfl⟩ := List.mem_map.mp hg
  obtain ⟨t, ht, hid, hscope⟩ := target_scope h hnames texts he
  refine ⟨⟨t, ht, hid⟩, fun t' ht' hid' => ?_⟩
  rw [h.eq_of_identifier_eq hnames ht' ht (hid'.trans hid.symm)]
  exact hscope

/-- A type that names a base in two namespaces has one edge to each of the two types, in
the graphs of their namespaces. -/
theorem graphs_wellFormed_two_bases :
    let client := ((TypeRecord.new "Client" .classType "App" "A.cs").withBases
      ["Base"]).withImports ["using Pkg;", "using Lib;"]
    let rs := [client, .new "Base" .classType "Pkg" "B.cs", .new "Base" .interfaceType "Lib" "C.cs"]
    (∀ r ∈ rs, '.' ∉ r.name.toList) ∧
      (buildAll (TypeIndex.ofList rs) (.ofList [])).map (fun g => (g.scope, g.edges)) =
        [("App", []), ("Lib", [⟨"App.Client", "Lib.Base", .implement⟩]),
          ("Pkg", [⟨"App.Client", "Pkg.Base", .inherit⟩])] ∧
      (((buildAll (TypeIndex.ofList rs) (.ofList [])).flatMap edges).map fun e =>
        (e.source, e.target)).Nodup := by
  intro client rs
  have hname : ∀ r ∈ rs, '.' ∉ r.name.toList := by decide
  exact ⟨hname, by decide, ((graphs_wellFormed rs (.ofList [])).2 hname).2.1⟩

end Graph
end TypeAtlas
