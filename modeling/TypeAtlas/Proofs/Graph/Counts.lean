import TypeAtlas.Proofs.Graph.WellFormed
import Mathlib.Data.Set.Card

/-! # How many nodes and edges there are

The graphs of all namespaces together have one edge for each ordered pair of types between
which one is inferred (`Graph.sum_edges_eq_ncard`).  They have one node for each type, in the
graph of its namespace, and one more for each namespace of another that it has an edge into
(`Graph.sum_nodes_eq_ncard`).

Both are counts of lists without repetitions, so that it is enough to say what their entries
stand for (`length_eq_ncard`).  Entries are told apart by identifiers, which belong to one
record each as long as names have no dot.
-/
namespace TypeAtlas

/-- A list without repetitions has as many entries as there are things that they stand for. -/
theorem length_eq_ncard {α β : Type} [DecidableEq β] {xs : List β} (hxs : xs.Nodup) {s : Set α}
    {f : α → β} (hf : Set.InjOn f s) (hmem : ∀ b, b ∈ xs ↔ ∃ a ∈ s, f a = b) :
    xs.length = s.ncard := by
  have himage : f '' s = (xs.toFinset : Set β) := by
    ext b
    rw [Finset.mem_coe, List.mem_toFinset, hmem]
    rfl
  rw [← List.toFinset_card_of_nodup hxs, ← Set.ncard_coe_finset, ← himage,
    hf.ncard_image]

namespace Graph

/-- An edge is inferred from one type to another one: the first one is of the same namespace or
imports it, and depends on the other one by its bases or by its declaration text. -/
structure Infers (texts : Texts) (d t : TypeRecord) : Prop where
  ne : d ≠ t
  reaches : d.scope = t.scope ∨ ∃ i ∈ d.imports, Mentions i t.scope
  dependsOn : DependsOn d (texts d) t

/-- An edge is inferred from a type to one of a namespace. -/
def InfersInto (ix : TypeIndex) (texts : Texts) (d : TypeRecord) (scope : String) : Prop :=
  ∃ t ∈ ix.records, t.scope = scope ∧ Infers texts d t

section
variable {ix : TypeIndex} (h : ix.Aligned) (hname : ∀ r ∈ ix.records, '.' ∉ r.name.toList)
  (hflag : ∀ r ∈ ix.records, r.FlagAgrees) (texts : Texts)
include h hname hflag

/-- The graph of a namespace shows the edges that are inferred to its types. -/
theorem exists_shows_iff {scope : String} {d t : TypeRecord} :
    (∃ label, Shows ix texts scope d t label) ↔
      d ∈ ix.records ∧ t ∈ ix.records ∧ t.scope = scope ∧ Infers texts d t := by
  constructor
  · rintro ⟨label, hshows⟩
    obtain ⟨hd, ht, hne, rfl, hreach, hlabel⟩ := (shows_iff h hname).mp hshows
    refine ⟨hd, ht, rfl, hne, hreach.imp_right importsScope_iff.mp, ?_⟩
    exact (isSome_classify_iff (hflag d hd)).mp (Option.isSome_iff_exists.mpr ⟨label, hlabel⟩)
  · rintro ⟨hd, ht, rfl, hne, hreach, hdep⟩
    obtain ⟨label, hlabel⟩ :=
      Option.isSome_iff_exists.mp ((isSome_classify_iff (hflag d hd)).mpr hdep)
    exact ⟨label, (shows_iff h hname).mpr
      ⟨hd, ht, hne, rfl, hreach.imp_right importsScope_iff.mpr, hlabel⟩⟩

/-! ### Edges -/

theorem mem_buildAll_ends_iff {ends : String × String} :
    ends ∈ ((buildAll ix texts).flatMap edges).map (fun e => (e.source, e.target)) ↔
      ∃ d ∈ ix.records, ∃ t ∈ ix.records, Infers texts d t ∧
        (d.identifier, t.identifier) = ends := by
  rw [buildAll, List.flatMap_map, List.map_flatMap, List.mem_flatMap]
  constructor
  · rintro ⟨scope, -, hends⟩
    obtain ⟨e, he, rfl⟩ := List.mem_map.mp hends
    obtain ⟨d, t, hshows, hsource, htarget⟩ := mem_build_edges_iff.mp he
    obtain ⟨hd, ht, -, hinfers⟩ := (exists_shows_iff h hname hflag texts).mp ⟨_, hshows⟩
    exact ⟨d, hd, t, ht, hinfers, Prod.ext hsource htarget⟩
  · rintro ⟨d, hd, t, ht, hinfers, rfl⟩
    obtain ⟨label, hshows⟩ :=
      (exists_shows_iff h hname hflag texts).mpr ⟨hd, ht, rfl, hinfers⟩
    refine ⟨t.scope, h.mem_scopes.mpr ⟨t, ht, rfl⟩, List.mem_map.mpr ?_⟩
    exact ⟨⟨d.identifier, t.identifier, label⟩,
      mem_build_edges_iff.mpr ⟨d, t, hshows, rfl, rfl⟩, rfl⟩

/-- **There are as many edges as pairs of types between which one is inferred.** -/
theorem sum_edges_eq_ncard : ((buildAll ix texts).map fun g => g.edges.length).sum =
    {p : TypeRecord × TypeRecord |
      p.1 ∈ ix.records ∧ p.2 ∈ ix.records ∧ Infers texts p.1 p.2}.ncard := by
  rw [← List.length_flatMap, ← List.length_map fun e : GraphEdge => (e.source, e.target)]
  refine length_eq_ncard (f := fun p => (p.1.identifier, p.2.identifier))
    (buildAll_ends_nodup h hname texts) ?_ ?_
  · rintro ⟨d, t⟩ ⟨hd, ht, -⟩ ⟨d', t'⟩ ⟨hd', ht', -⟩ he
    obtain ⟨hsource, htarget⟩ := Prod.mk.inj he
    exact Prod.ext (h.eq_of_identifier_eq hname hd hd' hsource)
      (h.eq_of_identifier_eq hname ht ht' htarget)
  · intro ends
    rw [mem_buildAll_ends_iff h hname hflag texts]
    constructor
    · rintro ⟨d, hd, t, ht, hinfers, he⟩
      exact ⟨(d, t), ⟨hd, ht, hinfers⟩, he⟩
    · rintro ⟨⟨d, t⟩, ⟨hd, ht, hinfers⟩, he⟩
      exact ⟨d, hd, t, ht, hinfers, he⟩

/-! ### Nodes -/

/-- A graph has the types of its namespace as nodes and the types of others that have an edge
into it. -/
theorem mem_build_identifiers_iff {scope id : String} :
    id ∈ (build ix texts scope).nodes.map GraphNode.identifier ↔
      ∃ d ∈ ix.records, (d.scope = scope ∨ d.scope ≠ scope ∧ InfersInto ix texts d scope) ∧
        d.identifier = id := by
  rw [List.mem_map]
  constructor
  · rintro ⟨n, hn, rfl⟩
    rcases mem_build_nodes_iff.mp hn with ⟨d, hd, rfl⟩ | ⟨d, hd, rfl, t, label, hshows⟩
    · obtain ⟨hd, hscope⟩ := h.mem_group_iff.mp hd
      exact ⟨d, hd, Or.inl hscope, rfl⟩
    · obtain ⟨hd, hne⟩ := (mem_foreigners_iff h).mp hd
      obtain ⟨-, ht, hscope, hinfers⟩ :=
        (exists_shows_iff h hname hflag texts).mp ⟨label, hshows⟩
      exact ⟨d, hd, Or.inr ⟨hne, t, ht, hscope, hinfers⟩, rfl⟩
  · rintro ⟨d, hd, hscope | ⟨hne, t, ht, hscope, hinfers⟩, rfl⟩
    · exact ⟨.ofRecord d,
        mem_build_nodes_iff.mpr (Or.inl ⟨d, h.mem_group_iff.mpr ⟨hd, hscope⟩, rfl⟩), rfl⟩
    · obtain ⟨label, hshows⟩ :=
        (exists_shows_iff h hname hflag texts).mpr ⟨hd, ht, hscope, hinfers⟩
      exact ⟨.ofRecord d, mem_build_nodes_iff.mpr
        (Or.inr ⟨d, (mem_foreigners_iff h).mpr ⟨hd, hne⟩, rfl, t, label, hshows⟩), rfl⟩

/-- The nodes of all graphs stand for the types, each in its namespace and in those that it has an
edge into. -/
theorem sum_nodes_eq_ncard_union : ((buildAll ix texts).map fun g => g.nodes.length).sum =
    ({p : TypeRecord × String | p.1 ∈ ix.records ∧ p.1.scope = p.2} ∪
      {p | p.1 ∈ ix.records ∧ p.1.scope ≠ p.2 ∧ InfersInto ix texts p.1 p.2}).ncard := by
  have hlength : ((buildAll ix texts).map fun g => g.nodes.length).sum =
      (ix.scopes.flatMap fun scope =>
        (build ix texts scope).nodes.map fun n => (scope, n.identifier)).length := by
    simp [buildAll, List.length_flatMap, Function.comp_def]
  rw [hlength]
  refine length_eq_ncard (f := fun p => (p.2, p.1.identifier)) ?_ ?_ ?_
  · refine List.nodup_flatMap.mpr ⟨fun scope _ => ?_, h.scopes_rising.imp fun hlt => ?_⟩
    · have hnodup := (nodes_identifier_nodup h hname texts scope).map
        (f := fun id => (scope, id)) fun a b he => (Prod.mk.inj he).2
      rwa [List.map_map] at hnodup
    · intro p hp hp'
      obtain ⟨n, -, rfl⟩ := List.mem_map.mp hp
      obtain ⟨m, -, he⟩ := List.mem_map.mp hp'
      exact absurd (Prod.mk.inj he).1.symm (ne_of_lt hlt)
  · rintro ⟨d, scope⟩ hp ⟨d', scope'⟩ hp' he
    obtain ⟨hscope, hid⟩ := Prod.mk.inj he
    have hd : d ∈ ix.records := hp.elim And.left And.left
    have hd' : d' ∈ ix.records := hp'.elim And.left And.left
    exact Prod.ext (h.eq_of_identifier_eq hname hd hd' hid) hscope
  · rintro ⟨scope, id⟩
    rw [List.mem_flatMap]
    constructor
    · rintro ⟨scope', -, hp⟩
      obtain ⟨n, hn, he⟩ := List.mem_map.mp hp
      obtain ⟨rfl, rfl⟩ := Prod.mk.inj he
      obtain ⟨d, hd, hwhere, hid⟩ := (mem_build_identifiers_iff h hname hflag texts).mp
        (List.mem_map_of_mem hn)
      exact ⟨(d, scope'), hwhere.imp (⟨hd, ·⟩) (⟨hd, ·⟩), Prod.ext rfl hid⟩
    · rintro ⟨⟨d, scope'⟩, hp, he⟩
      obtain ⟨rfl, rfl⟩ := Prod.mk.inj he
      have hd : d ∈ ix.records := hp.elim And.left And.left
      have hmem : scope' ∈ ix.scopes := by
        rcases hp with ⟨-, hscope⟩ | ⟨-, -, t, ht, hscope, -⟩
        · exact h.mem_scopes.mpr ⟨d, hd, hscope⟩
        · exact h.mem_scopes.mpr ⟨t, ht, hscope⟩
      obtain ⟨n, hn, hid⟩ := List.mem_map.mp ((mem_build_identifiers_iff h hname hflag texts).mpr
        ⟨d, hd, hp.imp And.right And.right, rfl⟩)
      exact ⟨scope', hmem, List.mem_map.mpr ⟨n, hn, Prod.ext rfl hid⟩⟩

/-- **There are as many nodes as types and pairs of a type and another namespace that it has an
edge into.** -/
theorem sum_nodes_eq_ncard : ((buildAll ix texts).map fun g => g.nodes.length).sum =
    ix.size + {p : TypeRecord × String | p.1 ∈ ix.records ∧ p.1.scope ≠ p.2 ∧
      InfersInto ix texts p.1 p.2}.ncard := by
  have hown : ix.size = {p : TypeRecord × String | p.1 ∈ ix.records ∧ p.1.scope = p.2}.ncard := by
    refine length_eq_ncard (f := Prod.fst) (List.Nodup.of_map _ h.keys_nodup) ?_ ?_
    · rintro ⟨d, scope⟩ ⟨-, hscope⟩ ⟨d', scope'⟩ ⟨-, hscope'⟩ he
      obtain rfl : d = d' := he
      exact Prod.ext rfl (hscope.symm.trans hscope')
    · intro d
      exact ⟨fun hd => ⟨(d, d.scope), ⟨hd, rfl⟩, rfl⟩, fun ⟨_, ⟨hd, _⟩, he⟩ => he ▸ hd⟩
  -- all pairs are of a record and a namespace that occurs
  have hfinite := (ix.records.toFinset ×ˢ ix.scopes.toFinset).finite_toSet
  rw [sum_nodes_eq_ncard_union h hname hflag, hown]
  refine Set.ncard_union_eq ?_ (hfinite.subset ?_) (hfinite.subset ?_)
  · exact Set.disjoint_left.mpr fun p hp hp' => hp'.2.1 hp.2
  · rintro ⟨d, scope⟩ ⟨hd, hscope⟩
    simpa using ⟨hd, h.mem_scopes.mpr ⟨d, hd, hscope⟩⟩
  · rintro ⟨d, scope⟩ ⟨hd, -, t, ht, hscope, -⟩
    simpa using ⟨hd, h.mem_scopes.mpr ⟨t, ht, hscope⟩⟩

end
end Graph
end TypeAtlas
