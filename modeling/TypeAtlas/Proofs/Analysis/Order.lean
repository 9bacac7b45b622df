import TypeAtlas.Proofs.Analysis.Parts
import Mathlib.Data.Finset.Dedup
import Mathlib.Data.List.Sort

/-! # The order of the declarations does not matter

Declarations that come in another order give other numbers, other first parts, other
orders of imports, bases and methods and other texts.  The graphs have the same rows
all the same.

The reason is that a graph asks little of a type.  `Alike` collects it: the key, the
kind, which imports, bases and methods there are, and which names the text mentions.
Types that are alike have the same dependencies (`Alike.dependency`), and an index
whose types all have an alike one in another index has no row that the graph of the
other index lacks (`edges_subset`, `nodes_subset`).  Two orders of the same
declarations give indices that are alike in both directions (`covered_of_perm`).
-/
namespace TypeAtlas

open Source (Declaration)

/-! ### What a graph asks of a type -/

/-- Two types with their texts, as far as graphs tell them apart. -/
structure Alike (r : TypeRecord) (text : Option String) (r' : TypeRecord)
    (text' : Option String) : Prop where
  key : r.key = r'.key
  kind : r.kind = r'.kind
  imports : ∀ i, i ∈ r.imports ↔ i ∈ r'.imports
  bases : ∀ b, b ∈ r.baseNames ↔ b ∈ r'.baseNames
  methods : ∀ m, m ∈ r.methods ↔ m ∈ r'.methods
  /-- The texts mention the same names; names have no line feed. -/
  mentions : ∀ name : String, '\n' ∉ name.toList →
    ((∃ s, text = some s ∧ Mentions s name) ↔ ∃ s, text' = some s ∧ Mentions s name)

namespace Alike
variable {d d' t t' : TypeRecord} {text text' ttext ttext' : Option String}

theorem name (h : Alike d text d' text') : d.name = d'.name :=
  congrArg Prod.snd h.key

theorem scope (h : Alike d text d' text') : d.scope = d'.scope :=
  congrArg Prod.fst h.key

theorem identifier (h : Alike d text d' text') : d.identifier = d'.identifier := by
  rw [TypeRecord.identifier, TypeRecord.identifier, h.scope, h.name]

theorem node (h : Alike d text d' text') : GraphNode.ofRecord d = .ofRecord d' := by
  rw [GraphNode.ofRecord, GraphNode.ofRecord, h.identifier, h.name, h.kind]

theorem importsScope (h : Alike d text d' text') {scope : String}
    (himp : TypeAtlas.importsScope d scope) : TypeAtlas.importsScope d' scope := by
  obtain ⟨i, hi, hm⟩ := importsScope_iff.mp himp
  exact importsScope_iff.mpr ⟨i, (h.imports i).mp hi, hm⟩

/-- A dependency between two types is one between types that are alike. -/
theorem dependency (hd : Alike d text d' text') (ht : Alike t ttext t' ttext')
    (hname : '\n' ∉ t.name.toList) {label : EdgeLabel} (h : Dependency d text t label) :
    Dependency d' text' t' label := by
  cases h with
  | base hbase =>
    rw [ht.kind]
    exact .base (ht.name ▸ (hd.bases t.name).mp hbase)
  | mention hbase htext huse =>
    refine .mention (fun hb => hbase ?_) ?_ ?_
    · exact (hd.bases t.name).mpr (ht.name ▸ hb)
    · exact ht.name ▸ (hd.mentions t.name hname).mp htext
    · rw [← hd.name, ← ht.name]
      exact huse.imp_right fun ⟨m, hm, hu⟩ => ⟨m, (hd.methods m).mp hm, hu⟩

end Alike

/-! ### Rows of alike indices -/

namespace Graph

/-- Every type of one index has an alike one in another. -/
def Covered (ix : TypeIndex) (texts : Texts) (ix' : TypeIndex) (texts' : Texts) : Prop :=
  ∀ r ∈ ix.records, ∃ r' ∈ ix'.records, Alike r (texts r) r' (texts' r')

section
variable {ix ix' : TypeIndex} {texts texts' : Texts} {scope : String}
variable (h : ix.Aligned) (h' : ix'.Aligned) (hcov : Covered ix texts ix' texts')
include h h' hcov

theorem Covered.group {t : TypeRecord} (ht : t ∈ ix.group scope) :
    ∃ t' ∈ ix'.group scope, Alike t (texts t) t' (texts' t') := by
  obtain ⟨hmem, hscope⟩ := h.mem_group_iff.mp ht
  obtain ⟨t', ht', halike⟩ := hcov t hmem
  exact ⟨t', h'.mem_group_iff.mpr ⟨ht', halike.scope ▸ hscope⟩, halike⟩

theorem Covered.foreigners {d : TypeRecord} (hd : d ∈ foreigners ix scope) :
    ∃ d' ∈ Graph.foreigners ix' scope, Alike d (texts d) d' (texts' d') := by
  obtain ⟨hmem, hscope⟩ := (mem_foreigners_iff h).mp hd
  obtain ⟨d', hd', halike⟩ := hcov d hmem
  exact ⟨d', (mem_foreigners_iff h').mpr ⟨hd', halike.scope ▸ hscope⟩, halike⟩

variable (hflag : ∀ r ∈ ix.records, r.FlagAgrees) (hflag' : ∀ r ∈ ix'.records, r.FlagAgrees)
variable (hname : ∀ r ∈ ix.records, '\n' ∉ r.name.toList)
include hflag hflag' hname

/-- What one graph shows, the other one shows between alike types. -/
theorem Covered.shows {d t d' : TypeRecord} {label : EdgeLabel}
    (hs : Shows ix texts scope d t label)
    (hd' : d' ∈ ix'.records) (hd : Alike d (texts d) d' (texts' d')) :
    ∃ t', Shows ix' texts' scope d' t' label ∧ t.identifier = t'.identifier := by
  obtain ⟨hdm, htm⟩ := hs.mem_records h
  obtain ⟨ht, hcmp, hid, hlabel⟩ := hs
  obtain ⟨t', ht', htalike⟩ := hcov.group h h' ht
  refine ⟨t', ⟨ht', ?_, ?_, ?_⟩, htalike.identifier⟩
  · rcases hcmp with ⟨hdg, hne⟩ | ⟨hdf, himp⟩
    · have hscope : d.scope = scope := (h.mem_group_iff.mp hdg).2
      refine Or.inl ⟨h'.mem_group_iff.mpr ⟨hd', hd.scope ▸ hscope⟩, ?_⟩
      rwa [← htalike.name, ← hd.name]
    · have hscope : d.scope ≠ scope := ((mem_foreigners_iff h).mp hdf).2
      exact Or.inr ⟨(mem_foreigners_iff h').mpr ⟨hd', hd.scope ▸ hscope⟩, hd.importsScope himp⟩
  · rwa [← hd.identifier, ← htalike.identifier]
  · have hdep := (classify_eq_some_iff (hflag d hdm)).mp hlabel
    exact (classify_eq_some_iff (hflag' d' hd')).mpr
      (hd.dependency htalike (hname t htm) hdep)

theorem edges_subset {e : GraphEdge} (he : e ∈ (build ix texts scope).edges) :
    e ∈ (build ix' texts' scope).edges := by
  obtain ⟨d, t, hs, hsource, htarget⟩ := mem_build_edges_iff.mp he
  obtain ⟨d', hd', halike⟩ := hcov d (hs.mem_records h).1
  obtain ⟨t', hs', hid⟩ := hcov.shows h h' hflag hflag' hname hs hd' halike
  exact mem_build_edges_iff.mpr
    ⟨d', t', hs', halike.identifier ▸ hsource, hid ▸ htarget⟩

theorem nodes_subset {n : GraphNode} (hn : n ∈ (build ix texts scope).nodes) :
    n ∈ (build ix' texts' scope).nodes := by
  rcases mem_build_nodes_iff.mp hn with ⟨t, ht, rfl⟩ | ⟨d, hd, rfl, t, label, hs⟩
  · obtain ⟨t', ht', halike⟩ := hcov.group h h' ht
    exact mem_build_nodes_iff.mpr (Or.inl ⟨t', ht', halike.node⟩)
  · obtain ⟨d', hd', halike⟩ := hcov.foreigners h h' hd
    have hdm' : d' ∈ ix'.records := ((mem_foreigners_iff h').mp hd').1
    obtain ⟨t', hs', -⟩ := hcov.shows h h' hflag hflag' hname hs hdm' halike
    exact mem_build_nodes_iff.mpr (Or.inr ⟨d', hd', halike.node, t', label, hs'⟩)

end

end Graph

/-! ### Another order of the declarations -/

namespace Collection

/-- The graphs of a run, with the merged texts found by key. -/
def graphs (c : Collection) : List Graph :=
  Graph.buildAll c.index c.textOf

section
variable {ds ds' : List Declaration} (hperm : ds.Perm ds')
include hperm

theorem scopes_eq_of_perm : (ofList ds).index.scopes = (ofList ds').index.scopes := by
  have hrising := (aligned ds).scopes_rising
  have hrising' := (aligned ds').scopes_rising
  have hset : (ofList ds).index.scopes.Perm (ofList ds').index.scopes := by
    refine (List.perm_ext_iff_of_nodup (hrising.imp fun hlt => ne_of_lt hlt)
      (hrising'.imp fun hlt => ne_of_lt hlt)).mpr fun s => ?_
    rw [mem_scopes, mem_scopes]
    simp only [hperm.mem_iff]
  exact hset.eq_of_pairwise' (hrising.imp fun hlt => le_of_lt hlt)
    (hrising'.imp fun hlt => le_of_lt hlt)

variable (hkind : ∀ d ∈ ds, ∀ e ∈ ds, d.key = e.key → d.record.kind = e.record.kind)
include hkind

/-- A type of the one run has an alike one in the other. -/
theorem covered_of_perm :
    Graph.Covered (ofList ds).index (ofList ds).textOf (ofList ds').index (ofList ds').textOf := by
  intro r hr
  obtain ⟨d, hd, hdkey⟩ := key_mem_of_mem_records hr
  obtain ⟨r', hr', hkey⟩ := exists_record_of_mem (hperm.mem_iff.mp hd)
  have hkeys : r.key = r'.key := hdkey.symm.trans hkey.symm
  refine ⟨r', hr', hkeys, ?_, ?_, ?_, ?_, ?_⟩
  · obtain ⟨p, hp, hpk⟩ := eq_head_of_absorbed (f := TypeRecord.kind) (fun _ _ => rfl)
      (absorbed_of_mem_records hr)
    obtain ⟨q, hq, hqk⟩ := eq_head_of_absorbed (f := TypeRecord.kind) (fun _ _ => rfl)
      (absorbed_of_mem_records hr')
    obtain ⟨e, he, rfl⟩ := List.mem_map.mp hp
    obtain ⟨e', he', rfl⟩ := List.mem_map.mp hq
    obtain ⟨hem, hek⟩ := mem_parts.mp he
    obtain ⟨hem', hek'⟩ := mem_parts.mp he'
    rw [hpk, hqk]
    exact hkind e hem e' (hperm.mem_iff.mpr hem') (hek.trans (hkeys.trans hek'.symm))
  · intro i
    rw [mem_record_iff (fun _ _ _ => TypeRecord.mem_imports_absorb) hr,
      mem_record_iff (fun _ _ _ => TypeRecord.mem_imports_absorb) hr', hkeys]
    simp only [hperm.mem_iff]
  · intro b
    rw [mem_record_iff (fun _ _ _ => TypeRecord.mem_baseNames_absorb) hr,
      mem_record_iff (fun _ _ _ => TypeRecord.mem_baseNames_absorb) hr', hkeys]
    simp only [hperm.mem_iff]
  · intro m
    rw [mem_record_iff (fun _ _ _ => TypeRecord.mem_methods_absorb) hr,
      mem_record_iff (fun _ _ _ => TypeRecord.mem_methods_absorb) hr', hkeys]
    simp only [hperm.mem_iff]
  · intro name hname
    rw [mentions_textOf_iff hr hname, mentions_textOf_iff hr' hname, hkeys]
    simp only [hperm.mem_iff]

end

/-- **Graphs do not depend on the order of the declarations.**  Where the parts of a type are
of one kind, flags agree with base lists and names have no line feed, any two orders of the
same declarations give graphs of the same namespaces in the same order, and the graphs of a
namespace have the same nodes and the same edges. -/
theorem graphs_eq_of_perm (ds ds' : List Declaration) (hperm : ds.Perm ds')
    (hkind : ∀ d ∈ ds, ∀ e ∈ ds, d.key = e.key → d.record.kind = e.record.kind)
    (hflag : ∀ d ∈ ds, d.record.FlagAgrees) (hname : ∀ d ∈ ds, '\n' ∉ d.record.name.toList) :
    (ofList ds).graphs.map Graph.scope = (ofList ds').graphs.map Graph.scope ∧
      List.Forall₂ (fun g g' => g.scope = g'.scope ∧ g.nodes.toFinset = g'.nodes.toFinset ∧
        g.edges.toFinset = g'.edges.toFinset) (ofList ds).graphs (ofList ds').graphs := by
  have hscopes := scopes_eq_of_perm hperm
  have hkind' : ∀ d ∈ ds', ∀ e ∈ ds', d.key = e.key → d.record.kind = e.record.kind :=
    fun d hd e he => hkind d (hperm.mem_iff.mpr hd) e (hperm.mem_iff.mpr he)
  have hcov := covered_of_perm hperm hkind
  have hcov' := covered_of_perm hperm.symm hkind'
  have hflags : ∀ r ∈ (ofList ds).index.records, r.FlagAgrees :=
    forall_records (fun _ b ha _ => ha.absorb b) hflag
  have hflags' : ∀ r ∈ (ofList ds').index.records, r.FlagAgrees :=
    forall_records (fun _ b ha _ => ha.absorb b) fun d hd => hflag d (hperm.mem_iff.mpr hd)
  have hnames : ∀ r ∈ (ofList ds).index.records, '\n' ∉ r.name.toList :=
    forall_records (fun _ _ ha _ => ha) hname
  have hnames' : ∀ r ∈ (ofList ds').index.records, '\n' ∉ r.name.toList :=
    forall_records (fun _ _ ha _ => ha) fun d hd => hname d (hperm.mem_iff.mpr hd)
  constructor
  · simp only [graphs, Graph.buildAll, List.map_map]
    exact hscopes ▸ rfl
  · rw [graphs, graphs, Graph.buildAll, Graph.buildAll, ← hscopes, List.forall₂_map_left_iff,
      List.forall₂_map_right_iff, List.forall₂_same]
    refine fun s _ => ⟨rfl, ?_, ?_⟩
    · refine Finset.ext fun n => ?_
      rw [List.mem_toFinset, List.mem_toFinset]
      exact ⟨Graph.nodes_subset (aligned ds) (aligned ds') hcov hflags hflags' hnames,
        Graph.nodes_subset (aligned ds') (aligned ds) hcov' hflags' hflags hnames'⟩
    · refine Finset.ext fun e => ?_
      rw [List.mem_toFinset, List.mem_toFinset]
      exact ⟨Graph.edges_subset (aligned ds) (aligned ds') hcov hflags hflags' hnames,
        Graph.edges_subset (aligned ds') (aligned ds) hcov' hflags' hflags hnames'⟩

/-- A type in two parts, of which either may come first: the graphs are written in another
order and have the same rows. -/
theorem graphs_eq_of_perm_two_parts :
    let first : Declaration :=
      ⟨(TypeRecord.new "Client" .classType "App" "A.cs").withBases ["Base"],
        "partial class Client : Base { }"⟩
    let second : Declaration := ⟨.new "Client" .classType "App" "B.cs",
      "partial class Client { Helper h; }"⟩
    let base : Declaration := ⟨.new "Base" .classType "App" "C.cs", "class Base { Helper h; }"⟩
    let helper : Declaration := ⟨.new "Helper" .classType "App" "D.cs", "class Helper { }"⟩
    let ds := [first, base, helper, second]
    let ds' := [second, helper, first, base]
    ds.Perm ds' ∧ (∀ d ∈ ds, ∀ e ∈ ds, d.key = e.key → d.record.kind = e.record.kind) ∧
      (∀ d ∈ ds, d.record.FlagAgrees) ∧ (∀ d ∈ ds, '\n' ∉ d.record.name.toList) ∧
      (ofList ds).graphs ≠ (ofList ds').graphs ∧
      List.Forall₂ (fun g g' => g.scope = g'.scope ∧ g.nodes.toFinset = g'.nodes.toFinset ∧
        g.edges.toFinset = g'.edges.toFinset) (ofList ds).graphs (ofList ds').graphs := by
  intro first second base helper ds ds'
  have hperm : ds.Perm ds' := by decide
  have hkind : ∀ d ∈ ds, ∀ e ∈ ds, d.key = e.key → d.record.kind = e.record.kind := by decide
  have hflag : ∀ d ∈ ds, d.record.FlagAgrees := by decide
  have hname : ∀ d ∈ ds, '\n' ∉ d.record.name.toList := by decide
  exact ⟨hperm, hkind, hflag, hname, by decide +kernel,
    (graphs_eq_of_perm ds ds' hperm hkind hflag hname).2⟩

end Collection
end TypeAtlas
