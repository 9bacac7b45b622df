import TypeAtlas.Proofs.Analysis.Parts
import TypeAtlas.Proofs.Artifact.Places

/-! # Graphs from written declarations

An analysis writes the declaration of every type into a directory of its own and infers
the graphs from what it reads back.  The same graphs come from a table in memory that
leads from the identifier of a type to its declaration (`graphsOf_persisted`).

Two things are needed.  What is read for a type is what was written for it: no later step
writes to the same place, since places tell types apart, and whatever stood there before
was replaced (`declaration?_of_runAll`).  And what is found in the table for a type is its
own entry, since identifiers tell types apart as well (`Texts.ofList_of_mem`).  Then the
two sources agree on all types of the index, and a graph asks for no others
(`Graph.buildAll_congr`).
-/
namespace TypeAtlas

open Source (Declaration)

/-! ### A graph asks for the texts of its types only -/

namespace Graph

theorem build_congr {ix : TypeIndex} (h : ix.Aligned) {texts texts' : Texts}
    (he : ∀ r ∈ ix.records, texts r = texts' r) (scope : String) :
    build ix texts scope = build ix texts' scope := by
  have hinner : (ix.group scope).flatMap (innerRows texts (ix.group scope)) =
      (ix.group scope).flatMap (innerRows texts' (ix.group scope)) := by
    refine List.flatMap_congr fun d hd => ?_
    rw [innerRows, innerRows, he d (h.mem_group_iff.mp hd).1]
  have houter : (foreigners ix scope).flatMap (outerRows texts scope (ix.group scope)) =
      (foreigners ix scope).flatMap (outerRows texts' scope (ix.group scope)) := by
    refine List.flatMap_congr fun d hd => ?_
    rw [outerRows, outerRows, he d ((mem_foreigners_iff h).mp hd).1]
  have hrows : (build ix texts scope).rows = (build ix texts' scope).rows := by
    rw [build_rows, build_rows, kept, kept, hinner, houter]
  exact congrArg (Graph.mk scope) hrows

/-- Sources of texts that agree on the types of an index give the same graphs. -/
theorem buildAll_congr {ix : TypeIndex} (h : ix.Aligned) {texts texts' : Texts}
    (he : ∀ r ∈ ix.records, texts r = texts' r) : buildAll ix texts = buildAll ix texts' :=
  List.map_congr_left fun scope _ => build_congr h he scope

end Graph

/-! ### A table by identifier -/

/-- What a table without repetitions has for an identifier is found. -/
theorem Texts.ofList_of_mem {texts : List (String × String)} (hnodup : (texts.map Prod.fst).Nodup)
    {r : TypeRecord} {s : String} (hmem : (r.identifier, s) ∈ texts) :
    Texts.ofList texts r = some s := by
  have hfind : ∃ e, texts.reverse.find? (fun t => decide (t.1 = r.identifier)) = some e := by
    refine Option.isSome_iff_exists.mp (List.find?_isSome.mpr ?_)
    exact ⟨_, List.mem_reverse.mpr hmem, decide_eq_true rfl⟩
  obtain ⟨e, he⟩ := hfind
  have hid : e.1 = r.identifier := by simpa using List.find?_some he
  have hin : e ∈ texts := List.mem_reverse.mp (List.mem_of_find?_eq_some he)
  have heq : e = (r.identifier, s) := List.inj_on_of_nodup_map hnodup hin hmem hid
  rw [Texts.ofList, he, heq]
  rfl

namespace Collection
variable {ds : List Declaration}

/-- The table in memory: the merged declaration texts by identifier. -/
def table (c : Collection) : List (String × String) :=
  (c.index.records.map TypeRecord.identifier).zip c.texts

theorem table_of_mem_zip {r : TypeRecord} {s : String}
    (hname : ∀ r ∈ (ofList ds).index.records, '.' ∉ r.name.toList)
    (h : (r, s) ∈ (ofList ds).index.records.zip (ofList ds).texts) :
    Texts.ofList (ofList ds).table r = some s := by
  have hlength : ((ofList ds).index.records.map TypeRecord.identifier).length =
      (ofList ds).texts.length := by
    rw [List.length_map, texts_length]
    rfl
  have hnodup : ((ofList ds).table.map Prod.fst).Nodup := by
    rw [table, List.map_fst_zip hlength.le]
    exact (List.Nodup.of_map _ (aligned ds).keys_nodup).map_on fun a ha b hb he =>
      (aligned ds).eq_of_identifier_eq hname ha hb he
  refine Texts.ofList_of_mem hnodup ?_
  rw [table, List.zip_map_left]
  exact List.mem_map.mpr ⟨(r, s), h, rfl⟩

/-- The record and the text in one place stand side by side. -/
theorem mem_zip_of_getElem? {r : TypeRecord} {id : Nat}
    (hr : (ofList ds).index.records[id]? = some r) :
    ∃ s, (ofList ds).texts[id]? = some s ∧
      (r, s) ∈ (ofList ds).index.records.zip (ofList ds).texts := by
  obtain ⟨-, htext⟩ := getElem?_records_texts (getElem?_keysOf hr)
  exact ⟨_, htext, List.mem_of_getElem? (List.getElem?_zip_eq_some.mpr ⟨hr, htext⟩)⟩

end Collection

/-! ### What is read back -/

namespace Layout

/-- No step for one type writes the declaration of another. -/
theorem typeSteps_spare (l : Layout) {r q : TypeRecord} (hr : r.IsPlaceable) (hq : q.IsPlaceable)
    (hne : r.key ≠ q.key) (text : String) :
    ∀ s ∈ l.typeSteps q text, s.Spares (l.declarationPath r) := by
  intro s hs
  simp only [typeSteps, List.mem_cons, List.not_mem_nil, or_false] at hs
  rcases hs with rfl | rfl | rfl
  · exact trivial
  · exact l.typeFile_leadApart hr hq isName_declarationName isName_metadataName (Or.inl hne)
  · exact l.typeFile_leadApart hr hq isName_declarationName isName_declarationName (Or.inl hne)

/-- **What was written for a type is read for it**, in a tree that may have held anything before,
once all types of an index have been written. -/
theorem declaration?_of_runAll (l : Layout) {ix : TypeIndex} (h : ix.Aligned)
    (hplace : ∀ r ∈ ix.records, r.IsPlaceable) {texts : List String}
    (hlength : ix.records.length ≤ texts.length) {t t' : FileTree}
    (hrun : WriteStep.runAll t (l.indexSteps ix texts) = (t', none)) {r : TypeRecord} {s : String}
    (hmem : (r, s) ∈ ix.records.zip texts) : l.declaration? t' r = some s := by
  have hr : r.IsPlaceable := hplace r (List.of_mem_zip hmem).1
  obtain ⟨before, after, hsplit⟩ := List.append_of_mem hmem
  -- the types that are written later have other keys
  have hlater : ∀ q ∈ after, q.1 ∈ ix.records ∧ r.key ≠ q.1.key := by
    intro q hq
    have hzip : q ∈ ix.records.zip texts := by
      rw [hsplit]
      exact List.mem_append_right _ (List.mem_cons_of_mem _ hq)
    refine ⟨(List.of_mem_zip hzip).1, ?_⟩
    have hkeys : ((ix.records.zip texts).map fun p => p.1.key).Nodup := by
      have hnodup := h.keys_nodup
      rw [TypeIndex.keys, ← List.map_fst_zip hlength, List.map_map] at hnodup
      exact hnodup
    rw [hsplit, List.map_append, List.map_cons] at hkeys
    have hcons := (List.nodup_cons.mp (List.nodup_append.mp hkeys).2.1).1
    exact fun he => hcons (List.mem_map.mpr ⟨q, hq, he.symm⟩)
  have hspare : ∀ w ∈ after.flatMap fun p => l.typeSteps p.1 p.2,
      w.Spares (l.declarationPath r) := by
    intro w hw
    obtain ⟨q, hq, hw⟩ := List.mem_flatMap.mp hw
    obtain ⟨hqm, hne⟩ := hlater q hq
    exact l.typeSteps_spare hr (hplace q.1 hqm) hne q.2 w hw
  have hsteps : l.indexSteps ix texts =
      (before.flatMap (fun p => l.typeSteps p.1 p.2) ++
        [.makeDirs (l.typeDir r), .writeFile (l.metadataPath r) r.render]) ++
      .writeFile (l.declarationPath r) s :: after.flatMap fun p => l.typeSteps p.1 p.2 := by
    rw [indexSteps, hsplit, List.flatMap_append, List.flatMap_cons, List.append_assoc]
    rfl
  rw [hsteps] at hrun
  have hfile := WriteStep.hasFile_of_runAll hspare hrun
  rw [declaration?, hfile.readText (Path.endsInSlash_join _ isName_declarationName)]
  rfl

end Layout

/-! ### The two sources agree -/

namespace Collection

/-- **Graphs from written declarations are graphs from memory.**  Whatever the root and the tree
hold, once all types of a run have been written without a failure, each type reads its own
merged declaration, and the graphs inferred from what is read are those of the table from
identifiers to declarations. -/
theorem graphsOf_persisted (ds : List Declaration) (hscope : ∀ d ∈ ds, IsDotted d.record.scope)
    (hname : ∀ d ∈ ds, IsTypeName d.record.name) (l : Layout) (t t' : FileTree)
    (hrun : WriteStep.runAll t (l.indexSteps (ofList ds).index (ofList ds).texts) = (t', none)) :
    (∀ (id : Nat) (r : TypeRecord), (ofList ds).index.records[id]? = some r →
        l.declaration? t' r = (ofList ds).texts[id]?) ∧
      graphsOf t' l (ofList ds).index =
        Graph.buildAll (ofList ds).index (Texts.ofList (ofList ds).table) := by
  have hplace : ∀ r ∈ (ofList ds).index.records, r.IsPlaceable :=
    forall_records (fun _ _ ha _ => ⟨ha.scope, ha.name⟩) fun d hd => ⟨hscope d hd, hname d hd⟩
  have hread : ∀ r s, (r, s) ∈ (ofList ds).index.records.zip (ofList ds).texts →
      l.declaration? t' r = some s := fun r s hmem =>
    l.declaration?_of_runAll (aligned ds) hplace (texts_length ds).ge hrun hmem
  constructor
  · intro id r hr
    obtain ⟨s, hs, hmem⟩ := mem_zip_of_getElem? hr
    rw [hread r s hmem, hs]
  · refine Graph.buildAll_congr (aligned ds) fun r hr => ?_
    obtain ⟨id, hid⟩ := List.mem_iff_getElem?.mp hr
    obtain ⟨s, -, hmem⟩ := mem_zip_of_getElem? hid
    rw [table_of_mem_zip (fun q hq => (hplace q hq).name.no_dot) hmem]
    exact hread r s hmem

/-- A type in two parts and a type of another namespace, for which an earlier run left a
declaration that mentions the first one: it is replaced. -/
theorem graphsOf_persisted_stale :
    let first : Declaration := ⟨.new "C" .classType "" "", "class C { }"⟩
    let second : Declaration :=
      ⟨(TypeRecord.new "C" .classType "" "").withImports ["using A;"], "class C { T t; }"⟩
    let tool : Declaration :=
      ⟨(TypeRecord.new "T" .classType "A" "").withImports ["C"], "class T { }"⟩
    let ds := [first, tool, second]
    let l : Layout := ⟨"out"⟩
    let t : FileTree := ⟨[(["out"], .directory), (["out", "A"], .directory),
      (["out", "A", "T"], .directory),
      (["out", "A", "T", "syntaxtree.txt"], .file "class T { C c; }".toUTF8)], []⟩
    let written := WriteStep.runAll t (l.indexSteps (ofList ds).index (ofList ds).texts)
    (∀ d ∈ ds, IsDotted d.record.scope) ∧ (∀ d ∈ ds, IsTypeName d.record.name) ∧
      written.2 = none ∧
      (graphsOf written.1 l (ofList ds).index).flatMap Graph.edges =
        [⟨".C", "A.T", .reference⟩] := by
  intro first second tool ds l t written
  have hscope : ∀ d ∈ ds, IsDotted d.record.scope := by decide +kernel
  have hname : ∀ d ∈ ds, IsTypeName d.record.name := by decide +kernel
  have hok : written.2 = none := by decide +kernel
  refine ⟨hscope, hname, hok, ?_⟩
  rw [(graphsOf_persisted ds hscope hname l t written.1 (WriteStep.runAll_eq_of_snd hok)).2]
  decide +kernel

end Collection
end TypeAtlas
