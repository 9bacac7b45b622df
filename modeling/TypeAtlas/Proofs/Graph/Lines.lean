import TypeAtlas.Proofs.Graph.Emission
import TypeAtlas.Proofs.Text.Columns
import Mathlib.Data.List.Sort

/-! # The lines of a graph, written first and sorted out afterwards

The specification of a graph is an algorithm on lines: write the node line of every
type of the namespace; then for every ordered pair of different types with a
dependency the node line of the target and the edge line; then for every other
namespace in rising order, every type of it that imports the namespace and every
dependency the node line of that type and the edge line; at last strike out every
line that stands further up already.  `emittedLines` is the list before the last step,
a function of the records alone.

`Graph.build` does something else: it compares rows and not lines, passes over rows
while it goes, and leaves out a dependency of a type on one with its own identifier.
`build_lines_eq` says that the lines come out the same, for names without dots and
commas: without commas equal lines are equal rows, without dots two types never share
an identifier.
-/
namespace TypeAtlas
namespace Graph

/-! ### The specification -/

/-- The line of the node of a type. -/
def nodeLine (r : TypeRecord) : String :=
  (Row.node (.ofRecord r)).line

/-- The line of an edge between two types. -/
def edgeLine (dependent target : TypeRecord) (label : EdgeLabel) : String :=
  (Row.edge ⟨dependent.identifier, target.identifier, label⟩).line

/-- The lines of a dependency, or none. -/
def pairLines (node dependent target : TypeRecord) (text : Option String) : List String :=
  match classify dependent text target with
  | some label => [nodeLine node, edgeLine dependent target label]
  | none => []

/-- The records of a namespace. -/
def recordsIn (rs : List TypeRecord) (scope : String) : List TypeRecord :=
  rs.filter fun r => decide (r.scope = scope)

/-- The namespaces of a list of records, sorted. -/
def sortedScopes (rs : List TypeRecord) : List String :=
  (rs.map TypeRecord.scope).eraseDups.mergeSort fun s t => decide (s ≤ t)

/-- The lines of the pairs inside a namespace. -/
def innerLines (rs : List TypeRecord) (texts : Texts) (scope : String) : List String :=
  (recordsIn rs scope).flatMap fun dependent =>
    ((recordsIn rs scope).filter fun target => decide (target ≠ dependent)).flatMap fun target =>
      pairLines target dependent target (texts dependent)

/-- The lines of the pairs with a type of another namespace. -/
def outerLines (rs : List TypeRecord) (texts : Texts) (scope : String) : List String :=
  ((sortedScopes rs).filter fun s => decide (s ≠ scope)).flatMap fun s =>
    ((recordsIn rs s).filter fun foreign => importsScope foreign scope).flatMap fun foreign =>
      (recordsIn rs scope).flatMap fun target => pairLines foreign foreign target (texts foreign)

/-- All lines that are written for a namespace before any is struck out. -/
def emittedLines (rs : List TypeRecord) (texts : Texts) (scope : String) : List String :=
  (recordsIn rs scope).map nodeLine ++ (innerLines rs texts scope ++ outerLines rs texts scope)

/-! ### Equal lines are equal rows -/

/-- Neither the namespace nor the name of the type has a comma. -/
def CommaFree (r : TypeRecord) : Prop :=
  ',' ∉ r.scope.toList ∧ ',' ∉ r.name.toList

instance : DecidablePred CommaFree :=
  fun r => inferInstanceAs (Decidable (',' ∉ r.scope.toList ∧ ',' ∉ r.name.toList))

theorem CommaFree.identifier {r : TypeRecord} (h : CommaFree r) : ',' ∉ r.identifier.toList := by
  rw [TypeRecord.identifier_toList, List.mem_append, List.mem_cons]
  rintro (hs | hdot | hn)
  · exact h.1 hs
  · exact absurd hdot (by decide)
  · exact h.2 hn

theorem plain_node {r : TypeRecord} (h : CommaFree r) : (Row.node (.ofRecord r)).Plain := by
  have hkind : ',' ∉ r.kind.label.toList := by cases r.kind <;> decide
  intro c hc
  simp only [Row.columns, GraphNode.ofRecord, List.mem_cons, List.not_mem_nil, or_false] at hc
  rcases hc with rfl | rfl | rfl | rfl | rfl | rfl
  · decide
  · exact h.identifier
  · decide
  · decide
  · exact h.2
  · exact hkind

theorem plain_edge {d t : TypeRecord} (hd : CommaFree d) (ht : CommaFree t) (label : EdgeLabel) :
    (Row.edge ⟨d.identifier, t.identifier, label⟩).Plain := by
  have hlabel : ',' ∉ label.label.toList := by cases label <;> decide
  intro c hc
  simp only [Row.columns, List.mem_cons, List.not_mem_nil, or_false] at hc
  rcases hc with rfl | rfl | rfl | rfl | rfl | rfl
  · decide
  · decide
  · exact hd.identifier
  · exact ht.identifier
  · exact hlabel
  · decide

section
variable {ix : TypeIndex} (h : ix.Aligned) (texts : Texts) (scope : String)
include h

theorem plain_of_mem_kept (hcomma : ∀ r ∈ ix.records, CommaFree r) {r : Row}
    (hr : r ∈ kept ix texts scope) : r.Plain := by
  have hrow : r ∈ (build ix texts scope).rows := by
    rw [build_rows]
    exact List.mem_eraseDups.mpr hr
  have hmem : ∀ {t}, t ∈ ix.group scope → CommaFree t := fun ht =>
    hcomma _ (h.mem_group_iff.mp ht).1
  have hout : ∀ {t}, t ∈ foreigners ix scope → CommaFree t := fun ht =>
    hcomma _ ((mem_foreigners_iff h).mp ht).1
  cases r with
  | node n =>
    rcases mem_build_nodes_iff.mp (mem_nodes_iff.mpr hrow) with ⟨t, ht, rfl⟩ | ⟨d, hd, rfl, -⟩
    · exact plain_node (hmem ht)
    · exact plain_node (hout hd)
  | edge e =>
    obtain ⟨d, t, ⟨ht, hd, -⟩, hs, htt⟩ := mem_build_edges_iff.mp (mem_edges_iff.mpr hrow)
    obtain ⟨source, target, label⟩ := e
    subst hs htt
    rcases hd with hd | hd
    · exact plain_edge (hmem hd.1) (hmem ht) label
    · exact plain_edge (hout hd.1) (hmem ht) label

/-! ### The rows that are brought are the lines that are written -/

omit h in
theorem map_line_pairRows (node dependent target : TypeRecord) (text : Option String) :
    (pairRows node dependent target text).map Row.line = pairLines node dependent target text := by
  unfold pairRows pairLines
  cases classify dependent text target <;> rfl

omit h in
theorem flatMap_filter_eq (p : TypeRecord → Bool) (f : TypeRecord → List String)
    (rs : List TypeRecord) :
    (rs.filter p).flatMap f = rs.flatMap fun r => if p r then f r else [] := by
  induction rs with
  | nil => rfl
  | cons r rs ih =>
    rw [List.filter_cons, List.flatMap_cons, ← ih]
    split
    · rw [List.flatMap_cons]
    · rfl

theorem group_eq_recordsIn (s : String) : ix.group s = recordsIn ix.records s :=
  h.group_eq_filter s

/-- The table of namespaces is sorted as the specification has it. -/
theorem scopes_eq_sortedScopes : ix.scopes = sortedScopes ix.records := by
  have hsorted : (sortedScopes ix.records).Pairwise (· ≤ ·) := List.pairwise_mergeSort' _ _
  have hrising : ix.scopes.Pairwise (· ≤ ·) := h.scopes_rising.imp fun hlt => le_of_lt hlt
  have hperm : ix.scopes.Perm (sortedScopes ix.records) := by
    refine List.Perm.trans ?_ (List.mergeSort_perm _ _).symm
    refine (List.perm_ext_iff_of_nodup (h.scopes_rising.imp fun hlt => ne_of_lt hlt)
      (nodup_eraseDups _)).mpr fun s => ?_
    rw [h.mem_scopes, List.mem_eraseDups, List.mem_map]
  exact hperm.eq_of_pairwise' hrising hsorted

theorem foreigners_eq_flatMap :
    foreigners ix scope =
      ((sortedScopes ix.records).filter fun s => decide (s ≠ scope)).flatMap
        (recordsIn ix.records) := by
  rw [foreigners, h.groups_eq_map, List.filter_map, List.flatMap_map, scopes_eq_sortedScopes h]
  exact List.flatMap_congr fun s _ => h.group_eq_filter s

section
variable (hname : ∀ r ∈ ix.records, '.' ∉ r.name.toList)
include hname

/-- The filter for equal identifiers never passes over a pair of different types. -/
theorem keptRows_eq_pairRows {d t : TypeRecord} (hd : d ∈ ix.records) (ht : t ∈ ix.records)
    (hne : d ≠ t) (node : TypeRecord) (text : Option String) :
    keptRows node d t text = pairRows node d t text :=
  if_neg fun he => hne (h.eq_of_identifier_eq hname hd ht he)

theorem map_line_innerRows :
    ((ix.group scope).flatMap (innerRows texts (ix.group scope))).map Row.line =
      innerLines ix.records texts scope := by
  rw [List.map_flatMap, innerLines, ← group_eq_recordsIn h]
  refine List.flatMap_congr fun d hd => ?_
  obtain ⟨hdm, hds⟩ := h.mem_group_iff.mp hd
  -- inside a namespace, another name is another type
  have hfilter : ((ix.group scope).filter fun t => decide (t.name ≠ d.name)) =
      (ix.group scope).filter fun t => decide (t ≠ d) := by
    refine List.filter_congr fun t ht => decide_eq_decide.mpr (not_congr ?_)
    obtain ⟨htm, hts⟩ := h.mem_group_iff.mp ht
    exact ⟨fun he => h.eq_of_key_eq htm hdm (Prod.ext (hts.trans hds.symm) he),
      fun he => he ▸ rfl⟩
  rw [innerRows, hfilter, List.map_flatMap]
  refine List.flatMap_congr fun t ht => ?_
  obtain ⟨htg, hne⟩ := List.mem_filter.mp ht
  rw [keptRows_eq_pairRows h hname hdm (h.mem_group_iff.mp htg).1
    (Ne.symm (of_decide_eq_true hne)), map_line_pairRows]

theorem map_line_outerRows :
    ((foreigners ix scope).flatMap (outerRows texts scope (ix.group scope))).map Row.line =
      outerLines ix.records texts scope := by
  rw [List.map_flatMap, foreigners_eq_flatMap h, List.flatMap_assoc, outerLines,
    ← group_eq_recordsIn h]
  refine List.flatMap_congr fun s hs => ?_
  have hne : s ≠ scope := of_decide_eq_true (List.mem_filter.mp hs).2
  rw [flatMap_filter_eq]
  refine List.flatMap_congr fun d hd => ?_
  rw [← group_eq_recordsIn h] at hd
  obtain ⟨hdm, hds⟩ := h.mem_group_iff.mp hd
  unfold outerRows
  split
  · rw [List.map_flatMap]
    refine List.flatMap_congr fun t ht => ?_
    obtain ⟨htm, hts⟩ := h.mem_group_iff.mp ht
    have hdt : d ≠ t := fun he => hne (hds.symm.trans (he ▸ hts))
    rw [keptRows_eq_pairRows h hname hdm htm hdt, map_line_pairRows]
  · rfl

theorem map_line_kept : (kept ix texts scope).map Row.line = emittedLines ix.records texts scope := by
  rw [kept, List.map_append, List.map_append, List.map_map, map_line_innerRows h texts scope hname,
    map_line_outerRows h texts scope hname, emittedLines, group_eq_recordsIn h]
  rfl

end
end

/-- **Building a graph is writing all lines and striking out repetitions.**  Whatever has
been registered, as long as no namespace or name has a comma and no name a dot, the lines of
the graph of a namespace are the first occurrences of the lines of the specification. -/
theorem build_lines_eq (rs : List TypeRecord) (hcomma : ∀ r ∈ rs, CommaFree r)
    (hname : ∀ r ∈ rs, '.' ∉ r.name.toList) (texts : Texts) (scope : String) :
    (build (TypeIndex.ofList rs) texts scope).rows.map Row.line =
      (emittedLines (TypeIndex.ofList rs).records texts scope).eraseDups := by
  have h := TypeIndex.aligned_ofList rs
  have hnames : ∀ r ∈ (TypeIndex.ofList rs).records, '.' ∉ r.name.toList :=
    TypeIndex.forall_records_ofList (fun _ _ ha _ => ha) hname
  have hcommas : ∀ r ∈ (TypeIndex.ofList rs).records, CommaFree r :=
    TypeIndex.forall_records_ofList (fun _ _ ha _ => ha) hcomma
  rw [build_rows, map_eraseDups, map_line_kept h texts scope hnames]
  intro r hr s hs he
  exact Row.eq_of_line_eq (plain_of_mem_kept h texts scope hcommas hr)
    (plain_of_mem_kept h texts scope hcommas hs) he

/-- Two types that name each other: each is the target of an edge, and the node line that
stands before the edge line is struck out. -/
theorem build_lines_eq_mutual :
    let one := (TypeRecord.new "One" .classType "App" "A.cs").withBases ["Two"]
    let two := (TypeRecord.new "Two" .classType "App" "B.cs").withBases ["One"]
    (∀ r ∈ [one, two], CommaFree r) ∧ (∀ r ∈ [one, two], '.' ∉ r.name.toList) ∧
      (emittedLines [one, two] (.ofList []) "App").eraseDups =
        [nodeLine one, nodeLine two, edgeLine one two .inherit, edgeLine two one .inherit] := by
  intro one two
  have hcomma : ∀ r ∈ [one, two], CommaFree r := by decide
  have hname : ∀ r ∈ [one, two], '.' ∉ r.name.toList := by decide
  have hrecords : (TypeIndex.ofList [one, two]).records = [one, two] := by decide
  have hlines := build_lines_eq [one, two] hcomma hname (.ofList []) "App"
  rw [hrecords] at hlines
  exact ⟨hcomma, hname, hlines.symm.trans (by decide)⟩

end Graph
end TypeAtlas
