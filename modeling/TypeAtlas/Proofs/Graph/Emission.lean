import TypeAtlas.Graph.Build
import TypeAtlas.Proofs.Distinct
import TypeAtlas.Proofs.Index.Alignment

/-! # What a graph is built from

`Graph.build` runs through the types of a namespace three times with a growing list
of rows at hand, and looks at that list before it puts a row in.  Nothing of this
shows in the result: the rows of a graph are the first occurrences in a list that
can be written down without the growing one (`build_rows`).  That list, `kept`, has
the nodes of the namespace, then for each pair of types that is compared the rows
that the pair brings (`pairRows`), unless both types have one identifier.

So a row is in a graph iff it is brought by something.  For edges this is
`mem_build_edges_iff`, with `Shows` for "this pair is compared, and there is a
dependency", for nodes `mem_build_nodes_iff`.
-/
namespace TypeAtlas
namespace Graph

/-! ### Rows that a pair of types brings -/

/-- The rows of a dependency, or none: the node of one of the two types, and the edge. -/
def pairRows (node dependent target : TypeRecord) (text : Option String) : List Row :=
  match classify dependent text target with
  | some label => [.node (.ofRecord node), .edge ⟨dependent.identifier, target.identifier, label⟩]
  | none => []

/-- The rows of a pair of types with different identifiers. -/
def keptRows (node dependent target : TypeRecord) (text : Option String) : List Row :=
  if dependent.identifier = target.identifier then [] else pairRows node dependent target text

theorem mem_keptRows_iff {node dependent target : TypeRecord} {text : Option String} {r : Row} :
    r ∈ keptRows node dependent target text ↔
      dependent.identifier ≠ target.identifier ∧ ∃ label,
        classify dependent text target = some label ∧
          (r = .node (.ofRecord node) ∨
            r = .edge ⟨dependent.identifier, target.identifier, label⟩) := by
  unfold keptRows pairRows
  split
  · simp_all
  · split <;> simp_all

/-- The rows that one type of the namespace brings. -/
def innerRows (texts : Texts) (group : List TypeRecord) (dependent : TypeRecord) : List Row :=
  (group.filter fun t => decide (t.name ≠ dependent.name)).flatMap fun target =>
    keptRows target dependent target (texts dependent)

/-- The rows that one type of another namespace brings. -/
def outerRows (texts : Texts) (scope : String) (group : List TypeRecord) (foreign : TypeRecord) :
    List Row :=
  if importsScope foreign scope then
    group.flatMap fun target => keptRows foreign foreign target (texts foreign)
  else []

/-- All rows that are brought to the graph of a namespace, in their order. -/
def kept (ix : TypeIndex) (texts : Texts) (scope : String) : List Row :=
  (ix.group scope).map (fun r => .node (.ofRecord r)) ++
    ((ix.group scope).flatMap (innerRows texts (ix.group scope)) ++
      (foreigners ix scope).flatMap (outerRows texts scope (ix.group scope)))

/-! ### The growing list -/

/-- The list at hand holds the first occurrences of the rows brought so far, and a
further row keeps it so. -/
theorem push_eraseDups (rows : List Row) (r : Row) :
    push rows.eraseDups r = (rows ++ [r]).eraseDups := by
  rw [push, eraseDups_concat]
  simp only [List.mem_eraseDups]

theorem foldl_push_eraseDups (rows more : List Row) :
    more.foldl push rows.eraseDups = (rows ++ more).eraseDups := by
  induction more generalizing rows with
  | nil => rw [List.foldl_nil, List.append_nil]
  | cons r more ih => rw [List.foldl_cons, push_eraseDups, ih, List.append_assoc, List.singleton_append]

theorem pushDependency_eq (rows : List Row) (node dependent target : TypeRecord)
    (text : Option String) :
    (match classify dependent text target with
      | some label => pushDependency rows node dependent target label
      | none => rows) = (keptRows node dependent target text).foldl push rows := by
  unfold keptRows pairRows pushDependency GraphEdge.isLoop
  by_cases he : dependent.identifier = target.identifier <;> split <;> simp [he]

theorem pushInner_eq (texts : Texts) (group : List TypeRecord) (rows : List Row)
    (dependent : TypeRecord) :
    pushInner texts group rows dependent = (innerRows texts group dependent).foldl push rows := by
  rw [innerRows, List.foldl_flatMap]
  exact congrArg (fun step => List.foldl step rows _)
    (funext fun acc => funext fun target => pushDependency_eq acc target dependent target _)

theorem pushOuter_eq (texts : Texts) (scope : String) (group : List TypeRecord) (rows : List Row)
    (foreign : TypeRecord) :
    pushOuter texts scope group rows foreign =
      (outerRows texts scope group foreign).foldl push rows := by
  unfold pushOuter outerRows
  split
  · rw [List.foldl_flatMap]
    exact congrArg (fun step => List.foldl step rows group)
      (funext fun acc => funext fun target => pushDependency_eq acc foreign foreign target _)
  · rfl

/-- **The rows of a graph are the first occurrences of the rows brought to it.** -/
theorem build_rows (ix : TypeIndex) (texts : Texts) (scope : String) :
    (build ix texts scope).rows = (kept ix texts scope).eraseDups := by
  have hinner : pushInner texts (ix.group scope) = fun rows d =>
      (innerRows texts (ix.group scope) d).foldl push rows :=
    funext fun rows => funext fun d => pushInner_eq texts _ rows d
  have houter : pushOuter texts scope (ix.group scope) = fun rows d =>
      (outerRows texts scope (ix.group scope) d).foldl push rows :=
    funext fun rows => funext fun d => pushOuter_eq texts scope _ rows d
  have hnodes : (ix.group scope).foldl (fun acc r => push acc (.node (.ofRecord r))) [] =
      ((ix.group scope).map fun r => Row.node (.ofRecord r)).foldl push [] := List.foldl_map.symm
  change (foreigners ix scope).foldl (pushOuter texts scope (ix.group scope))
    ((ix.group scope).foldl (pushInner texts (ix.group scope))
      ((ix.group scope).foldl (fun acc r => push acc (.node (.ofRecord r))) [])) = _
  rw [hinner, houter, hnodes, ← List.foldl_flatMap, ← List.foldl_flatMap, ← List.foldl_append,
    ← List.foldl_append]
  exact foldl_push_eraseDups [] _

/-! ### Which rows are brought -/

/-- The graph of a namespace compares two types and finds a dependency: the second one
is a type of the namespace, the first one is another type of it or a type of another
namespace that imports it, and their identifiers differ. -/
def Shows (ix : TypeIndex) (texts : Texts) (scope : String) (d t : TypeRecord)
    (label : EdgeLabel) : Prop :=
  t ∈ ix.group scope ∧
    (d ∈ ix.group scope ∧ t.name ≠ d.name ∨ d ∈ foreigners ix scope ∧ importsScope d scope) ∧
    d.identifier ≠ t.identifier ∧ classify d (texts d) t = some label

section
variable {ix : TypeIndex} {texts : Texts} {scope : String}

theorem mem_foreigners_iff (h : ix.Aligned) {r : TypeRecord} :
    r ∈ foreigners ix scope ↔ r ∈ ix.records ∧ r.scope ≠ scope := by
  rw [foreigners, h.groups_eq_map, List.mem_flatMap]
  constructor
  · rintro ⟨g, hg, hr⟩
    obtain ⟨hg, hne⟩ := List.mem_filter.mp hg
    obtain ⟨s, -, rfl⟩ := List.mem_map.mp hg
    obtain ⟨hmem, rfl⟩ := h.mem_group_iff.mp hr
    exact ⟨hmem, of_decide_eq_true hne⟩
  · rintro ⟨hr, hne⟩
    refine ⟨(r.scope, ix.group r.scope), List.mem_filter.mpr ⟨?_, decide_eq_true hne⟩,
      h.mem_group_iff.mpr ⟨hr, rfl⟩⟩
    exact List.mem_map.mpr ⟨r.scope, h.mem_scopes.mpr ⟨r, hr, rfl⟩, rfl⟩

/-- What a graph shows is between two types of the index. -/
theorem Shows.mem_records (h : ix.Aligned) {d t : TypeRecord} {label : EdgeLabel}
    (hs : Shows ix texts scope d t label) : d ∈ ix.records ∧ t ∈ ix.records := by
  obtain ⟨ht, hd | hd, -⟩ := hs
  · exact ⟨(h.mem_group_iff.mp hd.1).1, (h.mem_group_iff.mp ht).1⟩
  · exact ⟨((mem_foreigners_iff h).mp hd.1).1, (h.mem_group_iff.mp ht).1⟩

theorem mem_build_rows_iff {r : Row} :
    r ∈ (build ix texts scope).rows ↔
      (∃ t ∈ ix.group scope, r = .node (.ofRecord t)) ∨
      (∃ d ∈ ix.group scope, r ∈ innerRows texts (ix.group scope) d) ∨
      ∃ d ∈ foreigners ix scope, r ∈ outerRows texts scope (ix.group scope) d := by
  rw [build_rows, List.mem_eraseDups, kept, List.mem_append, List.mem_append, List.mem_map,
    List.mem_flatMap, List.mem_flatMap]
  simp only [eq_comm (a := r)]

theorem mem_innerRows_iff {d : TypeRecord} {r : Row} :
    r ∈ innerRows texts (ix.group scope) d ↔
      ∃ t ∈ ix.group scope, t.name ≠ d.name ∧ r ∈ keptRows t d t (texts d) := by
  simp [innerRows, and_assoc]

theorem mem_outerRows_iff {d : TypeRecord} {r : Row} :
    r ∈ outerRows texts scope (ix.group scope) d ↔
      importsScope d scope ∧ ∃ t ∈ ix.group scope, r ∈ keptRows d d t (texts d) := by
  unfold outerRows
  split <;> simp_all

theorem mem_edges_iff {g : Graph} {e : GraphEdge} : e ∈ g.edges ↔ Row.edge e ∈ g.rows := by
  rw [edges, List.mem_filterMap]
  constructor
  · rintro ⟨r, hr, he⟩
    cases r with
    | node n => cases he
    | edge f => exact Option.some.inj he ▸ hr
  · exact fun h => ⟨_, h, rfl⟩

theorem mem_nodes_iff {g : Graph} {n : GraphNode} : n ∈ g.nodes ↔ Row.node n ∈ g.rows := by
  rw [nodes, List.mem_filterMap]
  constructor
  · rintro ⟨r, hr, hn⟩
    cases r with
    | node m => exact Option.some.inj hn ▸ hr
    | edge e => cases hn
  · exact fun h => ⟨_, h, rfl⟩

/-- **An edge is in the graph iff the graph shows its dependency.** -/
theorem mem_build_edges_iff {e : GraphEdge} :
    e ∈ (build ix texts scope).edges ↔
      ∃ d t, Shows ix texts scope d t e.label ∧ d.identifier = e.source ∧
        t.identifier = e.target := by
  rw [mem_edges_iff, mem_build_rows_iff]
  constructor
  · rintro (⟨_, _, h⟩ | ⟨d, hd, h⟩ | ⟨d, hd, h⟩)
    · cases h
    · obtain ⟨t, ht, hname, h⟩ := mem_innerRows_iff.mp h
      obtain ⟨hid, label, hlabel, h | h⟩ := mem_keptRows_iff.mp h
      · cases h
      · cases h
        exact ⟨d, t, ⟨ht, Or.inl ⟨hd, hname⟩, hid, hlabel⟩, rfl, rfl⟩
    · obtain ⟨himp, t, ht, h⟩ := mem_outerRows_iff.mp h
      obtain ⟨hid, label, hlabel, h | h⟩ := mem_keptRows_iff.mp h
      · cases h
      · cases h
        exact ⟨d, t, ⟨ht, Or.inr ⟨hd, himp⟩, hid, hlabel⟩, rfl, rfl⟩
  · obtain ⟨s, t', l⟩ := e
    rintro ⟨d, t, ⟨ht, hd | hd, hid, hlabel⟩, rfl, rfl⟩
    · exact Or.inr (Or.inl ⟨d, hd.1, mem_innerRows_iff.mpr
        ⟨t, ht, hd.2, mem_keptRows_iff.mpr ⟨hid, l, hlabel, Or.inr rfl⟩⟩⟩)
    · exact Or.inr (Or.inr ⟨d, hd.1, mem_outerRows_iff.mpr
        ⟨hd.2, t, ht, mem_keptRows_iff.mpr ⟨hid, l, hlabel, Or.inr rfl⟩⟩⟩)

/-- **A node is in the graph iff it is a type of the namespace, or a type of another
namespace from which the graph has an edge.** -/
theorem mem_build_nodes_iff {n : GraphNode} :
    n ∈ (build ix texts scope).nodes ↔
      (∃ t ∈ ix.group scope, n = .ofRecord t) ∨
      ∃ d ∈ foreigners ix scope, n = .ofRecord d ∧ ∃ t label, Shows ix texts scope d t label := by
  rw [mem_nodes_iff, mem_build_rows_iff]
  constructor
  · rintro (⟨t, ht, h⟩ | ⟨d, hd, h⟩ | ⟨d, hd, h⟩)
    · cases h
      exact Or.inl ⟨t, ht, rfl⟩
    · obtain ⟨t, ht, -, h⟩ := mem_innerRows_iff.mp h
      obtain ⟨-, label, -, h | h⟩ := mem_keptRows_iff.mp h
      · cases h
        exact Or.inl ⟨t, ht, rfl⟩
      · cases h
    · obtain ⟨himp, t, ht, h⟩ := mem_outerRows_iff.mp h
      obtain ⟨hid, label, hlabel, h | h⟩ := mem_keptRows_iff.mp h
      · cases h
        exact Or.inr ⟨d, hd, rfl, t, label, ht, Or.inr ⟨hd, himp⟩, hid, hlabel⟩
      · cases h
  · rintro (⟨t, ht, rfl⟩ | ⟨d, hd, rfl, t, label, ht, hcmp, hid, hlabel⟩)
    · exact Or.inl ⟨t, ht, rfl⟩
    · rcases hcmp with hd' | hd'
      · exact Or.inl ⟨d, hd'.1, rfl⟩
      · exact Or.inr (Or.inr ⟨d, hd, mem_outerRows_iff.mpr
          ⟨hd'.2, t, ht, mem_keptRows_iff.mpr ⟨hid, label, hlabel, Or.inl rfl⟩⟩⟩)

end

end Graph
end TypeAtlas
