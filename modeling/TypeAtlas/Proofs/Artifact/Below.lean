import TypeAtlas.Proofs.Artifact.Apart
import TypeAtlas.Proofs.Source.Naming

/-! # Artifacts below the root

The directory of a namespace is made of the pieces between its dots, so no dot is left that
could lead upwards.  A piece that begins with a slash is another matter: as a path it is
absolute and replaces all that stands before it.  Types are named by words, which have no
slash, but a namespace is quoted with the comments inside its name, and a comment behind
a dot puts a slash at the front of a piece.

Hence the artifacts of a type are below every root if no piece of its namespace begins
with a slash, and only then (`Source.keepsBelow_iff`).  Of the syntax tree only the names
of the types matter.
-/
namespace TypeAtlas

/-! ### Paths without dots -/

namespace Path

/-- A path without dots never goes up. -/
theorem up_not_mem_components {p : String} (h : '.' ∉ p.toList) :
    Component.up ∉ components p := by
  have hpiece : ∀ s ∈ written p, componentOf s ≠ .up := by
    intro s hs hup
    unfold componentOf at hup
    split_ifs at hup with hdots
    obtain rfl := beq_iff_eq.mp hdots
    exact h (Text.mem_of_mem_splitAtChar hs List.mem_cons_self).2
  intro hmem
  rw [components] at hmem
  split at hmem
  · cases hmem
  · rename_i first rest hwritten
    change written p = first :: rest at hwritten
    rw [hwritten] at hpiece
    rcases List.mem_append.mp hmem with hmem | hmem
    · split_ifs at hmem
      · cases hmem
      · cases List.mem_singleton.mp hmem
      · exact hpiece first List.mem_cons_self (List.mem_singleton.mp hmem).symm
    · obtain ⟨s, hs, hup⟩ := List.mem_map.mp hmem
      exact hpiece s (List.mem_cons_of_mem first (List.mem_of_mem_filter hs)) hup

/-- A path without dots is followed by names. -/
theorem isName_of_mem_pieces {p : String} (h : '.' ∉ p.toList) : ∀ n ∈ pieces p, IsName n := by
  intro n hn
  obtain ⟨hmem, hne⟩ := List.mem_filter.mp hn
  obtain ⟨s, hs, rfl⟩ := List.mem_map.mp hmem
  refine isName_of_no_dot (of_decide_eq_true hne) ?_ ?_
  · rw [String.toList_ofList]
    exact fun hdot => h (Text.mem_of_mem_splitAtChar hs hdot).2
  · rw [String.toList_ofList]
    exact no_slash_of_mem_written hs

/-- Joined paths have the characters of the parts, and slashes. -/
theorem mem_join {base rest : String} {c : Char} (h : c ∈ (join base rest).toList) :
    c ∈ base.toList ∨ c ∈ rest.toList ∨ c = '/' := by
  rw [join, String.toList_ofList, joinChars] at h
  split_ifs at h
  · exact Or.inr (Or.inl h)
  · exact (List.mem_append.mp h).imp_right Or.inl
  · rw [List.mem_append, List.mem_cons] at h
    tauto

theorem dot_not_mem_join {base rest : String} (hbase : '.' ∉ base.toList)
    (hrest : '.' ∉ rest.toList) : '.' ∉ (join base rest).toList := by
  intro h
  rcases mem_join h with h | h | h
  · exact hbase h
  · exact hrest h
  · cases h

theorem dot_not_mem_joinAll {base : String} {segments : List String} (hbase : '.' ∉ base.toList)
    (h : ∀ s ∈ segments, '.' ∉ s.toList) : '.' ∉ (joinAll base segments).toList := by
  induction segments generalizing base with
  | nil => exact hbase
  | cons s segments ih =>
    obtain ⟨hs, hsegments⟩ := List.forall_mem_cons.mp h
    exact ih (dot_not_mem_join hbase hs) hsegments

/-! ### Absolute pieces -/

theorem isAbsolute_join_eq (base rest : String) :
    isAbsolute (join base rest) = (isAbsolute base || isAbsolute rest) := by
  cases hrest : isAbsolute rest with
  | false => rw [isAbsolute_join hrest, Bool.or_false]
  | true =>
    have hhead := hrest
    rw [isAbsolute, beq_iff_eq] at hhead
    rw [join, joinChars, if_pos hhead, String.ofList_toList, hrest, Bool.or_true]

/-- One absolute piece is enough. -/
theorem isAbsolute_joinAll (base : String) (segments : List String) :
    isAbsolute (joinAll base segments) = (isAbsolute base || segments.any isAbsolute) := by
  induction segments generalizing base with
  | nil => exact (Bool.or_false _).symm
  | cons s segments ih =>
    rw [List.any_cons, ← Bool.or_assoc, ← isAbsolute_join_eq]
    exact ih (join base s)

/-! ### Below a path -/

/-- A path goes on from another one, through at least one name and never up. -/
def LiesBelow (root path : String) : Prop :=
  ∃ names, names ≠ [] ∧ (∀ n ∈ names, IsName n) ∧ Leads root path names

theorem Leads.liesBelow {root path name : String} {names : List String}
    (h : Leads root path (names ++ [name])) (hnames : ∀ n ∈ names, IsName n) (hname : IsName name) :
    LiesBelow root path := by
  refine ⟨names ++ [name], List.append_ne_nil_of_right_ne_nil _ (List.cons_ne_nil _ _), ?_, h⟩
  exact List.forall_mem_append.mpr ⟨hnames, List.forall_mem_singleton.mpr hname⟩

/-- An absolute path is not below a relative one. -/
theorem LiesBelow.isAbsolute_eq {root path : String} (h : LiesBelow root path) :
    isAbsolute path = isAbsolute root := by
  obtain ⟨names, -, -, hleads⟩ := h
  exact hleads.isAbsolute_eq

end Path

/-! ### Namespaces -/

theorem Text.mem_of_mem_trim {cs : List Char} {c : Char} (h : c ∈ trim cs) : c ∈ cs := by
  rw [trim, dropEndWhile, List.mem_reverse] at h
  have hmem := List.dropWhile_subset _ h
  exact List.dropWhile_subset _ (List.mem_reverse.mp hmem)

/-- All dots of a namespace are between its segments. -/
theorem dot_not_mem_of_mem_scopeSegments {scope s : String} (h : s ∈ scopeSegments scope) :
    '.' ∉ s.toList := by
  obtain ⟨cs, hcs, rfl⟩ := List.mem_map.mp h
  obtain ⟨piece, hpiece, rfl⟩ := List.mem_map.mp (List.mem_of_mem_filter hcs)
  rw [String.toList_ofList]
  exact fun hdot => Text.not_mem_of_mem_splitAtChar hpiece (Text.mem_of_mem_trim hdot)

theorem dot_not_mem_scopeDir (scope : String) : '.' ∉ (scopeDir scope).toList :=
  Path.dot_not_mem_joinAll List.not_mem_nil fun _ hs => dot_not_mem_of_mem_scopeSegments hs

theorem isAbsolute_scopeDir_iff {scope : String} :
    Path.isAbsolute (scopeDir scope) = false ↔
      ∀ s ∈ scopeSegments scope, Path.isAbsolute s = false := by
  rw [scopeDir, Path.isAbsolute_joinAll, Bool.or_eq_false_iff, List.any_eq_false]
  simp only [Bool.not_eq_true]
  exact and_iff_right rfl

/-! ### The artifacts of a type -/

/-- The artifacts of a type and of its namespace are below the root. -/
structure Layout.KeepsBelow (l : Layout) (r : TypeRecord) : Prop where
  typeDir : Path.LiesBelow l.root (l.typeDir r)
  metadata : Path.LiesBelow l.root (l.metadataPath r)
  declaration : Path.LiesBelow l.root (l.declarationPath r)
  graph : Path.LiesBelow l.root (l.graphPath r.scope)

namespace TypeRecord

/-- Neither directory of a type begins at the root of the file system or goes up. -/
structure HasInnerDirs (r : TypeRecord) : Prop where
  scope_relative : Path.isAbsolute (scopeDir r.scope) = false
  scope_no_up : Component.up ∉ Path.components (scopeDir r.scope)
  dir_relative : Path.isAbsolute r.dir = false
  dir_no_up : Component.up ∉ Path.components r.dir

variable {r : TypeRecord}

theorem dot_not_mem_dir (hname : IsTypeName r.name) : '.' ∉ r.dir.toList :=
  Path.dot_not_mem_join (dot_not_mem_scopeDir r.scope) hname.no_dot

theorem isAbsolute_dir (hname : IsTypeName r.name) :
    Path.isAbsolute r.dir = Path.isAbsolute (scopeDir r.scope) :=
  Path.isAbsolute_join (Path.isAbsolute_of_no_slash hname.no_slash)

theorem keepsBelow (hname : IsTypeName r.name) (h : Path.isAbsolute (scopeDir r.scope) = false)
    (l : Layout) : l.KeepsBelow r := by
  have hnames := Path.isName_of_mem_pieces (dot_not_mem_scopeDir r.scope)
  have hscope : Path.Leads "" (scopeDir r.scope) (Path.pieces (scopeDir r.scope)) :=
    ⟨h, (List.nil_append _).symm⟩
  have hdir := (hscope.join hname.isName).behind l.root
  have hdirNames : ∀ n ∈ Path.pieces (scopeDir r.scope) ++ [r.name], Path.IsName n :=
    List.forall_mem_append.mpr ⟨hnames, List.forall_mem_singleton.mpr hname.isName⟩
  exact {
    typeDir := hdir.liesBelow hnames hname.isName
    metadata := (hdir.join Layout.isName_metadataName).liesBelow hdirNames
      Layout.isName_metadataName
    declaration := (hdir.join Layout.isName_declarationName).liesBelow hdirNames
      Layout.isName_declarationName
    graph := ((hscope.behind l.root).join Layout.isName_graphName).liesBelow hnames
      Layout.isName_graphName }

/-- The namespace decides where the artifacts of a type are.  No directory goes up, and a slash at
the front of a segment is all that leads out. -/
structure LeavesOnlyBySlash (r : TypeRecord) : Prop where
  scope_no_up : Component.up ∉ Path.components (scopeDir r.scope)
  dir_no_up : Component.up ∉ Path.components r.dir
  inner_iff : r.HasInnerDirs ↔ ∀ s ∈ scopeSegments r.scope, Path.isAbsolute s = false
  below_iff : (∀ layout : Layout, layout.KeepsBelow r) ↔
    ∀ s ∈ scopeSegments r.scope, Path.isAbsolute s = false

theorem leavesOnlyBySlash (hname : IsTypeName r.name) : r.LeavesOnlyBySlash := by
  have hup := Path.up_not_mem_components (dot_not_mem_scopeDir r.scope)
  have hdirUp := Path.up_not_mem_components (dot_not_mem_dir hname)
  have hdir := isAbsolute_dir hname
  refine ⟨hup, hdirUp, ?_, ?_⟩
  · rw [← isAbsolute_scopeDir_iff]
    exact ⟨fun h => h.scope_relative, fun h => ⟨h, hup, hdir.trans h, hdirUp⟩⟩
  · rw [← isAbsolute_scopeDir_iff]
    refine ⟨fun h => ?_, keepsBelow hname⟩
    -- a relative root is enough to tell
    have hbelow := (h ⟨""⟩).typeDir.isAbsolute_eq
    rw [Layout.typeDir, Path.isAbsolute_join_eq, hdir] at hbelow
    exact (Bool.or_eq_false_iff.mp hbelow).2

end TypeRecord

/-! ### Extracted types -/

namespace Source

theorem Language.isTypeName (l : Language) {source path : String} {d : Declaration}
    (hd : d ∈ (extract l source path).types) : IsTypeName d.record.name := by
  obtain ⟨hne, hplain⟩ := l.plain_name hd
  exact ⟨hne, hplain.1, hplain.2⟩

/-- **The artifacts of an extracted type are below every root if no segment of its namespace
begins with a slash, and only then.**  That holds in any tree of either language for every type
whose name can be that of a directory, and for every type that is read from a text, which has
such a name. -/
theorem keepsBelow_iff (l : Language) :
    (∀ (p : Parsed) (path : String), ∀ d ∈ l.dialect.declarations p path,
      IsTypeName d.record.name → d.record.LeavesOnlyBySlash) ∧
    ∀ source path : String, ∀ d ∈ (extract l source path).types,
      IsTypeName d.record.name ∧ d.record.LeavesOnlyBySlash := by
  refine ⟨fun p path d _ hname => TypeRecord.leavesOnlyBySlash hname, fun source path d hd => ?_⟩
  have hname := l.isTypeName hd
  exact ⟨hname, TypeRecord.leavesOnlyBySlash hname⟩

theorem keepsBelow_iff_plain :
    ∃ d ∈ (extract .csharp "namespace A.B{class C{}}" "C.cs").types,
      d.record.HasInnerDirs ∧ ∀ layout : Layout, layout.KeepsBelow d.record := by
  have hfound : ∃ d ∈ (extract .csharp "namespace A.B{class C{}}" "C.cs").types,
      ∀ s ∈ scopeSegments d.record.scope, Path.isAbsolute s = false := by
    decide +kernel
  obtain ⟨d, hd, hsegments⟩ := hfound
  obtain ⟨-, hleaves⟩ := (keepsBelow_iff .csharp).2 _ _ d hd
  exact ⟨d, hd, hleaves.inner_iff.mpr hsegments, hleaves.below_iff.mpr hsegments⟩

/-- A comment behind a dot leads out of the root, and is no error. -/
theorem not_keepsBelow_comment :
    (extract .csharp "namespace A./*x*/B{class C{}}" "C.cs").hasErrors = false ∧
      ∃ d ∈ (extract .csharp "namespace A./*x*/B{class C{}}" "C.cs").types,
        Layout.metadataPath ⟨"out"⟩ d.record = "/*x*/B/C/metadata.json" ∧
          ¬ d.record.HasInnerDirs ∧ ¬ Layout.KeepsBelow ⟨"out"⟩ d.record := by
  have hfound : (extract .csharp "namespace A./*x*/B{class C{}}" "C.cs").hasErrors = false ∧
      ∃ d ∈ (extract .csharp "namespace A./*x*/B{class C{}}" "C.cs").types,
        Layout.metadataPath ⟨"out"⟩ d.record = "/*x*/B/C/metadata.json" ∧
          Path.isAbsolute (scopeDir d.record.scope) = true := by
    decide +kernel
  obtain ⟨herrors, d, hd, hmetadata, habsolute⟩ := hfound
  refine ⟨herrors, d, hd, hmetadata, fun h => ?_, fun h => ?_⟩
  · rw [h.scope_relative] at habsolute
    cases habsolute
  · have hbelow := h.metadata.isAbsolute_eq
    rw [hmetadata] at hbelow
    cases hbelow

end Source
end TypeAtlas
