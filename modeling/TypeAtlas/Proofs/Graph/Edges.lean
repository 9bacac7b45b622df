import TypeAtlas.Proofs.Graph.Emission
import TypeAtlas.Proofs.Record.Union

/-! # Which edges a graph has

`classify` decides by a chain of tests whether one type depends on another one.
`Dependency` states the rule as it is meant, by two cases: the other type is named in
the base list, or the declaration text mentions it and the mention is no accident of
the type's own name.  The two agree as soon as the flag and the base list of the
dependent type do (`classify_eq_some_iff`).

For a whole graph the rule is exact (`mem_build_edges_iff_dependency`): whatever was
registered, and in which order, the edges are those of the pairs of different types
that the rule gives, where the dependent one is of the same namespace or imports it.
The comparison of names inside a namespace and the test for equal identifiers only
ever pass over a type and itself, because names have no dot.
-/
namespace TypeAtlas

/-! ### The rule -/

/-- A text contains a name. -/
def Mentions (text name : String) : Prop :=
  name.toList <:+: text.toList

/-- A written type is a name, or a name with type arguments behind it. -/
def NamesType (written name : String) : Prop :=
  written = name ∨ name.toList ++ ['<'] <+: written.toList

/-- A method has a type in its signature, or the name of the type in its body. -/
def Method.Uses (m : Method) (name : String) : Prop :=
  NamesType m.returnType name ∨ (∃ p ∈ m.parameters, NamesType p.type name) ∨
    ∃ body, m.body = some body ∧ Mentions body name

/-- How a type with a declaration text depends on another type. -/
inductive Dependency (d : TypeRecord) (text : Option String) (t : TypeRecord) : EdgeLabel → Prop
  /-- The other type is in the base list. -/
  | base (hbase : t.name ∈ d.baseNames) :
      Dependency d text t (if t.kind = .interfaceType then .implement else .inherit)
  /-- The declaration text mentions the other type; where the dependent type's own name
  contains the name as well, a method must use it. -/
  | mention (hbase : t.name ∉ d.baseNames) (htext : ∃ s, text = some s ∧ Mentions s t.name)
      (huse : ¬Mentions d.name t.name ∨ ∃ m ∈ d.methods, m.Uses t.name) :
      Dependency d text t .reference

/-! ### The tests decide the rule -/

theorem contains_iff {text name : String} : Text.contains text name ↔ Mentions text name :=
  Text.occursIn_iff

instance (text name : String) : Decidable (Mentions text name) :=
  decidable_of_iff _ contains_iff

theorem isTypeNamed_iff {name written : String} :
    TypeRecord.isTypeNamed name written ↔ NamesType written name := by
  rw [TypeRecord.isTypeNamed, Bool.or_eq_true, beq_iff_eq, Text.startsWith,
    List.isPrefixOf_iff_prefix, String.toList_append]
  rfl

theorem methodUses_iff {name : String} {m : Method} :
    TypeRecord.methodUses name m ↔ m.Uses name := by
  rw [TypeRecord.methodUses, Bool.or_eq_true, Bool.or_eq_true, isTypeNamed_iff, List.any_eq_true,
    Method.Uses, or_assoc]
  refine or_congr Iff.rfl (or_congr ?_ ?_)
  · simp only [isTypeNamed_iff]
  · cases m.body <;> simp [contains_iff]

theorem uses_iff {r : TypeRecord} {name : String} :
    r.uses name ↔ ∃ m ∈ r.methods, m.Uses name := by
  rw [TypeRecord.uses, List.any_eq_true]
  simp only [methodUses_iff]

theorem textMentions_iff {text : Option String} {name : String} :
    (text.map fun t => Text.contains t name).getD false ↔
      ∃ s, text = some s ∧ Mentions s name := by
  cases text <;> simp [contains_iff]

/-- The flag says whether there is a base list. -/
def TypeRecord.FlagAgrees (r : TypeRecord) : Prop :=
  r.flags.isInherited = r.bases.isSome

instance : DecidablePred TypeRecord.FlagAgrees :=
  fun r => inferInstanceAs (Decidable (r.flags.isInherited = r.bases.isSome))

theorem TypeRecord.FlagAgrees.absorb {a : TypeRecord} (ha : a.FlagAgrees) (b : TypeRecord) :
    (a.absorb b).FlagAgrees := by
  change (a.flags.isInherited || b.bases.isSome) = (mergedBases a.bases b.bases).isSome
  rw [show a.flags.isInherited = a.bases.isSome from ha, isSome_mergedBases]

/-- A base list is only looked at where the flag is set; that loses no base. -/
theorem TypeRecord.FlagAgrees.inherited_of_mem {r : TypeRecord} (h : r.FlagAgrees) {name : String}
    (hname : name ∈ r.baseNames) : r.flags.isInherited = true := by
  rw [show r.flags.isInherited = r.bases.isSome from h]
  cases hb : r.bases with
  | none => simp [baseNames, hb] at hname
  | some _ => rfl

/-- **The tests of `classify` decide the rule.** -/
theorem classify_eq_some_iff {d t : TypeRecord} {text : Option String} {label : EdgeLabel}
    (hflag : d.FlagAgrees) : classify d text t = some label ↔ Dependency d text t label := by
  unfold classify
  by_cases hbase : t.name ∈ d.baseNames
  · rw [if_pos (by simp [hbase, hflag.inherited_of_mem hbase]), Option.some.injEq]
    constructor
    · rintro rfl
      exact Dependency.base hbase
    · rintro (_ | ⟨hno⟩)
      · rfl
      · exact absurd hbase hno
  · rw [if_neg (by simp [hbase])]
    constructor
    · intro h
      split_ifs at h with htext huse
      cases h
      refine Dependency.mention hbase (textMentions_iff.mp (by simpa using htext)) ?_
      rcases Bool.or_eq_true _ _ |>.mp huse with hown | huse
      · left
        rw [← contains_iff]
        simpa using hown
      · exact Or.inr (uses_iff.mp huse)
    · rintro (hyes | ⟨_, htext, huse⟩)
      · exact absurd hyes hbase
      · rw [if_neg (by simpa using textMentions_iff.mpr htext), if_pos]
        rw [← contains_iff, ← uses_iff] at huse
        simpa using huse

/-- A type with a declaration text depends on another one, whatever the label is. -/
def DependsOn (d : TypeRecord) (text : Option String) (t : TypeRecord) : Prop :=
  t.name ∈ d.baseNames ∨ (∃ s, text = some s ∧ Mentions s t.name) ∧
    (¬Mentions d.name t.name ∨ ∃ m ∈ d.methods, m.Uses t.name)

theorem exists_dependency_iff {d t : TypeRecord} {text : Option String} :
    (∃ label, Dependency d text t label) ↔ DependsOn d text t := by
  constructor
  · rintro ⟨label, hbase | ⟨-, htext, huse⟩⟩
    · exact Or.inl hbase
    · exact Or.inr ⟨htext, huse⟩
  · intro h
    by_cases hbase : t.name ∈ d.baseNames
    · exact ⟨_, .base hbase⟩
    · obtain ⟨htext, huse⟩ := h.resolve_left hbase
      exact ⟨_, .mention hbase htext huse⟩

/-- What is in the base list of the dependent type says which edge it is. -/
theorem Dependency.label_eq {d t : TypeRecord} {text : Option String} {label : EdgeLabel}
    (h : Dependency d text t label) :
    label = if t.name ∈ d.baseNames then
      (if t.kind = .interfaceType then .implement else .inherit) else .reference := by
  cases h with
  | base hbase => rw [if_pos hbase]
  | mention hbase _ _ => rw [if_neg hbase]

theorem Dependency.base_of_ne {d t : TypeRecord} {text : Option String} {label : EdgeLabel}
    (h : Dependency d text t label) (hne : label ≠ .reference) :
    t.name ∈ d.baseNames ∧ label = if t.kind = .interfaceType then .implement else .inherit := by
  cases h with
  | base hbase => exact ⟨hbase, rfl⟩
  | mention _ _ _ => exact absurd rfl hne

theorem isSome_classify_iff {d t : TypeRecord} {text : Option String} (hflag : d.FlagAgrees) :
    (classify d text t).isSome ↔ DependsOn d text t := by
  rw [Option.isSome_iff_exists, ← exists_dependency_iff]
  exact exists_congr fun _ => classify_eq_some_iff hflag

theorem importsScope_iff {r : TypeRecord} {scope : String} :
    importsScope r scope ↔ ∃ i ∈ r.imports, Mentions i scope := by
  rw [importsScope, List.any_eq_true]
  simp only [contains_iff]

/-! ### The edges of a graph -/

namespace Graph

/-- In an index whose names have no dot, a graph shows the dependencies of all pairs of
different types that it is about. -/
theorem shows_iff {ix : TypeIndex} (h : ix.Aligned)
    (hname : ∀ r ∈ ix.records, '.' ∉ r.name.toList) {texts : Texts} {scope : String}
    {d t : TypeRecord} {label : EdgeLabel} :
    Shows ix texts scope d t label ↔
      d ∈ ix.records ∧ t ∈ ix.records ∧ d ≠ t ∧ t.scope = scope ∧
        (d.scope = scope ∨ importsScope d scope) ∧ classify d (texts d) t = some label := by
  rw [Shows, h.mem_group_iff, h.mem_group_iff, mem_foreigners_iff h]
  constructor
  · rintro ⟨⟨ht, htscope⟩, ⟨⟨hd, hdscope⟩, -⟩ | ⟨⟨hd, -⟩, himp⟩, hid, hlabel⟩
    · exact ⟨hd, ht, fun he => hid (he ▸ rfl), htscope, Or.inl hdscope, hlabel⟩
    · exact ⟨hd, ht, fun he => hid (he ▸ rfl), htscope, Or.inr himp, hlabel⟩
  · rintro ⟨hd, ht, hne, htscope, hdscope, hlabel⟩
    have hid : d.identifier ≠ t.identifier := fun he =>
      hne (h.eq_of_identifier_eq hname hd ht he)
    refine ⟨⟨ht, htscope⟩, ?_, hid, hlabel⟩
    by_cases hs : d.scope = scope
    · refine Or.inl ⟨⟨hd, hs⟩, fun he => hne ?_⟩
      exact h.eq_of_key_eq hd ht (Prod.ext (hs.trans htscope.symm) he.symm)
    · exact Or.inr ⟨⟨hd, hs⟩, hdscope.resolve_left hs⟩

/-- **The edges of a graph, exactly.**  Whatever has been registered, as long as names have
no dot and flags agree with base lists: an edge is in the graph of a namespace iff it
leads from one registered type to another one of the namespace, the first one is of the
namespace or imports it, and the rule gives the dependency. -/
theorem mem_build_edges_iff_dependency (rs : List TypeRecord)
    (hname : ∀ r ∈ rs, '.' ∉ r.name.toList) (hflag : ∀ r ∈ rs, r.FlagAgrees) (texts : Texts)
    (scope source target : String) (label : EdgeLabel) :
    ⟨source, target, label⟩ ∈ (build (TypeIndex.ofList rs) texts scope).edges ↔
      ∃ d ∈ (TypeIndex.ofList rs).records, ∃ t ∈ (TypeIndex.ofList rs).records,
        d ≠ t ∧ d.identifier = source ∧ t.identifier = target ∧ t.scope = scope ∧
          (d.scope = scope ∨ ∃ i ∈ d.imports, Mentions i scope) ∧
          Dependency d (texts d) t label := by
  have hnames : ∀ r ∈ (TypeIndex.ofList rs).records, '.' ∉ r.name.toList :=
    TypeIndex.forall_records_ofList (fun _ _ ha _ => ha) hname
  have hflags : ∀ r ∈ (TypeIndex.ofList rs).records, r.FlagAgrees :=
    TypeIndex.forall_records_ofList (fun _ b ha _ => ha.absorb b) hflag
  rw [mem_build_edges_iff]
  constructor
  · rintro ⟨d, t, hshows, hsource, htarget⟩
    obtain ⟨hd, ht, hne, hscope, himp, hlabel⟩ :=
      (shows_iff (TypeIndex.aligned_ofList rs) hnames).mp hshows
    exact ⟨d, hd, t, ht, hne, hsource, htarget, hscope, himp.imp_right importsScope_iff.mp,
      (classify_eq_some_iff (hflags d hd)).mp hlabel⟩
  · rintro ⟨d, hd, t, ht, hne, hsource, htarget, hscope, himp, hdep⟩
    refine ⟨d, t, (shows_iff (TypeIndex.aligned_ofList rs) hnames).mpr ?_, hsource, htarget⟩
    exact ⟨hd, ht, hne, hscope, himp.imp_right importsScope_iff.mpr,
      (classify_eq_some_iff (hflags d hd)).mpr hdep⟩

/-- A type in two parts, one with the import and one with a base list that names something
else, refers to the type that its text mentions. -/
theorem mem_build_edges_iff_dependency_two_parts :
    let base : TypeRecord := .new "Base" .classType "Pkg" "Base.cs"
    let first := (TypeRecord.new "Client" .classType "App" "A.cs").withImports ["using Pkg;"]
    let second := (TypeRecord.new "Client" .classType "App" "B.cs").withBases ["Other"]
    let texts : Texts := .ofList [("App.Client", "class Client : Other { Base b; }")]
    (∀ r ∈ [base, first, second], '.' ∉ r.name.toList) ∧
      (∀ r ∈ [base, first, second], r.FlagAgrees) ∧
      ⟨"App.Client", "Pkg.Base", .reference⟩ ∈
        (build (TypeIndex.ofList [base, first, second]) texts "Pkg").edges := by
  intro base first second texts
  have hname : ∀ r ∈ [base, first, second], '.' ∉ r.name.toList := by decide
  have hflag : ∀ r ∈ [base, first, second], r.FlagAgrees := by decide
  refine ⟨hname, hflag,
    (mem_build_edges_iff_dependency _ hname hflag texts _ _ _ _).mpr
      ⟨first.absorb second, by decide, base, by decide, by decide, rfl, rfl, rfl, ?_, ?_⟩⟩
  · exact Or.inr ⟨"using Pkg;", by decide, by decide⟩
  · exact .mention (by decide) ⟨"class Client : Other { Base b; }", by decide, by decide⟩
      (Or.inl (by decide))

end Graph
end TypeAtlas
