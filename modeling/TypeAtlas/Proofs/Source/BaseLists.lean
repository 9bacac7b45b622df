import TypeAtlas.Proofs.Source.Traversal

/-! # Base lists

A type has a base list exactly if its declaration has one, and every base type stands in
it, in the order of the text.  What else stands in it depends on what may stand between
the types.  In C# comments are passed over and directives are not; in Java comments are
not passed over either.  So the list is one of types alone if nothing of that sort stands
among them, and only then (`Language.base_lists_read`).

A base type may be a node of any kind.  Of the tree nothing is asked but the form of the
declaration's own base list: that there are not two of them, and that what is extended
stands before what is implemented (`Language.BaseListShape`).
-/
namespace TypeAtlas
namespace Source

/-! ### What belongs to a base list -/

namespace Language

/-- The declaration has a base list. -/
def HasBaseList : Language → Node → Prop
  | csharp, n => ∃ c ∈ n.children, c.kind = .baseList
  | java, n => ∃ c ∈ n.children, c.kind = .superclass ∨ c.kind = .superInterfaces

/-- The nodes that have base types for children.  In Java the type that is extended comes before
those that are implemented. -/
def baseParts : Language → Node → List Node
  | csharp, n => n.childrenOf .baseList
  | java, n =>
    n.childrenOf .superclass ++
      (n.childrenOf .superInterfaces).flatMap fun clause => clause.childrenOf .typeList

/-- The base list has the form that the syntax gives it: in C# there is one at most, and in Java
what is extended stands before what is implemented. -/
def BaseListShape : Language → Node → Prop
  | csharp, n => (n.childrenOf .baseList).length ≤ 1
  | java, n => n.children.Pairwise fun a b => a.kind = .superInterfaces → b.kind ≠ .superclass

/-- Everything that stands in the base list, in the order of the text. -/
def baseNodes (l : Language) (n : Node) : List Node :=
  (l.baseParts n).flatMap Node.children

/-- The kind of a base type: that of any named node but a remark, an error and what a base is
given. -/
def isBaseType (k : Kind) : Bool :=
  k.isNamed && k.isSolid && k != .error && k != .argumentList

/-- The base types. -/
def baseTypes (l : Language) (n : Node) : List Node :=
  (l.baseNodes n).filter fun c => isBaseType c.kind

/-- What a language does not pass over in a base list, although it is no type. -/
def isStray : Language → Kind → Bool
  | csharp, k => k = .directive || k = .error
  | java, k => k = .comment || k = .directive || k = .error || k = .argumentList

/-- The strays in the base list. -/
def baseStrays (l : Language) (n : Node) : List Node :=
  (l.baseNodes n).filter fun c => l.isStray c.kind

/-- The node is a base type or a stray. -/
def isEntry (l : Language) (c : Node) : Bool :=
  isBaseType c.kind || l.isStray c.kind

/-- The base types and the strays between them. -/
def baseEntries (l : Language) (n : Node) : List Node :=
  (l.baseNodes n).filter l.isEntry

theorem not_isBaseType_of_isStray {l : Language} {k : Kind} (h : l.isStray k = true) :
    isBaseType k = false := by
  cases l <;> cases k <;> first | rfl | cases h

/-- The entries are the types alone if there is no stray, and only then. -/
theorem baseEntries_eq_iff {α : Type} (l : Language) (n : Node) (f : Node → α) :
    (l.baseEntries n).map f = (l.baseTypes n).map f ↔ l.baseStrays n = [] := by
  have htypes : l.baseTypes n = (l.baseEntries n).filter fun c => isBaseType c.kind := by
    rw [baseTypes, baseEntries, List.filter_filter]
    refine List.filter_congr fun c _ => ?_
    rw [isEntry]
    cases isBaseType c.kind <;> rfl
  constructor
  · intro h
    have hlength : (l.baseTypes n).length = (l.baseEntries n).length := by
      rw [← List.length_map f, ← h, List.length_map]
    rw [htypes, List.length_filter_eq_length_iff] at hlength
    refine List.filter_eq_nil_iff.mpr fun c hc hstray => ?_
    have hentry : c ∈ l.baseEntries n :=
      List.mem_filter.mpr ⟨hc, by rw [isEntry, hstray, Bool.or_true]⟩
    have htype := hlength c hentry
    rw [not_isBaseType_of_isStray hstray] at htype
    cases htype
  · intro h
    refine congrArg (List.map f) (List.filter_congr fun c hc => ?_)
    have hnone : l.isStray c.kind = false := by simpa using List.filter_eq_nil_iff.mp h c hc
    rw [isEntry, hnone, Bool.or_false]

end Language

/-! ### Reading a base list -/

namespace CSharp

/-- The entries of a base list are the types and the strays in it. -/
theorem filter_isBase (list : Node) :
    list.namedChildren.filter isBase = list.children.filter Language.csharp.isEntry := by
  have hkind : ∀ k : Kind, ((k != .argumentList && k != .comment) && k.isNamed) =
      (Language.isBaseType k || Language.csharp.isStray k) := by
    intro k
    cases k <;> rfl
  rw [Node.namedChildren, List.filter_filter]
  exact List.filter_congr fun c _ => hkind c.kind

/-- A base list is read as its entries. -/
theorem bases?_eq {n : Node} (p : Parsed) (h : Language.csharp.BaseListShape n) :
    (bases? p n = none ∧ ¬ Language.csharp.HasBaseList n) ∨
      (bases? p n = some ((Language.csharp.baseEntries n).map (Node.text p.source)) ∧
        Language.csharp.HasBaseList n) := by
  cases hlist : n.childOf? .baseList with
  | none =>
    refine Or.inl ⟨by rw [bases?, hlist]; rfl, ?_⟩
    rintro ⟨c, hc, hk⟩
    exact List.find?_eq_none.mp hlist c hc (decide_eq_true hk)
  | some list =>
    obtain ⟨hmem, hkind⟩ := Node.of_childOf? hlist
    have hnodes : Language.csharp.baseNodes n = list.children := by
      change (n.childrenOf .baseList).flatMap Node.children = _
      rw [Node.childrenOf_eq_toList h, hlist]
      exact List.flatMap_singleton _ _
    refine Or.inr ⟨?_, list, hmem, hkind⟩
    rw [bases?, hlist, Option.map_some, filter_isBase, Language.baseEntries, hnodes]

end CSharp

namespace Java

/-- In a clause of a base list, all that is no keyword and no symbol is an entry. -/
theorem namedChildren_eq (part : Node) :
    part.namedChildren = part.children.filter Language.java.isEntry := by
  have hkind : ∀ k : Kind, k.isNamed = (Language.isBaseType k || Language.java.isStray k) := by
    intro k
    cases k <;> rfl
  exact List.filter_congr fun c _ => hkind c.kind

/-- What is extended comes before what is implemented. -/
theorem filter_isBaseClause {cs : List Node}
    (h : cs.Pairwise fun a b => a.kind = .superInterfaces → b.kind ≠ .superclass) :
    cs.filter isBaseClause =
      cs.filter (fun c => decide (c.kind = .superclass)) ++
        cs.filter fun c => decide (c.kind = .superInterfaces) := by
  induction cs with
  | nil => rfl
  | cons c cs ih =>
    obtain ⟨hc, hcs⟩ := List.pairwise_cons.mp h
    by_cases hextends : c.kind = .superclass
    · have hclause : isBaseClause c = true := by rw [isBaseClause, hextends]; rfl
      rw [List.filter_cons_of_pos hclause, List.filter_cons_of_pos (by simpa using hextends),
        List.filter_cons_of_neg (by simp [hextends]), ih hcs]
      rfl
    · by_cases himplements : c.kind = .superInterfaces
      · have hclause : isBaseClause c = true := by rw [isBaseClause, himplements]; rfl
        have hnone : cs.filter (fun c => decide (c.kind = .superclass)) = [] :=
          List.filter_eq_nil_iff.mpr fun d hd => by simpa using hc d hd himplements
        rw [List.filter_cons_of_pos hclause, List.filter_cons_of_neg (by simpa using hextends),
          List.filter_cons_of_pos (by simpa using himplements), ih hcs, hnone]
        rfl
      · have hclause : isBaseClause c = false := by simp [isBaseClause, hextends, himplements]
        rw [List.filter_cons_of_neg (by simp [hclause]),
          List.filter_cons_of_neg (by simpa using hextends),
          List.filter_cons_of_neg (by simpa using himplements), ih hcs]

theorem clauseBases_of_superclass {p : Parsed} {clause : Node} (hk : clause.kind = .superclass) :
    clauseBases p clause =
      (clause.children.filter Language.java.isEntry).map (Node.text p.source) := by
  rw [clauseBases, if_pos hk, namedChildren_eq]

theorem clauseBases_of_superInterfaces {p : Parsed} {clause : Node}
    (hk : clause.kind = .superInterfaces) :
    clauseBases p clause =
      (((clause.childrenOf .typeList).flatMap Node.children).filter Language.java.isEntry).map
        (Node.text p.source) := by
  have hne : ¬ clause.kind = .superclass := by
    rw [hk]
    exact nofun
  rw [clauseBases, if_neg hne, List.filter_flatMap, List.map_flatMap]
  exact List.flatMap_congr fun list _ => by rw [namedChildren_eq]

/-- The clauses of a base list, one after another, give its entries. -/
theorem flatMap_clauseBases {n : Node} (p : Parsed) (h : Language.java.BaseListShape n) :
    (n.children.filter isBaseClause).flatMap (clauseBases p) =
      (Language.java.baseEntries n).map (Node.text p.source) := by
  have hclauses : n.children.filter isBaseClause =
      n.childrenOf .superclass ++ n.childrenOf .superInterfaces :=
    filter_isBaseClause h
  have hextends : (n.childrenOf .superclass).flatMap (clauseBases p) =
      (((n.childrenOf .superclass).flatMap Node.children).filter Language.java.isEntry).map
        (Node.text p.source) := by
    rw [List.filter_flatMap, List.map_flatMap]
    refine List.flatMap_congr fun clause hclause => ?_
    exact clauseBases_of_superclass (of_decide_eq_true (List.mem_filter.mp hclause).2)
  have himplements : (n.childrenOf .superInterfaces).flatMap (clauseBases p) =
      ((((n.childrenOf .superInterfaces).flatMap (·.childrenOf .typeList)).flatMap
        Node.children).filter Language.java.isEntry).map (Node.text p.source) := by
    rw [List.flatMap_assoc, List.filter_flatMap, List.map_flatMap]
    refine List.flatMap_congr fun clause hclause => ?_
    exact clauseBases_of_superInterfaces (of_decide_eq_true (List.mem_filter.mp hclause).2)
  rw [hclauses, List.flatMap_append, hextends, himplements, ← List.map_append,
    ← List.filter_append, ← List.flatMap_append]
  rfl

/-- A base list is read as its entries. -/
theorem bases?_eq {n : Node} (p : Parsed) (h : Language.java.BaseListShape n) :
    (bases? p n = none ∧ ¬ Language.java.HasBaseList n) ∨
      (bases? p n = some ((Language.java.baseEntries n).map (Node.text p.source)) ∧
        Language.java.HasBaseList n) := by
  have hbase : (∃ c ∈ n.children, isBaseClause c = true) ↔ Language.java.HasBaseList n := by
    simp [Language.HasBaseList, isBaseClause]
  rw [← hbase, bases?]
  by_cases hempty : (n.children.filter isBaseClause).isEmpty = true
  · refine Or.inl ⟨if_pos hempty, ?_⟩
    rintro ⟨c, hc, hclause⟩
    exact List.filter_eq_nil_iff.mp (List.isEmpty_iff.mp hempty) c hc hclause
  · refine Or.inr ⟨by rw [if_neg hempty, flatMap_clauseBases p h], ?_⟩
    obtain ⟨c, hc⟩ := List.exists_mem_of_ne_nil _ fun he => hempty (List.isEmpty_iff.mpr he)
    exact ⟨c, List.mem_filter.mp hc⟩

end Java

namespace Language

/-- What is recorded as the base list of a declaration. -/
structure ReadsBases (l : Language) (p : Parsed) (n : Node) (bases : Option (List String)) :
    Prop where
  /-- There is a list exactly if the declaration has one. -/
  present : bases.isSome = true ↔ l.HasBaseList n
  /-- It is that of the base types, each as it is written, with the strays where they stand. -/
  entries : ∀ bs ∈ bases, bs = (l.baseEntries n).map (Node.text p.source)
  /-- It is that of the base types alone exactly if there are no strays. -/
  types_iff : ∀ bs ∈ bases, bs = (l.baseTypes n).map (Node.text p.source) ↔ l.baseStrays n = []

theorem readsBases (l : Language) (p : Parsed) {n : Node} (h : l.BaseListShape n) :
    l.ReadsBases p n (l.dialect.bases? p n) := by
  have heq : (l.dialect.bases? p n = none ∧ ¬ l.HasBaseList n) ∨
      (l.dialect.bases? p n = some ((l.baseEntries n).map (Node.text p.source)) ∧
        l.HasBaseList n) := by
    cases l with
    | csharp => exact CSharp.bases?_eq p h
    | java => exact Java.bases?_eq p h
  rcases heq with ⟨hnone, hlist⟩ | ⟨hsome, hlist⟩
  · rw [hnone]
    exact ⟨iff_of_false nofun hlist, nofun, nofun⟩
  · rw [hsome]
    refine ⟨iff_of_true rfl hlist, ?_, ?_⟩
    · rintro bs ⟨⟩
      rfl
    · rintro bs ⟨⟩
      exact l.baseEntries_eq_iff n (Node.text p.source)

/-- The base lists of parsed texts have the form that the syntax gives them. -/
theorem baseListShape_parse (l : Language) {source : List Char} {x : TypeKind × Node × List Node}
    (hx : x ∈ declaringNodes (l.parse source).root) : l.BaseListShape x.2.1 := by
  have hkept := (l.regular_parse source).typePromises hx
  simp only [typePromises, List.forall_mem_cons] at hkept
  obtain ⟨-, honce, horder, -⟩ := hkept
  cases l with
  | csharp => exact Node.length_childrenOf_le_one honce
  | java => exact horder.imp fun hab ha => of_decide_eq_false (hab (decide_eq_true ha))

/-- **Base lists.**  In any tree of either language, a declaring node that has a name and of which
the base list has the form of one gives its type, and the type has a base list exactly if the node
has one: that of the base types as they are written, in the order of the text, if nothing that the
language does not pass over stands among them, and otherwise that of the base types with these
strays.  In C# comments are never among them.  In a tree that is read from a text, all declaring
nodes give their types in this way. -/
theorem base_lists_read (l : Language) :
    (∀ (p : Parsed) (path : String), ∀ x ∈ declaringNodes p.root,
      (∃ m, x.2.1.child? .name = some m) → l.BaseListShape x.2.1 →
        l.Gives p path (fun n r => l.ReadsBases p n r.bases) x) ∧
    ∀ source path : String,
      l.Declares (l.parse source.toList)
        (fun n r => l.ReadsBases (l.parse source.toList) n r.bases)
        (extract l source path).types := by
  have hall : ∀ (p : Parsed) (path : String), ∀ x ∈ declaringNodes p.root,
      (∃ m, x.2.1.child? .name = some m) → l.BaseListShape x.2.1 →
        l.Gives p path (fun n r => l.ReadsBases p n r.bases) x := by
    intro p path x hx hname hshape
    refine l.gives path hx hname fun r hbases _ => ?_
    rw [hbases]
    exact l.readsBases p hshape
  exact ⟨hall, fun source path => declares_of_gives fun x hx =>
    hall _ path x hx ((l.named_parse _).exists_name hx) (l.baseListShape_parse hx)⟩

/-- In C# comments stand between the base types without a trace. -/
theorem base_lists_read_commented :
    let p := Language.csharp.parse "class A:/**/B,/**/C<D>{}".toList
    ((CSharp.dialect.declarations p "A.cs").map fun d => d.record.bases) = [some ["B", "C<D>"]] ∧
      ∃ x ∈ declaringNodes p.root, (∃ m, x.2.1.child? .name = some m) ∧
        Language.csharp.BaseListShape x.2.1 ∧
        Language.csharp.Gives p "A.cs" (fun n r => Language.csharp.ReadsBases p n r.bases) x := by
  intro p
  have hsome : 0 < (declaringNodes p.root).length := by decide +kernel
  obtain ⟨x, hx⟩ := List.exists_mem_of_length_pos hsome
  have hname := (Language.csharp.named_parse _).exists_name hx
  have hshape := Language.csharp.baseListShape_parse hx
  exact ⟨by decide +kernel, x, hx, hname, hshape,
    (base_lists_read .csharp).1 p "A.cs" x hx hname hshape⟩

/-- In Java a comment becomes an entry of the base list. -/
theorem comment_in_base_list :
    let p := Language.java.parse "class A extends/**/B{}".toList
    p.root.hasError = false ∧
      ((declaringNodes p.root).map fun x => (Language.java.baseTypes x.2.1).map
        (Node.text p.source)) = [["B"]] ∧
      ((extract .java "class A extends/**/B{}" "A.java").types.map fun d => d.record.bases) =
        [some ["/**/", "B"]] := by
  decide +kernel

end Language

end Source
end TypeAtlas
