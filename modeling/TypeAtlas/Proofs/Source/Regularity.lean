import TypeAtlas.Proofs.Source.Building

/-! # Regular trees

What stands below a node is not arbitrary: a type, a namespace and a method have a name,
a method has one parameter list.  `Kind.promises` lists what the node rules of both
grammars guarantee, kind by kind, and a tree is regular if every node keeps the promises
of its kind (`Node.Regular`).  The promises are stated as tests on rules too, and all node
rules pass them.  Hence every parsed tree is regular, with or without errors
(`Language.regular_parse`).

What is said of arbitrary trees does not ask for regular ones.  Each such statement has a
shape of its own, of the names, the base list or the parameter list that it is about, and
a regular tree has all of these shapes.
-/
namespace TypeAtlas
namespace Source

/-! ### Promises -/

/-- A statement about the children of a node. -/
inductive Promise where
  /-- Some child passes the test. -/
  | has (test : NodeTest)
  /-- No child passes the test. -/
  | lacks (test : NodeTest)
  /-- No child that passes the first test stands before one that passes the second. -/
  | orders (test test' : NodeTest)

namespace Promise

/-- The children are as promised. -/
def Holds (cs : List Node) : Promise → Prop
  | has test => ∃ c ∈ cs, c.passes test = true
  | lacks test => ∀ c ∈ cs, c.passes test = false
  | orders test test' => cs.Pairwise fun a b => a.passes test = true → b.passes test' = false

/-- The yield of a part keeps the promise, as far as its rule tells. -/
def keptBy {ν : Type} (g : Grammar ν) (depth : Nat) (p : Rule ν) : Promise → Bool
  | has test => p.meets g test depth
  | lacks test => test.sparesExtras && p.avoids g test depth
  | orders test test' =>
    test.sparesExtras && test'.sparesExtras && p.apart g test test' depth

/-- **A promise that the rule keeps holds of the children of every node that is built by it.** -/
theorem holds_of_keptBy {ν : Type} {g : Grammar ν} {depth : Nat} {p : Rule ν}
    {ts rest : List Token} {out : List Node} {q : Promise} (h : Reads g p ts out rest)
    (hextras : ∀ m ∈ out, m.isExtra = true → m.role = none) (hq : q.keptBy g depth p = true) :
    q.Holds (out.dropWhile Node.isExtra) := by
  have hsubset : out.dropWhile Node.isExtra ⊆ out := List.dropWhile_subset _
  cases q with
  | has test =>
    obtain ⟨m, hm, hsolid, hpasses⟩ := h.exists_of_meets depth hq
    refine ⟨m, ?_, hpasses⟩
    rw [← List.takeWhile_append_dropWhile (p := Node.isExtra) (l := out)] at hm
    rcases List.mem_append.mp hm with hm | hm
    · rw [List.mem_takeWhile_imp hm] at hsolid
      cases hsolid
    · exact hm
  | lacks test =>
    obtain ⟨hspares, hq⟩ := Bool.and_eq_true_iff.mp hq
    intro c hc
    by_cases hextra : c.isExtra = true
    · exact Node.passes_of_isExtra hspares hextra (hextras c (hsubset hc) hextra)
    · exact h.not_passes_of_avoids depth hq c (hsubset hc) (Bool.not_eq_true _ ▸ hextra)
  | orders test test' =>
    obtain ⟨hspares, hq⟩ := Bool.and_eq_true_iff.mp hq
    obtain ⟨hspares, hspares'⟩ := Bool.and_eq_true_iff.mp hspares
    refine ((h.pairwise_of_apart depth hq).sublist (List.dropWhile_sublist _)).imp_of_mem ?_
    intro a b ha hb hab hpasses
    by_cases hextra : a.isExtra = true
    · rw [Node.passes_of_isExtra hspares hextra (hextras a (hsubset ha) hextra)] at hpasses
      cases hpasses
    · by_cases hextra' : b.isExtra = true
      · exact Node.passes_of_isExtra hspares' hextra' (hextras b (hsubset hb) hextra')
      · exact hab (Bool.not_eq_true _ ▸ hextra) (Bool.not_eq_true _ ▸ hextra') hpasses

end Promise

/-! ### What the kinds of nodes promise -/

namespace NodeTest

/-- The node is in a role. -/
def inRole (r : Role) : NodeTest :=
  fun _ r' => decide (r' = some r)

/-- The node is of a kind. -/
def ofKind (k : Kind) : NodeTest :=
  fun k' _ => decide (k' = k)

/-- The node can name a package. -/
def isName : NodeTest :=
  fun k _ => decide (k = .qualifiedName) || decide (k = .identifier)

/-- The node is of the kind without being in the role, or the other way round. -/
def mismatch (k : Kind) (r : Role) : NodeTest :=
  fun k' r' => decide (k' = k) != decide (r' = some r)

end NodeTest

open Promise NodeTest in
/-- What is promised of the children of a node that declares a type: it has a name, at most one
base list and at most one member list, which is its body, and what it extends stands before
what it implements. -/
def typePromises : List Promise :=
  [has (inRole .name),
    orders (ofKind .baseList) (ofKind .baseList),
    orders (ofKind .superInterfaces) (ofKind .superclass),
    orders (ofKind .memberList) (ofKind .memberList),
    lacks (mismatch .memberList .body)]

open Promise NodeTest in
/-- What is promised of the children of a node of a kind. -/
def Kind.promises : Kind → List Promise
  | classDeclaration | interfaceDeclaration | structDeclaration => typePromises
  | namespaceBlock | namespaceLine | parameter | declarator => [has (inRole .name)]
  | restParameter => [has (ofKind .declarator)]
  | packageLine => [has isName]
  | methodDeclaration =>
    [has (inRole .name),
      has (ofKind .parameterList),
      orders (ofKind .parameterList) (ofKind .parameterList),
      lacks (mismatch .parameterList .parameters)]
  | _ => []

theorem Kind.promises_of_declares {k : Kind} (h : declaredKind? k ≠ none) :
    k.promises = typePromises := by
  cases k <;> first | rfl | exact absurd rfl h

theorem Kind.promises_of_isLeaf {k : Kind} (h : k.isLeaf = true) : k.promises = [] := by
  cases k <;> first | rfl | cases h

/-- The parts of node rules give roles as the whole rule does. -/
theorem Rule.rolesSole_of_mem_nodes {ν : Type} {g : Grammar ν} {n : Nat} {r : Rule ν}
    {x : Kind × Rule ν} (hr : r.rolesSole g n = true) (hx : x ∈ r.nodes) :
    x.2.rolesSole g n = true := by
  induction r with
  | seq p q ihp ihq | alt p q ihp ihq =>
    obtain ⟨hp, hq⟩ := Bool.and_eq_true_iff.mp hr
    rcases List.mem_append.mp hx with hx | hx
    · exact ihp hp hx
    · exact ihq hq hx
  | many p ih | mend p ih => exact ih hr hx
  | node k p ih =>
    rcases List.mem_cons.mp hx with rfl | hx
    · exact hr
    · exact ih hr hx
  | role ro p ih => exact ih (Bool.and_eq_true_iff.mp hr).1 hx
  | _ => cases hx

/-- How deep the tests look into named parts. -/
def Rule.testDepth : Nat :=
  40

/-- The node rules of the grammar keep the promises of their kinds. -/
structure Grammar.Keeps {ν : Type} (g : Grammar ν) : Prop where
  roles : ∀ name, (g.rule name).rolesSole g Rule.testDepth = true
  promises : ∀ name, ((g.rule name).nodes.all fun x =>
    x.1.promises.all (Promise.keptBy g Rule.testDepth x.2)) = true

theorem CSharp.keeps : CSharp.grammar.Keeps where
  roles name := by cases name <;> decide +kernel
  promises name := by cases name <;> decide +kernel

theorem Java.keeps : Java.grammar.Keeps where
  roles name := by cases name <;> decide +kernel
  promises name := by cases name <;> decide +kernel

/-! ### Regular trees -/

namespace Node

/-- Every node of the tree keeps the promises of its kind. -/
inductive Regular : Node → Prop where
  | mk {k : Kind} {r : Option Role} {a b : Nat} {cs : List Node} (hcs : ∀ c ∈ cs, Regular c)
      (hkept : ∀ q ∈ k.promises, q.Holds cs) : Regular (.mk k r a b cs)

namespace Regular
variable {n m : Node}

theorem children (h : n.Regular) : ∀ c ∈ n.children, c.Regular := by
  cases h with
  | mk hcs _ => exact hcs

theorem holds (h : n.Regular) {q : Promise} (hq : q ∈ n.kind.promises) : q.Holds n.children := by
  cases h with
  | mk _ hkept => exact hkept q hq

/-- A walk over a regular tree meets regular nodes only. -/
theorem of_mem_walk {above : List Node} {x : Node × List Node} (h : n.Regular)
    (hx : x ∈ n.walk above) : x.1.Regular :=
  Node.of_mem_walk (fun _ hm => hm.children) h hx

end Regular

theorem BuiltBy.regular {ν : Type} {g : Grammar ν} (hg : g.Keeps) {n : Node} (h : n.BuiltBy g) :
    n.Regular := by
  induction h with
  | leaf hk =>
    refine .mk (fun c hc => absurd hc List.not_mem_nil) fun q hq => ?_
    rw [Kind.promises_of_isLeaf hk] at hq
    cases hq
  | @node k p r a b ts rest out hrule hp hcs ih =>
    refine .mk ih fun q hq => ?_
    obtain ⟨name, hname⟩ := hrule
    have hkept := List.all_eq_true.mp (List.all_eq_true.mp (hg.promises name) _ hname) q hq
    have hroles := Rule.rolesSole_of_mem_nodes (hg.roles name) hname
    exact Promise.holds_of_keptBy hp (hp.role_of_isExtra hg.roles hroles) hkept

end Node

/-- The tree of a token list is regular. -/
theorem Grammar.Keeps.regular_tree {ν : Type} {g : Grammar ν} (hg : g.Keeps) (length : Nat)
    (ts : List Token) : (g.tree length ts).Regular := by
  have hroot : ∀ {out : List Node}, (∀ m ∈ out, m.Regular) →
      (Node.mk .unit none 0 length out).Regular := fun hout =>
    .mk hout fun q hq => absurd hq List.not_mem_nil
  have hread : ∀ {mending : Bool} {n : Nat} {out : List Node} {rest : List Token},
      (g.rule g.start).read g mending n ts = some (out, rest) → ∀ m ∈ out, m.Regular := by
    intro mending n out rest h m hm
    exact ((Rule.reads_of_read n h).builtBy (fun x hx => ⟨_, hx⟩) m hm).regular hg
  rw [tree]
  split
  · rename_i h
    exact hroot (hread h)
  · split
    · rename_i h
      exact hroot (hread h)
    · refine hroot fun m hm => ?_
      rw [List.mem_singleton.mp hm]
      exact .mk (fun c hc => absurd hc List.not_mem_nil) fun q hq => absurd hq List.not_mem_nil

/-- **Parsed trees are regular**, whatever the text. -/
theorem Language.regular_parse (l : Language) (source : List Char) :
    (l.parse source).root.Regular := by
  cases l with
  | csharp => exact CSharp.keeps.regular_tree _ _
  | java => exact Java.keeps.regular_tree _ _

/-! ### Children of regular nodes -/

namespace Node
variable {n : Node} {k : Kind} {r : Role}

theorem of_childOf? {m : Node} (h : n.childOf? k = some m) : m ∈ n.children ∧ m.kind = k := by
  have hkind := List.find?_some h
  exact ⟨List.mem_of_find?_eq_some h, of_decide_eq_true hkind⟩

/-- Where a child is promised, one is found. -/
theorem exists_find? (test : NodeTest) {cs : List Node} (h : (Promise.has test).Holds cs) :
    ∃ m, cs.find? (·.passes test) = some m := by
  obtain ⟨c, hc, hpasses⟩ := h
  exact Option.isSome_iff_exists.mp (List.find?_isSome.mpr ⟨c, hc, hpasses⟩)

theorem exists_child? (h : (Promise.has (.inRole r)).Holds n.children) :
    ∃ m, n.child? r = some m :=
  exists_find? _ h

theorem exists_childOf? (h : (Promise.has (.ofKind k)).Holds n.children) :
    ∃ m, n.childOf? k = some m :=
  exists_find? _ h

/-- Where a role and a kind go together, they tell the same child. -/
theorem child?_eq_childOf? (h : (Promise.lacks (.mismatch k r)).Holds n.children) :
    n.child? r = n.childOf? k := by
  unfold child? childOf?
  rw [← List.head?_filter, ← List.head?_filter]
  refine congrArg List.head? (List.filter_congr fun c hc => ?_)
  have hagree := h c hc
  rw [passes, NodeTest.mismatch, bne_eq_false_iff_eq] at hagree
  exact hagree.symm

/-- A kind of which no child stands before another one does not come twice. -/
theorem length_childrenOf_le_one
    (h : (Promise.orders (.ofKind k) (.ofKind k)).Holds n.children) :
    (n.childrenOf k).length ≤ 1 := by
  have hpair := List.Pairwise.sublist (List.filter_sublist (p := fun c => decide (c.kind = k))) h
  have hkind : ∀ c ∈ n.childrenOf k, c.passes (.ofKind k) = true := fun c hc =>
    (List.mem_filter.mp hc).2
  change (n.childrenOf k).Pairwise _ at hpair
  match hfound : n.childrenOf k with
  | [] => exact Nat.zero_le 1
  | [c] => exact le_rfl
  | c :: d :: cs =>
    rw [hfound] at hpair hkind
    have hd := List.rel_of_pairwise_cons hpair List.mem_cons_self (hkind c List.mem_cons_self)
    rw [hkind d (List.mem_cons_of_mem c List.mem_cons_self)] at hd
    cases hd

/-- Of a kind that does not come twice, the first child is the only one. -/
theorem childrenOf_eq_toList (h : (n.childrenOf k).length ≤ 1) :
    n.childrenOf k = (n.childOf? k).toList := by
  have hhead : (n.childrenOf k).head? = n.childOf? k := List.head?_filter
  rw [← hhead]
  match n.childrenOf k, h with
  | [], _ => rfl
  | [_], _ => rfl

end Node

end Source
end TypeAtlas
