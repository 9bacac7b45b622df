import TypeAtlas.Proofs.Source.Traversal

/-! # Parameters

A type has its methods one for one, and a method has the parameters that stand in its
parameter list as ordinary ones, one for one, in the order of the text.  These are all that
are declared unless the list ends with a parameter that takes any number of values, which
is lost, or begins with an annotated receiver, which reads like an ordinary parameter and
is kept (`Language.parameters_read`).

A parameter stands in its list in one of three forms (`Node.parameterName?`): as a node
with a name, as a node around a declarator that has the name, or, in C#, without a node of
its own, so that its name is a child of the list.  Of the tree nothing is asked but that
the type has one member list and its methods have names (`Node.MemberShape`), and, for
each method on its own, that it has one parameter list and that the parameters in it have
names (`Node.ParameterShape`).
-/
namespace TypeAtlas
namespace Source

/-! ### What is declared -/

namespace Node

/-- The methods of a type. -/
def methodNodes (n : Node) : List Node :=
  (n.childrenOf .memberList).flatMap fun list => list.childrenOf .methodDeclaration

/-- Everything that stands in the parameter list of a method. -/
def parameterParts (method : Node) : List Node :=
  (method.childrenOf .parameterList).flatMap children

/-- The parameters that take one value each. -/
def ordinaryParameters (method : Node) : List Node :=
  method.parameterParts.filter fun c => decide (c.kind = .parameter)

/-- The name of the parameter that a part of a parameter list declares.  The name of a parameter
without a node of its own declares it itself. -/
def parameterName? (c : Node) : Option Node :=
  match c.kind with
  | .parameter => c.child? .name
  | .restParameter => (c.childOf? .declarator).bind fun d => d.child? .name
  | _ => if c.role = some .name then some c else none

/-- The part of a parameter list gives a recorded parameter its name, as it is written. -/
def Names (p : Parsed) (c : Node) (q : Parameter) : Prop :=
  ∃ m, c.parameterName? = some m ∧ q.name = m.text p.source

/-- The members of a type are where the syntax puts them: in one list, which is the body of the
type.  The methods have names. -/
structure MemberShape (n : Node) : Prop where
  once : (n.childrenOf .memberList).length ≤ 1
  body : n.child? .body = n.childOf? .memberList
  named : ∀ method ∈ n.methodNodes, ∃ m, method.child? .name = some m

/-- The parameters of a method are where the syntax puts them: in one list, which is in its role.
They have names. -/
structure ParameterShape (method : Node) : Prop where
  list : ∃ list, method.child? .parameters = some list ∧ method.childrenOf .parameterList = [list]
  named : ∀ c ∈ method.parameterParts, c.kind = .parameter ∨ c.kind = .restParameter →
    ∃ m, c.parameterName? = some m

end Node

namespace Language

/-- The name of a parameter that is none: in Java that of the value a method is called on. -/
def receives : Language → String → Bool
  | csharp, _ => false
  | java, name => name == "this"

/-- The part of a parameter list names the value that a method is called on. -/
def isReceiver (l : Language) (p : Parsed) (c : Node) : Bool :=
  c.parameterName?.any fun m => l.receives (m.text p.source)

/-- The declared parameters: all parts of the parameter list that have the name of one, apart from
receivers. -/
def declaredParameters (l : Language) (p : Parsed) (method : Node) : List Node :=
  method.parameterParts.filter fun c => c.parameterName?.isSome && !l.isReceiver p c

/-- What is recorded of a method and its parameters. -/
structure ReadsMethod (l : Language) (p : Parsed) (method : Node) (r : Method) : Prop where
  name : ∃ m, method.child? .name = some m ∧ r.name = m.text p.source
  /-- The ordinary parameters are recorded one for one, with their names and types. -/
  ordinary : List.Forall₂ (fun c q => c.Names p q ∧
      q.type = ((c.child? .type).map (Node.text p.source)).getD "")
    method.ordinaryParameters r.parameters
  /-- The declared parameters are recorded one for one exactly if all of them are ordinary ones and
  no ordinary one is a receiver. -/
  exact_iff : List.Forall₂ (Node.Names p) (l.declaredParameters p method) r.parameters ↔
    (∀ c ∈ l.declaredParameters p method, c.kind = .parameter) ∧
      ∀ c ∈ method.ordinaryParameters, l.isReceiver p c = false

end Language

/-! ### Reading a parameter list -/

/-- What is recorded of an ordinary parameter. -/
def parameter? (p : Parsed) (c : Node) : Option Parameter :=
  (c.child? .name).map fun m =>
    { type := ((c.child? .type).map (Node.text p.source)).getD "", name := m.text p.source }

namespace Node
variable {p : Parsed} {method c : Node}

theorem mem_ordinaryParameters :
    c ∈ method.ordinaryParameters ↔ c ∈ method.parameterParts ∧ c.kind = .parameter := by
  rw [ordinaryParameters, List.mem_filter, decide_eq_true_eq]

theorem parameterName?_of_parameter (hk : c.kind = .parameter) :
    c.parameterName? = c.child? .name := by
  rw [parameterName?, hk]

namespace ParameterShape

theorem parametersOf_eq (h : method.ParameterShape) :
    parametersOf p method = method.ordinaryParameters.filterMap (parameter? p) := by
  obtain ⟨list, hlist, hone⟩ := h.list
  have hparts : method.parameterParts = list.children := by
    rw [parameterParts, hone]
    exact List.flatMap_singleton _ _
  rw [parametersOf, hlist, ordinaryParameters, hparts]
  rfl

/-- An ordinary parameter is recorded under its name. -/
theorem exists_parameter? (h : method.ParameterShape) (p : Parsed)
    (hc : c ∈ method.ordinaryParameters) :
    ∃ q, parameter? p c = some q ∧ c.Names p q ∧
      q.type = ((c.child? .type).map (Node.text p.source)).getD "" := by
  obtain ⟨hpart, hk⟩ := mem_ordinaryParameters.mp hc
  obtain ⟨m, hm⟩ := h.named c hpart (Or.inl hk)
  refine ⟨⟨_, m.text p.source⟩, ?_, ⟨m, hm, rfl⟩, rfl⟩
  rw [parameter?, ← parameterName?_of_parameter hk, hm]
  rfl

end ParameterShape

end Node

/-- What corresponds on both sides holds of all entries on one side if it does on the other. -/
theorem forall_mem_iff_of_forall₂ {α β : Type} {R : α → β → Prop} {P : α → Prop} {Q : β → Prop}
    {xs : List α} {ys : List β} (h : List.Forall₂ R xs ys)
    (hR : ∀ x ∈ xs, ∀ y, R x y → (P x ↔ Q y)) : (∀ x ∈ xs, P x) ↔ ∀ y ∈ ys, Q y := by
  induction h with
  | nil => simp
  | cons hxy _ ih =>
    rw [List.forall_mem_cons, List.forall_mem_cons, hR _ List.mem_cons_self _ hxy,
      ih fun x hx => hR x (List.mem_cons_of_mem _ hx)]

namespace Language
variable {l : Language} {p : Parsed} {method c : Node}

theorem mem_declaredParameters :
    c ∈ l.declaredParameters p method ↔
      c ∈ method.parameterParts ∧ (∃ m, c.parameterName? = some m) ∧ l.isReceiver p c = false := by
  rw [declaredParameters, List.mem_filter, Bool.and_eq_true, Option.isSome_iff_exists,
    Bool.not_eq_true']

/-- Whether a part names a receiver is told by the recorded name. -/
theorem isReceiver_eq_receives {q : Parameter} (hq : c.Names p q) :
    l.isReceiver p c = l.receives q.name := by
  obtain ⟨m, hm, hname⟩ := hq
  rw [isReceiver, hm, hname]
  rfl

/-- What is recorded under the names of some parts holds no receiver if the parts do not. -/
theorem forall_isReceiver_iff {cs : List Node} {ps : List Parameter}
    (h : List.Forall₂ (Node.Names p) cs ps) :
    (∀ c ∈ cs, l.isReceiver p c = false) ↔ ∀ q ∈ ps, l.receives q.name = false :=
  forall_mem_iff_of_forall₂ h fun c _ q hq => by rw [isReceiver_eq_receives hq]

/-- The recorded parameters are the declared ones if these are the ordinary ones, and only then. -/
theorem forall₂_declaredParameters_iff {ps : List Parameter} (h : method.ParameterShape)
    (hps : List.Forall₂ (Node.Names p) method.ordinaryParameters ps) :
    List.Forall₂ (Node.Names p) (l.declaredParameters p method) ps ↔
      (∀ c ∈ l.declaredParameters p method, c.kind = .parameter) ∧
        ∀ c ∈ method.ordinaryParameters, l.isReceiver p c = false := by
  -- without a receiver among them, the ordinary parameters are some of the declared ones
  have hfilter : (∀ c ∈ method.ordinaryParameters, l.isReceiver p c = false) →
      method.ordinaryParameters =
        (l.declaredParameters p method).filter fun c => decide (c.kind = .parameter) := by
    intro hnone
    rw [Node.ordinaryParameters, declaredParameters, List.filter_filter]
    refine List.filter_congr fun c hc => ?_
    by_cases hk : c.kind = .parameter
    · obtain ⟨m, hm⟩ := h.named c hc (Or.inl hk)
      rw [hnone c (Node.mem_ordinaryParameters.mpr ⟨hc, hk⟩), hm, decide_eq_true hk]
      rfl
    · rw [decide_eq_false hk, Bool.false_and]
  constructor
  · intro hdeclared
    have hnone : ∀ c ∈ method.ordinaryParameters, l.isReceiver p c = false := by
      rw [forall_isReceiver_iff hps, ← forall_isReceiver_iff hdeclared]
      exact fun c hc => (mem_declaredParameters.mp hc).2.2
    refine ⟨fun c hc => ?_, hnone⟩
    -- counting: a declared parameter that is not ordinary would have no entry left
    have hlength := hps.length_eq.trans hdeclared.length_eq.symm
    rw [hfilter hnone, List.length_filter_eq_length_iff] at hlength
    exact of_decide_eq_true (hlength c hc)
  · rintro ⟨hall, hnone⟩
    rwa [hfilter hnone, List.filter_eq_self.mpr fun c hc => decide_eq_true (hall c hc)] at hps

/-- The parameters of a method are read as they are declared. -/
theorem readsMethod {r : Method} (h : method.ParameterShape)
    (hname : ∃ m, method.child? .name = some m ∧ r.name = m.text p.source)
    (hr : r.parameters = parametersOf p method) : l.ReadsMethod p method r := by
  have hordinary : List.Forall₂ (fun c q => c.Names p q ∧
      q.type = ((c.child? .type).map (Node.text p.source)).getD "")
      method.ordinaryParameters r.parameters := by
    rw [hr, h.parametersOf_eq]
    exact forall₂_filterMap fun c hc => h.exists_parameter? p hc
  exact ⟨hname, hordinary,
    forall₂_declaredParameters_iff h (hordinary.imp fun _ _ hq => hq.1)⟩

end Language

/-! ### The methods of a type -/

namespace Node.MemberShape
variable {n : Node}

/-- The methods are the direct members of their kind. -/
theorem methodNodes_eq (h : n.MemberShape) :
    n.methodNodes =
      ((n.childOf? .memberList).map fun b => b.childrenOf .methodDeclaration).getD [] := by
  rw [methodNodes, childrenOf_eq_toList h.once]
  cases n.childOf? .memberList with
  | none => rfl
  | some list => exact List.flatMap_singleton _ _

theorem csharp_members (h : n.MemberShape) :
    CSharp.members n .methodDeclaration = n.methodNodes := by
  have hlist : CSharp.memberList? n = n.childOf? .memberList := by
    rw [CSharp.memberList?, h.body]
    cases hlist : n.childOf? .memberList with
    | none => rfl
    | some list => simp [Option.filter, (of_childOf? hlist).2]
  rw [CSharp.members, hlist, h.methodNodes_eq]

theorem java_members (h : n.MemberShape) : Java.members n .methodDeclaration = n.methodNodes := by
  rw [Java.members, h.body, h.methodNodes_eq]

end Node.MemberShape

namespace Language

/-- The methods of a type are read one for one. -/
theorem forall₂_methods (l : Language) (p : Parsed) {n : Node} (h : n.MemberShape) :
    List.Forall₂ (fun method r => method.ParameterShape → l.ReadsMethod p method r)
      n.methodNodes (l.dialect.methods p n) := by
  cases l with
  | csharp =>
    change List.Forall₂ _ _ (CSharp.methods p n)
    rw [CSharp.methods, h.csharp_members]
    refine forall₂_filterMap fun method hmethod => ?_
    obtain ⟨m, hm⟩ := h.named method hmethod
    refine ⟨_, by rw [CSharp.method?, hm]; rfl, fun hshape => ?_⟩
    exact readsMethod hshape ⟨m, hm, rfl⟩ rfl
  | java =>
    change List.Forall₂ _ _ (Java.methods p n)
    rw [Java.methods, h.java_members]
    refine forall₂_filterMap fun method hmethod => ?_
    obtain ⟨m, hm⟩ := h.named method hmethod
    refine ⟨_, by rw [Java.method?, hm]; rfl, fun hshape => ?_⟩
    exact readsMethod hshape ⟨m, hm, rfl⟩ rfl

end Language

/-! ### Parsed texts -/

namespace Node.Regular
variable {n method c : Node}

theorem of_mem_methodNodes (h : n.Regular) (hmethod : method ∈ n.methodNodes) :
    method.Regular ∧ method.kind = .methodDeclaration := by
  obtain ⟨list, hlist, hmethod⟩ := List.mem_flatMap.mp hmethod
  obtain ⟨hlist, -⟩ := List.mem_filter.mp hlist
  obtain ⟨hmethod, hk⟩ := List.mem_filter.mp hmethod
  exact ⟨(h.children list hlist).children method hmethod, of_decide_eq_true hk⟩

theorem of_mem_parameterParts (h : method.Regular) (hc : c ∈ method.parameterParts) :
    c.Regular := by
  obtain ⟨list, hlist, hc⟩ := List.mem_flatMap.mp hc
  exact (h.children list (List.mem_filter.mp hlist).1).children c hc

/-- Ordinary parameters and those that take any number of values have a name. -/
theorem exists_parameterName? (h : c.Regular) (hk : c.kind = .parameter ∨ c.kind = .restParameter) :
    ∃ m, c.parameterName? = some m := by
  have hkept : ∀ q ∈ c.kind.promises, q.Holds c.children := fun q hq => h.holds hq
  rcases hk with hk | hk
  · rw [hk] at hkept
    rw [parameterName?_of_parameter hk]
    exact exists_child? (hkept _ List.mem_cons_self)
  · rw [hk] at hkept
    obtain ⟨d, hd⟩ := exists_childOf? (hkept _ List.mem_cons_self)
    obtain ⟨hmem, hkind⟩ := of_childOf? hd
    have hname : (Promise.has (.inRole .name)).Holds d.children := by
      refine (h.children d hmem).holds ?_
      rw [hkind]
      exact List.mem_cons_self
    obtain ⟨m, hm⟩ := exists_child? hname
    refine ⟨m, ?_⟩
    rw [parameterName?, hk, hd]
    exact hm

theorem parameterShape (h : method.Regular) (hk : method.kind = .methodDeclaration) :
    method.ParameterShape := by
  have hkept : ∀ q ∈ method.kind.promises, q.Holds method.children := fun q hq => h.holds hq
  rw [hk] at hkept
  simp only [Kind.promises, List.forall_mem_cons] at hkept
  obtain ⟨-, hlist, honce, hmatch, -⟩ := hkept
  obtain ⟨list, hlist⟩ := exists_childOf? hlist
  refine ⟨⟨list, ?_, ?_⟩, fun c hc hk => ?_⟩
  · rw [child?_eq_childOf? hmatch, hlist]
  · rw [childrenOf_eq_toList (length_childrenOf_le_one honce), hlist]
    rfl
  · exact (h.of_mem_parameterParts hc).exists_parameterName? hk

end Node.Regular

namespace Language

/-- The types of parsed texts have their members where the syntax puts them. -/
theorem memberShape_parse (l : Language) {source : List Char} {x : TypeKind × Node × List Node}
    (hx : x ∈ declaringNodes (l.parse source).root) : x.2.1.MemberShape := by
  have hregular := l.regular_parse source
  have hkept := hregular.typePromises hx
  simp only [typePromises, List.forall_mem_cons] at hkept
  obtain ⟨-, -, -, honce, hbody, -⟩ := hkept
  refine ⟨Node.length_childrenOf_le_one honce, Node.child?_eq_childOf? hbody, fun method hm => ?_⟩
  have hnode : x.2.1.Regular := hregular.of_mem_walk (mem_declaringNodes.mp hx).1
  obtain ⟨hmethod, hk⟩ := hnode.of_mem_methodNodes hm
  refine Node.exists_child? (hmethod.holds ?_)
  rw [hk]
  exact List.mem_cons_self

/-- So do their methods with their parameters. -/
theorem parameterShape_parse (l : Language) {source : List Char}
    {x : TypeKind × Node × List Node} (hx : x ∈ declaringNodes (l.parse source).root)
    {method : Node} (hmethod : method ∈ x.2.1.methodNodes) : method.ParameterShape := by
  have hnode : x.2.1.Regular := (l.regular_parse source).of_mem_walk (mem_declaringNodes.mp hx).1
  obtain ⟨hregular, hk⟩ := hnode.of_mem_methodNodes hmethod
  exact hregular.parameterShape hk

/-- **Parameters.**  In any tree of either language, a declaring node that has a name and its
members in one list gives its type, and the type has its methods one for one, in the order of the
text.  A method that has its parameters in one list has the ordinary ones, again one for one and in
this order.  They are what is declared exactly if no parameter takes any number of values, be it a
node around a declarator or none of its own, and no receiver reads like an ordinary parameter.  In
a tree that is read from a text, all declaring nodes and all their methods are of this sort. -/
theorem parameters_read (l : Language) :
    (∀ (p : Parsed) (path : String), ∀ x ∈ declaringNodes p.root,
      (∃ m, x.2.1.child? .name = some m) → x.2.1.MemberShape →
        l.Gives p path (fun n r => List.Forall₂
          (fun method q => method.ParameterShape → l.ReadsMethod p method q)
          n.methodNodes r.methods) x) ∧
    ∀ source path : String,
      l.Declares (l.parse source.toList)
        (fun n r => List.Forall₂ (l.ReadsMethod (l.parse source.toList)) n.methodNodes r.methods)
        (extract l source path).types := by
  refine ⟨fun p path x hx hname hshape => ?_, fun source path => declares_of_gives fun x hx => ?_⟩
  · refine l.gives path hx hname fun r _ hmethods => ?_
    rw [hmethods]
    exact l.forall₂_methods p hshape
  · refine l.gives path hx ((l.named_parse _).exists_name hx) fun r _ hmethods => ?_
    rw [hmethods]
    have hall := l.forall₂_methods (l.parse source.toList) (l.memberShape_parse hx)
    have hshapes : ∀ method ∈ x.2.1.methodNodes, method.ParameterShape := fun method hmethod =>
      l.parameterShape_parse hx hmethod
    exact ((List.forall₂_and_left _ _).mpr ⟨hshapes, hall⟩).imp fun method q h => h.2 h.1

/-- A modifier, an annotation and a comment do not cost a parameter, and a plain receiver is
none. -/
theorem parameters_read_plain :
    let p := Language.java.parse "class A{void f(A this,final int x,/**/@C D y){}}".toList
    ((Java.dialect.declarations p "A.java").map fun d => d.record.methods.map fun r =>
        (r.name, r.parameters)) = [[("f", [⟨"int", "x"⟩, ⟨"D", "y"⟩])]] ∧
      ∃ x ∈ declaringNodes p.root, (∃ m, x.2.1.child? .name = some m) ∧ x.2.1.MemberShape ∧
        (∀ method ∈ x.2.1.methodNodes, method.ParameterShape) ∧
        Language.java.Gives p "A.java" (fun n r => List.Forall₂
          (fun method q => method.ParameterShape → Language.java.ReadsMethod p method q)
          n.methodNodes r.methods) x := by
  intro p
  have hsome : 0 < (declaringNodes p.root).length := by decide +kernel
  obtain ⟨x, hx⟩ := List.exists_mem_of_length_pos hsome
  have hname := (Language.java.named_parse _).exists_name hx
  have hshape := Language.java.memberShape_parse hx
  exact ⟨by decide +kernel, x, hx, hname, hshape,
    fun method hmethod => Language.java.parameterShape_parse hx hmethod,
    (parameters_read .java).1 p "A.java" x hx hname hshape⟩

/-- The names of the declared parameters, method by method, beside those of the recorded ones. -/
def declaredAndRecorded (l : Language) (source path : String) :
    List (List (Option String)) × List (List String) :=
  let p := l.parse source.toList
  ((declaringNodes p.root).flatMap fun x => x.2.1.methodNodes.map fun method =>
      (l.declaredParameters p method).map fun c => c.parameterName?.map (Node.text p.source),
    (extract l source path).types.flatMap fun d => d.record.methods.map fun r =>
      r.parameters.map fun q => q.name)

/-- A parameter that takes any number of values is lost in both languages, and an annotated
receiver is kept. -/
theorem parameter_lost :
    ((extract .java "class A{void f(int x,B...y){}void g(@C A this){}}" "A.java").hasErrors =
        false ∧
      declaredAndRecorded .java "class A{void f(int x,B...y){}void g(@C A this){}}" "A.java" =
        ([[some "x", some "y"], []], [["x"], ["this"]])) ∧
    (extract .csharp "class A{void f(int x,params B[]y){}}" "A.cs").hasErrors = false ∧
      declaredAndRecorded .csharp "class A{void f(int x,params B[]y){}}" "A.cs" =
        ([[some "x", some "y"]], [["x"]]) := by
  decide +kernel

end Language

end Source
end TypeAtlas
