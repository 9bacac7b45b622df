import TypeAtlas.Proofs.Source.Quotation
import TypeAtlas.Proofs.Source.Regularity
import Mathlib.Data.List.Forall2

/-! # Types from the top down

The namespace of a type is found from the bottom up: among the ancestors of the
declaration, the nearest one that gives a namespace decides, and the file as a whole if
there is none.  The same namespaces come out of a walk from the top down that takes the
current namespace along (`Node.handDown`): it begins with the one of the file and every
namespace on the way replaces it.

What is found among the ancestors and depends on the nearest one and on what is found
above it can always be handed down instead (`Node.map_walk`).  The namespace is of this
sort where everything that gives one has a name, and where every declaring node has a
name, too, the types are those of the walk, one for one and in its order
(`Language.declarations_topDown`).  Nothing else is asked of a tree (`Language.Named`).
-/
namespace TypeAtlas
namespace Source

/-! ### Handing something down a tree -/

namespace Node
variable {α : Type}

mutual

/-- The node and everything below it, a node before what is below it, each with what it was handed.
The children of a node are handed what `enter` makes of what the node was handed itself. -/
def handDown (enter : Node → α → α) (handed : α) : Node → List (Node × α)
  | mk k r a b cs =>
    (mk k r a b cs, handed) :: handDownAll enter (enter (mk k r a b cs) handed) cs

/-- What is handed to several siblings and below them, one after another. -/
def handDownAll (enter : Node → α → α) (handed : α) : List Node → List (Node × α)
  | [] => []
  | c :: cs => handDown enter handed c ++ handDownAll enter handed cs

end

mutual

/-- What depends on the nearest ancestor and on what is found above it is handed down. -/
theorem map_walk {enter : Node → α → α} {f : List Node → α} :
    ∀ {n : Node} {above : List Node},
      (∀ x ∈ n.walk above, f (x.1 :: x.2) = enter x.1 (f x.2)) →
      (n.walk above).map (fun x => (x.1, f x.2)) = n.handDown enter (f above)
  | mk k r a b cs, above, h => by
    rw [walk, List.forall_mem_cons] at h
    rw [walk, handDown, List.map_cons, ← h.1]
    exact congrArg _ (map_walkAll h.2)

theorem map_walkAll {enter : Node → α → α} {f : List Node → α} :
    ∀ {cs above : List Node},
      (∀ x ∈ walkAll above cs, f (x.1 :: x.2) = enter x.1 (f x.2)) →
      (walkAll above cs).map (fun x => (x.1, f x.2)) = handDownAll enter (f above) cs
  | [], _, _ => rfl
  | c :: cs, above, h => by
    rw [walkAll] at h
    obtain ⟨hc, hcs⟩ := List.forall_mem_append.mp h
    rw [walkAll, handDownAll, List.map_append, map_walk hc, map_walkAll hcs]

end

theorem mem_walk_self (n : Node) (above : List Node) : (n, above) ∈ n.walk above := by
  cases n
  exact List.mem_cons_self

theorem mem_walkAll_of_mem {c : Node} {cs above : List Node} (h : c ∈ cs) :
    (c, above) ∈ walkAll above cs := by
  induction cs with
  | nil => cases h
  | cons d cs ih =>
    rw [walkAll, List.mem_append]
    rcases List.mem_cons.mp h with rfl | h
    · exact Or.inl (mem_walk_self c above)
    · exact Or.inr (ih h)

/-- A walk meets the children of the node that it begins with. -/
theorem mem_walk_of_mem_children {n c : Node} {above : List Node} (h : c ∈ n.children) :
    (c, n :: above) ∈ n.walk above := by
  cases n
  exact List.mem_cons_of_mem _ (mem_walkAll_of_mem h)

end Node

/-! ### Namespaces -/

namespace Language

/-- What a node makes of the namespace that it is handed. -/
def enterScope (l : Language) (p : Parsed) (n : Node) (current : String) : String :=
  match l with
  | csharp => if CSharp.isNamespace n then (dottedNameOf? p n).getD current else current
  | java => current

/-- The kind of line that gives a namespace to the whole file. -/
def scopeLine : Language → Kind
  | csharp => .namespaceLine
  | java => .packageLine

/-- The node gives a namespace, to what is below it or to the whole file. -/
def givesScope : Language → Node → Bool
  | csharp, n => CSharp.isNamespace n
  | java, n => decide (n.kind = .packageLine)

/-- The node that names the namespace. -/
def ScopeName : Language → Node → Node → Prop
  | csharp, n, m => n.child? .name = some m
  | java, n, m => n.children.find? Java.isName = some m

/-- The namespace of a file: the name in the first such line at the top of the file, freed of
blanks, and the empty one if there is no such line. -/
inductive FileScope (l : Language) (p : Parsed) : String → Prop where
  | line {before behind : List Node} {line m : Node}
      (hsplit : p.root.children = before ++ line :: behind)
      (hbefore : ∀ c ∈ before, c.kind ≠ l.scopeLine) (hline : line.kind = l.scopeLine)
      (hname : l.ScopeName line m) : FileScope l p (dottedName (m.chars p.source))
  | empty (h : ∀ c ∈ p.root.children, c.kind ≠ l.scopeLine) : FileScope l p ""

/-- Whatever declares a type and whatever gives a namespace has a name. -/
structure Named (l : Language) (p : Parsed) : Prop where
  types : ∀ x ∈ p.root.walk [], declaredKind? x.1.kind ≠ none → ∃ m, x.1.child? .name = some m
  scopes : ∀ x ∈ p.root.walk [], l.givesScope x.1 = true → ∃ m, l.ScopeName x.1 m

theorem givesScope_of_scopeLine {l : Language} {n : Node} (h : n.kind = l.scopeLine) :
    l.givesScope n = true := by
  cases l with
  | csharp =>
    change CSharp.isNamespace n = true
    rw [CSharp.isNamespace, h]
    rfl
  | java => exact decide_eq_true h

/-- In a regular tree everything that needs a name has one. -/
theorem named_of_regular (l : Language) {p : Parsed} (h : p.root.Regular) : l.Named p := by
  refine ⟨fun x hx hn => ?_, fun x hx hn => ?_⟩
  · refine Node.exists_child? ((h.of_mem_walk hx).holds ?_)
    rw [Kind.promises_of_declares hn]
    exact List.mem_cons_self
  · have hregular := h.of_mem_walk hx
    cases l with
    | csharp =>
      refine Node.exists_child? (hregular.holds ?_)
      change CSharp.isNamespace x.1 = true at hn
      rw [CSharp.isNamespace, Bool.or_eq_true, decide_eq_true_eq, decide_eq_true_eq] at hn
      rcases hn with hk | hk
      · rw [hk]
        exact List.mem_cons_self
      · rw [hk]
        exact List.mem_cons_self
    | java =>
      refine Node.exists_find? .isName (hregular.holds ?_)
      rw [of_decide_eq_true hn]
      exact List.mem_cons_self

theorem named_parse (l : Language) (source : List Char) : l.Named (l.parse source) :=
  l.named_of_regular (l.regular_parse source)

end Language

/-- The name of a package is the first node that can be one. -/
theorem Java.find?_isName (line : Node) :
    line.namedChildren.find? isName = line.children.find? isName := by
  have hnamed : ∀ c : Node, isName c = true → c.kind.isNamed = true := by
    intro c hc
    rw [isName, Bool.or_eq_true, decide_eq_true_eq, decide_eq_true_eq] at hc
    rcases hc with hk | hk
    · rw [hk]
      rfl
    · rw [hk]
      rfl
  rw [Node.namedChildren, List.find?_filter]
  refine congrArg (List.find? · line.children) (funext fun c => ?_)
  cases hc : isName c with
  | true => simp [hnamed c hc]
  | false => simp

/-- A node that declares a type gives no namespace. -/
theorem isNamespace_of_declares {n : Node} (hn : declaredKind? n.kind ≠ none) :
    CSharp.isNamespace n = false := by
  unfold CSharp.isNamespace
  cases hk : n.kind <;> first | rfl | (rw [hk] at hn; exact absurd rfl hn)

namespace Language
variable {l : Language} {p : Parsed}

/-- **One step up is one step down.**  The namespace below a node that has its name is what the
node makes of the namespace above it. -/
theorem scope_cons (l : Language) (p : Parsed) {n : Node}
    (h : l.givesScope n = true → ∃ m, l.ScopeName n m) (above : List Node) :
    l.dialect.scope p (n :: above) = l.enterScope p n (l.dialect.scope p above) := by
  cases l with
  | java => rfl
  | csharp =>
    change CSharp.scope p (n :: above) = if CSharp.isNamespace n then _ else CSharp.scope p above
    unfold CSharp.scope CSharp.enclosingScope?
    by_cases hn : CSharp.isNamespace n = true
    · obtain ⟨m, hm⟩ := h hn
      have hname : dottedNameOf? p n = some (dottedName (m.chars p.source)) := by
        rw [dottedNameOf?, show n.child? .name = some m from hm]
        rfl
      rw [if_pos hn, List.find?_cons_of_pos hn, Option.bind_some, hname]
      rfl
    · rw [if_neg hn, List.find?_cons_of_neg hn]

/-- The namespace of a file is that of what stands at its top. -/
theorem FileScope.scope_nil {s : String} (h : l.FileScope p s) : l.dialect.scope p [] = s := by
  cases h with
  | empty hnone =>
    have hfind : p.root.childOf? l.scopeLine = none :=
      List.find?_eq_none.mpr fun c hc => by simpa using hnone c hc
    cases l with
    | csharp =>
      change ((p.root.childOf? .namespaceLine).bind _).getD "" = ""
      rw [show p.root.childOf? .namespaceLine = none from hfind]
      rfl
    | java =>
      change ((p.root.childOf? .packageLine).bind _).getD "" = ""
      rw [show p.root.childOf? .packageLine = none from hfind]
      rfl
  | @line before behind line m hsplit hbefore hline hname =>
    have hfind : p.root.childOf? l.scopeLine = some line := by
      refine List.find?_eq_some_iff_append.mpr ⟨decide_eq_true hline, before, behind, hsplit, ?_⟩
      exact fun c hc => by simpa using hbefore c hc
    cases l with
    | csharp =>
      change ((p.root.childOf? .namespaceLine).bind (dottedNameOf? p)).getD "" = _
      rw [show p.root.childOf? .namespaceLine = some line from hfind, Option.bind_some,
        dottedNameOf?, show line.child? .name = some m from hname]
      rfl
    | java =>
      change ((p.root.childOf? .packageLine).bind _).getD "" = _
      rw [show p.root.childOf? .packageLine = some line from hfind, Option.bind_some,
        Java.find?_isName, show line.children.find? Java.isName = some m from hname]
      rfl

theorem Named.exists_fileScope (h : l.Named p) : ∃ s, l.FileScope p s := by
  cases hfind : p.root.childOf? l.scopeLine with
  | none =>
    refine ⟨_, .empty fun c hc => ?_⟩
    simpa using List.find?_eq_none.mp hfind c hc
  | some line =>
    obtain ⟨hline, before, behind, hsplit, hbefore⟩ := List.find?_eq_some_iff_append.mp hfind
    have hline : line.kind = l.scopeLine := of_decide_eq_true hline
    have hmem : line ∈ p.root.children :=
      hsplit ▸ List.mem_append_right _ List.mem_cons_self
    obtain ⟨m, hm⟩ := h.scopes _ (Node.mem_walk_of_mem_children hmem)
      (givesScope_of_scopeLine hline)
    exact ⟨_, .line hsplit (fun c hc => by simpa using hbefore c hc) hline hm⟩

end Language

/-! ### The types of a tree -/

/-- The declaration is that of a node, in a namespace. -/
structure Declaration.IsOf (d : Declaration) (p : Parsed) (n : Node) (scope : String) : Prop where
  kind : declaredKind? n.kind = some d.record.kind
  name : ∃ m, n.child? .name = some m ∧ d.record.name = m.text p.source
  scope : d.record.scope = scope
  text : d.text = n.text p.source

/-- The declaration of a node is in the namespace that its ancestors decide. -/
theorem Dialect.isOf_of_declaration? {d : Dialect} {p : Parsed} {path : String}
    {imports : List String} {kind : TypeKind} {n : Node} {above : List Node} {decl : Declaration}
    (hkind : declaredKind? n.kind = some kind)
    (h : d.declaration? p path imports (kind, n, above) = some decl) :
    decl.IsOf p n (d.scope p above) := by
  obtain ⟨m, hm, rfl⟩ := Option.map_eq_some_iff.mp h
  cases hbases : d.bases? p n with
  | none => exact ⟨hkind, ⟨m, hm, rfl⟩, rfl, rfl⟩
  | some bases => exact ⟨hkind, ⟨m, hm, rfl⟩, rfl, rfl⟩

/-- If a function finds something for every entry of a list, it finds it one for one. -/
theorem forall₂_filterMap {α β : Type} {R : α → β → Prop} {f : α → Option β} {xs : List α}
    (h : ∀ x ∈ xs, ∃ y, f x = some y ∧ R x y) : List.Forall₂ R xs (xs.filterMap f) := by
  induction xs with
  | nil => exact .nil
  | cons x xs ih =>
    obtain ⟨⟨y, hy, hR⟩, hxs⟩ := List.forall_mem_cons.mp h
    rw [List.filterMap_cons_some hy]
    exact .cons hR (ih hxs)

theorem rel_of_getElem? {α β : Type} {R : α → β → Prop} {xs : List α} {ys : List β}
    (h : List.Forall₂ R xs ys) {i : Nat} {x : α} {y : β} (hx : xs[i]? = some x)
    (hy : ys[i]? = some y) : R x y := by
  obtain ⟨hi, rfl⟩ := List.getElem?_eq_some_iff.mp hx
  obtain ⟨hj, rfl⟩ := List.getElem?_eq_some_iff.mp hy
  exact h.get hi hj

theorem mem_declaringNodes {root : Node} {kind : TypeKind} {n : Node} {above : List Node} :
    (kind, n, above) ∈ declaringNodes root ↔
      (n, above) ∈ root.walk [] ∧ declaredKind? n.kind = some kind := by
  constructor
  · intro h
    obtain ⟨⟨n', above'⟩, hwalk, hfound⟩ := List.mem_filterMap.mp h
    obtain ⟨k, hk, heq⟩ := Option.map_eq_some_iff.mp hfound
    cases heq
    exact ⟨hwalk, hk⟩
  · rintro ⟨hwalk, hk⟩
    refine List.mem_filterMap.mpr ⟨(n, above), hwalk, ?_⟩
    simp only [hk, Option.map_some]

/-- The declaring nodes of a regular tree keep the promises of types. -/
theorem Node.Regular.typePromises {root : Node} (h : root.Regular)
    {x : TypeKind × Node × List Node} (hx : x ∈ declaringNodes root) :
    ∀ q ∈ Source.typePromises, q.Holds x.2.1.children := by
  obtain ⟨hwalk, hkind⟩ := mem_declaringNodes.mp hx
  intro q hq
  refine (h.of_mem_walk hwalk).holds ?_
  rwa [Kind.promises_of_declares (Option.ne_none_iff_exists'.mpr ⟨_, hkind⟩)]

/-- The declaring nodes are those of the walk. -/
theorem map_declaringNodes {α : Type} (root : Node) (f : List Node → α) :
    (declaringNodes root).map (fun x => (x.2.1, f x.2.2)) =
      ((root.walk []).map fun x => (x.1, f x.2)).filter fun x =>
        (declaredKind? x.1.kind).isSome := by
  unfold declaringNodes
  induction root.walk [] with
  | nil => rfl
  | cons x xs ih =>
    obtain ⟨n, above⟩ := x
    cases hk : declaredKind? n.kind with
    | none =>
      rw [List.filterMap_cons_none (by simp only [hk, Option.map_none]), ih, List.map_cons,
        List.filter_cons_of_neg (by simp [hk])]
    | some kind =>
      rw [List.filterMap_cons_some (b := (kind, n, above)) (by simp only [hk, Option.map_some]),
        List.map_cons, ih, List.map_cons, List.filter_cons_of_pos (by simp [hk])]

namespace Language
variable {l : Language} {p : Parsed} {path : String}

/-- The declaring node gives a type, and the type is what the node makes it. -/
def Gives (l : Language) (p : Parsed) (path : String) (R : Node → TypeRecord → Prop)
    (x : TypeKind × Node × List Node) : Prop :=
  ∃ d ∈ l.dialect.declarations p path,
    l.dialect.declaration? p path (importTexts p) x = some d ∧
      d.IsOf p x.2.1 (l.dialect.scope p x.2.2) ∧ R x.2.1 d.record

/-- A declaring node that has a name gives a type with the base list and the methods that are read
from the node. -/
theorem gives (l : Language) (path : String) {R : Node → TypeRecord → Prop}
    {x : TypeKind × Node × List Node} (hx : x ∈ declaringNodes p.root)
    (hname : ∃ m, x.2.1.child? .name = some m)
    (hR : ∀ r : TypeRecord, r.bases = l.dialect.bases? p x.2.1 →
      r.methods = l.dialect.methods p x.2.1 → R x.2.1 r) : l.Gives p path R x := by
  obtain ⟨kind, n, above⟩ := x
  obtain ⟨m, hm⟩ := hname
  obtain ⟨d, hd⟩ : ∃ d,
      l.dialect.declaration? p path (importTexts p) (kind, n, above) = some d := by
    rw [Dialect.declaration?, show n.child? .name = some m from hm]
    exact ⟨_, rfl⟩
  obtain ⟨-, hbases, hmethods⟩ := Dialect.declaration?_eq_some hd
  exact ⟨d, List.mem_filterMap.mpr ⟨_, hx, hd⟩, hd,
    Dialect.isOf_of_declaration? (mem_declaringNodes.mp hx).2 hd, hR _ hbases hmethods⟩

/-- The types are those of the declaring nodes, one for one and in the order of the tree, and each
is what its node makes it. -/
def Declares (l : Language) (p : Parsed) (R : Node → TypeRecord → Prop) (ds : List Declaration) :
    Prop :=
  List.Forall₂ (fun x d => d.IsOf p x.2.1 (l.dialect.scope p x.2.2) ∧ R x.2.1 d.record)
    (declaringNodes p.root) ds

theorem declares_of_gives {R : Node → TypeRecord → Prop}
    (h : ∀ x ∈ declaringNodes p.root, l.Gives p path R x) :
    l.Declares p R (l.dialect.declarations p path) := by
  refine forall₂_filterMap fun x hx => ?_
  obtain ⟨d, -, hd, hof, hR⟩ := h x hx
  exact ⟨d, hd, hof, hR⟩

theorem Named.exists_name (h : l.Named p) {x : TypeKind × Node × List Node}
    (hx : x ∈ declaringNodes p.root) : ∃ m, x.2.1.child? .name = some m := by
  obtain ⟨kind, n, above⟩ := x
  obtain ⟨hwalk, hkind⟩ := mem_declaringNodes.mp hx
  exact h.types _ hwalk (Option.ne_none_iff_exists'.mpr ⟨kind, hkind⟩)

/-- Below a type, and without a namespace in between, the namespace is that of the type. -/
theorem scope_append (l : Language) (p : Parsed) {between above : List Node} {outer : Node}
    (houter : declaredKind? outer.kind ≠ none)
    (hbetween : ∀ m ∈ between, CSharp.isNamespace m = false) :
    l.dialect.scope p (between ++ outer :: above) = l.dialect.scope p above := by
  cases l with
  | java => rfl
  | csharp =>
    change CSharp.scope p _ = CSharp.scope p above
    have hfind : (between ++ outer :: above).find? CSharp.isNamespace =
        above.find? CSharp.isNamespace := by
      rw [List.find?_append,
        List.find?_eq_none.mpr fun m hm => Bool.not_eq_true _ ▸ hbetween m hm, Option.none_or,
        List.find?_cons_of_neg (Bool.not_eq_true _ ▸ isNamespace_of_declares houter)]
    rw [CSharp.scope, CSharp.enclosingScope?, hfind]
    rfl

/-- The types found in a tree are those of a walk from the top down that begins in a namespace. -/
structure TopDown (l : Language) (p : Parsed) (scope : String) (ds : List Declaration) : Prop where
  /-- One type for each declaring node at any depth, in the order of the walk, and in the namespace
  that was handed to it. -/
  types : List.Forall₂ (fun x d => d.IsOf p x.1 x.2)
    ((p.root.handDown (l.enterScope p) scope).filter fun x => (declaredKind? x.1.kind).isSome) ds
  /-- These are the nodes of which the ancestors are known. -/
  nodes : (declaringNodes p.root).map (fun x => x.2.1) =
    ((p.root.handDown (l.enterScope p) scope).filter fun x =>
      (declaredKind? x.1.kind).isSome).map Prod.fst
  /-- A type inside another one, without a namespace in between, is in its namespace. -/
  nested : ∀ {i j : Nat} {outerKind innerKind : TypeKind} {outer inner : Node}
    {above between : List Node} {d e : Declaration},
    (declaringNodes p.root)[i]? = some (outerKind, outer, above) →
    (declaringNodes p.root)[j]? = some (innerKind, inner, between ++ outer :: above) →
    (∀ m ∈ between, CSharp.isNamespace m = false) → ds[i]? = some d → ds[j]? = some e →
      e.record.scope = d.record.scope

/-- Where everything has its name, what is found from the bottom up is what a walk takes along. -/
theorem Named.topDown {s : String} (hnamed : l.Named p) (h : l.FileScope p s) (path : String) :
    l.TopDown p s (l.dialect.declarations p path) := by
  have hall : l.Declares p (fun _ _ => True) (l.dialect.declarations p path) :=
    declares_of_gives fun x hx => l.gives path hx (hnamed.exists_name hx) fun _ _ _ => trivial
  have hwalk : (p.root.walk []).map (fun x => (x.1, l.dialect.scope p x.2)) =
      p.root.handDown (l.enterScope p) s := by
    rw [← h.scope_nil]
    exact Node.map_walk fun x hx => l.scope_cons p (hnamed.scopes x hx) x.2
  have hnodes := map_declaringNodes p.root (l.dialect.scope p)
  rw [hwalk] at hnodes
  refine ⟨?_, ?_, ?_⟩
  · rw [← hnodes, List.forall₂_map_left_iff]
    exact hall.imp fun x d hx => hx.1
  · rw [← hnodes, List.map_map]
    rfl
  · intro i j outerKind innerKind outer inner above between d e houter hinner hbetween hd he
    have hdeclares : declaredKind? outer.kind ≠ none :=
      Option.ne_none_iff_exists'.mpr
        ⟨_, (mem_declaringNodes.mp (List.mem_of_getElem? houter)).2⟩
    obtain ⟨hd, -⟩ := rel_of_getElem? hall houter hd
    obtain ⟨he, -⟩ := rel_of_getElem? hall hinner he
    rw [hd.scope, he.scope]
    exact l.scope_append p hdeclares hbetween

/-- **Types from the top down.**  In a tree of either language where types and namespaces have their
names, the file has a namespace, and the types that are found are those of a walk from the top down
that begins with it: one for one, in its order, in the namespaces that it takes along.  In trees
that are read from texts everything has its name, so this holds of all that is extracted. -/
theorem declarations_topDown (l : Language) :
    (∀ (p : Parsed) (path : String), l.Named p → (∃ s, l.FileScope p s) ∧
      ∀ s, l.FileScope p s → l.TopDown p s (l.dialect.declarations p path)) ∧
    ∀ source path : String, (∃ s, l.FileScope (l.parse source.toList) s) ∧
      ∀ s, l.FileScope (l.parse source.toList) s →
        l.TopDown (l.parse source.toList) s (extract l source path).types := by
  have hall : ∀ (p : Parsed) (path : String), l.Named p → (∃ s, l.FileScope p s) ∧
      ∀ s, l.FileScope p s → l.TopDown p s (l.dialect.declarations p path) :=
    fun p path hnamed => ⟨hnamed.exists_fileScope, fun s hs => hnamed.topDown hs path⟩
  exact ⟨hall, fun source path => hall _ path (l.named_parse source.toList)⟩

/-- A namespace that replaces the one around it, a type inside another one, and a namespace of the
file that comes behind them and is that of a type without any around it. -/
theorem declarations_topDown_replaced :
    let p := Language.csharp.parse
      "namespace A{namespace B{class C{class D{}}}}namespace E;class F;".toList
    ((CSharp.dialect.declarations p "A.cs").map fun d => (d.record.name, d.record.scope)) =
        [("C", "B"), ("D", "B"), ("F", "E")] ∧
      Language.csharp.Named p ∧ Language.csharp.FileScope p "E" ∧
      Language.csharp.TopDown p "E" (CSharp.dialect.declarations p "A.cs") := by
  intro p
  have hnamed : Language.csharp.Named p := Language.csharp.named_parse _
  obtain ⟨⟨s, hs⟩, htop⟩ := (declarations_topDown .csharp).1 p "A.cs" hnamed
  have hrun : ((CSharp.dialect.declarations p "A.cs").map fun d =>
      (d.record.name, d.record.scope)) = [("C", "B"), ("D", "B"), ("F", "E")] ∧
        CSharp.scope p [] = "E" := by
    decide +kernel
  obtain rfl : "E" = s := hrun.2.symm.trans hs.scope_nil
  exact ⟨hrun.1, hnamed, hs, htop "E" hs⟩

end Language

end Source
end TypeAtlas
