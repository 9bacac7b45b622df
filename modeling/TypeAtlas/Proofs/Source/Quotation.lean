import TypeAtlas.Proofs.Graph.Edges
import TypeAtlas.Proofs.Source.Nesting

/-! # Types quote their declarations

The bases and the methods of a type are texts that stand in its declaration
(`TypeRecord.QuotedIn`), and the declaration stands in the source.  A tree has to be
nested for that and nothing else: whatever a dialect reads, it reaches it from the
declaring node by going from parents to children, and a nested node keeps to the place
of every node above it (`Node.Within`).

What both languages need of this is `Dialect.Quotes`, a statement about one declaring
node; `Dialect.Quotes.declaration` carries it over to all types of a tree.
-/
namespace TypeAtlas

/-! ### Quoted texts -/

namespace Mentions
variable {s t u : String}

theorem trans (h : Mentions s t) (h' : Mentions t u) : Mentions s u :=
  List.IsInfix.trans h' h

theorem empty : Mentions s "" :=
  List.nil_infix

end Mentions

/-- All that is known of a method is written in a text. -/
structure Method.QuotedIn (m : Method) (text : String) : Prop where
  name : Mentions text m.name
  returnType : Mentions text m.returnType
  body : ∀ b ∈ m.body, Mentions text b
  parameterTypes : ∀ q ∈ m.parameters, Mentions text q.type
  parameterNames : ∀ q ∈ m.parameters, Mentions text q.name

/-- The bases and the methods of a type are written in a text. -/
structure TypeRecord.QuotedIn (r : TypeRecord) (text : String) : Prop where
  bases : ∀ b ∈ r.baseNames, Mentions text b
  methods : ∀ m ∈ r.methods, m.QuotedIn text

/-- What is written in a text is written in every text that contains it. -/
theorem Method.QuotedIn.mono {m : Method} {s t : String} (h : m.QuotedIn s) (hst : Mentions t s) :
    m.QuotedIn t where
  name := hst.trans h.name
  returnType := hst.trans h.returnType
  body b hb := hst.trans (h.body b hb)
  parameterTypes q hq := hst.trans (h.parameterTypes q hq)
  parameterNames q hq := hst.trans (h.parameterNames q hq)

namespace Source

/-! ### Nodes below a node -/

namespace Node

theorem Nested.children {n : Node} (h : n.Nested) :
    ∀ c ∈ n.children, n.start ≤ c.start ∧ c.stop ≤ n.stop ∧ c.Nested := by
  cases n
  exact (nested_mk.mp h).2

/-- A walk over a nested tree meets nested nodes only. -/
theorem Nested.of_mem_walk {n : Node} {above : List Node} {x : Node × List Node} (h : n.Nested)
    (hx : x ∈ n.walk above) : x.1.Nested :=
  Node.of_mem_walk (fun _ hm c hc => (hm.children c hc).2.2) h hx

/-- A nested node that stays in the place of another one. -/
structure Within (c n : Node) : Prop where
  nested : c.Nested
  start_le : n.start ≤ c.start
  stop_le : c.stop ≤ n.stop

theorem Nested.within (n : Node) (h : n.Nested) : n.Within n :=
  ⟨h, le_refl _, le_refl _⟩

namespace Within
variable {c m n : Node} {k : Kind} {r : Role}

theorem of_mem_children (h : c.Within n) (hm : m ∈ c.children) : m.Within n := by
  obtain ⟨hstart, hstop, hnested⟩ := h.nested.children m hm
  exact ⟨hnested, Nat.le_trans h.start_le hstart, Nat.le_trans hstop h.stop_le⟩

theorem childrenOf (h : c.Within n) (hm : m ∈ c.childrenOf k) : m.Within n :=
  h.of_mem_children (List.mem_of_mem_filter hm)

theorem namedChildren (h : c.Within n) (hm : m ∈ c.namedChildren) : m.Within n :=
  h.of_mem_children (List.mem_of_mem_filter hm)

theorem childOf? (h : c.Within n) (hm : c.childOf? k = some m) : m.Within n :=
  h.of_mem_children (List.mem_of_find?_eq_some hm)

theorem child? (h : c.Within n) (hm : c.child? r = some m) : m.Within n :=
  h.of_mem_children (List.mem_of_find?_eq_some hm)

theorem mentions (h : c.Within n) (source : List Char) :
    Mentions (n.text source) (c.text source) := by
  obtain ⟨-, hstart, hstop⟩ := h
  have hchars : c.chars source =
      ((n.chars source).drop (c.start - n.start)).take (c.stop - c.start) := by
    rw [chars, chars, List.drop_take, List.take_take, List.drop_drop,
      Nat.add_sub_cancel' hstart, Nat.min_eq_left (by omega)]
  rw [Mentions, text, text, String.toList_ofList, String.toList_ofList, hchars]
  exact (List.take_prefix _ _).isInfix.trans (List.drop_suffix _ _).isInfix

/-- The text in a role, empty if nothing plays it. -/
theorem mentions_child? (h : c.Within n) (r : Role) (source : List Char) :
    Mentions (n.text source) (((c.child? r).map (Node.text source)).getD "") := by
  cases hm : c.child? r with
  | none => exact Mentions.empty
  | some m => exact (h.child? hm).mentions source

end Within

theorem text_infix (n : Node) (source : List Char) : (n.text source).toList <:+: source := by
  rw [text, String.toList_ofList, chars]
  exact (List.take_prefix _ _).isInfix.trans (List.drop_suffix _ _).isInfix

end Node

/-! ### Methods -/

section
variable {p : Parsed} {m n : Node}

theorem mentions_of_mem_parametersOf (hm : m.Within n) {q : Parameter}
    (hq : q ∈ parametersOf p m) :
    Mentions (n.text p.source) q.type ∧ Mentions (n.text p.source) q.name := by
  unfold parametersOf at hq
  split at hq
  · cases hq
  · rename_i list hlist
    obtain ⟨node, hnode, hq⟩ := List.mem_filterMap.mp hq
    obtain ⟨name, hname, rfl⟩ := Option.map_eq_some_iff.mp hq
    have hin : node.Within n := (hm.child? hlist).childrenOf hnode
    exact ⟨hin.mentions_child? .type p.source, (hin.child? hname).mentions p.source⟩

/-- What both languages read of a method they read below its node; they differ in what they
count as a static method and as a body. -/
theorem quotedIn_of_child? (hm : m.Within n) {name : Node} (hname : m.child? .name = some name)
    (kind : MethodKind) {body : Option Node}
    (hbody : ∀ b, body = some b → m.child? .body = some b) :
    Method.QuotedIn
      { name := name.text p.source
        kind
        returnType := ((m.child? .type).map (Node.text p.source)).getD ""
        body := body.map (Node.text p.source)
        parameters := parametersOf p m } (n.text p.source) where
  name := (hm.child? hname).mentions p.source
  returnType := hm.mentions_child? .type p.source
  body b hb := by
    obtain ⟨node, hnode, rfl⟩ := Option.map_eq_some_iff.mp hb
    exact (hm.child? (hbody node hnode)).mentions p.source
  parameterTypes q hq := (mentions_of_mem_parametersOf hm hq).1
  parameterNames q hq := (mentions_of_mem_parametersOf hm hq).2

end

/-! ### Dialects -/

/-- A dialect takes bases and methods from the text of the declaring node. -/
structure Dialect.Quotes (d : Dialect) : Prop where
  bases : ∀ (p : Parsed) (n : Node), n.Nested → ∀ bs, d.bases? p n = some bs →
    ∀ b ∈ bs, Mentions (n.text p.source) b
  methods : ∀ (p : Parsed) (n : Node), n.Nested → ∀ m ∈ d.methods p n,
    m.QuotedIn (n.text p.source)

/-- Members are children of one node below the declaring one, if there is such a node. -/
theorem within_of_mem_getD {c n : Node} {k : Kind} {list? : Option Node}
    (hlist : ∀ list, list? = some list → list.Within n)
    (hc : c ∈ (list?.map fun list => list.childrenOf k).getD []) : c.Within n := by
  cases list? with
  | none => exact absurd hc List.not_mem_nil
  | some list => exact (hlist list rfl).childrenOf hc

namespace CSharp

theorem within_of_mem_members {c n : Node} {k : Kind} (h : n.Nested) (hc : c ∈ members n k) :
    c.Within n := by
  refine within_of_mem_getD (fun list hlist => ?_) hc
  unfold memberList? at hlist
  split at hlist
  · rename_i body hbody
    cases hlist
    exact (h.within n).child? (Option.filter_eq_some_iff.mp hbody).1
  · exact (h.within n).childOf? hlist

/-- The entries of a base list stand in the list, and the list in the declaration. -/
theorem dialect_quotes : dialect.Quotes where
  bases p n h bs hbs b hb := by
    obtain ⟨list, hlist, rfl⟩ := Option.map_eq_some_iff.mp hbs
    obtain ⟨node, hnode, rfl⟩ := List.mem_map.mp hb
    have hnamed : node ∈ list.namedChildren := List.mem_of_mem_filter hnode
    exact (((h.within n).childOf? hlist).namedChildren hnamed).mentions p.source
  methods p n h m hm := by
    obtain ⟨node, hnode, hm⟩ := List.mem_filterMap.mp hm
    obtain ⟨name, hname, rfl⟩ := Option.map_eq_some_iff.mp hm
    exact quotedIn_of_child? (within_of_mem_members h hnode) hname _ fun b hb =>
      (Option.filter_eq_some_iff.mp hb).1

end CSharp

namespace Java

theorem within_of_mem_members {c n : Node} {k : Kind} (h : n.Nested) (hc : c ∈ members n k) :
    c.Within n :=
  within_of_mem_getD (fun _ hbody => (h.within n).child? hbody) hc

theorem mentions_of_mem_clauseBases {p : Parsed} {clause n : Node} (h : clause.Within n)
    {b : String} (hb : b ∈ clauseBases p clause) : Mentions (n.text p.source) b := by
  unfold clauseBases at hb
  split at hb
  · obtain ⟨node, hnode, rfl⟩ := List.mem_map.mp hb
    exact (h.namedChildren hnode).mentions p.source
  · obtain ⟨list, hlist, hb⟩ := List.mem_flatMap.mp hb
    obtain ⟨node, hnode, rfl⟩ := List.mem_map.mp hb
    exact ((h.childrenOf hlist).namedChildren hnode).mentions p.source

/-- The entries of the base list stand in the clauses, one level deeper for interfaces. -/
theorem dialect_quotes : dialect.Quotes where
  bases p n h bs hbs b hb := by
    change (if _ then _ else _) = _ at hbs
    split at hbs
    · cases hbs
    · cases hbs
      obtain ⟨clause, hclause, hb⟩ := List.mem_flatMap.mp hb
      have hchild : clause ∈ n.children := List.mem_of_mem_filter hclause
      exact mentions_of_mem_clauseBases ((h.within n).of_mem_children hchild) hb
  methods p n h m hm := by
    obtain ⟨node, hnode, hm⟩ := List.mem_filterMap.mp hm
    obtain ⟨name, hname, rfl⟩ := Option.map_eq_some_iff.mp hm
    exact quotedIn_of_child? (within_of_mem_members h hnode) hname _ fun b hb => hb

end Java

theorem Language.dialect_quotes (l : Language) : l.dialect.Quotes := by
  cases l with
  | csharp => exact CSharp.dialect_quotes
  | java => exact Java.dialect_quotes

/-! ### The types of a tree -/

section
variable {d : Dialect} {p : Parsed} {path : String} {decl : Declaration}

/-- What a declaration has of the node that declares it. -/
theorem Dialect.declaration?_eq_some {imports : List String} {kind : TypeKind} {n : Node}
    {above : List Node} (h : d.declaration? p path imports (kind, n, above) = some decl) :
    decl.text = n.text p.source ∧ decl.record.bases = d.bases? p n ∧
      decl.record.methods = d.methods p n := by
  obtain ⟨name, -, rfl⟩ := Option.map_eq_some_iff.mp h
  refine ⟨rfl, ?_, rfl⟩
  cases d.bases? p n <;> rfl

/-- **A type quotes its declaration**, and the declaration is a part of the source. -/
theorem Dialect.Quotes.declaration (hd : d.Quotes) (hroot : p.root.Nested)
    (h : decl ∈ d.declarations p path) :
    decl.record.QuotedIn decl.text ∧ decl.text.toList <:+: p.source := by
  obtain ⟨⟨kind, n, above⟩, hn, hdecl⟩ := List.mem_filterMap.mp h
  obtain ⟨⟨n', above'⟩, hwalk, hkind⟩ := List.mem_filterMap.mp hn
  obtain ⟨k, -, heq⟩ := Option.map_eq_some_iff.mp hkind
  cases heq
  have hnested : n.Nested := hroot.of_mem_walk hwalk
  obtain ⟨htext, hbases, hmethods⟩ := Dialect.declaration?_eq_some hdecl
  rw [htext]
  refine ⟨⟨fun b hb => ?_, fun m hm => ?_⟩, n.text_infix p.source⟩
  · rw [TypeRecord.baseNames, hbases] at hb
    cases hbs : d.bases? p n with
    | none => simp [hbs] at hb
    | some bs =>
      rw [hbs] at hb
      exact hd.bases p n hnested bs hbs b hb
  · exact hd.methods p n hnested m (hmethods ▸ hm)

end

end Source
end TypeAtlas
