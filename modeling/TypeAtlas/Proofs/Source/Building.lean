import TypeAtlas.Proofs.Source.Naming

/-! # How trees are built

Every node of a tree that a grammar reads is the leaf of a token, or a node rule has put
it around what its part has read (`Reads.builtBy`).  Whatever holds of the yield of each
such part therefore holds of the children of every node, and of the yield of a part its
rule alone can tell: that some node in it passes a test (`Rule.meets`), that none does
(`Rule.avoids`), that none which passes a test stands before one which passes another
(`Rule.apart`).

Comments and directives are not asked about.  They may stand anywhere in a yield, and a
role is given to none of them, as long as every part in a role yields one node besides
them (`Rule.sole`, `Reads.role_of_isExtra`).

The tests look through named parts, so they come with a bound on how deep they look; a
test that reaches the bound fails.
-/
namespace TypeAtlas
namespace Source

/-! ### Leaves and node rules -/

/-- The kinds of leaves. -/
def Kind.isLeaf : Kind → Bool
  | keyword _ => true
  | symbol _ => true
  | identifier => true
  | literal => true
  | comment => true
  | directive => true
  | error => true
  | _ => false

theorem isLeaf_leafKind (test : TokenTest) (t : Token) : (test.leafKind t).isLeaf = true := by
  cases test with
  | cls c => cases c <;> rfl
  | _ => rfl

/-- The nodes that a rule puts around its parts, each with the part; named parts are not opened. -/
def Rule.nodes {ν : Type} : Rule ν → List (Kind × Rule ν)
  | seq p q => nodes p ++ nodes q
  | alt p q => nodes p ++ nodes q
  | many p => nodes p
  | node k p => (k, p) :: nodes p
  | role _ p => nodes p
  | mend p => nodes p
  | _ => []

/-- A node rule of the grammar. -/
def Grammar.HasNode {ν : Type} (g : Grammar ν) (x : Kind × Rule ν) : Prop :=
  ∃ name, x ∈ (g.rule name).nodes

/-- The node is a leaf, or a node rule of the grammar has put it around what its part has read. -/
inductive Node.BuiltBy {ν : Type} (g : Grammar ν) : Node → Prop where
  | leaf {k : Kind} {r : Option Role} {a b : Nat} (hk : k.isLeaf = true) :
      BuiltBy g (.mk k r a b [])
  | node {k : Kind} {p : Rule ν} {r : Option Role} {a b : Nat} {ts rest : List Token}
      {out : List Node} (hrule : g.HasNode (k, p)) (hp : Reads g p ts out rest)
      (hcs : ∀ c ∈ out.dropWhile Node.isExtra, BuiltBy g c) :
      BuiltBy g (.mk k r a b (out.dropWhile Node.isExtra))

theorem Node.BuiltBy.withRole {ν : Type} {g : Grammar ν} {n : Node} (h : n.BuiltBy g) (r : Role) :
    (n.withRole r).BuiltBy g := by
  cases h with
  | leaf hk => exact .leaf hk
  | node hrule hp hcs => exact .node hrule hp hcs

namespace Reads
variable {ν : Type} {g : Grammar ν} {r : Rule ν} {ts rest : List Token} {out : List Node}

/-- **What is read is built by the grammar.** -/
theorem builtBy (h : Reads g r ts out rest) (hr : ∀ x ∈ r.nodes, g.HasNode x) :
    ∀ m ∈ out, m.BuiltBy g := by
  have hextra : ∀ ts, ∀ m ∈ extraLeaves ts, m.BuiltBy g := by
    intro ts m hm
    obtain ⟨t, -, rfl⟩ := List.mem_map.mp hm
    refine .leaf ?_
    split <;> rfl
  induction h with
  | empty | stop | ahead | notAhead => exact fun m hm => absurd hm List.not_mem_nil
  | token hdrop hpass =>
    refine List.forall_mem_append.mpr ⟨hextra _, fun m hm => ?_⟩
    rw [List.mem_singleton.mp hm]
    exact .leaf (isLeaf_leafKind _ _)
  | seq _ _ ihp ihq =>
    obtain ⟨hp, hq⟩ := List.forall_mem_append.mp hr
    exact List.forall_mem_append.mpr ⟨ihp hp, ihq hq⟩
  | more _ _ ihp ihq => exact List.forall_mem_append.mpr ⟨ihp hr, ihq hr⟩
  | first _ ih => exact ih (List.forall_mem_append.mp hr).1
  | second _ ih => exact ih (List.forall_mem_append.mp hr).2
  | ref _ ih => exact ih fun x hx => ⟨_, hx⟩
  | mend _ ih => exact ih hr
  | @node k p ts rest out hp ih =>
    obtain ⟨hrule, hinner⟩ := List.forall_mem_cons.mp hr
    have ih := ih hinner
    rcases wrapNodes_cases k out with ⟨a, b, hwrap⟩ | ⟨-, hwrap⟩
    · rw [hwrap]
      refine List.forall_mem_append.mpr
        ⟨fun m hm => ih m (List.takeWhile_subset _ hm), fun m hm => ?_⟩
      rw [List.mem_singleton.mp hm]
      exact .node hrule hp fun c hc => ih c (List.dropWhile_subset _ hc)
    · rw [hwrap]
      exact ih
  | role hp ih =>
    intro m hm
    rcases mem_roleLast hm with hm | ⟨last, hlast, rfl⟩
    · exact ih hr m hm
    · exact (ih hr last (List.mem_of_getLast? hlast)).withRole _
  | done => exact hextra _

end Reads

/-! ### What a rule tells of its yield -/

/-- A test of a node by its kind and its role. -/
abbrev NodeTest := Kind → Option Role → Bool

/-- The node passes the test. -/
def Node.passes (n : Node) (test : NodeTest) : Bool :=
  test n.kind n.role

/-- No comment and no directive passes the test, unless it has a role. -/
def NodeTest.sparesExtras (test : NodeTest) : Bool :=
  !test .comment none && !test .directive none

/-- The kind of the leaves of all tokens that pass the test, if there is only one and it is
solid. -/
def TokenTest.solidKind? : TokenTest → Option Kind
  | name => some .identifier
  | anyWord => some .identifier
  | word w => some (.keyword w)
  | symbol s => some (.symbol s)
  | glued s => some (.symbol s)
  | otherThan _ => some .error
  | cls .word => some .identifier
  | cls .symbol => none
  | cls .comment => none
  | cls .directive => none
  | cls _ => some .literal
  | branch _ => none

theorem TokenTest.of_solidKind? {test : TokenTest} {k : Kind} (h : test.solidKind? = some k)
    (t : Token) : test.leafKind t = k ∧ k.isSolid = true := by
  unfold solidKind? at h
  split at h <;> cases h
  all_goals exact ⟨by first | rfl | (unfold leafKind; split <;> simp_all), rfl⟩

namespace Rule
variable {ν : Type} (g : Grammar ν)

/-- The part yields nothing. -/
def isSilent : Rule ν → Bool
  | empty => true
  | ahead _ => true
  | notAhead _ => true
  | _ => false

/-- The part yields a solid node, wherever. -/
def solid : Nat → Rule ν → Bool
  | 0, _ => false
  | n + 1, r =>
    match r with
    | token test => test.isSolid
    | seq p q => solid n p || solid n q
    | alt p q => solid n p && solid n q
    | ref name => solid n (g.rule name)
    | node k p => k.isSolid && solid n p
    | role _ p => solid n p
    | mend p => solid n p
    | _ => false

/-- The part yields one solid node, and it comes last; the kinds that it may be of. -/
def sole : Nat → Rule ν → Option (List Kind)
  | 0, _ => none
  | n + 1, r =>
    match r with
    | token test => test.solidKind?.map fun k => [k]
    | seq p q => if p.isSilent then sole n q else if q.isSilent then sole n p else none
    | alt p q => (sole n p).bind fun ks => (sole n q).map fun ks' => ks ++ ks'
    | ref name => sole n (g.rule name)
    | node k p => if k.isSolid && solid g n p then some [k] else none
    | mend p => sole n p
    | _ => none

/-- Some node of the part's yield passes the test. -/
def meets (test : NodeTest) : Nat → Rule ν → Bool
  | 0, _ => false
  | n + 1, r =>
    match r with
    | token t => t.solidKind?.any fun k => test k none
    | seq p q => meets test n p || meets test n q
    | alt p q => meets test n p && meets test n q
    | ref name => meets test n (g.rule name)
    | node k p => test k none && k.isSolid && solid g n p
    | role r p => (sole g n p).any fun ks => ks.all fun k => test k (some r)
    | mend p => meets test n p
    | _ => false

/-- No node of the part's yield passes the test. -/
def avoids (test : NodeTest) : Nat → Rule ν → Bool
  | 0, _ => false
  | n + 1, r =>
    match r with
    | token t => !t.isSolid || t.solidKind?.any fun k => !test k none
    | seq p q => avoids test n p && avoids test n q
    | alt p q => avoids test n p && avoids test n q
    | many p => avoids test n p
    | ref name => avoids test n (g.rule name)
    | node k _ => !test k none
    | role r p => (sole g n p).any fun ks => ks.all fun k => !test k (some r)
    | mend p => avoids test n p
    | _ => true

/-- In the part's yield, no node that passes the first test stands before one that passes the
second. -/
def apart (test test' : NodeTest) : Nat → Rule ν → Bool
  | 0, _ => false
  | n + 1, r =>
    match r with
    | seq p q => apart test test' n p && apart test test' n q &&
        (avoids g test n p || avoids g test' n q)
    | alt p q => apart test test' n p && apart test test' n q
    | many p => avoids g test n p || avoids g test' n p
    | ref name => apart test test' n (g.rule name)
    | role _ p => (sole g n p).isSome
    | mend p => apart test test' n p
    | _ => true

/-- Inside the part, a role is only given to parts that yield one solid node; `n` bounds the
depth of the tests. -/
def rolesSole (n : Nat) : Rule ν → Bool
  | seq p q => rolesSole n p && rolesSole n q
  | alt p q => rolesSole n p && rolesSole n q
  | many p => rolesSole n p
  | node _ p => rolesSole n p
  | role _ p => rolesSole n p && (sole g n p).isSome
  | mend p => rolesSole n p
  | _ => true

end Rule

/-! ### What the tests promise -/

theorem isExtra_of_mem_extraLeaves {ts : List Token} {m : Node} (h : m ∈ extraLeaves ts) :
    m.isExtra = true := by
  obtain ⟨t, -, rfl⟩ := List.mem_map.mp h
  unfold Token.extraLeaf
  split <;> rfl

namespace Node

@[simp] theorem kind_withRole (n : Node) (r : Role) : (n.withRole r).kind = n.kind := by
  cases n
  rfl

/-- A node that is looked past is a comment or a directive. -/
theorem kind_of_isExtra {n : Node} (h : n.isExtra = true) :
    n.kind = .comment ∨ n.kind = .directive := by
  rw [isExtra, Bool.and_eq_true, Bool.or_eq_true] at h
  exact h.2.imp of_decide_eq_true of_decide_eq_true

theorem passes_of_isExtra {n : Node} {test : NodeTest} (htest : test.sparesExtras = true)
    (h : n.isExtra = true) (hrole : n.role = none) : n.passes test = false := by
  rw [NodeTest.sparesExtras, Bool.and_eq_true, Bool.not_eq_true', Bool.not_eq_true'] at htest
  rw [passes, hrole]
  rcases kind_of_isExtra h with hk | hk
  · rw [hk, htest.1]
  · rw [hk, htest.2]

end Node

theorem roleLast_concat (r : Role) (front : List Node) (m : Node) :
    roleLast r (front ++ [m]) = front ++ [m.withRole r] := by
  induction front with
  | nil => rfl
  | cons n front ih =>
    cases front with
    | nil => rfl
    | cons n' front => exact congrArg (n :: ·) ih

namespace Reads
variable {ν : Type} {g : Grammar ν} {r : Rule ν} {ts rest : List Token} {out : List Node}

theorem eq_nil_of_isSilent (h : Reads g r ts out rest) (hr : r.isSilent = true) : out = [] := by
  cases h with
  | empty | ahead | notAhead => rfl
  | _ => cases hr

/-- What holds of every reading of a part holds of every repetition. -/
theorem forall_of_many {p : Rule ν} {Q : Node → Prop} (h : Reads g (.many p) ts out rest)
    (hp : ∀ {ts out rest}, Reads g p ts out rest → ∀ m ∈ out, Q m) : ∀ m ∈ out, Q m := by
  generalize hr : Rule.many p = r at h
  induction h with
  | stop => exact fun m hm => absurd hm List.not_mem_nil
  | more hfirst _ _ ih =>
    cases hr
    exact List.forall_mem_append.mpr ⟨hp hfirst, ih rfl⟩
  | _ => cases hr

theorem exists_of_solid (n : Nat) :
    ∀ {r : Rule ν} {ts out rest}, Reads g r ts out rest → r.solid g n = true →
      ∃ m ∈ out, m.isExtra = false := by
  induction n with
  | zero => exact fun _ hr => nomatch hr
  | succ n ih =>
    intro r ts out rest h hr
    cases h with
    | token hdrop hpass =>
      refine ⟨_, List.mem_append_right _ (List.mem_singleton_self _), ?_⟩
      exact Node.isExtra_of_isSolid (isSolid_leafKind hr _)
    | seq hp hq =>
      rcases Bool.or_eq_true_iff.mp hr with hr | hr
      · obtain ⟨m, hm, hsolid⟩ := ih hp hr
        exact ⟨m, List.mem_append_left _ hm, hsolid⟩
      · obtain ⟨m, hm, hsolid⟩ := ih hq hr
        exact ⟨m, List.mem_append_right _ hm, hsolid⟩
    | first hp => exact ih hp (Bool.and_eq_true_iff.mp hr).1
    | second hq => exact ih hq (Bool.and_eq_true_iff.mp hr).2
    | ref h => exact ih h hr
    | mend hp => exact ih hp hr
    | @node k p ts rest out hp =>
      obtain ⟨hk, hr⟩ := Bool.and_eq_true_iff.mp hr
      rcases wrapNodes_cases k out with ⟨a, b, hwrap⟩ | ⟨-, hwrap⟩
      · rw [hwrap]
        exact ⟨_, List.mem_append_right _ (List.mem_singleton_self _), Node.isExtra_of_isSolid hk⟩
      · rw [hwrap]
        exact ih hp hr
    | @role r p ts rest out hp =>
      obtain ⟨m, hm, hsolid⟩ := ih hp hr
      obtain rfl | ⟨front, last, rfl⟩ := out.eq_nil_or_concat
      · cases hm
      · rw [List.concat_eq_append] at hm ⊢
        rw [roleLast_concat]
        rcases List.mem_append.mp hm with hm | hm
        · exact ⟨m, List.mem_append_left _ hm, hsolid⟩
        · refine ⟨_, List.mem_append_right _ (List.mem_singleton_self _), ?_⟩
          rw [Node.isExtra_withRole, ← List.mem_singleton.mp hm, hsolid]
    | _ => cases hr

/-- A node rule around something solid yields the new node and, in front of it, only what is
looked past. -/
theorem node_eq {k : Kind} {p : Rule ν} (h : Reads g (.node k p) ts out rest) {n : Nat}
    (hp : p.solid g n = true) :
    ∃ front m, out = front ++ [m] ∧ (∀ x ∈ front, x.isExtra = true) ∧ m.kind = k ∧
      m.role = none := by
  cases h with
  | @node k p ts rest out hreads =>
    rcases wrapNodes_cases k out with ⟨a, b, hwrap⟩ | ⟨hall, -⟩
    · exact ⟨_, _, hwrap, fun x hx => List.mem_takeWhile_imp hx, rfl, rfl⟩
    · obtain ⟨m, hm, hsolid⟩ := exists_of_solid n hreads hp
      rw [hall m hm] at hsolid
      cases hsolid

/-- **The one solid node of a yield.** -/
theorem of_sole (n : Nat) :
    ∀ {r : Rule ν} {ts out rest} {ks : List Kind}, Reads g r ts out rest → r.sole g n = some ks →
      ∃ front m, out = front ++ [m] ∧ (∀ x ∈ front, x.isExtra = true) ∧ m.kind ∈ ks ∧
        m.kind.isSolid = true := by
  induction n with
  | zero => exact fun _ hr => nomatch hr
  | succ n ih =>
    intro r ts out rest ks h hr
    cases h with
    | token hdrop hpass =>
      obtain ⟨k, hk, rfl⟩ := Option.map_eq_some_iff.mp hr
      obtain ⟨hkind, hsolid⟩ := TokenTest.of_solidKind? hk _
      refine ⟨_, _, rfl, fun x hx => isExtra_of_mem_extraLeaves hx, ?_, ?_⟩
      · exact List.mem_singleton.mpr hkind
      · rw [← hkind] at hsolid
        exact hsolid
    | @seq p q ts rest rest' out out' hp hq =>
      simp only [Rule.sole] at hr
      split_ifs at hr with hsilent hsilent
      · rw [hp.eq_nil_of_isSilent hsilent]
        exact ih hq hr
      · rw [hq.eq_nil_of_isSilent hsilent, List.append_nil]
        exact ih hp hr
    | first hp =>
      obtain ⟨ks, hks, hr⟩ := Option.bind_eq_some_iff.mp hr
      obtain ⟨ks', -, rfl⟩ := Option.map_eq_some_iff.mp hr
      obtain ⟨front, m, hout, hfront, hkind, hsolid⟩ := ih hp hks
      exact ⟨front, m, hout, hfront, List.mem_append_left _ hkind, hsolid⟩
    | second hq =>
      obtain ⟨ks, -, hr⟩ := Option.bind_eq_some_iff.mp hr
      obtain ⟨ks', hks', rfl⟩ := Option.map_eq_some_iff.mp hr
      obtain ⟨front, m, hout, hfront, hkind, hsolid⟩ := ih hq hks'
      exact ⟨front, m, hout, hfront, List.mem_append_right _ hkind, hsolid⟩
    | ref h => exact ih h hr
    | mend hp => exact ih hp hr
    | @node k p ts rest out hp =>
      simp only [Rule.sole] at hr
      split_ifs at hr with hk
      obtain ⟨hk, hp'⟩ := Bool.and_eq_true_iff.mp hk
      obtain rfl := Option.some.inj hr
      obtain ⟨front, m, hout, hfront, rfl, -⟩ := (Reads.node (k := k) hp).node_eq hp'
      exact ⟨front, m, hout, hfront, List.mem_singleton_self _, hk⟩
    | _ => cases hr

/-- What is given a role, if the part yields one solid node. -/
theorem role_eq {ro : Role} {p : Rule ν} (h : Reads g (.role ro p) ts out rest) {n : Nat}
    {ks : List Kind} (hp : p.sole g n = some ks) :
    ∃ front m, out = front ++ [m] ∧ (∀ x ∈ front, x.isExtra = true) ∧ m.kind ∈ ks ∧
      m.kind.isSolid = true ∧ m.role = some ro := by
  cases h with
  | role hreads =>
    obtain ⟨front, m, rfl, hfront, hkind, hsolid⟩ := of_sole n hreads hp
    refine ⟨front, m.withRole ro, roleLast_concat ro front m, hfront, ?_, ?_, m.role_withRole ro⟩
    · rwa [Node.kind_withRole]
    · rwa [Node.kind_withRole]

/-- **Some node passes the test**, and it is not one that is looked past. -/
theorem exists_of_meets {test : NodeTest} (n : Nat) :
    ∀ {r : Rule ν} {ts out rest}, Reads g r ts out rest → r.meets g test n = true →
      ∃ m ∈ out, m.isExtra = false ∧ m.passes test = true := by
  induction n with
  | zero => exact fun _ hr => nomatch hr
  | succ n ih =>
    intro r ts out rest h hr
    have hlast : ∀ {front : List Node} {m : Node}, m ∈ front ++ [m] := fun {_ _} =>
      List.mem_append_right _ (List.mem_singleton_self _)
    cases h with
    | @token t ts tok rest hdrop hpass =>
      obtain ⟨k, hk, htest⟩ := (Option.any_eq_true _ _).mp hr
      obtain ⟨rfl, hsolid⟩ := TokenTest.of_solidKind? hk tok
      exact ⟨_, hlast, Node.isExtra_of_isSolid hsolid, htest⟩
    | seq hp hq =>
      rcases Bool.or_eq_true_iff.mp hr with hr | hr
      · obtain ⟨m, hm, hpasses⟩ := ih hp hr
        exact ⟨m, List.mem_append_left _ hm, hpasses⟩
      · obtain ⟨m, hm, hpasses⟩ := ih hq hr
        exact ⟨m, List.mem_append_right _ hm, hpasses⟩
    | first hp => exact ih hp (Bool.and_eq_true_iff.mp hr).1
    | second hq => exact ih hq (Bool.and_eq_true_iff.mp hr).2
    | ref h => exact ih h hr
    | mend hp => exact ih hp hr
    | @node k p ts rest out hp =>
      obtain ⟨hr, hinner⟩ := Bool.and_eq_true_iff.mp hr
      obtain ⟨htest, hk⟩ := Bool.and_eq_true_iff.mp hr
      obtain ⟨front, m, hout, -, hkind, hrole⟩ := (Reads.node (k := k) hp).node_eq hinner
      rw [hout]
      refine ⟨m, hlast, Node.isExtra_of_isSolid (hkind ▸ hk), ?_⟩
      rwa [Node.passes, hkind, hrole]
    | @role ro p ts rest out hp =>
      obtain ⟨ks, hks, htest⟩ := (Option.any_eq_true _ _).mp hr
      obtain ⟨front, m, hout, -, hkind, hsolid, hrole⟩ := (Reads.role (r := ro) hp).role_eq hks
      rw [hout]
      refine ⟨m, hlast, Node.isExtra_of_isSolid hsolid, ?_⟩
      rw [Node.passes, hrole]
      exact List.all_eq_true.mp htest m.kind hkind
    | _ => cases hr

/-- **No node passes the test**, those apart that are looked past. -/
theorem not_passes_of_avoids {test : NodeTest} (n : Nat) :
    ∀ {r : Rule ν} {ts out rest}, Reads g r ts out rest → r.avoids g test n = true →
      ∀ m ∈ out, m.isExtra = false → m.passes test = false := by
  induction n with
  | zero => exact fun _ hr => nomatch hr
  | succ n ih =>
    intro r ts out rest h hr
    -- a yield of one solid node at most, behind what is looked past
    have hone : ∀ {front : List Node} {m : Node}, (∀ x ∈ front, x.isExtra = true) →
        (m.isExtra = false → m.passes test = false) →
        ∀ x ∈ front ++ [m], x.isExtra = false → x.passes test = false := by
      intro front m hfront hm x hx hsolid
      rcases List.mem_append.mp hx with hx | hx
      · rw [hfront x hx] at hsolid
        cases hsolid
      · rw [List.mem_singleton.mp hx] at hsolid ⊢
        exact hm hsolid
    cases h with
    | empty | stop | ahead | notAhead => exact fun m hm => absurd hm List.not_mem_nil
    | @token t ts tok rest hdrop hpass =>
      refine hone (fun x hx => isExtra_of_mem_extraLeaves hx) fun hsolid => ?_
      rcases Bool.or_eq_true_iff.mp hr with ht | hk
      · -- the leaf of a directive that splits a text, which is looked past
        have hextra : (tok.leaf (t.leafKind tok)).isExtra = true := by
          cases t with
          | branch w => rfl
          | cls c => cases c <;> first | rfl | cases ht
          | _ => cases ht
        rw [hextra] at hsolid
        cases hsolid
      · obtain ⟨k, hk, htest⟩ := (Option.any_eq_true _ _).mp hk
        obtain ⟨rfl, -⟩ := TokenTest.of_solidKind? hk tok
        exact (Bool.not_eq_true' _).mp htest
    | seq hp hq =>
      obtain ⟨hrp, hrq⟩ := Bool.and_eq_true_iff.mp hr
      exact List.forall_mem_append.mpr ⟨ih hp hrp, ih hq hrq⟩
    | first hp => exact ih hp (Bool.and_eq_true_iff.mp hr).1
    | second hq => exact ih hq (Bool.and_eq_true_iff.mp hr).2
    | more hp hmore => exact forall_of_many (.more hp hmore) fun h => ih h hr
    | ref h => exact ih h hr
    | mend hp => exact ih hp hr
    | @node k p ts rest out hp =>
      have hk : test k none = false := (Bool.not_eq_true' _).mp hr
      rcases wrapNodes_cases k out with ⟨a, b, hwrap⟩ | ⟨hall, hwrap⟩
      · rw [hwrap]
        exact hone (fun x hx => List.mem_takeWhile_imp hx) fun _ => hk
      · rw [hwrap]
        intro m hm hsolid
        rw [hall m hm] at hsolid
        cases hsolid
    | @role ro p ts rest out hp =>
      obtain ⟨ks, hks, htest⟩ := (Option.any_eq_true _ _).mp hr
      obtain ⟨front, m, hout, hfront, hkind, -, hrole⟩ := (Reads.role (r := ro) hp).role_eq hks
      rw [hout]
      refine hone hfront fun _ => ?_
      rw [Node.passes, hrole]
      exact (Bool.not_eq_true' _).mp (List.all_eq_true.mp htest m.kind hkind)
    | done =>
      intro m hm hsolid
      rw [isExtra_of_mem_extraLeaves hm] at hsolid
      cases hsolid

/-- **No node that passes the first test stands before one that passes the second**, those apart
that are looked past. -/
theorem pairwise_of_apart {test test' : NodeTest} (n : Nat) :
    ∀ {r : Rule ν} {ts out rest}, Reads g r ts out rest → r.apart g test test' n = true →
      out.Pairwise fun a b => a.isExtra = false → b.isExtra = false →
        a.passes test = true → b.passes test' = false := by
  induction n with
  | zero => exact fun _ hr => nomatch hr
  | succ n ih =>
    intro r ts out rest h hr
    have hextras : ∀ {front : List Node}, (∀ x ∈ front, x.isExtra = true) →
        front.Pairwise fun a b => a.isExtra = false → b.isExtra = false →
          a.passes test = true → b.passes test' = false := by
      intro front hfront
      refine List.pairwise_of_forall_mem_list fun a ha b _ hsolid => ?_
      rw [hfront a ha] at hsolid
      cases hsolid
    have hone : ∀ {front : List Node} {m : Node}, (∀ x ∈ front, x.isExtra = true) →
        (front ++ [m]).Pairwise fun a b => a.isExtra = false → b.isExtra = false →
          a.passes test = true → b.passes test' = false := by
      intro front m hfront
      refine List.pairwise_append.mpr ⟨hextras hfront, List.pairwise_singleton _ _, ?_⟩
      intro a ha b _ hsolid
      rw [hfront a ha] at hsolid
      cases hsolid
    -- one of the two tests is passed by nothing
    have hnone : ∀ {p : Rule ν} {ts ts' out out' rest rest'}, Reads g p ts out rest →
        ∀ {q : Rule ν}, Reads g q ts' out' rest' →
          p.avoids g test n || q.avoids g test' n → ∀ a ∈ out, ∀ b ∈ out',
            a.isExtra = false → b.isExtra = false → a.passes test = true →
              b.passes test' = false := by
      intro p ts ts' out out' rest rest' hp q hq hr a ha b hb hsolid hsolid' hpasses
      rcases Bool.or_eq_true_iff.mp hr with hr | hr
      · rw [not_passes_of_avoids n hp hr a ha hsolid] at hpasses
        cases hpasses
      · exact not_passes_of_avoids n hq hr b hb hsolid'
    cases h with
    | empty | stop | ahead | notAhead => exact .nil
    | token hdrop hpass => exact hone fun x hx => isExtra_of_mem_extraLeaves hx
    | seq hp hq =>
      obtain ⟨hr, hcross⟩ := Bool.and_eq_true_iff.mp hr
      obtain ⟨hrp, hrq⟩ := Bool.and_eq_true_iff.mp hr
      exact List.pairwise_append.mpr ⟨ih hp hrp, ih hq hrq, hnone hp hq hcross⟩
    | first hp => exact ih hp (Bool.and_eq_true_iff.mp hr).1
    | second hq => exact ih hq (Bool.and_eq_true_iff.mp hr).2
    | more hp hmore =>
      refine List.pairwise_of_forall_mem_list fun a ha b hb hsolid hsolid' hpasses => ?_
      have hmany := Reads.more hp hmore
      rcases Bool.or_eq_true_iff.mp hr with hr | hr
      · have hfree : a.passes test = false :=
          not_passes_of_avoids (n + 1) hmany hr a ha hsolid
        rw [hfree] at hpasses
        cases hpasses
      · exact not_passes_of_avoids (n + 1) hmany hr b hb hsolid'
    | ref h => exact ih h hr
    | mend hp => exact ih hp hr
    | @node k p ts rest out hp =>
      rcases wrapNodes_cases k out with ⟨a, b, hwrap⟩ | ⟨hall, hwrap⟩
      · rw [hwrap]
        exact hone fun x hx => List.mem_takeWhile_imp hx
      · rw [hwrap]
        exact hextras hall
    | @role ro p ts rest out hp =>
      obtain ⟨ks, hks⟩ := Option.isSome_iff_exists.mp hr
      obtain ⟨front, m, hout, hfront, -⟩ := (Reads.role (r := ro) hp).role_eq hks
      rw [hout]
      exact hone hfront
    | done => exact hextras fun x hx => isExtra_of_mem_extraLeaves hx

/-- **What is looked past has no role**, if all parts in a role yield something else. -/
theorem role_of_isExtra {n : Nat} (hg : ∀ name, (g.rule name).rolesSole g n = true)
    (h : Reads g r ts out rest) (hr : r.rolesSole g n = true) :
    ∀ m ∈ out, m.isExtra = true → m.role = none := by
  induction h with
  | empty | stop | ahead | notAhead => exact fun m hm => absurd hm List.not_mem_nil
  | token hdrop hpass => exact fun m hm _ => role_of_mem_token hm
  | seq _ _ ihp ihq =>
    obtain ⟨hp, hq⟩ := Bool.and_eq_true_iff.mp hr
    exact List.forall_mem_append.mpr ⟨ihp hp, ihq hq⟩
  | more _ _ ihp ihq => exact List.forall_mem_append.mpr ⟨ihp hr, ihq hr⟩
  | first _ ih => exact ih (Bool.and_eq_true_iff.mp hr).1
  | second _ ih => exact ih (Bool.and_eq_true_iff.mp hr).2
  | ref _ ih => exact ih (hg _)
  | mend _ ih => exact ih hr
  | @node k p ts rest out hp ih =>
    have ih := ih hr
    rcases wrapNodes_cases k out with ⟨a, b, hwrap⟩ | ⟨-, hwrap⟩
    · rw [hwrap]
      refine List.forall_mem_append.mpr
        ⟨fun m hm => ih m (List.takeWhile_subset _ hm), fun m hm _ => ?_⟩
      rw [List.mem_singleton.mp hm]
      rfl
    · rw [hwrap]
      exact ih
  | @role ro p ts rest out hp ih =>
    obtain ⟨hinner, hsole⟩ := Bool.and_eq_true_iff.mp hr
    obtain ⟨ks, hks⟩ := Option.isSome_iff_exists.mp hsole
    obtain ⟨front, m, rfl, -, -, hsolid⟩ := of_sole n hp hks
    rw [roleLast_concat]
    refine List.forall_mem_append.mpr
      ⟨fun x hx => ih hinner x (List.mem_append_left _ hx), fun x hx hextra => ?_⟩
    rw [List.mem_singleton.mp hx, Node.isExtra_withRole, Node.isExtra_of_isSolid hsolid] at hextra
    cases hextra
  | done => exact fun m hm _ => role_of_mem_extraLeaves hm

end Reads
end Source
end TypeAtlas
