import TypeAtlas.Proofs.Source.Nesting
import TypeAtlas.Proofs.Source.Words

/-! # Types are named by words

The name of a type is what stands in the name role below its declaration.  That this is a
word can be seen in the rules of a grammar: a part of a declaration that is given the name
role is one word (`Rule.namesWord`), and every other node with this role is below another
one (`Rule.sound`).  These are tests on rules; both grammars pass them.

What the tests promise holds of every reading (`Reads.tame`, by induction on how a rule
was read), so in every parsed tree, with or without errors, a node that declares a type
has words only in the name role (`Language.tame_parse`).
-/
namespace TypeAtlas
namespace Source

/-! ### Tests on rules -/

/-- The kind is none of a token that a grammar looks past. -/
def Kind.isSolid (k : Kind) : Bool :=
  !(k = .comment || k = .directive)

/-- A token that passes the test becomes a solid leaf. -/
def TokenTest.isSolid : TokenTest → Bool
  | branch _ => false
  | cls .comment => false
  | cls .directive => false
  | _ => true

namespace Rule
variable {ν : Type}

/-- The part yields a solid node, wherever. -/
def yieldsSolid : Rule ν → Bool
  | token test => test.isSolid
  | seq p q => yieldsSolid p || yieldsSolid q
  | node k p => k.isSolid && yieldsSolid p
  | _ => false

/-- The last node of the part's yield is solid. -/
def endsSolid : Rule ν → Bool
  | token test => test.isSolid
  | seq _ q => endsSolid q
  | node k p => k.isSolid && yieldsSolid p
  | _ => false

/-- `endsSolid` of a part that may have a name of its own. -/
def refEndsSolid (g : Grammar ν) : Rule ν → Bool
  | ref name => (g.rule name).endsSolid
  | p => p.endsSolid

/-- The part is one word. -/
def isWord : Rule ν → Bool
  | token .name => true
  | token .anyWord => true
  | _ => false

/-- Whatever the part yields in the name role is a word, provided that named parts keep to it. -/
def namesWord : Rule ν → Bool
  | seq p q => namesWord p && namesWord q
  | alt p q => namesWord p && namesWord q
  | many p => namesWord p
  | mend p => namesWord p
  | role .name p => p.isWord
  | role _ p => namesWord p
  | _ => true

/-- Inside the part, the name role is given to solid nodes only, and below a node that declares a
type to words only. -/
def sound (g : Grammar ν) : Rule ν → Bool
  | seq p q => sound g p && sound g q
  | alt p q => sound g p && sound g q
  | many p => sound g p
  | mend p => sound g p
  | node k p => sound g p && ((declaredKind? k).isNone || p.namesWord)
  | role r p => sound g p && (r != .name || p.refEndsSolid g)
  | _ => true

end Rule

/-- All named parts pass the tests. -/
def Grammar.NamesWords {ν : Type} (g : Grammar ν) : Prop :=
  ∀ name, (g.rule name).namesWord = true ∧ (g.rule name).sound g = true

theorem CSharp.namesWords : CSharp.grammar.NamesWords := by
  intro name
  cases name <;> decide +kernel

theorem Java.namesWords : Java.grammar.NamesWords := by
  intro name
  cases name <;> decide +kernel

/-! ### Readings -/

/-- How a rule comes to read some tokens, whatever it tried before. -/
inductive Reads {ν : Type} (g : Grammar ν) :
    Rule ν → List Token → List Node → List Token → Prop where
  | empty {ts : List Token} : Reads g .empty ts [] ts
  | token {test : TokenTest} {ts : List Token} {t : Token} {rest : List Token}
      (hdrop : ts.dropWhile Token.isExtra = t :: rest) (hpass : test.passes g.reserved t = true) :
      Reads g (.token test) ts
        (extraLeaves (ts.takeWhile Token.isExtra) ++ [t.leaf (test.leafKind t)]) rest
  | seq {p q : Rule ν} {ts rest rest' : List Token} {out out' : List Node}
      (hp : Reads g p ts out rest) (hq : Reads g q rest out' rest') :
      Reads g (.seq p q) ts (out ++ out') rest'
  | first {p q : Rule ν} {ts rest : List Token} {out : List Node} (hp : Reads g p ts out rest) :
      Reads g (.alt p q) ts out rest
  | second {p q : Rule ν} {ts rest : List Token} {out : List Node} (hq : Reads g q ts out rest) :
      Reads g (.alt p q) ts out rest
  | stop {p : Rule ν} {ts : List Token} : Reads g (.many p) ts [] ts
  | more {p : Rule ν} {ts rest rest' : List Token} {out out' : List Node}
      (hp : Reads g p ts out rest) (hmore : Reads g (.many p) rest out' rest') :
      Reads g (.many p) ts (out ++ out') rest'
  | ahead {p : Rule ν} {ts : List Token} : Reads g (.ahead p) ts [] ts
  | notAhead {p : Rule ν} {ts : List Token} : Reads g (.notAhead p) ts [] ts
  | ref {name : ν} {ts rest : List Token} {out : List Node}
      (h : Reads g (g.rule name) ts out rest) : Reads g (.ref name) ts out rest
  | node {k : Kind} {p : Rule ν} {ts rest : List Token} {out : List Node}
      (hp : Reads g p ts out rest) : Reads g (.node k p) ts (wrapNodes k out) rest
  | role {r : Role} {p : Rule ν} {ts rest : List Token} {out : List Node}
      (hp : Reads g p ts out rest) : Reads g (.role r p) ts (roleLast r out) rest
  | mend {p : Rule ν} {ts rest : List Token} {out : List Node} (hp : Reads g p ts out rest) :
      Reads g (.mend p) ts out rest
  | done {ts : List Token} : Reads g .done ts (extraLeaves ts) []

/-- **What is read is read in one of these ways.** -/
theorem Rule.reads_of_read {ν : Type} {g : Grammar ν} {mending : Bool} (n : Nat) :
    ∀ {r : Rule ν} {ts : List Token} {out : List Node} {rest : List Token},
      r.read g mending n ts = some (out, rest) → Reads g r ts out rest := by
  induction n with
  | zero => exact fun h => nomatch h
  | succ n ih =>
    intro r ts out rest h
    cases r with
    | empty =>
      simp only [read] at h
      cases h
      exact .empty
    | token test =>
      simp only [read] at h
      split at h
      · cases h
      · rename_i t ts' hdrop
        split at h
        · rename_i hpass
          cases h
          exact .token hdrop hpass
        · cases h
    | seq p q =>
      simp only [read] at h
      split at h
      · cases h
      · rename_i hp
        split at h
        · cases h
        · rename_i hq
          cases h
          exact .seq (ih hp) (ih hq)
    | alt p q =>
      simp only [read] at h
      split at h
      · rename_i hp
        cases h
        exact .first (ih hp)
      · exact .second (ih h)
    | many p =>
      simp only [read] at h
      split at h
      · cases h
        exact .stop
      · rename_i hp
        split at h
        · cases h
        · rename_i hq
          cases h
          exact .more (ih hp) (ih hq)
    | ahead p =>
      simp only [read] at h
      split at h
      · cases h
      · cases h
        exact .ahead
    | notAhead p =>
      simp only [read] at h
      split at h
      · cases h
        exact .notAhead
      · cases h
    | ref name => exact .ref (ih h)
    | node k p =>
      simp only [read] at h
      split at h
      · cases h
      · rename_i hp
        cases h
        exact .node (ih hp)
    | role r p =>
      simp only [read] at h
      split at h
      · cases h
      · rename_i hp
        cases h
        exact .role (ih hp)
    | mend p =>
      simp only [read] at h
      split at h
      · exact .mend (ih h)
      · cases h
    | done =>
      simp only [read] at h
      split at h
      · cases h
        exact .done
      · cases h

/-! ### Nodes that a reading builds -/

namespace Node

@[simp] theorem role_withRole (n : Node) (r : Role) : (n.withRole r).role = some r := by
  cases n
  rfl

@[simp] theorem isExtra_withRole (n : Node) (r : Role) : (n.withRole r).isExtra = n.isExtra := by
  cases n
  rfl

theorem isExtra_of_isSolid {n : Node} (h : n.kind.isSolid = true) : n.isExtra = false := by
  rw [Kind.isSolid, Bool.not_eq_true'] at h
  rw [isExtra, h, Bool.and_false]

end Node

theorem role_of_mem_extraLeaves {ts : List Token} {m : Node} (h : m ∈ extraLeaves ts) :
    m.role = none := by
  obtain ⟨t, -, rfl⟩ := List.mem_map.mp h
  rfl

/-- What a token yields is in no role. -/
theorem role_of_mem_token {ts : List Token} {t : Token} {k : Kind} {m : Node}
    (h : m ∈ extraLeaves ts ++ [t.leaf k]) : m.role = none := by
  rcases List.mem_append.mp h with h | h
  · exact role_of_mem_extraLeaves h
  · rw [List.mem_singleton.mp h]
    rfl

/-- A new node is put around all but the front, or there is nothing but the front. -/
theorem wrapNodes_cases (k : Kind) (out : List Node) :
    (∃ a b, wrapNodes k out =
        out.takeWhile Node.isExtra ++ [.mk k none a b (out.dropWhile Node.isExtra)]) ∨
      (∀ m ∈ out, m.isExtra = true) ∧ wrapNodes k out = out := by
  rw [wrapNodes]
  split
  · exact Or.inl ⟨_, _, rfl⟩
  · rename_i hnone
    right
    have hempty : out.dropWhile Node.isExtra = [] := by
      by_contra hne
      exact hnone _ _ (List.head?_eq_some_head hne) (List.getLast?_eq_some_getLast hne)
    have hall := List.dropWhile_eq_nil_iff.mp hempty
    exact ⟨hall, List.takeWhile_eq_self_iff.mpr hall⟩

/-- Only the last node gets the role. -/
theorem mem_roleLast {r : Role} {out : List Node} {m : Node} (h : m ∈ roleLast r out) :
    m ∈ out ∨ ∃ last, out.getLast? = some last ∧ m = last.withRole r := by
  fun_induction roleLast r out with
  | case1 => exact Or.inl h
  | case2 n => exact Or.inr ⟨n, rfl, List.mem_singleton.mp h⟩
  | case3 n n' rest ih =>
    rcases List.mem_cons.mp h with rfl | h
    · exact Or.inl List.mem_cons_self
    · rcases ih h with h | ⟨last, hlast, rfl⟩
      · exact Or.inl (List.mem_cons_of_mem n h)
      · exact Or.inr ⟨last, by rw [List.getLast?_cons_cons, hlast], rfl⟩

/-- A part that is one word reads one word. -/
theorem Rule.isWord_iff {ν : Type} {p : Rule ν} (h : p.isWord = true) :
    ∃ test, p = .token test ∧ ∀ reserved t, test.passes reserved t = true → t.cls = .word := by
  unfold isWord at h
  split at h
  · refine ⟨_, rfl, fun reserved t hpass => ?_⟩
    exact of_decide_eq_true (Bool.and_eq_true_iff.mp hpass).1
  · exact ⟨_, rfl, fun reserved t hpass => of_decide_eq_true hpass⟩
  · cases h

theorem isSolid_leafKind {test : TokenTest} (h : test.isSolid = true) (t : Token) :
    (test.leafKind t).isSolid = true := by
  cases test with
  | branch w => cases h
  | cls c => cases c <;> first | rfl | cases h
  | _ => rfl

/-! ### What the tests promise -/

/-- The node is the leaf of a word. -/
def Node.IsWordOf (ts : List Token) (m : Node) : Prop :=
  ∃ t ∈ ts, t.cls = .word ∧ m.start = t.start ∧ m.stop = t.stop

/-- Below every node that declares a type, the name role is that of words. -/
inductive Node.Tame (ts : List Token) : Node → Prop where
  | mk {k : Kind} {r : Option Role} {a b : Nat} {cs : List Node} (hcs : ∀ c ∈ cs, Tame ts c)
      (hnames : declaredKind? k ≠ none → ∀ c ∈ cs, c.role = some .name → c.IsWordOf ts) :
      Tame ts (.mk k r a b cs)

namespace Reads
variable {ν : Type} {g : Grammar ν} {r : Rule ν} {ts rest : List Token} {out : List Node}

theorem rest_subset (h : Reads g r ts out rest) : rest ⊆ ts := by
  induction h with
  | empty | stop | ahead | notAhead => exact List.Subset.refl _
  | @token test ts t rest hdrop hpass =>
    have hsubset : ts.dropWhile Token.isExtra ⊆ ts := List.dropWhile_subset _
    rw [hdrop] at hsubset
    exact (List.cons_subset.mp hsubset).2
  | seq _ _ ihp ihq => exact List.Subset.trans ihq ihp
  | more _ _ ihp ihq => exact List.Subset.trans ihq ihp
  | first _ ih | second _ ih | ref _ ih | node _ ih | role _ ih | mend _ ih => exact ih
  | done => exact List.nil_subset _

theorem exists_solid (h : Reads g r ts out rest) (hr : r.yieldsSolid = true) :
    ∃ m ∈ out, m.isExtra = false := by
  induction h with
  | @token test ts t rest hdrop hpass =>
    refine ⟨_, List.mem_append_right _ (List.mem_singleton_self _), ?_⟩
    exact Node.isExtra_of_isSolid (isSolid_leafKind hr t)
  | seq hp hq ihp ihq =>
    rcases Bool.or_eq_true_iff.mp hr with hr | hr
    · obtain ⟨m, hm, hsolid⟩ := ihp hr
      exact ⟨m, List.mem_append_left _ hm, hsolid⟩
    · obtain ⟨m, hm, hsolid⟩ := ihq hr
      exact ⟨m, List.mem_append_right _ hm, hsolid⟩
  | @node k p ts rest out hp ih =>
    obtain ⟨hk, hr⟩ := Bool.and_eq_true_iff.mp hr
    rcases wrapNodes_cases k out with ⟨a, b, hwrap⟩ | ⟨-, hwrap⟩
    · rw [hwrap]
      exact ⟨_, List.mem_append_right _ (List.mem_singleton_self _), Node.isExtra_of_isSolid hk⟩
    · rw [hwrap]
      exact ih hr
  | _ => cases hr

theorem last_solid (h : Reads g r ts out rest) (hr : r.endsSolid = true) :
    ∃ last, out.getLast? = some last ∧ last.isExtra = false := by
  induction h with
  | @token test ts t rest hdrop hpass =>
    exact ⟨_, List.getLast?_concat, Node.isExtra_of_isSolid (isSolid_leafKind hr t)⟩
  | seq hp hq ihp ihq =>
    obtain ⟨last, hlast, hsolid⟩ := ihq hr
    exact ⟨last, by rw [List.getLast?_append, hlast]; rfl, hsolid⟩
  | @node k p ts rest out hp ih =>
    obtain ⟨hk, hr⟩ := Bool.and_eq_true_iff.mp hr
    rcases wrapNodes_cases k out with ⟨a, b, hwrap⟩ | ⟨hall, -⟩
    · rw [hwrap]
      exact ⟨_, List.getLast?_concat, Node.isExtra_of_isSolid hk⟩
    · -- there is something solid below the node
      obtain ⟨m, hm, hsolid⟩ := hp.exists_solid hr
      rw [hall m hm] at hsolid
      cases hsolid
  | _ => cases hr

theorem last_solid_of_ref (h : Reads g r ts out rest) (hr : r.refEndsSolid g = true) :
    ∃ last, out.getLast? = some last ∧ last.isExtra = false := by
  cases h with
  | ref h => exact h.last_solid hr
  | token hdrop hpass => exact (Reads.token hdrop hpass).last_solid hr
  | seq hp hq => exact (Reads.seq hp hq).last_solid hr
  | node hp => exact (Reads.node hp).last_solid hr
  | _ => cases hr

section
variable (hg : g.NamesWords)
include hg

/-- Nothing that a grammar looks past is in the name role. -/
theorem solid_of_name (h : Reads g r ts out rest) (hr : r.sound g = true) :
    ∀ m ∈ out, m.role = some .name → m.isExtra = false := by
  induction h with
  | empty | stop | ahead | notAhead => exact fun m hm => absurd hm List.not_mem_nil
  | token hdrop hpass =>
    intro m hm hrole
    rw [role_of_mem_token hm] at hrole
    cases hrole
  | seq _ _ ihp ihq =>
    obtain ⟨hp, hq⟩ := Bool.and_eq_true_iff.mp hr
    exact List.forall_mem_append.mpr ⟨ihp hp, ihq hq⟩
  | more _ _ ihp ihq => exact List.forall_mem_append.mpr ⟨ihp hr, ihq hr⟩
  | first _ ih => exact ih (Bool.and_eq_true_iff.mp hr).1
  | second _ ih => exact ih (Bool.and_eq_true_iff.mp hr).2
  | ref _ ih => exact ih (hg _).2
  | mend _ ih => exact ih hr
  | @node k p ts rest out hp ih =>
    have ih := ih (Bool.and_eq_true_iff.mp hr).1
    rcases wrapNodes_cases k out with ⟨a, b, hwrap⟩ | ⟨-, hwrap⟩
    · rw [hwrap]
      intro m hm hrole
      rcases List.mem_append.mp hm with hm | hm
      · exact ih m (List.takeWhile_subset _ hm) hrole
      · rw [List.mem_singleton.mp hm] at hrole
        cases hrole
    · rw [hwrap]
      exact ih
  | @role r p ts rest out hp ih =>
    obtain ⟨hsound, hends⟩ := Bool.and_eq_true_iff.mp hr
    intro m hm hrole
    rcases mem_roleLast hm with hm | ⟨last, hlast, rfl⟩
    · exact ih hsound m hm hrole
    · rw [Node.role_withRole] at hrole
      obtain rfl := Option.some.inj hrole
      obtain ⟨last', hlast', hsolid⟩ := hp.last_solid_of_ref hends
      obtain rfl := Option.some.inj (hlast.symm.trans hlast')
      rwa [Node.isExtra_withRole]
  | done =>
    intro m hm hrole
    rw [role_of_mem_extraLeaves hm] at hrole
    cases hrole

/-- What is in the name role is a word, where the rule says so. -/
theorem word_of_name {all : List Token} (h : Reads g r ts out rest) (hr : r.sound g = true)
    (hword : r.namesWord = true) (hts : ts ⊆ all) :
    ∀ m ∈ out, m.role = some .name → m.IsWordOf all := by
  induction h with
  | empty | stop | ahead | notAhead => exact fun m hm => absurd hm List.not_mem_nil
  | token hdrop hpass =>
    intro m hm hrole
    rw [role_of_mem_token hm] at hrole
    cases hrole
  | seq hp _ ihp ihq =>
    obtain ⟨hrp, hrq⟩ := Bool.and_eq_true_iff.mp hr
    obtain ⟨hwp, hwq⟩ := Bool.and_eq_true_iff.mp hword
    exact List.forall_mem_append.mpr
      ⟨ihp hrp hwp hts, ihq hrq hwq (List.Subset.trans hp.rest_subset hts)⟩
  | more hp _ ihp ihq =>
    exact List.forall_mem_append.mpr
      ⟨ihp hr hword hts, ihq hr hword (List.Subset.trans hp.rest_subset hts)⟩
  | first _ ih =>
    exact ih (Bool.and_eq_true_iff.mp hr).1 (Bool.and_eq_true_iff.mp hword).1 hts
  | second _ ih =>
    exact ih (Bool.and_eq_true_iff.mp hr).2 (Bool.and_eq_true_iff.mp hword).2 hts
  | ref _ ih => exact ih (hg _).2 (hg _).1 hts
  | mend _ ih => exact ih hr hword hts
  | @node k p ts rest out hp ih =>
    have hsolid := (Reads.node (k := k) hp).solid_of_name hg hr
    intro m hm hrole
    have hm' := hsolid m hm hrole
    rcases wrapNodes_cases k out with ⟨a, b, hwrap⟩ | ⟨hall, hwrap⟩
    · rw [hwrap] at hm
      rcases List.mem_append.mp hm with hm | hm
      · rw [List.mem_takeWhile_imp hm] at hm'
        cases hm'
      · rw [List.mem_singleton.mp hm] at hrole
        cases hrole
    · rw [hwrap] at hm
      rw [hall m hm] at hm'
      cases hm'
  | @role r p ts rest out hp ih =>
    have hsound := (Bool.and_eq_true_iff.mp hr).1
    intro m hm hrole
    by_cases hname : r = .name
    · subst hname
      obtain ⟨test, rfl, hpasses⟩ := Rule.isWord_iff hword
      cases hp with
      | @token test ts t rest hdrop hpass =>
        have hsubset : ts.dropWhile Token.isExtra ⊆ ts := List.dropWhile_subset _
        rw [hdrop] at hsubset
        have ht : t ∈ ts := hsubset List.mem_cons_self
        rcases mem_roleLast hm with hm | ⟨last, hlast, rfl⟩
        · -- before the role is given, nothing has one
          exact ih hsound rfl hts m hm hrole
        · rw [List.getLast?_concat] at hlast
          obtain rfl := Option.some.inj hlast
          exact ⟨t, hts ht, hpasses _ _ hpass, rfl, rfl⟩
    · have hword : p.namesWord = true := by
        cases r with
        | name => exact absurd rfl hname
        | _ => exact hword
      rcases mem_roleLast hm with hm | ⟨last, -, rfl⟩
      · exact ih hsound hword hts m hm hrole
      · rw [Node.role_withRole] at hrole
        exact absurd (Option.some.inj hrole) hname
  | done =>
    intro m hm hrole
    rw [role_of_mem_extraLeaves hm] at hrole
    cases hrole

/-- **What is read is tame.** -/
theorem tame {all : List Token} (h : Reads g r ts out rest) (hr : r.sound g = true)
    (hts : ts ⊆ all) : ∀ m ∈ out, m.Tame all := by
  have hleaf : ∀ (t : Token) (k : Kind), (t.leaf k).Tame all := fun t k =>
    .mk (fun c hc => absurd hc List.not_mem_nil) fun _ c hc => absurd hc List.not_mem_nil
  have hextra : ∀ ts, ∀ m ∈ extraLeaves ts, m.Tame all := by
    intro ts m hm
    obtain ⟨t, -, rfl⟩ := List.mem_map.mp hm
    exact hleaf t _
  induction h with
  | empty | stop | ahead | notAhead => exact fun m hm => absurd hm List.not_mem_nil
  | token hdrop hpass =>
    refine List.forall_mem_append.mpr ⟨hextra _, fun m hm => ?_⟩
    rw [List.mem_singleton.mp hm]
    exact hleaf _ _
  | seq hp _ ihp ihq =>
    obtain ⟨hrp, hrq⟩ := Bool.and_eq_true_iff.mp hr
    exact List.forall_mem_append.mpr
      ⟨ihp hrp hts, ihq hrq (List.Subset.trans hp.rest_subset hts)⟩
  | more hp _ ihp ihq =>
    exact List.forall_mem_append.mpr
      ⟨ihp hr hts, ihq hr (List.Subset.trans hp.rest_subset hts)⟩
  | first _ ih => exact ih (Bool.and_eq_true_iff.mp hr).1 hts
  | second _ ih => exact ih (Bool.and_eq_true_iff.mp hr).2 hts
  | ref _ ih => exact ih (hg _).2 hts
  | mend _ ih => exact ih hr hts
  | @node k p ts rest out hp ih =>
    obtain ⟨hsound, hk⟩ := Bool.and_eq_true_iff.mp hr
    have ih := ih hsound hts
    rcases wrapNodes_cases k out with ⟨a, b, hwrap⟩ | ⟨-, hwrap⟩
    · rw [hwrap]
      refine List.forall_mem_append.mpr
        ⟨fun m hm => ih m (List.takeWhile_subset _ hm), fun m hm => ?_⟩
      rw [List.mem_singleton.mp hm]
      refine .mk (fun c hc => ih c (List.dropWhile_subset _ hc)) fun hkind c hc hrole => ?_
      have hword : p.namesWord = true := by
        rw [Bool.or_eq_true, Option.isNone_iff_eq_none] at hk
        exact hk.resolve_left hkind
      exact hp.word_of_name hg hsound hword hts c (List.dropWhile_subset _ hc) hrole
    · rw [hwrap]
      exact ih
  | @role r p ts rest out hp ih =>
    have ih := ih (Bool.and_eq_true_iff.mp hr).1 hts
    intro m hm
    rcases mem_roleLast hm with hm | ⟨last, hlast, rfl⟩
    · exact ih m hm
    · cases ih last (List.mem_of_getLast? hlast) with
      | mk hcs hnames => exact .mk hcs hnames
  | done => exact hextra _

end
end Reads

/-! ### Parsed trees -/

/-- The tree of a token list is tame. -/
theorem Grammar.NamesWords.tame_tree {ν : Type} {g : Grammar ν} (hg : g.NamesWords) (length : Nat)
    (ts : List Token) : (g.tree length ts).Tame ts := by
  have hroot : ∀ {mending : Bool} {n : Nat} {out : List Node} {rest : List Token},
      (g.rule g.start).read g mending n ts = some (out, rest) →
        (Node.mk .unit none 0 length out).Tame ts := by
    intro mending n out rest hread
    have hreads := Rule.reads_of_read n hread
    exact .mk (hreads.tame hg (hg _).2 (List.Subset.refl ts)) fun h => absurd rfl h
  rw [tree]
  split
  · rename_i hread
    exact hroot hread
  · split
    · rename_i hread
      exact hroot hread
    · refine .mk (fun c hc => ?_) fun h => absurd rfl h
      rw [List.mem_singleton.mp hc]
      exact .mk (fun c hc => absurd hc List.not_mem_nil) fun h => absurd rfl h

/-- What a node has in the name role is a word, if the node declares a type. -/
theorem Node.Tame.isWordOf {ts : List Token} {n m : Node} (h : n.Tame ts)
    (hkind : declaredKind? n.kind ≠ none) (hm : n.child? .name = some m) : m.IsWordOf ts := by
  cases h with
  | mk hcs hnames =>
    have hrole := List.find?_some hm
    exact hnames hkind m (List.mem_of_find?_eq_some hm) (of_decide_eq_true hrole)

theorem Language.tame_parse (l : Language) (source : List Char) :
    (l.parse source).root.Tame (l.tokens (l.parse source).source) := by
  cases l with
  | csharp => exact CSharp.namesWords.tame_tree _ _
  | java => exact Java.namesWords.tame_tree _ _

/-- The name of a type is what stands in the name role of a declaring node. -/
theorem Dialect.exists_name {d : Dialect} {p : Parsed} {path : String} {decl : Declaration}
    (h : decl ∈ d.declarations p path) :
    ∃ x ∈ p.root.walk [], declaredKind? x.1.kind ≠ none ∧
      ∃ m, x.1.child? .name = some m ∧ decl.record.name = m.text p.source := by
  obtain ⟨⟨kind, n, above⟩, hn, hdecl⟩ := List.mem_filterMap.mp h
  obtain ⟨⟨n', above'⟩, hwalk, hkind⟩ := List.mem_filterMap.mp hn
  obtain ⟨k, hk, heq⟩ := Option.map_eq_some_iff.mp hkind
  cases heq
  obtain ⟨m, hm, rfl⟩ := Option.map_eq_some_iff.mp hdecl
  refine ⟨(n, above), hwalk, Option.ne_none_iff_exists'.mpr ⟨kind, hk⟩, m, hm, ?_⟩
  cases d.bases? p n <;> rfl

/-- **Types are named by words**, whatever the text: the name of a type is not empty and has
neither a dot nor a slash. -/
theorem Language.plain_name (l : Language) {source path : String} {d : Declaration}
    (hd : d ∈ (extract l source path).types) :
    d.record.name ≠ "" ∧ Plain d.record.name.toList := by
  set p := l.parse source.toList
  obtain ⟨x, hwalk, hkind, m, hm, hname⟩ := Dialect.exists_name hd
  have hdown : ∀ n : Node, n.Tame (l.tokens p.source) →
      ∀ c ∈ n.children, c.Tame (l.tokens p.source) := by
    rintro n ⟨hcs, -⟩
    exact hcs
  have htame : x.1.Tame (l.tokens p.source) :=
    Node.of_mem_walk hdown (l.tame_parse source.toList) hwalk
  obtain ⟨t, ht, hword, hstart, hstop⟩ := htame.isWordOf hkind hm
  have hchars : d.record.name.toList = (p.source.drop t.start).take (t.stop - t.start) := by
    rw [hname, Node.text, String.toList_ofList, Node.chars, hstart, hstop]
  obtain ⟨hne, hplain⟩ := l.plain_of_mem_tokens ht hword
  rw [← hchars] at hne hplain
  exact ⟨fun he => hne (String.toList_eq_nil_iff.mpr he), hplain⟩

end Source
end TypeAtlas
