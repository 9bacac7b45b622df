import TypeAtlas.Source.Reading
import Mathlib.Data.Nat.Basic
import Mathlib.Tactic.Set

/-! # Parsed trees are nested

Whoever looks at a syntax tree relies on one thing: a child stays inside its parent
(`Node.Nested`).  For the trees that are read here this is a theorem, about every text
and every grammar (`nested_parse`).

Tokens stand one after another (`InOrder`), because cutting a text only ever goes on
behind what it has taken.  A rule hands on what it read: if the tokens before it stand
between two positions, there is a position in the middle with all nodes it built on the
one side and all tokens it left on the other (`tidy_read`, by one case for each kind of
rule).  A node that is put around others reaches from the start of the first to the end
of the last of them, and all others lie in between (`Tidy.wrapNodes`).
-/
namespace TypeAtlas
namespace Source

/-! ### Things that stand one after another -/

/-- Things stand one after another, all between the positions `a` and `b`. -/
def InOrder {α : Type} (start stop : α → Nat) : Nat → Nat → List α → Prop
  | a, b, [] => a ≤ b
  | a, b, x :: xs => a ≤ start x ∧ start x ≤ stop x ∧ InOrder start stop (stop x) b xs

namespace InOrder
variable {α : Type} {start stop : α → Nat} {a b : Nat} {xs ys : List α}

theorem le (h : InOrder start stop a b xs) : a ≤ b := by
  induction xs generalizing a with
  | nil => exact h
  | cons x xs ih => exact Nat.le_trans h.1 (Nat.le_trans h.2.1 (ih h.2.2))

/-- What stands behind a position stands behind every earlier one. -/
theorem of_le {a' : Nat} (ha : a' ≤ a) (h : InOrder start stop a b xs) :
    InOrder start stop a' b xs := by
  cases xs with
  | nil => exact Nat.le_trans ha h
  | cons x xs => exact ⟨Nat.le_trans ha h.1, h.2⟩

theorem append_iff :
    InOrder start stop a b (xs ++ ys) ↔
      ∃ m, InOrder start stop a m xs ∧ InOrder start stop m b ys := by
  induction xs generalizing a with
  | nil =>
    constructor
    · exact fun h => ⟨a, le_refl a, h⟩
    · exact fun ⟨m, ha, h⟩ => h.of_le ha
  | cons x xs ih =>
    simp only [List.cons_append, InOrder, ih]
    constructor
    · exact fun ⟨ha, hx, m, hxs, hys⟩ => ⟨m, ⟨ha, hx, hxs⟩, hys⟩
    · exact fun ⟨m, ⟨ha, hx, hxs⟩, hys⟩ => ⟨ha, hx, m, hxs, hys⟩

theorem bounds (h : InOrder start stop a b xs) {x : α} (hx : x ∈ xs) :
    a ≤ start x ∧ stop x ≤ b := by
  obtain ⟨before, behind, rfl⟩ := List.append_of_mem hx
  obtain ⟨m, hbefore, hm, hspan, hbehind⟩ := append_iff.mp h
  exact ⟨Nat.le_trans hbefore.le hm, hbehind.le⟩

/-- Cut at the first thing that fails a test, both parts stand in order. -/
theorem takeWhile_dropWhile (h : InOrder start stop a b xs) (p : α → Bool) :
    ∃ m, InOrder start stop a m (xs.takeWhile p) ∧ InOrder start stop m b (xs.dropWhile p) :=
  append_iff.mp ((List.takeWhile_append_dropWhile (p := p) (l := xs)).symm ▸ h)

/-- The first and the last thing may serve as the bounds. -/
theorem tighten (h : InOrder start stop a b xs) {first last : α} (hfirst : xs.head? = some first)
    (hlast : xs.getLast? = some last) :
    a ≤ start first ∧ InOrder start stop (start first) (stop last) xs ∧ stop last ≤ b := by
  obtain ⟨before, rfl⟩ := List.getLast?_eq_some_iff.mp hlast
  obtain ⟨m, hbefore, hm, hspan, hb⟩ := append_iff.mp h
  have hin : InOrder start stop a (stop last) (before ++ [last]) :=
    append_iff.mpr ⟨m, hbefore, hm, hspan, le_refl _⟩
  obtain ⟨xs', hxs⟩ := List.head?_eq_some_iff.mp hfirst
  rw [hxs] at hin ⊢
  exact ⟨hin.1, ⟨le_refl _, hin.2⟩, hb⟩

end InOrder

/-! ### Tokens -/

/-- Tokens that stand one after another. -/
abbrev Token.InOrder : Nat → Nat → List Token → Prop :=
  Source.InOrder Token.start Token.stop

/-- The tokens that a text is cut into stand one after another in it. -/
theorem Lexeme.inOrder_tokensFrom (next : List Mode → List Char → Lexeme) (n : Nat) :
    ∀ (pos : Nat) (touching : Bool) (modes : List Mode) (cs : List Char),
      Token.InOrder pos (pos + cs.length) (tokensFrom next n pos touching modes cs) := by
  induction n with
  | zero => exact fun pos _ _ cs => Nat.le_add_right pos cs.length
  | succ n ih =>
    intro pos touching modes cs
    cases cs with
    | nil => exact Nat.le_add_right pos _
    | cons c cs =>
      rw [tokensFrom]
      -- what is taken and what is left make up the text
      set taken := (c :: cs).take (max 1 (next modes (c :: cs)).length)
      have hle : taken.length ≤ (c :: cs).length := List.length_take_le' _ _
      have hend : pos + taken.length + ((c :: cs).drop taken.length).length =
          pos + (c :: cs).length := by
        rw [List.length_drop]
        omega
      have hrest := fun flag => ih (pos + taken.length) flag (next modes (c :: cs)).modes
        ((c :: cs).drop taken.length)
      rw [hend] at hrest
      split
      · exact (hrest false).of_le (Nat.le_add_right pos _)
      · exact ⟨le_refl pos, Nat.le_add_right pos _, hrest true⟩

/-! ### Nodes -/

namespace Node

@[simp] theorem start_withRole (n : Node) (r : Role) : (n.withRole r).start = n.start := by
  cases n
  rfl

@[simp] theorem stop_withRole (n : Node) (r : Role) : (n.withRole r).stop = n.stop := by
  cases n
  rfl

@[simp] theorem nested_withRole (n : Node) (r : Role) : (n.withRole r).Nested ↔ n.Nested := by
  cases n
  exact Iff.rfl

theorem nestedIn_iff {a b : Nat} {cs : List Node} :
    NestedIn a b cs ↔ ∀ c ∈ cs, a ≤ c.start ∧ c.stop ≤ b ∧ c.Nested := by
  induction cs with
  | nil => simp [NestedIn]
  | cons c cs ih => simp only [NestedIn, ih, List.forall_mem_cons]

theorem nested_mk {k : Kind} {r : Option Role} {a b : Nat} {cs : List Node} :
    (mk k r a b cs).Nested ↔
      a ≤ b ∧ ∀ c ∈ cs, a ≤ c.start ∧ c.stop ≤ b ∧ c.Nested := by
  rw [Nested, nestedIn_iff]

theorem Nested.start_le_stop {n : Node} (h : n.Nested) : n.start ≤ n.stop := by
  cases n
  exact (nested_mk.mp h).1

mutual

/-- What goes from nodes to their children goes to everything below. -/
theorem of_mem_walk {P : Node → Prop} (hchild : ∀ n, P n → ∀ c ∈ n.children, P c) :
    ∀ {n : Node} {above : List Node} {x : Node × List Node}, P n → x ∈ n.walk above → P x.1
  | mk k r a b cs, above, x, h, hx => by
    rw [walk, List.mem_cons] at hx
    rcases hx with rfl | hx
    · exact h
    · exact of_mem_walkAll hchild (hchild _ h) hx

theorem of_mem_walkAll {P : Node → Prop} (hchild : ∀ n, P n → ∀ c ∈ n.children, P c) :
    ∀ {cs above : List Node} {x : Node × List Node}, (∀ c ∈ cs, P c) → x ∈ walkAll above cs → P x.1
  | [], _, _, _, hx => nomatch hx
  | c :: cs, above, x, h, hx => by
    obtain ⟨hc, hcs⟩ := List.forall_mem_cons.mp h
    rw [walkAll, List.mem_append] at hx
    rcases hx with hx | hx
    · exact of_mem_walk hchild hc hx
    · exact of_mem_walkAll hchild hcs hx

end

/-- Nested nodes that stand one after another between two positions. -/
structure Tidy (a b : Nat) (ns : List Node) : Prop where
  inOrder : InOrder Node.start Node.stop a b ns
  nested : ∀ n ∈ ns, n.Nested

namespace Tidy
variable {a b m : Nat} {n : Node} {ns ms : List Node}

theorem nil_iff : Tidy a b [] ↔ a ≤ b :=
  ⟨fun h => h.inOrder, fun h => ⟨h, fun _ hn => absurd hn List.not_mem_nil⟩⟩

theorem cons_iff : Tidy a b (n :: ns) ↔ a ≤ n.start ∧ n.Nested ∧ Tidy n.stop b ns := by
  constructor
  · rintro ⟨⟨ha, -, hns⟩, hnested⟩
    obtain ⟨hn, hall⟩ := List.forall_mem_cons.mp hnested
    exact ⟨ha, hn, hns, hall⟩
  · rintro ⟨ha, hn, hns, hall⟩
    exact ⟨⟨ha, hn.start_le_stop, hns⟩, List.forall_mem_cons.mpr ⟨hn, hall⟩⟩

theorem append (hn : Tidy a m ns) (hm : Tidy m b ms) : Tidy a b (ns ++ ms) :=
  ⟨InOrder.append_iff.mpr ⟨m, hn.inOrder, hm.inOrder⟩,
    List.forall_mem_append.mpr ⟨hn.nested, hm.nested⟩⟩

/-- Nodes between two positions may become the children of a node that reaches from the one
to the other. -/
theorem nested_parent (h : Tidy a b ns) (k : Kind) (r : Option Role) :
    (Node.mk k r a b ns).Nested := by
  refine nested_mk.mpr ⟨h.inOrder.le, fun c hc => ?_⟩
  obtain ⟨ha, hb⟩ := h.inOrder.bounds hc
  exact ⟨ha, hb, h.nested c hc⟩

theorem leaf {t : Token} (ha : a ≤ t.start) (ht : t.start ≤ t.stop) (k : Kind) :
    Tidy a t.stop [t.leaf k] :=
  cons_iff.mpr ⟨ha, (nil_iff.mpr ht).nested_parent k none, nil_iff.mpr (le_refl _)⟩

/-- The leaves of tokens that a grammar looks past. -/
theorem extraLeaves {ts : List Token} (h : Token.InOrder a b ts) : Tidy a b (extraLeaves ts) := by
  induction ts generalizing a with
  | nil => exact nil_iff.mpr h
  | cons t ts ih => exact (leaf h.1 h.2.1 _).append (ih h.2.2)

/-- A new node is put around nodes; comments in front of them stay outside. -/
theorem wrapNodes (h : Tidy a b ns) (k : Kind) : Tidy a b (wrapNodes k ns) := by
  obtain ⟨m, hfront, hinner⟩ := h.inOrder.takeWhile_dropWhile Node.isExtra
  have hfrontNested : ∀ n ∈ ns.takeWhile Node.isExtra, n.Nested := fun n hn =>
    h.nested n (List.takeWhile_subset _ hn)
  have hinnerNested : ∀ n ∈ ns.dropWhile Node.isExtra, n.Nested := fun n hn =>
    h.nested n (List.dropWhile_subset _ hn)
  rw [Source.wrapNodes]
  split
  · rename_i first last hfirst hlast
    obtain ⟨hm, hspan, hb⟩ := hinner.tighten hfirst hlast
    have hnew : Tidy m b [Node.mk k none first.start last.stop (ns.dropWhile Node.isExtra)] :=
      cons_iff.mpr ⟨hm, nested_parent ⟨hspan, hinnerNested⟩ k none, nil_iff.mpr hb⟩
    exact append ⟨hfront, hfrontNested⟩ hnew
  · -- there is no first or no last node, so there is none at all but those in front
    rename_i hnone
    have hempty : ns.dropWhile Node.isExtra = [] := by
      by_contra hne
      exact hnone _ _ (List.head?_eq_some_head hne) (List.getLast?_eq_some_getLast hne)
    rw [← List.takeWhile_append_dropWhile (p := Node.isExtra) (l := ns), hempty,
      List.append_nil] at h
    exact h

/-- The last node is given a role. -/
theorem roleLast (h : Tidy a b ns) (r : Role) : Tidy a b (roleLast r ns) := by
  fun_induction Source.roleLast r ns generalizing a with
  | case1 => exact h
  | case2 n =>
    rw [cons_iff] at h ⊢
    rwa [start_withRole, stop_withRole, nested_withRole]
  | case3 n m rest ih =>
    rw [cons_iff] at h ⊢
    exact ⟨h.1, h.2.1, ih h.2.2⟩

end Tidy
end Node

/-! ### Readings -/

section
variable {ν : Type} {g : Grammar ν} {mending : Bool}

/-- **A rule keeps the order of the text.**  There is a position with the nodes that it built
on the one side and the tokens that it left on the other. -/
theorem Rule.tidy_read (n : Nat) :
    ∀ {r : Rule ν} {ts : List Token} {out : List Node} {rest : List Token} {a b : Nat},
      Token.InOrder a b ts → r.read g mending n ts = some (out, rest) →
        ∃ m, Node.Tidy a m out ∧ Token.InOrder m b rest := by
  induction n with
  | zero => exact fun _ h => nomatch h
  | succ n ih =>
    intro r ts out rest a b hts h
    -- one part after another, as in a sequence and in a repetition
    have hthen : ∀ {p q : Rule ν} {out' rest' out'' rest''},
        p.read g mending n ts = some (out', rest') →
        q.read g mending n rest' = some (out'', rest'') →
          ∃ m, Node.Tidy a m (out' ++ out'') ∧ Token.InOrder m b rest'' := by
      intro p q out' rest' out'' rest'' hp hq
      obtain ⟨m, hout', hrest'⟩ := ih hts hp
      obtain ⟨m', hout'', hrest''⟩ := ih hrest' hq
      exact ⟨m', hout'.append hout'', hrest''⟩
    have hnothing : ∃ m, Node.Tidy a m [] ∧ Token.InOrder m b ts :=
      ⟨a, Node.Tidy.nil_iff.mpr (le_refl a), hts⟩
    cases r with
    | empty =>
      simp only [read] at h
      cases h
      exact hnothing
    | token test =>
      simp only [read] at h
      split at h
      · cases h
      · rename_i t ts' hdrop
        split at h
        · cases h
          obtain ⟨m, hfront, hrest⟩ := hts.takeWhile_dropWhile Token.isExtra
          rw [hdrop] at hrest
          exact ⟨t.stop, (Node.Tidy.extraLeaves hfront).append (.leaf hrest.1 hrest.2.1 _),
            hrest.2.2⟩
        · cases h
    | seq p q =>
      simp only [read] at h
      split at h
      · cases h
      · rename_i hp
        split at h
        · cases h
        · rename_i hq
          cases h
          exact hthen hp hq
    | alt p q =>
      simp only [read] at h
      split at h
      · rename_i hp
        cases h
        exact ih hts hp
      · exact ih hts h
    | many p =>
      simp only [read] at h
      split at h
      · cases h
        exact hnothing
      · rename_i hp
        split at h
        · cases h
        · rename_i hq
          cases h
          exact hthen hp hq
    | ahead p =>
      simp only [read] at h
      split at h
      · cases h
      · cases h
        exact hnothing
    | notAhead p =>
      simp only [read] at h
      split at h
      · cases h
        exact hnothing
      · cases h
    | ref name => exact ih hts h
    | node k p =>
      simp only [read] at h
      split at h
      · cases h
      · rename_i hp
        cases h
        obtain ⟨m, hout, hrest⟩ := ih hts hp
        exact ⟨m, hout.wrapNodes k, hrest⟩
    | role r p =>
      simp only [read] at h
      split at h
      · cases h
      · rename_i hp
        cases h
        obtain ⟨m, hout, hrest⟩ := ih hts hp
        exact ⟨m, hout.roleLast r, hrest⟩
    | mend p =>
      simp only [read] at h
      split at h
      · exact ih hts h
      · cases h
    | done =>
      simp only [read] at h
      split at h
      · cases h
        exact ⟨b, .extraLeaves hts, le_refl b⟩
      · cases h

/-- The tree of tokens that stand in a text in order is nested. -/
theorem Grammar.nested_tree {length : Nat} {ts : List Token} (h : Token.InOrder 0 length ts) :
    (g.tree length ts).Nested := by
  have hroot : ∀ {mending : Bool} {out : List Node} {rest : List Token},
      (g.rule g.start).read g mending (depth ts.length) ts = some (out, rest) →
        (Node.mk .unit none 0 length out).Nested := by
    intro mending out rest hread
    obtain ⟨m, hout, hrest⟩ := Rule.tidy_read _ h hread
    have hall : Node.Tidy 0 length (out ++ []) := hout.append (Node.Tidy.nil_iff.mpr hrest.le)
    rw [List.append_nil] at hall
    exact hall.nested_parent .unit none
  rw [tree]
  split
  · rename_i hread
    exact hroot hread
  · split
    · rename_i hread
      exact hroot hread
    · -- the whole text is one error
      have herror : (Node.mk .error none 0 length []).Nested :=
        (Node.Tidy.nil_iff.mpr (Nat.zero_le length)).nested_parent .error none
      exact Node.Tidy.nested_parent (Node.Tidy.cons_iff.mpr
        ⟨le_refl 0, herror, Node.Tidy.nil_iff.mpr (le_refl length)⟩) .unit none

end

/-- **Parsed trees are nested**, whatever the text. -/
theorem Language.nested_parse (l : Language) (source : List Char) :
    (l.parse source).root.Nested := by
  have htokens : ∀ cs, Token.InOrder 0 cs.length (l.tokens cs) := by
    intro cs
    rw [← Nat.zero_add cs.length]
    cases l with
    | csharp => exact Lexeme.inOrder_tokensFrom _ _ _ _ _ _
    | java => exact Lexeme.inOrder_tokensFrom _ _ _ _ _ _
  cases l with
  | csharp => exact Grammar.nested_tree (htokens _)
  | java => exact Grammar.nested_tree (htokens _)

end Source
end TypeAtlas
