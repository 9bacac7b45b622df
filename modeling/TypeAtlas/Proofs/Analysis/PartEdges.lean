import TypeAtlas.Proofs.Analysis.Parts

/-! # The edges of a merged type are those of its parts

A further part of a type brings its base list, its methods and its text.  The merged type
depends on another one iff one of the two does (`dependsOn_absorb_iff`).  That nothing is
lost is plain; that nothing is added is not, because the test for a mention that is no
accident of the type's own name has two halves.  One part could have the mention in its
text and the other one the method.

It does not come to that if the methods of a part are written in its own text
(`Method.ShownIn`).  Then the part with the method mentions the name as well, and it
passes both halves alone.
-/
namespace TypeAtlas

/-! ### Methods that are written in a text -/

/-- The types in the signature of a method and its body are written in a text. -/
structure Method.ShownIn (m : Method) (text : String) : Prop where
  returnType : Mentions text m.returnType
  parameterTypes : ∀ q ∈ m.parameters, Mentions text q.type
  body : ∀ b ∈ m.body, Mentions text b

theorem NamesType.mentions {written name : String} (h : NamesType written name) :
    Mentions written name := by
  rcases h with rfl | h
  · exact List.infix_rfl
  · exact ((List.prefix_append name.toList ['<']).trans h).isInfix

/-- What a method uses is mentioned where the method is written. -/
theorem Method.Uses.mentions {m : Method} {name text : String} (h : m.Uses name)
    (hshown : m.ShownIn text) : Mentions text name := by
  rcases h with hreturn | ⟨q, hq, hparameter⟩ | ⟨body, hbody, hmention⟩
  · exact hreturn.mentions.trans hshown.returnType
  · exact hparameter.mentions.trans (hshown.parameterTypes q hq)
  · exact List.IsInfix.trans hmention (hshown.body body hbody)

/-- Two texts on lines of their own mention what one of them does. -/
theorem mentions_lines_iff {s t name : String} (hname : '\n' ∉ name.toList) :
    Mentions (s ++ "\n" ++ t) name ↔ Mentions s name ∨ Mentions t name := by
  have hjoined : (s ++ "\n" ++ t).toList = s.toList ++ '\n' :: t.toList := by
    simp [String.toList_append]
  rw [Mentions, hjoined]
  exact Text.infix_append_cons_iff hname s.toList t.toList

/-! ### The two parts -/

section
variable {a p t : TypeRecord} {ta tp : String}

/-- **A merged type depends on what one of its parts depends on.** -/
theorem dependsOn_absorb_iff (hname : a.name = p.name) (hta : ∀ m ∈ a.methods, m.ShownIn ta)
    (htp : ∀ m ∈ p.methods, m.ShownIn tp) (hline : '\n' ∉ t.name.toList) :
    DependsOn (a.absorb p) (some (ta ++ "\n" ++ tp)) t ↔
      DependsOn a (some ta) t ∨ DependsOn p (some tp) t := by
  have hown : (a.absorb p).name = a.name := rfl
  simp only [DependsOn, TypeRecord.mem_baseNames_absorb, TypeRecord.mem_methods_absorb, hown,
    Option.some.injEq, exists_eq_left', mentions_lines_iff hline]
  constructor
  · rintro ((hbase | hbase) | ⟨htext, hno | ⟨m, hm | hm, huse⟩⟩)
    · exact Or.inl (Or.inl hbase)
    · exact Or.inr (Or.inl hbase)
    · rcases htext with htext | htext
      · exact Or.inl (Or.inr ⟨htext, Or.inl hno⟩)
      · exact Or.inr (Or.inr ⟨htext, Or.inl (hname ▸ hno)⟩)
    -- the part that has the method mentions the name, whichever part did so before
    · exact Or.inl (Or.inr ⟨huse.mentions (hta m hm), Or.inr ⟨m, hm, huse⟩⟩)
    · exact Or.inr (Or.inr ⟨huse.mentions (htp m hm), Or.inr ⟨m, hm, huse⟩⟩)
  · rintro ((hbase | ⟨htext, hguard⟩) | hbase | ⟨htext, hguard⟩)
    · exact Or.inl (Or.inl hbase)
    · exact Or.inr ⟨Or.inl htext, hguard.imp_right fun ⟨m, hm, huse⟩ => ⟨m, Or.inl hm, huse⟩⟩
    · exact Or.inl (Or.inr hbase)
    · rw [← hname] at hguard
      exact Or.inr ⟨Or.inr htext, hguard.imp_right fun ⟨m, hm, huse⟩ => ⟨m, Or.inr hm, huse⟩⟩

end

/-- **Merging unites the edges of the parts.**  For two parts of a type, whose flags agree with
their base lists and whose methods are written in their texts, and for any type whose name has no
line feed: the merged type depends on it iff one of the parts does, as on a base if it is in the
base list of one of them and by a reference otherwise.  So each edge of a part stays, and one to
a base stays what it is. -/
theorem classify_absorb (a p t : TypeRecord) (ta tp : String) (hname : a.name = p.name)
    (ha : a.FlagAgrees) (hp : p.FlagAgrees) (hta : ∀ m ∈ a.methods, m.ShownIn ta)
    (htp : ∀ m ∈ p.methods, m.ShownIn tp) (hline : '\n' ∉ t.name.toList) :
    let merged := classify (a.absorb p) (some (ta ++ "\n" ++ tp)) t
    (merged.isSome ↔ (classify a (some ta) t).isSome ∨ (classify p (some tp) t).isSome) ∧
      (∀ label, merged = some label →
        label = if t.name ∈ a.baseNames ∨ t.name ∈ p.baseNames then
          (if t.kind = .interfaceType then .implement else .inherit) else .reference) ∧
      ∀ label, classify a (some ta) t = some label ∨ classify p (some tp) t = some label →
        ∃ kept, merged = some kept ∧ (label ≠ .reference → kept = label) := by
  intro merged
  have hm : (a.absorb p).FlagAgrees := ha.absorb p
  have hsome : merged.isSome ↔
      (classify a (some ta) t).isSome ∨ (classify p (some tp) t).isSome := by
    rw [isSome_classify_iff hm, isSome_classify_iff ha, isSome_classify_iff hp]
    exact dependsOn_absorb_iff hname hta htp hline
  have hlabel : ∀ label, merged = some label →
      label = if t.name ∈ a.baseNames ∨ t.name ∈ p.baseNames then
        (if t.kind = .interfaceType then .implement else .inherit) else .reference := by
    intro label h
    rw [((classify_eq_some_iff hm).mp h).label_eq]
    simp only [TypeRecord.mem_baseNames_absorb]
  refine ⟨hsome, hlabel, fun label h => ?_⟩
  have hparts : (classify a (some ta) t).isSome ∨ (classify p (some tp) t).isSome :=
    h.imp (fun h => Option.isSome_of_eq_some h) fun h => Option.isSome_of_eq_some h
  obtain ⟨kept, hkept⟩ := Option.isSome_iff_exists.mp (hsome.mpr hparts)
  refine ⟨kept, hkept, fun hno => ?_⟩
  rw [hlabel kept hkept]
  rcases h with h | h
  · obtain ⟨hbase, rfl⟩ := ((classify_eq_some_iff ha).mp h).base_of_ne hno
    exact if_pos (Or.inl hbase)
  · obtain ⟨hbase, rfl⟩ := ((classify_eq_some_iff hp).mp h).base_of_ne hno
    exact if_pos (Or.inr hbase)

/-- The own name of the type contains that of the other one.  The first part has no edge, the
second one uses the other type in a method, and the merged type refers to it. -/
theorem classify_absorb_own_name :
    let a := TypeRecord.new "OrderBook" .classType "Shop" "A.cs"
    let add : Method := ⟨"Add", .ofValue, "void", some "{ }", [⟨"Order", "o"⟩]⟩
    let p := (TypeRecord.new "OrderBook" .classType "Shop" "B.cs").withMethods [add]
    let t := TypeRecord.new "Order" .classType "Shop" "C.cs"
    let ta := "partial class OrderBook { }"
    let tp := "partial class OrderBook { void Add(Order o) { } }"
    classify a (some ta) t = none ∧ classify p (some tp) t = some .reference ∧
      (classify (a.absorb p) (some (ta ++ "\n" ++ tp)) t).isSome := by
  intro a add p t ta tp
  have hpart : classify p (some tp) t = some .reference := by decide
  have hshown : add.ShownIn tp := by
    refine ⟨by decide, ?_, ?_⟩
    · intro q hq
      obtain rfl := List.mem_singleton.mp hq
      decide
    · intro b hb
      obtain rfl := Option.some.inj hb
      decide
  have hmerged := (classify_absorb a p t ta tp rfl rfl rfl
    (fun m hm => absurd hm List.not_mem_nil)
    (fun m hm => List.mem_singleton.mp hm ▸ hshown) (by decide)).1
  exact ⟨by decide, hpart, hmerged.mpr (Or.inr (Option.isSome_of_eq_some hpart))⟩

end TypeAtlas
