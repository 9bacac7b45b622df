import TypeAtlas.Proofs.Artifact.Places

/-! # A path and the one above it

Making a directory with those above it goes from a path to its parent, from there to the
next one, and back.  The parent of a path is found on the text: pieces that are passed
over at its end are cut off, then one piece, then those that are passed over before it.
What is left leads to a directory in which the piece that was cut off is looked up
(`Path.Extends`).

So the list of a path and all paths above it is a chain in which each path goes one piece
further than the next one, down to the empty path or to the root (`Path.isChain_chain`).
-/
namespace TypeAtlas

theorem Text.splitAtChar_intercalate {sep : Char} {ps : List (List Char)} (hne : ps ≠ [])
    (h : ∀ p ∈ ps, sep ∉ p) : splitAtChar sep (List.intercalate [sep] ps) = ps := by
  induction ps with
  | nil => exact absurd rfl hne
  | cons p ps ih =>
    cases ps with
    | nil =>
      rw [List.intercalate_singleton]
      exact splitAtChar_of_not_mem (h p List.mem_cons_self)
    | cons q qs =>
      have hrest := ih (List.cons_ne_nil q qs) fun r hr => h r (List.mem_cons_of_mem p hr)
      rw [List.intercalate_cons_cons, List.append_assoc, List.singleton_append,
        splitAtChar_append_cons (h p List.mem_cons_self), hrest]

namespace Path

/-! ### Pieces as they are written -/

/-- The pieces of a path as they are written, empty ones included. -/
def written (p : String) : List (List Char) :=
  Text.splitAtChar '/' p.toList

/-- Those of some written pieces by which a path is followed. -/
def followed (ps : List (List Char)) : List String :=
  (ps.map String.ofList).filter fun s => decide (s ≠ "")

theorem pieces_eq_followed (p : String) : pieces p = followed (written p) :=
  rfl

theorem followed_append (ps qs : List (List Char)) :
    followed (ps ++ qs) = followed ps ++ followed qs := by
  rw [followed, List.map_append, List.filter_append]
  rfl

theorem followed_singleton {s : List Char} (h : s ≠ []) : followed [s] = [String.ofList s] := by
  have hne : String.ofList s ≠ "" := fun he => h (String.ofList_eq_empty_iff.mp he)
  simp [followed, hne]

/-- Of pieces that are passed over, only single dots are followed. -/
theorem eq_dot_of_mem_followed {ps : List (List Char)} (h : ∀ s ∈ ps, isIdle s = true)
    {piece : String} (hpiece : piece ∈ followed ps) : piece = "." := by
  obtain ⟨hmem, hne⟩ := List.mem_filter.mp hpiece
  obtain ⟨s, hs, rfl⟩ := List.mem_map.mp hmem
  have hidle := h s hs
  rw [isIdle, Bool.or_eq_true, beq_iff_eq, beq_iff_eq] at hidle
  rcases hidle with rfl | rfl
  · exact absurd rfl (of_decide_eq_true hne)
  · rfl

theorem written_ne_nil (p : String) : written p ≠ [] :=
  Text.splitAtChar_ne_nil '/' p.toList

theorem eq_empty_of_written {p : String} (h : written p = [[]]) : p = "" := by
  cases hp : p.toList with
  | nil => exact String.toList_eq_nil_iff.mp hp
  | cons c cs =>
    rw [written, hp, Text.splitAtChar] at h
    split_ifs at h with hc
    · exact absurd (List.cons_eq_cons.mp h).2 (Text.splitAtChar_ne_nil '/' cs)
    · split at h
      · cases h
      · cases h

theorem no_slash_of_mem_written {p : String} {s : List Char} (h : s ∈ written p) : '/' ∉ s :=
  Text.not_mem_of_mem_splitAtChar h

theorem written_ofPieces {ps : List (List Char)} (hne : ps ≠ []) (h : ∀ s ∈ ps, '/' ∉ s) :
    written (ofPieces ps) = ps := by
  rw [written, ofPieces, String.toList_ofList, Text.splitAtChar_intercalate hne h]

/-- A path is absolute if it begins with an empty piece that another one follows. -/
theorem isAbsolute_iff_written {p : String} :
    isAbsolute p = true ↔ ∃ s rest, written p = [] :: s :: rest := by
  rw [isAbsolute, beq_iff_eq, written]
  constructor
  · intro h
    obtain ⟨cs, hcs⟩ := List.head?_eq_some_iff.mp h
    rw [hcs, Text.splitAtChar, if_pos rfl]
    obtain ⟨s, rest, hrest⟩ := List.exists_cons_of_ne_nil (Text.splitAtChar_ne_nil '/' cs)
    exact ⟨s, rest, by rw [hrest]⟩
  · rintro ⟨s, rest, h⟩
    cases hp : p.toList with
    | nil =>
      rw [hp] at h
      cases h
    | cons c cs =>
      rw [hp, Text.splitAtChar] at h
      split_ifs at h with hc
      · rw [hc, List.head?_cons]
      · split at h
        · cases h
        · cases h

/-- Whether a path is absolute is told by its first pieces. -/
theorem isAbsolute_eq_of_written {p q : String} (more : List (List Char))
    (h : written p = written q ++ more) (hq : written q ≠ [[]]) : isAbsolute q = isAbsolute p := by
  rw [Bool.eq_iff_iff, isAbsolute_iff_written, isAbsolute_iff_written, h]
  constructor
  · rintro ⟨s, rest, hs⟩
    exact ⟨s, rest ++ more, by rw [hs]; rfl⟩
  · rintro ⟨s, rest, hs⟩
    obtain ⟨first, others, hcons⟩ := List.exists_cons_of_ne_nil (written_ne_nil q)
    rw [hcons, List.cons_append] at hs
    obtain ⟨rfl, -⟩ := List.cons_eq_cons.mp hs
    cases others with
    | nil => exact absurd hcons hq
    | cons t others => exact ⟨t, others, hcons⟩

/-- A relative path goes somewhere unless it is empty. -/
theorem pieces_ne_nil {p : String} (hrel : isAbsolute p = false) (hne : p ≠ "") :
    pieces p ≠ [] := by
  rw [pieces_eq_followed, written]
  cases hp : p.toList with
  | nil => exact absurd (String.toList_eq_nil_iff.mp hp) hne
  | cons c cs =>
    have hc : c ≠ '/' := by
      rintro rfl
      exact isAbsolute_eq_false_iff.mp hrel (by rw [hp, List.head?_cons])
    rw [Text.splitAtChar, if_neg hc]
    split
    · rw [followed_singleton (List.cons_ne_nil c [])]
      exact List.cons_ne_nil _ _
    · rename_i piece others hothers
      rw [← List.singleton_append, followed_append,
        followed_singleton (List.cons_ne_nil c piece)]
      exact List.cons_ne_nil _ _

/-- There are no more pieces than characters. -/
theorem length_pieces_le (p : String) : (pieces p).length ≤ p.length := by
  have hcount : ∀ cs : List Char, (followed (Text.splitAtChar '/' cs)).length ≤ cs.length := by
    intro cs
    induction cs with
    | nil => exact Nat.le_refl 0
    | cons c cs ih =>
      rw [Text.splitAtChar]
      split_ifs with hc
      · exact Nat.le_succ_of_le ih
      · split
        · rename_i hnil
          exact absurd hnil (Text.splitAtChar_ne_nil '/' cs)
        · rename_i piece pieces hcons
          rw [hcons, ← List.singleton_append, followed_append, List.length_append] at ih
          rw [← List.singleton_append, followed_append, List.length_append,
            followed_singleton (List.cons_ne_nil c piece), List.length_singleton, List.length_cons]
          omega
  rw [pieces_eq_followed, ← String.length_toList]
  exact hcount p.toList

/-! ### What is cut off -/

/-- Only pieces that are passed over are cut off. -/
theorem exists_trimPieces (ps : List (List Char)) :
    ∃ idle, (∀ s ∈ idle, isIdle s = true) ∧ ps = idle ++ trimPieces ps := by
  fun_induction trimPieces ps with
  | case1 => exact ⟨[], fun _ h => absurd h List.not_mem_nil, rfl⟩
  | case2 s => exact ⟨[], fun _ h => absurd h List.not_mem_nil, rfl⟩
  | case3 s rest hne hidle ih =>
    obtain ⟨idle, hall, hrest⟩ := ih
    refine ⟨s :: idle, List.forall_mem_cons.mpr ⟨hidle, hall⟩, ?_⟩
    rw [List.cons_append, ← hrest]
  | case4 s rest hne hidle => exact ⟨[], fun _ h => absurd h List.not_mem_nil, rfl⟩

theorem trimPieces_ne_nil {ps : List (List Char)} (h : ps ≠ []) : trimPieces ps ≠ [] := by
  fun_induction trimPieces ps with
  | case1 => exact h
  | case2 s => exact h
  | case3 s rest hne hidle ih => exact ih hne
  | case4 s rest hne hidle => exact h

/-- Trimming twice is trimming once. -/
theorem trimPieces_trimPieces (ps : List (List Char)) :
    trimPieces (trimPieces ps) = trimPieces ps := by
  fun_induction trimPieces ps with
  | case1 => rfl
  | case2 s => rfl
  | case3 s rest hne hidle ih => exact ih
  | case4 s rest hne hidle =>
    rw [trimPieces, if_neg hidle]
    exact hne

/-- Nothing is cut off at the end of the path. -/
def IsTrim (p : String) : Prop :=
  trimPieces (written p).reverse = (written p).reverse

/-- The last piece of the path is one that counts. -/
def EndsInName (p : String) : Prop :=
  ∃ front last, written p = front ++ [last] ∧ isIdle last = false

theorem endsInName_of_isName {name : String} (h : IsName name) : EndsInName name := by
  refine ⟨[], name.toList, Text.splitAtChar_of_not_mem h.no_slash, ?_⟩
  rw [isIdle, Bool.or_eq_false_iff, beq_eq_false_iff_ne, beq_eq_false_iff_ne]
  constructor
  · exact fun he => h.ne_empty (String.toList_eq_nil_iff.mp he)
  · exact fun he => h.ne_here (String.toList_injective he)

theorem EndsInName.join {rest : String} (h : EndsInName rest) (base : String)
    (hrel : isAbsolute rest = false) : EndsInName (Path.join base rest) := by
  obtain ⟨front, last, hwritten, hlast⟩ := h
  have hbehind : ∀ before : List Char,
      written (String.ofList (before ++ '/' :: rest.toList)) =
        (Text.splitAtChar '/' before ++ front) ++ [last] := by
    intro before
    rw [written, String.toList_ofList, Text.splitAtChar_append,
      show Text.splitAtChar '/' rest.toList = front ++ [last] from hwritten, List.append_assoc]
  rw [Path.join, joinChars, if_neg (isAbsolute_eq_false_iff.mp hrel)]
  split
  · rename_i hbase
    rcases hbase with hbase | hbase
    · rw [hbase, List.nil_append, String.ofList_toList]
      exact ⟨front, last, hwritten, hlast⟩
    · obtain ⟨before, hbefore⟩ := List.getLast?_eq_some_iff.mp hbase
      rw [hbefore, List.append_assoc, List.singleton_append]
      exact ⟨_, last, hbehind before, hlast⟩
  · exact ⟨_, last, hbehind base.toList, hlast⟩

theorem EndsInName.isTrim {p : String} (h : EndsInName p) : IsTrim p := by
  obtain ⟨front, last, hwritten, hlast⟩ := h
  rw [IsTrim, hwritten, List.reverse_append, List.reverse_singleton, List.singleton_append]
  cases front.reverse with
  | nil => rfl
  | cons s rest =>
    rw [trimPieces, hlast]
    · rfl
    · exact List.cons_ne_nil s rest

/-! ### The path above -/

/-- No character of the path is the one that no path may have. -/
def NulFree (p : String) : Prop :=
  ∀ c ∈ p.toList, c.toNat ≠ 0

/-- A path goes one piece further than another one; single dots in between do not count. -/
structure Extends (q p : String) : Prop where
  isAbsolute_eq : isAbsolute q = isAbsolute p
  pieces_eq : ∃ dots last, (∀ s ∈ dots, s = ".") ∧ pieces p = pieces q ++ dots ++ [last]
  nulFree : NulFree p → NulFree q

theorem Extends.ne_empty {q p : String} (h : Extends q p) : p ≠ "" := by
  rintro rfl
  obtain ⟨dots, last, -, hpieces⟩ := h.pieces_eq
  exact absurd hpieces.symm (List.append_ne_nil_of_right_ne_nil _ (List.cons_ne_nil last []))

theorem nulFree_join_iff {base rest : String} (h : isAbsolute rest = false) :
    NulFree (Path.join base rest) ↔ NulFree base ∧ NulFree rest := by
  rw [Path.join, joinChars, if_neg (isAbsolute_eq_false_iff.mp h)]
  split <;> simp [NulFree, or_imp, forall_and]

/-- One name more. -/
theorem extends_join (base : String) {name : String} (h : IsName name) :
    Extends base (Path.join base name) := by
  have hleads := (leads_self base).join h
  refine ⟨hleads.isAbsolute_eq.symm,
    ⟨[], name, fun _ hs => absurd hs List.not_mem_nil, ?_⟩, ?_⟩
  · rw [hleads.pieces_eq, List.append_nil, List.nil_append]
  · exact fun hnul => ((nulFree_join_iff (isAbsolute_of_no_slash h.no_slash)).mp hnul).1

theorem mem_intercalate {sep c : Char} {ps : List (List Char)}
    (h : c ∈ List.intercalate [sep] ps) : c = sep ∨ ∃ s ∈ ps, c ∈ s := by
  induction ps with
  | nil => exact absurd h List.not_mem_nil
  | cons p ps ih =>
    cases ps with
    | nil =>
      rw [List.intercalate_singleton] at h
      exact Or.inr ⟨p, List.mem_cons_self, h⟩
    | cons q qs =>
      rw [List.intercalate_cons_cons, List.append_assoc, List.singleton_append, List.mem_append,
        List.mem_cons] at h
      rcases h with h | h | h
      · exact Or.inr ⟨p, List.mem_cons_self, h⟩
      · exact Or.inl h
      · rcases ih h with h | ⟨s, hs, h⟩
        · exact Or.inl h
        · exact Or.inr ⟨s, List.mem_cons_of_mem p hs, h⟩

theorem NulFree.ofPieces {p : String} (h : NulFree p) {ps : List (List Char)}
    (hps : ∀ s ∈ ps, s ∈ written p) : NulFree (ofPieces ps) := by
  intro c hc
  rw [Path.ofPieces, String.toList_ofList] at hc
  rcases mem_intercalate hc with rfl | ⟨s, hs, hcs⟩
  · decide
  · exact h c (Text.mem_of_mem_splitAtChar (hps s hs) hcs).2

theorem extends_of_written {p q : String} (before between : List (List Char)) {last : List Char}
    (hwritten : written p = before ++ between ++ [last])
    (hbetween : ∀ s ∈ between, isIdle s = true) (hlast : last ≠ [])
    (hq : pieces q = followed before) (habs : isAbsolute q = isAbsolute p)
    (hnul : NulFree p → NulFree q) : Extends q p := by
  refine ⟨habs, ⟨followed between, String.ofList last, ?_, ?_⟩, hnul⟩
  · exact fun s hs => eq_dot_of_mem_followed hbetween hs
  · rw [pieces_eq_followed, hwritten, followed_append, followed_append, followed_singleton hlast,
      hq]

/-- If more than one piece is left, the last one is not passed over. -/
theorem isIdle_eq_false_of_trim {s : List Char} {rest : List (List Char)} (hne : rest ≠ [])
    (h : trimPieces (s :: rest) = s :: rest) : isIdle s = false := by
  by_contra hidle
  rw [Bool.not_eq_false] at hidle
  rw [trimPieces, if_pos hidle] at h
  · obtain ⟨idle, -, hsplit⟩ := exists_trimPieces rest
    have hlength := congrArg List.length hsplit
    rw [h, List.length_append, List.length_cons] at hlength
    omega
  · exact hne

/-- **The parent of a path is what the path extends.**  It needs no trimming either, unless it
is the root. -/
theorem extends_of_parent? {p q : String} (hp : IsTrim p) (h : parent? p = some q) :
    Extends q p ∧ (IsTrim q ∨ parent? q = none) := by
  unfold parent? at h
  rw [show trimPieces (Text.splitAtChar '/' p.toList).reverse = (written p).reverse from hp] at h
  split at h
  · cases h
  · -- one piece that is not empty
    rename_i first hone
    split_ifs at h with hfirst
    obtain rfl := Option.some.inj h
    have hwritten : written p = [first] := by
      rw [← List.reverse_reverse (written p), hone, List.reverse_singleton]
    have hrelative : isAbsolute p = false := by
      rw [← Bool.not_eq_true, isAbsolute_iff_written, hwritten]
      rintro ⟨s, rest, he⟩
      cases he
    refine ⟨extends_of_written [] [] hwritten ?_ ?_ rfl hrelative.symm ?_, Or.inl rfl⟩
    · exact fun s hs => absurd hs List.not_mem_nil
    · simpa using hfirst
    · exact fun _ c hc => absurd hc List.not_mem_nil
  · -- a last piece with others before it
    rename_i last rest hne hcons
    have hrest : rest ≠ [] := by
      rintro rfl
      exact hne rfl
    obtain ⟨idle, hidle, hleft⟩ := exists_trimPieces rest
    have hwritten : written p = (trimPieces rest).reverse ++ idle.reverse ++ [last] := by
      rw [← List.reverse_reverse (written p), hcons, List.reverse_cons, ← List.reverse_append,
        ← hleft]
    have hbetween : ∀ s ∈ idle.reverse, isIdle s = true := fun s hs =>
      hidle s (List.mem_reverse.mp hs)
    have hlast : last ≠ [] := by
      rintro rfl
      rw [IsTrim, hcons] at hp
      cases isIdle_eq_false_of_trim hrest hp
    have hmem : ∀ s ∈ (trimPieces rest).reverse, s ∈ written p := by
      intro s hs
      rw [hwritten, List.append_assoc]
      exact List.mem_append_left _ hs
    split at h
    · rename_i hroot
      obtain rfl := Option.some.inj h
      rw [hroot, List.reverse_singleton] at hwritten
      have habsolute : isAbsolute p = true := by
        rw [isAbsolute_iff_written, hwritten]
        cases idle.reverse with
        | nil => exact ⟨last, [], rfl⟩
        | cons s more => exact ⟨s, more ++ [last], rfl⟩
      refine ⟨extends_of_written _ _ hwritten hbetween hlast rfl habsolute.symm ?_, Or.inr rfl⟩
      intro _ c hc
      obtain rfl := List.mem_singleton.mp hc
      decide
    · rename_i hroot
      obtain rfl := Option.some.inj h
      have hleftne : (trimPieces rest).reverse ≠ [] :=
        List.reverse_ne_nil_iff.mpr (trimPieces_ne_nil hrest)
      have hparent : written (ofPieces (trimPieces rest).reverse) = (trimPieces rest).reverse :=
        written_ofPieces hleftne fun s hs => no_slash_of_mem_written (hmem s hs)
      refine ⟨extends_of_written _ _ hwritten hbetween hlast ?_ ?_ ?_, Or.inl ?_⟩
      · rw [pieces_eq_followed, hparent]
      · refine isAbsolute_eq_of_written (idle.reverse ++ [last]) ?_ ?_
        · rw [hparent, hwritten, List.append_assoc]
        · rw [hparent]
          exact fun he => hroot (List.reverse_eq_iff.mp he)
      · exact fun hnul => hnul.ofPieces hmem
      · rw [IsTrim, hparent, List.reverse_reverse, trimPieces_trimPieces]

/-- A path without a parent is empty, or it is the root. -/
theorem eq_empty_or_root_of_parent? {p : String} (h : parent? p = none) :
    p = "" ∨ isAbsolute p = true ∧ ∀ s ∈ pieces p, s = "." := by
  obtain ⟨idle, hidle, hleft⟩ := exists_trimPieces (written p).reverse
  have hne : trimPieces (written p).reverse ≠ [] :=
    trimPieces_ne_nil (List.reverse_ne_nil_iff.mpr (written_ne_nil p))
  unfold parent? at h
  rw [show trimPieces (Text.splitAtChar '/' p.toList).reverse = trimPieces (written p).reverse
    from rfl] at h
  split at h
  · rename_i hnil
    exact absurd hnil hne
  · rename_i first hone
    split_ifs at h with hfirst
    obtain rfl : first = [] := by simpa using hfirst
    have hwritten : written p = [] :: idle.reverse := by
      rw [← List.reverse_reverse (written p), hleft, hone, List.reverse_append]
      rfl
    cases hrest : idle.reverse with
    | nil =>
      rw [hrest] at hwritten
      exact Or.inl (eq_empty_of_written hwritten)
    | cons s more =>
      right
      rw [hrest] at hwritten
      refine ⟨isAbsolute_iff_written.mpr ⟨s, more, hwritten⟩, fun t ht => ?_⟩
      rw [pieces_eq_followed, hwritten] at ht
      refine eq_dot_of_mem_followed ?_ ht
      intro x hx
      rcases List.mem_cons.mp hx with rfl | hx
      · rfl
      · exact hidle x (List.mem_reverse.mp (hrest ▸ hx))
  · split at h
    · cases h
    · cases h

/-! ### All paths above -/

/-- Each path goes one piece further than the next one, and the last one stands. -/
def IsChain (stands : String → Prop) : List String → Prop
  | [] => False
  | [p] => stands p
  | p :: q :: rest => Extends q p ∧ IsChain stands (q :: rest)

theorem IsChain.mono {stands stands' : String → Prop} (h : ∀ q, stands q → stands' q)
    {paths : List String} (hchain : IsChain stands paths) : IsChain stands' paths := by
  induction paths with
  | nil => exact hchain
  | cons p rest ih =>
    cases rest with
    | nil => exact h p hchain
    | cons q rest => exact ⟨hchain.1, ih hchain.2⟩

theorem IsChain.isAbsolute_eq {stands : String → Prop} {p : String} {above : List String}
    (h : IsChain stands (p :: above)) : ∀ q ∈ above, isAbsolute q = isAbsolute p := by
  induction above generalizing p with
  | nil => exact fun q hq => absurd hq List.not_mem_nil
  | cons q above ih =>
    intro q' hq'
    rcases List.mem_cons.mp hq' with rfl | hq'
    · exact h.1.isAbsolute_eq
    · exact (ih h.2 q' hq').trans h.1.isAbsolute_eq

theorem chain_go_eq_cons (n : Nat) (p : String) : ∃ above, chain.go n p = p :: above := by
  cases n with
  | zero => exact ⟨[], rfl⟩
  | succ n =>
    rw [chain.go]
    split
    · exact ⟨_, rfl⟩
    · exact ⟨[], rfl⟩

theorem chain_eq_cons (p : String) : ∃ above, chain p = p :: above :=
  chain_go_eq_cons p.length p

theorem isChain_go {stands : String → Prop} (n : Nat) {p : String} (hn : (pieces p).length ≤ n)
    (htrim : IsTrim p ∨ parent? p = none) (hnul : NulFree p)
    (hstands : ∀ q, isAbsolute q = isAbsolute p → NulFree q → parent? q = none → stands q) :
    IsChain stands (chain.go n p) := by
  induction n generalizing p with
  | zero =>
    refine hstands p rfl hnul ?_
    cases hparent : parent? p with
    | none => rfl
    | some q =>
      -- a path that extends another one has a piece
      rw [hparent] at htrim
      obtain ⟨hext, -⟩ := extends_of_parent? (htrim.resolve_right nofun) hparent
      obtain ⟨dots, last, -, hpieces⟩ := hext.pieces_eq
      rw [hpieces, List.length_append, List.length_singleton] at hn
      omega
  | succ n ih =>
    rw [chain.go]
    cases hparent : parent? p with
    | none => exact hstands p rfl hnul hparent
    | some q =>
      rw [hparent] at htrim
      obtain ⟨hext, htrim'⟩ := extends_of_parent? (htrim.resolve_right nofun) hparent
      obtain ⟨dots, last, -, hpieces⟩ := hext.pieces_eq
      rw [hpieces, List.length_append, List.length_append, List.length_singleton] at hn
      have habove := ih (by omega) htrim' (hext.nulFree hnul) fun q' habs hnul' hnone =>
        hstands q' (habs.trans hext.isAbsolute_eq) hnul' hnone
      obtain ⟨above, hcons⟩ := chain_go_eq_cons n q
      simp only [hcons] at habove ⊢
      exact ⟨hext, habove⟩

/-- **A path and all paths above it are a chain**, if those stand that have none above them. -/
theorem isChain_chain {stands : String → Prop} {p : String} (htrim : IsTrim p) (hnul : NulFree p)
    (hstands : ∀ q, isAbsolute q = isAbsolute p → NulFree q → parent? q = none → stands q) :
    IsChain stands (chain p) :=
  isChain_go p.length (length_pieces_le p) (Or.inl htrim) hnul hstands

end Path
end TypeAtlas
