import TypeAtlas.Proofs.Artifact.RunNames

/-! # Which directory a run gets

A run that asks for a directory gets the first candidate whose name is not in use in the base
directory.  The search that tries the candidates counts in 32 bits (`RunSearch.next`).  That it
ends rests on names: a candidate is taken if its name is in use (`Layout.taken_iff`), and
different candidates have different names, so no more of them are taken than there are names
(`Layout.exists_runName_not_mem`).  While there is room for one more name the count stays
below its limit (`Layout.forRun_first_free`).

What the tree is in the end differs from what it was at one new place in the base directory,
and at places of the base directory and of those above it where nothing stood
(`FileTree.Opens`).
-/
namespace TypeAtlas
open Layout (runName candidate Taken forRun)

namespace FileTree

/-! ### Names in a directory -/

/-- The names of what stands in the directory that a path leads to. -/
def namesIn (t : FileTree) (path : String) : List String :=
  match t.follow (t.origin path) (Path.pieces path) with
  | .ok place => t.children place
  | .error _ => []

theorem mem_children_iff {t : FileTree} {p : Place} {name : String} :
    name ∈ t.children p ↔ ∃ e, t.get? (p ++ [name]) = some e := by
  have hne : p ++ [name] ≠ [] := List.append_ne_nil_of_right_ne_nil p (List.cons_ne_nil name [])
  constructor
  · intro h
    obtain ⟨e, he, hname⟩ := List.mem_filterMap.mp h
    have hplace : e.1 = p ++ [name] := by
      split at hname
      · split_ifs at hname with hlast
        rw [hlast, Option.some.inj hname]
      · cases hname
    have hfind : (t.entries.find? fun x => decide (x.1 = p ++ [name])).isSome :=
      List.find?_isSome.mpr ⟨e, he, decide_eq_true hplace⟩
    obtain ⟨x, hx⟩ := Option.isSome_iff_exists.mp hfind
    exact ⟨x.2, by rw [get?, if_neg hne, hx]; rfl⟩
  · rintro ⟨e, he⟩
    refine List.mem_filterMap.mpr ⟨_, mem_entries_of_get? hne he, ?_⟩
    simp

/-- A name behind a path that stands leads right below its place. -/
theorem locate_join_name {t : FileTree} {base name : String} {at_ : Place}
    (hnul : Path.NulFree base) (hat : t.follow (t.origin base) (Path.pieces base) = .ok at_)
    (hdir : t.get? at_ = some .directory) (hname : Path.IsName name)
    (hnulname : Path.NulFree name) (hsize : name.utf8ByteSize ≤ Path.nameLimit) :
    t.locate (Path.join base name) = .ok (at_ ++ [name]) := by
  have hleads := (Path.leads_self base).join hname
  have hstep : t.step at_ name = .ok (at_ ++ [name]) := by
    rw [step, hdir]
    simp only [if_neg hname.ne_here, if_neg hname.ne_up, if_neg (Nat.not_lt.mpr hsize)]
  have horigin : t.origin (Path.join base name) = t.origin base := by
    rw [origin, origin, hleads.isAbsolute_eq]
  refine locate_eq_ok_iff.mpr ⟨?_, (Path.extends_join base hname).ne_empty, ?_⟩
  · exact (Path.nulFree_join_iff (Path.isAbsolute_of_no_slash hname.no_slash)).mpr ⟨hnul, hnulname⟩
  · rw [hleads.pieces_eq, List.nil_append, horigin, follow_append]
    exact ⟨at_, hat, by rw [follow_singleton, hstep]⟩

/-! ### Directories that are made -/

/-- One tree comes from another by making missing directories, all of them under the paths. -/
structure Opens (t : FileTree) (paths : List String) (u : FileTree) : Prop where
  workingDir_eq : u.workingDir = t.workingDir
  entry : ∀ p, u.get? p = t.get? p ∨
    t.get? p = none ∧ u.get? p = some .directory ∧ ∃ path ∈ paths, u.locate path = .ok p

theorem Opens.set {t u : FileTree} {paths : List String} (h : t.Opens paths u) {path : String}
    {place : Place} (hpath : path ∈ paths) (hl : u.locate path = .ok place)
    (hnone : u.get? place = none) : t.Opens paths (u.set place .directory) := by
  have hkeeps := keeps_set hnone .directory
  refine ⟨hkeeps.workingDir_eq.trans h.workingDir_eq, fun p => ?_⟩
  by_cases hp : p = place
  · subst hp
    right
    have hroot : p ≠ [] := by
      rintro rfl
      cases hnone
    refine ⟨?_, get?_set_self u _ hroot, path, hpath, hkeeps.grows.locate hl⟩
    rcases h.entry p with hsame | ⟨hbefore, -⟩
    · exact hsame.symm.trans hnone
    · exact hbefore
  · rw [get?_set_other u _ hp]
    rcases h.entry p with hsame | ⟨hbefore, hnow, path', hpath', hl'⟩
    · exact Or.inl hsame
    · exact Or.inr ⟨hbefore, hnow, path', hpath', hkeeps.grows.locate hl'⟩

/-- **Making a directory makes nothing but it and those above it.** -/
theorem opens_makeDirs (t : FileTree) (path : String) :
    t.Opens (Path.chain path) (t.makeDirs path).1 :=
  makeChain_induction (fun hpath hu hl hnone => hu.set hpath hl hnone)
    ⟨rfl, fun _ => Or.inl rfl⟩

theorem Makes.stands {t u : FileTree} {path : String} (h : t.Makes path u) : u.Stands path := by
  rcases h with hmade | ⟨hdir, rfl⟩
  · obtain ⟨place, -, hlookup⟩ := lookup_of_makeDir hmade
    obtain ⟨hl, hget⟩ := lookup_eq_directory hlookup
    exact stands_of_locate hl hget
  · exact (isDirectory_iff.mp hdir).2

/-- A directory that was made stands. -/
theorem stands_of_makeDirs {t made : FileTree} {path : String}
    (h : t.makeDirs path = (made, none))
    (hbegin : path = "" → t.get? t.workingDir = some .directory) : made.Stands path := by
  obtain ⟨above, hchain⟩ := Path.chain_eq_cons path
  rw [makeDirs, hchain] at h
  rcases makeChain_cases h with ⟨rfl, rfl⟩ | ⟨-, hmakes⟩ | ⟨-, -, under, -, hmakes⟩
  · exact ⟨fun c hc => absurd hc List.not_mem_nil, made.workingDir, rfl, hbegin rfl⟩
  · exact hmakes.stands
  · exact hmakes.stands

end FileTree

namespace Layout
open FileTree

/-! ### Candidates that are in use -/

section
variable {t : FileTree} {base : String} {s : Timestamp} {at_ : Place} {n : Nat}
  (hnul : Path.NulFree base) (hat : t.follow (t.origin base) (Path.pieces base) = .ok at_)
  (hdir : t.get? at_ = some .directory) (hs : s.InRange) (hn : n < 2 ^ 32)
include hnul hat hdir hs hn

theorem locate_candidate :
    t.locate (candidate base s.stamp n) = .ok (at_ ++ [runName s.stamp n]) :=
  locate_join_name hnul hat hdir (isName_runName s n) (stamped_runName s n).nulFree
    (utf8ByteSize_runName_le hs hn)

/-- **A candidate is taken if its name is in use**, by a file or by a directory. -/
theorem taken_iff : Taken t base s.stamp n ↔ runName s.stamp n ∈ t.namesIn base := by
  have hl := locate_candidate hnul hat hdir hs hn
  rw [Taken, makeDir_eq_alreadyExists_iff, namesIn, hat]
  simp only [mem_children_iff, hl, Except.ok.injEq]
  constructor
  · rintro ⟨place, e, rfl, he⟩
    exact ⟨e, he⟩
  · rintro ⟨e, he⟩
    exact ⟨_, e, rfl, he⟩

/-- A candidate that is not in use is made, and nothing else is. -/
theorem next_of_free (hfree : runName s.stamp n ∉ t.namesIn base) :
    t.get? (at_ ++ [runName s.stamp n]) = none ∧
      RunSearch.next base s.stamp (t, .trying (.ofNat n)) =
        (t.set (at_ ++ [runName s.stamp n]) .directory,
          .ended (.ok ⟨candidate base s.stamp n⟩)) := by
  have hnone : t.get? (at_ ++ [runName s.stamp n]) = none := by
    rw [namesIn, hat] at hfree
    rw [Option.eq_none_iff_forall_ne_some]
    exact fun e he => hfree (mem_children_iff.mpr ⟨e, he⟩)
  have hmade := makeDir_eq_ok_iff.mpr
    ⟨_, locate_candidate hnul hat hdir hs hn, hnone, rfl⟩
  have hvalue : (UInt32.ofNat n).toNat = n := UInt32.toNat_ofNat_of_lt' hn
  refine ⟨hnone, ?_⟩
  simp only [RunSearch.next, hvalue, hmade]

end

/-! ### The directory of a run -/

/-- **A run gets the first directory whose name is free.**  The base directory is there or can be
made, and there are fewer names in it than suffixes.  Making it makes nothing but it and those above
it that are missing.  Then there is a first suffix whose name is not in use, while every smaller one
is; the run gets the directory of that name, which is made where nothing stood, and all else stays
as it is.  The loop that counts in 32 bits tries the candidates up to that one, never runs out of
suffixes, and ends with the tree and the result of `forRun`. -/
theorem forRun_first_free {t made : FileTree} {base : String} {s : Timestamp}
    (hmade : t.makeDirs base = (made, none))
    (hbegin : base = "" → t.get? t.workingDir = some .directory) (hs : s.InRange)
    (hroom : (made.namesIn base).length < 2 ^ 32 - 1) :
    (t.Stands base → made = t) ∧ t.Opens (Path.chain base) made ∧
      ∃ n place, n < 2 ^ 32 - 1 ∧ runName s.stamp n ∉ made.namesIn base ∧
        (∀ k < n, runName s.stamp k ∈ made.namesIn base) ∧
        (forRun t base s).2 = .ok ⟨Path.join base (runName s.stamp n)⟩ ∧
        made.locate (Path.join base (runName s.stamp n)) = .ok place ∧
        made.get? place = none ∧
        (forRun t base s).1.workingDir = t.workingDir ∧
        (∀ p, (forRun t base s).1.get? p =
          if p = place then some .directory else made.get? p) ∧
        ∀ k, (RunSearch.next base s.stamp)^[k] (made, .trying 0) =
          if k ≤ n then (made, .trying (.ofNat k))
          else ((forRun t base s).1, .ended (forRun t base s).2) := by
  have hopens : t.Opens (Path.chain base) made := by
    have := opens_makeDirs t base
    rwa [hmade] at this
  refine ⟨fun hstands => ?_, hopens, ?_⟩
  · exact (Prod.mk.inj (hmade.symm.trans (makeDirs_eq_self hstands))).1
  obtain ⟨hnul, at_, hat, hdir⟩ := stands_of_makeDirs hmade hbegin
  have htaken_iff : ∀ {k}, k < 2 ^ 32 →
      (Taken made base s.stamp k ↔ runName s.stamp k ∈ made.namesIn base) :=
    fun hk => taken_iff hnul hat hdir hs hk
  obtain ⟨n, hentries, htaken, hfree⟩ := exists_first_not_taken made base s
  -- there are not more taken candidates than names
  have hn : n < 2 ^ 32 - 1 := by
    obtain ⟨m, hm, hunused⟩ := exists_runName_not_mem (made.namesIn base) s.stamp
    by_contra hlarge
    exact hunused ((htaken_iff (by omega)).mp (htaken m (by omega)))
  have hunused : runName s.stamp n ∉ made.namesIn base :=
    fun hmem => hfree ((htaken_iff (by omega)).mpr hmem)
  obtain ⟨hnone, hmake⟩ := next_of_free hnul hat hdir hs (by omega) hunused
  have hloop := RunSearch.iterate_next (by simp only [UInt32.size]; omega) htaken hfree
  rw [hmake] at hloop
  have hrun : forRun t base s =
      (made.set (at_ ++ [runName s.stamp n]) .directory, .ok ⟨candidate base s.stamp n⟩) := by
    rw [forRun_of_makeDirs hmade, hloop, if_neg (by omega)]
    rfl
  refine ⟨n, at_ ++ [runName s.stamp n], hn, hunused, fun k hk => ?_, ?_, ?_, hnone, ?_, ?_, ?_⟩
  · exact (htaken_iff (by omega)).mp (htaken k hk)
  · rw [hrun]
    rfl
  · exact locate_candidate hnul hat hdir hs (by omega)
  · rw [hrun]
    exact (workingDir_set _ _ _).trans hopens.workingDir_eq
  · intro p
    rw [hrun]
    split_ifs with hp
    · rw [hp]
      exact get?_set_self _ _ (List.append_ne_nil_of_right_ne_nil _ (List.cons_ne_nil _ _))
    · exact get?_set_other _ _ hp
  · intro k
    rw [hrun]
    exact hloop k

/-- A base directory in which a second and its first and third suffix are in use. -/
def gappedBase : FileTree :=
  ⟨[(["out"], .directory), (["out", "1970-01-01T00-00-00"], .file ByteArray.empty),
    (["out", "1970-01-01T00-00-00_1"], .directory),
    (["out", "1970-01-01T00-00-00_3"], .file ByteArray.empty)], []⟩

theorem forRun_first_free_gapped :
    (forRun gappedBase "/out" (.mk 0 7)).2 = .ok ⟨"/out/1970-01-01T00-00-00_2"⟩ ∧
      (RunSearch.next "/out" "1970-01-01T00-00-00")^[2] (gappedBase, .trying 0) =
        (gappedBase, .trying 2) := by
  have hmade : gappedBase.makeDirs "/out" = (gappedBase, none) := by decide +kernel
  obtain ⟨-, -, n, place, -, hfree, htaken, hresult, -, -, -, -, hloop⟩ :=
    forRun_first_free (s := .mk 0 7) hmade (by decide) (by decide +kernel) (by decide +kernel)
  have hstamp : (.mk 0 7 : Timestamp).stamp = "1970-01-01T00-00-00" := by decide +kernel
  rw [hstamp] at hfree htaken hresult hloop
  obtain rfl : n = 2 := by
    rcases Nat.lt_trichotomy n 2 with hlt | heq | hgt
    · have hused : ∀ k < 2,
          runName "1970-01-01T00-00-00" k ∈ gappedBase.namesIn "/out" := by decide +kernel
      exact absurd (hused n hlt) hfree
    · exact heq
    · exact absurd (htaken 2 hgt) (by decide +kernel)
  exact ⟨hresult, hloop 2⟩

end Layout
end TypeAtlas
