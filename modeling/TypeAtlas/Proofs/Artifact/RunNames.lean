import TypeAtlas.Proofs.Artifact.Places
import TypeAtlas.Proofs.Files.WellFormed
import TypeAtlas.Proofs.Source.Words
import Mathlib.Data.List.Perm.Subperm
import Mathlib.Data.Nat.Find
import Mathlib.Logic.Function.Iterate

/-! # Names of run directories

A run directory is named after the time at which the run starts.  The stamp of a time is
made of digits, signs and one letter, so the stamp with any suffix is one name
(`Layout.isName_runName`), which leads to a place right below the base directory.
Different suffixes give different names (`Layout.runName_injective`), and as long as the
year has six digits at most a directory can hold them (`Layout.utf8ByteSize_runName_le`).

Among the first names, one more than some list has, one is not in that list
(`Layout.exists_runName_not_mem`).  A candidate that is taken is listed as an entry.  So among
the first candidates, one more than there are entries, one is not taken
(`Layout.exists_not_taken`).  The search counts in 32 bits: it ends at the first candidate that
is not taken if the count gets there (`RunSearch.iterate_next`), and it is over in any case
after one round more than there are entries (`RunSearch.iterate_next_settled`).
-/
namespace TypeAtlas

open Source (Plain plain_of_all)

/-! ### Characters of stamps -/

/-- The characters that stamps and suffixes are made of. -/
def isStampChar (c : Char) : Bool :=
  c.isDigit || ['-', '+', 'T', '_'].contains c

/-- A text of such characters. -/
def Stamped (s : String) : Prop :=
  ∀ c ∈ s.toList, isStampChar c = true

namespace Stamped

theorem append {s t : String} (hs : Stamped s) (ht : Stamped t) : Stamped (s ++ t) := by
  intro c hc
  rw [String.toList_append] at hc
  exact (List.mem_append.mp hc).elim (hs c) (ht c)

theorem plain {s : String} (h : Stamped s) : Plain s.toList :=
  plain_of_all rfl rfl h

theorem nulFree {s : String} (h : Stamped s) : Path.NulFree s := by
  intro c hc hzero
  obtain rfl : c = Char.ofNat 0 := Char.toNat_inj.mp hzero
  exact absurd (h _ hc) (by decide)

end Stamped

theorem stamped_toString (n : Nat) : Stamped (toString n) := by
  intro c hc
  have hdigits : (toString n).toList = Nat.toDigits 10 n := by simp
  rw [hdigits] at hc
  rw [isStampChar, Nat.isDigit_of_mem_toDigits (by decide) (by decide) hc, Bool.true_or]

theorem stamped_zeroPadded (width n : Nat) : Stamped (zeroPadded width n) := by
  intro c hc
  rw [zeroPadded, String.toList_ofList] at hc
  rcases List.mem_append.mp hc with hc | hc
  · rw [List.eq_of_mem_replicate hc]
    rfl
  · exact stamped_toString n c hc

theorem stamped_sign {s : String} (hs : s ∈ ["-", "+", "T", "_"]) : Stamped s := by
  have hsign : s.toList ∈ [['-'], ['+'], ['T'], ['_']] := List.mem_map_of_mem hs
  intro c hc
  simp only [List.mem_cons, List.not_mem_nil, or_false] at hsign
  rcases hsign with he | he | he | he <;>
    · rw [he, List.mem_singleton] at hc
      rw [hc]
      rfl

theorem stamped_yearText (y : Int) : Stamped (yearText y) := by
  unfold yearText
  split_ifs
  · exact stamped_zeroPadded 4 _
  · exact (stamped_sign (by decide)).append (stamped_zeroPadded 4 _)
  · exact (stamped_sign (by decide)).append (stamped_zeroPadded 4 _)

namespace Timestamp

theorem stamped_calendar (s : Timestamp) : Stamped s.calendar := by
  have hdash : Stamped "-" := stamped_sign (by decide)
  have hyear := (stamped_yearText s.date.year).append hdash
  have hmonth := (hyear.append (stamped_zeroPadded 2 s.date.month)).append hdash
  exact hmonth.append (stamped_zeroPadded 2 s.date.day)

theorem stamped_clock {sep : String} (hsep : Stamped sep) (s : Timestamp) :
    Stamped (s.clock sep) := by
  have hhour := (stamped_zeroPadded 2 (s.secondOfDay / 3600)).append hsep
  have hminute := (hhour.append (stamped_zeroPadded 2 (s.secondOfDay / 60 % 60))).append hsep
  exact hminute.append (stamped_zeroPadded 2 s.secondOfMinute)

theorem stamped_stamp (s : Timestamp) : Stamped s.stamp :=
  (s.stamped_calendar.append (stamped_sign (by decide))).append
    (stamped_clock (stamped_sign (by decide)) s)

theorem stamp_ne_empty (s : Timestamp) : s.stamp ≠ "" := by
  intro h
  have hempty : s.stamp.toList = [] := String.toList_eq_nil_iff.mpr h
  simp [stamp] at hempty

end Timestamp

/-! ### Lengths of stamps -/

theorem length_zeroPadded_le {width n k : Nat} (hk : 0 < k) (hwidth : width ≤ k)
    (hn : n < 10 ^ k) : (zeroPadded width n).length ≤ k := by
  have hdigits : (toString n).toList.length ≤ k := by
    rw [String.length_toList]
    exact (Nat.length_repr_le_iff hk).mpr hn
  rw [zeroPadded, String.length_ofList, List.length_append, List.length_replicate]
  omega

theorem length_yearText_le {y : Int} (h : y.natAbs < 10 ^ 6) : (yearText y).length ≤ 7 := by
  have hsign : "+".length = 1 ∧ "-".length = 1 := ⟨rfl, rfl⟩
  have hdigits : ∀ n < 10 ^ 6, (zeroPadded 4 n).length ≤ 6 :=
    fun n hn => length_zeroPadded_le (by decide) (by decide) hn
  unfold yearText
  split_ifs
  · have := hdigits y.toNat (by omega)
    omega
  · have := hdigits y.toNat (by omega)
    rw [String.length_append]
    omega
  · have := hdigits (-y).toNat (by omega)
    rw [String.length_append]
    omega

/-- Months and days have few digits. -/
theorem Date.ofDays_lt (days : Int) :
    (Date.ofDays days).month < 10 ^ 4 ∧ (Date.ofDays days).day < 10 ^ 6 := by
  have hera : (days + 719468 - (days + 719468).fdiv 146097 * 146097).toNat < 146097 := by
    rw [Int.fdiv_eq_ediv_of_nonneg _ (by decide)]
    omega
  simp only [Date.ofDays]
  generalize (days + 719468 - (days + 719468).fdiv 146097 * 146097).toNat = dayOfEra at hera ⊢
  split_ifs <;> omega

namespace Timestamp

/-- The year has six digits at most, as for every time that a clock can tell. -/
def InRange (s : Timestamp) : Prop :=
  s.date.year.natAbs < 10 ^ 6

instance : DecidablePred InRange :=
  fun s => inferInstanceAs (Decidable (s.date.year.natAbs < 10 ^ 6))

theorem secondOfDay_lt (s : Timestamp) : s.secondOfDay < 86400 := by
  rw [secondOfDay, Int.fmod_eq_emod_of_nonneg _ (by decide)]
  omega

theorem secondOfMinute_le (s : Timestamp) : s.secondOfMinute ≤ 60 := by
  have hnanos := s.nanos_lt
  rw [secondOfMinute]
  omega

theorem length_clock_le (s : Timestamp) : (s.clock "-").length ≤ 8 := by
  have hdash : "-".length = 1 := rfl
  have hday := s.secondOfDay_lt
  have hdigits : ∀ n < 10 ^ 2, (zeroPadded 2 n).length ≤ 2 :=
    fun n hn => length_zeroPadded_le (by decide) le_rfl hn
  have hhour := hdigits (s.secondOfDay / 3600) (by omega)
  have hminute := hdigits (s.secondOfDay / 60 % 60) (by omega)
  have hsecond := hdigits s.secondOfMinute (by have := s.secondOfMinute_le; omega)
  simp only [clock, String.length_append, hdash]
  omega

theorem length_stamp_le {s : Timestamp} (h : s.InRange) : s.stamp.length ≤ 28 := by
  have hsign : "-".length = 1 ∧ "T".length = 1 := ⟨rfl, rfl⟩
  obtain ⟨hmonth, hday⟩ := Date.ofDays_lt (s.seconds.fdiv 86400)
  have hyear : (yearText s.date.year).length ≤ 7 := length_yearText_le h
  have hmonth : (zeroPadded 2 s.date.month).length ≤ 4 :=
    length_zeroPadded_le (by decide) (by decide) hmonth
  have hday : (zeroPadded 2 s.date.day).length ≤ 6 :=
    length_zeroPadded_le (by decide) (by decide) hday
  have hclock := s.length_clock_le
  simp only [stamp, calendar, String.length_append, hsign]
  omega

end Timestamp

/-! ### Candidates -/

namespace Layout

theorem stamped_runName (s : Timestamp) (suffix : Nat) : Stamped (runName s.stamp suffix) := by
  unfold runName
  split_ifs
  · exact s.stamped_stamp
  · exact (s.stamped_stamp.append (stamped_sign (by decide))).append (stamped_toString suffix)

theorem runName_ne_empty (s : Timestamp) (suffix : Nat) : runName s.stamp suffix ≠ "" := by
  intro h
  have hempty : (runName s.stamp suffix).toList = [] := String.toList_eq_nil_iff.mpr h
  unfold runName at hempty
  split_ifs at hempty
  · exact s.stamp_ne_empty (String.toList_eq_nil_iff.mp hempty)
  · simp at hempty

theorem isName_runName (s : Timestamp) (suffix : Nat) : Path.IsName (runName s.stamp suffix) := by
  obtain ⟨hdot, hslash⟩ := (stamped_runName s suffix).plain
  exact Path.isName_of_no_dot (runName_ne_empty s suffix) hdot hslash

theorem utf8ByteSize_le (s : String) : s.utf8ByteSize ≤ 4 * s.length := by
  rw [← String.ofList_toList (s := s), String.length_ofList]
  induction s.toList with
  | nil => exact Nat.zero_le _
  | cons c cs ih =>
    have hchar := c.utf8Size_le_four
    rw [String.ofList_cons, String.utf8ByteSize_append, String.utf8ByteSize_singleton,
      List.length_cons]
    omega

/-- A directory can hold the name of every run with a suffix of 32 bits. -/
theorem utf8ByteSize_runName_le {s : Timestamp} (hs : s.InRange) {suffix : Nat}
    (h : suffix < 2 ^ 32) : (runName s.stamp suffix).utf8ByteSize ≤ Path.nameLimit := by
  have hstamp := s.length_stamp_le hs
  have hdigits : (toString suffix).length ≤ 10 :=
    (Nat.length_repr_le_iff (by decide)).mpr (by omega)
  have hsign : "_".length = 1 := rfl
  have hlength : (runName s.stamp suffix).length ≤ 39 := by
    unfold runName
    split_ifs
    · omega
    · rw [String.length_append, String.length_append]
      omega
  have hlimit : Path.nameLimit = 255 := rfl
  have hbytes := utf8ByteSize_le (runName s.stamp suffix)
  omega

/-- Different suffixes give different names. -/
theorem runName_injective (stamp : String) : Function.Injective (runName stamp) := by
  intro m n h
  have hlength : (runName stamp m).length = (runName stamp n).length := by rw [h]
  unfold runName at h hlength
  split_ifs at h hlength with hm hn hn
  · rw [hm, hn]
  · simp only [String.length_append] at hlength
    have : "_".length = 1 := rfl
    omega
  · simp only [String.length_append] at hlength
    have : "_".length = 1 := rfl
    omega
  · have hdigits := (String.append_right_inj _).mp h
    have hvalue := congrArg (fun s : String => Nat.ofDigitChars 10 s.toList 0) hdigits
    simpa [Nat.toString_eq_ofList_toDigits] using hvalue

/-- **One name is not in use** among one more than there are names. -/
theorem exists_runName_not_mem (names : List String) (stamp : String) :
    ∃ n ≤ names.length, runName stamp n ∉ names := by
  by_contra hall
  push Not at hall
  have hsubset : (List.range (names.length + 1)).map (runName stamp) ⊆ names := by
    intro name hname
    obtain ⟨n, hn, rfl⟩ := List.mem_map.mp hname
    exact hall n (Nat.lt_succ_iff.mp (List.mem_range.mp hn))
  have hnodup : ((List.range (names.length + 1)).map (runName stamp)).Nodup :=
    List.nodup_range.map (runName_injective stamp)
  have hlength := (hnodup.subperm hsubset).length_le
  simp only [List.length_map, List.length_range] at hlength
  omega

theorem leads_candidate (base : String) (s : Timestamp) (suffix : Nat) :
    Path.Leads base (candidate base s.stamp suffix) [runName s.stamp suffix] :=
  (Path.leads_self base).join (isName_runName s suffix)

end Layout

/-! ### Making one directory -/

namespace FileTree

theorem step_ne_alreadyExists (t : FileTree) (at_ : Place) (piece : String) :
    t.step at_ piece ≠ .error .alreadyExists := by
  unfold step
  split
  · exact nofun
  · exact nofun
  · split_ifs <;> exact nofun

theorem follow_ne_alreadyExists (t : FileTree) (at_ : Place) (pieces : List String) :
    t.follow at_ pieces ≠ .error .alreadyExists := by
  induction pieces generalizing at_ with
  | nil => exact nofun
  | cons piece pieces ih =>
    rw [follow, List.foldlM_cons]
    cases hs : t.step at_ piece with
    | error fault => exact fun h => step_ne_alreadyExists t at_ piece (hs.trans h)
    | ok next => exact ih next

theorem locate_ne_alreadyExists (t : FileTree) (path : String) :
    t.locate path ≠ .error .alreadyExists := by
  unfold locate
  split_ifs
  · exact nofun
  · exact nofun
  · exact follow_ne_alreadyExists t _ _

/-- A directory exists already where something stands. -/
theorem makeDir_eq_alreadyExists_iff {t : FileTree} {path : String} :
    t.makeDir path = .error .alreadyExists ↔
      ∃ place e, t.locate path = .ok place ∧ t.get? place = some e := by
  constructor
  · intro h
    cases hl : t.locate path with
    | error fault =>
      rw [makeDir, hl] at h
      obtain rfl : fault = .alreadyExists := Except.error.inj h
      exact absurd hl (locate_ne_alreadyExists t path)
    | ok place =>
      rw [makeDir_of_locate hl] at h
      split_ifs at h with hsome
      obtain ⟨e, he⟩ := Option.isSome_iff_exists.mp hsome
      exact ⟨place, e, rfl, he⟩
  · rintro ⟨place, e, hl, he⟩
    rw [makeDir_of_locate hl, he]
    rfl

theorem pathExists_of_makeDir {t t' : FileTree} {path : String} (h : t.makeDir path = .ok t') :
    t.pathExists path = false := by
  obtain ⟨place, hl, hnone, -⟩ := makeDir_eq_ok_iff.mp h
  simp [pathExists, lookup, hl, hnone, bind, Except.bind]

/-- A directory that is made is found, at a place where nothing was. -/
theorem lookup_of_makeDir {t t' : FileTree} {path : String} (h : t.makeDir path = .ok t') :
    ∃ place, t.get? place = none ∧ t'.lookup path = .ok (place, .directory) := by
  have hkeeps := makeDir_eq_ok h
  obtain ⟨place, hl, hnone, rfl⟩ := makeDir_eq_ok_iff.mp h
  have hroot : place ≠ [] := by
    rintro rfl
    cases hnone
  exact ⟨place, hnone, lookup_of_locate (hkeeps.grows.locate hl) (get?_set_self _ _ hroot)⟩

end FileTree

/-! ### Trying candidates in turn -/

namespace Layout

/-- Something stands where the candidate would be made. -/
def Taken (t : FileTree) (base stamp : String) (suffix : Nat) : Prop :=
  t.makeDir (candidate base stamp suffix) = .error .alreadyExists

/-- **One candidate is not taken** among one more than there are entries. -/
theorem exists_not_taken (t : FileTree) (base : String) (s : Timestamp) :
    ∃ n ≤ t.entries.length, ¬ Taken t base s.stamp n := by
  -- a candidate that is taken is the last name of some place
  obtain ⟨n, hn, hfree⟩ :=
    exists_runName_not_mem (t.entries.filterMap fun e => e.1.getLast?) s.stamp
  refine ⟨n, hn.trans (List.length_filterMap_le _ _), fun htaken => hfree ?_⟩
  obtain ⟨place, e, hl, he⟩ := FileTree.makeDir_eq_alreadyExists_iff.mp htaken
  obtain ⟨at_, -, rfl⟩ := FileTree.locate_of_leads (leads_candidate base s n)
    (fun m hm => List.mem_singleton.mp hm ▸ isName_runName s n) hl
  have hne : at_ ++ [runName s.stamp n] ≠ [] :=
    List.append_ne_nil_of_right_ne_nil _ (List.cons_ne_nil _ _)
  exact List.mem_filterMap.mpr
    ⟨_, FileTree.mem_entries_of_get? hne he, List.getLast?_concat⟩

/-- There is a first candidate that is not taken. -/
theorem exists_first_not_taken (t : FileTree) (base : String) (s : Timestamp) :
    ∃ n ≤ t.entries.length, (∀ k < n, Taken t base s.stamp k) ∧ ¬ Taken t base s.stamp n := by
  classical
  obtain ⟨m, hm, hfree⟩ := exists_not_taken t base s
  have hex : ∃ n, ¬ Taken t base s.stamp n := ⟨m, hfree⟩
  refine ⟨Nat.find hex, (Nat.find_min' hex hfree).trans hm, fun k hk => ?_, Nat.find_spec hex⟩
  exact not_not.mp (Nat.find_min hex hk)

end Layout

/-! ### Rounds of the search -/

namespace RunSearch
open Layout (candidate Taken)

theorem repeat_eq_iterate {α : Type} (f : α → α) (n : Nat) (a : α) :
    Nat.repeat f n a = f^[n] a := by
  induction n with
  | zero => rfl
  | succ n ih => rw [Function.iterate_succ_apply', ← ih, Nat.repeat]

section
variable {t : FileTree} {base stamp : String}

theorem next_of_taken {k : Nat} (hk : k < UInt32.size) (h : Taken t base stamp k) :
    next base stamp (t, .trying (.ofNat k)) =
      if k + 1 < UInt32.size then (t, .trying (.ofNat (k + 1))) else (t, .overflowed) := by
  have hvalue : (UInt32.ofNat k).toNat = k := UInt32.toNat_ofNat_of_lt' hk
  rw [Taken] at h
  simp only [next, hvalue, h, UInt32.ofNat_add]
  rfl

/-- A candidate that is not taken ends the search. -/
theorem next_of_not_taken {k : Nat} (hk : k < UInt32.size) (h : ¬ Taken t base stamp k) :
    ∃ u result, next base stamp (t, .trying (.ofNat k)) = (u, .ended result) := by
  have hvalue : (UInt32.ofNat k).toNat = k := UInt32.toNat_ofNat_of_lt' hk
  rw [Taken] at h
  simp only [next, hvalue]
  cases hmade : t.makeDir (candidate base stamp k) with
  | ok made => exact ⟨_, _, rfl⟩
  | error fault =>
    cases fault with
    | alreadyExists => exact absurd hmade h
    | _ => exact ⟨_, _, rfl⟩

/-- **What a round does**: nothing to the tree, or it makes the directory that the search is for. -/
theorem next_cases (t : FileTree) (base stamp : String) (suffix : UInt32) :
    ((next base stamp (t, .trying suffix)).1 = t ∧
        ∀ l, (next base stamp (t, .trying suffix)).2 ≠ .ended (.ok l)) ∨
      ∃ l, t.makeDir l.root = .ok (next base stamp (t, .trying suffix)).1 ∧
        (next base stamp (t, .trying suffix)).2 = .ended (.ok l) := by
  simp only [next]
  cases hmade : t.makeDir (candidate base stamp suffix.toNat) with
  | ok made => exact Or.inr ⟨⟨candidate base stamp suffix.toNat⟩, hmade, rfl⟩
  | error fault =>
    refine Or.inl ?_
    cases fault with
    | alreadyExists =>
      dsimp only
      split_ifs
      · exact ⟨rfl, fun l h => by cases h⟩
      · exact ⟨rfl, fun l h => by cases h⟩
    | _ => exact ⟨rfl, fun l h => by cases h⟩

/-- Taken candidates are passed over one by one. -/
theorem iterate_next_taken {k : Nat} (hk : k < UInt32.size) (h : ∀ j < k, Taken t base stamp j) :
    (next base stamp)^[k] (t, .trying 0) = (t, .trying (.ofNat k)) := by
  induction k with
  | zero => rfl
  | succ k ih =>
    rw [Function.iterate_succ_apply', ih (by omega) fun j hj => h j (by omega),
      next_of_taken (by omega) (h k (Nat.lt_succ_self k)), if_pos hk]

/-- **The search ends at the first candidate that is not taken**, if the count gets there. -/
theorem iterate_next {n : Nat} (hn : n < UInt32.size) (htaken : ∀ k < n, Taken t base stamp k)
    (hfree : ¬ Taken t base stamp n) (k : Nat) :
    (next base stamp)^[k] (t, .trying 0) =
      if k ≤ n then (t, .trying (.ofNat k)) else next base stamp (t, .trying (.ofNat n)) := by
  split_ifs with hk
  · exact iterate_next_taken (by omega) fun j hj => htaken j (by omega)
  · obtain ⟨more, rfl⟩ : ∃ more, k = more + 1 + n := ⟨k - n - 1, by omega⟩
    obtain ⟨u, result, hended⟩ := next_of_not_taken hn hfree
    rw [Function.iterate_add_apply, iterate_next_taken hn htaken, Function.iterate_succ_apply,
      hended]
    exact Function.iterate_fixed rfl more

/-- **The search is over** after one round more than there are entries: it has ended, or the count
has come to its limit. -/
theorem iterate_next_settled (t : FileTree) (base : String) (s : Timestamp) :
    ∃ u search, (next base s.stamp)^[t.entries.length + 1] (t, .trying 0) = (u, search) ∧
      ∀ suffix, search ≠ .trying suffix := by
  obtain ⟨n, hn, htaken, hfree⟩ := Layout.exists_first_not_taken t base s
  by_cases hsmall : n < UInt32.size
  · obtain ⟨u, result, hended⟩ := next_of_not_taken hsmall hfree
    refine ⟨u, .ended result, ?_, nofun⟩
    rw [iterate_next hsmall htaken hfree, if_neg (by omega), hended]
  · -- every suffix there is has been tried
    have hpos : 0 < UInt32.size := by decide
    obtain ⟨more, hrounds⟩ : ∃ more, t.entries.length + 1 = more + 1 + (UInt32.size - 1) :=
      ⟨t.entries.length + 1 - UInt32.size, by omega⟩
    refine ⟨t, .overflowed, ?_, nofun⟩
    rw [hrounds, Function.iterate_add_apply,
      iterate_next_taken (by omega) fun j hj => htaken j (by omega),
      Function.iterate_succ_apply, next_of_taken (by omega) (htaken _ (by omega)),
      if_neg (by omega)]
    exact Function.iterate_fixed rfl more

end

end RunSearch

namespace Layout

theorem forRun_of_makeDirs {t made : FileTree} {base : String} (h : t.makeDirs base = (made, none))
    (s : Timestamp) : forRun t base s =
      (((RunSearch.next base s.stamp)^[made.entries.length + 1] (made, .trying 0)).1,
        ((RunSearch.next base s.stamp)^[made.entries.length + 1] (made, .trying 0)).2.result
          base s.stamp) := by
  unfold forRun
  simp only [h, RunSearch.repeat_eq_iterate]

end Layout
end TypeAtlas
