import TypeAtlas.Proofs.Artifact.RunNames

/-! # Runs that start at once

Several runs can ask for a directory below the same base directory, each at its own pace.
A call makes sure that the base directory is there and then does one round of the search
after another (`RunSearch.next`); a round is a single access to the tree, and between two
accesses of a call any others can come in (`RunCall.next`).  The calls take turns as a schedule says, which is
any list of their positions (`RunCalls.run`).  A call that is alone comes to the result of
`Layout.forRun` (`RunCalls.run_alone`).

A turn does one of two things (`RunCalls.turn_cases`): the tree and the directories that
were returned stay as they are, or one directory is made where nothing stood and is
returned.  So returned directories are at different places whatever the schedule is, the
times of start are, and whatever stood below the base directory before
(`RunCalls.run_directories_apart`).
-/
namespace TypeAtlas
open FileTree
open Layout (forRun)

/-! ### One call -/

/-- How far a call for a run directory has come. -/
inductive RunCall where
  /-- The base directory has to be there first. -/
  | opening (start : Timestamp)
  /-- The candidate with this suffix comes next. -/
  | trying (stamp : String) (suffix : UInt32)
  | returned (result : Except WriteFault Layout)
  deriving DecidableEq

namespace RunCall

/-- How far a call has come that is searching.  A search that is over returns. -/
def ofSearch (base stamp : String) : RunSearch → RunCall
  | .trying suffix => .trying stamp suffix
  | search => .returned (search.result base stamp)

/-- One access of a call, and how far it has come then. -/
def next (base : String) (t : FileTree) : RunCall → FileTree × RunCall
  | opening start =>
    match t.makeDirs base with
    | (made, some fault) => (made, .returned (.error (.directory base fault)))
    | (made, none) => (made, .trying start.stamp 0)
  | trying stamp suffix =>
    ((RunSearch.next base stamp (t, .trying suffix)).1,
      ofSearch base stamp (RunSearch.next base stamp (t, .trying suffix)).2)
  | returned result => (t, .returned result)

theorem next_opening {t made : FileTree} {base : String} (h : t.makeDirs base = (made, none))
    (start : Timestamp) : (opening start).next base t = (made, .trying start.stamp 0) := by
  unfold next
  simp only [h]

/-- A call that is searching does one round of the search. -/
theorem next_ofSearch (base stamp : String) (t : FileTree) (search : RunSearch) :
    (ofSearch base stamp search).next base t =
      ((RunSearch.next base stamp (t, search)).1,
        ofSearch base stamp (RunSearch.next base stamp (t, search)).2) := by
  cases search <;> rfl

theorem ofSearch_eq_returned {search : RunSearch} (h : ∀ suffix, search ≠ .trying suffix)
    (base stamp : String) : ofSearch base stamp search = .returned (search.result base stamp) := by
  cases search with
  | trying suffix => exact absurd rfl (h suffix)
  | overflowed => rfl
  | ended result => rfl

theorem eq_ended_of_ofSearch {base stamp : String} {search : RunSearch} {l : Layout}
    (h : ofSearch base stamp search = .returned (.ok l)) : search = .ended (.ok l) := by
  cases search with
  | trying suffix => cases h
  | overflowed => cases h
  | ended result =>
    cases h
    rfl

/-- **What an access does** when the base directory is there: nothing to the tree, or it makes
the directory that the call returns. -/
theorem next_cases {t : FileTree} {base : String} (hbase : t.Stands base) (c : RunCall) :
    (c.next base t).1 = t ∧
        (∀ l, (c.next base t).2 = .returned (.ok l) → c = .returned (.ok l)) ∧
        (∀ l, c = .returned (.ok l) → (c.next base t).2 = .returned (.ok l)) ∨
      ∃ l, t.makeDir l.root = .ok (c.next base t).1 ∧ (c.next base t).2 = .returned (.ok l) := by
  cases c with
  | opening start =>
    rw [next_opening (makeDirs_eq_self hbase)]
    refine Or.inl ⟨rfl, fun l h => ?_, fun l h => ?_⟩
    · cases h
    · cases h
  | trying stamp suffix =>
    simp only [next]
    rcases RunSearch.next_cases t base stamp suffix with ⟨htree, hgoes⟩ | ⟨l, hmade, hended⟩
    · refine Or.inl ⟨htree, fun l h => ?_, fun l h => by cases h⟩
      exact absurd (eq_ended_of_ofSearch h) (hgoes l)
    · refine Or.inr ⟨l, hmade, ?_⟩
      rw [hended]
      rfl
  | returned result => exact Or.inl ⟨rfl, fun l h => h, fun l h => h⟩

end RunCall

/-! ### Calls that take turns -/

/-- Calls on one tree. -/
structure RunCalls where
  tree : FileTree
  calls : List RunCall

namespace RunCalls

/-- Calls that have not begun. -/
def start (t : FileTree) (starts : List Timestamp) : RunCalls :=
  ⟨t, starts.map .opening⟩

/-- The call at a position takes a turn. -/
def turn (base : String) (w : RunCalls) (i : Nat) : RunCalls :=
  match w.calls[i]? with
  | some c => ⟨(c.next base w.tree).1, w.calls.set i (c.next base w.tree).2⟩
  | none => w

/-- The calls take turns as the schedule says. -/
def run (base : String) (w : RunCalls) (schedule : List Nat) : RunCalls :=
  schedule.foldl (turn base) w

/-- The call at a position has returned a directory. -/
def Returned (w : RunCalls) (i : Nat) (l : Layout) : Prop :=
  w.calls[i]? = some (.returned (.ok l))

instance (w : RunCalls) (i : Nat) (l : Layout) : Decidable (w.Returned i l) :=
  inferInstanceAs (Decidable (w.calls[i]? = some (.returned (.ok l))))

theorem run_append (base : String) (w : RunCalls) (xs ys : List Nat) :
    run base w (xs ++ ys) = run base (run base w xs) ys :=
  List.foldl_append

/-! ### A call that is alone -/

theorem turn_single (base : String) (t : FileTree) (c : RunCall) :
    turn base ⟨t, [c]⟩ 0 = ⟨(c.next base t).1, [(c.next base t).2]⟩ :=
  rfl

/-- A call that is searching and alone does one round of the search after another. -/
theorem run_ofSearch (base stamp : String) (t : FileTree) (search : RunSearch) (n : Nat) :
    run base ⟨t, [.ofSearch base stamp search]⟩ (List.replicate n 0) =
      ⟨((RunSearch.next base stamp)^[n] (t, search)).1,
        [.ofSearch base stamp ((RunSearch.next base stamp)^[n] (t, search)).2]⟩ := by
  induction n with
  | zero => rfl
  | succ n ih =>
    rw [List.replicate_succ', run_append, ih, Function.iterate_succ_apply']
    exact congrArg (fun c => RunCalls.mk c.1 [c.2]) (RunCall.next_ofSearch base stamp _ _)

theorem run_returned (base : String) (t : FileTree) (result : Except WriteFault Layout) (n : Nat) :
    run base ⟨t, [.returned result]⟩ (List.replicate n 0) = ⟨t, [.returned result]⟩ := by
  induction n with
  | zero => rfl
  | succ n ih =>
    rw [List.replicate_succ']
    rw [run_append, ih]
    rfl

/-- **A call that is alone comes to the result of `Layout.forRun`** and stays there. -/
theorem run_alone (t : FileTree) (base : String) (s : Timestamp) :
    ∃ n, ∀ m, run base (start t [s]) (List.replicate (n + m) 0) =
      ⟨(forRun t base s).1, [.returned (forRun t base s).2]⟩ := by
  suffices h : ∃ n, run base (start t [s]) (List.replicate n 0) =
      ⟨(forRun t base s).1, [.returned (forRun t base s).2]⟩ by
    obtain ⟨n, hn⟩ := h
    refine ⟨n, fun m => ?_⟩
    rw [List.replicate_add, run_append, hn, run_returned]
  cases hmade : t.makeDirs base with
  | mk made fault =>
    cases fault with
    | some fault =>
      refine ⟨1, ?_⟩
      change turn base ⟨t, [.opening s]⟩ 0 = _
      rw [turn_single]
      unfold RunCall.next forRun
      simp only [hmade]
    | none =>
      obtain ⟨u, search, hlast, hover⟩ := RunSearch.iterate_next_settled made base s
      refine ⟨1 + (made.entries.length + 1), ?_⟩
      have hopen : turn base ⟨t, [.opening s]⟩ 0 =
          ⟨made, [.ofSearch base s.stamp (.trying 0)]⟩ := by
        rw [turn_single, RunCall.next_opening hmade]
        rfl
      rw [List.replicate_add, run_append]
      change run base (turn base ⟨t, [.opening s]⟩ 0) _ = _
      rw [hopen, run_ofSearch, Layout.forRun_of_makeDirs hmade, hlast,
        RunCall.ofSearch_eq_returned hover]

/-! ### What a turn does -/

/-- **What a turn does**: the tree and what was returned stay as they are, or a directory is made
and returned by the call whose turn it is. -/
theorem turn_cases {base : String} {w : RunCalls} (hbase : w.tree.Stands base) (i : Nat) :
    (w.turn base i).tree = w.tree ∧ (∀ j l, (w.turn base i).Returned j l ↔ w.Returned j l) ∨
      ∃ l, w.tree.makeDir l.root = .ok (w.turn base i).tree ∧
        ∀ j m, (w.turn base i).Returned j m ↔ if j = i then m = l else w.Returned j m := by
  unfold turn
  cases hc : w.calls[i]? with
  | none => exact Or.inl ⟨rfl, fun j l => Iff.rfl⟩
  | some c =>
    have hi : i < w.calls.length := (List.getElem?_eq_some_iff.mp hc).1
    rcases c.next_cases hbase with ⟨htree, hback, hkept⟩ | ⟨l, hmade, hnext⟩
    · refine Or.inl ⟨htree, fun j l => ?_⟩
      unfold Returned
      by_cases hj : i = j
      · subst hj
        simp only [List.getElem?_set_self hi, hc, Option.some.injEq]
        exact ⟨hback l, hkept l⟩
      · rw [List.getElem?_set_ne hj]
    · refine Or.inr ⟨l, hmade, fun j m => ?_⟩
      unfold Returned
      by_cases hj : i = j
      · subst hj
        simp only [List.getElem?_set_self hi, hnext, if_true, Option.some.injEq,
          RunCall.returned.injEq, Except.ok.injEq]
        exact eq_comm
      · rw [List.getElem?_set_ne hj, if_neg fun h => hj h.symm]

theorem turn_keeps {base : String} {w : RunCalls} (hbase : w.tree.Stands base) (i : Nat) :
    w.tree.Keeps (w.turn base i).tree := by
  rcases turn_cases hbase i with ⟨htree, -⟩ | ⟨l, hmade, -⟩
  · rw [htree]
    exact Keeps.rfl
  · exact makeDir_eq_ok hmade

/-- A directory that is returned in a turn is returned by the call whose turn it is, which has made
it where nothing was. -/
theorem turn_returned {base : String} {w : RunCalls} (hbase : w.tree.Stands base) {i j : Nat}
    {l : Layout} (h : (w.turn base i).Returned j l) :
    w.Returned j l ∨ j = i ∧ w.tree.makeDir l.root = .ok (w.turn base i).tree := by
  rcases turn_cases hbase i with ⟨-, hsame⟩ | ⟨l', hmade, hreturned⟩
  · exact Or.inl ((hsame j l).mp h)
  · rw [hreturned] at h
    split_ifs at h with hj
    · rw [h]
      exact Or.inr ⟨hj, hmade⟩
    · exact Or.inl h

/-! ### What every run keeps -/

/-- The call at a position has returned the directory at a place. -/
def Holds (w : RunCalls) (i : Nat) (place : Place) : Prop :=
  ∃ l, w.Returned i l ∧ w.tree.lookup l.root = .ok (place, .directory)

/-- What was returned are directories at different places. -/
structure Apart (w : RunCalls) : Prop where
  directory : ∀ i l, w.Returned i l → ∃ place, w.tree.lookup l.root = .ok (place, .directory)
  apart : ∀ i j place, w.Holds i place → w.Holds j place → i = j

theorem apart_start (t : FileTree) (starts : List Timestamp) : (start t starts).Apart := by
  have hnone : ∀ i l, ¬ (start t starts).Returned i l := by
    intro i l h
    rw [Returned, start, List.getElem?_map] at h
    cases hs : starts[i]? <;> simp [hs] at h
  constructor
  · exact fun i l h => absurd h (hnone i l)
  · rintro i j place ⟨l, h, -⟩
    exact absurd h (hnone i l)

section
variable {base : String} {w : RunCalls} (h : w.Apart) (hbase : w.tree.Stands base)
include h hbase

/-- After a turn a call holds what it held, or it has the turn and holds what was free. -/
theorem Apart.holds_turn {i j : Nat} {place : Place} (hj : (w.turn base i).Holds j place) :
    w.Holds j place ∨ j = i ∧ w.tree.get? place = none := by
  obtain ⟨l, hreturned, hlookup⟩ := hj
  rcases turn_returned hbase hreturned with hbefore | ⟨rfl, hmade⟩
  · obtain ⟨place', hlookup'⟩ := h.directory j l hbefore
    have hkept := (turn_keeps hbase i).grows.lookup hlookup'
    obtain rfl : place' = place := (Prod.mk.inj (Except.ok.inj (hkept.symm.trans hlookup))).1
    exact Or.inl ⟨l, hbefore, hlookup'⟩
  · obtain ⟨place', hnone, hlookup'⟩ := lookup_of_makeDir hmade
    obtain rfl : place' = place := (Prod.mk.inj (Except.ok.inj (hlookup'.symm.trans hlookup))).1
    exact Or.inr ⟨rfl, hnone⟩

/-- **A turn keeps the returned directories apart.** -/
theorem Apart.turn (i : Nat) : (w.turn base i).Apart := by
  -- what is held was there before the turn
  have hthere : ∀ {j place}, w.Holds j place → w.tree.get? place ≠ none := by
    rintro j place ⟨l, -, hlookup⟩
    rw [(lookup_eq_directory hlookup).2]
    exact Option.some_ne_none _
  constructor
  · intro j l hj
    rcases turn_returned hbase hj with hbefore | ⟨-, hmade⟩
    · obtain ⟨place, hlookup⟩ := h.directory j l hbefore
      exact ⟨place, (turn_keeps hbase i).grows.lookup hlookup⟩
    · obtain ⟨place, -, hlookup⟩ := lookup_of_makeDir hmade
      exact ⟨place, hlookup⟩
  · intro j k place hj hk
    rcases h.holds_turn hbase hj with hj | ⟨rfl, hfree⟩ <;>
      rcases h.holds_turn hbase hk with hk | ⟨hki, hfree'⟩
    · exact h.apart j k place hj hk
    · exact absurd hfree' (hthere hj)
    · exact absurd hfree (hthere hk)
    · exact hki.symm

end

theorem run_keeps {base : String} {w : RunCalls} (hbase : w.tree.Stands base)
    (schedule : List Nat) : w.tree.Keeps (run base w schedule).tree := by
  induction schedule generalizing w with
  | nil => exact Keeps.rfl
  | cons i schedule ih =>
    have hkeeps := turn_keeps hbase i
    exact hkeeps.trans (ih (hkeeps.matures.stands hbase))

theorem Apart.run {base : String} {w : RunCalls} (h : w.Apart) (hbase : w.tree.Stands base)
    (schedule : List Nat) : (run base w schedule).Apart := by
  induction schedule generalizing w with
  | nil => exact h
  | cons i schedule ih =>
    exact ih (h.turn hbase i) ((turn_keeps hbase i).matures.stands hbase)

/-- **Runs never share a directory.**  Calls below a base directory that is there take turns in any
way.  Nothing that stood anywhere is removed or changed, by the whole run or by any turn.  What
calls have returned are directories at different places.  A call returns a directory only by making
it, where nothing stood just before.  A call that is alone does what `Layout.forRun` does. -/
theorem run_directories_apart {t : FileTree} {base : String} (hbase : t.Stands base)
    (starts : List Timestamp) (schedule : List Nat) :
    let w := run base (start t starts) schedule
    t.Keeps w.tree ∧
      (∀ i l, w.Returned i l → w.tree.isDirectory l.root = true) ∧
      (∀ i j l m, i ≠ j → w.Returned i l → w.Returned j m →
        l.root ≠ m.root ∧ w.tree.lookup l.root ≠ w.tree.lookup m.root) ∧
      (∀ i, w.tree.Keeps (w.turn base i).tree ∧ ∀ j l, (w.turn base i).Returned j l →
        w.Returned j l ∨
          w.tree.pathExists l.root = false ∧ w.tree.makeDir l.root = .ok (w.turn base i).tree) ∧
      (∀ s, ∃ n, ∀ m, run base (start t [s]) (List.replicate (n + m) 0) =
        ⟨(forRun t base s).1, [.returned (forRun t base s).2]⟩) := by
  intro w
  have hkeeps : t.Keeps w.tree := run_keeps (w := start t starts) hbase schedule
  have hstands : w.tree.Stands base := hkeeps.matures.stands hbase
  have hapart : w.Apart := (apart_start t starts).run hbase schedule
  refine ⟨hkeeps, ?_, ?_, ?_, run_alone t base⟩
  · intro i l hi
    obtain ⟨place, hlookup⟩ := hapart.directory i l hi
    rw [isDirectory, hlookup]
  · intro i j l m hij hi hj
    have hne : w.tree.lookup l.root ≠ w.tree.lookup m.root := by
      intro he
      obtain ⟨place, hlookup⟩ := hapart.directory i l hi
      exact hij (hapart.apart i j place ⟨l, hi, hlookup⟩ ⟨m, hj, he.symm.trans hlookup⟩)
    exact ⟨fun he => hne (by rw [he]), hne⟩
  · refine fun i => ⟨turn_keeps hstands i, fun j l hj => ?_⟩
    rcases turn_returned hstands hj with hbefore | ⟨-, hmade⟩
    · exact Or.inl hbefore
    · exact Or.inr ⟨pathExists_of_makeDir hmade, hmade⟩

/-- A base directory in which a file has the name of a second and an old run its first suffix. -/
def usedBase : FileTree :=
  ⟨[(["out"], .directory), (["out", "1970-01-01T00-00-00"], .file ByteArray.empty),
    (["out", "1970-01-01T00-00-00_1"], .directory)], []⟩

/-- Two runs that start in one second below `usedBase`; the second call overtakes the first. -/
def overtaken : RunCalls :=
  run "/out" (start usedBase [.mk 0 0, .mk 0 7]) [0, 1, 0, 1, 1, 1, 0, 0, 0]

theorem run_directories_apart_overtaken :
    usedBase.Stands "/out" ∧ overtaken.Returned 0 ⟨"/out/1970-01-01T00-00-00_3"⟩ ∧
      overtaken.Returned 1 ⟨"/out/1970-01-01T00-00-00_2"⟩ ∧
      overtaken.tree.lookup "/out/1970-01-01T00-00-00_3" ≠
        overtaken.tree.lookup "/out/1970-01-01T00-00-00_2" := by
  have hbase : usedBase.Stands "/out" := (isDirectory_iff.mp (by decide)).2
  have hfirst : overtaken.Returned 0 ⟨"/out/1970-01-01T00-00-00_3"⟩ := by decide +kernel
  have hsecond : overtaken.Returned 1 ⟨"/out/1970-01-01T00-00-00_2"⟩ := by decide +kernel
  obtain ⟨-, -, hapart, -⟩ :=
    run_directories_apart hbase [.mk 0 0, .mk 0 7] [0, 1, 0, 1, 1, 1, 0, 0, 0]
  exact ⟨hbase, hfirst, hsecond, (hapart 0 1 _ _ (by decide) hfirst hsecond).2⟩

end RunCalls
end TypeAtlas
