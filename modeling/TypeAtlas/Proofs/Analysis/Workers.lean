import TypeAtlas.Analysis.Batch
import Mathlib.Algebra.GroupWithZero.Nat
import Mathlib.Data.List.FinRange

/-! # Workers

The files of a batch are handed out to workers.  A worker takes its files one after another
and keeps its parser between them: a grammar is loaded only if the file before was of
another language, and the worker goes by what it remembers of that (`Worker.load`).  A file
can fail at every stage, and the worker goes on with what its parser then holds.

What a worker remembers is true and of a grammar that its parser takes (`Worker.Ready`).
Every file leaves it so, failed or not, and then the next file has the result that it has
with a fresh worker (`Worker.Ready.extractFile`).  So the batch does not depend on how the
files are handed out: it holds the successes and the failures of the files alone, in the
order of the list, and its counts are right (`Tally.extractAll_isolated`).
-/
namespace TypeAtlas

open Source (Language Parsed Extraction)

/-! ### A worker and its parser -/

/-- A worker between two files. -/
structure Worker where
  /-- The grammar in its parser. -/
  loaded : Option Language
  /-- The language that it remembers to have loaded. -/
  current : Option Language

namespace Worker

/-- A worker that has not read anything. -/
def fresh : Worker :=
  ⟨none, none⟩

section
variable (k : Toolkit) (t : FileTree) (root : Option String)

/-- Loads a grammar unless it is remembered. -/
def load (w : Worker) (l : Language) : Except SkipReason Unit × Worker :=
  if w.current = some l then (.ok (), w)
  else
    match k.refusal l with
    | some reason => (.error (.noGrammar l reason), w)
    | none => (.ok (), ⟨some l, some l⟩)

/-- Reads a text by the grammar in the parser, after the one of the language is loaded. -/
def parse (w : Worker) (l : Language) (source : List Char) (path : String) :
    Except SkipReason Parsed × Worker :=
  match w.load k l with
  | (.error fault, w) => (.error fault, w)
  | (.ok (), w) =>
    match w.loaded.bind fun g => k.parse g source with
    | some p => (.ok p, w)
    | none => (.error (.noTree path), w)

/-- Takes the types out of a text. -/
def extractSource (w : Worker) (l : Language) (source path : String) :
    Except SkipReason Extraction × Worker :=
  match k.unavailable l with
  | some reason => (.error (.noGrammar l reason), w)
  | none =>
    match w.parse k l source.toList path with
    | (.error fault, w) => (.error fault, w)
    | (.ok p, w) => (.ok ⟨l.dialect.declarations p path, p.root.hasError⟩, w)

/-- Takes the types out of a file. -/
def extractFile (w : Worker) (path : String) : Except SkipReason Extraction × Worker :=
  match Language.ofPath? path with
  | none => (.error (.noLanguage path), w)
  | some l =>
    match Source.readFile t path with
    | .error reason => (.error reason, w)
    | .ok source => w.extractSource k l source (Source.recordedPath root path)

/-- Takes the types out of one file after another. -/
def extractFiles : Worker → List String → List (Except SkipReason Extraction)
  | _, [] => []
  | w, path :: paths =>
    (w.extractFile k t root path).1 :: extractFiles (w.extractFile k t root path).2 paths

end

end Worker

/-- What comes out of a file that a fresh worker takes. -/
def Toolkit.alone (k : Toolkit) (t : FileTree) (root : Option String) (path : String) :
    Except SkipReason Extraction :=
  (Worker.fresh.extractFile k t root path).1

/-! ### What a worker carries from file to file -/

namespace Worker
variable {k : Toolkit} {w : Worker}

/-- What the worker remembers is what its parser holds, and a grammar that it takes. -/
structure Ready (k : Toolkit) (w : Worker) : Prop where
  loaded_eq : w.loaded = w.current
  taken : ∀ l, w.current = some l → k.refusal l = none

theorem ready_fresh (k : Toolkit) : fresh.Ready k :=
  ⟨rfl, nofun⟩

namespace Ready

/-- Loading leads to the same whatever was loaded before. -/
theorem load_eq (h : w.Ready k) (l : Language) :
    w.load k l =
      match k.refusal l with
      | some reason => (.error (.noGrammar l reason), w)
      | none => (.ok (), ⟨some l, some l⟩) := by
  by_cases hcurrent : w.current = some l
  · have hloaded : w = ⟨some l, some l⟩ := by
      cases w with
      | mk loaded current =>
        obtain rfl : current = some l := hcurrent
        obtain rfl : loaded = some l := h.loaded_eq
        rfl
    rw [load, if_pos hcurrent, h.taken l hcurrent, hloaded]
  · rw [load, if_neg hcurrent]

/-- A text is read by the grammar of its language. -/
theorem parse_eq (h : w.Ready k) (l : Language) (source : List Char) (path : String) :
    w.parse k l source path =
      match k.refusal l with
      | some reason => (.error (.noGrammar l reason), w)
      | none =>
        match k.parse l source with
        | some p => (.ok p, ⟨some l, some l⟩)
        | none => (.error (.noTree path), ⟨some l, some l⟩) := by
  rw [parse, h.load_eq l]
  cases k.refusal l <;> rfl

theorem of_taken {l : Language} (h : k.refusal l = none) : Ready k ⟨some l, some l⟩ := by
  refine ⟨rfl, ?_⟩
  rintro _ ⟨⟩
  exact h

theorem parse (h : w.Ready k) (l : Language) (source : List Char) (path : String) :
    (w.parse k l source path).1 = (fresh.parse k l source path).1 ∧
      (w.parse k l source path).2.Ready k := by
  rw [h.parse_eq, (ready_fresh k).parse_eq]
  cases hrefusal : k.refusal l with
  | some reason => exact ⟨rfl, h⟩
  | none =>
    cases k.parse l source with
    | some p => exact ⟨rfl, of_taken hrefusal⟩
    | none => exact ⟨rfl, of_taken hrefusal⟩

theorem extractSource (h : w.Ready k) (l : Language) (source path : String) :
    (w.extractSource k l source path).1 = (fresh.extractSource k l source path).1 ∧
      (w.extractSource k l source path).2.Ready k := by
  unfold Worker.extractSource
  cases k.unavailable l with
  | some reason => exact ⟨rfl, h⟩
  | none =>
    obtain ⟨hresult, hready⟩ := h.parse l source.toList path
    generalize w.parse k l source.toList path = read at hresult hready ⊢
    generalize fresh.parse k l source.toList path = read' at hresult ⊢
    obtain ⟨result, w⟩ := read
    obtain ⟨result', w'⟩ := read'
    obtain rfl : result = result' := hresult
    cases result with
    | error fault => exact ⟨rfl, hready⟩
    | ok p => exact ⟨rfl, hready⟩

/-- **One file.**  Whatever a worker has read before, it makes of a file what a fresh one makes of
it, and is ready for the next. -/
theorem extractFile (h : w.Ready k) (t : FileTree) (root : Option String) (path : String) :
    (w.extractFile k t root path).1 = k.alone t root path ∧
      (w.extractFile k t root path).2.Ready k := by
  unfold Toolkit.alone Worker.extractFile
  cases Language.ofPath? path with
  | none => exact ⟨rfl, h⟩
  | some l =>
    cases Source.readFile t path with
    | error reason => exact ⟨rfl, h⟩
    | ok source => exact h.extractSource l source _

/-- **File after file.**  A worker makes of its files what they give alone. -/
theorem extractFiles (t : FileTree) (root : Option String) (h : w.Ready k) (paths : List String) :
    w.extractFiles k t root paths = paths.map (k.alone t root) := by
  induction paths generalizing w with
  | nil => rfl
  | cons path paths ih =>
    obtain ⟨hresult, hready⟩ := h.extractFile t root path
    rw [Worker.extractFiles, hresult, ih hready, List.map_cons]

end Ready

end Worker

/-- A file alone gives what is taken out of it. -/
theorem Toolkit.alone_eq (k : Toolkit) (t : FileTree) (root : Option String) (path : String) :
    k.alone t root path = k.extractFile t root path := by
  unfold Toolkit.alone Worker.extractFile Toolkit.extractFile
  cases Language.ofPath? path with
  | none => rfl
  | some l =>
    cases Source.readFile t path with
    | error reason => rfl
    | ok source =>
      simp only [Worker.extractSource, (Worker.ready_fresh k).parse_eq, Except.bind, extract]
      cases k.unavailable l <;> cases k.refusal l <;> cases k.parse l source.toList <;> rfl

/-! ### Handing out files -/

section
variable (k : Toolkit) (t : FileTree) (root : Option String) (paths : List String)

/-- What a fresh worker makes of the files at some positions of the list. -/
def deliver (job : List (Fin paths.length)) :
    List (Fin paths.length × Except SkipReason Extraction) :=
  job.zip (Worker.fresh.extractFiles k t root (job.map paths.get))

/-- The results of several workers in the order of the list. -/
def collect (delivered : List (Fin paths.length × Except SkipReason Extraction)) :
    List (String × Except SkipReason Extraction) :=
  (List.finRange paths.length).filterMap fun i =>
    (delivered.find? fun x => decide (x.1 = i)).map fun x => (paths.get i, x.2)

theorem deliver_eq (job : List (Fin paths.length)) :
    deliver k t root paths job = job.map fun i => (i, k.alone t root (paths.get i)) := by
  rw [deliver, (Worker.ready_fresh k).extractFiles, List.map_map]
  induction job with
  | nil => rfl
  | cons i job ih => rw [List.map_cons, List.map_cons, List.zip_cons_cons, ih]; rfl

/-- **Every way to hand out the files gives the same results**: those of the files alone. -/
theorem collect_eq {jobs : List (List (Fin paths.length))}
    (h : jobs.flatten.Perm (List.finRange paths.length)) :
    collect paths (jobs.flatMap (deliver k t root paths)) =
      paths.map fun path => (path, k.alone t root path) := by
  have hdelivered : jobs.flatMap (deliver k t root paths) =
      jobs.flatten.map fun i => (i, k.alone t root (paths.get i)) := by
    rw [List.map_flatten, ← List.flatMap_def]
    exact List.flatMap_congr fun job _ => deliver_eq k t root paths job
  have hfound : ∀ i : Fin paths.length,
      (jobs.flatten.map fun i => (i, k.alone t root (paths.get i))).find?
        (fun x => decide (x.1 = i)) = some (i, k.alone t root (paths.get i)) := by
    intro i
    have hi : i ∈ jobs.flatten := h.mem_iff.mpr (List.mem_finRange i)
    obtain ⟨j, hj⟩ : ∃ j, jobs.flatten.find? (fun j => decide (j = i)) = some j :=
      Option.isSome_iff_exists.mp (List.find?_isSome.mpr ⟨i, hi, decide_eq_true rfl⟩)
    obtain rfl : j = i := by simpa using List.find?_some hj
    rw [List.find?_map]
    exact congrArg (Option.map _) hj
  calc collect paths (jobs.flatMap (deliver k t root paths))
    _ = (List.finRange paths.length).map fun i => (paths.get i, k.alone t root (paths.get i)) := by
        simp only [collect, hdelivered, hfound, Option.map_some, List.filterMap_eq_map']
    _ = ((List.finRange paths.length).map paths.get).map fun path =>
          (path, k.alone t root path) := by
        rw [List.map_map]
        rfl
    _ = paths.map fun path => (path, k.alone t root path) := by rw [List.map_get_finRange]

end

/-! ### Counting along the way -/

/-- What a batch has come to. -/
structure Tally where
  files : List (String × Extraction) := []
  skipped : List (String × SkipReason) := []
  processedCount : Nat := 0
  skippedCount : Nat := 0
  typeCount : Nat := 0
  faultyCount : Nat := 0

/-- The result of a file, if it is a success. -/
def success? : String × Except SkipReason Extraction → Option (String × Extraction)
  | (path, .ok e) => some (path, e)
  | (_, .error _) => none

/-- The result of a file, if it is a failure. -/
def failure? : String × Except SkipReason Extraction → Option (String × SkipReason)
  | (_, .ok _) => none
  | (path, .error fault) => some (path, fault)

namespace Tally

/-- Takes the result of the next file in. -/
def add (y : Tally) : String × Except SkipReason Extraction → Tally
  | (path, .ok e) =>
    { y with
      files := y.files ++ [(path, e)]
      processedCount := y.processedCount + 1
      typeCount := y.typeCount + e.types.length
      faultyCount := if e.hasErrors then y.faultyCount + 1 else y.faultyCount }
  | (path, .error fault) =>
    { y with skipped := y.skipped ++ [(path, fault)], skippedCount := y.skippedCount + 1 }

/-- Hands the files out to workers, a job for each, and counts what comes back. -/
def extractAll (k : Toolkit) (t : FileTree) (root : Option String) (paths : List String)
    (jobs : List (List (Fin paths.length))) : Tally :=
  (collect paths (jobs.flatMap (deliver k t root paths))).foldl add {}

/-- The tally is that of some results: the successes and the failures in their order, and right
counts of them. -/
structure IsOf (y : Tally) (results : List (String × Except SkipReason Extraction)) : Prop where
  files : y.files = results.filterMap success?
  skipped : y.skipped = results.filterMap failure?
  processed : y.processedCount = y.files.length
  left : y.skippedCount = y.skipped.length
  total : y.processedCount + y.skippedCount = results.length
  types : y.typeCount = (y.files.map fun f => f.2.types.length).sum
  faulty : y.faultyCount = (y.files.filter fun f => f.2.hasErrors).length

theorem IsOf.add {y : Tally} {results : List (String × Except SkipReason Extraction)}
    (h : y.IsOf results) (x : String × Except SkipReason Extraction) :
    (y.add x).IsOf (results ++ [x]) := by
  obtain ⟨path, result⟩ := x
  have htotal := h.total
  cases result with
  | error fault =>
    refine ⟨?_, ?_, h.processed, ?_, ?_, h.types, h.faulty⟩
    · rw [List.filterMap_append, ← h.files]
      exact (List.append_nil _).symm
    · rw [List.filterMap_append, ← h.skipped]
      rfl
    · simp only [Tally.add, h.left, List.length_append, List.length_singleton]
    · simp only [Tally.add, List.length_append, List.length_singleton]
      omega
  | ok e =>
    refine ⟨?_, ?_, ?_, h.left, ?_, ?_, ?_⟩
    · rw [List.filterMap_append, ← h.files]
      rfl
    · rw [List.filterMap_append, ← h.skipped]
      exact (List.append_nil _).symm
    · simp only [Tally.add, h.processed, List.length_append, List.length_singleton]
    · simp only [Tally.add, List.length_append, List.length_singleton]
      omega
    · simp [Tally.add, h.types]
    · simp only [Tally.add, h.faulty, List.filter_append, List.length_append]
      cases he : e.hasErrors <;> simp [he]

theorem IsOf.foldl_add {y : Tally} {results : List (String × Except SkipReason Extraction)}
    (h : y.IsOf results) (xs : List (String × Except SkipReason Extraction)) :
    (xs.foldl Tally.add y).IsOf (results ++ xs) := by
  induction xs generalizing y results with
  | nil => simpa using h
  | cons x xs ih =>
    rw [List.foldl_cons, List.append_cons]
    exact ih (h.add x)

/-- The tally is that of a batch. -/
structure Matches (y : Tally) (b : Batch) : Prop where
  files : y.files = b.files
  skipped : y.skipped = b.skipped
  types : y.typeCount = b.declarations.length
  faulty : y.faultyCount = b.faultyCount

/-- The tally of the files alone is that of their batch. -/
theorem IsOf.matches {y : Tally} {k : Toolkit} {t : FileTree} {root : Option String}
    {paths : List String} (h : y.IsOf (paths.map fun path => (path, k.alone t root path))) :
    y.Matches (k.batch t root paths) := by
  have hfiles : y.files = (k.batch t root paths).files := by
    rw [h.files, Toolkit.batch, List.filterMap_map, List.filterMap_map]
    refine List.filterMap_congr fun path _ => ?_
    simp only [Function.comp_apply, Toolkit.alone_eq]
    cases k.extractFile t root path <;> rfl
  refine ⟨hfiles, ?_, ?_, ?_⟩
  · simp only [h.skipped, Toolkit.batch, List.filterMap_map]
    refine List.filterMap_congr fun path _ => ?_
    simp only [Function.comp_apply, Toolkit.alone_eq]
    cases k.extractFile t root path <;> rfl
  · rw [h.types, hfiles, Batch.declarations, List.length_flatMap]
  · rw [h.faulty, hfiles, Batch.faultyCount]

/-- **Files do not touch each other.**  However the files of a list are handed out to workers, of
which each keeps its parser from file to file, the batch has the successes and the failures that
the files give alone, both in the order of the list, and right counts of them.  It is the batch
of the list, with any toolkit and with the grammars of this library. -/
theorem extractAll_isolated (t : FileTree) (root : Option String) (paths : List String)
    (jobs : List (List (Fin paths.length)))
    (h : jobs.flatten.Perm (List.finRange paths.length)) :
    (∀ k, (extractAll k t root paths jobs).IsOf
        (paths.map fun path => (path, k.alone t root path)) ∧
      (extractAll k t root paths jobs).Matches (k.batch t root paths)) ∧
    (extractAll .own t root paths jobs).Matches (Batch.ofPaths t root paths) := by
  have hall : ∀ k, (extractAll k t root paths jobs).IsOf
      (paths.map fun path => (path, k.alone t root path)) := by
    intro k
    have hempty : IsOf {} [] := ⟨rfl, rfl, rfl, rfl, rfl, rfl, rfl⟩
    rw [extractAll, collect_eq k t root paths h]
    exact hempty.foldl_add _
  exact ⟨fun k => ⟨hall k, (hall k).matches⟩, (hall .own).matches⟩

/-- A worker fails on a file in a grammar that its parser does not take, and reads the next file in
the one that is still loaded; another worker takes a file that is no source. -/
theorem extractAll_isolated_refusal :
    let t : FileTree := ⟨[(["A.cs"], .file "class A{}".toUTF8),
      (["B.java"], .file "class B{}".toUTF8), (["C.cs"], .file "class C{};\x7d".toUTF8)], []⟩
    let paths := ["A.cs", "B.java", "x.txt", "C.cs"]
    let jobs : List (List (Fin 4)) := [[0, 1, 3], [2]]
    let k : Toolkit :=
      { Toolkit.own with refusal := fun l => if l = .java then some "version" else none }
    jobs.flatten.Perm (List.finRange 4) ∧
      (extractAll k t none paths jobs).IsOf (paths.map fun path => (path, k.alone t none path)) ∧
      (extractAll k t none paths jobs).skipped = [("B.java", .noGrammar .java "version"),
        ("x.txt", .noLanguage "x.txt")] ∧
      ((extractAll k t none paths jobs).files.map fun f =>
        (f.1, f.2.types.map fun d => d.record.name, f.2.hasErrors)) =
          [("A.cs", ["A"], false), ("C.cs", ["C"], true)] := by
  intro t paths jobs k
  have hjobs : jobs.flatten.Perm (List.finRange 4) := by decide
  exact ⟨hjobs, ((extractAll_isolated t none paths jobs hjobs).1 k).1, by decide +kernel,
    by decide +kernel⟩

end Tally

end TypeAtlas
