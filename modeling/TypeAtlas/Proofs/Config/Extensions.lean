import TypeAtlas.Cli.Session
import TypeAtlas.Proofs.Scan.Sources
import Mathlib.Data.List.DropRight
import Mathlib.Data.List.TakeWhile

/-! # Sound settings look for source files only

The extensions in the settings go through several hands.  Checking the settings drops
leading dots and compares letters of any case; the command drops the dots; the scan drops
them once more, maps the rest to lower case by all rules of Unicode, and compares again;
a file finds its language by its own extension.  For settings without a flaw all of them
mean the same (`Config.wants_scanOptions_iff`): what is looked for are the files of the
languages that the settings name.

So a file that the scan has found has a language, and none is left out for want of one
(`Config.extractFile_of_mem_files`).  The command line starts an analysis with sound
settings only.  What such an analysis begins with is `Cli.analysisOf?`, and the rest of
the command is the analysis (`Cli.runAnalyze_of_analysisOf?`).
-/
namespace TypeAtlas

open Source (Language)

/-! ### Extensions that name a language -/

namespace Source.Language

/-- An extension as it is written in settings names a language: some dots, and behind them the
language's own extension in letters of any case. -/
def NamedBy (l : Language) (e : String) : Prop :=
  ∃ (dots : Nat) (word : List Char),
    e.toList = List.replicate dots '.' ++ word ∧ word.map Char.toLower = l.extension.toList

theorem toLower_extension (l : Language) :
    l.extension.toList.map Char.toLower = l.extension.toList := by
  cases l <;> rfl

theorem eqIgnoreAsciiCase_extension_iff {l : Language} {ext : String} :
    Text.eqIgnoreAsciiCase l.extension ext = true ↔
      ext.toList.map Char.toLower = l.extension.toList := by
  rw [Text.eqIgnoreAsciiCase, beq_iff_eq, toLower_extension, eq_comm]

/-- No two languages have one extension. -/
theorem extension_injective {l l' : Language} (h : l.extension.toList = l'.extension.toList) :
    l = l' := by
  cases l <;> cases l' <;> first | rfl | exact absurd h (by decide)

theorem ofExtension?_eq_some_iff {ext : String} {l : Language} :
    ofExtension? ext = some l ↔ ext.toList.map Char.toLower = l.extension.toList := by
  have hfound : ∀ {l' : Language}, ofExtension? ext = some l' →
      ext.toList.map Char.toLower = l'.extension.toList := by
    intro l' h
    rw [ofExtension?] at h
    exact eqIgnoreAsciiCase_extension_iff.mp (by simpa only using List.find?_some h)
  constructor
  · exact hfound
  · intro h
    have hsome : (ofExtension? ext).isSome := by
      refine List.find?_isSome.mpr ⟨l, by cases l <;> decide, ?_⟩
      exact eqIgnoreAsciiCase_extension_iff.mpr h
    obtain ⟨l', hl'⟩ := Option.isSome_iff_exists.mp hsome
    have heq : ext.toList.map Char.toLower = l'.extension.toList := hfound hl'
    rw [hl', extension_injective (heq.symm.trans h)]

/-- A word that spells an extension does not begin with a dot. -/
theorem dropWhile_dots {l : Language} {word : List Char}
    (h : word.map Char.toLower = l.extension.toList) (dots : Nat) :
    (List.replicate dots '.' ++ word).dropWhile (· == '.') = word := by
  induction dots with
  | zero =>
    cases word with
    | nil => rfl
    | cons c cs =>
      have hc : c ≠ '.' := by
        rintro rfl
        cases l <;> simp [extension] at h
      simp [hc]
  | succ n ih => simpa [List.replicate_succ] using ih

/-- What checking the settings computes says whether an extension names a language. -/
theorem namedBy_iff {l : Language} {e : String} :
    l.NamedBy e ↔ ofExtension? (Text.dropLeadingDots e) = some l := by
  rw [ofExtension?_eq_some_iff, Text.dropLeadingDots, String.toList_ofList]
  constructor
  · rintro ⟨dots, word, he, hword⟩
    rw [he, dropWhile_dots hword, hword]
  · intro h
    refine ⟨(e.toList.takeWhile (· == '.')).length, _, ?_, h⟩
    have hdots : e.toList.takeWhile (· == '.') =
        List.replicate (e.toList.takeWhile (· == '.')).length '.' := by
      refine List.eq_replicate_iff.mpr ⟨rfl, fun c hc => ?_⟩
      simpa using List.mem_takeWhile_imp hc
    rw [← hdots, List.takeWhile_append_dropWhile]

/-- To drop the dots of an extension once more changes nothing. -/
theorem namedBy_dropLeadingDots_iff {l : Language} {e : String} :
    l.NamedBy (Text.dropLeadingDots e) ↔ l.NamedBy e := by
  have hagain : Text.dropLeadingDots (Text.dropLeadingDots e) = Text.dropLeadingDots e := by
    simp [Text.dropLeadingDots, List.dropWhile_idempotent]
  rw [namedBy_iff, namedBy_iff, hagain]

end Source.Language

/-! ### What the scan looks for -/

/-- Where all extensions name languages, the scan wants the files of these languages. -/
theorem Scan.wants_iff {extensions : List String}
    (hknown : ∀ e ∈ extensions, ∃ l : Language, l.NamedBy e) {path : String} :
    wants extensions path = true ↔
      ∃ l, Language.ofPath? path = some l ∧ ∃ e ∈ extensions, l.NamedBy e := by
  have hwanted : ∀ {e : String} {l : Language}, l.NamedBy e →
      wantedExtension Text.lowercase e = l.extension := by
    intro e l h
    refine wantedExtension_of_language (Language.eqIgnoreAsciiCase_extension_iff.mpr ?_)
    exact Language.ofExtension?_eq_some_iff.mp (Language.namedBy_iff.mp h)
  unfold wants wantsBy Language.ofPath?
  cases Path.extension? path with
  | none => simp
  | some ext =>
    rw [List.any_eq_true]
    constructor
    · rintro ⟨e, he, hequal⟩
      obtain ⟨l, hl⟩ := hknown e he
      rw [hwanted hl, Language.eqIgnoreAsciiCase_extension_iff] at hequal
      exact ⟨l, Language.ofExtension?_eq_some_iff.mpr hequal, e, he, hl⟩
    · rintro ⟨l, hl, e, he, hnamed⟩
      refine ⟨e, he, ?_⟩
      rw [hwanted hnamed, Language.eqIgnoreAsciiCase_extension_iff]
      exact Language.ofExtension?_eq_some_iff.mp hl

theorem Scan.wants_of_mem_files {t : FileTree} {o : ScanOptions} {root path : String}
    {paths : List String} (h : files t o root = .ok paths) (hpath : path ∈ paths) :
    wants o.extensions path = true := by
  obtain ⟨base, -, rfl⟩ := filesBy_eq_ok h
  rw [(List.mergeSort_perm _ _).mem_iff] at hpath
  obtain ⟨f, -, hsight⟩ := List.mem_filterMap.mp hpath
  rw [sighted?] at hsight
  split_ifs at hsight with hcond
  obtain rfl := Option.some.inj hsight
  exact (Bool.and_eq_true_iff.mp hcond).1

namespace Config

/-- The settings name a language. -/
def Names (c : Config) (l : Language) : Prop :=
  ∃ e ∈ c.extensions, l.NamedBy e

section
variable {c : Config} (hsound : c.flaws = [])
include hsound

theorem exists_namedBy {e : String} (he : e ∈ c.extensions) : ∃ l : Language, l.NamedBy e := by
  unfold flaws at hsound
  obtain ⟨hparts, -⟩ := List.append_eq_nil_iff.mp hsound
  obtain ⟨-, hunknown⟩ := List.append_eq_nil_iff.mp hparts
  have hknown := List.filter_eq_nil_iff.mp (List.map_eq_nil_iff.mp hunknown) e he
  rw [isKnownExtension, Bool.not_eq_true', Bool.not_eq_false] at hknown
  obtain ⟨l, hl⟩ := Option.isSome_iff_exists.mp hknown
  exact ⟨l, Language.namedBy_iff.mpr hl⟩

/-- **Sound settings look for the files of the languages that they name.** -/
theorem wants_scanOptions_iff {path : String} :
    Scan.wants c.scanOptions.extensions path = true ↔
      ∃ l, Language.ofPath? path = some l ∧ c.Names l := by
  have hextensions : c.scanOptions.extensions = c.extensions.map Text.dropLeadingDots := rfl
  have hnamed : ∀ l : Language, (∃ e ∈ c.scanOptions.extensions, l.NamedBy e) ↔ c.Names l := by
    intro l
    simp only [hextensions, List.mem_map, exists_exists_and_eq_and,
      Language.namedBy_dropLeadingDots_iff, Names]
  rw [Scan.wants_iff]
  · simp only [hnamed]
  · intro e he
    rw [hextensions] at he
    obtain ⟨written, hwritten, rfl⟩ := List.mem_map.mp he
    obtain ⟨l, hl⟩ := exists_namedBy hsound hwritten
    exact ⟨l, Language.namedBy_dropLeadingDots_iff.mpr hl⟩

/-- No file that was found is without a language. -/
theorem extractFile_of_mem_files {t : FileTree} {root path : String} {paths : List String}
    (hfiles : Scan.files t c.scanOptions root = .ok paths) (hpath : path ∈ paths)
    (recorded : Option String) (p : String) :
    Source.extractFile t recorded path ≠ .error (.noLanguage p) := by
  obtain ⟨l, hl, -⟩ := (wants_scanOptions_iff hsound).mp (Scan.wants_of_mem_files hfiles hpath)
  simp only [Source.extractFile, Toolkit.extractFile, hl, Source.readFile]
  intro hskip
  cases hread : t.read path with
  | error fault => simp [hread, Except.bind] at hskip
  | ok bytes =>
    cases hs : String.fromUTF8? bytes <;>
      simp [hread, hs, Except.bind, Toolkit.extract, Toolkit.own] at hskip

end
end Config

/-! ### Analyses from the command line -/

namespace Cli

/-- What an analysis begins with, once its settings are loaded and its output directory is made. -/
structure Analysis where
  files : FileTree
  stderr : String
  config : Config
  layout : Layout
  root : String

/-- Makes the analysis. -/
def Analysis.run (a : Analysis) (start : Timestamp) : Stage :=
  match analyze a.files a.config.scanOptions a.layout a.root with
  | (t, .error fault) =>
    .ended (.failure t a.stderr ("Analysis of " ++ a.root ++ " failed") fault.causes)
  | (t, .ok summary) =>
    .analyzed t a.stderr a.layout (.start start a.root a.config.scanOptions.extensions) summary

/-- The analysis that a command comes to.  There is none if the settings cannot be loaded or have
a flaw, or if the output directory cannot be made. -/
def analysisOf? (t : FileTree) (config source output : Option String) (noRunDir : Bool)
    (start : Timestamp) : Option Analysis :=
  match load t config with
  | .error _ => none
  | .ok loaded =>
    let c := loaded.config
    let root := source.getD (c.sourceDir loaded.dir)
    let output := output.getD (c.outputDir loaded.dir)
    if c.flaws = [] then
      match openLayout t output (c.runSubdir && !noRunDir) start with
      | (_, .error _) => none
      | (opened, .ok l) =>
        let (logged, warning) := openLog opened l c.logFile
        some ⟨logged, loaded.stderr ++ warning, c, l, (t.canonical root).toOption.getD root⟩
    else none

section
variable {t : FileTree} {config source output : Option String} {noRunDir : Bool} {start : Timestamp}

theorem flaws_of_analysisOf? {a : Analysis}
    (h : analysisOf? t config source output noRunDir start = some a) : a.config.flaws = [] := by
  unfold analysisOf? at h
  split at h
  · cases h
  · rename_i loaded hload
    simp only at h
    split_ifs at h with hsound
    split at h
    · cases h
    · cases h
      exact hsound

/-- What is done once the output directory is made. -/
theorem analyzeWith_of_openLayout {loaded : Loaded} {opened : FileTree} {l : Layout}
    (hopen : openLayout t (output.getD (loaded.config.outputDir loaded.dir))
      (loaded.config.runSubdir && !noRunDir) start = (opened, .ok l)) :
    analyzeWith t loaded source output noRunDir start =
      Analysis.run ⟨(openLog opened l loaded.config.logFile).1,
        loaded.stderr ++ (openLog opened l loaded.config.logFile).2, loaded.config, l,
        (t.canonical (source.getD (loaded.config.sourceDir loaded.dir))).toOption.getD
          (source.getD (loaded.config.sourceDir loaded.dir))⟩ start := by
  unfold analyzeWith Analysis.run
  cases hrun : analyze (openLog opened l loaded.config.logFile).1 loaded.config.scanOptions l
      ((t.canonical (source.getD (loaded.config.sourceDir loaded.dir))).toOption.getD
        (source.getD (loaded.config.sourceDir loaded.dir))) with
  | mk after result =>
    cases result with
    | error fault => simp only [hopen, hrun]
    | ok summary => simp only [hopen, hrun]

/-- A command that comes to an analysis makes it. -/
theorem runAnalyze_of_analysisOf? {a : Analysis}
    (h : analysisOf? t config source output noRunDir start = some a) :
    runAnalyze t config source output noRunDir start = a.run start := by
  unfold analysisOf? at h
  unfold runAnalyze
  cases hload : load t config with
  | error fault =>
    rw [hload] at h
    cases h
  | ok loaded =>
    simp only [hload] at h
    split_ifs at h with hsound
    simp only [hsound]
    cases hopen : openLayout t (output.getD (loaded.config.outputDir loaded.dir))
        (loaded.config.runSubdir && !noRunDir) start with
    | mk opened result =>
      cases result with
      | error failure =>
        rw [hopen] at h
        cases h
      | ok l =>
        simp only [hopen, Option.some.injEq] at h
        rw [← h]
        exact analyzeWith_of_openLayout hopen

/-- A command that does not come to an analysis fails. -/
theorem runAnalyze_of_analysisOf?_eq_none
    (h : analysisOf? t config source output noRunDir start = none) :
    ∃ o, runAnalyze t config source output noRunDir start = .ended o ∧ o.exitCode = 1 := by
  unfold analysisOf? at h
  unfold runAnalyze
  cases hload : load t config with
  | error fault => exact ⟨.failure t "" fault.message [fault.cause], rfl, rfl⟩
  | ok loaded =>
    simp only [hload] at h
    split_ifs at h with hsound
    · simp only [hsound]
      cases hopen : openLayout t (output.getD (loaded.config.outputDir loaded.dir))
          (loaded.config.runSubdir && !noRunDir) start with
      | mk opened result =>
        cases result with
        | error failure =>
          refine ⟨.failure opened loaded.stderr failure.1 failure.2, ?_, rfl⟩
          simp only [analyzeWith, hopen]
        | ok l =>
          rw [hopen] at h
          cases h
    · cases hflaws : loaded.config.flaws with
      | nil => exact absurd hflaws hsound
      | cons flaw others =>
        simp only [hflaws]
        exact ⟨_, rfl, rfl⟩

end
end Cli

/-- **Sound settings never look for a file without a language.**  Settings without a flaw accept a
path iff its language is one that they name, whatever the case of the letters and the number of
dots in front.  A command for an analysis either fails before it has looked for files, or it has
sound settings and is the analysis with them, and of the files that are found then none is left
out because it has no language. -/
theorem sound_settings_want_languages :
    (∀ c : Config, c.flaws = [] → ∀ path : String,
      Scan.wants c.scanOptions.extensions path = true ↔
        ∃ l, Language.ofPath? path = some l ∧ c.Names l) ∧
      ∀ (t : FileTree) (config source output : Option String) (noRunDir : Bool)
        (start : Timestamp),
        match Cli.analysisOf? t config source output noRunDir start with
        | none => ∃ o, Cli.runAnalyze t config source output noRunDir start = .ended o ∧
            o.exitCode = 1
        | some a => a.config.flaws = [] ∧
            Cli.runAnalyze t config source output noRunDir start = a.run start ∧
            ∀ paths, Scan.files a.files a.config.scanOptions a.root = .ok paths →
              ∀ path ∈ paths, ∀ p,
                Source.extractFile a.files (some a.root) path ≠ .error (.noLanguage p) := by
  refine ⟨fun c hsound path => Config.wants_scanOptions_iff hsound, ?_⟩
  intro t config source output noRunDir start
  cases h : Cli.analysisOf? t config source output noRunDir start with
  | none => exact Cli.runAnalyze_of_analysisOf?_eq_none h
  | some a =>
    have hsound := Cli.flaws_of_analysisOf? h
    refine ⟨hsound, Cli.runAnalyze_of_analysisOf? h, fun paths hpaths path hpath p => ?_⟩
    exact Config.extractFile_of_mem_files hsound hpaths hpath (some a.root) p

/-- Dots in front and capital letters: the settings name one language, and accept files of it
alone. -/
theorem sound_settings_want_languages_dotted :
    let c : Config := { Config.standard with extensions := ["..Cs"] }
    c.flaws = [] ∧ Scan.wants c.scanOptions.extensions "src/.b/A.cS" = true ∧
      Scan.wants c.scanOptions.extensions "src/A.java" = false := by
  intro c
  have hsound : c.flaws = [] := by decide +kernel
  have hnamed : c.Names .csharp :=
    ⟨"..Cs", List.mem_singleton_self _, 2, ['C', 's'], by decide, by decide⟩
  have hjava : ¬ c.Names .java := by
    rintro ⟨e, he, hl⟩
    obtain rfl := List.mem_singleton.mp he
    exact absurd (Language.namedBy_iff.mp hl) (by decide +kernel)
  refine ⟨hsound, (sound_settings_want_languages.1 c hsound _).mpr
    ⟨.csharp, by decide +kernel, hnamed⟩, ?_⟩
  refine Bool.eq_false_iff.mpr fun hwants => ?_
  obtain ⟨l, hl, hnames⟩ := (sound_settings_want_languages.1 c hsound _).mp hwants
  have hlanguage : Language.ofPath? "src/A.java" = some .java := by decide +kernel
  obtain rfl := Option.some.inj (hl.symm.trans hlanguage)
  exact hjava hnames

end TypeAtlas
