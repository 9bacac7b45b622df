import TypeAtlas.Proofs.Artifact.Below
import TypeAtlas.Proofs.Scan.Order

/-! # Paths of artifacts do not collide

Type directories and namespace directories share one tree: a type `B` of the namespace `A` and
the namespace `A.B` have the same directory.  The files in it are told apart all the same.
Paths are compared by their components, and those of an artifact are the components of the
root and then the names on the way (`Path.Leads.components_eq`).  Of these names only the
last one, that of the file, has a dot.

So artifacts with the same path have the same names, and the names say which artifact of which
key it is (`Artifact.key_eq_of_names_eq`).  And since the name of a file is never that of a
directory, no artifact is where a directory is needed (`Artifact.not_prefix_dir`).
-/
namespace TypeAtlas

namespace Path

/-! ### Components of a path by its pieces -/

/-- Empty pieces do not count. -/
theorem restComponents_followed (ps : List (List Char)) :
    restComponents ((followed ps).map String.toList) = restComponents ps := by
  induction ps with
  | nil => rfl
  | cons s ps ih =>
    rw [← List.singleton_append, followed_append, List.map_append, restComponents_append,
      restComponents_append, ih]
    by_cases hs : s = []
    · subst hs
      rfl
    · rw [followed_singleton hs, List.map_singleton, String.toList_ofList]

theorem components_of_isAbsolute {p : String} (h : isAbsolute p = true) :
    components p = .root :: restComponents ((pieces p).map String.toList) := by
  rw [isAbsolute, beq_iff_eq] at h
  obtain ⟨rest, hp⟩ := List.head?_eq_some_iff.mp h
  have hwritten : written p = [[]] ++ Text.splitAtChar '/' rest := by
    rw [written, hp, Text.splitAtChar, if_pos rfl]
    rfl
  have hempty : restComponents [[]] = [] := rfl
  rw [pieces_eq_followed, restComponents_followed, components_eq, hwritten, restComponents_append,
    hempty, List.nil_append, List.singleton_append, componentsOf]
  simp [Text.splitAtChar_ne_nil]

/-- The components of the pieces of a relative path. -/
def relativeComponents : List (List Char) → List Component
  | [] => []
  | first :: rest => componentOf first :: restComponents rest

theorem components_of_not_isAbsolute {p : String} (h : isAbsolute p = false) :
    components p = relativeComponents ((pieces p).map String.toList) := by
  rw [isAbsolute_eq_false_iff] at h
  rw [pieces_eq_followed, components_eq]
  cases hp : p.toList with
  | nil =>
    rw [written, hp]
    rfl
  | cons c cs =>
    have hc : c ≠ '/' := by
      rintro rfl
      exact h (by rw [hp, List.head?_cons])
    obtain ⟨first, rest, hwritten, hfirst⟩ :
        ∃ first rest, written p = first :: rest ∧ first ≠ [] := by
      rw [written, hp, Text.splitAtChar, if_neg hc]
      split <;> exact ⟨_, _, rfl, List.cons_ne_nil _ _⟩
    rw [hwritten, ← List.singleton_append, followed_append, followed_singleton hfirst,
      List.map_append, List.map_singleton, String.toList_ofList, List.singleton_append,
      List.singleton_append, relativeComponents, restComponents_followed, componentsOf]
    simp [hfirst]

/-- The component that a name is. -/
def nameComponent (name : String) : Component :=
  .name name.toList

theorem nameComponent_injective : Function.Injective nameComponent := fun _ _ h =>
  String.toList_injective (Component.name.inj h)

theorem IsName.componentOf_eq {name : String} (h : IsName name) :
    componentOf name.toList = nameComponent name := by
  have hhere : name.toList ≠ ['.'] := fun he => h.ne_here (String.toList_injective he)
  have hup : name.toList ≠ ['.', '.'] := fun he => h.ne_up (String.toList_injective he)
  simp [componentOf, nameComponent, hhere, hup]

theorem IsName.isIdle_eq {name : String} (h : IsName name) : isIdle name.toList = false := by
  have hhere : name.toList ≠ ['.'] := fun he => h.ne_here (String.toList_injective he)
  have hne : name.toList ≠ [] := fun he => h.ne_empty (String.toList_eq_nil_iff.mp he)
  simp [isIdle, hhere, hne]

theorem restComponents_names {names : List String} (h : ∀ n ∈ names, IsName n) :
    restComponents (names.map String.toList) = names.map nameComponent := by
  induction names with
  | nil => rfl
  | cons n names ih =>
    obtain ⟨hn, hnames⟩ := List.forall_mem_cons.mp h
    have hone : restComponents [n.toList] = [nameComponent n] := by
      rw [restComponents, List.filter_cons_of_pos (by rw [hn.isIdle_eq]; rfl), List.filter_nil,
        List.map_singleton, hn.componentOf_eq]
    rw [List.map_cons, ← List.singleton_append, restComponents_append, ih hnames, hone]
    rfl

/-- **The names behind a base are the last components.** -/
theorem Leads.components_eq {base path : String} {names : List String}
    (h : Leads base path names) (hnames : ∀ n ∈ names, IsName n) :
    components path = components base ++ names.map nameComponent := by
  have hrest := restComponents_names hnames
  cases habsolute : isAbsolute base with
  | true =>
    rw [components_of_isAbsolute habsolute,
      components_of_isAbsolute (h.isAbsolute_eq.trans habsolute), h.pieces_eq, List.map_append,
      restComponents_append, hrest, List.cons_append]
  | false =>
    rw [components_of_not_isAbsolute habsolute,
      components_of_not_isAbsolute (h.isAbsolute_eq.trans habsolute), h.pieces_eq, List.map_append]
    cases pieces base with
    | cons first rest =>
      rw [List.map_cons, List.cons_append, relativeComponents, relativeComponents,
        restComponents_append, hrest, List.cons_append]
    | nil =>
      cases names with
      | nil => rfl
      | cons n names =>
        obtain ⟨hn, hnames⟩ := List.forall_mem_cons.mp hnames
        rw [List.map_nil, List.nil_append, List.map_cons, relativeComponents.eq_2,
          hn.componentOf_eq, restComponents_names hnames]
        rfl

/-- Behind one base, the components tell the names. -/
theorem Leads.names_eq {base p q : String} {names names' : List String} (hp : Leads base p names)
    (hq : Leads base q names') (hnames : ∀ n ∈ names, IsName n) (hnames' : ∀ n ∈ names', IsName n)
    (h : components p = components q) : names = names' := by
  rw [hp.components_eq hnames, hq.components_eq hnames'] at h
  exact List.map_injective_iff.mpr nameComponent_injective (List.append_cancel_left h)

end Path

/-! ### Artifacts -/

/-- What is written for a type or for a namespace. -/
inductive Artifact where
  | metadata (r : TypeRecord)
  | declaration (r : TypeRecord)
  | graph (scope : String)

/-- Which artifact it is, and of which key. -/
inductive ArtifactKey where
  | metadata (key : String × String)
  | declaration (key : String × String)
  | graph (scope : String)
  deriving DecidableEq

namespace Artifact

/-- What tells artifacts apart. -/
def key : Artifact → ArtifactKey
  | metadata r => .metadata r.key
  | declaration r => .declaration r.key
  | graph scope => .graph scope

/-- Namespace and name can be directories. -/
def IsPlaceable : Artifact → Prop
  | metadata r | declaration r => r.IsPlaceable
  | graph scope => IsDotted scope

/-- The directory that is made for an artifact. -/
def dir (l : Layout) : Artifact → String
  | metadata r | declaration r => l.typeDir r
  | graph scope => l.scopeDir scope

/-- The path of an artifact. -/
def path (l : Layout) : Artifact → String
  | metadata r => l.metadataPath r
  | declaration r => l.declarationPath r
  | graph scope => l.graphPath scope

/-- The names from the root to the directory of an artifact. -/
def dirNames : Artifact → List String
  | metadata r | declaration r => r.dirNames
  | graph scope => scopeSegments scope

/-- The name of the file. -/
def fileName : Artifact → String
  | metadata _ => Layout.metadataName
  | declaration _ => Layout.declarationName
  | graph _ => Layout.graphName

theorem path_eq (l : Layout) (a : Artifact) : a.path l = Path.join (a.dir l) a.fileName := by
  cases a <;> rfl

theorem isName_fileName (a : Artifact) : Path.IsName a.fileName := by
  cases a with
  | metadata _ => exact Layout.isName_metadataName
  | declaration _ => exact Layout.isName_declarationName
  | graph _ => exact Layout.isName_graphName

/-- The names of files have a dot. -/
theorem dot_mem_fileName (a : Artifact) : '.' ∈ a.fileName.toList := by
  cases a with
  | metadata _ => exact (by decide : '.' ∈ Layout.metadataName.toList)
  | declaration _ => exact (by decide : '.' ∈ Layout.declarationName.toList)
  | graph _ => exact (by decide : '.' ∈ Layout.graphName.toList)

section
variable {a b : Artifact} (ha : a.IsPlaceable) (hb : b.IsPlaceable)

section
include ha

theorem isName_dirNames : ∀ n ∈ a.dirNames, Path.IsName n := by
  cases a with
  | metadata r | declaration r => exact TypeRecord.IsPlaceable.isName ha
  | graph scope => exact fun n hn => (IsDotted.isSegment ha n hn).isName

/-- The names of directories have no dot. -/
theorem dot_not_mem_dirNames : ∀ n ∈ a.dirNames, '.' ∉ n.toList := by
  intro n hn
  cases a with
  | metadata r | declaration r =>
    rcases List.mem_append.mp hn with hn | hn
    · exact dot_not_mem_of_mem_scopeSegments hn
    · exact List.mem_singleton.mp hn ▸ (TypeRecord.IsPlaceable.name ha).no_dot
  | graph scope => exact dot_not_mem_of_mem_scopeSegments hn

theorem leads_dir (l : Layout) : Path.Leads l.root (a.dir l) a.dirNames := by
  cases a with
  | metadata r | declaration r => exact (TypeRecord.IsPlaceable.leads_dir ha).behind l.root
  | graph scope => exact l.leads_scopeDir ha

theorem leads_path (l : Layout) : Path.Leads l.root (a.path l) (a.dirNames ++ [a.fileName]) := by
  rw [path_eq]
  exact (leads_dir ha l).join a.isName_fileName

theorem isName_names : ∀ n ∈ a.dirNames ++ [a.fileName], Path.IsName n :=
  List.forall_mem_append.mpr
    ⟨isName_dirNames ha, List.forall_mem_singleton.mpr a.isName_fileName⟩

theorem liesBelow_path (l : Layout) : Path.LiesBelow l.root (a.path l) :=
  (leads_path ha l).liesBelow (isName_dirNames ha) a.isName_fileName

end

include ha hb

/-- The names on the way say which artifact it is. -/
theorem key_eq_of_names_eq (h : a.dirNames ++ [a.fileName] = b.dirNames ++ [b.fileName]) :
    a.key = b.key := by
  obtain ⟨hdir, hlast⟩ := List.append_inj' h rfl
  have hfile : a.fileName = b.fileName := List.singleton_inj.mp hlast
  cases a <;> cases b
  case metadata.metadata r s =>
    exact congrArg ArtifactKey.metadata (TypeRecord.IsPlaceable.key_eq_of_dirNames_eq ha hb hdir)
  case declaration.declaration r s =>
    exact congrArg ArtifactKey.declaration
      (TypeRecord.IsPlaceable.key_eq_of_dirNames_eq ha hb hdir)
  case graph.graph s t =>
    exact congrArg ArtifactKey.graph (IsDotted.eq_of_segments_eq ha hb hdir)
  -- files of different sorts have different names
  all_goals
    simp [fileName, Layout.metadataName, Layout.declarationName, Layout.graphName] at hfile

/-- **Artifacts of different keys, or of different sorts, have different paths.** -/
theorem key_eq_of_components_eq (l : Layout)
    (h : Path.components (a.path l) = Path.components (b.path l)) : a.key = b.key :=
  key_eq_of_names_eq ha hb
    ((leads_path ha l).names_eq (leads_path hb l) (isName_names ha) (isName_names hb) h)

/-- **No artifact is where a directory is needed.**  The name of the file would have to be that of
a directory. -/
theorem not_prefix_dir (l : Layout) :
    ¬Path.components (a.path l) <+: Path.components (b.dir l) := by
  intro h
  rw [(leads_path ha l).components_eq (isName_names ha),
    (leads_dir hb l).components_eq (isName_dirNames hb), List.prefix_append_right_inj] at h
  have hfile : Path.nameComponent a.fileName ∈ b.dirNames.map Path.nameComponent :=
    h.subset (List.mem_map_of_mem (List.mem_append_right _ (List.mem_singleton_self _)))
  rw [List.mem_map_of_injective Path.nameComponent_injective] at hfile
  exact dot_not_mem_dirNames hb _ hfile a.dot_mem_fileName

end

/-! ### Collisions -/

/-- A directory that must be there before an artifact is written: the one that holds it, or one
above. -/
def Needs (l : Layout) (a : Artifact) (d : String) : Prop :=
  Path.components d <+: Path.components (a.dir l)

end Artifact

/-- Below one base, different namespaces have different directories. -/
theorem IsDotted.eq_of_components_eq {s t : String} (hs : IsDotted s) (ht : IsDotted t)
    {base p q : String} (hp : Path.Leads base p (scopeSegments s))
    (hq : Path.Leads base q (scopeSegments t)) (h : Path.components p = Path.components q) :
    s = t :=
  hs.eq_of_segments_eq ht (hp.names_eq hq (fun n hn => (hs.isSegment n hn).isName)
    (fun n hn => (ht.isSegment n hn).isName) h)

namespace Artifact

/-- **Paths of artifacts do not collide.**  Whatever the root, for namespaces and names that can be
directories: different namespaces have different directories, in themselves and below the root;
two artifacts have the same path only if they are the same artifact of the same key; every
artifact is below the root; and none is at or above a directory that another one needs. -/
theorem paths_separate (l : Layout) :
    (∀ s t : String, IsDotted s → IsDotted t →
      Path.components (scopeDir s) = Path.components (scopeDir t) ∨
        Path.components (l.scopeDir s) = Path.components (l.scopeDir t) → s = t) ∧
    (∀ a b : Artifact, a.IsPlaceable → b.IsPlaceable →
      Path.components (a.path l) = Path.components (b.path l) → a.key = b.key) ∧
    (∀ a : Artifact, a.IsPlaceable → Path.LiesBelow l.root (a.path l)) ∧
    ∀ a b : Artifact, a.IsPlaceable → b.IsPlaceable → ∀ d : String, b.Needs l d →
      ¬Path.components (a.path l) <+: Path.components d := by
  refine ⟨fun s t hs ht h => ?_, fun a b ha hb => key_eq_of_components_eq ha hb l,
    fun a ha => liesBelow_path ha l,
    fun a b ha hb d hneeds habove => not_prefix_dir ha hb l (habove.trans hneeds)⟩
  rcases h with h | h
  · exact hs.eq_of_components_eq ht (IsDotted.leads_scopeDir hs)
      (IsDotted.leads_scopeDir ht) h
  · exact hs.eq_of_components_eq ht (l.leads_scopeDir hs) (l.leads_scopeDir ht) h

/-- A type and a namespace with one directory, and the namespace of the type above it. -/
theorem paths_separate_shared :
    let l : Layout := ⟨"/out"⟩
    let a : Artifact := .metadata (.new "B" .classType "A" "B.cs")
    let b : Artifact := .graph "A.B"
    (a.IsPlaceable ∧ b.IsPlaceable ∧ b.Needs l "/out/A" ∧ a.dir l = b.dir l) ∧
      l.scopeDir "A" ≠ l.scopeDir "A.B" ∧ a.path l ≠ b.path l ∧
      Path.LiesBelow "/out" (a.path l) ∧
      ¬Path.components (a.path l) <+: Path.components "/out/A" := by
  intro l a b
  have ha : a.IsPlaceable := ⟨by decide, by decide⟩
  have hb : b.IsPlaceable := (by decide : IsDotted "A.B")
  have hneeds : b.Needs l "/out/A" :=
    (by decide +kernel : Path.components "/out/A" <+: Path.components (l.scopeDir "A.B"))
  obtain ⟨hscopes, hpaths, hbelow, hneeded⟩ := paths_separate l
  refine ⟨⟨ha, hb, hneeds, by decide⟩, fun h => ?_, fun h => ?_, hbelow a ha,
    hneeded a b ha hb _ hneeds⟩
  · exact absurd (hscopes "A" "A.B" (by decide) (by decide) (Or.inr (congrArg _ h))) (by decide)
  · exact absurd (hpaths a b ha hb (congrArg _ h)) (by decide)

end Artifact
end TypeAtlas
