import TypeAtlas.Proofs.Files.Growth
import TypeAtlas.Proofs.Text.Columns

/-! # Where artifact paths lead

The path of an artifact is the root, the segments of the namespace, the name of the type
and the name of the file, put together as texts.  Followed in a tree, it leads from
wherever the root leads, name by name, to one place (`Path.Leads`, `locate_of_leads`).
That needs segments and names that are names: not empty, without a slash, and neither a
dot nor two dots.

Segments have no dot, names of types have none, and file names have one, so the names on
the way to an artifact say which artifact of which type it is (`Layout.typeFile_leadApart`).
-/
namespace TypeAtlas

/-! ### Names and what is made of them -/

/-- A text that is one name on a path. -/
structure Path.IsName (s : String) : Prop where
  ne_empty : s ≠ ""
  no_slash : '/' ∉ s.toList
  ne_here : s ≠ "."
  ne_up : s ≠ ".."

/-- A segment of a namespace: not empty, without dots and slashes, without blanks at its ends. -/
structure IsSegment (s : String) : Prop where
  ne_empty : s ≠ ""
  no_dot : '.' ∉ s.toList
  no_slash : '/' ∉ s.toList
  trim_eq : Text.trim s.toList = s.toList

/-- A namespace whose segments are in order; the global one has none. -/
def IsDotted (scope : String) : Prop :=
  ∃ segments : List String, (∀ s ∈ segments, IsSegment s) ∧ scope = Text.join "." segments

/-- A name of a type that can be the name of a directory. -/
structure IsTypeName (s : String) : Prop where
  ne_empty : s ≠ ""
  no_dot : '.' ∉ s.toList
  no_slash : '/' ∉ s.toList

instance : DecidablePred IsSegment := fun s =>
  decidable_of_iff (s ≠ "" ∧ '.' ∉ s.toList ∧ '/' ∉ s.toList ∧ Text.trim s.toList = s.toList)
    ⟨fun ⟨h1, h2, h3, h4⟩ => ⟨h1, h2, h3, h4⟩, fun ⟨h1, h2, h3, h4⟩ => ⟨h1, h2, h3, h4⟩⟩

instance : DecidablePred IsTypeName := fun s =>
  decidable_of_iff (s ≠ "" ∧ '.' ∉ s.toList ∧ '/' ∉ s.toList)
    ⟨fun ⟨h1, h2, h3⟩ => ⟨h1, h2, h3⟩, fun ⟨h1, h2, h3⟩ => ⟨h1, h2, h3⟩⟩

theorem Path.isName_of_no_dot {s : String} (hne : s ≠ "") (hdot : '.' ∉ s.toList)
    (hslash : '/' ∉ s.toList) : Path.IsName s := by
  refine ⟨hne, hslash, ?_, ?_⟩
  · rintro rfl
    exact hdot (by decide)
  · rintro rfl
    exact hdot (by decide)

theorem IsSegment.isName {s : String} (h : IsSegment s) : Path.IsName s :=
  Path.isName_of_no_dot h.ne_empty h.no_dot h.no_slash

theorem IsTypeName.isName {s : String} (h : IsTypeName s) : Path.IsName s :=
  Path.isName_of_no_dot h.ne_empty h.no_dot h.no_slash

/-- The segments of a namespace are those it is joined from. -/
theorem scopeSegments_join {segments : List String} (h : ∀ s ∈ segments, IsSegment s) :
    scopeSegments (Text.join "." segments) = segments := by
  cases segments with
  | nil => decide
  | cons first rest =>
    have hdots : ∀ s ∈ first :: rest, '.' ∉ s.toList := fun s hs => (h s hs).no_dot
    have hsplit := Text.splitAtChar_join (List.cons_ne_nil first rest) hdots
    have htrim : ((first :: rest).map String.toList).map Text.trim =
        (first :: rest).map String.toList := by
      rw [List.map_map]
      exact List.map_congr_left fun s hs => (h s hs).trim_eq
    have hkept : ((first :: rest).map String.toList).filter (fun s => decide (s ≠ [])) =
        (first :: rest).map String.toList := by
      refine List.filter_eq_self.mpr fun cs hcs => decide_eq_true ?_
      obtain ⟨s, hs, rfl⟩ := List.mem_map.mp hcs
      exact fun he => (h s hs).ne_empty (String.toList_eq_nil_iff.mp he)
    change scopeSegments (Text.join (String.singleton '.') (first :: rest)) = _
    rw [scopeSegments, hsplit, htrim, hkept, List.map_map]
    exact (List.map_congr_left fun s _ => String.ofList_toList).trans (List.map_id _)

theorem IsDotted.isSegment {scope : String} (h : IsDotted scope) :
    ∀ s ∈ scopeSegments scope, IsSegment s := by
  obtain ⟨segments, hsegments, rfl⟩ := h
  rwa [scopeSegments_join hsegments]

/-- A namespace is in order if its segments are, and joining them gives it back. -/
theorem isDotted_iff {scope : String} : IsDotted scope ↔
    (∀ s ∈ scopeSegments scope, IsSegment s) ∧ scope = Text.join "." (scopeSegments scope) := by
  constructor
  · intro h
    refine ⟨h.isSegment, ?_⟩
    obtain ⟨segments, hsegments, rfl⟩ := h
    rw [scopeSegments_join hsegments]
  · exact fun h => ⟨scopeSegments scope, h.1, h.2⟩

instance : DecidablePred IsDotted :=
  fun _ => decidable_of_iff _ isDotted_iff.symm

/-- Namespaces are told apart by their segments. -/
theorem IsDotted.eq_of_segments_eq {s t : String} (hs : IsDotted s) (ht : IsDotted t)
    (h : scopeSegments s = scopeSegments t) : s = t := by
  obtain ⟨ss, hss, rfl⟩ := hs
  obtain ⟨ts, hts, rfl⟩ := ht
  rw [scopeSegments_join hss, scopeSegments_join hts] at h
  rw [h]

/-! ### Pieces of joined paths -/

namespace Path

theorem isAbsolute_eq_false_iff {p : String} :
    isAbsolute p = false ↔ p.toList.head? ≠ some '/' := by
  rw [isAbsolute, beq_eq_false_iff_ne]

theorem pieces_append_slash (x y : List Char) :
    pieces (String.ofList (x ++ '/' :: y)) =
      pieces (String.ofList x) ++ pieces (String.ofList y) := by
  simp only [pieces, Text.split, String.toList_ofList, Text.splitAtChar_append, List.map_append,
    List.filter_append]

/-- A relative path that is put behind another one is followed from there. -/
theorem pieces_join {base rest : String} (h : isAbsolute rest = false) :
    pieces (join base rest) = pieces base ++ pieces rest := by
  have hempty : pieces "" = [] := by decide
  rw [join, joinChars, if_neg (isAbsolute_eq_false_iff.mp h)]
  split
  · rename_i hbase
    rcases hbase with hbase | hbase
    · obtain rfl := String.toList_eq_nil_iff.mp hbase
      rw [hempty, String.toList_empty, List.nil_append, List.nil_append, String.ofList_toList]
    · -- the slash that is there already stands before an empty piece
      obtain ⟨front, hfront⟩ := List.getLast?_eq_some_iff.mp hbase
      have hpieces : pieces base = pieces (String.ofList front) := by
        rw [← String.ofList_toList (s := base), hfront, pieces_append_slash]
        exact List.append_nil _
      rw [hfront, List.append_assoc, List.singleton_append, pieces_append_slash,
        String.ofList_toList, hpieces]
  · rw [pieces_append_slash, String.ofList_toList, String.ofList_toList]

theorem isAbsolute_join {base rest : String} (h : isAbsolute rest = false) :
    isAbsolute (join base rest) = isAbsolute base := by
  rw [join, joinChars, if_neg (isAbsolute_eq_false_iff.mp h)]
  by_cases hbase : base.toList = []
  · obtain rfl := String.toList_eq_nil_iff.mp hbase
    rw [if_pos (Or.inl hbase), hbase, List.nil_append, String.ofList_toList, h]
    rfl
  · have hhead : ∀ more, (base.toList ++ more).head? = base.toList.head? := fun more =>
      List.head?_append_of_ne_nil _ hbase
    split <;> simp only [isAbsolute, String.toList_ofList, hhead]

theorem pieces_of_no_slash {s : String} (hne : s ≠ "") (hs : '/' ∉ s.toList) : pieces s = [s] := by
  rw [pieces, Text.split, Text.splitAtChar_of_not_mem hs]
  simp [hne]

theorem isAbsolute_of_no_slash {s : String} (hs : '/' ∉ s.toList) : isAbsolute s = false :=
  isAbsolute_eq_false_iff.mpr fun hhead => hs (List.mem_of_head? hhead)

/-! ### From one path to another -/

/-- A path goes from where another one leads through some names. -/
structure Leads (base path : String) (names : List String) : Prop where
  isAbsolute_eq : isAbsolute path = isAbsolute base
  pieces_eq : pieces path = pieces base ++ names

theorem leads_self (base : String) : Leads base base [] :=
  ⟨rfl, (List.append_nil _).symm⟩

/-- One name more. -/
theorem Leads.join {base path name : String} {names : List String} (h : Leads base path names)
    (hname : IsName name) : Leads base (Path.join path name) (names ++ [name]) := by
  have hrel := isAbsolute_of_no_slash hname.no_slash
  refine ⟨(isAbsolute_join hrel).trans h.isAbsolute_eq, ?_⟩
  rw [pieces_join hrel, h.pieces_eq, pieces_of_no_slash hname.ne_empty hname.no_slash,
    List.append_assoc]

theorem Leads.joinAll {base path : String} {names more : List String} (h : Leads base path names)
    (hmore : ∀ n ∈ more, IsName n) : Leads base (Path.joinAll path more) (names ++ more) := by
  induction more generalizing path names with
  | nil =>
    rw [List.append_nil]
    exact h
  | cons n more ih =>
    rw [← List.singleton_append, ← List.append_assoc]
    exact ih (h.join (hmore n List.mem_cons_self)) fun m hm => hmore m (List.mem_cons_of_mem n hm)

/-- A path that ends in a name does not end in a slash. -/
theorem endsInSlash_join (base : String) {name : String} (h : IsName name) :
    endsInSlash (Path.join base name) = false := by
  have hne : name.toList ≠ [] := fun he => h.ne_empty (String.toList_eq_nil_iff.mp he)
  have hlast : ∀ front : List Char, (front ++ name.toList).getLast? ≠ some '/' := by
    intro front he
    rw [List.getLast?_append_of_ne_nil _ hne] at he
    exact h.no_slash (List.mem_of_getLast? he)
  have hrel := isAbsolute_eq_false_iff.mp (isAbsolute_of_no_slash h.no_slash)
  rw [endsInSlash, beq_eq_false_iff_ne, Path.join, String.toList_ofList, joinChars, if_neg hrel]
  split
  · exact hlast _
  · rw [← List.singleton_append, ← List.append_assoc]
    exact hlast _

/-- A path made of names can be put behind any other one. -/
theorem Leads.behind {rel : String} {names : List String} (h : Leads "" rel names) (base : String) :
    Leads base (Path.join base rel) names := by
  have hrel : isAbsolute rel = false := h.isAbsolute_eq
  refine ⟨isAbsolute_join hrel, ?_⟩
  rw [pieces_join hrel, h.pieces_eq]
  rfl

end Path

namespace FileTree

/-- Names are followed one below the other. -/
theorem follow_names {t : FileTree} {at_ place : Place} {names : List String}
    (hnames : ∀ n ∈ names, Path.IsName n) (h : t.follow at_ names = .ok place) :
    place = at_ ++ names := by
  induction names generalizing at_ with
  | nil =>
    rw [List.append_nil]
    exact (Except.ok.inj h).symm
  | cons n names ih =>
    have hn := hnames n List.mem_cons_self
    unfold follow at h ih
    rw [List.foldlM_cons] at h
    cases hs : t.step at_ n with
    | error fault =>
      rw [hs] at h
      cases h
    | ok next =>
      rw [hs] at h
      have hnext : next = at_ ++ [n] := by
        unfold step at hs
        split at hs
        · cases hs
        · cases hs
        · rw [if_neg hn.ne_here, if_neg hn.ne_up] at hs
          split_ifs at hs
          exact (Except.ok.inj hs).symm
      rw [ih (fun m hm => hnames m (List.mem_cons_of_mem n hm)) h, hnext, List.append_assoc,
        List.singleton_append]

/-- A path that goes on from a base through names leads to the place below the base that they
name. -/
theorem locate_of_leads {t : FileTree} {base path : String} {names : List String} {place : Place}
    (h : Path.Leads base path names) (hnames : ∀ n ∈ names, Path.IsName n)
    (hl : t.locate path = .ok place) :
    ∃ at_, t.follow (t.origin base) (Path.pieces base) = .ok at_ ∧ place = at_ ++ names := by
  unfold locate at hl
  split_ifs at hl
  have horigin : t.origin path = t.origin base := by
    rw [origin, origin, h.isAbsolute_eq]
  rw [horigin, h.pieces_eq, follow, List.foldlM_append] at hl
  cases hf : t.follow (t.origin base) (Path.pieces base) with
  | error fault =>
    rw [follow] at hf
    rw [hf] at hl
    cases hl
  | ok at_ =>
    refine ⟨at_, rfl, ?_⟩
    rw [follow] at hf
    rw [hf] at hl
    exact follow_names hnames hl

/-- From one base, different names lead to different places. -/
theorem leadApart_of_names_ne {base path path' : String} {names names' : List String}
    (h : Path.Leads base path names) (h' : Path.Leads base path' names')
    (hnames : ∀ n ∈ names, Path.IsName n) (hnames' : ∀ n ∈ names', Path.IsName n)
    (hne : names ≠ names') : LeadApart path path' := by
  intro t place hl hl'
  obtain ⟨at_, hat, rfl⟩ := locate_of_leads h hnames hl
  obtain ⟨at', hat', he⟩ := locate_of_leads h' hnames' hl'
  obtain rfl : at_ = at' := Except.ok.inj (hat.symm.trans hat')
  exact hne (List.append_cancel_left he)

end FileTree

/-! ### The artifacts of a type -/

namespace TypeRecord

/-- Namespace and name of a type can be directories. -/
structure IsPlaceable (r : TypeRecord) : Prop where
  scope : IsDotted r.scope
  name : IsTypeName r.name

/-- The names from the root to the directory of a type. -/
def dirNames (r : TypeRecord) : List String :=
  scopeSegments r.scope ++ [r.name]

theorem IsPlaceable.leads_dir {r : TypeRecord} (h : r.IsPlaceable) :
    Path.Leads "" r.dir r.dirNames :=
  ((Path.leads_self "").joinAll fun s hs => (h.scope.isSegment s hs).isName).join h.name.isName

theorem IsPlaceable.isName {r : TypeRecord} (h : r.IsPlaceable) :
    ∀ n ∈ r.dirNames, Path.IsName n := by
  intro n hn
  rcases List.mem_append.mp hn with hn | hn
  · exact (h.scope.isSegment n hn).isName
  · obtain rfl := List.mem_singleton.mp hn
    exact h.name.isName

theorem IsPlaceable.isName_file {r : TypeRecord} (h : r.IsPlaceable) {file : String}
    (hfile : Path.IsName file) : ∀ n ∈ r.dirNames ++ [file], Path.IsName n := by
  intro n hn
  rcases List.mem_append.mp hn with hn | hn
  · exact h.isName n hn
  · exact List.mem_singleton.mp hn ▸ hfile

/-- The directory of a type tells its key. -/
theorem IsPlaceable.key_eq_of_dirNames_eq {r s : TypeRecord} (hr : r.IsPlaceable)
    (hs : s.IsPlaceable) (h : r.dirNames = s.dirNames) : r.key = s.key := by
  obtain ⟨hsegments, hname⟩ := List.append_inj' h rfl
  exact Prod.ext (hr.scope.eq_of_segments_eq hs.scope hsegments) (List.cons_eq_cons.mp hname).1

end TypeRecord

namespace Layout

/-- A file in the directory of a type. -/
theorem leads_typeFile (l : Layout) {r : TypeRecord} (h : r.IsPlaceable) {file : String}
    (hfile : Path.IsName file) :
    Path.Leads l.root (Path.join (l.typeDir r) file) (r.dirNames ++ [file]) :=
  (h.leads_dir.behind l.root).join hfile

theorem isName_metadataName : Path.IsName metadataName := by
  constructor <;> decide

theorem isName_declarationName : Path.IsName declarationName := by
  constructor <;> decide

/-- Files of different types, or with different names, are in different places. -/
theorem typeFile_leadApart (l : Layout) {r s : TypeRecord} (hr : r.IsPlaceable)
    (hs : s.IsPlaceable) {file file' : String} (hfile : Path.IsName file)
    (hfile' : Path.IsName file') (hne : r.key ≠ s.key ∨ file ≠ file') :
    FileTree.LeadApart (Path.join (l.typeDir r) file) (Path.join (l.typeDir s) file') := by
  refine FileTree.leadApart_of_names_ne (l.leads_typeFile hr hfile) (l.leads_typeFile hs hfile')
    (hr.isName_file hfile) (hs.isName_file hfile') fun he => ?_
  obtain ⟨hdir, hlast⟩ := List.append_inj' he rfl
  rcases hne with hkey | hfiles
  · exact hkey (hr.key_eq_of_dirNames_eq hs hdir)
  · exact hfiles (List.cons_eq_cons.mp hlast).1

end Layout
end TypeAtlas
