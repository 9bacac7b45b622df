import TypeAtlas.Proofs.Analysis.Merging
import TypeAtlas.Proofs.Artifact.Separate
import TypeAtlas.Proofs.Source.Traversal
import TypeAtlas.Proofs.Text.Blanks

/-! # How namespaces are spelled

A name with dots may be written with blanks anywhere.  It is cut at its dots, each piece is cut
into words, and all is put together again.  What comes out is the text without its blanks and
nothing else (`toList_dottedName`), so names are told apart exactly up to blanks
(`dottedName_eq_iff`).

The namespace of a type is such a name: what the nearest namespace around it, or the line of
the file, has for a name (`Language.scope_eq`).  All that depends on the namespace is therefore
decided by its spelling up to blanks: the group of the type in the index, what stands before
the name in its identifier, and its directory (`toldBySpelling`).
-/
namespace TypeAtlas

/-! ### What a namespace decides -/

/-- A type that was found has a group of its own namespace, which is that of no other one. -/
theorem Collection.group_eq_iff {ds : List Source.Declaration} {d : Source.Declaration}
    (hd : d ∈ ds) {s : String} :
    (ofList ds).index.group d.record.scope = (ofList ds).index.group s ↔ d.record.scope = s := by
  refine ⟨fun h => ?_, congrArg _⟩
  -- the group is not empty, and whatever is in it tells the namespace
  have hlisted : d.record.scope ∈ (ofList ds).index.scopes := (mem_scopes ds _).mpr ⟨d, hd, rfl⟩
  obtain ⟨r, hr, hscope⟩ := (aligned ds).mem_scopes.mp hlisted
  have hgroup := (aligned ds).mem_group_iff.mpr ⟨hr, hscope⟩
  rw [h] at hgroup
  exact hscope.symm.trans ((aligned ds).mem_group_iff.mp hgroup).2

/-- What stands before the name in an identifier is the namespace. -/
theorem TypeRecord.identifier_eq_append_iff {r : TypeRecord} {front : String} :
    r.identifier = front ++ "." ++ r.name ↔ r.scope = front := by
  rw [identifier, String.append_left_inj, String.append_left_inj]

/-- Namespaces in order have one directory only if they are one. -/
theorem Layout.components_scopeDir_eq_iff (l : Layout) {s t : String} (hs : IsDotted s)
    (ht : IsDotted t) :
    Path.components (l.scopeDir s) = Path.components (l.scopeDir t) ↔ s = t :=
  ⟨hs.eq_of_components_eq ht (l.leads_scopeDir hs) (l.leads_scopeDir ht),
    fun h => congrArg (fun u => Path.components (l.scopeDir u)) h⟩

namespace Source

/-! ### Names with dots -/

/-- **A name with dots is its text without the blanks.**  The dots are no blanks, so cutting at them
and joining again changes nothing. -/
theorem toList_dottedName (cs : List Char) : (dottedName cs).toList = Text.freed cs := by
  have hpieces : (Text.splitAtChar '.' cs).map (fun piece => (Text.words piece).flatten) =
      Text.splitAtChar '.' (Text.freed cs) := by
    rw [Text.freed, Text.splitAtChar_filter (by decide)]
    exact List.map_congr_left fun piece _ => Text.flatten_words piece
  rw [dottedName, String.toList_ofList, hpieces, Text.intercalate_splitAtChar]

example : dottedName "com.acme\n  .app".toList = "com.acme.app" := by decide

theorem isBlank_of_mem_dottedName {t : List Char} {c : Char} (h : c ∈ (dottedName t).toList) :
    Text.isBlank c = false := by
  rw [toList_dottedName] at h
  exact Text.isBlank_of_mem_freed h

theorem dottedName_dottedName (t : List Char) :
    dottedName (dottedName t).toList = dottedName t := by
  rw [← String.toList_inj, toList_dottedName]
  exact Text.freed_eq_self fun c hc => isBlank_of_mem_dottedName hc

/-- **Names with dots are told apart exactly up to blanks.** -/
theorem dottedName_eq_iff {s t : List Char} :
    dottedName s = dottedName t ↔ Text.SameButBlanks s t := by
  rw [← String.toList_inj, toList_dottedName, toList_dottedName, Text.sameButBlanks_iff]

/-- The segments of such a name are not changed by trimming. -/
theorem trim_of_mem_dottedName {t piece : List Char}
    (h : piece ∈ Text.splitAtChar '.' (dottedName t).toList) : Text.trim piece = piece :=
  Text.trim_eq_self fun _ hc => isBlank_of_mem_dottedName (Text.mem_of_mem_splitAtChar h hc).2

theorem scopeSegments_dottedName (t : List Char) :
    scopeSegments (dottedName t) =
      ((Text.splitAtChar '.' (dottedName t).toList).filter fun s => decide (s ≠ [])).map
        String.ofList := by
  rw [scopeSegments, List.map_congr_left fun _ h => trim_of_mem_dottedName h, List.map_id']

/-! ### Namespaces as they are written -/

namespace Language

/-- The node that names the namespace of what has these ancestors: the name of the nearest namespace
around it, else the name in the line that gives a namespace to the file. -/
def scopeName? (p : Parsed) (above : List Node) : Language → Option Node
  | csharp =>
    ((above.find? CSharp.isNamespace).bind fun n => n.child? .name).or
      ((p.root.childOf? .namespaceLine).bind fun line => line.child? .name)
  | java => (p.root.childOf? .packageLine).bind fun line => line.namedChildren.find? Java.isName

/-- The namespace as it is written.  The global one is not written at all. -/
def spelling (l : Language) (p : Parsed) (above : List Node) : List Char :=
  ((l.scopeName? p above).map (Node.chars p.source)).getD []

/-- The namespace is the name in that node. -/
theorem scope_eq_getD (l : Language) (p : Parsed) (above : List Node) :
    l.dialect.scope p above =
      ((l.scopeName? p above).map fun m => dottedName (m.chars p.source)).getD "" := by
  cases l with
  | csharp =>
    have haround : CSharp.enclosingScope? p above =
        ((above.find? CSharp.isNamespace).bind fun n => n.child? .name).map fun m =>
          dottedName (m.chars p.source) := Option.map_bind.symm
    have hfile : CSharp.fileScope? p =
        ((p.root.childOf? .namespaceLine).bind fun line => line.child? .name).map fun m =>
          dottedName (m.chars p.source) := Option.map_bind.symm
    change (CSharp.enclosingScope? p above).getD ((CSharp.fileScope? p).getD "") = _
    rw [haround, hfile, scopeName?, Option.map_or, Option.getD_or]
  | java =>
    have hpackage : Java.package? p =
        (scopeName? p above java).map fun m => dottedName (m.chars p.source) :=
      Option.map_bind.symm
    exact congrArg (Option.getD · "") hpackage

/-- **A namespace is its spelling without the blanks**, in every tree. -/
theorem scope_eq (l : Language) (p : Parsed) (above : List Node) :
    l.dialect.scope p above = dottedName (l.spelling p above) := by
  rw [scope_eq_getD, spelling]
  cases l.scopeName? p above with
  -- the global namespace is the name in no characters
  | none => rfl
  | some m => rfl

/-- A type of a tree, and its namespace as it is written there. -/
def Spells (l : Language) (p : Parsed) (path : String) (d : Declaration) (w : List Char) : Prop :=
  ∃ x ∈ declaringNodes p.root,
    l.dialect.declaration? p path (importTexts p) x = some d ∧ l.spelling p x.2.2 = w

instance (l : Language) (p : Parsed) (path : String) (d : Declaration) (w : List Char) :
    Decidable (l.Spells p path d w) :=
  inferInstanceAs (Decidable (∃ x ∈ declaringNodes p.root,
    l.dialect.declaration? p path (importTexts p) x = some d ∧ l.spelling p x.2.2 = w))

theorem exists_spells (l : Language) {p : Parsed} {path : String} {d : Declaration}
    (h : d ∈ l.dialect.declarations p path) : ∃ w, l.Spells p path d w := by
  obtain ⟨x, hx, hd⟩ := List.mem_filterMap.mp h
  exact ⟨_, x, hx, hd, rfl⟩

theorem Spells.scope_eq {l : Language} {p : Parsed} {path : String} {d : Declaration}
    {w : List Char} (h : l.Spells p path d w) : d.record.scope = dottedName w := by
  obtain ⟨⟨kind, n, above⟩, hx, hd, rfl⟩ := h
  rw [(Dialect.isOf_of_declaration? (mem_declaringNodes.mp hx).2 hd).scope, l.scope_eq]

end Language

/-- What two types share because of their namespaces, told by how these are written. -/
structure ToldBySpelling (w w' : List Char) (d d' : Declaration) : Prop where
  scope : d.record.scope = d'.record.scope ↔ Text.SameButBlanks w w'
  /-- Whatever else is found, they are in one group of the index. -/
  group : ∀ ds : List Declaration, d ∈ ds →
    ((Collection.ofList ds).index.group d.record.scope =
      (Collection.ofList ds).index.group d'.record.scope ↔ Text.SameButBlanks w w')
  /-- One text stands before both names in the identifiers. -/
  identifier : (∃ front, d.record.identifier = front ++ "." ++ d.record.name ∧
    d'.record.identifier = front ++ "." ++ d'.record.name) ↔ Text.SameButBlanks w w'
  /-- Their namespaces have one directory. -/
  dir : Text.SameButBlanks w w' →
    ∀ layout : Layout, layout.scopeDir d.record.scope = layout.scopeDir d'.record.scope
  /-- Where the namespaces are in order, the directory tells as well. -/
  dir_iff : IsDotted d.record.scope → IsDotted d'.record.scope → ∀ layout : Layout,
    (Path.components (layout.scopeDir d.record.scope) =
      Path.components (layout.scopeDir d'.record.scope) ↔ Text.SameButBlanks w w')

theorem toldBySpelling {w w' : List Char} {d d' : Declaration}
    (h : d.record.scope = dottedName w) (h' : d'.record.scope = dottedName w') :
    ToldBySpelling w w' d d' := by
  have hscope : d.record.scope = d'.record.scope ↔ Text.SameButBlanks w w' := by
    rw [h, h', dottedName_eq_iff]
  exact {
    scope := hscope
    group := fun ds hd => (Collection.group_eq_iff hd).trans hscope
    identifier := by
      simp only [TypeRecord.identifier_eq_append_iff, ← hscope]
      exact ⟨fun ⟨_, hd, hd'⟩ => hd.trans hd'.symm, fun he => ⟨_, he, rfl⟩⟩
    dir := fun hsame layout => congrArg layout.scopeDir (hscope.mpr hsame)
    dir_iff := fun hd hd' layout => (layout.components_scopeDir_eq_iff hd hd').trans hscope }

/-- **Names with dots are taken up to blanks, and exactly so.**  What is made of a text is the text
without its blanks; doing it again changes nothing; and trimming its segments changes none of
them.  Two texts give one name if and only if they differ in blanks only.  Every type of a tree
has a namespace that is written somehow, and for two types of any two trees, in either language,
the two spellings tell what they share. -/
theorem names_up_to_blanks :
    (∀ t : List Char,
      (dottedName t).toList = (t.filter fun c => !Text.isBlank c) ∧
      dottedName (dottedName t).toList = dottedName t ∧
      (∀ piece ∈ Text.splitAtChar '.' (dottedName t).toList, Text.trim piece = piece) ∧
      scopeSegments (dottedName t) =
        ((Text.splitAtChar '.' (dottedName t).toList).filter fun s => decide (s ≠ [])).map
          String.ofList) ∧
    (∀ s t : List Char, dottedName s = dottedName t ↔ Text.SameButBlanks s t) ∧
    (∀ (l : Language) (p : Parsed) (path : String), ∀ d ∈ l.dialect.declarations p path,
      ∃ w, l.Spells p path d w) ∧
    ∀ (l l' : Language) (p p' : Parsed) (path path' : String) (d d' : Declaration)
      (w w' : List Char), l.Spells p path d w → l'.Spells p' path' d' w' →
        ToldBySpelling w w' d d' := by
  refine ⟨fun t => ⟨toList_dottedName t, dottedName_dottedName t,
    fun piece h => trim_of_mem_dottedName h, scopeSegments_dottedName t⟩,
    fun s t => dottedName_eq_iff, fun l p path d hd => l.exists_spells hd, ?_⟩
  intro l l' p p' path path' d d' w w' h h'
  exact toldBySpelling h.scope_eq h'.scope_eq

/-- A namespace and a package with blanks in different places, a tab and a line feed among them. -/
theorem names_up_to_blanks_two_languages :
    let p := Language.csharp.parse "namespace A .\tB{class C{}}".toList
    let p' := Language.java.parse "package A.\n B;class D{}".toList
    ∃ d ∈ CSharp.dialect.declarations p "C.cs", ∃ d' ∈ Java.dialect.declarations p' "D.java",
      (Language.csharp.Spells p "C.cs" d "A .\tB".toList ∧
        Language.java.Spells p' "D.java" d' "A.\n B".toList) ∧
      (IsDotted d.record.scope ∧ IsDotted d'.record.scope) ∧
      d.record.scope = d'.record.scope ∧
      (Collection.ofList [d, d']).index.group d.record.scope =
        (Collection.ofList [d, d']).index.group d'.record.scope ∧
      Path.components (Layout.scopeDir ⟨"/out"⟩ d.record.scope) =
        Path.components (Layout.scopeDir ⟨"/out"⟩ d'.record.scope) := by
  intro p p'
  obtain ⟨d, hmem, hd, hdotted⟩ : ∃ d ∈ CSharp.dialect.declarations p "C.cs",
      Language.csharp.Spells p "C.cs" d "A .\tB".toList ∧ IsDotted d.record.scope := by
    decide +kernel
  obtain ⟨d', hmem', hd', hdotted'⟩ : ∃ d' ∈ Java.dialect.declarations p' "D.java",
      Language.java.Spells p' "D.java" d' "A.\n B".toList ∧ IsDotted d'.record.scope := by
    decide +kernel
  have hsame : Text.SameButBlanks "A .\tB".toList "A.\n B".toList := by decide
  obtain ⟨-, -, -, htold⟩ := names_up_to_blanks
  have h := htold .csharp .java p p' "C.cs" "D.java" d d' _ _ hd hd'
  exact ⟨d, hmem, d', hmem', ⟨hd, hd'⟩, ⟨hdotted, hdotted'⟩, h.scope.mpr hsame,
    (h.group [d, d'] List.mem_cons_self).mpr hsame, (h.dir_iff hdotted hdotted' ⟨"/out"⟩).mpr hsame⟩

end Source
end TypeAtlas
