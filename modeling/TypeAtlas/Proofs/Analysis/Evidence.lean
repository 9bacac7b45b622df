import TypeAtlas.Analysis.Batch
import TypeAtlas.Proofs.Analysis.Parts
import TypeAtlas.Proofs.Source.Quotation

/-! # Every edge can be read in a text

A type that is named in a base list is depended on whether the declaration text mentions
it or not: `classify` does not look.  The edge is there to be read all the same
(`edges_evident`), because a base list quotes the text.

A declaration quotes its own text (`Dialect.Quotes.declaration`).  Merging keeps that:
what a merged type has, it has from one of its parts, whose text is a part of the merged
text (`quotedIn_of_mem_records`).  And whichever of its tests `classify` decides by, a
text that has all the bases mentions the other type (`mentions_of_classify`).

Of the syntax trees only nesting is used, so the statements are made for all nested
trees; those that are read from files are among them.
-/
namespace TypeAtlas

open Source (Declaration Language Parsed)

/-- A source file with its syntax tree, in which every child stays inside its parent. -/
structure Source.File where
  language : Language
  path : String
  parsed : Parsed
  nested : parsed.root.Nested

namespace Source.File

/-- The types declared in a file. -/
def declarations (f : File) : List Declaration :=
  f.language.dialect.declarations f.parsed f.path

/-- The file of a text, with the tree that is read from it. -/
def ofText (l : Language) (source path : String) : File :=
  ⟨l, path, l.parse source.toList, l.nested_parse source.toList⟩

end Source.File

/-- What is taken out of a text is what the tree declares that was read from it. -/
theorem Toolkit.extract_eq_ok {k : Toolkit} {l : Language} {source path : String}
    {e : Source.Extraction} (h : k.extract l source path = .ok e) :
    ∃ p, k.parse l source.toList = some p ∧
      e = ⟨l.dialect.declarations p path, p.root.hasError⟩ := by
  unfold extract at h
  split at h
  · cases h
  · cases h
  · cases h
  · rename_i p _ _ hp
    exact ⟨p, hp, (Except.ok.inj h).symm⟩

/-- What is taken out of a file is what its text declares. -/
theorem Toolkit.extractFile_eq_ok {k : Toolkit} {t : FileTree} {root : Option String}
    {path : String} {e : Source.Extraction} (h : k.extractFile t root path = .ok e) :
    ∃ (l : Language) (source : String) (p : Parsed), k.parse l source.toList = some p ∧
      e = ⟨l.dialect.declarations p (Source.recordedPath root path), p.root.hasError⟩ := by
  unfold extractFile at h
  split at h
  · cases h
  · rename_i l hl
    cases hread : Source.readFile t path with
    | error reason =>
      rw [hread] at h
      cases h
    | ok source =>
      rw [hread] at h
      obtain ⟨p, hp, he⟩ := extract_eq_ok h
      exact ⟨l, source, p, hp, he⟩

/-- The types of a list of paths are declared in trees that were read. -/
theorem Toolkit.exists_parsed_of_mem {k : Toolkit} {t : FileTree} {root : Option String}
    {paths : List String} {d : Declaration} (h : d ∈ (k.batch t root paths).declarations) :
    ∃ (l : Language) (source path : String) (p : Parsed), k.parse l source.toList = some p ∧
      d ∈ l.dialect.declarations p path := by
  obtain ⟨⟨path, e⟩, hfile, hd⟩ := List.mem_flatMap.mp h
  obtain ⟨result, hmem, hok⟩ := List.mem_filterMap.mp hfile
  obtain ⟨origin, -, rfl⟩ := List.mem_map.mp hmem
  cases hresult : k.extractFile t root origin with
  | error reason => simp [hresult, Except.toOption] at hok
  | ok e' =>
    simp only [hresult, Except.toOption, Option.map_some, Option.some.injEq, Prod.mk.injEq] at hok
    obtain ⟨rfl, rfl⟩ := hok
    obtain ⟨l, source, p, hp, rfl⟩ := extractFile_eq_ok hresult
    exact ⟨l, source, _, p, hp, hd⟩

/-- The types of a list of paths come from files with nested trees. -/
theorem Batch.exists_file_of_mem {t : FileTree} {root : Option String} {paths : List String}
    {d : Declaration} (h : d ∈ (Batch.ofPaths t root paths).declarations) :
    ∃ f : Source.File, d ∈ f.declarations := by
  obtain ⟨l, source, path, p, hp, hd⟩ := Toolkit.exists_parsed_of_mem h
  obtain rfl := Option.some.inj hp
  exact ⟨.ofText l source path, hd⟩

/-! ### Edges between types that quote their texts -/

/-- Whichever way one type depends on another one, a text with all its bases mentions the
other one. -/
theorem mentions_of_classify {d t : TypeRecord} {s : String} {label : EdgeLabel}
    (hbases : ∀ b ∈ d.baseNames, Mentions s b) (h : classify d (some s) t = some label) :
    Mentions s t.name := by
  unfold classify at h
  split_ifs at h with hbase htext
  · rw [Bool.and_eq_true, decide_eq_true_eq] at hbase
    exact hbases t.name hbase.2
  · simpa [contains_iff] using htext

namespace Collection

/-- Every type of a run quotes the merged text in its place, and the text of the type at which
an edge begins mentions the type at which it ends. -/
structure Evident (c : Collection) : Prop where
  records : ∀ (id : Nat) (r : TypeRecord), c.index.records[id]? = some r →
    ∃ s, c.texts[id]? = some s ∧ r.QuotedIn s
  edges : ∀ (scope : String), ∀ e ∈ (Graph.build c.index c.textOf scope).edges,
    ∃ d ∈ c.index.records, ∃ t ∈ c.index.records,
      d.identifier = e.source ∧ t.identifier = e.target ∧ t.scope = scope ∧
        classify d (c.textOf d) t = some e.label ∧
        ∃ s, c.textOf d = some s ∧ Mentions s t.name

section
variable {ds : List Declaration} (hds : ∀ d ∈ ds, d.record.QuotedIn d.text)
include hds

/-- **Merging keeps quotations.**  A merged type quotes its merged text. -/
theorem quotedIn_of_mem_records {r : TypeRecord} (hr : r ∈ (ofList ds).index.records) :
    ∃ s, (ofList ds).textOf r = some s ∧ r.QuotedIn s := by
  refine ⟨_, textOf_of_mem_records hr, ?_⟩
  have hpart : ∀ d ∈ ds, d.key = r.key →
      Mentions (Text.join "\n" ((parts ds r.key).map Declaration.text)) d.text := fun d hd hkey =>
    Text.infix_join_of_mem (List.mem_map_of_mem (mem_parts.mpr ⟨hd, hkey⟩))
  constructor
  · intro b hb
    obtain ⟨d, hd, hkey, hb⟩ :=
      (mem_record_iff (fun _ _ _ => TypeRecord.mem_baseNames_absorb) hr).mp hb
    exact (hpart d hd hkey).trans ((hds d hd).bases b hb)
  · intro m hm
    obtain ⟨d, hd, hkey, hm⟩ :=
      (mem_record_iff (fun _ _ _ => TypeRecord.mem_methods_absorb) hr).mp hm
    exact ((hds d hd).methods m hm).mono (hpart d hd hkey)

/-- Where declarations quote their texts, the merged types and the edges do. -/
theorem evident_of_quotedIn : (ofList ds).Evident where
  records id r hr := by
    rw [← textOf_of_getElem? hr]
    exact quotedIn_of_mem_records hds (List.mem_of_getElem? hr)
  edges scope e he := by
    obtain ⟨d, t, hs, hsource, htarget⟩ := Graph.mem_build_edges_iff.mp he
    obtain ⟨hd, ht⟩ := hs.mem_records (aligned ds)
    obtain ⟨htgroup, -, -, hlabel⟩ := hs
    obtain ⟨s, htext, hquoted⟩ := quotedIn_of_mem_records hds hd
    refine ⟨d, hd, t, ht, hsource, htarget, ((aligned ds).mem_group_iff.mp htgroup).2, hlabel, s,
      htext, ?_⟩
    rw [htext] at hlabel
    exact mentions_of_classify hquoted.bases hlabel

end

/-- **Every edge can be read in a text.**  In a file with a nested tree, whatever its language,
each type quotes its declaration and the declaration is a part of the source.  Whatever files
are put together, each merged type quotes its merged text, and the text of the type at which
an edge begins mentions the type at which it ends, whatever its label.  The files that are
read from a tree of files are such files, without any further assumption. -/
theorem edges_evident :
    (∀ (f : Source.File), ∀ d ∈ f.declarations,
      d.record.QuotedIn d.text ∧ d.text.toList <:+: f.parsed.source) ∧
    (∀ files : List Source.File, (ofList (files.flatMap Source.File.declarations)).Evident) ∧
    ∀ (t : FileTree) (root : Option String) (paths : List String),
      (ofList (Batch.ofPaths t root paths).declarations).Evident := by
  have hfile : ∀ (f : Source.File), ∀ d ∈ f.declarations,
      d.record.QuotedIn d.text ∧ d.text.toList <:+: f.parsed.source := fun f d hd =>
    f.language.dialect_quotes.declaration f.nested hd
  refine ⟨hfile, fun files => evident_of_quotedIn fun d hd => ?_,
    fun t root paths => evident_of_quotedIn fun d hd => ?_⟩
  · obtain ⟨f, -, hd⟩ := List.mem_flatMap.mp hd
    exact (hfile f d hd).1
  · obtain ⟨f, hd⟩ := Batch.exists_file_of_mem hd
    exact (hfile f d hd).1

/-- A type in two parts, of which the second one has the base list: the merged text mentions the
base, which the text of the first part does not. -/
theorem edges_evident_two_parts :
    let first : Source.File := .ofText .csharp "partial class A{}" "A.cs"
    let second : Source.File := .ofText .csharp "class B{}partial class A:B{B F(B b){}}" "B.cs"
    let c := ofList ([first, second].flatMap Source.File.declarations)
    (Graph.build c.index c.textOf "").edges = [⟨".A", ".B", .inherit⟩] ∧
      ∃ d t : TypeRecord, d.identifier = ".A" ∧ t.identifier = ".B" ∧
        ∃ s, c.textOf d = some s ∧ Mentions s t.name := by
  intro first second c
  have hedges : (Graph.build c.index c.textOf "").edges = [⟨".A", ".B", .inherit⟩] := by
    decide +kernel
  refine ⟨hedges, ?_⟩
  obtain ⟨d, -, t, -, hsource, htarget, -, -, hmention⟩ :=
    (edges_evident.2.1 [first, second]).edges "" ⟨".A", ".B", .inherit⟩
      (hedges ▸ List.mem_singleton_self _)
  exact ⟨d, t, hsource, htarget, hmention⟩

end Collection
end TypeAtlas
