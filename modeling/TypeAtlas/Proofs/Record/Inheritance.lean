import TypeAtlas.Proofs.Graph.Edges
import TypeAtlas.Proofs.Record.RoundTrip
import TypeAtlas.Source.Reading

/-! # The flag of a base list

A record says twice whether its type has a base list: by the list and by a flag.  The two are
set by different operations, which may come in any order, and a part that is absorbed may
have them apart.  They stay together all the same: no operation on a record, whatever it is
given, takes a record in which they agree to one in which they do not
(`RecordChange.flagAgrees_apply`).  Hence they agree in every record that is made from a new
one (`TypeRecord.IsMade.flagAgrees`), and in every record of an index of such records.

Where they agree, the flag can be left out of account: it can be read off the metadata document
whether there is a list (`flag_follows_list`), and `classify` needs no look at it.
-/
namespace TypeAtlas

open Json (Value)

/-! ### Records that are made -/

/-- An operation on a record. -/
inductive RecordChange where
  | imports (value : List String)
  | flags (value : Flags)
  | bases (value : List String)
  | methods (value : List Method)
  | absorb (other : TypeRecord)

namespace RecordChange

/-- The record after an operation. -/
def apply : TypeRecord → RecordChange → TypeRecord
  | r, imports value => r.withImports value
  | r, flags value => r.withFlags value
  | r, bases value => r.withBases value
  | r, methods value => r.withMethods value
  | r, absorb other => r.absorb other

/-- **No operation takes the flag and the list apart.** -/
theorem flagAgrees_apply {r : TypeRecord} (h : r.FlagAgrees) (c : RecordChange) :
    (c.apply r).FlagAgrees := by
  cases c with
  | imports value => exact h
  | flags value => rfl
  | bases value => rfl
  | methods value => exact h
  | absorb other => exact h.absorb other

end RecordChange

namespace TypeRecord

/-- A record that is made from a new one by operations. -/
def IsMade (r : TypeRecord) : Prop :=
  ∃ (name : String) (kind : TypeKind) (scope path : String) (changes : List RecordChange),
    r = changes.foldl RecordChange.apply (.new name kind scope path)

theorem FlagAgrees.foldl_apply {r : TypeRecord} (h : r.FlagAgrees) (changes : List RecordChange) :
    (changes.foldl RecordChange.apply r).FlagAgrees := by
  induction changes generalizing r with
  | nil => exact h
  | cons c changes ih => exact ih (c.flagAgrees_apply h)

theorem IsMade.flagAgrees {r : TypeRecord} (h : r.IsMade) : r.FlagAgrees := by
  obtain ⟨name, kind, scope, path, changes, rfl⟩ := h
  have hnew : (new name kind scope path).FlagAgrees := rfl
  exact hnew.foldl_apply changes

/-- Extraction makes its records from new ones. -/
theorem isMade_of_mem_declarations {dialect : Source.Dialect} {p : Source.Parsed} {path : String}
    {d : Source.Declaration} (hd : d ∈ dialect.declarations p path) : d.record.IsMade := by
  obtain ⟨⟨kind, n, above⟩, -, hd⟩ := List.mem_filterMap.mp hd
  obtain ⟨name, -, rfl⟩ := Option.map_eq_some_iff.mp hd
  refine ⟨name.text p.source, kind, dialect.scope p above, path, ?_⟩
  cases dialect.bases? p n with
  | none =>
    exact ⟨[.imports (Source.importTexts p), .flags (dialect.flags p n),
      .methods (dialect.methods p n)], rfl⟩
  | some bases =>
    exact ⟨[.imports (Source.importTexts p), .bases bases, .flags (dialect.flags p n),
      .methods (dialect.methods p n)], rfl⟩

end TypeRecord

/-! ### What follows from agreement -/

/-- The member of an object with a name. -/
def Json.Value.member? (name : String) : Value → Option Value
  | object members => (members.find? fun m => m.1 == name).map Prod.snd
  | _ => none

/-- `classify` without the look at the flag. -/
def classifyByList (dependent : TypeRecord) (text : Option String) (target : TypeRecord) :
    Option EdgeLabel :=
  if target.name ∈ dependent.baseNames then some (.forBase target.kind)
  else if !(text.map fun t => Text.contains t target.name).getD false then none
  else if !Text.contains dependent.name target.name || dependent.uses target.name then
    some .reference
  else none

namespace TypeRecord

/-- The flag of a record follows its base list, in its document as well, and need not be asked
for. -/
structure FlagFollows (r : TypeRecord) : Prop where
  flag_iff : r.flags.isInherited = true ↔ ∃ bases, r.bases = some bases
  document_iff : ∃ v, Json.parse? r.render = some v ∧
    ((∃ list, v.member? "BaseTypeNames" = some list) ↔
      (v.member? "Flags").bind (Value.member? "IsInherited") = some (.bool true))
  classify_eq : ∀ text target, classify r text target = classifyByList r text target

theorem member?_bases_document (r : TypeRecord) :
    r.document.member? "BaseTypeNames" = r.bases.map textList := by
  unfold document
  cases r.bases <;> rfl

theorem member?_inherited_document (r : TypeRecord) :
    (r.document.member? "Flags").bind (Value.member? "IsInherited") =
      some (.bool r.flags.isInherited) :=
  rfl

theorem FlagAgrees.flagFollows {r : TypeRecord} (h : r.FlagAgrees) : r.FlagFollows where
  flag_iff := by
    rw [show r.flags.isInherited = r.bases.isSome from h, Option.isSome_iff_exists]
  document_iff := by
    refine ⟨r.document, Json.parse?_render r.readable_document, ?_⟩
    rw [member?_bases_document, member?_inherited_document,
      show r.flags.isInherited = r.bases.isSome from h]
    cases r.bases <;> simp
  classify_eq text target := by
    unfold classify classifyByList
    by_cases hbase : target.name ∈ r.baseNames
    · rw [if_pos (by simp [hbase, h.inherited_of_mem hbase]), if_pos hbase]
    · rw [if_neg (by simp [hbase]), if_neg hbase]

end TypeRecord

/-- **The flag of a record never leaves its base list.**  It follows the list in every record that
is made from a new one by operations in any order, with anything given to them, and in every
record of an index in which such records are registered.  What is extracted from a syntax tree,
of whatever shape and in either language, is such a record. -/
theorem flag_follows_list :
    (∀ r : TypeRecord, r.IsMade → r.FlagFollows) ∧
    (∀ rs : List TypeRecord, (∀ r ∈ rs, r.IsMade) →
      ∀ r ∈ (TypeIndex.ofList rs).records, r.FlagFollows) ∧
    ∀ (l : Source.Language) (p : Source.Parsed) (path : String),
      ∀ d ∈ l.dialect.declarations p path, d.record.IsMade := by
  refine ⟨fun r h => h.flagAgrees.flagFollows, fun rs h r hr => ?_,
    fun l p path d hd => TypeRecord.isMade_of_mem_declarations hd⟩
  have hagrees : ∀ r ∈ (TypeIndex.ofList rs).records, r.FlagAgrees :=
    TypeIndex.forall_records_ofList (fun _ b ha _ => ha.absorb b) fun r hr => (h r hr).flagAgrees
  exact (hagrees r hr).flagFollows

/-- The first part absorbs a record with the flag and without a list; the second one has its flags
set, with no word of the list, after the list was. -/
theorem flag_follows_list_broken_part :
    let broken := { TypeRecord.new "Widget" .classType "Ui" "B.cs" with
      flags := { Flags.unset with isInherited := true } }
    let first := (TypeRecord.new "Widget" .classType "Ui" "A.cs").absorb broken
    let listed := (TypeRecord.new "Widget" .classType "Ui" "C.cs").withBases ["IDrawable"]
    let second := listed.withFlags { Flags.unset with isSealed := true }
    let merged := first.absorb second
    let p := Source.Language.csharp.parse "class A:B{}".toList
    (¬broken.FlagAgrees ∧ first.IsMade ∧ first.FlagFollows) ∧
      (merged ∈ (TypeIndex.ofList [first, second]).records ∧ merged.FlagFollows ∧
        merged.flags.isInherited = true) ∧
      ∃ d ∈ Source.CSharp.dialect.declarations p "A.cs",
        d.record.IsMade ∧ d.record.flags.isInherited = true := by
  intro broken first listed second merged p
  have hfirst : first.IsMade := ⟨"Widget", .classType, "Ui", "A.cs", [.absorb broken], rfl⟩
  have hsecond : second.IsMade := ⟨"Widget", .classType, "Ui", "C.cs",
    [.bases ["IDrawable"], .flags { Flags.unset with isSealed := true }], rfl⟩
  have hmerged : merged ∈ (TypeIndex.ofList [first, second]).records := by decide
  have hmade : ∀ r ∈ [first, second], r.IsMade := by
    simp [hfirst, hsecond]
  obtain ⟨d, hd, hflag⟩ : ∃ d ∈ Source.CSharp.dialect.declarations p "A.cs",
      d.record.flags.isInherited = true := by decide +kernel
  obtain ⟨hrecord, hindex, hextracted⟩ := flag_follows_list
  exact ⟨⟨by decide, hfirst, hrecord first hfirst⟩,
    ⟨hmerged, hindex [first, second] hmade merged hmerged, by decide⟩,
    d, hd, hextracted .csharp p "A.cs" d hd, hflag⟩

end TypeAtlas
