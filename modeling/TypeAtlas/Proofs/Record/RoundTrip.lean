import TypeAtlas.Proofs.Json.RoundTrip
import TypeAtlas.Record.Document
import Mathlib.Logic.Function.Basic

/-! # Metadata documents describe their records

The metadata document of a record is read back as the record (`parse?_render`), whatever
texts it holds and whether or not its flags fit its base list.  A base list that is
missing is told from an empty one, and so is a body: the former leave their members out,
the latter write an empty list or an empty text.

So no two records have the same document, and a text that is read and written again has a
normal form: writing it once more changes nothing (`document_round_trip`).
-/
namespace TypeAtlas

open Json (Value ItemsReadable MembersReadable)

/-! ### Documents hold texts, truth values and lists -/

theorem Json.itemsReadable_map {α : Type} {f : α → Value} (h : ∀ x, (f x).Readable) (xs : List α) :
    ItemsReadable (xs.map f) := by
  induction xs with
  | nil => trivial
  | cons x xs ih => exact ⟨h x, ih⟩

theorem readable_textList (xs : List String) : (textList xs).Readable :=
  Json.itemsReadable_map (f := .text) (fun _ => trivial) xs

theorem Parameter.readable_document (p : Parameter) : p.document.Readable :=
  ⟨trivial, trivial, trivial⟩

theorem Method.readable_document (m : Method) : m.document.Readable := by
  have hparameters : (Value.list (m.parameters.map Parameter.document)).Readable :=
    Json.itemsReadable_map Parameter.readable_document m.parameters
  unfold Method.document
  cases m.body with
  | none => exact ⟨trivial, trivial, trivial, hparameters, trivial⟩
  | some body => exact ⟨trivial, trivial, trivial, trivial, hparameters, trivial⟩

theorem Flags.readable_document (f : Flags) : f.document.Readable :=
  ⟨trivial, trivial, trivial, trivial, trivial, trivial⟩

theorem TypeRecord.readable_document (r : TypeRecord) : r.document.Readable := by
  have himports := readable_textList r.imports
  have hflags := r.flags.readable_document
  have hmethods : (Value.list (r.methods.map Method.document)).Readable :=
    Json.itemsReadable_map Method.readable_document r.methods
  unfold TypeRecord.document
  cases r.bases with
  | none =>
    exact ⟨trivial, trivial, trivial, trivial, trivial, himports, hflags, hmethods, trivial⟩
  | some bases =>
    exact ⟨trivial, trivial, trivial, trivial, trivial, himports, hflags, readable_textList bases,
      hmethods, trivial⟩

/-! ### What a document describes -/

theorem Json.Value.list?_map {α : Type} {f : Value → Option α} {g : α → Value}
    (h : ∀ x, f (g x) = some x) (xs : List α) : Value.list? f (.list (xs.map g)) = some xs := by
  rw [Value.list?]
  induction xs with
  | nil => rfl
  | cons x xs ih =>
    rw [List.map_cons, List.mapM_cons, h, ih]
    rfl

theorem list?_textList (xs : List String) : (textList xs).list? Value.text? = some xs :=
  Value.list?_map (g := .text) (fun _ => rfl) xs

/-- What is missing is read as missing, and what is there as what it is. -/
theorem Json.Value.option?_map {α : Type} {f : Value → Option α} {g : α → Value}
    (h : ∀ x, f (g x) = some x) (hnull : ∀ x, g x ≠ .null) (x : Option α) :
    Value.option? f (x.map g) = some x := by
  cases x with
  | none => rfl
  | some x =>
    rw [Option.map_some, Value.option?, h]
    · rfl
    · exact hnull x

theorem TypeKind.choice?_label (k : TypeKind) :
    (Value.text k.label).choice? TypeKind.ofLabel? = some k :=
  ofLabel?_label k

theorem MethodKind.choice?_label (k : MethodKind) :
    (Value.text k.label).choice? MethodKind.ofLabel? = some k := by
  cases k <;> rfl

theorem Parameter.ofDocument?_document (p : Parameter) :
    Parameter.ofDocument? p.document = some p := by
  rfl

theorem Flags.ofDocument?_document (f : Flags) : Flags.ofDocument? f.document = some f := by
  rfl

/-- What the document of a method has under the names of its members. -/
theorem Method.members?_document (m : Method) :
    m.document.members? ["Name", "Kind", "ReturnType", "Body", "Parameters"] =
      some [some (.text m.name), some (.text m.kind.label), some (.text m.returnType),
        m.body.map .text, some (.list (m.parameters.map Parameter.document))] := by
  unfold Method.document
  cases m.body <;> rfl

theorem Method.ofDocument?_document (m : Method) : Method.ofDocument? m.document = some m := by
  have hbody : Value.option? Value.text? (m.body.map .text) = some m.body :=
    Value.option?_map (g := .text) (fun _ => rfl) (fun _ h => nomatch h) m.body
  have hparameters := Value.list?_map Parameter.ofDocument?_document m.parameters
  rw [Method.ofDocument?, m.members?_document]
  simp only [Option.bind_eq_bind, Option.bind_some, Value.text?, m.kind.choice?_label, hbody,
    hparameters]
  rfl

namespace TypeRecord

/-- What the document of a record has under the names of its members. -/
theorem members?_document (r : TypeRecord) :
    r.document.members? ["FileName", "FilePath", "TypeKind", "TypeName", "Namespace", "Imports",
        "Flags", "BaseTypeNames", "Functions"] =
      some [some (.text r.fileName), some (.text r.filePath), some (.text r.kind.label),
        some (.text r.name), some (.text r.scope), some (textList r.imports),
        some r.flags.document, r.bases.map textList,
        some (.list (r.methods.map Method.document))] := by
  unfold TypeRecord.document
  cases r.bases <;> rfl

/-- A document describes the record it was made of. -/
theorem ofDocument?_document (r : TypeRecord) : ofDocument? r.document = some r := by
  have hbases : Value.option? (Value.list? Value.text?) (r.bases.map textList) = some r.bases :=
    Value.option?_map list?_textList (fun _ h => nomatch h) r.bases
  have hmethods := Value.list?_map Method.ofDocument?_document r.methods
  rw [ofDocument?, r.members?_document]
  simp only [Option.bind_eq_bind, Option.bind_some, Value.text?, r.kind.choice?_label,
    list?_textList, r.flags.ofDocument?_document, hbases, hmethods]
  rfl

theorem parse?_render (r : TypeRecord) : parse? r.render = some r := by
  rw [parse?, render, Json.parse?_render r.readable_document]
  exact r.ofDocument?_document

/-- Reads a text as a metadata document and writes it again. -/
def reprint? (s : String) : Option String :=
  (parse? s).map render

/-- **Metadata documents describe their records.**  Every record is read back from its text, so no
two records have the same text; and whatever text is read and written again is, from then on, read
and written again unchanged. -/
theorem document_round_trip :
    (∀ r : TypeRecord, parse? r.render = some r) ∧ Function.Injective render ∧
      ∀ s s' : String, reprint? s = some s' → reprint? s' = some s' := by
  refine ⟨parse?_render, ?_, ?_⟩
  · intro r q h
    have hread := congrArg parse? h
    rw [parse?_render, parse?_render] at hread
    exact Option.some.inj hread
  · intro s s' h
    obtain ⟨r, -, rfl⟩ := Option.map_eq_some_iff.mp h
    rw [reprint?, parse?_render, Option.map_some]

end TypeRecord
end TypeAtlas
