import TypeAtlas.Proofs.Analysis.Merging
import TypeAtlas.Proofs.Graph.Edges
import TypeAtlas.Proofs.Text.Occurrence

/-! # What a merged type has of its parts

The record of a type is its first part with the others absorbed, its text the lines of
all parts (`absorbed_of_mem_records`, `textOf_of_mem_records`).  Here this is turned
into statements that do not speak of an order any more.  The imports, the bases and the
methods of the record are those of the parts, in whatever order (`mem_absorbed_iff`),
and a name without a line feed is mentioned by the text iff it is mentioned by the text
of a part (`mentions_textOf_iff`).
-/
namespace TypeAtlas

open Source (Declaration)

/-! ### What is collected from the parts -/

namespace TypeRecord

theorem mem_imports_absorb {a b : TypeRecord} {i : String} :
    i ∈ (a.absorb b).imports ↔ i ∈ a.imports ∨ i ∈ b.imports :=
  mem_union

theorem mem_methods_absorb {a b : TypeRecord} {m : Method} :
    m ∈ (a.absorb b).methods ↔ m ∈ a.methods ∨ m ∈ b.methods :=
  List.mem_append

theorem mem_baseNames_absorb {a b : TypeRecord} {name : String} :
    name ∈ (a.absorb b).baseNames ↔ name ∈ a.baseNames ∨ name ∈ b.baseNames := by
  rw [baseNames_absorb, mem_union]

end TypeRecord

/-- What one `absorb` collects from two records, a merged record has from all its parts. -/
theorem mem_absorbed_iff {α : Type} {f : TypeRecord → List α}
    (hf : ∀ a b x, x ∈ f (a.absorb b) ↔ x ∈ f a ∨ x ∈ f b) {rs : List TypeRecord} {r : TypeRecord}
    (h : absorbed rs = some r) {x : α} : x ∈ f r ↔ ∃ p ∈ rs, x ∈ f p := by
  cases rs with
  | nil => cases h
  | cons first rs =>
    obtain rfl := Option.some.inj h
    induction rs generalizing first with
    | nil => simp
    | cons p rs ih =>
      rw [List.foldl_cons, ih (first.absorb p) rfl]
      simp only [List.mem_cons, exists_eq_or_imp, hf, or_assoc]

/-- What `absorb` leaves as it is in the first record, a merged record has from its first part. -/
theorem eq_head_of_absorbed {β : Type} {f : TypeRecord → β} (hf : ∀ a b, f (a.absorb b) = f a)
    {rs : List TypeRecord} {r : TypeRecord} (h : absorbed rs = some r) :
    ∃ first ∈ rs, f r = f first := by
  cases rs with
  | nil => cases h
  | cons first rs =>
    obtain rfl := Option.some.inj h
    refine ⟨first, List.mem_cons_self, ?_⟩
    induction rs generalizing first with
    | nil => rfl
    | cons p rs ih => rw [List.foldl_cons, ih (first.absorb p) rfl, hf]

/-! ### The parts of a type of a run -/

/-- The merged declaration text of a type, found by its namespace and name. -/
def Collection.textOf (c : Collection) : Texts :=
  fun r => (c.index.find? r.key).bind fun id => c.texts[id]?

namespace Collection
variable {ds : List Declaration}

/-- The key in one place is the one of the record there. -/
theorem getElem?_keysOf {r : TypeRecord} {id : Nat}
    (hr : (ofList ds).index.records[id]? = some r) : (keysOf ds)[id]? = some r.key := by
  rw [← keys_index, TypeIndex.keys, List.getElem?_map, hr, Option.map_some]

/-- The record and the text in one place of the tables are those of the key in that place. -/
theorem getElem?_records_texts {id : Nat} {k : String × String} (h : (keysOf ds)[id]? = some k) :
    (∃ r, (ofList ds).index.records[id]? = some r ∧
      absorbed ((parts ds k).map Declaration.record) = some r ∧ r.key = k) ∧
    (ofList ds).texts[id]? = some (Text.join "\n" ((parts ds k).map Declaration.text)) := by
  constructor
  · have hrec := congrArg (fun l => l[id]?) (ofList_records ds)
    simp only [List.getElem?_map, h, Option.map_some] at hrec
    obtain ⟨r, hr, hsome⟩ := Option.map_eq_some_iff.mp hrec
    have hkey : r.key = k := Option.some.inj ((getElem?_keysOf hr).symm.trans h)
    exact ⟨r, hr, hsome.symm, hkey⟩
  · rw [ofList_texts, List.getElem?_map, h, Option.map_some]

theorem exists_getElem?_of_mem_records {r : TypeRecord} (hr : r ∈ (ofList ds).index.records) :
    ∃ id : Nat, (keysOf ds)[id]? = some r.key ∧ (ofList ds).index.records[id]? = some r := by
  obtain ⟨id, hid⟩ := List.mem_iff_getElem?.mp hr
  exact ⟨id, getElem?_keysOf hid, hid⟩

/-- A record of a run is the parts with its key, absorbed. -/
theorem absorbed_of_mem_records {r : TypeRecord} (hr : r ∈ (ofList ds).index.records) :
    absorbed ((parts ds r.key).map Declaration.record) = some r := by
  obtain ⟨id, hkey, hid⟩ := exists_getElem?_of_mem_records hr
  obtain ⟨⟨s, hs, habs, -⟩, -⟩ := getElem?_records_texts hkey
  rw [habs, ← hs, hid]

/-- Every key of a run has its record. -/
theorem exists_record_of_mem {d : Declaration} (hd : d ∈ ds) :
    ∃ r ∈ (ofList ds).index.records, r.key = d.key := by
  obtain ⟨id, hid⟩ := List.mem_iff_getElem?.mp (mem_keysOf.mpr ⟨d, hd, rfl⟩)
  obtain ⟨⟨r, hr, -, hkey⟩, -⟩ := getElem?_records_texts hid
  exact ⟨r, List.mem_of_getElem? hr, hkey⟩

theorem key_mem_of_mem_records {r : TypeRecord} (hr : r ∈ (ofList ds).index.records) :
    ∃ d ∈ ds, d.key = r.key := by
  obtain ⟨id, hkey, -⟩ := exists_getElem?_of_mem_records hr
  exact mem_keysOf.mp (List.mem_of_getElem? hkey)

theorem parts_ne_nil_of_mem_records {r : TypeRecord} (hr : r ∈ (ofList ds).index.records) :
    parts ds r.key ≠ [] :=
  parts_ne_nil_iff.mpr (mem_keysOf.mpr (key_mem_of_mem_records hr))

/-- The text that is found for a type of a run is the one in its place. -/
theorem textOf_of_getElem? {r : TypeRecord} {id : Nat}
    (hr : (ofList ds).index.records[id]? = some r) :
    (ofList ds).textOf r = (ofList ds).texts[id]? := by
  rw [textOf, (find?_iff ds r.key id).mpr (getElem?_keysOf hr)]
  rfl

/-- The text of a type of a run is the lines of its parts. -/
theorem textOf_of_mem_records {r : TypeRecord} (hr : r ∈ (ofList ds).index.records) :
    (ofList ds).textOf r = some (Text.join "\n" ((parts ds r.key).map Declaration.text)) := by
  obtain ⟨id, hkey, hid⟩ := exists_getElem?_of_mem_records hr
  rw [textOf_of_getElem? hid, (getElem?_records_texts hkey).2]

theorem mem_parts {k : String × String} {d : Declaration} :
    d ∈ parts ds k ↔ d ∈ ds ∧ d.key = k := by
  simp [parts]

/-- **What is collected from the parts.**  A list that `absorb` collects has in a type of a run
the entries that it has in the declarations with the type's key. -/
theorem mem_record_iff {α : Type} {f : TypeRecord → List α}
    (hf : ∀ a b x, x ∈ f (a.absorb b) ↔ x ∈ f a ∨ x ∈ f b) {r : TypeRecord}
    (hr : r ∈ (ofList ds).index.records) {x : α} :
    x ∈ f r ↔ ∃ d ∈ ds, d.key = r.key ∧ x ∈ f d.record := by
  rw [mem_absorbed_iff hf (absorbed_of_mem_records hr)]
  simp only [List.mem_map, exists_exists_and_eq_and]
  simp only [mem_parts, and_assoc]

/-- What all declarations have and `absorb` keeps, all records of a run have. -/
theorem forall_records {P : TypeRecord → Prop} (habsorb : ∀ a b, P a → P b → P (a.absorb b))
    (hds : ∀ d ∈ ds, P d.record) :
    ∀ r ∈ (ofList ds).index.records, P r := by
  rw [ofList_index]
  refine TypeIndex.forall_records_ofList habsorb fun r hr => ?_
  obtain ⟨d, hd, rfl⟩ := List.mem_map.mp hr
  exact hds d hd

/-- A name without a line feed is mentioned by the merged text of a type iff it is mentioned by
one of the declarations with the type's key. -/
theorem mentions_textOf_iff {r : TypeRecord} (hr : r ∈ (ofList ds).index.records) {name : String}
    (hname : '\n' ∉ name.toList) :
    (∃ s, (ofList ds).textOf r = some s ∧ Mentions s name) ↔
      ∃ d ∈ ds, d.key = r.key ∧ Mentions d.text name := by
  have hne : (parts ds r.key).map Declaration.text ≠ [] := by
    simpa using parts_ne_nil_of_mem_records hr
  have hjoin := Text.infix_join_iff hname hne
  rw [textOf_of_mem_records hr]
  simp only [Option.some.injEq, exists_eq_left']
  refine hjoin.trans ?_
  simp only [List.mem_map, exists_exists_and_eq_and]
  simp only [mem_parts, and_assoc]
  rfl

end Collection
end TypeAtlas
