import TypeAtlas.Analysis.Run
import TypeAtlas.Proofs.Distinct
import TypeAtlas.Proofs.Index.Alignment

/-! # Merging declarations is a fold by key

`Collection.add` puts one declaration after another into an index and into a list of
texts that is kept beside it; a number that the index hands out is a place in both.
Here the state after any declarations is written down as a function of them
(`ofList_records`, `ofList_texts`): for each key, in the order in which keys first
appear (`keysOf`), the declarations with that key (`parts`) are folded, the records
by `absorb` and the texts by putting them on lines of their own.

Both tables go through one step lemma for each of the two outcomes: a fold by key
either has one entry changed (`map_parts_concat_of_mem`) or gets one more
(`map_parts_concat_of_not_mem`).
-/
namespace TypeAtlas

open Source (Declaration)

/-! ### Declarations by key -/

/-- The key of the type that a declaration is part of. -/
abbrev Source.Declaration.key (d : Declaration) : String × String :=
  d.record.key

/-- The keys of a list of declarations in the order of their first appearance. -/
def keysOf (ds : List Declaration) : List (String × String) :=
  (ds.map Declaration.key).eraseDups

/-- The declarations with a key. -/
def parts (ds : List Declaration) (key : String × String) : List Declaration :=
  ds.filter fun d => decide (d.key = key)

/-- The first record with the others absorbed one after another. -/
def absorbed : List TypeRecord → Option TypeRecord
  | [] => none
  | r :: rs => some (rs.foldl TypeRecord.absorb r)

theorem absorbed_concat {rs : List TypeRecord} (hne : rs ≠ []) (r : TypeRecord) :
    absorbed (rs ++ [r]) = (absorbed rs).map fun first => first.absorb r := by
  cases rs with
  | nil => exact absurd rfl hne
  | cons s rs => simp [absorbed, List.foldl_append]

theorem join_concat (sep : String) {ss : List String} (hne : ss ≠ []) (s : String) :
    Text.join sep (ss ++ [s]) = Text.join sep ss ++ sep ++ s := by
  induction ss with
  | nil => exact absurd rfl hne
  | cons t ss ih =>
    cases ss with
    | nil => rfl
    | cons u ss =>
      have h := ih (List.cons_ne_nil u ss)
      simp only [List.cons_append, Text.join] at h ⊢
      rw [h]
      simp only [String.append_assoc]

theorem map_some_modify (rs : List TypeRecord) (id : Nat) (g : TypeRecord → TypeRecord) :
    (rs.modify id g).map some = (rs.map some).modify id (Option.map g) := by
  refine List.ext_getElem? fun i => ?_
  rw [List.getElem?_map, List.getElem?_modify, List.getElem?_modify, List.getElem?_map]
  by_cases hi : id = i <;> cases rs[i]? <;> simp [hi]

theorem mem_keysOf {ds : List Declaration} {k : String × String} :
    k ∈ keysOf ds ↔ ∃ d ∈ ds, d.key = k := by
  rw [keysOf, List.mem_eraseDups, List.mem_map]

theorem keysOf_concat (ds : List Declaration) (d : Declaration) :
    keysOf (ds ++ [d]) = if d.key ∈ keysOf ds then keysOf ds else keysOf ds ++ [d.key] := by
  rw [keysOf, List.map_append, List.map_singleton, eraseDups_concat]
  simp only [keysOf, List.mem_eraseDups]

theorem parts_concat_self (ds : List Declaration) (d : Declaration) :
    parts (ds ++ [d]) d.key = parts ds d.key ++ [d] := by
  simp [parts]

theorem parts_concat_of_ne (ds : List Declaration) {d : Declaration} {k : String × String}
    (hk : k ≠ d.key) : parts (ds ++ [d]) k = parts ds k := by
  simp [parts, Ne.symm hk]

theorem parts_ne_nil_iff {ds : List Declaration} {k : String × String} :
    parts ds k ≠ [] ↔ k ∈ keysOf ds := by
  rw [mem_keysOf, parts, Ne, List.filter_eq_nil_iff]
  push Not
  simp

section
variable {β : Type} {f : List Declaration → β} {ds : List Declaration} {d : Declaration}

/-- A further part of a known type changes the entry of its key. -/
theorem map_parts_concat_of_mem {g : β → β} {id : Nat} (hid : (keysOf ds)[id]? = some d.key)
    (hg : ∀ xs, xs ≠ [] → f (xs ++ [d]) = g (f xs)) :
    (keysOf (ds ++ [d])).map (fun k => f (parts (ds ++ [d]) k)) =
      ((keysOf ds).map fun k => f (parts ds k)).modify id g := by
  have hmem : d.key ∈ keysOf ds := List.mem_of_getElem? hid
  rw [keysOf_concat, if_pos hmem]
  refine List.ext_getElem? fun i => ?_
  rw [List.getElem?_modify, List.getElem?_map, List.getElem?_map]
  by_cases hi : id = i
  · subst hi
    simp only [hid, Option.map_some, Option.map_eq_map, if_true]
    rw [parts_concat_self, hg _ (parts_ne_nil_iff.mpr hmem)]
  · simp only [hi, if_false, Option.map_eq_map, Option.map_id']
    cases hk : (keysOf ds)[i]? with
    | none => rfl
    | some k =>
      have hne : k ≠ d.key := by
        rintro rfl
        have hlt : id < (keysOf ds).length := (List.getElem?_eq_some_iff.mp hid).1
        exact hi ((List.getElem?_inj hlt (nodup_eraseDups _)).mp (hid.trans hk.symm))
      simp only [Option.map_some]
      rw [parts_concat_of_ne ds hne]

/-- The first part of a type is a new entry. -/
theorem map_parts_concat_of_not_mem (hnew : d.key ∉ keysOf ds) :
    (keysOf (ds ++ [d])).map (fun k => f (parts (ds ++ [d]) k)) =
      ((keysOf ds).map fun k => f (parts ds k)) ++ [f [d]] := by
  have hself : parts (ds ++ [d]) d.key = [d] := by
    rw [parts_concat_self, Classical.not_not.mp (mt parts_ne_nil_iff.mp hnew), List.nil_append]
  rw [keysOf_concat, if_neg hnew, List.map_append, List.map_singleton, hself]
  refine congrArg (· ++ [f [d]]) (List.map_congr_left fun k hk => ?_)
  rw [parts_concat_of_ne ds fun he => hnew (he ▸ hk)]

end

/-! ### The index of declarations -/

/-- The first declaration of a type was registered. -/
def Registration.isAdded : Registration → Bool
  | .added _ => true
  | .merged _ => false

namespace TypeIndex

theorem Aligned.keys_insert {ix : TypeIndex} (h : ix.Aligned) (r : TypeRecord) :
    (ix.insert r).1.keys = if r.key ∈ ix.keys then ix.keys else ix.keys ++ [r.key] := by
  cases hf : ix.find? r.key with
  | some id =>
    have hmem : r.key ∈ ix.keys := List.mem_of_getElem? ((h.find?_iff _ _).mp hf)
    rw [insert_of_find? hf, if_pos hmem]
    exact keys_modify_absorb ix.records r id
  | none =>
    rw [insert_of_find?_none hf, if_neg ((h.find?_eq_none_iff _).mp hf)]
    simp [keys]

theorem ofList_concat (rs : List TypeRecord) (r : TypeRecord) :
    ofList (rs ++ [r]) = ((ofList rs).insert r).1 := by
  rw [ofList, insertAll, List.foldl_append]
  rfl

theorem keys_ofList (ds : List Declaration) :
    (ofList (ds.map Declaration.record)).keys = keysOf ds := by
  induction ds using List.reverseRecOn with
  | nil => rfl
  | append_singleton ds d ih =>
    rw [List.map_append, List.map_singleton, ofList_concat, (aligned_ofList _).keys_insert, ih,
      keysOf_concat]

end TypeIndex

/-! ### A run of the merge loop -/

namespace Collection

theorem ofList_concat (ds : List Declaration) (d : Declaration) :
    ofList (ds ++ [d]) = (ofList ds).add d := by
  rw [ofList, List.foldl_append]
  rfl

theorem add_of_find? {c : Collection} {d : Declaration} {id : Nat}
    (hid : c.index.find? d.key = some id) :
    c.add d = ⟨(c.index.insert d.record).1, c.texts.modify id fun s => s ++ "\n" ++ d.text,
      c.merged + 1⟩ := by
  simp only [add, TypeIndex.insert_of_find? hid]

theorem add_of_find?_none {c : Collection} {d : Declaration} (hnone : c.index.find? d.key = none) :
    c.add d = ⟨(c.index.insert d.record).1, c.texts ++ [d.text], c.merged⟩ := by
  simp only [add, TypeIndex.insert_of_find?_none hnone]

theorem add_index (c : Collection) (d : Declaration) :
    (c.add d).index = (c.index.insert d.record).1 := by
  cases hf : c.index.find? d.key with
  | some id => rw [add_of_find? hf]
  | none => rw [add_of_find?_none hf]

/-- The index of the loop is that of the records. -/
theorem ofList_index (ds : List Declaration) :
    (ofList ds).index = TypeIndex.ofList (ds.map Declaration.record) := by
  induction ds using List.reverseRecOn with
  | nil => rfl
  | append_singleton ds d ih =>
    rw [ofList_concat, add_index, ih, List.map_append, List.map_singleton,
      TypeIndex.ofList_concat]

theorem aligned (ds : List Declaration) : (ofList ds).index.Aligned := by
  rw [ofList_index]
  exact TypeIndex.aligned_ofList _

theorem keys_index (ds : List Declaration) : (ofList ds).index.keys = keysOf ds := by
  rw [ofList_index, TypeIndex.keys_ofList]

theorem find?_iff (ds : List Declaration) (k : String × String) (id : Nat) :
    (ofList ds).index.find? k = some id ↔ (keysOf ds)[id]? = some k := by
  rw [(aligned ds).find?_iff, keys_index]

theorem find?_eq_none_iff (ds : List Declaration) (k : String × String) :
    (ofList ds).index.find? k = none ↔ k ∉ keysOf ds := by
  rw [(aligned ds).find?_eq_none_iff, keys_index]

/-- **The records are the fold by key.** -/
theorem ofList_records (ds : List Declaration) :
    (ofList ds).index.records.map some =
      (keysOf ds).map fun k => absorbed ((parts ds k).map Declaration.record) := by
  induction ds using List.reverseRecOn with
  | nil => rfl
  | append_singleton ds d ih =>
    rw [ofList_concat, add_index]
    cases hf : (ofList ds).index.find? d.key with
    | some id =>
      rw [TypeIndex.insert_of_find? hf,
        map_parts_concat_of_mem (f := fun ps => absorbed (ps.map Declaration.record))
          (g := Option.map fun first => first.absorb d.record) ((find?_iff ds _ _).mp hf), ← ih]
      · exact map_some_modify _ _ _
      · intro xs hxs
        rw [List.map_append]
        exact absorbed_concat (by simpa using hxs) d.record
    | none =>
      rw [TypeIndex.insert_of_find?_none hf,
        map_parts_concat_of_not_mem (f := fun ps => absorbed (ps.map Declaration.record))
          ((find?_eq_none_iff ds _).mp hf), ← ih, List.map_append]
      rfl

/-- **The texts are the fold by key.** -/
theorem ofList_texts (ds : List Declaration) :
    (ofList ds).texts =
      (keysOf ds).map fun k => Text.join "\n" ((parts ds k).map Declaration.text) := by
  induction ds using List.reverseRecOn with
  | nil => rfl
  | append_singleton ds d ih =>
    rw [ofList_concat]
    cases hf : (ofList ds).index.find? d.key with
    | some id =>
      rw [add_of_find? hf,
        map_parts_concat_of_mem (f := fun ps => Text.join "\n" (ps.map Declaration.text))
          (g := fun s => s ++ "\n" ++ d.text) ((find?_iff ds _ _).mp hf), ← ih]
      intro xs hxs
      rw [List.map_append]
      exact join_concat "\n" (by simpa using hxs) d.text
    | none =>
      rw [add_of_find?_none hf,
        map_parts_concat_of_not_mem (f := fun ps => Text.join "\n" (ps.map Declaration.text))
          ((find?_eq_none_iff ds _).mp hf), ← ih]
      rfl

theorem texts_length (ds : List Declaration) :
    (ofList ds).texts.length = (ofList ds).index.size := by
  have hkeys := congrArg List.length (keys_index ds)
  rw [TypeIndex.keys, List.length_map] at hkeys
  rw [ofList_texts, List.length_map, ← hkeys]
  rfl

/-! ### What a registration answers -/

theorem keysOf_prefix (ds more : List Declaration) : keysOf ds <+: keysOf (ds ++ more) := by
  rw [keysOf, keysOf, List.map_append, List.eraseDups_append]
  exact List.prefix_append _ _

theorem insert_snd_of_new {ds : List Declaration} {d : Declaration}
    (hnew : d.key ∉ ds.map Declaration.key) :
    ((ofList ds).index.insert d.record).2 = .added (ofList ds).index.size := by
  have hkey : d.key ∉ keysOf ds := mt List.mem_eraseDups.mp hnew
  rw [TypeIndex.insert_of_find?_none ((find?_eq_none_iff ds d.key).mpr hkey)]

/-- A further part is answered with the number that the first part got. -/
theorem insert_snd_of_known {before after : List Declaration} {first d : Declaration}
    (hkey : first.key = d.key) (hfirst : d.key ∉ before.map Declaration.key) :
    ((ofList (before ++ first :: after)).index.insert d.record).2 =
      .merged (ofList before).index.size := by
  have hsize : (ofList before).index.size = (keysOf before).length := by
    rw [← keys_index, TypeIndex.keys, List.length_map]
    rfl
  have hconcat : keysOf (before ++ [first]) = keysOf before ++ [d.key] := by
    have hnew : d.key ∉ keysOf before := mt List.mem_eraseDups.mp hfirst
    rw [keysOf_concat, hkey, if_neg hnew]
  obtain ⟨more, hmore⟩ := keysOf_prefix (before ++ [first]) after
  rw [hconcat, List.append_assoc, List.append_assoc, List.singleton_append] at hmore
  have hid : (keysOf (before ++ first :: after))[(ofList before).index.size]? = some d.key := by
    rw [hsize, ← List.singleton_append, ← hmore]
    simp
  rw [TypeIndex.insert_of_find? ((find?_iff _ _ _).mpr hid)]

/-- What the loop does with a declaration that comes after others. -/
structure Registers (done : List Declaration) (d : Declaration) : Prop where
  /-- Records and texts have the same places. -/
  texts_length : (ofList done).texts.length = (ofList done).index.size
  /-- The first part of a type gets the next number. -/
  added : d.key ∉ done.map Declaration.key →
    ((ofList done).index.insert d.record).2 = .added (ofList done).index.size
  /-- A further part gets the number of the first part, which is a place in the records and
  in the texts. -/
  merged : d.key ∈ done.map Declaration.key → ∃ before first after id,
    done = before ++ first :: after ∧ first.key = d.key ∧
      d.key ∉ before.map Declaration.key ∧
      ((ofList before).index.insert first.record).2 = .added id ∧
      ((ofList done).index.insert d.record).2 = .merged id ∧
      id < (ofList done).index.records.length ∧ id < (ofList done).texts.length

theorem registers (done : List Declaration) (d : Declaration) : Registers done d where
  texts_length := texts_length done
  added := insert_snd_of_new
  merged := by
    intro hmem
    obtain ⟨ks, ks', hsplit, hfirst⟩ := List.eq_append_cons_of_mem hmem
    obtain ⟨before, more, rfl, rfl, hmore⟩ := List.map_eq_append_iff.mp hsplit
    obtain ⟨first, after, rfl, hkey, -⟩ := List.map_eq_cons_iff.mp hmore
    have hknown : ((ofList (before ++ first :: after)).index.insert d.record).2 =
        .merged (ofList before).index.size := insert_snd_of_known hkey hfirst
    have hlt : (ofList before).index.size < (ofList (before ++ first :: after)).index.size := by
      cases hf : (ofList (before ++ first :: after)).index.find? d.key with
      | none =>
        rw [TypeIndex.insert_of_find?_none hf] at hknown
        cases hknown
      | some id =>
        rw [TypeIndex.insert_of_find? hf] at hknown
        exact Registration.merged.inj hknown ▸ (aligned _).lt_size hf
    refine ⟨before, first, after, (ofList before).index.size, rfl, hkey, hfirst,
      insert_snd_of_new (by rwa [hkey]), hknown, hlt, ?_⟩
    rw [Collection.texts_length]
    exact hlt

/-! ### Counting registrations -/

/-- The answers of the index to declarations one after another. -/
def outcomes (c : Collection) : List Declaration → List Registration
  | [] => []
  | d :: ds => (c.index.insert d.record).2 :: outcomes (c.add d) ds

theorem length_outcomes (c : Collection) (ds : List Declaration) :
    (c.outcomes ds).length = ds.length := by
  induction ds generalizing c with
  | nil => rfl
  | cons d ds ih => rw [outcomes, List.length_cons, ih, List.length_cons]

/-- A run makes one record for each addition and counts the other answers. -/
theorem foldl_add_counts (c : Collection) (ds : List Declaration) :
    (ds.foldl add c).index.size = c.index.size + (c.outcomes ds).countP Registration.isAdded ∧
      (ds.foldl add c).merged = c.merged + (c.outcomes ds).countP fun o => !o.isAdded := by
  induction ds generalizing c with
  | nil => exact ⟨rfl, rfl⟩
  | cons d ds ih =>
    obtain ⟨hsize, hmerged⟩ := ih (c.add d)
    rw [List.foldl_cons, hsize, hmerged, outcomes, List.countP_cons, List.countP_cons]
    cases hf : c.index.find? d.key with
    | some id =>
      rw [add_of_find? hf, TypeIndex.insert_of_find? hf]
      simp [TypeIndex.size, Registration.isAdded]
      omega
    | none =>
      rw [add_of_find?_none hf, TypeIndex.insert_of_find?_none hf]
      simp [TypeIndex.size, Registration.isAdded]
      omega

/-! ### The whole run -/

/-- What the declarations of a run say about the state `c` that they lead to. -/
structure IsKeyedFold (ds : List Declaration) (c : Collection) : Prop where
  /-- Each step answers with a number that has a place in the records and in the texts. -/
  step : ∀ done d rest, ds = done ++ d :: rest → Registers done d
  /-- Records and texts have the same places at the end, too. -/
  texts_length : c.texts.length = c.index.size
  /-- There is one record for each key, in the order of the first parts. -/
  keys : c.index.records.map TypeRecord.key = (ds.map Declaration.key).eraseDups
  /-- A record is its first part with the further ones absorbed in order. -/
  records : c.index.records.map some =
    (ds.map Declaration.key).eraseDups.map fun k =>
      absorbed ((ds.filter fun d => decide (d.key = k)).map Declaration.record)
  /-- The text of a type is the lines of its parts in order. -/
  texts : c.texts =
    (ds.map Declaration.key).eraseDups.map fun k =>
      Text.join "\n" ((ds.filter fun d => decide (d.key = k)).map Declaration.text)
  /-- The group of a namespace is its records in the order of the index. -/
  group : ∀ s, c.index.group s = c.index.records.filter fun r => decide (r.scope = s)
  /-- The groups hold places of records only. -/
  members : ∀ e ∈ c.index.members, ∀ id ∈ e.2, id < c.index.records.length
  /-- The namespaces rise in the order of their bytes. -/
  scopes_rising : c.index.scopes.Pairwise fun s t => Text.bytes s < Text.bytes t
  /-- The namespaces are those of the declarations. -/
  scopes : ∀ s, s ∈ c.index.scopes ↔ ∃ d ∈ ds, d.record.scope = s
  /-- Each addition made one record. -/
  added_count : (outcomes empty ds).countP Registration.isAdded = c.index.size
  /-- The other answers were counted. -/
  merged_count : ((outcomes empty ds).countP fun o => !o.isAdded) = c.merged
  /-- Each declaration had one of the two answers. -/
  total : c.index.size + c.merged = ds.length

theorem mem_scopes (ds : List Declaration) (s : String) :
    s ∈ (ofList ds).index.scopes ↔ ∃ d ∈ ds, d.record.scope = s := by
  rw [(aligned ds).mem_scopes_iff, keys_index, List.mem_map]
  constructor
  · rintro ⟨k, hk, rfl⟩
    obtain ⟨d, hd, rfl⟩ := mem_keysOf.mp hk
    exact ⟨d, hd, rfl⟩
  · rintro ⟨d, hd, rfl⟩
    exact ⟨d.key, mem_keysOf.mpr ⟨d, hd, rfl⟩, rfl⟩

/-- **The merge loop is a fold by key.**  After any declarations the records, the texts
and the tables are what the declarations say, and each answer on the way was the number
of the type. -/
theorem isKeyedFold_ofList (ds : List Declaration) : IsKeyedFold ds (ofList ds) := by
  obtain ⟨hsize, hmerged⟩ := foldl_add_counts empty ds
  have hadded : (outcomes empty ds).countP Registration.isAdded = (ofList ds).index.size :=
    (hsize.trans (Nat.zero_add _)).symm
  have hother : ((outcomes empty ds).countP fun o => !o.isAdded) = (ofList ds).merged :=
    (hmerged.trans (Nat.zero_add _)).symm
  exact {
    step := fun done d _ _ => registers done d
    texts_length := texts_length ds
    keys := keys_index ds
    records := ofList_records ds
    texts := ofList_texts ds
    group := (aligned ds).group_eq_filter
    members := fun _ he _ hid => (aligned ds).lt_of_mem_members he hid
    scopes_rising := (aligned ds).scopes_rising.imp fun hlt => Text.bytes_lt_iff.mpr hlt
    scopes := mem_scopes ds
    added_count := hadded
    merged_count := hother
    total := by
      rw [← hadded, ← hother, ← length_outcomes empty ds,
        List.length_eq_countP_add_countP Registration.isAdded]
      simp }

end Collection
end TypeAtlas
