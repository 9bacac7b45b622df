import TypeAtlas.Index.Basic
import TypeAtlas.Proofs.Record.Identifier
import TypeAtlas.Proofs.Text.ByteOrder
import Mathlib.Data.List.Nodup

/-! # The tables of an index agree with its records

An index is three structures: the records, a table from keys to numbers and a table
from namespaces to lists of numbers.  Only `TypeIndex.insert` writes to them, and it
writes to all three, so the numbers in the tables could come apart from the places
of the records.  They do not: `Aligned` says what the tables hold, registration keeps
it (`Aligned.insert`), and so every index that is reached by registrations has it
(`aligned_ofList`).

A further declaration of a known type changes a record and neither table.  This is
why `Aligned` speaks of the keys of the records only (`TypeIndex.keys`): `absorb`
keeps the key.

What the rest of the library uses of an aligned index is that a group is a part of
the records (`Aligned.group_eq_filter`) and that the namespaces are listed in rising
order.
-/
namespace TypeAtlas

@[simp] theorem TypeRecord.key_absorb (r other : TypeRecord) : (r.absorb other).key = r.key := rfl

namespace TypeIndex

/-! ### Putting a number into the table of namespaces -/

theorem mem_map_fst_enroll (scope s : String) (id : Nat) (m : List (String × List Nat)) :
    s ∈ (enroll scope id m).map Prod.fst ↔ s = scope ∨ s ∈ m.map Prod.fst := by
  induction m with
  | nil => simp [enroll]
  | cons e m ih =>
    obtain ⟨t, ids⟩ := e
    simp only [enroll]
    split
    · simp
    · rename_i h
      have he : scope = t := String.toList_inj.mp (Path.compareChars_eq_eq_iff.mp h)
      simp [he]
    · simp only [List.map_cons, List.mem_cons, ih]
      tauto

/-- The table stays in rising order. -/
theorem enroll_rising (scope : String) (id : Nat) {m : List (String × List Nat)}
    (hm : (m.map Prod.fst).Pairwise (· < ·)) :
    ((enroll scope id m).map Prod.fst).Pairwise (· < ·) := by
  induction m with
  | nil => simp [enroll]
  | cons e m ih =>
    obtain ⟨t, ids⟩ := e
    obtain ⟨hhead, htail⟩ := List.pairwise_cons.mp hm
    simp only [enroll]
    split
    · rename_i h
      have hlt : scope < t := Path.compareChars_eq_lt_iff.mp h
      refine List.pairwise_cons.mpr ⟨?_, hm⟩
      intro s hs
      rcases List.mem_cons.mp hs with rfl | hs
      · exact hlt
      · exact lt_trans hlt (hhead s hs)
    · exact hm
    · rename_i h
      have hgt : t < scope := Path.compareChars_eq_gt_iff.mp h
      refine List.pairwise_cons.mpr ⟨?_, ih htail⟩
      intro s hs
      rcases (mem_map_fst_enroll scope s id m).mp hs with rfl | hs
      · exact hgt
      · exact hhead s hs

theorem lookup_cons_ite {α β : Type} [BEq α] [LawfulBEq α] [DecidableEq α] (a k : α)
    (v : β) (m : List (α × β)) :
    ((k, v) :: m).lookup a = if a = k then some v else m.lookup a := by
  rw [List.lookup_cons]
  by_cases he : a = k
  · simp [he]
  · simp [he, beq_false_of_ne he]

theorem lookup_eq_none_of_forall_lt {s : String} {m : List (String × List Nat)}
    (h : ∀ t ∈ m.map Prod.fst, s < t) : m.lookup s = none := by
  rw [List.lookup_eq_none_iff]
  intro e he
  exact bne_iff_ne.mpr (ne_of_lt (h e.1 (List.mem_map.mpr ⟨e, he, rfl⟩)))

/-- The number stands behind the others of its namespace, and the rest of the table is
as before. -/
theorem lookup_enroll (scope s : String) (id : Nat) {m : List (String × List Nat)}
    (hm : (m.map Prod.fst).Pairwise (· < ·)) :
    (enroll scope id m).lookup s =
      if s = scope then some ((m.lookup scope).getD [] ++ [id]) else m.lookup s := by
  induction m with
  | nil => rw [enroll, lookup_cons_ite]; rfl
  | cons e m ih =>
    obtain ⟨t, ids⟩ := e
    obtain ⟨hhead, htail⟩ := List.pairwise_cons.mp hm
    simp only [enroll]
    split
    · rename_i h
      have hlt : scope < t := Path.compareChars_eq_lt_iff.mp h
      have hnone : ((t, ids) :: m).lookup scope = none := by
        refine lookup_eq_none_of_forall_lt fun s hs => ?_
        rcases List.mem_cons.mp hs with rfl | hs
        · exact hlt
        · exact lt_trans hlt (hhead s hs)
      rw [hnone, lookup_cons_ite]
      rfl
    · rename_i h
      have he : scope = t := String.toList_inj.mp (Path.compareChars_eq_eq_iff.mp h)
      subst he
      rw [lookup_cons_ite, lookup_cons_ite, lookup_cons_ite]
      by_cases hs : s = scope <;> simp [hs]
    · rename_i h
      have hgt : t < scope := Path.compareChars_eq_gt_iff.mp h
      rw [lookup_cons_ite, lookup_cons_ite, lookup_cons_ite, ih htail, if_neg (ne_of_gt hgt)]
      by_cases hs : s = t
      · subst hs
        simp [ne_of_lt hgt]
      · simp [hs]

/-! ### The invariant -/

/-- The keys of the records, by number. -/
def keys (ix : TypeIndex) : List (String × String) :=
  ix.records.map TypeRecord.key

/-- The tables hold what the records say: keys are not repeated, a number is found by
exactly the key of its record, a namespace has the numbers of its records in rising
order, and the namespaces that occur are listed in rising order. -/
structure Aligned (ix : TypeIndex) : Prop where
  keys_nodup : ix.keys.Nodup
  find?_iff : ∀ k id, ix.find? k = some id ↔ ix.keys[id]? = some k
  members_eq : ∀ s, (ix.members.lookup s).getD [] = ix.keys.findIdxs fun k => decide (k.1 = s)
  scopes_rising : ix.scopes.Pairwise (· < ·)
  mem_scopes_iff : ∀ s, s ∈ ix.scopes ↔ s ∈ ix.keys.map Prod.fst

theorem aligned_empty : Aligned empty where
  keys_nodup := List.nodup_nil
  find?_iff := by simp [empty, find?, keys]
  members_eq := by simp [empty, keys]
  scopes_rising := List.Pairwise.nil
  mem_scopes_iff := by simp [empty, scopes, keys]

section
variable {ix : TypeIndex} (h : ix.Aligned)
include h

theorem Aligned.find?_eq_none_iff (k : String × String) : ix.find? k = none ↔ k ∉ ix.keys := by
  rw [Option.eq_none_iff_forall_ne_some, List.mem_iff_getElem?, not_exists]
  exact forall_congr' fun id => not_congr (h.find?_iff k id)

/-- A number that is found is the place of a record. -/
theorem Aligned.lt_size {k : String × String} {id : Nat} (hid : ix.find? k = some id) :
    id < ix.size := by
  obtain ⟨hlt, -⟩ := List.getElem?_eq_some_iff.mp ((h.find?_iff k id).mp hid)
  simpa [keys, size] using hlt

end

/-! ### Registration -/

/-- A declaration of a known type goes into its record. -/
theorem insert_of_find? {ix : TypeIndex} {r : TypeRecord} {id : Nat}
    (hid : ix.find? r.key = some id) :
    ix.insert r =
      ({ ix with records := ix.records.modify id fun first => first.absorb r }, .merged id) := by
  simp only [insert, hid]

/-- A declaration of an unknown type gets the next number. -/
theorem insert_of_find?_none {ix : TypeIndex} {r : TypeRecord} (hnone : ix.find? r.key = none) :
    ix.insert r =
      (⟨ix.records ++ [r], (r.key, ix.size) :: ix.numbers, enroll r.scope ix.size ix.members⟩,
        .added ix.size) := by
  simp only [insert, hnone, size]

theorem keys_modify_absorb (l : List TypeRecord) (r : TypeRecord) (id : Nat) :
    (l.modify id fun first => first.absorb r).map TypeRecord.key = l.map TypeRecord.key := by
  refine List.ext_getElem (by simp) fun i h1 h2 => ?_
  rw [List.getElem_map, List.getElem_map, List.getElem_modify]
  split <;> rfl

/-- A record that absorbs a declaration keeps its key, so the tables stay right. -/
theorem Aligned.modify {ix : TypeIndex} (h : ix.Aligned) (r : TypeRecord) (id : Nat) :
    Aligned { ix with records := ix.records.modify id fun first => first.absorb r } := by
  have hkeys : keys { ix with records := ix.records.modify id fun first => first.absorb r } =
      ix.keys := keys_modify_absorb ix.records r id
  constructor
  · rw [hkeys]; exact h.keys_nodup
  · rw [hkeys]; exact h.find?_iff
  · rw [hkeys]; exact h.members_eq
  · exact h.scopes_rising
  · rw [hkeys]; exact h.mem_scopes_iff

theorem getElem?_concat_eq_some_iff {α : Type} {l : List α} {a b : α} {i : Nat} :
    (l ++ [a])[i]? = some b ↔ l[i]? = some b ∨ i = l.length ∧ b = a := by
  rcases Nat.lt_trichotomy i l.length with hlt | he | hgt
  · rw [List.getElem?_append_left hlt]
    simp [Nat.ne_of_lt hlt]
  · subst he
    rw [List.getElem?_concat_length, List.getElem?_eq_none (Nat.le_refl _)]
    simp [eq_comm]
  · rw [List.getElem?_eq_none (Nat.le_of_lt hgt), List.getElem?_eq_none (by simp; omega)]
    simp [Nat.ne_of_gt hgt]

/-- A new record gets the next number in both tables. -/
theorem Aligned.concat {ix : TypeIndex} (h : ix.Aligned) {r : TypeRecord}
    (hnew : r.key ∉ ix.keys) :
    Aligned ⟨ix.records ++ [r], (r.key, ix.size) :: ix.numbers,
      enroll r.scope ix.size ix.members⟩ := by
  have hsize : ix.size = ix.keys.length := by simp [size, keys]
  have hkeys : keys ⟨ix.records ++ [r], (r.key, ix.size) :: ix.numbers,
      enroll r.scope ix.size ix.members⟩ = ix.keys ++ [r.key] := by simp [keys]
  constructor
  · rw [hkeys]
    exact List.nodup_append.mpr ⟨h.keys_nodup, List.nodup_singleton _, by
      intro a ha b hb he
      rw [List.mem_singleton] at hb
      exact hnew (hb ▸ he ▸ ha)⟩
  · intro k id
    rw [hkeys, hsize, getElem?_concat_eq_some_iff, ← h.find?_iff]
    change List.lookup k ((r.key, ix.keys.length) :: ix.numbers) = some id ↔ _
    rw [lookup_cons_ite]
    by_cases hk : k = r.key
    · have hnone : ix.find? k = none := (h.find?_eq_none_iff k).mpr (hk ▸ hnew)
      rw [if_pos hk, hnone]
      simp [hk, eq_comm]
    · rw [if_neg hk]
      simp only [hk, and_false, or_false]
      rfl
  · intro s
    rw [hkeys, List.findIdxs_append, Nat.zero_add, List.findIdxs_singleton, ← h.members_eq,
      lookup_enroll _ _ _ h.scopes_rising, hsize]
    by_cases hs : s = r.scope
    · simp [hs, TypeRecord.key]
    · simp [hs, TypeRecord.key, Ne.symm hs]
  · exact enroll_rising _ _ h.scopes_rising
  · intro s
    rw [hkeys, List.map_append, List.mem_append, ← h.mem_scopes_iff]
    change s ∈ (enroll r.scope ix.size ix.members).map Prod.fst ↔ _
    rw [mem_map_fst_enroll]
    simp only [List.map_cons, List.map_nil, List.mem_singleton, TypeRecord.key]
    exact or_comm

/-- **Registration keeps the tables aligned.** -/
theorem Aligned.insert {ix : TypeIndex} (h : ix.Aligned) (r : TypeRecord) :
    (ix.insert r).1.Aligned := by
  cases hf : ix.find? r.key with
  | some id =>
    rw [insert_of_find? hf]
    exact h.modify r id
  | none =>
    rw [insert_of_find?_none hf]
    exact h.concat ((h.find?_eq_none_iff _).mp hf)

theorem Aligned.insertAll {ix : TypeIndex} (h : ix.Aligned) (rs : List TypeRecord) :
    (ix.insertAll rs).Aligned := by
  induction rs generalizing ix with
  | nil => exact h
  | cons r rs ih => exact ih (h.insert r)

/-- **Every index that is reached by registrations is aligned.** -/
theorem aligned_ofList (rs : List TypeRecord) : (ofList rs).Aligned :=
  aligned_empty.insertAll rs

/-! ### What an aligned index shows -/

theorem select_findIdxs (ix : TypeIndex) (p : TypeRecord → Bool) :
    ix.select (ix.records.findIdxs p) = ix.records.filter p := by
  unfold select
  induction ix.records with
  | nil => rfl
  | cons r rs ih =>
    rw [List.findIdxs_cons, List.findIdxs_start, List.filter_cons, ← ih]
    split <;> simp [List.filterMap_map]

section
variable {ix : TypeIndex} (h : ix.Aligned)
include h

/-- The types of a namespace are its records, in the order of the index. -/
theorem Aligned.group_eq_filter (s : String) :
    ix.group s = ix.records.filter fun r => decide (r.scope = s) := by
  rw [group, h.members_eq, keys, List.findIdxs_map]
  exact ix.select_findIdxs _

theorem Aligned.mem_group_iff {s : String} {r : TypeRecord} :
    r ∈ ix.group s ↔ r ∈ ix.records ∧ r.scope = s := by
  simp [h.group_eq_filter]

theorem Aligned.mem_scopes {s : String} : s ∈ ix.scopes ↔ ∃ r ∈ ix.records, r.scope = s := by
  rw [h.mem_scopes_iff, keys, List.map_map, List.mem_map]
  rfl

theorem Aligned.lookup_members {e : String × List Nat} (he : e ∈ ix.members) :
    ix.members.lookup e.1 = some e.2 := by
  have hnodup : (ix.members.map Prod.fst).Nodup := h.scopes_rising.imp fun hlt => ne_of_lt hlt
  rw [List.lookup_eq_some_iff]
  obtain ⟨l, r, hl⟩ := List.append_of_mem he
  refine ⟨l, r, hl, fun p hp => ?_⟩
  rw [hl, List.map_append, List.map_cons] at hnodup
  have hdisj := (List.nodup_append.mp hnodup).2.2
  have hne := hdisj p.1 (List.mem_map.mpr ⟨p, hp, rfl⟩) e.1 List.mem_cons_self
  exact bne_iff_ne.mpr (Ne.symm hne)

/-- The numbers in the table of namespaces are places of records. -/
theorem Aligned.lt_of_mem_members {e : String × List Nat} (he : e ∈ ix.members) {id : Nat}
    (hid : id ∈ e.2) : id < ix.size := by
  have hids := h.members_eq e.1
  rw [h.lookup_members he, Option.getD_some] at hids
  rw [hids] at hid
  obtain ⟨hlt, -⟩ := List.mem_findIdxs_iff_exists_getElem_pos.mp hid
  simpa [keys, size] using hlt

/-- The list of the groups is the groups of the list of namespaces. -/
theorem Aligned.groups_eq_map : ix.groups = ix.scopes.map fun s => (s, ix.group s) := by
  rw [groups, scopes, List.map_map]
  refine List.map_congr_left fun e he => ?_
  simp [group, h.lookup_members he]

/-- A key has at most one record. -/
theorem Aligned.eq_of_key_eq {a b : TypeRecord} (ha : a ∈ ix.records) (hb : b ∈ ix.records)
    (he : a.key = b.key) : a = b :=
  List.inj_on_of_nodup_map h.keys_nodup ha hb he

/-- Where no name has a dot, an identifier has at most one record. -/
theorem Aligned.eq_of_identifier_eq (hname : ∀ r ∈ ix.records, '.' ∉ r.name.toList)
    {a b : TypeRecord} (ha : a ∈ ix.records) (hb : b ∈ ix.records)
    (he : a.identifier = b.identifier) : a = b :=
  h.eq_of_key_eq ha hb ((TypeRecord.identifier_eq_iff (hname a ha) (hname b hb)).mp he)

end

/-! ### What every record of an index has -/

theorem forall_insert {P : TypeRecord → Prop} {ix : TypeIndex} {r : TypeRecord}
    (habsorb : ∀ a b, P a → P b → P (a.absorb b)) (hix : ∀ a ∈ ix.records, P a) (hr : P r) :
    ∀ a ∈ (ix.insert r).1.records, P a := by
  intro a ha
  cases hf : ix.find? r.key with
  | some id =>
    rw [insert_of_find? hf] at ha
    obtain ⟨i, hi, rfl⟩ := List.mem_iff_getElem.mp ha
    simp only [List.getElem_modify]
    have hi' : i < ix.records.length := by simpa using hi
    split
    · exact habsorb _ _ (hix _ (List.getElem_mem hi')) hr
    · exact hix _ (List.getElem_mem hi')
  | none =>
    rw [insert_of_find?_none hf] at ha
    rcases List.mem_append.mp ha with ha | ha
    · exact hix a ha
    · exact List.mem_singleton.mp ha ▸ hr

theorem forall_insertAll {P : TypeRecord → Prop} {ix : TypeIndex} {rs : List TypeRecord}
    (habsorb : ∀ a b, P a → P b → P (a.absorb b)) (hix : ∀ a ∈ ix.records, P a)
    (hrs : ∀ r ∈ rs, P r) : ∀ a ∈ (ix.insertAll rs).records, P a := by
  induction rs generalizing ix with
  | nil => exact hix
  | cons r rs ih =>
    exact ih (forall_insert habsorb hix (hrs r List.mem_cons_self))
      fun a ha => hrs a (List.mem_cons_of_mem r ha)

/-- What all declarations have and `absorb` keeps, all records of their index have. -/
theorem forall_records_ofList {P : TypeRecord → Prop}
    (habsorb : ∀ a b, P a → P b → P (a.absorb b)) {rs : List TypeRecord} (hrs : ∀ r ∈ rs, P r) :
    ∀ a ∈ (ofList rs).records, P a :=
  forall_insertAll habsorb (fun _ ha => absurd ha List.not_mem_nil) hrs

end TypeIndex
end TypeAtlas
