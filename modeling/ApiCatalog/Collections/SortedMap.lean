import ApiCatalog.Collections.Sorting

set_option autoImplicit false

/-!
# Maps in key order

A finite map from texts that is traversed in the order of its keys, which is the order of their
code points.

## Main definitions

* `ApiCatalog.SortedMap`: entries with strictly increasing keys.
* `SortedMap.ofList`: the map of a list of entries; the last value of a repeated key counts.

## Main results

* `SortedMap.sorted_insertIn`: an insertion keeps the entries in order.
* `SortedMap.isSome_find?_of_mem_keys`, `SortedMap.find?_of_mem_entries`: what is found in a map.
-/

namespace ApiCatalog

/-- A finite map from texts whose entries stand in strictly increasing order of their keys. -/
structure SortedMap (ν : Type) where
  entries : List (String × ν)
  sorted : entries.Pairwise fun a b => a.1 < b.1

namespace SortedMap

variable {ν : Type}

/-- The value that stands with a key in a list of entries. -/
def findIn (key : String) : List (String × ν) → Option ν
  | [] => none
  | (k, v) :: rest => if k = key then some v else findIn key rest

/-- A list of entries in which `key` has the value `value`, at its place in the order. -/
def insertIn (key : String) (value : ν) : List (String × ν) → List (String × ν)
  | [] => [(key, value)]
  | (k, v) :: rest =>
    if key < k then (key, value) :: (k, v) :: rest
    else if key = k then (key, value) :: rest
    else (k, v) :: insertIn key value rest

/-- An insertion adds its key, and no other. -/
theorem mem_keys_insertIn {key other : String} {value : ν} {entries : List (String × ν)} :
    other ∈ (insertIn key value entries).map Prod.fst ↔
      other = key ∨ other ∈ entries.map Prod.fst := by
  induction entries with
  | nil => simp [insertIn]
  | cons entry rest ih =>
    obtain ⟨k, v⟩ := entry
    simp only [insertIn]
    split
    · simp
    · split
      · rename_i h
        subst h
        simp
      · simp only [List.map_cons, List.mem_cons, ih]
        constructor
        · rintro (h | h | h) <;> simp [h]
        · rintro (h | h | h) <;> simp [h]

/-- An insertion keeps the keys in order. -/
theorem sorted_insertIn (key : String) (value : ν) {entries : List (String × ν)}
    (h : entries.Pairwise fun a b => a.1 < b.1) :
    (insertIn key value entries).Pairwise fun a b => a.1 < b.1 := by
  induction entries with
  | nil => simp [insertIn]
  | cons entry rest ih =>
    obtain ⟨k, v⟩ := entry
    obtain ⟨hhead, htail⟩ := List.pairwise_cons.1 h
    simp only [insertIn]
    split
    · rename_i hlt
      refine List.pairwise_cons.2 ⟨?_, h⟩
      intro b hb
      rcases List.mem_cons.1 hb with rfl | hb
      · exact hlt
      · exact String.lt_trans hlt (hhead b hb)
    · split
      · rename_i heq
        subst heq
        exact List.pairwise_cons.2 ⟨hhead, htail⟩
      · rename_i hlt hne
        refine List.pairwise_cons.2 ⟨?_, ih htail⟩
        intro b hb
        have hmem : b.1 ∈ (insertIn key value rest).map Prod.fst := List.mem_map_of_mem hb
        rcases mem_keys_insertIn.1 hmem with hbk | hbk
        · show k < b.1
          rw [hbk]
          exact lt_of_not_lt_of_ne hlt hne
        · obtain ⟨c, hc, hcb⟩ := List.mem_map.1 hbk
          show k < b.1
          rw [← hcb]
          exact hhead c hc

/-- The map without entries. -/
def empty : SortedMap ν :=
  ⟨[], List.Pairwise.nil⟩

instance : EmptyCollection (SortedMap ν) := ⟨empty⟩

instance : Inhabited (SortedMap ν) := ⟨empty⟩

/-- The keys, in increasing order. -/
def keys (map : SortedMap ν) : List String :=
  map.entries.map Prod.fst

/-- The values, in the order of their keys. -/
def values (map : SortedMap ν) : List ν :=
  map.entries.map Prod.snd

/-- The value of a key. -/
def find? (map : SortedMap ν) (key : String) : Option ν :=
  findIn key map.entries

/-- Gives a key a value. -/
def insert (map : SortedMap ν) (key : String) (value : ν) : SortedMap ν :=
  ⟨insertIn key value map.entries, sorted_insertIn key value map.sorted⟩

/-- The map of a list of entries; the last value of a repeated key counts. -/
def ofList (entries : List (String × ν)) : SortedMap ν :=
  entries.foldl (fun map entry => map.insert entry.1 entry.2) empty

/-! ## Laws -/

/-- Nothing is found exactly under the keys that are missing. -/
theorem findIn_eq_none_iff {key : String} {entries : List (String × ν)} :
    findIn key entries = none ↔ key ∉ entries.map Prod.fst := by
  induction entries with
  | nil => simp [findIn]
  | cons entry rest ih =>
    obtain ⟨k, v⟩ := entry
    by_cases h : k = key
    · simp [findIn, h]
    · have h' : ¬ key = k := fun e => h e.symm
      simp only [findIn, h, if_false, ih, List.map_cons, List.mem_cons, h', false_or]

/-- A key under which a value is found is a key of the map. -/
theorem mem_keys_of_find? {map : SortedMap ν} {key : String} {value : ν}
    (h : map.find? key = some value) : key ∈ map.keys := by
  by_cases hm : key ∈ map.keys
  · exact hm
  · rw [show map.find? key = none from findIn_eq_none_iff.2 hm] at h
    cases h

/-- Something is found under every key of the map. -/
theorem isSome_find?_of_mem_keys {map : SortedMap ν} {key : String} (h : key ∈ map.keys) :
    (map.find? key).isSome = true := by
  rw [Option.isSome_iff_ne_none]
  exact fun hnone => findIn_eq_none_iff.1 hnone h

/-- An entry is found under its key. -/
theorem find?_of_mem_entries {map : SortedMap ν} {key : String} {value : ν}
    (h : (key, value) ∈ map.entries) : map.find? key = some value := by
  obtain ⟨entries, hsorted⟩ := map
  show findIn key entries = some value
  change (key, value) ∈ entries at h
  induction entries with
  | nil => cases h
  | cons entry rest ih =>
    obtain ⟨k, v⟩ := entry
    obtain ⟨hhead, htail⟩ := List.pairwise_cons.1 hsorted
    rcases List.mem_cons.1 h with he | h
    · cases he
      simp [findIn]
    · have hne : ¬ k = key := fun e => String.lt_irrefl key (e ▸ hhead _ h)
      simp only [findIn, if_neg hne]
      exact ih htail h

/-- What is found under a key is an entry. -/
theorem mem_entries_of_find? {map : SortedMap ν} {key : String} {value : ν}
    (h : map.find? key = some value) : (key, value) ∈ map.entries := by
  obtain ⟨entries, hsorted⟩ := map
  change findIn key entries = some value at h
  show (key, value) ∈ entries
  clear hsorted
  induction entries with
  | nil => cases h
  | cons entry rest ih =>
    obtain ⟨k, v⟩ := entry
    rw [findIn] at h
    split at h
    · next he =>
      subst he
      cases h
      exact List.mem_cons_self
    · exact List.mem_cons_of_mem _ (ih h)

end SortedMap

end ApiCatalog
