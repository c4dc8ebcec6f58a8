set_option autoImplicit false

/-!
# Maps in insertion order

A finite map that is traversed in the order in which its keys first came in. Inserting a key
again replaces the value and leaves the key where it stands.

## Main definitions

* `ApiCatalog.OrderedMap`: the entries, with no key twice.
* `OrderedMap.insert`, `OrderedMap.insertNew`: insertion that takes the last, respectively keeps
  the first, value of a key.
* `OrderedMap.sameEntries`: equality up to the order of the entries.

## Main results

* `OrderedMap.find?_insert`: what is found after an insertion.
* `OrderedMap.keys_insert`: a new key comes last, a known one keeps its place.
* `OrderedMap.find?_insertAll`: what is found after insertions in a row.
-/

namespace ApiCatalog

/-- A finite map whose entries keep the order in which their keys first came in. -/
structure OrderedMap (κ ν : Type) where
  entries : List (κ × ν)
  nodup_keys : (entries.map Prod.fst).Nodup
deriving DecidableEq

namespace OrderedMap

variable {κ ν : Type} [DecidableEq κ]

/-- The value that stands with a key in a list of entries. -/
def findIn (key : κ) : List (κ × ν) → Option ν
  | [] => none
  | (k, v) :: rest => if k = key then some v else findIn key rest

/-- A list of entries in which `key` has the value `value`. -/
def insertIn (key : κ) (value : ν) : List (κ × ν) → List (κ × ν)
  | [] => [(key, value)]
  | (k, v) :: rest => if k = key then (key, value) :: rest else (k, v) :: insertIn key value rest

/-- An insertion puts its key at the end, unless it is there already. -/
theorem keys_insertIn (key : κ) (value : ν) (entries : List (κ × ν)) :
    (insertIn key value entries).map Prod.fst =
      if key ∈ entries.map Prod.fst then entries.map Prod.fst
      else entries.map Prod.fst ++ [key] := by
  induction entries with
  | nil => simp [insertIn]
  | cons entry rest ih =>
    obtain ⟨k, v⟩ := entry
    by_cases h : k = key
    · simp [insertIn, h]
    · have h' : ¬ key = k := fun e => h e.symm
      by_cases hm : key ∈ rest.map Prod.fst
      · rw [if_pos hm] at ih
        simp [insertIn, h, h', ih, hm]
      · rw [if_neg hm] at ih
        simp [insertIn, h, h', ih, hm]

/-- An insertion repeats no key. -/
theorem nodup_insertIn (key : κ) (value : ν) {entries : List (κ × ν)}
    (h : (entries.map Prod.fst).Nodup) : ((insertIn key value entries).map Prod.fst).Nodup := by
  rw [keys_insertIn]
  split
  · exact h
  · rename_i hm
    refine List.nodup_append.2 ⟨h, by simp, ?_⟩
    intro a ha b hb
    rw [List.mem_singleton] at hb
    subst hb
    exact fun e => hm (e ▸ ha)

/-- The map without entries. -/
def empty : OrderedMap κ ν :=
  ⟨[], List.nodup_nil⟩

instance : EmptyCollection (OrderedMap κ ν) := ⟨empty⟩

instance : Inhabited (OrderedMap κ ν) := ⟨empty⟩

/-- The keys, in order. -/
def keys (map : OrderedMap κ ν) : List κ :=
  map.entries.map Prod.fst

/-- The values, in the order of their keys. -/
def values (map : OrderedMap κ ν) : List ν :=
  map.entries.map Prod.snd

/-- The number of entries. -/
def size (map : OrderedMap κ ν) : Nat :=
  map.entries.length

/-- The value of a key. -/
def find? (map : OrderedMap κ ν) (key : κ) : Option ν :=
  findIn key map.entries

/-- Whether a key has a value. -/
def contains (map : OrderedMap κ ν) (key : κ) : Bool :=
  (map.find? key).isSome

/-- Gives a key a value: a new key comes last, a known one keeps its place. -/
def insert (map : OrderedMap κ ν) (key : κ) (value : ν) : OrderedMap κ ν :=
  ⟨insertIn key value map.entries, nodup_insertIn key value map.nodup_keys⟩

/-- Gives a key a value unless it has one. -/
def insertNew (map : OrderedMap κ ν) (key : κ) (value : ν) : OrderedMap κ ν :=
  if map.contains key then map else map.insert key value

/-- Inserts entries from left to right. -/
def insertAll (map : OrderedMap κ ν) (entries : List (κ × ν)) : OrderedMap κ ν :=
  entries.foldl (fun m entry => m.insert entry.1 entry.2) map

/-- The map of a list of entries: a repeated key keeps its first place and takes its last value. -/
def ofList (entries : List (κ × ν)) : OrderedMap κ ν :=
  insertAll empty entries

/-- Whether two maps have the same entries, in whatever order. -/
def sameEntries [DecidableEq ν] (a b : OrderedMap κ ν) : Bool :=
  a.size = b.size && a.entries.all fun entry => b.find? entry.1 = some entry.2

/-! ## Laws -/

/-- An insertion changes what is found under its key, and under no other. -/
theorem findIn_insertIn (key other : κ) (value : ν) (entries : List (κ × ν)) :
    findIn other (insertIn key value entries) =
      if key = other then some value else findIn other entries := by
  induction entries with
  | nil => simp [insertIn, findIn]
  | cons entry rest ih =>
    obtain ⟨k, v⟩ := entry
    by_cases h : k = key
    · subst h
      by_cases ho : k = other <;> simp [insertIn, findIn, ho]
    · by_cases ho : k = other
      · subst ho
        have h' : ¬ key = k := fun e => h e.symm
        simp [insertIn, findIn, h, h']
      · simp [insertIn, findIn, h, ho, ih]

/-- An insertion changes what is found under its key, and under no other. -/
@[simp]
theorem find?_insert (map : OrderedMap κ ν) (key other : κ) (value : ν) :
    (map.insert key value).find? other = if key = other then some value else map.find? other :=
  findIn_insertIn key other value map.entries

/-- A value is found exactly under the keys that are there. -/
theorem findIn_isSome_iff {key : κ} {entries : List (κ × ν)} :
    (findIn key entries).isSome ↔ key ∈ entries.map Prod.fst := by
  induction entries with
  | nil => simp [findIn]
  | cons entry rest ih =>
    obtain ⟨k, v⟩ := entry
    by_cases h : k = key
    · simp [findIn, h]
    · have h' : ¬ key = k := fun e => h e.symm
      simp only [findIn, h, if_false, ih, List.map_cons, List.mem_cons, h', false_or]

/-- A map contains exactly its keys. -/
theorem contains_iff {map : OrderedMap κ ν} {key : κ} : map.contains key ↔ key ∈ map.keys :=
  findIn_isSome_iff

/-- An insertion puts its key at the end, unless it is there already. -/
theorem keys_insert (map : OrderedMap κ ν) (key : κ) (value : ν) :
    (map.insert key value).keys = if key ∈ map.keys then map.keys else map.keys ++ [key] :=
  keys_insertIn key value map.entries

/-- After an insertion the entries are the new one and old ones. -/
theorem mem_insertIn {key : κ} {value : ν} {entries : List (κ × ν)} {entry : κ × ν}
    (h : entry ∈ insertIn key value entries) : entry = (key, value) ∨ entry ∈ entries := by
  induction entries with
  | nil => exact .inl (List.mem_singleton.1 h)
  | cons other rest ih =>
    obtain ⟨k, v⟩ := other
    simp only [insertIn] at h
    split at h
    · next hsame =>
      rcases List.mem_cons.1 h with h | h
      · exact .inl (hsame ▸ h)
      · exact .inr (List.mem_cons_of_mem (k, v) h)
    · rcases List.mem_cons.1 h with h | h
      · exact .inr (List.mem_cons.2 (.inl h))
      · exact (ih h).imp_right (List.mem_cons_of_mem (k, v))

/-- After an insertion the entries are the new one and old ones. -/
theorem mem_entries_insert {map : OrderedMap κ ν} {key : κ} {value : ν} {entry : κ × ν}
    (h : entry ∈ (map.insert key value).entries) : entry = (key, value) ∨ entry ∈ map.entries :=
  mem_insertIn h

/-- After an insertion the values are the new one and old ones. -/
theorem mem_values_insert {map : OrderedMap κ ν} {key : κ} {value v : ν}
    (h : v ∈ (map.insert key value).values) : v = value ∨ v ∈ map.values := by
  obtain ⟨entry, hentry, rfl⟩ := List.mem_map.1 h
  rcases mem_entries_insert hentry with rfl | hold
  · exact .inl rfl
  · exact .inr (List.mem_map_of_mem hold)

/-- The value of a new key comes after the others. -/
theorem values_insertIn_of_new {key : κ} {value : ν} {entries : List (κ × ν)}
    (h : findIn key entries = none) :
    (insertIn key value entries).map Prod.snd = entries.map Prod.snd ++ [value] := by
  induction entries with
  | nil => rfl
  | cons entry rest ih =>
    obtain ⟨k, v⟩ := entry
    rw [findIn] at h
    split at h
    · cases h
    · next hne =>
      rw [insertIn, if_neg hne, List.map_cons, ih h]
      rfl

/-- The value of a new key comes after the others. -/
theorem values_insert_of_new {map : OrderedMap κ ν} {key : κ} {value : ν}
    (h : map.find? key = none) : (map.insert key value).values = map.values ++ [value] :=
  values_insertIn_of_new h

/-- The values of a map of entries are among those of the entries. -/
theorem mem_values_ofList {entries : List (κ × ν)} {value : ν}
    (h : value ∈ (ofList entries).values) : value ∈ entries.map Prod.snd := by
  have hall : ∀ map : OrderedMap κ ν, value ∈ (map.insertAll entries).values →
      value ∈ map.values ∨ value ∈ entries.map Prod.snd := by
    clear h
    induction entries with
    | nil => exact fun _ => .inl
    | cons entry rest ih =>
      intro map h
      rw [List.map_cons, List.mem_cons]
      rcases ih (map.insert entry.1 entry.2) h with h | h
      · rcases mem_values_insert h with h | h
        · exact .inr (.inl h)
        · exact .inl h
      · exact .inr (.inr h)
  exact (hall .empty h).resolve_left (fun h => nomatch h)

/-- Nothing is found in the empty map. -/
@[simp]
theorem find?_empty (key : κ) : (empty : OrderedMap κ ν).find? key = none := rfl

/-- Among entries with distinct keys, those of a key are what is found under it. -/
theorem findIn_eq_some_iff {key : κ} {value : ν} {entries : List (κ × ν)}
    (h : (entries.map Prod.fst).Nodup) :
    findIn key entries = some value ↔ (key, value) ∈ entries := by
  induction entries with
  | nil => simp [findIn]
  | cons entry rest ih =>
    obtain ⟨k, v⟩ := entry
    obtain ⟨hnew, hrest⟩ := List.nodup_cons.1 h
    rw [findIn, List.mem_cons]
    split
    · next he =>
      subst he
      have hnone : (k, value) ∉ rest := fun hmem => hnew (List.mem_map.2 ⟨_, hmem, rfl⟩)
      simp [hnone, eq_comm]
    · next hne =>
      have hne' : ¬ key = k := fun e => hne e.symm
      rw [ih hrest]
      simp [hne']

/-- What is found under a key is an entry, and the other way round. -/
theorem find?_eq_some_iff {map : OrderedMap κ ν} {key : κ} {value : ν} :
    map.find? key = some value ↔ (key, value) ∈ map.entries :=
  findIn_eq_some_iff map.nodup_keys

/-- An insertion that keeps what is there changes only what is found under a new key. -/
theorem find?_insertNew (map : OrderedMap κ ν) (key other : κ) (value : ν) :
    (map.insertNew key value).find? other =
      (map.find? other).or (if key = other then some value else none) := by
  unfold insertNew contains
  by_cases h : key = other
  · subst h
    cases hfind : map.find? key <;> simp [hfind]
  · cases hfind : map.find? key <;> simp [h]

/-- Insertions in a row are made one part after the other. -/
theorem insertAll_append (map : OrderedMap κ ν) (entries others : List (κ × ν)) :
    map.insertAll (entries ++ others) = (map.insertAll entries).insertAll others :=
  List.foldl_append

/-- After insertions in a row the last entry of a key is found, or else what was there before. -/
theorem find?_insertAll (map : OrderedMap κ ν) (entries : List (κ × ν)) (key : κ) :
    (map.insertAll entries).find? key = (findIn key entries.reverse).or (map.find? key) := by
  induction entries generalizing map with
  | nil => rfl
  | cons entry rest ih =>
    have hlast : ∀ entries : List (κ × ν), findIn key (entries ++ [entry]) =
        (findIn key entries).or (if entry.1 = key then some entry.2 else none) := by
      intro entries
      induction entries with
      | nil => rfl
      | cons other others ih =>
        rw [List.cons_append, findIn, findIn, ih]
        split <;> rfl
    show ((map.insert entry.1 entry.2).insertAll rest).find? key = _
    rw [ih, List.reverse_cons, hlast, find?_insert, Option.or_assoc]
    split <;> rfl

/-- The keys of a map of entries are those of the entries. -/
theorem mem_keys_ofList {entries : List (κ × ν)} {key : κ} :
    key ∈ (ofList entries).keys ↔ key ∈ entries.map Prod.fst := by
  rw [← contains_iff, contains, ofList, find?_insertAll, find?_empty, Option.or_none,
    findIn_isSome_iff, List.map_reverse, List.mem_reverse]

/-- After the insertion of a map its values are found, or else what was there before. -/
theorem find?_insertAll_entries (map other : OrderedMap κ ν) (key : κ) :
    (map.insertAll other.entries).find? key = (other.find? key).or (map.find? key) := by
  have hreverse : findIn key other.entries.reverse = other.find? key := by
    refine Option.ext fun value => ?_
    rw [findIn_eq_some_iff, find?_eq_some_iff, List.mem_reverse]
    rw [List.map_reverse]
    exact (List.reverse_perm _).nodup_iff.2 other.nodup_keys
  rw [find?_insertAll, hreverse]

end OrderedMap

end ApiCatalog
