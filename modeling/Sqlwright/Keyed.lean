/-!
# Keyed lists

Values under distinct keys, in the order in which the keys first came. Writing to a key that is
present keeps its place; erasing one keeps the order of the others.
-/

namespace Sqlwright

/-- A list of values under distinct text keys. -/
structure Keyed (α : Type) where
  entries : List (String × α)
  nodup : (entries.map Prod.fst).Nodup
  deriving DecidableEq

namespace Keyed

variable {α β : Type}

instance [Repr α] : Repr (Keyed α) := ⟨fun k n => reprPrec k.entries n⟩

/-- No entries. -/
def empty : Keyed α := ⟨[], by simp⟩

instance : Inhabited (Keyed α) := ⟨empty⟩

/-- The keys in order. -/
def keys (k : Keyed α) : List String := k.entries.map Prod.fst

/-- The value under a key. -/
def get? (k : Keyed α) (key : String) : Option α := k.entries.lookup key

/-- Whether a key is present. -/
def contains (k : Keyed α) (key : String) : Bool := decide (key ∈ k.keys)

/-- Whether there are no entries. -/
def isEmpty (k : Keyed α) : Bool := k.entries.isEmpty

/-- The number of entries. -/
def size (k : Keyed α) : Nat := k.entries.length

/-- Writes a value at the place of its key, or after all others when the key is new. -/
def put (key : String) (a : α) : List (String × α) → List (String × α)
  | [] => [(key, a)]
  | e :: es => if e.1 = key then (key, a) :: es else e :: put key a es

theorem keys_put (key : String) (a : α) (es : List (String × α)) :
    (put key a es).map Prod.fst =
      if key ∈ es.map Prod.fst then es.map Prod.fst else es.map Prod.fst ++ [key] := by
  induction es with
  | nil => simp [put]
  | cons e es ih =>
    by_cases h : e.1 = key
    · simp [put, h]
    · have h' : key ≠ e.1 := fun h' => h h'.symm
      rw [put, if_neg h, List.map_cons, ih]
      by_cases hm : key ∈ es.map Prod.fst
      · simp [hm]
      · simp only [hm, if_false, List.map_cons, List.mem_cons, h', false_or, List.cons_append]

/-- Inserts a value, keeping the place of a key that is present. -/
def insert (k : Keyed α) (key : String) (a : α) : Keyed α where
  entries := put key a k.entries
  nodup := by
    rw [keys_put]
    split
    · exact k.nodup
    · rename_i h
      rw [List.nodup_append]
      refine ⟨k.nodup, by simp, ?_⟩
      intro x hx y hy hxy
      rw [List.mem_singleton] at hy
      exact h (hy ▸ hxy ▸ hx)

/-- The entries whose keys pass a test, in their order. -/
def filterKeys (k : Keyed α) (keep : String → Bool) : Keyed α where
  entries := k.entries.filter fun e => keep e.1
  nodup := k.nodup.sublist ((List.filter_sublist).map Prod.fst)

/-- Removes a key; the others keep their order. -/
def erase (k : Keyed α) (key : String) : Keyed α := k.filterKeys fun other => other != key

/-- Inserts pairs one after the other: of a repeated key the last value stays, at the place of the
first. -/
def ofList (pairs : List (String × α)) : Keyed α :=
  pairs.foldl (fun k p => k.insert p.1 p.2) empty

/-- Changes every value. -/
def mapValues (f : α → β) (k : Keyed α) : Keyed β where
  entries := k.entries.map fun e => (e.1, f e.2)
  nodup := by
    have h : (k.entries.map fun e => (e.1, f e.2)).map Prod.fst = k.entries.map Prod.fst := by
      simp [Function.comp_def]
    rw [h]
    exact k.nodup

@[simp] theorem entries_empty : (empty : Keyed α).entries = [] := rfl

/-- Keyed lists of the same entries are the same. -/
theorem ext {k l : Keyed α} (h : k.entries = l.entries) : k = l := by
  cases k
  cases l
  cases h
  rfl

theorem isEmpty_eq_false_iff {k : Keyed α} : k.isEmpty = false ↔ k.entries ≠ [] := by
  rw [isEmpty, List.isEmpty_eq_false_iff]

/-- A new key comes after all others. -/
theorem put_of_not_mem {key : String} {es : List (String × α)} (h : key ∉ es.map Prod.fst)
    (a : α) : put key a es = es ++ [(key, a)] := by
  induction es with
  | nil => rfl
  | cons e es ih =>
    rw [List.map_cons, List.mem_cons, not_or] at h
    rw [put, if_neg (Ne.symm h.1), ih h.2, List.cons_append]

/-- A key that is present is written to in its place, and nowhere else. -/
theorem put_of_mem {key : String} {es : List (String × α)} (hn : (es.map Prod.fst).Nodup)
    (h : key ∈ es.map Prod.fst) (a : α) :
    put key a es = es.map fun e => if e.1 = key then (key, a) else e := by
  induction es with
  | nil => cases h
  | cons e es ih =>
    rw [List.map_cons, List.nodup_cons] at hn
    by_cases he : e.1 = key
    · -- the entries behind it have other keys
      have hrest : es.map (fun e => if e.1 = key then (key, a) else e) = es.map id := by
        refine List.map_congr_left fun other hother => if_neg fun hkey => ?_
        exact hn.1 (by rw [he, ← hkey]; exact List.mem_map_of_mem hother)
      rw [put, if_pos he, List.map_cons, if_pos he, hrest, List.map_id]
    · have hmem : key ∈ es.map Prod.fst := (List.mem_cons.1 h).resolve_left (Ne.symm he)
      rw [put, if_neg he, List.map_cons, if_neg he, ih hn.2 hmem]

theorem entries_foldl_insert {k : Keyed α} {pairs : List (String × α)}
    (h : (k.keys ++ pairs.map Prod.fst).Nodup) :
    (pairs.foldl (fun k p => k.insert p.1 p.2) k).entries = k.entries ++ pairs := by
  induction pairs generalizing k with
  | nil => exact (List.append_nil _).symm
  | cons p pairs ih =>
    have hnew : p.1 ∉ k.keys := fun hp =>
      (List.nodup_append.1 h).2.2 p.1 hp p.1 (by simp) rfl
    have hentries : (k.insert p.1 p.2).entries = k.entries ++ [p] := put_of_not_mem hnew p.2
    have hkeys : (k.insert p.1 p.2).keys = k.keys ++ [p.1] := by
      rw [keys, hentries, List.map_append]
      rfl
    rw [List.foldl_cons, ih (by rw [hkeys, List.append_assoc]; exact h), hentries,
      List.append_assoc, List.singleton_append]

/-- Pairs under distinct keys stay as they are. -/
theorem entries_ofList {pairs : List (String × α)} (h : (pairs.map Prod.fst).Nodup) :
    (ofList pairs).entries = pairs :=
  entries_foldl_insert (k := empty) h

theorem keys_insert (k : Keyed α) (key : String) (a : α) :
    (k.insert key a).keys = if key ∈ k.keys then k.keys else k.keys ++ [key] :=
  keys_put key a k.entries

theorem lookup_put_self (key : String) (a : α) (es : List (String × α)) :
    (put key a es).lookup key = some a := by
  induction es with
  | nil => simp [put]
  | cons e es ih =>
    by_cases h : e.1 = key
    · simp [put, h]
    · rw [put, if_neg h, List.lookup_cons, ih]
      have h' : (key == e.1) = false := by simpa using fun h' => h (Eq.symm h')
      simp [h']

theorem lookup_put_of_ne {key other : String} (h : other ≠ key) (a : α)
    (es : List (String × α)) : (put key a es).lookup other = es.lookup other := by
  have h' : (other == key) = false := by simpa using h
  induction es with
  | nil => simp [put, List.lookup_cons, h']
  | cons e es ih =>
    by_cases he : e.1 = key
    · rw [put, if_pos he, List.lookup_cons, List.lookup_cons, he]
      simp [h']
    · rw [put, if_neg he, List.lookup_cons, List.lookup_cons, ih]

/-- What was inserted last is found. -/
@[simp] theorem get?_insert_self (k : Keyed α) (key : String) (a : α) :
    (k.insert key a).get? key = some a :=
  lookup_put_self key a k.entries

/-- Inserting under one key changes no other. -/
theorem get?_insert_of_ne (k : Keyed α) {key other : String} (h : other ≠ key) (a : α) :
    (k.insert key a).get? other = k.get? other :=
  lookup_put_of_ne h a k.entries

theorem exists_lookup_iff {es : List (String × α)} {key : String} :
    (∃ a, es.lookup key = some a) ↔ key ∈ es.map Prod.fst := by
  rw [← Option.isSome_iff_exists, List.lookup_isSome_iff, List.mem_map]
  simp only [beq_iff_eq, eq_comm (a := key)]

/-- The keys are those that something is found under. -/
theorem mem_keys_iff {k : Keyed α} {key : String} : key ∈ k.keys ↔ ∃ a, k.get? key = some a :=
  exists_lookup_iff.symm

theorem lookup_eq_some_iff_mem {es : List (String × α)} (hn : (es.map Prod.fst).Nodup)
    {key : String} {a : α} : es.lookup key = some a ↔ (key, a) ∈ es := by
  induction es with
  | nil => simp
  | cons e es ih =>
    rw [List.map_cons, List.nodup_cons] at hn
    rw [List.lookup_cons, List.mem_cons]
    by_cases he : e.1 = key
    · -- the key does not come again
      have hrest : (key, a) ∉ es := fun hm => hn.1 (he ▸ List.mem_map_of_mem hm)
      have hfound : (key == e.1) = true := by simp [he]
      rw [hfound, or_iff_left hrest, Option.some.injEq, Prod.ext_iff]
      exact ⟨fun h => ⟨he.symm, h.symm⟩, fun h => h.2.symm⟩
    · have hother : (key == e.1) = false := by simpa using Ne.symm he
      have hhead : (key, a) ≠ e := fun h => he (by rw [← h])
      rw [hother, ih hn.2, or_iff_right hhead]

/-- What is found under a key does not depend on the order of the entries. -/
theorem get?_of_perm {k l : Keyed α} (h : k.entries.Perm l.entries) : k.get? = l.get? := by
  funext key
  refine Option.ext fun a => ?_
  rw [get?, get?, lookup_eq_some_iff_mem k.nodup, lookup_eq_some_iff_mem l.nodup, h.mem_iff]

theorem keys_filterKeys (k : Keyed α) (keep : String → Bool) :
    (k.filterKeys keep).keys = k.keys.filter keep := by
  simp [keys, filterKeys, List.filter_map, Function.comp_def]

/-- Erasing keeps the order of the other keys. -/
theorem keys_erase (k : Keyed α) (key : String) :
    (k.erase key).keys = k.keys.filter (· != key) :=
  keys_filterKeys k _

/-- What was erased is not found. -/
@[simp] theorem get?_erase_self (k : Keyed α) (key : String) : (k.erase key).get? key = none := by
  have hkeys : key ∉ (k.erase key).keys := by simp [keys_erase]
  rw [mem_keys_iff] at hkeys
  exact Option.eq_none_iff_forall_ne_some.2 fun a ha => hkeys ⟨a, ha⟩

theorem lookup_filter_of_ne {key other : String} (h : other ≠ key) (es : List (String × α)) :
    (es.filter fun e => e.1 != key).lookup other = es.lookup other := by
  induction es with
  | nil => rfl
  | cons e es ih =>
    by_cases he : e.1 = key
    · have hother : (other == e.1) = false := by simpa [he] using h
      rw [List.filter_cons_of_neg (by simpa using he), ih, List.lookup_cons, hother]
    · rw [List.filter_cons_of_pos (by simpa using he), List.lookup_cons, List.lookup_cons, ih]

/-- Erasing one key changes no other. -/
theorem get?_erase_of_ne (k : Keyed α) {key other : String} (h : other ≠ key) :
    (k.erase key).get? other = k.get? other :=
  lookup_filter_of_ne h k.entries

end Keyed

end Sqlwright
