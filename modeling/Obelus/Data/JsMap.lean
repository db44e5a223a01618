import Mathlib.Data.List.Count
import Mathlib.Data.List.Induction
import Mathlib.Data.List.Perm.Basic
import Obelus.Data.Table

/-!
# Insertion-ordered maps and sets

`JsMap` is the map of the source language: entries are kept in the order in
which their keys were first set, and setting a present key replaces its value
in place.  `JsSet` is the corresponding set.  Both carry the uniqueness of
their keys, so that no later argument has to restore it.
-/

namespace Obelus.Data

universe u v

theorem nodup_snoc {κ : Type u} {elements : List κ} {element : κ}
    (nodup : elements.Nodup) (absent : element ∉ elements) : (elements ++ [element]).Nodup := by
  simpa using nodup.concat absent

/-- Entries in insertion order, at most one for a key. -/
structure JsMap (κ : Type u) (ν : Type v) where
  entries : List (κ × ν)
  nodup : (entries.map Prod.fst).Nodup

namespace JsMap

variable {κ : Type u} {ν : Type v}

instance [DecidableEq κ] [DecidableEq ν] : DecidableEq (JsMap κ ν) := fun first second =>
  decidable_of_iff (first.entries = second.entries) (by
    rcases first with ⟨entries, _⟩
    rcases second with ⟨entries', _⟩
    simp)

/-- The map without entries. -/
def empty : JsMap κ ν :=
  ⟨[], List.nodup_nil⟩

variable [DecidableEq κ]

/-- Replace the value of a present key in place, or append a new entry. -/
def setEntries (key : κ) (value : ν) : List (κ × ν) → List (κ × ν)
  | [] => [(key, value)]
  | entry :: rest =>
    if entry.1 = key then (key, value) :: rest else entry :: setEntries key value rest

theorem map_fst_setEntries (key : κ) (value : ν) (entries : List (κ × ν)) :
    (setEntries key value entries).map Prod.fst =
      if key ∈ entries.map Prod.fst then entries.map Prod.fst
      else entries.map Prod.fst ++ [key] := by
  induction entries with
  | nil => simp [setEntries]
  | cons entry rest ih =>
    by_cases same : entry.1 = key
    · simp [setEntries, same]
    · by_cases member : key ∈ rest.map Prod.fst
      · simp only [member, if_true] at ih
        simp only [setEntries, same, if_false, List.map_cons, ih]
        rw [if_pos (List.mem_cons_of_mem _ member)]
      · have absent : key ∉ (entry :: rest).map Prod.fst := by
          simp only [List.map_cons, List.mem_cons, not_or]
          exact ⟨Ne.symm same, member⟩
        simp only [member] at ih
        rw [if_neg absent]
        simp [setEntries, same, ih]

/-- `Map.prototype.set`. -/
def set (map : JsMap κ ν) (key : κ) (value : ν) : JsMap κ ν where
  entries := setEntries key value map.entries
  nodup := by
    rw [map_fst_setEntries]
    split
    · exact map.nodup
    · rename_i absent
      exact nodup_snoc map.nodup absent

/-- `Map.prototype.get`. -/
def get? (map : JsMap κ ν) (key : κ) : Option ν :=
  (map.entries.find? fun entry => entry.1 = key).map Prod.snd

/-- `Map.prototype.has`. -/
def has (map : JsMap κ ν) (key : κ) : Bool :=
  map.entries.any fun entry => entry.1 = key

/-- `Map.prototype.delete`. -/
def delete (map : JsMap κ ν) (key : κ) : JsMap κ ν where
  entries := map.entries.filter fun entry => entry.1 ≠ key
  nodup := (List.filter_sublist.map Prod.fst).nodup map.nodup

/-- The keys in insertion order. -/
def keys (map : JsMap κ ν) : List κ :=
  map.entries.map Prod.fst

/-- The values in insertion order. -/
def values (map : JsMap κ ν) : List ν :=
  map.entries.map Prod.snd

/-- The map a list of entries builds, later entries winning. -/
def ofEntries (entries : List (κ × ν)) : JsMap κ ν :=
  entries.foldl (fun map entry => map.set entry.1 entry.2) empty

variable (map : JsMap κ ν)

theorem has_eq_isSome (key : κ) : map.has key = (map.get? key).isSome := by
  rw [Bool.eq_iff_iff]
  simp [has, get?]

@[simp]
theorem get?_empty (key : κ) : (empty : JsMap κ ν).get? key = none :=
  rfl

theorem lookup_setEntries (key other : κ) (value : ν) (entries : List (κ × ν)) :
    (lookup Prod.fst (setEntries key value entries) other).map Prod.snd =
      if other = key then some value else (lookup Prod.fst entries other).map Prod.snd := by
  induction entries with
  | nil =>
    rw [setEntries, lookup_cons]
    split <;> rfl
  | cons entry rest ih =>
    rw [setEntries]
    split
    · next here =>
      rw [lookup_cons, lookup_cons, here]
      split <;> rfl
    · next differ =>
      rw [lookup_cons, lookup_cons]
      split
      · next found => simp [found, differ]
      · exact ih

theorem get?_set (key other : κ) (value : ν) :
    (map.set key value).get? other = if other = key then some value else map.get? other :=
  lookup_setEntries key other value map.entries

@[simp]
theorem get?_set_self (key : κ) (value : ν) : (map.set key value).get? key = some value := by
  simp [get?_set]

variable {key other : κ} {value : ν} {entries : List (κ × ν)}

theorem get?_set_of_ne (differ : other ≠ key) (value : ν) :
    (map.set key value).get? other = map.get? other := by
  simp [get?_set, differ]

theorem get?_delete (key other : κ) :
    (map.delete key).get? other = if other = key then none else map.get? other := by
  change (lookup Prod.fst (map.delete key).entries other).map Prod.snd = _
  rw [delete, lookup_filter_ne]
  split <;> rfl

@[simp]
theorem get?_delete_self (key : κ) : (map.delete key).get? key = none := by
  simp [get?_delete]

theorem get?_delete_of_ne (differ : other ≠ key) :
    (map.delete key).get? other = map.get? other := by
  simp [get?_delete, differ]

theorem mem_entries_iff {map : JsMap κ ν} :
    (key, value) ∈ map.entries ↔ map.get? key = some value := by
  change _ ↔ (lookup Prod.fst map.entries key).map Prod.snd = some value
  simp [lookup_eq_some_iff map.nodup]

theorem mem_values_iff {map : JsMap κ ν} :
    value ∈ map.values ↔ ∃ key, map.get? key = some value := by
  simp [values, mem_entries_iff]

theorem values_set_of_absent {map : JsMap κ ν} (absent : map.get? key = none) :
    (map.set key value).values = map.values ++ [value] := by
  rcases map with ⟨entries, nodup⟩
  simp only [get?, Option.map_eq_none_iff] at absent
  simp only [values, set]
  clear nodup
  induction entries with
  | nil => rfl
  | cons entry rest ih =>
    have parts := List.find?_eq_none.mp absent
    have differ : entry.1 ≠ key := by simpa using parts entry List.mem_cons_self
    have tail := ih (List.find?_eq_none.mpr fun other member =>
      parts other (List.mem_cons_of_mem _ member))
    simpa [setEntries, differ] using tail

/-- A map made from entries answers with the last entry of a key. -/
theorem get?_ofEntries_eq (entries : List (κ × ν)) (key : κ) :
    (ofEntries entries).get? key = (lookup Prod.fst entries.reverse key).map Prod.snd := by
  induction entries using List.reverseRecOn with
  | nil => rfl
  | append_singleton rest entry ih =>
    rw [ofEntries, List.foldl_concat, get?_set, List.reverse_concat, lookup_cons]
    split
    · rfl
    · exact ih

/-- What a map made from entries answers is one of the entries. -/
theorem mem_of_get?_ofEntries (found : (ofEntries entries).get? key = some value) :
    (key, value) ∈ entries := by
  rw [get?_ofEntries_eq, Option.map_eq_some_iff] at found
  obtain ⟨entry, isFound, rfl⟩ := found
  obtain ⟨member, rfl⟩ := lookup_eq_some isFound
  exact List.mem_reverse.mp member

section Elements

variable {elements : List ν} {key : ν → κ}

/-- A map of elements by a key answers with the last one of a key. -/
theorem get?_ofElements (elements : List ν) (key : ν → κ) (wanted : κ) :
    (ofEntries (elements.map fun element => (key element, element))).get? wanted =
      lookup key elements.reverse wanted := by
  rw [get?_ofEntries_eq, ← List.map_reverse, lookup, List.find?_map, Option.map_map]
  exact Option.map_id'

/-- The values of a map that keeps each under its own key. -/
theorem map_key_values {map : JsMap κ ν}
    (keyed : ∀ wanted value, map.get? wanted = some value → wanted = key value) :
    map.values.map key = map.keys := by
  rw [values, List.map_map]
  exact List.map_congr_left fun entry member => (keyed _ _ (mem_entries_iff.mp member)).symm

theorem nodup_values_ofElements :
    ((ofEntries (elements.map fun element => (key element, element))).values.map key).Nodup := by
  rw [map_key_values]
  · exact nodup _
  · intro wanted value found
    rw [get?_ofElements] at found
    exact (lookup_eq_some found).2.symm

theorem mem_values_ofElements {element : ν} :
    element ∈ (ofEntries (elements.map fun element => (key element, element))).values ↔
      lookup key elements.reverse (key element) = some element := by
  simp only [mem_values_iff, get?_ofElements]
  constructor
  · rintro ⟨wanted, found⟩
    rwa [(lookup_eq_some found).2]
  · exact fun found => ⟨_, found⟩

/-- A map of elements by a key that tells them apart has just these elements. -/
theorem mem_values_ofEntries_iff
    (apart : ∀ first ∈ elements, ∀ second ∈ elements, key first = key second → first = second)
    {element : ν} :
    element ∈ (ofEntries (elements.map fun element => (key element, element))).values ↔
      element ∈ elements := by
  rw [mem_values_ofElements]
  constructor
  · exact fun found => List.mem_reverse.mp (lookup_eq_some found).1
  · intro member
    obtain ⟨found, isFound⟩ : ∃ found, lookup key elements.reverse (key element) = some found :=
      exists_lookup_of_mem (List.mem_reverse.mpr member)
    obtain ⟨isElement, same⟩ := lookup_eq_some isFound
    rw [isFound, apart found (List.mem_reverse.mp isElement) element member same]

end Elements

theorem length_values_ofEntries_le (entries : List (κ × ν)) :
    (ofEntries entries).values.length ≤ entries.length := by
  have keys : (ofEntries entries).entries.map Prod.fst ⊆ entries.map Prod.fst := by
    intro key member
    obtain ⟨⟨_, value⟩, isEntry, rfl⟩ := List.mem_map.mp member
    exact List.mem_map_of_mem (mem_of_get?_ofEntries (mem_entries_iff.mp isEntry))
  simpa [values] using (List.subperm_of_subset (ofEntries entries).nodup keys).length_le

end JsMap

/-- Elements in insertion order, each at most once. -/
structure JsSet (κ : Type u) where
  elements : List κ
  nodup : elements.Nodup

namespace JsSet

variable {κ : Type u}

instance [DecidableEq κ] : DecidableEq (JsSet κ) := fun first second =>
  decidable_of_iff (first.elements = second.elements) (by
    rcases first with ⟨elements, _⟩
    rcases second with ⟨elements', _⟩
    simp)

/-- The set without elements. -/
def empty : JsSet κ :=
  ⟨[], List.nodup_nil⟩

instance : Membership κ (JsSet κ) :=
  ⟨fun set element => element ∈ set.elements⟩

variable {element other : κ}

theorem mem_def {set : JsSet κ} : element ∈ set ↔ element ∈ set.elements :=
  Iff.rfl

@[simp]
theorem not_mem_empty (element : κ) : element ∉ (empty : JsSet κ) := by
  simp [mem_def, empty]

/-- `Set.prototype.size`. -/
def size (set : JsSet κ) : Nat :=
  set.elements.length

variable [DecidableEq κ]

instance (set : JsSet κ) (element : κ) : Decidable (element ∈ set) :=
  inferInstanceAs (Decidable (element ∈ set.elements))

/-- `Set.prototype.has`. -/
def has (set : JsSet κ) (element : κ) : Bool :=
  decide (element ∈ set)

@[simp]
theorem has_eq_true_iff {set : JsSet κ} : set.has element = true ↔ element ∈ set := by
  simp [has]

/-- `Set.prototype.add`. -/
def add (set : JsSet κ) (element : κ) : JsSet κ :=
  if absent : element ∈ set then set
  else
    { elements := set.elements ++ [element]
      nodup := nodup_snoc set.nodup absent }

/-- `Set.prototype.delete`. -/
def delete (set : JsSet κ) (element : κ) : JsSet κ where
  elements := set.elements.filter fun other => other ≠ element
  nodup := set.nodup.filter _

@[simp]
theorem mem_add {set : JsSet κ} : other ∈ set.add element ↔ other = element ∨ other ∈ set := by
  unfold add
  split
  · constructor
    · exact Or.inr
    · rintro (rfl | member)
      · assumption
      · exact member
  · simp [mem_def, or_comm]

@[simp]
theorem mem_delete {set : JsSet κ} :
    other ∈ set.delete element ↔ other ∈ set ∧ other ≠ element := by
  simp [mem_def, delete]

theorem size_add (set : JsSet κ) (element : κ) :
    (set.add element).size = if element ∈ set then set.size else set.size + 1 := by
  unfold add
  split <;> simp [size]

theorem size_delete_of_mem {set : JsSet κ} (member : element ∈ set) :
    (set.delete element).size + 1 = set.size := by
  have filtered : (set.delete element).elements = set.elements.erase element := by
    rw [set.nodup.erase_eq_filter]
    simp only [delete]
    simp [bne, beq_eq_decide]
  have positive : 0 < set.elements.length := List.length_pos_of_mem member
  simp only [size, filtered, List.length_erase_of_mem member]
  omega

theorem delete_of_not_mem {set : JsSet κ} (absent : element ∉ set) : set.delete element = set := by
  rcases set with ⟨elements, nodup⟩
  have kept : elements.filter (fun other => other ≠ element) = elements := by
    rw [List.filter_eq_self]
    intro other member
    have differ : other ≠ element := by
      rintro rfl
      exact absent member
    simpa using differ
  simp only [delete, kept]

end JsSet

/-!
## Ledgers of promised answers

A ledger keeps the requests that await an answer, each under its key and with the number
of the promise made for it, and the answers given so far.  The ledger is accounted when
every promise is either awaited or settled, and only once.
-/

universe w

namespace JsMap

variable {κ : Type u} {ν : Type v} [DecidableEq κ]

variable {key : κ}

theorem delete_entries_of_absent {entries : List (κ × ν)} (absent : key ∉ entries.map Prod.fst) :
    entries.filter (fun entry => entry.1 ≠ key) = entries := by
  rw [List.filter_eq_self]
  intro entry member
  simpa using fun same : entry.1 = key => absent (same ▸ List.mem_map_of_mem member)

/-- The values beside the one that is set. -/
theorem values_set_perm (map : JsMap κ ν) (key : κ) (value : ν) :
    (map.set key value).values.Perm (value :: (map.delete key).values) := by
  rcases map with ⟨entries, nodup⟩
  simp only [values, set, delete]
  induction entries with
  | nil => exact List.Perm.refl _
  | cons entry rest ih =>
    have parts := List.nodup_cons.mp nodup
    by_cases here : entry.1 = key
    · have absent : key ∉ rest.map Prod.fst := here ▸ parts.1
      simp only [setEntries, here, if_true, List.map_cons, List.filter_cons, ne_eq,
        not_true_eq_false, decide_false, Bool.false_eq_true, if_false]
      rw [delete_entries_of_absent absent]
    · simp only [setEntries, here, List.filter_cons, ne_eq]
      exact ((ih parts.2).cons entry.2).trans (List.Perm.swap value entry.2 _)

/-- The values beside one that is there. -/
theorem values_perm_of_get? {map : JsMap κ ν} {value : ν} (found : map.get? key = some value) :
    map.values.Perm (value :: (map.delete key).values) := by
  have same : map.set key value = map := by
    rcases map with ⟨entries, nodup⟩
    simp only [set, mk.injEq]
    simp only [get?, Option.map_eq_some_iff] at found
    obtain ⟨entry, isEntry, rfl⟩ := found
    clear nodup
    induction entries with
    | nil => simp at isEntry
    | cons head rest ih =>
      by_cases here : head.1 = key
      · have isHead : head = entry := by simpa [here] using isEntry
        simp [setEntries, ← here, ← isHead]
      · have later : rest.find? (fun entry => entry.1 = key) = some entry := by
          simpa [here] using isEntry
        simp [setEntries, here, ih later]
  simpa [same] using values_set_perm map key value

theorem delete_of_absent {map : JsMap κ ν} (absent : map.get? key = none) :
    map.delete key = map := by
  rcases map with ⟨entries, nodup⟩
  simp only [delete, mk.injEq]
  refine delete_entries_of_absent fun member => ?_
  obtain ⟨entry, isEntry, same⟩ := List.mem_map.mp member
  rw [get?, Option.map_eq_none_iff, List.find?_eq_none] at absent
  exact absent entry isEntry (by simpa using same)

end JsMap

/-- A request that awaits an answer, and the number of its promise. -/
structure Awaiting (ρ : Type v) where
  promise : Nat
  request : ρ

/-- The keys of all requests in the order of their promises, the requests that await an
answer, and the answers given, oldest first. -/
structure Ledger (κ : Type u) (ρ : Type v) (α : Type w) where
  issued : List κ := []
  awaiting : JsMap κ (Awaiting ρ) := JsMap.empty
  settled : List (Nat × α) := []

namespace Ledger

variable {κ : Type u} {ρ : Type v} {α : Type w}

/-- The promises that await an answer. -/
def promises (ledger : Ledger κ ρ α) : List Nat :=
  ledger.awaiting.values.map Awaiting.promise

/-- Every promise is awaited or settled, and only once. -/
def Accounted (ledger : Ledger κ ρ α) : Prop :=
  ∀ promise, (ledger.settled.map Prod.fst).count promise + ledger.promises.count promise =
    if promise < ledger.issued.length then 1 else 0

theorem accounted_empty : ({} : Ledger κ ρ α).Accounted := by
  intro promise
  simp [promises, JsMap.values, JsMap.empty]

/-- Every awaited request is answered. -/
def settleAll (answer : κ → ρ → α) (ledger : Ledger κ ρ α) : Ledger κ ρ α :=
  { ledger with
    awaiting := JsMap.empty
    settled := ledger.settled ++ ledger.awaiting.entries.map fun entry =>
      (entry.2.promise, answer entry.1 entry.2.request) }

variable {ledger : Ledger κ ρ α}

theorem Accounted.settleAll (accounted : ledger.Accounted) (answer : κ → ρ → α) :
    (ledger.settleAll answer).Accounted := by
  intro promise
  have before := accounted promise
  have sameKeys : (ledger.awaiting.entries.map fun entry =>
      (entry.2.promise, answer entry.1 entry.2.request)).map Prod.fst = ledger.promises := by
    simp [promises, JsMap.values]
  rw [Ledger.settleAll, List.map_append, List.count_append, sameKeys]
  exact before

variable [DecidableEq κ]

/-- A new request.  One that awaits an answer under the same key is given `replaced`, if
there is such an answer. -/
def issue (key : κ) (request : ρ) (replaced : Option α) (ledger : Ledger κ ρ α) :
    Ledger κ ρ α where
  issued := ledger.issued ++ [key]
  awaiting := ledger.awaiting.set key { promise := ledger.issued.length, request }
  settled := ledger.settled ++ ((ledger.awaiting.get? key).bind fun previous =>
    replaced.map (Prod.mk previous.promise)).toList

/-- An answer to the request under a key. -/
def settle (key : κ) (answer : ρ → α) (ledger : Ledger κ ρ α) : Option (Ledger κ ρ α) :=
  (ledger.awaiting.get? key).map fun previous =>
    { ledger with
      awaiting := ledger.awaiting.delete key
      settled := ledger.settled ++ [(previous.promise, answer previous.request)] }

theorem Accounted.issue (accounted : ledger.Accounted) {key : κ} (request : ρ) {replaced : Option α}
    (replaces : (ledger.awaiting.get? key).isSome → replaced.isSome) :
    (ledger.issue key request replaced).Accounted := by
  intro promise
  have before := accounted promise
  have awaited := ((JsMap.values_set_perm ledger.awaiting key
    { promise := ledger.issued.length, request }).map Awaiting.promise).count_eq promise
  cases found : ledger.awaiting.get? key with
  | none =>
    simp only [promises, Ledger.issue, found, awaited, List.map_cons, List.count_cons,
      JsMap.delete_of_absent found, Option.bind_none, Option.toList_none, List.append_nil,
      List.length_append, List.length_singleton, beq_iff_eq] at before ⊢
    split_ifs at before ⊢ <;> omega
  | some previous =>
    obtain ⟨answer, rfl⟩ := Option.isSome_iff_exists.mp (replaces (by simp [found]))
    have removed := ((JsMap.values_perm_of_get? found).map Awaiting.promise).count_eq promise
    simp only [promises, Ledger.issue, found, awaited, removed, List.map_cons,
      List.count_cons, Option.bind_some, Option.map_some, Option.toList_some,
      List.map_append, List.map_nil, List.count_append, List.count_nil,
      List.length_append, List.length_singleton, beq_iff_eq] at before ⊢
    split_ifs at before ⊢ <;> omega

theorem Accounted.settle {settled : Ledger κ ρ α} (accounted : ledger.Accounted) {key : κ}
    {answer : ρ → α} (isSettled : ledger.settle key answer = some settled) : settled.Accounted := by
  intro promise
  have before := accounted promise
  obtain ⟨previous, found, rfl⟩ := Option.map_eq_some_iff.mp isSettled
  have removed := ((JsMap.values_perm_of_get? found).map Awaiting.promise).count_eq promise
  simp only [promises, removed, List.map_cons, List.count_cons, List.map_append, List.map_nil,
    List.count_append, List.count_nil] at before ⊢
  omega

end Ledger

end Obelus.Data
