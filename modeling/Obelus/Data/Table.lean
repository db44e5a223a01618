import Mathlib.Data.List.Nodup
import Mathlib.Order.MinMax

/-!
# Keyed lists

A list whose elements have distinct keys answers at most one element for a
key.  These are the answers after an element is replaced, removed or appended.
-/

namespace Obelus.Data

open List

universe u v

section Keyed

variable {α : Type u} {κ : Type v} [DecidableEq κ] {key : α → κ}

/-- The element of a list with a given key. -/
def lookup (key : α → κ) (elements : List α) (wanted : κ) : Option α :=
  elements.find? fun element => key element = wanted

variable {elements : List α} {place : Nat} {element : α} {wanted : κ}

theorem exists_split_of_getElem? (here : elements[place]? = some element) :
    ∃ before after, elements = before ++ element :: after ∧ before.length = place := by
  obtain ⟨bound, rfl⟩ := List.getElem?_eq_some_iff.mp here
  refine ⟨elements.take place, elements.drop (place + 1), ?_, by simp; omega⟩
  rw [getElem_cons_drop, take_append_drop]

omit [DecidableEq κ] in
theorem map_key_set {replacement : α} (here : elements[place]? = some element)
    (same : key replacement = key element) :
    (elements.set place replacement).map key = elements.map key := by
  obtain ⟨before, after, rfl, rfl⟩ := exists_split_of_getElem? here
  simp [same]

theorem lookup_eq_none_iff : lookup key elements wanted = none ↔ wanted ∉ elements.map key := by
  simp [lookup, find?_eq_none, mem_map]

theorem exists_lookup_of_mem (member : element ∈ elements) :
    ∃ found, lookup key elements (key element) = some found := by
  apply Option.ne_none_iff_exists'.mp
  rw [Ne, lookup_eq_none_iff, not_not]
  exact mem_map_of_mem member

theorem lookup_append (front back : List α) (wanted : κ) : lookup key (front ++ back) wanted =
      (lookup key front wanted).or (lookup key back wanted) := by
  simp [lookup, find?_append]

theorem lookup_cons (element : α) (rest : List α) (wanted : κ) :
    lookup key (element :: rest) wanted =
      if wanted = key element then some element else lookup key rest wanted := by
  by_cases same : wanted = key element
  · simp [lookup, same]
  · simp [lookup, same, Ne.symm same]

theorem lookup_eq_some (found : lookup key elements wanted = some element) :
    element ∈ elements ∧ key element = wanted := by
  refine ⟨mem_of_find?_eq_some found, ?_⟩
  simpa using find?_some found

theorem lookup_snoc (absent : key element ∉ elements.map key) (wanted : κ) :
    lookup key (elements ++ [element]) wanted =
      if wanted = key element then some element else lookup key elements wanted := by
  rw [lookup_append, lookup_cons]
  by_cases same : wanted = key element
  · rw [same, lookup_eq_none_iff.mpr absent]
    simp
  · simp [same, lookup]

theorem lookup_filter_ne (elements : List α) (unwanted wanted : κ) :
    lookup key (elements.filter fun element => key element ≠ unwanted) wanted =
      if wanted = unwanted then none else lookup key elements wanted := by
  unfold lookup
  rw [find?_filter]
  split
  · next same => simp [same]
  · next differ =>
    congr 1
    funext element
    by_cases isElement : key element = wanted
    · simp [isElement, differ]
    · simp [isElement]

theorem lookup_eq_some_iff (nodup : (elements.map key).Nodup) :
    lookup key elements wanted = some element ↔ element ∈ elements ∧ key element = wanted := by
  constructor
  · exact lookup_eq_some
  · rintro ⟨member, rfl⟩
    obtain ⟨other, found⟩ : ∃ other, lookup key elements (key element) = some other :=
      exists_lookup_of_mem member
    obtain ⟨otherMember, same⟩ := lookup_eq_some found
    rw [found, inj_on_of_nodup_map nodup otherMember member same]

/-- Two searches that find elements of both kinds find the same one. -/
theorem eq_of_find?_of_find? {first second : α → Bool} {other : α}
    (isFirst : elements.find? first = some element)
    (isSecond : elements.find? second = some other) (firstToo : second element = true)
    (secondToo : first other = true) : element = other := by
  induction elements with
  | nil => cases isFirst
  | cons head rest ih =>
    rw [find?_cons] at isFirst isSecond
    by_cases headFirst : first head = true
    · rw [headFirst] at isFirst
      cases isFirst
      rw [firstToo] at isSecond
      exact Option.some.inj isSecond
    · by_cases headSecond : second head = true
      · rw [headSecond] at isSecond
        cases isSecond
        exact absurd secondToo headFirst
      · rw [Bool.not_eq_true] at headFirst headSecond
        rw [headFirst] at isFirst
        rw [headSecond] at isSecond
        exact ih isFirst isSecond

section Place

variable {elements : List α} {place : Nat} {element : α}
  (nodup : (elements.map key).Nodup) (here : elements[place]? = some element)

include nodup here

theorem lookup_of_getElem? : lookup key elements (key element) = some element :=
  (lookup_eq_some_iff nodup).mpr ⟨mem_of_getElem? here, rfl⟩

theorem lookup_set {replacement : α} (same : key replacement = key element) (wanted : κ) :
    lookup key (elements.set place replacement) wanted =
      if wanted = key element then some replacement else lookup key elements wanted := by
  obtain ⟨before, after, rfl, rfl⟩ := exists_split_of_getElem? here
  rw [map_append, nodup_append] at nodup
  have absent : key element ∉ before.map key := fun member => nodup.2.2 _ member _ (by simp) rfl
  have replaced : (before ++ element :: after).set before.length replacement =
      before ++ replacement :: after := by
    simp
  rw [replaced, lookup_append, lookup_append, lookup_cons, lookup_cons, same]
  by_cases wantedEq : wanted = key element
  · rw [wantedEq, lookup_eq_none_iff.mpr absent]
    simp
  · simp [wantedEq]

theorem lookup_eraseIdx (wanted : κ) : lookup key (elements.eraseIdx place) wanted =
      if wanted = key element then none else lookup key elements wanted := by
  obtain ⟨before, after, rfl, rfl⟩ := exists_split_of_getElem? here
  rw [map_append, nodup_append] at nodup
  have absentBefore : key element ∉ before.map key := fun member =>
    nodup.2.2 _ member _ (by simp) rfl
  have absentAfter : key element ∉ after.map key := (nodup_cons.mp nodup.2.1).1
  have erased : (before ++ element :: after).eraseIdx before.length = before ++ after := by
    simp [eraseIdx_append_of_length_le]
  rw [erased, lookup_append, lookup_append, lookup_cons]
  by_cases wantedEq : wanted = key element
  · rw [wantedEq, lookup_eq_none_iff.mpr absentBefore, lookup_eq_none_iff.mpr absentAfter]
    simp
  · simp [wantedEq]

theorem mem_map_key_eraseIdx {wanted : κ} : wanted ∈ (elements.eraseIdx place).map key ↔
      wanted ∈ elements.map key ∧ wanted ≠ key element := by
  rw [← not_iff_not, ← lookup_eq_none_iff, lookup_eraseIdx nodup here, ite_eq_left_iff,
    lookup_eq_none_iff]
  tauto

end Place

end Keyed

/-!
## Tables

A table is the list of its rows in the order of their insertion.  An update
changes the rows that satisfy a condition in place, and an upsert changes the
row of a key or appends a new one.
-/

section Table

variable {ρ : Type u} {κ : Type v}

/-- `UPDATE … SET … WHERE …`. -/
def updateWhere (condition : ρ → Bool) (change : ρ → ρ) (table : List ρ) : List ρ :=
  table.map fun row => if condition row then change row else row

variable {condition : ρ → Bool} {change : ρ → ρ} {table : List ρ} {row : ρ} {merge : ρ → ρ → ρ}

theorem mem_updateWhere : row ∈ updateWhere condition change table ↔
      ∃ before ∈ table, row = if condition before then change before else before := by
  rw [updateWhere, mem_map]
  exact exists_congr fun before => and_congr_right fun _ => eq_comm

theorem key_updated {key : ρ → κ} (kept : ∀ row, key (change row) = key row) (row : ρ) :
    key (if condition row then change row else row) = key row := by
  split
  · exact kept row
  · rfl

theorem map_updateWhere {key : ρ → κ} (kept : ∀ row, key (change row) = key row) :
    (updateWhere condition change table).map key = table.map key := by
  rw [updateWhere, map_map]
  exact map_congr_left fun row _ => key_updated kept row

/-- The same change under two conditions is one change under either. -/
theorem updateWhere_updateWhere (first : ρ → Bool) {second : ρ → Bool} (change : ρ → ρ)
    (table : List ρ) (kept : ∀ row, second (change row) = second row)
    (idempotent : ∀ row, change (change row) = change row) :
    updateWhere second change (updateWhere first change table) =
      updateWhere (fun row => first row || second row) change table := by
  rw [updateWhere, updateWhere, map_map]
  refine map_congr_left fun row _ => ?_
  by_cases byFirst : first row <;> by_cases bySecond : second row <;>
    simp [byFirst, bySecond, kept, idempotent]

/-- The first row an update applies to is the first one changed, when the change
keeps the condition. -/
theorem find?_updateWhere (kept : ∀ row, condition row → condition (change row)) :
    (updateWhere condition change table).find? condition =
      (table.find? condition).map change := by
  induction table with
  | nil => rfl
  | cons row rest ih =>
    rw [updateWhere] at ih ⊢
    by_cases applies : condition row
    · simp [applies, kept row applies]
    · simp [applies, ih]

variable [DecidableEq κ] {key : ρ → κ}

theorem lookup_map (kept : ∀ row, key (change row) = key row) (table : List ρ) (wanted : κ) :
    lookup key (table.map change) wanted = (lookup key table wanted).map change := by
  simp only [lookup, find?_map, Function.comp_def, kept]

theorem lookup_updateWhere (kept : ∀ row, key (change row) = key row) (wanted : κ) :
    lookup key (updateWhere condition change table) wanted =
      (lookup key table wanted).map fun row => if condition row then change row else row :=
  lookup_map (key_updated kept) table wanted

/-- `INSERT … ON CONFLICT(key) DO UPDATE SET … WHERE …`: append a row whose key
is free, and let it change the row of its key otherwise. -/
def upsertRow (key : ρ → κ) (merge : ρ → ρ → ρ) (table : List ρ) (row : ρ) : List ρ :=
  match lookup key table (key row) with
  | none => table ++ [row]
  | some _ => updateWhere (fun stored => key stored = key row) (merge row) table

theorem lookup_upsertRow (kept : ∀ stored, key (merge row stored) = key stored) (wanted : κ) :
    lookup key (upsertRow key merge table row) wanted =
      if wanted = key row then some ((lookup key table (key row)).elim row (merge row))
      else lookup key table wanted := by
  unfold upsertRow
  cases found : lookup key table (key row) with
  | none =>
    rw [lookup_snoc (lookup_eq_none_iff.mp found)]
    rfl
  | some stored =>
    rw [lookup_updateWhere kept]
    by_cases same : wanted = key row
    · simp [same, found, (lookup_eq_some found).2]
    · rw [if_neg same]
      cases other : lookup key table wanted with
      | none => rfl
      | some unrelated => simp [(lookup_eq_some other).2, same]

/-- A row stays as it is or takes the upserted row. -/
theorem mem_upsertRow_of_mem (key : ρ → κ) (merge : ρ → ρ → ρ) (row : ρ) {stored : ρ}
    (member : stored ∈ table) :
    stored ∈ upsertRow key merge table row ∨ merge row stored ∈ upsertRow key merge table row := by
  unfold upsertRow
  split
  · exact .inl (mem_append_left _ member)
  · by_cases same : key stored = key row
    · exact .inr (mem_updateWhere.mpr ⟨stored, member, by simp [same]⟩)
    · exact .inl (mem_updateWhere.mpr ⟨stored, member, by simp [same]⟩)

theorem nodup_map_upsertRow (kept : ∀ stored, key (merge row stored) = key stored)
    (nodup : (table.map key).Nodup) : ((upsertRow key merge table row).map key).Nodup := by
  unfold upsertRow
  cases found : lookup key table (key row) with
  | none =>
    simpa using nodup.concat (lookup_eq_none_iff.mp found)
  | some stored =>
    rw [map_updateWhere kept]
    exact nodup

omit [DecidableEq κ] in
/-- Rows in another order with the same keys in the same places are in the same order. -/
theorem eq_of_perm_of_map_eq {other : List ρ} (perm : table.Perm other)
    (same : table.map key = other.map key) (nodup : (other.map key).Nodup) : table = other := by
  refine ext_getElem perm.length_eq fun index isIndex isIndexOther => ?_
  apply inj_on_of_nodup_map nodup (perm.mem_iff.mp (getElem_mem isIndex))
    (getElem_mem isIndexOther)
  simpa [isIndex, isIndexOther] using congrArg (fun keys => keys[index]?) same

end Table

end Obelus.Data
