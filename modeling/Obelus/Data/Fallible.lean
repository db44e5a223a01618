import Mathlib.Data.List.Basic

/-!
# Fallible computations

Rules for reading a successful run of a computation that may fail: every part
of it succeeded, and what each part preserves is preserved.
-/

namespace Obelus.Data

open List

universe u v w

/-- Succeed only under a condition. -/
def ensure {ε : Type u} (condition : Prop) [Decidable condition] (error : ε) : Except ε PUnit :=
  if condition then .ok ⟨⟩ else .error error

section Fallible

variable {ε : Type u} {α β σ : Type v}

variable {condition : Prop} {error failure : ε} {first : Except ε α} {value result : α}
  {elements : List α} {step : σ → α → Except ε σ} {start final : σ}

@[simp]
theorem ensure_eq_ok_iff [Decidable condition] {result : PUnit} :
    ensure condition error = .ok result ↔ condition := by
  unfold ensure
  split <;> simp_all

@[simp]
theorem bind_eq_ok_iff {next : α → Except ε β} {result : β} :
    (first >>= next) = .ok result ↔ ∃ value, first = .ok value ∧ next value = .ok result := by
  cases first with
  | error error => simp [bind, Except.bind]
  | ok value => simp [bind, Except.bind]

@[simp]
theorem pure_eq_ok_iff : (pure value : Except ε α) = .ok result ↔ value = result := by
  simp [pure, Except.pure]

@[simp]
theorem elim_eq_ok_iff {value : Option α} :
    value.elim (.error error) .ok = Except.ok result ↔ value = some result := by
  cases value with
  | none => simp
  | some value => simp

@[simp]
theorem ensure_eq_error_iff [Decidable condition] :
    ensure condition error = .error failure ↔ ¬condition ∧ error = failure := by
  unfold ensure
  split <;> simp_all

@[simp]
theorem bind_eq_error_iff {next : α → Except ε β} : (first >>= next) = .error failure ↔
      first = .error failure ∨ ∃ value, first = .ok value ∧ next value = .error failure := by
  cases first with
  | error error => simp [bind, Except.bind]
  | ok value => simp [bind, Except.bind]

@[simp]
theorem pure_ne_error : (pure value : Except ε α) ≠ .error failure :=
  nofun

/-- A check of all elements succeeds when it does for each. -/
theorem forM_eq_ok_iff {check : α → Except ε PUnit} :
    elements.forM check = .ok ⟨⟩ ↔ ∀ element ∈ elements, check element = .ok ⟨⟩ := by
  induction elements with
  | nil => simp [pure, Except.pure]
  | cons element rest ih =>
    have unfold : (element :: rest).forM check = (check element >>= fun _ => rest.forM check) := rfl
    rw [unfold, bind_eq_ok_iff, forall_mem_cons, ← ih]
    constructor
    · rintro ⟨_, first, others⟩
      exact ⟨first, others⟩
    · rintro ⟨first, others⟩
      exact ⟨_, first, others⟩

/-- What every successful step preserves, a successful fold preserves. -/
theorem foldlM_invariant (property : σ → Prop)
    (preserved : ∀ element ∈ elements, ∀ before after, step before element = .ok after →
      property before → property after) (folded : elements.foldlM step start = .ok final)
    (initially : property start) : property final := by
  induction elements generalizing start with
  | nil =>
    rw [foldlM_nil, pure_eq_ok_iff] at folded
    exact folded ▸ initially
  | cons element rest ih =>
    rw [foldlM_cons, bind_eq_ok_iff] at folded
    obtain ⟨next, stepped, continued⟩ := folded
    exact ih (fun element member => preserved element (mem_cons_of_mem _ member)) continued
      (preserved element mem_cons_self start next stepped initially)

/-- A relation between states that every successful step establishes holds
between the ends of a successful fold. -/
theorem foldlM_relation {relation : σ → σ → Prop} (refl : ∀ state, relation state state)
    (trans : ∀ first second third, relation first second → relation second third →
      relation first third)
    (stepped : ∀ element ∈ elements, ∀ before after, step before element = .ok after →
      relation before after) (folded : elements.foldlM step start = .ok final) :
    relation start final :=
  foldlM_invariant (relation start)
    (fun element member before after succeeded related =>
      trans start before after related (stepped element member before after succeeded))
    folded (refl start)

/-- A property of the elements folded so far grows by one element a step. -/
theorem foldlM_history (property : List α → σ → Prop) (done : List α)
    (stepped : ∀ done, ∀ element ∈ elements, ∀ before after, step before element = .ok after →
      property done before → property (done ++ [element]) after)
    (folded : elements.foldlM step start = .ok final) (initially : property done start) :
    property (done ++ elements) final := by
  induction elements generalizing done start with
  | nil =>
    rw [foldlM_nil, pure_eq_ok_iff] at folded
    rw [append_nil]
    exact folded ▸ initially
  | cons element rest ih =>
    rw [foldlM_cons, bind_eq_ok_iff] at folded
    obtain ⟨next, first, others⟩ := folded
    rw [append_cons]
    exact ih _ (fun done element member => stepped done element (mem_cons_of_mem _ member))
      others (stepped done element mem_cons_self start next first initially)

/-- A fold fails where one of its steps fails, in a state the steps before it
lead to. -/
theorem foldlM_eq_error (property : σ → Prop)
    (preserved : ∀ element ∈ elements, ∀ before after, step before element = .ok after →
      property before → property after) (failed : elements.foldlM step start = .error failure)
    (initially : property start) :
    ∃ element ∈ elements, ∃ state, property state ∧ step state element = .error failure := by
  induction elements generalizing start with
  | nil => exact absurd failed pure_ne_error
  | cons element rest ih =>
    rw [foldlM_cons, bind_eq_error_iff] at failed
    obtain failed | ⟨next, stepped, failed⟩ := failed
    · exact ⟨element, mem_cons_self, start, initially, failed⟩
    · obtain ⟨element, member, state, holds, failed⟩ :=
        ih (fun element member => preserved element (mem_cons_of_mem _ member)) failed
          (preserved element mem_cons_self start next stepped initially)
      exact ⟨element, mem_cons_of_mem _ member, state, holds, failed⟩

/-- A fold whose every step succeeds without a change changes nothing. -/
theorem foldlM_eq_self {state : σ}
    (unchanged : ∀ element ∈ elements, step state element = .ok state) :
    elements.foldlM step state = .ok state := by
  induction elements with
  | nil => rfl
  | cons element rest ih =>
    rw [foldlM_cons, unchanged element mem_cons_self]
    exact ih fun element member => unchanged element (mem_cons_of_mem _ member)

end Fallible

/-- Run a fallible change of a store, and keep the store as it was when the
change fails. -/
def transaction {ε : Type u} {σ : Type v} {α : Type w} (change : σ → Except ε (α × σ))
    (store : σ) : Except ε α × σ :=
  match change store with
  | .ok (result, changed) => (.ok result, changed)
  | .error error => (.error error, store)

theorem transaction_cases {ε : Type u} {σ : Type v} {α : Type w} (change : σ → Except ε (α × σ))
    (store : σ) :
    (∃ error, transaction change store = (.error error, store) ∧ change store = .error error) ∨
      ∃ result changed, transaction change store = (.ok result, changed) ∧
        change store = .ok (result, changed) := by
  unfold transaction
  cases change store with
  | error error => exact .inl ⟨error, rfl, rfl⟩
  | ok outcome => exact .inr ⟨outcome.1, outcome.2, rfl, rfl⟩

variable {α β : Type u} {read : α → Option β} {values : List β} {elements : List α}

theorem mapM_cons_eq_some_iff {first : α} {rest : List α} :
    (first :: rest).mapM read = some values ↔
      ∃ value others, read first = some value ∧ rest.mapM read = some others ∧
        values = value :: others := by
  simp [mapM_cons, Option.bind_eq_some_iff, @eq_comm _ values]

/-- All elements are read and then shown as the values exactly when each of them is. -/
theorem map_mapM_eq_some_iff {γ : Type u} {shown : β → γ} {values : List γ} :
    (elements.mapM read).map (map shown) = some values ↔
      elements.map (fun element => (read element).map shown) = values.map some := by
  induction elements generalizing values with
  | nil => simp [@eq_comm _ []]
  | cons first rest ih =>
    rw [mapM_cons, map_cons]
    cases values with
    | nil =>
      cases read first with
      | none => simp
      | some _ => cases rest.mapM read <;> simp
    | cons value others =>
      rw [map_cons, cons.injEq, ← ih]
      cases read first with
      | none => simp
      | some _ => cases rest.mapM read <;> simp

theorem mapM_append_eq_some_iff {front last : List α} : (front ++ last).mapM read = some values ↔
      ∃ fronts lasts, front.mapM read = some fronts ∧ last.mapM read = some lasts ∧
        values = fronts ++ lasts := by
  simp [mapM_append, Option.bind_eq_some_iff, @eq_comm _ values]

theorem mapM_replicate_of_eq_some {element : α} {value : β} (reads : read element = some value)
    (count : Nat) :
    (replicate count element).mapM read = some (replicate count value) := by
  induction count with
  | zero => rfl
  | succ count ih =>
    exact mapM_cons_eq_some_iff.mpr ⟨value, _, reads, ih, rfl⟩

theorem length_of_mapM_eq_some (reads : elements.mapM read = some values) :
    values.length = elements.length := by
  induction elements generalizing values with
  | nil =>
    cases reads
    rfl
  | cons first rest ih =>
    obtain ⟨value, others, -, readRest, rfl⟩ := mapM_cons_eq_some_iff.mp reads
    rw [length_cons, length_cons, ih readRest]

theorem isSome_of_mapM_eq_some (reads : elements.mapM read = some values) :
    ∀ element ∈ elements, (read element).isSome := by
  induction elements generalizing values with
  | nil => simp
  | cons first rest ih =>
    obtain ⟨value, others, readFirst, readRest, -⟩ := mapM_cons_eq_some_iff.mp reads
    exact forall_mem_cons.mpr ⟨Option.isSome_of_eq_some readFirst, ih readRest⟩

theorem exists_mapM_eq_some (all : ∀ element ∈ elements, (read element).isSome = true) :
    ∃ values, elements.mapM read = some values := by
  induction elements with
  | nil => exact ⟨[], rfl⟩
  | cons first rest ih =>
    obtain ⟨readFirst, readRest⟩ := forall_mem_cons.mp all
    obtain ⟨value, isValue⟩ := Option.isSome_iff_exists.mp readFirst
    obtain ⟨others, areOthers⟩ := ih readRest
    exact ⟨value :: others, mapM_cons_eq_some_iff.mpr ⟨value, others, isValue, areOthers, rfl⟩⟩

theorem exists_of_mem_of_mapM_eq_some (reads : elements.mapM read = some values) :
    ∀ value ∈ values, ∃ element, read element = some value := by
  induction elements generalizing values with
  | nil =>
    cases reads
    simp
  | cons first rest ih =>
    obtain ⟨value, others, readFirst, readRest, rfl⟩ := mapM_cons_eq_some_iff.mp reads
    exact forall_mem_cons.mpr ⟨⟨first, readFirst⟩, ih readRest⟩

section Failing

variable {ε : Type u} {α : Type w} {β : Type v} {read : α → Except ε β} {elements : List α}
  {values : List β}

theorem mapM_cons_eq_ok_iff {first : α} {rest : List α} : (first :: rest).mapM read = .ok values ↔
      ∃ value others, read first = .ok value ∧ rest.mapM read = .ok others ∧
        value :: others = values := by
  cases readRest : rest.mapM read with
  | error error => simp [mapM_cons, readRest]
  | ok others => simp [mapM_cons, readRest]

theorem length_of_mapM_eq_ok (reads : elements.mapM read = .ok values) :
    values.length = elements.length := by
  induction elements generalizing values with
  | nil =>
    cases reads
    rfl
  | cons first rest ih =>
    obtain ⟨value, others, -, readRest, rfl⟩ := mapM_cons_eq_ok_iff.mp reads
    rw [length_cons, length_cons, ih readRest]

theorem exists_of_mem_of_mapM_eq_ok (reads : elements.mapM read = .ok values) :
    ∀ value ∈ values, ∃ element, read element = .ok value := by
  induction elements generalizing values with
  | nil =>
    cases reads
    exact fun _ member => absurd member not_mem_nil
  | cons first rest ih =>
    obtain ⟨value, others, readFirst, readRest, rfl⟩ := mapM_cons_eq_ok_iff.mp reads
    exact forall_mem_cons.mpr ⟨⟨first, readFirst⟩, ih readRest⟩

end Failing

end Obelus.Data
