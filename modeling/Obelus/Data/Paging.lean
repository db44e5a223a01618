import Mathlib.Data.List.Sort

/-!
# Paging by key

A listing answers a cursor with a page of rows and the cursor of the next page.
Following the cursors from the first page on collects all pages.  When the rows
are in strictly descending order of their keys, the rows below the key of one of
them are those behind it, so pages cut at keys neither lose nor repeat a row.
-/

namespace Obelus.Data

open List

universe u v w x

/-- Rows and the cursor of the page after them. -/
structure Page (ρ : Type u) (κ : Type v) where
  items : List ρ
  nextCursor : Option κ

section Following

variable {ρ : Type u} {κ : Type v} {ε : Type w}

/-- The rows collected by following the cursors from a given one to the end. -/
inductive Followed (list : Option κ → Except ε (Page ρ κ)) : Option κ → List ρ → Prop
  | last {cursor : Option κ} {page : Page ρ κ} (listed : list cursor = .ok page)
      (ends : page.nextCursor = none) : Followed list cursor page.items
  | next {cursor : Option κ} {next : κ} {page : Page ρ κ} {rest : List ρ}
      (listed : list cursor = .ok page) (continues : page.nextCursor = some next)
      (followed : Followed list (some next) rest) : Followed list cursor (page.items ++ rest)

variable {list : Option κ → Except ε (Page ρ κ)} {cursor : Option κ}

/-- Following the cursors has one result. -/
theorem Followed.unique {first second : List ρ} (followed : Followed list cursor first)
    (again : Followed list cursor second) : first = second := by
  induction followed generalizing second with
  | last listed ends =>
    cases again with
    | last listed' ends' =>
      cases listed.symm.trans listed'
      rfl
    | next listed' continues' _ =>
      cases listed.symm.trans listed'
      cases ends.symm.trans continues'
  | next listed continues _ ih =>
    cases again with
    | last listed' ends' =>
      cases listed.symm.trans listed'
      cases ends'.symm.trans continues
    | next listed' continues' followed' =>
      cases listed.symm.trans listed'
      cases continues.symm.trans continues'
      rw [ih followed']

/-- An empty last page. -/
theorem Followed.empty (listed : list cursor = .ok { items := [], nextCursor := none }) :
    Followed list cursor [] :=
  .last listed rfl

end Following

section Keyset

variable {ρ : Type u} {κ : Type v} [LinearOrder κ] {key : ρ → κ}

/-- The rows in descending order of their keys. -/
def sortDescending (key : ρ → κ) (rows : List ρ) : List ρ :=
  rows.mergeSort fun first second => key second ≤ key first

theorem sortDescending_perm (key : ρ → κ) (rows : List ρ) : (sortDescending key rows).Perm rows :=
  mergeSort_perm rows _

variable {σ : Type x} {rows front back : List ρ} {row : ρ}

theorem mem_sortDescending : row ∈ sortDescending key rows ↔ row ∈ rows :=
  mem_mergeSort

/-- Distinct keys are in strictly descending order. -/
theorem sortDescending_pairwise (distinct : (rows.map key).Nodup) :
    (sortDescending key rows).Pairwise fun first second => key second < key first := by
  have sorted : (sortDescending key rows).Pairwise
      fun first second => decide (key second ≤ key first) :=
    pairwise_mergeSort
      (fun first second third => by simpa using fun newer older => le_trans older newer)
      (fun first second => by simpa using le_total (key second) (key first)) rows
  have apart : (sortDescending key rows).Pairwise fun first second => key first ≠ key second := by
    apply pairwise_map.mp
    exact ((sortDescending_perm key rows).map key).nodup_iff.mpr distinct
  apply (sorted.and apart).imp
  rintro first second ⟨below, different⟩
  exact lt_of_le_of_ne (by simpa using below) different.symm

/-- Filtering before sorting is filtering after it. -/
theorem filter_sortDescending (distinct : (rows.map key).Nodup) (condition : ρ → Bool) :
    (sortDescending key rows).filter condition =
      sortDescending key (rows.filter condition) := by
  have distinctFiltered : ((rows.filter condition).map key).Nodup :=
    distinct.sublist (filter_sublist.map key)
  have perm := ((sortDescending_perm key rows).filter condition).trans
    (sortDescending_perm key (rows.filter condition)).symm
  refine Perm.eq_of_pairwise ?_ ((sortDescending_pairwise distinct).filter condition)
    (sortDescending_pairwise distinctFiltered) perm
  rintro first second - - below above
  exact absurd below above.asymm

/-- The rows below a cursor. -/
def rowsAfter (key : ρ → κ) (rows : List ρ) : Option κ → List ρ
  | none => rows
  | some cursor => rows.filter fun row => key row < cursor

theorem rowsAfter_map (row : σ → ρ) (rows : List σ) (cursor : Option κ) :
    rowsAfter key (rows.map row) cursor =
      (rowsAfter (fun shown => key (row shown)) rows cursor).map row := by
  cases cursor with
  | none => rfl
  | some cursor => simp [rowsAfter, filter_map, Function.comp_def]

/-- The rows are split at a cursor. -/
theorem rowsAfter_append {cursor : κ} (above : ∀ row ∈ front, cursor ≤ key row)
    (below : ∀ row ∈ back, key row < cursor) :
    rowsAfter key (front ++ back) (some cursor) = back := by
  have frontNone : front.filter (fun row => key row < cursor) = [] :=
    filter_eq_nil_iff.mpr (by simpa using above)
  have backAll : back.filter (fun row => key row < cursor) = back :=
    filter_eq_self.mpr (by simpa using below)
  rw [rowsAfter, filter_append, frontNone, backAll, nil_append]

/-- One page more than it shows is fetched, and the cursor is the key of the
last row shown when a row is left over. -/
def cutPage (key : ρ → κ) (limit : Nat) (rows : List ρ) : Page ρ κ where
  items := rows.take limit
  nextCursor := if limit < rows.length then ((rows.take limit).getLast?).map key else none

section Cut

variable {cursorOf : ρ → κ} {limit : Nat}

omit [LinearOrder κ] in
theorem cutPage_of_length_le {rows : List ρ} (fits : rows.length ≤ limit) :
    cutPage cursorOf limit rows = { items := rows, nextCursor := none } := by
  rw [cutPage, if_neg (not_lt.mpr fits), take_of_length_le fits]

omit [LinearOrder κ] in
theorem cutPage_append (lead : List ρ) (final next : ρ) (back : List ρ) :
    cutPage cursorOf (lead.length + 1) (lead ++ final :: next :: back) =
      { items := lead ++ [final], nextCursor := some (cursorOf final) } := by
  have page : (lead ++ final :: next :: back).take (lead.length + 1) = lead ++ [final] := by
    rw [take_append, take_of_length_le (Nat.le_succ _)]
    simp
  rw [cutPage, page, if_pos (by simp), getLast?_append]
  rfl

omit [LinearOrder κ] in
/-- A full page and the row after it. -/
theorem exists_page {rest : List ρ} (positive : 0 < limit) (long : limit < rest.length) :
    ∃ lead final next back, rest = lead ++ final :: next :: back ∧ limit = lead.length + 1 := by
  have split := take_append_drop (limit - 1) rest
  match isEnd : rest.drop (limit - 1) with
  | [] | [_] =>
    have short := congrArg length isEnd
    simp only [length_drop, length_cons, length_nil] at short
    omega
  | final :: next :: back =>
    refine ⟨rest.take (limit - 1), final, next, back, ?_, ?_⟩
    · rw [← isEnd, split]
    · rw [length_take]
      omega

end Cut

/-- A listing that cuts its pages from the rows below the cursor. -/
def ListsAfter {ε : Type w} {σ : Type x} (row : σ → ρ) (key : ρ → κ) (rows : List ρ) (limit : Nat)
    (list : Option κ → Except ε (Page σ κ)) : Prop :=
  ∀ cursor, (∀ key' ∈ cursor, ∃ shown ∈ rows, key shown = key') →
    ∃ page, list cursor = .ok page ∧
      page.items.map row = (rowsAfter key rows cursor).take limit ∧
        page.nextCursor = (cutPage key limit (rowsAfter key rows cursor)).nextCursor

/-- Following the cursors of such a listing from its first page on collects
every row once, in order. -/
theorem ListsAfter.followed {ε : Type w} {row : σ → ρ} {limit : Nat}
    {list : Option κ → Except ε (Page σ κ)} (positive : 0 < limit)
    (descending : rows.Pairwise fun first second => key second < key first)
    (lists : ListsAfter row key rows limit list) :
    ∃ items, Followed list none items ∧ items.map row = rows := by
  suffices general : ∀ (count : Nat) (cursor : Option κ),
      (rowsAfter key rows cursor).length ≤ count → rowsAfter key rows cursor <:+ rows →
        (∀ key' ∈ cursor, ∃ shown ∈ rows, key shown = key') →
          ∃ items, Followed list cursor items ∧ items.map row = rowsAfter key rows cursor by
    exact general rows.length none le_rfl suffix_rfl (by simp)
  intro count
  induction count with
  | zero =>
    intro cursor bound _ shown
    obtain ⟨page, listed, items, ends⟩ := lists cursor shown
    have empty := length_eq_zero_iff.mp (Nat.le_zero.mp bound)
    rw [empty] at items ends
    rw [empty]
    exact ⟨page.items, .last listed (by simpa [cutPage] using ends), by simpa using items⟩
  | succ count ih =>
    intro cursor bound suffix shown
    obtain ⟨page, listed, items, next⟩ := lists cursor shown
    by_cases fits : (rowsAfter key rows cursor).length ≤ limit
    · refine ⟨page.items, .last listed ?_, ?_⟩
      · rw [next, cutPage, if_neg (not_lt.mpr fits)]
      · rw [items, take_of_length_le fits]
    · -- the page is full, and its last row is the cursor of the rows left over
      obtain ⟨lead, final, left, back, isRest, rfl⟩ := exists_page positive (not_le.mp fits)
      have cut : cutPage key _ _ = _ := cutPage_append lead final left back
      rw [isRest] at bound suffix items next
      replace items := items.trans (congrArg Page.items cut)
      rw [cut] at next
      obtain ⟨before, rowsEq⟩ := suffix
      have parted : rows = (before ++ (lead ++ [final])) ++ left :: back := by simp [← rowsEq]
      have rest : rowsAfter key rows (some (key final)) = left :: back := by
        rw [parted] at descending ⊢
        obtain ⟨ahead, -, apart⟩ := pairwise_append.mp descending
        rw [← append_assoc] at ahead ⊢
        apply rowsAfter_append
        · intro other member
          rcases mem_append.mp member with inLead | isFinal
          · exact ((pairwise_append.mp ahead).2.2 other inLead final (.head _)).le
          · rw [mem_singleton.mp isFinal]
        · exact apart final (by simp)
      obtain ⟨later, followed, laterRows⟩ := ih (some (key final))
        (by
          rw [rest]
          simp only [length_append, length_cons] at bound ⊢
          omega)
        (by
          rw [rest, parted]
          exact suffix_append _ _)
        (by
          intro key' isKey
          cases isKey
          exact ⟨final, parted ▸ by simp, rfl⟩)
      refine ⟨page.items ++ later, .next listed next followed, ?_⟩
      rw [map_append, items, laterRows, rest, isRest]
      simp

theorem rowsAfter_suffix (descending : rows.Pairwise fun first second => key second < key first)
    (cursor : Option κ) : rowsAfter key rows cursor <:+ rows := by
  cases cursor with
  | none => exact suffix_rfl
  | some cursor =>
    induction rows with
    | nil => exact suffix_rfl
    | cons row rest ih =>
      rw [pairwise_cons] at descending
      rw [rowsAfter, filter_cons]
      split
      · next below =>
        have all : rest.filter (fun other => key other < cursor) = rest := by
          rw [filter_eq_self]
          intro other member
          simpa using (descending.1 other member).trans (of_decide_eq_true below)
        exact ⟨[], congrArg (row :: ·) all⟩
      · exact (ih descending.2).trans (suffix_cons _ _)

/-- A cursor gives the rows from a row on where it lies above that row and not above the one
before it. -/
theorem rowsAfter_eq_iff {next : ρ} (cursor : κ)
    (descending : (front ++ row :: next :: back).Pairwise
      fun first second => key second < key first) :
    rowsAfter key (front ++ row :: next :: back) (some cursor) = next :: back ↔
      key next < cursor ∧ cursor ≤ key row := by
  have apart := descending
  rw [pairwise_append] at apart
  obtain ⟨-, behind, before⟩ := apart
  rw [pairwise_cons, pairwise_cons] at behind
  obtain ⟨belowRow, belowNext, -⟩ := behind
  constructor
  · intro same
    have isIn : next ∈ rowsAfter key (front ++ row :: next :: back) (some cursor) := by
      rw [same]
      exact .head _
    refine ⟨by simpa using (mem_filter.mp isIn).2, ?_⟩
    by_contra above
    have rowIn : row ∈ rowsAfter key (front ++ row :: next :: back) (some cursor) :=
      mem_filter.mpr ⟨by simp, decide_eq_true (not_le.mp above)⟩
    rw [same] at rowIn
    exact lt_irrefl _ (belowRow row rowIn)
  · rintro ⟨above, notAbove⟩
    rw [append_cons]
    apply rowsAfter_append
    · intro other member
      rcases mem_append.mp member with inFront | isRow
      · exact notAbove.trans (before other inFront row mem_cons_self).le
      · rwa [mem_singleton.mp isRow]
    · exact forall_mem_cons.mpr ⟨above, fun other member => (belowNext other member).trans above⟩

/-- At each place where a page ends, the cursor of the last row leads to the next row. -/
def LeadsOn (key cursorOf : ρ → κ) (limit : Nat) (rows : List ρ) : Prop :=
  ∀ front row next back, rows = front ++ row :: next :: back → limit ∣ front.length + 1 →
    key next < cursorOf row ∧ cursorOf row ≤ key row

section Computed

variable {ε : Type w} {σ : Type x} {shown : ρ → σ} {cursorOf : ρ → κ} {rows : List ρ}
  {limit : Nat} {list : Option κ → Except ε (Page σ κ)}

/-- A listing whose cursors are computed from the last rows. -/
def ListsWith (shown : ρ → σ) (key cursorOf : ρ → κ) (rows : List ρ) (limit : Nat)
    (list : Option κ → Except ε (Page σ κ)) : Prop :=
  ∀ cursor, list cursor = .ok
    { items := (cutPage cursorOf limit (rowsAfter key rows cursor)).items.map shown
      nextCursor := (cutPage cursorOf limit (rowsAfter key rows cursor)).nextCursor }

/-- The first row that is collected is the first below the cursor. -/
theorem Followed.head?_eq (positive : 0 < limit)
    (lists : ListsWith shown key cursorOf rows limit list) {cursor : Option κ} {items : List σ}
    (followed : Followed list cursor items) :
    items.head? = ((rowsAfter key rows cursor).head?).map shown := by
  have page (rest : List ρ) : ((cutPage cursorOf limit rest).items.map shown).head? =
      rest.head?.map shown := by
    cases rest with
    | nil => simp [cutPage]
    | cons first others => simp [cutPage, take_cons positive]
  cases followed with
  | last listed ends =>
    cases (lists cursor).symm.trans listed
    exact page _
  | next listed continues followed =>
    cases (lists cursor).symm.trans listed
    cases below : rowsAfter key rows cursor with
    | nil =>
      rw [below] at continues
      simp [cutPage] at continues
    | cons first others =>
      have head := page (first :: others)
      rw [← below] at head ⊢
      rw [head?_append, head, below]
      rfl

/-- The cursors lead on where that of the first page does and those of the later pages do. -/
theorem leadsOn_append_iff {lead back : List ρ} {final next : ρ} :
    LeadsOn key cursorOf (lead.length + 1) (lead ++ final :: next :: back) ↔
      (key next < cursorOf final ∧ cursorOf final ≤ key final) ∧
        LeadsOn key cursorOf (lead.length + 1) (next :: back) := by
  constructor
  · intro leadsOn
    refine ⟨leadsOn lead final next back rfl (Nat.dvd_refl _), ?_⟩
    intro front row next' back' isRest divides
    refine leadsOn (lead ++ final :: front) row next' back' ?_ ?_
    · rw [isRest, append_assoc, cons_append]
    · rw [length_append, length_cons]
      have sum : lead.length + (front.length + 1) + 1 = (front.length + 1) + (lead.length + 1) := by
        omega
      rw [sum]
      exact Nat.dvd_add divides (Nat.dvd_refl _)
  · rintro ⟨here, later⟩ front row next' back' isRest divides
    have enough := Nat.le_of_dvd (Nat.succ_pos _) divides
    obtain ⟨first, others, rfl, sameLength⟩ : ∃ first others, front = first ++ others ∧
        first.length = lead.length :=
      ⟨front.take lead.length, front.drop lead.length, (take_append_drop _ _).symm,
        by rw [length_take]; omega⟩
    rw [append_assoc] at isRest
    obtain ⟨rfl, isEnd⟩ := append_inj isRest sameLength.symm
    cases others with
    | nil =>
      obtain ⟨rfl, rfl, rfl⟩ : final = row ∧ next = next' ∧ back = back' := by
        simpa using isEnd
      exact here
    | cons other others =>
      obtain ⟨rfl, isTail⟩ := cons.inj isEnd
      refine later others row next' back' isTail ?_
      have sum : (lead ++ final :: others).length + 1 =
          (others.length + 1) + (lead.length + 1) := by
        rw [length_append, length_cons]
        omega
      rw [sum] at divides
      exact (Nat.dvd_add_left (Nat.dvd_refl _)).mp divides

omit [LinearOrder κ] in
/-- Two ends of a list without repetitions that begin with one row are one. -/
theorem suffix_eq_of_head {first second : List ρ} {row : ρ} (distinct : rows.Nodup)
    (isFirst : row :: first <:+ rows) (isSecond : row :: second <:+ rows) : first = second := by
  have shorter {inner outer : List ρ} (isOuter : row :: outer <:+ rows)
      (within : row :: inner <:+ row :: outer) : inner = outer := by
    rcases suffix_cons_iff.mp within with same | deeper
    · exact (cons.inj same).2
    · have repeated := (distinct.sublist isOuter.sublist)
      exact absurd (deeper.subset (.head _)) (nodup_cons.mp repeated).1
  rcases suffix_or_suffix_of_suffix isFirst isSecond with within | within
  · exact shorter isSecond within
  · exact (shorter isFirst within).symm

/-- Following the cursors shows all rows where the cursor of each page leads on. -/
theorem ListsWith.followed_iff (positive : 0 < limit)
    (descending : rows.Pairwise fun first second => key second < key first)
    (distinct : (rows.map shown).Nodup) (lists : ListsWith shown key cursorOf rows limit list) :
    Followed list none (rows.map shown) ↔ LeadsOn key cursorOf limit rows := by
  suffices general : ∀ (count : Nat) (cursor : Option κ) (before : List ρ),
      (rowsAfter key rows cursor).length ≤ count → before ++ rowsAfter key rows cursor = rows →
        (Followed list cursor ((rowsAfter key rows cursor).map shown) ↔
          LeadsOn key cursorOf limit (rowsAfter key rows cursor)) by
    exact general rows.length none [] le_rfl rfl
  intro count
  induction count with
  | zero =>
    intro cursor before bound _
    have empty := length_eq_zero_iff.mp (Nat.le_zero.mp bound)
    refine iff_of_true ?_ fun front row next back isRest => ?_
    · have page := lists cursor
      rw [cutPage_of_length_le (by rw [empty]; exact Nat.zero_le _)] at page
      exact .last page rfl
    · rw [empty] at isRest
      exact absurd isRest.symm (by simp)
  | succ count ih =>
    intro cursor before bound isRows
    have page := lists cursor
    by_cases fits : (rowsAfter key rows cursor).length ≤ limit
    · rw [cutPage_of_length_le fits] at page
      refine iff_of_true (.last page rfl) fun front row next back isRest divides => ?_
      rw [isRest] at fits
      have tooShort := Nat.le_of_dvd (Nat.succ_pos _) divides
      simp only [length_append, length_cons] at fits
      omega
    · -- the page is full, and its last row makes the cursor of the next page
      obtain ⟨lead, final, next, back, isRest, rfl⟩ : ∃ lead final next back,
          rowsAfter key rows cursor = lead ++ final :: next :: back ∧
            limit = lead.length + 1 := by
        exact exists_page positive (not_le.mp fits)
      rw [isRest] at bound isRows page ⊢
      rw [cutPage_append] at page
      have final_rows : (before ++ lead) ++ final :: next :: back = rows := by
        rw [append_assoc, isRows]
      have below := rowsAfter_eq_iff (cursorOf final) (final_rows ▸ descending)
      rw [final_rows] at below
      have shorter : (next :: back).length ≤ count := by
        simp only [length_append, length_cons] at bound ⊢
        omega
      have isBack : (before ++ lead ++ [final]) ++ next :: back = rows := by
        rw [← final_rows, append_assoc _ [final]]
        rfl
      rw [leadsOn_append_iff, ← below]
      constructor
      · intro followed
        obtain ⟨rest, later, isLater⟩ : ∃ rest, Followed list (some (cursorOf final)) rest ∧
            rest = (next :: back).map shown := by
          generalize isAll : (lead ++ final :: next :: back).map shown = all at followed
          cases followed with
          | last listed ends =>
            cases page.symm.trans listed
            cases ends
          | next listed continues followed =>
            cases page.symm.trans listed
            cases continues
            refine ⟨_, followed, ?_⟩
            have split : (lead ++ final :: next :: back).map shown =
                (lead ++ [final]).map shown ++ (next :: back).map shown := by
              rw [← map_append, append_assoc]
              rfl
            rw [split] at isAll
            exact (append_cancel_left isAll).symm
        subst isLater
        have head := later.head?_eq positive lists
        have same : rowsAfter key rows (some (cursorOf final)) = next :: back := by
          have suffix := rowsAfter_suffix descending (some (cursorOf final))
          cases isRest : rowsAfter key rows (some (cursorOf final)) with
          | nil =>
            rw [isRest] at head
            cases head
          | cons row others =>
            rw [isRest] at head suffix
            have sameShown : shown next = shown row := Option.some.inj head
            have sameRow : row = next := inj_on_of_nodup_map distinct
              (suffix.subset (.head _)) (isBack ▸ by simp) sameShown.symm
            subst sameRow
            rw [suffix_eq_of_head distinct.of_map suffix ⟨_, isBack⟩]
        refine ⟨same, ?_⟩
        have again := ih (some (cursorOf final)) _ (by rw [same]; exact shorter)
          (by rw [same]; exact isBack)
        rw [same] at again
        exact again.mp later
      · rintro ⟨same, leadsOn⟩
        have again := ih (some (cursorOf final)) _ (by rw [same]; exact shorter)
          (by rw [same]; exact isBack)
        rw [same] at again
        have all : (lead ++ final :: next :: back).map shown =
            (lead ++ [final]).map shown ++ (next :: back).map shown := by
          rw [← map_append, append_assoc]
          rfl
        rw [all]
        exact .next page rfl (again.mpr leadsOn)

end Computed

end Keyset

end Obelus.Data
