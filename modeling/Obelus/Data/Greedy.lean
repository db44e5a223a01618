import Mathlib.Data.List.Induction
import Mathlib.Data.List.Nodup
import Mathlib.Data.List.Perm.Subperm

/-!
# Greedy choice and late arrivals

Elements are considered in an order, and an element is chosen unless an earlier
chosen one conflicts with it.  When the elements arrive one by one and each time
only the chosen ones and the new one are considered again, an element that lost
does not come back.  The order of arrival does not matter exactly when the
elements that lose to an earlier one also lose to one that no earlier element
conflicts with.
-/

namespace Obelus.Data

open List

universe u

section Greedy

variable {α : Type u}

/-- The elements of a list that no chosen element before them conflicts with,
chosen from front to back. -/
def greedy (conflict : α → α → Bool) : List α → List α → List α
  | _, [] => []
  | chosen, element :: rest =>
    if chosen.any fun before => conflict before element then greedy conflict chosen rest
    else element :: greedy conflict (chosen ++ [element]) rest

variable {conflict : α → α → Bool} {precedes : α → α → Prop}

theorem greedy_sublist (chosen elements : List α) :
    (greedy conflict chosen elements).Sublist elements := by
  induction elements generalizing chosen with
  | nil => exact Sublist.refl []
  | cons element rest ih =>
    unfold greedy
    split
    · exact (ih chosen).cons element
    · exact (ih _).cons_cons element

theorem greedy_append (chosen front back : List α) : greedy conflict chosen (front ++ back) =
      greedy conflict chosen front ++
        greedy conflict (chosen ++ greedy conflict chosen front) back := by
  induction front generalizing chosen with
  | nil => simp [greedy]
  | cons element rest ih =>
    rw [cons_append, greedy, greedy]
    split
    · exact ih chosen
    · rw [ih, cons_append, append_assoc, singleton_append]

/-- No chosen element conflicts with a later one. -/
theorem pairwise_greedy (chosen elements : List α) :
    (greedy conflict chosen elements).Pairwise (fun before element =>
        conflict before element = false) ∧
      ∀ element ∈ greedy conflict chosen elements, ∀ before ∈ chosen,
        conflict before element = false := by
  induction elements generalizing chosen with
  | nil => exact ⟨Pairwise.nil, by simp [greedy]⟩
  | cons head rest ih =>
    unfold greedy
    split
    · exact ih chosen
    · next free =>
      obtain ⟨pairwise, fromChosen⟩ := ih (chosen ++ [head])
      constructor
      · apply pairwise_cons.mpr ⟨_, pairwise⟩
        intro element member
        exact fromChosen element member head (by simp)
      · intro element member before isChosen
        rcases mem_cons.mp member with rfl | inRest
        · simpa using fun conflicts => free (any_eq_true.mpr ⟨before, isChosen, conflicts⟩)
        · exact fromChosen element inRest before (mem_append_left _ isChosen)

/-- An element of an ordered list is chosen when none of the elements chosen
before conflicts with it. -/
theorem mem_greedy_iff (asymm : ∀ first second, precedes first second → ¬precedes second first)
    {elements : List α} (ordered : elements.Pairwise precedes) (chosen : List α) (element : α) :
    element ∈ greedy conflict chosen elements ↔
      element ∈ elements ∧ (∀ before ∈ chosen, conflict before element = false) ∧
        ∀ before ∈ greedy conflict chosen elements, precedes before element →
          conflict before element = false := by
  constructor
  · intro member
    obtain ⟨free, fromChosen⟩ := pairwise_greedy chosen elements
    have inOrder : (greedy conflict chosen elements).Pairwise precedes :=
      ordered.sublist (greedy_sublist _ _)
    refine ⟨(greedy_sublist _ _).subset member, fromChosen element member, ?_⟩
    intro before isBefore
    apply Pairwise.forall_of_forall_of_flip _ _ _ isBefore member
    · exact fun self _ twice => absurd twice (asymm _ _ twice)
    · refine free.imp ?_
      exact fun isFree _ => isFree
    · exact inOrder.imp fun earlier later => absurd later (asymm _ _ earlier)
  · rintro ⟨member, freeOfChosen, freeOfRest⟩
    obtain ⟨front, back, rfl⟩ := append_of_mem member
    have freeOfFront :
        ∀ before ∈ greedy conflict chosen front, conflict before element = false := by
      intro before inFront
      have earlier := (pairwise_append.mp ordered).2.2 before
        ((greedy_sublist _ _).subset inFront) element mem_cons_self
      rw [greedy_append] at freeOfRest
      exact freeOfRest before (mem_append_left _ inFront) earlier
    rw [greedy_append, greedy, if_neg (by simpa using ⟨freeOfChosen, freeOfFront⟩)]
    exact mem_append_right _ mem_cons_self

/-- An element that is not chosen lost to a chosen one that stands before it. -/
theorem exists_mem_greedy_of_not_mem {front back : List α} {element : α}
    (lost : element ∉ greedy conflict [] (front ++ element :: back)) :
    ∃ before ∈ front, before ∈ greedy conflict [] (front ++ element :: back) ∧
      conflict before element = true := by
  rw [greedy_append] at lost ⊢
  have notFirst : element ∉ greedy conflict (greedy conflict [] front) (element :: back) :=
    fun member => lost (mem_append_right _ member)
  rw [greedy] at notFirst
  split at notFirst
  · next conflicts =>
    obtain ⟨before, isChosen, isRival⟩ := any_eq_true.mp conflicts
    exact ⟨before, (greedy_sublist [] front).subset isChosen, mem_append_left _ isChosen, isRival⟩
  · exact absurd mem_cons_self notFirst

/-- Without conflicts all elements are chosen. -/
theorem greedy_eq_self {elements : List α}
    (free : elements.Pairwise fun before element => conflict before element = false) :
    ∀ {chosen : List α}, (∀ element ∈ elements, ∀ before ∈ chosen,
      conflict before element = false) → greedy conflict chosen elements = elements := by
  induction elements with
  | nil => exact fun _ => rfl
  | cons head rest ih =>
    intro chosen fromChosen
    obtain ⟨headFree, restFree⟩ := pairwise_cons.mp free
    obtain ⟨ofHead, ofRest⟩ := forall_mem_cons.mp fromChosen
    rw [greedy, if_neg (by simpa using ofHead)]
    congr 1
    apply ih restFree
    intro element member before isBefore
    rcases mem_append.mp isBefore with isChosen | isHead
    · exact ofRest element member before isChosen
    · rw [mem_singleton.mp isHead]
      exact headFree element member

end Greedy

section Arrivals

variable {α : Type u} {conflict precedes : α → α → Prop} {choose : List α → List α}

/-- The elements chosen from a list: those with which no earlier chosen one
conflicts. -/
structure IsGreedy (conflict precedes : α → α → Prop) (chosen elements : List α) : Prop where
  nodup : chosen.Nodup
  mem_iff : ∀ element, element ∈ chosen ↔ element ∈ elements ∧
    ∀ before ∈ chosen, precedes before element → ¬conflict before element

/-- No earlier element of the list conflicts with the element. -/
def Unopposed (conflict precedes : α → α → Prop) (elements : List α) (element : α) : Prop :=
  ∀ before ∈ elements, precedes before element → ¬conflict before element

/-- Choose again after each arrival, from what was chosen before and the arrival. -/
def chooseOnArrival (choose : List α → List α) (arrivals : List α) : List α :=
  arrivals.foldl (fun chosen arrival => choose (chosen ++ [arrival])) []

theorem IsGreedy.subset {chosen elements : List α}
    (isGreedy : IsGreedy conflict precedes chosen elements) : chosen ⊆ elements :=
  fun element member => ((isGreedy.mem_iff element).mp member).1

theorem IsGreedy.mem_of_unopposed {chosen elements : List α}
    (isGreedy : IsGreedy conflict precedes chosen elements) {element : α}
    (member : element ∈ elements) (unopposed : Unopposed conflict precedes elements element) :
    element ∈ chosen :=
  (isGreedy.mem_iff element).mpr
    ⟨member, fun before isChosen => unopposed before (isGreedy.subset isChosen)⟩

/-- An element that is not chosen lost to an earlier chosen one. -/
theorem IsGreedy.exists_of_not_mem {chosen elements : List α}
    (isGreedy : IsGreedy conflict precedes chosen elements) {element : α}
    (member : element ∈ elements) (lost : element ∉ chosen) :
    ∃ before ∈ chosen, precedes before element ∧ conflict before element := by
  by_contra none
  push Not at none
  exact lost ((isGreedy.mem_iff element).mpr ⟨member, none⟩)

section Fixed

variable {elements : List α}
  (isGreedy : ∀ part : List α, part.Nodup → part ⊆ elements →
    IsGreedy conflict precedes (choose part) part)

theorem chooseOnArrival_snoc (arrivals : List α) (arrival : α) :
    chooseOnArrival choose (arrivals ++ [arrival]) =
      choose (chooseOnArrival choose arrivals ++ [arrival]) := by
  rw [chooseOnArrival, foldl_append]
  rfl

/-- What is chosen after some arrivals: no element twice, no element that did
not arrive, and every element that arrived unopposed. -/
structure ChosenOnArrival (conflict precedes : α → α → Prop)
    (elements arrivals chosen : List α) : Prop where
  nodup : chosen.Nodup
  subset : chosen ⊆ arrivals
  unopposed : ∀ element ∈ arrivals, Unopposed conflict precedes elements element →
    element ∈ chosen

include isGreedy in
theorem isGreedy_snoc {arrivals chosen : List α} {arrival : α}
    (nodup : (arrivals ++ [arrival]).Nodup) (arrive : arrivals ++ [arrival] ⊆ elements)
    (before : ChosenOnArrival conflict precedes elements arrivals chosen) :
    IsGreedy conflict precedes (choose (chosen ++ [arrival])) (chosen ++ [arrival]) := by
  apply isGreedy
  · have new := (nodup_append.mp nodup).2.2
    apply nodup_append.mpr
    refine ⟨before.nodup, nodup_singleton arrival, ?_⟩
    exact fun first member second isArrival => new first (before.subset member) second isArrival
  · apply append_subset.mpr
    constructor
    · exact fun element member => arrive (mem_append_left _ (before.subset member))
    · exact fun element member => arrive (mem_append_right _ member)

include isGreedy in
theorem chosenOnArrival {arrivals : List α} (nodup : arrivals.Nodup)
    (arrive : arrivals ⊆ elements) :
    ChosenOnArrival conflict precedes elements arrivals (chooseOnArrival choose arrivals) := by
  induction arrivals using reverseRecOn with
  | nil => exact ⟨nodup_nil, Subset.refl _, by simp⟩
  | append_singleton arrivals arrival ih =>
    have before := ih (nodup_append.mp nodup).1
      fun element member => arrive (mem_append_left _ member)
    have chosen := isGreedy_snoc isGreedy nodup arrive before
    have fromArrivals : chooseOnArrival choose arrivals ++ [arrival] ⊆ arrivals ++ [arrival] :=
      append_subset.mpr
        ⟨fun element member => mem_append_left _ (before.subset member), subset_append_right _ _⟩
    rw [chooseOnArrival_snoc]
    refine ⟨chosen.nodup, fun _ member => fromArrivals (chosen.subset member), ?_⟩
    intro element member unopposed
    apply chosen.mem_of_unopposed
    · rcases mem_append.mp member with old | isNew
      · exact mem_append_left _ (before.unopposed element old unopposed)
      · exact mem_append_right _ isNew
    · exact fun other isOther => unopposed other (arrive (fromArrivals isOther))

include isGreedy in
/-- Of two elements that are chosen on arrival the earlier one does not conflict
with the later one. -/
theorem not_conflict_of_mem_chooseOnArrival {arrivals : List α} (nodup : arrivals.Nodup)
    (arrive : arrivals ⊆ elements) {first second : α}
    (isFirst : first ∈ chooseOnArrival choose arrivals)
    (isSecond : second ∈ chooseOnArrival choose arrivals) (earlier : precedes first second) :
    ¬conflict first second := by
  rcases arrivals.eq_nil_or_concat with rfl | ⟨arrivals, arrival, rfl⟩
  · cases isFirst
  · rw [concat_eq_append] at nodup arrive isFirst isSecond
    have before := chosenOnArrival isGreedy (nodup_append.mp nodup).1
      fun element member => arrive (mem_append_left _ member)
    have chosen := isGreedy_snoc isGreedy nodup arrive before
    rw [chooseOnArrival_snoc] at isFirst isSecond
    exact ((chosen.mem_iff second).mp isSecond).2 first isFirst earlier

include isGreedy in
/-- An element whose earlier rival arrived just before it is lost for good. -/
theorem not_mem_chooseOnArrival_of_rival
    (asymm : ∀ first second, precedes first second → ¬precedes second first) {first second : α}
    (rest : List α) (nodup : (first :: second :: rest).Nodup)
    (arrive : first :: second :: rest ⊆ elements) (earlier : precedes first second)
    (conflicts : conflict first second) :
    second ∉ chooseOnArrival choose (first :: second :: rest) := by
  have irrefl : ¬precedes first first := fun self => asymm _ _ self self
  induction rest using reverseRecOn with
  | nil =>
    intro member
    have alone : ChosenOnArrival conflict precedes elements [first]
        (chooseOnArrival choose [first]) :=
      chosenOnArrival isGreedy (nodup_singleton first)
        fun element member => arrive (by simp [mem_singleton.mp member])
    have chosen := isGreedy_snoc isGreedy nodup arrive alone
    have single := isGreedy [first] (nodup_singleton first)
      fun element member => arrive (by simp [mem_singleton.mp member])
    have firstAlone : first ∈ chooseOnArrival choose [first] := by
      apply single.mem_of_unopposed mem_cons_self
      intro before member self
      rw [mem_singleton.mp member] at self
      exact absurd self irrefl
    have firstChosen : first ∈ choose (chooseOnArrival choose [first] ++ [second]) := by
      apply chosen.mem_of_unopposed (mem_append_left _ firstAlone)
      intro before isBefore self
      rcases mem_append.mp isBefore with isFirst | isSecond
      · rw [mem_singleton.mp (alone.subset isFirst)] at self
        exact absurd self irrefl
      · rw [mem_singleton.mp isSecond] at self
        exact absurd self (asymm _ _ earlier)
    exact ((chosen.mem_iff second).mp member).2 first firstChosen earlier conflicts
  | append_singleton rest arrival ih =>
    rw [← cons_append, ← cons_append] at nodup arrive ⊢
    have nodupBefore := (nodup_append.mp nodup).1
    have arriveBefore : first :: second :: rest ⊆ elements :=
      fun element member => arrive (mem_append_left _ member)
    have chosen := isGreedy_snoc isGreedy nodup arrive
      (chosenOnArrival isGreedy nodupBefore arriveBefore)
    rw [chooseOnArrival_snoc]
    intro member
    rcases mem_append.mp (chosen.subset member) with old | isNew
    · exact ih nodupBefore arriveBefore old
    · exact (nodup_append.mp nodup).2.2 second (by simp) second isNew rfl

theorem exists_perm_of_mem {elements : List α} {first second : α} (isFirst : first ∈ elements)
    (isSecond : second ∈ elements) (different : first ≠ second) :
    ∃ rest, (first :: second :: rest).Perm elements := by
  have nodup : [first, second].Nodup := by simpa using different
  have isPart : [first, second] ⊆ elements := by simp [isFirst, isSecond]
  obtain ⟨part, samePart, sublist⟩ := subperm_of_subset nodup isPart
  obtain ⟨rest, whole⟩ := sublist.exists_perm_append
  exact ⟨rest, (samePart.symm.append_right rest).trans whole.symm⟩

/-- Arrivals in every order lead to the choice from all elements exactly when
each element that an earlier one conflicts with also conflicts with an earlier
unopposed one. -/
theorem chooseOnArrival_orderFree_iff (distinct : elements.Nodup)
    (asymm : ∀ first second, precedes first second → ¬precedes second first)
    (isGreedy : ∀ part : List α, part.Nodup → part ⊆ elements →
      IsGreedy conflict precedes (choose part) part) :
    (∀ arrivals : List α, arrivals.Perm elements → ∀ element,
        element ∈ chooseOnArrival choose arrivals ↔ element ∈ choose elements) ↔
      ∀ first ∈ elements, ∀ second ∈ elements, precedes first second → conflict first second →
        ∃ before ∈ elements, precedes before second ∧ conflict before second ∧
          Unopposed conflict precedes elements before := by
  have all := isGreedy elements distinct (Subset.refl _)
  constructor
  · intro orderFree
    -- what is chosen from all elements is unopposed: a rival could arrive first
    have chosenUnopposed : ∀ element ∈ choose elements,
        Unopposed conflict precedes elements element := by
      intro element isChosen rival isRival earlier conflicts
      have member := all.subset isChosen
      have different : rival ≠ element := by
        rintro rfl
        exact asymm _ _ earlier earlier
      obtain ⟨rest, perm⟩ := exists_perm_of_mem isRival member different
      have lost := not_mem_chooseOnArrival_of_rival isGreedy asymm rest
        (perm.nodup_iff.mpr distinct) perm.subset earlier conflicts
      exact lost ((orderFree _ perm element).mpr isChosen)
    intro first isFirst second isSecond earlier conflicts
    have lost : second ∉ choose elements :=
      fun isChosen => chosenUnopposed second isChosen first isFirst earlier conflicts
    obtain ⟨before, isChosen, isEarlier, isRival⟩ := all.exists_of_not_mem isSecond lost
    exact ⟨before, all.subset isChosen, isEarlier, isRival, chosenUnopposed before isChosen⟩
  · intro losesToUnopposed arrivals perm element
    have nodup := perm.nodup_iff.mpr distinct
    have onArrival := chosenOnArrival isGreedy nodup perm.subset
    constructor
    · intro isChosen
      by_contra lost
      have member := perm.subset (onArrival.subset isChosen)
      obtain ⟨first, isFirst, earlier, conflicts⟩ := all.exists_of_not_mem member lost
      obtain ⟨before, isBefore, isEarlier, isRival, unopposed⟩ :=
        losesToUnopposed first (all.subset isFirst) element member earlier conflicts
      have rivalChosen := onArrival.unopposed before (perm.mem_iff.mpr isBefore) unopposed
      exact not_conflict_of_mem_chooseOnArrival isGreedy nodup perm.subset rivalChosen isChosen
        isEarlier isRival
    · intro isChosen
      have member := all.subset isChosen
      apply onArrival.unopposed element (perm.mem_iff.mpr member)
      intro first isFirst earlier conflicts
      obtain ⟨before, isBefore, isEarlier, isRival, unopposed⟩ :=
        losesToUnopposed first isFirst element member earlier conflicts
      have rivalChosen := all.mem_of_unopposed isBefore unopposed
      exact ((all.mem_iff element).mp isChosen).2 before rivalChosen isEarlier isRival

end Fixed

end Arrivals

end Obelus.Data
