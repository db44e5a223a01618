import Mathlib.Data.List.Chain

/-!
# Requests and their answers

A history of requests and answers, each with an id.  Repairing a history drops
every answer that nothing awaits, and then every request whose id is awaited at
the end.  For one id the history is a list of booleans, `true` for a request.
-/

namespace Obelus.Conversation

open List

/-! ## One id -/

namespace Calls

/-- The last call about the id is a request. -/
def awaited (calls : List Bool) : Bool :=
  calls.getLast? = some true

/-- The calls without the answers that nothing awaits, when `waiting` says
whether an answer was awaited before them. -/
def dropUnawaited (waiting : Bool) : List Bool → List Bool
  | [] => []
  | true :: rest => true :: dropUnawaited true rest
  | false :: rest => if waiting then false :: dropUnawaited false rest else dropUnawaited false rest

def settled (calls : List Bool) : List Bool :=
  (dropUnawaited false calls).filter fun isRequest => ¬(isRequest ∧ awaited calls)

/-- Every answer has a request before it, and every request has one answer after
it. -/
structure Paired (calls : List Bool) : Prop where
  requested : ∀ before after, calls = before ++ false :: after → true ∈ before
  answered : ∀ before after, calls = before ++ true :: after → after.count false = 1

/-- A request comes again after an answer to it. -/
def Reused (calls : List Bool) : Prop :=
  [true, false, true].Sublist calls

variable {calls left : List Bool} {front back : Nat}

theorem eq_replicate_of_not_mem {value : Bool} (absent : (!value) ∉ calls) :
    calls = replicate calls.length value := by
  apply eq_replicate_of_mem
  intro call member
  by_contra different
  rw [Bool.eq_not_of_ne different] at member
  exact absent member

/-- The calls are answers, then requests, then answers, unless a request comes
again. -/
theorem exists_replicate_of_not_reused (once : ¬Reused calls) :
    ∃ orphans requests answers, calls = replicate orphans false ++
      (replicate requests true ++ replicate answers false) := by
  induction calls with
  | nil => exact ⟨0, 0, 0, rfl⟩
  | cons call rest ih =>
    have restOnce : ¬Reused rest := fun again => once (again.cons call)
    obtain ⟨orphans, requests, answers, rfl⟩ := ih restOnce
    cases call with
    | false => exact ⟨orphans + 1, requests, answers, rfl⟩
    | true =>
      rcases orphans with _ | orphans
      · exact ⟨0, requests + 1, answers, by simp [replicate_succ]⟩
      · rcases requests with _ | requests
        · exact ⟨0, 1, orphans + 1 + answers, by
            simp [replicate_append_replicate]⟩
        · apply absurd _ once
          apply Sublist.cons_cons
          apply Sublist.cons_cons
          simp [replicate_succ]

variable (waiting : Bool)

theorem dropUnawaited_replicate_false (count : Nat) (rest : List Bool) :
    dropUnawaited waiting (replicate count false ++ rest) =
      if waiting ∧ 0 < count then false :: dropUnawaited false rest
      else dropUnawaited waiting rest := by
  induction count generalizing waiting with
  | zero => simp
  | succ count ih =>
    rw [replicate_succ]
    cases waiting with
    | false => simpa [dropUnawaited] using ih false
    | true => simpa [dropUnawaited] using ih false

theorem dropUnawaited_replicate_true (count : Nat) (rest : List Bool) :
    dropUnawaited waiting (replicate count true ++ rest) =
      replicate count true ++ dropUnawaited (waiting || decide (0 < count)) rest := by
  induction count generalizing waiting with
  | zero => simp
  | succ count ih => simp [replicate_succ, dropUnawaited, ih]

/-- What is left when no request comes again: requests and one answer, or
nothing. -/
theorem settled_of_not_reused (once : ¬Reused calls) :
    settled calls = [] ∨ ∃ requests, 0 < requests ∧
      settled calls = replicate requests true ++ [false] := by
  obtain ⟨orphans, requests, answers, rfl⟩ := exists_replicate_of_not_reused once
  rcases Nat.eq_zero_or_pos requests with rfl | requested
  · left
    have dropped := dropUnawaited_replicate_false false (orphans + answers) []
    simp only [append_nil] at dropped
    simp [settled, replicate_append_replicate, dropped, dropUnawaited]
  · have dropped : dropUnawaited false (replicate orphans false ++
        (replicate requests true ++ replicate answers false)) =
          replicate requests true ++ if 0 < answers then [false] else [] := by
      rw [dropUnawaited_replicate_false, dropUnawaited_replicate_true,
        ← append_nil (replicate answers false), dropUnawaited_replicate_false]
      simp [requested, dropUnawaited]
    rcases Nat.eq_zero_or_pos answers with rfl | answered
    · left
      have waiting : awaited (replicate orphans false ++
          (replicate requests true ++ replicate 0 false)) = true := by
        simp [awaited, getLast?_append, getLast?_replicate, Nat.ne_of_gt requested]
      rw [settled, dropped, waiting]
      simp
    · right
      have waiting : awaited (replicate orphans false ++
          (replicate requests true ++ replicate answers false)) = false := by
        simp [awaited, getLast?_append, getLast?_replicate, Nat.ne_of_gt answered]
      refine ⟨requests, requested, ?_⟩
      rw [settled, dropped, waiting]
      simp [answered]

/-- Alternating calls that begin with a request, or with an answer that is
awaited, are not dropped. -/
theorem sublist_dropUnawaited {alternating : List Bool} (alternates : alternating.IsChain (· ≠ ·))
    (sublist : alternating.Sublist calls) (start : alternating.head? = some false → waiting = true)
    : alternating.Sublist (dropUnawaited waiting calls) := by
  induction calls generalizing alternating waiting with
  | nil => simpa [dropUnawaited] using sublist
  | cons call rest ih =>
    cases call with
    | true =>
      rcases sublist_cons_iff.mp sublist with inRest | ⟨tail, rfl, inRest⟩
      · exact (ih true alternates inRest fun _ => rfl).cons true
      · exact (ih true alternates.tail inRest fun _ => rfl).cons_cons true
    | false =>
      cases waiting with
      | false =>
        rcases sublist_cons_iff.mp sublist with inRest | ⟨tail, rfl, -⟩
        · exact ih false alternates inRest start
        · exact absurd (start rfl) (by decide)
      | true =>
        have answers : ∀ tail, alternating = false :: tail → tail.Sublist rest →
            alternating.Sublist (false :: dropUnawaited false rest) := by
          rintro tail rfl inRest
          refine (ih false alternates.tail inRest fun next => ?_).cons_cons false
          cases tail with
          | nil => simp at next
          | cons head tail => simp_all
        rcases sublist_cons_iff.mp sublist with inRest | ⟨tail, tailEq, inRest⟩
        · cases alternating with
          | nil => exact nil_sublist _
          | cons head tail =>
            cases head with
            | true => exact (ih false alternates inRest (by simp)).cons false
            | false => exact answers tail rfl ((sublist_cons_self _ _).trans inRest)
        · exact answers tail tailEq inRest

/-- When a request comes again after an answer, an answer is left without a
request or a second answer is left. -/
theorem settled_of_reused (again : Reused calls) : 0 < (settled calls).count false ∧
      (true ∉ settled calls ∨ 2 ≤ (settled calls).count false) := by
  have kept := sublist_dropUnawaited false (by decide) again (by simp)
  have counted : ∀ waits : Bool, ((dropUnawaited false calls).filter fun isRequest =>
      decide ¬(isRequest = true ∧ waits = true)).count false =
        (dropUnawaited false calls).count false :=
    fun waits => count_filter (by simp)
  rw [settled, counted]
  constructor
  · exact lt_of_lt_of_le (by decide) (kept.count_le false)
  · by_cases waits : awaited calls = true
    · left
      simp [waits]
    · right
      have last : calls.getLast? = some false := by
        cases calls using reverseRecOn with
        | nil => cases again
        | append_singleton front last => cases last <;> simp_all [awaited]
      obtain ⟨front, rfl⟩ := getLast?_eq_some_iff.mp last
      have inFront : [true, false, true].Sublist front := by
        have reversed := reverse_sublist.mpr again
        rw [reverse_append] at reversed
        rcases sublist_cons_iff.mp reversed with inRest | ⟨tail, equal, -⟩
        · exact reverse_sublist.mp inRest
        · simp at equal
      have more := inFront.append (Sublist.refl [false])
      exact (sublist_dropUnawaited false (by decide) more (by simp)).count_le false

/-! ### Settled calls -/

theorem dropUnawaited_sublist (calls : List Bool) :
    (dropUnawaited waiting calls).Sublist calls := by
  induction calls generalizing waiting with
  | nil => exact Sublist.refl []
  | cons call rest ih =>
    cases call with
    | true => exact (ih true).cons_cons true
    | false =>
      cases waiting with
      | true => exact (ih false).cons_cons false
      | false => exact (ih false).cons false

theorem dropUnawaited_idem (calls : List Bool) :
    dropUnawaited waiting (dropUnawaited waiting calls) = dropUnawaited waiting calls := by
  induction calls generalizing waiting with
  | nil => rfl
  | cons call rest ih =>
    cases call with
    | true => exact congrArg (true :: ·) (ih true)
    | false =>
      cases waiting with
      | true => exact congrArg (false :: ·) (ih false)
      | false => exact ih false

theorem getLastD_dropUnawaited (calls : List Bool) :
    (dropUnawaited waiting calls).getLastD waiting = calls.getLastD waiting := by
  induction calls generalizing waiting with
  | nil => rfl
  | cons call rest ih =>
    cases call with
    | true =>
      rw [dropUnawaited, getLastD_cons, getLastD_cons]
      exact ih true
    | false =>
      rw [getLastD_cons]
      cases waiting with
      | true => exact getLastD_cons.trans (ih false)
      | false => exact ih false

theorem dropUnawaited_append (front back : List Bool) : dropUnawaited waiting (front ++ back) =
      dropUnawaited waiting front ++ dropUnawaited (front.getLastD waiting) back := by
  induction front generalizing waiting with
  | nil => rfl
  | cons call rest ih =>
    rw [getLastD_cons]
    cases call with
    | true => exact congrArg (true :: ·) (ih true)
    | false =>
      cases waiting with
      | true => exact congrArg (false :: ·) (ih false)
      | false => exact ih false

theorem head_dropUnawaited_true (calls : List Bool) :
    (dropUnawaited true calls).head? = calls.head? := by
  rcases calls with _ | ⟨_ | _, rest⟩ <;> rfl

theorem awaited_eq_getLastD (calls : List Bool) : awaited calls = calls.getLastD false := by
  rw [awaited, getLastD_eq_getLast?]
  cases calls.getLast? with
  | none => rfl
  | some last => cases last <;> rfl

/-- Dropping answers that nothing awaits leaves the last request awaited. -/
theorem awaited_dropUnawaited (calls : List Bool) :
    awaited (dropUnawaited false calls) = awaited calls := by
  rw [awaited_eq_getLastD, awaited_eq_getLastD, getLastD_dropUnawaited]

theorem false_mem_dropUnawaited_iff :
    false ∈ dropUnawaited false calls ↔ [true, false].Sublist calls := by
  constructor
  · induction calls with
    | nil => intro member; cases member
    | cons call rest ih =>
      cases call with
      | true =>
        intro member
        have inRest : false ∈ dropUnawaited true rest := by simpa [dropUnawaited] using member
        have answer := singleton_sublist.mpr ((dropUnawaited_sublist true rest).mem inRest)
        exact answer.cons_cons true
      | false => exact fun member => (ih member).cons false
  · intro answered
    have kept := sublist_dropUnawaited false (by decide) answered (by simp)
    exact kept.mem (by simp)

/-- What is left of the calls after requests at both ends were taken away is
settled when no answer is left of calls that are awaited, and when an answer
that lost its requests to the front is not the first of the others. -/
theorem settled_eq_self_iff
    (parts : settled calls = replicate front true ++ (left ++ replicate back true)) :
    settled left = left ↔ (awaited calls = true → ¬[true, false].Sublist calls) ∧
      (awaited calls = false → 0 < front → left.head? ≠ some false) := by
  cases isAwaited : awaited calls with
  | true =>
    have noRequest : true ∉ settled calls := by simp [settled, isAwaited]
    have noFront : front = 0 := by
      by_contra some
      exact noRequest (by rw [parts]; simp [some])
    have noBack : back = 0 := by
      by_contra some
      exact noRequest (by rw [parts]; simp [some])
    have leftEq : settled calls = left := by simpa [noFront, noBack] using parts
    have answers : left = replicate left.length false :=
      eq_replicate_of_not_mem (leftEq ▸ noRequest)
    have nothing : settled left = [] := by
      have dropped := dropUnawaited_replicate_false false left.length []
      simp only [append_nil] at dropped
      rw [settled, answers, dropped]
      rfl
    rw [nothing, ← leftEq, ← false_mem_dropUnawaited_iff]
    simp only [settled, isAwaited, forall_true_left, Bool.true_eq_false, false_implies, and_true]
    rw [eq_comm, filter_eq_nil_iff]
    constructor
    · intro none member
      exact none false member (by simp)
    · intro none call member
      cases call with
      | true => simp
      | false => exact absurd member none
  | false =>
    have whole : settled calls = dropUnawaited false calls := by simp [settled, isAwaited]
    rw [whole] at parts
    have last : awaited (dropUnawaited false calls) = false :=
      (awaited_dropUnawaited calls).trans isAwaited
    have noBack : back = 0 := by
      by_contra some
      rw [parts] at last
      simp [awaited, getLast?_append, getLast?_replicate, some] at last
    rw [noBack] at parts
    have kept : dropUnawaited (decide (0 < front)) left = left := by
      have again := dropUnawaited_idem false calls
      rw [parts, dropUnawaited_replicate_true] at again
      simpa using again
    have leftLast : awaited left = false := by
      rw [parts] at last
      cases left with
      | nil => rfl
      | cons call left => simpa [awaited, getLast?_append] using last
    have settledLeft : settled left = dropUnawaited false left := by simp [settled, leftLast]
    rw [settledLeft]
    simp only [Bool.false_eq_true, false_implies, true_and]
    rcases Nat.eq_zero_or_pos front with rfl | positive
    · simpa using kept
    · cases left with
      | nil => simp [dropUnawaited]
      | cons call left =>
        cases call with
        | true => simpa [dropUnawaited, positive] using kept
        | false =>
          have short := (dropUnawaited_sublist false left).length_le
          simp only [dropUnawaited, positive, forall_true_left, head?_cons, ne_eq,
            not_true_eq_false, iff_false]
          intro equal
          rw [if_neg (by decide)] at equal
          rw [equal, length_cons] at short
          omega

/-! ### Paired calls -/

theorem paired_replicate {requests : Nat} (positive : 0 < requests) :
    Paired (replicate requests true ++ [false]) where
  requested before after equal := by
    rcases append_eq_append_iff.mp equal with ⟨middle, rfl, -⟩ | ⟨middle, trues, rest⟩
    · simp [Nat.ne_of_gt positive]
    · cases middle with
      | nil =>
        rw [append_nil] at trues
        rw [← trues]
        simp [Nat.ne_of_gt positive]
      | cons call middle =>
        obtain rfl : call = false := by simpa using congrArg head? rest.symm
        have member : false ∈ replicate requests true := by simp [trues]
        simp at member
  answered before after equal := by
    rcases append_eq_append_iff.mp equal with ⟨middle, -, rest⟩ | ⟨middle, trues, rest⟩
    · have member : true ∈ [false] := by simp [rest]
      simp at member
    · cases middle with
      | nil => simp at rest
      | cons call middle =>
        obtain ⟨-, rfl⟩ := cons.inj rest
        have none : middle.count false = 0 := by
          apply count_eq_zero.mpr
          intro member
          have inAll : false ∈ replicate requests true := by simp [trues, member]
          simp at inAll
        simp [none]

/-- What is left of the calls after requests at both ends were taken away is
paired exactly when no request came again and not all requests were taken. -/
theorem paired_iff
    (parts : settled calls = replicate front true ++ (left ++ replicate back true)) :
    Paired left ↔ ¬Reused calls ∧ (true ∈ settled calls → true ∈ left) := by
  have answers : (settled calls).count false = left.count false := by
    rw [parts]
    simp [count_replicate]
  constructor
  · intro paired
    have atMostOne : false ∈ left → true ∈ left ∧ left.count false = 1 := by
      intro member
      obtain ⟨before, after, rfl, first⟩ := eq_append_cons_of_mem member
      have request := paired.requested before after rfl
      obtain ⟨early, late, rfl⟩ := append_of_mem request
      have one := paired.answered early (late ++ false :: after) (by simp)
      have none : early.count false = 0 :=
        count_eq_zero.mpr fun inEarly => first (mem_append_left _ inEarly)
      exact ⟨by simp, by simpa [none] using one⟩
    have once : ¬Reused calls := by
      intro again
      obtain ⟨some, conflict⟩ := settled_of_reused again
      rw [answers] at some conflict
      obtain ⟨request, one⟩ := atMostOne (count_pos_iff.mp some)
      rcases conflict with absent | two
      · apply absent
        rw [parts]
        simp [request]
      · omega
    refine ⟨once, fun request => ?_⟩
    rcases settled_of_not_reused once with nothing | ⟨requests, -, equal⟩
    · rw [nothing] at request
      cases request
    · have one : left.count false = 1 := by
        rw [← answers, equal]
        simp [count_replicate]
      exact (atMostOne (count_pos_iff.mp (by omega))).1
  · rintro ⟨once, requests⟩
    rcases settled_of_not_reused once with nothing | ⟨count, positive, equal⟩
    · have empty : left = [] := by
        simp_all
      subst empty
      exact ⟨by simp, by simp⟩
    · have backEq : back = 0 := by
        have last := congrArg getLast? (equal.symm.trans parts)
        by_contra nonzero
        simp [getLast?_append, getLast?_replicate, nonzero] at last
      subst backEq
      rw [replicate_zero, append_nil] at parts
      have request : true ∈ left := requests (by rw [equal]; simp [Nat.ne_of_gt positive])
      rcases append_eq_append_iff.mp (equal.symm.trans parts) with
        ⟨middle, -, answer⟩ | ⟨middle, trues, rfl⟩
      · have isAnswer : true ∈ [false] := by
          rw [answer]
          exact mem_append_right _ request
        simp at isAnswer
      · have middleEq : middle = replicate middle.length true :=
          (append_eq_replicate_iff.mp trues.symm).2.2
        rw [middleEq] at request ⊢
        apply paired_replicate
        by_contra none
        simp [Nat.eq_zero_of_not_pos none] at request

end Calls

/-! ## All ids -/

inductive ToolEvent
  | requested (id : String)
  | answered (id : String)
  deriving DecidableEq

namespace ToolEvent

def call (id : String) : ToolEvent → Option Bool
  | .requested other => if other = id then some true else none
  | .answered other => if other = id then some false else none

variable {event : ToolEvent} {events front left back : List ToolEvent}

theorem call_eq_true_iff {id : String} : event.call id = some true ↔ event = .requested id := by
  cases event <;> simp [call]

theorem call_eq_false_iff {id : String} : event.call id = some false ↔ event = .answered id := by
  cases event <;> simp [call]

def calls (id : String) (events : List ToolEvent) : List Bool :=
  events.filterMap (call id)

variable (id other : String) (before : List ToolEvent)

@[simp]
theorem calls_append (front back : List ToolEvent) :
    calls id (front ++ back) = calls id front ++ calls id back :=
  filterMap_append

theorem mem_calls_iff {id : String} : true ∈ calls id events ↔ .requested id ∈ events := by
  simp [calls, mem_filterMap, call_eq_true_iff]

theorem count_calls (events : List ToolEvent) :
    (calls id events).count false = events.count (.answered id) := by
  induction events with
  | nil => rfl
  | cons event rest ih =>
    rw [calls] at *
    cases event with
    | requested other =>
      by_cases same : other = id <;> simp [call, same, ih]
    | answered other =>
      by_cases same : other = id <;> simp [call, same, ih]

/-- The last event about the id is a request. -/
def awaited (id : String) (events : List ToolEvent) : Bool :=
  Calls.awaited (calls id events)

def dropUnawaited (before : List ToolEvent) : List ToolEvent → List ToolEvent
  | [] => []
  | .requested id :: rest => .requested id :: dropUnawaited (before ++ [.requested id]) rest
  | .answered id :: rest =>
    if awaited id before then .answered id :: dropUnawaited (before ++ [.answered id]) rest
    else dropUnawaited (before ++ [.answered id]) rest

/-- The event is a request whose id is awaited after all the events. -/
def orphaned (events : List ToolEvent) : ToolEvent → Bool
  | .requested id => awaited id events
  | .answered _ => false

def settled (events : List ToolEvent) : List ToolEvent :=
  (dropUnawaited [] events).filter fun event => !orphaned events event

theorem awaited_append_requested :
    awaited id (before ++ [.requested other]) = (decide (other = id) || awaited id before) := by
  by_cases same : other = id <;> simp [awaited, Calls.awaited, calls, call, same]

theorem awaited_append_answered :
    awaited id (before ++ [.answered other]) = (decide (other ≠ id) && awaited id before) := by
  by_cases same : other = id <;> simp [awaited, Calls.awaited, calls, call, same]

theorem calls_dropUnawaited (events : List ToolEvent) : calls id (dropUnawaited before events) =
      Calls.dropUnawaited (awaited id before) (calls id events) := by
  induction events generalizing before with
  | nil => rfl
  | cons event rest ih =>
    cases event with
    | requested other =>
      have tail := ih (before ++ [.requested other])
      rw [awaited_append_requested] at tail
      by_cases same : other = id
      · simpa [calls, dropUnawaited, call, same, Calls.dropUnawaited] using tail
      · simpa [calls, dropUnawaited, call, same] using tail
    | answered other =>
      have tail := ih (before ++ [.answered other])
      rw [awaited_append_answered] at tail
      by_cases same : other = id
      · subst same
        cases waiting : awaited other before <;>
          simpa [calls, dropUnawaited, call, Calls.dropUnawaited, waiting] using tail
      · cases waiting : awaited other before <;>
          simpa [calls, dropUnawaited, call, same, waiting] using tail

theorem calls_settled (events : List ToolEvent) :
    calls id (settled events) = Calls.settled (calls id events) := by
  have dropped : Calls.dropUnawaited false (calls id events) =
      calls id (dropUnawaited [] events) :=
    (calls_dropUnawaited id [] events).symm
  rw [settled, Calls.settled, dropped]
  simp only [calls]
  rw [filterMap_filter, filter_filterMap]
  apply filterMap_congr
  rintro (other | other) -
  · by_cases same : other = id
    · cases waiting : awaited other events <;>
        simp_all [call, orphaned, awaited, calls, Option.filter]
    · simp [call, same]
  · by_cases same : other = id <;> simp [call, orphaned, same, Option.filter]

/-- Every answer has a request before it, and every request has one answer after
it. -/
structure Paired (events : List ToolEvent) : Prop where
  requested : ∀ before id after, events = before ++ .answered id :: after →
    .requested id ∈ before
  answered : ∀ before id after, events = before ++ .requested id :: after →
    after.count (.answered id) = 1

theorem paired_iff_calls : Paired events ↔ ∀ id, Calls.Paired (calls id events) := by
  constructor
  · intro paired id
    have split : ∀ before call after, calls id events = before ++ call :: after →
        ∃ front event back, events = front ++ event :: back ∧ event.call id = some call ∧
          calls id front = before ∧ calls id back = after := by
      intro before call after equal
      obtain ⟨front, rest, rfl, rfl, restEq⟩ := filterMap_eq_append_iff.mp equal
      obtain ⟨others, event, back, rfl, none, isCall, rfl⟩ := filterMap_eq_cons_iff.mp restEq
      refine ⟨front ++ others, event, back, by simp, isCall, ?_, rfl⟩
      simpa [calls, filterMap_eq_nil_iff] using none
    constructor
    · intro before after equal
      obtain ⟨front, event, back, rfl, isCall, rfl, rfl⟩ := split before false after equal
      rw [call_eq_false_iff] at isCall
      subst isCall
      exact mem_calls_iff.mpr (paired.requested front id back rfl)
    · intro before after equal
      obtain ⟨front, event, back, rfl, isCall, rfl, rfl⟩ := split before true after equal
      rw [call_eq_true_iff] at isCall
      subst isCall
      rw [count_calls]
      exact paired.answered front id back rfl
  · intro paired
    constructor
    · rintro before id after rfl
      apply mem_calls_iff.mp
      apply (paired id).requested _ (calls id after)
      simp [calls, call]
    · rintro before id after rfl
      rw [← count_calls]
      apply (paired id).answered (calls id before)
      simp [calls, call]

/-- An id is requested again after it was answered. -/
def Reused (id : String) (events : List ToolEvent) : Prop :=
  [.requested id, .answered id, .requested id].Sublist events

/-- Calls about the id in their order. -/
theorem sublist_iff_calls {id : String} (some : List Bool) (events : List ToolEvent) :
    (some.map fun isRequest => if isRequest then requested id else answered id).Sublist events ↔
      some.Sublist (calls id events) := by
  constructor
  · intro sublist
    have mapped := sublist.filterMap (call id)
    have same : (some.map fun isRequest =>
        if isRequest then requested id else answered id).filterMap (call id) = some := by
      rw [filterMap_map]
      refine (filterMap_congr fun isRequest _ => ?_).trans filterMap_some
      cases isRequest <;> simp [call]
    rwa [same] at mapped
  · induction events generalizing some with
    | nil =>
      intro sublist
      obtain rfl := sublist_nil.mp sublist
      exact nil_sublist _
    | cons event rest ih =>
      intro sublist
      rw [calls, filterMap_cons] at sublist
      cases isCall : event.call id with
      | none =>
        rw [isCall] at sublist
        exact (ih some sublist).cons event
      | some call =>
        rw [isCall] at sublist
        rcases sublist_cons_iff.mp sublist with inRest | ⟨tail, rfl, inRest⟩
        · exact (ih _ inRest).cons event
        · have same : event = if call then requested id else answered id := by
            cases call
            · exact call_eq_false_iff.mp isCall
            · exact call_eq_true_iff.mp isCall
          rw [map_cons, ← same]
          exact (ih tail inRest).cons_cons event

theorem reused_iff_calls {id : String} : Reused id events ↔ Calls.Reused (calls id events) :=
  sublist_iff_calls [true, false, true] events

/-! ### Settled events -/

theorem count_calls_true (events : List ToolEvent) :
    (calls id events).count true = events.count (.requested id) := by
  induction events with
  | nil => rfl
  | cons event rest ih =>
    rw [calls] at *
    cases event with
    | requested other =>
      by_cases same : other = id <;> simp [call, same, ih]
    | answered other =>
      by_cases same : other = id <;> simp [call, same, ih]

theorem settled_sublist (events : List ToolEvent) : (settled events).Sublist events := by
  have dropped : ∀ before, (dropUnawaited before events).Sublist events := by
    induction events with
    | nil => exact fun _ => Sublist.refl []
    | cons event rest ih =>
      intro before
      have tail := ih (before ++ [event])
      cases event with
      | requested id => exact tail.cons_cons _
      | answered id =>
        rw [dropUnawaited]
        split
        · exact tail.cons_cons _
        · exact tail.cons _
  exact filter_sublist.trans (dropped [])

/-- The events are settled when the calls of each id are. -/
theorem settled_eq_self_iff_calls :
    settled events = events ↔ ∀ id, Calls.settled (calls id events) = calls id events := by
  constructor
  · intro kept id
    rw [← calls_settled, kept]
  · intro kept
    apply (settled_sublist events).eq_of_length
    apply Perm.length_eq
    rw [perm_iff_count]
    intro event
    have sameCalls : ∀ id, calls id (settled events) = calls id events := fun id =>
      (calls_settled id events).trans (kept id)
    cases event with
    | requested id => rw [← count_calls_true, sameCalls, count_calls_true]
    | answered id => rw [← count_calls, sameCalls, count_calls]

/-- An id is answered after it was requested. -/
def Answered (id : String) (events : List ToolEvent) : Prop :=
  [.requested id, .answered id].Sublist events

theorem answered_iff_calls {id : String} :
    Answered id events ↔ [true, false].Sublist (calls id events) :=
  sublist_iff_calls [true, false] events

theorem calls_eq_replicate_of_not_answered {id : String} (none : .answered id ∉ events) :
    calls id events = replicate (calls id events).length true := by
  apply Calls.eq_replicate_of_not_mem
  rw [Bool.not_true, ← count_pos_iff, count_calls, count_pos_iff]
  exact none

/-- What is left of the settled events after requests at both ends were taken
away is settled. -/
theorem settled_left_iff (parts : settled events = front ++ (left ++ back))
    (frontRequests : ∀ id, .answered id ∉ front) (backRequests : ∀ id, .answered id ∉ back) :
    settled left = left ↔ (∀ id, awaited id events = true → ¬Answered id events) ∧
      ∀ id, awaited id events = false → .requested id ∈ front →
        (calls id left).head? ≠ some false := by
  have each : ∀ id, Calls.settled (calls id left) = calls id left ↔
      (awaited id events = true → ¬Answered id events) ∧ (awaited id events = false →
        .requested id ∈ front → (calls id left).head? ≠ some false) := by
    intro id
    have callParts := congrArg (calls id) parts
    rw [calls_settled, calls_append, calls_append,
      calls_eq_replicate_of_not_answered (frontRequests id),
      calls_eq_replicate_of_not_answered (backRequests id)] at callParts
    have requested : 0 < (calls id front).length ↔ .requested id ∈ front := by
      rw [← mem_calls_iff]
      constructor
      · intro positive
        rw [calls_eq_replicate_of_not_answered (frontRequests id)]
        exact mem_replicate.mpr ⟨Nat.ne_of_gt positive, rfl⟩
      · exact length_pos_of_mem
    rw [Calls.settled_eq_self_iff callParts, requested, ← answered_iff_calls]
    rfl
  rw [settled_eq_self_iff_calls]
  simp [each, forall_and]

/-! ### Paired events -/

/-- What is left of the settled events after requests at both ends were taken
away is paired exactly when no id was requested again after an answer and every
id that is still requested is requested in what is left. -/
theorem paired_iff (parts : settled events = front ++ (left ++ back))
    (frontRequests : ∀ id, .answered id ∉ front) (backRequests : ∀ id, .answered id ∉ back) :
    Paired left ↔ (∀ id, ¬Reused id events) ∧
      ∀ id, .requested id ∈ settled events → .requested id ∈ left := by
  have each : ∀ id, Calls.Paired (calls id left) ↔ ¬Reused id events ∧
      (.requested id ∈ settled events → .requested id ∈ left) := by
    intro id
    have callParts := congrArg (calls id) parts
    rw [calls_settled, calls_append, calls_append,
      calls_eq_replicate_of_not_answered (frontRequests id),
      calls_eq_replicate_of_not_answered (backRequests id)] at callParts
    rw [Calls.paired_iff callParts, reused_iff_calls, ← calls_settled, mem_calls_iff, mem_calls_iff]
  rw [paired_iff_calls]
  simp [each, forall_and]

/-- No request is left at the end when no id was requested again. -/
theorem requested_not_mem_back (parts : settled events = front ++ back)
    (backRequests : ∀ id, .answered id ∉ back) {id : String} (once : ¬Reused id events) :
    .requested id ∉ back := by
  intro member
  have callParts := congrArg (calls id) parts
  rw [calls_settled, calls_append] at callParts
  have requests := calls_eq_replicate_of_not_answered (backRequests id)
  have nonempty : (calls id back).length ≠ 0 := by
    have request := mem_calls_iff.mpr member
    rintro none
    rw [length_eq_zero_iff.mp none] at request
    cases request
  rw [reused_iff_calls] at once
  have last := congrArg getLast? callParts
  rw [requests, getLast?_append, getLast?_replicate, if_neg nonempty] at last
  rcases Calls.settled_of_not_reused once with nothing | ⟨count, -, equal⟩
  · rw [nothing] at last
    simp at last
  · rw [equal] at last
    simp at last

end ToolEvent

end Obelus.Conversation
