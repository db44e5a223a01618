import Mathlib.Data.List.Count
import Obelus.Live.FactCheck.Jobs

/-!
# Fact-check jobs are idempotent

As long as a job goes into the map only while the map has none, there is one job object,
and only the one run of the job changes it.
-/

namespace Obelus.Live.FactCheck

open Obelus.Transition List

variable {ρ : Type}

/-! ## Lists with one counted element -/

section Counting

variable {α : Type} {counts : α → Bool} {elements : List α} {place : Nat} {element other : α}

theorem countP_split (here : elements[place]? = some element) :
    elements.countP counts = (elements.take place).countP counts +
      ((if counts element then 1 else 0) + (elements.drop (place + 1)).countP counts) := by
  obtain ⟨inList, rfl⟩ := List.getElem?_eq_some_iff.mp here
  conv_lhs => rw [← take_append_drop place elements, drop_eq_getElem_cons inList]
  rw [countP_append, countP_cons]
  omega

theorem countP_set (counts : α → Bool) (other : α) (here : elements[place]? = some element) :
    (elements.set place other).countP counts + (if counts element then 1 else 0) =
      elements.countP counts + if counts other then 1 else 0 := by
  obtain ⟨inList, rfl⟩ := List.getElem?_eq_some_iff.mp here
  have counted := boole_getElem_le_countP (p := counts) inList
  rw [countP_set inList]
  omega

/-- The only counted element is replaced. -/
theorem mem_set_of_only (here : elements[place]? = some element) (counted : counts element)
    (one : elements.countP counts ≤ 1) :
    ∀ found ∈ elements.set place other, found = other ∨ counts found = false := by
  have inList := (List.getElem?_eq_some_iff.mp here).1
  rw [countP_split here, if_pos counted] at one
  have before : (elements.take place).countP counts = 0 := by omega
  have after : (elements.drop (place + 1)).countP counts = 0 := by omega
  rw [countP_eq_zero] at before after
  rw [set_eq_take_append_cons_drop, if_pos inList]
  intro found member
  rcases mem_append.mp member with early | member
  · exact .inr (by simpa using before found early)
  · rcases mem_cons.mp member with same | late
    · exact .inl same
    · exact .inr (by simpa using after found late)

end Counting

/-! ## One job object -/

/-- The run keeps the id in `runningJobs`. -/
def RunPhase.isUnreleased : RunPhase ρ → Bool
  | .released => false
  | _ => true

def SameInput (first second : StoredLocalFactCheckJob ρ) : Prop :=
  first.stage = second.stage ∧ first.request = second.request

/-- A call refers to the job object, if it refers to one. -/
def CallFits (held : Option (StoredLocalFactCheckJob ρ)) (pending : PendingCall) : Prop :=
  match pending.phase with
  | .looked (some number) => number = 0 ∧ held.isSome
  | .persisting number => number = 0 ∧ ∃ job ∈ held, ∀ stage request,
      pending.call = .submit stage request → job.stage = stage ∧ job.request = request
  | _ => True

/-- A run past its first check works on the job object, which is runnable. -/
def RunFits (held : Option (StoredLocalFactCheckJob ρ)) : RunPhase ρ → Prop
  | .marking number next => number = 0 ∧ ∃ job ∈ held, isRunnable job.status ∧
      SameInput next job ∧ isRunnable next.status
  | .checking number => number = 0 ∧ ∃ job ∈ held, isRunnable job.status
  | .retrieving number => number = 0 ∧ ∃ job ∈ held, isRunnable job.status
  | .synthesizing number => number = 0 ∧ ∃ job ∈ held, isRunnable job.status
  | .settling number next _ => number = 0 ∧ ∃ job ∈ held, isRunnable job.status ∧
      SameInput next job
  | _ => True

/-- What was returned fits the job object. -/
def EventFits (held : Option (StoredLocalFactCheckJob ρ)) : FactCheckEvent ρ → Prop
  | .submitted stage request response => ∃ job ∈ held, job.stage = stage ∧
      job.request = request ∧ (response.isSettled → publicJob job = response)
  | .polled response => ∃ job ∈ held, response.isSettled → publicJob job = response
  | .synthesis _ => True

/-- What every step keeps.  `held` is the job object. -/
structure Steady (service : LocalFactCheckService ρ) (trace : List (FactCheckEvent ρ))
    (held : Option (StoredLocalFactCheckJob ρ)) : Prop where
  objects : service.objects = held.toList
  job : service.job = held.map fun _ => 0
  calls : ∀ pending ∈ service.calls, CallFits held pending
  runs : ∀ run ∈ service.runs, RunFits held run
  counted : service.runs.countP RunPhase.isUnreleased = if service.running then 1 else 0
  events : ∀ event ∈ trace, EventFits held event
  frozen : trace.Pairwise Frozen

variable {response : GatewayJobResponse ρ} {held : Option (StoredLocalFactCheckJob ρ)}
  {event : FactCheckEvent ρ} {pending : PendingCall} {own : StoredLocalFactCheckJob ρ}

theorem not_isRunnable_of_isSettled {job : StoredLocalFactCheckJob ρ}
    (same : publicJob job = response) (settled : response.isSettled) :
    isRunnable job.status = false := by
  subst same
  rcases settled with complete | failed
  · exact congrArg isRunnable complete
  · exact congrArg isRunnable failed

theorem EventFits.settled (fits : EventFits held event)
    (isResponse : event.response = some response) (settled : response.isSettled) :
    ∃ job, held = some job ∧ publicJob job = response := by
  cases event with
  | submitted stage request own =>
    cases isResponse
    obtain ⟨job, isHeld, -, -, same⟩ := fits
    exact ⟨job, isHeld, same settled⟩
  | polled own =>
    cases isResponse
    obtain ⟨job, isHeld, same⟩ := fits
    exact ⟨job, isHeld, same settled⟩
  | synthesis run => cases isResponse

theorem CallFits.of_none (fits : CallFits (none : Option (StoredLocalFactCheckJob ρ)) pending) :
    CallFits held pending := by
  unfold CallFits at fits ⊢
  split <;> simp_all

theorem RunFits.of_none {run : RunPhase ρ} (fits : RunFits none run) : RunFits held run := by
  cases run <;> simp_all [RunFits]

theorem EventFits.of_none (fits : EventFits none event) : EventFits held event := by
  cases event <;> simp_all [EventFits]

theorem CallFits.of_same {next : StoredLocalFactCheckJob ρ} (fits : CallFits (some own) pending)
    (same : SameInput next own) : CallFits (some next) pending := by
  unfold CallFits at fits ⊢
  split
  · next number isPhase =>
    rw [isPhase] at fits
    exact ⟨fits.1, rfl⟩
  · next number isPhase =>
    rw [isPhase] at fits
    obtain ⟨zero, _, ⟨⟩, sameInput⟩ := fits
    refine ⟨zero, next, rfl, fun stage request isCall => ?_⟩
    rw [same.1, same.2]
    exact sameInput stage request isCall
  · trivial

/-- A runnable job was not returned as complete or failed. -/
theorem EventFits.of_runnable {next : StoredLocalFactCheckJob ρ} (fits : EventFits (some own) event)
    (runnable : isRunnable own.status) (same : SameInput next own) :
    EventFits (some next) event := by
  have unsettled {response : GatewayJobResponse ρ}
      (was : response.isSettled → publicJob own = response) (settled : response.isSettled) :
      publicJob next = response := by
    rw [not_isRunnable_of_isSettled (was settled) settled] at runnable
    cases runnable
  cases event with
  | submitted stage request response =>
    obtain ⟨_, ⟨⟩, sameStage, sameRequest, was⟩ := fits
    exact ⟨next, rfl, same.1.trans sameStage, same.2.trans sameRequest, unsettled was⟩
  | polled response =>
    obtain ⟨_, ⟨⟩, was⟩ := fits
    exact ⟨next, rfl, unsettled was⟩
  | synthesis run => trivial

namespace Steady

variable {service : LocalFactCheckService ρ} {trace : List (FactCheckEvent ρ)}
  {held : Option (StoredLocalFactCheckJob ρ)}

theorem idempotent {config : Config (LocalFactCheckService ρ) (FactCheckEvent ρ)}
    (steady : Steady config.state config.trace held) : Idempotent config where
  sameInput := by
    intro stage request response stage' request' response' first second
    obtain ⟨job, isHeld, rfl, rfl, -⟩ := steady.events _ first
    obtain ⟨job', isHeld', rfl, rfl, -⟩ := steady.events _ second
    cases Option.some.inj (isHeld.symm.trans isHeld')
    exact ⟨rfl, rfl⟩
  oneRun := by
    have more : config.state.runs.countP RunPhase.isPastFirstCheck ≤
        config.state.runs.countP RunPhase.isUnreleased := by
      refine countP_mono_left fun run _ => ?_
      cases run <;> simp [RunPhase.isPastFirstCheck, RunPhase.isUnreleased]
    rw [steady.counted] at more
    exact Nat.le_trans more (by split <;> decide)
  frozen := steady.frozen

variable {own : StoredLocalFactCheckJob ρ} {run call : Nat} {earlier phase : RunPhase ρ}
  {emitted : List (FactCheckEvent ρ)}

theorem object (steady : Steady service trace held) {number : Nat}
    (found : service.objects[number]? = some own) : number = 0 ∧ held = some own := by
  rw [steady.objects] at found
  cases held with
  | none => simp at found
  | some first =>
    cases number with
    | zero => simpa using found
    | succ number => simp at found

theorem object_zero (steady : Steady service trace (some own)) :
    service.objects[0]? = some own := by
  simp [steady.objects]

/-! ## Steps that keep the job object -/

section

variable (steady : Steady service trace held)
include steady

theorem withPhase (call : Nat) {phase : CallPhase}
    (fits : ∀ pending, service.calls[call]? = some pending → CallFits held { pending with phase }) :
    Steady (service.withPhase call phase) trace held :=
  { steady with
    calls := by
      intro pending member
      obtain ⟨place, found⟩ := mem_iff_getElem?.mp member
      simp only [LocalFactCheckService.withPhase, getElem?_modify] at found
      obtain ⟨earlier, foundEarlier, rfl⟩ := Option.map_eq_some_iff.mp found
      split
      · next same =>
        subst same
        exact fits earlier foundEarlier
      · exact steady.calls _ (mem_iff_getElem?.mpr ⟨place, foundEarlier⟩) }

theorem endCall (call : Nat) : Steady (service.withPhase call .ended) trace held :=
  steady.withPhase call fun _ _ => trivial

theorem withRun (isAt : service.runs[run]? = some earlier) (fits : RunFits held phase)
    (same : phase.isUnreleased = earlier.isUnreleased) :
    Steady (service.withRun run phase) trace held :=
  { steady with
    runs := by
      intro found member
      rcases mem_or_eq_of_mem_set member with before | rfl
      · exact steady.runs found before
      · exact fits
    counted := by
      have counts := countP_set RunPhase.isUnreleased phase isAt
      rw [same] at counts
      exact (Nat.add_right_cancel counts).trans steady.counted }

theorem enqueue : Steady service.enqueue trace held := by
  unfold LocalFactCheckService.enqueue
  split
  · exact steady
  · next idle =>
    have notRunning : service.running = false := by
      cases running : service.running <;> simp [running] at idle ⊢
    exact
      { steady with
        runs := by
          intro run member
          rcases mem_append.mp member with before | added
          · exact steady.runs run before
          · cases mem_singleton.mp added
            trivial
        counted := by
          simp [countP_append, steady.counted, notRunning, RunPhase.isUnreleased] }

theorem enqueueIfRunnable (own : StoredLocalFactCheckJob ρ) :
    Steady (service.enqueueIfRunnable own) trace held := by
  unfold LocalFactCheckService.enqueueIfRunnable
  split
  · exact steady.enqueue
  · exact steady

theorem emit {event : FactCheckEvent ρ} (fits : EventFits held event)
    (later : ∀ earlier ∈ trace, Frozen earlier event) : Steady service (trace ++ [event]) held :=
  { steady with
    events := by
      intro found member
      rcases mem_append.mp member with before | added
      · exact steady.events found before
      · cases mem_singleton.mp added
        exact fits
    frozen := pairwise_append.mpr ⟨steady.frozen, pairwise_singleton _ _,
      fun earlier member found added => by
        cases mem_singleton.mp added
        exact later earlier member⟩ }

end

theorem submitted (steady : Steady service trace (some own)) :
    Steady service (trace ++ [.submitted own.stage own.request (publicJob own)]) (some own) :=
  steady.emit ⟨own, rfl, rfl, rfl, fun _ => rfl⟩ fun _ _ _ _ _ => trivial

/-- A poll returns what was returned when the job was complete or failed. -/
theorem polled (steady : Steady service trace (some own)) :
    Steady service (trace ++ [.polled (publicJob own)]) (some own) := by
  refine steady.emit ⟨own, rfl, fun _ => rfl⟩ fun earlier member response isResponse settled => ?_
  obtain ⟨held, isHeld, rfl⟩ := (steady.events earlier member).settled isResponse settled
  cases isHeld
  exact ⟨rfl, rfl, rfl⟩

/-- A job that is still runnable was not returned as complete or failed. -/
theorem synthesis (steady : Steady service trace (some own)) (runnable : isRunnable own.status)
    (run : Nat) : Steady service (trace ++ [.synthesis run]) (some own) := by
  refine steady.emit trivial fun earlier member response isResponse settled => ?_
  obtain ⟨held, isHeld, same⟩ := (steady.events earlier member).settled isResponse settled
  cases isHeld
  rw [not_isRunnable_of_isSettled same settled] at runnable
  cases runnable

/-! ## A job object is made -/

section

variable (steady : Steady service trace held)
include steady

theorem insert (absent : service.job = none) (own : StoredLocalFactCheckJob ρ) :
    Steady (service.insert own) trace (some own) := by
  have none : held = none := by
    have isJob := steady.job
    rw [absent] at isJob
    exact Option.map_eq_none_iff.mp isJob.symm
  subst none
  exact
    { steady with
      objects := by simp [LocalFactCheckService.insert, steady.objects]
      job := by simp [LocalFactCheckService.insert, steady.objects]
      calls := fun pending member => (steady.calls pending member).of_none
      runs := fun run member => (steady.runs run member).of_none
      events := fun event member => (steady.events event member).of_none }

theorem read (call : Nat) {found : Option (StoredLocalFactCheckJob ρ)}
    (first : found.isSome → service.job = none) :
    ∃ held', Steady (service.read call found) trace held' := by
  cases found with
  | none => exact ⟨held, steady.withPhase call fun _ _ => trivial⟩
  | some own =>
    have inserted := steady.insert (first rfl) own
    have empty : service.objects.length = 0 := by
      have isJob := steady.job
      rw [first rfl] at isJob
      simp [steady.objects, Option.map_eq_none_iff.mp isJob.symm]
    exact ⟨some own, inserted.withPhase call fun _ _ => ⟨empty, rfl⟩⟩

/-! ## Calls -/

theorem lookup (call : Nat) : Steady (service.lookup call) trace held := by
  refine steady.withPhase call fun pending _ => ?_
  rw [steady.job]
  cases held with
  | none => trivial
  | some own => exact ⟨rfl, rfl⟩

theorem submitLooked {stage : FactCheckStage} {request : StoredFactCheckRequest}
    {found : Option Nat} (isAt : service.calls[call]? = some ⟨.submit stage request, .looked found⟩)
    (first : found = none → service.job = none) :
    ∃ held', Steady (service.submitLooked call stage request found).1
      (trace ++ (service.submitLooked call stage request found).2) held' := by
  cases found with
  | none =>
    have inserted := steady.insert (first rfl) { stage, request }
    have empty : service.objects.length = 0 := by
      have isJob := steady.job
      rw [first rfl] at isJob
      simp [steady.objects, Option.map_eq_none_iff.mp isJob.symm]
    refine ⟨some { stage, request }, ?_⟩
    rw [LocalFactCheckService.submitLooked, append_nil]
    refine inserted.withPhase call fun pending isPending => ⟨empty, _, rfl, ?_⟩
    cases isAt.symm.trans isPending
    rintro _ _ ⟨⟩
    exact ⟨rfl, rfl⟩
  | some number =>
    refine ⟨held, ?_⟩
    dsimp only [LocalFactCheckService.submitLooked]
    split
    · next own isObject =>
      obtain ⟨-, rfl⟩ := steady.object isObject
      split
      · next same =>
        obtain ⟨rfl, rfl⟩ := same
        exact ((steady.enqueueIfRunnable own).endCall call).submitted
      · rw [append_nil]
        exact steady.endCall call
    · rw [append_nil]
      exact steady.endCall call

theorem pollLooked (call : Nat) (found : Option Nat) : Steady (service.pollLooked call found).1
      (trace ++ (service.pollLooked call found).2) held := by
  unfold LocalFactCheckService.pollLooked
  split
  · next own isObject =>
    obtain ⟨number, -, isObject⟩ := Option.bind_eq_some_iff.mp isObject
    obtain ⟨-, rfl⟩ := steady.object isObject
    exact ((steady.enqueueIfRunnable own).endCall call).polled
  · rw [append_nil]
    exact steady.endCall call

theorem persisted {succeeded : Bool} {next : LocalFactCheckService ρ}
    (stepped : service.persisted call succeeded = some (next, emitted)) :
    Steady next (trace ++ emitted) held := by
  unfold LocalFactCheckService.persisted at stepped
  split at stepped
  · next stage request number isAt =>
    obtain ⟨rfl, own, isHeld, sameInput⟩ := steady.calls _ (mem_of_getElem? isAt)
    obtain rfl : held = some own := isHeld
    obtain ⟨rfl, rfl⟩ := sameInput stage request rfl
    cases succeeded with
    | false =>
      cases stepped
      rw [append_nil]
      exact steady.endCall call
    | true =>
      simp only [LocalFactCheckService.submitPersisted, steady.object_zero] at stepped
      cases stepped
      exact (steady.enqueue.endCall call).submitted
  · cases stepped

end

/-! ## Runs -/

/-- The only run of the job changes it. -/
theorem assign {next : StoredLocalFactCheckJob ρ} (steady : Steady service trace (some own))
    (isAt : service.runs[run]? = some earlier) (unreleased : earlier.isUnreleased)
    (runnable : isRunnable own.status) (same : SameInput next own)
    (fits : RunFits (some next) phase) (stays : phase.isUnreleased) :
    Steady ((service.assign 0 next).withRun run phase) trace (some next) where
  objects := by simp [LocalFactCheckService.assign, LocalFactCheckService.withRun, steady.objects]
  job := rfl
  calls := fun pending member => (steady.calls pending member).of_same same
  runs := by
    intro found member
    have one : service.runs.countP RunPhase.isUnreleased ≤ 1 := by
      rw [steady.counted]
      split <;> decide
    rcases mem_set_of_only isAt unreleased one found member with rfl | released
    · exact fits
    · cases found <;> trivial
  counted := by
    have counts := countP_set RunPhase.isUnreleased phase isAt
    rw [if_pos unreleased, if_pos stays] at counts
    exact (Nat.add_right_cancel counts).trans steady.counted
  events := fun event member => (steady.events event member).of_runnable runnable same
  frozen := steady.frozen

theorem start (steady : Steady service trace held) (isAt : service.runs[run]? = some .queued) :
    Steady (service.start run) trace held := by
  have ended : Steady (service.withRun run .ended) trace held := steady.withRun isAt trivial rfl
  unfold LocalFactCheckService.start
  split
  · next number own found =>
    obtain ⟨place, -, mapped⟩ := Option.bind_eq_some_iff.mp found
    obtain ⟨_, isObject, ⟨⟩⟩ := Option.map_eq_some_iff.mp mapped
    obtain ⟨rfl, rfl⟩ := steady.object isObject
    split
    · next runnable =>
      exact steady.withRun isAt ⟨rfl, own, rfl, runnable, ⟨rfl, rfl⟩, rfl⟩ rfl
    · exact ended
  · exact ended

theorem update (steady : Steady service trace (some own)) (isAt : service.runs[run]? = some earlier)
    (unreleased : earlier.isUnreleased) (runnable : isRunnable own.status) (patch : JobPatch ρ)
    (caught : Bool) : Steady (service.update run 0 patch caught) trace (some own) := by
  simp only [LocalFactCheckService.update, steady.object_zero]
  exact steady.withRun isAt ⟨rfl, own, rfl, runnable, rfl, rfl⟩ unreleased.symm

section

variable (steady : Steady service trace held)
include steady

theorem updated {outcome : Except Thrown Unit} {next : LocalFactCheckService ρ}
    (stepped : service.updated run outcome = some next) : ∃ held', Steady next trace held' := by
  unfold LocalFactCheckService.updated at stepped
  split at stepped
  · next number job isAt =>
    obtain ⟨rfl, own, isHeld, runnable, same, stays⟩ := steady.runs _ (mem_of_getElem? isAt)
    obtain rfl : held = some own := isHeld
    cases stepped
    exact ⟨some job, steady.assign isAt rfl runnable same ⟨rfl, job, rfl, stays⟩ rfl⟩
  · next number job thrown isAt =>
    cases stepped
    exact ⟨held, steady.withRun isAt trivial rfl⟩
  · next number job caught isAt =>
    obtain ⟨rfl, own, isHeld, runnable, same⟩ := steady.runs _ (mem_of_getElem? isAt)
    obtain rfl : held = some own := isHeld
    cases stepped
    exact ⟨some job, steady.assign isAt rfl runnable same trivial rfl⟩
  · next number job thrown isAt =>
    obtain ⟨rfl, own, isHeld, runnable, -⟩ := steady.runs _ (mem_of_getElem? isAt)
    obtain rfl : held = some own := isHeld
    cases stepped
    exact ⟨some own, steady.update isAt rfl runnable _ _⟩
  · next number job thrown isAt =>
    cases stepped
    exact ⟨held, steady.withRun isAt trivial rfl⟩
  · cases stepped

theorem supportChecked {outcome : Except Thrown (Option (Option String))}
    {next : LocalFactCheckService ρ} (stepped : service.supportChecked run outcome = some next) :
    Steady next trace held := by
  unfold LocalFactCheckService.supportChecked at stepped
  split at stepped
  · next number isAt =>
    obtain ⟨rfl, own, isHeld, runnable⟩ := steady.runs _ (mem_of_getElem? isAt)
    obtain rfl : held = some own := isHeld
    cases stepped
    split
    · exact steady.withRun isAt ⟨rfl, own, rfl, runnable⟩ rfl
    · exact steady.update isAt rfl runnable _ _
    · exact steady.update isAt rfl runnable _ _
  · cases stepped

theorem evidenceRetrieved {outcome : Except Thrown Bool} {next : LocalFactCheckService ρ}
    (stepped : service.evidenceRetrieved run outcome = some (next, emitted)) :
    Steady next (trace ++ emitted) held := by
  unfold LocalFactCheckService.evidenceRetrieved at stepped
  split at stepped
  · next number isAt =>
    obtain ⟨rfl, own, isHeld, runnable⟩ := steady.runs _ (mem_of_getElem? isAt)
    obtain rfl : held = some own := isHeld
    split at stepped
    · cases stepped
      have synthesizing : RunFits (some own) (.synthesizing 0) := ⟨rfl, own, rfl, runnable⟩
      exact (steady.withRun isAt synthesizing rfl).synthesis runnable run
    · cases stepped
      rw [append_nil]
      exact steady.update isAt rfl runnable _ _
    · cases stepped
      rw [append_nil]
      exact steady.update isAt rfl runnable _ _
  · cases stepped

theorem synthesized {outcome : Except Thrown (AssessmentResult ρ)} {next : LocalFactCheckService ρ}
    (stepped : service.synthesized run outcome = some next) : Steady next trace held := by
  unfold LocalFactCheckService.synthesized at stepped
  split at stepped
  · next number isAt =>
    obtain ⟨rfl, own, isHeld, runnable⟩ := steady.runs _ (mem_of_getElem? isAt)
    obtain rfl : held = some own := isHeld
    cases stepped
    split
    · exact steady.update isAt rfl runnable _ _
    · exact steady.update isAt rfl runnable _ _
  · cases stepped

theorem released (isAt : service.runs[run]? = some .ended) :
    Steady { service.withRun run .released with running := false } trace held :=
  { steady with
    runs := by
      intro found member
      rcases mem_or_eq_of_mem_set member with before | rfl
      · exact steady.runs found before
      · trivial
    counted := by
      have counts := countP_set RunPhase.isUnreleased .released isAt
      have counted := steady.counted
      have atMost : (if service.running then 1 else 0) ≤ 1 := by split <;> decide
      simp only [RunPhase.isUnreleased, if_true, Bool.false_eq_true, if_false] at counts
      simp only [LocalFactCheckService.withRun, Bool.false_eq_true, if_false]
      omega }

/-! ## Steps -/

theorem continues {next : LocalFactCheckService ρ}
    (stepped : service.continues call = some (next, emitted))
    (first : InsertsFirst service (.continues call)) :
    ∃ held', Steady next (trace ++ emitted) held' := by
  unfold LocalFactCheckService.continues at stepped
  split at stepped
  · next stage request found isAt =>
    obtain ⟨held', continued⟩ := steady.submitLooked isAt fun notFound => by
      subst notFound
      simpa only [InsertsFirst, isAt] using first
    rw [Option.some.inj stepped] at continued
    exact ⟨held', continued⟩
  · next found isAt =>
    have polled := steady.pollLooked call found
    rw [Option.some.inj stepped] at polled
    exact ⟨held, polled⟩
  · cases stepped

end

theorem silent {next service' : LocalFactCheckService ρ}
    (steady : ∃ held', Steady service' trace held')
    (stepped : some (service', []) = some (next, emitted)) :
    ∃ held', Steady next (trace ++ emitted) held' := by
  cases stepped
  rw [append_nil]
  exact steady

theorem step (steady : Steady service trace held) {action : FactCheckAction ρ}
    {next : LocalFactCheckService ρ} (stepped : service.step action = some (next, emitted))
    (first : InsertsFirst service action) : ∃ held', Steady next (trace ++ emitted) held' := by
  unfold LocalFactCheckService.step at stepped
  cases action with
  | call call =>
    have called : Steady
        { service with calls := service.calls ++ [⟨call, .initializing⟩] } trace held :=
      { steady with
        calls := by
          intro pending member
          rcases mem_append.mp member with before | added
          · exact steady.calls pending before
          · cases mem_singleton.mp added
            trivial }
    exact silent ⟨held, called⟩ stepped
  | initialized call succeeded =>
    dsimp only at stepped
    split at stepped
    · cases succeeded with
      | true => exact silent ⟨held, steady.lookup call⟩ stepped
      | false => exact silent ⟨held, steady.endCall call⟩ stepped
    · cases stepped
  | read call found =>
    dsimp only at stepped
    split at stepped
    · exact silent (steady.read call first) stepped
    · cases stepped
  | continues call => exact steady.continues stepped first
  | persisted call succeeded => exact ⟨held, steady.persisted stepped⟩
  | starts run =>
    dsimp only at stepped
    split at stepped
    · next isAt => exact silent ⟨held, steady.start isAt⟩ stepped
    · cases stepped
  | updated run outcome =>
    obtain ⟨service', updated, same⟩ := Option.map_eq_some_iff.mp stepped
    exact silent (steady.updated updated) (congrArg some same)
  | supportChecked run outcome =>
    obtain ⟨service', checked, same⟩ := Option.map_eq_some_iff.mp stepped
    exact silent ⟨held, steady.supportChecked checked⟩ (congrArg some same)
  | evidenceRetrieved run outcome => exact ⟨held, steady.evidenceRetrieved stepped⟩
  | synthesized run outcome =>
    obtain ⟨service', synthesized, same⟩ := Option.map_eq_some_iff.mp stepped
    exact silent ⟨held, steady.synthesized synthesized⟩ (congrArg some same)
  | released run =>
    dsimp only at stepped
    split at stepped
    · next isAt => exact silent ⟨held, steady.released isAt⟩ stepped
    · cases stepped
  | dispose =>
    have disposed : Steady { service with disposed := true } trace held := { steady with }
    exact silent ⟨held, disposed⟩ stepped

theorem initial (texts : FactCheckTexts) (mode : LiveFactCheckMode) :
    Steady ({ texts, mode } : LocalFactCheckService ρ) [] none where
  objects := rfl
  job := rfl
  calls := by simp
  runs := by simp
  counted := rfl
  events := by simp
  frozen := Pairwise.nil

end Steady

/-- In a run in which a job goes into the map only while the map has none, the job is
idempotent. -/
theorem idempotent_of_reaches {texts : FactCheckTexts} {mode : LiveFactCheckMode}
    {config : Config (LocalFactCheckService ρ) (FactCheckEvent ρ)}
    (reaches : Reaches LocalFactCheckService.step insertsFirst { texts, mode } config) :
    Idempotent config := by
  obtain ⟨held, steady⟩ : ∃ held, Steady config.state config.trace held := by
    refine reaches.invariant (fun config => ∃ held, Steady config.state config.trace held)
      ⟨none, Steady.initial texts mode⟩ ?_
    rintro ⟨service, trace⟩ ⟨next, _⟩ action _ ⟨held, steady⟩ advanced first
    obtain ⟨emitted, stepped, rfl⟩ := advance_eq_some_iff.mp advanced
    exact steady.step stepped first
  exact steady.idempotent

/-! ## Two runs -/

instance (service : LocalFactCheckService ρ) (action : FactCheckAction ρ) :
    Decidable (InsertsFirst service action) := by
  cases action with
  | read call found => exact inferInstanceAs (Decidable (_ → service.job = none))
  | continues call =>
    unfold InsertsFirst
    dsimp only
    split <;> infer_instance
  | _ => exact inferInstanceAs (Decidable True)

instance (config next : Config (LocalFactCheckService ρ) (FactCheckEvent ρ))
    (action : FactCheckAction ρ) : Decidable (insertsFirst config action next) :=
  inferInstanceAs (Decidable (InsertsFirst config.state action))

def factCheckTexts : FactCheckTexts :=
  ⟨"gemma4", "Web evidence.", "Wikimedia evidence."⟩

def claimRequest : StoredFactCheckRequest where
  meetingId := "meeting"
  claimId := "claim"
  claimVersionId := "version"
  idempotencyKey := "key"
  exactQuote := "Water boils at ninety degrees."
  normalizedClaim := "Water boils at 90 degrees."
  origin := .manual

def falseAssessment : AssessmentResult String :=
  ⟨⟨"ollama", "gemma4", true⟩, "False at sea level."⟩

/-- A claim is submitted, checked and polled. -/
def checkedRun : List (FactCheckAction String) :=
  [.call (.submit .quick claimRequest), .initialized 0 true, .read 0 none, .continues 0,
    .persisted 0 true, .starts 0, .updated 0 (.ok ()), .supportChecked 0 (.ok none),
    .evidenceRetrieved 0 (.ok true), .synthesized 0 (.ok falseAssessment), .updated 0 (.ok ()),
    .released 0, .call .poll, .initialized 1 true, .continues 1]

theorem idempotent_checkedRun : ∃ config, exec LocalFactCheckService.step
        (Config.initial { texts := factCheckTexts, mode := .localWikimedia })
        checkedRun = some config ∧ Idempotent config := by
  obtain ⟨config, executed⟩ : ∃ config, exec LocalFactCheckService.step
      (Config.initial { texts := factCheckTexts, mode := .localWikimedia })
      checkedRun = some config :=
    Option.isSome_iff_exists.mp (by decide +kernel)
  exact ⟨config, executed, idempotent_of_reaches
    (reaches_of_exec checkedRun (by decide +kernel) executed)⟩

def anyInsert : Guard (LocalFactCheckService ρ) (FactCheckAction ρ) (FactCheckEvent ρ) :=
  fun _ _ _ => True

instance (config next : Config (LocalFactCheckService ρ) (FactCheckEvent ρ))
    (action : FactCheckAction ρ) : Decidable (anyInsert config action next) :=
  inferInstanceAs (Decidable True)

/-- Two calls with one key read the store before either has put a job into the map. -/
def submittedTwiceRun : List (FactCheckAction String) :=
  [.call (.submit .quick claimRequest), .call (.submit .deep claimRequest),
    .initialized 0 true, .initialized 1 true, .read 0 none, .read 1 none, .continues 0,
    .continues 1, .persisted 0 true, .persisted 1 true]

/-- The quick and the deep check with one key both succeed. -/
theorem not_idempotent_submittedTwiceRun : ∃ config, Reaches LocalFactCheckService.step anyInsert
        ({ texts := factCheckTexts, mode := .localWikimedia } : LocalFactCheckService String)
        config ∧
      config.trace =
        [.submitted .quick claimRequest (publicJob { stage := .quick, request := claimRequest }),
          .submitted .deep claimRequest (publicJob { stage := .deep, request := claimRequest })] ∧
      ¬Idempotent config := by
  obtain ⟨config, reaches, submitted⟩ := exists_reaches_of_exec LocalFactCheckService.step
    anyInsert
    ({ texts := factCheckTexts, mode := .localWikimedia } : LocalFactCheckService String)
    (fun config => config.trace =
      [.submitted .quick claimRequest (publicJob { stage := .quick, request := claimRequest }),
        .submitted .deep claimRequest (publicJob { stage := .deep, request := claimRequest })])
    submittedTwiceRun (by decide +kernel) (by decide +kernel)
  refine ⟨config, reaches, submitted, fun idempotent => ?_⟩
  have sameInput := idempotent.sameInput
  rw [submitted] at sameInput
  have sameStage := (sameInput _ _ _ _ _ _ (.head _) (.tail _ (.head _))).1
  exact absurd sameStage (by decide)

end Obelus.Live.FactCheck
