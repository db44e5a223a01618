import Obelus.Live.MeetingActions
import Obelus.Transition.Reaches

/-!
# Revisions and finality of a live turn

The active turn is all that the reducer remembers of a key.  An event that is newer than it
takes its place, a partial text that of a final one as well, and when deduplication has
removed the turn, nothing stands in the way of an older event.
-/

namespace Obelus.Live

open Obelus.Data
open Obelus.Transition

namespace MeetingSession

/-- The state a meeting starts in. -/
def started : MeetingSession :=
  { initialMeetingState with lifecycle := .starting }

/-- What an action leaves behind: the active turns, the turn that was made of a provider
event, and the key that was counted among the unseen final turns. -/
structure Shown where
  turns : List TranscriptTurn
  applied : Option TranscriptTurn
  counted : Option String

def eventKey (event : ProviderTurnEvent) : String :=
  transcriptTurnKey event.providerSessionId event.turnId

def appliedTurn (session : MeetingSession) : Action → Option TranscriptTurn
  | .transcript (.providerTurn event context) =>
    if acceptsProviderTurns session.toLiveMeetingState ∧ Newer session.toLiveMeetingState event
    then some (providerTurn session.toLiveMeetingState event context)
    else none
  | _ => none

def countedKey (host : Host) (session : MeetingSession) : Action → Option String
  | .transcript (.providerTurn event context) =>
    let next := meetingReducer host session (.transcript (.providerTurn event context))
    if next.unseenFinalTurns = session.unseenFinalTurns + 1 then some (eventKey event) else none
  | _ => none

def shown (host : Host) (session : MeetingSession) (action : Action) : Shown where
  turns := (meetingReducer host session action).activeTurns.values
  applied := session.appliedTurn action
  counted := session.countedKey host action

/-- The reducer, observed through what its actions leave behind. -/
def step (host : Host) : Machine MeetingSession Action Shown :=
  fun session action => some (meetingReducer host session action, [session.shown host action])

/-- All turns that were applied or active. -/
def seenTurns (trace : List Shown) : List TranscriptTurn :=
  trace.flatMap fun shown => shown.applied.toList ++ shown.turns

def countedKeys (trace : List Shown) : List String :=
  trace.filterMap Shown.counted

/-- A revision that is at least as large as the event's was applied for its key. -/
def overtaken (trace : List Shown) (event : ProviderTurnEvent) : Bool :=
  (seenTurns trace).any fun turn => turnKey turn = eventKey event && event.revision ≤ turn.revision

/-- The run stays in the meeting that was started and loads no artifact. -/
def inMeeting : Action → Bool
  | .meetingStartRequested | .artifactLoaded _ _ | .cleared => false
  | _ => true

/-- The state remembers what the event meets: an overtaken event meets an active turn, an
event that replaces a settled turn or one that was removed is final, and a key that was
counted is active or not counted now. -/
structure Remembers (config : Config MeetingSession Shown) (event : ProviderTurnEvent) : Prop where
  overtaken : overtaken config.trace event = true →
    (config.state.activeTurns.get? (eventKey event)).isSome = true
  settled : Newer config.state.toLiveMeetingState event →
    ∀ turn ∈ seenTurns config.trace, turnKey turn = eventKey event → turn.IsSettled →
      event.durableFinal = true
  counted : eventKey event ∈ countedKeys config.trace →
    (config.state.activeTurns.get? (eventKey event)).isSome = true ∨
      event.durableFinal = false ∨ config.state.followingLive = true

/-- The guard of the runs in which every provider turn is remembered. -/
def remembering : Guard MeetingSession Action Shown :=
  fun config action _ => inMeeting action = true ∧
    ∀ event context, action = .transcript (.providerTurn event context) → Remembers config event

section Provider

variable {host : Host} {session : MeetingSession} {event : ProviderTurnEvent}
  {context : ProviderTurnContext}

/-- A provider turn leaves the state, or is newer and rebuilds the turns. -/
theorem providerTurn_cases (host : Host) (session : MeetingSession) (event : ProviderTurnEvent)
    (context : ProviderTurnContext) :
    (meetingReducer host session (.transcript (.providerTurn event context)) = session ∧
        session.appliedTurn (.transcript (.providerTurn event context)) = none) ∨
      (Newer session.toLiveMeetingState event ∧
        session.appliedTurn (.transcript (.providerTurn event context)) =
          some (providerTurn session.toLiveMeetingState event context) ∧
        (meetingReducer host session (.transcript (.providerTurn event context))).activeTurns =
          ActiveTurns.ofTurns (deduplicateSourceBleed host (session.activeTurns.put
            (providerTurn session.toLiveMeetingState event context)).values)) := by
  change ({ session with
      toLiveMeetingState := if acceptsProviderTurns session.toLiveMeetingState then
        applyProviderTurn host session.toLiveMeetingState event context
        else session.toLiveMeetingState } = session ∧ _) ∨ (_ ∧ _ ∧
    (if acceptsProviderTurns session.toLiveMeetingState then
      applyProviderTurn host session.toLiveMeetingState event context
      else session.toLiveMeetingState).activeTurns = _)
  by_cases accepts : acceptsProviderTurns session.toLiveMeetingState = true
  · by_cases newer : Newer session.toLiveMeetingState event
    · right
      refine ⟨newer, by simp [appliedTurn, accepts, newer], ?_⟩
      have fresh : ¬((session.activeTurns.get? (transcriptTurnKey event.providerSessionId
          event.turnId)).any fun stored => event.revision ≤ stored.revision) = true := by
        rw [Option.any_eq_true]
        rintro ⟨stored, found, stale⟩
        exact absurd (of_decide_eq_true stale) (newer stored found).not_ge
      rw [if_pos accepts, applyProviderTurn]
      rw [if_neg fresh]
    · left
      rw [if_pos accepts, applyProviderTurn_of_not_newer newer]
      exact ⟨rfl, by simp [appliedTurn, newer]⟩
  · left
    rw [if_neg accepts]
    exact ⟨rfl, by simp [appliedTurn, accepts]⟩

/-- A durable-final event gives a settled turn. -/
theorem isSettled_providerTurn (state : LiveMeetingState) (final : event.durableFinal = true) :
    (providerTurn state event context).IsSettled := by
  simp only [providerTurn, final, if_true]
  split
  · exact Or.inr rfl
  · exact Or.inl rfl

variable {key : String}

/-- An active turn after an applied event is the turn of the event, or was active before. -/
theorem get?_of_rebuilt {active : ActiveTurns} {turn stored : TranscriptTurn}
    (found : (ActiveTurns.ofTurns (deduplicateSourceBleed host (active.put turn).values)).get? key =
      some stored) :
    (key = turnKey turn ∧ stored = turn) ∨
      (key ≠ turnKey turn ∧ active.get? key = some stored) := by
  have keys : ((deduplicateSourceBleed host (active.put turn).values).map turnKey).Nodup :=
    (nodup_keys_merged host _).sublist ((deduplicated_sublist host _).map turnKey)
  obtain ⟨member, rfl⟩ := (ActiveTurns.get?_ofTurns keys).mp found
  have within := merged_subset host _ ((deduplicated_sublist host _).subset member)
  have put := ActiveTurns.mem_values_iff.mp within
  rw [ActiveTurns.get?_put] at put
  split at put
  · next here => exact Or.inl ⟨here, (Option.some.inj put).symm⟩
  · next other => exact Or.inr ⟨other, put⟩

/-- A counted key has a newer final event, a turn that was not settled, and a view that does
not follow. -/
theorem counted_of_countedKey
    (counted : session.countedKey host (.transcript (.providerTurn event context)) = some key) :
    key = eventKey event ∧ event.durableFinal = true ∧ session.followingLive = false ∧
      ∀ stored ∈ session.activeTurns.get? key, ¬stored.IsSettled := by
  unfold countedKey at counted
  dsimp only at counted
  split at counted
  · next grown =>
    cases counted
    change (if acceptsProviderTurns session.toLiveMeetingState then
      applyProviderTurn host session.toLiveMeetingState event context
      else session.toLiveMeetingState).unseenFinalTurns = _ at grown
    split at grown
    · unfold applyProviderTurn at grown
      dsimp only at grown
      split at grown
      · exact absurd grown (Nat.lt_succ_self _).ne
      · split at grown
        · next counts =>
          simp only [Bool.and_eq_true, Bool.not_eq_true', Option.any_eq_false] at counts
          refine ⟨rfl, counts.1.1.1, counts.2, ?_⟩
          intro stored found settled
          have unsettled := counts.1.1.2 stored found
          rcases settled with final | revised
          · simp [final] at unsettled
          · simp [revised] at unsettled
        · exact absurd grown (Nat.lt_succ_self _).ne
    · exact absurd grown (Nat.lt_succ_self _).ne
  · cases counted

end Provider

/-- What the active turns remember of the run. -/
structure Memory (config : Config MeetingSession Shown) : Prop where
  revision : ∀ turn ∈ seenTurns config.trace,
    ∀ stored ∈ config.state.activeTurns.get? (turnKey turn), turn.revision ≤ stored.revision
  settled : ∀ turn ∈ seenTurns config.trace, turn.IsSettled →
    ∀ stored ∈ config.state.activeTurns.get? (turnKey turn), stored.IsSettled
  nodup : (countedKeys config.trace).Nodup
  counted : ∀ key ∈ countedKeys config.trace, ∃ turn ∈ seenTurns config.trace,
    turnKey turn = key ∧ turn.IsSettled

variable {shown : Shown} {turn : TranscriptTurn} {config : Config MeetingSession Shown}
  {host : Host} {event : ProviderTurnEvent}

theorem mem_seenTurns_snoc {trace : List Shown} : turn ∈ seenTurns (trace ++ [shown]) ↔
      turn ∈ seenTurns trace ∨ shown.applied = some turn ∨ turn ∈ shown.turns := by
  simp [seenTurns]

/-- Memory is kept when the turns seen so far are, and the key that is counted is new. -/
theorem Memory.snoc {next : Config MeetingSession Shown} (memory : Memory config)
    (trace : next.trace = config.trace ++ [shown])
    (turns : shown.turns = next.state.activeTurns.values) (kept : ∀ turn ∈ seenTurns config.trace,
      ∀ stored ∈ next.state.activeTurns.get? (turnKey turn),
        turn.revision ≤ stored.revision ∧ (turn.IsSettled → stored.IsSettled))
    (applied : ∀ turn ∈ shown.applied, ∀ stored ∈ next.state.activeTurns.get? (turnKey turn),
      stored = turn) (counted : ∀ key ∈ shown.counted, key ∉ countedKeys config.trace ∧
      ∃ turn ∈ shown.applied, turnKey turn = key ∧ turn.IsSettled) : Memory next := by
  have same : ∀ turn ∈ seenTurns next.trace,
      ∀ stored ∈ next.state.activeTurns.get? (turnKey turn),
        turn.revision ≤ stored.revision ∧ (turn.IsSettled → stored.IsSettled) := by
    intro turn seen stored found
    rw [trace, mem_seenTurns_snoc, turns] at seen
    rcases seen with before | isApplied | isActive
    · exact kept turn before stored found
    · rw [applied turn isApplied stored found]
      exact ⟨le_rfl, id⟩
    · rw [ActiveTurns.mem_values_iff.mp isActive] at found
      rw [Option.some.inj found]
      exact ⟨le_rfl, id⟩
  have countedEq : countedKeys next.trace = countedKeys config.trace ++ shown.counted.toList := by
    rw [trace, countedKeys, countedKeys]
    cases keyEq : shown.counted <;> simp [keyEq]
  constructor
  · exact fun turn seen stored found => (same turn seen stored found).1
  · exact fun turn seen settled stored found => (same turn seen stored found).2 settled
  · rw [countedEq]
    cases keyEq : shown.counted with
    | none => simpa using memory.nodup
    | some key => exact nodup_snoc memory.nodup (counted key keyEq).1
  · intro key member
    rw [countedEq] at member
    rcases List.mem_append.mp member with before | isNew
    · obtain ⟨turn, seen, own, settled⟩ := memory.counted key before
      refine ⟨turn, ?_, own, settled⟩
      rw [trace, mem_seenTurns_snoc]
      exact Or.inl seen
    · obtain ⟨-, turn, isApplied, own, settled⟩ := counted key (Option.mem_toList.mp isNew)
      refine ⟨turn, ?_, own, settled⟩
      rw [trace, mem_seenTurns_snoc]
      exact Or.inr (Or.inl isApplied)

/-- A segment that applies no event and keeps the revisions and the settled turns keeps the
memory. -/
theorem Memory.unapplied {next : Config MeetingSession Shown} (memory : Memory config)
    (trace : next.trace = config.trace ++ [shown])
    (turns : shown.turns = next.state.activeTurns.values)
    (related : Related Continues config.state.activeTurns next.state.activeTurns)
    (applied : shown.applied = none) (counted : shown.counted = none) : Memory next := by
  apply memory.snoc trace turns
  · intro turn seen stored found
    obtain ⟨old, foundOld, continues⟩ := related.exists_before found
    exact ⟨(memory.revision turn seen old foundOld).trans continues.revision,
      fun settled => continues.settled (memory.settled turn seen settled old foundOld)⟩
  · intro turn isApplied
    rw [applied] at isApplied
    cases isApplied
  · intro key isCounted
    rw [counted] at isCounted
    cases isCounted

/-- An event that is remembered counts no key again. -/
theorem Memory.not_counted (memory : Memory config) {context : ProviderTurnContext}
    (remembered : Remembers config event) {key : String}
    (isCounted : config.state.countedKey host (.transcript (.providerTurn event context)) =
      some key) : key ∉ countedKeys config.trace := by
  intro before
  obtain ⟨rfl, final, away, unsettled⟩ := counted_of_countedKey isCounted
  obtain ⟨turn, seen, own, settled⟩ := memory.counted _ before
  rcases remembered.counted before with active | partialText | following
  · obtain ⟨stored, found⟩ := Option.isSome_iff_exists.mp active
    exact unsettled stored found (memory.settled turn seen settled stored (own ▸ found))
  · rw [final] at partialText
    cases partialText
  · rw [away] at following
    cases following

/-- The turn of an event that is remembered continues what was seen under its key. -/
theorem Memory.follows (memory : Memory config) (context : ProviderTurnContext)
    (remembered : Remembers config event) (newer : Newer config.state.toLiveMeetingState event)
    (seen : turn ∈ seenTurns config.trace) (own : turnKey turn = eventKey event) :
    turn.revision ≤ event.revision ∧ (turn.IsSettled →
      (providerTurn config.state.toLiveMeetingState event context).IsSettled) := by
  constructor
  · by_cases active : (config.state.activeTurns.get? (eventKey event)).isSome = true
    · obtain ⟨old, foundOld⟩ := Option.isSome_iff_exists.mp active
      exact (memory.revision turn seen old (own ▸ foundOld)).trans (newer old foundOld).le
    · by_contra larger
      apply active
      apply remembered.overtaken
      apply List.any_eq_true.mpr
      refine ⟨turn, seen, ?_⟩
      have above : event.revision ≤ turn.revision := (not_le.mp larger).le
      simp [own, above]
  · intro settled
    exact isSettled_providerTurn _ (remembered.settled newer turn seen own settled)

theorem Memory.step {next : Config MeetingSession Shown} {action : Action} (memory : Memory config)
    (advanced : advance (step host) config action = some next)
    (guarded : remembering config action next) : Memory next := by
  obtain ⟨emitted, stepped, traceEq⟩ := advance_eq_some_iff.mp advanced
  obtain ⟨stateEq, rfl⟩ := Prod.mk.inj (Option.some.inj stepped)
  obtain ⟨inMeeting, remembers⟩ := guarded
  have turnsEq : (config.state.shown host action).turns = next.state.activeTurns.values := by
    rw [← stateEq]
    rfl
  by_cases rebuilds : action.Rebuilds
  · obtain ⟨event, context, rfl⟩ : ∃ event context,
        action = .transcript (.providerTurn event context) := by
      cases action with
      | transcript action =>
        cases action with
        | providerTurn event context => exact ⟨event, context, rfl⟩
        | speakerRevision => exact absurd rebuilds id
      | meetingStartRequested => cases inMeeting
      | artifactLoaded => cases inMeeting
      | cleared => cases inMeeting
      | _ => exact absurd rebuilds id
    have remembered := remembers event context rfl
    rcases providerTurn_cases host config.state event context with
      ⟨unchanged, notApplied⟩ | ⟨newer, isApplied, activeEq⟩
    · apply memory.unapplied traceEq turnsEq
      · rw [← stateEq, unchanged]
        exact related_refl continues_refl _
      · exact notApplied
      · simp [shown, countedKey, unchanged]
    · rw [stateEq] at activeEq
      apply memory.snoc traceEq turnsEq
      · intro turn seen stored found
        rw [activeEq] at found
        rcases get?_of_rebuilt found with ⟨own, rfl⟩ | ⟨-, before⟩
        · exact memory.follows context remembered newer seen own
        · exact ⟨memory.revision turn seen stored before,
            fun settled => memory.settled turn seen settled stored before⟩
      · intro turn isNew stored found
        cases isApplied.symm.trans isNew
        rw [activeEq] at found
        rcases get?_of_rebuilt found with ⟨-, same⟩ | ⟨other, -⟩
        · exact same
        · exact absurd rfl other
      · intro key isCounted
        refine ⟨memory.not_counted remembered isCounted, _, isApplied, ?_⟩
        obtain ⟨rfl, final, -, -⟩ := counted_of_countedKey isCounted
        exact ⟨rfl, isSettled_providerTurn _ final⟩
  · obtain ⟨-, related⟩ := related_of_not_rebuilds host config.state rebuilds
    rw [stateEq] at related
    have silent : config.state.appliedTurn action = none ∧
        config.state.countedKey host action = none := by
      cases action with
      | transcript action =>
        cases action with
        | providerTurn => exact absurd trivial rebuilds
        | speakerRevision => exact ⟨rfl, rfl⟩
      | _ => exact ⟨rfl, rfl⟩
    exact memory.unapplied traceEq turnsEq related silent.1 silent.2

theorem memory_started : Memory (Config.initial started) := by
  constructor <;> simp [seenTurns, countedKeys]

/-- In every run of a meeting whose provider turns are all remembered, an overtaken provider
turn changes nothing, a turn that has been final is never shown as partial, and no key is
counted twice. -/
theorem turns_monotone (host : Host) {config : Config MeetingSession Shown}
    (reaches : Reaches (step host) remembering started config) :
    (∀ event context, Remembers config event → overtaken config.trace event = true →
        meetingReducer host config.state (.transcript (.providerTurn event context)) =
          config.state) ∧
      (∀ turn ∈ seenTurns config.trace, turn.IsSettled →
        ∀ stored ∈ config.state.activeTurns.get? (turnKey turn), stored.status ≠ .partialText) ∧
      (countedKeys config.trace).Nodup := by
  have memory : Memory config := by
    apply reaches.invariant Memory memory_started
    intro config next action _ memory advanced guarded
    exact memory.step advanced guarded
  refine ⟨?_, ?_, memory.nodup⟩
  · intro event context remembered stale
    obtain ⟨stored, found⟩ := Option.isSome_iff_exists.mp (remembered.overtaken stale)
    obtain ⟨turn, seen, isStale⟩ := List.any_eq_true.mp stale
    obtain ⟨own, above⟩ : turnKey turn = eventKey event ∧ event.revision ≤ turn.revision := by
      simpa using isStale
    have below := memory.revision turn seen stored (own ▸ found)
    rcases providerTurn_cases host config.state event context with unchanged | newer
    · exact unchanged.1
    · exact absurd (newer.1 stored found) (above.trans below).not_gt
  · intro turn seen settled stored found shows
    rcases memory.settled turn seen settled stored found with final | revised
    · rw [shows] at final
      cases final
    · rw [shows] at revised
      cases revised

instance (turn : TranscriptTurn) : Decidable turn.IsSettled :=
  inferInstanceAs (Decidable (_ ∨ _))

instance : Decidable (Remembers config event) :=
  decidable_of_iff
    ((overtaken config.trace event = true →
        (config.state.activeTurns.get? (eventKey event)).isSome = true) ∧
      (Newer config.state.toLiveMeetingState event →
        ∀ turn ∈ seenTurns config.trace, turnKey turn = eventKey event → turn.IsSettled →
          event.durableFinal = true) ∧
      (eventKey event ∈ countedKeys config.trace →
        (config.state.activeTurns.get? (eventKey event)).isSome = true ∨
          event.durableFinal = false ∨ config.state.followingLive = true))
    ⟨fun ⟨overtaken, settled, counted⟩ => ⟨overtaken, settled, counted⟩,
      fun remembers => ⟨remembers.overtaken, remembers.settled, remembers.counted⟩⟩

instance (action : Action) (next : Config MeetingSession Shown) :
    Decidable (remembering config action next) :=
  match action with
  | .transcript (.providerTurn event _) =>
    decidable_of_iff (Remembers config event)
      ⟨fun remembers => ⟨rfl, fun _ _ same => by cases same; exact remembers⟩,
        fun guarded => guarded.2 _ _ rfl⟩
  | .transcript (.speakerRevision _) => isTrue ⟨rfl, fun _ _ same => by cases same⟩
  | .meetingStartRequested | .artifactLoaded _ _ | .cleared => isFalse fun guarded => by
      cases guarded.1
  | .setupUpdated | .runtimeUpdated _ _ | .speakerRenamed | .speakersReplaced
  | .speakersSwapped _ _ | .turnRelabelled _ _ | .timelineAdded | .claimUpserted
  | .claimStatusChanged | .assessmentUpserted | .claimSelected | .viewVersionChanged
  | .followingLiveChanged _ | .jumpedToLive | .claimRailChanged | .backpressureChanged
  | .failed | .captureWarningRecovered | .errorCleared =>
    isTrue ⟨rfl, fun _ _ same => by cases same⟩

/-- A system turn and a microphone turn before it with the same words. -/
def bleedingRun : List Action :=
  [sameWords .system "1" 100 1100, sameWords .microphone "0" 0 1000].map fun arrival =>
    .transcript (.providerTurn arrival.event arrival.context)

/-- The first revision of a turn. -/
def correction (sourceKind : SourceKind) (turnId : String) (startMs endMs : Number) : Action :=
  let arrival := sameWords sourceKind turnId startMs endMs
  .transcript (.providerTurn { arrival.event with revision := 1 } arrival.context)

/-- The system turn is counted and removed, the microphone turn comes again and is corrected,
and the system turn comes back at another time, twice. -/
def correctedRun : List Action :=
  .followingLiveChanged false :: bleedingRun ++
    [ .transcript (.providerTurn (sameWords .microphone "0" 0 1000).event
        (sameWords .microphone "0" 0 1000).context),
      correction .microphone "0" 0 1000, .jumpedToLive,
      correction .system "1" 2000 3000, correction .system "1" 2000 3000 ]

theorem turns_monotone_correctedRun :
    ∃ config, (Reaches (step recordedHost) remembering started config ∧
        (countedKeys config.trace).length = 2 ∧ config.state.turnOrder.length = 2) ∧
      (∀ event context, Remembers config event → overtaken config.trace event = true →
          meetingReducer recordedHost config.state
              (.transcript (.providerTurn event context)) = config.state) ∧
        (∀ turn ∈ seenTurns config.trace, turn.IsSettled →
          ∀ stored ∈ config.state.activeTurns.get? (turnKey turn), stored.status ≠ .partialText) ∧
        (countedKeys config.trace).Nodup := by
  obtain ⟨config, reaches, counted, shown⟩ := exists_reaches_of_exec (step recordedHost)
    remembering started (fun config => (countedKeys config.trace).length = 2 ∧
      config.state.turnOrder.length = 2)
    correctedRun (by decide +kernel) (by decide +kernel)
  exact ⟨config, ⟨reaches, counted, shown⟩, turns_monotone recordedHost reaches⟩

/-- The same revision of the system turn with other words. -/
def lateEvent : ProviderTurnEvent :=
  { (sameWords .system "1" 100 1100).event with transcript := "other words" }

/-- The removed turn is forgotten, and its revision is taken once more. -/
theorem not_monotone_bleedingRun : ¬∀ (host : Host) (config : Config MeetingSession Shown),
      Reaches (step host) (fun _ action _ => inMeeting action = true) started config →
        (∀ event context, overtaken config.trace event = true →
            meetingReducer host config.state (.transcript (.providerTurn event context)) =
              config.state) ∧
          (∀ turn ∈ seenTurns config.trace, turn.IsSettled →
            ∀ stored ∈ config.state.activeTurns.get? (turnKey turn), stored.status ≠ .partialText) ∧
          (countedKeys config.trace).Nodup := by
  intro monotone
  obtain ⟨config, reaches, stale, changed⟩ := exists_reaches_of_exec (step recordedHost)
    (fun _ action _ => inMeeting action = true) started
    (fun config => overtaken config.trace lateEvent = true ∧
      (meetingReducer recordedHost config.state (.transcript (.providerTurn lateEvent
        (sameWords .system "1" 100 1100).context))).turnOrder ≠ config.state.turnOrder)
    bleedingRun (by decide +kernel) (by decide +kernel)
  apply changed
  rw [(monotone recordedHost config reaches).1 lateEvent _ stale]

end MeetingSession

end Obelus.Live
