import Mathlib.Order.OrderIsoNat
import Obelus.Agent.PairCompaction

/-!
# Repeated compaction

The compaction of tool pairs is repeated until few calls are left before the turn, unless the
oldest calls have no pair.
-/

namespace Obelus.Agent

variable {ι : Type}

/-- The effects of the loop over the candidates are applied. -/
theorem Compacts.exists_turn {newMessageId : Nat → String} {cutoff : Nat}
    {summarize : String → List (Message ι) → Option (List (MessageContent ι))}
    {session changed : Session ι}
    (compacts : Compacts newMessageId cutoff summarize session changed) :
    ∃ turn, fromKickoff session.conversation = some turn ∧
      applyEffects newMessageId session
        ((compactionCandidates session.conversation cutoff).foldl
          (summarizePair summarize session.conversation) ([], [])).1 = (changed, none) := by
  obtain ⟨result, runs, applies⟩ := compacts
  obtain ⟨turn, isKickoff, runs⟩ := Data.bind_eq_ok_iff.mp runs
  have isTurn := fromKickoff_of_messagesSinceKickoff isKickoff
  refine ⟨turn, isTurn, ?_⟩
  rw [compactionCandidates, isTurn, Option.getD_some]
  cases runs
  split at applies
  · next noEffects => rwa [noEffects]
  · exact applies

namespace Repetition

variable {newMessageId : Nat → String} {cutoff n : Nat} (run : Repetition newMessageId cutoff ι)

theorem exists_account (separable : run.SeparableAt n) :
    ∃ turn, fromKickoff (run.conversation n) = some turn ∧
      ∃ done summarized stored, Account newMessageId (run.summarize n) (run.session n) done
        summarized stored (run.session (n + 1)) ∧
        (summarized = [] → ∀ id ∈ compactionCandidates (run.conversation n) cutoff,
          summarizablePair (run.conversation n) [] id = none ∨
            summarizeToolCall (run.summarize n) (run.conversation n) id = none) := by
  obtain ⟨turn, isTurn, applies⟩ := (run.compacts n).exists_turn
  obtain ⟨summarized, stored, changed, account, isEmpty⟩ :=
    account_nil.foldl (run.freshIds n) separable
  have isChanged : changed = run.session (n + 1) :=
    congrArg Prod.fst (account.applies.symm.trans applies)
  exact ⟨turn, isTurn, _, summarized, stored, isChanged ▸ account, fun none => (isEmpty none).2⟩

/-- A repetition leaves no more calls before the turn, and fewer unless no pair is summarized. -/
theorem calls_le (separable : run.SeparableAt n) :
    callsBeforeTurn (run.conversation (n + 1)) ≤ callsBeforeTurn (run.conversation n) := by
  obtain ⟨turn, isTurn, done, summarized, stored, account, -⟩ := run.exists_account separable
  exact account.calls_le isTurn

theorem calls_lt (separable : run.SeparableAt n) (succeeds : run.Succeeds)
    (notStuck : ¬run.StuckAt n)
    (isOver : cutoff + toolcallSummarizationBatchSize < callsBeforeTurn (run.conversation n)) :
    callsBeforeTurn (run.conversation (n + 1)) < callsBeforeTurn (run.conversation n) := by
  obtain ⟨turn, isTurn, done, summarized, stored, account, isEmpty⟩ := run.exists_account separable
  refine account.calls_lt isTurn fun noneSummarized => notStuck ⟨isOver, fun id isIn => ?_⟩
  obtain noPair | noSummary := isEmpty noneSummarized id isIn
  · exact .inl noPair
  · refine .inr (Option.eq_none_iff_forall_ne_some.mpr fun messages isPair => ?_)
    have isSummary := summarizeToolCall_isSome isPair (succeeds n id messages)
    rw [noSummary] at isSummary
    cases isSummary

/-- Nothing changes once the operation is stuck. -/
theorem eq_of_stuckAt (stuck : run.StuckAt n) : run.session (n + 1) = run.session n := by
  obtain ⟨turn, isTurn, applies⟩ := (run.compacts n).exists_turn
  have noPairs : ∀ ids : List String, (∀ id ∈ ids,
      summarizablePair (run.conversation n) [] id = none ∨
        agentVisibleToolPair (run.conversation n) id = none) →
      ids.foldl (summarizePair (run.summarize n) (run.conversation n)) ([], []) = ([], []) := by
    intro ids fails
    induction ids with
    | nil => rfl
    | cons id rest ih =>
      have unchanged :
          summarizePair (run.summarize n) (run.conversation n) ([], []) id = ([], []) := by
        rw [summarizePair, summarizeToolCall]
        obtain noPair | noPair := fails id (.head _)
        · rw [noPair]
        · rw [noPair]
          cases summarizablePair (run.conversation n) [] id <;> rfl
      rw [List.foldl_cons, unchanged]
      exact ih fun other isIn => fails other (.tail _ isIn)
  have noEffects : applyEffects newMessageId (run.session n)
      ((compactionCandidates (run.conversation n) cutoff).foldl
        (summarizePair (run.summarize n) (run.conversation n)) ([], [])).1 =
      (run.session n, none) := by
    rw [noPairs _ stuck.2]
    rfl
  exact congrArg Prod.fst (applies.symm.trans noEffects)

theorem calls_antitone (separable : ∀ n, run.SeparableAt n) :
    Antitone fun n => callsBeforeTurn (run.conversation n) :=
  antitone_nat_of_succ_le fun n => run.calls_le (separable n)

end Repetition

/-- New ids are longer than the ids before them. -/
def longerId (place : Nat) : String :=
  String.ofList (List.replicate (place + 3) 'm')

theorem freshIds_of_length {session : Session ι}
    (areShort : ∀ message ∈ session.conversation, ∀ id ∈ message.id,
      id.length < session.rows.length + 3) : FreshIds longerId session := by
  intro place isLate message isIn isNew
  have isShort := areShort message isIn _ isNew
  simp only [longerId, String.length_ofList, List.length_replicate] at isShort
  omega

def callIds : List String :=
  ["a", "b", "c", "d", "e", "f", "g", "h", "i", "j"]

def callsMessage (id : String) (calls : List String) : Message Unit where
  id := some id
  role := .assistant
  created := 1
  content := calls.map fun call =>
    .toolRequest { id := call, toolCall := .ok { name := "developer__shell", arguments := none } }

def answersMessage (id : String) (calls : List String) : Message Unit where
  id := some id
  role := .user
  created := 1
  content := calls.map fun call => .toolResponse { id := call, toolResult := .ok (.success "done") }

def promptMessage : Message Unit where
  id := some "m4"
  role := .user
  created := 2
  content := [.text { text := "Go on.", audience := none }]

def storedSession (rows : List (Message Unit)) : Session Unit where
  rows := rows
  recipe := none
  extensionData := ()

def summaryContent : List (MessageContent Unit) :=
  [.text { text := "A call was made.", audience := none }]

/-- Eleven calls, asked in one message and answered in another. -/
def pairedSession : Session Unit :=
  storedSession [callsMessage "m1" ("k" :: callIds), answersMessage "m3" ("k" :: callIds),
    promptMessage]

/-- The pair hidden behind its summary. -/
def compactedSession : Session Unit :=
  storedSession [(callsMessage "m1" ("k" :: callIds)).hidden,
    (answersMessage "m3" ("k" :: callIds)).hidden, promptMessage,
    { id := some (longerId 3)
      role := .user
      created := 2
      content := summaryContent
      metadata := .agentOnly }]

def pairedRun : Repetition longerId 0 Unit where
  session
    | 0 => pairedSession
    | _ + 1 => compactedSession
  summarize _ _ _ := some summaryContent
  compacts
    | 0 => ⟨some
        { effects := hidePair
            [callsMessage "m1" ("k" :: callIds), answersMessage "m3" ("k" :: callIds)] ++
            [.appendMessage
              { role := .user, created := 1, content := summaryContent, metadata := .agentOnly }]
          yieldToClient := false }, by decide +kernel, by decide +kernel⟩
    | _ + 1 =>
      have quiet : Compacts longerId 0 (fun _ _ => some summaryContent) compactedSession
          compactedSession := ⟨none, by decide +kernel, rfl⟩
      quiet
  freshIds
    | 0 => freshIds_of_length (by decide +kernel)
    | _ + 1 =>
      have fresh : FreshIds longerId compactedSession := freshIds_of_length (by decide +kernel)
      fresh

theorem separable_pairedRun : ∀ n, pairedRun.SeparableAt n
  | 0 => by
    intro id isIn pair summary isPair isSummary
    have candidates : ∀ id ∈ compactionCandidates pairedSession.conversation 0,
        summarizablePair pairedSession.conversation [] id =
          some [callsMessage "m1" ("k" :: callIds), answersMessage "m3" ("k" :: callIds)] ∧
        (summarizeToolCall (fun _ _ => some summaryContent) pairedSession.conversation id).map
          Message.content = some summaryContent := by
      decide +kernel
    obtain ⟨samePair, sameContent⟩ := candidates id isIn
    obtain rfl := Option.some.inj (samePair.symm.trans isPair)
    have isContent : summary.content = summaryContent :=
      Option.some.inj ((congrArg (Option.map Message.content) isSummary).symm.trans sameContent)
    constructor
    case ownIds => exact (by decide +kernel : ∀ message ∈
        [callsMessage "m1" ("k" :: callIds), answersMessage "m3" ("k" :: callIds)],
      ∀ other ∈ pairedSession.conversation, other.id = message.id → other = message)
    case ownCalls => exact (by decide +kernel : ∀ message ∈
        [callsMessage "m1" ("k" :: callIds), answersMessage "m3" ("k" :: callIds)],
      ∀ id ∈ message.requestIds, ∀ other ∈ pairedSession.conversation,
        other.metadata.agentVisible = true → other.hasToolId id = true →
        other ∈ [callsMessage "m1" ("k" :: callIds), answersMessage "m3" ("k" :: callIds)])
    case early =>
      intro turn isTurn
      have isPrompt : fromKickoff pairedSession.conversation = some [promptMessage] := by
        decide +kernel
      obtain rfl := Option.some.inj (isPrompt.symm.trans isTurn)
      decide +kernel
    case noRequest => rw [Message.toolRequests, isContent]; rfl
    case noResponse => rw [Message.toolResponses, isContent]; rfl
  | n + 1 => by
    intro id isIn
    have isIn : id ∈ compactionCandidates compactedSession.conversation 0 := isIn
    cases isIn

/-- While pairs are separable, every repetition hides only what it summarizes, and at last few
calls are left exactly when the operation never gets stuck. -/
theorem Repetition.compactsCleanly_iff {newMessageId : Nat → String} {cutoff : Nat}
    (run : Repetition newMessageId cutoff ι) (separable : ∀ n, run.SeparableAt n) :
    run.CompactsCleanly ↔ (run.Succeeds → ∀ n, ¬run.StuckAt n) := by
  constructor
  · rintro ⟨-, falls⟩ succeeds n stuck
    obtain ⟨few, isFew⟩ := falls succeeds
    have stays : ∀ later, run.session (n + later) = run.session n := by
      intro later
      induction later with
      | zero => rfl
      | succ later ih =>
        have stuckLater : run.StuckAt (n + later) := by
          rw [StuckAt, conversation, ih]
          exact stuck
        exact (run.eq_of_stuckAt stuckLater).trans ih
    have isOver := stuck.1
    have sameCalls : callsBeforeTurn (run.conversation (n + few)) =
        callsBeforeTurn (run.conversation n) := by
      rw [conversation, stays, conversation]
    have isLater := run.calls_antitone separable (Nat.le_add_left few n)
    dsimp only at isLater
    omega
  · intro notStuck
    constructor
    · intro n
      obtain ⟨turn, isTurn, done, summarized, stored, account, -⟩ :=
        run.exists_account (separable n)
      exact ⟨done.2, summarized, stored, account.hidesSummarized⟩
    · intro succeeds
      by_contra noFew
      have areOver : ∀ n,
          cutoff + toolcallSummarizationBatchSize < callsBeforeTurn (run.conversation n) :=
        fun n => not_le.mp fun isFew => noFew ⟨n, isFew⟩
      have falls : StrictAnti fun n => callsBeforeTurn (run.conversation n) :=
        strictAnti_nat_of_succ_lt fun n =>
          run.calls_lt (separable n) succeeds (notStuck succeeds n) (areOver n)
      exact not_strictAnti_of_wellFoundedLT _ falls

/-- The pair of the eleven calls is compacted at once. -/
theorem compactsCleanly_pairedRun : pairedRun.CompactsCleanly := by
  refine (pairedRun.compactsCleanly_iff separable_pairedRun).mpr fun _ n => ?_
  cases n with
  | zero =>
    rintro ⟨-, fails⟩
    have isPaired : ¬∀ id ∈ compactionCandidates pairedSession.conversation 0,
        summarizablePair pairedSession.conversation [] id = none ∨
          agentVisibleToolPair pairedSession.conversation id = none := by
      decide +kernel
    exact isPaired fails
  | succ n =>
    rintro ⟨isOver, -⟩
    have isFew : ¬10 < callsBeforeTurn compactedSession.conversation := by decide +kernel
    exact isFew isOver

/-- Ten calls have never been answered, and one has. -/
def openCallsSession : Session Unit :=
  storedSession [callsMessage "m1" callIds, callsMessage "m2" ["k"], answersMessage "m3" ["k"],
    promptMessage]

/-- The ten calls are tried again and again. -/
def openCallsRun : Repetition longerId 0 Unit where
  session _ := openCallsSession
  summarize _ _ _ := some summaryContent
  compacts _ := ⟨none, by decide +kernel, rfl⟩
  freshIds _ := freshIds_of_length (by decide +kernel)

theorem not_compactsCleanly_openCallsRun : ¬openCallsRun.CompactsCleanly := by
  rintro ⟨-, falls⟩
  obtain ⟨n, isFew⟩ := falls fun _ _ _ => rfl
  have isEleven : callsBeforeTurn openCallsSession.conversation = 11 := by decide +kernel
  have isFewHere : callsBeforeTurn openCallsSession.conversation ≤ 10 := isFew
  omega

end Obelus.Agent
