import Obelus.Data.Table
import Obelus.Session.ReadingOrder
import Obelus.Transition.Reaches

/-!
# The stored conversation as a list

The abstract conversation is a list that is appended to, replaced and cut.  The
stored one behaves as this list, its creation times aside, as long as every
replacement comes with creation times that do not decrease, and every content and
all metadata are read back as they were written.
-/

namespace Obelus.Session

open Obelus.Transition List

variable {κ ν μ : Type}

inductive ConversationUpdate (κ μ : Type)
  | add (sessionId : String) (message : Message κ μ)
  | replace (sessionId : String) (conversation : List (Message κ μ))
  | truncate (sessionId messageId : String)

namespace ConversationUpdate

def sessionId : ConversationUpdate κ μ → String
  | add sessionId _ => sessionId
  | replace sessionId _ => sessionId
  | truncate sessionId _ => sessionId

def perform (host : Host κ ν μ) (table : MessageTable ν) :
    ConversationUpdate κ μ → MessageTable ν
  | add sessionId message => addMessage host sessionId message table
  | replace sessionId conversation => replaceConversation host sessionId conversation table
  | truncate sessionId messageId => truncateConversationFromMessage sessionId messageId table

/-- What an update means for a conversation that is a list. -/
def onList (conversation : List (Message κ μ)) :
    ConversationUpdate κ μ → List (Message κ μ)
  | add _ message => conversation ++ [message]
  | replace _ replacement => replacement
  | truncate _ messageId => conversation.takeWhile fun message => message.id ≠ some messageId

end ConversationUpdate

/-- The stored messages under a sequence of updates, each of them remembered. -/
def updating (host : Host κ ν μ) :
    Machine (MessageTable ν) (ConversationUpdate κ μ) (ConversationUpdate κ μ) :=
  fun table update => some (update.perform host table, [update])

/-- The list a sequence of updates makes of a conversation. -/
def listed (sessionId : String) (updates : List (ConversationUpdate κ μ)) :
    List (Message κ μ) :=
  (updates.filter fun update => update.sessionId = sessionId).foldl ConversationUpdate.onList []

/-- A message without its creation time. -/
def Message.untimed (message : Message κ μ) : Message κ μ :=
  { message with created := 0 }

/-- The conversation is read, creation times aside. -/
def Reads (host : Host κ ν μ) (table : MessageTable ν) (sessionId : String)
    (conversation : List (Message κ μ)) : Prop :=
  (getConversation host table sessionId).map (map Message.untimed) =
    some (conversation.map Message.untimed)

/-- Every conversation is read as the list its updates make of it. -/
def BehavesAsList (host : Host κ ν μ)
    (config : Config (MessageTable ν) (ConversationUpdate κ μ)) : Prop :=
  ∀ sessionId, Reads host config.state sessionId (listed sessionId config.trace)

/-- The messages of the updated conversation have pairwise distinct ids. -/
def distinctIds : Guard (MessageTable ν) (ConversationUpdate κ μ) (ConversationUpdate κ μ) :=
  fun _ update next =>
    (∀ message ∈ listed update.sessionId next.trace, message.id.isSome) ∧
      ((listed update.sessionId next.trace).map Message.id).Nodup

/-- The content and the metadata of a message are read back as they were written. -/
def Message.ReadBack (host : Host κ ν μ) (message : Message κ μ) : Prop :=
  (∀ block ∈ message.content, deserialize host (serialize host block) = some block) ∧
    (host.metadataOfJson (host.metadataToJson message.metadata)).getD host.defaultMetadata =
      message.metadata

/-- The condition on an update: messages that are read back, and no replacement
with a message created before the one in front of it. -/
def writesInOrder (host : Host κ ν μ) :
    Guard (MessageTable ν) (ConversationUpdate κ μ) (ConversationUpdate κ μ) :=
  fun _ update _ =>
    match update with
    | .add _ message => message.ReadBack host
    | .replace _ conversation =>
      conversation.Pairwise (fun earlier later => earlier.created ≤ later.created) ∧
        ∀ message ∈ conversation, message.ReadBack host
    | .truncate _ _ => True

section Rows

variable {host : Host κ ν μ}

/-- A row as it is read, without its creation time. -/
def MessageRow.shown (host : Host κ ν μ) (row : MessageRow ν) : Option (Message κ μ) :=
  (row.toMessage host).map Message.untimed

theorem shown_ofMessage_iff {rowId : Nat} {sessionId : String} {message : Message κ μ}
    {created : Int} (identified : message.id.isSome) :
    (MessageRow.ofMessage host rowId sessionId created message).shown host =
        some message.untimed ↔
      message.ReadBack host := by
  obtain ⟨messageId, isId⟩ := Option.isSome_iff_exists.mp identified
  have pointwise := @Data.map_mapM_eq_some_iff _ _ (deserialize host)
    (message.content.map (serialize host)) _ id message.content
  simp only [map_id_fun, Option.map_id_fun, id, map_map, Function.comp_def, map_inj_left]
    at pointwise
  rw [Message.ReadBack, ← pointwise]
  simp [MessageRow.shown, MessageRow.toMessage, MessageRow.ofMessage, Message.untimed, isId,
    Option.bind_eq_some_iff]

theorem id_of_shown {row : MessageRow ν} {message : Message κ μ}
    (shown : row.shown host = some message.untimed) : message.id = some row.messageId := by
  obtain ⟨read, isRead, same⟩ := Option.map_eq_some_iff.mp shown
  obtain ⟨content, -, isRow⟩ := Option.bind_eq_some_iff.mp isRead
  cases isRow
  exact (congrArg Message.id same).symm

variable {conversation : List (Message κ μ)} {table : MessageTable ν} {sessionId : String}

/-- A conversation is read exactly when each row shows its message. -/
theorem reads_iff : Reads host table sessionId conversation ↔
    (table.orderedRows sessionId).map (MessageRow.shown host) =
      conversation.map fun message => some message.untimed := by
  rw [Reads, getConversation, Data.map_mapM_eq_some_iff, map_map]
  rfl

variable {rows : List (MessageRow ν)}

theorem map_messageId_of_shown (same : rows.map (MessageRow.shown host) =
      conversation.map fun message => some message.untimed) :
    rows.map (fun row => some row.messageId) = conversation.map Message.id := by
  induction rows generalizing conversation with
  | nil => simpa using same.symm
  | cons row rest ih =>
    cases conversation with
    | nil => cases same
    | cons message others =>
      obtain ⟨shown, sameRest⟩ := cons.inj same
      rw [map_cons, map_cons, ih sameRest, id_of_shown shown]

/-- Rows are cut where their messages are. -/
theorem map_shown_takeWhile (messageId : String) (same : rows.map (MessageRow.shown host) =
      conversation.map fun message => some message.untimed) :
    (rows.takeWhile fun row => row.messageId ≠ messageId).map (MessageRow.shown host) =
      (conversation.takeWhile fun message => message.id ≠ some messageId).map
        fun message => some message.untimed := by
  induction rows generalizing conversation with
  | nil =>
    have none : conversation = [] := by simpa using same.symm
    rw [none]
    rfl
  | cons row rest ih =>
    cases conversation with
    | nil => cases same
    | cons message others =>
      obtain ⟨shown, sameRest⟩ := cons.inj same
      by_cases named : row.messageId = messageId
      · simp [id_of_shown shown, named]
      · simpa [id_of_shown shown, named, shown] using ih sameRest

theorem map_messageId_writtenRows (host : Host κ ν μ) (rowId : Nat) (sessionId : String)
    (identified : ∀ message ∈ conversation, message.id.isSome) :
    (writtenRows host sessionId rowId conversation).map (fun row => some row.messageId) =
      conversation.map Message.id := by
  induction conversation generalizing rowId with
  | nil => rfl
  | cons message rest ih =>
    obtain ⟨messageId, isId⟩ := Option.isSome_iff_exists.mp (identified message mem_cons_self)
    rw [writtenRows, map_cons,
      ih (rowId + 1) fun later member => identified later (mem_cons_of_mem _ member)]
    simp [MessageRow.ofMessage, isId]

theorem map_shown_writtenRows_iff (rowId : Nat) (sessionId : String)
    (identified : ∀ message ∈ conversation, message.id.isSome) :
    (writtenRows host sessionId rowId conversation).map (MessageRow.shown host) =
        (conversation.map fun message => some message.untimed) ↔
      ∀ message ∈ conversation, message.ReadBack host := by
  induction conversation generalizing rowId with
  | nil => simp [writtenRows]
  | cons message rest ih =>
    rw [forall_mem_cons] at identified
    rw [writtenRows, map_cons, map_cons, cons.injEq, forall_mem_cons,
      shown_ofMessage_iff identified.1, ih (rowId + 1) identified.2]

end Rows

section Update

variable {host : Host κ ν μ} {config next : Config (MessageTable ν) (ConversationUpdate κ μ)}
  {sessionId : String}

variable {update : ConversationUpdate κ μ} {table : MessageTable ν}
  {conversation : List (Message κ μ)}

theorem advance_updating (advanced : advance (updating host) config update = some next) :
    next = ⟨update.perform host config.state, config.trace ++ [update]⟩ := by
  obtain ⟨emitted, stepped, traced⟩ := advance_eq_some_iff.mp advanced
  simp only [updating] at stepped
  rcases next with ⟨state, trace⟩
  simp_all

theorem listed_append (updates : List (ConversationUpdate κ μ)) (update : ConversationUpdate κ μ) :
    listed sessionId (updates ++ [update]) =
      if update.sessionId = sessionId then update.onList (listed sessionId updates)
      else listed sessionId updates := by
  by_cases same : update.sessionId = sessionId <;>
    simp [listed, same]

/-- The conversations of the other sessions are left as they are. -/
theorem getConversation_perform_of_ne (other : update.sessionId ≠ sessionId) :
    getConversation host (update.perform host table) sessionId =
      getConversation host table sessionId := by
  suffices same : (update.perform host table).orderedRows sessionId =
      table.orderedRows sessionId by
    rw [getConversation, same, getConversation]
  cases update with
  | add added message => exact orderedRows_insert_of_ne other
  | replace replaced conversation =>
    exact MessageTable.orderedRows_congr (sessionRows_replaceConversation_of_ne other conversation)
  | truncate cut messageId =>
    exact orderedRows_truncateConversationFromMessage_of_ne other messageId

theorem reads_addMessage_iff {message : Message κ μ} (identified : message.id.isSome)
    (same : Reads host table sessionId conversation) :
    Reads host (addMessage host sessionId message table) sessionId (conversation ++ [message]) ↔
      message.ReadBack host := by
  obtain ⟨created, ordered⟩ := orderedRows_addMessage host table sessionId message
  rw [reads_iff] at same
  rw [reads_iff, ordered, map_append, map_append, same, append_right_inj]
  simp only [map_cons, map_nil, cons.injEq, and_true]
  exact shown_ofMessage_iff identified

theorem reads_truncate (messageId : String) (same : Reads host table sessionId conversation) :
    Reads host (truncateConversationFromMessage sessionId messageId table) sessionId
      (conversation.takeWhile fun message => message.id ≠ some messageId) := by
  rw [reads_iff] at same
  rw [reads_iff, orderedRows_truncateConversationFromMessage]
  exact map_shown_takeWhile messageId same

/-- A replacement is read as it was written exactly when its creation times do
not decrease and its messages are read back. -/
theorem reads_replaceConversation_iff (identified : ∀ message ∈ conversation, message.id.isSome)
    (distinct : (conversation.map Message.id).Nodup) :
    Reads host (replaceConversation host sessionId conversation table) sessionId conversation ↔
      conversation.Pairwise (fun earlier later => earlier.created ≤ later.created) ∧
        ∀ message ∈ conversation, message.ReadBack host := by
  have rows := sessionRows_replaceConversation host table sessionId conversation
  rw [reads_iff, ← pairwise_writtenRows_iff host sessionId table.nextId,
    ← map_shown_writtenRows_iff table.nextId sessionId identified]
  constructor
  · intro same
    have perm : ((replaceConversation host sessionId conversation table).orderedRows
        sessionId).Perm (writtenRows host sessionId table.nextId conversation) := by
      rw [← rows]
      exact perm_insertionSort _ _
    -- the ids are read in the order they were written, and a row is known by its message id
    have readIds := map_messageId_of_shown same
    have writtenIds := map_messageId_writtenRows host table.nextId sessionId identified
    have sameRows : (replaceConversation host sessionId conversation table).orderedRows
        sessionId = writtenRows host sessionId table.nextId conversation :=
      Data.eq_of_perm_of_map_eq perm (readIds.trans writtenIds.symm) (writtenIds ▸ distinct)
    have ordered := (replaceConversation host sessionId conversation table).pairwise_orderedRows
      sessionId
    rw [sameRows] at ordered same
    exact ⟨ordered, same⟩
  · rintro ⟨ordered, same⟩
    rwa [MessageTable.orderedRows_eq (rows ▸ Perm.refl _) ordered]

/-- An update keeps the conversations lists exactly when it writes in order. -/
theorem behavesAsList_next_iff (behaves : BehavesAsList host config)
    (advanced : advance (updating host) config update = some next)
    (distinct : distinctIds config update next) :
    BehavesAsList host next ↔ writesInOrder host config update next := by
  rw [advance_updating advanced] at distinct ⊢
  have others : BehavesAsList host ⟨update.perform host config.state, config.trace ++ [update]⟩ ↔
      Reads host (update.perform host config.state) update.sessionId
        (update.onList (listed update.sessionId config.trace)) := by
    constructor
    · intro holds
      have own := holds update.sessionId
      rwa [listed_append, if_pos rfl] at own
    · intro own sessionId
      rw [listed_append]
      by_cases same : update.sessionId = sessionId
      · subst same
        rwa [if_pos rfl]
      · rw [if_neg same, Reads, getConversation_perform_of_ne same]
        exact behaves sessionId
  rw [others]
  simp only [distinctIds, listed_append] at distinct
  cases update with
  | add sessionId message =>
    exact reads_addMessage_iff
      (distinct.1 message (mem_append_right _ mem_cons_self)) (behaves sessionId)
  | replace sessionId conversation =>
    exact reads_replaceConversation_iff distinct.1 distinct.2
  | truncate sessionId messageId =>
    exact iff_of_true (reads_truncate messageId (behaves sessionId)) trivial

theorem behavesAsList_initial :
    BehavesAsList host (Config.initial (MessageTable.empty : MessageTable ν)) := by
  intro sessionId
  rw [reads_iff]
  rfl

end Update

/-- Under updates whose messages have distinct ids, every conversation is read
after each of them as the list they make of it, exactly when each of them writes
in order. -/
theorem behavesAsList_iff (host : Host κ ν μ) (updates : List (ConversationUpdate κ μ))
    (distinct : Admissible (updating host) distinctIds (Config.initial MessageTable.empty)
      updates) :
    Throughout (updating host) (BehavesAsList host) (Config.initial MessageTable.empty) updates ↔
      Admissible (updating host) (writesInOrder host) (Config.initial MessageTable.empty)
        updates :=
  throughout_iff_admissible (fun _ _ _ => behavesAsList_next_iff) behavesAsList_initial distinct

/-- The metadata are whether the user sees a message. -/
def plainHost : Host String String Bool where
  display := ErrorData.message
  newMessageId _ := "msg_new"
  toJson := id
  ofJson := some
  metadataToJson visible := if visible then "true" else "false"
  metadataOfJson json :=
    if json = "true" then some true else if json = "false" then some false else none
  defaultMetadata := true

def plainMessage (messageId : String) (created : Int) : Message String Bool where
  id := some messageId
  role := .user
  created
  content := [.other messageId]
  metadata := false

/-- Messages added under a clock that steps back, a replacement and a cut. -/
def steppedBack : List (ConversationUpdate String Bool) :=
  [.add "session" (plainMessage "first" 200), .add "session" (plainMessage "second" 100),
    .replace "session" [plainMessage "summary" 150, plainMessage "second" 200],
    .add "session" (plainMessage "third" 120), .truncate "session" "third"]

theorem behavesAsList_iff_steppedBack : Throughout (updating plainHost) (BehavesAsList plainHost)
      (Config.initial MessageTable.empty) steppedBack := by
  refine (behavesAsList_iff plainHost steppedBack ?_).mpr ?_
  · simp [Admissible, advance, updating, steppedBack, distinctIds, listed,
      ConversationUpdate.sessionId, ConversationUpdate.onList, plainMessage]
  · simp [Admissible, advance, updating, steppedBack, writesInOrder, Message.ReadBack, plainMessage,
      serialize, deserialize, plainHost]

/-- A replacement that puts a message made later in front of a kept one. -/
def summaryFirst : List (ConversationUpdate String Bool) :=
  [.replace "session" [plainMessage "summary" 200, plainMessage "kept" 100]]

/-- The kept message is read in front of the summary. -/
theorem not_behavesAsList_summaryFirst :
    Admissible (updating plainHost) distinctIds (Config.initial MessageTable.empty) summaryFirst ∧
      ¬Throughout (updating plainHost) (BehavesAsList plainHost)
        (Config.initial MessageTable.empty) summaryFirst := by
  constructor
  · simp [Admissible, advance, updating, summaryFirst, distinctIds, listed,
      ConversationUpdate.sessionId, ConversationUpdate.onList, plainMessage]
  · rintro ⟨-, behaves⟩
    have ids := map_messageId_of_shown (reads_iff.mp (behaves "session"))
    revert ids
    decide

end Obelus.Session
