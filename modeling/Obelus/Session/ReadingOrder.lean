import Mathlib.Data.List.Sort
import Obelus.Conversation.Message

/-!
# Stored messages

The table of the messages of all sessions.  Messages are read back in the order
of their creation times and, within one time, of their row ids, which only
grow.  A failed tool call or tool result is written as the text of its error and
read back as an internal error.
-/

namespace Obelus.Session

open List
open Obelus.Conversation (Role)

/-- The error of a tool. -/
structure ErrorData where
  code : Int
  message : String
  data : Option Data.Json

/-- `ErrorCode::INTERNAL_ERROR`. -/
def internalError : Int :=
  -32603

/-- What a session takes from its surroundings: the text of an error, a new message id for a
row, the JSON of a part of a message and of its metadata, and how they are parsed. -/
structure Host (κ ν μ : Type) where
  display : ErrorData → String
  newMessageId : Nat → String
  toJson : κ → ν
  ofJson : ν → Option κ
  metadataToJson : μ → ν
  metadataOfJson : ν → Option μ
  defaultMetadata : μ

section Contents

variable {κ ν μ : Type}

/-- A block of a message: a tool request or a tool response with its outcome, or
any other block. -/
inductive MessageContentBlock (κ : Type)
  | tool (head : κ) (outcome : Except ErrorData κ)
  | other (content : κ)

inductive ToolResultJson (ν : Type)
  | success (value : ν)
  | error (error : String)

inductive MessageContentJson (ν : Type)
  | tool (head : ν) (outcome : ToolResultJson ν)
  | other (content : ν)

/-- `tool_result_serde::serialize`. -/
def serializeOutcome (host : Host κ ν μ) : Except ErrorData κ → ToolResultJson ν
  | .ok value => .success (host.toJson value)
  | .error error => .error (host.display error)

/-- `tool_result_serde::deserialize`. -/
def deserializeOutcome (host : Host κ ν μ) : ToolResultJson ν → Option (Except ErrorData κ)
  | .success value => (host.ofJson value).map .ok
  | .error error => some (.error ⟨internalError, error, none⟩)

def serialize (host : Host κ ν μ) : MessageContentBlock κ → MessageContentJson ν
  | .tool head outcome => .tool (host.toJson head) (serializeOutcome host outcome)
  | .other content => .other (host.toJson content)

def deserialize (host : Host κ ν μ) : MessageContentJson ν → Option (MessageContentBlock κ)
  | .tool head outcome => do
    return .tool (← host.ofJson head) (← deserializeOutcome host outcome)
  | .other content => (host.ofJson content).map .other

end Contents

variable {κ ν μ : Type}

structure Message (κ μ : Type) where
  id : Option String
  role : Role
  created : Int
  content : List (MessageContentBlock κ)
  metadata : μ

structure MessageRow (ν : Type) where
  id : Nat
  messageId : String
  sessionId : String
  role : Role
  contentJson : List (MessageContentJson ν)
  createdTimestamp : Int
  metadataJson : ν

/-- The rows in the order of their insertion, and the next row id. -/
structure MessageTable (ν : Type) where
  rows : List (MessageRow ν)
  nextId : Nat
  increasing : rows.Pairwise fun earlier later => earlier.id < later.id
  bounded : ∀ row ∈ rows, row.id < nextId

namespace MessageTable

def empty : MessageTable ν where
  rows := []
  nextId := 1
  increasing := List.Pairwise.nil
  bounded := forall_mem_nil _

/-- `INSERT INTO messages`, which gives the row its id. -/
def insert (table : MessageTable ν) (row : MessageRow ν) : MessageTable ν where
  rows := table.rows ++ [{ row with id := table.nextId }]
  nextId := table.nextId + 1
  increasing := by
    rw [pairwise_append]
    refine ⟨table.increasing, pairwise_singleton _ _, fun earlier member later isLast => ?_⟩
    rw [mem_singleton.mp isLast]
    exact table.bounded earlier member
  bounded := by
    rw [forall_mem_append]
    refine ⟨fun row member => Nat.lt_succ_of_lt (table.bounded row member), ?_⟩
    rw [forall_mem_singleton]
    exact Nat.lt_succ_self _

/-- `DELETE FROM messages WHERE …`. -/
def deleteWhere (condition : MessageRow ν → Bool) (table : MessageTable ν) :
    MessageTable ν where
  rows := table.rows.filter fun row => !condition row
  nextId := table.nextId
  increasing := table.increasing.filter _
  bounded row member := table.bounded row (mem_filter.mp member).1

def sessionRows (table : MessageTable ν) (sessionId : String) : List (MessageRow ν) :=
  table.rows.filter fun row => row.sessionId = sessionId

end MessageTable

/-- `ORDER BY created_timestamp, id`. -/
def MessageRow.Before (first second : MessageRow ν) : Prop :=
  first.createdTimestamp < second.createdTimestamp ∨
    first.createdTimestamp = second.createdTimestamp ∧ first.id ≤ second.id

instance : DecidableRel (@MessageRow.Before ν) :=
  fun _ _ => inferInstanceAs (Decidable (_ ∨ _ ∧ _))

namespace MessageTable

def orderedRows (table : MessageTable ν) (sessionId : String) : List (MessageRow ν) :=
  (table.sessionRows sessionId).insertionSort MessageRow.Before

end MessageTable

/-- A content that does not parse is an error, and metadata that do not are the default. -/
def MessageRow.toMessage (host : Host κ ν μ) (row : MessageRow ν) : Option (Message κ μ) := do
  let content ← row.contentJson.mapM (deserialize host)
  return {
    id := some row.messageId
    role := row.role
    created := row.createdTimestamp
    content
    metadata := (host.metadataOfJson row.metadataJson).getD host.defaultMetadata }

def MessageRow.ofMessage (host : Host κ ν μ) (rowId : Nat) (sessionId : String) (created : Int)
    (message : Message κ μ) : MessageRow ν where
  id := rowId
  messageId := message.id.getD (host.newMessageId rowId)
  sessionId
  role := message.role
  contentJson := message.content.map (serialize host)
  createdTimestamp := created
  metadataJson := host.metadataToJson message.metadata

open MessageRow (ofMessage)

/-- `get_conversation`. -/
def getConversation (host : Host κ ν μ) (table : MessageTable ν) (sessionId : String) :
    Option (List (Message κ μ)) :=
  (table.orderedRows sessionId).mapM (MessageRow.toMessage host)

/-- `SELECT MAX(created_timestamp) FROM messages WHERE session_id = ?`. -/
def latestTimestamp (table : MessageTable ν) (sessionId : String) : Option Int :=
  ((table.sessionRows sessionId).map MessageRow.createdTimestamp).max?

/-- `add_message`: a message never moves ahead of the stored ones. -/
def addMessage (host : Host κ ν μ) (sessionId : String) (message : Message κ μ)
    (table : MessageTable ν) : MessageTable ν :=
  let created := max message.created ((latestTimestamp table sessionId).getD message.created)
  table.insert (ofMessage host table.nextId sessionId created message)

/-- The body of the loop of `replace_conversation_inner`. -/
def insertMessage (host : Host κ ν μ) (sessionId : String) (table : MessageTable ν)
    (message : Message κ μ) : MessageTable ν :=
  table.insert (ofMessage host table.nextId sessionId message.created message)

/-- `replace_conversation`, which takes the creation times as they are. -/
def replaceConversation (host : Host κ ν μ) (sessionId : String) (conversation : List (Message κ μ))
    (table : MessageTable ν) : MessageTable ν :=
  conversation.foldl (insertMessage host sessionId)
    (table.deleteWhere fun row => row.sessionId = sessionId)

/-- `truncate_conversation_from_message`. -/
def truncateConversationFromMessage (sessionId messageId : String) (table : MessageTable ν) :
    MessageTable ν :=
  match (table.orderedRows sessionId).find? fun row => row.messageId = messageId with
  | none => table
  | some boundary =>
    table.deleteWhere fun row => row.sessionId = sessionId ∧
      (boundary.createdTimestamp < row.createdTimestamp ∨
        row.createdTimestamp = boundary.createdTimestamp ∧ boundary.id ≤ row.id)

/-!
## The order in which messages are read

What each request makes of the rows of a session as they are read back: an
added message comes last, a replaced conversation is read in the order it was
written exactly when its creation times do not decrease, and a truncated one
ends before the named message.
-/

variable {κ ν μ : Type}

theorem MessageRow.Before.refl (row : MessageRow ν) : row.Before row :=
  Or.inr ⟨rfl, Nat.le_refl _⟩

instance : Std.Total (@MessageRow.Before ν) where
  total first second := by
    unfold MessageRow.Before
    omega

instance : IsTrans (MessageRow ν) MessageRow.Before where
  trans first second third earlier later := by
    unfold MessageRow.Before at *
    omega

theorem MessageRow.Before.id_eq {first second : MessageRow ν}
    (forth : first.Before second) (back : second.Before first) : first.id = second.id := by
  unfold MessageRow.Before at *
  omega

namespace MessageTable

variable {table : MessageTable ν} {sessionId : String}

variable {row : MessageRow ν}

theorem mem_sessionRows :
    row ∈ table.sessionRows sessionId ↔ row ∈ table.rows ∧ row.sessionId = sessionId := by
  simp [sessionRows]

theorem mem_orderedRows : row ∈ table.orderedRows sessionId ↔ row ∈ table.sessionRows sessionId :=
  mem_insertionSort _

theorem pairwise_orderedRows (table : MessageTable ν) (sessionId : String) :
    (table.orderedRows sessionId).Pairwise MessageRow.Before :=
  pairwise_insertionSort _ _

/-- A row is determined by its id. -/
theorem eq_of_id_eq {other : MessageRow ν} (stored : row ∈ table.rows)
    (storedOther : other ∈ table.rows) (same : row.id = other.id) : row = other := by
  have distinct : table.rows.Pairwise fun earlier later => earlier.id ≠ later.id :=
    table.increasing.imp Nat.ne_of_lt
  have nodup : (table.rows.map MessageRow.id).Nodup := pairwise_map.mpr distinct
  exact inj_on_of_nodup_map nodup stored storedOther same

/-- Rows of a session that stand in the reading order are what is read. -/
theorem orderedRows_eq {rows : List (MessageRow ν)}
    (perm : rows.Perm (table.sessionRows sessionId)) (ordered : rows.Pairwise MessageRow.Before) :
    table.orderedRows sessionId = rows := by
  have samePerm : (table.orderedRows sessionId).Perm rows :=
    (perm_insertionSort _ _).trans perm.symm
  refine samePerm.eq_of_pairwise (fun first second member memberToo forth back => ?_)
    (pairwise_orderedRows table sessionId) ordered
  have storedFirst := mem_sessionRows.mp (mem_orderedRows.mp member)
  have storedSecond := mem_sessionRows.mp (perm.mem_iff.mp memberToo)
  exact eq_of_id_eq storedFirst.1 storedSecond.1 (forth.id_eq back)

theorem sessionRows_insert (row : MessageRow ν) : (table.insert row).sessionRows sessionId =
      table.sessionRows sessionId ++
        if row.sessionId = sessionId then [{ row with id := table.nextId }] else [] := by
  by_cases same : row.sessionId = sessionId <;>
    simp [sessionRows, insert, same]

theorem sessionRows_insert_ofMessage (host : Host κ ν μ) (created : Int) (message : Message κ μ) :
    (table.insert (ofMessage host table.nextId sessionId created message)).sessionRows
        sessionId =
      table.sessionRows sessionId ++
        [ofMessage host table.nextId sessionId created message] := by
  have written : (ofMessage host table.nextId sessionId created message).sessionId =
      sessionId :=
    rfl
  rw [sessionRows_insert, if_pos written]
  rfl

theorem sessionRows_deleteWhere (condition : MessageRow ν → Bool) :
    (table.deleteWhere condition).sessionRows sessionId =
      (table.sessionRows sessionId).filter fun row => !condition row := by
  simp only [sessionRows, deleteWhere, filter_filter, Bool.and_comm]

/-- Deleting rows leaves the others in their order. -/
theorem orderedRows_deleteWhere (condition : MessageRow ν → Bool) :
    (table.deleteWhere condition).orderedRows sessionId =
      (table.orderedRows sessionId).filter fun row => !condition row := by
  refine orderedRows_eq ?_ ((pairwise_orderedRows table sessionId).filter _)
  rw [sessionRows_deleteWhere]
  exact (perm_insertionSort _ _).filter _

theorem orderedRows_congr {other : MessageTable ν}
    (same : other.sessionRows sessionId = table.sessionRows sessionId) :
    other.orderedRows sessionId = table.orderedRows sessionId := by
  rw [orderedRows, orderedRows, same]

end MessageTable

variable {host : Host κ ν μ} {table : MessageTable ν} {sessionId : String}

variable {row : MessageRow ν} {written : String} {conversation : List (Message κ μ)}

theorem createdTimestamp_le_latestTimestamp (stored : row ∈ table.sessionRows sessionId) :
    ∃ latest, latestTimestamp table sessionId = some latest ∧ row.createdTimestamp ≤ latest := by
  have member : row.createdTimestamp ∈
      (table.sessionRows sessionId).map MessageRow.createdTimestamp :=
    mem_map_of_mem stored
  cases found : latestTimestamp table sessionId with
  | none =>
    rw [max?_eq_none_iff.mp found] at member
    exact absurd member not_mem_nil
  | some latest => exact ⟨latest, rfl, (max?_le_iff found).mp (le_refl latest) _ member⟩

/-- An added message is read last. -/
theorem orderedRows_addMessage (host : Host κ ν μ) (table : MessageTable ν) (sessionId : String)
    (message : Message κ μ) :
    ∃ created, (addMessage host sessionId message table).orderedRows sessionId =
      table.orderedRows sessionId ++
        [ofMessage host table.nextId sessionId created message] := by
  refine ⟨max message.created ((latestTimestamp table sessionId).getD message.created), ?_⟩
  refine MessageTable.orderedRows_eq ?_ ?_
  · rw [addMessage, MessageTable.sessionRows_insert_ofMessage]
    exact (perm_insertionSort _ _).append_right _
  · rw [pairwise_append]
    refine ⟨table.pairwise_orderedRows sessionId, pairwise_singleton _ _, ?_⟩
    intro row member added isAdded
    rw [mem_singleton.mp isAdded]
    have stored := MessageTable.mem_orderedRows.mp member
    obtain ⟨latest, found, notLater⟩ := createdTimestamp_le_latestTimestamp stored
    have older := table.bounded row (MessageTable.mem_sessionRows.mp stored).1
    simp only [MessageRow.Before, ofMessage, found, Option.getD_some]
    omega

theorem orderedRows_insert_of_ne (other : row.sessionId ≠ sessionId) :
    (table.insert row).orderedRows sessionId = table.orderedRows sessionId := by
  apply MessageTable.orderedRows_congr
  rw [MessageTable.sessionRows_insert, if_neg other, append_nil]

/-- The rows a replaced conversation is written to. -/
def writtenRows (host : Host κ ν μ) (sessionId : String) : Nat → List (Message κ μ) →
    List (MessageRow ν)
  | _, [] => []
  | rowId, message :: rest =>
    ofMessage host rowId sessionId message.created message ::
      writtenRows host sessionId (rowId + 1) rest

theorem sessionRows_foldl_insertMessage (conversation : List (Message κ μ)) :
    (conversation.foldl (insertMessage host sessionId) table).sessionRows sessionId =
      table.sessionRows sessionId ++ writtenRows host sessionId table.nextId conversation := by
  induction conversation generalizing table with
  | nil => simp [writtenRows]
  | cons message rest ih =>
    rw [foldl_cons, ih, insertMessage, MessageTable.sessionRows_insert_ofMessage, append_assoc]
    rfl

theorem sessionRows_foldl_insertMessage_of_ne (other : written ≠ sessionId)
    (conversation : List (Message κ μ)) :
    (conversation.foldl (insertMessage host written) table).sessionRows sessionId =
      table.sessionRows sessionId := by
  induction conversation generalizing table with
  | nil => rfl
  | cons message rest ih =>
    have skipped : (ofMessage host table.nextId written message.created
        message).sessionId ≠ sessionId := other
    rw [foldl_cons, ih, insertMessage, MessageTable.sessionRows_insert, if_neg skipped, append_nil]

/-- A replaced conversation leaves exactly its own rows. -/
theorem sessionRows_replaceConversation (host : Host κ ν μ) (table : MessageTable ν)
    (sessionId : String) (conversation : List (Message κ μ)) :
    (replaceConversation host sessionId conversation table).sessionRows sessionId =
      writtenRows host sessionId table.nextId conversation := by
  have cleared : (table.deleteWhere fun row => row.sessionId = sessionId).sessionRows sessionId =
      [] := by
    rw [MessageTable.sessionRows_deleteWhere, filter_eq_nil_iff]
    intro row member
    simp [(MessageTable.mem_sessionRows.mp member).2]
  rw [replaceConversation, sessionRows_foldl_insertMessage, cleared]
  rfl

theorem sessionRows_replaceConversation_of_ne (other : written ≠ sessionId)
    (conversation : List (Message κ μ)) :
    (replaceConversation host written conversation table).sessionRows sessionId =
      table.sessionRows sessionId := by
  rw [replaceConversation, sessionRows_foldl_insertMessage_of_ne other,
    MessageTable.sessionRows_deleteWhere, filter_eq_self]
  intro row member
  simp [(MessageTable.mem_sessionRows.mp member).2, other.symm]

theorem rowId_le_of_mem_writtenRows {rowId : Nat}
    (member : row ∈ writtenRows host sessionId rowId conversation) :
    rowId ≤ row.id ∧ ∃ message ∈ conversation, row.createdTimestamp = message.created := by
  induction conversation generalizing rowId with
  | nil => exact absurd member not_mem_nil
  | cons message rest ih =>
    rcases mem_cons.mp member with rfl | later
    · exact ⟨Nat.le_refl _, message, mem_cons_self, rfl⟩
    · obtain ⟨above, source, inRest, same⟩ := ih later
      exact ⟨Nat.le_of_succ_le above, source, mem_cons_of_mem _ inRest, same⟩

theorem exists_mem_writtenRows (host : Host κ ν μ) (sessionId : String) (rowId : Nat)
    {message : Message κ μ} (member : message ∈ conversation) :
    ∃ row ∈ writtenRows host sessionId rowId conversation,
      row.createdTimestamp = message.created := by
  induction conversation generalizing rowId with
  | nil => exact absurd member not_mem_nil
  | cons first rest ih =>
    rcases mem_cons.mp member with rfl | later
    · exact ⟨_, mem_cons_self, rfl⟩
    · obtain ⟨row, written, same⟩ := ih (rowId + 1) later
      exact ⟨row, mem_cons_of_mem _ written, same⟩

/-- The rows of a replaced conversation stand in the reading order exactly when
its creation times do not decrease. -/
theorem pairwise_writtenRows_iff (host : Host κ ν μ) (sessionId : String) (rowId : Nat) :
    (writtenRows host sessionId rowId conversation).Pairwise MessageRow.Before ↔
      conversation.Pairwise fun earlier later => earlier.created ≤ later.created := by
  induction conversation generalizing rowId with
  | nil => simp [writtenRows]
  | cons message rest ih =>
    rw [writtenRows, pairwise_cons, pairwise_cons, ih]
    refine and_congr_left fun _ => ⟨fun before later member => ?_, fun notLater row member => ?_⟩
    · obtain ⟨row, written, same⟩ := exists_mem_writtenRows host sessionId (rowId + 1) member
      have ordered := before row written
      simp only [MessageRow.Before, ofMessage] at ordered
      omega
    · obtain ⟨above, later, inRest, same⟩ := rowId_le_of_mem_writtenRows member
      have ordered := notLater later inRest
      simp only [MessageRow.Before, ofMessage]
      omega

/-- A conversation is cut at the first message with the given id. -/
theorem orderedRows_truncateConversationFromMessage (messageId : String) :
    (truncateConversationFromMessage sessionId messageId table).orderedRows sessionId =
      (table.orderedRows sessionId).takeWhile fun row => row.messageId ≠ messageId := by
  rw [truncateConversationFromMessage]
  cases found : (table.orderedRows sessionId).find? fun row => row.messageId = messageId with
  | none =>
    refine (takeWhile_eq_self_iff.mpr fun row member => ?_).symm
    simpa using find?_eq_none.mp found row member
  | some boundary =>
    obtain ⟨named, before, after, split, absent⟩ := find?_eq_some_iff_append.mp found
    have ordered : (table.orderedRows sessionId).Pairwise MessageRow.Before :=
      table.pairwise_orderedRows sessionId
    have stored : ∀ row ∈ table.orderedRows sessionId,
        row ∈ table.rows ∧ row.sessionId = sessionId := fun row member =>
      MessageTable.mem_sessionRows.mp (MessageTable.mem_orderedRows.mp member)
    rw [split] at ordered stored
    have kept : ∀ row ∈ before, row.Before boundary ∧ row.id ≠ boundary.id := by
      intro row member
      rw [pairwise_append] at ordered
      refine ⟨ordered.2.2 row member boundary mem_cons_self, fun same => ?_⟩
      have isBoundary : row = boundary :=
        MessageTable.eq_of_id_eq (stored row (mem_append_left _ member)).1
          (stored boundary (mem_append_right _ mem_cons_self)).1 same
      have unnamed := absent row member
      rw [isBoundary, named] at unnamed
      exact Bool.noConfusion unnamed
    have cut : ∀ row ∈ boundary :: after, boundary.Before row := by
      rw [pairwise_append, pairwise_cons] at ordered
      exact forall_mem_cons.mpr ⟨MessageRow.Before.refl boundary, ordered.2.1.1⟩
    have unnamed : ∀ row ∈ before, decide (row.messageId ≠ messageId) = true := by
      simpa using absent
    rw [MessageTable.orderedRows_deleteWhere, split, filter_append, takeWhile_append_of_pos unnamed,
      takeWhile_cons_of_neg (by simpa using named), filter_eq_self.mpr, filter_eq_nil_iff.mpr]
    · intro row member
      have after := cut row member
      have ofSession := (stored row (mem_append_right _ member)).2
      simp only [MessageRow.Before] at after
      simp only [ofSession, true_and, Bool.not_eq_true', decide_eq_false_iff_not]
      omega
    · intro row member
      have earlier := kept row member
      simp only [MessageRow.Before] at earlier
      simp only [Bool.not_eq_true', decide_eq_false_iff_not]
      omega

theorem orderedRows_truncateConversationFromMessage_of_ne {cut : String} (other : cut ≠ sessionId)
    (messageId : String) :
    (truncateConversationFromMessage cut messageId table).orderedRows sessionId =
      table.orderedRows sessionId := by
  rw [truncateConversationFromMessage]
  cases (table.orderedRows cut).find? fun row => row.messageId = messageId with
  | none => rfl
  | some boundary =>
    rw [MessageTable.orderedRows_deleteWhere, filter_eq_self]
    intro row member
    have ofSession := MessageTable.mem_sessionRows.mp (MessageTable.mem_orderedRows.mp member)
    simp [ofSession.2, other.symm]

end Obelus.Session
