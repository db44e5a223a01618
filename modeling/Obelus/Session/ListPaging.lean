import Mathlib.Data.List.Infix
import Mathlib.Data.Prod.Lex
import Mathlib.Data.String.Basic
import Obelus.Data.Paging
import Obelus.Meetings.Validation

/-!
# Listing sessions

The sessions that match a filter, in pages.  A page is cut by the time of the last message,
which SQL computes for the order and the reader of the rows computes again for the cursor.
-/

namespace Obelus.Session.Listing

open Obelus.Data (Page)

variable {τ : Type}

/-- `timestampOpt` gives the seconds of a time that can be represented.  `unixepoch` reads the
time of an update in SQL, and `timestamp` after it was decoded.  `lower` is the one of SQL. -/
structure Host (τ : Type) where
  timestampOpt : Int → Option Int
  unixepoch : τ → Int
  timestamp : τ → Int
  lower : String → String
  toLowercase : String → String

inductive SessionType
  | user
  | scheduled
  | subAgent
  | hidden
  | terminal
  | gateway
  | acp
  deriving DecidableEq

def SessionType.toString : SessionType → String
  | .user => "user"
  | .scheduled => "scheduled"
  | .subAgent => "sub_agent"
  | .hidden => "hidden"
  | .terminal => "terminal"
  | .gateway => "gateway"
  | .acp => "acp"

/-- A message with the texts of its text blocks. -/
structure MessageRow where
  sessionId : String
  createdTimestamp : Int
  userVisible : Bool
  texts : List String

structure SessionRow (τ : Type) where
  id : String
  workingDir : String
  sessionType : String
  updatedAt : τ

structure Database (τ : Type) where
  sessions : List (SessionRow τ)
  messages : List MessageRow
  distinctIds : (sessions.map SessionRow.id).Nodup

def millisecondTimestampThreshold : Int :=
  10000000000

/-- `normalized_message_timestamp_sql`. -/
def normalizedMessageTimestamp (createdTimestamp : Int) : Int :=
  if millisecondTimestampThreshold < createdTimestamp then createdTimestamp.tdiv 1000
  else createdTimestamp

def messageTimestampToDatetime (host : Host τ) (timestamp : Int) : Option Int :=
  host.timestampOpt
    (if millisecondTimestampThreshold < timestamp then timestamp.tdiv 1000 else timestamp)

/-- A row of the query: `MAX` of the times of the messages, and the time that orders it. -/
structure ListedRow (τ : Type) where
  session : SessionRow τ
  messageCount : Nat
  lastMessageTimestamp : Option Int
  sortTimestamp : Int

def Database.messagesOf (db : Database τ) (session : SessionRow τ) : List MessageRow :=
  db.messages.filter fun message => message.sessionId = session.id

def Database.listedRow (host : Host τ) (db : Database τ) (session : SessionRow τ) :
    ListedRow τ :=
  let messages := db.messagesOf session
  let lastMessageTimestamp :=
    (messages.map fun message => normalizedMessageTimestamp message.createdTimestamp).max?
  { session
    messageCount := (messages.filter MessageRow.userVisible).length
    lastMessageTimestamp
    sortTimestamp := lastMessageTimestamp.getD (host.unixepoch session.updatedAt) }

/-- A session as it is listed. -/
structure ListedSession (τ : Type) where
  id : String
  workingDir : String
  sessionType : String
  updatedAt : τ
  messageCount : Nat
  lastMessageAt : Option Int

/-- `from_row`. -/
def ListedSession.fromRow (host : Host τ) (row : ListedRow τ) : ListedSession τ where
  id := row.session.id
  workingDir := row.session.workingDir
  sessionType := row.session.sessionType
  updatedAt := row.session.updatedAt
  messageCount := row.messageCount
  lastMessageAt := row.lastMessageTimestamp.bind (messageTimestampToDatetime host)

/-- The seconds of `session_sort_at`. -/
def sessionSortAt (host : Host τ) (session : ListedSession τ) : Int :=
  session.lastMessageAt.getD (host.timestamp session.updatedAt)

structure SessionListFilters where
  types : Option (List SessionType) := none
  workingDir : Option String := none
  keyword : Option String := none
  onlySessionsWithMessages : Bool := false

def splitWhitespace (text : String) : List String :=
  ((text.toList.splitOnP Meetings.Validation.isWhitespace).filter fun word =>
    !word.isEmpty).map String.ofList

def keywordTerms (host : Host τ) (query : Option String) : List String :=
  (splitWhitespace (query.getD "")).map host.toLowercase

/-- `message_keyword_clause`. -/
def matchesKeyword (host : Host τ) (terms : List String) (messages : List MessageRow) : Bool :=
  messages.any fun message => message.userVisible && message.texts.any fun text =>
    terms.any fun term => decide (term.toList <:+: (host.lower text).toList)

/-- The clauses of the query and its join. -/
def Database.isMatch (host : Host τ) (db : Database τ) (filters : SessionListFilters)
    (session : SessionRow τ) : Bool :=
  let messages := db.messagesOf session
  let terms := keywordTerms host filters.keyword
  (filters.types.all fun types => (types.map SessionType.toString).contains session.sessionType) &&
    (filters.workingDir.all fun workingDir => session.workingDir = workingDir) &&
    (terms.isEmpty || matchesKeyword host terms messages) &&
    (!filters.onlySessionsWithMessages || !messages.isEmpty)

/-- The seconds of `sort_at` and the id. -/
structure SessionListCursor where
  sortAt : Int
  sessionId : String

/-- `HAVING`: the row comes after the cursor. -/
def ListedRow.isAfter (row : ListedRow τ) (cursor : SessionListCursor) : Bool :=
  row.sortTimestamp < cursor.sortAt ||
    (row.sortTimestamp = cursor.sortAt && row.session.id < cursor.sessionId)

/-- `ORDER BY sort_timestamp DESC, s.id DESC`. -/
def ListedRow.isBefore (first second : ListedRow τ) : Bool :=
  second.sortTimestamp < first.sortTimestamp ||
    (second.sortTimestamp = first.sortTimestamp && second.session.id ≤ first.session.id)

/-- `LIMIT`, which is none when it is negative as a signed number. -/
def limited (limit : UInt64) (rows : List (ListedRow τ)) : List (ListedRow τ) :=
  if limit.toNat < 2 ^ 63 then rows.take limit.toNat else rows

/-- `list_sessions_matching`. -/
def listSessionsMatching (host : Host τ) (db : Database τ) (filters : SessionListFilters)
    (cursor : Option SessionListCursor) (limit : UInt64) : List (ListedSession τ) :=
  if filters.types = some [] then []
  else
    let rows := (db.sessions.filter (db.isMatch host filters)).map (db.listedRow host)
    let after := rows.filter fun row => cursor.all row.isAfter
    (limited limit (after.mergeSort ListedRow.isBefore)).map (ListedSession.fromRow host)

/-- `list_sessions_paged`. -/
def listSessionsPaged (host : Host τ) (db : Database τ) (filters : SessionListFilters)
    (pageSize : UInt64) (cursor : Option SessionListCursor) :
    Page (ListedSession τ) SessionListCursor :=
  if filters.types = some [] ∨ pageSize = 0 then { items := [], nextCursor := none }
  else
    let sessions := listSessionsMatching host db filters cursor (pageSize + 1)
    if pageSize.toNat < sessions.length then
      { items := sessions.take pageSize.toNat
        nextCursor := sessions[pageSize.toNat - 1]?.map fun anchor =>
          { sortAt := sessionSortAt host anchor, sessionId := anchor.id } }
    else { items := sessions, nextCursor := none }

/-!
## Paging through sessions

The pages show every session that matches, once and in order, where the cursor of each page
leads to the session after it.  The time of the cursor is that of the order unless it is
divided twice or the times of the two readers differ.
-/

open List
open Obelus.Data (Followed LeadsOn ListsWith cutPage rowsAfter sortDescending)

variable {τ : Type} (host : Host τ) (db : Database τ) (filters : SessionListFilters)

theorem SessionListCursor.toLex_injective : Function.Injective fun cursor : SessionListCursor =>
      toLex (cursor.sortAt, cursor.sessionId) := by
  rintro ⟨sortAt, sessionId⟩ ⟨sortAt', sessionId'⟩ same
  obtain ⟨rfl, rfl⟩ := Prod.mk.inj (toLex.injective same)
  rfl

/-- By time, and by id at one time. -/
instance : LinearOrder SessionListCursor :=
  LinearOrder.lift' _ SessionListCursor.toLex_injective

theorem SessionListCursor.lt_iff {first second : SessionListCursor} :
    first < second ↔ first.sortAt < second.sortAt ∨
      (first.sortAt = second.sortAt ∧ first.sessionId < second.sessionId) :=
  Prod.Lex.toLex_lt_toLex

theorem SessionListCursor.le_iff {first second : SessionListCursor} :
    first ≤ second ↔ first.sortAt < second.sortAt ∨
      (first.sortAt = second.sortAt ∧ first.sessionId ≤ second.sessionId) :=
  Prod.Lex.toLex_le_toLex

/-- What orders a row. -/
def ListedRow.key (row : ListedRow τ) : SessionListCursor where
  sortAt := row.sortTimestamp
  sessionId := row.session.id

/-- The cursor of a page that ends with the row. -/
def ListedRow.cursor (row : ListedRow τ) : SessionListCursor where
  sortAt := sessionSortAt host (ListedSession.fromRow host row)
  sessionId := row.session.id

theorem ListedRow.isAfter_eq (row : ListedRow τ) (cursor : SessionListCursor) :
    row.isAfter cursor = decide (row.key < cursor) := by
  rw [Bool.eq_iff_iff, decide_eq_true_iff, SessionListCursor.lt_iff]
  simp [isAfter, key]

theorem ListedRow.isBefore_eq (first second : ListedRow τ) :
    first.isBefore second = decide (second.key ≤ first.key) := by
  rw [Bool.eq_iff_iff, decide_eq_true_iff, SessionListCursor.le_iff]
  simp [isBefore, key]

/-- The rows of the sessions that match the filter. -/
def matchingRows : List (ListedRow τ) :=
  (db.sessions.filter (db.isMatch host filters)).map (db.listedRow host)

/-- The rows by sort time and id, both descending. -/
def orderedRows : List (ListedRow τ) :=
  sortDescending ListedRow.key (matchingRows host db filters)

theorem matchingRows_ids : (matchingRows host db filters).map (fun row => row.session.id) =
      (db.sessions.filter (db.isMatch host filters)).map SessionRow.id := by
  rw [matchingRows, map_map]
  rfl

theorem nodup_matchingRows_ids :
    ((matchingRows host db filters).map fun row => row.session.id).Nodup := by
  rw [matchingRows_ids]
  exact db.distinctIds.sublist (filter_sublist.map _)

theorem nodup_matchingRows_keys : ((matchingRows host db filters).map ListedRow.key).Nodup := by
  refine Nodup.of_map SessionListCursor.sessionId ?_
  rw [map_map]
  exact nodup_matchingRows_ids host db filters

theorem nodup_orderedRows_shown :
    ((orderedRows host db filters).map (ListedSession.fromRow host)).Nodup := by
  refine Nodup.of_map ListedSession.id ?_
  rw [map_map]
  have perm := (Data.sortDescending_perm ListedRow.key (matchingRows host db filters)).map
    fun row => row.session.id
  exact perm.nodup_iff.mpr (nodup_matchingRows_ids host db filters)

theorem matchingRows_of_no_types (noTypes : filters.types = some []) :
    matchingRows host db filters = [] := by
  rw [matchingRows]
  simp [Database.isMatch, noTypes]

theorem mergeSort_isBefore (rows : List (ListedRow τ)) :
    rows.mergeSort ListedRow.isBefore = sortDescending ListedRow.key rows := by
  congr
  funext first second
  exact ListedRow.isBefore_eq first second

theorem filter_isAfter (cursor : Option SessionListCursor) (rows : List (ListedRow τ)) :
    rows.filter (fun row => cursor.all row.isAfter) = rowsAfter ListedRow.key rows cursor := by
  cases cursor with
  | none => simp [rowsAfter]
  | some cursor =>
    congr
    funext row
    exact ListedRow.isAfter_eq row cursor

/-- The rows behind a cursor, limited. -/
theorem listSessionsMatching_eq (cursor : Option SessionListCursor) (limit : UInt64) :
    listSessionsMatching host db filters cursor limit =
      (limited limit (rowsAfter ListedRow.key (orderedRows host db filters) cursor)).map
        (ListedSession.fromRow host) := by
  have ordered : rowsAfter ListedRow.key (orderedRows host db filters) cursor =
      sortDescending ListedRow.key
        (rowsAfter ListedRow.key (matchingRows host db filters) cursor) := by
    cases cursor with
    | none => rfl
    | some cursor =>
      exact Data.filter_sortDescending (nodup_matchingRows_keys host db filters) _
  rw [listSessionsMatching, ordered]
  split
  · next noTypes =>
    rw [matchingRows_of_no_types host db filters noTypes]
    cases cursor <;> simp [rowsAfter, sortDescending, limited]
  · dsimp only
    rw [mergeSort_isBefore, filter_isAfter, matchingRows]

section Pages

variable {pageSize : UInt64}

/-- The limit is one more than the page. -/
theorem toNat_limit (noWrap : pageSize + 1 ≠ 0) : (pageSize + 1).toNat = pageSize.toNat + 1 := by
  have bound := pageSize.toNat_lt
  rw [UInt64.toNat_add, UInt64.toNat_one]
  by_cases isMax : pageSize.toNat + 1 = 2 ^ 64
  · refine absurd (UInt64.toNat_inj.mp ?_) noWrap
    rw [UInt64.toNat_add, UInt64.toNat_one, isMax, Nat.mod_self, UInt64.toNat_zero]
  · exact Nat.mod_eq_of_lt (by omega)

/-- One row more than the page is enough to see whether there is a next page. -/
theorem limited_spec (noWrap : pageSize + 1 ≠ 0) (rows : List (ListedRow τ)) :
    (limited (pageSize + 1) rows).take pageSize.toNat = rows.take pageSize.toNat ∧
      (pageSize.toNat < (limited (pageSize + 1) rows).length ↔ pageSize.toNat < rows.length) := by
  rw [limited, toNat_limit noWrap]
  split
  · rw [take_take, length_take]
    exact ⟨by congr 1; omega, by omega⟩
  · exact ⟨rfl, Iff.rfl⟩

theorem listSessionsPaged_eq (positive : 0 < pageSize) (noWrap : pageSize + 1 ≠ 0)
    (cursor : Option SessionListCursor) : listSessionsPaged host db filters pageSize cursor =
      { items := (cutPage (ListedRow.cursor host) pageSize.toNat
          (rowsAfter ListedRow.key (orderedRows host db filters) cursor)).items.map
            (ListedSession.fromRow host)
        nextCursor := (cutPage (ListedRow.cursor host) pageSize.toNat
          (rowsAfter ListedRow.key (orderedRows host db filters) cursor)).nextCursor } := by
  have isPositive : 0 < pageSize.toNat := UInt64.lt_iff_toNat_lt.mp positive
  have notZero : pageSize ≠ 0 := by
    rintro rfl
    exact absurd isPositive (by decide)
  rw [listSessionsPaged]
  split
  · next none =>
    obtain noTypes := none.resolve_right notZero
    rw [orderedRows, matchingRows_of_no_types host db filters noTypes]
    cases cursor <;> simp [rowsAfter, sortDescending, cutPage]
  · dsimp only
    rw [listSessionsMatching_eq, length_map, getElem?_map]
    generalize rowsAfter ListedRow.key (orderedRows host db filters) cursor = rows
    obtain ⟨page, more⟩ := limited_spec noWrap rows
    split
    · next isMore =>
      have place (listed : List (ListedRow τ)) : listed[pageSize.toNat - 1]? =
          (listed.take pageSize.toNat)[pageSize.toNat - 1]? := by
        rw [getElem?_take, if_pos (by omega)]
      have last : (rows.take pageSize.toNat)[pageSize.toNat - 1]? =
          (rows.take pageSize.toNat).getLast? := by
        have enough := more.mp isMore
        rw [getLast?_eq_getElem?, length_take, Nat.min_eq_left enough.le]
      rw [← map_take, place, page, last, cutPage, if_pos (more.mp isMore), Option.map_map]
      rfl
    · next notMore =>
      have fits : (limited (pageSize + 1) rows).length ≤ pageSize.toNat := not_lt.mp notMore
      rw [← take_of_length_le fits, page, cutPage, if_neg fun isMore => notMore (more.mpr isMore)]

end Pages

/-- The cursors of the pages lead to all rows that match, in order. -/
def ShowsAll (pageSize : UInt64) : Prop :=
  Followed (fun cursor => (.ok (listSessionsPaged host db filters pageSize cursor) :
      Except Empty (Data.Page (ListedSession τ) SessionListCursor))) none
    ((orderedRows host db filters).map (ListedSession.fromRow host))

theorem orderedRows_descending : (orderedRows host db filters).Pairwise fun first second =>
    second.key < first.key :=
  Data.sortDescending_pairwise (nodup_matchingRows_keys host db filters)

variable {pageSize : UInt64}

theorem showsAll_iff_leadsOn (positive : 0 < pageSize) (noWrap : pageSize + 1 ≠ 0) :
    ShowsAll host db filters pageSize ↔
      LeadsOn ListedRow.key (ListedRow.cursor host) pageSize.toNat
        (orderedRows host db filters) := by
  have lists : ListsWith (ListedSession.fromRow host) ListedRow.key (ListedRow.cursor host)
      (orderedRows host db filters) pageSize.toNat
      (fun cursor => (.ok (listSessionsPaged host db filters pageSize cursor) :
        Except Empty (Data.Page (ListedSession τ) SessionListCursor))) := fun cursor =>
    congrArg Except.ok (listSessionsPaged_eq host db filters positive noWrap cursor)
  exact lists.followed_iff (UInt64.lt_iff_toNat_lt.mp positive)
    (orderedRows_descending host db filters) (nodup_orderedRows_shown host db filters)

/-- With a limit of no rows the first page is empty and the last. -/
theorem showsAll_iff_of_wraps (wraps : pageSize + 1 = 0) :
    ShowsAll host db filters pageSize ↔ orderedRows host db filters = [] := by
  have isEmpty : listSessionsPaged host db filters pageSize none =
      { items := [], nextCursor := none } := by
    rw [listSessionsPaged]
    split
    · rfl
    · rw [listSessionsMatching_eq, wraps]
      simp [limited]
  constructor
  · intro showsAll
    exact map_eq_nil_iff.mp (showsAll.unique (.empty (congrArg Except.ok isEmpty)))
  · intro noRows
    rw [ShowsAll, noRows]
    exact .empty (congrArg Except.ok isEmpty)

/-- Paging is complete and without repetitions where the cursor of each page lies above the
next row and not above the last row of the page, and where the limit does not overflow. -/
theorem showsAll_iff (positive : 0 < pageSize) : ShowsAll host db filters pageSize ↔
      (pageSize + 1 = 0 → orderedRows host db filters = []) ∧
        LeadsOn ListedRow.key (ListedRow.cursor host) pageSize.toNat
          (orderedRows host db filters) := by
  by_cases wraps : pageSize + 1 = 0
  · rw [showsAll_iff_of_wraps host db filters wraps]
    constructor
    · intro noRows
      refine ⟨fun _ => noRows, ?_⟩
      rw [noRows]
      intro front row next back isRows
      exact absurd isRows.symm (by simp)
    · exact fun holds => holds.1 wraps
  · rw [showsAll_iff_leadsOn host db filters positive wraps]
    exact (and_iff_right fun isZero => absurd isZero wraps).symm

/-- Five sessions: one with a time in milliseconds, three at one time, and one without a
message. -/
def threePagesDb : Database Int where
  sessions := [⟨"a", "/", "user", 0⟩, ⟨"e", "/", "user", 0⟩, ⟨"d", "/", "acp", 0⟩,
    ⟨"c", "/", "user", 0⟩, ⟨"b", "/", "user", 1600000000⟩]
  messages := [⟨"c", 1750000000, true, []⟩, ⟨"a", 1750000001500, true, []⟩,
    ⟨"d", 1740000000, true, []⟩, ⟨"e", 1750000000, true, []⟩, ⟨"d", 1750000000, false, []⟩]
  distinctIds := by decide

/-- In pages of two, the first of which ends between sessions of one time. -/
theorem showsAll_threePagesDb : ShowsAll (⟨some, id, id, id, id⟩ : Host Int) threePagesDb {} 2 := by
  have ordered : orderedRows (⟨some, id, id, id, id⟩ : Host Int) threePagesDb {} =
      [ ⟨⟨"a", "/", "user", 0⟩, 1, some 1750000001, 1750000001⟩,
        ⟨⟨"e", "/", "user", 0⟩, 1, some 1750000000, 1750000000⟩,
        ⟨⟨"d", "/", "acp", 0⟩, 1, some 1750000000, 1750000000⟩,
        ⟨⟨"c", "/", "user", 0⟩, 1, some 1750000000, 1750000000⟩,
        ⟨⟨"b", "/", "user", 1600000000⟩, 0, none, 1600000000⟩ ] := by
    exact mergeSort_of_pairwise (by decide)
  refine (showsAll_iff _ _ _ (by decide)).mpr ⟨fun wraps => absurd wraps (by decide), ?_⟩
  rw [ordered]
  apply (@Data.leadsOn_append_iff _ _ _ _ _ [_] [_, _] _ _).mpr
  constructor
  · decide
  · apply (@Data.leadsOn_append_iff _ _ _ _ _ [_] [] _ _).mpr
    constructor
    · decide
    · intro front row next back isRows
      have lengths := congrArg length isRows
      simp only [length_append, length_cons, length_nil] at lengths
      omega

/-- A session with a message whose time is in microseconds, and one with a later message. -/
def microsecondsDb : Database Int where
  sessions := [⟨"a", "/", "user", 0⟩, ⟨"b", "/", "user", 0⟩]
  messages := [⟨"a", 1700000000000000, true, []⟩, ⟨"b", 1750000000, true, []⟩]
  distinctIds := by decide

/-- In pages of one the second session is lost. -/
theorem not_showsAll_microsecondsDb :
    ¬ShowsAll (⟨some, id, id, id, id⟩ : Host Int) microsecondsDb {} 1 := by
  rw [showsAll_iff_leadsOn _ _ _ (by decide) (by decide)]
  have ordered : orderedRows (⟨some, id, id, id, id⟩ : Host Int) microsecondsDb {} =
      [ ⟨⟨"a", "/", "user", 0⟩, 1, some 1700000000000, 1700000000000⟩,
        ⟨⟨"b", "/", "user", 0⟩, 1, some 1750000000, 1750000000⟩ ] := by
    exact mergeSort_of_pairwise (by decide)
  rw [ordered]
  intro leadsOn
  have above := (leadsOn [] _ _ [] rfl (by decide)).1
  exact absurd above (by decide)

end Obelus.Session.Listing
