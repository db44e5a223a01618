import Mathlib.Algebra.BigOperators.Group.List.Basic
import Mathlib.Algebra.Order.Field.Rat
import Mathlib.Data.List.Nodup
import Obelus.Data.Closure

/-!
# Usage of sessions

Each session accumulates its usage, and each call of a model is a row of a ledger.  What the
ledger does not show is carried forward, and the totals of a session are those of its tree.
Costs are exact numbers.
-/

namespace Obelus.Session.UsageLedger

/-! ## Columns -/

inductive Column
  | input
  | output
  | total
  | cacheRead
  | cacheWrite

/-- One value for each column of tokens. -/
structure TokenColumns (α : Type) where
  inputTokens : α
  outputTokens : α
  totalTokens : α
  cacheReadTokens : α
  cacheWriteTokens : α

namespace TokenColumns

variable {α : Type}

def get (columns : TokenColumns α) : Column → α
  | .input => columns.inputTokens
  | .output => columns.outputTokens
  | .total => columns.totalTokens
  | .cacheRead => columns.cacheReadTokens
  | .cacheWrite => columns.cacheWriteTokens

def ofColumns (value : Column → α) : TokenColumns α where
  inputTokens := value .input
  outputTokens := value .output
  totalTokens := value .total
  cacheReadTokens := value .cacheRead
  cacheWriteTokens := value .cacheWrite

@[simp]
theorem get_ofColumns (value : Column → α) (column : Column) :
    (ofColumns value).get column = value column := by
  cases column <;> rfl

end TokenColumns

/-! ## Tables -/

inductive CostSource
  | providerReported
  | estimated

def CostSource.toText : CostSource → String
  | .providerReported => "provider_reported"
  | .estimated => "estimated"

structure SessionRow where
  id : String
  parentSessionId : Option String := none
  scheduleId : Option String := none
  usage : TokenColumns (Option Int)
  accumulated : TokenColumns (Option Int)
  accumulatedCost : Option ℚ

structure LedgerRow where
  sessionId : String
  model : Option String
  tokens : TokenColumns (Option Int)
  cost : Option ℚ
  costSource : Option String
  isCompaction : Bool

structure Database where
  sessions : List SessionRow
  ledger : List LedgerRow
  distinctIds : (sessions.map SessionRow.id).Nodup

/-- The usage of a call, whose counts are not negative. -/
structure MessageUsage where
  tokens : TokenColumns (Option Nat)
  cost : Option ℚ := none
  costSource : Option CostSource := none
  isCompaction : Bool := false

/-- A call of `record_usage_metrics`. -/
structure UsageCall where
  sessionId : String
  scheduleId : Option String
  currentUsage : TokenColumns (Option Int)
  model : String
  usage : MessageUsage

/-! ## Sums -/

/-- `SUM`, which is null when all values are. -/
def sqlSum {α : Type} [Add α] [Zero α] (values : List (Option α)) : Option α :=
  if (values.filterMap id).isEmpty then none else some (values.filterMap id).sum

def ledgerOf (ledger : List LedgerRow) (sessionId : String) : List LedgerRow :=
  ledger.filter fun row => row.sessionId = sessionId

def ledgerSum (ledger : List LedgerRow) (sessionId : String) (column : Column) : Option Int :=
  sqlSum ((ledgerOf ledger sessionId).map fun row => row.tokens.get column)

def ledgerCost (ledger : List LedgerRow) (sessionId : String) : Option ℚ :=
  sqlSum ((ledgerOf ledger sessionId).map LedgerRow.cost)

/-! ## Recording -/

/-- The accumulated usage that the ledger does not show. -/
def isBehind (ledger : List LedgerRow) (session : SessionRow) : Bool :=
  let behind (column : Column) : Bool :=
    (ledgerSum ledger session.id column).getD 0 < (session.accumulated.get column).getD 0
  behind .input || behind .output || behind .total ||
    decide ((ledgerCost ledger session.id).getD 0 + 1 / 1000000000 <
      session.accumulatedCost.getD 0)

/-- The row that is carried forward. -/
def carriedForward (ledger : List LedgerRow) (session : SessionRow) : LedgerRow :=
  let costSum := (ledgerCost ledger session.id).getD 0
  { sessionId := session.id
    model := none
    tokens := .ofColumns fun column =>
      some (max ((session.accumulated.get column).getD 0 -
        (ledgerSum ledger session.id column).getD 0) 0)
    cost := session.accumulatedCost.bind fun cost =>
      if cost ≤ costSum then none else some (cost - costSum)
    costSource := some "carried_forward"
    isCompaction := false }

/-- The rows of the first statement: none when the ledger shows the usage. -/
def carryForward (db : Database) (sessionId : String) : List LedgerRow :=
  (db.sessions.filter fun session =>
    session.id = sessionId && isBehind db.ledger session).map (carriedForward db.ledger)

def SessionRow.add (call : UsageCall) (session : SessionRow) : SessionRow :=
  { session with
    scheduleId := call.scheduleId
    usage := call.currentUsage
    accumulated := .ofColumns fun column =>
      some ((session.accumulated.get column).getD 0 + ((call.usage.tokens.get column).getD 0 : Nat))
    accumulatedCost :=
      match call.usage.cost with
      | none => session.accumulatedCost
      | some cost => some (session.accumulatedCost.getD 0 + cost) }

/-- `insert_usage_ledger_row`. -/
def usageRow (call : UsageCall) : LedgerRow where
  sessionId := call.sessionId
  model := some call.model
  tokens := .ofColumns fun column => (call.usage.tokens.get column).map Int.ofNat
  cost := call.usage.cost
  costSource := call.usage.costSource.map CostSource.toText
  isCompaction := call.usage.isCompaction

def updatedSessions (call : UsageCall) (sessions : List SessionRow) : List SessionRow :=
  sessions.map fun session => if session.id = call.sessionId then session.add call else session

theorem map_id_updatedSessions (call : UsageCall) (sessions : List SessionRow) :
    (updatedSessions call sessions).map SessionRow.id = sessions.map SessionRow.id := by
  rw [updatedSessions, List.map_map]
  refine List.map_congr_left fun session _ => ?_
  simp only [Function.comp_apply]
  split <;> rfl

/-- `record_usage_metrics`: the row of an unknown session is refused, and nothing is written. -/
def recordUsageMetrics (db : Database) (call : UsageCall) : Option Database :=
  if call.sessionId ∈ db.sessions.map SessionRow.id then
    some
      { sessions := updatedSessions call db.sessions
        ledger := db.ledger ++ carryForward db call.sessionId ++ [usageRow call]
        distinctIds := by
          rw [map_id_updatedSessions]
          exact db.distinctIds }
  else none

/-! ## Totals -/

/-- A session is a child of another. -/
def isChild (sessions : List SessionRow) (parent child : String) : Bool :=
  sessions.any fun session => session.id = child && session.parentSessionId = some parent

/-- `WITH RECURSIVE tree`: the session, and the children of the ids so far. -/
def tree (db : Database) (sessionId : String) : List String :=
  let ids := db.sessions.map SessionRow.id
  Data.closure ids (isChild db.sessions) (ids.filter fun id => id = sessionId)

/-- `larger`. -/
def larger (accumulated ledger : Option Int) : Int :=
  max (accumulated.getD 0) (ledger.getD 0)

/-- The sum over the tree, before it is converted. -/
def columnTotal (db : Database) (sessionId : String) (column : Column) : Int :=
  ((db.sessions.filter fun session => session.id ∈ tree db sessionId).map fun session =>
    larger (session.accumulated.get column) (ledgerSum db.ledger session.id column)).sum

def i32Max : Int := 2 ^ 31 - 1

/-- `i32::try_from` or the largest number. -/
def toI32 (value : Int) : Int :=
  if -2 ^ 31 ≤ value ∧ value ≤ i32Max then value else i32Max

/-- The loop body for the cost. -/
def addCost (ledger : List LedgerRow) (cost : Option ℚ) (session : SessionRow) : Option ℚ :=
  let spent := ledgerCost ledger session.id
  if session.accumulatedCost.isSome || spent.isSome then
    some (cost.getD 0 + max (session.accumulatedCost.getD 0) (spent.getD 0))
  else cost

structure SessionUsageTotals where
  accumulatedUsage : TokenColumns Int
  accumulatedCost : Option ℚ

def getSessionUsageTotals (db : Database) (sessionId : String) : SessionUsageTotals where
  accumulatedUsage := .ofColumns fun column => toI32 (columnTotal db sessionId column)
  accumulatedCost :=
    (db.sessions.filter fun session => session.id ∈ tree db sessionId).foldl
      (addCost db.ledger) none

/-!
## Accounts of usage

Recording a call raises the totals of its session and of the sessions above it by the usage
of the call, and no other totals.  Afterwards the ledger shows the accumulated usage.
-/

open List

/-! ## Sums -/

variable {α : Type} {sessionId : String} {session : SessionRow}

theorem sum_filterMap_id [AddMonoid α] (values : List (Option α)) :
    (values.filterMap id).sum = (values.map fun value => value.getD 0).sum := by
  induction values with
  | nil => rfl
  | cons value rest ih =>
    rw [map_cons, sum_cons, ← ih]
    cases value <;> simp

theorem getD_sqlSum [AddMonoid α] (values : List (Option α)) :
    (sqlSum values).getD 0 = (values.map fun value => value.getD 0).sum := by
  rw [← sum_filterMap_id, sqlSum]
  split
  · next none =>
    rw [isEmpty_iff.mp none]
    rfl
  · rfl

/-- The tokens that the ledger shows for a session. -/
def shown (ledger : List LedgerRow) (sessionId : String) (column : Column) : Int :=
  (ledgerSum ledger sessionId column).getD 0

theorem shown_append (ledger rows : List LedgerRow) (sessionId : String) (column : Column) :
    shown (ledger ++ rows) sessionId column =
      shown ledger sessionId column + shown rows sessionId column := by
  simp only [shown, ledgerSum, getD_sqlSum, ledgerOf, filter_append, map_append, sum_append]

theorem shown_of_other {rows : List LedgerRow} (others : ∀ row ∈ rows, row.sessionId ≠ sessionId)
    (column : Column) : shown rows sessionId column = 0 := by
  have none : ledgerOf rows sessionId = [] := by
    rw [ledgerOf, filter_eq_nil_iff]
    intro row member
    simpa using others row member
  rw [shown, ledgerSum, none]
  rfl

theorem shown_singleton (row : LedgerRow) (column : Column) :
    shown [row] row.sessionId column = (row.tokens.get column).getD 0 := by
  simp [shown, ledgerSum, getD_sqlSum, ledgerOf]

/-! ## One call -/

variable {db : Database} {call : UsageCall}

/-- The tokens of a call in a column. -/
def UsageCall.amount (call : UsageCall) (column : Column) : Int :=
  ((call.usage.tokens.get column).getD 0 : Nat)

/-- The tokens that a session has accumulated. -/
def SessionRow.accumulatedTokens (session : SessionRow) (column : Column) : Int :=
  (session.accumulated.get column).getD 0

/-- A session has one row. -/
theorem filter_sessions_eq (member : session ∈ db.sessions) (condition : SessionRow → Bool) :
    (db.sessions.filter fun other => other.id = session.id && condition other) =
      if condition session then [session] else [] := by
  have distinct := db.distinctIds
  generalize db.sessions = sessions at member distinct
  induction sessions with
  | nil => cases member
  | cons first rest ih =>
    rw [map_cons, nodup_cons] at distinct
    rw [filter_cons]
    rcases mem_cons.mp member with rfl | later
    · have none : (rest.filter fun other => other.id = session.id && condition other) = [] := by
        rw [filter_eq_nil_iff]
        intro other isLater
        have different : other.id ≠ session.id := fun same =>
          distinct.1 (same ▸ mem_map_of_mem isLater)
        simp [different]
      rw [none]
      simp
    · have different : first.id ≠ session.id := fun same =>
        distinct.1 (same ▸ mem_map_of_mem later)
      simp [different, ih later distinct.2]

/-- The rows of a call for its session: what is carried forward, and the usage. -/
theorem carryForward_eq (member : session ∈ db.sessions) : carryForward db session.id =
      if isBehind db.ledger session then [carriedForward db.ledger session] else [] := by
  rw [carryForward, filter_sessions_eq member]
  split <;> rfl

/-- What the ledger shows after a call. -/
theorem shown_recorded (member : session ∈ db.sessions) (isSession : session.id = call.sessionId)
    (column : Column) :
    shown (db.ledger ++ carryForward db call.sessionId ++ [usageRow call]) session.id column =
      (if isBehind db.ledger session then
        max (session.accumulatedTokens column) (shown db.ledger session.id column)
      else shown db.ledger session.id column) + call.amount column := by
  have added : shown [usageRow call] session.id column = call.amount column := by
    rw [isSession]
    refine (shown_singleton (usageRow call) column).trans ?_
    rw [usageRow, UsageCall.amount, TokenColumns.get_ofColumns]
    cases call.usage.tokens.get column <;> rfl
  rw [shown_append, shown_append, added, ← isSession, carryForward_eq member]
  split
  · have carried := shown_singleton (carriedForward db.ledger session) column
    rw [carriedForward, TokenColumns.get_ofColumns, Option.getD_some] at carried
    rw [carriedForward, carried, SessionRow.accumulatedTokens, shown]
    omega
  · have none : shown [] session.id column = 0 := rfl
    rw [none, add_zero]

theorem shown_recorded_other (isOther : sessionId ≠ call.sessionId) (column : Column) :
    shown (db.ledger ++ carryForward db call.sessionId ++ [usageRow call]) sessionId column =
      shown db.ledger sessionId column := by
  have carried : ∀ row ∈ carryForward db call.sessionId, row.sessionId ≠ sessionId := by
    intro row member
    obtain ⟨session, isSession, rfl⟩ := mem_map.mp member
    have sameId := (mem_filter.mp isSession).2
    rw [Bool.and_eq_true, decide_eq_true_iff] at sameId
    exact fun same => isOther (same.symm.trans sameId.1)
  have added : ∀ row ∈ [usageRow call], row.sessionId ≠ sessionId := by
    intro row member
    rw [mem_singleton.mp member]
    exact isOther.symm
  rw [shown_append, shown_append, shown_of_other carried, shown_of_other added, add_zero, add_zero]

/-! ## Trees -/

/-- A session has a parent. -/
def ParentOf (db : Database) (parent child : String) : Prop :=
  ∃ session ∈ db.sessions, session.id = child ∧ session.parentSessionId = some parent

/-- A session, and each of its ancestors. -/
def IsAbove (db : Database) (upper lower : String) : Prop :=
  upper ∈ db.sessions.map SessionRow.id ∧ Relation.ReflTransGen (ParentOf db) upper lower

theorem follows_iff {parent child : String} :
    Data.Follows (db.sessions.map SessionRow.id) (isChild db.sessions) parent child ↔
      ParentOf db parent child := by
  constructor
  · rintro ⟨isEdge, -⟩
    obtain ⟨session, member, isSession⟩ := any_eq_true.mp isEdge
    rw [Bool.and_eq_true, decide_eq_true_iff, decide_eq_true_iff] at isSession
    exact ⟨session, member, isSession⟩
  · rintro ⟨session, member, rfl, isParent⟩
    exact ⟨any_eq_true.mpr ⟨session, member, by simp [isParent]⟩, mem_map_of_mem member⟩

theorem mem_tree_iff {upper lower : String} : lower ∈ tree db upper ↔ IsAbove db upper lower := by
  have sameRelation : Data.Follows (db.sessions.map SessionRow.id) (isChild db.sessions) =
      ParentOf db := by
    funext parent child
    exact propext follows_iff
  rw [tree, Data.mem_closure_iff, sameRelation]
  simp only [mem_filter, decide_eq_true_iff]
  constructor
  · rintro ⟨start, ⟨member, rfl⟩, reaches⟩
    exact ⟨member, reaches⟩
  · rintro ⟨member, reaches⟩
    exact ⟨upper, ⟨member, rfl⟩, reaches⟩

theorem isChild_updatedSessions (call : UsageCall) (sessions : List SessionRow) :
    isChild (updatedSessions call sessions) = isChild sessions := by
  funext parent child
  rw [isChild, updatedSessions, any_map]
  congr
  funext session
  simp only [Function.comp_apply]
  split <;> rfl

/-! ## Recorded calls -/

theorem exists_recordUsageMetrics (known : call.sessionId ∈ db.sessions.map SessionRow.id) :
    ∃ db', recordUsageMetrics db call = some db' ∧
      db'.sessions = updatedSessions call db.sessions ∧
      db'.ledger = db.ledger ++ carryForward db call.sessionId ++ [usageRow call] := by
  rw [recordUsageMetrics, if_pos known]
  exact ⟨_, rfl, rfl, rfl⟩

section Recorded

variable {db' : Database} (sessions : db'.sessions = updatedSessions call db.sessions)
  (ledger : db'.ledger = db.ledger ++ carryForward db call.sessionId ++ [usageRow call])

include sessions in
theorem tree_recorded (upper : String) : tree db' upper = tree db upper := by
  rw [tree, tree, sessions, map_id_updatedSessions, isChild_updatedSessions]

/-- The tokens of one session. -/
def account (ledger : List LedgerRow) (column : Column) (session : SessionRow) : Int :=
  larger (session.accumulated.get column) (ledgerSum ledger session.id column)

theorem account_eq (ledger : List LedgerRow) (column : Column) (session : SessionRow) :
    account ledger column session =
      max (session.accumulatedTokens column) (shown ledger session.id column) :=
  rfl

include ledger in
/-- A call raises the account of its session only. -/
theorem account_recorded {session : SessionRow} (member : session ∈ db.sessions)
    (column : Column) :
    account db'.ledger column (if session.id = call.sessionId then session.add call else session) =
      account db.ledger column session +
        if session.id = call.sessionId then call.amount column else 0 := by
  rw [ledger]
  by_cases isSession : session.id = call.sessionId
  · have added : (session.add call).accumulatedTokens column =
        session.accumulatedTokens column + call.amount column := by
      rw [SessionRow.accumulatedTokens, SessionRow.add, TokenColumns.get_ofColumns]
      rfl
    have sameId : (session.add call).id = session.id := rfl
    rw [if_pos isSession, account_eq, account_eq, sameId, shown_recorded member isSession]
    split <;> omega
  · rw [if_neg isSession, if_neg isSession, account_eq, account_eq,
      shown_recorded_other isSession, add_zero]

theorem sum_indicator {rows : List SessionRow} (distinct : (rows.map SessionRow.id).Nodup)
    (id : String) (amount : Int) :
    (rows.map fun session => if session.id = id then amount else 0).sum =
      if id ∈ rows.map SessionRow.id then amount else 0 := by
  induction rows with
  | nil => rfl
  | cons first rest ih =>
    rw [map_cons, nodup_cons] at distinct
    rw [map_cons, sum_cons, ih distinct.2]
    by_cases isFirst : first.id = id
    · subst isFirst
      rw [if_pos rfl, if_neg distinct.1, if_pos (.head _), add_zero]
    · rw [if_neg isFirst]
      simp [Ne.symm isFirst]

include sessions ledger in
/-- The totals of the sessions above are raised by the tokens of the call. -/
theorem columnTotal_recorded (known : call.sessionId ∈ db.sessions.map SessionRow.id)
    (upper : String) (column : Column) : columnTotal db' upper column =
      columnTotal db upper column +
        if call.sessionId ∈ tree db upper then call.amount column else 0 := by
  have sameTree := tree_recorded sessions upper
  have filtered : (updatedSessions call db.sessions).filter
      (fun session => session.id ∈ tree db upper) =
        (db.sessions.filter fun session => session.id ∈ tree db upper).map fun session =>
          if session.id = call.sessionId then session.add call else session := by
    rw [updatedSessions, filter_map]
    congr 1
    refine filter_congr fun session _ => ?_
    simp only [Function.comp_apply]
    split <;> rfl
  have distinct : ((db.sessions.filter fun session => session.id ∈ tree db upper).map
      SessionRow.id).Nodup := db.distinctIds.sublist (filter_sublist.map _)
  have inTree : call.sessionId ∈ (db.sessions.filter fun session =>
      session.id ∈ tree db upper).map SessionRow.id ↔ call.sessionId ∈ tree db upper := by
    constructor
    · intro member
      obtain ⟨session, isSession, sameId⟩ := mem_map.mp member
      rw [← sameId]
      exact of_decide_eq_true (mem_filter.mp isSession).2
    · intro member
      obtain ⟨session, isSession, sameId⟩ := mem_map.mp known
      rw [← sameId] at member ⊢
      exact mem_map_of_mem (mem_filter.mpr ⟨isSession, decide_eq_true member⟩)
  rw [columnTotal, sessions, sameTree, filtered, map_map]
  calc _ = ((db.sessions.filter fun session => session.id ∈ tree db upper).map fun session =>
        account db.ledger column session +
          if session.id = call.sessionId then call.amount column else 0).sum := by
        congr 1
        refine map_congr_left fun session member => ?_
        exact account_recorded ledger (mem_of_mem_filter member) column
    _ = _ := by
        rw [sum_map_add, sum_indicator distinct]
        congr 1
        exact if_congr inTree rfl rfl

include ledger in
theorem ledgerCost_recorded_other {sessionId : String} (isOther : sessionId ≠ call.sessionId) :
    ledgerCost db'.ledger sessionId = ledgerCost db.ledger sessionId := by
  have none : ledgerOf (carryForward db call.sessionId ++ [usageRow call]) sessionId = [] := by
    rw [ledgerOf, filter_eq_nil_iff]
    intro row member
    rw [decide_eq_true_iff]
    rintro rfl
    rcases mem_append.mp member with carried | added
    · obtain ⟨session, isSession, rfl⟩ := mem_map.mp carried
      have sameId := (mem_filter.mp isSession).2
      rw [Bool.and_eq_true, decide_eq_true_iff] at sameId
      exact isOther sameId.1
    · rw [mem_singleton.mp added] at isOther
      exact isOther rfl
  rw [ledger, append_assoc, ledgerCost, ledgerCost, ledgerOf, filter_append,
    ← ledgerOf, ← ledgerOf, none, append_nil]

include sessions ledger in
/-- The totals of other sessions stay as they are. -/
theorem getSessionUsageTotals_recorded_other
    (known : call.sessionId ∈ db.sessions.map SessionRow.id) {upper : String}
    (notAbove : call.sessionId ∉ tree db upper) :
    getSessionUsageTotals db' upper = getSessionUsageTotals db upper := by
  have columns (column : Column) : columnTotal db' upper column = columnTotal db upper column := by
    rw [columnTotal_recorded sessions ledger known, if_neg notAbove, add_zero]
  have sameTree := tree_recorded sessions upper
  have others : ∀ session ∈ db.sessions.filter fun session => session.id ∈ tree db upper,
      session.id ≠ call.sessionId := by
    intro session member same
    have inTree := (mem_filter.mp member).2
    rw [decide_eq_true_iff, same] at inTree
    exact notAbove inTree
  have sameSessions : (updatedSessions call db.sessions).filter
      (fun session => session.id ∈ tree db upper) =
        db.sessions.filter fun session => session.id ∈ tree db upper := by
    have filtered : (updatedSessions call db.sessions).filter
        (fun session => session.id ∈ tree db upper) =
          updatedSessions call (db.sessions.filter fun session => session.id ∈ tree db upper) := by
      rw [updatedSessions, filter_map]
      congr 1
      refine filter_congr fun session _ => ?_
      simp only [Function.comp_apply]
      split <;> rfl
    rw [filtered]
    refine (map_congr_left fun session member => ?_).trans (map_id _)
    exact if_neg (others session member)
  have costs : (db.sessions.filter fun session => session.id ∈ tree db upper).foldl
      (addCost db'.ledger) none = (db.sessions.filter fun session =>
        session.id ∈ tree db upper).foldl (addCost db.ledger) none := by
    refine foldl_ext _ _ _ fun cost session member => ?_
    rw [addCost, addCost, ledgerCost_recorded_other ledger (others session member)]
  simp only [getSessionUsageTotals, columns, sameTree, sessions, sameSessions, costs]

end Recorded

/-! ## Accounts -/

/-- The tokens that are reported for a session. -/
def reported (db : Database) (sessionId : String) (column : Column) : Int :=
  (getSessionUsageTotals db sessionId).accumulatedUsage.get column

/-- What a call does: it raises the columns of its session and of the sessions above it, up to
the largest number that can be reported, and the ledger shows the accumulated usage. -/
structure Accounts (db : Database) (call : UsageCall) (db' : Database) : Prop where
  raises : ∀ upper, IsAbove db upper call.sessionId → ∀ column,
    columnTotal db' upper column = columnTotal db upper column + call.amount column ∧
      (reported db upper column < i32Max →
        reported db' upper column = min (reported db upper column + call.amount column) i32Max)
  keeps : ∀ upper, ¬IsAbove db upper call.sessionId →
    getSessionUsageTotals db' upper = getSessionUsageTotals db upper
  shows : ∀ session ∈ db'.sessions, session.id = call.sessionId →
    ∀ column ∈ [Column.input, .output, .total],
      session.accumulatedTokens column ≤ shown db'.ledger session.id column

theorem reported_eq (db : Database) (sessionId : String) (column : Column) :
    reported db sessionId column = toI32 (columnTotal db sessionId column) := by
  rw [reported, getSessionUsageTotals, TokenColumns.get_ofColumns]

/-- A number that is not the largest is reported as it is. -/
theorem toI32_add {value amount : Int} (notNegative : 0 ≤ amount)
    (notLargest : toI32 value < i32Max) :
    toI32 (value + amount) = min (toI32 value + amount) i32Max := by
  unfold toI32 i32Max at *
  split at notLargest
  · split <;> omega
  · omega

theorem isBehind_of_lt {ledger : List LedgerRow} {column : Column}
    (isColumn : column ∈ [Column.input, .output, .total])
    (behind : shown ledger session.id column < session.accumulatedTokens column) :
    isBehind ledger session := by
  have isBehindIn : decide ((ledgerSum ledger session.id column).getD 0 <
      (session.accumulated.get column).getD 0) = true := decide_eq_true behind
  rw [isBehind]
  dsimp only
  simp only [mem_cons, not_mem_nil, or_false] at isColumn
  rcases isColumn with rfl | rfl | rfl
  · rw [isBehindIn]
    rfl
  · rw [isBehindIn, Bool.or_true]
    rfl
  · rw [isBehindIn, Bool.or_true]
    rfl

theorem accounts_recordUsageMetrics (known : call.sessionId ∈ db.sessions.map SessionRow.id) :
    ∃ db', recordUsageMetrics db call = some db' ∧ Accounts db call db' := by
  obtain ⟨db', records, sessions, ledger⟩ := exists_recordUsageMetrics known
  refine ⟨db', records, ?_, ?_, ?_⟩
  · intro upper isAbove column
    have raised := columnTotal_recorded sessions ledger known upper column
    rw [if_pos (mem_tree_iff.mpr isAbove)] at raised
    refine ⟨raised, ?_⟩
    rw [reported_eq, reported_eq, raised]
    exact toI32_add (Int.natCast_nonneg _)
  · intro upper notAbove
    exact getSessionUsageTotals_recorded_other sessions ledger known
      fun inTree => notAbove (mem_tree_iff.mp inTree)
  · intro session member isSession column isColumn
    rw [sessions] at member
    obtain ⟨original, isOriginal, rfl⟩ := mem_map.mp member
    have sameId : original.id = call.sessionId := by
      split at isSession
      · assumption
      · exact isSession
    rw [if_pos sameId, ledger]
    have added : (original.add call).accumulatedTokens column =
        original.accumulatedTokens column + call.amount column := by
      rw [SessionRow.accumulatedTokens, SessionRow.add, TokenColumns.get_ofColumns]
      rfl
    have showsNow := shown_recorded isOriginal sameId column
    have keepsId : (original.add call).id = original.id := rfl
    rw [keepsId, showsNow]
    split
    · omega
    · next notBehind =>
      have enough := not_lt.mp fun behind => notBehind (isBehind_of_lt isColumn behind)
      omega

/-- Each call of a sequence accounts for its usage. -/
def EachAccounts : Database → List UsageCall → Prop
  | _, [] => True
  | db, call :: rest =>
    ∃ db', recordUsageMetrics db call = some db' ∧ Accounts db call db' ∧ EachAccounts db' rest

/-- A parent with more accumulated tokens than the ledger shows, and its child. -/
def importedDb : Database where
  sessions :=
    [ { id := "parent"
        usage := .ofColumns fun _ => none
        accumulated := .ofColumns fun _ => some 100
        accumulatedCost := none },
      { id := "child"
        parentSessionId := some "parent"
        usage := .ofColumns fun _ => none
        accumulated := .ofColumns fun _ => none
        accumulatedCost := some 1 } ]
  ledger := []
  distinctIds := by decide

def smallCall (sessionId : String) : UsageCall where
  sessionId := sessionId
  scheduleId := none
  currentUsage := .ofColumns fun _ => some 5
  model := "model"
  usage := { tokens := .ofColumns fun _ => some 5 }

end Obelus.Session.UsageLedger
