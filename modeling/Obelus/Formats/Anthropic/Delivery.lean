import Obelus.Formats.Anthropic.Streaming

/-!
# Merged usages

Which of the usages of a stream the merged usage takes its counts from, and when these are
the counts that were reported last.
-/

namespace Obelus.Formats.Anthropic

open List

/-- The last usage of `rest` with a property, or the first usage. -/
def lastThat (property : Value → Bool) (first : Value) (rest : List Value) : Value :=
  (rest.reverse.find? property).getD first

theorem lastThat_append (property : Value → Bool) (first : Value) (rest : List Value)
    (usage : Value) : lastThat property first (rest ++ [usage]) =
      if property usage then usage else lastThat property first rest := by
  rw [lastThat, reverse_append, reverse_singleton, singleton_append, find?_cons]
  cases property usage <;> rfl

/-- The last value of a key that one of the usages reports. -/
def lastReported (key : String) (usages : List Value) : Option Value :=
  usages.reverse.findSome? (Value.get key)

/-- The last usage that reports a key. -/
def lastReport (key : String) : Value → List Value → Value :=
  lastThat fun usage => reports usage key

theorem lastReported_eq (key : String) (first : Value) (rest : List Value) :
    lastReported key (first :: rest) = (lastReport key first rest).get key := by
  induction rest using reverseRecOn with
  | nil => simp [lastReported, lastReport, lastThat]
  | append_singleton rest usage ih =>
    have turned : lastReported key (first :: (rest ++ [usage])) =
        (usage.get key).or (lastReported key (first :: rest)) := by
      simp only [lastReported, reverse_cons, reverse_append, reverse_nil,
        nil_append, cons_append, findSome?_cons]
      cases usage.get key <;> rfl
    rw [turned, lastReport, lastThat_append, ih]
    cases isReported : usage.get key with
    | none => simp [reports, isReported, lastReport]
    | some value => simp [reports, isReported]

theorem lastThat_mem (property : Value → Bool) (first : Value) (rest : List Value) :
    lastThat property first rest ∈ first :: rest := by
  rw [lastThat]
  cases found : rest.reverse.find? property with
  | none => exact .head _
  | some usage => exact .tail _ (mem_reverse.mp (mem_of_find?_eq_some found))

/-- One of the counts is above zero. -/
def HasTokens (usage : Value) : Prop :=
  0 < (tokenField usage "input_tokens").getD 0 ∨ 0 < (tokenField usage "output_tokens").getD 0 ∨
    0 < (tokenField usage "cache_read_input_tokens").getD 0 ∨
    0 < (tokenField usage "cache_creation_input_tokens").getD 0

instance (usage : Value) : Decidable (HasTokens usage) :=
  inferInstanceAs (Decidable (_ ∨ _ ∨ _ ∨ _))

/-- An object of counts. -/
def IsUsageObject (usage : Value) : Prop :=
  usage.asObject.isSome ∧ usage.get "usage" = none

/-- The cache counts of a usage in which one of the counts is above zero. -/
def cacheCounts (usage : Value) : Option Nat × Option Nat :=
  if HasTokens usage then
    (tokenField usage "cache_read_input_tokens", tokenField usage "cache_creation_input_tokens")
  else (none, none)

variable {usage first whole : Value} {rest : List Value}

theorem tokenField_le {key : String} {tokens : Nat} (isField : tokenField usage key = some tokens) :
    tokens ≤ i32Max := by
  obtain ⟨value, -, rfl⟩ := Option.map_eq_some_iff.mp isField
  exact Nat.min_le_right _ _

theorem getD_tokenField_le (usage : Value) (key : String) :
    (tokenField usage key).getD 0 ≤ i32Max := by
  cases isField : tokenField usage key with
  | none => exact Nat.zero_le _
  | some tokens => exact tokenField_le isField

theorem saturatingAdd_pos_iff {a b : Nat} : 0 < saturatingAdd a b ↔ 0 < a ∨ 0 < b := by
  have positive : 0 < i32Max := by decide
  rw [saturatingAdd]
  omega

/-- Without a count above zero there is no usage. -/
theorem getUsage_of_isUsageObject (isObject : IsUsageObject usage) :
    getUsage usage = if HasTokens usage then usageFromAnthropicFields usage else {} := by
  have positive : (usageFromAnthropicFields usage).totalTokens.getD 0 > 0 ↔ HasTokens usage := by
    simp only [usageFromAnthropicFields, Usage.fromCacheExclusiveInput, Usage.new,
      Usage.withCacheTokens, Option.map_some, Option.map_none, Option.getD_some, HasTokens,
      saturatingAdd_pos_iff]
    omega
  rw [getUsage, isObject.2]
  rw [if_pos isObject.1]
  simp only [positive]
  rfl

def reportsInput (usage : Value) : Bool :=
  reports usage "input_tokens"

def reportsInputAndCache (usage : Value) : Bool :=
  reportsInput usage &&
    (reports usage "cache_read_input_tokens" || reports usage "cache_creation_input_tokens")

/-- The usages merged one after the other. -/
def mergeAll (first : Value) (rest : List Value) : Usage :=
  rest.foldl (fun merged usage => mergeDeltaUsage merged (getUsage usage) usage) (getUsage first)

/-- Where the counts of a merged usage come from. -/
structure MergedFrom (first : Value) (rest : List Value) (merged : Usage) : Prop where
  output : merged.outputTokens = (getUsage (lastReport "output_tokens" first rest)).outputTokens
  cache : (merged.cacheReadInputTokens, merged.cacheWriteInputTokens) =
    cacheCounts (lastThat reportsInputAndCache first rest)
  input : merged.inputTokens =
    if HasTokens (lastReport "input_tokens" first rest) then
      some (saturatingAdd
        ((tokenField (lastReport "input_tokens" first rest) "input_tokens").getD 0)
        (saturatingAdd (merged.cacheReadInputTokens.getD 0)
          (merged.cacheWriteInputTokens.getD 0)))
    else none
  total : merged.totalTokens = (Usage.new merged.inputTokens merged.outputTokens none).totalTokens

/-- The counts of a usage object. -/
structure CountsOf (usage : Value) (counted : Usage) : Prop where
  output : counted.outputTokens =
    if HasTokens usage then some ((tokenField usage "output_tokens").getD 0) else none
  cache : (counted.cacheReadInputTokens, counted.cacheWriteInputTokens) = cacheCounts usage
  input : counted.inputTokens =
    if HasTokens usage then
      some (saturatingAdd ((tokenField usage "input_tokens").getD 0)
        (saturatingAdd (counted.cacheReadInputTokens.getD 0)
          (counted.cacheWriteInputTokens.getD 0)))
    else none
  total : counted.totalTokens =
    (Usage.new counted.inputTokens counted.outputTokens none).totalTokens

theorem countsOf_getUsage (isObject : IsUsageObject usage) : CountsOf usage (getUsage usage) := by
  rw [getUsage_of_isUsageObject isObject]
  by_cases hasTokens : HasTokens usage
  · rw [if_pos hasTokens]
    exact
      { output := by rw [if_pos hasTokens]; rfl
        cache := by rw [cacheCounts, if_pos hasTokens]; rfl
        input := by rw [if_pos hasTokens]; rfl
        total := rfl }
  · rw [if_neg hasTokens]
    exact
      { output := by rw [if_neg hasTokens]
        cache := by rw [cacheCounts, if_neg hasTokens]
        input := by rw [if_neg hasTokens]
        total := rfl }

theorem mergedFrom_first (isObject : IsUsageObject first) : MergedFrom first [] (getUsage first) :=
  let counts := countsOf_getUsage isObject
  ⟨rfl, counts.cache, counts.input, counts.total⟩

theorem cacheCounts_of_not_reports (notReported : (reports usage "cache_read_input_tokens" ||
      reports usage "cache_creation_input_tokens") = false) : cacheCounts usage = (none, none) := by
  simp only [reports, Bool.or_eq_false_iff, Option.isSome_eq_false_iff,
    Option.isNone_iff_eq_none] at notReported
  simp [cacheCounts, tokenField, notReported.1, notReported.2]

/-- The input of a usage without cache counts. -/
theorem CountsOf.input_of_not_reports {counted : Usage} (counts : CountsOf usage counted)
    (notReported : (reports usage "cache_read_input_tokens" ||
      reports usage "cache_creation_input_tokens") = false) : counted.inputTokens =
      if HasTokens usage then some ((tokenField usage "input_tokens").getD 0) else none := by
  have none := counts.cache
  rw [cacheCounts_of_not_reports notReported, Prod.mk.injEq] at none
  rw [counts.input, none.1, none.2]
  have bounded := getD_tokenField_le usage "input_tokens"
  have same : saturatingAdd ((tokenField usage "input_tokens").getD 0) (saturatingAdd 0 0) =
      (tokenField usage "input_tokens").getD 0 := by
    rw [saturatingAdd, saturatingAdd]
    omega
  rw [Option.getD_none, same]

/-- One more usage is merged. -/
theorem MergedFrom.append {merged : Usage} (earlier : MergedFrom first rest merged)
    (isObject : IsUsageObject usage) :
    MergedFrom first (rest ++ [usage]) (mergeDeltaUsage merged (getUsage usage) usage) := by
  have counts := countsOf_getUsage isObject
  have output : (if reports usage "output_tokens" then (getUsage usage).outputTokens
      else merged.outputTokens) =
      (getUsage (lastReport "output_tokens" first (rest ++ [usage]))).outputTokens := by
    rw [lastReport, lastThat_append]
    split
    · rfl
    · exact earlier.output
  have inputSource : lastReport "input_tokens" first (rest ++ [usage]) =
      if reports usage "input_tokens" then usage else lastReport "input_tokens" first rest := by
    rw [lastReport, lastThat_append]
  have cacheSource := lastThat_append reportsInputAndCache first rest usage
  unfold mergeDeltaUsage
  cases isInput : reports usage "input_tokens" with
  | false =>
    rw [isInput] at inputSource
    rw [reportsInputAndCache, reportsInput, isInput] at cacheSource
    exact
      { output := output
        cache := earlier.cache.trans (congrArg cacheCounts cacheSource.symm)
        input := by
          rw [inputSource]
          exact earlier.input
        total := rfl }
  | true =>
    rw [isInput, if_pos rfl] at inputSource
    cases isCache : reports usage "cache_read_input_tokens" ||
      reports usage "cache_creation_input_tokens" with
    | true =>
      rw [reportsInputAndCache, reportsInput, isInput, isCache] at cacheSource
      exact
        { output := output
          cache := counts.cache.trans (congrArg cacheCounts cacheSource.symm)
          input := by
            rw [inputSource]
            exact counts.input
          total := rfl }
    | false =>
      rw [reportsInputAndCache, reportsInput, isInput, isCache] at cacheSource
      exact
        { output := output
          cache := earlier.cache.trans (congrArg cacheCounts cacheSource.symm)
          input := by
            rw [inputSource]
            change (getUsage usage).inputTokens.map _ = _
            rw [counts.input_of_not_reports isCache]
            split <;> rfl
          total := rfl }

theorem mergedFrom_mergeAll (isObject : IsUsageObject first)
    (areObjects : ∀ usage ∈ rest, IsUsageObject usage) :
    MergedFrom first rest (mergeAll first rest) := by
  induction rest using reverseRecOn with
  | nil => exact mergedFrom_first isObject
  | append_singleton rest usage ih =>
    rw [mergeAll, foldl_append]
    exact (ih fun other member => areObjects other (mem_append_left _ member)).append
      (areObjects usage (by simp))

/-- The counts that the merged usage takes are the ones that were reported last. -/
structure KeepsUsage (first : Value) (rest : List Value) : Prop where
  output : HasTokens (lastReport "output_tokens" first rest)
  input : HasTokens (lastReport "input_tokens" first rest)
  cache : cacheCounts (lastThat reportsInputAndCache first rest) =
    (tokenField (lastReport "cache_read_input_tokens" first rest) "cache_read_input_tokens",
      tokenField (lastReport "cache_creation_input_tokens" first rest)
        "cache_creation_input_tokens")

def usageKeys : List String :=
  ["input_tokens", "output_tokens", "cache_read_input_tokens", "cache_creation_input_tokens"]

/-- The counts of the usage at the end of the stream are the ones that were reported last. -/
structure KeepsCounts (usage whole : Value) : Prop where
  hasTokens : HasTokens usage
  output : (tokenField usage "output_tokens").getD 0 = (tokenField whole "output_tokens").getD 0
  cacheRead : tokenField usage "cache_read_input_tokens" =
    tokenField whole "cache_read_input_tokens"
  cacheWrite : tokenField usage "cache_creation_input_tokens" =
    tokenField whole "cache_creation_input_tokens"
  input : (usageFromAnthropicFields usage).inputTokens =
    (usageFromAnthropicFields whole).inputTokens

/-- The merged usage is the usage with the last counts where these are kept. -/
theorem mergeAll_eq_iff (areObjects : ∀ usage ∈ first :: rest, IsUsageObject usage)
    (cumulative : ∀ key ∈ usageKeys, whole.get key = lastReported key (first :: rest)) :
    mergeAll first rest = usageFromAnthropicFields whole ↔ KeepsUsage first rest := by
  have field (key : String) (isKey : key ∈ usageKeys) :
      tokenField whole key = tokenField (lastReport key first rest) key := by
    rw [tokenField, cumulative key isKey, lastReported_eq]
    rfl
  have inputField := field "input_tokens" (by decide)
  have outputField := field "output_tokens" (by decide)
  have readField := field "cache_read_input_tokens" (by decide)
  have writeField := field "cache_creation_input_tokens" (by decide)
  obtain ⟨output, cache, input, total⟩ := mergedFrom_mergeAll (areObjects first (.head _))
    fun usage member => areObjects usage (.tail _ member)
  have outputCounts := countsOf_getUsage
    (areObjects (lastReport "output_tokens" first rest) (lastThat_mem _ _ _))
  rw [outputCounts.output] at output
  constructor
  · intro same
    rw [same] at output cache input
    refine ⟨?_, ?_, ?_⟩
    · by_contra noTokens
      rw [if_neg noTokens] at output
      cases output
    · by_contra noTokens
      rw [if_neg noTokens] at input
      cases input
    · rw [← cache, ← readField, ← writeField]
      rfl
  · intro keeps
    rw [keeps.cache, ← readField, ← writeField, Prod.mk.injEq] at cache
    rw [if_pos keeps.output, ← outputField] at output
    rw [if_pos keeps.input, ← inputField, cache.1, cache.2] at input
    rw [input, output] at total
    exact Usage.ext input output total cache.1 cache.2

/-- The usage at the end of the stream is the usage with the last counts where these are
kept. -/
theorem getUsage_eq_iff (isObject : IsUsageObject usage) :
    getUsage usage = usageFromAnthropicFields whole ↔ KeepsCounts usage whole := by
  rw [getUsage_of_isUsageObject isObject]
  constructor
  · intro same
    by_cases hasTokens : HasTokens usage
    · rw [if_pos hasTokens] at same
      exact
        { hasTokens
          output := Option.some.inj (congrArg Usage.outputTokens same)
          cacheRead := congrArg Usage.cacheReadInputTokens same
          cacheWrite := congrArg Usage.cacheWriteInputTokens same
          input := congrArg Usage.inputTokens same }
    · rw [if_neg hasTokens] at same
      cases congrArg Usage.outputTokens same
  · intro keeps
    rw [if_pos keeps.hasTokens]
    have output : (usageFromAnthropicFields usage).outputTokens =
        (usageFromAnthropicFields whole).outputTokens := congrArg some keeps.output
    have total : (usageFromAnthropicFields usage).totalTokens =
        (usageFromAnthropicFields whole).totalTokens :=
      congrArg₂ (fun input output => (Usage.new input output none).totalTokens) keeps.input output
    exact Usage.ext keeps.input output total keeps.cacheRead keeps.cacheWrite

/-!
## Delivered replies

A reply and the lines of a stream that delivers it block by block.  Comments, pings and
unknown events stand between any lines.
-/

/-- The loop passes over an unknown event and over an unknown delta. -/
def StreamingEvent.isUnknown (event : StreamingEvent) : Bool :=
  if event.eventType = "content_block_delta" then
    ((event.data.get "delta").bind deltaOf).isNone
  else
    !(["message_start", "content_block_start", "content_block_stop", "message_delta",
      "message_stop"].contains event.eventType)

def lineEvent (host : Host) (line : String) : Option StreamingEvent :=
  match readLine host line with
  | .event event => if event.isUnknown then none else some event
  | _ => none

/-- The lines have these events and no end of the stream. -/
def Reads (host : Host) (lines : List String) (events : List StreamingEvent) : Prop :=
  (∀ line ∈ lines, readLine host line ≠ .done) ∧ lines.filterMap (lineEvent host) = events

inductive ReplyBlock
  | text (text : String)
  | thinking (thinking signature : String)
  | redactedThinking (data : String)
  | toolUse (id name : String) (input : JsonObject)

/-- The block as a value of a whole reply. -/
def ReplyBlock.IsValue (value : Value) : ReplyBlock → Prop
  | .text content => value.str "type" = some "text" ∧ value.str "text" = some content
  | .thinking content signature =>
    value.str "type" = some "thinking" ∧ value.str "thinking" = some content ∧
      (value.str "signature").getD "" = signature
  | .redactedThinking data =>
    value.str "type" = some "redacted_thinking" ∧ value.str "data" = some data
  | .toolUse id name input =>
    value.str "type" = some "tool_use" ∧ value.str "id" = some id ∧
      value.str "name" = some name ∧ value.get "input" = some (.object input)

inductive ThinkingPiece
  | text (text : String)
  | signature (signature : String)

def ThinkingPiece.delta : ThinkingPiece → ContentBlockDelta
  | .text piece => .thinkingDelta piece
  | .signature piece => .signatureDelta piece

def ThinkingPiece.add (state : ThinkingState) : ThinkingPiece → ThinkingState
  | .text piece => { state with text := state.text ++ piece }
  | .signature piece => { state with signature := state.signature ++ piece }

/-- A block and its division into deltas.  A text, thinking and its signature begin with
those of the start of the block. -/
inductive Division
  | text (start : String) (pieces : List String)
  | thinking (start : ThinkingState) (pieces : List ThinkingPiece)
  | redactedThinking (data : String)
  | toolUse (id name : String) (pieces : List String) (input : JsonObject)

namespace Division

def block : Division → ReplyBlock
  | .text start pieces => .text (start ++ String.join pieces)
  | .thinking start pieces =>
    let whole := pieces.foldl ThinkingPiece.add start
    .thinking whole.text whole.signature
  | .redactedThinking data => .redactedThinking data
  | .toolUse id name _ input => .toolUse id name input

def deltas : Division → List ContentBlockDelta
  | .text _ pieces => pieces.map .textDelta
  | .thinking _ pieces => pieces.map ThinkingPiece.delta
  | .redactedThinking _ => []
  | .toolUse _ _ pieces _ => pieces.map .inputJsonDelta

/-- The value with which the block starts. -/
def IsStart (value : Value) : Division → Prop
  | .text start _ =>
    value.str "type" = some "text" ∧ (value.str "text").getD "" = start
  | .thinking start _ =>
    value.str "type" = some "thinking" ∧ (value.str "thinking").getD "" = start.text ∧
      (value.str "signature").getD "" = start.signature
  | .redactedThinking data =>
    value.str "type" = some "redacted_thinking" ∧ value.str "data" = some data
  | .toolUse id name _ _ =>
    value.str "type" = some "tool_use" ∧ value.str "id" = some id ∧ value.str "name" = some name

/-- The pieces of an input are its text, or nothing for an empty input. -/
def WritesInput (host : Host) : Division → Prop
  | .toolUse _ _ pieces input =>
    (String.join pieces = "" ∧ input = []) ∨
      (String.join pieces ≠ "" ∧ host.fromStr (String.join pieces) = some (.object input))
  | _ => True

end Division

/-- A block with the lines that deliver it. -/
structure Section (host : Host) where
  division : Division
  lines : List String
  start : StreamingEvent
  changes : List StreamingEvent
  stop : StreamingEvent
  reads : Reads host lines (start :: changes ++ [stop])
  isStart : start.eventType = "content_block_start" ∧
    ∃ value, start.data.get "content_block" = some value ∧ division.IsStart value
  areDeltas : List.Forall₂ (fun change delta => change.eventType = "content_block_delta" ∧
    (change.data.get "delta").bind deltaOf = some delta) changes division.deltas
  isStop : stop.eventType = "content_block_stop"
  writesInput : division.WritesInput host

/-- A `message_delta` with a usage, of a reply that was not refused and that has no stop
details. -/
structure IsChange (event : StreamingEvent) (usage : Option Value) : Prop where
  isChange : event.eventType = "message_delta"
  carries : event.data.get "usage" = usage
  notRefused : ∀ delta, event.data.get "delta" = some delta →
    delta.str "stop_reason" ≠ some "refusal" ∧
      ∀ details, delta.get "stop_details" = some details → details.isNull

/-- The stream ends, or a line ends it, which may carry a usage. -/
def Ends (host : Host) (usage : Option Value) : List String → Prop
  | [] => usage = none
  | line :: _ =>
    (readLine host line = .done ∧ usage = none) ∨
      ∃ event, readLine host line = .event event ∧ event.eventType = "message_stop" ∧
        event.data.get "usage" = usage

/-- A whole reply and the lines that deliver it, with a usage in each event that carries
one.  The usages are cumulative. -/
structure Delivery (host : Host) where
  response : Value
  contentBlocks : List Value
  usage : Value
  opening : List String
  messageStart : StreamingEvent
  messageData : Value
  sections : List (Section host)
  changes : List String
  changeEvents : List StreamingEvent
  changeUsages : List (Option Value)
  ending : List String
  stopUsage : Option Value
  isContent : response.get "content" = some (.array contentBlocks)
  areBlocks : List.Forall₂ (fun value (part : Section host) => part.division.block.IsValue value)
    contentBlocks sections
  isUsage : response.get "usage" = some usage
  opens : Reads host opening [messageStart] ∧ messageStart.eventType = "message_start" ∧
    messageStart.data.get "message" = some messageData
  changesRead : Reads host changes changeEvents
  areChanges : List.Forall₂ IsChange changeEvents changeUsages
  ends : Ends host stopUsage ending
  carried : (messageData.get "usage" :: changeUsages ++ [stopUsage]).reduceOption ≠ []
  areUsages : ∀ other ∈ (messageData.get "usage" :: changeUsages ++ [stopUsage]).reduceOption,
    IsUsageObject other
  cumulative : ∀ key ∈ usageKeys, usage.get key =
    lastReported key (messageData.get "usage" :: changeUsages ++ [stopUsage]).reduceOption

namespace Delivery

variable {host : Host} (delivery : Delivery host)

/-- The usages that the events before the end of the stream carry. -/
def usages : List Value :=
  (delivery.messageData.get "usage" :: delivery.changeUsages).reduceOption

def lines : List String :=
  delivery.opening ++ delivery.sections.flatMap Section.lines ++ delivery.changes ++
    delivery.ending

def stream : List (Except String String) :=
  delivery.lines.map .ok

end Delivery

end Obelus.Formats.Anthropic
