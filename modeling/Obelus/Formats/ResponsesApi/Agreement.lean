import Obelus.Data.Parts
import Obelus.Formats.ResponsesApi.Streaming

/-!
# Streams and whole replies of the Responses API

One flag for the whole reply says that its texts have come in deltas, so that the stream shows
the whole text exactly when none or all of it came so.
-/

namespace Obelus.Formats.ResponsesApi

open List
open ResponseOutputItem (toContent)
open DividedItem (info whole)

variable {host : StreamHost}

/-! ## Items -/

/-- The content without its texts when they were streamed. -/
def withoutTexts (isTextResponse : Bool) (content : List MessageContentBlock) :
    List MessageContentBlock :=
  content.filter fun block =>
    match block with
    | .text _ => !isTextResponse
    | _ => true

variable (isTextResponse : Bool) (first second : List MessageContentBlock) (text : String)

@[simp]
theorem withoutTexts_append : withoutTexts isTextResponse (first ++ second) =
      withoutTexts isTextResponse first ++ withoutTexts isTextResponse second :=
  filter_append ..

variable {α β : Type} {consumed : Consumed} {tracked : Tracked} {items : List DividedItem}
  {content : List MessageContentBlock} {item : DividedItem}

theorem collect_map {γ : Type} (content : β → Except DecodeError (List γ)) (item : α → β)
    (items : List α) :
    collect content (items.map item) = collect (fun entry => content (item entry)) items := by
  induction items with
  | nil => rfl
  | cons entry rest ih => rw [map_cons, collect, collect, ih]

/-- A change of the content of each item is a change of the content. -/
theorem collect_eq_map {first second : α → Except DecodeError (List β)} {change : List β → List β}
    (keepsNil : change [] = [])
    (keepsAppend : ∀ here others, change (here ++ others) = change here ++ change others)
    (same : ∀ entry, first entry = (second entry).map change) (items : List α) :
    collect first items = (collect second items).map change := by
  induction items with
  | nil => simp [collect, Except.map, keepsNil]
  | cons entry rest ih =>
    rw [collect, collect, same entry, ih]
    cases second entry with
    | error error => rfl
    | ok here =>
      cases collect second rest with
      | error error => rfl
      | ok others => simp [Except.map, keepsAppend]

theorem withoutTexts_textUnlessEmpty : (if isTextResponse then [] else textUnlessEmpty text) =
      withoutTexts isTextResponse (textUnlessEmpty text) := by
  rw [textUnlessEmpty]
  cases isTextResponse <;> cases text.isEmpty <;> rfl

theorem toContent_part (part : DividedPart) : part.info.toContent host.toHost isTextResponse =
      (part.block.toContent host.toHost).map (withoutTexts isTextResponse) := by
  rw [DividedPart.info, DividedPart.block]
  cases part.kind <;>
    exact congrArg Except.ok (withoutTexts_textUnlessEmpty isTextResponse part.text)

theorem toolRequest_eq (id name : String) (input : Value) : toolRequest host.toHost id name input =
      (toolRequest host.toHost id name input).map (withoutTexts isTextResponse) := by
  rw [toolRequest]
  cases object host.toHost input <;> rfl

/-- A finished item gives what it gives in the whole reply, but for its texts. -/
theorem toContent_item (item : DividedItem) : item.info.toContent host.toHost isTextResponse =
      (item.whole.toContent host.toHost).map (withoutTexts isTextResponse) := by
  cases item with
  | reasoning summary =>
    simp only [info, whole, ResponseOutputItemInfo.toContent,
      toContent, reasoningFromSummary]
    split <;> rfl
  | message parts =>
    simp only [info, whole, ResponseOutputItemInfo.toContent,
      toContent, collect_map]
    exact collect_eq_map rfl (withoutTexts_append _) (toContent_part isTextResponse) parts
  | functionCall id status callId name arguments =>
    simp only [info, whole, ResponseOutputItemInfo.toContent,
      toContent, functionCallRequest]
    split
    · rfl
    · exact toolRequest_eq ..

theorem processStreamingOutputItems_info (items : List DividedItem) (isTextResponse : Bool) :
    processStreamingOutputItems host.toHost (items.map info) isTextResponse =
      (collect (toContent host.toHost) (items.map whole)).map
        (withoutTexts isTextResponse) := by
  rw [processStreamingOutputItems, collect_map, collect_map]
  exact collect_eq_map rfl (withoutTexts_append _) (toContent_item isTextResponse) items

/-! ## The loop -/

/-- What of the loop decides about the text and the items. -/
structure Tracked where
  outputItems : List ResponseOutputItemInfo := []
  isTextResponse : Bool := false
  content : List MessageContentBlock := []

def Tracked.event (tracked : Tracked) : ResponsesStreamEvent → Tracked
  | .outputTextDelta delta | .refusalDelta delta =>
    { tracked with
      isTextResponse := true
      content := tracked.content ++ textUnlessEmpty delta }
  | .outputItemDone item => { tracked with outputItems := tracked.outputItems ++ [item] }
  | _ => tracked

/-- The loop goes on with what is tracked. -/
structure Tracks (consumed : Consumed) (tracked : Tracked) : Prop where
  flow : consumed.flow = .continues
  outputItems : consumed.state.outputItems = tracked.outputItems
  isTextResponse : consumed.state.isTextResponse = tracked.isTextResponse
  withinLimit : consumed.state.outputTokenLimitReached = false
  content : contentsOf consumed.yields = tracked.content

/-- An event that does not end the stream. -/
def ResponsesStreamEvent.isDelivery : ResponsesStreamEvent → Bool
  | .outputTextDelta _ | .refusalDelta _ | .outputItemDone _ => true
  | event => event.isPassedOver

@[simp]
theorem contentsOf_append (first second : List Yielded) :
    contentsOf (first ++ second) = contentsOf first ++ contentsOf second :=
  flatMap_append

theorem contentsOf_onDelta (state : StreamState) (delta : String) :
    contentsOf (state.onDelta delta).yields = textUnlessEmpty delta := by
  rw [StreamState.onDelta, textUnlessEmpty]
  cases delta.isEmpty <;> rfl

theorem Tracks.event {event : ResponsesStreamEvent} (tracks : Tracks consumed tracked)
    (isDelivery : event.isDelivery) : Tracks (consumed.event event) (tracked.event event) := by
  obtain ⟨flow, outputItems, isTextResponse, withinLimit, content⟩ := tracks
  cases event with
  | outputTextDelta delta | refusalDelta delta =>
    refine ⟨rfl, outputItems, rfl, withinLimit, ?_⟩
    simp only [Consumed.event, StreamState.onEvent, contentsOf_append, contentsOf_onDelta,
      Tracked.event, content]
  | outputItemDone item =>
    exact ⟨rfl, congrArg (· ++ [item]) outputItems, isTextResponse, withinLimit,
      (congrArg contentsOf (append_nil _)).trans content⟩
  | responseCreated response | responseInProgress response | outputItemAdded
  | contentBlockPartAdded | contentBlockPartDone | outputTextDone | functionCallArgumentsDelta
  | functionCallArgumentsDone | refusalDone | keepalive =>
    exact ⟨rfl, outputItems, isTextResponse, withinLimit,
      (congrArg contentsOf (append_nil _)).trans content⟩
  | responseCompleted response | responseIncomplete response | responseFailed error
  | error error => cases isDelivery

theorem Tracked.event_of_isPassedOver {event : ResponsesStreamEvent} (passed : event.isPassedOver) :
    tracked.event event = tracked := by
  cases event <;> first | rfl | cases passed

theorem isDelivery_of_isPassedOver {event : ResponsesStreamEvent} (passed : event.isPassedOver) :
    event.isDelivery := by
  cases event <;> first | rfl | cases passed

/-- A line does what its event does. -/
theorem Tracks.line {line : String} (tracks : Tracks consumed tracked)
    (goesOn : (readLine host line).goesOn)
    (isDelivery : ∀ event ∈ lineEvent host line, event.isDelivery) :
    Tracks (consumed.line host (.ok line))
      ((lineEvent host line).toList.foldl Tracked.event tracked) := by
  rw [Consumed.line, tracks.flow]
  rw [lineEvent] at isDelivery ⊢
  cases isLine : readLine host line with
  | skipped => exact tracks
  | done | fails error =>
    rw [isLine] at goesOn
    exact goesOn.elim
  | event event =>
    rw [isLine] at isDelivery
    dsimp only at isDelivery ⊢
    by_cases passed : event.isPassedOver
    · rw [if_pos passed]
      have next := tracks.event (isDelivery_of_isPassedOver passed)
      rwa [Tracked.event_of_isPassedOver passed] at next
    · rw [if_neg passed] at isDelivery ⊢
      exact tracks.event (isDelivery event rfl)

/-- The lines of a delivery do what their events do. -/
theorem Tracks.lines {lines : List String} {events : List ResponsesStreamEvent}
    (tracks : Tracks consumed tracked) (reads : Reads host lines events)
    (areDeliveries : ∀ event ∈ events, event.isDelivery) :
    Tracks (consumed.lines host (lines.map .ok)) (events.foldl Tracked.event tracked) := by
  obtain ⟨goesOn, rfl⟩ := reads
  induction lines generalizing consumed tracked with
  | nil => exact tracks
  | cons line rest ih =>
    have here := tracks.line (goesOn line (.head _)) fun event isEvent =>
      areDeliveries event (mem_filterMap.mpr ⟨line, .head _, isEvent⟩)
    have later := ih here (fun other isIn => goesOn other (.tail _ isIn)) fun event isIn => by
      obtain ⟨other, isOther, isEvent⟩ := mem_filterMap.mp isIn
      exact areDeliveries event (mem_filterMap.mpr ⟨other, .tail _ isOther, isEvent⟩)
    rw [filterMap_cons]
    cases isEvent : lineEvent host line with
    | none =>
      rw [isEvent] at later
      exact later
    | some event =>
      rw [isEvent] at later
      exact later

/-! ## Deliveries -/

def DividedPart.isStreamed (part : DividedPart) : Bool :=
  !part.deltas.isEmpty

/-- The blocks that the deltas of the items yield. -/
def streamedBlocks (parts : List DividedPart) : List MessageContentBlock :=
  parts.flatMap fun part => part.deltas.flatMap textUnlessEmpty

theorem foldl_deltas (kind : PartKind) (deltas : List String) (tracked : Tracked) :
    (deltas.map kind.delta).foldl Tracked.event tracked =
      { tracked with
        isTextResponse := tracked.isTextResponse || !deltas.isEmpty
        content := tracked.content ++ deltas.flatMap textUnlessEmpty } := by
  induction deltas generalizing tracked with
  | nil => simp
  | cons delta rest ih =>
    have here : tracked.event (kind.delta delta) =
        { tracked with
          isTextResponse := true
          content := tracked.content ++ textUnlessEmpty delta } := by
      cases kind <;> rfl
    rw [map_cons, foldl_cons, here, ih]
    simp

theorem foldl_parts (parts : List DividedPart) (tracked : Tracked) :
    (parts.flatMap DividedPart.events).foldl Tracked.event tracked =
      { tracked with
        isTextResponse := tracked.isTextResponse || parts.any DividedPart.isStreamed
        content := tracked.content ++ streamedBlocks parts } := by
  induction parts generalizing tracked with
  | nil => simp [streamedBlocks]
  | cons part rest ih =>
    rw [flatMap_cons, foldl_append, DividedPart.events, foldl_deltas, ih]
    simp [streamedBlocks, DividedPart.isStreamed, Bool.or_assoc]

/-- What the lines of the items leave. -/
theorem foldl_items (items : List DividedItem) (tracked : Tracked) :
    (items.flatMap DividedItem.events).foldl Tracked.event tracked =
      { outputItems := tracked.outputItems ++ items.map info
        isTextResponse := tracked.isTextResponse ||
          (items.flatMap DividedItem.parts).any DividedPart.isStreamed
        content := tracked.content ++ streamedBlocks (items.flatMap DividedItem.parts) } := by
  induction items generalizing tracked with
  | nil => simp [streamedBlocks]
  | cons item rest ih =>
    rw [flatMap_cons, foldl_append, DividedItem.events, foldl_append, foldl_parts, ih]
    simp [streamedBlocks, Tracked.event, Bool.or_assoc]

theorem isDelivery_of_mem {event : ResponsesStreamEvent}
    (isIn : event ∈ items.flatMap DividedItem.events) : event.isDelivery := by
  obtain ⟨item, -, isEvent⟩ := mem_flatMap.mp isIn
  obtain isDelta | isDone := mem_append.mp isEvent
  · obtain ⟨part, -, isDelta⟩ := mem_flatMap.mp isDelta
    obtain ⟨delta, -, rfl⟩ := mem_map.mp isDelta
    cases part.kind <;> rfl
  · rw [mem_singleton.mp isDone]
    rfl

theorem lines_of_breaks (breaks : consumed.flow = .breaks) (lines : List (Except String String)) :
    consumed.lines host lines = consumed := by
  induction lines with
  | nil => rfl
  | cons line rest ih =>
    have here : consumed.line host line = consumed := by
      rw [Consumed.line.eq_def, breaks]
    rw [Consumed.lines, foldl_cons, here]
    exact ih

/-- The end of a delivery keeps what is tracked. -/
theorem Tracks.ending {ending : List String} (tracks : Tracks consumed tracked)
    (ends : Ends host items ending) (areItems : tracked.outputItems = items.map info) :
    ∃ flow, (∀ error, flow ≠ .fails error) ∧ (consumed.lines host (ending.map .ok)).flow = flow ∧
      Tracks { consumed.lines host (ending.map .ok) with flow := .continues } tracked := by
  cases ending with
  | nil =>
    refine ⟨.continues, fun _ => Flow.noConfusion, tracks.flow, ?_⟩
    exact ⟨rfl, tracks.outputItems, tracks.isTextResponse, tracks.withinLimit, tracks.content⟩
  | cons line rest =>
    obtain isDone | ⟨response, isCompleted, isOutput⟩ := ends
    · have here : consumed.line host (.ok line) = { consumed with flow := .breaks } := by
        simp only [Consumed.line, tracks.flow, isDone]
      have all : consumed.lines host ((line :: rest).map .ok) =
          { consumed with flow := .breaks } := by
        rw [map_cons, Consumed.lines, foldl_cons, here]
        exact lines_of_breaks rfl _
      rw [all]
      refine ⟨.breaks, fun _ => Flow.noConfusion, rfl, ?_⟩
      exact ⟨rfl, tracks.outputItems, tracks.isTextResponse, tracks.withinLimit, tracks.content⟩
    · have here : consumed.line host (.ok line) =
          consumed.event (.responseCompleted response) := by
        simp only [Consumed.line, tracks.flow, isCompleted]
      have all : consumed.lines host ((line :: rest).map .ok) =
          consumed.event (.responseCompleted response) := by
        rw [map_cons, Consumed.lines, foldl_cons, here]
        exact lines_of_breaks rfl _
      rw [all]
      refine ⟨.breaks, fun _ => Flow.noConfusion, rfl, ?_⟩
      have content : contentsOf (consumed.yields ++ []) = tracked.content := by
        rw [append_nil]
        exact tracks.content
      obtain isEmpty | isAll := isOutput
      · simp only [Consumed.event, StreamState.onEvent, StreamState.onResponseCompleted, isEmpty]
        exact ⟨rfl, tracks.outputItems, tracks.isTextResponse, tracks.withinLimit, content⟩
      · simp only [Consumed.event, StreamState.onEvent, StreamState.onResponseCompleted]
        split
        · exact ⟨rfl, tracks.outputItems, tracks.isTextResponse, tracks.withinLimit, content⟩
        · refine ⟨rfl, ?_, tracks.isTextResponse, tracks.withinLimit, content⟩
          rw [areItems, ← isAll]

/-! ## Contents -/

@[simp]
theorem textOf_append : textOf (first ++ second) = textOf first ++ textOf second :=
  flatMap_append

@[simp]
theorem thinkingOf_append : thinkingOf (first ++ second) = thinkingOf first ++ thinkingOf second :=
  filterMap_append

@[simp]
theorem toolRequestsOf_append :
    toolRequestsOf (first ++ second) = toolRequestsOf first ++ toolRequestsOf second :=
  filterMap_append

theorem textOf_textUnlessEmpty : textOf (textUnlessEmpty text) = text.toList := by
  rw [textUnlessEmpty]
  split
  · next isEmpty =>
    rw [String.isEmpty_iff.mp isEmpty]
    rfl
  · simp [textOf]

/-- The characters that the deltas of a part show. -/
def DividedPart.shown (part : DividedPart) : List Char :=
  part.deltas.flatMap String.toList

open DividedPart (shown)

theorem textOf_streamedBlocks (parts : List DividedPart) :
    textOf (streamedBlocks parts) = parts.flatMap shown := by
  have ofDeltas (deltas : List String) :
      textOf (deltas.flatMap textUnlessEmpty) = deltas.flatMap String.toList := by
    induction deltas with
    | nil => rfl
    | cons delta rest ih =>
      rw [flatMap_cons, flatMap_cons, textOf_append, ih, textOf_textUnlessEmpty]
  induction parts with
  | nil => rfl
  | cons part rest ih =>
    simp only [streamedBlocks, flatMap_cons, textOf_append] at ih ⊢
    rw [ih, ofDeltas, shown]

theorem mem_streamedBlocks {parts : List DividedPart} {block : MessageContentBlock}
    (isIn : block ∈ streamedBlocks parts) : ∃ text, block = .text text := by
  obtain ⟨part, -, isIn⟩ := mem_flatMap.mp isIn
  obtain ⟨delta, -, isIn⟩ := mem_flatMap.mp isIn
  rw [textUnlessEmpty] at isIn
  split at isIn
  · cases isIn
  · exact ⟨delta, mem_singleton.mp isIn⟩

theorem thinkingOf_streamedBlocks (parts : List DividedPart) :
    thinkingOf (streamedBlocks parts) = [] := by
  rw [thinkingOf, filterMap_eq_nil_iff]
  intro block isIn
  obtain ⟨text, rfl⟩ := mem_streamedBlocks isIn
  rfl

theorem toolRequestsOf_streamedBlocks (parts : List DividedPart) :
    toolRequestsOf (streamedBlocks parts) = [] := by
  rw [toolRequestsOf, filterMap_eq_nil_iff]
  intro block isIn
  obtain ⟨text, rfl⟩ := mem_streamedBlocks isIn
  rfl

theorem thinkingOf_withoutTexts (content : List MessageContentBlock) :
    thinkingOf (withoutTexts isTextResponse content) = thinkingOf content := by
  rw [thinkingOf, withoutTexts, filterMap_filter]
  refine filterMap_congr fun block _ => ?_
  cases block <;> cases isTextResponse <;> rfl

theorem toolRequestsOf_withoutTexts (content : List MessageContentBlock) :
    toolRequestsOf (withoutTexts isTextResponse content) = toolRequestsOf content := by
  rw [toolRequestsOf, withoutTexts, filterMap_filter]
  refine filterMap_congr fun block _ => ?_
  cases block <;> cases isTextResponse <;> rfl

theorem textOf_withoutTexts (content : List MessageContentBlock) :
    textOf (withoutTexts isTextResponse content) =
      if isTextResponse then [] else textOf content := by
  induction content with
  | nil => cases isTextResponse <;> rfl
  | cons block rest ih =>
    have split : block :: rest = [block] ++ rest := rfl
    rw [split, withoutTexts_append, textOf_append, textOf_append, ih]
    cases block <;> cases isTextResponse <;> rfl

/-- The texts of the items of a whole reply. -/
theorem textOf_collect_parts {parts : List DividedPart}
    (decodes : collect (fun part : DividedPart => part.block.toContent host.toHost) parts =
      .ok content) : textOf content = parts.flatMap fun part => part.text.toList := by
  induction parts generalizing content with
  | nil =>
    cases decodes
    rfl
  | cons part rest ih =>
    have here : part.block.toContent host.toHost = .ok (textUnlessEmpty part.text) := by
      rw [DividedPart.block]
      cases part.kind <;> rfl
    simp only [collect, here] at decodes
    split at decodes
    · cases decodes
    · next others isOthers =>
      cases decodes
      rw [textOf_append, textOf_textUnlessEmpty, ih isOthers, flatMap_cons]

theorem textOf_toContent (decodes : item.whole.toContent host.toHost = .ok content) :
    textOf content = item.parts.flatMap fun part => part.text.toList := by
  cases item with
  | reasoning summary =>
    simp only [whole, toContent, Except.ok.injEq] at decodes
    subst decodes
    simp only [reasoningFromSummary]
    split <;> rfl
  | message parts =>
    rw [whole, toContent, collect_map] at decodes
    exact textOf_collect_parts decodes
  | functionCall id status callId name arguments =>
    simp only [whole, toContent, functionCallRequest] at decodes
    split at decodes
    · cases decodes
    · rw [toolRequest] at decodes
      split at decodes
      · cases decodes
        rfl
      · cases decodes

theorem textOf_collect
    (decodes : collect (toContent host.toHost) (items.map whole) =
      .ok content) : textOf content =
      (items.flatMap DividedItem.parts).flatMap fun part => part.text.toList := by
  rw [collect_map] at decodes
  induction items generalizing content with
  | nil =>
    cases decodes
    rfl
  | cons item rest ih =>
    rw [collect] at decodes
    split at decodes
    · cases decodes
    · next here isHere =>
      split at decodes
      · cases decodes
      · next others isOthers =>
        cases decodes
        rw [textOf_append, textOf_toContent isHere, ih isOthers, flatMap_cons, flatMap_append]

namespace Delivery

variable (delivery : Delivery host)

def parts : List DividedPart :=
  delivery.items.flatMap DividedItem.parts

/-- The condition. -/
def ShowsText : Prop :=
  (∀ part ∈ delivery.parts, part.isStreamed = false) ∨
    ∀ part ∈ delivery.parts, part.isStreamed = false → part.text = ""

/-- The stream at its end. -/
theorem exists_streamed : ∃ consumed, Tracks consumed
        { outputItems := delivery.items.map info
          isTextResponse := delivery.parts.any DividedPart.isStreamed
          content := streamedBlocks delivery.parts } ∧
      delivery.streamed =
        (consumed.yields ++ (consumed.state.finish host.toHost).1,
          (consumed.state.finish host.toHost).2) := by
  have start : Tracks ({} : Consumed) {} := ⟨rfl, rfl, rfl, rfl, rfl⟩
  have tracks := start.lines delivery.reads fun _ => isDelivery_of_mem
  rw [foldl_items] at tracks
  obtain ⟨flow, notFails, isFlow, ended⟩ := tracks.ending delivery.ends (nil_append _)
  refine ⟨_, ended, ?_⟩
  rw [streamed, responsesApiToStreamingMessage, map_append, Consumed.lines, foldl_append]
  rw [Consumed.lines, Consumed.lines] at isFlow
  split
  · next error fails =>
    rw [isFlow] at fails
    exact absurd fails (notFails error)
  · rfl

/-- The contents that the stream yields, when the whole reply can be decoded. -/
theorem contentsOf_streamed {content : List MessageContentBlock}
    (decodes : collect (toContent host.toHost) delivery.response.output =
      .ok content) : delivery.streamed.2 = none ∧
      contentsOf delivery.streamed.1 = streamedBlocks delivery.parts ++
        withoutTexts (delivery.parts.any DividedPart.isStreamed) content := by
  obtain ⟨consumed, tracks, isStreamed⟩ := delivery.exists_streamed
  rw [isStreamed]
  have finished : processStreamingOutputItems host.toHost _ _ = _ :=
    processStreamingOutputItems_info delivery.items (delivery.parts.any DividedPart.isStreamed)
  rw [← delivery.areItems, decodes] at finished
  rw [StreamState.finish, tracks.outputItems, tracks.isTextResponse, finished, Except.map]
  dsimp only
  rw [tracks.withinLimit, contentsOf_append, tracks.content]
  split
  · refine ⟨rfl, ?_⟩
    simp [contentsOf]
  · next isEmpty =>
    have isNil : withoutTexts (delivery.parts.any DividedPart.isStreamed) content = [] := by
      simpa using isEmpty
    rw [isNil]
    cases consumed.state.finalUsage <;> exact ⟨rfl, rfl⟩

theorem streamed_of_error {error : DecodeError}
    (decodes : collect (toContent host.toHost) delivery.response.output =
      .error error) : delivery.streamed.2 = some (.decode error) := by
  obtain ⟨consumed, tracks, isStreamed⟩ := delivery.exists_streamed
  rw [isStreamed]
  have finished : processStreamingOutputItems host.toHost _ _ = _ :=
    processStreamingOutputItems_info delivery.items (delivery.parts.any DividedPart.isStreamed)
  rw [← delivery.areItems, decodes] at finished
  rw [StreamState.finish, tracks.outputItems, tracks.isTextResponse, finished, Except.map]

/-- Of the whole text the stream shows the deltas, or without deltas all of it. -/
theorem showsText_iff : delivery.parts.flatMap shown ++
          (if delivery.parts.any DividedPart.isStreamed then []
            else delivery.parts.flatMap fun part => part.text.toList) =
        (delivery.parts.flatMap fun part => part.text.toList) ↔
      delivery.ShowsText := by
  cases isText : delivery.parts.any DividedPart.isStreamed with
  | false =>
    have noDeltas : ∀ part ∈ delivery.parts, part.isStreamed = false := by
      simpa using isText
    have isEmpty : delivery.parts.flatMap shown = [] := by
      rw [flatMap_eq_nil_iff]
      intro part isIn
      have none : part.deltas = [] := by simpa [DividedPart.isStreamed] using noDeltas part isIn
      rw [shown, none, flatMap_nil]
    rw [isEmpty]
    exact iff_of_true rfl (.inl noDeltas)
  | true =>
    rw [if_pos rfl, append_nil, Data.flatMap_eq_flatMap_iff]
    · constructor
      · intro same
        refine .inr fun part isIn notStreamed => ?_
        have none : part.deltas = [] := by simpa [DividedPart.isStreamed] using notStreamed
        have isText := same part isIn
        rw [shown, none] at isText
        exact String.toList_eq_nil_iff.mp isText.symm
      · rintro (noDeltas | empty) part isIn
        · obtain ⟨streamed, isStreamed, isTrue⟩ := any_eq_true.mp isText
          rw [noDeltas streamed isStreamed] at isTrue
          cases isTrue
        · obtain none | isWhole := part.divides
          · have isEmpty := empty part isIn (by simp [DividedPart.isStreamed, none])
            rw [shown, none, isEmpty]
            rfl
          · exact isWhole
    · intro part
      obtain none | isWhole := part.divides
      · rw [shown, none]
        exact Nat.zero_le _
      · rw [shown, isWhole]

end Delivery

/-! ## Calls -/

/-- A call has an id, and its arguments are an object. -/
def DividedItem.IsDecoded (host : Host) : DividedItem → Prop
  | .functionCall id _ callId _ arguments =>
    (callId.isSome ∨ id.isSome) ∧ ∃ fields, object host (parsedArgs host arguments) = .ok fields
  | _ => True

theorem exists_collect {content : α → Except DecodeError (List β)} {items : List α} :
    (∃ all, collect content items = .ok all) ↔ ∀ item ∈ items, ∃ here, content item = .ok here := by
  induction items with
  | nil => simp [collect]
  | cons item rest ih =>
    rw [forall_mem_cons, ← ih, collect]
    cases content item with
    | error error => simp
    | ok here => cases collect content rest <;> simp

theorem exists_toContent :
    (∃ content, item.whole.toContent host.toHost = .ok content) ↔ item.IsDecoded host.toHost := by
  cases item with
  | reasoning summary => exact iff_of_true ⟨_, rfl⟩ trivial
  | message parts =>
    refine iff_of_true ?_ trivial
    rw [whole, toContent, collect_map]
    refine exists_collect.mpr fun part _ => ?_
    rw [DividedPart.block]
    cases part.kind <;> exact ⟨_, rfl⟩
  | functionCall id status callId name arguments =>
    simp only [whole, toContent, functionCallRequest,
      DividedItem.IsDecoded, toolRequest]
    cases object host.toHost (parsedArgs host.toHost arguments) <;> cases callId <;> cases id <;>
      simp

namespace Delivery

variable (delivery : Delivery host)

/-- Of a reply that can be decoded the stream may lose only texts. -/
theorem agrees_iff_of_decodes {content : List MessageContentBlock}
    (decodes : collect (toContent host.toHost) delivery.response.output =
      .ok content) : delivery.Agrees ↔ delivery.ShowsText := by
  obtain ⟨noError, yields⟩ := delivery.contentsOf_streamed decodes
  have isText : textOf content = delivery.parts.flatMap fun part => part.text.toList := by
    rw [delivery.areItems] at decodes
    exact textOf_collect decodes
  rw [Agrees, responsesApiToMessage, decodes]
  dsimp only
  rw [yields, textOf_append, thinkingOf_append, toolRequestsOf_append, textOf_streamedBlocks,
    thinkingOf_streamedBlocks, toolRequestsOf_streamedBlocks, thinkingOf_withoutTexts,
    toolRequestsOf_withoutTexts, textOf_withoutTexts, isText, showsText_iff]
  constructor
  · rintro ⟨-, shows, -⟩
    exact shows
  · intro shows
    exact ⟨noError, shows, rfl, rfl⟩

/-- The stream agrees with the whole reply exactly when some call of it cannot be decoded, where
both fail, or when none or all of its text came in deltas. -/
theorem agreement_iff : delivery.Agrees ↔
      (∃ item ∈ delivery.items, ¬item.IsDecoded host.toHost) ∨ delivery.ShowsText := by
  have decoded : (∃ content, collect (toContent host.toHost)
      delivery.response.output = .ok content) ↔
        ∀ item ∈ delivery.items, item.IsDecoded host.toHost := by
    rw [delivery.areItems, collect_map, exists_collect]
    exact forall₂_congr fun item _ => exists_toContent
  cases decodes : collect (toContent host.toHost) delivery.response.output with
  | error error =>
    have fails : delivery.Agrees := by
      rw [Agrees, responsesApiToMessage, decodes]
      exact delivery.streamed_of_error decodes
    refine iff_of_true fails (.inl ?_)
    by_contra all
    simp only [not_exists, not_and, not_not] at all
    obtain ⟨content, isOk⟩ := decoded.mpr all
    rw [decodes] at isOk
    cases isOk
  | ok content =>
    have all := decoded.mp ⟨content, decodes⟩
    rw [delivery.agrees_iff_of_decodes decodes]
    constructor
    · exact .inr
    · rintro (⟨item, isIn, notDecoded⟩ | shows)
      · exact absurd (all item isIn) notDecoded
      · exact shows

end Delivery

/-! ## A text in two parts -/

/-- What a data line says is the event in it. -/
theorem readLine_data (host : StreamHost) {text : String} (notDone : text ≠ "[DONE]") :
    readLine host ("data: " ++ text) = parseResponsesStreamEvent host text := by
  have notBlank : (trim ("data: ".toList ++ text.toList)).isEmpty = false := by
    rw [isEmpty_eq_false_iff, Ne, trim, trimEnd, rdropWhile_eq_nil_iff]
    intro blank
    exact absurd (blank 'd' (mem_cons_self ..)) (by decide)
  have isData : dataLine ("data: ".toList ++ text.toList) = some text.toList := by
    simp [dataLine, stripPrefix?]
  have notEnd : text.toList ≠ "[DONE]".toList := fun same => notDone (String.toList_inj.mp same)
  rw [readLine, String.toList_append, notBlank, isData]
  dsimp only
  rw [if_neg notEnd, String.ofList_toList]
  rfl

def deltaLine : String :=
  "\x7b\"type\":\"response.output_text.delta\",\"sequence_number\":1,\"item_id\":\"m\"," ++
    "\"output_index\":0,\"content_index\":0,\"delta\":\"Hello \"\x7d"

def doneLine : String :=
  "\x7b\"type\":\"response.output_item.done\",\"sequence_number\":2,\"output_index\":0," ++
    "\"item\":\x7b\"type\":\"message\",\"role\":\"assistant\",\"content\":[" ++
    "\x7b\"type\":\"output_text\",\"text\":\"Hello \"\x7d," ++
    "\x7b\"type\":\"output_text\",\"text\":\"world\"\x7d]\x7d\x7d"

def textPart (text : String) : Value :=
  .object [("type", .string "output_text"), ("text", .string text)]

/-- The parsers on the texts of the lines. -/
def twoPartsHost : StreamHost where
  nfc := id
  fromStr := fun text =>
    [ (deltaLine,
        .object
          [ ("type", .string "response.output_text.delta"),
            ("sequence_number", .number (.posInt 1)), ("item_id", .string "m"),
            ("output_index", .number (.posInt 0)), ("content_index", .number (.posInt 0)),
            ("delta", .string "Hello ") ]),
      (doneLine,
        .object
          [ ("type", .string "response.output_item.done"),
            ("sequence_number", .number (.posInt 2)), ("output_index", .number (.posInt 0)),
            ("item",
              .object
                [ ("type", .string "message"), ("role", .string "assistant"),
                  ("content", .array [textPart "Hello ", textPart "world"]) ]) ])
    ].lookup text
  toJsonText := fun _ => ""
  notObject := fun _ => none
  fromValue := fun value =>
    match value.str "type" with
    | some "response.output_text.delta" => (value.str "delta").map .outputTextDelta
    | some "response.output_item.done" =>
      (((value.get "item").bind (Value.get "content")).bind Value.asArray).map fun parts =>
        .outputItemDone (.message (parts.filterMap fun part =>
          (part.str "text").map .outputText))
    | _ => none

theorem readLine_deltaLine :
    readLine twoPartsHost ("data: " ++ deltaLine) = .event (.outputTextDelta "Hello ") := by
  rw [readLine_data twoPartsHost (by decide)]
  rfl

set_option maxRecDepth 4000 in
theorem readLine_doneLine : readLine twoPartsHost ("data: " ++ doneLine) =
    .event (.outputItemDone (.message [.outputText "Hello ", .outputText "world"])) := by
  rfl

/-- The second part comes only with the finished item. -/
def twoPartsDelivery : Delivery twoPartsHost where
  response := ⟨"r", [.message [.outputText "Hello ", .outputText "world"]]⟩
  items :=
    [.message
      [⟨.outputText, "Hello ", ["Hello "], .inr rfl⟩, ⟨.outputText, "world", [], .inl rfl⟩]]
  lines := ["data: " ++ deltaLine, "data: " ++ doneLine]
  ending := ["data: [DONE]"]
  areItems := rfl
  reads := by
    constructor
    · intro line isIn
      rcases mem_cons.mp isIn with rfl | isIn
      · rw [readLine_deltaLine]
        trivial
      · rw [mem_singleton.mp isIn, readLine_doneLine]
        trivial
    · have delta : lineEvent twoPartsHost ("data: " ++ deltaLine) =
          some (.outputTextDelta "Hello ") := by
        rw [lineEvent, readLine_deltaLine]
        rfl
      have done : lineEvent twoPartsHost ("data: " ++ doneLine) =
          some (.outputItemDone (.message [.outputText "Hello ", .outputText "world"])) := by
        rw [lineEvent, readLine_doneLine]
        rfl
      rw [filterMap_cons_some delta, filterMap_cons_some done]
      rfl
  ends := .inl rfl

/-- The stream loses the part. -/
theorem not_agrees_twoPartsDelivery : ¬twoPartsDelivery.Agrees := by
  rw [twoPartsDelivery.agrees_iff_of_decodes rfl]
  rintro (noDeltas | empty)
  · exact absurd (noDeltas _ (.head _)) (by decide)
  · exact absurd (empty _ (.tail _ (.head _)) rfl) (by decide)

end Obelus.Formats.ResponsesApi
