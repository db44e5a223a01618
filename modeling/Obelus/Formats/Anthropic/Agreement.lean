import Obelus.Data.Parts
import Obelus.Formats.Anthropic.DeliveryRuns

/-!
# Streaming and whole decoding of Anthropic replies

Where no block is dropped and no text is normalized across two deltas, a stream yields the
blocks of the whole reply.  The usages are merged into the usage of the whole reply where
a zero usage and a part of the cache counts do not come last.
-/

namespace Obelus.Formats.Anthropic

open List

variable {host : Host} {state : StreamState}

/-- A stream keeps a block: thinking has a text, and a text has deltas that are normalized
one by one as they are together. -/
def Division.Kept (host : Host) : Division → Prop
  | .text start pieces =>
    pieces ≠ [] ∧ String.join (pieces.map (sanitizeUnicodeTags host)) =
      sanitizeUnicodeTags host (start ++ String.join pieces)
  | .thinking start pieces => (pieces.foldl ThinkingPiece.add start).text ≠ ""
  | _ => True

/-- The block of the whole reply. -/
def Division.wholeBlock (host : Host) : Division → MessageContentBlock
  | .text start pieces => .text (sanitizeUnicodeTags host (start ++ String.join pieces))
  | .thinking start pieces =>
    let whole := pieces.foldl ThinkingPiece.add start
    .thinking whole.text whole.signature
  | .redactedThinking data => .redactedThinking data
  | .toolUse id name _ input => .toolRequest id (.ok { name, arguments := some input })

theorem blockOf_of_isValue {value : Value} {division : Division}
    (isValue : division.block.IsValue value) :
    blockOf host value = .ok [division.wholeBlock host] := by
  unfold blockOf
  cases division with
  | text start pieces =>
    simp only [isValue.1, isValue.2]
    rfl
  | thinking start pieces =>
    simp only [isValue.1, isValue.2.1, isValue.2.2]
    rfl
  | redactedThinking data =>
    simp only [isValue.1, isValue.2]
    rfl
  | toolUse id name pieces input =>
    obtain ⟨isTool, isId, isName, isInput⟩ := isValue
    simp only [isTool, isId, isName, isInput]
    rfl

theorem blocksOf_eq {contentBlocks : List Value} {parts : List (Section host)}
    (areBlocks : Forall₂ (fun value (part : Section host) =>
      part.division.block.IsValue value) contentBlocks parts) :
    blocksOf host contentBlocks = .ok (parts.map fun part => part.division.wholeBlock host) := by
  induction areBlocks with
  | nil => rfl
  | cons isValue rest ih =>
    rw [blocksOf, blockOf_of_isValue isValue, ih]
    rfl

/-- The texts of a block are joined, if it has any. -/
theorem joinTexts_texts (texts : List String) :
    joinTexts (texts.map .text) = if texts = [] then [] else [.text (String.join texts)] := by
  induction texts with
  | nil => rfl
  | cons first rest ih =>
    rw [map_cons, joinTexts, ih, String.join_cons]
    split
    · next isText =>
      split at isText
      · cases isText
      · cases isText
        rfl
    · next others notText =>
      split at notText
      · next none =>
        subst none
        simp
      · exact absurd rfl (notText _ _)

theorem contentsOf_map_blockMessage (state : StreamState) (blocks : List MessageContentBlock) :
    contentsOf (blocks.map state.blockMessage) = blocks := by
  induction blocks with
  | nil => rfl
  | cons block rest ih =>
    rw [map_cons, contentsOf, flatMap_cons, ← contentsOf, ih]
    rfl

theorem contentsOf_texts (start : String) (pieces : List String) :
    contentsOf ((Division.text start pieces).yielded host state) =
      (pieces.map (sanitizeUnicodeTags host)).map .text := by
  rw [← contentsOf_map_blockMessage state (map _ _), map_map, map_map]
  rfl

/-- A block that is kept is joined to the block of the whole reply; else it is dropped or
differs. -/
theorem joinTexts_yielded_eq_iff {division : Division} :
    joinTexts (contentsOf (division.yielded host state)) = [division.wholeBlock host] ↔
      division.Kept host := by
  cases division with
  | text start pieces =>
    rw [contentsOf_texts, joinTexts_texts, Division.wholeBlock, Division.Kept]
    cases pieces with
    | nil => simp
    | cons piece rest => simp
  | thinking start pieces =>
    simp only [Division.yielded, Division.Kept]
    split
    · next empty => simp [contentsOf, joinTexts, String.isEmpty_iff.mp empty]
    · next some => exact iff_of_true rfl fun empty => some (by rw [empty]; rfl)
  | redactedThinking data => exact iff_of_true rfl trivial
  | toolUse id name pieces input => exact iff_of_true rfl trivial

theorem length_joinTexts_yielded_le (division : Division) :
    (joinTexts (contentsOf (division.yielded host state))).length ≤ 1 := by
  cases division with
  | text start pieces =>
    rw [contentsOf_texts, joinTexts_texts]
    split <;> simp
  | thinking start pieces =>
    simp only [Division.yielded]
    split
    · exact Nat.zero_le 1
    · exact Nat.le_refl 1
  | redactedThinking data => exact Nat.le_refl 1
  | toolUse id name pieces input => exact Nat.le_refl 1

namespace Delivery

variable (delivery : Delivery host)

/-- The usage at the end of the stream has the counts that were reported last, or the usages
before it keep them. -/
def KeepsCumulative : Prop :=
  match delivery.stopUsage with
  | some usage => KeepsCounts usage delivery.usage
  | none => ∀ first rest, delivery.usages = first :: rest → KeepsUsage first rest

/-- Each block is kept, and the counts of the usages. -/
structure Keeps : Prop where
  blocks : ∀ part ∈ delivery.sections, part.division.Kept host
  usage : delivery.KeepsCumulative

theorem filterMap_usage_yielded (division : Division) (state : StreamState) :
    (division.yielded host state).filterMap Yielded.usage? = [] := by
  cases division with
  | text start pieces => simp [Division.yielded, StreamState.blockMessage, Yielded.usage?]
  | thinking start pieces =>
    simp only [Division.yielded]
    split <;> rfl
  | redactedThinking data => rfl
  | toolUse id name pieces input => rfl

theorem contentsOf_finish {final : StreamState} (idle : final.Idle) :
    contentsOf final.finish = [] := by
  rw [StreamState.finish, idle.accumulatedToolCalls, mergeSort_nil]
  cases final.finalUsage <;> split <;> rfl

theorem lastUsage_finish {final : StreamState} (idle : final.Idle) :
    lastUsage final.finish = final.finalUsage.map ProviderUsage.usage := by
  rw [StreamState.finish, idle.accumulatedToolCalls, mergeSort_nil]
  cases final.finalUsage <;> split <;> rfl

theorem foldl_mergeNext (first : Value) (rest : List Value) :
    (first :: rest).foldl mergeNext none = some (mergeAll first rest) := by
  rw [mergeAll]
  change rest.foldl mergeNext (some (getUsage first)) = _
  generalize getUsage first = merged
  induction rest generalizing merged with
  | nil => rfl
  | cons usage rest ih => exact ih _

/-- The usage is the one of the whole reply where the counts are kept. -/
theorem endUsage_eq_iff : endUsage (delivery.usages.foldl mergeNext none) delivery.stopUsage =
        some (getUsage delivery.response) ↔ delivery.KeepsCumulative := by
  have all : (delivery.messageData.get "usage" :: delivery.changeUsages ++
      [delivery.stopUsage]).reduceOption = delivery.usages ++ delivery.stopUsage.toList := by
    rw [reduceOption_append]
    rfl
  have carried := delivery.carried
  have areUsages := delivery.areUsages
  have cumulative := delivery.cumulative
  rw [all] at carried areUsages cumulative
  have whole : getUsage delivery.response = usageFromAnthropicFields delivery.usage := by
    rw [getUsage, delivery.isUsage]
  rw [whole, KeepsCumulative]
  cases isStop : delivery.stopUsage with
  | some usage =>
    rw [isStop] at areUsages
    rw [endUsage, Option.some_inj, getUsage_eq_iff (areUsages usage (by simp))]
  | none =>
    rw [isStop, Option.toList_none, append_nil] at carried areUsages cumulative
    cases isUsages : delivery.usages with
    | nil => exact absurd isUsages carried
    | cons first rest =>
      rw [isUsages] at areUsages cumulative
      rw [endUsage, foldl_mergeNext, Option.some_inj, mergeAll_eq_iff areUsages cumulative]
      constructor
      · rintro keeps first rest ⟨⟩
        exact keeps
      · intro keeps
        exact keeps first rest rfl

/-- The joined blocks are those of the whole reply where each block is kept. -/
theorem joinedBlocks_eq_iff {state : StreamState} (idle : state.Idle)
    (isOpened : delivery.opened = ⟨state, [], .continues⟩) :
    delivery.joinedBlocks = (delivery.sections.map fun part => part.division.wholeBlock host) ↔
      ∀ part ∈ delivery.sections, part.division.Kept host := by
  rw [joinedBlocks, isOpened, sectionYields_eq idle, flatMap_map, map_eq_flatMap,
    Data.flatMap_eq_flatMap_iff]
  · exact forall₂_congr fun part _ => joinTexts_yielded_eq_iff
  · exact fun part => length_joinTexts_yielded_le part.division

theorem responseToMessage_response : responseToMessage host delivery.response =
    .ok { content := delivery.sections.map fun part => part.division.wholeBlock host } := by
  simp only [responseToMessage, delivery.isContent, Option.bind_some, Value.asArray,
    blocksOf_eq delivery.areBlocks]

/-- The stream ends without an error and yields what its blocks yield, and it agrees with
the whole reply where it keeps the blocks and the counts. -/
theorem agrees_iff : (responseToStreamingMessage host delivery.stream).2 = none ∧
      contentsOf (responseToStreamingMessage host delivery.stream).1 =
        (sectionYields host delivery.opened delivery.sections).flatMap contentsOf ∧
      (delivery.Agrees ↔ delivery.Keeps) := by
  obtain ⟨state, isOpened, idle, final, finalIdle, merged, isStream⟩ := delivery.exists_stream
  have yields := sectionYields_eq idle delivery.sections []
  have lastIs : lastUsage (responseToStreamingMessage host delivery.stream).1 =
      endUsage (delivery.usages.foldl mergeNext none) delivery.stopUsage := by
    have noUsages : (delivery.sections.flatMap fun part =>
        part.division.yielded host state).filterMap Yielded.usage? = [] := by
      rw [filterMap_flatMap, flatMap_eq_nil_iff]
      exact fun part _ => filterMap_usage_yielded part.division state
    rw [isStream, lastUsage, filterMap_append, noUsages, nil_append, ← lastUsage,
      lastUsage_finish finalIdle, merged]
  refine ⟨?_, ?_, ?_⟩
  · rw [isStream]
  · rw [isStream, isOpened, yields, flatMap_map, contentsOf, flatMap_append, ← contentsOf,
      ← contentsOf, contentsOf_finish finalIdle, append_nil, contentsOf, flatMap_assoc]
    rfl
  · have blocks := delivery.joinedBlocks_eq_iff idle isOpened
    have usage := delivery.endUsage_eq_iff
    constructor
    · rintro ⟨⟨message, decodes, same⟩, sameUsage⟩
      rw [delivery.responseToMessage_response, Except.ok.injEq] at decodes
      subst decodes
      rw [lastIs] at sameUsage
      exact ⟨blocks.mp same, usage.mp sameUsage⟩
    · rintro ⟨keepsBlocks, keepsUsage⟩
      exact ⟨⟨_, delivery.responseToMessage_response, blocks.mpr keepsBlocks⟩,
        lastIs.trans (usage.mpr keepsUsage)⟩

end Delivery

def oneToken : Value :=
  .object [("input_tokens", .number (.posInt 1)), ("output_tokens", .number (.posInt 1))]

def signedStart : Value :=
  .object
    [("type", .string "message_start"), ("message", .object [("usage", oneToken)])]

def signedBlock : Value :=
  .object
    [("type", .string "thinking"), ("thinking", .string ""), ("signature", .string "sig")]

/-- The parser on the texts of the lines. -/
def signedHost : Host where
  nfc := id
  fromStr := fun text =>
    [ ("\x7b\"type\":\"message_start\",\"message\":\x7b\"usage\":\x7b\"input_tokens\":1," ++
        "\"output_tokens\":1\x7d\x7d\x7d",
        signedStart),
      ("\x7b\"type\":\"content_block_start\",\"content_block\":\x7b\"type\":\"thinking\"," ++
        "\"thinking\":\"\"\x7d\x7d",
        .object
          [ ("type", .string "content_block_start"),
            ("content_block",
              .object [("type", .string "thinking"), ("thinking", .string "")]) ]),
      ("\x7b\"type\":\"content_block_delta\",\"delta\":\x7b\"type\":\"signature_delta\"," ++
        "\"signature\":\"sig\"\x7d\x7d",
        .object
          [ ("type", .string "content_block_delta"),
            ("delta",
              .object [("type", .string "signature_delta"), ("signature", .string "sig")]) ]),
      ("\x7b\"type\":\"content_block_stop\"\x7d", .object [("type", .string "content_block_stop")])
    ].lookup text
  toJsonText := fun _ => ""
  notObject := fun _ => none

/-- A block of thinking with a signature and without a text. -/
def signedSection : Section signedHost where
  division := .thinking ⟨"", ""⟩ [.signature "sig"]
  lines :=
    [ "data: \x7b\"type\":\"content_block_start\",\"content_block\":\x7b\"type\":\"thinking\"," ++
        "\"thinking\":\"\"\x7d\x7d",
      "data: \x7b\"type\":\"content_block_delta\",\"delta\":\x7b\"type\":\"signature_delta\"," ++
        "\"signature\":\"sig\"\x7d\x7d",
      "data: \x7b\"type\":\"content_block_stop\"\x7d" ]
  start :=
    ⟨"content_block_start", .object [("content_block",
      .object [("type", .string "thinking"), ("thinking", .string "")])]⟩
  changes :=
    [⟨"content_block_delta", .object [("delta",
      .object [("type", .string "signature_delta"), ("signature", .string "sig")])]⟩]
  stop := ⟨"content_block_stop", .object []⟩
  reads := .of_events
    (.cons ⟨rfl, by decide⟩ (.cons ⟨rfl, by decide⟩ (.cons ⟨rfl, by decide⟩ .nil)))
  isStart := ⟨rfl, _, rfl, rfl, rfl, rfl⟩
  areDeltas := .cons ⟨rfl, rfl⟩ .nil
  isStop := rfl
  writesInput := trivial

def signedDelivery : Delivery signedHost where
  response := .object [("content", .array [signedBlock]), ("usage", oneToken)]
  contentBlocks := [signedBlock]
  usage := oneToken
  opening :=
    [ "data: \x7b\"type\":\"message_start\",\"message\":\x7b\"usage\":\x7b\"input_tokens\":1," ++
        "\"output_tokens\":1\x7d\x7d\x7d" ]
  messageStart := ⟨"message_start", .object [("message", .object [("usage", oneToken)])]⟩
  messageData := .object [("usage", oneToken)]
  sections := [signedSection]
  changes := []
  changeEvents := []
  changeUsages := []
  ending := []
  stopUsage := none
  isContent := rfl
  areBlocks := .cons ⟨rfl, rfl, rfl⟩ .nil
  isUsage := rfl
  opens := ⟨.of_events (.cons ⟨rfl, by decide⟩ .nil), rfl, rfl⟩
  changesRead := ⟨nofun, rfl⟩
  areChanges := .nil
  ends := rfl
  carried := cons_ne_nil _ _
  areUsages := by
    intro other member
    obtain rfl := mem_singleton.mp member
    exact ⟨rfl, rfl⟩
  cumulative := fun key _ => (lastReported_eq key oneToken []).symm

/-- The stream drops the block that the whole reply has. -/
theorem not_agrees_signedDelivery : ¬signedDelivery.Agrees := by
  rintro ⟨⟨message, decodes, same⟩, -⟩
  rw [signedDelivery.responseToMessage_response, Except.ok.injEq] at decodes
  subst decodes
  obtain ⟨state, isOpened, idle, -⟩ := signedDelivery.exists_stream
  have kept := (signedDelivery.joinedBlocks_eq_iff idle isOpened).mp same signedSection (.head _)
  exact kept rfl

end Obelus.Formats.Anthropic
