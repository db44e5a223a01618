import Obelus.Data.Doubles
import Obelus.Live.Capture.Core
import Obelus.Live.RefinementAudio.Wav

/-!
# The audio asset writer

A frame reserves a region in the file of each of its sources and queues what is written
there: silence for the time since the frame before it, and its PCM.  The sources of a frame
are checked and advanced one after another, in the order of their names in the frame.
-/

namespace Obelus.Live.AudioAssets

open Obelus.Data List
open Obelus.Data.Doubles (double roundHalfUp)
open Obelus.Live.Capture (LiveAudioSourceKind)
open Obelus.Live.RefinementAudio (Bytes wavHeaderBytes wavHeader wavSampleRate)

def maxWavDataBytes : Nat := 0xffffffff - 36

/-- The part of a frame that the writer reads. -/
structure LiveAudioFrame where
  meetingId : String
  meetingTimeMs : Number
  durationMs : Number
  pcm : JsMap String (Option Bytes)

/-- What a queued callback writes: silence from a position on, and PCM behind it. -/
structure QueuedWrite where
  gapBytes : Nat
  pcm : Bytes
  position : Nat
  deriving DecidableEq

/-- `file` is what the handle has written, and `writing` the rest of the callback that is
running, chunk by chunk. -/
structure OpenAsset where
  sourceKind : LiveAudioSourceKind
  file : Bytes
  bytesWritten : Nat
  position : Nat
  timelineStartMs : Option Int
  timelineEndMs : Int
  writeQueue : List QueuedWrite
  writing : List (Nat × Bytes)
  closed : Bool
  deriving DecidableEq

/-- What `startMeeting` opens for a source. -/
def openAsset (sourceKind : LiveAudioSourceKind) : OpenAsset where
  sourceKind
  file := wavHeader 0
  bytesWritten := 0
  position := wavHeaderBytes
  timelineStartMs := none
  timelineEndMs := 0
  writeQueue := []
  writing := []
  closed := false

abbrev OpenAssets := JsMap LiveAudioSourceKind OpenAsset

/-- `assertSourceKind`. -/
def sourceKind? (value : String) : Option LiveAudioSourceKind :=
  if value = "microphone" then some .microphone
  else if value = "system" then some .system
  else if value = "mixed" then some .mixed
  else none

/-- The bytes of silence for a gap. -/
def silenceBytes (gapMs : Number) : Nat :=
  (roundHalfUp (double (double (gapMs / 1000) * wavSampleRate)) * 2).toNat

def gapBytes (frame : LiveAudioFrame) (asset : OpenAsset) : Nat :=
  let gapMs :=
    match asset.timelineStartMs with
    | none => 0
    | some _ => max 0 (double (frame.meetingTimeMs - asset.timelineEndMs))
  silenceBytes gapMs

/-- The end of a frame on the timeline. -/
def frameEndMs (meetingTimeMs durationMs : Number) : Int :=
  roundHalfUp (double (meetingTimeMs + durationMs))

/-- The asset with the region of a frame reserved and its write queued. -/
def OpenAsset.reserve (frame : LiveAudioFrame) (pcm : Bytes) (asset : OpenAsset) : OpenAsset :=
  let writeLength := gapBytes frame asset + pcm.length
  { asset with
    position := asset.position + writeLength
    bytesWritten := asset.bytesWritten + writeLength
    timelineStartMs := asset.timelineStartMs <|> some (roundHalfUp frame.meetingTimeMs)
    timelineEndMs := max asset.timelineEndMs (frameEndMs frame.meetingTimeMs frame.durationMs)
    writeQueue := asset.writeQueue ++ [⟨gapBytes frame asset, pcm, asset.position⟩] }

/-- The asset that takes the PCM of a source, or the error that is thrown. -/
def openFor (frame : LiveAudioFrame) (assets : OpenAssets) (sourceName : String) (pcm : Bytes) :
    Except String (LiveAudioSourceKind × OpenAsset) :=
  match sourceKind? sourceName with
  | none => .error "Invalid audio source"
  | some sourceKind =>
    match assets.get? sourceKind with
    | none => .error "Audio source is not open"
    | some asset =>
      if asset.closed then .error "Audio source is not open"
      else if maxWavDataBytes < asset.bytesWritten + (gapBytes frame asset + pcm.length) then
        .error "WAV asset reached its size limit"
      else .ok (sourceKind, asset)

/-- The loop of `appendFrame`: what it returns or throws, and the assets it leaves. -/
def appendEntries (frame : LiveAudioFrame) :
    JsMap LiveAudioSourceKind Nat → OpenAssets → List (String × Option Bytes) →
      Except String (JsMap LiveAudioSourceKind Nat) × OpenAssets
  | bytesBySource, assets, [] => (.ok bytesBySource, assets)
  | bytesBySource, assets, (_, none) :: rest => appendEntries frame bytesBySource assets rest
  | bytesBySource, assets, (sourceName, some pcm) :: rest =>
    match openFor frame assets sourceName pcm with
    | .error error => (.error error, assets)
    | .ok opened =>
      let reserved := opened.2.reserve frame pcm
      appendEntries frame (bytesBySource.set opened.1 reserved.bytesWritten)
        (assets.set opened.1 reserved) rest

def noBytes : JsMap LiveAudioSourceKind Nat :=
  JsMap.ofEntries [(.microphone, 0), (.system, 0), (.mixed, 0)]

def appendFrame (frame : LiveAudioFrame) (openMeetings : JsMap String OpenAssets) :
    Except String (JsMap LiveAudioSourceKind Nat) × JsMap String OpenAssets :=
  match openMeetings.get? frame.meetingId with
  | none => (.error "Meeting audio is not open", openMeetings)
  | some assets =>
    let appended := appendEntries frame noBytes assets frame.pcm.entries
    (appended.1, openMeetings.set frame.meetingId appended.2)

section Entries

variable {frame : LiveAudioFrame} {assets : OpenAssets}
  {bytesBySource : JsMap LiveAudioSourceKind Nat} {entries : List (String × Option Bytes)}

variable {sourceKind : LiveAudioSourceKind} {sourceName : String} {pcm : Bytes}
  {opened : LiveAudioSourceKind × OpenAsset}

theorem sourceKind?_injective {first second : String}
    (isFirst : sourceKind? first = some sourceKind)
    (isSecond : sourceKind? second = some sourceKind) : first = second := by
  unfold sourceKind? at isFirst isSecond
  split_ifs at isFirst isSecond
  all_goals
    cases isFirst
    cases isSecond
  · next first second => rw [first, second]
  · next first _ second => rw [first, second]
  · next first _ _ second => rw [first, second]

theorem openFor_eq_ok (opens : openFor frame assets sourceName pcm = .ok opened) :
    sourceKind? sourceName = some opened.1 ∧ assets.get? opened.1 = some opened.2 ∧
      opened.2.closed = false ∧
      opened.2.bytesWritten + (gapBytes frame opened.2 + pcm.length) ≤ maxWavDataBytes := by
  unfold openFor at opens
  split at opens
  · cases opens
  · next sourceKind named =>
    split at opens
    · cases opens
    · next asset found =>
      split_ifs at opens with isClosed tooLong
      cases opens
      exact ⟨named, found, by simpa using isClosed, not_lt.mp tooLong⟩

/-- Whether a source is refused depends on its own asset only. -/
theorem openFor_congr {assets' : OpenAssets} (pcm : Bytes)
    (same : ∀ sourceKind, sourceKind? sourceName = some sourceKind →
      assets'.get? sourceKind = assets.get? sourceKind) :
    openFor frame assets' sourceName pcm = openFor frame assets sourceName pcm := by
  unfold openFor
  split
  · rfl
  · next sourceKind named => rw [same sourceKind named]

/-- An entry without PCM is passed over, and one with PCM finds an asset that takes it. -/
def Admits (frame : LiveAudioFrame) (assets : OpenAssets) (entry : String × Option Bytes) : Prop :=
  ∀ pcm ∈ entry.2, ∃ opened, openFor frame assets entry.1 pcm = .ok opened

theorem appendEntries_filter :
    appendEntries frame bytesBySource assets (entries.filter fun entry => entry.2.isSome) =
      appendEntries frame bytesBySource assets entries := by
  induction entries generalizing bytesBySource assets with
  | nil => rfl
  | cons entry rest ih =>
    obtain ⟨sourceName, carried⟩ := entry
    cases carried with
    | none => rw [filter_cons_of_neg (by simp), ih, appendEntries]
    | some pcm =>
      rw [filter_cons_of_pos (by simp), appendEntries, appendEntries]
      split
      · rfl
      · exact ih

/-- Entries of other sources leave an asset as it is. -/
theorem get?_appendEntries_of_absent
    (absent : ∀ entry ∈ entries, sourceKind? entry.1 ≠ some sourceKind) :
    (appendEntries frame bytesBySource assets entries).2.get? sourceKind =
      assets.get? sourceKind := by
  induction entries generalizing bytesBySource assets with
  | nil => rfl
  | cons entry rest ih =>
    obtain ⟨sourceName, carried⟩ := entry
    obtain ⟨other, later⟩ := forall_mem_cons.mp absent
    cases carried with
    | none => exact ih later
    | some pcm =>
      rw [appendEntries]
      split
      · rfl
      · next opened opens =>
        rw [ih later]
        apply JsMap.get?_set_of_ne
        rintro rfl
        exact other (openFor_eq_ok opens).1

theorem exists_ok_appendEntries_iff (nodup : (entries.map Prod.fst).Nodup) :
    (∃ written, (appendEntries frame bytesBySource assets entries).1 = .ok written) ↔
      ∀ entry ∈ entries, Admits frame assets entry := by
  induction entries generalizing bytesBySource assets with
  | nil => exact iff_of_true ⟨_, rfl⟩ (forall_mem_nil _)
  | cons entry rest ih =>
    obtain ⟨sourceName, carried⟩ := entry
    obtain ⟨absent, nodupRest⟩ := nodup_cons.mp nodup
    rw [forall_mem_cons]
    cases carried with
    | none =>
      rw [appendEntries, ih nodupRest]
      exact (and_iff_right (by rintro _ ⟨⟩)).symm
    | some pcm =>
      rw [appendEntries]
      split
      · next error refuses =>
        apply iff_of_false
        · rintro ⟨_, ⟨⟩⟩
        · rintro ⟨admits, -⟩
          obtain ⟨opened, opens⟩ := admits pcm rfl
          rw [refuses] at opens
          cases opens
      · next opened opens =>
        rw [ih nodupRest]
        have admitsFirst : Admits frame assets (sourceName, some pcm) := by
          rintro _ ⟨⟩
          exact ⟨opened, opens⟩
        rw [and_iff_right admitsFirst]
        apply forall₂_congr
        intro later inRest
        apply forall₂_congr
        intro laterPcm _
        rw [openFor_congr laterPcm]
        intro sourceKind named
        apply JsMap.get?_set_of_ne
        rintro rfl
        have same := sourceKind?_injective (openFor_eq_ok opens).1 named
        exact absent (mem_map.mpr ⟨later, inRest, same.symm⟩)

/-- The first source of a frame is advanced whatever becomes of the others. -/
theorem get?_appendEntries_first (nodup : (((sourceName, some pcm) :: entries).map Prod.fst).Nodup)
    (opens : openFor frame assets sourceName pcm = .ok opened) :
    (appendEntries frame bytesBySource assets ((sourceName, some pcm) :: entries)).2.get?
      opened.1 = some (opened.2.reserve frame pcm) := by
  have named := (openFor_eq_ok opens).1
  rw [appendEntries, opens]
  rw [get?_appendEntries_of_absent, JsMap.get?_set_self]
  intro entry member same
  have sameName := sourceKind?_injective named same
  exact (nodup_cons.mp nodup).1 (mem_map.mpr ⟨entry, member, sameName.symm⟩)

end Entries

theorem silenceBytes_zero : silenceBytes 0 = 0 := by
  have whole : roundHalfUp 0 = 0 := Int.floor_eq_iff.mpr (by norm_num)
  simp [silenceBytes, whole]

/-- No silence stands before the first frame of a source. -/
theorem gapBytes_of_first (frame : LiveAudioFrame) {asset : OpenAsset}
    (first : asset.timelineStartMs = none) : gapBytes frame asset = 0 := by
  rw [gapBytes, first]
  exact silenceBytes_zero

def assetOf (openMeetings : JsMap String OpenAssets) (meetingId : String)
    (sourceKind : LiveAudioSourceKind) : Option OpenAsset :=
  (openMeetings.get? meetingId).bind fun assets => assets.get? sourceKind

/-- When `appendFrame` throws, the asset of every source is as it was. -/
def AllOrNothing (frame : LiveAudioFrame) (openMeetings : JsMap String OpenAssets) : Prop :=
  ∀ error, (appendFrame frame openMeetings).1 = .error error → ∀ meetingId sourceKind,
    assetOf (appendFrame frame openMeetings).2 meetingId sourceKind =
      assetOf openMeetings meetingId sourceKind

/-- A queued write is never undone. -/
theorem reserve_ne (frame : LiveAudioFrame) (pcm : Bytes) (asset : OpenAsset) :
    asset.reserve frame pcm ≠ asset := by
  intro same
  have queued := congrArg (fun asset => asset.writeQueue.length) same
  simp [OpenAsset.reserve] at queued

/-- A frame is all or nothing exactly if its first source is refused or none of the others
is. -/
theorem allOrNothing_iff (frame : LiveAudioFrame) (openMeetings : JsMap String OpenAssets) :
    AllOrNothing frame openMeetings ↔
      ∀ assets first others, openMeetings.get? frame.meetingId = some assets →
        (frame.pcm.entries.filter fun entry => entry.2.isSome) = first :: others →
          Admits frame assets first → ∀ entry ∈ others, Admits frame assets entry := by
  cases found : openMeetings.get? frame.meetingId with
  | none =>
    apply iff_of_true
    · intro error _ meetingId sourceKind
      rw [appendFrame, found]
    · rintro assets first others ⟨⟩
  | some assets =>
    generalize carriedEq : (frame.pcm.entries.filter fun entry => entry.2.isSome) = carried
    have nodup : (carried.map Prod.fst).Nodup := by
      rw [← carriedEq]
      exact (filter_sublist.map Prod.fst).nodup frame.pcm.nodup
    have appended : ∀ bytesBySource, appendEntries frame bytesBySource assets frame.pcm.entries =
        appendEntries frame bytesBySource assets carried := fun _ => by
      rw [← carriedEq, appendEntries_filter]
    unfold AllOrNothing appendFrame
    simp only [found, appended, assetOf]
    generalize noBytes = bytesBySource
    constructor
    · rintro nothing assets' first others ⟨⟩ rfl admits
      by_contra refused
      have throws : ¬∃ written,
          (appendEntries frame bytesBySource assets (first :: others)).1 = .ok written := by
        rw [exists_ok_appendEntries_iff nodup]
        exact fun all => refused fun entry member => all entry (mem_cons_of_mem _ member)
      obtain ⟨sourceName, carried⟩ := first
      have isCarried : (sourceName, carried).2.isSome := by
        have member := (mem_filter.mp (carriedEq ▸ mem_cons_self)).2
        exact member
      obtain ⟨pcm, rfl⟩ := Option.isSome_iff_exists.mp isCarried
      obtain ⟨opened, opens⟩ := admits pcm rfl
      have isOpen := (openFor_eq_ok opens).2.1
      cases result : (appendEntries frame bytesBySource assets
          ((sourceName, some pcm) :: others)).1 with
      | ok written => exact throws ⟨written, result⟩
      | error error =>
        have unchanged := nothing error result frame.meetingId opened.1
        rw [JsMap.get?_set_self, Option.bind_some, found, Option.bind_some,
          get?_appendEntries_first nodup opens, isOpen] at unchanged
        exact reserve_ne frame pcm opened.2 (Option.some.inj unchanged)
    · intro admitted error throws meetingId sourceKind
      have same : (appendEntries frame bytesBySource assets carried).2 = assets := by
        cases carried with
        | nil => rfl
        | cons first others =>
          by_cases admits : Admits frame assets first
          · exfalso
            have all : ∀ entry ∈ first :: others, Admits frame assets entry :=
              forall_mem_cons.mpr ⟨admits, admitted assets first others rfl rfl admits⟩
            obtain ⟨written, ok⟩ := (@exists_ok_appendEntries_iff frame assets bytesBySource _
              nodup).mpr all
            rw [ok] at throws
            cases throws
          · obtain ⟨sourceName, carried⟩ := first
            cases carried with
            | none => exact absurd (by rintro _ ⟨⟩) admits
            | some pcm =>
              rw [appendEntries]
              split
              · rfl
              · next opened opens => exact absurd (by rintro _ ⟨⟩; exact ⟨opened, opens⟩) admits
      rw [same, JsMap.get?_set]
      by_cases here : meetingId = frame.meetingId
      · rw [if_pos here, here, found]
      · rw [if_neg here]

/-- The microphone and the mix of a meeting. -/
def recordedAssets : OpenAssets :=
  JsMap.ofEntries [(.microphone, openAsset .microphone), (.mixed, openAsset .mixed)]

/-- A frame with a sample of the microphone and one of the system. -/
def recordedFrame : LiveAudioFrame where
  meetingId := "meeting-1"
  meetingTimeMs := 0
  durationMs := 1
  pcm := JsMap.ofEntries [("microphone", some [1, 0]), ("system", some [2, 0])]

/-- The microphone is advanced before the system is found not to be open. -/
theorem not_allOrNothing_recordedFrame :
    ¬AllOrNothing recordedFrame (JsMap.ofEntries [("meeting-1", recordedAssets)]) := by
  have opens : openFor recordedFrame recordedAssets "microphone" [1, 0] =
      .ok (.microphone, openAsset .microphone) := by
    have found : recordedAssets.get? .microphone = some (openAsset .microphone) := by decide
    have gap := gapBytes_of_first recordedFrame (show (openAsset .microphone).timelineStartMs = none
      from rfl)
    have named : sourceKind? "microphone" = some .microphone := by decide
    simp only [openFor, named, found, gap]
    decide
  have refuses : ∀ assets : OpenAssets, assets.get? .system = none →
      openFor recordedFrame assets "system" [2, 0] = .error "Audio source is not open" := by
    intro assets absent
    have named : sourceKind? "system" = some .system := by decide
    simp only [openFor, named, absent]
  have entries : recordedFrame.pcm.entries =
      [("microphone", some [1, 0]), ("system", some [2, 0])] := by decide
  have found : (JsMap.ofEntries [("meeting-1", recordedAssets)]).get? recordedFrame.meetingId =
      some recordedAssets := by
    decide
  intro nothing
  have throws : (appendFrame recordedFrame (JsMap.ofEntries [("meeting-1", recordedAssets)])).1 =
      .error "Audio source is not open" := by
    rw [appendFrame, found, entries]
    simp only [appendEntries, opens]
    rw [refuses]
    decide
  have unchanged := nothing _ throws recordedFrame.meetingId .microphone
  rw [appendFrame, found, entries] at unchanged
  simp only [assetOf] at unchanged
  rw [JsMap.get?_set_self, Option.bind_some,
    get?_appendEntries_first (by decide) opens] at unchanged
  have isOpen : recordedAssets.get? .microphone = some (openAsset .microphone) := by decide
  exact reserve_ne _ _ _ (Option.some.inj unchanged)

end Obelus.Live.AudioAssets
