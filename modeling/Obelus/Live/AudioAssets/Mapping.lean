import Obelus.Live.AudioAssets.Layout
import Obelus.Live.RefinementAudio.Aligned

/-!
# Written assets as parts of a refinement

The client compares the mapped duration of a part, which the writer rounded from the times of
frames, with the duration of its bytes.  The writer measures the gap before a frame from a
rounded end, so frames at fractional times that follow each other directly are moved apart by
silence, and the bytes run ahead of the timeline.
-/

namespace Obelus.Live.AudioAssets

open Obelus.Data List
open Obelus.Data.Doubles
open Obelus.Live.Capture (LiveAudioSourceKind)
open Obelus.Live.RefinementAudio
open Obelus.Transition

def sourceAssetId (sha256 : Bytes → Bytes) (meetingId : String)
    (sourceKind : LiveAudioSourceKind) : String :=
  let digest := (sha256 (utf8 (meetingId ++ ":" ++ sourceKindName sourceKind))).take 16
  let bytes := (digest.modify 6 fun byte => byte &&& 0x0f ||| 0x50).modify 8 fun byte =>
    byte &&& 0x3f ||| 0x80
  let digits (start stop : Nat) : String :=
    String.ofList (((hex bytes).toList.take stop).drop start)
  "-".intercalate [digits 0 8, digits 8 12, digits 12 16, digits 16 20, digits 20 32]

/-- What `resolveFinalizedAsset` answers for a finalized asset with its manifest entry. -/
def resolvedAsset (sha256 : Bytes → Bytes) (meetingId : String)
    (sourceKind : LiveAudioSourceKind) (asset : OpenAsset) : ResolvedAudioAsset where
  file := asset.file
  size := asset.file.length
  size_eq := rfl
  assetId := sourceAssetId sha256 meetingId sourceKind
  meetingId
  sourceKind
  checksumSha256 := digest sha256 (readStream asset.file)
  timelineStartMs := (asset.timelineStartMs.getD 0 : Int)
  timelineEndMs := (max (asset.timelineStartMs.getD 0) asset.timelineEndMs : Int)

/-- `resolveFinalizedAsset` of a writer that recorded one meeting. -/
def resolveFinalizedAsset (sha256 : Bytes → Bytes) (recorded : String) (assets : OpenAssets)
    (meetingId assetId : String) (sourceKind : LiveAudioSourceKind) :
    Except String ResolvedAudioAsset :=
  if assetId ≠ sourceAssetId sha256 meetingId sourceKind then
    .error "Audio asset does not belong to this meeting"
  else if meetingId ≠ recorded then .error "Audio asset is unavailable"
  else
    match assets.get? sourceKind with
    | none => .error "Audio asset is unavailable"
    | some asset =>
      if asset.closed = false then .error "Audio asset is unavailable"
      else if wavHeaderBytes + asset.bytesWritten ≠ asset.file.length then
        .error "Audio asset metadata does not match the controlled file"
      else .ok (resolvedAsset sha256 meetingId sourceKind asset)

/-- A client that resolves assets by a writer. -/
def writerClient (sha256 : Bytes → Bytes) (recorded : String) (assets : OpenAssets) :
    GatewayClient where
  sha256
  resolveAudioAsset := resolveFinalizedAsset sha256 recorded assets

/-- The part of a finalized asset, with provider times equal to its timeline times. -/
def writtenPart (sha256 : Bytes → Bytes) (meetingId : String) (asset : OpenAsset) :
    RefinementInputPart where
  assetId := sourceAssetId sha256 meetingId .mixed
  sourceKind := .mixed
  checksumSha256 := digest sha256 (readStream asset.file)
  timelineStartMs := asset.timelineStartMs.getD 0
  timelineEndMs := max (asset.timelineStartMs.getD 0) asset.timelineEndMs
  providerInputStartMs := asset.timelineStartMs.getD 0
  providerInputEndMs := max (asset.timelineStartMs.getD 0) asset.timelineEndMs

theorem resolveFinalizedAsset_recorded (sha256 : Bytes → Bytes) (recorded : String)
    {assets : OpenAssets} {asset : OpenAsset} {sourceKind : LiveAudioSourceKind}
    (found : assets.get? sourceKind = some asset) (isClosed : asset.closed = true)
    (size : wavHeaderBytes + asset.bytesWritten = asset.file.length) :
    resolveFinalizedAsset sha256 recorded assets recorded
        (sourceAssetId sha256 recorded sourceKind) sourceKind =
      .ok (resolvedAsset sha256 recorded sourceKind asset) := by
  unfold resolveFinalizedAsset
  simp only [ne_eq, not_true_eq_false, if_false, found, isClosed, size, Bool.true_eq_false]

/-- The start of the first frame, rounded. -/
def timelineStart (frames : List SourceFrame) : Int :=
  (frames.head?.map fun frame => roundHalfUp frame.meetingTimeMs).getD 0

/-- The frames have data, start in the meeting, and their bytes last as long as their timeline
up to a quarter of a second. -/
structure MapsFrames (frames : List SourceFrame) : Prop where
  nonempty : 0 < (wavData frames).length
  starts : 0 ≤ timelineStart frames
  drift : |double (double ((max (timelineStart frames) (timelineEnd frames) : Int) -
    timelineStart frames) - pcmDurationMs (wavData frames).length)| ≤ 250

/-- The part of a finalized asset is accepted exactly if its frames map. -/
theorem exists_resolveRefinementParts_iff {sha256 : Bytes → Bytes} {assets : OpenAssets}
    {frames : List SourceFrame} {asset : OpenAsset} {request : RefinementSubmitRequest}
    (found : assets.get? .mixed = some asset) (tracks : Tracks frames asset)
    (isClosed : asset.closed = true)
    (parts : request.parts = [writtenPart sha256 request.meetingId asset]) :
    (∃ resolved, resolveRefinementParts (writerClient sha256 request.meetingId assets) request =
        .ok resolved) ↔ MapsFrames frames := by
  have start : asset.timelineStartMs.getD 0 = timelineStart frames := by
    rw [tracks.started, timelineStart]
  obtain ⟨file, -, -⟩ := tracks.final isClosed
  have size : asset.file.length = wavHeaderBytes + (wavData frames).length := by
    rw [file, length_append, length_wavHeader]
  have data : asset.file.length - wavHeaderBytes = (wavData frames).length := by
    rw [size, Nat.add_sub_cancel_left]
  have resolves : (writerClient sha256 request.meetingId assets).resolveAudioAsset request.meetingId
      (writtenPart sha256 request.meetingId asset).assetId
      (writtenPart sha256 request.meetingId asset).sourceKind =
        .ok (resolvedAsset sha256 request.meetingId .mixed asset) := by
    simp only [writerClient]
    apply resolveFinalizedAsset_recorded sha256 request.meetingId found isClosed
    rw [size, tracks.bytes]
  have isWav : assertWavAsset sha256 (resolvedAsset sha256 request.meetingId .mixed asset)
      (digest sha256 (readStream asset.file)) = .ok () := by
    have limit := tracks.fits
    unfold maxWavDataBytes at limit
    have header : hasWavHeader asset.file asset.file.length = true := by
      rw [file, tracks.bytes]
      exact hasWavHeader_append _ (by rw [← tracks.bytes]; omega)
    unfold assertWavAsset
    rw [show (resolvedAsset sha256 request.meetingId .mixed asset).file = asset.file from rfl,
      show (resolvedAsset sha256 request.meetingId .mixed asset).size = asset.file.length from rfl,
      header, digest, toLower_hex]
    simp
  rw [resolveRefinementParts, parts, resolveRefinementPartsFrom]
  constructor
  · rintro ⟨resolved, accepted⟩
    cases first : resolveRefinementPart (writerClient sha256 request.meetingId assets) request []
        0 (writtenPart sha256 request.meetingId asset) with
    | error message =>
      rw [first] at accepted
      cases accepted
    | ok part =>
      obtain ⟨other, accepts, -⟩ := resolveRefinementPart_eq_ok_iff.mp first
      obtain rfl := Except.ok.inj (accepts.resolved.symm.trans resolves)
      have later := accepts.later
      have nonempty := accepts.nonempty
      have maps := accepts.maps
      simp only [writtenPart, resolvedAsset, start, tracks.ended, data] at later nonempty maps
      exact ⟨by omega, by exact_mod_cast later, maps⟩
  · intro maps
    have accepts : Accepts (writerClient sha256 request.meetingId assets) request [] 0
        (writtenPart sha256 request.meetingId asset)
        (resolvedAsset sha256 request.meetingId .mixed asset) := by
      refine ⟨rfl, not_mem_nil, ?_, resolves, ⟨rfl, rfl, rfl, rfl, rfl, rfl, rfl, rfl⟩, ?_,
        isWav, ?_⟩
      · simp only [writtenPart, start]
        exact_mod_cast maps.starts
      · have nonempty := maps.nonempty
        change wavHeaderBytes < asset.file.length
        omega
      · have drift := maps.drift
        simp only [writtenPart, resolvedAsset, start, tracks.ended, data]
        exact drift
    rw [resolveRefinementPart_eq_ok_iff.mpr ⟨_, accepts, rfl⟩]
    exact ⟨_, rfl⟩

/-- Any run of a writer. -/
def anyRun : Guard Recording WriterAction LiveAudioFrame := fun _ _ _ => True

/-- A frame of the mix. -/
def mixFrame (meetingId : String) (frame : SourceFrame) : LiveAudioFrame where
  meetingId
  meetingTimeMs := frame.meetingTimeMs
  durationMs := frame.durationMs
  pcm := JsMap.ofEntries [("mixed", some frame.pcm)]

theorem sourceFrames_map_mixFrame (meetingId : String) (frames : List SourceFrame) :
    sourceFrames .mixed (frames.map (mixFrame meetingId)) = frames := by
  induction frames with
  | nil => rfl
  | cons frame rest ih =>
    exact congrArg _ ih

section Runs

variable {meetingId : String} {config : Config Recording LiveAudioFrame} {asset : OpenAsset}

theorem tracks_of_reaches {sources : List LiveAudioSourceKind} {sourceKind : LiveAudioSourceKind}
    (reaches : Reaches (record meetingId) anyRun (startRecording sources) config)
    (found : config.state.assets.get? sourceKind = some asset) :
    Tracks (sourceFrames sourceKind config.trace) asset :=
  reaches.invariant TracksAll (tracksAll_startRecording sources)
    (fun _ _ _ _ tracks advanced _ => tracks.step advanced) sourceKind asset found

/-- Frames are accepted as long as their data is within the limit. -/
theorem exists_reaches_frames (meetingId : String) (frames : List SourceFrame)
    (fits : (wavData frames).length ≤ maxWavDataBytes) :
    ∃ config asset, Reaches (record meetingId) anyRun (startRecording [.mixed]) config ∧
      config.trace = frames.map (mixFrame meetingId) ∧ config.state.finalizing = false ∧
      config.state.assets.get? .mixed = some asset ∧ asset.closed = false := by
  induction frames using reverseRecOn with
  | nil => exact ⟨_, openAsset .mixed, Reaches.refl, rfl, rfl, rfl, rfl⟩
  | append_singleton front frame ih =>
    rw [wavData_snoc, length_append] at fits
    obtain ⟨config, asset, reaches, traced, running, found, isOpen⟩ := ih (by omega)
    have tracks := tracks_of_reaches reaches found
    rw [traced, sourceFrames_map_mixFrame] at tracks
    have room : asset.bytesWritten + (gapBytes (mixFrame meetingId frame) asset +
        frame.pcm.length) ≤ maxWavDataBytes := by
      rw [region, length_append, length_replicate] at fits
      have silence := tracks.silenceBefore_eq (mixFrame meetingId frame) frame.pcm
      change silenceBefore front frame = _ at silence
      rw [silence] at fits
      rw [tracks.bytes]
      exact fits
    have opens : openFor (mixFrame meetingId frame) config.state.assets "mixed" frame.pcm =
        .ok (.mixed, asset) := by
      have named : sourceKind? "mixed" = some .mixed := by decide
      simp only [openFor, named, found, isOpen, Bool.false_eq_true, if_false,
        if_neg (not_lt.mpr room)]
    obtain ⟨written, ok⟩ := (@exists_ok_appendEntries_iff (mixFrame meetingId frame)
      config.state.assets noBytes _ (mixFrame meetingId frame).pcm.nodup).mpr (by
        intro entry member
        rw [mem_singleton.mp member]
        rintro _ ⟨⟩
        exact ⟨_, opens⟩)
    have appended : advance (record meetingId) config (.append (mixFrame meetingId frame)) =
        some ⟨⟨(appendEntries (mixFrame meetingId frame) noBytes config.state.assets
          (mixFrame meetingId frame).pcm.entries).2, config.state.finalizing⟩,
            config.trace ++ [mixFrame meetingId frame]⟩ := by
      rw [advance, record]
      simp only [running, ok, Bool.false_eq_true, false_or]
      have own : ¬(mixFrame meetingId frame).meetingId ≠ meetingId := not_not.mpr rfl
      rw [if_neg own]
      rfl
    refine ⟨_, asset.reserve (mixFrame meetingId frame) frame.pcm,
      reaches.tail appended trivial, ?_, running, ?_, isOpen⟩
    · rw [traced, map_append, map_singleton]
    · exact get?_appendEntries_first (mixFrame meetingId frame).pcm.nodup opens

/-- What an asset still has to do before its header can be written. -/
def OpenAsset.work (asset : OpenAsset) : Nat :=
  (asset.pending.map fun chunk => chunk.2.length).sum + asset.writeQueue.length

theorem OpenAsset.work_run {changed : OpenAsset} (runs : asset.run = some changed) :
    changed.work < asset.work ∧ changed.closed = asset.closed := by
  obtain ⟨write, rest, idle, queue, rfl⟩ := OpenAsset.run_eq_some runs
  simp [OpenAsset.work, OpenAsset.pending, idle, queue]

theorem OpenAsset.work_write {changed : OpenAsset} {bytesWritten : Nat}
    (writes : asset.write bytesWritten = some changed) :
    changed.work < asset.work ∧ changed.closed = asset.closed := by
  obtain ⟨offset, bytes, rest, running, positive, within, rfl⟩ := OpenAsset.write_eq_some writes
  refine ⟨?_, rfl⟩
  by_cases all : bytesWritten = bytes.length
  · simp only [OpenAsset.work, OpenAsset.pending, running, if_pos all, cons_append,
      map_cons, sum_cons]
    omega
  · simp only [OpenAsset.work, OpenAsset.pending, running, if_neg all, cons_append,
      map_cons, sum_cons, length_drop]
    omega

/-- Behind `finalizeMeeting` an asset can always be closed. -/
theorem exists_reaches_closed {start : Recording} {frames : List SourceFrame}
    (reaches : Reaches (record meetingId) anyRun start config)
    (finalizing : config.state.finalizing = true)
    (found : config.state.assets.get? .mixed = some asset) (tracks : Tracks frames asset)
    (isOpen : asset.closed = false) :
    ∃ next closed, Reaches (record meetingId) anyRun start next ∧ next.trace = config.trace ∧
      next.state.assets.get? .mixed = some closed ∧ closed.closed = true := by
  generalize workEq : asset.work = work
  induction work using Nat.strong_induction_on generalizing config asset with
  | _ work ih =>
    have goesOn : ∀ action change changed, record meetingId config.state action =
        onAsset config.state .mixed change → change asset = some changed →
          Reaches (record meetingId) anyRun start
            ⟨{ config.state with assets := config.state.assets.set .mixed changed },
              config.trace⟩ := by
      intro action change changed isChange changes
      have advanced : advance (record meetingId) config action =
          some ⟨{ config.state with assets := config.state.assets.set .mixed changed },
            config.trace⟩ := by
        apply advance_eq_some_iff.mpr
        refine ⟨[], ?_, (append_nil _).symm⟩
        rw [isChange, onAsset, found, Option.bind_some, changes, Option.map_some]
      exact reaches.tail advanced trivial
    have set : ∀ changed, (config.state.assets.set .mixed changed).get? .mixed = some changed :=
      JsMap.get?_set_self _ _
    rcases tracks.continues isOpen with runs | ⟨bytesWritten, writes⟩ | finalizes
    · obtain ⟨changed, changes⟩ := Option.isSome_iff_exists.mp runs
      obtain ⟨less, same⟩ := OpenAsset.work_run changes
      have closes := ih _ (workEq ▸ less) (goesOn (.run .mixed) _ changed rfl changes) finalizing
        (set changed) (tracks.run changes) (same.trans isOpen) rfl
      exact closes
    · obtain ⟨changed, changes⟩ := Option.isSome_iff_exists.mp writes
      obtain ⟨less, same⟩ := OpenAsset.work_write changes
      have closes := ih _ (workEq ▸ less) (goesOn (.write .mixed bytesWritten) _ changed rfl
        changes) finalizing (set changed) (tracks.write changes) (same.trans isOpen) rfl
      exact closes
    · obtain ⟨changed, changes⟩ := Option.isSome_iff_exists.mp finalizes
      have isFinal : changed.closed = true := by
        unfold OpenAsset.finalize at changes
        split_ifs at changes
        split at changes
        · cases changes
        · cases changes
          rfl
      exact ⟨_, changed, goesOn (.finalizeAsset .mixed) OpenAsset.finalize changed
        (by rw [record, if_pos finalizing]) changes, rfl, set changed, isFinal⟩

/-- Every list of frames of the mix within the limit is written and finalized by some run. -/
theorem exists_finalized (meetingId : String) (frames : List SourceFrame)
    (fits : (wavData frames).length ≤ maxWavDataBytes) :
    ∃ config asset, Reaches (record meetingId) anyRun (startRecording [.mixed]) config ∧
      sourceFrames .mixed config.trace = frames ∧
      config.state.assets.get? .mixed = some asset ∧ asset.closed = true := by
  obtain ⟨config, asset, reaches, traced, running, found, isOpen⟩ :=
    exists_reaches_frames meetingId frames fits
  have finalizes : advance (record meetingId) config .finalizeMeeting =
      some ⟨{ config.state with finalizing := true }, config.trace⟩ := by
    apply advance_eq_some_iff.mpr
    refine ⟨[], ?_, (append_nil _).symm⟩
    simp [record, running]
  obtain ⟨next, closed, reached, sameTrace, isHere, isClosed⟩ :=
    exists_reaches_closed (reaches.tail finalizes trivial) rfl found
      (tracks_of_reaches reaches found) isOpen
  refine ⟨next, closed, reached, ?_, isHere, isClosed⟩
  rw [sameTrace]
  rw [traced, sourceFrames_map_mixFrame]

end Runs

/-- A body that is built is aligned, and the part of the mixed asset that a run of the writer has
finalized is accepted, exactly if the frames of the run map to their timeline. -/
theorem refinementAudio_iff {sha256 : Bytes → Bytes} {request : RefinementSubmitRequest}
    {sources : List LiveAudioSourceKind} {config : Config Recording LiveAudioFrame}
    {asset : OpenAsset}
    (reaches : Reaches (record request.meetingId) anyRun (startRecording sources) config)
    (found : config.state.assets.get? .mixed = some asset) (isClosed : asset.closed = true)
    (parts : request.parts = [writtenPart sha256 request.meetingId asset]) :
    ((∀ client built randomBytes body, HasWholeSamples client built →
        buildRefinementBody client built randomBytes = .ok body →
          ∃ audio, Aligned client built body audio) ∧
      ∃ resolved, resolveRefinementParts
        (writerClient sha256 request.meetingId config.state.assets) request = .ok resolved) ↔
      MapsFrames (sourceFrames .mixed config.trace) := by
  rw [exists_resolveRefinementParts_iff found (tracks_of_reaches reaches found) isClosed parts]
  exact and_iff_right fun _ _ _ _ whole builds => aligned_of_buildRefinementBody whole builds

/-- A request for the mixed asset of a meeting. -/
def writtenRequest (sha256 : Bytes → Bytes) (asset : OpenAsset) : RefinementSubmitRequest where
  meetingId := "meeting-1"
  idempotencyKey := "refinement-1"
  sourceTranscriptVersionId := "version-1"
  manifestChecksum := ""
  contentType := "audio/wav"
  knownSpeakerCount := none
  parts := [writtenPart sha256 "meeting-1" asset]

/-- Two frames of a millisecond with two of silence between them. -/
theorem refinementAudio_twoFrames :
    let frames : List SourceFrame := [⟨0, 1, replicate 32 1⟩, ⟨3, 1, replicate 32 2⟩]
    wavData frames = replicate 32 1 ++ replicate 64 0 ++ replicate 32 2 ∧
      ∃ config asset, Reaches (record "meeting-1") anyRun (startRecording [.mixed]) config ∧
        sourceFrames .mixed config.trace = frames ∧
        config.state.assets.get? .mixed = some asset ∧
        ∃ resolved, resolveRefinementParts (writerClient id "meeting-1" config.state.assets)
          (writtenRequest id asset) = .ok resolved := by
  have data : wavData [⟨0, 1, replicate 32 1⟩, ⟨3, 1, replicate 32 2⟩] =
      replicate 32 1 ++ replicate 64 0 ++ replicate 32 2 := by
    decide +kernel
  obtain ⟨config, asset, reaches, frames, found, isClosed⟩ :=
    exists_finalized "meeting-1" _ (by rw [data]; decide +kernel)
  have maps : MapsFrames (sourceFrames .mixed config.trace) := by
    rw [frames]
    constructor <;> decide +kernel
  have accepted := (@refinementAudio_iff id (writtenRequest id asset) [.mixed] config asset reaches
    found isClosed rfl).mpr maps
  exact ⟨data, config, asset, reaches, frames, found, accepted.2⟩

/-- The frames of 80 ms whose times are 7/16 ms behind a whole number. -/
def driftingFrame (index : Nat) : SourceFrame where
  meetingTimeMs := 80 * index + 7 / 16
  durationMs := 80
  pcm := List.replicate 2560 0

def driftingFrames (count : Nat) : List SourceFrame :=
  (List.range count).map driftingFrame

theorem driftingFrames_succ (count : Nat) :
    driftingFrames (count + 1) = driftingFrames count ++ [driftingFrame count] := by
  rw [driftingFrames, range_succ, map_append]
  rfl

/-- The end of a frame is rounded down. -/
theorem frameEndMs_driftingFrame {index : Nat} (few : index < 2 ^ 32) :
    frameEndMs (driftingFrame index).meetingTimeMs (driftingFrame index).durationMs =
      80 * (index + 1) := by
  have exact : double (80 * index + 7 / 16 + 80 : ℚ) = 80 * index + 7 / 16 + 80 := by
    apply @double_of_bits _ (1280 * index + 1287) 4
    · push_cast
      ring
    · rw [abs_of_nonneg (by positivity)]
      omega
    · decide
  unfold frameEndMs driftingFrame
  apply Int.floor_eq_iff.mpr
  push_cast
  constructor <;> linarith

theorem timelineEnd_driftingFrames {count : Nat} (few : count < 2 ^ 32) :
    timelineEnd (driftingFrames count) = 80 * count := by
  induction count with
  | zero => rfl
  | succ count ih =>
    rw [driftingFrames_succ, timelineEnd_snoc, frameEndMs_driftingFrame (by omega)]
    omega

/-- Seven samples of silence stand before every frame but the first. -/
theorem length_wavData_driftingFrames {count : Nat} (few : count < 2 ^ 32) :
    (wavData (driftingFrames (count + 1))).length = 2560 * (count + 1) + 14 * count := by
  induction count with
  | zero => decide +kernel
  | succ count ih =>
    have gap : silenceBefore (driftingFrames (count + 1)) (driftingFrame (count + 1)) = 14 := by
      have nonempty : driftingFrames (count + 1) ≠ [] := by simp [driftingFrames]
      rw [silenceBefore, if_neg nonempty, timelineEnd_driftingFrames (by omega), driftingFrame]
      have distance : (80 * (count + 1 : ℕ) + 7 / 16 - ((80 * (count + 1 : ℕ) : ℤ) : ℚ) : ℚ) =
          7 / 16 := by
        push_cast
        ring
      rw [distance]
      decide +kernel
    rw [driftingFrames_succ, wavData_snoc, length_append, region, gap, length_append,
      length_replicate, driftingFrame, length_replicate]
    omega

/-- After 600 frames the bytes are more than a quarter of a second ahead of the timeline, and
the part of the asset is refused. -/
theorem not_refinementAudio_driftingFrames :
    ∃ config asset, Reaches (record "meeting-1") anyRun (startRecording [.mixed]) config ∧
      sourceFrames .mixed config.trace = driftingFrames 600 ∧
      config.state.assets.get? .mixed = some asset ∧ asset.closed = true ∧
      ∀ (sha256 : Bytes → Bytes) (request : RefinementSubmitRequest),
        request.meetingId = "meeting-1" →
        request.parts = [writtenPart sha256 request.meetingId asset] →
          ¬∃ resolved, resolveRefinementParts
            (writerClient sha256 request.meetingId config.state.assets) request = .ok resolved := by
  have length : (wavData (driftingFrames 600)).length = 1544386 :=
    length_wavData_driftingFrames (by decide)
  obtain ⟨config, asset, reaches, frames, found, isClosed⟩ :=
    exists_finalized "meeting-1" (driftingFrames 600) (by rw [length]; decide)
  refine ⟨config, asset, reaches, frames, found, isClosed, ?_⟩
  intro sha256 request _ parts
  have tracks := tracks_of_reaches reaches found
  rw [frames] at tracks
  rw [exists_resolveRefinementParts_iff found tracks isClosed parts]
  intro maps
  have drift := maps.drift
  have start : timelineStart (driftingFrames 600) = 0 := by decide +kernel
  rw [start, timelineEnd_driftingFrames (by decide), length] at drift
  exact absurd drift (by decide +kernel)

end Obelus.Live.AudioAssets
