import Obelus.Live.AudioAssets.Writer

/-!
# The layout of a recorded file

Regions are reserved when a frame arrives and written later, chunk by chunk, with the writes
of the sources in any order.  What a file holds, followed by what is still to be written to
it, is at every time a header and the regions of its frames one behind the other.
-/

namespace Obelus.Live.AudioAssets

open Obelus.Data List
open Obelus.Data.Doubles (double roundHalfUp)
open Obelus.Live.Capture (LiveAudioSourceKind)
open Obelus.Live.RefinementAudio
open Obelus.Transition

/-! ## Writing -/

/-- What a file holds after bytes are written at an offset. -/
def writeAt (file : Bytes) (offset : Nat) (bytes : Bytes) : Bytes :=
  file.take offset ++ List.replicate (offset - file.length) 0 ++ bytes ++
    file.drop (offset + bytes.length)

/-- Pieces with their offsets, one behind the other. -/
def chunksFrom : Nat → List Bytes → List (Nat × Bytes)
  | _, [] => []
  | offset, piece :: rest => (offset, piece) :: chunksFrom (offset + piece.length) rest

/-- The pieces that `writeSilence` and `writeAll` write for a queued callback. -/
def QueuedWrite.pieces (write : QueuedWrite) : List Bytes :=
  silenceChunks write.gapBytes ++ if write.pcm = [] then [] else [write.pcm]

def QueuedWrite.chunks (write : QueuedWrite) : List (Nat × Bytes) :=
  chunksFrom write.position (silenceChunks write.gapBytes) ++
    if write.pcm = [] then [] else [(write.position + write.gapBytes, write.pcm)]

namespace OpenAsset

/-- The next queued callback starts. -/
def run (asset : OpenAsset) : Option OpenAsset :=
  match asset.writing, asset.writeQueue with
  | [], write :: rest => some { asset with writing := write.chunks, writeQueue := rest }
  | _, _ => none

/-- One `handle.write` of the running callback, which writes so many bytes. -/
def write (bytesWritten : Nat) (asset : OpenAsset) : Option OpenAsset :=
  match asset.writing with
  | [] => none
  | (offset, bytes) :: rest =>
    if bytesWritten = 0 ∨ bytes.length < bytesWritten then none
    else some
      { asset with
        file := writeAt asset.file offset (bytes.take bytesWritten)
        writing := if bytesWritten = bytes.length then rest
          else (offset + bytesWritten, bytes.drop bytesWritten) :: rest }

/-- `finalizeOpenAsset` behind the write queue. -/
def finalize (asset : OpenAsset) : Option OpenAsset :=
  if asset.closed ∨ asset.writing ≠ [] ∨ asset.writeQueue ≠ [] then none
  else
    match checkedWavHeader "WAV asset is too large to finalize" asset.bytesWritten with
    | .error _ => none
    | .ok header => some { asset with file := writeAt asset.file 0 header, closed := true }

theorem run_eq_some {asset changed : OpenAsset} (runs : asset.run = some changed) :
    ∃ write rest, asset.writing = [] ∧ asset.writeQueue = write :: rest ∧
      changed = { asset with writing := write.chunks, writeQueue := rest } := by
  unfold run at runs
  split at runs
  · next write rest idle queue =>
    cases runs
    exact ⟨write, rest, idle, queue, rfl⟩
  · cases runs

theorem write_eq_some {asset changed : OpenAsset} {bytesWritten : Nat}
    (writes : asset.write bytesWritten = some changed) :
    ∃ offset bytes rest, asset.writing = (offset, bytes) :: rest ∧ bytesWritten ≠ 0 ∧
      bytesWritten ≤ bytes.length ∧
      changed =
        { asset with
          file := writeAt asset.file offset (bytes.take bytesWritten)
          writing := if bytesWritten = bytes.length then rest
            else (offset + bytesWritten, bytes.drop bytesWritten) :: rest } := by
  unfold write at writes
  split at writes
  · cases writes
  · next offset bytes rest running =>
    by_cases refused : bytesWritten = 0 ∨ bytes.length < bytesWritten
    · rw [if_pos refused] at writes
      cases writes
    · rw [if_neg refused] at writes
      rw [not_or, not_lt] at refused
      cases writes
      exact ⟨offset, bytes, rest, running, refused.1, refused.2, rfl⟩

end OpenAsset

/-- The assets of a meeting, and whether `finalizeMeeting` was called. -/
structure Recording where
  assets : OpenAssets
  finalizing : Bool

inductive WriterAction
  | append (frame : LiveAudioFrame)
  | run (sourceKind : LiveAudioSourceKind)
  | write (sourceKind : LiveAudioSourceKind) (bytesWritten : Nat)
  | finalizeMeeting
  | finalizeAsset (sourceKind : LiveAudioSourceKind)

def onAsset (recording : Recording) (sourceKind : LiveAudioSourceKind)
    (change : OpenAsset → Option OpenAsset) : Option (Recording × List LiveAudioFrame) :=
  ((recording.assets.get? sourceKind).bind change).map fun asset =>
    ({ recording with assets := recording.assets.set sourceKind asset }, [])

/-- The writer of one meeting.  The frames it accepts are observed. -/
def record (meetingId : String) : Machine Recording WriterAction LiveAudioFrame :=
  fun recording action =>
    match action with
    | .append frame =>
      if recording.finalizing ∨ frame.meetingId ≠ meetingId then none
      else
        let appended := appendEntries frame noBytes recording.assets frame.pcm.entries
        match appended.1 with
        | .error _ => none
        | .ok _ => some ({ recording with assets := appended.2 }, [frame])
    | .run sourceKind => onAsset recording sourceKind OpenAsset.run
    | .write sourceKind bytesWritten =>
      onAsset recording sourceKind (OpenAsset.write bytesWritten)
    | .finalizeMeeting =>
      if recording.finalizing then none else some ({ recording with finalizing := true }, [])
    | .finalizeAsset sourceKind =>
      if recording.finalizing then onAsset recording sourceKind OpenAsset.finalize else none

/-- What `startMeeting` leaves. -/
def startRecording (sources : List LiveAudioSourceKind) : Recording where
  assets := JsMap.ofEntries (sources.map fun sourceKind => (sourceKind, openAsset sourceKind))
  finalizing := false

/-! ## The layout of a source -/

/-- What one accepted frame carries for a source. -/
structure SourceFrame where
  meetingTimeMs : Number
  durationMs : Number
  pcm : Bytes

def pcmOf (sourceKind : LiveAudioSourceKind) (entries : List (String × Option Bytes)) :
    Option Bytes :=
  entries.findSome? fun entry =>
    if sourceKind? entry.1 = some sourceKind then entry.2 else none

def sourceFrames (sourceKind : LiveAudioSourceKind) (frames : List LiveAudioFrame) :
    List SourceFrame :=
  frames.filterMap fun frame => (pcmOf sourceKind frame.pcm.entries).map fun pcm =>
    ⟨frame.meetingTimeMs, frame.durationMs, pcm⟩

/-- The latest end of frames, rounded, from the start of the meeting on. -/
def timelineEnd (frames : List SourceFrame) : Int :=
  frames.foldl (fun endMs frame => max endMs (frameEndMs frame.meetingTimeMs frame.durationMs)) 0

/-- The bytes of silence before a frame: none before the first one, and otherwise the rounded
samples of the time since the latest end. -/
def silenceBefore (front : List SourceFrame) (frame : SourceFrame) : Nat :=
  if front = [] then 0
  else silenceBytes (max 0 (double (frame.meetingTimeMs - timelineEnd front)))

def region (front : List SourceFrame) (frame : SourceFrame) : Bytes :=
  List.replicate (silenceBefore front frame) 0 ++ frame.pcm

/-- The regions of frames behind the ones in front of them. -/
def regionsFrom (front : List SourceFrame) : List SourceFrame → List Bytes
  | [] => []
  | frame :: rest => region front frame :: regionsFrom (front ++ [frame]) rest

def wavData (frames : List SourceFrame) : Bytes :=
  (regionsFrom [] frames).flatten

/-- The regions of the frames fill a file behind its 44 bytes of header, which announce them
within the limit of the format. -/
structure ExactLayout (frames : List SourceFrame) (file : Bytes) : Prop where
  regions : file.drop 44 = (regionsFrom [] frames).flatten
  header : 44 ≤ file.length ∧ readUInt32LE file 40 = file.length - 44
  fits : 36 + (file.length - 44) ≤ 0xffffffff

/-! ## Pieces and regions -/

section Pieces

variable {file bytes : Bytes} {offset : Nat}

theorem writeAt_end : writeAt file file.length bytes = file ++ bytes := by
  simp [writeAt]

theorem writeAt_start : writeAt file 0 bytes = bytes ++ file.drop bytes.length := by
  simp [writeAt]

theorem chunksFrom_append (offset : Nat) (front back : List Bytes) :
    chunksFrom offset (front ++ back) =
      chunksFrom offset front ++ chunksFrom (offset + front.flatten.length) back := by
  induction front generalizing offset with
  | nil => rfl
  | cons piece rest ih =>
    rw [cons_append, chunksFrom, chunksFrom, ih, flatten_cons, length_append,
      cons_append, Nat.add_assoc]

variable (write : QueuedWrite) (frames : List SourceFrame) (frame : SourceFrame)

theorem QueuedWrite.chunks_eq : write.chunks = chunksFrom write.position write.pieces := by
  rw [QueuedWrite.chunks, QueuedWrite.pieces, chunksFrom_append, flatten_silenceChunks,
    length_replicate]
  split <;> rfl

theorem QueuedWrite.flatten_pieces :
    write.pieces.flatten = replicate write.gapBytes 0 ++ write.pcm := by
  rw [QueuedWrite.pieces, flatten_append, flatten_silenceChunks]
  split
  · next empty => rw [empty, flatten_nil]
  · rw [flatten_cons, flatten_nil, append_nil]

theorem ne_nil_of_mem_silenceChunks {piece : Bytes} {remaining : Nat}
    (member : piece ∈ silenceChunks remaining) : piece ≠ [] := by
  induction remaining using silenceChunks.induct with
  | case1 =>
    rw [silenceChunks] at member
    cases member
  | case2 remaining positive ih =>
    rw [silenceChunks, if_neg positive] at member
    rcases mem_cons.mp member with rfl | later
    · apply ne_nil_of_length_pos
      rw [length_replicate]
      exact lt_min (Nat.pos_of_ne_zero positive) (by decide)
    · exact ih later

theorem QueuedWrite.ne_nil_of_mem_pieces {write : QueuedWrite} {piece : Bytes}
    (member : piece ∈ write.pieces) : piece ≠ [] := by
  rcases mem_append.mp member with silent | spoken
  · exact ne_nil_of_mem_silenceChunks silent
  · split at spoken
    · cases spoken
    · next nonempty =>
      rw [mem_singleton.mp spoken]
      exact nonempty

theorem regionsFrom_snoc (front frames : List SourceFrame) (frame : SourceFrame) :
    regionsFrom front (frames ++ [frame]) =
      regionsFrom front frames ++ [region (front ++ frames) frame] := by
  induction frames generalizing front with
  | nil => simp [regionsFrom]
  | cons first rest ih =>
    rw [cons_append, regionsFrom, regionsFrom, ih, cons_append, append_assoc, singleton_append]

theorem wavData_snoc : wavData (frames ++ [frame]) = wavData frames ++ region frames frame := by
  rw [wavData, regionsFrom_snoc, flatten_append, flatten_singleton]
  rfl

theorem timelineEnd_snoc : timelineEnd (frames ++ [frame]) =
      max (timelineEnd frames) (frameEndMs frame.meetingTimeMs frame.durationMs) :=
  foldl_append

end Pieces

/-! ## One asset -/

/-- What an asset still has to write. -/
def OpenAsset.pending (asset : OpenAsset) : List (Nat × Bytes) :=
  asset.writing ++ asset.writeQueue.flatMap QueuedWrite.chunks

/-- The reserved counters are those of the accepted frames, and the file with what is pending
is a header and their data. -/
structure Tracks (frames : List SourceFrame) (asset : OpenAsset) : Prop where
  bytes : asset.bytesWritten = (wavData frames).length
  position : asset.position = wavHeaderBytes + asset.bytesWritten
  fits : asset.bytesWritten ≤ maxWavDataBytes
  started : asset.timelineStartMs =
    frames.head?.map fun frame => roundHalfUp frame.meetingTimeMs
  ended : asset.timelineEndMs = timelineEnd frames
  remaining : asset.closed = false → ∃ header pieces, header.length = wavHeaderBytes ∧
    asset.pending = chunksFrom asset.file.length pieces ∧ (∀ piece ∈ pieces, piece ≠ []) ∧
    asset.file ++ pieces.flatten = header ++ wavData frames
  final : asset.closed = true → asset.file = wavHeader asset.bytesWritten ++ wavData frames ∧
    asset.writing = [] ∧ asset.writeQueue = []

variable (sourceKind : LiveAudioSourceKind)

theorem tracks_openAsset : Tracks [] (openAsset sourceKind) where
  bytes := rfl
  position := rfl
  fits := Nat.zero_le _
  started := rfl
  ended := rfl
  remaining _ := ⟨wavHeader 0, [], length_wavHeader 0, rfl, forall_mem_nil _, rfl⟩
  final isClosed := by cases isClosed

namespace Tracks

variable {frames : List SourceFrame} {asset changed : OpenAsset}

section

variable (tracks : Tracks frames asset)
include tracks

theorem silenceBefore_eq (frame : LiveAudioFrame) (pcm : Bytes) :
    silenceBefore frames ⟨frame.meetingTimeMs, frame.durationMs, pcm⟩ = gapBytes frame asset := by
  rw [gapBytes, tracks.started, tracks.ended]
  cases frames with
  | nil => exact silenceBytes_zero.symm
  | cons first rest => rfl

theorem reserve (frame : LiveAudioFrame) (pcm : Bytes)
    (fits : asset.bytesWritten + (gapBytes frame asset + pcm.length) ≤ maxWavDataBytes)
    (isOpen : asset.closed = false) :
    Tracks (frames ++ [⟨frame.meetingTimeMs, frame.durationMs, pcm⟩])
      (asset.reserve frame pcm) := by
  have data : wavData (frames ++ [⟨frame.meetingTimeMs, frame.durationMs, pcm⟩]) =
      wavData frames ++ (replicate (gapBytes frame asset) 0 ++ pcm) := by
    rw [wavData_snoc, region, tracks.silenceBefore_eq]
  have bytes : (asset.reserve frame pcm).bytesWritten =
      (wavData (frames ++ [⟨frame.meetingTimeMs, frame.durationMs, pcm⟩])).length := by
    rw [data, length_append, length_append, length_replicate, ← tracks.bytes]
    rfl
  constructor
  · exact bytes
  · have position := tracks.position
    change asset.position + _ = wavHeaderBytes + (asset.bytesWritten + _)
    omega
  · exact fits
  · have started := tracks.started
    cases frames with
    | nil =>
      rw [OpenAsset.reserve, started]
      rfl
    | cons first rest =>
      rw [OpenAsset.reserve, started]
      rfl
  · rw [timelineEnd_snoc, ← tracks.ended]
    rfl
  · intro _
    obtain ⟨header, pieces, headerLength, pending, nonempty, whole⟩ := tracks.remaining isOpen
    let write : QueuedWrite := ⟨gapBytes frame asset, pcm, asset.position⟩
    have file : (asset.reserve frame pcm).file = asset.file := rfl
    refine ⟨header, pieces ++ write.pieces, headerLength, ?_, ?_, ?_⟩
    · -- the region is reserved behind everything that is pending
      have place : asset.position = asset.file.length + pieces.flatten.length := by
        rw [← length_append, whole, length_append, headerLength, tracks.position, tracks.bytes]
      have queued : (asset.reserve frame pcm).pending = asset.pending ++ write.chunks := by
        simp [OpenAsset.pending, OpenAsset.reserve, write]
      rw [queued, pending, write.chunks_eq, chunksFrom_append, file, ← place]
    · intro piece member
      rcases mem_append.mp member with old | new
      · exact nonempty piece old
      · exact QueuedWrite.ne_nil_of_mem_pieces new
    · rw [flatten_append, write.flatten_pieces, ← append_assoc, file, whole, data, append_assoc]
  · intro isClosed
    rw [show (asset.reserve frame pcm).closed = asset.closed from rfl, isOpen] at isClosed
    cases isClosed

theorem run (runs : asset.run = some changed) : Tracks frames changed := by
  obtain ⟨write, rest, idle, queue, rfl⟩ := OpenAsset.run_eq_some runs
  have pending : OpenAsset.pending { asset with writing := write.chunks, writeQueue := rest } =
      asset.pending := by
    simp [OpenAsset.pending, idle, queue]
  refine ⟨tracks.bytes, tracks.position, tracks.fits, tracks.started, tracks.ended, ?_, ?_⟩
  · intro isOpen
    rw [pending]
    exact tracks.remaining isOpen
  · intro isClosed
    have drained := (tracks.final isClosed).2.2
    rw [queue] at drained
    cases drained

theorem write {bytesWritten : Nat} (writes : asset.write bytesWritten = some changed) :
    Tracks frames changed := by
  obtain ⟨offset, bytes, rest, running, positive, within, rfl⟩ := OpenAsset.write_eq_some writes
  have isOpen : asset.closed = false := by
    apply Bool.eq_false_iff.mpr
    intro isClosed
    have idle := (tracks.final isClosed).2.1
    rw [running] at idle
    cases idle
  refine ⟨tracks.bytes, tracks.position, tracks.fits, tracks.started, tracks.ended, ?_, ?_⟩
  · intro _
    obtain ⟨header, pieces, headerLength, pending, nonempty, whole⟩ := tracks.remaining isOpen
    cases pieces with
    | nil => simp [OpenAsset.pending, running, chunksFrom] at pending
    | cons piece later =>
      have parts := pending
      simp only [OpenAsset.pending, running, chunksFrom, cons_append, cons.injEq] at parts
      obtain ⟨⟨rfl, rfl⟩, others⟩ := parts
      have front : (bytes.take bytesWritten).length = bytesWritten := by
        rw [length_take]
        exact min_eq_left within
      by_cases all : bytesWritten = bytes.length
      · refine ⟨header, later, headerLength, ?_, ?_, ?_⟩
        · rw [writeAt_end, length_append, front, all, ← others]
          simp [OpenAsset.pending]
        · exact fun piece member => nonempty piece (mem_cons_of_mem _ member)
        · rw [writeAt_end, all, take_length, ← whole, flatten_cons, append_assoc]
      · refine ⟨header, bytes.drop bytesWritten :: later, headerLength, ?_, ?_, ?_⟩
        · have back : asset.file.length + bytesWritten + (bytes.drop bytesWritten).length =
              asset.file.length + bytes.length := by
            rw [length_drop]
            omega
          rw [writeAt_end, length_append, front, if_neg all, chunksFrom, back, ← others]
          rfl
        · rw [forall_mem_cons]
          constructor
          · apply ne_nil_of_length_pos
            rw [length_drop]
            omega
          · exact fun piece member => nonempty piece (mem_cons_of_mem _ member)
        · rw [writeAt_end, ← whole, flatten_cons, flatten_cons, append_assoc,
            ← append_assoc (bytes.take bytesWritten), take_append_drop]
  · intro isClosed
    rw [isOpen] at isClosed
    cases isClosed

theorem finalize (finalizes : asset.finalize = some changed) : Tracks frames changed := by
  unfold OpenAsset.finalize at finalizes
  split_ifs at finalizes with busy
  rw [not_or, not_or, not_not, not_not] at busy
  obtain ⟨isOpen, idle, drained⟩ := busy
  obtain ⟨header, pieces, headerLength, pending, -, whole⟩ :=
    tracks.remaining (Bool.eq_false_iff.mpr isOpen)
  have none : pieces = [] := by
    cases pieces with
    | nil => rfl
    | cons piece later => simp [OpenAsset.pending, idle, drained, chunksFrom] at pending
  rw [none, flatten_nil, append_nil] at whole
  split at finalizes
  · cases finalizes
  · next written created =>
    cases finalizes
    have headerEq : written = wavHeader asset.bytesWritten := by
      unfold checkedWavHeader at created
      split_ifs at created
      cases created
      rfl
    refine ⟨tracks.bytes, tracks.position, tracks.fits, tracks.started, tracks.ended, ?_, ?_⟩
    · intro isOpen
      cases isOpen
    · intro _
      refine ⟨?_, idle, drained⟩
      rw [headerEq, writeAt_start, length_wavHeader, whole, drop_left' headerLength]

/-- An open asset goes on: a callback starts, a write is made, or the header is written. -/
theorem continues (isOpen : asset.closed = false) :
    asset.run.isSome ∨ (∃ bytesWritten, (asset.write bytesWritten).isSome) ∨
      asset.finalize.isSome := by
  obtain ⟨header, pieces, -, pending, nonempty, -⟩ := tracks.remaining isOpen
  cases running : asset.writing with
  | nil =>
    cases queue : asset.writeQueue with
    | nil =>
      right
      right
      have limit := tracks.fits
      unfold maxWavDataBytes at limit
      have created : checkedWavHeader "WAV asset is too large to finalize"
          asset.bytesWritten = .ok (wavHeader asset.bytesWritten) := by
        rw [checkedWavHeader, if_neg (by simp; omega)]
        rfl
      simp [OpenAsset.finalize, isOpen, running, queue, created]
    | cons write rest =>
      left
      simp [OpenAsset.run, running, queue]
  | cons chunk rest =>
    right
    left
    refine ⟨chunk.2.length, ?_⟩
    have notEmpty : chunk.2 ≠ [] := by
      cases pieces with
      | nil => simp [OpenAsset.pending, running, chunksFrom] at pending
      | cons piece later =>
        simp only [OpenAsset.pending, running, chunksFrom, cons_append, cons.injEq] at pending
        rw [pending.1]
        exact nonempty piece mem_cons_self
    simp [OpenAsset.write, running, notEmpty]

end

end Tracks

/-! ## Every run -/

section Runs

variable {frame : LiveAudioFrame} {assets : OpenAssets}
  {bytesBySource : JsMap LiveAudioSourceKind Nat} {entries : List (String × Option Bytes)}
  {sourceKind : LiveAudioSourceKind}

theorem pcmOf_cons_of_ne {entry : String × Option Bytes}
    (other : sourceKind? entry.1 ≠ some sourceKind) :
    pcmOf sourceKind (entry :: entries) = pcmOf sourceKind entries := by
  rw [pcmOf, findSome?_cons, if_neg other]
  rfl

/-- An accepted frame reserves a region in the asset of each source that it carries and leaves
the others as they are. -/
theorem appendEntries_cases {written : JsMap LiveAudioSourceKind Nat}
    (nodup : (entries.map Prod.fst).Nodup)
    (ok : (appendEntries frame bytesBySource assets entries).1 = .ok written) :
    (pcmOf sourceKind entries = none ∧
        (appendEntries frame bytesBySource assets entries).2.get? sourceKind =
          assets.get? sourceKind) ∨
      ∃ pcm asset, pcmOf sourceKind entries = some pcm ∧ assets.get? sourceKind = some asset ∧
        asset.closed = false ∧
        asset.bytesWritten + (gapBytes frame asset + pcm.length) ≤ maxWavDataBytes ∧
        (appendEntries frame bytesBySource assets entries).2.get? sourceKind =
          some (asset.reserve frame pcm) := by
  induction entries generalizing bytesBySource assets with
  | nil => exact .inl ⟨rfl, rfl⟩
  | cons entry rest ih =>
    obtain ⟨sourceName, carried⟩ := entry
    have nodupRest := (nodup_cons.mp nodup).2
    cases carried with
    | none =>
      have skipped : pcmOf sourceKind ((sourceName, none) :: rest) = pcmOf sourceKind rest := by
        rw [pcmOf, findSome?_cons]
        simp only [ite_self]
        rfl
      rw [skipped]
      exact ih nodupRest ok
    | some pcm =>
      cases opens : openFor frame assets sourceName pcm with
      | error error =>
        rw [appendEntries, opens] at ok
        cases ok
      | ok opened =>
        obtain ⟨named, found, isOpen, fits⟩ := openFor_eq_ok opens
        by_cases here : opened.1 = sourceKind
        · subst here
          refine .inr ⟨pcm, opened.2, ?_, found, isOpen, fits, get?_appendEntries_first nodup opens⟩
          rw [pcmOf, findSome?_cons, if_pos named]
        · have other : sourceKind? sourceName ≠ some sourceKind := by
            rw [named]
            exact fun same => here (Option.some.inj same)
          have unset : ∀ reserved, (assets.set opened.1 reserved).get? sourceKind =
              assets.get? sourceKind :=
            JsMap.get?_set_of_ne assets (Ne.symm here)
          rw [appendEntries, opens] at ok ⊢
          have later := @ih (assets.set opened.1 (opened.2.reserve frame pcm)) _ nodupRest ok
          rw [unset] at later
          rw [pcmOf_cons_of_ne other]
          exact later

end Runs

/-- Every asset tracks the frames that were accepted for it. -/
def TracksAll (config : Config Recording LiveAudioFrame) : Prop :=
  ∀ sourceKind asset, config.state.assets.get? sourceKind = some asset →
    Tracks (sourceFrames sourceKind config.trace) asset

theorem tracksAll_onAsset {config next : Config Recording LiveAudioFrame}
    {sourceKind : LiveAudioSourceKind} {change : OpenAsset → Option OpenAsset}
    {emitted : List LiveAudioFrame}
    (tracks : TracksAll config)
    (kept : ∀ frames asset changed, Tracks frames asset → change asset = some changed →
      Tracks frames changed)
    (changes : onAsset config.state sourceKind change = some (next.state, emitted))
    (traced : next.trace = config.trace ++ emitted) : TracksAll next := by
  obtain ⟨changed, found, same⟩ := Option.map_eq_some_iff.mp changes
  obtain ⟨asset, isHere, becomes⟩ := Option.bind_eq_some_iff.mp found
  obtain ⟨stateEq, rfl⟩ := Prod.mk.inj same
  rw [append_nil] at traced
  intro other asset' found'
  rw [← stateEq, JsMap.get?_set] at found'
  rw [traced]
  split at found'
  · next here =>
    cases found'
    rw [here]
    exact kept _ asset _ (tracks sourceKind asset isHere) becomes
  · exact tracks other asset' found'

theorem sourceFrames_snoc (frames : List LiveAudioFrame) (frame : LiveAudioFrame) :
    sourceFrames sourceKind (frames ++ [frame]) = sourceFrames sourceKind frames ++
      ((pcmOf sourceKind frame.pcm.entries).map fun pcm =>
        ⟨frame.meetingTimeMs, frame.durationMs, pcm⟩).toList := by
  cases carried : pcmOf sourceKind frame.pcm.entries with
  | none => simp [sourceFrames, carried]
  | some pcm => simp [sourceFrames, carried]

theorem TracksAll.step {meetingId : String} {config next : Config Recording LiveAudioFrame}
    {action : WriterAction} (tracks : TracksAll config)
    (advanced : advance (record meetingId) config action = some next) : TracksAll next := by
  obtain ⟨emitted, stepped, traced⟩ := advance_eq_some_iff.mp advanced
  cases action with
  | append frame =>
    simp only [record] at stepped
    split_ifs at stepped
    split at stepped
    · cases stepped
    · next written ok =>
      obtain ⟨stateEq, rfl⟩ := Prod.mk.inj (Option.some.inj stepped)
      intro sourceKind asset found
      rw [← stateEq] at found
      rw [traced, sourceFrames_snoc]
      rcases appendEntries_cases frame.pcm.nodup ok with
        ⟨absent, same⟩ | ⟨pcm, before, carried, isHere, isOpen, fits, reserved⟩
      · rw [same] at found
        rw [absent, Option.map_none, Option.toList_none, append_nil]
        exact tracks sourceKind asset found
      · rw [reserved] at found
        cases found
        rw [carried]
        exact (tracks sourceKind before isHere).reserve frame pcm fits isOpen
  | run sourceKind => exact tracksAll_onAsset tracks (fun _ _ _ => Tracks.run) stepped traced
  | write sourceKind bytesWritten =>
    exact tracksAll_onAsset tracks (fun _ _ _ tracks written => tracks.write written) stepped traced
  | finalizeMeeting =>
    simp only [record] at stepped
    split_ifs at stepped
    obtain ⟨stateEq, rfl⟩ := Prod.mk.inj (Option.some.inj stepped)
    rw [append_nil] at traced
    intro sourceKind asset found
    rw [← stateEq] at found
    rw [traced]
    exact tracks sourceKind asset found
  | finalizeAsset sourceKind =>
    simp only [record] at stepped
    split_ifs at stepped
    exact tracksAll_onAsset tracks (fun _ _ _ => Tracks.finalize) stepped traced

theorem tracksAll_startRecording (sources : List LiveAudioSourceKind) :
    TracksAll (Config.initial (startRecording sources)) := by
  intro sourceKind asset found
  obtain ⟨opened, -, same⟩ := mem_map.mp (JsMap.mem_of_get?_ofEntries found)
  rw [← (Prod.mk.inj same).2]
  exact tracks_openAsset opened

/-- What a finalized recording has written for each of its sources, and that the finalization
of a source goes on until it has. -/
theorem finalizedLayout_exact {meetingId : String} {sources : List LiveAudioSourceKind}
    {config : Config Recording LiveAudioFrame}
    (reaches : Reaches (record meetingId) (fun _ _ _ => True) (startRecording sources) config)
    {sourceKind : LiveAudioSourceKind} {asset : OpenAsset}
    (found : config.state.assets.get? sourceKind = some asset) :
    (asset.closed = true → ExactLayout (sourceFrames sourceKind config.trace) asset.file) ∧
      (asset.closed = false → asset.run.isSome ∨
        (∃ bytesWritten, (asset.write bytesWritten).isSome) ∨ asset.finalize.isSome) := by
  have tracksAll : TracksAll config :=
    reaches.invariant TracksAll (tracksAll_startRecording sources)
      fun _ _ _ _ tracks advanced _ => tracks.step advanced
  have tracks := tracksAll sourceKind asset found
  constructor
  · intro isClosed
    obtain ⟨file, -, -⟩ := tracks.final isClosed
    have limit := tracks.fits
    unfold maxWavDataBytes at limit
    have length : asset.file.length = 44 + asset.bytesWritten := by
      rw [file, length_append, tracks.bytes]
      rfl
    constructor
    · rw [file]
      rfl
    · rw [length, Nat.add_sub_cancel_left, file, readUInt32LE_append _ (by simp [wavHeaderBytes]),
        readUInt32LE_wavHeader (by omega)]
      exact ⟨Nat.le_add_right _ _, rfl⟩
    · omega
  · exact tracks.continues

/-- A frame of the mix with one sample. -/
def mixedFrame (meetingTimeMs : Number) (sample : Bytes) : LiveAudioFrame where
  meetingId := "meeting-1"
  meetingTimeMs
  durationMs := 1
  pcm := JsMap.ofEntries [("mixed", some sample)]

/-- The second frame is accepted before the first one is written, and a write is cut short. -/
def recordedActions : List WriterAction :=
  [.append (mixedFrame 0 [1, 0]), .append (mixedFrame 2 [2, 0]), .run .mixed, .write .mixed 1,
    .finalizeMeeting, .write .mixed 1, .run .mixed, .write .mixed 32, .write .mixed 2,
    .finalizeAsset .mixed]

/-- Two frames with a millisecond between them. -/
theorem finalizedLayout_exact_recordedActions :
    ∃ config, exec (record "meeting-1") (Config.initial (startRecording [.mixed]))
        recordedActions = some config ∧
      ∃ asset, config.state.assets.get? .mixed = some asset ∧
        ExactLayout (sourceFrames .mixed config.trace) asset.file := by
  have ends : ∃ config ∈ exec (record "meeting-1") (Config.initial (startRecording [.mixed]))
      recordedActions, (config.state.assets.get? .mixed).any (·.closed) = true := by
    decide +kernel
  obtain ⟨config, executed, closes⟩ := ends
  obtain ⟨asset, found, isClosed⟩ := (Option.any_eq_true _ _).mp closes
  have reaches : Reaches (record "meeting-1") (fun _ _ _ => True) (startRecording [.mixed])
      config :=
    reaches_of_exec recordedActions (by decide +kernel) executed
  exact ⟨config, executed, asset, found, (finalizedLayout_exact reaches found).1 isClosed⟩

end Obelus.Live.AudioAssets
