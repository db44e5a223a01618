import Obelus.Live.RefinementAudio.Gateway

/-!
# Times and bytes of PCM

Where the double arithmetic of the client comes out at the exact number: the
silence before a part, when the bytes before it are even and the audio is within
the allowed size.
-/

namespace Obelus.Live.RefinementAudio

open Obelus.Data.Doubles

variable {milliseconds : Number} {start : Int}

/-- The samples of a time, before they are rounded to a whole number. -/
theorem abs_samples_sub_le (nonneg : 0 ≤ milliseconds) :
    |double (double (milliseconds / 1000) * wavSampleRate) - 16 * milliseconds| ≤
      milliseconds / 2 ^ 47 + 1 / 2 ^ 49 := by
  have close := @abs_double_mul_sub_le (milliseconds / 1000) wavSampleRate (by positivity)
    (Nat.cast_nonneg _)
  have exact : milliseconds / 1000 * (wavSampleRate : ℚ) = 16 * milliseconds := by
    norm_num [wavSampleRate]
    ring
  rw [exact] at close
  apply le_trans close
  norm_num [wavSampleRate]
  linarith

theorem abs_pcmDurationMs_sub_le (dataBytes : Nat) :
    |pcmDurationMs dataBytes - dataBytes / 32| ≤ dataBytes / 2 ^ 56 + 1 / 2 ^ 53 := by
  have close := @abs_double_mul_sub_le (dataBytes / (wavSampleRate * 2)) 1000 (by positivity)
    (by norm_num)
  have exact : (dataBytes : ℚ) / (wavSampleRate * 2) * 1000 = dataBytes / 32 := by
    norm_num [wavSampleRate]
    ring
  rw [exact] at close
  apply le_trans close
  linarith [(Nat.cast_nonneg dataBytes : (0 : ℚ) ≤ dataBytes)]

theorem millisecondsToPcmBytes_nonneg (nonneg : 0 ≤ milliseconds) :
    0 ≤ millisecondsToPcmBytes milliseconds := by
  have samples : 0 ≤ double (double (milliseconds / 1000) * wavSampleRate) :=
    double_nonneg (mul_nonneg (double_nonneg (by positivity)) (Nat.cast_nonneg _))
  have whole : 0 ≤ roundHalfUp (double (double (milliseconds / 1000) * wavSampleRate)) :=
    Int.floor_nonneg.mpr (by linarith)
  unfold millisecondsToPcmBytes
  simp only
  omega

/-- The silence between a cursor that is almost exact and a later start is
exact, if it is within the allowed size. -/
theorem millisecondsToPcmBytes_eq {cursor : Number} {front : Int} (even : front % 2 = 0)
    (close : |cursor - front / 32| ≤ 1 / 2 ^ 20) (later : cursor ≤ start)
    (fits : millisecondsToPcmBytes (double (start - cursor)) ≤ maxRefinementBytes) :
    millisecondsToPcmBytes (double (start - cursor)) = 32 * start - front := by
  have gapNonneg : 0 ≤ (start : ℚ) - cursor := by linarith
  have gap := abs_double_sub_le ((start : ℚ) - cursor)
  rw [abs_of_nonneg gapNonneg] at gap
  have samples := abs_samples_sub_le (double_nonneg gapNonneg)
  unfold millisecondsToPcmBytes maxRefinementBytes at fits
  unfold millisecondsToPcmBytes
  simp only at fits ⊢
  generalize double ((start : ℚ) - cursor) = rounded at gap samples fits ⊢
  generalize double (double (rounded / 1000) * wavSampleRate) = count at samples fits ⊢
  rw [abs_le] at gap samples close
  have few : roundHalfUp count ≤ 2 ^ 29 := by omega
  have whole : (roundHalfUp count : ℚ) ≤ 2 ^ 29 := by exact_mod_cast few
  have above : count + 1 / 2 < roundHalfUp count + 1 := Int.lt_floor_add_one _
  obtain ⟨half, rfl⟩ : ∃ half, front = 2 * half := ⟨front / 2, by omega⟩
  have exact : roundHalfUp count = 16 * start - half := by
    apply Int.floor_eq_iff.mpr
    push_cast at close ⊢
    constructor <;> linarith
  rw [exact]
  ring

/-- The cursor behind a part, within the allowed size. -/
theorem abs_cursor_sub_le {dataBytes : Nat} (nonneg : 0 ≤ start)
    (fits : 32 * start + dataBytes ≤ maxRefinementBytes) :
    |double (start + pcmDurationMs dataBytes) - (32 * start + dataBytes : Int) / 32| ≤
      1 / 2 ^ 20 := by
  have total : (32 * start + dataBytes : ℚ) ≤ 2 ^ 30 := by
    have bound : 32 * start + dataBytes ≤ 2 ^ 30 := fits
    exact_mod_cast bound
  have startNonneg : (0 : ℚ) ≤ start := by exact_mod_cast nonneg
  have duration := abs_pcmDurationMs_sub_le dataBytes
  have durationNonneg : 0 ≤ pcmDurationMs dataBytes :=
    double_nonneg (mul_nonneg (double_nonneg (by positivity)) (by norm_num))
  have sum := abs_double_sub_le (start + pcmDurationMs dataBytes)
  rw [abs_of_nonneg (add_nonneg startNonneg durationNonneg)] at sum
  rw [abs_le] at duration sum ⊢
  push_cast
  constructor <;> linarith

/-!
## The aligned audio of a refinement

The body of an accepted request has the announced length, and its audio is one
WAV file in which the PCM of every part stands where its provider start says.

`Spaced` says that the silence before each part fills what lies between the end
of the part before it and its start.  Resolving the parts establishes it, and
the offsets in the audio follow from it by induction on the parts.
-/

open Obelus.Data.Doubles List

variable {client : GatewayClient} {request : RefinementSubmitRequest}

/-- The files of the parts hold an even number of bytes of data. -/
def HasWholeSamples (client : GatewayClient) (request : RefinementSubmitRequest) : Prop :=
  ∀ input ∈ request.parts, ∀ asset,
    client.resolveAudioAsset request.meetingId input.assetId input.sourceKind = .ok asset →
    (asset.size - wavHeaderBytes) % 2 = 0

/-- What stands in a body that is exactly as long as announced and whose audio
is aligned. -/
structure Aligned (client : GatewayClient) (request : RefinementSubmitRequest)
    (body : RefinementBody) (audio : Bytes) : Prop where
  exactLength : ((body.stream.map List.length).sum : Int) = body.contentLength
  parts : body.stream.flatten =
    metadataPrefix body.boundary (metadata request (digest client.sha256 [audio])) ++
      audioPrefix body.boundary request.contentType ++ audio ++ bodySuffix body.boundary
  header : wavHeaderBytes ≤ audio.length ∧
    readUInt32LE audio 40 = (audio.drop wavHeaderBytes).length
  starts : ∀ input ∈ request.parts, 0 ≤ input.providerInputStartMs ∧ ∃ asset,
    client.resolveAudioAsset request.meetingId input.assetId input.sourceKind = .ok asset ∧
      asset.file.drop wavHeaderBytes ≠ [] ∧
      asset.file.drop wavHeaderBytes <+:
        audio.drop (44 + 32 * input.providerInputStartMs.toNat)

/-- What is required of a part behind a cursor and of the asset found for it. -/
structure Accepts (client : GatewayClient) (request : RefinementSubmitRequest)
    (seen : List String) (cursor : Number) (input : RefinementInputPart)
    (asset : ResolvedAudioAsset) : Prop where
  isMixed : input.sourceKind = .mixed
  isNew : input.assetId ∉ seen
  later : cursor ≤ input.providerInputStartMs
  resolved : client.resolveAudioAsset request.meetingId input.assetId input.sourceKind = .ok asset
  matching : asset.meetingId = request.meetingId ∧ asset.assetId = input.assetId ∧
    asset.sourceKind = input.sourceKind ∧ asset.checksumSha256 = input.checksumSha256 ∧
    asset.timelineStartMs = input.timelineStartMs ∧ asset.timelineEndMs = input.timelineEndMs ∧
    input.providerInputStartMs = asset.timelineStartMs ∧
    input.providerInputEndMs = asset.timelineEndMs
  nonempty : wavHeaderBytes < asset.size
  isWav : assertWavAsset client.sha256 asset input.checksumSha256 = .ok ()
  maps : |double (double (input.providerInputEndMs - input.providerInputStartMs) -
    pcmDurationMs (asset.size - wavHeaderBytes))| ≤ 250

/-- The part that is pushed for an accepted asset. -/
def resolvedPart (cursor : Number) (input : RefinementInputPart) (asset : ResolvedAudioAsset) :
    ResolvedPart where
  input
  asset
  dataBytes := asset.size - wavHeaderBytes
  silenceBeforeBytes := millisecondsToPcmBytes (double (input.providerInputStartMs - cursor))

variable {seen : List String} {cursor : Number} {input : RefinementInputPart} {part : ResolvedPart}
  {inputs : List RefinementInputPart} {parts : List ResolvedPart} {asset : ResolvedAudioAsset}
  {front : Int} {randomBytes : Bytes} {body : RefinementBody}

theorem resolveRefinementPart_eq_ok_iff :
    resolveRefinementPart client request seen cursor input = .ok part ↔
      ∃ asset, Accepts client request seen cursor input asset ∧
        part = resolvedPart cursor input asset := by
  constructor
  · intro resolves
    unfold resolveRefinementPart at resolves
    split_ifs at resolves with kind known early
    cases found : client.resolveAudioAsset request.meetingId input.assetId input.sourceKind with
    | error message =>
      rw [found] at resolves
      cases resolves
    | ok asset =>
      rw [found] at resolves
      simp only [bind, Except.bind] at resolves
      cases checked : assertWavAsset client.sha256 asset input.checksumSha256 with
      | error message =>
        rw [checked] at resolves
        split_ifs at resolves
      | ok _ =>
        rw [checked] at resolves
        split_ifs at resolves with mismatch empty drifts
        cases resolves
        refine ⟨asset, ⟨not_not.mp kind, known, not_lt.mp early, found, ?_, not_le.mp empty,
          checked, not_lt.mp drifts⟩, rfl⟩
        simpa only [not_or, not_not] using mismatch
  · rintro ⟨asset, accepts, rfl⟩
    unfold resolveRefinementPart
    have matching := accepts.matching
    rw [if_neg (not_not.mpr accepts.isMixed), if_neg accepts.isNew,
      if_neg (not_lt.mpr accepts.later), accepts.resolved]
    simp only [bind, Except.bind]
    rw [if_neg (by simpa only [not_or, not_not] using matching),
      if_neg (not_le.mpr accepts.nonempty), accepts.isWav]
    rw [if_neg (not_lt.mpr accepts.maps)]
    rfl

theorem resolveRefinementPartsFrom_cons
    (resolves : resolveRefinementPartsFrom client request seen cursor (input :: inputs) =
      .ok parts) : ∃ asset rest, Accepts client request seen cursor input asset ∧
      resolveRefinementPartsFrom client request (input.assetId :: seen)
        (double (input.providerInputStartMs + pcmDurationMs (asset.size - wavHeaderBytes)))
        inputs = .ok rest ∧
      parts = resolvedPart cursor input asset :: rest := by
  rw [resolveRefinementPartsFrom] at resolves
  cases first : resolveRefinementPart client request seen cursor input with
  | error message =>
    rw [first] at resolves
    cases resolves
  | ok part =>
    rw [first] at resolves
    rcases resolveRefinementPart_eq_ok_iff.mp first with ⟨asset, accepts, rfl⟩
    simp only [bind, Except.bind] at resolves
    split at resolves
    · cases resolves
    · next rest found =>
      cases resolves
      exact ⟨asset, rest, accepts, found, rfl⟩

/-- The parts that follow the audio in front of them, with the silence that the
provider start of each of them leaves. -/
inductive Spaced : Int → List ResolvedPart → Prop
  | nil {front : Int} : Spaced front []
  | cons {front : Int} {part : ResolvedPart} {rest : List ResolvedPart} :
      part.silenceBeforeBytes = 32 * part.input.providerInputStartMs - front →
      0 ≤ part.silenceBeforeBytes →
      part.dataBytes = (part.asset.file.drop wavHeaderBytes).length →
      Spaced (32 * part.input.providerInputStartMs + part.dataBytes) rest →
      Spaced front (part :: rest)

theorem Accepts.silence_nonneg (accepts : Accepts client request seen cursor input asset) :
    0 ≤ (resolvedPart cursor input asset).silenceBeforeBytes :=
  millisecondsToPcmBytes_nonneg (double_nonneg (sub_nonneg.mpr accepts.later))

@[simp]
theorem totalDataBytes_cons (part : ResolvedPart) (rest : List ResolvedPart) :
    totalDataBytes (part :: rest) =
      part.silenceBeforeBytes + part.dataBytes + totalDataBytes rest := by
  simp [totalDataBytes]

theorem totalDataBytes_nonneg
    (resolves : resolveRefinementPartsFrom client request seen cursor inputs = .ok parts) :
    0 ≤ totalDataBytes parts := by
  induction inputs generalizing seen cursor parts with
  | nil =>
    cases resolves
    exact le_refl 0
  | cons input inputs ih =>
    rcases resolveRefinementPartsFrom_cons resolves with ⟨asset, rest, accepts, after, rfl⟩
    have silence := accepts.silence_nonneg
    have others := ih after
    rw [totalDataBytes_cons]
    omega

/-- The step of the cursor: a start that is later than an almost exact cursor
leaves the exact silence, and the cursor behind the part is almost exact again. -/
theorem Accepts.spaced {rest : List ResolvedPart}
    (accepts : Accepts client request seen cursor input asset) (even : front % 2 = 0)
    (close : |cursor - front / 32| ≤ 1 / 2 ^ 20) (others : 0 ≤ totalDataBytes rest)
    (nonneg : 0 ≤ front) (fits : front + totalDataBytes (resolvedPart cursor input asset :: rest) ≤
      maxRefinementBytes) : (resolvedPart cursor input asset).silenceBeforeBytes =
        32 * input.providerInputStartMs - front ∧
      |double (input.providerInputStartMs + pcmDurationMs (asset.size - wavHeaderBytes)) -
        (32 * input.providerInputStartMs + (asset.size - wavHeaderBytes : Nat) : Int) / 32| ≤
          1 / 2 ^ 20 := by
  have silence := accepts.silence_nonneg
  rw [totalDataBytes_cons] at fits
  have data : (resolvedPart cursor input asset).dataBytes = asset.size - wavHeaderBytes := rfl
  have exact : (resolvedPart cursor input asset).silenceBeforeBytes =
      32 * input.providerInputStartMs - front := by
    apply millisecondsToPcmBytes_eq even close accepts.later
    change (resolvedPart cursor input asset).silenceBeforeBytes ≤ maxRefinementBytes
    omega
  constructor
  · exact exact
  · apply abs_cursor_sub_le <;> omega

theorem spaced_of_resolves
    (resolves : resolveRefinementPartsFrom client request seen cursor inputs = .ok parts)
    (whole : ∀ input ∈ inputs, ∀ asset,
      client.resolveAudioAsset request.meetingId input.assetId input.sourceKind = .ok asset →
      (asset.size - wavHeaderBytes) % 2 = 0) (even : front % 2 = 0) (nonneg : 0 ≤ front)
    (close : |cursor - front / 32| ≤ 1 / 2 ^ 20)
    (fits : front + totalDataBytes parts ≤ maxRefinementBytes) : Spaced front parts := by
  induction inputs generalizing seen cursor front parts with
  | nil =>
    cases resolves
    exact .nil
  | cons input inputs ih =>
    rcases resolveRefinementPartsFrom_cons resolves with ⟨asset, rest, accepts, after, rfl⟩
    have silence := accepts.silence_nonneg
    have others := totalDataBytes_nonneg after
    rcases accepts.spaced even close others nonneg fits with ⟨exact, closeAgain⟩
    have wholeData := whole input mem_cons_self asset accepts.resolved
    rw [totalDataBytes_cons] at fits
    have data : (resolvedPart cursor input asset).dataBytes = asset.size - wavHeaderBytes := rfl
    apply Spaced.cons exact silence
    · rw [data, asset.size_eq, length_drop]
      rfl
    · apply ih after
      · intro other member
        exact whole other (mem_cons_of_mem _ member)
      · omega
      · change 0 ≤ 32 * input.providerInputStartMs + _
        omega
      · exact closeAgain
      · change 32 * input.providerInputStartMs + _ + _ ≤ _
        omega

/-- The bytes of the parts as they are streamed. -/
def partsAudio (parts : List ResolvedPart) : Bytes :=
  (parts.flatMap partChunks).flatten

@[simp]
theorem partsAudio_cons (part : ResolvedPart) (rest : List ResolvedPart) :
    partsAudio (part :: rest) = replicate part.silenceBeforeBytes.toNat 0 ++
      (part.asset.file.drop wavHeaderBytes ++ partsAudio rest) := by
  simp [partsAudio, partChunks]

theorem length_partsAudio (spaced : Spaced front parts) :
    ((partsAudio parts).length : Int) = totalDataBytes parts := by
  induction spaced with
  | nil => rfl
  | cons exact nonneg data _ ih =>
    rw [partsAudio_cons, totalDataBytes_cons, length_append, length_append, length_replicate]
    omega

/-- The data of every part stands behind what is in front of its start. -/
theorem drop_partsAudio (spaced : Spaced front parts) (member : part ∈ parts) :
    front ≤ 32 * part.input.providerInputStartMs ∧
      part.asset.file.drop wavHeaderBytes <+:
        (partsAudio parts).drop (32 * part.input.providerInputStartMs - front).toNat := by
  induction spaced with
  | nil => cases member
  | @cons front first rest exact nonneg data _ ih =>
    rw [partsAudio_cons]
    rcases mem_cons.mp member with rfl | member
    · constructor
      · omega
      · rw [← exact, drop_left' length_replicate]
        exact prefix_append _ _
    · rcases ih member with ⟨below, stands⟩
      have behind : (32 * part.input.providerInputStartMs - front).toNat =
          first.silenceBeforeBytes.toNat + ((first.asset.file.drop wavHeaderBytes).length +
            (32 * part.input.providerInputStartMs -
              (32 * first.input.providerInputStartMs + first.dataBytes)).toNat) := by
        omega
      constructor
      · omega
      · rw [behind, ← drop_drop, drop_left' length_replicate, ← drop_drop, drop_left]
        exact stands

theorem exists_part_of_resolves
    (resolves : resolveRefinementPartsFrom client request seen cursor inputs = .ok parts)
    (member : input ∈ inputs) :
    ∃ part ∈ parts, part.input = input ∧ wavHeaderBytes < part.asset.size ∧
      client.resolveAudioAsset request.meetingId input.assetId input.sourceKind =
        .ok part.asset := by
  induction inputs generalizing seen cursor parts with
  | nil => cases member
  | cons first inputs ih =>
    rcases resolveRefinementPartsFrom_cons resolves with ⟨asset, rest, accepts, after, rfl⟩
    rcases mem_cons.mp member with rfl | member
    · exact ⟨resolvedPart cursor input asset, mem_cons_self, rfl, accepts.nonempty,
        accepts.resolved⟩
    · rcases ih after member with ⟨part, found, facts⟩
      exact ⟨part, mem_cons_of_mem _ found, facts⟩

/-- What a body that was built consists of. -/
theorem of_buildRefinementBody (builds : buildRefinementBody client request randomBytes = .ok body)
    : ∃ parts, resolveRefinementParts client request = .ok parts ∧ 0 < totalDataBytes parts ∧
      totalDataBytes parts ≤ maxRefinementBytes ∧
      ∃ header, createWavHeader (totalDataBytes parts) = .ok header ∧
        body.contentLength =
          (metadataPrefix body.boundary
            (metadata request (hashAlignedAudio client.sha256 header parts))).length +
          (audioPrefix body.boundary request.contentType).length + header.length +
          totalDataBytes parts + (bodySuffix body.boundary).length ∧
        body.stream = alignedMultipartChunks
          (metadataPrefix body.boundary
            (metadata request (hashAlignedAudio client.sha256 header parts)))
          (audioPrefix body.boundary request.contentType) header parts
          (bodySuffix body.boundary) := by
  unfold buildRefinementBody at builds
  split_ifs at builds
  cases resolves : resolveRefinementParts client request with
  | error message =>
    rw [resolves] at builds
    cases builds
  | ok parts =>
    rw [resolves] at builds
    simp only [bind, Except.bind] at builds
    split_ifs at builds with outside
    cases created : createWavHeader (totalDataBytes parts) with
    | error message =>
      rw [created] at builds
      cases builds
    | ok header =>
      rw [created] at builds
      cases builds
      rw [not_or, not_le, not_lt] at outside
      exact ⟨parts, rfl, outside.1, outside.2, header, created, rfl, rfl⟩

/-- A body that was built for files of whole samples is aligned. -/
theorem aligned_of_buildRefinementBody (whole : HasWholeSamples client request)
    (builds : buildRefinementBody client request randomBytes = .ok body) :
    ∃ audio, Aligned client request body audio := by
  rcases of_buildRefinementBody builds with
    ⟨parts, resolves, positive, fits, header, created, announced, streamed⟩
  have spaced : Spaced 0 parts := by
    apply spaced_of_resolves resolves whole (by rfl) (by rfl)
    · norm_num
    · rwa [zero_add]
  have audioLength := length_partsAudio spaced
  have headerEq : header = wavHeader (partsAudio parts).length := by
    unfold createWavHeader checkedWavHeader at created
    split_ifs at created
    cases created
    congr 1
    omega
  subst headerEq
  have sameDigest : hashAlignedAudio client.sha256 (wavHeader (partsAudio parts).length) parts =
      digest client.sha256 [wavHeader (partsAudio parts).length ++ partsAudio parts] := by
    simp [hashAlignedAudio, digest, partsAudio]
  rw [sameDigest] at announced streamed
  refine ⟨wavHeader (partsAudio parts).length ++ partsAudio parts, ?_, ?_, ?_, ?_⟩
  · rw [announced, ← length_flatten, streamed, ← audioLength]
    simp only [alignedMultipartChunks, partsAudio, flatten_append, flatten_cons,
      flatten_nil, length_append, length_nil]
    push_cast
    ring
  · rw [streamed]
    simp [alignedMultipartChunks, partsAudio]
  · constructor
    · simp
    · have small : (partsAudio parts).length < 2 ^ 32 := by
        unfold maxRefinementBytes at fits
        omega
      rw [drop_left' (length_wavHeader _), readUInt32LE_append _ (by simp [wavHeaderBytes]),
        readUInt32LE_wavHeader small]
  · intro input member
    rcases exists_part_of_resolves resolves member with ⟨part, found, rfl, nonempty, resolved⟩
    rcases drop_partsAudio spaced found with ⟨nonneg, stands⟩
    refine ⟨by omega, part.asset, resolved, ?_, ?_⟩
    · rw [← length_pos_iff, length_drop, ← part.asset.size_eq]
      omega
    · rw [← drop_drop]
      have offset : (32 * part.input.providerInputStartMs - 0).toNat =
          32 * part.input.providerInputStartMs.toNat := by omega
      rwa [offset] at stands

end Obelus.Live.RefinementAudio
