import Obelus.Data.Doubles
import Obelus.Live.Capture.Core
import Obelus.Live.RefinementAudio.Wav

/-!
# The refinement upload of the gateway client

`buildRefinementBody` resolves the parts of a request to audio files, puts one
WAV header before their PCM with silence in between, and streams the result as
the second part of a multipart body whose first part is the metadata.

Times of a request are integers; the client computes with them in doubles.  The
path of a resolved file stands for what the file holds.
-/

namespace Obelus.Live.RefinementAudio

open Obelus.Data.Doubles
open Obelus.Live.Capture (LiveAudioSourceKind)

structure ResolvedAudioAsset where
  file : Bytes
  size : Nat
  size_eq : size = file.length
  assetId : String
  meetingId : String
  sourceKind : LiveAudioSourceKind
  checksumSha256 : String
  timelineStartMs : Number
  timelineEndMs : Number

structure RefinementInputPart where
  assetId : String
  sourceKind : LiveAudioSourceKind
  checksumSha256 : String
  timelineStartMs : Int
  timelineEndMs : Int
  providerInputStartMs : Int
  providerInputEndMs : Int

structure RefinementSubmitRequest where
  meetingId : String
  idempotencyKey : String
  sourceTranscriptVersionId : String
  manifestChecksum : String
  contentType : String
  knownSpeakerCount : Option Nat
  parts : List RefinementInputPart

structure ResolvedPart where
  input : RefinementInputPart
  asset : ResolvedAudioAsset
  dataBytes : Nat
  silenceBeforeBytes : Int

/-- The digest and the option of the client that its audio depends on. -/
structure GatewayClient where
  sha256 : Bytes → Bytes
  resolveAudioAsset : String → String → LiveAudioSourceKind → Except String ResolvedAudioAsset

def maxRefinementBytes : Int := 1024 * 1024 * 1024

/-- How many milliseconds of 16-bit mono PCM at 16 kHz so many bytes are. -/
def pcmDurationMs (dataBytes : Nat) : Number :=
  double (double (dataBytes / (wavSampleRate * 2)) * 1000)

def millisecondsToPcmBytes (milliseconds : Number) : Int :=
  let samples := roundHalfUp (double (double (milliseconds / 1000) * wavSampleRate))
  samples * 2

def createWavHeader (dataBytes : Int) : Except String Bytes :=
  checkedWavHeader "Refinement WAV is too large" dataBytes

def assertWavAsset (sha256 : Bytes → Bytes) (asset : ResolvedAudioAsset)
    (expectedChecksum : String) : Except String Unit :=
  if !hasWavHeader asset.file asset.size then
    .error "Refinement audio asset has an invalid WAV format"
  else if digest sha256 (readStream asset.file) ≠ expectedChecksum.toLower then
    .error "Refinement audio asset checksum does not match its manifest"
  else
    .ok ()

/-- One pass of the loop in `resolveRefinementParts`, which it leaves with an
error or with the part it pushes. -/
def resolveRefinementPart (client : GatewayClient) (request : RefinementSubmitRequest)
    (seenAssetIds : List String) (providerCursorMs : Number) (input : RefinementInputPart) :
    Except String ResolvedPart :=
  if input.sourceKind ≠ .mixed then
    .error "Refinement accepts only the controlled aligned mix"
  else if input.assetId ∈ seenAssetIds then
    .error "Refinement audio assets must be unique"
  else if (input.providerInputStartMs : Number) < providerCursorMs then
    .error "Refinement audio parts overlap"
  else do
    let asset ← client.resolveAudioAsset request.meetingId input.assetId input.sourceKind
    if asset.meetingId ≠ request.meetingId ∨ asset.assetId ≠ input.assetId ∨
        asset.sourceKind ≠ input.sourceKind ∨ asset.checksumSha256 ≠ input.checksumSha256 ∨
        asset.timelineStartMs ≠ input.timelineStartMs ∨
        asset.timelineEndMs ≠ input.timelineEndMs ∨
        input.providerInputStartMs ≠ asset.timelineStartMs ∨
        input.providerInputEndMs ≠ asset.timelineEndMs then
      .error "Refinement manifest does not match the controlled audio metadata"
    else if asset.size ≤ wavHeaderBytes then
      .error "Refinement audio asset is empty"
    else do
      assertWavAsset client.sha256 asset input.checksumSha256
      let dataBytes := asset.size - wavHeaderBytes
      let expectedDurationMs := pcmDurationMs dataBytes
      let mappedDurationMs := double (input.providerInputEndMs - input.providerInputStartMs)
      if 250 < |double (mappedDurationMs - expectedDurationMs)| then
        .error "Refinement audio mapping does not match the controlled asset"
      else
        .ok { input, asset, dataBytes,
              silenceBeforeBytes :=
                millisecondsToPcmBytes (double (input.providerInputStartMs - providerCursorMs)) }

def resolveRefinementPartsFrom (client : GatewayClient) (request : RefinementSubmitRequest) :
    List String → Number → List RefinementInputPart → Except String (List ResolvedPart)
  | _, _, [] => .ok []
  | seenAssetIds, providerCursorMs, input :: rest => do
    let part ← resolveRefinementPart client request seenAssetIds providerCursorMs input
    let providerCursorMs := double (input.providerInputStartMs + pcmDurationMs part.dataBytes)
    let resolved ← resolveRefinementPartsFrom client request (input.assetId :: seenAssetIds)
      providerCursorMs rest
    .ok (part :: resolved)

def resolveRefinementParts (client : GatewayClient) (request : RefinementSubmitRequest) :
    Except String (List ResolvedPart) :=
  resolveRefinementPartsFrom client request [] 0 request.parts

def utf8 (text : String) : Bytes :=
  text.toUTF8.data.toList

def escapeChar (c : Char) : List Char :=
  if c = '"' then ['\\', '"']
  else if c = '\\' then ['\\', '\\']
  else if c = '\x08' then ['\\', 'b']
  else if c = '\x0c' then ['\\', 'f']
  else if c = '\n' then ['\\', 'n']
  else if c = '\r' then ['\\', 'r']
  else if c = '\t' then ['\\', 't']
  else if c.toNat < 32 then ['\\', 'u', '0', '0', hexDigit (c.toNat / 16), hexDigit (c.toNat % 16)]
  else [c]

def jsonString (text : String) : String :=
  "\"" ++ String.ofList (text.toList.flatMap escapeChar) ++ "\""

def jsonObject (fields : List (String × String)) : String :=
  "\x7b" ++ ",".intercalate (fields.map fun field => jsonString field.1 ++ ":" ++ field.2) ++ "\x7d"

def jsonArray (elements : List String) : String :=
  "[" ++ ",".intercalate elements ++ "]"

def sourceKindName : LiveAudioSourceKind → String
  | .microphone => "microphone"
  | .system => "system"
  | .mixed => "mixed"

def partMetadata (part : RefinementInputPart) : String :=
  jsonObject [
    ("assetId", jsonString part.assetId),
    ("sourceKind", jsonString (sourceKindName part.sourceKind)),
    ("checksum", jsonString part.checksumSha256),
    ("timelineStartMs", toString part.timelineStartMs),
    ("timelineEndMs", toString part.timelineEndMs),
    ("providerStartMs", toString part.providerInputStartMs),
    ("providerEndMs", toString part.providerInputEndMs)]

/-- The metadata of a request, with the checksum of the aligned audio. -/
def metadata (request : RefinementSubmitRequest) (audioChecksum : String) : String :=
  jsonObject ([
    ("meetingId", jsonString request.meetingId),
    ("idempotencyKey", jsonString request.idempotencyKey),
    ("sourceTranscriptVersionId", jsonString request.sourceTranscriptVersionId),
    ("manifestChecksum", jsonString request.manifestChecksum),
    ("audioChecksum", jsonString audioChecksum),
    ("contentType", jsonString request.contentType)] ++
    (request.knownSpeakerCount.map fun count => ("knownSpeakerCount", toString count)).toList ++
    [("parts", jsonArray (request.parts.map partMetadata))])

def metadataPrefix (boundary metadata : String) : Bytes :=
  utf8 ("--" ++ boundary ++ "\r\nContent-Disposition: form-data; name=\"metadata\"\r\n" ++
    "Content-Type: application/json\r\n\r\n" ++ metadata ++ "\r\n")

def audioPrefix (boundary contentType : String) : Bytes :=
  utf8 ("--" ++ boundary ++
    "\r\nContent-Disposition: form-data; name=\"audio\"; filename=\"aligned.wav\"\r\n" ++
    "Content-Type: " ++ contentType ++ "\r\n\r\n")

def bodySuffix (boundary : String) : Bytes :=
  utf8 ("\r\n--" ++ boundary ++ "--\r\n")

/-- The chunks of one part: the silence before it and the PCM of its file. -/
def partChunks (part : ResolvedPart) : List Bytes :=
  silenceChunks part.silenceBeforeBytes.toNat ++ readStream (part.asset.file.drop wavHeaderBytes)

def hashAlignedAudio (sha256 : Bytes → Bytes) (header : Bytes) (parts : List ResolvedPart) :
    String :=
  digest sha256 (header :: parts.flatMap partChunks)

def alignedMultipartChunks (metadataPrefix audioPrefix wavHeader : Bytes)
    (parts : List ResolvedPart) (suffix : Bytes) : List Bytes :=
  [metadataPrefix, audioPrefix, wavHeader] ++ parts.flatMap partChunks ++ [suffix]

structure RefinementBody where
  boundary : String
  contentLength : Int
  stream : List Bytes

def manifestText (parts : List RefinementInputPart) : String :=
  "|".intercalate (parts.map fun part =>
    part.assetId ++ ":" ++ part.checksumSha256 ++ ":" ++ toString part.timelineStartMs ++ ":" ++
      toString part.timelineEndMs)

/-- The bytes of PCM that the parts come to with the silence between them. -/
def totalDataBytes (parts : List ResolvedPart) : Int :=
  (parts.map fun part => (part.silenceBeforeBytes + part.dataBytes : Int)).sum

/-- `randomBytes` are the ones that the boundary is made of. -/
def buildRefinementBody (client : GatewayClient) (request : RefinementSubmitRequest)
    (randomBytes : Bytes) : Except String RefinementBody :=
  if digest client.sha256 [utf8 (manifestText request.parts)] ≠
      request.manifestChecksum.toLower then
    .error "Refinement manifest checksum does not match its controlled assets"
  else do
    let parts ← resolveRefinementParts client request
    let totalDataBytes := totalDataBytes parts
    if totalDataBytes ≤ 0 ∨ maxRefinementBytes < totalDataBytes then
      .error "Refinement audio is outside the allowed size"
    else do
      let wavHeader ← createWavHeader totalDataBytes
      let audioChecksum := hashAlignedAudio client.sha256 wavHeader parts
      let boundary := "obelus-" ++ hex randomBytes
      let metadataPrefix := metadataPrefix boundary (metadata request audioChecksum)
      let audioPrefix := audioPrefix boundary request.contentType
      let suffix := bodySuffix boundary
      .ok { boundary,
            contentLength := metadataPrefix.length + audioPrefix.length + wavHeader.length +
              totalDataBytes + suffix.length,
            stream := alignedMultipartChunks metadataPrefix audioPrefix wavHeader parts suffix }

end Obelus.Live.RefinementAudio
