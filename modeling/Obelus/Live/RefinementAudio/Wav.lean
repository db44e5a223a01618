import Mathlib.Algebra.Group.Nat.Defs
import Mathlib.Data.List.Basic

/-!
# WAV files

The header that the audio writer and the gateway client put before the PCM of a
file, what they require of the header of a file they read, and the chunks in
which silence and files are streamed.

A digest is computed over all that was passed to a hash, so `digest` takes the
list of the updates.
-/

namespace Obelus.Live.RefinementAudio

open List

abbrev Bytes := List UInt8

def wavHeaderBytes : Nat := 44

def wavSampleRate : Nat := 16000

/-- The bytes of a number from the lowest to the highest. -/
def littleEndian : Nat → Nat → Bytes
  | 0, _ => []
  | width + 1, value => UInt8.ofNat value :: littleEndian width (value / 256)

def fromLittleEndian : Bytes → Nat
  | [] => 0
  | byte :: rest => byte.toNat + 256 * fromLittleEndian rest

@[simp]
theorem length_littleEndian (width value : Nat) : (littleEndian width value).length = width := by
  induction width generalizing value with
  | zero => rfl
  | succ width ih => simp [littleEndian, ih]

theorem fromLittleEndian_littleEndian {width value : Nat} (fits : value < 256 ^ width) :
    fromLittleEndian (littleEndian width value) = value := by
  induction width generalizing value with
  | zero =>
    rw [Nat.pow_zero, Nat.lt_one_iff] at fits
    rw [fits, littleEndian, fromLittleEndian]
  | succ width ih =>
    have rest : value / 256 < 256 ^ width :=
      Nat.div_lt_of_lt_mul (by rwa [Nat.pow_succ, Nat.mul_comm] at fits)
    simp only [littleEndian, fromLittleEndian, ih rest, UInt8.toNat_ofNat']
    omega

def readUInt16LE (bytes : Bytes) (offset : Nat) : Nat :=
  fromLittleEndian ((bytes.drop offset).take 2)

def readUInt32LE (bytes : Bytes) (offset : Nat) : Nat :=
  fromLittleEndian ((bytes.drop offset).take 4)

def asciiBytes (text : List Char) : Bytes :=
  text.map fun c => UInt8.ofNat c.toNat

/-- Decoding as ASCII clears the highest bit of every byte. -/
def readAscii (bytes : Bytes) (start stop : Nat) : Bytes :=
  ((bytes.take stop).drop start).map (· &&& 0x7F)

/-- The 44 bytes that stand before so many bytes of PCM. -/
def wavHeader (dataBytes : Nat) : Bytes :=
  asciiBytes ['R', 'I', 'F', 'F'] ++ (littleEndian 4 (36 + dataBytes) ++
    (asciiBytes ['W', 'A', 'V', 'E'] ++ (asciiBytes ['f', 'm', 't', ' '] ++
      (littleEndian 4 16 ++ (littleEndian 2 1 ++ (littleEndian 2 1 ++
        (littleEndian 4 wavSampleRate ++ (littleEndian 4 (wavSampleRate * 2) ++
          (littleEndian 2 2 ++ (littleEndian 2 16 ++ (asciiBytes ['d', 'a', 't', 'a'] ++
            littleEndian 4 dataBytes)))))))))))

/-- `createWavHeader` of either module: they differ in the error. -/
def checkedWavHeader (tooLarge : String) (dataBytes : Int) : Except String Bytes :=
  if dataBytes < 0 || 0xffffffff - 36 < dataBytes then
    .error tooLarge
  else
    .ok (wavHeader dataBytes.toNat)

/-- What a file must begin with to be read as 16-bit mono PCM at 16 kHz whose
data fills the rest of the file. -/
def hasWavHeader (file : Bytes) (size : Nat) : Bool :=
  let header := file.take wavHeaderBytes
  header.length == wavHeaderBytes &&
    readAscii header 0 4 == asciiBytes ['R', 'I', 'F', 'F'] &&
    readAscii header 8 12 == asciiBytes ['W', 'A', 'V', 'E'] &&
    readUInt16LE header 20 == 1 &&
    readUInt16LE header 22 == 1 &&
    readUInt32LE header 24 == wavSampleRate &&
    readUInt16LE header 34 == 16 &&
    readUInt32LE header 40 == size - wavHeaderBytes

@[simp]
theorem length_wavHeader (dataBytes : Nat) : (wavHeader dataBytes).length = wavHeaderBytes := by
  simp [wavHeader, asciiBytes, wavHeaderBytes]

theorem readUInt32LE_wavHeader {dataBytes : Nat} (fits : dataBytes < 2 ^ 32) :
    readUInt32LE (wavHeader dataBytes) 40 = dataBytes := by
  have field : ((wavHeader dataBytes).drop 40).take 4 = littleEndian 4 dataBytes := rfl
  rw [readUInt32LE, field, fromLittleEndian_littleEndian (by omega)]

theorem readUInt32LE_append {bytes : Bytes} (rest : Bytes) {offset : Nat}
    (inside : offset + 4 ≤ bytes.length) :
    readUInt32LE (bytes ++ rest) offset = readUInt32LE bytes offset := by
  unfold readUInt32LE
  rw [drop_append_of_le_length (by omega), take_append_of_le_length (by rw [length_drop]; omega)]

/-- What `createWavHeader` writes is accepted before data of that length. -/
theorem hasWavHeader_append (pcm : Bytes) (fits : pcm.length < 2 ^ 32) :
    hasWavHeader (wavHeader pcm.length ++ pcm) (wavHeader pcm.length ++ pcm).length = true := by
  have header : (wavHeader pcm.length ++ pcm).take wavHeaderBytes = wavHeader pcm.length := by
    rw [take_append_of_le_length (by simp), take_of_length_le (by simp)]
  simp only [hasWavHeader, header, length_wavHeader, beq_self_eq_true, readUInt32LE_wavHeader fits,
    length_append, Nat.add_sub_cancel_left]
  rfl

def hexDigit (value : Nat) : Char :=
  if value < 10 then Char.ofNat (48 + value) else Char.ofNat (87 + value)

/-- The digits of a buffer in lower case. -/
def hex (bytes : Bytes) : String :=
  String.ofList (bytes.flatMap fun byte =>
    [hexDigit (byte.toNat / 16), hexDigit (byte.toNat % 16)])

/-- The digest in hexadecimal digits of what a hash was updated with. -/
def digest (sha256 : Bytes → Bytes) (updates : List Bytes) : String :=
  hex (sha256 updates.flatten)

theorem toLower_hexDigit {value : Nat} (small : value < 16) :
    (hexDigit value).toLower = hexDigit value := by
  revert value
  decide

/-- The digits are in lower case already. -/
theorem toLower_hex (bytes : Bytes) : (hex bytes).toLower = hex bytes := by
  apply String.toList_inj.mp
  have lower : (hex bytes).toLower = (hex bytes).map Char.toLower := rfl
  rw [lower, String.toList_map, hex, String.toList_ofList]
  conv_rhs => rw [← map_id (flatMap _ _)]
  apply map_congr_left
  intro digit member
  rcases mem_flatMap.mp member with ⟨byte, -, member⟩
  have bound := byte.toNat_lt
  rcases mem_pair.mp member with rfl | rfl
  · exact toLower_hexDigit (by omega)
  · exact toLower_hexDigit (by omega)

def chunkBytes : Nat := 64 * 1024

/-- Silence of a length in bytes, chunk by chunk. -/
def silenceChunks (remaining : Nat) : List Bytes :=
  if remaining = 0 then
    []
  else
    List.replicate (min remaining chunkBytes) 0 :: silenceChunks (remaining - chunkBytes)
termination_by remaining
decreasing_by
  unfold chunkBytes
  omega

/-- The chunks in which a stream reads what a file holds from a position on. -/
def readStream (rest : Bytes) : List Bytes :=
  if rest = [] then
    []
  else
    rest.take chunkBytes :: readStream (rest.drop chunkBytes)
termination_by rest.length
decreasing_by
  have := length_pos_iff.mpr ‹_›
  simp only [length_drop, chunkBytes]
  omega

@[simp]
theorem flatten_silenceChunks (remaining : Nat) :
    (silenceChunks remaining).flatten = replicate remaining 0 := by
  induction remaining using silenceChunks.induct with
  | case1 => simp [silenceChunks]
  | case2 remaining positive ih =>
    have whole : min remaining chunkBytes + (remaining - chunkBytes) = remaining := by omega
    rw [silenceChunks, if_neg positive, flatten_cons, ih, replicate_append_replicate, whole]

@[simp]
theorem flatten_readStream (rest : Bytes) : (readStream rest).flatten = rest := by
  induction rest using readStream.induct with
  | case1 => simp [readStream]
  | case2 rest nonempty ih =>
    rw [readStream, if_neg nonempty, flatten_cons, ih, take_append_drop]

end Obelus.Live.RefinementAudio
