import Obelus.Data.AddressBlocks
import Obelus.Data.Fallible
import Obelus.Data.Splits

/-!
# Textual forms of addresses

The texts that `isIP` takes for an address, and the words that they write.  An IPv6 text
has groups, at most one compression, possibly a dotted quad at its end, and possibly a
zone; letters are in either case.
-/

namespace Obelus.Live.WebEvidence

open Obelus.Data List
open Char (isDigit toLower)

/-- The number of decimal digits. -/
def decimal (digits : List Char) : Nat :=
  Nat.ofDigitChars 10 digits 0

/-- A decimal octet without leading zeros. -/
def octet? (part : List Char) : Option Nat :=
  if part ≠ [] ∧ part.all isDigit ∧ (part.length = 1 ∨ part.head? ≠ some '0') ∧
      decimal part ≤ 255 then
    some (decimal part)
  else none

/-- The octets of a dotted quad. -/
def quad? (text : List Char) : Option (List Nat) :=
  let parts := text.splitOn '.'
  if parts.length = 4 then parts.mapM octet? else none

def hexDigits : List Char :=
  ['0', '1', '2', '3', '4', '5', '6', '7', '8', '9', 'a', 'b', 'c', 'd', 'e', 'f']

def hexDigit? (c : Char) : Option Nat :=
  hexDigits.idxOf? c.toLower

/-- The value of one to four hexadecimal digits. -/
def group? (part : List Char) : Option Nat :=
  if 1 ≤ part.length ∧ part.length ≤ 4 then
    (part.mapM hexDigit?).map fun digits => digits.foldl (fun value digit => value * 16 + digit) 0
  else none

/-- The words of groups, the last of which may be a dotted quad. -/
def groupsWithQuad? : List (List Char) → Option (List Nat)
  | [] => some []
  | [last] =>
    match quad? last with
    | some [a, b, c, d] => some [a * 256 + b, c * 256 + d]
    | _ => (group? last).map fun word => [word]
  | part :: rest => do
    let word ← group? part
    let words ← groupsWithQuad? rest
    some (word :: words)

/-- The groups of one side of a compression. -/
def groupsOf (half : List Char) : List (List Char) :=
  if half = [] then [] else half.splitOn ':'

/-- The words of an IPv6 text without a zone. -/
def ipv6Words? (text : List Char) : Option (List Nat) :=
  match splitOnDouble ':' text with
  | [whole] =>
    match groupsWithQuad? (whole.splitOn ':') with
    | some words => if words.length = 8 then some words else none
    | none => none
  | [left, right] =>
    match (groupsOf left).mapM group?, groupsWithQuad? (groupsOf right) with
    | some high, some low =>
      if high.length + low.length < 8 then
        some (high ++ List.replicate (8 - high.length - low.length) 0 ++ low)
      else none
    | _, _ => none
  | _ => none

def isZoneCharacter (c : Char) : Bool :=
  c.isAlphanum || c == '-' || c == '.' || c == ':'

/-- The text in front of a zone. -/
def withoutZone (text : List Char) : List Char :=
  text.takeWhile (· != '%')

/-- No zone, or one that is not empty. -/
def hasZoneOrNone (text : List Char) : Bool :=
  match text.dropWhile (· != '%') with
  | [] => true
  | _ :: zone => !zone.isEmpty && zone.all isZoneCharacter

inductive IpAddress
  | v4 (octets : List Nat)
  | v6 (words : List Nat)
  deriving DecidableEq

/-- The address that a text writes. -/
def ipAddress? (text : String) : Option IpAddress :=
  match quad? text.toList with
  | some octets => some (.v4 octets)
  | none =>
    if hasZoneOrNone text.toList then (ipv6Words? (withoutZone text.toList)).map .v6 else none

/-- `isIP` of `node:net`. -/
def isIP (text : String) : Nat :=
  match ipAddress? text with
  | some (.v4 _) => 4
  | some (.v6 _) => 6
  | none => 0

/-! ## Lower case -/

theorem hexDigit?_toLower (c : Char) : hexDigit? c.toLower = hexDigit? c := by
  rw [hexDigit?, hexDigit?, toLower_toLower]

theorem group?_map_toLower (part : List Char) : group? (part.map toLower) = group? part := by
  have digits : (part.map toLower).mapM hexDigit? = part.mapM hexDigit? := by
    induction part with
    | nil => rfl
    | cons c rest ih => rw [map_cons, mapM_cons, mapM_cons, hexDigit?_toLower, ih]
  rw [group?, group?, digits, length_map]

theorem isDigit_iff (c : Char) : c.isDigit ↔ 48 ≤ c.toNat ∧ c.toNat ≤ 57 := by
  simp only [isDigit, Bool.and_eq_true, decide_eq_true_eq]
  exact Iff.rfl

theorem isDigit_toLower (c : Char) : c.toLower.isDigit = c.isDigit := by
  rw [Bool.eq_iff_iff, isDigit_iff, isDigit_iff, toNat_toLower]
  split <;> omega

theorem toLower_of_isDigit {c : Char} (digit : c.isDigit) : c.toLower = c := by
  rw [isDigit_iff] at digit
  rw [← Char.toNat_inj, toNat_toLower, if_neg (by omega)]

theorem octet?_map_toLower (part : List Char) : octet? (part.map toLower) = octet? part := by
  have sameTest : (part.map toLower).all isDigit = part.all isDigit := by
    rw [all_map]
    exact congrArg part.all (funext isDigit_toLower)
  by_cases digits : part.all isDigit
  · have same : part.map toLower = part :=
      map_congr_left (fun c member => toLower_of_isDigit (all_eq_true.mp digits c member))
        |>.trans (map_id part)
    rw [same]
  · rw [octet?, octet?, sameTest, if_neg fun all => digits all.2.1,
      if_neg fun all => digits all.2.1]

theorem mapM_map_toLower {read : List Char → Option Nat}
    (same : ∀ part, read (part.map toLower) = read part) (parts : List (List Char)) :
    (parts.map (·.map toLower)).mapM read = parts.mapM read := by
  induction parts with
  | nil => rfl
  | cons part rest ih => rw [map_cons, mapM_cons, mapM_cons, same, ih]

theorem quad?_map_toLower (text : List Char) : quad? (text.map toLower) = quad? text := by
  simp only [quad?, splitOn_map_toLower (show '.'.toNat < 65 by decide), length_map,
    mapM_map_toLower octet?_map_toLower]

theorem groupsWithQuad?_map_toLower (parts : List (List Char)) :
    groupsWithQuad? (parts.map (·.map toLower)) = groupsWithQuad? parts := by
  induction parts with
  | nil => rfl
  | cons part rest ih =>
    cases rest with
    | nil =>
      simp only [map_cons, map_nil, groupsWithQuad?, quad?_map_toLower, group?_map_toLower]
    | cons second rest =>
      simp only [map_cons, groupsWithQuad?, group?_map_toLower] at ih ⊢
      rw [ih]

theorem groupsOf_map_toLower (half : List Char) :
    groupsOf (half.map toLower) = (groupsOf half).map (·.map toLower) := by
  cases half with
  | nil => rfl
  | cons c rest => exact splitOn_map_toLower (by decide) (c :: rest)

theorem ipv6Words?_map_toLower (text : List Char) :
    ipv6Words? (text.map toLower) = ipv6Words? text := by
  rw [ipv6Words?, ipv6Words?, splitOnDouble_map fun _ => toLower_eq_iff (by decide)]
  match splitOnDouble ':' text with
  | [] => rfl
  | [whole] =>
    simp [splitOn_map_toLower (show ':'.toNat < 65 by decide), groupsWithQuad?_map_toLower]
  | [left, right] =>
    simp only [map_cons, map_nil, groupsOf_map_toLower,
      mapM_map_toLower group?_map_toLower, groupsWithQuad?_map_toLower]
  | _ :: _ :: _ :: _ => rfl

theorem withoutZone_map_toLower (text : List Char) :
    withoutZone (text.map toLower) = (withoutZone text).map toLower :=
  takeWhile_ne_map (fun _ => toLower_eq_iff (by decide)) text

/-! ## Bounds of words -/

variable {part : List Char} {word : Nat}

theorem octet?_le {octet : Nat} (read : octet? part = some octet) : octet ≤ 255 := by
  unfold octet? at read
  split at read
  · next valid =>
    cases read
    exact valid.2.2.2
  · cases read

theorem foldl_hexDigits_lt {digits : List Nat} (bounds : ∀ digit ∈ digits, digit < 16)
    (value : Nat) : digits.foldl (fun value digit => value * 16 + digit) value <
      (value + 1) * 16 ^ digits.length := by
  induction digits generalizing value with
  | nil => simp
  | cons digit rest ih =>
    have small : digit < 16 := bounds digit mem_cons_self
    calc (digit :: rest).foldl (fun value digit => value * 16 + digit) value
        < (value * 16 + digit + 1) * 16 ^ rest.length :=
          ih (fun other member => bounds other (.tail _ member)) _
      _ ≤ (value + 1) * 16 * 16 ^ rest.length := Nat.mul_le_mul_right _ (by omega)
      _ = (value + 1) * 16 ^ (digit :: rest).length := by
          rw [length_cons, Nat.pow_succ, Nat.mul_assoc, Nat.mul_comm 16]

theorem hexDigit?_lt {c : Char} {digit : Nat} (read : hexDigit? c = some digit) : digit < 16 :=
  (idxOf?_eq_some_iff.mp read).1

theorem group?_lt (read : group? part = some word) : word < 2 ^ 16 := by
  unfold group? at read
  split at read
  · obtain ⟨digits, readDigits, rfl⟩ := Option.map_eq_some_iff.mp read
    have bounds : ∀ digit ∈ digits, digit < 16 := by
      intro digit member
      obtain ⟨c, readDigit⟩ := exists_of_mem_of_mapM_eq_some readDigits digit member
      exact hexDigit?_lt readDigit
    have lengths := length_of_mapM_eq_some readDigits
    calc _ < (0 + 1) * 16 ^ digits.length := foldl_hexDigits_lt bounds 0
      _ ≤ (0 + 1) * 16 ^ 4 := Nat.mul_le_mul_left _ (Nat.pow_le_pow_right (by decide) (by omega))
      _ = 2 ^ 16 := by decide
  · cases read

/-! ## Groups -/

theorem dot_not_mem_of_group? (read : group? part = some word) : '.' ∉ part := by
  unfold group? at read
  split at read
  · obtain ⟨digits, readDigits, -⟩ := Option.map_eq_some_iff.mp read
    intro dot
    exact absurd (isSome_of_mapM_eq_some readDigits '.' dot) (by decide)
  · cases read

theorem quad?_eq_none_of_not_mem {text : List Char} (noDot : '.' ∉ text) : quad? text = none := by
  rw [quad?, splitOn_eq_singleton noDot]
  rfl

/-- Groups without a dotted quad are read one by one. -/
theorem groupsWithQuad?_of_mapM {parts : List (List Char)} {words : List Nat}
    (reads : parts.mapM group? = some words) : groupsWithQuad? parts = some words := by
  induction parts generalizing words with
  | nil => exact reads
  | cons part rest ih =>
    obtain ⟨word, others, readPart, readRest, rfl⟩ := mapM_cons_eq_some_iff.mp reads
    cases rest with
    | nil =>
      cases readRest
      rw [groupsWithQuad?, quad?_eq_none_of_not_mem (dot_not_mem_of_group? readPart), readPart]
      rfl
    | cons second rest =>
      rw [groupsWithQuad?, readPart, ih readRest]
      · rfl
      · exact cons_ne_nil second rest

/-!
## Public addresses

The filter of the addresses that a host resolved to, and the special-purpose blocks of the
IANA registries that are not called globally reachable.
-/

/-! ## The filter -/

/-- `Number` of an octet.  The texts that reach it have digits only. -/
def number? (text : List Char) : Option Nat :=
  if text.all isDigit then some (decimal text) else none

def isPublicIpv4 (value : List Char) : Bool :=
  match (value.splitOn '.').map number? with
  | [some a, some b, some c, some d] =>
    if a > 255 ∨ b > 255 ∨ c > 255 ∨ d > 255 then false
    else if a = 0 ∨ a = 10 ∨ a = 127 ∨ a ≥ 224 then false
    else if a = 100 ∧ b ≥ 64 ∧ b ≤ 127 then false
    else if a = 169 ∧ b = 254 then false
    else if a = 172 ∧ b ≥ 16 ∧ b ≤ 31 then false
    else if a = 192 ∧ b = 0 ∧ c = 0 then false
    else if a = 192 ∧ b = 0 ∧ c = 2 then false
    else if a = 192 ∧ b = 88 ∧ c = 99 then false
    else if a = 192 ∧ b = 168 then false
    else if a = 198 ∧ (b = 18 ∨ b = 19) then false
    else if a = 198 ∧ b = 51 ∧ c = 100 then false
    else if a = 203 ∧ b = 0 ∧ c = 113 then false
    else true
  | _ => false

def expandIpv6 (value : List Char) : Option (List Nat) :=
  let halves := splitOnDouble ':' value
  let left := groupsOf (halves.getD 0 [])
  let right := groupsOf (halves.getD 1 [])
  let missing : Int := 8 - left.length - right.length
  if halves.length > 2 then none
  else if halves.length = 1 ∧ left.length ≠ 8 then none
  else if missing < 0 ∨ (halves.length = 2 ∧ missing < 1) then none
  else
    let parts := left ++ List.replicate missing.toNat ['0'] ++ right
    if parts.length = 8 then parts.mapM group? else none

def dottedQuad (octets : List Nat) : List Char :=
  ['.'].intercalate (octets.map fun octet => (toString octet).toList)

/-- `isPublicIpAddress` of the segments of an IPv6 address. -/
def isPublicSegments (segments : List Nat) : Bool :=
  let first := segments.getD 0 0
  let second := segments.getD 1 0
  if (segments.take 5).all (· == 0) ∧ segments[5]? = some 0xffff then
    let high := segments.getD 6 0
    let low := segments.getD 7 0
    isPublicIpv4 (dottedQuad [high >>> 8, high &&& 0xff, low >>> 8, low &&& 0xff])
  else if segments.all (· == 0) ∨
      ((segments.take 7).all (· == 0) ∧ segments[7]? = some 1) then false
  else if (segments.take 6).all (· == 0) then false
  else if first &&& 0xfe00 = 0xfc00 ∨ first &&& 0xffc0 = 0xfe80 ∨
      first &&& 0xffc0 = 0xfec0 ∨ first &&& 0xff00 = 0xff00 then false
  else if first = 0x0100 ∧ (segments.drop 1).all (· == 0) then false
  else if first = 0x0064 ∧ second = 0xff9b then false
  else if first = 0x2001 ∧ second < 0x0200 then false
  else if first = 0x2001 ∧ second = 0x0db8 then false
  else if first = 0x2002 then false
  else true

/-- The quad of `::ffff:` and four parts of one to three digits. -/
def mappedQuad? : List Char → Option (List Char)
  | ':' :: ':' :: 'f' :: 'f' :: 'f' :: 'f' :: ':' :: quad =>
    let parts := quad.splitOn '.'
    if parts.length = 4 ∧ parts.all fun part =>
        1 ≤ part.length && part.length ≤ 3 && part.all isDigit then some quad
    else none
  | _ => none

def isPublicIpAddress (value : String) : Bool :=
  match isIP value with
  | 4 => isPublicIpv4 value.toList
  | 6 =>
    let normalized := withoutZone (value.toList.map toLower)
    match mappedQuad? normalized with
    | some mapped => isPublicIpv4 mapped
    | none =>
      match expandIpv6 normalized with
      | some segments => isPublicSegments segments
      | none => false
  | _ => false

/-! ## Special-purpose blocks -/

def ipv4Block (octets : List Nat) (length : Nat) : AddressBlock :=
  AddressBlock.ofPrefix 8 octets length

def ipv6Block (words : List Nat) (length : Nat) : AddressBlock :=
  AddressBlock.ofPrefix 16 words length

/-- The IPv4 blocks that the registry does not call globally reachable. -/
def specialIpv4Blocks : List AddressBlock :=
  [ipv4Block [0, 0, 0, 0] 8, ipv4Block [10, 0, 0, 0] 8, ipv4Block [100, 64, 0, 0] 10,
    ipv4Block [127, 0, 0, 0] 8, ipv4Block [169, 254, 0, 0] 16, ipv4Block [172, 16, 0, 0] 12,
    ipv4Block [192, 0, 0, 0] 24, ipv4Block [192, 0, 2, 0] 24, ipv4Block [192, 88, 99, 0] 24,
    ipv4Block [192, 168, 0, 0] 16, ipv4Block [198, 18, 0, 0] 15, ipv4Block [198, 51, 100, 0] 24,
    ipv4Block [203, 0, 113, 0] 24, ipv4Block [240, 0, 0, 0] 4,
    ipv4Block [255, 255, 255, 255] 32]

/-- The IPv4-mapped addresses. -/
def mappedIpv4Block : AddressBlock :=
  ipv6Block [0, 0, 0, 0, 0, 0xffff, 0, 0] 96

/-- The loopback and the unspecified address, translation, protocol assignments, Teredo,
benchmarking, ORCHID, documentation, 6to4, unique local and link-local addresses. -/
def filteredIpv6Blocks : List AddressBlock :=
  [ipv6Block [0, 0, 0, 0, 0, 0, 0, 1] 128, ipv6Block [0, 0, 0, 0, 0, 0, 0, 0] 128,
    ipv6Block [0x64, 0xff9b, 1, 0, 0, 0, 0, 0] 48, ipv6Block [0x2001, 0, 0, 0, 0, 0, 0, 0] 23,
    ipv6Block [0x2001, 0, 0, 0, 0, 0, 0, 0] 32, ipv6Block [0x2001, 2, 0, 0, 0, 0, 0, 0] 48,
    ipv6Block [0x2001, 0x10, 0, 0, 0, 0, 0, 0] 28,
    ipv6Block [0x2001, 0xdb8, 0, 0, 0, 0, 0, 0] 32, ipv6Block [0x2002, 0, 0, 0, 0, 0, 0, 0] 16,
    ipv6Block [0xfc00, 0, 0, 0, 0, 0, 0, 0] 7, ipv6Block [0xfe80, 0, 0, 0, 0, 0, 0, 0] 10]

/-- The discard-only and the dummy prefix, documentation and segment routing. -/
def unfilteredIpv6Blocks : List AddressBlock :=
  [ipv6Block [0x100, 0, 0, 0, 0, 0, 0, 0] 64, ipv6Block [0x100, 0, 0, 1, 0, 0, 0, 0] 64,
    ipv6Block [0x3fff, 0, 0, 0, 0, 0, 0, 0] 20, ipv6Block [0x5f00, 0, 0, 0, 0, 0, 0, 0] 16]

/-- The IPv6 blocks that the registry does not call globally reachable. -/
def specialIpv6Blocks : List AddressBlock :=
  mappedIpv4Block :: filteredIpv6Blocks ++ unfilteredIpv6Blocks

def NotReachableIpv4 (address : Nat) : Prop :=
  ∃ block ∈ specialIpv4Blocks, block.Contains address

/-- The address is in a special-purpose block that is not called globally reachable. -/
def NotGloballyReachable : IpAddress → Prop
  | .v4 octets => NotReachableIpv4 (wordsValue 8 octets)
  | .v6 words => ∃ block ∈ specialIpv6Blocks, block.Contains (wordsValue 16 words)

/-- A mapped address is as reachable as its IPv4 address.  The blocks that are not in the
filter are left out, the address `100::` excepted. -/
def Filtered : IpAddress → Prop
  | .v4 octets => NotReachableIpv4 (wordsValue 8 octets)
  | .v6 words =>
    (∃ block ∈ ipv6Block [0x100, 0, 0, 0, 0, 0, 0, 0] 128 :: filteredIpv6Blocks,
      block.Contains (wordsValue 16 words)) ∨
    (mappedIpv4Block.Contains (wordsValue 16 words) ∧
      NotReachableIpv4 (wordsValue 16 words % 2 ^ 32))

/-! ## IPv4 -/

theorem number?_of_octet? {part : List Char} {octet : Nat} (read : octet? part = some octet) :
    number? part = some octet := by
  unfold octet? at read
  split at read
  · next valid =>
    cases read
    exact if_pos valid.2.1
  · cases read

variable {text normalized quad : List Char} {a b c d e f g h : Nat} {segments : List Nat}
  {block : AddressBlock}

/-- The four octets of a quad, as they are read. -/
theorem exists_parts_of_quad? {octets : List Nat} (read : quad? text = some octets) :
    ∃ a b c d, octets = [a, b, c, d] ∧
      (text.splitOn '.').map number? = [some a, some b, some c, some d] ∧
      a ≤ 255 ∧ b ≤ 255 ∧ c ≤ 255 ∧ d ≤ 255 := by
  unfold quad? at read
  dsimp only at read
  generalize text.splitOn '.' = parts at read ⊢
  split at read
  · next four =>
    obtain ⟨p, q, r, t, rfl⟩ : ∃ p q r t, parts = [p, q, r, t] := by
      match parts, four with
      | [p, q, r, t], _ => exact ⟨p, q, r, t, rfl⟩
    obtain ⟨a, _, readA, readRest, rfl⟩ := mapM_cons_eq_some_iff.mp read
    obtain ⟨b, _, readB, readLast, rfl⟩ := mapM_cons_eq_some_iff.mp readRest
    obtain ⟨c, _, readC, readFourth, rfl⟩ := mapM_cons_eq_some_iff.mp readLast
    obtain ⟨d, _, readD, readNone, rfl⟩ := mapM_cons_eq_some_iff.mp readFourth
    cases readNone
    refine ⟨a, b, c, d, rfl, ?_, octet?_le readA, octet?_le readB, octet?_le readC, octet?_le readD⟩
    simp only [map_cons, map_nil, number?_of_octet? readA, number?_of_octet? readB,
      number?_of_octet? readC, number?_of_octet? readD]
  · cases read

/-- What the filter finds in the octets of a special block. -/
def IsSpecialIpv4 (a b c : Nat) : Prop :=
  (a = 0 ∨ a = 10 ∨ a = 127 ∨ a ≥ 224) ∨ (a = 100 ∧ b ≥ 64 ∧ b ≤ 127) ∨ (a = 169 ∧ b = 254) ∨
    (a = 172 ∧ b ≥ 16 ∧ b ≤ 31) ∨ (a = 192 ∧ b = 0 ∧ c = 0) ∨ (a = 192 ∧ b = 0 ∧ c = 2) ∨
    (a = 192 ∧ b = 88 ∧ c = 99) ∨ (a = 192 ∧ b = 168) ∨ (a = 198 ∧ (b = 18 ∨ b = 19)) ∨
    (a = 198 ∧ b = 51 ∧ c = 100) ∨ (a = 203 ∧ b = 0 ∧ c = 113)

theorem isSpecialIpv4_of_notReachable (bounds : ∀ octet ∈ [a, b, c, d], octet < 2 ^ 8)
    (notReachable : NotReachableIpv4 (wordsValue 8 [a, b, c, d])) : IsSpecialIpv4 a b c := by
  obtain ⟨block, special, contains⟩ := notReachable
  simp only [specialIpv4Blocks, mem_cons, not_mem_nil, or_false] at special
  rcases special with rfl | rfl | rfl | rfl | rfl | rfl | rfl | rfl | rfl | rfl | rfl | rfl |
    rfl | rfl | rfl
  all_goals
    have agrees := contains_ofPrefix contains rfl bounds (by decide) (by decide)
    simp only [PrefixAgrees] at agrees
    grind [IsSpecialIpv4]

/-- Four octets that pass the filter are in no special block. -/
theorem not_notReachable_of_isPublicIpv4
    (parts : (text.splitOn '.').map number? = [some a, some b, some c, some d])
    (isPublic : isPublicIpv4 text) : ¬NotReachableIpv4 (wordsValue 8 [a, b, c, d]) := by
  simp only [isPublicIpv4, parts, Bool.if_false_left, Bool.and_true, Bool.not_eq_true',
    decide_eq_false_iff_not, Bool.and_eq_true] at isPublic
  obtain ⟨bounded, checks⟩ := isPublic
  have bounds : ∀ octet ∈ [a, b, c, d], octet < 2 ^ 8 := by
    intro octet member
    simp only [mem_cons, not_mem_nil, or_false] at member
    omega
  have notSpecial : ¬IsSpecialIpv4 a b c := by
    simpa only [IsSpecialIpv4, not_or, and_assoc] using checks
  exact fun notReachable => notSpecial (isSpecialIpv4_of_notReachable bounds notReachable)

/-! ## Dotted quads of numbers -/

theorem isDigit_of_mem_toString {n : Nat} {c : Char} (member : c ∈ (toString n).toList) :
    c.isDigit := by
  rw [Nat.toString_eq_ofList_toDigits, String.toList_ofList] at member
  exact Nat.isDigit_of_mem_toDigits (by decide) (by decide) member

theorem number?_toString (n : Nat) : number? (toString n).toList = some n := by
  have digits : (toString n).toList.all isDigit :=
    all_eq_true.mpr fun c member => isDigit_of_mem_toString member
  rw [number?, if_pos digits, decimal, Nat.toString_eq_ofList_toDigits, String.toList_ofList,
    Nat.ofDigitChars_toDigits (by decide) (by decide)]

theorem numbers_dottedQuad (a b c d : Nat) :
    ((dottedQuad [a, b, c, d]).splitOn '.').map number? = [some a, some b, some c, some d] := by
  have noDot : ∀ part ∈ [a, b, c, d].map fun octet => (toString octet).toList, '.' ∉ part := by
    intro part member dot
    obtain ⟨octet, -, rfl⟩ := mem_map.mp member
    exact absurd (isDigit_of_mem_toString dot) (by decide)
  rw [dottedQuad, splitOn_intercalate '.' noDot (by simp)]
  simp only [map_cons, map_nil, number?_toString]

/-! ## IPv6 -/

/-- What the filter finds in the segments of a special block. -/
def IsSpecialIpv6 (segments : List Nat) (first second : Nat) : Prop :=
  (segments.all (· == 0) ∨ ((segments.take 7).all (· == 0) ∧ segments[7]? = some 1)) ∨
    (segments.take 6).all (· == 0) ∨
    (first &&& 0xfe00 = 0xfc00 ∨ first &&& 0xffc0 = 0xfe80 ∨
      first &&& 0xffc0 = 0xfec0 ∨ first &&& 0xff00 = 0xff00) ∨
    (first = 0x0100 ∧ (segments.drop 1).all (· == 0)) ∨ (first = 0x0064 ∧ second = 0xff9b) ∨
    (first = 0x2001 ∧ second < 0x0200) ∨ (first = 0x2001 ∧ second = 0x0db8) ∨ first = 0x2002

/-- The segments of a mapped address. -/
def IsMapped (segments : List Nat) : Prop :=
  (segments.take 5).all (· == 0) ∧ segments[5]? = some 0xffff

theorem isPublicSegments_of_not_isMapped (notMapped : ¬IsMapped segments) :
    isPublicSegments segments ↔
      ¬IsSpecialIpv6 segments (segments.getD 0 0) (segments.getD 1 0) := by
  unfold IsMapped at notMapped
  rw [isPublicSegments, if_neg notMapped]
  simp only [Bool.if_false_left, Bool.and_true, Bool.not_eq_true', decide_eq_false_iff_not,
    Bool.and_eq_true, IsSpecialIpv6, not_or]

theorem exists_segments (eight : segments.length = 8) :
    ∃ a b c d e f g h, segments = [a, b, c, d, e, f, g, h] := by
  match segments, eight with
  | [a, b, c, d, e, f, g, h], _ => exact ⟨a, b, c, d, e, f, g, h, rfl⟩

section

variable (bounds : ∀ segment ∈ [a, b, c, d, e, f, g, h], segment < 2 ^ 16)
include bounds

theorem isSpecialIpv6_of_contains
    (filtered : block ∈ ipv6Block [0x100, 0, 0, 0, 0, 0, 0, 0] 128 :: filteredIpv6Blocks)
    (contains : block.Contains (wordsValue 16 [a, b, c, d, e, f, g, h])) :
    IsSpecialIpv6 [a, b, c, d, e, f, g, h] a b := by
  have first : a < 2 ^ 16 := bounds a (by simp)
  have upper9 : a &&& 0xfe00 = a / 512 * 512 := and_highBits first (by decide : 9 ≤ 16)
  have upper6 : a &&& 0xffc0 = a / 64 * 64 := and_highBits first (by decide : 6 ≤ 16)
  simp only [filteredIpv6Blocks, mem_cons, not_mem_nil, or_false] at filtered
  rcases filtered with rfl | rfl | rfl | rfl | rfl | rfl | rfl | rfl | rfl | rfl | rfl | rfl
  all_goals
    have agrees := contains_ofPrefix contains rfl bounds (by decide) (by decide)
    simp only [PrefixAgrees, Nat.reduceLeDiff, if_true, if_false, Nat.reduceSub, Nat.reducePow,
      Nat.div_one] at agrees
  · obtain ⟨rfl, rfl, rfl, rfl, rfl, rfl, rfl, rfl⟩ := agrees
    exact .inr (.inr (.inr (.inl (by decide))))
  · obtain ⟨rfl, rfl, rfl, rfl, rfl, rfl, rfl, rfl⟩ := agrees
    exact .inl (by decide)
  · obtain ⟨rfl, rfl, rfl, rfl, rfl, rfl, rfl, rfl⟩ := agrees
    exact .inl (by decide)
  all_goals
    unfold IsSpecialIpv6
    omega

theorem isMapped_of_contains
    (contains : mappedIpv4Block.Contains (wordsValue 16 [a, b, c, d, e, f, g, h])) :
    IsMapped [a, b, c, d, e, f, g, h] := by
  have agrees := contains_ofPrefix contains rfl bounds (by decide) (by decide)
  simp only [PrefixAgrees, Nat.reduceSub, Nat.reducePow, Nat.div_one] at agrees
  obtain ⟨rfl, rfl, rfl, rfl, rfl, rfl⟩ := agrees
  exact ⟨rfl, rfl⟩

/-- The special blocks of the filter have no mapped address. -/
theorem not_contains_of_isMapped (mapped : IsMapped [a, b, c, d, e, f, g, h])
    (filtered : block ∈ ipv6Block [0x100, 0, 0, 0, 0, 0, 0, 0] 128 :: filteredIpv6Blocks) :
    ¬block.Contains (wordsValue 16 [a, b, c, d, e, f, g, h]) := by
  obtain ⟨zeros, ones⟩ := mapped
  obtain rfl : f = 0xffff := Option.some.inj ones
  have zero : a = 0 := by
    simp only [take_succ_cons, all_cons, Bool.and_eq_true, beq_iff_eq] at zeros
    exact zeros.1
  subst zero
  intro contains
  simp only [filteredIpv6Blocks, mem_cons, not_mem_nil, or_false] at filtered
  rcases filtered with rfl | rfl | rfl | rfl | rfl | rfl | rfl | rfl | rfl | rfl | rfl | rfl
  all_goals
    have agrees := contains_ofPrefix contains rfl bounds (by decide) (by decide)
    simp [PrefixAgrees] at agrees

end

/-- The low half of a number of eight words. -/
theorem low_wordsValue (highBound : g < 2 ^ 16) (lowBound : h < 2 ^ 16) :
    wordsValue 16 [a, b, c, d, e, f, g, h] % 2 ^ 32 =
      wordsValue 8 [g >>> 8, g &&& 0xff, h >>> 8, h &&& 0xff] := by
  have lowOctet (word : Nat) : word &&& 0xff = word % 256 := Nat.and_two_pow_sub_one_eq_mod word 8
  simp only [wordsValue, foldl_cons, foldl_nil, lowOctet]
  omega

theorem not_filtered_of_isPublicSegments
    (bounds : ∀ segment ∈ [a, b, c, d, e, f, g, h], segment < 2 ^ 16)
    (isPublic : isPublicSegments [a, b, c, d, e, f, g, h]) :
    ¬Filtered (.v6 [a, b, c, d, e, f, g, h]) := by
  by_cases mapped : IsMapped [a, b, c, d, e, f, g, h]
  · rintro (⟨block, filtered, contains⟩ | ⟨-, notReachable⟩)
    · exact not_contains_of_isMapped bounds mapped filtered contains
    · rw [low_wordsValue (bounds g (by simp)) (bounds h (by simp))] at notReachable
      unfold IsMapped at mapped
      rw [isPublicSegments, if_pos mapped] at isPublic
      exact not_notReachable_of_isPublicIpv4 (numbers_dottedQuad _ _ _ _) isPublic notReachable
  · have notSpecial := (isPublicSegments_of_not_isMapped mapped).mp isPublic
    rintro (⟨block, filtered, contains⟩ | ⟨contains, -⟩)
    · exact notSpecial (isSpecialIpv6_of_contains bounds filtered contains)
    · exact mapped (isMapped_of_contains bounds contains)

/-! ## Texts -/

/-- The expansion of a text gives the words that the text writes. -/
theorem ipv6Words?_of_expandIpv6 (expanded : expandIpv6 text = some segments) :
    ipv6Words? text = some segments ∧ segments.length = 8 ∧
      ∀ segment ∈ segments, segment < 2 ^ 16 := by
  have notEmpty := splitOnDouble_ne_nil ':' text
  unfold expandIpv6 at expanded
  rw [ipv6Words?]
  generalize splitOnDouble ':' text = halves at expanded notEmpty ⊢
  dsimp only at expanded
  split_ifs at expanded with few one missing eight
  have lengths := length_of_mapM_eq_some expanded
  refine ⟨?_, lengths.trans eight, fun segment member => ?_⟩
  · cases halves with
    | nil => exact absurd rfl notEmpty
    | cons left rest =>
      cases rest with
      | nil =>
        have left8 : (groupsOf left).length = 8 := by
          by_contra other
          exact one ⟨rfl, other⟩
        have parts : groupsOf left = left.splitOn ':' := by
          cases left with
          | nil => cases left8
          | cons c rest => rfl
        have none : ((8 : Int) - (groupsOf left).length - (groupsOf []).length).toNat = 0 := by
          rw [left8]
          rfl
        change (groupsOf left ++ replicate
          ((8 : Int) - (groupsOf left).length - (groupsOf []).length).toNat ['0'] ++
            []).mapM group? = some segments at expanded
        rw [none, replicate_zero, append_nil, append_nil, parts] at expanded
        simp [groupsWithQuad?_of_mapM expanded, lengths.trans eight]
      | cons right rest =>
        cases rest with
        | cons third rest => simp at few
        | nil =>
          change ¬(_ ∨ (2 = 2 ∧
            (8 : Int) - (groupsOf left).length - (groupsOf right).length < 1)) at missing
          change (groupsOf left ++ replicate
            ((8 : Int) - (groupsOf left).length - (groupsOf right).length).toNat ['0'] ++
              groupsOf right).mapM group? = some segments at expanded
          obtain ⟨_, low, readBoth, readLow, rfl⟩ := mapM_append_eq_some_iff.mp expanded
          obtain ⟨high, _, readHigh, readZeros, rfl⟩ := mapM_append_eq_some_iff.mp readBoth
          have zeroRead : group? ['0'] = some 0 := by decide
          have zeros := Option.some.inj
            (readZeros.symm.trans (mapM_replicate_of_eq_some zeroRead _))
          subst zeros
          have highLength := length_of_mapM_eq_some readHigh
          have lowLength := length_of_mapM_eq_some readLow
          have count :
              ((8 : Int) - (groupsOf left).length - (groupsOf right).length).toNat =
                8 - high.length - low.length := by omega
          simp only [readHigh, groupsWithQuad?_of_mapM readLow, count]
          exact if_pos (by omega)
  · obtain ⟨part, read⟩ := exists_of_mem_of_mapM_eq_some expanded segment member
    exact group?_lt read

theorem exists_of_mappedQuad? (mapped : mappedQuad? normalized = some quad) :
    normalized = ':' :: ':' :: 'f' :: 'f' :: 'f' :: 'f' :: ':' :: quad ∧
      (quad.splitOn '.').length = 4 ∧
      ∀ part ∈ quad.splitOn '.', part.all isDigit := by
  unfold mappedQuad? at mapped
  split at mapped
  · dsimp only at mapped
    split at mapped
    · next parts =>
      cases mapped
      refine ⟨rfl, parts.1, fun part member => ?_⟩
      have valid := all_eq_true.mp parts.2 part member
      simp only [Bool.and_eq_true] at valid
      exact valid.2
    · cases mapped
  · cases mapped

/-- The text of a mapped quad has the words of a mapped address. -/
theorem words_of_mappedQuad? {words : List Nat} (mapped : mappedQuad? normalized = some quad)
    (writes : ipv6Words? normalized = some words) :
    ∃ a b c d, words = [0, 0, 0, 0, 0, 0xffff, a * 256 + b, c * 256 + d] ∧
      (quad.splitOn '.').map number? = [some a, some b, some c, some d] ∧
      a ≤ 255 ∧ b ≤ 255 ∧ c ≤ 255 ∧ d ≤ 255 := by
  obtain ⟨rfl, four, digits⟩ := exists_of_mappedQuad? mapped
  have noColon : ':' ∉ quad := by
    intro member
    obtain ⟨part, isPart, inPart⟩ := exists_mem_splitOn member (show ':' ≠ '.' by decide)
    exact absurd (all_eq_true.mp (digits part isPart) ':' inPart) (by decide)
  have halves : splitOnDouble ':' (':' :: ':' :: 'f' :: 'f' :: 'f' :: 'f' :: ':' :: quad) =
      [[], 'f' :: 'f' :: 'f' :: 'f' :: ':' :: quad] := by
    cases quad with
    | nil => rfl
    | cons c rest =>
      have notColon : (c == ':') = false :=
        beq_eq_false_iff_ne.mpr fun same => noColon (same ▸ .head _)
      have single : splitOnDouble ':' (':' :: c :: rest) = [':' :: c :: rest] := by
        rw [splitOnDouble, notColon, splitOnDouble_of_not_mem noColon]
        rfl
      have letter (rest : List Char) := splitOnDouble_cons_of_ne (show 'f' ≠ ':' by decide) rest
      rw [splitOnDouble, letter, letter, letter, letter, single]
      rfl
  have parts : groupsOf ('f' :: 'f' :: 'f' :: 'f' :: ':' :: quad) =
      [['f', 'f', 'f', 'f'], quad] := by
    have split := splitOn_append_cons_self_of_not_mem
      (show ':' ∉ ['f', 'f', 'f', 'f'] by decide) quad
    rw [splitOn_eq_singleton noColon] at split
    exact split
  rw [ipv6Words?, halves] at writes
  dsimp only at writes
  have read : groupsWithQuad? [['f', 'f', 'f', 'f'], quad] =
      (groupsWithQuad? [quad]).map (0xffff :: ·) := by
    generalize last : groupsWithQuad? [quad] = lastWords
    rw [groupsWithQuad?, last]
    · cases lastWords <;> rfl
    · exact cons_ne_nil quad []
  rw [parts, read, groupsWithQuad?] at writes
  cases isQuad : quad? quad with
  | none =>
    have dots : '.' ∈ quad := by
      by_contra noDot
      rw [splitOn_eq_singleton noDot] at four
      cases four
    cases isGroup : group? quad with
    | none => simp [isQuad, isGroup, groupsOf] at writes
    | some word => exact absurd dots (dot_not_mem_of_group? isGroup)
  | some octets =>
    obtain ⟨a, b, c, d, rfl, numbers, bounds⟩ := exists_parts_of_quad? isQuad
    refine ⟨a, b, c, d, ?_, numbers, bounds⟩
    simpa [isQuad, groupsOf, eq_comm] using writes

/-- A mapped quad that passes the filter is not filtered. -/
theorem not_filtered_of_mappedQuad?
    (numbers : (quad.splitOn '.').map number? = [some a, some b, some c, some d])
    (bounds : a ≤ 255 ∧ b ≤ 255 ∧ c ≤ 255 ∧ d ≤ 255) (isPublic : isPublicIpv4 quad) :
    ¬Filtered (.v6 [0, 0, 0, 0, 0, 0xffff, a * 256 + b, c * 256 + d]) := by
  have wordBounds : ∀ segment ∈ [0, 0, 0, 0, 0, 0xffff, a * 256 + b, c * 256 + d],
      segment < 2 ^ 16 := by
    intro segment member
    simp only [mem_cons, not_mem_nil, or_false] at member
    omega
  rintro (⟨block, filtered, contains⟩ | ⟨-, notReachable⟩)
  · exact not_contains_of_isMapped wordBounds ⟨rfl, rfl⟩ filtered contains
  · have low : wordsValue 16 [0, 0, 0, 0, 0, 0xffff, a * 256 + b, c * 256 + d] % 2 ^ 32 =
        wordsValue 8 [a, b, c, d] := by
      simp only [wordsValue, foldl_cons, foldl_nil]
      omega
    rw [low] at notReachable
    exact not_notReachable_of_isPublicIpv4 numbers isPublic notReachable

/-- An address whose text passes the filter is not filtered. -/
theorem not_filtered_of_isPublicIpAddress {text : String} {address : IpAddress}
    (writes : ipAddress? text = some address) (isPublic : isPublicIpAddress text) :
    ¬Filtered address := by
  have version := writes
  unfold ipAddress? at writes
  split at writes
  · next octets isQuad =>
    cases writes
    simp only [isPublicIpAddress, isIP, version] at isPublic
    obtain ⟨a, b, c, d, rfl, numbers, -⟩ := exists_parts_of_quad? isQuad
    exact not_notReachable_of_isPublicIpv4 numbers isPublic
  · split at writes
    · obtain ⟨words, writesWords, rfl⟩ := Option.map_eq_some_iff.mp writes
      rw [← ipv6Words?_map_toLower, ← withoutZone_map_toLower] at writesWords
      simp only [isPublicIpAddress, isIP, version] at isPublic
      split at isPublic
      · next quad mapped =>
        obtain ⟨a, b, c, d, rfl, numbers, bounds⟩ := words_of_mappedQuad? mapped writesWords
        exact not_filtered_of_mappedQuad? numbers bounds isPublic
      · split at isPublic
        · next segments expanded =>
          obtain ⟨writesSegments, eight, bounds⟩ := ipv6Words?_of_expandIpv6 expanded
          cases Option.some.inj (writesWords.symm.trans writesSegments)
          obtain ⟨a, b, c, d, e, f, g, h, rfl⟩ := exists_segments eight
          exact not_filtered_of_isPublicSegments bounds isPublic
        · cases isPublic
    · cases writes

/-- A text that passes the filter writes an address. -/
theorem exists_address_of_isPublicIpAddress {text : String} (isPublic : isPublicIpAddress text) :
    ∃ address, ipAddress? text = some address := by
  cases writes : ipAddress? text with
  | none => simp [isPublicIpAddress, isIP, writes] at isPublic
  | some address => exact ⟨address, rfl⟩

end Obelus.Live.WebEvidence
