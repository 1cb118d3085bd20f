import Nightcap.Lib.Utf8

/-! The three JNI string codecs: UTF-16, standard UTF-8 and the JVM's modified UTF-8. -/
namespace Nightcap.Jni

open Utf8

abbrev JChar := UInt16

def appendUtf8CodePoint (codePoint : Nat) (output : Bytes) : Bytes :=
  if codePoint ≤ 0x7f then
    output ++ [UInt8.ofNat codePoint]
  else if codePoint ≤ 0x7ff then
    output ++ [UInt8.ofNat (0xc0 ||| (codePoint >>> 6)),
      UInt8.ofNat (0x80 ||| (codePoint &&& 0x3f))]
  else if codePoint ≤ 0xffff then
    output ++ [UInt8.ofNat (0xe0 ||| (codePoint >>> 12)),
      UInt8.ofNat (0x80 ||| ((codePoint >>> 6) &&& 0x3f)),
      UInt8.ofNat (0x80 ||| (codePoint &&& 0x3f))]
  else
    output ++ [UInt8.ofNat (0xf0 ||| (codePoint >>> 18)),
      UInt8.ofNat (0x80 ||| ((codePoint >>> 12) &&& 0x3f)),
      UInt8.ofNat (0x80 ||| ((codePoint >>> 6) &&& 0x3f)),
      UInt8.ofNat (0x80 ||| (codePoint &&& 0x3f))]

def isHighSurrogate (unit : JChar) : Prop := 0xd800 ≤ unit.toNat ∧ unit.toNat ≤ 0xdbff

def isLowSurrogate (unit : JChar) : Prop := 0xdc00 ≤ unit.toNat ∧ unit.toNat ≤ 0xdfff

instance : DecidablePred isHighSurrogate := fun _ => inferInstanceAs (Decidable (_ ∧ _))

instance : DecidablePred isLowSurrogate := fun _ => inferInstanceAs (Decidable (_ ∧ _))

/-- The code point of a unit that starts no pair: an unpaired surrogate becomes U+FFFD. -/
def loneCodePoint (unit : JChar) : Nat :=
  if 0xd800 ≤ unit.toNat ∧ unit.toNat ≤ 0xdfff then 0xfffd else unit.toNat

def pairCodePoint (high low : JChar) : Nat :=
  0x10000 + ((high.toNat - 0xd800) <<< 10) + (low.toNat - 0xdc00)

def utf16ToUtf8Loop (output : Bytes) : List JChar → Bytes
  | [] => output
  | [unit] => appendUtf8CodePoint (loneCodePoint unit) output
  | unit :: next :: rest =>
    if isHighSurrogate unit ∧ isLowSurrogate next then
      utf16ToUtf8Loop (appendUtf8CodePoint (pairCodePoint unit next) output) rest
    else
      utf16ToUtf8Loop (appendUtf8CodePoint (loneCodePoint unit) output) (next :: rest)

def utf16ToUtf8 (utf16 : List JChar) : Bytes := utf16ToUtf8Loop [] utf16

/-- One code unit of modified UTF-8: U+0000 takes two bytes, surrogates three each. -/
def appendModifiedUtf8 (output : Bytes) (unit : JChar) : Bytes :=
  let codeUnit := unit.toNat
  if codeUnit = 0 then
    output ++ [0xc0, 0x80]
  else if codeUnit ≤ 0x7f then
    output ++ [UInt8.ofNat codeUnit]
  else if codeUnit ≤ 0x7ff then
    output ++ [UInt8.ofNat (0xc0 ||| (codeUnit >>> 6)), UInt8.ofNat (0x80 ||| (codeUnit &&& 0x3f))]
  else
    output ++ [UInt8.ofNat (0xe0 ||| (codeUnit >>> 12)),
      UInt8.ofNat (0x80 ||| ((codeUnit >>> 6) &&& 0x3f)),
      UInt8.ofNat (0x80 ||| (codeUnit &&& 0x3f))]

/-- `count` is `none` for `std::string::npos`, which no vector's size exceeds. -/
def utf16ToModifiedUtf8 (utf16 : List JChar) (start : Nat) (count : Option Nat) : Bytes :=
  if start ≥ utf16.length then []
  else
    let available := utf16.length - start
    let stop := min utf16.length (start + (count.elim available (min · available)))
    ((utf16.drop start).take (stop - start)).foldl appendModifiedUtf8 []

/-- The code point at the front of `bytes` and how many bytes it takes; malformed input takes
one. -/
def decodeCodePoint (bytes : Bytes) : Nat × Nat :=
  let byte (i : Nat) : Nat := (bytes.getD i 0).toNat
  if byte 0 ≠ 0 ∧ byte 0 ≤ 0x7f then (byte 0, 1)
  else if byte 0 &&& 0xe0 = 0xc0 ∧ 1 < bytes.length ∧ byte 1 &&& 0xc0 = 0x80 then
    let codePoint := ((byte 0 &&& 0x1f) <<< 6) ||| (byte 1 &&& 0x3f)
    if codePoint = 0 ∨ codePoint ≥ 0x80 then (codePoint, 2) else (0xfffd, 1)
  else if byte 0 &&& 0xf0 = 0xe0 ∧ 2 < bytes.length ∧ byte 1 &&& 0xc0 = 0x80 ∧
      byte 2 &&& 0xc0 = 0x80 then
    let codePoint := ((byte 0 &&& 0x0f) <<< 12) ||| ((byte 1 &&& 0x3f) <<< 6) ||| (byte 2 &&& 0x3f)
    if codePoint ≥ 0x800 then (codePoint, 3) else (0xfffd, 1)
  else if byte 0 &&& 0xf8 = 0xf0 ∧ 3 < bytes.length ∧ byte 1 &&& 0xc0 = 0x80 ∧
      byte 2 &&& 0xc0 = 0x80 ∧ byte 3 &&& 0xc0 = 0x80 then
    let codePoint := ((byte 0 &&& 0x07) <<< 18) ||| ((byte 1 &&& 0x3f) <<< 12) |||
      ((byte 2 &&& 0x3f) <<< 6) ||| (byte 3 &&& 0x3f)
    if codePoint ≥ 0x10000 ∧ codePoint ≤ 0x10ffff then (codePoint, 4) else (0xfffd, 1)
  else (0xfffd, 1)

/-- The UTF-16 units of a code point. -/
def codePointUnits (codePoint : Nat) : List JChar :=
  if codePoint ≤ 0xffff then [UInt16.ofNat codePoint]
  else
    [UInt16.ofNat (0xd800 + ((codePoint - 0x10000) >>> 10)),
      UInt16.ofNat (0xdc00 + ((codePoint - 0x10000) &&& 0x3ff))]

theorem decodeCodePoint_consumed_pos (bytes : Bytes) : 0 < (decodeCodePoint bytes).2 := by
  unfold decodeCodePoint
  dsimp only
  split_ifs <;> simp

def modifiedUtf8ToUtf16Loop (output : List JChar) (bytes : Bytes) : List JChar :=
  match bytes with
  | [] => output
  | first :: rest =>
    modifiedUtf8ToUtf16Loop (output ++ codePointUnits (decodeCodePoint (first :: rest)).1)
      ((first :: rest).drop (decodeCodePoint (first :: rest)).2)
termination_by bytes.length
decreasing_by
  have hpos := decodeCodePoint_consumed_pos (first :: rest)
  simp only [List.length_drop, List.length_cons]
  omega

/-- The input is a C string: a null pointer is empty, and the first NUL ends it. -/
def modifiedUtf8ToUtf16 (input : Option Bytes) : List JChar :=
  match input with
  | none => []
  | some bytes => modifiedUtf8ToUtf16Loop [] (bytes.takeWhile (· ≠ 0))

end Nightcap.Jni
