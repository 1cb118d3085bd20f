import Nightcap.Lib.Ascii
import Nightcap.Lib.Checked

/-! `ParseAndroidManifest`: the identity of an application, read from its binary XML. -/
namespace Nightcap.Update.AndroidManifest

open Checked Utf8

def kStringPoolChunk : Nat := 0x0001
def kXmlChunk : Nat := 0x0003
def kStartElementChunk : Nat := 0x0102
def kUtf8Flag : Nat := 0x00000100
def kNoIndex : Nat := 0xffffffff
def kTypeString : Nat := 0x03

structure Chunk where
  type : Nat
  headerSize : Nat
  size : Nat
deriving DecidableEq

/-- The bytes of a chunk at an offset. -/
def Chunk.range (chunk : Chunk) (offset : Nat) : View := ⟨offset, chunk.size⟩

structure AndroidManifestIdentity where
  packageName : Bytes := []
  versionName : Bytes := []
  splitName : Bytes := []
  versionCode : Nat := 0
  error : String := ""
deriving DecidableEq

/-- What is returned with an error before anything has been read. -/
def failed (message : String) : AndroidManifestIdentity := { error := message }

section

variable {ε : Type} (mem : Bytes)

/-- The whole input. -/
def whole : View := ⟨0, mem.length⟩

def u16 (offset : Nat) : Comp ε (Option Nat) :=
  if offset > mem.length then pure none
  else do
    let left ← sub mem.length offset
    if left < 2 then pure none
    else do
      let value ← u16At mem (whole mem) offset
      pure (some value)

def u32 (offset : Nat) : Comp ε (Option Nat) :=
  if offset > mem.length then pure none
  else do
    let left ← sub mem.length offset
    if left < 4 then pure none
    else do
      let value ← u32At mem (whole mem) offset
      pure (some value)

def slice (offset size : Nat) : Comp ε View :=
  if offset > mem.length then pure ⟨0, 0⟩
  else do
    let left ← sub mem.length offset
    if size > left then pure ⟨0, 0⟩ else pure ⟨offset, size⟩

/-- A read that belongs to a chunk. -/
def u16In (range : View) (offset : Nat) : Comp ε (Option Nat) := do
  inside range offset 2
  u16 mem offset

def u32In (range : View) (offset : Nat) : Comp ε (Option Nat) := do
  inside range offset 4
  u32 mem offset

def readChunk (offset : Nat) : Comp ε (Option Chunk) := do
  match ← u16 mem offset with
  | none => pure none
  | some type => do
    let headerAt ← add 64 offset 2
    match ← u16 mem headerAt with
    | none => pure none
    | some headerSize => do
      let sizeAt ← add 64 offset 4
      match ← u32 mem sizeAt with
      | none => pure none
      | some size =>
        if headerSize < 8 ∨ size < headerSize ∨ offset > mem.length then pure none
        else do
          let left ← sub mem.length offset
          if size > left then pure none
          else do
            inside ⟨offset, size⟩ offset 8
            pure (some ⟨type, headerSize, size⟩)

/-! Strings. -/

/-- The length at a cursor, and the cursor behind it. -/
def readUtf8Length (storage : View) (cursor : Nat) : Comp ε (Option (Nat × Nat)) :=
  if cursor ≥ storage.size then pure none
  else do
    let first ← byteAt mem storage cursor
    let next ← add 64 cursor 1
    if first &&& 0x80 = 0 then pure (some (first, next))
    else if next ≥ storage.size then pure none
    else do
      let second ← byteAt mem storage next
      let behind ← add 64 next 1
      pure (some ((first &&& 0x7f) <<< 8 ||| second, behind))

def readUtf16Length (storage : View) (cursor : Nat) : Comp ε (Option (Nat × Nat)) :=
  if cursor > storage.size then pure none
  else do
    let left ← sub storage.size cursor
    if left < 2 then pure none
    else do
      let first ← u16At mem storage cursor
      let next ← add 64 cursor 2
      if first &&& 0x8000 = 0 then pure (some (first, next))
      else if next > storage.size then pure none
      else do
        let left ← sub storage.size next
        if left < 2 then pure none
        else do
          let second ← u16At mem storage next
          let behind ← add 64 next 2
          pure (some ((first &&& 0x7fff) <<< 16 ||| second, behind))

def appendUtf8 (point : Nat) : Bytes :=
  if point ≤ 0x7f then [UInt8.ofNat point]
  else if point ≤ 0x7ff then
    [UInt8.ofNat (0xc0 ||| point >>> 6), UInt8.ofNat (0x80 ||| (point &&& 0x3f))]
  else
    [UInt8.ofNat (0xe0 ||| point >>> 12), UInt8.ofNat (0x80 ||| (point >>> 6 &&& 0x3f)),
      UInt8.ofNat (0x80 ||| (point &&& 0x3f))]

def utf8Malformed : String := "Android UTF-8 string is malformed"

def readUtf8String (storage : View) : Comp String Bytes := do
  let (_, first) ← require (readUtf8Length mem storage 0) utf8Malformed
  let (byteLength, cursor) ← require (readUtf8Length mem storage first) utf8Malformed
  if cursor > storage.size then refuse utf8Malformed
  else do
    let left ← sub storage.size cursor
    if byteLength ≥ left then refuse utf8Malformed
    else do
      let behind ← add 64 cursor byteLength
      let terminator ← byteAt mem storage behind
      if terminator ≠ 0 then refuse utf8Malformed else bytesAt mem storage cursor byteLength

/-- One character of a UTF-16 string. -/
def readUtf16Unit (storage : View) (cursor : Nat) (value : Bytes) (character : Nat) :
    Comp String Bytes := do
  let skipped ← mul 64 character 2
  let position ← add 64 cursor skipped
  let point ← u16At mem storage position
  if point ≥ 0xd800 ∧ point ≤ 0xdfff then
    refuse "Android manifest contains unsupported UTF-16 surrogate"
  else pure (value ++ appendUtf8 point)

def readUtf16String (storage : View) : Comp String Bytes := do
  let (characterLength, cursor) ←
    require (readUtf16Length mem storage 0) "Android UTF-16 string is malformed"
  let left ← sub storage.size cursor
  if characterLength > left / 2 then refuse "Android UTF-16 string is malformed"
  else (List.range characterLength).foldlM (readUtf16Unit mem storage cursor) []

def readString (isUtf8 : Bool) (storage : View) : Comp String Bytes :=
  if isUtf8 then readUtf8String mem storage else readUtf16String mem storage

def offsetInvalid : String := "Android string pool offset is invalid"

/-- One string of the pool, put behind those before it. -/
def readPoolString (chunkOffset : Nat) (chunk : Chunk) (isUtf8 : Bool) (stringsStart : Nat)
    (strings : List Bytes) (index : Nat) : Comp String (List Bytes) := do
  let header ← add 64 chunkOffset chunk.headerSize
  let row ← mul 32 index 4
  let offsetAt ← add 64 header row
  let relative ← require (u32In mem (chunk.range chunkOffset) offsetAt) offsetInvalid
  let room ← sub chunk.size stringsStart
  if relative ≥ room then refuse offsetInvalid
  else do
    let first ← add 64 chunkOffset stringsStart
    let start ← add 64 first relative
    let left ← sub room relative
    inside (chunk.range chunkOffset) start left
    let storage ← slice mem start left
    let value ← readString mem isUtf8 storage
    pure (strings ++ [value])

def poolInvalid : String := "Android string pool header is invalid"

def parseStringPool (chunkOffset : Nat) (chunk : Chunk) : Comp String (List Bytes) :=
  if chunk.headerSize < 28 then refuse poolInvalid
  else do
    let countAt ← add 64 chunkOffset 8
    let count ← require (u32In mem (chunk.range chunkOffset) countAt) poolInvalid
    if count > 1000000 then refuse poolInvalid
    else do
      let flagsAt ← add 64 chunkOffset 16
      let flags ← require (u32In mem (chunk.range chunkOffset) flagsAt) poolInvalid
      let startAt ← add 64 chunkOffset 20
      let stringsStart ← require (u32In mem (chunk.range chunkOffset) startAt) poolInvalid
      if stringsStart ≥ chunk.size then refuse poolInvalid
      else do
        let rows ← mul 64 count 4
        let body ← sub chunk.size chunk.headerSize
        if rows > body then refuse poolInvalid
        else
          (List.range count).foldlM
            (readPoolString mem chunkOffset chunk (flags &&& kUtf8Flag != 0) stringsStart) []

def poolString (strings : List Bytes) (index : Nat) : Option Bytes :=
  if index = kNoIndex then none else strings[index]?

/-! Elements. -/

/-- What an attribute sets. -/
def setAttribute (identity : AndroidManifestIdentity) (name : Bytes) (value : Option Bytes)
    (dataType typedData : Nat) : AndroidManifestIdentity :=
  if name = Ascii.bytes "package" ∧ value.isSome then
    { identity with packageName := value.getD [] }
  else if name = Ascii.bytes "versionName" ∧ value.isSome then
    { identity with versionName := value.getD [] }
  else if name = Ascii.bytes "split" ∧ value.isSome then
    { identity with splitName := value.getD [] }
  else if name = Ascii.bytes "versionCode" ∧ dataType ≥ 0x10 ∧ dataType ≤ 0x1f then
    { identity with versionCode := typedData }
  else identity

def readAttribute (range : View) (strings : List Bytes) (attributes attributeSize : Nat)
    (identity : AndroidManifestIdentity) (index : Nat) :
    Comp AndroidManifestIdentity AndroidManifestIdentity := do
  let truncated := { identity with error := "Android manifest attribute is truncated" }
  -- Both factors are promoted to `int`.
  let skipped ← mul 31 index attributeSize
  let attributeAt ← add 64 attributes skipped
  let nameAt ← add 64 attributeAt 4
  let nameIndex ← require (u32In mem range nameAt) truncated
  let rawAt ← add 64 attributeAt 8
  let rawIndex ← require (u32In mem range rawAt) truncated
  let dataAt ← add 64 attributeAt 16
  let typedData ← require (u32In mem range dataAt) truncated
  match poolString strings nameIndex with
  | none => pure identity
  | some name => do
    let typeAt ← add 64 attributeAt 15
    inside range typeAt 1
    let dataType ← byteAt mem (whole mem) typeAt
    let raw := poolString strings rawIndex
    let value := if raw = none ∧ dataType = kTypeString then poolString strings typedData else raw
    pure (setAttribute identity name value dataType typedData)

/-- The identity of the element, if it is the manifest's. -/
def readElement (offset : Nat) (chunk : Chunk) (strings : List Bytes) :
    Comp AndroidManifestIdentity (Option AndroidManifestIdentity) := do
  let range := chunk.range offset
  let malformed := failed "Android XML start element is malformed"
  let exceeded := failed "Android manifest attributes exceed their chunk"
  if chunk.headerSize ≠ 16 ∨ chunk.size < 36 then refuse malformed
  else do
    let tagAt ← add 64 offset 20
    let tagIndex ← require (u32In mem range tagAt) malformed
    let startAt ← add 64 offset 24
    let attributeStart ← require (u16In mem range startAt) malformed
    let sizeAt ← add 64 offset 26
    let attributeSize ← require (u16In mem range sizeAt) malformed
    let countAt ← add 64 offset 28
    let attributeCount ← require (u16In mem range countAt) malformed
    if attributeSize < 20 then refuse malformed
    else if poolString strings tagIndex ≠ some (Ascii.bytes "manifest") then pure none
    else do
      let node ← add 64 offset 16
      let attributes ← add 64 node attributeStart
      let finish ← add 64 offset chunk.size
      if attributes > finish then refuse exceeded
      else do
        let total ← mul 64 attributeCount attributeSize
        let left ← sub finish attributes
        if total > left then refuse exceeded
        else do
          let identity ← (List.range attributeCount).foldlM
            (readAttribute mem range strings attributes attributeSize) {}
          if identity.packageName = [] ∨ identity.versionCode = 0 then
            refuse { identity with error := "Android manifest has no package or versionCode" }
          else pure (some identity)

/-- Where the scan of the chunks stands, with the string pool once it has been read. -/
structure Scan where
  offset : Nat
  pool : Option (List Bytes)

def skipChunk (scan : Scan) (chunk : Chunk) :
    Comp AndroidManifestIdentity (Scan ⊕ AndroidManifestIdentity) := do
  let next ← add 64 scan.offset chunk.size
  pure (.inl { scan with offset := next })

def scanChunk (xml : Chunk) (scan : Scan) :
    Comp AndroidManifestIdentity (Scan ⊕ AndroidManifestIdentity) :=
  if scan.offset ≥ xml.size then refuse (failed "Android manifest element is missing")
  else do
    let chunk ← require (readChunk mem scan.offset)
      (failed "AndroidManifest.xml contains an invalid chunk")
    if chunk.type = kStringPoolChunk then
      if scan.pool.isSome then refuse (failed "duplicate Android string pool")
      else do
        let strings ← rethrow failed (parseStringPool mem scan.offset chunk)
        skipChunk { scan with pool := some strings } chunk
    else
      match scan.pool with
      | none => skipChunk scan chunk
      | some strings =>
        if chunk.type = kStartElementChunk then do
          match ← readElement mem scan.offset chunk strings with
          | some identity => pure (.inr identity)
          | none => skipChunk scan chunk
        else skipChunk scan chunk

/-- The loop has a round for each byte of the input, and one more. -/
def parse : Comp AndroidManifestIdentity AndroidManifestIdentity := do
  let invalid := failed "AndroidManifest.xml is not valid binary XML"
  let xml ← require (readChunk mem 0) invalid
  if xml.type ≠ kXmlChunk ∨ xml.size ≠ mem.length then refuse invalid
  else loop (scanChunk mem xml) (mem.length + 1) ⟨xml.headerSize, none⟩

def parseAndroidManifest : Except Fault AndroidManifestIdentity := result (parse mem)

end

end Nightcap.Update.AndroidManifest
