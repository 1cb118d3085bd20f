import Nightcap.Lib.Ascii
import Nightcap.Lib.Checked

/-! The signing block of an APK: the end record, the block in front of the central directory, and
the length-prefixed records in it. -/
namespace Nightcap.Update.ApkSignature

open Checked Utf8

def kZipEocdSignature : Nat := 0x06054b50
def kV2BlockId : Nat := 0x7109871a
def kV3BlockId : Nat := 0xf05368c0
def kV31BlockId : Nat := 0x1b93ad61

def kSigningMagic : Bytes := Ascii.bytes "APK Sig Block 42"

/-- A mapped file: a regular file of at least 32 bytes, whose size is an `off_t`. -/
structure Mapping where
  bytes : Bytes
  minimum : 32 ≤ bytes.length
  bounded : bytes.length < 2 ^ 63

/-- All bytes of the mapping. -/
def Mapping.whole (mapping : Mapping) : View := ⟨0, mapping.bytes.length⟩

section

variable {ε : Type} (mapping : Mapping)

/-! Reading length-prefixed records. -/

structure Reader where
  span : View
  position : Nat
deriving DecidableEq

def Reader.ofSpan (span : View) : Reader := ⟨span, 0⟩

def Reader.remaining (reader : Reader) : Comp ε Nat := sub reader.span.size reader.position

def Reader.u32Value (reader : Reader) : Comp ε (Option (Nat × Reader)) := do
  let left ← reader.remaining
  if left < 4 then pure none
  else do
    let value ← u32At mapping.bytes reader.span reader.position
    let next ← add 64 reader.position 4
    pure (some (value, { reader with position := next }))

def Reader.lengthPrefixed (reader : Reader) : Comp ε (Option (View × Reader)) := do
  match ← reader.u32Value mapping with
  | none => pure none
  | some (size, reader) => do
    let left ← reader.remaining
    if size > left then pure none
    else do
      let next ← add 64 reader.position size
      pure (some (⟨reader.span.base + reader.position, size⟩, { reader with position := next }))

structure IdBytes where
  id : Nat
  bytes : View
deriving DecidableEq

def recordMalformed : String := "APK signer algorithm record is malformed"

/-- One record of an identifier and its bytes; an end without a record has no message. -/
def parseIdRecord (records : Reader) (values : List IdBytes) :
    Comp String ((Reader × List IdBytes) ⊕ List IdBytes) := do
  let left ← records.remaining
  if left = 0 then
    if values.isEmpty then refuse "" else pure (.inr values)
  else do
    let (record, records) ← require
        (records.lengthPrefixed mapping) "APK signer record is malformed"
    let (id, fields) ← require ((Reader.ofSpan record).u32Value mapping) recordMalformed
    let (bytes, fields) ← require (fields.lengthPrefixed mapping) recordMalformed
    let behind ← fields.remaining
    if behind ≠ 0 then refuse recordMalformed
    else pure (.inl (records, values ++ [⟨id, bytes⟩]))

def parseIdSequence (sequence : View) : Comp String (List IdBytes) :=
  loop (fun state => parseIdRecord mapping state.1 state.2) (sequence.size + 1)
    (Reader.ofSpan sequence, [])

/-! The end record. -/

/-- The size of the comment behind an end record. -/
def commentSize (position : Nat) : Comp ε Nat := do
  let lowAt ← add 64 position 20
  let low ← byteAt mapping.bytes mapping.whole lowAt
  let highAt ← add 64 position 21
  let high ← byteAt mapping.bytes mapping.whole highAt
  pure (low ||| high <<< 8)

/-- Whether an end record stands at a position, with its comment up to the end of the file. -/
def isEocd (position : Nat) : Comp ε Bool := do
  let signature ← u32At mapping.bytes mapping.whole position
  if signature ≠ kZipEocdSignature then pure false
  else do
    let comment ← commentSize mapping position
    let behind ← add 64 position 22
    let finish ← add 64 behind comment
    pure (finish == mapping.bytes.length)

def eocdStep (minimum position : Nat) : Comp String (Nat ⊕ Nat) := do
  let found ← isEocd mapping position
  if found then pure (.inr position)
  else if position = minimum then refuse "APK has no valid ZIP end record"
  else do
    let previous ← sub position 1
    pure (.inl previous)

/-- The first position searched last: a comment has at most 65535 bytes. -/
def eocdMinimum : Comp ε Nat :=
  if mapping.bytes.length > 65557 then sub mapping.bytes.length 65557 else pure 0

/-- The search from the last possible position back. -/
def findEocd : Comp String Nat := do
  let minimum ← eocdMinimum mapping
  let last ← sub mapping.bytes.length 22
  loop (eocdStep mapping minimum) (mapping.bytes.length + 1) last

/-! The signing block. -/

structure SigningBlock where
  v2 : Option View := none
  v3 : Option View := none
  v31 : Option View := none
  begin : Nat := 0
  centralDirectory : Nat := 0
  eocd : Nat := 0
deriving DecidableEq

/-- The span that an identifier selects, and the block with it set. -/
def SigningBlock.select (block : SigningBlock) (id : Nat) (value : View) :
    Option (Option View × SigningBlock) :=
  if id = kV31BlockId then some (block.v31, { block with v31 := some value })
  else if id = kV3BlockId then some (block.v3, { block with v3 := some value })
  else if id = kV2BlockId then some (block.v2, { block with v2 := some value })
  else none

/-- The block with a pair in it, unless its scheme is there already. -/
def SigningBlock.addPair (block : SigningBlock) (id : Nat) (value : View) :
    Comp String SigningBlock :=
  match block.select id value with
  | none => pure block
  | some (some _, _) => refuse "APK contains a duplicate signature scheme block"
  | some (none, block) => pure block

def parsePair (pairsEnd cursor : Nat) (block : SigningBlock) :
    Comp String ((Nat × SigningBlock) ⊕ SigningBlock) :=
  if cursor ≥ pairsEnd then
    if cursor ≠ pairsEnd ∨ block.v2 = none ∧ block.v3 = none ∧ block.v31 = none then
      refuse "APK has no supported signing scheme"
    else pure (.inr block)
  else do
    let left ← sub pairsEnd cursor
    if left < 12 then refuse "APK signing block pair is truncated"
    else do
      let pairSize ← u64At mapping.bytes mapping.whole cursor
      let pair ← add 64 cursor 8
      let left ← sub pairsEnd pair
      if pairSize < 4 ∨ pairSize > left then
        refuse "APK signing block pair has an invalid size"
      else do
        let id ← u32At mapping.bytes mapping.whole pair
        let valueAt ← add 64 pair 4
        let valueSize ← sub pairSize 4
        let block ← block.addPair id ⟨valueAt, valueSize⟩
        let next ← add 64 pair pairSize
        pure (.inl (next, block))

def blockMissing : String := "APK has no Signature Scheme v2/v3 block"

def parseSigningBlock : Comp String SigningBlock := do
  let eocd ← findEocd mapping
  let offsetAt ← add 64 eocd 16
  let centralDirectory ← u32At mapping.bytes mapping.whole offsetAt
  if centralDirectory < 32 ∨ centralDirectory > eocd then refuse blockMissing
  else do
    let magicAt ← sub centralDirectory 16
    let magic ← bytesAt mapping.bytes mapping.whole magicAt kSigningMagic.length
    if magic ≠ kSigningMagic then refuse blockMissing
    else do
      let footerAt ← sub centralDirectory 24
      let footerSize ← u64At mapping.bytes mapping.whole footerAt
      let limit ← sub centralDirectory 8
      if footerSize < 24 ∨ footerSize > limit ∨ footerSize > 2 ^ 64 - 1 - 8 then
        refuse "APK signing block size is invalid"
      else do
        let totalSize ← add 64 footerSize 8
        let begin ← sub centralDirectory totalSize
        let headerSize ← u64At mapping.bytes mapping.whole begin
        if headerSize ≠ footerSize then refuse "APK signing block size headers disagree"
        else do
          let cursor ← add 64 begin 8
          let pairsEnd ← sub centralDirectory 24
          loop (fun state => parsePair mapping pairsEnd state.1 state.2)
            (mapping.bytes.length + 1) (cursor, { begin, centralDirectory, eocd })

end

end Nightcap.Update.ApkSignature
