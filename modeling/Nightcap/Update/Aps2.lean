import Nightcap.Lib.Checked

/-! `SlebReader` and `DecodeAps2` of the host ABI deriver: packed relocations of an Android
library. -/
namespace Nightcap.Update.Aps2

open Checked

abbrev Bytes := List UInt8

def kMaximumRelocations : Nat := 4 * 1024 * 1024
def kGroupedByInfo : Nat := 1
def kGroupedByOffsetDelta : Nat := 2
def kGroupedByAddend : Nat := 4
def kGroupHasAddend : Nat := 8

/-- An `int64_t`, which wraps around. -/
def int64 (n : Int) : Int := n.bmod (2 ^ 64)

/-! `SlebReader`, as the bytes it has not read. -/

/-- The loop of `Pop`: the value, the shift, the last byte and what is left. -/
def popLoop : Bytes → Nat → Nat → Comp String (Nat × Nat × Nat × Bytes)
  | [], _, _ => refuse "invalid or truncated APS2 SLEB128 value"
  | byte :: rest, value, shift =>
    if shift ≥ 70 then refuse "invalid or truncated APS2 SLEB128 value"
    else
      let value := value ||| (byte.toNat &&& 0x7f) <<< shift % 2 ^ 64
      if byte.toNat &&& 0x80 ≠ 0 then popLoop rest value (shift + 7)
      else pure (value, shift + 7, byte.toNat, rest)

/-- The sign of the last byte in the bits above it. -/
def signExtend (value shift byte : Nat) : Nat :=
  if shift < 64 ∧ byte &&& 0x40 ≠ 0 then value ||| (2 ^ 64 - 1) <<< shift % 2 ^ 64 else value

def pop (bytes : Bytes) : Comp String (Int × Bytes) := do
  let (value, shift, byte, rest) ← popLoop bytes 0 0
  pure (int64 (signExtend value shift byte), rest)

/-! `DecodeAps2`. -/

structure Relocation where
  offset : Nat
  info : Nat
  addend : Nat
deriving DecidableEq

/-- The variables of `DecodeAps2`. -/
structure Decoding where
  reader : Bytes
  relocation_offset : Int
  relocation_info : Int := 0
  relocation_addend : Int := 0
  result : List Relocation := []

/-- What a group has for all its relocations. -/
structure Group where
  size : Nat
  flags : Nat
  offset_delta : Int

def addendMode (flags : Nat) : Nat := flags &&& (kGroupHasAddend ||| kGroupedByAddend)

/-- A number that is written under a condition only. -/
def popIf (written : Prop) [Decidable written] (value : Int) (reader : Bytes) :
    Comp String (Int × Bytes) :=
  if written then pop reader else pure (value, reader)

/-- An addend that is added to under a condition only. -/
def addIf (written : Prop) [Decidable written] (addend : Int) (reader : Bytes) :
    Comp String (Int × Bytes) :=
  if written then do
    let (value, reader) ← pop reader
    pure (int64 (addend + value), reader)
  else pure (addend, reader)

/-- The addend at the head of a group. -/
def groupAddend (flags : Nat) (addend : Int) (reader : Bytes) : Comp String (Int × Bytes) :=
  if addendMode flags = kGroupHasAddend ||| kGroupedByAddend then addIf True addend reader
  else if addendMode flags ≠ kGroupHasAddend then pure (0, reader)
  else pure (addend, reader)

/-- The head of a group. -/
def groupHead (count : Nat) (s : Decoding) : Comp String (Group × Decoding) := do
  let (group_size, reader) ← pop s.reader
  let (flags, reader) ← pop reader
  if group_size ≤ 0 ∨ group_size.toNat > count - s.result.length ∨ flags < 0 ∨
      flags.toNat &&& (2 ^ 64 - 1 - 0x0f) ≠ 0 then refuse "APS2 relocation group is invalid"
  else
    let flags := flags.toNat
    let (offset_delta, reader) ← popIf (flags &&& kGroupedByOffsetDelta ≠ 0) 0 reader
    let (relocation_info, reader) ← popIf (flags &&& kGroupedByInfo ≠ 0) s.relocation_info reader
    let (relocation_addend, reader) ← groupAddend flags s.relocation_addend reader
    pure ({ size := group_size.toNat, flags, offset_delta },
      { s with reader, relocation_info, relocation_addend })

/-- A round of the loop over the relocations of a group. -/
def relocation (g : Group) (s : Decoding) : Comp String Decoding := do
  let (delta, reader) ← popIf (g.flags &&& kGroupedByOffsetDelta = 0) g.offset_delta s.reader
  let relocation_offset := int64 (s.relocation_offset + delta)
  let (relocation_info, reader) ←
    popIf (g.flags &&& kGroupedByInfo = 0) s.relocation_info reader
  let (relocation_addend, reader) ←
    addIf (addendMode g.flags = kGroupHasAddend) s.relocation_addend reader
  if relocation_offset < 0 ∨ relocation_info < 0 ∨ relocation_addend < 0 then
    refuse "APS2 relocation exceeds unsigned bounds"
  else
    pure { reader, relocation_offset, relocation_info, relocation_addend
           result := s.result ++ [{ offset := relocation_offset.toNat, info := relocation_info.toNat
                                    addend := relocation_addend.toNat }] }

def relocations (g : Group) : Nat → Decoding → Comp String Decoding
  | 0, s => pure s
  | n + 1, s => do relocations g n (← relocation g s)

/-- A round of the loop over the groups. -/
def groupRound (count : Nat) (s : Decoding) : Comp String (Decoding ⊕ Decoding) :=
  if s.result.length < count then do
    let (g, s) ← groupHead count s
    pure (.inl (← relocations g g.size s))
  else pure (.inr s)

/-- `APS2`. -/
def magic : Bytes := [65, 80, 83, 50]

def decodeAps2 (encoded : Bytes) : Comp String (List Relocation) :=
  if encoded.length < 4 ∨ encoded.take 4 ≠ magic then
    refuse ".rela.dyn does not use APS2 encoding"
  else do
    let (count, reader) ← pop (encoded.drop 4)
    let (first_offset, reader) ← pop reader
    if count < 0 ∨ count.toNat > kMaximumRelocations ∨ first_offset < 0 then
      refuse "APS2 relocation header is invalid"
    else
      let s ← loop (groupRound count.toNat) (count.toNat + 1)
        { reader, relocation_offset := first_offset }
      if s.reader ≠ [] then refuse "APS2 relocation stream contains trailing bytes"
      else pure s.result

end Nightcap.Update.Aps2
