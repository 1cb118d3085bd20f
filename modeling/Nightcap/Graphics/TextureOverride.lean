import Nightcap.Lib.WorkQueue
import Nightcap.Lib.Boxes

/-! `ResampleRgba`: a texture replacement scaled to the size of the texture it replaces. -/
namespace Nightcap.Graphics

open WorkQueue

/-- One `ResampleRgba` call. `none` and `false` are null pointers. -/
structure ResampleCall where
  source : Option (Nat → UInt8)
  sourceWidth : UInt32
  sourceHeight : UInt32
  sourceStrideBytes : UInt64
  width : UInt32
  height : UInt32
  destination : Bool

/-- What the call has done so far, offsets taken from the two buffers. -/
structure Resampling where
  previousY0 : Nat
  previousY1 : Nat
  memory : Nat → UInt8
  stores : List Nat
  loads : List Nat

def wrap32 (n : Nat) : Nat := n % 2 ^ 32

def wrap64 (n : Nat) : Nat := n % 2 ^ 64

def Resampling.store (s : Resampling) (writes : List (Nat × UInt8))
    (loads : List Nat) : Resampling :=
  { s with
    memory := writeAll s.memory writes
    stores := s.stores ++ writes.map Prod.fst
    loads := s.loads ++ loads }

namespace ResampleCall

variable (call : ResampleCall)

/-- The source's `columns[2 * x]`. -/
def x0 (x : Nat) : Nat :=
  wrap32 (wrap64 (x * call.sourceWidth.toNat) / call.width.toNat)

/-- The source's `columns[2 * x + 1]`. -/
def x1 (x : Nat) : Nat :=
  max (wrap32 (call.x0 x + 1))
    (wrap32 (wrap64 (wrap64 (x + 1) * call.sourceWidth.toNat) / call.width.toNat))

def oneTexelColumns : Bool :=
  (List.range call.width.toNat).all fun x => call.x1 x = wrap32 (call.x0 x + 1)

def rowBytes : Nat := wrap64 (call.width.toNat * 4)

def y0 (y : Nat) : Nat := wrap64 (y * call.sourceHeight.toNat) / call.height.toNat

def y1 (y : Nat) : Nat :=
  let y1 := wrap64 (wrap64 (y + 1) * call.sourceHeight.toNat) / call.height.toNat
  if y1 ≤ call.y0 y then wrap64 (call.y0 y + 1) else y1

/-- A byte of the source, at an offset that wraps like its pointers. -/
def load (offset : Nat) : UInt8 := (call.source.getD fun _ => 0) (wrap64 offset)

/-- The copy of the row above. -/
def repeatedRow (memory : Nat → UInt8) (y : Nat) : List (Nat × UInt8) :=
  (List.range call.rowBytes).map fun i =>
    (wrap64 (y * call.rowBytes + i), memory (wrap64 (y * call.rowBytes - call.rowBytes + i)))

/-- Where a one-texel row reads; the column's product is a 32-bit one. -/
def texelOffset (y x k : Nat) : Nat :=
  call.y0 y * call.sourceStrideBytes.toNat + wrap32 (call.x0 x * 4) + k

def texelRow (y : Nat) : List (Nat × UInt8) :=
  (List.range call.width.toNat).flatMap fun x => (List.range 4).map fun k =>
    (wrap64 (y * call.rowBytes + x * 4 + k), call.load (call.texelOffset y x k))

def texelLoads (y : Nat) : List Nat :=
  (List.range call.width.toNat).flatMap fun x => (List.range 4).map fun k =>
    wrap64 (call.texelOffset y x k)

def pixelOffset (sy sx channel : Nat) : Nat :=
  sy * call.sourceStrideBytes.toNat + sx * 4 + channel

/-- The source's `sum[channel]` after its loops over a box. -/
def sum (y x channel : Nat) : Nat :=
  (List.range' (call.y0 y) (call.y1 y - call.y0 y)).foldl (fun sum sy =>
    (List.range' (call.x0 x) (call.x1 x - call.x0 x)).foldl (fun sum sx =>
      wrap64 (sum + (call.load (call.pixelOffset sy sx channel)).toNat)) sum) 0

def count (y x : Nat) : Nat := wrap64 ((call.y1 y - call.y0 y) * (call.x1 x - call.x0 x))

def boxByte (y x channel : Nat) : UInt8 :=
  if call.count y x = 1 then UInt8.ofNat (call.sum y x channel)
  else UInt8.ofNat (wrap64 (call.sum y x channel + call.count y x / 2) / call.count y x)

def boxRow (y : Nat) : List (Nat × UInt8) :=
  (List.range call.width.toNat).flatMap fun x => (List.range 4).map fun channel =>
    (wrap64 ((y * call.width.toNat + x) * 4 + channel), call.boxByte y x channel)

def boxLoads (y : Nat) : List Nat :=
  (List.range call.width.toNat).flatMap fun x =>
    (List.range' (call.y0 y) (call.y1 y - call.y0 y)).flatMap fun sy =>
      (List.range' (call.x0 x) (call.x1 x - call.x0 x)).flatMap fun sx =>
        (List.range 4).map fun channel => wrap64 (call.pixelOffset sy sx channel)

/-- One pass of the loop over the rows of the destination. -/
def row (s : Resampling) (y : Nat) : Resampling :=
  if 0 < y ∧ call.y0 y = s.previousY0 ∧ call.y1 y = s.previousY1 then
    s.store (call.repeatedRow s.memory y) []
  else
    let s := { s with previousY0 := call.y0 y, previousY1 := call.y1 y }
    if call.oneTexelColumns && call.y1 y = wrap64 (call.y0 y + 1) then
      s.store (call.texelRow y) (call.texelLoads y)
    else s.store (call.boxRow y) (call.boxLoads y)

end ResampleCall

def resampleRgba (call : ResampleCall) (memory : Nat → UInt8) : Resampling :=
  if call.source.isNone ∨ call.destination = false ∨ call.width = 0 ∨ call.height = 0 ∨
      call.sourceWidth = 0 ∨ call.sourceHeight = 0 ∨
      call.sourceStrideBytes.toNat < wrap64 (call.sourceWidth.toNat * 4) then
    ⟨0, 0, memory, [], []⟩
  else (List.range call.height.toNat).foldl call.row ⟨0, 0, memory, [], []⟩

end Nightcap.Graphics
