import Nightcap.Lib.Checked
import Nightcap.Graphics.EtcStaging
import Nightcap.Graphics.EtcBudget

/-! Copies from buffers to emulated images: their layout, and how a transcoded one is split to fit
its staging. -/
namespace Nightcap.Graphics.Copies

open Checked

structure VkOffset3D where
  x : Int32 := 0
  y : Int32 := 0
  z : Int32 := 0
deriving DecidableEq

structure VkExtent3D where
  width : UInt32
  height : UInt32
  depth : UInt32 := 1
deriving DecidableEq

structure VkImageSubresourceLayers where
  aspectMask : UInt32 := 1
  mipLevel : UInt32 := 0
  baseArrayLayer : UInt32 := 0
  layerCount : UInt32 := 1
deriving DecidableEq

/-- `VkBufferImageCopy`, whose fields those of `VkBufferImageCopy2` repeat. -/
structure Region where
  bufferOffset : UInt64 := 0
  bufferRowLength : UInt32 := 0
  bufferImageHeight : UInt32 := 0
  imageSubresource : VkImageSubresourceLayers := {}
  imageOffset : VkOffset3D := {}
  imageExtent : VkExtent3D
deriving DecidableEq

structure Etc2GpuJob where
  format : EtcFormat := .etc2Rgb8
  blocksWide : UInt32 := 0
  blocksHigh : UInt32 := 0
  layers : UInt32 := 1
  sourceOffset : UInt64 := 0
  sourceRowBlocks : UInt32 := 0
  sourceLayerBlocks : UInt32 := 0
  destinationOffset : UInt64 := 0
  transcode : Bool := false
  rgbaSource : Bool := false
  fast : Bool := false
  scale : Bool := false
  scaleWidth : UInt32 := 0
  scaleHeight : UInt32 := 0
  scaleTexelsOffset : UInt64 := 0
deriving DecidableEq

def blockBytes (format : EtcFormat) : UInt64 := UInt64.ofNat (etcBlockBytes format)

def texelBytes (format : EtcFormat) : UInt64 := UInt64.ofNat (etcDecodedTexelBytes format)

def etc2GpuRowTexels (blocksWide : UInt32) : UInt32 := blocksWide * 4

def etc2GpuLayerBytes (format : EtcFormat) (blocksWide blocksHigh : UInt32) : UInt64 :=
  (etc2GpuRowTexels blocksWide).toUInt64 * blocksHigh.toUInt64 * 4 * texelBytes format

def outputLayerBytes (job : Etc2GpuJob) : UInt64 :=
  if job.scale then job.blocksWide.toUInt64 * job.blocksHigh.toUInt64 * 16 * 4
  else if job.transcode then
    job.blocksWide.toUInt64 * job.blocksHigh.toUInt64 * UInt64.ofNat
      (Budget.bcBlockBytes job.format)
  else etc2GpuLayerBytes job.format job.blocksWide job.blocksHigh

def etc2GpuOutputBytes (job : Etc2GpuJob) : UInt64 := outputLayerBytes job * job.layers.toUInt64

/-- The `align` of the planners. -/
def align (bytes : UInt64) : UInt64 :=
  (bytes + UInt64.ofNat kStagingAlignment - 1) / UInt64.ofNat kStagingAlignment *
    UInt64.ofNat kStagingAlignment

/-! Where the blocks of a region are in its buffer. -/

namespace Region

variable (format : EtcFormat) (region : Region)

def width : UInt32 := region.imageExtent.width

def height : UInt32 := region.imageExtent.height

def layers : UInt32 := region.imageSubresource.layerCount

def rowTexels : UInt64 :=
  (if region.bufferRowLength ≠ 0 then region.bufferRowLength else region.width).toUInt64

def layerRows : UInt64 :=
  (if region.bufferImageHeight ≠ 0 then region.bufferImageHeight else region.height).toUInt64

def rowStride : UInt64 := (region.rowTexels + 3) / 4 * blockBytes format

def layerStride : UInt64 := region.rowStride format * ((region.layerRows + 3) / 4)

def blocksWide : UInt32 := (region.width + 3) / 4

def blocksHigh : UInt32 := (region.height + 3) / 4

/-- What a transcode of so many block rows and layers of the region stages. -/
def need (rows layers : UInt32) : UInt64 :=
  let job : Etc2GpuJob :=
    { format := format, blocksWide := region.blocksWide, blocksHigh := rows, layers := layers
      transcode := true }
  align
      ((layers - 1).toUInt64 * region.layerStride format +
        (rows - 1).toUInt64 * region.rowStride format +
        job.blocksWide.toUInt64 * blockBytes format) +
    align (etc2GpuOutputBytes job)

/-- The part of a region in one layer from a block row on, at most `band` block rows high. -/
def piece (band layer row : UInt32) : Region :=
  { region with
    bufferOffset := region.bufferOffset +
      (layer.toUInt64 * region.layerStride format + row.toUInt64 * region.rowStride format)
    bufferImageHeight := 0
    imageSubresource :=
      { region.imageSubresource with
        baseArrayLayer := region.imageSubresource.baseArrayLayer + layer
        layerCount := 1 }
    imageOffset := { region.imageOffset with y := region.imageOffset.y + (row * 4).toInt32 }
    imageExtent := { region.imageExtent with height := min (band * 4) (region.height - row * 4) } }

end Region

/-- One round of the search for the highest band that fits. -/
def searchRound (fits : UInt32 → Bool) : UInt32 × UInt32 → Comp Unit ((UInt32 × UInt32) ⊕ UInt32)
  | (band, high) =>
    if band < high then
      let middle := band + (high - band + 1) / 2
      if fits middle then .ok (.inl (middle, high)) else .ok (.inl (band, middle - 1))
    else .ok (.inr band)

def bandRound (format : EtcFormat) (region : Region) (band layer : UInt32) :
    UInt32 × List Region → Comp Unit ((UInt32 × List Region) ⊕ List Region)
  | (row, out) =>
    if row < region.blocksHigh then
      .ok (.inl (row + band, out ++ [region.piece format band layer row]))
    else .ok (.inr out)

/-- The rounds any of the loops over a 32-bit counter has. -/
def kMaxRounds : Nat := 2 ^ 32

def splitRegion (format : EtcFormat) (cap : UInt64) (out : List Region) (region : Region) :
    Comp Unit (List Region) :=
  if region.width = 0 ∨ region.height = 0 ∨ region.layers = 0 ∨
      region.need format region.blocksHigh region.layers ≤ cap then
    pure (out ++ [region])
  else if cap < region.need format 1 1 then refuse ()
  else do
    let band ← loop (searchRound fun rows => region.need format rows 1 ≤ cap) kMaxRounds
        (1, region.blocksHigh)
    (List.range region.layers.toNat).foldlM
      (fun out layer =>
        loop (bandRound format region band (UInt32.ofNat layer)) kMaxRounds (0, out)) out

/-- A refusal is the source's `false`. -/
def splitForStaging (format : EtcFormat) (regions : List Region) (cap : UInt64) :
    Comp Unit (List Region) :=
  regions.foldlM (splitRegion format cap) []

/-! Uploads planned one after the other into one target. -/

/-- What the planners read of an image. -/
structure ImageRecord where
  format : EtcFormat
  scale : UInt32 := 1
  top : UInt32 := 0
  mipOffset : UInt32 := 0
  width : UInt32
  height : UInt32
deriving DecidableEq

def mipExtent (base mip : UInt32) : UInt32 := max 1 (base >>> mip)

/-- The compressed and the decoded bytes. -/
def etc2UploadByteCounts (format : EtcFormat) (extent : VkExtent3D) (layerCount : UInt32) :
    Option (UInt64 × UInt64) :=
  if extent.width = 0 ∨ extent.height = 0 ∨ extent.depth ≠ 1 ∨ layerCount = 0 then none
  else
    let blocks := (extent.width.toUInt64 + 3) / 4 * ((extent.height.toUInt64 + 3) / 4)
    some (blocks * blockBytes format * layerCount.toUInt64,
      extent.width.toUInt64 * extent.height.toUInt64 * texelBytes format * layerCount.toUInt64)

/-- An axis of a region: its texels inside the mip, and where they are on the host. -/
structure Axis where
  texels : UInt32
  hostStart : UInt32
  hostEnd : UInt32
deriving DecidableEq

def scaledAxis (base scale mip : UInt32) (offset : Int32) (extent : UInt32) : Option Axis :=
  let appMip := mipExtent base mip
  let hostMip := mipExtent (base * scale) mip
  if offset < 0 ∨ appMip ≤ offset.toUInt32 then none
  else
    let appEnd := min appMip (offset.toUInt32 + extent)
    let start := offset.toUInt32 * scale
    let stop := if appEnd = appMip then hostMip else min hostMip (appEnd * scale)
    if stop ≤ start then none else some ⟨appEnd - offset.toUInt32, start, stop⟩

/-- Host-side bounds of a region on an image; unscaled and unknown ones keep the region as given. -/
def hostRegion (record : Option ImageRecord) (mip : UInt32)
    (offset : VkOffset3D) (extent : VkExtent3D) :
    Option (VkOffset3D × VkOffset3D) :=
  match record.filter (1 < ·.scale) with
  | none =>
    some (offset, ⟨offset.x + extent.width.toInt32, offset.y + extent.height.toInt32,
      offset.z + extent.depth.toInt32⟩)
  | some record => do
    let x ← scaledAxis record.width record.scale mip offset.x extent.width
    let y ← scaledAxis record.height record.scale mip offset.y extent.height
    pure (⟨x.hostStart.toInt32, y.hostStart.toInt32, 0⟩, ⟨x.hostEnd.toInt32, y.hostEnd.toInt32, 1⟩)

/-- The image's own levels, below its top levels. -/
def nativeRecord (record : ImageRecord) : ImageRecord :=
  { record with scale := 1, top := 0, mipOffset := record.top }

/-- Level 0 at the factor of a top host level. -/
def topRecord (record : ImageRecord) (level : UInt32) : ImageRecord :=
  { record with scale := record.scale >>> level, mipOffset := level }

/-- One round of the loop in `TopLevelCount`. -/
def topLevelRound (scale top : UInt32) : Comp Unit (UInt32 ⊕ UInt32) :=
  if 2 <<< top ≤ scale then .ok (.inl (top + 1)) else .ok (.inr top)

def topLevelCount (scale : UInt32) : Comp Unit UInt32 := loop (topLevelRound scale) kMaxRounds 0

/-- `VK_REMAINING_MIP_LEVELS`. -/
def kRemainingMipLevels : UInt32 := 2 ^ 32 - 1

structure LevelRange where
  base : UInt32
  count : UInt32
deriving DecidableEq

/-- `HostLevels`, which moves the range in place. -/
def hostLevels (top : UInt32) (range : LevelRange) : LevelRange :=
  if range.base ≠ 0 then { range with base := range.base + top }
  else if range.count ≠ kRemainingMipLevels then { range with count := range.count + top }
  else range

/-- The loop body of `PlanRegions`: one region's copy out of the target and its upload into it. -/
def planRegion (record : ImageRecord) (device : VkDevice)
    (source : VkBuffer) (destination : VkImage)
    (total : UInt64) (region : Region) : Option (Region × PendingUpload) := do
  let (compressed, decoded) ← etc2UploadByteCounts record.format region.imageExtent region.layers
  if 1 < record.scale ∧ region.layers ≠ 1 then none
  else if region.rowTexels < region.width.toUInt64 ∨ region.layerRows < region.height.toUInt64 then
    none
  else
    let blockRows := (region.height.toUInt64 + 3) / 4
    let packedRow := (region.width.toUInt64 + 3) / 4 * blockBytes record.format
    let rowStride := region.rowStride record.format
    let layerStride := region.layerStride record.format
    let mip := region.imageSubresource.mipLevel
    let upload : PendingUpload :=
      { device := device
        source := source
        sourceOffset := region.bufferOffset.toNat
        compressed := compressed.toNat
        decoded := decoded.toNat
        sourceRowStride := rowStride.toNat
        sourceLayerStride := layerStride.toNat
        sourceSpan :=
          ((region.layers - 1).toUInt64 * layerStride + (blockRows - 1) *
            rowStride + packedRow).toNat
        targetOffset := total.toNat
        format := record.format
        image := destination
        mipLevel := mip.toNat
        width := region.width.toNat
        height := region.height.toNat
        layers := region.layers.toNat
        scale := record.scale.toNat
        sourceWidth := region.width.toNat
        sourceHeight := region.height.toNat
        targetWidth := region.width.toNat
        targetHeight := region.height.toNat
        targetBytes := decoded.toNat
        regionX := region.imageOffset.x.toUInt32.toNat
        regionY := region.imageOffset.y.toUInt32.toNat
        topLevel := record.mipOffset < record.top }
    let copy := { region with bufferOffset := total, bufferRowLength := 0, bufferImageHeight := 0 }
    if 1 < record.scale ∨ record.mipOffset ≠ 0 then do
      let x ← scaledAxis record.width record.scale mip region.imageOffset.x region.width
      let y ← scaledAxis record.height record.scale mip region.imageOffset.y region.height
      let width := x.hostEnd - x.hostStart
      let height := y.hostEnd - y.hostStart
      pure
        ({ copy with
            imageOffset :=
              { copy.imageOffset with x := x.hostStart.toInt32, y := y.hostStart.toInt32 }
            imageExtent := { copy.imageExtent with width := width, height := height } },
          { upload with
            sourceWidth := x.texels.toNat
            sourceHeight := y.texels.toNat
            targetWidth := width.toNat
            targetHeight := height.toNat
            targetBytes := (width.toUInt64 * height.toUInt64 * texelBytes record.format).toNat
            fullMip :=
              region.imageOffset.x = 0 ∧ region.imageOffset.y = 0 ∧
                x.texels = mipExtent record.width mip ∧ y.texels = mipExtent record.height mip })
    else
      pure
        (copy,
          { upload with
            fullMip :=
              region.layers = 1 ∧ region.imageOffset.x = 0 ∧ region.imageOffset.y = 0 ∧
                region.width = mipExtent record.width mip ∧
                  region.height = mipExtent record.height mip })

structure Plan where
  rewritten : List Region := []
  uploads : List PendingUpload := []
  total : UInt64 := 0
deriving DecidableEq

def Plan.add (record : ImageRecord) (device : VkDevice) (source : VkBuffer) (destination : VkImage)
    (plan : Plan) (region : Region) : Option Plan := do
  let (copy, upload) ← planRegion record device source destination plan.total region
  pure
    { rewritten := plan.rewritten ++ [copy]
      uploads := plan.uploads ++ [upload]
      total := plan.total + UInt64.ofNat upload.targetBytes }

/-- `none` is the source's `false`. -/
def planRegions (record : ImageRecord) (device : VkDevice)
    (source : VkBuffer) (destination : VkImage)
    (regions : List Region) : Option Plan :=
  if regions = [] then none else regions.foldlM (Plan.add record device source destination) {}

/-! Gathering the blocks of the uploads. -/

/-- `CopyHostVisibleMemory` of a part of what an upload may read of its source, into the
destination. -/
def copyHostVisibleMemory (mem : List UInt8) (source : View) (i bytes offset : Nat)
    (destination : List UInt8) : Comp Unit (List UInt8) := do
  let read ← bytesAt mem source i bytes
  if offset + bytes ≤ destination.length then
    pure (destination.take offset ++ read ++ destination.drop (offset + bytes))
  else fault .outside

def gatherRow (mem : List UInt8) (source : View) (upload : PendingUpload)
    (offset packedRow layer : Nat)
    (destination : List UInt8) (row : Nat) : Comp Unit (List UInt8) :=
  let compressedLayer := upload.compressed / upload.layers
  copyHostVisibleMemory mem source
    ((layer * upload.sourceLayerStride + row * upload.sourceRowStride) % 2 ^ 64) packedRow
    (offset + layer * compressedLayer + row * packedRow) destination

/-- The blocks row by row. -/
def gatherRows (mem : List UInt8) (source : View) (upload : PendingUpload) (offset : Nat)
    (destination : List UInt8) : Comp Unit (List UInt8) :=
  let compressedLayer := upload.compressed / upload.layers
  let blockRows := (upload.height + 3) / 4
  let packedRow := compressedLayer / blockRows
  (List.range upload.layers).foldlM
    (fun destination layer =>
      (List.range blockRows).foldlM
      (gatherRow mem source upload offset packedRow layer) destination)
    destination

/-- The blocks in one copy. -/
def gatherWhole (mem : List UInt8) (source : View) (upload : PendingUpload) (offset : Nat)
    (destination : List UInt8) : Comp Unit (List UInt8) :=
  copyHostVisibleMemory mem source 0 upload.compressed offset destination

/-- One upload from a source, of which it may read `sourceSpan` bytes. -/
def gatherUpload (mem : List UInt8) (state : Nat × List UInt8) (x : PendingUpload × Nat) :
    Comp Unit (Nat × List UInt8) := do
  let (offset, destination) := state
  let (upload, source) := x
  let view : View := ⟨source, upload.sourceSpan⟩
  let destination ←
    if upload.sourceSpan = upload.compressed then gatherWhole mem view upload offset destination
    else gatherRows mem view upload offset destination
  pure (offset + upload.compressed, destination)

/-- The destination afterwards; sources are addresses, parallel to the uploads. -/
def gatherCompressed (mem : List UInt8) (uploads : List PendingUpload) (sources : List Nat)
    (destination : List UInt8) : Comp Unit (List UInt8) := do
  let (_, destination) ← (uploads.zip sources).foldlM (gatherUpload mem) (0, destination)
  pure destination

end Nightcap.Graphics.Copies
