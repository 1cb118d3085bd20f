import Nightcap.Lib.Slices
import Nightcap.Graphics.EtcCopies

/-! The blocks of a mip that stay on the CPU: how uploads and block copies change them, and what
`BlocksWillBeKept` says about them beforehand. -/
namespace Nightcap.Graphics.Kept

open Slices Copies

abbrev Bytes := List UInt8

/-! Images. -/

/-- The blocks along an axis of a mip. -/
def mipBlocks (base : UInt32) (mip : Nat) : Nat :=
  ((mipExtent base (UInt32.ofNat mip)).toNat + 3) / 4

/-- An image of the application with its kept blocks by mip. -/
structure Image where
  record : ImageRecord
  arrayLayers : Nat
  blocks : Nat → Option Bytes := fun _ => none
  /-- Only a part of the levels is planned with an offset. -/
  unshifted : record.mipOffset = 0
  /-- `CreateImage` upscales images of one layer only. -/
  layered : 1 < record.scale ∨ record.top ≠ 0 → arrayLayers = 1
  /-- Texels have coordinates of type `int32_t`. -/
  bounded : record.width.toNat < 2 ^ 31 ∧ record.height.toNat < 2 ^ 31

def Image.mipBytes (image : Image) (mip : Nat) : Nat :=
  mipBlocks image.record.width mip * mipBlocks image.record.height mip *
    etcBlockBytes image.record.format

/-- `unordered_map<VkImage, ImageRecord>`. -/
abbrev Images := VkImage → Option Image

/-- The kept blocks of an image's mip are changed. -/
def Images.modify (images : Images) (handle : VkImage) (mip : Nat)
    (f : Image → Option Bytes) : Images :=
  match images handle with
  | none => images
  | some image =>
    Function.update images handle
      (some { image with blocks := Function.update image.blocks mip (f image) })

/-! Uploads. -/

/-- So many rows of blocks, from block `x`, `y` on into a mip `wide` blocks wide. -/
def copyRows (mip : Bytes) (wide x y blockBytes rowBytes rows : Nat) (source : Bytes) : Bytes :=
  (List.range rows).foldl
    (fun mip row => overwrite mip (((y + row) * wide + x) * blockBytes)
      (slice source (row * rowBytes) rowBytes)) mip

/-- A whole mip's kept blocks with `upload`'s region written in, or `none` when there are none to
patch or the region does not fit them. -/
def patchKeptBlocks (kept : Option Bytes) (record : ImageRecord)
    (upload : PendingUpload) (compressed : Bytes) :
    Option Bytes :=
  let mip := upload.mipLevel
  let blockBytes := etcBlockBytes upload.format
  let wide := mipBlocks record.width mip
  let high := mipBlocks record.height mip
  let x := upload.regionX / 4
  let y := upload.regionY / 4
  let regionWide := (upload.width + 3) / 4
  let regionHigh := (upload.height + 3) / 4
  match kept with
  | none => none
  | some kept =>
    if upload.layers ≠ 1 ∨ kept.length ≠ wide * high * blockBytes ∨ upload.regionX % 4 ≠ 0 ∨
        upload.regionY % 4 ≠ 0 ∨ wide < x + regionWide ∨ high < y + regionHigh then none
    else some (copyRows kept wide x y blockBytes (regionWide * blockBytes) regionHigh compressed)

def storeScaledUpload (images : Images) (upload : PendingUpload) (compressed : Bytes) : Images :=
  if upload.topLevel then images
  else if upload.fullMip then
    images.modify upload.image upload.mipLevel fun _ => some (compressed.take upload.compressed)
  else
    images.modify upload.image upload.mipLevel fun image =>
      patchKeptBlocks (image.blocks upload.mipLevel) image.record upload compressed

/-- `EmitUpload` without overrides: each of its branches stores the upload once. -/
def emitUpload (images : Images) (upload : PendingUpload) (compressed : Bytes) : Images :=
  storeScaledUpload images upload compressed

/-! Block copies. -/

structure VkImageCopy where
  srcSubresource : VkImageSubresourceLayers
  srcOffset : VkOffset3D
  dstSubresource : VkImageSubresourceLayers
  dstOffset : VkOffset3D
  extent : VkExtent3D
deriving DecidableEq

/-- A texel coordinate in blocks; negative ones count as zero. -/
def offsetBlocks (offset : Int32) : Nat := offset.toInt.toNat / 4

def keepIn (copy : BlockCopy) (destination : VkImage) (record : ImageRecord)
    (mip : Nat) (offset : VkOffset3D) :
    BlockCopy :=
  { copy with
    keep := destination
    keepMip := mip
    keepX := offsetBlocks offset.x
    keepY := offsetBlocks offset.y
    keepBlocksWide := mipBlocks record.width mip
    keepBlocksHigh := mipBlocks record.height mip }

/-- The kept blocks that follow a copy into layer 0 of `destination`. A copy from another layer
leaves them unknown, which a null source image records. -/
def keepCopy (source : VkImage) (sourceRecord : ImageRecord) (destination : VkImage)
    (destinationRecord : ImageRecord) (region : VkImageCopy) : BlockCopy :=
  let sourceMip := region.srcSubresource.mipLevel.toNat
  keepIn
    { image :=
        if region.srcSubresource.baseArrayLayer = 0 ∧ region.srcSubresource.layerCount = 1 then
          source
        else 0
      mip := sourceMip
      blockBytes := etcBlockBytes sourceRecord.format
      mipBlocksWide := mipBlocks sourceRecord.width sourceMip
      mipBlocksHigh := mipBlocks sourceRecord.height sourceMip
      x := offsetBlocks region.srcOffset.x
      y := offsetBlocks region.srcOffset.y
      wide := (region.extent.width.toNat + 3) / 4
      high := (region.extent.height.toNat + 3) / 4 }
    destination destinationRecord region.dstSubresource.mipLevel.toNat region.dstOffset

/-- The piece of one region in `TranscodeCopy`, or `none` where the region is skipped. `keeps` is
`KeepsMipBlocks` of the destination's mip. -/
def transcodePiece (source : VkImage) (sourceRecord : ImageRecord) (destination : VkImage)
    (destinationRecord : ImageRecord) (keeps : Bool) (target : Option Pointer)
    (region : VkImageCopy) :
    Option BlockCopy :=
  let mip := region.srcSubresource.mipLevel.toNat
  let piece : BlockCopy :=
    { image := source
      mip := mip
      blockBytes := etcBlockBytes sourceRecord.format
      mipBlocksWide := mipBlocks sourceRecord.width mip
      mipBlocksHigh := mipBlocks sourceRecord.height mip
      x := offsetBlocks region.srcOffset.x
      y := offsetBlocks region.srcOffset.y
      wide := (region.extent.width.toNat + 3) / 4
      high := (region.extent.height.toNat + 3) / 4
      target := target }
  if region.srcSubresource.layerCount ≠ 1 ∨ region.dstSubresource.layerCount ≠ 1 ∨
    region.srcOffset.x < 0 ∨
      region.srcOffset.y < 0 ∨ region.srcOffset.x % 4 ≠ 0 ∨
        region.srcOffset.y % 4 ≠ 0 ∨ piece.wide = 0 ∨
      piece.high = 0 then none
  else if piece.mipBlocksWide < piece.x + piece.wide ∨
    piece.mipBlocksHigh < piece.y + piece.high then none
  else if region.dstSubresource.baseArrayLayer = 0 ∧ keeps then
    some (keepIn piece destination destinationRecord region.dstSubresource.mipLevel.toNat
      region.dstOffset)
  else some piece

/-- The piece of one region in `ScaledTranscodeCopy`, or `none` where the copy is refused. -/
def scaledPiece (source : VkImage) (sourceRecord : ImageRecord) (destination : VkImage)
    (destinationRecord : ImageRecord) (target : Option Pointer)
    (region : VkImageCopy) : Option BlockCopy :=
  let sourceMip := region.srcSubresource.mipLevel
  let destinationMip := region.dstSubresource.mipLevel
  let wide := mipExtent destinationRecord.width destinationMip
  let high := mipExtent destinationRecord.height destinationMip
  if region.srcSubresource.layerCount ≠ 1 ∨ region.srcSubresource.baseArrayLayer ≠ 0 ∨
      region.dstSubresource.layerCount ≠ 1 ∨ region.srcOffset.x < 0 ∨ region.srcOffset.y < 0 ∨
      region.srcOffset.x % 4 ≠ 0 ∨ region.srcOffset.y % 4 ≠ 0 ∨ region.dstOffset.x ≠ 0 ∨
        region.dstOffset.y ≠ 0 ∨
      region.extent.width < wide ∨ region.extent.height < high ∨
      (mipExtent sourceRecord.width sourceMip).toNat < region.srcOffset.x.toInt.toNat + wide.toNat ∨
      (mipExtent sourceRecord.height sourceMip).toNat <
        region.srcOffset.y.toInt.toNat + high.toNat ∨
      sourceRecord.format ≠ destinationRecord.format then none
  else
    some (keepIn
      { image := source
        mip := sourceMip.toNat
        blockBytes := etcBlockBytes sourceRecord.format
        mipBlocksWide := mipBlocks sourceRecord.width sourceMip.toNat
        mipBlocksHigh := mipBlocks sourceRecord.height sourceMip.toNat
        x := offsetBlocks region.srcOffset.x
        y := offsetBlocks region.srcOffset.y
        wide := (wide.toNat + 3) / 4
        high := (high.toNat + 3) / 4
        target := target
        scaleHeader := true
        texelsWide := wide.toNat
        texelsHigh := high.toNat }
      destination destinationRecord destinationMip.toNat {})

/-- The blocks of the region, or `none` when unknown, go into the destination's kept blocks. -/
def keepBlocks (images : Images) (copy : BlockCopy) (region : Option Bytes) : Images :=
  if copy.keep = 0 then images
  else
    let rowBytes := copy.wide * copy.blockBytes
    let mipBytes := copy.keepBlocksWide * copy.keepBlocksHigh * copy.blockBytes
    let fits := copy.keepX + copy.wide ≤ copy.keepBlocksWide ∧
        copy.keepY + copy.high ≤ copy.keepBlocksHigh
    let whole := fits ∧ copy.keepX = 0 ∧ copy.keepY = 0 ∧ copy.wide = copy.keepBlocksWide ∧
      copy.high = copy.keepBlocksHigh
    images.modify copy.keep copy.keepMip fun image =>
      match region with
      | none => none
      | some region =>
        if ¬ fits then none
        else if whole then some region
        else
          match image.blocks copy.keepMip with
          | none => none
          | some kept =>
            if kept.length ≠ mipBytes then none
            else
              some (copyRows kept copy.keepBlocksWide copy.keepX copy.keepY copy.blockBytes
                rowBytes copy.high region)

/-- The blocks of the source's kept mip. -/
def sourceBlocks (images : Images) (copy : BlockCopy) : Option Bytes :=
  (images copy.image).bind fun image => image.blocks copy.mip

/-- `FillBlockCopy`, without its target. -/
def fillBlockCopy (images : Images) (copy : BlockCopy) : Images :=
  match sourceBlocks images copy with
  | none => keepBlocks images copy none
  | some blocks =>
    if copy.mipBlocksWide < copy.x + copy.wide ∨ copy.mipBlocksHigh < copy.y + copy.high ∨
        blocks.length < copy.mipBlocksWide * copy.mipBlocksHigh * copy.blockBytes then
      keepBlocks images copy none
    else
      keepBlocks images copy (some ((List.range copy.high).flatMap fun row =>
        slice blocks (((copy.y + row) * copy.mipBlocksWide + copy.x) * copy.blockBytes)
          (copy.wide * copy.blockBytes)))

/-! The replay of a command buffer's own uploads and block copies. `compressed` are the gathered
blocks of the upload with an order. -/

/-- The last two loops of `DecodeAndEmit`, one upload and one copy at a time. -/
def replayLoop (compressed : Nat → Bytes) (images : Images) :
    List PendingUpload → List BlockCopy → Images
  | uploads, [] =>
    uploads.foldl (fun images upload => emitUpload images upload (compressed upload.order)) images
  | [], copy :: copies => replayLoop compressed (fillBlockCopy images copy) [] copies
  | upload :: uploads, copy :: copies =>
    if upload.order < copy.order then
      replayLoop compressed (emitUpload images upload (compressed upload.order)) uploads
        (copy :: copies)
    else replayLoop compressed (fillBlockCopy images copy) (upload :: uploads) copies
termination_by uploads copies => uploads.length + copies.length

def replay (compressed : Nat → Bytes) (images : Images) (command : CommandRecord) : Images :=
  replayLoop compressed images (command.uploads.mergeSort fun a b => a.order ≤ b.order)
    (command.blockCopies.mergeSort fun a b => a.order ≤ b.order)

/-! `BlocksWillBeKept`. -/

def keptUpload (image : VkImage) (mip : Nat) (kept : Bool) (upload : PendingUpload) : Bool :=
  if upload.image = image ∧ upload.mipLevel = mip ∧ ¬ upload.topLevel ∧ upload.fullMip ∧
    upload.layers = 1 then true
  else kept

def keptCopy (sourceKept : BlockCopy → Bool) (image : VkImage) (mip : Nat) (kept : Bool)
    (copy : BlockCopy) : Bool :=
  if copy.keep ≠ image ∨ copy.keepMip ≠ mip then kept
  else
    let whole := copy.keepX = 0 ∧ copy.keepY = 0 ∧ copy.wide = copy.keepBlocksWide ∧
      copy.high = copy.keepBlocksHigh
    (whole || kept) && sourceKept copy

/-- The loop of `BlocksWillBeKeptLocked` over both lists. -/
def keptLoop (sourceKept : BlockCopy → Bool) (image : VkImage) (mip before : Nat) (kept : Bool) :
    List PendingUpload → List BlockCopy → Bool
  | [], [] => kept
  | upload :: uploads, [] =>
    if upload.order < before then
      keptLoop sourceKept image mip before (keptUpload image mip kept upload) uploads []
    else kept
  | [], copy :: copies =>
    if before ≤ copy.order then kept
    else keptLoop sourceKept image mip before (keptCopy sourceKept image mip kept copy) [] copies
  | upload :: uploads, copy :: copies =>
    if upload.order < before ∧ upload.order < copy.order then
      keptLoop sourceKept image mip before (keptUpload image mip kept upload) uploads
        (copy :: copies)
    else if before ≤ copy.order then kept
    else keptLoop sourceKept image mip before (keptCopy sourceKept image mip kept copy)
      (upload :: uploads) copies
termination_by uploads copies => uploads.length + copies.length

/-- The recursion starts at depth 0 and stops beyond depth 4; here it counts the depths left. -/
def blocksWillBeKeptLocked (images : Images) (commands : Commands)
    (commandBuffer : VkCommandBuffer) :
    Nat → VkImage → Nat → Nat → Bool
  | 0, _, _, _ => false
  | left + 1, image, mip, before =>
    match images image with
    | none => false
    | some found =>
      let kept := (found.blocks mip).any fun blocks => blocks.length = found.mipBytes mip
      match commands.lookup commandBuffer with
      | none => kept
      | some command =>
        keptLoop
          (fun copy =>
            blocksWillBeKeptLocked images commands commandBuffer left
            copy.image copy.mip copy.order)
          image mip before kept command.uploads command.blockCopies

def blocksWillBeKept (images : Images) (commands : Commands)
    (commandBuffer : VkCommandBuffer) (image : VkImage)
    (mip : Nat) : Bool :=
  blocksWillBeKeptLocked images commands commandBuffer 5 image mip (2 ^ 64 - 1)

end Nightcap.Graphics.Kept
