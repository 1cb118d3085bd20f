import Mathlib.Data.List.Induction
import Nightcap.Lib.Interleave
import Nightcap.Graphics.EtcBlocks
import Nightcap.Graphics.EtcGather
import Nightcap.Graphics.EtcLevels

/-! When `BlocksWillBeKept` says that the blocks of a mip will be kept whole, the replay keeps them
whole, unless an upload of several layers spoils them. -/
namespace Nightcap.Graphics.Kept

open Slices Copies Interleave

variable {images images' : Images} {image found source destination : Image}
  {handle handle' : VkImage}
  {upload : PendingUpload} {copy : BlockCopy} {command : CommandRecord} {compressed : Nat → Bytes}
  {record : ImageRecord} {region : Region} {blocks : Bytes} {mip mip' : Nat}

/-! What an application may record. -/

/-- A region that Vulkan allows in a copy from a buffer to an image. -/
structure RegionValid (image : Image) (region : Region) : Prop where
  layers :
    region.imageSubresource.baseArrayLayer.toNat + region.imageSubresource.layerCount.toNat ≤
    image.arrayLayers
  x : 0 ≤ region.imageOffset.x.toInt ∧ region.imageOffset.x.toInt % 4 = 0
  y : 0 ≤ region.imageOffset.y.toInt ∧ region.imageOffset.y.toInt % 4 = 0
  wide : region.imageOffset.x.toInt + region.imageExtent.width.toNat ≤
    (mipExtent image.record.width region.imageSubresource.mipLevel).toNat
  high : region.imageOffset.y.toInt + region.imageExtent.height.toNat ≤
    (mipExtent image.record.height region.imageSubresource.mipLevel).toNat

/-- The records that `UploadImage` plans an image's uploads with. -/
inductive PlannedWith (image : Image) : ImageRecord → Prop
  | record (h : image.record.top = 0) : PlannedWith image image.record
  | native : PlannedWith image (nativeRecord image.record)
  | top (level : UInt32) (h : level < image.record.top) :
    PlannedWith image (topRecord image.record level)

/-- What the kept blocks depend on of an upload. -/
def keptFields (upload : PendingUpload) : PendingUpload where
  compressed := upload.compressed
  format := upload.format
  image := upload.image
  mipLevel := upload.mipLevel
  width := upload.width
  height := upload.height
  layers := upload.layers
  fullMip := upload.fullMip
  topLevel := upload.topLevel
  regionX := upload.regionX
  regionY := upload.regionY

/-- An upload of a valid region, placed, widened or made keep-only after it was planned. -/
def UploadRecorded (images : Images) (upload : PendingUpload) : Prop :=
  ∃ image record device source total region rewritten planned, images upload.image = some image ∧
    PlannedWith image record ∧ RegionValid image region ∧
    planRegion record device source upload.image total region = some (rewritten, planned) ∧
    keptFields upload = keptFields planned

/-- A region that Vulkan allows in a copy between images. -/
structure CopyValid (source destination : Image) (region : VkImageCopy) : Prop where
  srcX : 0 ≤ region.srcOffset.x.toInt ∧ region.srcOffset.x.toInt % 4 = 0
  srcY : 0 ≤ region.srcOffset.y.toInt ∧ region.srcOffset.y.toInt % 4 = 0
  dstX : 0 ≤ region.dstOffset.x.toInt ∧ region.dstOffset.x.toInt % 4 = 0
  dstY : 0 ≤ region.dstOffset.y.toInt ∧ region.dstOffset.y.toInt % 4 = 0
  srcWide : region.srcOffset.x.toInt + region.extent.width.toNat ≤
    (mipExtent source.record.width region.srcSubresource.mipLevel).toNat
  srcHigh : region.srcOffset.y.toInt + region.extent.height.toNat ≤
    (mipExtent source.record.height region.srcSubresource.mipLevel).toNat
  dstWide : region.dstOffset.x.toInt + region.extent.width.toNat ≤
    (mipExtent destination.record.width region.dstSubresource.mipLevel).toNat
  dstHigh : region.dstOffset.y.toInt + region.extent.height.toNat ≤
    (mipExtent destination.record.height region.dstSubresource.mipLevel).toNat
  formats : etcBlockBytes source.record.format = etcBlockBytes destination.record.format

/-- The block copies that copies between images record. -/
inductive CopyRecorded (images : Images) : BlockCopy → Prop
  | keep {handle handle' : VkImage} {source destination : Image} {region : VkImageCopy}
      (hsource : images handle = some source) (hdestination : images handle' = some destination)
      (h : CopyValid source destination region) :
      CopyRecorded images (keepCopy handle source.record handle' destination.record region)
  /-- From an image that is not emulated. -/
  | unknown {handle handle' : VkImage} {record : ImageRecord}
    {destination : Image} {region : VkImageCopy}
      (hsource : images handle = none) (hdestination : images handle' = some destination) :
      CopyRecorded images (keepCopy handle record handle' destination.record region)
  | transcode {handle handle' : VkImage} {source destination : Image} {region : VkImageCopy}
      {keeps : Bool} {target : Option Pointer} {copy : BlockCopy}
      (hsource : images handle = some source)
      (hdestination : images handle' = some destination) (h : CopyValid source destination region)
      (hpiece : transcodePiece handle source.record handle' destination.record keeps target region =
        some copy) :
      CopyRecorded images copy
  | scaled {handle handle' : VkImage} {source destination : Image} {region : VkImageCopy}
      {target : Option Pointer} {copy : BlockCopy} (hsource : images handle = some source)
      (hdestination : images handle' = some destination)
      (hpiece : scaledPiece handle source.record handle' destination.record target region =
        some copy) :
      CopyRecorded images copy

/-- What is recorded in a command buffer, in order. The uploads and block copies of its secondaries
are in their own records. -/
inductive Recorded (images : Images) : CommandRecord → Prop
  | begin : Recorded images {}
  | uploads {command : CommandRecord} (h : Recorded images command) {added : List PendingUpload}
      (hadded : ∀ upload ∈ added, UploadRecorded images upload) :
      Recorded images (command.addUploads added)
  | blockCopies {command : CommandRecord} (h : Recorded images command) {added : List BlockCopy}
      (hadded : ∀ copy ∈ added, CopyRecorded images copy) :
      Recorded images (command.addBlockCopies added)
  | staging {command : CommandRecord} (h : Recorded images command) (staging : List Staging) :
      Recorded images { command with staging := staging }
  | secondary {command : CommandRecord} (h : Recorded images command)
    (secondary : VkCommandBuffer) (span : Nat) :
      Recorded images (command.addSecondary secondary span)

/-! What `PlanRegions` says about an upload. -/

/-- A region at the origin whose axis the planners take whole reaches the edge of the mip. -/
theorem scaledAxis_texels {base scale mip extent : UInt32} {axis : Axis}
    (h : scaledAxis base scale mip 0 extent = some axis)
    (hwhole : axis.texels = mipExtent base mip) :
    (mipExtent base mip).toNat ≤ extent.toNat := by
  unfold scaledAxis at h
  simp only at h
  split at h
  · cases h
  · have hend : min (mipExtent base mip) ((0 : Int32).toUInt32 + extent) - (0 : Int32).toUInt32 =
        axis.texels := by
      split at h <;> split at h <;> cases h <;> rfl
    have hzero : (0 : Int32).toUInt32 = 0 := rfl
    rw [hwhole, hzero, UInt32.zero_add, UInt32.sub_zero] at hend
    rw [← hend, toNat_min]
    omega

structure PlannedRegion (record : ImageRecord) (handle : VkImage) (region : Region)
    (upload : PendingUpload) :
    Prop where
  format : upload.format = record.format
  image : upload.image = handle
  mipLevel : upload.mipLevel = region.imageSubresource.mipLevel.toNat
  width : upload.width = region.width.toNat
  height : upload.height = region.height.toNat
  layers : upload.layers = region.layers.toNat
  regionX : upload.regionX = region.imageOffset.x.toUInt32.toNat
  regionY : upload.regionY = region.imageOffset.y.toUInt32.toNat
  topLevel : upload.topLevel = decide (record.mipOffset < record.top)
  full : upload.fullMip = true →
    (1 < record.scale ∨ record.mipOffset = 0 → region.layers = 1) ∧
      (mipExtent record.width region.imageSubresource.mipLevel).toNat ≤ region.width.toNat ∧
      (mipExtent record.height region.imageSubresource.mipLevel).toNat ≤ region.height.toNat

theorem planRegion_region {device : VkDevice} {buffer : VkBuffer}
    {total : UInt64} {rewritten : Region}
    (h : planRegion record device buffer handle total region = some (rewritten, upload)) :
    PlannedRegion record handle region upload := by
  rw [planRegion, Option.bind_eq_bind, Option.bind_eq_some_iff] at h
  obtain ⟨⟨compressed, decoded⟩, -, h⟩ := h
  simp only at h
  split at h
  · cases h
  rename_i hlayers
  split at h
  · cases h
  split at h
  · simp only [Option.bind_eq_bind, Option.bind_eq_some_iff, Option.pure_def, Option.some.injEq,
      Prod.mk.injEq] at h
    obtain ⟨x, hx, y, hy, -, rfl⟩ := h
    refine ⟨rfl, rfl, rfl, rfl, rfl, rfl, rfl, rfl, rfl, fun hfull => ?_⟩
    simp only [decide_eq_true_eq] at hfull
    obtain ⟨hxzero, hyzero, hwide, hhigh⟩ := hfull
    rw [hxzero] at hx
    rw [hyzero] at hy
    refine ⟨fun hor => ?_, scaledAxis_texels hx hwide, scaledAxis_texels hy hhigh⟩
    rename_i hscaled
    have hscale : 1 < record.scale := by
      rcases hor with hscale | hzero
      · exact hscale
      · exact hscaled.resolve_right fun hne => hne hzero
    by_contra hother
    exact hlayers ⟨hscale, hother⟩
  · simp only [Option.pure_def, Option.some.injEq, Prod.mk.injEq] at h
    obtain ⟨-, rfl⟩ := h
    refine ⟨rfl, rfl, rfl, rfl, rfl, rfl, rfl, rfl, rfl, fun hfull => ?_⟩
    simp only [decide_eq_true_eq] at hfull
    obtain ⟨hone, -, -, hwide, hhigh⟩ := hfull
    exact ⟨fun _ => hone, by rw [hwide], by rw [hhigh]⟩

/-- What the replay needs of an upload into the levels of the application. -/
structure UploadFits (image : Image) (upload : PendingUpload) : Prop where
  format : upload.format = image.record.format
  full : upload.fullMip = true → upload.layers = 1 ∧
    upload.compressed = image.mipBytes upload.mipLevel
  part : upload.fullMip = false → upload.layers = 1 → upload.regionX % 4 = 0 ∧
    upload.regionY % 4 = 0 ∧
    upload.regionX / 4 + (upload.width + 3) / 4 ≤ mipBlocks image.record.width upload.mipLevel ∧
    upload.regionY / 4 + (upload.height + 3) / 4 ≤ mipBlocks image.record.height upload.mipLevel

theorem mipExtent_lt {base : UInt32} (h : base.toNat < 2 ^ 31) (mip : UInt32) :
    (mipExtent base mip).toNat < 2 ^ 31 := by
  have hshift : (base >>> mip).toNat ≤ base.toNat := by
    rw [UInt32.toNat_shiftRight]
    exact Nat.shiftRight_le ..
  have hone : (1 : UInt32).toNat = 1 := rfl
  change (if 1 ≤ base >>> mip then base >>> mip else 1).toNat < _
  split
  · omega
  · omega

theorem mipBlocks_eq (base mip : UInt32) :
    mipBlocks base mip.toNat = ((mipExtent base mip).toNat + 3) / 4 := by
  rw [mipBlocks, UInt32.ofNat_toNat]

theorem offset_toNat {offset : Int32} (h : 0 ≤ offset.toInt) :
    (offset.toUInt32.toNat : Int) = offset.toInt := by
  rw [toUInt32_toNat (Int.toNat_of_nonneg h).symm]
  exact Int.toNat_of_nonneg h

theorem PlannedWith.sizes (h : PlannedWith image record) : record.format = image.record.format ∧
    record.width = image.record.width ∧ record.height = image.record.height := by
  cases h <;> exact ⟨rfl, rfl, rfl⟩

/-- Below the top levels, levels are shifted only in an image of one layer. -/
theorem PlannedWith.layered (h : PlannedWith image record)
    (htop : ¬ record.mipOffset < record.top) :
    (1 < record.scale ∨ record.mipOffset = 0) ∨ image.arrayLayers = 1 := by
  cases h with
  | record => exact .inl (.inr image.unshifted)
  | native =>
    by_cases hzero : image.record.top = 0
    · exact .inl (.inr hzero)
    · exact .inr (image.layered (.inr hzero))
  | top level hlevel => exact absurd hlevel htop

theorem UploadFits.of_kept {planned : PendingUpload}
    (hkept : keptFields upload = keptFields planned)
    (h : UploadFits image planned) : UploadFits image upload := by
  have hfields : UploadFits image (keptFields planned) := ⟨h.format, h.full, h.part⟩
  rw [← hkept] at hfields
  exact ⟨hfields.format, hfields.full, hfields.part⟩

theorem packed_lt {wide high : Nat} {format : EtcFormat} (hwide : wide ≤ 2 ^ 29)
    (hhigh : high ≤ 2 ^ 29) :
    high * (wide * etcBlockBytes format) % 2 ^ 64 = wide * high * etcBlockBytes format := by
  have hbytes := etcBlockBytes_le format
  have hsmall : high * (wide * etcBlockBytes format) ≤ 2 ^ 29 * (2 ^ 29 * 16) :=
    Nat.mul_le_mul hhigh (Nat.mul_le_mul hwide hbytes)
  have hlt : high * (wide * etcBlockBytes format) < 2 ^ 64 := by omega
  rw [Nat.mod_eq_of_lt hlt, Nat.mul_left_comm, Nat.mul_assoc]

theorem planned_fits {planned : PendingUpload} (hwith : PlannedWith image record)
    (hvalid : RegionValid image region)
    (hregion : PlannedRegion record handle region planned)
    (hplanned : Planned record region planned)
    (htop : planned.topLevel = false) : UploadFits image planned := by
  obtain ⟨hformat, hwidth, hheight⟩ := hwith.sizes
  have hx := offset_toNat hvalid.x.1
  have hy := offset_toNat hvalid.y.1
  have hxmod := hvalid.x.2
  have hymod := hvalid.y.2
  have hwide := hvalid.wide
  have hhigh := hvalid.high
  refine ⟨hregion.format.trans hformat, fun hfull => ?_, fun _ _ => ?_⟩
  · obtain ⟨hlayers, hfullWide, hfullHigh⟩ := hregion.full hfull
    rw [hregion.topLevel, decide_eq_false_iff_not] at htop
    have hone : region.layers.toNat = 1 := by
      rcases hwith.layered htop with hflat | hsingle
      · rw [hlayers hflat]
        rfl
      · have hfit := hvalid.layers
        have hpos := hplanned.layers_pos
        have hcount : region.layers = region.imageSubresource.layerCount := rfl
        rw [hcount] at hpos ⊢
        omega
    rw [hwidth] at hfullWide
    rw [hheight] at hfullHigh
    have hwideEq : region.width.toNat =
        (mipExtent image.record.width region.imageSubresource.mipLevel).toNat := by
      have hextent : region.width = region.imageExtent.width := rfl
      rw [hextent] at hfullWide ⊢
      omega
    have hhighEq : region.height.toNat =
        (mipExtent image.record.height region.imageSubresource.mipLevel).toNat := by
      have hextent : region.height = region.imageExtent.height := rfl
      rw [hextent] at hfullHigh ⊢
      omega
    refine ⟨hregion.layers.trans hone, ?_⟩
    have hwideLt := mipExtent_lt image.bounded.1 region.imageSubresource.mipLevel
    have hhighLt := mipExtent_lt image.bounded.2 region.imageSubresource.mipLevel
    rw [hplanned.compressed, hone, Nat.mul_one, Region.layerPacked, Region.rowPacked,
      hwideEq, hhighEq, hformat,
      Image.mipBytes, hregion.mipLevel, mipBlocks_eq, mipBlocks_eq, ceil4, ceil4]
    exact packed_lt (by omega) (by omega)
  · rw [hregion.regionX, hregion.regionY, hregion.width, hregion.height, hregion.mipLevel,
      mipBlocks_eq, mipBlocks_eq]
    have hextent : region.width = region.imageExtent.width := rfl
    have hextent' : region.height = region.imageExtent.height := rfl
    rw [hextent, hextent']
    omega

theorem UploadRecorded.fits (h : UploadRecorded images upload) :
    ∃ image, images upload.image = some image ∧
      (upload.topLevel = false → UploadFits image upload) := by
  obtain ⟨image, record, device, buffer, total, region, rewritten, planned, himage, hwith,
      hvalid, hplan, hkept⟩ := h
  refine ⟨image, himage, fun htop => UploadFits.of_kept hkept ?_⟩
  have htopLevel : (keptFields planned).topLevel = false := hkept ▸ htop
  exact planned_fits hwith hvalid (planRegion_region hplan) (planRegion_planned hplan).1 htopLevel

/-! What the replay needs of a block copy. -/

structure CopyFits (source destination : Image) (copy : BlockCopy) : Prop where
  mipWide : copy.mipBlocksWide = mipBlocks source.record.width copy.mip
  mipHigh : copy.mipBlocksHigh = mipBlocks source.record.height copy.mip
  sourceBytes : copy.blockBytes = etcBlockBytes source.record.format
  sourceFits : copy.x + copy.wide ≤ copy.mipBlocksWide ∧ copy.y + copy.high ≤ copy.mipBlocksHigh
  keepWide : copy.keepBlocksWide = mipBlocks destination.record.width copy.keepMip
  keepHigh : copy.keepBlocksHigh = mipBlocks destination.record.height copy.keepMip
  keepBytes : copy.blockBytes = etcBlockBytes destination.record.format
  keepFits : copy.keepX + copy.wide ≤ copy.keepBlocksWide ∧
    copy.keepY + copy.high ≤ copy.keepBlocksHigh

theorem blocks_fit {base mip extent : UInt32} {offset : Int32}
    (h : 0 ≤ offset.toInt ∧ offset.toInt % 4 = 0)
    (hinside : offset.toInt + extent.toNat ≤ (mipExtent base mip).toNat) :
    offsetBlocks offset + (extent.toNat + 3) / 4 ≤ mipBlocks base mip.toNat := by
  rw [offsetBlocks, mipBlocks_eq]
  omega

theorem keepCopy_fits {region : VkImageCopy} (h : CopyValid source destination region) :
    CopyFits source destination
      (keepCopy handle source.record handle' destination.record region) where
  mipWide := rfl
  mipHigh := rfl
  sourceBytes := rfl
  sourceFits := ⟨blocks_fit h.srcX h.srcWide, blocks_fit h.srcY h.srcHigh⟩
  keepWide := rfl
  keepHigh := rfl
  keepBytes := h.formats
  keepFits := ⟨blocks_fit h.dstX h.dstWide, blocks_fit h.dstY h.dstHigh⟩

theorem transcodePiece_fits {region : VkImageCopy} {keeps : Bool} {target : Option Pointer}
    (h : CopyValid source destination region)
    (hpiece : transcodePiece handle source.record handle' destination.record keeps target region =
      some copy) :
    copy.image = handle ∧
      (copy.keep = 0 ∨ copy.keep = handle' ∧ CopyFits source destination copy) := by
  unfold transcodePiece at hpiece
  simp only at hpiece
  split at hpiece
  · cases hpiece
  · split at hpiece
    · cases hpiece
    · split at hpiece
      · cases hpiece
        exact ⟨rfl,
          .inr ⟨rfl, rfl, rfl, rfl,
            ⟨blocks_fit h.srcX h.srcWide, blocks_fit h.srcY h.srcHigh⟩, rfl, rfl,
            h.formats, ⟨blocks_fit h.dstX h.dstWide, blocks_fit h.dstY h.dstHigh⟩⟩⟩
      · cases hpiece
        exact ⟨rfl, .inl rfl⟩

theorem toInt_mod_four {offset : Int32} (h : 0 ≤ offset.toInt) (hmod : offset % 4 = 0) :
    offset.toInt % 4 = 0 := by
  have hint := congrArg Int32.toInt hmod
  have hfour : (4 : Int32).toInt = 4 := rfl
  have hzero : (0 : Int32).toInt = 0 := rfl
  rwa [Int32.toInt_mod, hfour, hzero, Int.tmod_eq_emod_of_nonneg h] at hint

theorem scaledPiece_fits {region : VkImageCopy} {target : Option Pointer}
    (hpiece : scaledPiece handle source.record handle' destination.record target region =
      some copy) :
    copy.image = handle ∧ copy.keep = handle' ∧ CopyFits source destination copy := by
  unfold scaledPiece at hpiece
  simp only at hpiece
  split at hpiece
  · cases hpiece
  · rename_i hgood
    simp only [not_or, ne_eq, not_not, Int32.not_lt, Nat.not_lt] at hgood
    obtain ⟨-, -, -, hx, hy, hxmod, hymod, -, -, -, -, hwide, hhigh, hformat⟩ := hgood
    cases hpiece
    have hxpos := Int32.le_iff_toInt_le.1 hx
    have hypos := Int32.le_iff_toInt_le.1 hy
    have hzero : (0 : Int32).toInt = 0 := rfl
    rw [hzero] at hxpos hypos
    refine ⟨rfl, rfl, rfl, rfl, rfl, ⟨blocks_fit ⟨hxpos, toInt_mod_four hxpos hxmod⟩ (by omega),
      blocks_fit ⟨hypos, toInt_mod_four hypos hymod⟩ (by omega)⟩, rfl, rfl,
        congrArg etcBlockBytes hformat, ⟨?_, ?_⟩⟩
    · exact @blocks_fit _ _ _ 0 (by decide) (by rw [hzero]; omega)
    · exact @blocks_fit _ _ _ 0 (by decide) (by rw [hzero]; omega)

/-- The images of a copy are of the sizes that it was recorded with. -/
def CopyOk (images : Images) (copy : BlockCopy) : Prop :=
  ∀ source destination, images copy.image = some source → images copy.keep = some destination →
    CopyFits source destination copy

theorem CopyRecorded.ok (hnull : images 0 = none) (h : CopyRecorded images copy) :
    CopyOk images copy := by
  intro source destination hsource hdestination
  cases h with
  | keep hsource' hdestination' hvalid =>
    simp only [keepCopy, keepIn] at hsource hdestination
    split at hsource
    · rw [hsource'] at hsource
      rw [hdestination'] at hdestination
      cases hsource
      cases hdestination
      exact keepCopy_fits hvalid
    · rw [hnull] at hsource
      cases hsource
  | unknown hsource' hdestination' =>
    simp only [keepCopy, keepIn] at hsource
    split at hsource
    · rw [hsource'] at hsource
      cases hsource
    · rw [hnull] at hsource
      cases hsource
  | transcode hsource' hdestination' hvalid hpiece =>
    obtain ⟨himage, hkeep | ⟨hkeep, hfits⟩⟩ := transcodePiece_fits hvalid hpiece
    · rw [hkeep, hnull] at hdestination
      cases hdestination
    · rw [himage, hsource'] at hsource
      rw [hkeep, hdestination'] at hdestination
      cases hsource
      cases hdestination
      exact hfits
  | scaled hsource' hdestination' hpiece =>
    obtain ⟨himage, hkeep, hfits⟩ := scaledPiece_fits hpiece
    rw [himage, hsource'] at hsource
    rw [hkeep, hdestination'] at hdestination
    cases hsource
    cases hdestination
    exact hfits

/-! The order of a record. -/

/-- The uploads and block copies of a record have orders of their own, ascending and below the next
one. -/
structure InOrder (images : Images) (command : CommandRecord) : Prop where
  uploads : ∀ upload ∈ command.uploads, UploadRecorded images upload ∧
    upload.order < command.nextOrder
  copies : ∀ copy ∈ command.blockCopies, CopyOk images copy ∧ copy.order < command.nextOrder
  uploadsAscend : command.uploads.Pairwise fun a b => a.order < b.order
  copiesAscend : command.blockCopies.Pairwise fun a b => a.order < b.order
  apart : ∀ upload ∈ command.uploads, ∀ copy ∈ command.blockCopies, upload.order ≠ copy.order

namespace InOrder

variable (h : InOrder images command)

include h

theorem addUpload (hupload : UploadRecorded images upload) :
    InOrder images (command.addUpload upload) where
  uploads v hv := by
    rcases List.mem_append.1 hv with hv | hv
    · exact ⟨(h.uploads v hv).1, Nat.lt_succ_of_lt (h.uploads v hv).2⟩
    · rw [List.mem_singleton.1 hv]
      exact ⟨hupload, Nat.lt_succ_self _⟩
  copies c hc := ⟨(h.copies c hc).1, Nat.lt_succ_of_lt (h.copies c hc).2⟩
  uploadsAscend := by
    refine List.pairwise_append.2 ⟨h.uploadsAscend,
      List.pairwise_singleton _ _, fun v hv w hw => ?_⟩
    rw [List.mem_singleton.1 hw]
    exact (h.uploads v hv).2
  copiesAscend := h.copiesAscend
  apart v hv c hc := by
    rcases List.mem_append.1 hv with hv | hv
    · exact h.apart v hv c hc
    · rw [List.mem_singleton.1 hv]
      exact (h.copies c hc).2.ne'

theorem addBlockCopy (hcopy : CopyOk images copy) : InOrder images (command.addBlockCopy copy) where
  uploads v hv := ⟨(h.uploads v hv).1, Nat.lt_succ_of_lt (h.uploads v hv).2⟩
  copies c hc := by
    rcases List.mem_append.1 hc with hc | hc
    · exact ⟨(h.copies c hc).1, Nat.lt_succ_of_lt (h.copies c hc).2⟩
    · rw [List.mem_singleton.1 hc]
      refine ⟨fun source destination hsource hdestination => ?_, Nat.lt_succ_self _⟩
      obtain ⟨h1, h2, h3, h4, h5, h6, h7, h8⟩ := hcopy source destination hsource hdestination
      exact ⟨h1, h2, h3, h4, h5, h6, h7, h8⟩
  uploadsAscend := h.uploadsAscend
  copiesAscend := by
    refine List.pairwise_append.2 ⟨h.copiesAscend, List.pairwise_singleton _ _, fun c hc d hd => ?_⟩
    rw [List.mem_singleton.1 hd]
    exact (h.copies c hc).2
  apart v hv c hc := by
    rcases List.mem_append.1 hc with hc | hc
    · exact h.apart v hv c hc
    · rw [List.mem_singleton.1 hc]
      exact (h.uploads v hv).2.ne

end InOrder

theorem Recorded.inOrder (hnull : images 0 = none) (h : Recorded images command) :
    InOrder images command := by
  induction h with
  | begin => exact ⟨nofun, nofun, .nil, .nil, nofun⟩
  | @uploads command h added hadded ih =>
    clear h
    induction added generalizing command with
    | nil => exact ih
    | cons upload added hrest =>
      rw [List.forall_mem_cons] at hadded
      exact hrest hadded.2 (ih.addUpload hadded.1)
  | @blockCopies command h added hadded ih =>
    clear h
    induction added generalizing command with
    | nil => exact ih
    | cons copy added hrest =>
      rw [List.forall_mem_cons] at hadded
      exact hrest hadded.2 (ih.addBlockCopy (hadded.1.ok hnull))
  | staging h staging ih =>
    exact ⟨ih.uploads, ih.copies, ih.uploadsAscend, ih.copiesAscend, ih.apart⟩
  | secondary h secondary span ih =>
    exact ⟨fun v hv => ⟨(ih.uploads v hv).1, (ih.uploads v hv).2.trans_le (Nat.le_add_right _ _)⟩,
      fun c hc => ⟨(ih.copies c hc).1, (ih.copies c hc).2.trans_le (Nat.le_add_right _ _)⟩,
      ih.uploadsAscend, ih.copiesAscend, ih.apart⟩

/-! Uploads and block copies as one list of events. -/

abbrev Event := PendingUpload ⊕ BlockCopy

abbrev orderOf : Event → Nat := stamp PendingUpload.order BlockCopy.order

/-- The events of a record, the earliest first. -/
def events (command : CommandRecord) : List Event :=
  interleave PendingUpload.order BlockCopy.order command.uploads command.blockCopies

def replayEvent (compressed : Nat → Bytes) (images : Images) : Event → Images
  | .inl upload => emitUpload images upload (compressed upload.order)
  | .inr copy => fillBlockCopy images copy

def keptEvent (sourceKept : BlockCopy → Bool) (handle : VkImage) (mip : Nat)
    (kept : Bool) : Event → Bool
  | .inl upload => keptUpload handle mip kept upload
  | .inr copy => keptCopy sourceKept handle mip kept copy

theorem replayLoop_eq (uploads : List PendingUpload) (copies : List BlockCopy) :
    replayLoop compressed images uploads copies =
      (interleave PendingUpload.order BlockCopy.order uploads copies).foldl
      (replayEvent compressed) images := by
  fun_induction replayLoop compressed images uploads copies with
  | case1 images uploads =>
    rw [interleave_nil, List.foldl_map]
    rfl
  | case2 images copy copies ih =>
    rw [ih, interleave, interleave]
    rfl
  | case3 images upload uploads copy copies hlt ih =>
    rw [ih, interleave, if_pos hlt]
    rfl
  | case4 images upload uploads copy copies hge ih =>
    rw [ih, interleave, if_neg hge]
    rfl

theorem takeWhile_next {e : Event} {es : List Event} {before : Nat} (h : orderOf e < before) :
    (e :: es).takeWhile (fun e => orderOf e < before) = e :: es.takeWhile fun e =>
      orderOf e < before :=
  List.takeWhile_cons_of_pos (decide_eq_true h)

theorem takeWhile_stop {e : Event} {es : List Event} {before : Nat} (h : before ≤ orderOf e) :
    (e :: es).takeWhile (fun e => orderOf e < before) = [] :=
  List.takeWhile_cons_of_neg (by rw [decide_eq_true_eq]; omega)

/-- The loop stops at the first event that is not before. -/
theorem keptLoop_eq (sourceKept : BlockCopy → Bool) (handle : VkImage)
    (mip before : Nat) (kept : Bool)
    (uploads : List PendingUpload) (copies : List BlockCopy) :
    keptLoop sourceKept handle mip before kept uploads copies =
      ((interleave PendingUpload.order BlockCopy.order uploads copies).takeWhile
        (fun e => orderOf e < before)).foldl (keptEvent sourceKept handle mip) kept := by
  fun_induction keptLoop sourceKept handle mip before kept uploads copies with
  | case1 kept =>
    rw [interleave_nil]
    rfl
  | case2 kept upload uploads hlt ih =>
    rw [ih, interleave_nil, interleave_nil, List.map_cons, takeWhile_next hlt]
    rfl
  | case3 kept upload uploads hge =>
    rw [interleave_nil, List.map_cons, takeWhile_stop (Nat.not_lt.1 hge)]
    rfl
  | case4 kept copy copies hge =>
    rw [interleave, List.map_cons, takeWhile_stop hge]
    rfl
  | case5 kept copy copies hlt ih =>
    rw [ih, interleave, interleave, List.map_cons, takeWhile_next (Nat.not_le.1 hlt)]
    rfl
  | case6 kept upload uploads copy copies hlt ih =>
    rw [ih, interleave, if_pos hlt.2, takeWhile_next hlt.1]
    rfl
  | case7 kept upload uploads copy copies hnot hge =>
    rw [interleave]
    split
    · rw [takeWhile_stop (Nat.not_lt.1 fun hlt => hnot ⟨hlt, ‹_›⟩)]
      rfl
    · rw [takeWhile_stop hge]
      rfl
  | case8 kept upload uploads copy copies hnot hlt ih =>
    have hlast : ¬ upload.order < copy.order := fun hbefore =>
      hnot ⟨hbefore.trans (Nat.not_le.1 hlt), hbefore⟩
    rw [ih, interleave, if_neg hlast, takeWhile_next (Nat.not_le.1 hlt)]
    rfl

namespace InOrder

variable (h : InOrder images command)

include h

theorem events_pairwise : (events command).Pairwise fun a b => orderOf a < orderOf b :=
  interleave_pairwise h.uploadsAscend h.copiesAscend h.apart

theorem order_lt {e : Event} (he : e ∈ events command) : orderOf e < command.nextOrder := by
  cases e with
  | inl upload => exact (h.uploads upload (inl_mem_interleave.1 he)).2
  | inr copy => exact (h.copies copy (inr_mem_interleave.1 he)).2

/-- Sorting the uploads and the copies changes nothing. -/
theorem replay_eq :
    replay compressed images command = (events command).foldl (replayEvent compressed) images := by
  rw [replay, List.mergeSort_of_pairwise, List.mergeSort_of_pairwise, replayLoop_eq]
  · rfl
  · exact h.copiesAscend.imp fun hlt => decide_eq_true hlt.le
  · exact h.uploadsAscend.imp fun hlt => decide_eq_true hlt.le

end InOrder

/-! The blocks of a mip. -/

/-- The image has kept blocks of the mip, of full size. -/
def Whole (images : Images) (handle : VkImage) (mip : Nat) : Prop :=
  ∃ image blocks, images handle = some image ∧ image.blocks mip = some blocks ∧
    blocks.length = image.mipBytes mip

/-- No image has the handle, or it has no kept blocks of the mip. -/
def Missing (images : Images) (handle : VkImage) (mip : Nat) : Prop :=
  ∀ image, images handle = some image → image.blocks mip = none

theorem Missing.not_whole (h : Missing images handle mip) : ¬ Whole images handle mip := by
  rintro ⟨image, blocks, himage, hblocks, -⟩
  rw [h image himage] at hblocks
  cases hblocks

/-- An upload of the application's levels into a mip. -/
def uploadsTo (handle : VkImage) (mip : Nat) (upload : PendingUpload) : Bool :=
  upload.image == handle && upload.mipLevel == mip && !upload.topLevel

def copiesTo (handle : VkImage) (mip : Nat) (copy : BlockCopy) : Bool :=
  copy.keep == handle && copy.keepMip == mip

/-- A copy that fills its mip. -/
def fills (copy : BlockCopy) : Bool :=
  copy.keepX == 0 && copy.keepY == 0 && copy.wide == copy.keepBlocksWide &&
    copy.high == copy.keepBlocksHigh

/-- An upload of several layers spoils a mip until it is written whole, by an upload or a copy. A
copy out of a spoiled mip spoils. The events are those so far, the last one first. -/
def spoiled : List Event → VkImage → Nat → Bool
  | [], _, _ => false
  | .inl upload :: past, handle, mip =>
    if uploadsTo handle mip upload then
      upload.layers != 1 || (!upload.fullMip && spoiled past handle mip)
    else spoiled past handle mip
  | .inr copy :: past, handle, mip =>
    if copiesTo handle mip copy then spoiled past copy.image copy.mip ||
      (!fills copy && spoiled past handle mip)
    else spoiled past handle mip

theorem modify_self {f : Image → Option Bytes} (h : images handle = some image) :
    images.modify handle mip f handle =
      some { image with blocks := Function.update image.blocks mip (f image) } := by
  rw [Images.modify, h]
  exact Function.update_self ..

theorem modify_none {f : Image → Option Bytes} (h : images handle = none) :
    images.modify handle mip f = images := by
  rw [Images.modify, h]

theorem modify_other {f : Image → Option Bytes} (h : handle' ≠ handle) :
    images.modify handle mip f handle' = images handle' := by
  cases himage : images handle with
  | none => rw [modify_none himage]
  | some image =>
    rw [Images.modify, himage]
    exact Function.update_of_ne h ..

/-- What the replay may change of an image: nothing but its blocks. -/
def view (images : Images) (handle : VkImage) (mip : Nat) : Option (ImageRecord × Option Bytes) :=
  (images handle).map fun image => (image.record, image.blocks mip)

/-- A change of another mip. -/
theorem view_modify {f : Image → Option Bytes} (h : handle' = handle → mip' ≠ mip) :
    view (images.modify handle mip f) handle' mip' = view images handle' mip' := by
  rcases eq_or_ne handle' handle with rfl | hne
  · cases himage : images handle' with
    | none => rw [modify_none himage]
    | some image =>
      rw [view, view, modify_self himage, himage]
      simp only [Option.map_some, Function.update_of_ne (h rfl)]
  · rw [view, view, modify_other hne]

theorem records_modify {f : Image → Option Bytes} :
    (images.modify handle mip f handle').map Image.record = (images handle').map Image.record := by
  rcases eq_or_ne handle' handle with rfl | hne
  · cases himage : images handle' with
    | none => rw [modify_none himage, himage]
    | some image =>
      rw [modify_self himage]
      rfl
  · rw [modify_other hne]

theorem whole_iff : Whole images handle mip ↔
    ∃ record blocks, view images handle mip = some (record, some blocks) ∧
    blocks.length = mipBlocks record.width mip * mipBlocks record.height mip *
      etcBlockBytes record.format := by
  constructor
  · rintro ⟨image, blocks, himage, hblocks, hlength⟩
    exact ⟨image.record, blocks, by rw [view, himage, Option.map_some, hblocks], hlength⟩
  · rintro ⟨record, blocks, hview, hlength⟩
    obtain ⟨image, himage, heq⟩ := Option.map_eq_some_iff.1 hview
    simp only [Prod.mk.injEq] at heq
    obtain ⟨rfl, hblocks⟩ := heq
    exact ⟨image, blocks, himage, hblocks, hlength⟩

theorem missing_iff : Missing images handle mip ↔
    ∀ record blocks, view images handle mip ≠ some (record, some blocks) := by
  constructor
  · intro h record blocks hview
    obtain ⟨image, himage, heq⟩ := Option.map_eq_some_iff.1 hview
    simp only [Prod.mk.injEq] at heq
    rw [h image himage] at heq
    cases heq.2
  · intro h image himage
    cases hblocks : image.blocks mip with
    | none => rfl
    | some blocks =>
      exact absurd (by rw [view, himage, Option.map_some, hblocks]) (h image.record blocks)

theorem whole_congr (h : view images' handle mip = view images handle mip) :
    Whole images' handle mip ↔ Whole images handle mip := by
  rw [whole_iff, whole_iff, h]

theorem missing_congr (h : view images' handle mip = view images handle mip) :
    Missing images' handle mip ↔ Missing images handle mip := by
  rw [missing_iff, missing_iff, h]

theorem whole_modify {f : Image → Option Bytes} (himage : images handle = some image)
    (hf : f image = some blocks)
    (hlength : blocks.length = image.mipBytes mip) :
    Whole (images.modify handle mip f) handle mip :=
  ⟨_, blocks, modify_self himage, (Function.update_self ..).trans hf, hlength⟩

theorem missing_modify {f : Image → Option Bytes}
    (hf : ∀ image, images handle = some image → f image = none) :
    Missing (images.modify handle mip f) handle mip := by
  intro image himage
  cases hold : images handle with
  | none =>
    rw [modify_none hold, hold] at himage
    cases himage
  | some old =>
    rw [modify_self hold] at himage
    cases himage
    exact (Function.update_self ..).trans (hf old hold)

/-! One upload. -/

/-- A row of a region inside a mip is inside the mip. -/
theorem row_le {wide high x y blockBytes regionWide row : Nat} (hwide : x + regionWide ≤ wide)
    (hhigh : y + row < high) :
    ((y + row) * wide + x) * blockBytes + regionWide * blockBytes ≤ wide * high * blockBytes := by
  have hrow : (y + row) * wide + x + regionWide ≤ wide * high := by
    have hnext : (y + row + 1) * wide ≤ high * wide := Nat.mul_le_mul_right _ hhigh
    rw [Nat.succ_mul, Nat.mul_comm high] at hnext
    omega
  rw [← Nat.add_mul]
  exact Nat.mul_le_mul_right _ hrow

/-- Rows inside a mip do not change its size. -/
theorem length_copyRows {wide high x y blockBytes regionWide rows : Nat}
    {blocks : Bytes} (source : Bytes)
    (hlength : blocks.length = wide * high * blockBytes) (hwide : x + regionWide ≤ wide)
    (hhigh : y + rows ≤ high) :
    (copyRows blocks wide x y blockBytes (regionWide * blockBytes) rows source).length =
      blocks.length := by
  unfold copyRows
  induction rows with
  | zero => rfl
  | succ rows ih =>
    rw [List.range_succ, List.foldl_append]
    refine (length_overwrite ?_).trans (ih (by omega))
    have hrow : ((y + rows) * wide + x) * blockBytes + regionWide * blockBytes ≤
        wide * high * blockBytes :=
      row_le hwide (by omega)
    rw [ih (by omega), hlength, slice, List.length_take]
    omega

theorem records_emitUpload (bytes : Bytes) :
    (emitUpload images upload bytes handle).map Image.record =
    (images handle).map Image.record := by
  unfold emitUpload storeScaledUpload
  split
  · rfl
  · split <;> exact records_modify

/-- An upload changes its own mip only, and a top level none. -/
theorem view_emitUpload (bytes : Bytes) (h : uploadsTo handle mip upload = false) :
    view (emitUpload images upload bytes) handle mip = view images handle mip := by
  unfold emitUpload storeScaledUpload
  split
  · rfl
  · rename_i htop
    have hmip : handle = upload.image → mip ≠ upload.mipLevel := by
      rintro rfl rfl
      simp [uploadsTo, htop] at h
    split <;> exact view_modify hmip

theorem uploadsTo_iff : uploadsTo handle mip upload = true ↔
    upload.image = handle ∧ upload.mipLevel = mip ∧ upload.topLevel = false := by
  simp [uploadsTo, and_assoc]

theorem whole_emitUpload_full {bytes : Bytes} (h : uploadsTo handle mip upload = true)
    (himage : images handle = some image) (hfits : UploadFits image upload)
    (hfull : upload.fullMip = true)
    (hbytes : bytes.length = upload.compressed) :
    Whole (emitUpload images upload bytes) handle mip := by
  obtain ⟨rfl, rfl, htop⟩ := uploadsTo_iff.1 h
  rw [emitUpload, storeScaledUpload, if_neg (by simp [htop]), if_pos hfull]
  refine whole_modify himage rfl ?_
  rw [List.length_take, hbytes, Nat.min_self, (hfits.full hfull).2]

theorem whole_emitUpload_part {bytes : Bytes} (h : uploadsTo handle mip upload = true)
    (hfits : ∀ image, images handle = some image → UploadFits image upload)
    (hfull : upload.fullMip = false)
    (hlayers : upload.layers = 1) (hwhole : Whole images handle mip) :
    Whole (emitUpload images upload bytes) handle mip := by
  obtain ⟨rfl, rfl, htop⟩ := uploadsTo_iff.1 h
  obtain ⟨image, blocks, himage, hblocks, hlength⟩ := hwhole
  have himageFits := hfits image himage
  obtain ⟨hx, hy, hwide, hhigh⟩ := himageFits.part hfull hlayers
  have hlength' : blocks.length = mipBlocks image.record.width upload.mipLevel *
      mipBlocks image.record.height upload.mipLevel * etcBlockBytes upload.format := by
    rw [himageFits.format]
    exact hlength
  rw [emitUpload, storeScaledUpload, if_neg (by simp [htop]), if_neg (by simp [hfull])]
  refine whole_modify himage ?_ ((length_copyRows bytes hlength' hwide hhigh).trans hlength)
  rw [hblocks, patchKeptBlocks]
  refine if_neg ?_
  rintro (hne | hne | hne | hne | hlt | hlt)
  · exact hne hlayers
  · exact hne hlength'
  · exact hne hx
  · exact hne hy
  · omega
  · omega

/-- An upload of several layers leaves no blocks, and one that is not of the whole mip leaves none
where there are none. -/
theorem missing_emitUpload {bytes : Bytes} (h : uploadsTo handle mip upload = true)
    (hfull : upload.fullMip = false)
    (hmissing : upload.layers ≠ 1 ∨ Missing images handle mip) :
    Missing (emitUpload images upload bytes) handle mip := by
  obtain ⟨rfl, rfl, htop⟩ := uploadsTo_iff.1 h
  rw [emitUpload, storeScaledUpload, if_neg (by simp [htop]), if_neg (by simp [hfull])]
  refine missing_modify fun image himage => ?_
  cases hblocks : image.blocks upload.mipLevel with
  | none => rfl
  | some blocks =>
    rw [patchKeptBlocks]
    refine if_pos (.inl ?_)
    rcases hmissing with hne | hmissing
    · exact hne
    · rw [hmissing image himage] at hblocks
      cases hblocks

/-! One block copy. -/

theorem records_keepBlocks (blocks : Option Bytes) :
    (keepBlocks images copy blocks handle).map Image.record = (images handle).map Image.record := by
  unfold keepBlocks
  split
  · rfl
  · exact records_modify

theorem view_keepBlocks (blocks : Option Bytes) (h : copiesTo handle mip copy = false) :
    view (keepBlocks images copy blocks) handle mip = view images handle mip := by
  unfold keepBlocks
  split
  · rfl
  · refine view_modify ?_
    rintro rfl rfl
    simp [copiesTo] at h

theorem fillBlockCopy_eq : ∃ blocks, fillBlockCopy images copy = keepBlocks images copy blocks ∧
    (Missing images copy.image copy.mip → blocks = none) := by
  unfold fillBlockCopy
  split
  · exact ⟨none, rfl, fun _ => rfl⟩
  · rename_i blocks hblocks
    split
    · exact ⟨none, rfl, fun _ => rfl⟩
    · refine ⟨_, rfl, fun hmissing => ?_⟩
      obtain ⟨image, himage, hkept⟩ := Option.bind_eq_some_iff.1 hblocks
      rw [hmissing image himage] at hkept
      cases hkept

theorem records_fillBlockCopy :
    (fillBlockCopy images copy handle).map Image.record = (images handle).map Image.record := by
  obtain ⟨blocks, hfill, -⟩ := @fillBlockCopy_eq images copy
  rw [hfill, records_keepBlocks]

theorem view_fillBlockCopy (h : copiesTo handle mip copy = false) :
    view (fillBlockCopy images copy) handle mip = view images handle mip := by
  obtain ⟨blocks, hfill, -⟩ := @fillBlockCopy_eq images copy
  rw [hfill, view_keepBlocks blocks h]

theorem copiesTo_iff : copiesTo handle mip copy = true ↔ copy.keep = handle ∧
    copy.keepMip = mip := by
  simp [copiesTo]

theorem fills_iff : fills copy = true ↔ copy.keepX = 0 ∧ copy.keepY = 0 ∧
    copy.wide = copy.keepBlocksWide ∧
    copy.high = copy.keepBlocksHigh := by
  simp [fills, and_assoc]

/-- A copy without its source's blocks leaves no blocks, and one that does not fill the mip leaves
none where there are none. -/
theorem missing_fillBlockCopy (hnull : images 0 = none) (h : copiesTo handle mip copy = true)
    (hmissing : Missing images copy.image copy.mip ∨ fills copy = false ∧
      Missing images handle mip) :
    Missing (fillBlockCopy images copy) handle mip := by
  obtain ⟨rfl, rfl⟩ := copiesTo_iff.1 h
  obtain ⟨blocks, hfill, hnone⟩ := @fillBlockCopy_eq images copy
  rw [hfill]
  unfold keepBlocks
  split
  · rename_i hzero
    rw [hzero]
    intro image himage
    rw [hnull] at himage
    cases himage
  · refine missing_modify fun image himage => ?_
    rcases hmissing with hsource | ⟨hpart, hdestination⟩
    · rw [hnone hsource]
    · cases blocks with
      | none => rfl
      | some region =>
        simp only
        split
        · rfl
        · rename_i hfit
          rw [if_neg fun hwhole => by simp [fills_iff.2 hwhole.2] at hpart,
            hdestination image himage]

/-- The region of a copy whose source has its blocks. -/
theorem fillBlockCopy_whole (hsourceImage : images copy.image = some source)
    (hfits : CopyFits source destination copy) (hsource : Whole images copy.image copy.mip) :
    ∃ region, fillBlockCopy images copy = keepBlocks images copy (some region) ∧
      region.length = copy.high * (copy.wide * copy.blockBytes) := by
  obtain ⟨image, blocks, himage, hblocks, hlength⟩ := hsource
  rw [hsourceImage] at himage
  cases himage
  have hsize : blocks.length = copy.mipBlocksWide * copy.mipBlocksHigh * copy.blockBytes := by
    rw [hlength, hfits.mipWide, hfits.mipHigh, hfits.sourceBytes]
    rfl
  obtain ⟨hwide, hhigh⟩ := hfits.sourceFits
  have hkept : sourceBlocks images copy = some blocks := by
    rw [sourceBlocks, hsourceImage, Option.bind_some, hblocks]
  rw [fillBlockCopy, hkept]
  simp only
  rw [if_neg (by omega)]
  refine ⟨_, rfl, length_pieces fun row hrow => length_slice ?_⟩
  rw [hsize]
  exact row_le hwide (by omega)

theorem whole_fillBlockCopy (hzero : handle ≠ 0) (h : copiesTo handle mip copy = true)
    (hdestination : images handle = some destination)
    (hsourceImage : images copy.image = some source)
    (hfits : CopyFits source destination copy) (hsource : Whole images copy.image copy.mip)
    (hwhole : fills copy = true ∨ Whole images handle mip) :
    Whole (fillBlockCopy images copy) handle mip := by
  obtain ⟨rfl, rfl⟩ := copiesTo_iff.1 h
  obtain ⟨region, hfill, hlength⟩ := fillBlockCopy_whole hsourceImage hfits hsource
  have hbytes : destination.mipBytes copy.keepMip =
      copy.keepBlocksWide * copy.keepBlocksHigh * copy.blockBytes := by
    rw [hfits.keepWide, hfits.keepHigh, hfits.keepBytes]
    rfl
  rw [hfill, keepBlocks, if_neg hzero]
  by_cases hall : fills copy = true
  · obtain ⟨hx, hy, hwide, hhigh⟩ := fills_iff.1 hall
    refine @whole_modify _ _ _ region _ _ hdestination ?_ ?_
    · simp only
      rw [if_neg (not_not.2 hfits.keepFits), if_pos ⟨hfits.keepFits, hx, hy, hwide, hhigh⟩]
    · rw [hlength, hbytes, hwide, hhigh, Nat.mul_left_comm, Nat.mul_assoc]
  · obtain ⟨image, blocks, himage, hblocks, hkept⟩ := hwhole.resolve_left hall
    rw [hdestination] at himage
    cases himage
    rw [hbytes] at hkept
    refine whole_modify hdestination ?_
      ((length_copyRows region hkept hfits.keepFits.1 hfits.keepFits.2).trans
        (hkept.trans hbytes.symm))
    simp only
    rw [if_neg (not_not.2 hfits.keepFits), if_neg fun hwhole =>
      hall (fills_iff.2 hwhole.2), hblocks]
    simp only
    rw [if_neg (not_not.2 hkept)]

/-! Runs. -/

/-- The same images, but for their kept blocks. -/
def SameRecords (images images' : Images) : Prop :=
  ∀ handle, (images' handle).map Image.record = (images handle).map Image.record

theorem SameRecords.before (h : SameRecords images images') (himage : images' handle = some image) :
    ∃ old, images handle = some old ∧ old.record = image.record := by
  have hat := h handle
  rw [himage] at hat
  exact Option.map_eq_some_iff.1 hat.symm

theorem SameRecords.after (h : SameRecords images images') (himage : images handle = some image) :
    ∃ new, images' handle = some new ∧ new.record = image.record := by
  have hat := h handle
  rw [himage] at hat
  exact Option.map_eq_some_iff.1 hat

theorem SameRecords.absent (h : SameRecords images images') (himage : images handle = none) :
    images' handle = none := by
  have hat := h handle
  rw [himage] at hat
  exact Option.map_eq_none_iff.1 hat

theorem sameRecords_replayEvent (e : Event) :
    SameRecords images (replayEvent compressed images e) := by
  intro handle
  cases e with
  | inl upload => exact records_emitUpload _
  | inr copy => exact records_fillBlockCopy

theorem sameRecords_replay (es : List Event) :
    SameRecords images (es.foldl (replayEvent compressed) images) := by
  induction es generalizing images with
  | nil => exact fun _ => rfl
  | cons e es ih => exact fun handle => (ih handle).trans (sameRecords_replayEvent e handle)

theorem UploadFits.congr (h : UploadFits image upload) (hrecord : image.record = found.record) :
    UploadFits found upload := by
  have hbytes : image.mipBytes = found.mipBytes := by
    funext mip
    rw [Image.mipBytes, hrecord, Image.mipBytes]
  exact ⟨hrecord ▸ h.format, hbytes ▸ h.full, hrecord ▸ h.part⟩

/-- An upload fits the image that it is replayed on. -/
theorem SameRecords.uploadFits (h : SameRecords images images')
    (hupload : UploadRecorded images upload)
    (htop : upload.topLevel = false) : ∃ image, images' upload.image = some image ∧
      UploadFits image upload := by
  obtain ⟨image, himage, hfits⟩ := hupload.fits
  obtain ⟨new, hnew, hrecord⟩ := h.after himage
  exact ⟨new, hnew, (hfits htop).congr hrecord.symm⟩

theorem SameRecords.copyFits (h : SameRecords images images') (hcopy : CopyOk images copy)
    (hsource : images' copy.image = some source)
    (hdestination : images' copy.keep = some destination) :
    CopyFits source destination copy := by
  obtain ⟨source', hsource', hrecord⟩ := h.before hsource
  obtain ⟨destination', hdestination', hrecord'⟩ := h.before hdestination
  obtain ⟨h1, h2, h3, h4, h5, h6, h7, h8⟩ := hcopy source' destination' hsource' hdestination'
  rw [hrecord] at h1 h2 h3
  rw [hrecord'] at h5 h6 h7
  exact ⟨h1, h2, h3, h4, h5, h6, h7, h8⟩

/-- What is spoiled has no blocks. -/
theorem missing_of_spoiled (hnull : images 0 = none) (h : InOrder images command) (es : List Event)
    (hes : ∀ e ∈ es, e ∈ events command) (hspoiled : spoiled es.reverse handle mip = true) :
    Missing (es.foldl (replayEvent compressed) images) handle mip := by
  induction es using List.reverseRecOn generalizing handle mip with
  | nil => cases hspoiled
  | append_singleton es e ih =>
    have hrest : ∀ handle mip, spoiled es.reverse handle mip = true →
        Missing (es.foldl (replayEvent compressed) images) handle mip :=
      fun _ _ => ih fun d hd => hes d (List.mem_append_left _ hd)
    have hlast := hes e (List.mem_append_right _ (List.mem_singleton_self e))
    have hsame : SameRecords images (es.foldl (replayEvent compressed) images) :=
      sameRecords_replay es
    rw [List.reverse_append] at hspoiled
    rw [List.foldl_append]
    cases e with
    | inl upload =>
      change (if uploadsTo handle mip upload then _ else _) = true at hspoiled
      change Missing (emitUpload _ upload _) handle mip
      split at hspoiled
      · rename_i hto
        rw [Bool.or_eq_true, Bool.and_eq_true, Bool.not_eq_true', bne_iff_ne] at hspoiled
        have hfull : upload.fullMip = false := by
          rcases hspoiled with hlayers | ⟨hpart, -⟩
          · obtain ⟨image, -, hfits⟩ :=
              hsame.uploadFits (h.uploads upload (inl_mem_interleave.1 hlast)).1
                (uploadsTo_iff.1 hto).2.2
            exact Bool.eq_false_iff.2 fun hfull => hlayers (hfits.full hfull).1
          · exact hpart
        exact missing_emitUpload hto hfull (hspoiled.imp_right fun hpast =>
          hrest handle mip hpast.2)
      · exact (missing_congr (view_emitUpload _ (Bool.eq_false_iff.2 ‹_›))).2
          (hrest handle mip hspoiled)
    | inr copy =>
      change (if copiesTo handle mip copy then _ else _) = true at hspoiled
      change Missing (fillBlockCopy _ copy) handle mip
      split at hspoiled
      · rename_i hto
        rw [Bool.or_eq_true, Bool.and_eq_true, Bool.not_eq_true'] at hspoiled
        refine missing_fillBlockCopy (hsame.absent hnull) hto
          (hspoiled.imp (hrest _ _) fun hpast => ?_)
        exact ⟨hpast.1, hrest handle mip hpast.2⟩
      · exact (missing_congr (view_fillBlockCopy (Bool.eq_false_iff.2 ‹_›))).2
          (hrest handle mip hspoiled)

/-- The blocks a mip has at the beginning, as `BlocksWillBeKeptLocked` sees them. -/
def keptFirst (image : Image) (mip : Nat) : Bool := (image.blocks mip).any fun blocks =>
    blocks.length = image.mipBytes mip

theorem whole_of_keptFirst (himage : images handle = some image) (h : keptFirst image mip = true) :
    Whole images handle mip := by
  obtain ⟨blocks, hblocks, hlength⟩ := (Option.any_eq_true _ _).1 h
  exact ⟨image, blocks, himage, hblocks, of_decide_eq_true hlength⟩

theorem keptUpload_of_not (h : uploadsTo handle mip upload = false) (kept : Bool) :
    keptUpload handle mip kept upload = kept := by
  refine if_neg ?_
  rintro ⟨himage, hmip, htop, -⟩
  rw [uploadsTo_iff.2 ⟨himage, hmip, Bool.eq_false_iff.2 htop⟩] at h
  cases h

theorem keptUpload_of_part (h : upload.fullMip = false) (kept : Bool) :
    keptUpload handle mip kept upload = kept := by
  refine if_neg ?_
  rintro ⟨-, -, -, hfull, -⟩
  rw [h] at hfull
  cases hfull

theorem keptCopy_of_not (sourceKept : BlockCopy → Bool) (h : copiesTo handle mip copy = false)
    (kept : Bool) :
    keptCopy sourceKept handle mip kept copy = kept := by
  refine if_pos ?_
  by_contra hboth
  rw [not_or, not_not, not_not] at hboth
  rw [copiesTo_iff.2 hboth] at h
  cases h

theorem keptCopy_of_to (sourceKept : BlockCopy → Bool) (h : copiesTo handle mip copy = true)
    (kept : Bool)
    (hkept : keptCopy sourceKept handle mip kept copy = true) :
    (fills copy = true ∨ kept = true) ∧ sourceKept copy = true := by
  obtain ⟨himage, hmip⟩ := copiesTo_iff.1 h
  rw [keptCopy, if_neg (by simp [himage, hmip]), Bool.and_eq_true, Bool.or_eq_true,
    decide_eq_true_eq] at hkept
  exact ⟨hkept.1.imp_left fills_iff.2, hkept.2⟩

section Prediction

variable {commands : Commands} {commandBuffer : VkCommandBuffer}

/-- One depth of the recursion is the fold over the events before. -/
theorem locked_succ (hlookup : commands.lookup commandBuffer = some command) {left before : Nat}
    (h : blocksWillBeKeptLocked images commands commandBuffer (left + 1) handle mip before = true) :
    ∃ image, images handle = some image ∧
      ((events command).takeWhile fun e => orderOf e < before).foldl
        (keptEvent (fun copy =>
          blocksWillBeKeptLocked images commands commandBuffer left copy.image
            copy.mip copy.order) handle mip)
        (keptFirst image mip) = true := by
  unfold blocksWillBeKeptLocked at h
  split at h
  · cases h
  · rename_i image himage
    rw [hlookup] at h
    simp only at h
    rw [keptLoop_eq] at h
    exact ⟨image, himage, h⟩

/-- The events so far, when what is said of the sources of copies is right. -/
theorem whole_of_events (hnull : images 0 = none) (h : InOrder images command)
    (hbytes : ∀ upload ∈ command.uploads, (compressed upload.order).length = upload.compressed)
    {sourceKept : BlockCopy → Bool}
    (hsource : ∀ copy es rest, events command = es ++ .inr copy :: rest → sourceKept copy = true →
      spoiled es.reverse copy.image copy.mip = false →
        Whole (es.foldl (replayEvent compressed) images) copy.image copy.mip)
    (es : List Event) {rest : List Event} (hevents : events command = es ++ rest)
    (himage : images handle = some image)
    (hkept : es.foldl (keptEvent sourceKept handle mip) (keptFirst image mip) = true)
    (hspoiled : spoiled es.reverse handle mip = false) :
    Whole (es.foldl (replayEvent compressed) images) handle mip := by
  induction es using List.reverseRecOn generalizing rest with
  | nil => exact whole_of_keptFirst himage hkept
  | append_singleton es e ih =>
    rw [List.append_assoc, List.singleton_append] at hevents
    have hin : e ∈ events command := hevents ▸ List.mem_append_right _ List.mem_cons_self
    have hsame : SameRecords images (es.foldl (replayEvent compressed) images) :=
      sameRecords_replay es
    rw [List.foldl_append] at hkept
    rw [List.reverse_append] at hspoiled
    rw [List.foldl_append]
    cases e with
    | inl upload =>
      have hupload := h.uploads upload (inl_mem_interleave.1 hin)
      change keptUpload handle mip _ upload = true at hkept
      change (if uploadsTo handle mip upload then _ else _) = false at hspoiled
      change Whole (emitUpload _ upload _) handle mip
      by_cases hto : uploadsTo handle mip upload = true
      · rw [if_pos hto, Bool.or_eq_false_iff, bne_eq_false_iff_eq] at hspoiled
        obtain ⟨hlayers, hpast⟩ := hspoiled
        obtain ⟨hhandle, -, htop⟩ := uploadsTo_iff.1 hto
        obtain ⟨new, hnew, hfits⟩ := hsame.uploadFits hupload.1 htop
        rw [hhandle] at hnew
        cases hfull : upload.fullMip with
        | true =>
          exact whole_emitUpload_full hto hnew hfits hfull
            (hbytes upload (inl_mem_interleave.1 hin))
        | false =>
          rw [hfull, Bool.not_false, Bool.true_and] at hpast
          rw [keptUpload_of_part hfull] at hkept
          refine whole_emitUpload_part hto (fun other hother => ?_) hfull hlayers
            (ih hevents hkept hpast)
          rw [hnew] at hother
          cases hother
          exact hfits
      · rw [Bool.not_eq_true] at hto
        rw [keptUpload_of_not hto] at hkept
        rw [hto] at hspoiled
        exact (whole_congr (view_emitUpload _ hto)).2 (ih hevents hkept hspoiled)
    | inr copy =>
      have hcopy := h.copies copy (inr_mem_interleave.1 hin)
      change keptCopy sourceKept handle mip _ copy = true at hkept
      change (if copiesTo handle mip copy then _ else _) = false at hspoiled
      change Whole (fillBlockCopy _ copy) handle mip
      by_cases hto : copiesTo handle mip copy = true
      · rw [if_pos hto, Bool.or_eq_false_iff] at hspoiled
        obtain ⟨hpastSource, hpast⟩ := hspoiled
        obtain ⟨hwhole, hsourceKept⟩ := keptCopy_of_to sourceKept hto _ hkept
        have hsourceWhole := hsource copy es rest hevents hsourceKept hpastSource
        obtain ⟨source, blocks, hsourceImage, hrest⟩ := hsourceWhole
        obtain ⟨new, hnew, -⟩ := hsame.after himage
        have hzero : handle ≠ 0 := by
          rintro rfl
          rw [hnull] at himage
          cases himage
        have hkeep : (es.foldl (replayEvent compressed) images) copy.keep = some new := by
          rw [(copiesTo_iff.1 hto).1]
          exact hnew
        refine whole_fillBlockCopy hzero hto hnew hsourceImage
          (hsame.copyFits hcopy.1 hsourceImage hkeep)
          ⟨source, blocks, hsourceImage, hrest⟩ ?_
        cases hfills : fills copy with
        | true => exact .inl rfl
        | false =>
          rw [hfills, Bool.not_false, Bool.true_and] at hpast
          rw [hfills] at hwhole
          exact .inr (ih hevents (hwhole.resolve_left Bool.false_ne_true) hpast)
      · rw [Bool.not_eq_true] at hto
        rw [keptCopy_of_not sourceKept hto] at hkept
        rw [hto] at hspoiled
        exact (whole_congr (view_fillBlockCopy hto)).2 (ih hevents hkept hspoiled)

/-- The induction is on the depths left. -/
theorem whole_of_locked (hnull : images 0 = none) (h : InOrder images command)
    (hlookup : commands.lookup commandBuffer = some command)
    (hbytes : ∀ upload ∈ command.uploads, (compressed upload.order).length = upload.compressed)
    {left before : Nat}
    {rest : List Event} {es : List Event} (hevents : events command = es ++ rest)
    (hbefore : (events command).takeWhile (fun e => orderOf e < before) = es)
    (hkept : blocksWillBeKeptLocked images commands commandBuffer left handle mip before = true)
    (hspoiled : spoiled es.reverse handle mip = false) :
    Whole (es.foldl (replayEvent compressed) images) handle mip := by
  induction left generalizing before rest es handle mip with
  | zero => cases hkept
  | succ left ih =>
    obtain ⟨image, himage, hfold⟩ := locked_succ hlookup hkept
    rw [hbefore] at hfold
    refine whole_of_events hnull h hbytes
      (fun copy past later hpast hsource hsourceSpoiled => ?_) es hevents himage
      hfold hspoiled
    have hsorted := h.events_pairwise
    have hstop := hpast ▸ takeWhile_before (hpast ▸ hsorted)
    exact ih hpast hstop hsource hsourceSpoiled

end Prediction

/-- What a command buffer has recorded; one without a record has nothing. -/
def recordOf (commands : Commands) (commandBuffer : VkCommandBuffer) : CommandRecord :=
  (commands.lookup commandBuffer).getD {}

/-- A command buffer without a record leaves the blocks that there are. -/
theorem whole_of_no_record {commands : Commands} {commandBuffer : VkCommandBuffer}
    (hlookup : commands.lookup commandBuffer = none)
    (hkept : blocksWillBeKept images commands commandBuffer handle mip = true) :
    Whole images handle mip := by
  unfold blocksWillBeKept blocksWillBeKeptLocked at hkept
  split at hkept
  · cases hkept
  · rename_i image himage
    rw [hlookup] at hkept
    exact whole_of_keptFirst himage hkept

/-- A mip that is said to be kept is whole after the replay exactly when it is not spoiled then. -/
theorem blocksWillBeKept_spec {images : Images} {commands : Commands}
    {commandBuffer : VkCommandBuffer}
    {compressed : Nat → Bytes} {image : VkImage} {mip : Nat} (hnull : images 0 = none)
    (hrecorded : Recorded images (recordOf commands commandBuffer))
    (hcounter : (recordOf commands commandBuffer).nextOrder < 2 ^ 64)
    (hgathered : ∀ upload ∈ (recordOf commands commandBuffer).uploads,
      (compressed upload.order).length = upload.compressed)
    (hkept : blocksWillBeKept images commands commandBuffer image mip = true) :
    Whole (replay compressed images (recordOf commands commandBuffer)) image mip ↔
      spoiled (events (recordOf commands commandBuffer)).reverse image mip = false := by
  have h := hrecorded.inOrder hnull
  have hall : (events (recordOf commands commandBuffer)).takeWhile
      (fun e => orderOf e < 2 ^ 64 - 1) =
      events (recordOf commands commandBuffer) := by
    refine List.takeWhile_eq_self_iff.2 fun e he => decide_eq_true ?_
    have hlt := h.order_lt he
    omega
  rw [h.replay_eq]
  constructor
  · intro hwhole
    by_contra hspoiled
    exact (missing_of_spoiled hnull h _ (fun e he => he)
      (Bool.eq_true_of_not_eq_false hspoiled)).not_whole hwhole
  · intro hspoiled
    cases hlookup : commands.lookup commandBuffer with
    | none =>
      have hempty : events (recordOf commands commandBuffer) = [] := by
        rw [recordOf, hlookup, Option.getD_none, events]
        exact interleave_nil
      rw [hempty]
      exact whole_of_no_record hlookup hkept
    | some command =>
      have hcommand : recordOf commands commandBuffer = command :=
        by rw [recordOf, hlookup, Option.getD_some]
      rw [hcommand] at h hgathered hall hspoiled ⊢
      exact whole_of_locked hnull h hlookup hgathered (List.append_nil _).symm hall hkept hspoiled

/-! An image of two layers with kept blocks, and an upload into half of it. -/

def twoLayers : Images := fun handle =>
  if handle = 1 then
    some
      { record := { format := .etc2Rgb8, width := 8, height := 4 }
        arrayLayers := 2
        blocks := fun mip => if mip = 0 then some (List.replicate 16 0) else none
        unshifted := rfl
        layered := by decide
        bounded := by decide }
  else none

def halfRegion (layers : UInt32) : Region where
  imageSubresource := { layerCount := layers }
  imageOffset := { x := 4 }
  imageExtent := { width := 4, height := 4 }

def halfUpload (layers : UInt32) : PendingUpload :=
  ((planRegion { format := .etc2Rgb8, width := 8, height := 4 } 1 1 1 0 (halfRegion layers)).map
    Prod.snd).getD {}

def halfCommands (layers : UInt32) : Commands :=
  AList.singleton 1 (({} : CommandRecord).addUploads [halfUpload layers])

theorem half_recorded {layers : UInt32} (h : layers = 1 ∨ layers = 2) :
    Recorded twoLayers (recordOf (halfCommands layers) 1) := by
  refine Recorded.uploads .begin fun upload hupload => ?_
  rw [List.mem_singleton.1 hupload]
  obtain ⟨image, himage⟩ : ∃ image, twoLayers 1 = some image := ⟨_, rfl⟩
  rcases h with rfl | rfl
  · exact ⟨image, _, 1, 1, 0, halfRegion 1, _, _, himage, .record (by cases himage; rfl),
      by cases himage; exact ⟨by decide, by decide, by decide, by decide, by decide⟩,
      by cases himage; rfl, rfl⟩
  · exact ⟨image, _, 1, 1, 0, halfRegion 2, _, _, himage, .record (by cases himage; rfl),
      by cases himage; exact ⟨by decide, by decide, by decide, by decide, by decide⟩,
      by cases himage; rfl, rfl⟩

theorem blocksWillBeKept_spec_half :
    Whole (replay (fun _ => List.replicate 8 1) twoLayers (recordOf (halfCommands 1) 1)) 1 0 :=
  (blocksWillBeKept_spec (by rfl) (half_recorded (.inl rfl)) (by decide)
    (by decide +kernel) (by decide +kernel)).2
    (by decide +kernel)

/-- Both layers at once: the blocks are said to be kept, but they are dropped. -/
theorem blocksWillBeKept_layers :
    Recorded twoLayers (recordOf (halfCommands 2) 1) ∧
      blocksWillBeKept twoLayers (halfCommands 2) 1 1 0 = true ∧
      ¬ Whole
        (replay (fun _ => List.replicate 16 1) twoLayers (recordOf (halfCommands 2) 1)) 1 0 := by
  have hrecorded := half_recorded (.inr rfl)
  have h := hrecorded.inOrder rfl
  refine ⟨hrecorded, by decide +kernel, ?_⟩
  rw [h.replay_eq]
  exact (missing_of_spoiled rfl h _ (fun e he => he) (by decide +kernel)).not_whole

end Nightcap.Graphics.Kept
