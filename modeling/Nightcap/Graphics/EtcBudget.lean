import Nightcap.Lib.Threads
import Nightcap.Graphics.EtcCommands

/-! The bytes of the emulated images: what `CreateImage` reserves and settles while other threads
create, destroy and refresh. Byte counts stay far below `2 ^ 64`; the counters are integers, so that
a subtraction that would wrap shows as a negative one. -/
namespace Nightcap.Graphics.Budget

open Transition Threads

/-! Sizes. -/

structure Extent where
  width : Nat
  height : Nat
  depth : Nat := 1
deriving DecidableEq

/-- What `CreateImage` reads of a `VkImageCreateInfo` with an emulated format. -/
structure ImageCreateInfo where
  format : EtcFormat
  /-- `VK_IMAGE_TYPE_2D`. -/
  twoDimensional : Bool := true
  optimalTiling : Bool := true
  /-- Whether the usage stays in `kBcUsage`. -/
  bcUsage : Bool := true
  mutableFormat : Bool := false
  extent : Extent
  mipLevels : Nat := 1
  arrayLayers : Nat := 1
deriving DecidableEq

def kSmallTextureMaxExtent : Nat := 64
def kOverrideUpscaleMaxExtent : Nat := 64
def kSharpestMaxExtent : Nat := 32
def kVideoFreeRefreshNs : UInt64 := 250000000

def isColorFormat (format : EtcFormat) : Bool :=
  format = .etc2Rgb8 || format = .etc2Rgb8A1 || format = .etc2Rgba8

/-- `BcBlockBytes(BcFormatFor(format))`. -/
def bcBlockBytes : EtcFormat → Nat
  | .eacR11 | .eacR11Signed => 8
  | _ => 16

/-- The largest count with `2 ^ count` at most `scale`. -/
def topLevelCount (scale : Nat) : Nat := Nat.log2 scale

def smallTextureScale (width height upscale overrideUpscale : Nat) : Nat :=
  let extent := max width height
  max (if extent ≤ kSmallTextureMaxExtent then upscale else 1)
    (if extent ≤ kOverrideUpscaleMaxExtent then overrideUpscale else 1)

def level (size mip : Nat) : Nat := max 1 (size >>> mip)

def etc2HostBlockCount (extent : Extent) (mipLevels layers scale : Nat) : Nat :=
  let blocks (size mip : Nat) := (level (size * scale) mip + 3) / 4
  ((List.range (min (mipLevels + topLevelCount scale) 32)).map fun mip =>
    blocks extent.width mip * blocks extent.height mip).sum * layers

structure TextureBytes where
  compressed : Nat := 0
  decoded : Nat := 0
deriving DecidableEq

def etc2ImageByteCounts (format : EtcFormat) (extent : Extent) (mipLevels layers scale : Nat) :
    Option TextureBytes :=
  if extent.width = 0 ∨ extent.height = 0 ∨ extent.depth = 0 ∨ mipLevels = 0 ∨
    layers = 0 ∨ scale = 0 then none
  else
    let compressed := (List.range (min mipLevels 32)).map fun mip =>
      (level extent.width mip + 3) / 4 * ((level extent.height mip + 3) / 4) *
        level extent.depth mip *
        etcBlockBytes format
    let decoded := (List.range (min (mipLevels + topLevelCount scale) 32)).map fun mip =>
      level (extent.width * scale) mip * level (extent.height * scale) mip *
        level extent.depth mip *
        etcDecodedTexelBytes format
    some ⟨compressed.sum * layers, decoded.sum * layers⟩

def hostTextureBytes (info : ImageCreateInfo) (scale : Nat) (transcoded : Bool) : Nat :=
  if transcoded then
    etc2HostBlockCount info.extent info.mipLevels info.arrayLayers scale * bcBlockBytes info.format
  else
    ((etc2ImageByteCounts info.format info.extent info.mipLevels info.arrayLayers scale).getD
      {}).decoded

/-- What the emulation and its devices were set up with. -/
structure Setup where
  upscale : Nat
  /-- `UpscaleFor` and `MayReplace` of the overrides. -/
  upscaleFor : Nat → Nat → Nat
  mayReplace : Nat → Nat → Bool
  upscaleBudget : Nat
  videoMemory : Nat
  videoMemoryOverridden : Bool
  hasBudgetQuery : Bool
  bcTextures : VkDevice → Bool
  /-- Whether there is a GPU decoder that can transcode, and one that can scale. -/
  canTranscode : VkDevice → Bool
  canScale : VkDevice → Bool

namespace Setup

variable (setup : Setup)

def scales (info : ImageCreateInfo) : Bool :=
  isColorFormat info.format && info.twoDimensional && info.optimalTiling && info.arrayLayers == 1 &&
    info.extent.depth == 1

def askedScale (info : ImageCreateInfo) : Nat :=
  if scales info then
    smallTextureScale info.extent.width info.extent.height setup.upscale
      (setup.upscaleFor info.extent.width info.extent.height)
  else 1

def overrideScale (info : ImageCreateInfo) : Nat :=
  if scales info then
    smallTextureScale info.extent.width info.extent.height 1
      (setup.upscaleFor info.extent.width info.extent.height)
  else 1

def mayOverride (info : ImageCreateInfo) : Bool :=
  isColorFormat info.format && info.arrayLayers == 1 &&
    setup.mayReplace info.extent.width info.extent.height

/-- Every emulated format has a BC format. -/
def bcEligible (device : VkDevice) (info : ImageCreateInfo) (scale : Nat) : Bool :=
  setup.bcTextures device && setup.canTranscode device && !setup.mayOverride info &&
    (scale == 1 || setup.canScale device) && info.twoDimensional &&
      info.optimalTiling && info.bcUsage &&
    !info.mutableFormat

def keepFree : Nat := max (setup.videoMemory / 10) (96 <<< 20)

end Setup

structure UpscaleRung where
  scale : Nat
  cost : Nat

/-- The scales from `scale` down to above `least`, halved each time. -/
def rungScales (least scale : Nat) : List Nat :=
  (List.iterate (· / 2) scale scale).takeWhile (least < ·)

structure ImageRecord where
  device : VkDevice
  scale : Nat
  bytes : TextureBytes
deriving DecidableEq

/-- A call of `CreateImage` in progress. -/
structure Creation where
  device : VkDevice
  info : ImageCreateInfo
  /-- Whether the caller takes the handle. -/
  wanted : Bool
  scale : Nat
  reserved : Nat := 0
  /-- Whether the image may still become a BC one. -/
  bc : Bool := true

structure Shared where
  images : List (VkImage × ImageRecord) := []
  textureCompressed : Int := 0
  textureDecoded : Int := 0
  upscaledBytes : Int := 0
  videoFreeKnown : Bool := false
  videoFree : Nat := 0
  videoFreeNs : UInt64 := 0
  reservedSinceFree : Int := 0

/-- Where a thread is: the section of `mutex` or the call of the host it enters next. -/
inductive Place
  | returned (success : Bool)
  /-- `RefreshVideoFree`, in `CreateImage` or on its own. -/
  | refreshVideoFree (c : Option Creation)
  | refreshed (c : Option Creation) (reservedBefore : Int)
  | reserveUpscale (c : Creation)
  | createImage (c : Creation)
  | releaseUpscale (c : Creation)
  | record (c : Creation) (image : VkImage)
  /-- The release of what a creation without a record had reserved, and the result of the host. -/
  | giveUp (c : Creation) (success : Bool)

/-- A thread, and what its call has added to the counters so far, which is not in the code. -/
structure Thread where
  place : Place := .returned true
  addedTexture : Int × Int := (0, 0)
  addedUpscaled : Int := 0

inductive Call
  | createImage (device : VkDevice) (info : ImageCreateInfo) (wanted : Bool)
  | destroyImage (image : VkImage)
  | destroyDevice (device : VkDevice)
  | refreshVideoFree

/-- What the clock, the driver's budget query and the host's `vkCreateImage` answer. -/
structure Answers where
  now : UInt64 := 0
  /-- The budget and the usage of the heap, if they are known. -/
  budget : Option (Nat × Nat) := none
  created : Option VkImage := none

inductive Act
  | call (c : Call)
  | step (answers : Answers)

namespace Creation

variable (setup : Setup) (c : Creation)

/-- `reserve`: what follows in it, or after it when the scale is the override's. -/
def reserve : Place :=
  let c := { c with scale := setup.askedScale c.info, reserved := 0 }
  if c.scale ≤ setup.overrideScale c.info then .createImage c else .refreshVideoFree (some c)

def rungs : List UpscaleRung :=
  (rungScales (setup.overrideScale c.info) c.scale).map fun scale =>
    ⟨scale, hostTextureBytes c.info scale (c.bc && setup.bcEligible c.device c.info scale)⟩

def transcoded : Bool := c.bc && setup.bcEligible c.device c.info c.scale

/-- The bytes of the image that was created. -/
def bytes : TextureBytes :=
  let bytes :=
    (etc2ImageByteCounts c.info.format c.info.extent c.info.mipLevels
      c.info.arrayLayers c.scale).getD {}
  if c.transcoded setup then { bytes with decoded := hostTextureBytes c.info c.scale true }
  else bytes

/-- What the image adds to `upscaled_bytes`. -/
def settled : Nat := if c.scale > 1 then (c.bytes setup).decoded else 0

end Creation

namespace Shared

variable (setup : Setup) (s : Shared)

/-- Whether a rung leaves so much video memory free. -/
def freeAfter (rung : UpscaleRung) (keepFree : Nat) : Bool :=
  s.videoFreeKnown && s.reservedSinceFree + rung.cost + keepFree ≤ s.videoFree

def fits (larger : Bool) (rung : UpscaleRung) : Bool :=
  let tight := !s.freeAfter rung (setup.keepFree * 2)
  let limit := if larger && rung.scale ≥ 4 && tight then setup.upscaleBudget / 2
      else setup.upscaleBudget
  (setup.upscaleBudget == 0 || s.upscaledBytes + rung.cost ≤ limit) &&
    (!s.videoFreeKnown || s.freeAfter rung setup.keepFree)

/-- The first rung that fits. -/
def pick (c : Creation) : Option UpscaleRung :=
  (c.rungs setup).find?
    (s.fits setup (max c.info.extent.width c.info.extent.height > kSharpestMaxExtent))

def reserve (rung : UpscaleRung) : Shared :=
  { s with
    upscaledBytes := s.upscaledBytes + rung.cost
    reservedSinceFree := s.reservedSinceFree + rung.cost }

/-- `ReleaseUpscale`. -/
def release (reserved : Nat) : Shared :=
  { s with
    upscaledBytes := s.upscaledBytes - reserved
    reservedSinceFree := s.reservedSinceFree - min s.reservedSinceFree reserved }

/-- The section of `CreateImage` that records the image. -/
def recordImage (c : Creation) (image : VkImage) : Shared :=
  let bytes := c.bytes setup
  let settled := c.settled setup
  { s with
    images := s.images.filter (·.1 ≠ image) ++ [(image, ⟨c.device, c.scale, bytes⟩)]
    textureCompressed := s.textureCompressed + bytes.compressed
    textureDecoded := s.textureDecoded + bytes.decoded
    upscaledBytes := s.upscaledBytes - c.reserved + settled
    reservedSinceFree :=
      if settled ≥ c.reserved then s.reservedSinceFree + (settled - c.reserved : Nat)
      else s.reservedSinceFree - min s.reservedSinceFree (c.reserved - settled : Nat) }

/-- What the destruction of an image takes out of the counters. -/
def without (record : ImageRecord) : Shared :=
  { s with
    textureCompressed := s.textureCompressed - record.bytes.compressed
    textureDecoded := s.textureDecoded - record.bytes.decoded
    upscaledBytes := if record.scale > 1 then s.upscaledBytes - record.bytes.decoded
      else s.upscaledBytes }

/-- The records that `images` loses, taken out one by one. -/
def drop (doomed : VkImage × ImageRecord → Bool) : Shared :=
  { (s.images.filter doomed).foldl (fun s entry => s.without entry.2) s with
    images := s.images.filter fun entry => !doomed entry }

end Shared

variable (setup : Setup)

def begin (s : Shared) : Call → Shared × Place
  | .createImage device info wanted =>
    (s, Creation.reserve setup { device, info, wanted, scale := 1 })
  | .destroyImage image => (s.drop (·.1 = image), .returned true)
  | .destroyDevice device => (s.drop (·.2.device = device), .returned true)
  | .refreshVideoFree => (s, .refreshVideoFree none)

/-- What comes after `RefreshVideoFree`. -/
def afterRefresh : Option Creation → Place
  | some c => .reserveUpscale c
  | none => .returned true

def continueCall (s : Shared) (answers : Answers) : Place → Option (Shared × Place)
  | .returned _ => none
  | .refreshVideoFree c =>
    if !setup.hasBudgetQuery || setup.videoMemoryOverridden ||
        s.videoFreeNs != 0 && answers.now - s.videoFreeNs < kVideoFreeRefreshNs then
      some (s, afterRefresh c)
    else some ({ s with videoFreeNs := answers.now }, .refreshed c s.reservedSinceFree)
  | .refreshed c reservedBefore =>
    let known := answers.budget.any fun b => b.1 != 0
    some ({ s with
        videoFreeKnown := known
        videoFree := if known then answers.budget.elim 0 fun b => b.1 - b.2 else 0
        reservedSinceFree := s.reservedSinceFree - min s.reservedSinceFree reservedBefore },
      afterRefresh c)
  | .reserveUpscale c =>
    match s.pick setup c with
    | some rung =>
      some (s.reserve rung, .createImage { c with scale := rung.scale, reserved := rung.cost })
    | none => some (s, .createImage { c with scale := setup.overrideScale c.info })
  | .createImage c =>
    match answers.created with
    | some image =>
      if c.wanted then some (s, .record c image)
      else some (s, if c.reserved ≠ 0 then .giveUp c true else .returned true)
    | none =>
      if c.transcoded setup then
        -- Left decoded, and priced again at the decoded size.
        let c := { c with bc := false }
        some (s, if c.reserved ≠ 0 then .releaseUpscale c else .createImage c)
      else some (s, if c.reserved ≠ 0 then .giveUp c false else .returned false)
  | .releaseUpscale c => some (s.release c.reserved, c.reserve setup)
  | .record c image => some (s.recordImage setup c image, .returned true)
  | .giveUp c success => some (s.release c.reserved, .returned success)

/-- A thread after a step, with what the step added to the counters. -/
def Thread.after (th : Thread) (s s' : Shared) (place : Place) : Thread where
  place := place
  addedTexture := (th.addedTexture.1 + (s'.textureCompressed - s.textureCompressed),
    th.addedTexture.2 + (s'.textureDecoded - s.textureDecoded))
  addedUpscaled := th.addedUpscaled + (s'.upscaledBytes - s.upscaledBytes)

variable {τ : Type*}

def act (_ : τ) (s : Shared) (th : Thread) : Act → Option (Shared × Thread)
  | .call c =>
    match th.place with
    | .returned _ =>
      let (s', place) := begin setup s c
      some (s', Thread.after {} s s' place)
    | _ => none
  | .step answers => (continueCall setup s answers th.place).map fun r => (r.1, th.after s r.1 r.2)

abbrev State (τ : Type*) := System τ Shared Thread

variable [DecidableEq τ]

def system : LTS (State τ) (τ × Act) := interleaving {} {} (act setup)

/-- The handle of a new image is not that of a live record, nor of an image on its way to one. -/
def DistinctHandles (st : State τ) (a : τ × Act) : Prop :=
  ∀ answers image, a.2 = .step answers → answers.created = some image →
    (∀ entry ∈ st.shared.images, entry.1 ≠ image) ∧ ∀ u c, (st.own u).place ≠ .record c image

/-- The bytes of the records that count for `upscaled_bytes`. -/
def ImageRecord.upscaled (record : ImageRecord) : Nat :=
  if record.scale > 1 then record.bytes.decoded else 0

/-- The reservation of a call of `CreateImage` in progress. -/
def Place.reservation : Place → Nat
  | .createImage c | .releaseUpscale c | .record c _ | .giveUp c _ => c.reserved
  | _ => 0

/-- What the counters promise. -/
structure Safe [Fintype τ] (st : State τ) : Prop where
  compressed :
    st.shared.textureCompressed = (st.shared.images.map fun e => e.2.bytes.compressed).sum
  decoded : st.shared.textureDecoded = (st.shared.images.map fun e => e.2.bytes.decoded).sum
  upscaled : st.shared.upscaledBytes =
    (st.shared.images.map fun e => e.2.upscaled).sum + ∑ t, (st.own t).place.reservation
  /-- What is taken out next is in. -/
  reserved : ∀ t, (st.own t).place.reservation ≤ st.shared.upscaledBytes
  sinceFree : 0 ≤ st.shared.reservedSinceFree
  failed : ∀ t, (st.own t).place = .returned false →
    (st.own t).addedTexture = (0, 0) ∧ (st.own t).addedUpscaled = 0

end Nightcap.Graphics.Budget
