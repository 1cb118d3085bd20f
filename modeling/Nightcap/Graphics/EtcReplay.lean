import Nightcap.Lib.ConflictFree
import Nightcap.Lib.Interleave
import Nightcap.Graphics.EtcBlocks
import Nightcap.Graphics.EtcImage

/-! `DecodeAndEmit`: the uploads of a submit are written by the decode workers in runs, its block
copies by the dispatcher between them. -/
namespace Nightcap.Graphics.Replay

open Slices Interleave WorkQueue ConflictFree
open Kept hiding emitUpload fillBlockCopy

/-- What the replay writes: kept blocks, and the mappings of staging blocks. -/
structure Store where
  images : Images
  staging : Pointer → UInt8

/-- An upload with its part of the gathered blocks and of the decoded texels. -/
structure EmitJob where
  upload : PendingUpload
  compressed : Bytes
  decoded : Bytes

/-- The bytes `ScaleRgba` stores, each with its offset: of a source, its width, height and stride,
and the width and height of the destination. -/
abbrev ScaleRgba := Bytes → Nat → Nat → Nat → Nat → Nat → List (Nat × UInt8)

/-! Stores, one byte at a time. -/

def Store.write (m : Store) (pointer : Pointer) (byte : UInt8) : Store :=
  { m with staging := Function.update m.staging pointer byte }

def Store.keep (m : Store) (f : Images → Images) : Store := { m with images := f m.images }

def pointerAt (target : Pointer) (offset : Nat) : Pointer :=
  { target with offset := target.offset + offset }

/-- The stores go to the target; a null one takes none. -/
def storing (target : Option Pointer) : List (Nat × UInt8) → Program Store → Program Store
  | [], p => p
  | w :: ws, p =>
    .act (fun m => target.elim m fun target => m.write (pointerAt target w.1) w.2) fun _ =>
      storing target ws p

/-- `memcpy` to an offset. -/
def memcpy (offset : Nat) (bytes : Bytes) : List (Nat × UInt8) :=
  (bytes.zipIdx offset).map Prod.swap

/-- A critical section that changes kept blocks. -/
def keeping (f : Images → Images) (p : Program Store) : Program Store :=
  .act (fun m => m.keep f) fun _ => p

/-- Four 32-bit words, lowest byte first. -/
def header (words : List Nat) : Bytes :=
  words.flatMap fun word => (List.range 4).map fun i => UInt8.ofNat (word / 256 ^ i)

/-! Uploads. -/

/-- The region's edge blocks fill the rest of the mip. -/
def edgeBlocks (upload : PendingUpload) (compressed : Bytes) : Bytes :=
  let blockBytes := etcBlockBytes upload.format
  let regionWide := (upload.width + 3) / 4
  let regionHigh := (upload.height + 3) / 4
  (List.range ((upload.sourceHeight + 3) / 4)).flatMap fun y =>
    (List.range ((upload.sourceWidth + 3) / 4)).flatMap fun x =>
      let sx := min (x - upload.regionX / 4) (regionWide - 1)
      let sy := min (y - upload.regionY / 4) (regionHigh - 1)
      slice compressed ((sy * regionWide + sx) * blockBytes) blockBytes

/-- A widened upload's whole mip: its kept blocks with the region patched in. -/
def widenedBlocks (image : Option Image) (upload : PendingUpload) (compressed : Bytes) : Bytes :=
  (image.bind fun image =>
    patchKeptBlocks (image.blocks upload.mipLevel) image.record upload compressed).getD
    (edgeBlocks upload compressed)

/-- The texels of a whole mip. -/
def decodeMip (target : Target) (upload : PendingUpload) (blocks : Bytes) : Option Bytes :=
  let size := upload.sourceWidth * upload.sourceHeight * 4
  (decodeEtcImage target
    { format := upload.format
      source := some fun i => blocks.getD i 0
      sourceBytes := UInt64.ofNat blocks.length
      width := UInt32.ofNat upload.sourceWidth
      height := UInt32.ofNat upload.sourceHeight
      destination := true
      destinationBytes := UInt64.ofNat size }).map fun writes =>
        (List.range size).map (writeAll (fun _ => 0) writes)

/-- Rows of blocks behind the header, and then the header. -/
def scaleSourceStores (upload : PendingUpload) (rows rowBytes : Nat)
    (blocks : Bytes) : List (Nat × UInt8) :=
  let pitch := upload.scaleRowBlocks * etcBlockBytes upload.format
  ((List.range rows).flatMap fun row =>
      memcpy (kEtc2ScaleHeaderBytes + row * pitch) (slice blocks (row * rowBytes) rowBytes)) ++
    memcpy 0 (header [upload.sourceWidth, upload.sourceHeight, upload.scaleRowBlocks * 4, 0])

def decodedRows (upload : PendingUpload) (decoded : Bytes) : List (Nat × UInt8) :=
  let texel := etcDecodedTexelBytes upload.format
  let row := upload.targetWidth * texel
  (List.range upload.targetHeight).flatMap fun y => memcpy (y * row)
  (slice decoded (y * upload.width * texel) row)

namespace EmitJob

variable (job : EmitJob)

def storeScaledUpload (p : Program Store) : Program Store :=
  keeping (fun images => Kept.storeScaledUpload images job.upload job.compressed) p

/-- `WidenedBlocks`, which reads the kept blocks in a critical section. -/
def readingWidened (rest : Bytes → Program Store) : Program Store :=
  .act id fun m => rest (widenedBlocks (m.images job.upload.image) job.upload job.compressed)

def emitScaleSource : Program Store :=
  let upload := job.upload
  let blockBytes := etcBlockBytes upload.format
  job.storeScaledUpload
    (if upload.widened then
      job.readingWidened fun mip => storing upload.target
        (scaleSourceStores upload ((upload.sourceHeight + 3) / 4)
          ((upload.sourceWidth + 3) / 4 * blockBytes) mip) .done
    else
      storing upload.target
        (scaleSourceStores upload ((upload.height + 3) / 4)
          ((upload.width + 3) / 4 * blockBytes) job.compressed) .done)

/-- `EmitUpload` without texture overrides. -/
def emitUpload (target : Target) (scaleRgba : ScaleRgba) : Program Store :=
  let upload := job.upload
  if upload.keepOnly then job.storeScaledUpload .done
  else if upload.scaleRowBlocks ≠ 0 then job.emitScaleSource
  else if upload.widened then
    job.storeScaledUpload (job.readingWidened fun blocks =>
      match decodeMip target upload blocks with
      | none => .done
      | some mip =>
        storing upload.target
          (scaleRgba mip upload.sourceWidth upload.sourceHeight (upload.sourceWidth * 4)
            upload.targetWidth upload.targetHeight) .done)
  else if 1 < upload.scale then
    job.storeScaledUpload
      (storing upload.target
        (scaleRgba job.decoded upload.sourceWidth upload.sourceHeight (upload.width * 4)
          upload.targetWidth upload.targetHeight) .done)
  else
    job.storeScaledUpload
      (storing upload.target
        (if upload.targetBytes = upload.decoded then memcpy 0 (job.decoded.take upload.decoded)
        else decodedRows upload job.decoded) .done)

end EmitJob

/-! Block copies. -/

/-- The region of the source's kept blocks, or `none` when it is unknown. -/
def copyRegion (images : Images) (copy : BlockCopy) : Option Bytes :=
  match sourceBlocks images copy with
  | none => none
  | some blocks =>
    if copy.mipBlocksWide < copy.x + copy.wide ∨ copy.mipBlocksHigh < copy.y + copy.high ∨
        blocks.length < copy.mipBlocksWide * copy.mipBlocksHigh * copy.blockBytes then none
    else
      some ((List.range copy.high).flatMap fun row =>
        slice blocks (((copy.y + row) * copy.mipBlocksWide + copy.x) * copy.blockBytes)
          (copy.wide * copy.blockBytes))

def fillBlockCopy (copy : BlockCopy) : Program Store :=
  storing copy.target
    (if copy.scaleHeader then
      memcpy 0 (header [copy.texelsWide, copy.texelsHigh, copy.wide * 4, 0])
    else [])
    (.act id fun m =>
      let region := copyRegion m.images copy
      storing copy.target
        (memcpy (if copy.scaleHeader then kEtc2ScaleHeaderBytes else 0)
          (region.getD (List.replicate (copy.wide * copy.blockBytes * copy.high) 0)))
        (keeping (fun images => keepBlocks images copy region) .done))

/-! The passes. -/

section Passes

variable (target : Target) (scaleRgba : ScaleRgba) (workerCount : Nat)

/-- The workers draw the jobs from an `EmitQueue`. -/
def EmitPass (jobs : List EmitJob) (m m' : Store) : Prop :=
  if jobs = [] then m' = m
  else ∃ calls, Runners (min (max workerCount 1) jobs.length) calls ∧ ∃ s,
    (pool calls (jobs.map fun job => job.emitUpload target scaleRgba) m).Reachable s ∧
      Done s ∧ s.shared.memory = m'

/-- Level 0 is emitted before the rest. -/
def EmitBatch (jobs : List EmitJob) (m m' : Store) : Prop :=
  ∃ between, EmitPass target scaleRgba workerCount
    (jobs.filter fun job => job.upload.mipLevel = 0) m between ∧
    EmitPass target scaleRgba workerCount
      (jobs.filter fun job => ¬ job.upload.mipLevel = 0) between m'

abbrev MipKey := VkImage × Nat

/-- The uploads that wait to be emitted together, and the mips whose kept blocks they write and
read. -/
structure Run where
  jobs : List EmitJob := []
  writes : List MipKey := []
  reads : List MipKey := []

def EmitJob.key (job : EmitJob) : MipKey := (job.upload.image, job.upload.mipLevel)

def Run.push (run : Run) (job : EmitJob) : Run where
  jobs := run.jobs ++ [job]
  writes := if ¬ job.upload.topLevel then job.key :: run.writes else run.writes
  reads := if job.upload.widened then job.key :: run.reads else run.reads

/-- What makes `add` flush the run first. -/
def Run.blocks (run : Run) (job : EmitJob) : Prop :=
  (¬ job.upload.topLevel ∧ (job.key ∈ run.writes ∨ job.key ∈ run.reads)) ∨
  (job.upload.widened ∧ job.key ∈ run.writes)

/-- What makes a copy flush the run first. -/
def Run.blocksCopy (run : Run) (copy : BlockCopy) : Prop :=
  (copy.image, copy.mip) ∈ run.writes ∨ (copy.keep, copy.keepMip) ∈ run.writes ∨
  (copy.keep, copy.keepMip) ∈ run.reads

/-- The run is emitted if something has to wait for it. -/
def Flushed (blocked : Prop) (run : Run) (m : Store) (run' : Run) (m' : Store) : Prop :=
  blocked ∧ run' = {} ∧ EmitBatch target scaleRgba workerCount run.jobs m m' ∨
    ¬ blocked ∧ run' = run ∧ m' = m

/-- The last two loops: uploads join the run in order, and a copy is filled once those before it
have joined. -/
def Emitted : List EmitJob → List BlockCopy → Run → Store → Store → Prop
  | [], [], run, m, m' => EmitBatch target scaleRgba workerCount run.jobs m m'
  | job :: jobs, [], run, m, m' =>
    ∃ run' between, Flushed target scaleRgba workerCount (run.blocks job) run m run' between ∧
      Emitted jobs [] (run'.push job) between m'
  | [], copy :: copies, run, m, m' =>
    ∃ run' between, Flushed target scaleRgba workerCount (run.blocksCopy copy) run m run' between ∧
      Emitted [] copies run' ((fillBlockCopy copy).run between) m'
  | job :: jobs, copy :: copies, run, m, m' =>
    if job.upload.order < copy.order then
      ∃ run' between, Flushed target scaleRgba workerCount (run.blocks job) run m run' between ∧
        Emitted jobs (copy :: copies) (run'.push job) between m'
    else
      ∃ run' between, Flushed target scaleRgba workerCount
        (run.blocksCopy copy) run m run' between ∧
        Emitted (job :: jobs) copies run' ((fillBlockCopy copy).run between) m'
termination_by jobs copies => jobs.length + copies.length

/-- Each upload with its part of what was gathered and decoded. -/
def emitJobs (source decoded : Bytes) : Nat → Nat → List PendingUpload → List EmitJob
  | _, _, [] => []
  | compressedOffset, decodedOffset, upload :: uploads =>
    ⟨upload, slice source compressedOffset upload.compressed,
      slice decoded decodedOffset upload.decoded⟩ ::
      emitJobs source decoded (compressedOffset + upload.compressed)
        (decodedOffset + upload.decoded) uploads

def sortJobs (jobs : List EmitJob) : List EmitJob :=
  jobs.mergeSort fun a b => a.upload.order ≤ b.upload.order

def sortCopies (copies : List BlockCopy) : List BlockCopy :=
  copies.mergeSort fun a b => a.order ≤ b.order

/-- `DecodeAndEmit` once the uploads are decoded, from one store to another. -/
def DecodeAndEmit (uploads : List PendingUpload) (source decoded : Bytes)
    (copies : List BlockCopy) (m m' : Store) :
    Prop :=
  Emitted target scaleRgba workerCount (sortJobs (emitJobs source decoded 0 0 uploads))
    (sortCopies copies) {} m m'

end Passes

/-! Where the targets are. -/

/-- So many bytes of a mapping. -/
def span (target : Option Pointer) (bytes : Nat) : Set Pointer :=
  { pointer | ∃ start, target = some start ∧ pointer.block = start.block ∧
    start.offset ≤ pointer.offset ∧
    pointer.offset < start.offset + bytes }

/-- How many bytes of its target the emission of an upload reaches. -/
def emitBytes (upload : PendingUpload) : Nat :=
  let blockBytes := etcBlockBytes upload.format
  let scaleSource (rows rowBytes : Nat) :=
    kEtc2ScaleHeaderBytes + ((rows - 1) * (upload.scaleRowBlocks * blockBytes) + rowBytes)
  if upload.keepOnly then 0
  else if upload.scaleRowBlocks ≠ 0 then
    if upload.widened then
      scaleSource ((upload.sourceHeight + 3) / 4) ((upload.sourceWidth + 3) / 4 * blockBytes)
    else scaleSource ((upload.height + 3) / 4) ((upload.width + 3) / 4 * blockBytes)
  else if upload.widened ∨ 1 < upload.scale then upload.targetWidth * upload.targetHeight * 4
  else if upload.targetBytes = upload.decoded then upload.decoded
  else upload.targetHeight * (upload.targetWidth * etcDecodedTexelBytes upload.format)

namespace EmitJob

def span (job : EmitJob) : Set Pointer := Replay.span job.upload.target (emitBytes job.upload)

/-- Both use the kept blocks of one mip, and one writes them. -/
def Conflicts (a b : EmitJob) : Prop :=
  a.key = b.key ∧ ((¬ a.upload.topLevel ∧ (¬ b.upload.topLevel ∨ b.upload.widened)) ∨
    (a.upload.widened ∧ ¬ b.upload.topLevel))

/-- The copy uses kept blocks that the upload writes, or writes those that the upload reads. -/
def ConflictsCopy (job : EmitJob) (copy : BlockCopy) : Prop :=
  ¬ job.upload.topLevel ∧ (job.key = (copy.image, copy.mip) ∨ job.key = (copy.keep, copy.keepMip)) ∨
    job.upload.widened ∧ job.key = (copy.keep, copy.keepMip)

/-- What is emitted, whenever it is. -/
def emission (job : EmitJob) : EmitJob := { job with upload := { job.upload with order := 0 } }

end EmitJob

/-- The targets of two uploads are apart, unless one waits for the other by its kept blocks or the
second is the first once more; a block copy's target is apart from an upload's, unless one waits for
the other. -/
structure Placed (jobs : List EmitJob) (copies : List BlockCopy) : Prop where
  uploads : jobs.Pairwise fun a b => a.Conflicts b ∨
    Disjoint a.span b.span ∨ a.emission = b.emission
  copies : ∀ job ∈ jobs, ∀ copy ∈ copies, job.ConflictsCopy copy ∨
    Disjoint job.span (span copy.target copy.targetBytes)

/-! One upload or copy at a time. -/

abbrev Event := EmitJob ⊕ BlockCopy

def emit (target : Target) (scaleRgba : ScaleRgba) (m : Store) : Event → Store
  | .inl job => (job.emitUpload target scaleRgba).run m
  | .inr copy => (fillBlockCopy copy).run m

/-- The uploads and the copies in the order in which they were recorded. -/
def inOrder (jobs : List EmitJob) (copies : List BlockCopy) : List Event :=
  interleave (fun job => job.upload.order) BlockCopy.order (sortJobs jobs) (sortCopies copies)

end Nightcap.Graphics.Replay
