import Nightcap.Graphics.EtcCopies

/-! GPU jobs of a command buffer: `StageGpuJobs` lays them out in groups and takes a staging range
for each. -/
namespace Nightcap.Graphics.Copies

def kScaleHeader : UInt64 := UInt64.ofNat kEtc2ScaleHeaderBytes

structure GpuUpload where
  device : VkDevice := 0
  source : VkBuffer := 0
  sourceOffset : UInt64 := 0
  sourceSpan : UInt64 := 0
  /-- The buffer and binding of a staging block, by its address. -/
  staging : Nat := 0
  job : Etc2GpuJob := {}
  decode : Bool := false
  decoding : Etc2GpuJob := {}
  encode : Bool := false
  encoding : Etc2GpuJob := {}
deriving DecidableEq

/-- Decode, scale and optional BC encode of a scale source. -/
def scaleJob (device : VkDevice) (format : EtcFormat)
    (blocksWide blocksHigh targetWidth targetHeight : UInt32)
    (encode : Bool) : GpuUpload :=
  let job : Etc2GpuJob :=
    { format := format
      scale := true
      scaleWidth := targetWidth
      scaleHeight := targetHeight
      blocksWide := (targetWidth + 3) / 4
      blocksHigh := (targetHeight + 3) / 4 }
  { device := device
    decode := true
    decoding :=
      { format := format
        blocksWide := blocksWide
        blocksHigh := blocksHigh
        sourceRowBlocks := blocksWide
        sourceLayerBlocks := blocksWide * blocksHigh }
    job := job
    encode := encode
    encoding :=
      if encode then
        { format := format
          rgbaSource := true
          transcode := true
          blocksWide := job.blocksWide
          blocksHigh := job.blocksHigh
          sourceRowBlocks := job.blocksWide
          sourceLayerBlocks := job.blocksWide * job.blocksHigh }
      else {} }

/-! Layout. Offsets are relative to the range of their group until it is staged. -/

namespace GpuUpload

variable (gpu : GpuUpload)

def need : UInt64 :=
  align gpu.sourceSpan + (if gpu.decode then align (etc2GpuOutputBytes gpu.decoding) else 0) +
    align (etc2GpuOutputBytes gpu.job) +
      (if gpu.encode then align (etc2GpuOutputBytes gpu.encoding) else 0)

def last : Etc2GpuJob := if gpu.encode then gpu.encoding else gpu.job

/-- The job laid out from an offset of its group on. -/
def place (total : UInt64) : GpuUpload :=
  let cursor := total + align gpu.sourceSpan
  let output := if gpu.decode then cursor + align (etc2GpuOutputBytes gpu.decoding) else cursor
  { gpu with
    decoding :=
      if gpu.decode then
        { gpu.decoding with sourceOffset := total + kScaleHeader, destinationOffset := cursor }
      else gpu.decoding
    job :=
      { gpu.job with
        scaleTexelsOffset := if gpu.decode then cursor else gpu.job.scaleTexelsOffset
        sourceOffset := total
        destinationOffset := output }
    encoding :=
      { gpu.encoding with
        sourceOffset := output
        destinationOffset := output + align (etc2GpuOutputBytes gpu.job) } }

/-- The copy out of the last stage of a job that has been laid out. -/
def emit (region : Region) : Region :=
  let last := gpu.last
  { region with
    bufferOffset := last.destinationOffset
    bufferRowLength :=
      if last.transcode || last.scale then last.blocksWide * 4 else etc2GpuRowTexels last.blocksWide
    bufferImageHeight := last.blocksHigh * 4 }

/-- The job in the range of its group. -/
def rebase (staging : Staging) : GpuUpload :=
  let offset := UInt64.ofNat staging.offset
  let shift (job : Etc2GpuJob) : Etc2GpuJob :=
    { job with
      sourceOffset := job.sourceOffset + offset
      destinationOffset := job.destinationOffset + offset }
  { gpu with
    staging := staging.block
    decoding := if gpu.decode then shift gpu.decoding else gpu.decoding
    job :=
      { shift gpu.job with
        scaleTexelsOffset :=
          if gpu.decode then gpu.job.scaleTexelsOffset + offset else gpu.job.scaleTexelsOffset }
    encoding := shift gpu.encoding }

end GpuUpload

/-- An entry each of `groups`, `totals` and `copies`. -/
structure Group where
  jobs : List GpuUpload := []
  total : UInt64 := 0
  regions : List Region := []
deriving DecidableEq

structure Grouping where
  before : List Group := []
  last : Group := {}

namespace Grouping

def groups (g : Grouping) : List Group := g.before ++ [g.last]

def startsGroup (maxBytes : UInt64) (g : Grouping) (gpu : GpuUpload) : Bool :=
  (gpu.job.transcode || gpu.job.scale) && !g.last.jobs.isEmpty && maxBytes < g.last.total + gpu.need

def append (group : Group) (gpu : GpuUpload) (region : Region) : Group :=
  { jobs := group.jobs ++ [gpu.place group.total]
    total := group.total + gpu.need
    regions := group.regions ++ [(gpu.place group.total).emit region] }

def add (maxBytes : UInt64) (g : Grouping) (x : GpuUpload × Region) : Grouping :=
  if startsGroup maxBytes g x.1 then ⟨g.groups, append {} x.1 x.2⟩
  else ⟨g.before, append g.last x.1 x.2⟩

end Grouping

def groupJobs (maxBytes : UInt64) (gpus : List GpuUpload) (rewritten : List Region) : List Group :=
  ((gpus.zip rewritten).foldl (Grouping.add maxBytes) {}).groups

/-! Staging. -/

/-- The staging blocks; the ranges handed out and not released are not in the code. -/
structure Pool where
  blocks : List StagingBlock := []
  /-- How many blocks were made. -/
  created : Nat := 0
  /-- How many ranges were handed out. -/
  handed : Nat := 0
  outstanding : Finset Staging := ∅

/-- What a command buffer has recorded for the GPU. -/
structure GpuRecord where
  gpuUploads : List GpuUpload := []
  staging : List Staging := []
deriving DecidableEq

/-- A group in its range, with the copies out of it. -/
structure Staged where
  range : Staging
  jobs : List GpuUpload
  regions : List Region
deriving DecidableEq

def Staged.withFast (fast : Bool) (s : Staged) : Staged :=
  { s with jobs := s.jobs.map fun gpu => { gpu with job := { gpu.job with fast := fast } } }

section

variable (stagingBlockBytes : UInt64) (device : VkDevice)

def maxGpuStagingBytes : UInt64 := UInt64.ofNat kMaxGpuStagingBlocks * stagingBlockBytes

/-- `AcquireStaging` of a device-local range; `creates` says of each block whether it can be
made. -/
def acquireStaging (creates : Nat → Bool) (size : UInt64) (pool : Pool) : Option (Pool × Staging) :=
  let aligned := align size
  if maxGpuStagingBytes stagingBlockBytes < aligned then none
  else
    match acquireFrom device true aligned.toNat pool.handed pool.blocks with
    | some (blocks, range) =>
      some ({ pool with
        blocks := blocks
        handed := pool.handed + 1
        outstanding := insert range pool.outstanding }, range)
    | none =>
      if creates pool.created && max stagingBlockBytes aligned != 0 then
        let block :=
          StagingBlock.create stagingBlockBytes.toNat pool.created device true aligned.toNat
        let range : Staging := ⟨pool.created, 0, alignStaging aligned.toNat, pool.handed⟩
        some (⟨pool.blocks ++ [block], pool.created + 1, pool.handed + 1,
          insert range pool.outstanding⟩, range)
      else none

def Pool.release (released : List Staging) (pool : Pool) : Pool :=
  { pool with
    blocks := releaseStaging stagingBlockBytes.toNat pool.blocks released
    outstanding := pool.outstanding \ released.toFinset }

def Group.stage (group : Group) (range : Staging) : Staged where
  range := range
  jobs := group.jobs.map (·.rebase range)
  regions := group.regions.map fun region =>
    { region with bufferOffset := region.bufferOffset + UInt64.ofNat range.offset }

/-- The groups one after the other; the ranges go back when one of them gets none. -/
def stageGroups (creates : Nat → Bool) : List Group → List Staged → Pool →
    Pool × Option (List Staged)
  | [], staged, pool => (pool, some staged)
  | group :: groups, staged, pool =>
    match acquireStaging stagingBlockBytes device creates group.total pool with
    | none => (pool.release stagingBlockBytes (staged.map (·.range)), none)
    | some (pool, range) => stageGroups creates groups (staged ++ [group.stage range]) pool

structure GpuState where
  pool : Pool := {}
  commands : VkCommandBuffer → GpuRecord := fun _ => {}

/-- `fast` is the `fast_encode` of the image's record; `none` is the source's `false`. -/
def stageGpuJobs (creates : Nat → Bool) (fast : Bool)
    (commandBuffer : VkCommandBuffer) (gpus : List GpuUpload)
    (rewritten : List Region) (state : GpuState) : GpuState × Option (List Staged) :=
  let groups := groupJobs (maxGpuStagingBytes stagingBlockBytes) gpus rewritten
  match stageGroups stagingBlockBytes device creates groups [] state.pool with
  | (pool, none) => ({ state with pool := pool }, none)
  | (pool, some staged) =>
    let staged := staged.map (·.withFast fast)
    let record := state.commands commandBuffer
    (⟨pool, Function.update state.commands commandBuffer
      { gpuUploads := record.gpuUploads ++ staged.flatMap (·.jobs)
        staging := record.staging ++ staged.map (·.range) }⟩, some staged)

end

end Nightcap.Graphics.Copies
