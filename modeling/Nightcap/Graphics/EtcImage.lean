import Nightcap.Graphics.EtcBlock
import Nightcap.Lib.WorkQueue

/-! ETC images: one decode call, and batches split into bands for the decode workers. -/
namespace Nightcap.Graphics

open WorkQueue Transition

/-- One `DecodeEtcImage` call. `none` and `false` are null pointers. -/
structure EtcDecodeJob where
  format : EtcFormat
  source : Option (Nat → UInt8)
  sourceBytes : UInt64
  width : UInt32
  height : UInt32
  destination : Bool
  destinationBytes : UInt64

def kBlocksPerBand : UInt64 := 4096

def kParallelMinimumBlocks : UInt64 := 4096

namespace EtcDecodeJob

variable (target : Target) (job : EtcDecodeJob)

/-- The block counts as the 64-bit code computes them. -/
def blocksWide : UInt64 := (job.width.toUInt64 + 3) / 4

def blocksHigh : UInt64 := (job.height.toUInt64 + 3) / 4

/-- The block counts as the 32-bit code computes them. -/
def blocksWide32 : UInt32 := (job.width + 3) / 4

def blocksHigh32 : UInt32 := (job.height + 3) / 4

def texelBytes : Nat := etcDecodedTexelBytes job.format

def imageFits : Bool :=
  job.source.isSome && job.destination && job.width != 0 && job.height != 0 &&
    job.blocksWide * job.blocksHigh * UInt64.ofNat (etcBlockBytes job.format) ≤ job.sourceBytes &&
    job.width.toUInt64 * job.height.toUInt64 * UInt64.ofNat job.texelBytes ≤ job.destinationBytes

/-- Offsets into a buffer wrap like its pointers. -/
def offset (n : Nat) : Nat := n % 2 ^ 64

/-- The block in a row and a column of blocks. -/
def block (y x : Nat) : Block := fun i =>
  (job.source.getD fun _ => 0)
    (offset ((y * job.blocksWide.toNat + x) * etcBlockBytes job.format + i))

/-- The bytes of one texel, lowest first. -/
def texelWrites (address : Nat) (b : Block) (texel : Nat) : List (Nat × UInt8) :=
  (List.range job.texelBytes).map fun k =>
    (offset (address + k), texelByte target job.format b texel k)

/-- `_MM_TRANSPOSE4_PS`: the column-major texel that ends in lane `c` of row `r`. -/
def transpose4 (r c : Nat) : Nat := c * 4 + r

/-- The column-major texel stored in place `c` of row `r`. -/
def interiorTexel (r c : Nat) : Nat :=
  match target with
  | .x86 => transpose4 r c
  | .portable => c * 4 + r

/-- The stores of a block that lies inside the image: four rows of four words. -/
def interiorWrites (b : Block) (y x : Nat) : List (Nat × UInt8) :=
  (List.range 4).flatMap fun r => (List.range 4).flatMap fun c =>
    job.texelWrites target
      ((y * 4 * job.width.toNat + x * 4) * 4 + r * job.width.toNat * 4 + c * 4) b
      (interiorTexel target r c)

/-- The stores of a block texel by texel, those outside the image left out. -/
def edgeWrites (b : Block) (y x : Nat) : List (Nat × UInt8) :=
  ((List.range 4).takeWhile fun r => y * 4 + r < job.height.toNat).flatMap fun r =>
    ((List.range 4).takeWhile fun c => x * 4 + c < job.width.toNat).flatMap fun c =>
      job.texelWrites target
        (((y * 4 + r) * job.width.toNat + x * 4 + c) * job.texelBytes) b (c * 4 + r)

/-- The writes of the block at block row `y`, column `x`. -/
def blockWrites (y x : Nat) : List (Nat × UInt8) :=
  let b := job.block y x
  if isRgbaFamily job.format && y * 4 + 4 ≤ job.height.toNat && x * 4 + 4 ≤ job.width.toNat then
    job.interiorWrites target b y x
  else job.edgeWrites target b y x

def rowWrites (y : Nat) : List (Nat × UInt8) :=
  (List.range job.blocksWide.toNat).flatMap (job.blockWrites target y)

end EtcDecodeJob

/-- `DecodeEtcImageBlockRows`: its writes in order, or `none` where the source returns false. -/
def decodeEtcImageBlockRows (target : Target) (job : EtcDecodeJob)
    (firstBlockRow blockRowCount : Nat) :
    Option (List (Nat × UInt8)) :=
  if !job.imageFits then none
  else if firstBlockRow + blockRowCount > job.blocksHigh.toNat then none
  else some ((List.range' firstBlockRow blockRowCount).flatMap (job.rowWrites target))

def decodeEtcImage (target : Target) (job : EtcDecodeJob) : Option (List (Nat × UInt8)) :=
  decodeEtcImageBlockRows target job 0 job.blocksHigh32.toNat

/-! Batches. -/

structure DecodeBand where
  job : Nat
  firstBlockRow : Nat
  blockRowCount : Nat

/-- The loop over the rows of a job. Rows stay below 2 ^ 31, where 32-bit sums are exact. -/
def bandsFrom (job rowsPerBand blocksHigh row : Nat) : List DecodeBand :=
  if row < blocksHigh ∧ 0 < rowsPerBand then
    ⟨job, row, min rowsPerBand (blocksHigh - row)⟩ ::
      bandsFrom job rowsPerBand blocksHigh (row + rowsPerBand)
  else []
termination_by blocksHigh - row

/-- What `DecodeEtcJobs` settles before any worker runs. -/
structure DecodePlan where
  ok : List Bool
  bands : List DecodeBand
  totalBlocks : UInt64

/-- A job's share of the plan; `none` is a division by zero. -/
def planJob (index : Nat) (job : EtcDecodeJob) : Option DecodePlan :=
  if !job.imageFits then some ⟨[false], [], 0⟩
  else if job.blocksWide32 = 0 then none
  else
    let rowsPerBand := max 1 (kBlocksPerBand / job.blocksWide32.toUInt64)
    some ⟨[true], bandsFrom index rowsPerBand.toUInt32.toNat job.blocksHigh32.toNat 0,
      job.blocksWide32.toUInt64 * job.blocksHigh32.toUInt64⟩

/-- The second loop of `DecodeEtcJobs`. The first one only estimates a capacity, with its divisors
guarded. -/
def planJobs : Nat → List EtcDecodeJob → Option DecodePlan
  | _, [] => some ⟨[], [], 0⟩
  | index, job :: jobs => do
    let first ← planJob index job
    let rest ← planJobs (index + 1) jobs
    pure ⟨first.ok ++ rest.ok, first.bands ++ rest.bands, first.totalBlocks + rest.totalBlocks⟩

def DecodePlan.threads (plan : DecodePlan) (workerCount : Nat) : Nat :=
  if plan.totalBlocks < kParallelMinimumBlocks then 1
  else min (max workerCount 1) plan.bands.length

/-- How many calls of `run` `RunOnDecodeWorkers` may make: the pool can be busy, or short of
threads. -/
def Runners (workerCount calls : Nat) : Prop := calls = 1 ∨ 2 ≤ calls ∧ calls ≤ workerCount

/-- Every job has a destination of its own; an address is a job and an offset. -/
abbrev Memory := Nat × Nat → UInt8

/-- What a worker writes for a band. -/
def bandWrites (target : Target) (jobs : List EtcDecodeJob) (band : DecodeBand) :
    List ((Nat × Nat) × UInt8) :=
  match jobs[band.job]? with
  | none => []
  | some job =>
    ((decodeEtcImageBlockRows target job band.firstBlockRow band.blockRowCount).getD []).map
      fun w => ((band.job, w.1), w.2)

/-- `DecodeBandQueue` with workers running on it. -/
def decodeLTS (target : Target) (jobs : List EtcDecodeJob) (plan : DecodePlan) (workers : Nat)
    (memory : Memory) : LTS (State workers (Nat × Nat) UInt8) (Fin workers) :=
  queueLTS workers (plan.bands.map (bandWrites target jobs)) memory

end Nightcap.Graphics
