import Nightcap.Graphics.EtcBlock

/-! What a command buffer has recorded: uploads, block copies and the secondaries it executes. -/
namespace Nightcap.Graphics

/-! Handles; zero is the null handle. -/

abbrev VkDevice := Nat
abbrev VkBuffer := Nat
abbrev VkImage := Nat
abbrev VkCommandBuffer := Nat

def kEtc2ScaleHeaderBytes : Nat := 16

/-- One recorded copy's range of a staging block, from its first byte on. -/
structure Staging where
  block : Nat
  offset : Nat
  /-- Not in the code: the bytes taken, and how many ranges were handed out before. -/
  bytes : Nat
  serial : Nat
deriving DecidableEq

/-- A byte of the mapping of a staging block. -/
structure Pointer where
  block : Nat
  offset : Nat
deriving DecidableEq

structure PendingUpload where
  device : VkDevice := 0
  source : VkBuffer := 0
  sourceOffset : Nat := 0
  compressed : Nat := 0
  decoded : Nat := 0
  sourceRowStride : Nat := 0
  sourceLayerStride : Nat := 0
  sourceSpan : Nat := 0
  targetOffset : Nat := 0
  format : EtcFormat := .etc2Rgb8
  image : VkImage := 0
  mipLevel : Nat := 0
  width : Nat := 0
  height : Nat := 0
  layers : Nat := 0
  scale : Nat := 1
  sourceWidth : Nat := 0
  sourceHeight : Nat := 0
  targetWidth : Nat := 0
  targetHeight : Nat := 0
  fullMip : Bool := false
  targetBytes : Nat := 0
  target : Option Pointer := none
  /-- Zero means the CPU decodes and scales this upload. -/
  scaleRowBlocks : Nat := 0
  keepOnly : Bool := false
  topLevel : Bool := false
  regionX : Nat := 0
  regionY : Nat := 0
  widened : Bool := false
  order : Nat := 0
deriving DecidableEq

structure BlockCopy where
  image : VkImage := 0
  mip : Nat := 0
  mipBlocksWide : Nat := 0
  mipBlocksHigh : Nat := 0
  x : Nat := 0
  y : Nat := 0
  wide : Nat := 0
  high : Nat := 0
  blockBytes : Nat := 0
  target : Option Pointer := none
  scaleHeader : Bool := false
  texelsWide : Nat := 0
  texelsHigh : Nat := 0
  keep : VkImage := 0
  keepMip : Nat := 0
  keepX : Nat := 0
  keepY : Nat := 0
  keepBlocksWide : Nat := 0
  keepBlocksHigh : Nat := 0
  order : Nat := 0
deriving DecidableEq

/-- How many bytes a block copy writes into its target. -/
def BlockCopy.targetBytes (copy : BlockCopy) : Nat :=
  (if copy.scaleHeader then kEtc2ScaleHeaderBytes else 0) + copy.wide * copy.high * copy.blockBytes

structure CommandRecord where
  uploads : List PendingUpload := []
  blockCopies : List BlockCopy := []
  /-- Recording order of the uploads and block copies above. -/
  nextOrder : Nat := 0
  staging : List Staging := []
  secondaries : List VkCommandBuffer := []
  /-- Where each of `secondaries` replays among this record's orders. -/
  secondaryOrders : List Nat := []
  /-- Highest decode ticket dispatched for this command buffer. -/
  lastTicket : Nat := 0
deriving DecidableEq

/-- `unordered_map<VkCommandBuffer, CommandRecord>`. -/
abbrev Commands := AList fun _ : VkCommandBuffer => CommandRecord

namespace CommandRecord

variable {record : CommandRecord}

def addUpload (record : CommandRecord) (upload : PendingUpload) : CommandRecord :=
  { record with
    uploads := record.uploads ++ [{ upload with order := record.nextOrder }]
    nextOrder := record.nextOrder + 1 }

def addUploads (record : CommandRecord) (added : List PendingUpload) : CommandRecord :=
  added.foldl addUpload record

def addBlockCopy (record : CommandRecord) (copy : BlockCopy) : CommandRecord :=
  { record with
    blockCopies := record.blockCopies ++ [{ copy with order := record.nextOrder }]
    nextOrder := record.nextOrder + 1 }

def addBlockCopies (record : CommandRecord) (added : List BlockCopy) : CommandRecord :=
  added.foldl addBlockCopy record

/-- One secondary of `CmdExecuteCommands`, whose record spans `span` orders. -/
def addSecondary (record : CommandRecord) (secondary : VkCommandBuffer)
    (span : Nat) : CommandRecord :=
  { record with
    secondaries := record.secondaries ++ [secondary]
    secondaryOrders := record.secondaryOrders ++ [record.nextOrder]
    nextOrder := record.nextOrder + span }

end CommandRecord

/-- What a command buffer records, one after the other. -/
inductive Event
  | upload (u : PendingUpload)
  | copy (c : BlockCopy)
  | execute (secondary : VkCommandBuffer) (span : Nat)

def CommandRecord.add (record : CommandRecord) : Event → CommandRecord
  | .upload u => record.addUpload u
  | .copy c => record.addBlockCopy c
  | .execute secondary span => record.addSecondary secondary span

/-- `commands[commandBuffer]`, which a lookup of an unknown one makes empty. -/
def Commands.at (commands : Commands) (commandBuffer : VkCommandBuffer) : CommandRecord :=
  (commands.lookup commandBuffer).getD {}

/-- The loop of `CmdExecuteCommands`. -/
def cmdExecuteCommands (commands : Commands) (commandBuffer : VkCommandBuffer)
    (secondaries : List VkCommandBuffer) : Commands :=
  secondaries.foldl (fun commands secondary =>
    match commands.lookup secondary with
    | none => commands
    | some record =>
      commands.insert commandBuffer
        ((commands.at commandBuffer).addSecondary secondary record.nextOrder)) commands

/-- What that loop records. -/
def executeEvents (commandBuffer : VkCommandBuffer) : Commands → List VkCommandBuffer → List Event
  | _, [] => []
  | commands, secondary :: rest =>
    match commands.lookup secondary with
    | none => executeEvents commandBuffer commands rest
    | some record =>
      .execute secondary record.nextOrder ::
        executeEvents commandBuffer (commands.insert commandBuffer
          ((commands.at commandBuffer).addSecondary secondary record.nextOrder)) rest

/-- What `PrepareSubmit` finds recorded, in the order it collects it. -/
structure Collected where
  uploads : List PendingUpload := []
  blockCopies : List BlockCopy := []

instance : Append Collected := ⟨fun a b => ⟨a.uploads ++ b.uploads, a.blockCopies ++ b.blockCopies⟩⟩

/-- Whether a span of a buffer is in memory the host can read. -/
abbrev Readable := VkBuffer → Nat → Nat → Bool

/-- `collect`: the orders of a record, moved to `base`. An upload whose source cannot be read is
left out. -/
def collect (commands : Commands) (readable : Readable) (commandBuffer : VkCommandBuffer)
    (base : Nat) : Collected :=
  match commands.lookup commandBuffer with
  | none => {}
  | some record =>
    { uploads :=
        (record.uploads.filter fun u => readable u.source u.sourceOffset u.sourceSpan).map fun u =>
          { u with order := u.order + base }
      blockCopies := record.blockCopies.map fun c => { c with order := c.order + base } }

/-- A primary and then its secondaries, each where the primary executes it. -/
def collectPrimary (commands : Commands) (readable : Readable)
    (commandBuffer : VkCommandBuffer) (record : CommandRecord) (base : Nat) : Collected :=
  (record.secondaries.zip record.secondaryOrders).foldl
    (fun found inner => found ++ collect commands readable inner.1 (base + inner.2))
    (collect commands readable commandBuffer base)

/-- The command buffers of a submit, first one first. -/
def collectSubmit (commands : Commands) (readable : Readable) :
    Nat → List VkCommandBuffer → Collected
  | _, [] => {}
  | submitOrder, commandBuffer :: rest =>
    match commands.lookup commandBuffer with
    | none => collectSubmit commands readable submitOrder rest
    | some record =>
      collectPrimary commands readable commandBuffer record submitOrder ++
        collectSubmit commands readable (submitOrder + record.nextOrder) rest

end Nightcap.Graphics
