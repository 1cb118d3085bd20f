import Nightcap.Lib.Threads
import Nightcap.Graphics.EtcStaging

/-! The command buffers, the staging blocks and the decode queue, shared by the threads that record,
submit and release, and by the dispatcher: a locked section is a step. -/
namespace Nightcap.Graphics.Dispatch

open Transition Threads

/-- A recording call: the host-visible range its pieces are written to, and the device-local ranges
of `StageGpuJobs`. -/
structure Recording where
  device : VkDevice
  commandBuffer : VkCommandBuffer
  uploads : List PendingUpload := []
  copies : List BlockCopy := []
  host : Bool
  padded : Bool := false
  /-- The bytes of each group of `StageGpuJobs`, when the call makes any. -/
  gpu : Option (List Nat) := none
  texels : Option Staging := none
  staged : List Staging := []

namespace Recording

def pad (r : Recording) (bytes : Nat) : Nat := if r.padded then (bytes + 3) / 4 * 4 else bytes

def uploadBytes (r : Recording) : Nat := (r.uploads.map fun u => r.pad u.targetBytes).sum

def copyBytes (r : Recording) : Nat := (r.copies.map fun c => r.pad c.targetBytes).sum

/-- What is asked of `AcquireStaging` for the pieces. -/
def total (r : Recording) : Nat := r.uploadBytes + r.copyBytes

def placeUploads (r : Recording) (texels : Staging) : Nat → List PendingUpload → List PendingUpload
  | _, [] => []
  | total, u :: rest =>
    { u with
      keepOnly := false
      targetOffset := total
      target := some ⟨texels.block, texels.offset + total⟩ } ::
      r.placeUploads texels (total + r.pad u.targetBytes) rest

def placeCopies (r : Recording) (texels : Staging) : Nat → List BlockCopy → List BlockCopy
  | _, [] => []
  | total, c :: rest =>
    { c with target := some ⟨texels.block, texels.offset + total⟩ } ::
      r.placeCopies texels (total + r.pad c.targetBytes) rest

/-- An upload of `PlanGpuUpload` that only keeps its blocks. -/
def keepUpload (u : PendingUpload) : PendingUpload :=
  { u with keepOnly := true, decoded := 0, targetOffset := 0, targetBytes := 0, target := none }

def events (r : Recording) : List Event :=
  match r.texels with
  | some texels =>
    (r.placeUploads texels 0 r.uploads).map Event.upload ++
      (r.placeCopies texels r.uploadBytes r.copies).map Event.copy
  | none =>
    (r.uploads.map keepUpload).map Event.upload ++
      (r.copies.map fun c => { c with target := none }).map Event.copy

/-- What the call adds to the record of its command buffer in the end. -/
def attachTo (r : Recording) (record : CommandRecord) : CommandRecord :=
  match r.texels with
  | some texels =>
    ({ record with staging := record.staging ++ [texels] }.addUploads
      (r.placeUploads texels 0 r.uploads)).addBlockCopies
        (r.placeCopies texels r.uploadBytes r.copies)
  | none =>
    (record.addUploads (r.uploads.map keepUpload)).addBlockCopies
      (r.copies.map fun c => { c with target := none })

end Recording

/-- A call of `PrepareSubmit` and what it has found out. -/
structure Submit where
  commandBuffers : List VkCommandBuffer
  allowAsync : Bool
  work : List PendingUpload := []
  blockCopies : List BlockCopy := []
  async : Bool := false
  /-- The uploads of `work` whose source could be mapped. -/
  uploads : List PendingUpload := []

namespace Submit

/-- Whether only kept blocks change, and the copies touch none of them. -/
def apart (s : Submit) : Bool :=
  s.async && !s.blockCopies.isEmpty && s.work.all PendingUpload.keepOnly &&
    s.blockCopies.all fun copy =>
      !(s.work.any fun u => (u.image == copy.image && u.mipLevel == copy.mip) ||
        (u.image == copy.keep && u.mipLevel == copy.keepMip))

def gpuWaits (s : Submit) : Bool := !s.blockCopies.isEmpty || s.work.any fun u => !u.keepOnly

def touched (s : Submit) : List VkImage :=
  (s.work.map PendingUpload.image ++ s.blockCopies.flatMap fun c =>
    [c.image, c.keep]).filter (· ≠ 0)

end Submit

structure DecodeBatch where
  ticket : Nat
  uploads : List PendingUpload
  blockCopies : List BlockCopy

structure Shared (τ : Type*) where
  commands : Commands := ∅
  hasCommands : Bool := false
  blocks : List StagingBlock := []
  mutex : Option τ := none
  queue : List DecodeBatch := []
  issuedTicket : Nat := 0
  completedTicket : Nat := 0
  imageTickets : VkImage → Option Nat
  created : Nat := 0
  handed : Nat := 0
  /-- The ranges handed out and not released. -/
  outstanding : Finset Staging := ∅
  /-- What each command buffer has recorded since it was last released. -/
  history : VkCommandBuffer → List Event := fun _ => []

inductive Place
  | idle
  /-- The search of `AcquireStaging`, for a device-local range or for the host-visible one. -/
  | acquire (r : Recording) (deviceLocal : Bool)
  | create (r : Recording) (deviceLocal : Bool)
  | push (r : Recording) (deviceLocal : Bool)
  | stage (r : Recording)
  | attach (r : Recording)
  | dropStaged (r : Recording)
  | dropTexels (texels : Staging)
  | execute (commandBuffer : VkCommandBuffer) (secondaries : List VkCommandBuffer)
  | collect (s : Submit)
  | apartTicket (s : Submit)
  | apartCompare (s : Submit) (ticket : Nat)
  | fillTicket (s : Submit)
  | issued (s : Submit)
  | wait (s : Submit) (ticket : Nat)
  | lock (s : Submit)
  | enqueue (s : Submit)
  | remember (s : Submit) (ticket : Nat)
  | releaseTicket (commandBuffer : VkCommandBuffer)
  | releaseWait (commandBuffer : VkCommandBuffer) (ticket : Nat)
  | releaseErase (commandBuffer : VkCommandBuffer) (ticket : Nat)
  | releaseStaging (doomed : List Staging)
  | running (batch : DecodeBatch)

inductive Call
  | record (r : Recording)
  | execute (commandBuffer : VkCommandBuffer) (secondaries : List VkCommandBuffer)
  | submit (commandBuffers : List VkCommandBuffer) (allowAsync : Bool)
  | release (commandBuffer : VkCommandBuffer)

/-- What the driver and the tracked buffers answer. -/
structure Answers where
  created : Bool := true
  /-- Whether the source of an upload is bound to memory the host can read. -/
  readable : Readable := fun _ _ _ => true
  mapped : VkDevice → VkBuffer → Bool := fun _ _ => true
  timeline : VkDevice → Bool := fun _ => true

inductive Act
  | call (c : Call)
  | step (answers : Answers)

variable {τ : Type*}

namespace Recording

def next (r : Recording) : Place :=
  match r.gpu with
  | none => .attach r
  | some [] => .stage r
  | some (_ :: _) => .acquire r true

def size (r : Recording) (deviceLocal : Bool) : Nat :=
  if deviceLocal then (r.gpu.getD []).headD 0 else r.total

def acquired (r : Recording) (deviceLocal : Bool) (range : Staging) : Place :=
  if deviceLocal then
    { r with gpu := r.gpu.map List.tail, staged := r.staged ++ [range] }.next
  else { r with texels := some range }.next

def failed (r : Recording) (deviceLocal : Bool) : Place :=
  if deviceLocal then .dropStaged r else .idle

/-- Sizes below `2^63`, and no range yet. -/
def Fresh (r : Recording) : Prop :=
  r.total < 2 ^ 63 ∧ (∀ size ∈ r.gpu.getD [], size < 2 ^ 63) ∧ r.texels = none ∧ r.staged = []

instance (r : Recording) : Decidable r.Fresh := by
  unfold Fresh
  infer_instance

end Recording

namespace Shared

variable (s : Shared τ)

def handOut (blocks : List StagingBlock) (range : Staging) : Shared τ :=
  { s with blocks := blocks, handed := s.handed + 1, outstanding := insert range s.outstanding }

def giveBack (stagingBlockBytes : Nat) (released : List Staging) : Shared τ :=
  { s with
    blocks := releaseStaging stagingBlockBytes s.blocks released
    outstanding := s.outstanding \ released.toFinset }

def record (commandBuffer : VkCommandBuffer)
    (f : CommandRecord → CommandRecord) (events : List Event) :
    Shared τ :=
  { s with
    commands := s.commands.insert commandBuffer (f (s.commands.at commandBuffer))
    hasCommands := true
    history := Function.update s.history commandBuffer (s.history commandBuffer ++ events) }

def ticketTouching (copies : List BlockCopy) : Nat :=
  (copies.flatMap fun c => [c.image, c.keep]).foldl (fun ticket image =>
    max ticket ((s.imageTickets image).getD 0)) 0

def waited (ticket : Nat) : Prop := ticket = 0 ∨ ticket ≤ s.completedTicket

instance (ticket : Nat) : Decidable (s.waited ticket) := by
  unfold waited
  infer_instance

end Shared

def raise (ticket : Nat) (commands : Commands) (commandBuffer : VkCommandBuffer) : Commands :=
  match commands.lookup commandBuffer with
  | none => commands
  | some record =>
    commands.insert commandBuffer { record with lastTicket := max record.lastTicket ticket }

def raiseAll (ticket : Nat) (commands : Commands) (commandBuffer : VkCommandBuffer) : Commands :=
  match commands.lookup commandBuffer with
  | none => commands
  | some record => record.secondaries.foldl (raise ticket) (raise ticket commands commandBuffer)

/-- The section of `PrepareSubmit` that follows `Enqueue`. -/
def Shared.remember (s : Shared τ) (submit : Submit) (ticket : Nat) : Shared τ :=
  { s with
    mutex := none
    imageTickets := fun image =>
      if image ∈ submit.touched then (s.imageTickets image).map fun _ => ticket
      else s.imageTickets image
    commands :=
      if submit.gpuWaits then submit.commandBuffers.foldl (raiseAll ticket) s.commands
      else s.commands }

def Submit.collected (s : Submit) (found : Collected) (timeline : VkDevice → Bool) : Place :=
  match found.uploads with
  | [] =>
    if found.blockCopies.isEmpty then .idle
    else .fillTicket { s with blockCopies := found.blockCopies }
  | first :: rest =>
    let s := { s with
      work := found.uploads
      blockCopies := found.blockCopies
      async :=
        s.allowAsync && (rest.all fun u => u.device == first.device) && timeline first.device }
    if s.apart then .apartTicket s else if s.async then .lock s else .issued s

def begin (s : Shared τ) : Call → Place
  | .record r => if r.host then .acquire r false else r.next
  | .execute commandBuffer secondaries =>
    if s.hasCommands then .execute commandBuffer secondaries else .idle
  | .submit commandBuffers allowAsync =>
    if s.hasCommands && !commandBuffers.isEmpty then
      .collect { commandBuffers, allowAsync }
    else .idle
  | .release commandBuffer => if s.hasCommands then .releaseTicket commandBuffer else .idle

variable (stagingBlockBytes : Nat)

def lockedStep (s : Shared τ) (answers : Answers) : Place → Option (Shared τ × Place)
  | .acquire r deviceLocal =>
    if deviceLocal ∧ kMaxGpuStagingBlocks * stagingBlockBytes % 2 ^ 64 < alignStaging
      (r.size deviceLocal) then
      some (s, r.failed deviceLocal)
    else
      match acquireFrom r.device deviceLocal (r.size deviceLocal) s.handed s.blocks with
      | some (blocks, range) => some (s.handOut blocks range, r.acquired deviceLocal range)
      | none => some (s, .create r deviceLocal)
  | .push r deviceLocal =>
    let block :=
      StagingBlock.create stagingBlockBytes s.created r.device deviceLocal (r.size deviceLocal)
    let range : Staging := ⟨s.created, 0, alignStaging (r.size deviceLocal), s.handed⟩
    some ({ s.handOut (s.blocks ++ [block]) range with created := s.created + 1 },
      r.acquired deviceLocal range)
  | .stage r =>
    some (s.record r.commandBuffer
      (fun record => { record with staging := record.staging ++ r.staged }) [],
      .attach { r with staged := [], gpu := none })
  | .attach r =>
    -- Nothing to keep leaves the record unmade.
    if r.texels.isNone && r.uploads.isEmpty && r.copies.isEmpty then some (s, .idle)
    else some (s.record r.commandBuffer r.attachTo r.events, .idle)
  | .dropStaged r =>
    some (s.giveBack stagingBlockBytes r.staged, r.texels.elim .idle .dropTexels)
  | .dropTexels texels => some (s.giveBack stagingBlockBytes [texels], .idle)
  | .execute commandBuffer secondaries =>
    some ({ s with
        commands := cmdExecuteCommands s.commands commandBuffer secondaries
        history := Function.update s.history commandBuffer
          (s.history commandBuffer ++ executeEvents commandBuffer s.commands secondaries) }, .idle)
  | .collect submit =>
    some (s, submit.collected (collectSubmit s.commands answers.readable 0 submit.commandBuffers)
      answers.timeline)
  | .apartTicket submit => some (s, .apartCompare submit (s.ticketTouching submit.blockCopies))
  | .fillTicket submit => some (s, .wait submit (s.ticketTouching submit.blockCopies))
  | .releaseTicket commandBuffer =>
    match s.commands.lookup commandBuffer with
    | none => some (s, .idle)
    | some record => some (s, .releaseWait commandBuffer record.lastTicket)
  | .releaseErase commandBuffer _ =>
    match s.commands.lookup commandBuffer with
    | none => some (s, .idle)
    | some record =>
      let commands := s.commands.erase commandBuffer
      some ({ s with
          commands := commands
          hasCommands := !commands.entries.isEmpty
          history := Function.update s.history commandBuffer [] },
        .releaseStaging record.staging)
  | .releaseStaging doomed => some (s.giveBack stagingBlockBytes doomed, .idle)
  | _ => none

def freeStep (t : τ) (s : Shared τ) (answers : Answers) : Place → Option (Shared τ × Place)
  | .create r deviceLocal =>
    some (s, if answers.created &&
      max stagingBlockBytes (alignStaging (r.size deviceLocal)) != 0 then
      .push r deviceLocal else r.failed deviceLocal)
  | .apartCompare submit ticket =>
    -- The copies are filled here and now.
    some (s,
      .lock (if ticket ≤ s.completedTicket then { submit with blockCopies := [] } else submit))
  | .issued submit => some (s, .wait submit s.issuedTicket)
  | .wait _ ticket => if s.waited ticket then some (s, .idle) else none
  | .lock submit =>
    match s.mutex with
    | some _ => none
    | none =>
      some ({ s with mutex := some t }, .enqueue
        { submit with uploads := submit.work.filter fun u => answers.mapped u.device u.source })
  | .enqueue submit =>
    let ticket := s.issuedTicket + 1
    some ({ s with
        issuedTicket := ticket
        queue := s.queue ++ [⟨ticket, submit.uploads, submit.blockCopies⟩] },
      .remember submit ticket)
  | .remember submit ticket => some (s.remember submit ticket, .idle)
  | .releaseWait commandBuffer ticket =>
    if s.waited ticket then some (s, .releaseErase commandBuffer ticket) else none
  | _ => none

/-- `RunDispatcher`: takes the first batch of the queue, runs it, and counts it as completed. -/
def dispatch (s : Shared τ) : Place → Option (Shared τ × Place)
  | .idle =>
    match s.queue with
    | [] => none
    | batch :: rest => some ({ s with queue := rest }, .running batch)
  | .running batch => some ({ s with completedTicket := batch.ticket }, .idle)
  | _ => none

/-- A step of a thread; `none` is the dispatcher. -/
def act (t : Option τ) (s : Shared τ) (p : Place) (a : Act) : Option (Shared τ × Place) :=
  match t, a with
  | none, .step _ => dispatch s p
  | none, .call _ => none
  | some _, .call c =>
    match p with
    | .idle =>
      match c with
      | .record r => if r.Fresh then some (s, begin s c) else none
      | _ => some (s, begin s c)
    | _ => none
  | some t, .step answers =>
    match s.mutex with
    | none =>
      (lockedStep stagingBlockBytes s answers p).or (freeStep stagingBlockBytes t s answers p)
    | some _ => freeStep stagingBlockBytes t s answers p

abbrev State (τ : Type*) := System (Option τ) (Shared τ) Place

def Place.submitting : Place → Option Submit
  | .collect s | .apartTicket s | .apartCompare s _ | .fillTicket s
  | .issued s | .wait s _ | .lock s
  | .enqueue s | .remember s _ => some s
  | _ => none

def Place.releasing : Place → Option VkCommandBuffer
  | .releaseTicket c | .releaseWait c _ | .releaseErase c _ => some c
  | _ => none

def Covers (commands : Commands) (submit : Submit) (commandBuffer : VkCommandBuffer) : Prop :=
  commandBuffer ∈ submit.commandBuffers ∨
    ∃ primary ∈ submit.commandBuffers, commandBuffer ∈ (commands.at primary).secondaries

def ReleasedApart (st : State τ) : Prop :=
  ∀ t u submit commandBuffer, (st.own t).submitting = some submit →
    (st.own u).releasing = some commandBuffer → ¬ Covers st.shared.commands submit commandBuffer

variable [DecidableEq τ]

/-- The images that exist keep existing; each starts with some ticket. -/
def system (imageTickets : VkImage → Option Nat) : LTS (State τ) (Option τ × Act) :=
  (interleaving { imageTickets } .idle (act stagingBlockBytes)).staying ReleasedApart

/-- The batches the dispatcher has not completed, the running one first. -/
def State.pending (st : State τ) : List DecodeBatch :=
  match st.own none with
  | .running batch => batch :: st.shared.queue
  | _ => st.shared.queue

/-- Some of the `bytes` from a pointer on are in a range. -/
def Meets (p : Pointer) (bytes : Nat) (r : Staging) : Prop :=
  p.block = r.block ∧ p.offset < r.offset + r.bytes ∧ r.offset < p.offset + bytes

/-- What uploads and block copies write to, and how many bytes. -/
def Writes (uploads : List PendingUpload) (copies : List BlockCopy)
    (p : Pointer) (bytes : Nat) : Prop :=
  (∃ u ∈ uploads, u.target = some p ∧ u.targetBytes = bytes) ∨
    ∃ c ∈ copies, c.target = some p ∧ c.targetBytes = bytes

def DecodeBatch.Writes (batch : DecodeBatch) : Pointer → Nat → Prop :=
  Dispatch.Writes batch.uploads batch.blockCopies

end Nightcap.Graphics.Dispatch
