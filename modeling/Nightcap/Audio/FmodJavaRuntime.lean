import Nightcap.Lib.Threads
import Nightcap.Status

/-! `FmodJavaAudioRuntime`: `Init`, `Write`, `Close` and `Shutdown` by any threads, a locked section
or a call of the sink a step, and the releases by the sink in between. -/
namespace Nightcap.Audio.FmodJava

open Transition Threads

def kInvalid (message : String) : Status := ⟨.invalidArgument, message⟩

def kFailed (message : String) : Status := ⟨.failedPrecondition, message⟩

structure Options where
  maxDevices : Nat := 8
  maxBlockCount : Nat := 256
  maxBufferBytesPerDevice : Nat := 64 * 1024 * 1024

def kMaxSize : Nat := 2 ^ 64 - 1

def kMaxInt : Nat := 2 ^ 31 - 1

structure InitArgs where
  channels : Int
  sampleRateHz : Int
  blockSizeFrames : Int
  blockCount : Int
deriving DecidableEq

/-- What a device is made with. -/
structure Geometry where
  bytesPerFrame : Nat
  blockBytes : Nat
  slotCount : Nat
deriving DecidableEq

def isFmodChannelCount (channels : Int) : Bool :=
  channels == 1 || channels == 2 || channels == 6 || channels == 8

/-- The checks of `Init` before it looks at the devices. -/
def checkInit (options : Options) (identityGiven : Bool) (args : InitArgs) :
    Except Status Geometry :=
  if options.maxDevices = 0 ∨ options.maxBlockCount = 0 ∨ options.maxBufferBytesPerDevice = 0 then
    .error (kInvalid "FMOD Java audio runtime limits must be non-zero")
  else if !identityGiven then .error (kInvalid "FMOD Java AudioDevice identity is null")
  else if !isFmodChannelCount args.channels then
    .error (kInvalid "FMOD Java channel count must be 1, 2, 6, or 8")
  else if args.blockSizeFrames ≤ 0 ∨ args.blockCount ≤ 0 then
    .error (kInvalid "FMOD Java block size and block count must be positive")
  else if options.maxBlockCount < args.blockCount.toNat then
    .error (kInvalid "FMOD Java block count exceeds runtime limit")
  else if args.sampleRateHz < 8000 ∨ 384000 < args.sampleRateHz then
    .error (kInvalid "PCM sample rate must be between 8000 and 384000 Hz")
  else
    -- Sixteen bits a sample.
    let bytesPerFrame := 2 * args.channels.toNat
    let frames := args.blockSizeFrames.toNat
    let blocks := args.blockCount.toNat
    let blockBytes := frames * bytesPerFrame
    if kMaxSize / bytesPerFrame < frames then
      .error (kInvalid "FMOD Java block byte size overflows")
    else if kMaxSize / blocks < blockBytes then
      .error (kInvalid "FMOD Java queue byte size overflows")
    else if blockBytes * blocks = 0 ∨ options.maxBufferBytesPerDevice < blockBytes * blocks ∨
        kMaxInt < blockBytes * blocks then
      .error (kInvalid "FMOD Java queue byte size exceeds runtime limit")
    else .ok ⟨bytesPerFrame, blockBytes, blocks⟩

inductive BufferSlotState
  | kFree
  | kReserved
  | kPending
deriving DecidableEq

structure BufferSlot where
  state : BufferSlotState := .kFree
  sizeBytes : Nat := 0
deriving DecidableEq

/-- A `DeviceState` and its sink. -/
structure Device (τ : Type*) where
  opened : Bool := false
  geometry : Geometry := ⟨0, 0, 0⟩
  slots : List BufferSlot := []
  pendingBuffers : Nat := 0
  pendingBytes : Nat := 0
  closing : Bool := false
  operationMutex : Option τ := none
  hasSink : Bool := false
  sinkShutDown : Bool := false
  /-- The slots that the sink has accepted and not released. -/
  borrowed : List Nat := []
  /-- How many buffers were handed to the sink since `closing` was set. -/
  lateWrites : Nat := 0

structure Counters where
  submittedBuffers : Nat := 0
  submittedBytes : Nat := 0
  consumedBuffers : Nat := 0
  consumedBytes : Nat := 0
  discardedBuffers : Nat := 0
  discardedBytes : Nat := 0
  pendingBuffers : Nat := 0
  pendingBytes : Nat := 0
deriving DecidableEq

/-- Threads `τ`, devices `δ` and the identities `ι` that the guest knows them by. -/
structure Shared (τ δ ι : Type*) where
  table : List (ι × δ) := []
  initializing : List ι := []
  shutdownStarted : Bool := false
  shutdownComplete : Bool := false
  activeApiCalls : Nat := 0
  devices : δ → Device τ
  counters : Counters := {}

/-- What goes on after `CloseDevice`. -/
inductive After (δ : Type*)
  | close
  | initReject (status : Status)
  | shutdown (rest : List δ)

/-- The locked section or the call that a thread makes next. -/
inductive Place (δ ι : Type*)
  | returned (status : Status)
  | initEnter (identity : Option ι) (args : InitArgs) (device : δ)
  | initReserve (identity : ι) (geometry : Geometry) (device : δ)
  | initSink (identity : ι) (geometry : Geometry) (device : δ)
  | initCancel (identity : ι) (status : Status)
  | initPublish (identity : ι) (device : δ)
  | writeEnter (identity : Option ι) (bytesGiven : Bool) (size : Nat)
  | writeLookup (identity : ι) (size : Nat)
  | writeOperation (device : δ) (size : Nat)
  | writeCheck (device : δ) (size : Nat)
  | writeWait (device : δ) (size : Nat)
  | writeCommit (device : δ) (size : Nat) (slot : Nat)
  | writeEnqueue (device : δ) (size : Nat) (slot : Nat)
  | writeSubmitted (device : δ) (size : Nat)
  | writeRollback (device : δ) (size : Nat) (slot : Nat) (status : Status)
  | writeLeave (device : δ) (status : Status)
  | closeEnter (identity : Option ι)
  | closeTake (identity : ι)
  | closeMark (device : δ) (after : After δ)
  | closeOperation (device : δ) (after : After δ)
  | closeSink (device : δ) (after : After δ)
  | closeRead (device : δ) (after : After δ)
  | closeLeave (device : δ) (after : After δ) (status : Status)
  | shutdownEnter
  | shutdownNext (rest : List δ)
  | shutdownDrain
  | shutdownDone
  | apiLeave (status : Status)

structure Thread (δ ι : Type*) where
  place : Place δ ι := .returned {}

inductive Call (δ ι : Type*)
  /-- `device` is the object that the call allocates if it gets so far. -/
  | init (identity : Option ι) (args : InitArgs) (device : δ)
  | write (identity : Option ι) (bytesGiven : Bool) (size : Nat)
  | close (identity : Option ι)
  | shutdown

inductive Act (δ ι : Type*)
  | call (call : Call δ ι)
  /-- The next section. `answer` is the status of the sink, where it is asked. -/
  | step (answer : Status)
  /-- The sink releases a buffer, on this thread. -/
  | release (device : δ) (slot : Nat)

variable {τ δ ι : Type*} [DecidableEq τ] [DecidableEq δ] [DecidableEq ι]

namespace Device

variable (device : Device τ)

def findFreeSlot : Option Nat := device.slots.findIdx? (·.state == .kFree)

/-- `DeviceState` and `InitializeSlots`, with a sink. -/
def create (geometry : Geometry) : Device τ where
  opened := true
  geometry
  slots := List.replicate geometry.slotCount {}
  hasSink := true

def setSlot (slot : Nat) (value : BufferSlot) : Device τ :=
  { device with slots := device.slots.set slot value }

def reserve (slot size : Nat) : Device τ := device.setSlot slot ⟨.kReserved, size⟩

/-- A slot that was never committed is free again. -/
def cancel (slot : Nat) : Device τ := device.setSlot slot ⟨.kFree, 0⟩

def commit (slot size : Nat) : Device τ :=
  { device.setSlot slot ⟨.kPending, size⟩ with
    pendingBuffers := device.pendingBuffers + 1
    pendingBytes := device.pendingBytes + size }

/-- A pending slot is free again. -/
def free (slot size : Nat) : Device τ :=
  { device.setSlot slot ⟨.kFree, 0⟩ with
    pendingBuffers := device.pendingBuffers - 1
    pendingBytes := device.pendingBytes - size }

/-- The sink is handed a slot. -/
def enqueue (slot : Nat) (accepted : Bool) : Device τ :=
  { device with
    borrowed := if accepted then slot :: device.borrowed else device.borrowed
    lateWrites := if device.closing then device.lateWrites + 1 else device.lateWrites }

end Device

namespace Counters

variable (counters : Counters)

def pend (size : Nat) : Counters :=
  { counters with
    pendingBuffers := counters.pendingBuffers + 1
    pendingBytes := counters.pendingBytes + size }

def unpend (size : Nat) : Counters :=
  { counters with
    pendingBuffers := counters.pendingBuffers - 1
    pendingBytes := counters.pendingBytes - size }

def submit (size : Nat) : Counters :=
  { counters with
    submittedBuffers := counters.submittedBuffers + 1
    submittedBytes := counters.submittedBytes + size }

/-- The end of `ReleaseOwnedBuffer`. -/
def release (size : Nat) (discarded : Bool) : Counters :=
  let counters := counters.unpend size
  if discarded then
    { counters with
      discardedBuffers := counters.discardedBuffers + 1
      discardedBytes := counters.discardedBytes + size }
  else
    { counters with
      consumedBuffers := counters.consumedBuffers + 1
      consumedBytes := counters.consumedBytes + size }

end Counters

variable (options : Options) (t : τ) (s : Shared τ δ ι)

def Shared.setDevice (d : δ) (device : Device τ) : Shared τ δ ι :=
  { s with devices := Function.update s.devices d device }

/-- `ReleaseOwnedBuffer`. -/
def releaseOwnedBuffer (d : δ) (slot : Nat) : Shared τ δ ι :=
  let device := s.devices d
  match device.slots[slot]? with
  | none => s
  | some owned =>
    if owned.state ≠ .kPending then s
    else
      { s.setDevice d (device.free slot owned.sizeBytes) with
        counters := s.counters.release owned.sizeBytes device.closing }

/-- The sink gives a borrowed slot back. -/
def release (d : δ) (slot : Nat) : Option (Shared τ δ ι) :=
  let device := s.devices d
  if slot ∈ device.borrowed then
    let s := s.setDevice d { device with borrowed := device.borrowed.erase slot }
    some (releaseOwnedBuffer s d slot)
  else none

def start : Call δ ι → Place δ ι
  | .init identity args device => .initEnter identity args device
  | .write identity bytesGiven size => .writeEnter identity bytesGiven size
  | .close identity => .closeEnter identity
  | .shutdown => .shutdownEnter

/-- Where a thread goes once `CloseDevice` has returned. -/
def afterClose (status : Status) : After δ → Place δ ι
  | .close => .apiLeave status
  | .initReject why => .apiLeave why
  | .shutdown rest => .shutdownNext rest

/-- The checks of `Write` with `mutex` held, up to the wait for capacity. -/
def checkWrite (device : Device τ) (size : Nat) : Except Status Unit :=
  if device.closing || !device.hasSink then .error (kFailed "FMOD Java AudioDevice is closing")
  else if size % device.geometry.bytesPerFrame ≠ 0 then
    .error (kInvalid "FMOD Java write must contain complete PCM frames")
  else if device.geometry.blockBytes < size then
    .error (kInvalid "FMOD Java write exceeds the configured mix block size")
  else .ok ()

def hasCapacity (device : Device τ) : Bool :=
  device.closing || !device.hasSink || device.pendingBuffers < device.geometry.slotCount

/-- `Write` once the wait for capacity is over. -/
def reserveSlot (d : δ) (size : Nat) : Shared τ δ ι × Place δ ι :=
  let device := s.devices d
  if device.closing || !device.hasSink then
    (s, .writeLeave d (kFailed "FMOD Java AudioDevice closed while write awaited capacity"))
  else
    match device.findFreeSlot with
    | none =>
      (s, .writeLeave d ⟨.platformError, "FMOD Java buffer pool accounting is inconsistent"⟩)
    | some slot => (s.setDevice d (device.reserve slot size), .writeCommit d size slot)

/-- A thread takes `operation_mutex`. -/
def lockOperation (d : δ) (place : Place δ ι) : Option (Shared τ δ ι × Place δ ι) :=
  let device := s.devices d
  if device.operationMutex = none then
    some (s.setDevice d { device with operationMutex := some t }, place)
  else none

def unlockOperation (d : δ) : Shared τ δ ι :=
  s.setDevice d { s.devices d with operationMutex := none }

/-- The next section of a thread. -/
def step (answer : Status) : Place δ ι → Option (Shared τ δ ι × Place δ ι)
  | .returned _ => none
  | .apiLeave status =>
    some ({ s with activeApiCalls := s.activeApiCalls - 1 }, .returned status)
  | .initEnter identity args device =>
    if s.shutdownStarted then
      some (s, .returned (kFailed "FMOD Java audio runtime is shut down"))
    else
      some ({ s with activeApiCalls := s.activeApiCalls + 1 },
        match identity, checkInit options identity.isSome args with
        | some identity, .ok geometry => .initReserve identity geometry device
        | _, .error status => .apiLeave status
        | none, .ok _ => .apiLeave (kInvalid "FMOD Java AudioDevice identity is null"))
  | .initReserve identity geometry device =>
    if s.shutdownStarted then
      some (s, .apiLeave (kFailed "FMOD Java audio runtime is shut down"))
    else if s.table.any (·.1 = identity) || s.initializing.contains identity then
      some (s, .apiLeave (kFailed "FMOD Java AudioDevice is already initialized"))
    else if options.maxDevices ≤ s.table.length + s.initializing.length then
      some (s, .apiLeave ⟨.unavailable, "FMOD Java audio device limit reached"⟩)
    else
      some ({ s with initializing := identity :: s.initializing },
        .initSink identity geometry device)
  | .initSink identity geometry device =>
    if !answer.isOk then some (s, .initCancel identity answer)
    else if (s.devices device).opened then none
    else some (s.setDevice device (.create geometry), .initPublish identity device)
  | .initCancel identity status =>
    some ({ s with initializing := s.initializing.erase identity }, .apiLeave status)
  | .initPublish identity device =>
    let s := { s with initializing := s.initializing.erase identity }
    if s.shutdownStarted then
      some (s, .closeMark device
        (.initReject (kFailed "FMOD Java audio runtime is shutting down")))
    else if s.table.any (·.1 = identity) then
      some (s, .closeMark device
        (.initReject (kFailed "FMOD Java AudioDevice was initialized concurrently")))
    else if options.maxDevices ≤ s.table.length then
      some (s, .closeMark device
        (.initReject ⟨.unavailable, "FMOD Java audio device limit reached"⟩))
    else some ({ s with table := (identity, device) :: s.table }, .apiLeave {})
  | .writeEnter identity bytesGiven size =>
    if s.shutdownStarted then
      some (s, .returned (kFailed "FMOD Java audio runtime is shut down"))
    else
      some ({ s with activeApiCalls := s.activeApiCalls + 1 },
        match identity with
        | some identity =>
          if !bytesGiven || size == 0 then
            .apiLeave (kInvalid "FMOD Java write requires a device and non-empty bytes")
          else .writeLookup identity size
        | none => .apiLeave (kInvalid "FMOD Java write requires a device and non-empty bytes"))
  | .writeLookup identity size =>
    if s.shutdownStarted then
      some (s, .apiLeave (kFailed "FMOD Java audio runtime is shut down"))
    else
      match s.table.lookup identity with
      | none => some (s, .apiLeave (kFailed "FMOD Java AudioDevice is not initialized"))
      | some d => some (s, .writeOperation d size)
  | .writeOperation d size => lockOperation t s d (.writeCheck d size)
  | .writeCheck d size =>
    match checkWrite (s.devices d) size with
    | .error status => some (s, .writeLeave d status)
    | .ok _ =>
      some (if hasCapacity (s.devices d) then reserveSlot s d size else (s, .writeWait d size))
  | .writeWait d size => if hasCapacity (s.devices d) then some (reserveSlot s d size) else none
  | .writeCommit d size slot =>
    let device := s.devices d
    if device.closing || !device.hasSink then
      some (s.setDevice d (device.cancel slot),
        .writeLeave d (kFailed "FMOD Java AudioDevice closed while write copied PCM"))
    else
      some ({ s.setDevice d (device.commit slot size) with counters := s.counters.pend size },
        .writeEnqueue d size slot)
  | .writeEnqueue d size slot =>
    some (s.setDevice d ((s.devices d).enqueue slot answer.isOk),
      if answer.isOk then .writeSubmitted d size else .writeRollback d size slot answer)
  | .writeSubmitted d size => some ({ s with counters := s.counters.submit size }, .writeLeave d {})
  | .writeRollback d size slot status =>
    let device := s.devices d
    if (device.slots[slot]?).any (·.state == .kPending) then
      some ({ s.setDevice d (device.free slot size) with counters := s.counters.unpend size },
        .writeLeave d status)
    else some (s, .writeLeave d status)
  | .writeLeave d status => some (unlockOperation s d, .apiLeave status)
  | .closeEnter identity =>
    match identity with
    | none => some (s, .returned (kInvalid "FMOD Java AudioDevice identity is null"))
    | some identity =>
      if s.shutdownStarted then
        some (s, .returned (kFailed "FMOD Java audio runtime is shut down"))
      else some ({ s with activeApiCalls := s.activeApiCalls + 1 }, .closeTake identity)
  | .closeTake identity =>
    match s.table.lookup identity with
    | none => some (s, .apiLeave (kFailed "FMOD Java AudioDevice is not initialized"))
    | some d =>
      some ({ s with table := s.table.filter (·.1 ≠ identity) }, .closeMark d .close)
  | .closeMark d after =>
    some (s.setDevice d { s.devices d with closing := true }, .closeOperation d after)
  | .closeOperation d after => lockOperation t s d (.closeSink d after)
  | .closeSink d after =>
    -- `Shutdown` of the sink refuses further buffers and waits for the borrowed ones.
    if !(s.devices d).hasSink then some (s, .closeRead d after)
    else if !(s.devices d).sinkShutDown then
      some (s.setDevice d { s.devices d with sinkShutDown := true }, .closeSink d after)
    else if (s.devices d).borrowed = [] then some (s, .closeRead d after)
    else none
  | .closeRead d after =>
    let device := s.devices d
    some (s.setDevice d { device with hasSink := false },
      .closeLeave d after
        (if device.pendingBuffers ≠ 0 ∨ device.pendingBytes ≠ 0 then
          ⟨.platformError, "audio sink did not release every owned FMOD Java buffer"⟩
        else {}))
  | .closeLeave d after status => some (unlockOperation s d, afterClose status after)
  | .shutdownEnter =>
    if s.shutdownStarted then
      if s.shutdownComplete then some (s, .returned {}) else none
    else
      some ({ s with shutdownStarted := true, table := [] }, .shutdownNext (s.table.map (·.2)))
  | .shutdownNext rest =>
    match rest with
    | [] => some (s, .shutdownDrain)
    | d :: rest => some (s, .closeMark d (.shutdown rest))
  | .shutdownDrain => if s.activeApiCalls = 0 then some (s, .shutdownDone) else none
  | .shutdownDone => some ({ s with shutdownComplete := true }, .returned {})

def act (s : Shared τ δ ι) (th : Thread δ ι) : Act δ ι → Option (Shared τ δ ι × Thread δ ι)
  | .call call =>
    match th.place with
    | .returned _ => some (s, ⟨start call⟩)
    | _ => none
  | .step answer => (step options t s answer th.place).map fun r => (r.1, ⟨r.2⟩)
  | .release d slot => (release s d slot).map (·, th)

abbrev State (τ δ ι : Type*) := System τ (Shared τ δ ι) (Thread δ ι)

def system (options : Options) (τ δ ι : Type*) [DecidableEq τ] [DecidableEq δ] [DecidableEq ι] :
    LTS (State τ δ ι) (τ × Act δ ι) :=
  interleaving { devices := fun _ => {} } {} (act options)

end Nightcap.Audio.FmodJava
