import Nightcap.Lib.Mutex
import Nightcap.Lib.Transition
import Nightcap.Status

/-! `OpenSlSimpleBufferQueueAdapter`: threads and an audio sink around one queue, a locked section a
step. -/
namespace Nightcap.Audio

open Transition

inductive OpenSlResult
  | kResultSuccess
  | kResultPreconditionsViolated
  | kResultParameterInvalid
  | kResultResourceError
  | kResultIoError
  | kResultBufferInsufficient
  | kResultFeatureUnsupported
deriving DecidableEq

def toOpenSlResult (status : Status) : OpenSlResult :=
  match status.code with
  | .ok => .kResultSuccess
  | .invalidArgument => .kResultParameterInvalid
  | .failedPrecondition => .kResultPreconditionsViolated
  | .unavailable => .kResultResourceError
  | .unsupported => .kResultFeatureUnsupported
  | .platformError => .kResultIoError

abbrev Address := Nat

def nullptr : Address := 0

structure ReleaseTicket where
  generation : Nat
deriving DecidableEq

structure CallbackJob where
  callback : Address
  context : Address
deriving DecidableEq

/-- Where a thread is in its call. -/
inductive Pc
  | idle
  -- `AbiEnqueue`, with `sink_operation_mutex`
  | enqueueLocked
  | enqueueSink (ticket : ReleaseTicket)
  | enqueueReleased
  | enqueueFailed (ticket : ReleaseTicket) (status : Status)
  -- `AbiClear`
  | clearLocked
  | clearSink
  | clearFailed (status : Status)
  -- `SetPlaying` and `SetGain`
  | commandLocked
  | commandSink
  | commandFailed (status : Status)
  -- `Shutdown`
  | shutdownWait
  | shutdownLock
  | shutdownSink
  | shutdownJoin
  | shutdownJoining
  | shutdownLast

/-- What a call returns. -/
inductive Outcome
  | result (result : OpenSlResult)
  | status (status : Status)

structure Queue (τ : Type) where
  pendingCount : UInt64 := 0
  callbackJobs : List CallbackJob := []
  callback : Address := nullptr
  callbackContext : Address := nullptr
  lastStatus : Status := {}
  /-- The wrap of the 64-bit counter is not modelled. -/
  generation : Nat := 1
  processedBuffers : UInt64 := 0
  submittedBuffers : UInt64 := 0
  consumedBuffers : UInt64 := 0
  discardedBuffers : UInt64 := 0
  consumedBytes : UInt64 := 0
  stopping : Bool := false
  callbackThreadStarted : Bool := false
  shutdownStarted : Bool := false
  shutdownComplete : Bool := false
  sinkOperationMutex : Option τ := none
  pc : τ → Pc := fun _ => .idle
  outcomes : List (τ × Outcome) := []
  /-- `RunCallbacks` has returned. -/
  callbacksReturned : Bool := false
  /-- The tickets of the buffers the sink holds: enqueued, and not released yet. -/
  borrowed : List ReleaseTicket := []
  /-- The callbacks `RunCallbacks` has called, first call first. -/
  called : List CallbackJob := []
  /-- The jobs that were ever queued. -/
  queued : List CallbackJob := []
  /-- `Shutdown` has set a count above zero to zero. -/
  forced : Bool := false
  /-- One was subtracted from a count of zero. -/
  underflowed : Bool := false

structure OpenSlSimpleBufferQueueStats where
  submittedBuffers : UInt64
  consumedBuffers : UInt64
  discardedBuffers : UInt64
  consumedBytes : UInt64
  pendingBuffers : UInt64

namespace Queue

variable {τ : Type} (s : Queue τ)

def getStats : OpenSlSimpleBufferQueueStats :=
  ⟨s.submittedBuffers, s.consumedBuffers, s.discardedBuffers, s.consumedBytes, s.pendingCount⟩

/-- `AbiGetState`: the count and the index. -/
def abiGetState : Nat × Nat :=
  (min s.pendingCount.toNat (2 ^ 32 - 1), min s.processedBuffers.toNat (2 ^ 32 - 1))

/-! Sections of the sink's and the callback thread. -/

/-- `pending_count.fetch_sub(1)`. -/
def subtractPending : Queue τ :=
  { s with
    pendingCount := s.pendingCount - 1, underflowed := s.underflowed || s.pendingCount == 0 }

/-- The end of `ReleaseBuffer` for a buffer that was not discarded. -/
def consume (sizeBytes : UInt64) : Queue τ :=
  let consumed := { s with
    processedBuffers := s.processedBuffers + 1
    consumedBuffers := s.consumedBuffers + 1
    consumedBytes := s.consumedBytes + sizeBytes }
  if s.callback = nullptr then consumed
  else
    let job : CallbackJob := ⟨s.callback, s.callbackContext⟩
    { consumed with callbackJobs := s.callbackJobs ++ [job], queued := s.queued ++ [job] }

def releaseBuffer (ticket : ReleaseTicket) (sizeBytes : UInt64) : Queue τ :=
  if ticket.generation ≠ s.generation then s
  else
    let s := if 0 < s.pendingCount then s.subtractPending else s
    if s.stopping then { s with discardedBuffers := s.discardedBuffers + 1 }
    else s.consume sizeBytes

/-- `RunCallbacks`, from its wait to the end of its section. -/
def runCallbacks : Option (Queue τ) :=
  if s.callbacksReturned || !s.callbackThreadStarted then none
  else if s.stopping then some { s with callbackJobs := [], callbacksReturned := true }
  else
    match s.callbackJobs with
    | [] => none
    | job :: jobs => some { s with callbackJobs := jobs, called := s.called ++ [job] }

/-! The sections of calls. -/

variable [DecidableEq τ] (t : τ)

def goto (p : Pc) : Queue τ := { s with pc := Function.update s.pc t p }

def finish (outcome : Outcome) : Queue τ :=
  { s.goto t .idle with outcomes := s.outcomes ++ [(t, outcome)] }

/-- A call takes `sink_operation_mutex`. -/
def lockOperation (p : Pc) : Option (Queue τ) :=
  if s.sinkOperationMutex.isSome then none
  else some ({ s with sinkOperationMutex := some t }.goto t p)

/-- A call that holds `sink_operation_mutex` returns. -/
def finishOperation (outcome : Outcome) : Queue τ :=
  { s with sinkOperationMutex := none }.finish t outcome

/-- `AbiEnqueue` up to the sink; `allocated` is whether there was memory for the ticket. -/
def enqueueSection (maxBuffers : UInt32) (allocated : Bool) : Queue τ :=
  if s.stopping then s.finishOperation t (.result .kResultPreconditionsViolated)
  else if maxBuffers.toUInt64 ≤ s.pendingCount then
    s.finishOperation t (.result .kResultBufferInsufficient)
  else if !allocated then
    let status : Status := ⟨.unavailable, "unable to allocate OpenSL release ticket"⟩
    { s with lastStatus := status }.finishOperation t (.result (toOpenSlResult status))
  else
    { s with
      pendingCount := s.pendingCount + 1, submittedBuffers := s.submittedBuffers + 1 }.goto t
        (.enqueueSink ⟨s.generation⟩)

/-- `AbiEnqueue` after the sink has refused the buffer. -/
def enqueueFailedSection (status : Status) : Queue τ :=
  { { s with lastStatus := status }.subtractPending with
    submittedBuffers := s.submittedBuffers - 1 }.finishOperation t (.result (toOpenSlResult status))

/-- `AbiClear` up to the sink. -/
def clearSection : Queue τ :=
  if s.stopping then s.finishOperation t (.result .kResultPreconditionsViolated)
  else
    { s with
      generation := s.generation + 1
      discardedBuffers := s.discardedBuffers + s.pendingCount
      pendingCount := 0 }.goto t .clearSink

def abiRegisterCallback (registeredCallback context : Address) : Queue τ :=
  if s.stopping then s.finish t (.result .kResultPreconditionsViolated)
  else
    { s with
      callback := registeredCallback, callbackContext := context }.finish t
        (.result .kResultSuccess)

/-- `SetPlaying` and `SetGain` up to the sink. -/
def commandSection : Queue τ :=
  if s.stopping then
    s.finishOperation t (.status (failedPrecondition "OpenSL adapter is shut down"))
  else s.goto t .commandSink

/-- `Shutdown`, first section; the callback thread does not wait for another shutdown. -/
def shutdownSection (worker : τ) : Queue τ :=
  if s.shutdownStarted then
    if s.callbackThreadStarted && t = worker then s else s.goto t .shutdownWait
  else
    { s with
      shutdownStarted := true
      stopping := true
      callback := nullptr
      callbackContext := nullptr
      callbackJobs := [] }.goto t .shutdownLock

/-- `JoinCallbackThread` once the thread has ended, or was left to itself. -/
def joinedSection (worker : τ) (error : Option String) : Queue τ :=
  let message :=
    if t = worker then "unable to detach OpenSL callback thread: "
    else "unable to join OpenSL callback thread: "
  { s with
    callbackThreadStarted := false
    lastStatus := match error with
      | none => s.lastStatus
      | some text => ⟨.platformError, message ++ text⟩ }.goto t .shutdownLast

/-- `Shutdown`, last section. -/
def shutdownLastSection : Queue τ :=
  let s := if 0 < s.pendingCount then
      { s with
        lastStatus := ⟨.platformError, "audio sink did not release all borrowed OpenSL buffers"⟩
        pendingCount := 0
        forced := true }
    else s
  { s with shutdownComplete := true }.goto t .idle

end Queue

/-- What a thread does next: the call it starts, its next section, what the sink returns to it, or
how the join ends. -/
inductive Move
  | enqueue (buffer : Address) (size : UInt32)
  | clear
  | registerCallback (registeredCallback context : Address)
  | setPlaying (playing : Bool)
  | setGain
  | shutdown
  | locked (allocated : Bool)
  | sink (status : Status)
  | joined (error : Option String)

/-- A step: of a thread, of the sink (which releases a buffer it holds, or the one a thread is
enqueuing), or of `RunCallbacks`. -/
inductive Label (τ : Type)
  | thread (t : τ) (move : Move)
  | release (ticket : ReleaseTicket) (sizeBytes : UInt64)
  | releaseInside (t : τ) (sizeBytes : UInt64)
  | callbacks

section

variable {τ : Type} [DecidableEq τ] (worker : τ) (maxBuffers : UInt32) (s : Queue τ) (t : τ)

/-- A call starts. -/
def startCall : Move → Option (Queue τ)
  | .enqueue buffer size =>
    if buffer = nullptr || size == 0 then some (s.finish t (.result .kResultParameterInvalid))
    else s.lockOperation t .enqueueLocked
  | .clear => s.lockOperation t .clearLocked
  | .registerCallback registeredCallback context =>
    some (s.abiRegisterCallback t registeredCallback context)
  | .setPlaying _ | .setGain => s.lockOperation t .commandLocked
  | .shutdown => some (s.shutdownSection t worker)
  | _ => none

/-- The sink returns from the call of a thread. -/
def sinkStep (status : Status) : Pc → Option (Queue τ)
  | .enqueueSink ticket =>
    if status.isOk then
      some ({ s with borrowed := ticket :: s.borrowed }.finishOperation t (.result .kResultSuccess))
    else some (s.goto t (.enqueueFailed ticket status))
  -- a released buffer was not refused
  | .enqueueReleased =>
    if status.isOk then some (s.finishOperation t (.result .kResultSuccess)) else none
  | .clearSink =>
    if status.isOk then some (s.finishOperation t (.result (toOpenSlResult status)))
    else some (s.goto t (.clearFailed status))
  | .commandSink =>
    if status.isOk then some (s.finishOperation t (.status status))
    else some (s.goto t (.commandFailed status))
  | .shutdownSink => some ({ s with sinkOperationMutex := none }.goto t .shutdownJoin)
  | _ => none

/-- The next section of a thread. -/
def sectionStep (allocated : Bool) : Pc → Option (Queue τ)
  | .enqueueLocked => some (s.enqueueSection t maxBuffers allocated)
  | .enqueueFailed _ status => some (s.enqueueFailedSection t status)
  | .clearLocked => some (s.clearSection t)
  | .clearFailed status =>
    some ({ s with lastStatus := status }.finishOperation t (.result (toOpenSlResult status)))
  | .commandLocked => some (s.commandSection t)
  | .commandFailed status =>
    some ({ s with lastStatus := status }.finishOperation t (.status status))
  | .shutdownWait => if s.shutdownComplete then some (s.goto t .idle) else none
  | .shutdownLock => s.lockOperation t .shutdownSink
  | .shutdownJoin =>
    if s.callbackThreadStarted then some (s.goto t .shutdownJoining)
    else some (s.goto t .shutdownLast)
  | .shutdownLast => some (s.shutdownLastSection t)
  | _ => none

def threadStep (move : Move) : Option (Queue τ) :=
  match s.pc t, move with
  | .idle, move => startCall worker s t move
  | pc, .locked allocated => sectionStep maxBuffers s t allocated pc
  | pc, .sink status => sinkStep s t status pc
  | .shutdownJoining, .joined error =>
    if t = worker || s.callbacksReturned then some (s.joinedSection t worker error) else none
  | _, _ => none

def step : Label τ → Option (Queue τ)
  | .thread t move => threadStep worker maxBuffers s t move
  | .release ticket sizeBytes =>
    if ticket ∈ s.borrowed then
      some ({ s with borrowed := s.borrowed.erase ticket }.releaseBuffer ticket sizeBytes)
    else none
  | .releaseInside t sizeBytes =>
    match s.pc t with
    | .enqueueSink ticket => some ((s.releaseBuffer ticket sizeBytes).goto t .enqueueReleased)
    | _ => none
  | .callbacks =>
    match s.pc worker with
    | .idle => s.runCallbacks
    | _ => none

end

/-- The queue from `Create` on. -/
def queueLTS {τ : Type} [DecidableEq τ] (worker : τ) (maxBuffers : UInt32) :
    LTS (Queue τ) (Label τ) :=
  .ofFun { callbackThreadStarted := true } (step worker maxBuffers)

end Nightcap.Audio
