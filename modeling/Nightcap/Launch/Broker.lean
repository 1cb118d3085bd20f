import Nightcap.Launch.Experience
import Nightcap.Lib.Mutex
import Nightcap.Lib.Transition
import Nightcap.Lib.Utf8

/-! `ExternalLaunchBroker`: the queue of launch requests between its threads, one shared access a
step. -/
namespace Nightcap.Launch

open Transition

structure Options where
  maximumPendingLaunches : Nat := 8
  forwardingTimeoutMs : Int := 30000

def kMaximumConfiguredPendingLaunches : Nat := 64

def Options.valid (o : Options) : Bool :=
  o.maximumPendingLaunches != 0 && o.maximumPendingLaunches ≤ kMaximumConfiguredPendingLaunches &&
    0 < o.forwardingTimeoutMs && o.forwardingTimeoutMs ≤ 30000

/-- Launch requests, and the parser of their canonical JSON. -/
structure Requests (ρ : Type) where
  canonicalJson : ρ → Utf8.Bytes
  parse : Utf8.Bytes → Option ρ

variable {τ ρ : Type}

def unavailable (message : String) : Status := ⟨.unavailable, message⟩

def platform (message : String) : Status := ⟨.platformError, message⟩

def normalizeRequest (requests : Requests ρ) (request : ρ) : Except Status ρ :=
  if requests.canonicalJson request = [] then
    .error (invalidArgument "external-launch canonical JSON is empty")
  else
    match requests.parse (requests.canonicalJson request) with
    | none => .error (invalidArgument "external-launch canonical JSON is invalid")
    | some normalized => .ok normalized

/-! Peers. -/

inductive WireReply
  | kAccepted
  | kInvalid
  | kQueueFull
  | kDenied
  | kStopping
deriving DecidableEq

def kWirePrefix : Utf8.Bytes := "MOCKTAIL-EXTERNAL-LAUNCH/1\n".toUTF8.toList

/-- A peer that was accepted: whether its timeouts could be set, whether it is the same user, and
the packet it sent, if one could be received. -/
structure Peer where
  timeoutsSet : Bool
  sameUser : Bool
  packet : Option Utf8.Bytes

/-- `HandlePeer` up to the queue: the request, or the reply that ends it. -/
def receiveRequest (requests : Requests ρ) (peer : Peer) : Except (Option WireReply) ρ :=
  if !peer.timeoutsSet then .error none
  else if !peer.sameUser then .error (some .kDenied)
  else
    match peer.packet with
    | none => .error (some .kInvalid)
    | some packet =>
      if packet.length ≤ kWirePrefix.length ||
          kWirePrefix.length + kMaximumExperienceLaunchJsonBytes < packet.length ||
          packet.take kWirePrefix.length != kWirePrefix then .error (some .kInvalid)
      else
        match requests.parse (packet.drop kWirePrefix.length) with
        | none => .error (some .kInvalid)
        | some request => .ok request

/-- The reply to a peer whose request was queued, or was not. -/
def replyTo (status : Status) : WireReply :=
  if status.isOk then .kAccepted
  else if status.code = .unavailable then .kQueueFull
  else .kStopping

/-! The broker. -/

/-- Where a thread is, with its locals: the request of a call, how many requests `Drain` may still
take and the status it returns. -/
inductive Pc (ρ : Type)
  | idle
  -- `QueueNormalized`; called by `HandlePeer` or not
  | queueCheck (peer : Bool) (request : ρ)
  | queueLock (peer : Bool) (request : ρ)
  | queueLocked (peer : Bool) (request : ρ)
  | queuePublish (peer : Bool)
  | queueUnlock (peer : Bool) (status : Status)
  -- `Drain`
  | drainCount (maximum : Nat)
  | drainStopping (maximum : Nat)
  | drainLock (maximum : Nat)
  | drainLocked (maximum : Nat)
  | drainLoop (maximum : Nat)
  | popLocked (maximum : Nat)
  | popPublish (maximum : Nat) (request : ρ)
  | popUnlock (maximum : Nat) (request : ρ)
  | dispatch (maximum : Nat) (request : ρ)
  | returnLock (request : ρ) (status : Status)
  | returnLocked (request : ρ) (status : Status)
  | returnPublish (status : Status)
  | returnUnlock (status : Status)
  | breakUnlock
  | drainUnlock (status : Status)
  -- `Shutdown`
  | shutdown
  | shutdownLocked
  | shutdownDrain
  | shutdownStop
  | shutdownJoin
  | clearLock
  | clearLocked
  | clearPublish
  | clearUnlock
  | shutdownUnlock (status : Status)

/-- What a call ends with. -/
inductive Outcome
  | status (status : Status)
  | reply (reply : Option WireReply)

structure Broker (τ ρ : Type) where
  pending : List ρ := []
  pendingCount : Nat := 0
  stopping : Bool := true
  started : Bool := false
  queueMutex : Option τ := none
  drainMutex : Option τ := none
  lifecycleMutex : Option τ := none
  pc : τ → Pc ρ := fun _ => .idle
  /-- What the calls ended with, first call first. -/
  outcomes : List (τ × Outcome) := []
  /-- The requests that were put into the queue, first request first. -/
  accepted : List ρ := []
  /-- The requests whose dispatch succeeded. -/
  dispatched : List ρ := []
  /-- The first request of the queue was returned by a failed dispatch. -/
  returned : Bool := false
  /-- `Shutdown` has emptied the queue. -/
  cleared : Bool := false

/-- `Start`, on a broker whose endpoint and worker come up. -/
def start (requests : Requests ρ) (options : Options) (initial : Option ρ) : Option (Broker τ ρ) :=
  if !options.valid then none
  else
    match initial.map (normalizeRequest requests) with
    | none => some { stopping := false, started := true }
    | some (.error _) => none
    | some (.ok request) => some
        { pending := [request], pendingCount := 1, stopping := false, started := true,
          accepted := [request] }

namespace Broker

variable [DecidableEq τ] (s : Broker τ ρ) (t : τ)

def goto (p : Pc ρ) : Broker τ ρ := { s with pc := Function.update s.pc t p }

def finish (outcome : Outcome) : Broker τ ρ :=
  { s.goto t .idle with outcomes := s.outcomes ++ [(t, outcome)] }

/-- `QueueNormalized` returns to its caller. -/
def finishQueue (peer : Bool) (status : Status) : Broker τ ρ :=
  s.finish t (if peer then .reply (some (replyTo status)) else .status status)

def publishPendingCount : Broker τ ρ := { s with pendingCount := s.pending.length }

def lockQueue (p : Pc ρ) : Option (Broker τ ρ) :=
  if s.queueMutex.isSome then none else some ({ s with queueMutex := some t }.goto t p)

def unlockQueue : Broker τ ρ := { s with queueMutex := none }

def lockDrain (p : Pc ρ) : Option (Broker τ ρ) :=
  if s.drainMutex.isSome then none else some ({ s with drainMutex := some t }.goto t p)

def unlockDrain : Broker τ ρ := { s with drainMutex := none }

end Broker

/-- What a thread does next: the call it starts, how its dispatch ends, whether the worker was
joined, or just its next access. -/
inductive Move (ρ : Type)
  | handlePeer (peer : Peer)
  | queueInitial (request : ρ)
  | drain (sinkValid : Bool) (maximumRequests : Nat)
  | shutdown
  | access
  | dispatched (status : Status)
  | joined (joined : Bool)

section

variable [DecidableEq τ] (requests : Requests ρ) (options : Options) (s : Broker τ ρ) (t : τ)

/-- A call starts. -/
def startCall : Move ρ → Option (Broker τ ρ)
  | .handlePeer peer =>
    match receiveRequest requests peer with
    | .error reply => some (s.finish t (.reply reply))
    | .ok request => some (s.goto t (.queueCheck true request))
  | .queueInitial request =>
    match normalizeRequest requests request with
    | .error status => some (s.finish t (.status status))
    | .ok normalized => some (s.goto t (.queueCheck false normalized))
  | .drain sinkValid maximumRequests =>
    if !sinkValid then
      some (s.finish t (.status (invalidArgument "external-launch sink is incomplete")))
    else some (s.goto t (.drainCount maximumRequests))
  | .shutdown => some (s.goto t .shutdown)
  | _ => none

def stoppingStatus : Status := failedPrecondition "external-launch broker is stopping"

/-- The next access of a thread in `QueueNormalized`. -/
def queueStep : Pc ρ → Option (Broker τ ρ)
  | .queueCheck peer request =>
    if s.stopping then some (s.finishQueue t peer stoppingStatus)
    else some (s.goto t (.queueLock peer request))
  | .queueLock peer request => s.lockQueue t (.queueLocked peer request)
  | .queueLocked peer request =>
    if s.stopping then some (s.goto t (.queueUnlock peer stoppingStatus))
    else if options.maximumPendingLaunches ≤ s.pending.length then
      some (s.goto t (.queueUnlock peer (unavailable "external-launch queue is full")))
    else some ({ s with
      pending := s.pending ++ [request]
      accepted := s.accepted ++ [request] }.goto t (.queuePublish peer))
  | .queuePublish peer => some (s.publishPendingCount.goto t (.queueUnlock peer {}))
  | .queueUnlock peer status => some (s.unlockQueue.finishQueue t peer status)
  | _ => none

/-- The next access of a thread in `Drain`. -/
def drainStep : Pc ρ → Option (Broker τ ρ)
  | .drainCount maximum =>
    if s.pendingCount = 0 then some (s.goto t (.drainStopping maximum))
    else some (s.goto t (.drainLock maximum))
  | .drainStopping maximum =>
    if s.stopping then some (s.goto t (.drainLock maximum)) else some (s.finish t (.status {}))
  | .drainLock maximum => s.lockDrain t (.drainLocked maximum)
  | .drainLocked maximum =>
    if s.stopping then some (s.goto t (.drainUnlock stoppingStatus))
    else some (s.goto t (.drainLoop maximum))
  | .drainLoop 0 => some (s.goto t (.drainUnlock {}))
  | .drainLoop (maximum + 1) => s.lockQueue t (.popLocked maximum)
  | .popLocked maximum =>
    match s.pending with
    | [] => some (s.goto t .breakUnlock)
    | request :: pending =>
      some ({ s with pending, returned := false }.goto t (.popPublish maximum request))
  | .popPublish maximum request => some (s.publishPendingCount.goto t (.popUnlock maximum request))
  | .popUnlock maximum request => some (s.unlockQueue.goto t (.dispatch maximum request))
  | .returnLock request status => s.lockQueue t (.returnLocked request status)
  | .returnLocked request status =>
    some ({ s with pending := request :: s.pending, returned := true }.goto t
      (.returnPublish status))
  | .returnPublish status => some (s.publishPendingCount.goto t (.returnUnlock status))
  | .returnUnlock status => some (s.unlockQueue.goto t (.drainUnlock status))
  | .breakUnlock => some (s.unlockQueue.goto t (.drainUnlock {}))
  | .drainUnlock status => some (s.unlockDrain.finish t (.status status))
  | _ => none

/-- The next access of a thread in `Shutdown`. -/
def shutdownStep : Pc ρ → Option (Broker τ ρ)
  | .shutdown =>
    if s.lifecycleMutex.isSome then none
    else some ({ s with lifecycleMutex := some t }.goto t .shutdownLocked)
  | .shutdownLocked =>
    if !s.started then some ({ s with lifecycleMutex := none }.finish t (.status {}))
    else some (s.goto t .shutdownDrain)
  | .shutdownDrain => s.lockDrain t .shutdownStop
  | .shutdownStop => some ({ s with stopping := true }.goto t .shutdownJoin)
  | .clearLock => s.lockQueue t .clearLocked
  | .clearLocked =>
    some ({ s with pending := [], returned := false, cleared := true }.goto t .clearPublish)
  | .clearPublish => some (s.publishPendingCount.goto t .clearUnlock)
  | .clearUnlock => some ({ s.unlockQueue with started := false }.goto t (.shutdownUnlock {}))
  | .shutdownUnlock status =>
    some ({ s.unlockDrain with lifecycleMutex := none }.finish t (.status status))
  | _ => none

/-- One step of a thread. -/
def step (label : τ × Move ρ) : Option (Broker τ ρ) :=
  match s.pc label.1, label.2 with
  | .idle, move => startCall requests s label.1 move
  | .dispatch maximum request, .dispatched status =>
    if status.isOk then
      some ({ s with dispatched := s.dispatched ++ [request] }.goto label.1 (.drainLoop maximum))
    else some (s.goto label.1 (.returnLock request status))
  | .shutdownJoin, .joined joined =>
    if joined then some (s.goto label.1 .clearLock)
    else some (s.goto label.1 (.shutdownUnlock (platform "external-launch worker did not stop")))
  | pc, .access =>
    (queueStep options s label.1 pc).or ((drainStep s label.1 pc).or (shutdownStep s label.1 pc))
  | _, _ => none

end

/-- The broker from `Start` on. -/
def brokerLTS [DecidableEq τ] (requests : Requests ρ) (options : Options) (initial : Option ρ) :
    LTS (Broker τ ρ) (τ × Move ρ) where
  initial s := start requests options initial = some s
  step s label s' := step requests options s label = some s'

end Nightcap.Launch
