import Nightcap.WebView.HelperPackets
import Nightcap.Lib.Transition

/-! The event packets of the helper over TCP: `WaitUntilReady` and `DrainEvents`, read by read. -/
namespace Nightcap.WebView.Helper

open Utf8 Transition

def framePacket (packet : Bytes) : Bytes := sizeBytes packet.length ++ packet

/-- The packet at the front of a buffer, if it is whole, and the buffer that is left. -/
def extractFrame (buffer : Bytes) : Option Bytes × Bytes :=
  match buffer with
  | b₀ :: b₁ :: b₂ :: b₃ :: rest =>
    let size := sizeOf b₀ b₁ b₂ b₃
    if size > kMaximumWebViewEventPacketBytes then (none, [])
    else if buffer.length < 4 + size then (none, buffer)
    else (some (rest.take size), rest.drop size)
  | _ => (none, buffer)

inductive Caller
  | waitUntilReady
  | drainEvents
deriving DecidableEq

inductive Pc
  | idle
  | check
  | receive (caller : Caller)
  | read (caller : Caller)
  | poll
deriving DecidableEq

structure Channel where
  alive : Bool := true
  opened : Bool := true
  pendingEvents : List WebViewHelperEvent := []
  receiveBuffer : Bytes := []
  ready : Bool := false
  pc : Pc := .idle
  wire : Bytes
  /-- The events handed out by all calls so far. -/
  delivered : List WebViewHelperEvent := []
  /-- The last call, with its result. -/
  returned : Option (Caller × Bool) := none
  overflowed : Bool := false

inductive ReadAnswer
  | data (count : Nat)
  | again
  | interrupted
  | failed
  | closed
deriving DecidableEq

inductive PollAnswer
  | answered
  | interrupted
  /-- `poll` failed, or the descriptor did. -/
  | failed
deriving DecidableEq

inductive Action
  | waitUntilReady (timeout : Int)
  | drainEvents
  | check (expired : Bool)
  | extract
  | read (answer : ReadAnswer)
  | poll (answer : PollAnswer)
  | childExited
  | close
deriving DecidableEq

inductive Received
  | packet (bytes : Bytes)
  | again
  | failed
  | closed

/-- The size of a packet is the result, and no bytes are the end of the stream. -/
def Received.ofPacket (packet : Bytes) : Received := if packet = [] then .closed else .packet packet

namespace Channel

variable (s : Channel)

def returns (caller : Caller) (result : Bool) : Channel :=
  { s with pc := .idle, returned := some (caller, result) }

def takeEvent (caller : Caller) (event : WebViewHelperEvent) : Channel :=
  if event.type = .kReady then { s with ready := true }
  else
    match caller with
    | .waitUntilReady => { s with pendingEvents := s.pendingEvents ++ [event] }
    | .drainEvents => { s with delivered := s.delivered ++ [event] }

def takePacket (caller : Caller) (packet : Bytes) : Channel :=
  match decodeWebViewHelperEventPacket packet with
  | .error _ => s
  | .ok event => s.takeEvent caller event

/-- The loops around `ReceivePacket`. -/
def afterReceive : Caller → Received → Channel
  | .waitUntilReady, .packet packet =>
    let s := s.takePacket .waitUntilReady packet
    if s.ready then s.returns .waitUntilReady true else { s with pc := .receive .waitUntilReady }
  | .waitUntilReady, .again => { s with pc := .poll }
  | .waitUntilReady, .failed => s.returns .waitUntilReady s.ready
  | .waitUntilReady, .closed => s.returns .waitUntilReady s.ready
  | .drainEvents, .packet packet =>
    { s.takePacket .drainEvents packet with pc := .receive .drainEvents }
  | .drainEvents, .again => s.returns .drainEvents true
  | .drainEvents, .failed => s.returns .drainEvents false
  | .drainEvents, .closed => s.returns .drainEvents true

def afterExtract (caller : Caller) : Channel :=
  match extractFrame s.receiveBuffer with
  | (some packet, receiveBuffer) =>
    { s with receiveBuffer }.afterReceive caller (.ofPacket packet)
  | (none, receiveBuffer) => { s with receiveBuffer, pc := .read caller }

def afterData (caller : Caller) (count : Nat) : Channel :=
  let s :=
    { s with receiveBuffer := s.receiveBuffer ++ s.wire.take count, wire := s.wire.drop count }
  if s.receiveBuffer.length > kMaximumWebViewEventPacketBytes * 2 then
    { s with overflowed := true }.afterReceive caller .failed
  else { s with pc := .receive caller }

/-- A read gives what there is, up to the size of the chunk. -/
def afterRead (caller : Caller) : ReadAnswer → Option Channel
  | .data count =>
    if 0 < count ∧ count ≤ 4096 ∧ count ≤ s.wire.length then
      some (s.afterData caller count)
    else none
  | .again => some (s.afterReceive caller .again)
  | .interrupted => some { s with pc := .receive caller }
  | .failed => some (s.afterReceive caller .failed)
  | .closed => some (s.afterReceive caller .closed)

def afterPoll : PollAnswer → Channel
  | .answered => { s with pc := .check }
  | .interrupted => s
  | .failed => s.returns .waitUntilReady s.ready

def callWait (timeout : Int) : Channel :=
  if timeout < 0 then s.returns .waitUntilReady false else { s with pc := .check, returned := none }

def callDrain : Channel :=
  if s.opened then
    { s with
      pc := .receive .drainEvents
      delivered := s.delivered ++ s.pendingEvents
      pendingEvents := []
      returned := none }
  else s.returns .drainEvents false

def afterCheck (expired : Bool) : Channel :=
  if s.ready ∨ s.opened = false ∨ s.alive = false ∨ expired then s.returns .waitUntilReady s.ready
  else { s with pc := .receive .waitUntilReady }

/-- The calls hold the mutex, and so does who closes the descriptor; the child may exit at any
time. -/
def step (action : Action) : Option Channel :=
  match s.pc, action with
  | _, .childExited => some { s with alive := false }
  | .idle, .waitUntilReady timeout => some (s.callWait timeout)
  | .idle, .drainEvents => some s.callDrain
  | .idle, .close => some { s with opened := false }
  | .check, .check expired => some (s.afterCheck expired)
  | .receive caller, .extract => some (s.afterExtract caller)
  | .read caller, .read answer => s.afterRead caller answer
  | .poll, .poll answer => some (s.afterPoll answer)
  | _, _ => none

end Channel

/-- A channel on which the framed packets are on their way. -/
def channelLTS (packets : List Bytes) : LTS Channel Action :=
  .ofFun { wire := packets.flatMap framePacket } Channel.step

end Nightcap.WebView.Helper
