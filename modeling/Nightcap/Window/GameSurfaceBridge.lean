import Nightcap.Session.System
import Nightcap.Window.SurfaceStream

/-! `WindowGameSurfaceBridge`: the events of a window surface handed to a game session, one at a
time, next to everybody else who uses the session. -/
namespace Nightcap.Window

open Transition Session

/-- `WindowGameSurfaceBridgeSnapshot` and `terminal_status_`. -/
structure WindowGameSurfaceBridge where
  terminalStatus : Status := {}
  acceptedEvents : Nat := 0
  duplicateEvents : Nat := 0
  lastGeneration : UInt64 := 0
  lastEventType : WindowSurfaceEventType := .changed
  failed : Bool := false

def validateEvent (event : WindowSurfaceEvent) : Status :=
  if event.surface.generation = 0 then invalidArgument "window surface event has no generation"
  else
    match event.type with
    | .created => {}
    | .changed =>
      if !event.surface.available || event.surface.nativeWindow == 0 ||
          event.surface.width == 0 || event.surface.height == 0 then
        invalidArgument "changed window surface requires an available handle and extent"
      else {}
    | .destroyed => {}

/-- The surface a game is shown. -/
def WindowSurfaceSnapshot.gameSurface (s : WindowSurfaceSnapshot) : Surface :=
  ⟨s.generation, s.nativeWindow, s.width, s.height, s.dpiScale⟩

/-- The consumer of `MakeWindowGameSurfaceConsumer`. -/
def dispatch (event : WindowSurfaceEvent) : Session.Operation :=
  match event.type with
  | .created => .surfaceCreated event.surface.generation
  | .changed => .rebindSurface event.surface.gameSurface
  | .destroyed => .surfaceDestroyed event.surface.generation

namespace WindowGameSurfaceBridge

def fail (b : WindowGameSurfaceBridge) (status : Status) : WindowGameSurfaceBridge :=
  { b with terminalStatus := status, failed := true }

/-- The body of `Drain`'s loop, given what the consumer and the commit observer answered. -/
def drained (b : WindowGameSurfaceBridge) (event : WindowSurfaceEvent) (update : UpdateResult)
    (observed : Status) : WindowGameSurfaceBridge :=
  if update.status = .rejected then
    b.fail (failedPrecondition (if update.cause.isOk then "GAME lifecycle rejected surface event"
      else update.cause.message))
  else if !observed.isOk then b.fail observed
  else
    let b := { b with lastEventType := event.type, lastGeneration := event.surface.generation }
    if update.status = .applied then { b with acceptedEvents := b.acceptedEvents + 1 }
    else { b with duplicateEvents := b.duplicateEvents + 1 }

end WindowGameSurfaceBridge

/-- An operation whose native callback succeeds, with the presents recorded while it runs. -/
def perform (c : Coordinator) (operation : Session.Operation) (presents : List PresentEvidence) :
    Coordinator × UpdateResult :=
  match begin c operation with
  | .returned c result => (c, result)
  | .calls c _ continuation =>
    finish (presents.foldl (fun c evidence => (recordGamePresent c evidence).1) c) continuation {}

/-- How far the game session has been given its first surface. -/
inductive Handover
  | waiting
  | read (surface : WindowSurfaceSnapshot)
  | created (surface : WindowSurfaceSnapshot)
  | done

/-- The window, the bridge and the game session; `rejected` is never read. -/
structure Host where
  lifecycle : WindowSurfaceLifecycle
  bridge : WindowGameSurfaceBridge := {}
  held : Option WindowSurfaceEvent := none
  game : Coordinator
  handover : Handover := .waiting
  rejected : List WindowSurfaceEvent := []

inductive HostAction
  | report (report : SurfaceReport)
  | handOver (presents : List PresentEvidence)
  | join (presents : List PresentEvidence)
  | present (evidence : PresentEvidence)
  | poll
  | drain (presents : List PresentEvidence) (observed : Status)

namespace Host

/-- The next step of giving the session the surface of the first generation. -/
def handOver (h : Host) (presents : List PresentEvidence) : Option Host :=
  match h.handover with
  | .waiting =>
    if h.lifecycle.current.available ∧ h.lifecycle.current.generation = 1 then
      some { h with handover := .read h.lifecycle.current }
    else none
  | .read s =>
    some { h with
      game := (perform h.game (.surfaceCreated s.generation) presents).1
      handover := .created s }
  | .created s =>
    some { h with
      game := (perform h.game (.surfaceChanged s.gameSurface) presents).1
      handover := .done }
  | .done => none

/-- `source_.poll`, once the session has its surface and while the bridge has not failed. -/
def poll (h : Host) : Option Host :=
  match h.handover, h.held with
  | .done, none =>
    if h.bridge.terminalStatus.isOk then
      match h.lifecycle.poll with
      | (lifecycle, held) => some { h with lifecycle, held }
    else none
  | _, _ => none

/-- The rest of the loop for the event that was polled. -/
def drain (h : Host) (presents : List PresentEvidence) (observed : Status) : Option Host :=
  match h.held with
  | none => none
  | some event =>
    if !(validateEvent event).isOk then
      some { h with
        bridge := h.bridge.fail (validateEvent event)
        held := none
        rejected := h.rejected ++ [event] }
    else
      match perform h.game (dispatch event) presents with
      | (game, update) =>
        some { h with
          bridge := h.bridge.drained event update observed
          held := none
          game
          rejected := if update.status = .rejected then h.rejected ++ [event] else h.rejected }

def step (request : JoinRequest) (h : Host) : HostAction → Option Host
  | .report report => some { h with lifecycle := (h.lifecycle.report report).1 }
  | .handOver presents => h.handOver presents
  | .join presents =>
    some { h with game := (perform h.game (.queueJoinRequest request) presents).1 }
  | .present evidence => some { h with game := (recordGamePresent h.game evidence).1 }
  | .poll => h.poll
  | .drain presents observed => h.drain presents observed

end Host

def hostLTS (request : JoinRequest) (l : WindowSurfaceLifecycle) (game : Coordinator) :
    LTS Host HostAction := .ofFun { lifecycle := l, game } (Host.step request)

end Nightcap.Window
