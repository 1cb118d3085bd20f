import Nightcap.Lib.Transition
import Nightcap.Status

/-! `WindowSurfaceLifecycle`: what the host window reports, turned into lifetimes of a surface. -/
namespace Nightcap.Window

open Transition

inductive WindowSurfaceEventType
  | created
  | changed
  | destroyed
deriving DecidableEq

structure WindowSurfaceSnapshot where
  generation : UInt64 := 0
  nativeWindow : UInt64 := 0
  width : UInt32 := 0
  height : UInt32 := 0
  available : Bool := false
  dpiScale : Float32 := 1.0

structure WindowSurfaceEvent where
  type : WindowSurfaceEventType := .changed
  surface : WindowSurfaceSnapshot := {}

structure WindowSurfaceLifecycle where
  events : List WindowSurfaceEvent := []
  current : WindowSurfaceSnapshot := {}
  active : Bool := false

def kMinimumWindowWidth : UInt32 := 160

def kMinimumWindowHeight : UInt32 := 120

/-- `std::numeric_limits<uint64_t>::max()`. -/
def generationLimit : UInt64 := 18446744073709551615

def validAvailableSurface (nativeWindow : UInt64) (width height : UInt32) (dpiScale : Float32) :
    Bool :=
  nativeWindow != 0 && decide (kMinimumWindowWidth ≤ width) &&
    decide (kMinimumWindowHeight ≤ height) && decide (dpiScale > 0.0)

/-- The check of a whole surface. -/
def WindowSurfaceSnapshot.valid (s : WindowSurfaceSnapshot) : Bool :=
  validAvailableSurface s.nativeWindow s.width s.height s.dpiScale

namespace WindowSurfaceLifecycle

def queueLocked (l : WindowSurfaceLifecycle) (type : WindowSurfaceEventType)
    (surface : WindowSurfaceSnapshot) : WindowSurfaceLifecycle :=
  match l.events.getLast? with
  | some back =>
    if type = .changed ∧ back.type = .changed ∧ back.surface.generation = surface.generation then
      { l with events := l.events.dropLast ++ [{ back with surface }] }
    else { l with events := l.events ++ [⟨type, surface⟩] }
  | none => { l with events := l.events ++ [⟨type, surface⟩] }

def restoreLocked (l : WindowSurfaceLifecycle) (nativeWindow : UInt64) (width height : UInt32)
    (dpiScale : Float32) : WindowSurfaceLifecycle × Status :=
  if l.current.generation = generationLimit then
    (l, failedPrecondition "window surface generation overflowed")
  else
    let current :=
      { generation := l.current.generation + 1, nativeWindow, width, height
        available := true, dpiScale }
    ((({ l with current }).queueLocked .created current).queueLocked .changed current, {})

/-- The surface is gone: queue `Destroyed` and forget the handle. -/
def destroyLocked (l : WindowSurfaceLifecycle) : WindowSurfaceLifecycle :=
  let l := l.queueLocked .destroyed { l.current with available := false }
  { l with current := { l.current with nativeWindow := 0, available := false } }

def activate (l : WindowSurfaceLifecycle) (nativeWindow : UInt64) (width height : UInt32)
    (dpiScale : Float32) : WindowSurfaceLifecycle × Status :=
  if l.active then (l, failedPrecondition "window surface lifecycle is already active")
  else if !validAvailableSurface nativeWindow width height dpiScale then
    (l, invalidArgument
      "initial window surface requires a native handle, dimensions and DPI scale")
  else
    ({ events := [], current := ⟨1, nativeWindow, width, height, true, dpiScale⟩, active := true },
      {})

def observe (l : WindowSurfaceLifecycle) (nativeWindow : UInt64) (width height : UInt32)
    (dpiScale : Float32) : WindowSurfaceLifecycle × Status :=
  if !l.active then (l, failedPrecondition "window surface lifecycle is not active")
  else if nativeWindow = 0 then (if l.current.available then l.destroyLocked else l, {})
  else if ¬ dpiScale > 0.0 then
    (l, invalidArgument "observed window surface requires a DPI scale")
  -- An extent below the minimum keeps the last usable one; the handle still counts.
  else if width < kMinimumWindowWidth ∨ height < kMinimumWindowHeight then
    (if l.current.available ∧ nativeWindow ≠ l.current.nativeWindow then l.destroyLocked else l, {})
  else if !l.current.available then l.restoreLocked nativeWindow width height dpiScale
  else if nativeWindow ≠ l.current.nativeWindow then
    l.destroyLocked.restoreLocked nativeWindow width height dpiScale
  else if width = l.current.width ∧ height = l.current.height ∧
      (dpiScale == l.current.dpiScale) = true then (l, {})
  else
    let current := { l.current with width, height, dpiScale }
    (({ l with current }).queueLocked .changed current, {})

def refresh (l : WindowSurfaceLifecycle) : WindowSurfaceLifecycle × Status :=
  if !l.active then (l, failedPrecondition "window surface lifecycle is not active")
  else if !l.current.available || !l.current.valid then
    (l, failedPrecondition "window surface is unavailable for refresh")
  else (l.queueLocked .changed l.current, {})

def recreate (l : WindowSurfaceLifecycle) : WindowSurfaceLifecycle × Status :=
  if !l.active then (l, failedPrecondition "window surface lifecycle is not active")
  else if !l.current.available || !l.current.valid then
    (l, failedPrecondition "window surface is unavailable for recreation")
  else if l.current.generation = generationLimit then
    (l, failedPrecondition "window surface generation overflowed")
  else
    let destroyed := { l.current with available := false }
    let current := { l.current with generation := l.current.generation + 1 }
    ((({ l.queueLocked .destroyed destroyed with current }).queueLocked .created
      current).queueLocked .changed current, {})

def poll (l : WindowSurfaceLifecycle) : WindowSurfaceLifecycle × Option WindowSurfaceEvent :=
  match l.events with
  | [] => (l, none)
  | event :: events => ({ l with events }, some event)

end WindowSurfaceLifecycle

/-- What the window thread reports or asks for. -/
inductive SurfaceReport
  | observe (nativeWindow : UInt64) (width height : UInt32) (dpiScale : Float32)
  | refresh
  | recreate

def WindowSurfaceLifecycle.report (l : WindowSurfaceLifecycle) :
    SurfaceReport → WindowSurfaceLifecycle × Status
  | .observe nativeWindow width height dpiScale => l.observe nativeWindow width height dpiScale
  | .refresh => l.refresh
  | .recreate => l.recreate

/-- A lifecycle and everything polled from it. -/
structure SurfaceStream where
  lifecycle : WindowSurfaceLifecycle
  polled : List WindowSurfaceEvent := []

inductive SurfaceAction
  | report (report : SurfaceReport)
  | poll

def SurfaceStream.step (st : SurfaceStream) : SurfaceAction → Option SurfaceStream
  | .report report => some { st with lifecycle := (st.lifecycle.report report).1 }
  | .poll =>
    match st.lifecycle.poll with
    | (lifecycle, event) => some { lifecycle, polled := st.polled ++ event.toList }

/-- The polled events, continued by the queued ones. -/
def SurfaceStream.events (st : SurfaceStream) : List WindowSurfaceEvent :=
  st.polled ++ st.lifecycle.events

def surfaceLTS (l : WindowSurfaceLifecycle) : LTS SurfaceStream SurfaceAction :=
  .ofFun { lifecycle := l } SurfaceStream.step

end Nightcap.Window
