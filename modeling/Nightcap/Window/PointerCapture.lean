import Nightcap.Lib.Transition

/-! `WindowPointerCaptureOwner`: which pointer state is asked of the backend, operation by
operation. -/
namespace Nightcap.Window

open Transition

structure MouseLock where
  center : Bool := false
  currentPosition : Bool := false
  reportsCurrentPosition : Bool := false
deriving DecidableEq

inductive CursorShape
  | kHidden
  | kArrow
  | kPointer
  | kText
  | kCustom
deriving DecidableEq

/-- A cursor image, by its identity. -/
abbrev CursorImage := Nat

/-- A position in window coordinates, as the bits of its two floats. -/
abbrev PointerPosition := UInt32 × UInt32

/-- What the owner was built with. -/
structure Setup where
  hasBackend : Bool
  hasFrameCounter : Bool

/-- The answers an operation gets from outside: of the query, the frame counter and the clock, and
of the backend. -/
structure Answers where
  lock : Option MouseLock := none
  frames : UInt64 := 0
  nowMs : UInt64 := 0
  cursorFrames : UInt64 := 0
  showsCursorWhileCaptured : Bool := false
  appliedMs : UInt64 := 0
  accepted : Bool := true
deriving DecidableEq

/-- What the owner asks of its backend. -/
inductive BackendCall
  | apply (relativeMode : Bool) (cursor : CursorShape) (image : Option CursorImage)
      (centerPointer restorePointer : Bool)
  | setPressAnchor (anchor : Option PointerPosition)
deriving DecidableEq

structure Owner where
  hasQuery : Bool := false
  focused : Bool := true
  rightButtonHeld : Bool := false
  rightDragPanning : Bool := false
  gameSessionActive : Bool := false
  nativeLockObserved : Bool := false
  waitForNativeUnlockAfterRightDrag : Bool := false
  captureReleaseMotionPending : Bool := false
  captureReleaseMs : UInt64 := 0
  nativeUnlockPending : Bool := false
  nativeUnlockFrame : UInt64 := 0
  nativeUnlockMs : UInt64 := 0
  captured : Bool := false
  cursor : CursorShape := .kArrow
  cursorImage : Option CursorImage := none
  pointerCentered : Bool := false
  pointerRecenterPending : Bool := false
  captureCursor : CursorShape := .kHidden
  captureCursorImage : Option CursorImage := none
  robloxCursor : CursorShape := .kHidden
  robloxCursorImage : Option CursorImage := none
  robloxCursorReported : Bool := false
  desktopShowsRobloxCursor : Bool := false
  robloxCursorFrame : UInt64 := 0
deriving DecidableEq

def kRobloxCursorLifetimeFrames : UInt64 := 8

def kNativeUnlockFrames : UInt64 := 3

def kNativeUnlockMs : UInt64 := 250

variable (setup : Setup)

/-- What an operation leaves: the owner, the backend calls in order, and what it returns. -/
structure Effect where
  owner : Owner
  calls : List BackendCall := []
  result : Bool := true

/-- `Apply`. A refused request is followed by one for the plain desktop pointer. -/
def apply (s : Owner) (answers : Answers) (capture : Bool) (cursor : CursorShape)
    (image : Option CursorImage := none) (centerPointer : Bool := false)
    (restorePointer : Bool := true) : Effect :=
  let centerPointer := centerPointer && capture
  if capture = s.captured ∧ cursor = s.cursor ∧ image = s.cursorImage ∧
      centerPointer = s.pointerCentered then ⟨s, [], true⟩
  else if !setup.hasBackend then
    ⟨{ s with captured := false, cursor := .kArrow, cursorImage := none }, [],
      !capture && cursor == .kArrow⟩
  else if answers.accepted then
    let captureChanged := capture != s.captured
    ⟨{ s with
        captured := capture
        captureReleaseMotionPending :=
          if captureChanged then !capture else s.captureReleaseMotionPending
        captureReleaseMs := if captureChanged then answers.appliedMs else s.captureReleaseMs
        cursor
        cursorImage := image
        pointerRecenterPending :=
          (centerPointer && !s.pointerCentered) || s.pointerRecenterPending
        pointerCentered := centerPointer },
      [.apply capture cursor image centerPointer restorePointer], true⟩
  else
    ⟨{ s with
        captureReleaseMotionPending := s.captured || s.captureReleaseMotionPending
        captureReleaseMs := if s.captured then answers.appliedMs else s.captureReleaseMs
        captured := false
        cursor := .kArrow
        cursorImage := none
        pointerCentered := false },
      [.apply capture cursor image centerPointer restorePointer,
        .apply false .kArrow none false restorePointer], false⟩

def presentedFrames (frames : UInt64) : UInt64 := if setup.hasFrameCounter then frames else 0

def currentRobloxCursor (s : Owner) (frames : UInt64) : CursorShape × Option CursorImage :=
  if !s.robloxCursorReported ||
      presentedFrames setup frames - s.robloxCursorFrame > kRobloxCursorLifetimeFrames then
    (.kHidden, none)
  else (s.robloxCursor, s.robloxCursorImage)

/-- The answer of the query, if there is one and it succeeds. -/
def queryLock (s : Owner) (answers : Answers) : Option MouseLock :=
  if s.hasQuery then answers.lock else none

def nativeLockActive (lock : Option MouseLock) : Bool := lock.any (·.center)

/-- The part of `Pump` that follows the native lock, and keeps a centred capture for a short while
after it was released. -/
def followNativeLock (s : Owner) (lock : Option MouseLock) (answers : Answers) : Bool × Owner :=
  let active := nativeLockActive lock
  let s := { s with
    nativeLockObserved := active
    waitForNativeUnlockAfterRightDrag := s.waitForNativeUnlockAfterRightDrag && active }
  if !active && lock.isSome && s.pointerCentered && setup.hasFrameCounter then
    let s := if s.nativeUnlockPending then s
      else { s with
        nativeUnlockPending := true
        nativeUnlockFrame := answers.frames
        nativeUnlockMs := answers.nowMs }
    let kept := answers.frames - s.nativeUnlockFrame < kNativeUnlockFrames &&
      answers.nowMs - s.nativeUnlockMs < kNativeUnlockMs
    (kept, { s with nativeUnlockPending := s.nativeUnlockPending && kept })
  else (active, { s with nativeUnlockPending := false })

def robloxPans : Option MouseLock → Bool
  | none => true
  | some lock => !lock.reportsCurrentPosition || lock.currentPosition

def reportsPan (lock : Option MouseLock) : Bool := lock.any (·.currentPosition)

def rightDragActive (s : Owner) (lock : Option MouseLock) : Bool :=
  s.rightButtonHeld && s.gameSessionActive && (robloxPans lock || s.rightDragPanning)

/-- The end of `Pump`: which cursor goes with the capture, and the request for both. -/
def showCursor (s : Owner) (answers : Answers)
    (clientActive nativeCapture captureRequested : Bool) :
    Effect :=
  let uncaptured := if clientActive then currentRobloxCursor setup s answers.cursorFrames
    else (.kArrow, none)
  if !captureRequested then
    apply setup { s with desktopShowsRobloxCursor := clientActive } answers false uncaptured.1
      uncaptured.2
  else
    let s := if s.captured then s
      else { s with captureCursor := uncaptured.1, captureCursorImage := uncaptured.2 }
    if setup.hasBackend && answers.showsCursorWhileCaptured then
      let shown := if nativeCapture then uncaptured else (s.captureCursor, s.captureCursorImage)
      apply setup { s with desktopShowsRobloxCursor := clientActive } answers true shown.1 shown.2
        nativeCapture
    else
      apply setup { s with desktopShowsRobloxCursor := false } answers true .kHidden none
        nativeCapture

def pump (s : Owner) (textInputActive : Bool) (answers : Answers) : Effect :=
  if !s.focused then
    apply setup { s with desktopShowsRobloxCursor := false } answers false .kArrow none false false
  else
    let lock := queryLock s answers
    let (nativeCapture, s) := followNativeLock setup s lock answers
    let dragActive := rightDragActive s lock
    let s := { s with
      rightDragPanning := dragActive && !textInputActive &&
        (s.rightDragPanning || reportsPan lock) }
    showCursor setup s answers lock.isSome nativeCapture
      (nativeCapture || (dragActive && !textInputActive))

def onRightButton (s : Owner) (pressed textInputActive : Bool) (position : Option PointerPosition)
    (answers : Answers) : Effect :=
  let anchor := pressed && setup.hasBackend && !s.rightButtonHeld && !s.captured
  let s := { s with focused := pressed || s.focused, rightButtonHeld := pressed }
  let effect := pump setup s textInputActive answers
  if anchor then
    { effect with
      calls := .setPressAnchor position :: (effect.calls ++ [.setPressAnchor none]) }
  else effect

/-- What a loss of focus and a shutdown reset. -/
def resetFocus (s : Owner) : Owner :=
  { s with
    focused := false
    desktopShowsRobloxCursor := false
    rightButtonHeld := false
    nativeLockObserved := false
    waitForNativeUnlockAfterRightDrag := false }

def publishRobloxCursor (s : Owner) (shape : CursorShape) (image : Option CursorImage)
    (frames : UInt64) : Owner :=
  let shape := if shape = .kCustom ∧ image = none then .kHidden else shape
  { s with
    robloxCursor := shape
    robloxCursorImage := if shape = .kCustom then image else none
    robloxCursorReported := true
    robloxCursorFrame := presentedFrames setup frames }

inductive Operation
  | pump (textInputActive : Bool)
  | onRightButton (pressed textInputActive : Bool) (position : Option PointerPosition)
  | onFocusGained (textInputActive : Bool)
  | onFocusLost
  | onShiftKeyPressed (textInputActive : Bool)
  | setGameSessionActive (active : Bool)
  | registerQuery (callbackGiven contextGiven : Bool)
  | clearQuery
  | shutdown
  | publishRobloxCursor (shape : CursorShape) (image : Option CursorImage)
deriving DecidableEq

def run (s : Owner) (answers : Answers) : Operation → Effect
  | .pump text => pump setup s text answers
  | .onRightButton pressed text position => onRightButton setup s pressed text position answers
  | .onFocusGained text => pump setup { s with focused := true } text answers
  | .onFocusLost => apply setup (resetFocus s) answers false .kArrow none false false
  | .onShiftKeyPressed text => pump setup { s with focused := true } text answers
  | .setGameSessionActive active => ⟨{ s with gameSessionActive := active }, [], true⟩
  | .registerQuery callback context =>
    if callback && context && !s.hasQuery then ⟨{ s with hasQuery := true }, [], true⟩
    else ⟨s, [], false⟩
  | .clearQuery => ⟨{ s with hasQuery := false }, [], true⟩
  | .shutdown => apply setup (resetFocus { s with hasQuery := false }) answers false .kArrow
  | .publishRobloxCursor shape image =>
    ⟨publishRobloxCursor setup s shape image answers.frames, [], true⟩

end Nightcap.Window
