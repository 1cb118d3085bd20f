import Nightcap.Input.Keymap
import Nightcap.Text.Editor

/-! Platform events, the native sink and the state of `RobloxInputRouter`. -/
namespace Nightcap.Input

open Text

structure Viewport where
  logicalWidth : Int32 := 0
  logicalHeight : Int32 := 0
  pixelWidth : Int32 := 0
  pixelHeight : Int32 := 0
  densityScale : Float32 := 1

/-! The viewport and its coordinate transform, which has the same fields and the same check. -/

namespace Viewport

variable (v : Viewport)

def valid : Bool :=
  0 < v.logicalWidth && 0 < v.logicalHeight && 0 < v.pixelWidth && 0 < v.pixelHeight &&
    v.densityScale.isFinite && 0 < v.densityScale

def guestWidth : Float32 := if v.valid then v.pixelWidth.toFloat32 / v.densityScale else 0

def guestHeight : Float32 := if v.valid then v.pixelHeight.toFloat32 / v.densityScale else 0

/-- `std::lround`, narrowed to 32 bits. -/
def lround (x : Float32) : Int32 := x.round.toInt64.toInt32

def roundedGuestWidth : Int32 := if v.valid then lround v.guestWidth else 0

def roundedGuestHeight : Int32 := if v.valid then lround v.guestHeight else 0

def hostLogicalToGuestX (coordinate : Float32) : Float32 :=
  if v.valid then
    coordinate * v.pixelWidth.toFloat32 / v.logicalWidth.toFloat32 / v.densityScale
  else coordinate

def hostLogicalToGuestY (coordinate : Float32) : Float32 :=
  if v.valid then
    coordinate * v.pixelHeight.toFloat32 / v.logicalHeight.toFloat32 / v.densityScale
  else coordinate

/-- `std::max(0, ·)` of the last column or row. -/
def last (size : Float32) : Float32 := if 0 < size - 1 then size - 1 else 0

def maxX : Float32 := last v.guestWidth

def maxY : Float32 := last v.guestHeight

end Viewport

/-- `std::clamp`. -/
def clamp (x low high : Float32) : Float32 := if x < low then low else if high < x then high else x

/-! Events. -/

structure MouseMotionEvent where
  x : Float32 := 0
  y : Float32 := 0
  deltaX : Float32 := 0
  deltaY : Float32 := 0
  relative : Bool := false

structure MouseButtonEvent where
  pressed : Bool := false
  button : UInt8 := 0
  x : Float32 := 0
  y : Float32 := 0
  relative : Bool := false

structure MouseWheelEvent where
  deltaY : Float32 := 0
  mouseX : Float32 := 0
  mouseY : Float32 := 0
  relative : Bool := false

inductive TouchAction
  | kDown
  | kMove
  | kUp
  | kCancelled
deriving DecidableEq

structure TouchEvent where
  action : TouchAction := .kMove
  touchId : Int64 := 0
  fingerId : Int64 := 0
  x : Float32 := 0
  y : Float32 := 0

structure GamepadDescriptor where
  family : GamepadFamily := .kUnknown
  buttons : UInt32 := 0
  axes : UInt32 := 0

structure GamepadConnectionEvent where
  instanceId : Int64 := 0
  connected : Bool := false
  descriptor : GamepadDescriptor := {}
  remapped : Bool := false

structure GamepadAxisEvent where
  instanceId : Int64 := 0
  axis : UInt8 := 0
  value : Int16 := 0

structure GamepadButtonEvent where
  instanceId : Int64 := 0
  button : UInt8 := 0
  pressed : Bool := false

inductive PlatformEvent
  | quit
  | windowResized (viewport : Viewport)
  | windowFocus (focused : Bool)
  | key (event : KeyEvent)
  | textInput (text : Utf8.Bytes)
  | textEditing (event : TextEditingEvent)
  | mouseMotion (event : MouseMotionEvent)
  | mouseButton (event : MouseButtonEvent)
  | mouseWheel (event : MouseWheelEvent)
  | touch (event : TouchEvent)
  | gamepadConnection (event : GamepadConnectionEvent)
  | gamepadAxis (event : GamepadAxisEvent)
  | gamepadButton (event : GamepadButtonEvent)

/-! The native side. -/

/-- A call of the native sink. A key call is recorded with the SDL scancode it is made for, which
the sink does not see. -/
inductive Native
  | mouseMove (x y deltaX deltaY : Float32)
  | mouseButton (x y : Float32) (pressed : Bool) (button : Int32)
  | mouseWheel (x y deltaY : Float32)
  | touch (pointerId : Int32) (x y : Float32) (action width height : Int32)
  | key (scancode : UInt32) (pressed : Bool) (android : AndroidKeyMapping) (repeated : Bool)
  | gamepadSupportedKey (device key : Int32) (supported : Bool) (type : Int32)
  | gamepadSupportedMotion (device axis direction : Int32) (supported : Bool) (type : Int32)
  | gamepadConnect (device type : Int32)
  | gamepadDisconnect (device : Int32)
  | gamepadButton (device key : Int32) (pressed : Bool)
  | gamepadAxis (device axis : Int32) (x y z : Float32)

/-- What a router is built with: which entries of the sink's table are there, what the sink answers
after the calls made so far, and what the text editor is built with. -/
structure Sink where
  mouseMove : Bool := true
  mouseButton : Bool := true
  mouseWheel : Bool := true
  touch : Bool := true
  key : Bool := true
  gamepad : Bool := true
  answer : List Native → Native → Status
  text : Collaborators

structure ActiveTouch where
  touchId : Int64
  fingerId : Int64
  pointerId : Int32
  x : Float32
  y : Float32

structure ActiveKey where
  sdlScancode : UInt32
  android : AndroidKeyMapping

structure ActiveGamepad where
  instanceId : Int64
  deviceId : Int32
  descriptor : GamepadDescriptor
  connected : Bool := false
  pressedButtons : UInt32 := 0
  rawAxes : Vector Int16 6 := .replicate 6 0
  sentAxes : Vector Float32 6 := .replicate 6 0

inductive EventKind
  | kNone
  | kMouseMotion
  | kMouseButton
  | kMouseWheel
  | kTouch
  | kKeyboard
  | kText
  | kFocus
  | kViewport
  | kGamepadConnection
  | kGamepadButton
  | kGamepadAxis
deriving DecidableEq

inductive DispatchState
  | kDispatched
  | kStateUpdated
  | kIgnoredInactive
  | kIgnoredUnfocused
  | kIgnoredUnsupported
  | kRejectedInvalid
  | kNativeError
deriving DecidableEq

structure DispatchResult where
  state : DispatchState
  kind : EventKind
  status : Status := {}

structure InputSnapshot where
  active : Bool := false
  focused : Bool := false
  viewport : Viewport := {}
  mouseEvents : Nat := 0
  touchEvents : Nat := 0
  keyboardEvents : Nat := 0
  ignoredTextEvents : Nat := 0
  textEvents : Nat := 0
  nativeErrors : Nat := 0
  activeMouseButtons : Nat := 0
  activeTouches : Nat := 0
  activeKeys : Nat := 0
  gamepadEvents : Nat := 0
  detectedGamepads : Nat := 0
  connectedGamepads : Nat := 0

structure Router where
  textEditor : Editor := {}
  snapshot : InputSnapshot := {}
  activeMouseButtons : List Int32 := []
  activeTouches : List ActiveTouch := []
  activeKeys : List ActiveKey := []
  gamepads : List ActiveGamepad := []
  mouseX : Float32 := 0
  mouseY : Float32 := 0
  pointerAnchored : Bool := false
  rawMouse : Bool := false
  /-- Every call of the native sink, first call first. -/
  native : List Native := []

abbrev RouterM := StateM Router

def modifySnapshot (f : InputSnapshot → InputSnapshot) : RouterM Unit :=
  modify fun r => { r with snapshot := f r.snapshot }

/-- An update of the state that only happens under a condition. -/
def modifyIf (c : Bool) (f : Router → Router) : RouterM Unit := if c then modify f else pure ()

/-- `if (status.ok()) status = next` -/
def ifOk (status : Status) (next : RouterM Status) : RouterM Status :=
  if status.isOk then next else pure status

/-- Calls the native sink. -/
def call (sink : Sink) (n : Native) : RouterM Status := do
  let r ← get
  modify fun r => { r with native := r.native ++ [n] }
  pure (sink.answer r.native n)

/-- `Result` with a status of its own. -/
def ignored (kind : EventKind) (message : String) : DispatchResult :=
  ⟨.kIgnoredUnsupported, kind, unsupported message⟩

def rejected (kind : EventKind) (message : String) : DispatchResult :=
  ⟨.kRejectedInvalid, kind, invalidArgument message⟩

/-- A dispatched event of a kind is counted. -/
def countEvent (kind : EventKind) (s : InputSnapshot) : InputSnapshot :=
  match kind with
  | .kMouseMotion | .kMouseButton | .kMouseWheel => { s with mouseEvents := s.mouseEvents + 1 }
  | .kTouch => { s with touchEvents := s.touchEvents + 1 }
  | .kKeyboard => { s with keyboardEvents := s.keyboardEvents + 1 }
  | .kGamepadButton | .kGamepadAxis => { s with gamepadEvents := s.gamepadEvents + 1 }
  | _ => s

def nativeResultLocked (status : Status) (kind : EventKind) : RouterM DispatchResult := do
  if !status.isOk then
    modifySnapshot fun s => { s with nativeErrors := s.nativeErrors + 1 }
    pure ⟨.kNativeError, kind, status⟩
  else
    modifySnapshot (countEvent kind)
    pure ⟨.kDispatched, kind, {}⟩

/-- One more event of a kind, if it went well. -/
def countIf (c : Bool) (kind : EventKind) : RouterM Unit :=
  modifyIf c fun r => { r with snapshot := countEvent kind r.snapshot }

def keepFirstError (first status : Status) : Status := if first.isOk then status else first

end Nightcap.Input
