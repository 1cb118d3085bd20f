import Nightcap.Lib.Transition
import Nightcap.Input.Gamepad

/-! `RobloxInputRouter`: mouse, touch and keys, focus, and the text editor in front of the keys. -/
namespace Nightcap.Input

open Text Transition

/-! Mouse. -/

/-- The pointer at a position of the host. -/
def movePointer (x y : Float32) : RouterM Unit :=
  modify fun r =>
    let v := r.snapshot.viewport
    { r with
      mouseX := clamp (v.hostLogicalToGuestX x) 0 v.maxX
      mouseY := clamp (v.hostLogicalToGuestY y) 0 v.maxY
      pointerAnchored := true }

def holdPointerLocked : RouterM Unit :=
  modify fun r =>
    let v := r.snapshot.viewport
    if !r.pointerAnchored then
      { r with mouseX := v.maxX / 2, mouseY := v.maxY / 2, pointerAnchored := true }
    else { r with mouseX := clamp r.mouseX 0 v.maxX, mouseY := clamp r.mouseY 0 v.maxY }

/-- The pointer where an event puts it, or where it was while it is captured. -/
def placePointer (moves : Bool) (x y : Float32) : RouterM Unit :=
  if moves then movePointer x y else holdPointerLocked

section

variable (sink : Sink)

def handleMouseMotionLocked (event : MouseMotionEvent) : RouterM DispatchResult := do
  if !sink.mouseMove then pure (ignored .kMouseMotion "native mouse motion is unavailable")
  else
    let v := (← get).snapshot.viewport
    let deltaX := v.hostLogicalToGuestX event.deltaX
    let deltaY := v.hostLogicalToGuestY event.deltaY
    let captured :=
      event.relative || (event.x == 0 && event.y == 0 && (deltaX != 0 || deltaY != 0))
    placePointer (!captured) event.x event.y
    let r ← get
    let status ← call sink (.mouseMove r.mouseX r.mouseY
      (if r.rawMouse then event.deltaX else deltaX) (if r.rawMouse then event.deltaY else deltaY))
    nativeResultLocked status .kMouseMotion

/-- The mouse buttons that are down after a button event. -/
def pressedButtons (pressed : Bool) (button : Int32) (active : List Int32) : List Int32 :=
  if pressed then if button ∈ active then active else active ++ [button] else active.erase button

def handleMouseButtonLocked (event : MouseButtonEvent) : RouterM DispatchResult := do
  let button := mapSdlMouseButtonToRoblox event.button
  if !sink.mouseButton then pure (ignored .kMouseButton "native mouse buttons are unavailable")
  else if button < 0 then pure (ignored .kMouseButton "SDL mouse button has no Roblox mapping")
  else
    placePointer (!event.relative && (0 < event.x || 0 < event.y)) event.x event.y
    let r ← get
    let status ← call sink (.mouseButton r.mouseX r.mouseY event.pressed button)
    modifyIf status.isOk fun r =>
      let active := pressedButtons event.pressed button r.activeMouseButtons
      { r with
        activeMouseButtons := active
        snapshot := { r.snapshot with activeMouseButtons := active.length } }
    nativeResultLocked status .kMouseButton

def handleMouseWheelLocked (event : MouseWheelEvent) : RouterM DispatchResult := do
  if !sink.mouseWheel || event.deltaY == 0 then
    pure (ignored .kMouseWheel "vertical native mouse wheel is unavailable")
  else
    placePointer (!event.relative && (0 < event.mouseX || 0 < event.mouseY))
      event.mouseX event.mouseY
    let r ← get
    let status ← call sink (.mouseWheel r.mouseX r.mouseY event.deltaY)
    nativeResultLocked status .kMouseWheel

/-! Touch. -/

def kAndroidTouchDown : Int32 := 0
def kAndroidTouchMove : Int32 := 1
def kAndroidTouchUp : Int32 := 2
def kMaximumAndroidPointers : Nat := 32

def allocatePointerIdLocked (r : Router) : Int32 :=
  let free := (List.range kMaximumAndroidPointers).find? fun candidate =>
    !r.activeTouches.any (·.pointerId == Int32.ofNat candidate)
  (free.map Int32.ofNat).getD (-1)

def findTouchIteratorLocked (r : Router) (touchId fingerId : Int64) : Option Nat :=
  r.activeTouches.findIdx? fun touch => touch.touchId == touchId && touch.fingerId == fingerId

/-- The native call of a touch event, and its pointer afterwards. -/
def dispatchTouch (event : TouchEvent) (active : Option Nat) (pointerId action : Int32) :
    RouterM DispatchResult := do
  let v := (← get).snapshot.viewport
  let x := clamp event.x 0 1 * v.roundedGuestWidth.toFloat32
  let y := clamp event.y 0 1 * v.roundedGuestHeight.toFloat32
  let status ← call sink (.touch pointerId x y action v.roundedGuestWidth v.roundedGuestHeight)
  modify fun r =>
    if event.action = .kDown ∧ status.isOk = true then
      { r with activeTouches :=
        r.activeTouches ++ [⟨event.touchId, event.fingerId, pointerId, x, y⟩] }
    else
      match active with
      | none => r
      | some index =>
        if event.action = .kMove then
          if status.isOk then
            { r with activeTouches := r.activeTouches.modify index fun t => { t with x, y } }
          else r
        else { r with activeTouches := r.activeTouches.eraseIdx index }
  modify fun r => { r with snapshot := { r.snapshot with activeTouches := r.activeTouches.length } }
  nativeResultLocked status .kTouch

def handleTouchLocked (event : TouchEvent) : RouterM DispatchResult := do
  if !sink.touch then pure (ignored .kTouch "native touch input is unavailable")
  else
    let r ← get
    match event.action, findTouchIteratorLocked r event.touchId event.fingerId with
    | .kDown, some _ => pure (rejected .kTouch "duplicate touch down was rejected")
    | .kDown, none =>
      let pointerId := allocatePointerIdLocked r
      if pointerId < 0 then pure (rejected .kTouch "Android pointer limit was reached")
      else dispatchTouch sink event none pointerId kAndroidTouchDown
    | _, none => pure (rejected .kTouch "touch event has no active pointer")
    | action, some index =>
      let pointerId := (r.activeTouches[index]?.map (·.pointerId)).getD (-1)
      dispatchTouch sink event (some index) pointerId
        (if action = .kMove then kAndroidTouchMove else kAndroidTouchUp)

/-! Keys. -/

/-- The keys that are down after a key event. -/
def pressedKeys (pressed : Bool) (scancode : UInt32) (android : AndroidKeyMapping)
    (active : List ActiveKey) : List ActiveKey :=
  let found := active.any (·.sdlScancode == scancode)
  if pressed && !found then active ++ [⟨scancode, android⟩]
  else if !pressed && found then active.eraseP (·.sdlScancode == scancode)
  else active

def handleKeyLocked (event : KeyEvent) : RouterM DispatchResult := do
  let android := mapSdlKeyToAndroid event.scancode event.keycode
  if !sink.key then pure (ignored .kKeyboard "native hardware keyboard is unavailable")
  else if !android.valid then pure (ignored .kKeyboard "SDL key has no Android mapping")
  else
    let status ← call sink (.key event.scancode event.pressed android event.repeated)
    modifyIf status.isOk fun r =>
      let active := pressedKeys event.pressed event.scancode android r.activeKeys
      { r with
        activeKeys := active
        snapshot := { r.snapshot with activeKeys := active.length } }
    nativeResultLocked status .kKeyboard

/-! Releasing everything. -/

/-- One release of a loop of `ReleasePressedInputsLocked`. -/
def releaseOne (present : Bool) (n : Native) (kind : EventKind) (first : Status) :
    RouterM Status := do
  if !present then pure first
  else
    let status ← call sink n
    countIf status.isOk kind
    pure (if status.isOk then first else keepFirstError first status)

def releaseGamepads (first : Status) : List ActiveGamepad → RouterM (Status × List ActiveGamepad)
  | [] => pure (first, [])
  | gamepad :: rest => do
    let (status, gamepad) ← releaseGamepadInputsLocked sink gamepad
    let (first, rest) ← releaseGamepads (keepFirstError first status) rest
    pure (first, gamepad :: rest)

def releaseKeys (keys : List ActiveKey) (first : Status) : RouterM Status :=
  keys.foldlM (fun first key =>
    releaseOne sink sink.key (.key key.sdlScancode false key.android false) .kKeyboard first)
    first

/-! The four loops of `ReleasePressedInputsLocked`. -/

def releaseAllGamepads : RouterM Status := do
  let (first, gamepads) ← releaseGamepads sink {} (← get).gamepads
  modify fun r => { r with gamepads }
  pure first

def releaseMouseButtons (first : Status) : RouterM Status := do
  let r ← get
  let first ← r.activeMouseButtons.foldlM (fun first button =>
    releaseOne sink sink.mouseButton (.mouseButton r.mouseX r.mouseY false button)
      .kMouseButton first) first
  modify fun r => { r with activeMouseButtons := [] }
  pure first

def releaseTouches (first : Status) : RouterM Status := do
  let r ← get
  let v := r.snapshot.viewport
  let first ← r.activeTouches.foldlM (fun first touch =>
    releaseOne sink sink.touch (.touch touch.pointerId touch.x touch.y kAndroidTouchUp
      v.roundedGuestWidth v.roundedGuestHeight) .kTouch first) first
  modify fun r => { r with activeTouches := [] }
  pure first

def releasePressedInputsLocked : RouterM Status := do
  let first ← releaseAllGamepads sink
  let first ← releaseMouseButtons sink first
  let first ← releaseTouches sink first
  let first ← releaseKeys sink (← get).activeKeys first
  modify fun r => { r with
    activeKeys := []
    snapshot := { r.snapshot with activeMouseButtons := 0, activeTouches := 0, activeKeys := 0 } }
  pure first

/-! The public operations; `replies` is what the text sink and the clipboard answer. -/

def activate (viewport : Viewport) (initiallyFocused : Bool) : RouterM Status := do
  if (← get).snapshot.active then pure (failedPrecondition "Roblox input router is already active")
  else if !viewport.valid then pure (invalidArgument "input viewport dimensions must be positive")
  else
    modify fun r =>
      { textEditor := r.textEditor
        rawMouse := r.rawMouse
        native := r.native
        snapshot := { active := true, focused := initiallyFocused, viewport } }
    pure {}

/-- A step of the text editor. -/
def withEditor {α : Type} (f : Editor → Editor × α) : RouterM α := do
  let (editor, result) := f (← get).textEditor
  modify fun r => { r with textEditor := editor }
  pure result

/-- The session of the text editor ends, if there is one. -/
def endText (replies : Replies) (status : Status) : RouterM Status := do
  let text := (← get).textEditor.snapshot
  if text.focused then
    let textStatus ← withEditor
      (endFocusSession sink.text replies · text.textboxHandle text.generation true)
    pure (keepFirstError status textStatus)
  else pure status

def deactivate (replies : Replies) : RouterM Status := do
  if !(← get).snapshot.active then pure {}
  else
    let status ← releasePressedInputsLocked sink
    let gamepadStatus ← disconnectGamepadsLocked sink
    let status ← endText sink replies (keepFirstError status gamepadStatus)
    modifySnapshot fun s => { s with
      active := false, focused := false
      activeMouseButtons := 0, activeTouches := 0, activeKeys := 0 }
    pure status

def beginTextFocusSession (session : FocusSession) : RouterM Status := do
  if !(← get).snapshot.active then pure (failedPrecondition "Roblox input router is inactive")
  else withEditor (beginFocusSession sink.text · session)

def setRawMouseEnabled (enabled : Bool) : RouterM Unit :=
  modify fun r => { r with rawMouse := enabled }

/-- What an event that reached the text editor comes to. -/
def textResult (result : EditResult) : RouterM DispatchResult := do
  if !result.status.isOk then
    modifySnapshot fun s => { s with nativeErrors := s.nativeErrors + 1 }
    pure ⟨.kNativeError, .kText, result.status⟩
  else
    modifyIf result.dispatched fun r =>
      { r with snapshot := { r.snapshot with textEvents := r.snapshot.textEvents + 1 } }
    pure ⟨if result.dispatched then .kDispatched else .kStateUpdated, .kText, {}⟩

def handleWindowFocus (replies : Replies) (focused : Bool) : RouterM DispatchResult := do
  if !focused && (← get).snapshot.focused then
    let status ← releasePressedInputsLocked sink
    let status ← endText sink replies status
    modifySnapshot fun s => { s with focused := false }
    if !status.isOk then
      modifySnapshot fun s => { s with nativeErrors := s.nativeErrors + 1 }
      pure ⟨.kNativeError, .kFocus, status⟩
    else pure ⟨.kStateUpdated, .kFocus, {}⟩
  else
    modifySnapshot fun s => { s with focused }
    pure ⟨.kStateUpdated, .kFocus, {}⟩

/-- Input other than motion gives an unfocused router the focus. -/
def takeFocus : RouterM Unit := modifySnapshot fun s => { s with focused := true }

def handleKeyEvent (replies : Replies) (event : KeyEvent) : RouterM DispatchResult := do
  let result ← withEditor (handleKey sink.text replies · event)
  if result.handled then textResult result else handleKeyLocked sink event

def handleText (step : Editor → Editor × EditResult) : RouterM DispatchResult := do
  let result ← withEditor step
  if !result.handled then
    modifySnapshot fun s => { s with ignoredTextEvents := s.ignoredTextEvents + 1 }
    pure (ignored .kText "text input has no focused Roblox TextBox")
  else textResult result

/-- An event while the router is active. -/
def handleActiveEvent (replies : Replies) (event : PlatformEvent) : RouterM DispatchResult := do
  match event with
  | .windowResized viewport =>
    if !viewport.valid then pure (rejected .kViewport "resized input viewport is invalid")
    else
      modifySnapshot fun s => { s with viewport }
      pure ⟨.kStateUpdated, .kViewport, {}⟩
  | .windowFocus focused => handleWindowFocus sink replies focused
  | .gamepadConnection event => handleGamepadConnectionLocked sink event
  | .gamepadButton event => handleGamepadButtonLocked sink event
  | .gamepadAxis event => handleGamepadAxisLocked sink event
  | .quit => pure (ignored .kNone "platform event has no Roblox input route")
  | .mouseMotion event =>
    if !(← get).snapshot.focused then pure ⟨.kIgnoredUnfocused, .kMouseMotion, {}⟩
    else handleMouseMotionLocked sink event
  | .mouseButton event => do takeFocus; handleMouseButtonLocked sink event
  | .mouseWheel event => do takeFocus; handleMouseWheelLocked sink event
  | .touch event => do takeFocus; handleTouchLocked sink event
  | .key event => do takeFocus; handleKeyEvent sink replies event
  | .textInput text => do takeFocus; handleText (handleTextInput sink.text replies · text)
  | .textEditing event => do takeFocus; handleText (handleTextEditing sink.text replies · event)

def handleEvent (replies : Replies) (event : PlatformEvent) : RouterM DispatchResult := do
  if !(← get).snapshot.active then pure ⟨.kIgnoredInactive, .kNone, {}⟩
  else handleActiveEvent sink replies event

end

/-! Runs. -/

inductive Call
  | activate (viewport : Viewport) (initiallyFocused : Bool)
  | deactivate
  | beginTextFocusSession (session : FocusSession)
  | endTextFocusSession (textboxHandle : Int64) (generation : UInt64) (notifyNative : Bool)
  | replaceFocusedTextFromEngine (generation : UInt64) (text : Utf8.Bytes)
  | updateTextFocusProperties (generation : UInt64) (properties : FocusProperties)
  | handleEvent (event : PlatformEvent)
  | setRawMouseEnabled (enabled : Bool)

/-- The router after one call; the replies are those of the text sink and the clipboard. -/
def perform (sink : Sink) (r : Router) (call : Call × Replies) : Router :=
  match call.1 with
  | .activate viewport focused => ((activate viewport focused).run r).2
  | .deactivate => ((deactivate sink call.2).run r).2
  | .beginTextFocusSession session => ((beginTextFocusSession sink session).run r).2
  | .endTextFocusSession handle generation notify =>
    ((withEditor (endFocusSession sink.text call.2 · handle generation notify)).run r).2
  | .replaceFocusedTextFromEngine generation text =>
    ((withEditor (replaceFocusedTextFromEngine sink.text · generation text)).run r).2
  | .updateTextFocusProperties generation properties =>
    ((withEditor (updateFocusProperties sink.text · generation properties)).run r).2
  | .handleEvent event => ((handleEvent sink call.2 event).run r).2
  | .setRawMouseEnabled enabled => ((setRawMouseEnabled enabled).run r).2

/-- The router from its construction on. -/
def routerLTS (sink : Sink) : LTS Router (Call × Replies) :=
  LTS.ofFun {} fun r call => some (perform sink r call)

theorem perform_event (sink : Sink) (replies : Replies) (event : PlatformEvent) (r : Router) :
    perform sink r (.handleEvent event, replies) =
      if r.snapshot.active then ((handleActiveEvent sink replies event).run r).2 else r := by
  have hrun : perform sink r (.handleEvent event, replies) =
      ((if !r.snapshot.active then pure ⟨.kIgnoredInactive, .kNone, {}⟩
        else handleActiveEvent sink replies event : RouterM DispatchResult).run r).2 := rfl
  rw [hrun]
  cases r.snapshot.active with
  | true => rfl
  | false => rfl

end Nightcap.Input
