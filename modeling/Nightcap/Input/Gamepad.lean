import Nightcap.Input.State

/-! Gamepads: announcing them to the native side, their buttons and their axes. -/
namespace Nightcap.Input

def kAndroidAxes : List Int32 := [0, 1, 11, 14, 17, 18]

/-- SDL's gamepad buttons, in the order in which they are announced and released. -/
def kButtons : List UInt8 := [0, 1, 2, 3, 11, 12, 13, 14, 10, 9, 7, 8, 4, 6]

def has (mask : UInt32) (index : UInt8) : Bool :=
  index < 32 && mask &&& ((1 : UInt32) <<< index.toUInt32) != 0

def signedAxis (value : Int16) : Float32 := value.toFloat32 / (if value < 0 then 32768 else 32767)

def stick (rawX rawY : Int16) : Float32 × Float32 :=
  let deadzone : Float32 := 0.20
  let x := signedAxis rawX
  let y := -signedAxis rawY
  let length := (x * x + y * y).sqrt
  if length ≤ deadzone then (0, 0)
  else
    let scale := ((if 1 < length then 1 else length) - deadzone) / ((1 - deadzone) * length)
    (x * scale, y * scale)

def trigger (raw : Int16) : Float32 :=
  let deadzone : Float32 := 0.02
  let value := raw.toFloat32 / 32767
  let value := if 0 < value then value else 0
  if value ≤ deadzone then 0 else (value - deadzone) / (1 - deadzone)

section

variable (sink : Sink)

def configureGamepadLocked (gamepad : ActiveGamepad) (available : Bool) : RouterM Status := do
  let type := if available then robloxGamepadType gamepad.descriptor.family else 0
  let first ← kButtons.foldlM (fun first button => do
    let status ← call sink (.gamepadSupportedKey gamepad.deviceId
      (mapSdlGamepadButtonToAndroid button)
      (available && has gamepad.descriptor.buttons button) type)
    pure (keepFirstError first status)) {}
  let first ← (List.range 6).foldlM (fun first axis => do
    let status ← call sink (.gamepadSupportedMotion gamepad.deviceId (kAndroidAxes.getD axis 0) (-1)
      (available && has gamepad.descriptor.axes axis.toUInt8) type)
    pure (keepFirstError first status)) first
  [(22 : Int32), 23, 15, 16].foldlM (fun first axis => do
    let status ← call sink (.gamepadSupportedMotion gamepad.deviceId axis (-1) false type)
    let first := keepFirstError first status
    if axis = 15 ∨ axis = 16 then
      let status ← call sink (.gamepadSupportedMotion gamepad.deviceId axis 1 false type)
      pure (keepFirstError first status)
    else pure first) first

def connectGamepadLocked (gamepad : ActiveGamepad) : RouterM (Status × ActiveGamepad) := do
  if gamepad.connected then pure ({}, gamepad)
  else
    let status ← configureGamepadLocked sink gamepad true
    let status ← ifOk status
      (call sink (.gamepadConnect gamepad.deviceId (robloxGamepadType gamepad.descriptor.family)))
    if !status.isOk then
      let _ ← configureGamepadLocked sink gamepad false
      let _ ← call sink (.gamepadDisconnect gamepad.deviceId)
      pure (status, gamepad)
    else
      modifySnapshot fun s => { s with connectedGamepads := s.connectedGamepads + 1 }
      pure ({}, { gamepad with connected := true })

/-- The axes of a stick or a trigger, up to the first that fails. -/
def sendAxes (gamepad : ActiveGamepad) (x y z : Float32) : List Nat → Bool → RouterM (Status × Bool)
  | [], dispatched => pure ({}, dispatched)
  | index :: rest, dispatched => do
    if !has gamepad.descriptor.axes index.toUInt8 then sendAxes gamepad x y z rest dispatched
    else
      let status ← call sink (.gamepadAxis gamepad.deviceId (kAndroidAxes.getD index 0) x y z)
      if !status.isOk then pure (status, dispatched) else sendAxes gamepad x y z rest true

def dispatchGamepadAxesLocked (gamepad : ActiveGamepad) (axis : Nat) :
    RouterM (Status × Bool × ActiveGamepad) := do
  let first := if axis < 4 then axis - axis % 2 else axis
  let count := if axis < 4 then 2 else 1
  let value :=
    if axis < 4 then stick (gamepad.rawAxes.getD first 0) (gamepad.rawAxes.getD (first + 1) 0)
    else (trigger (gamepad.rawAxes.getD axis 0), 0)
  if gamepad.sentAxes.getD first 0 == value.1 &&
      (count == 1 || gamepad.sentAxes.getD (first + 1) 0 == value.2) then
    pure ({}, false, gamepad)
  else
    let (status, gamepad) ← connectGamepadLocked sink gamepad
    if !status.isOk then pure (status, false, gamepad)
    else
      let (status, dispatched) ← sendAxes sink gamepad (if count = 2 then value.1 else 0)
        (if count = 2 then value.2 else 0) (if count = 1 then value.1 else 0)
        (List.range' first count) false
      if !status.isOk then pure (status, dispatched, gamepad)
      else
        let sent := gamepad.sentAxes.setIfInBounds first value.1
        let sent := if count = 2 then sent.setIfInBounds (first + 1) value.2 else sent
        pure ({}, dispatched, { gamepad with sentAxes := sent })

/-- The pressed buttons are released, then the axes centred. -/
def releaseConnected (gamepad : ActiveGamepad) : RouterM (Status × ActiveGamepad) := do
  let first ← kButtons.foldlM (fun first button => do
    if has gamepad.pressedButtons button then
      let status ← call sink
          (.gamepadButton gamepad.deviceId (mapSdlGamepadButtonToAndroid button) false)
      countIf status.isOk .kGamepadButton
      pure (keepFirstError first status)
    else pure first) {}
  [0, 2, 4, 5].foldlM (fun (first, gamepad) axis => do
    let (status, dispatched, gamepad) ← dispatchGamepadAxesLocked sink gamepad axis
    countIf (status.isOk && dispatched) .kGamepadAxis
    pure (keepFirstError first status, gamepad)) (first, { gamepad with rawAxes := .replicate 6 0 })

/-- Nothing is pressed any more. -/
def ActiveGamepad.released (gamepad : ActiveGamepad) : ActiveGamepad :=
  { gamepad with pressedButtons := 0, rawAxes := .replicate 6 0, sentAxes := .replicate 6 0 }

def releaseGamepadInputsLocked (gamepad : ActiveGamepad) : RouterM (Status × ActiveGamepad) := do
  if gamepad.connected then
    let (first, gamepad) ← releaseConnected sink gamepad
    pure (first, gamepad.released)
  else pure ({}, gamepad.released)

def disconnectGamepadLocked (gamepad : ActiveGamepad) : RouterM (Status × ActiveGamepad) := do
  let (first, gamepad) ← releaseGamepadInputsLocked sink gamepad
  if gamepad.connected then
    let status ← configureGamepadLocked sink gamepad false
    let first := keepFirstError first status
    let status ← call sink (.gamepadDisconnect gamepad.deviceId)
    modifySnapshot fun s => { s with connectedGamepads := s.connectedGamepads - 1 }
    pure (keepFirstError first status, { gamepad with connected := false })
  else pure (first, gamepad)

def disconnectGamepadsLocked : RouterM Status := do
  let first ← (← get).gamepads.foldlM (fun first gamepad => do
    let (status, _) ← disconnectGamepadLocked sink gamepad
    pure (keepFirstError first status)) {}
  modify fun r => { r with gamepads := [] }
  modifySnapshot fun s => { s with detectedGamepads := 0 }
  pure first

/-! Events. -/

/-- The first free device id from `id` on. The ids end before the fuel does. -/
def freeDeviceId (gamepads : List ActiveGamepad) : Nat → Int32 → Option Int32
  | 0, _ => none
  | fuel + 1, id =>
    if gamepads.any (·.deviceId == id) then
      if id = Int32.maxValue then none else freeDeviceId gamepads fuel (id + 1)
    else some id

/-- The end of `HandleGamepadConnectionLocked`, once an earlier entry is gone. -/
def addGamepad (event : GamepadConnectionEvent) (status : Status) : RouterM DispatchResult := do
  let done : RouterM DispatchResult :=
    if status.isOk then pure ⟨.kStateUpdated, .kGamepadConnection, {}⟩
    else nativeResultLocked status .kGamepadConnection
  if event.connected then
    match freeDeviceId (← get).gamepads (2 ^ 31) 1 with
    | none =>
      pure ⟨.kRejectedInvalid, .kGamepadConnection,
        ⟨.unavailable, "Roblox gamepad device IDs exhausted"⟩⟩
    | some deviceId =>
      modify fun r => { r with
        gamepads := r.gamepads ++
          [{ instanceId := event.instanceId, deviceId, descriptor := event.descriptor }] }
      modify fun r =>
        { r with snapshot := { r.snapshot with detectedGamepads := r.gamepads.length } }
      done
  else done

def findGamepadLocked (r : Router) (instanceId : Int64) : Option (Nat × ActiveGamepad) :=
  let index := r.gamepads.findIdx (·.instanceId == instanceId)
  r.gamepads[index]?.map fun gamepad => (index, gamepad)

def setGamepad (index : Nat) (gamepad : ActiveGamepad) : RouterM Unit :=
  modify fun r => { r with gamepads := r.gamepads.set index gamepad }

def handleGamepadConnectionLocked (event : GamepadConnectionEvent) : RouterM DispatchResult := do
  if !sink.gamepad then
    pure (ignored .kGamepadConnection "Roblox gamepad export table is incomplete")
  else if event.instanceId ≤ 0 then pure (rejected .kGamepadConnection "invalid gamepad ID")
  else
    match findGamepadLocked (← get) event.instanceId with
    | some (index, gamepad) =>
      if event.connected && !event.remapped then pure ⟨.kStateUpdated, .kGamepadConnection, {}⟩
      else
        let (status, _) ← disconnectGamepadLocked sink gamepad
        modify fun r => { r with gamepads := r.gamepads.eraseIdx index }
        modify fun r =>
          { r with snapshot := { r.snapshot with detectedGamepads := r.gamepads.length } }
        addGamepad event status
    | none => addGamepad event {}

def handleGamepadButtonLocked (event : GamepadButtonEvent) : RouterM DispatchResult := do
  let r ← get
  match findGamepadLocked r event.instanceId with
  | none => pure (ignored .kGamepadButton "gamepad is not available")
  | some (index, gamepad) =>
    let key := mapSdlGamepadButtonToAndroid event.button
    if !sink.gamepad then pure (ignored .kGamepadButton "gamepad is not available")
    else if !r.snapshot.focused then pure ⟨.kIgnoredUnfocused, .kGamepadButton, {}⟩
    else if key < 0 || !has gamepad.descriptor.buttons event.button then
      pure (ignored .kGamepadButton "gamepad button is not supported")
    else if has gamepad.pressedButtons event.button == event.pressed then
      pure ⟨.kStateUpdated, .kGamepadButton, {}⟩
    else
      let (status, gamepad) ← connectGamepadLocked sink gamepad
      let status ← ifOk status (call sink (.gamepadButton gamepad.deviceId key event.pressed))
      let mask := (1 : UInt32) <<< event.button.toUInt32
      setGamepad index (if status.isOk then
          { gamepad with pressedButtons :=
              if event.pressed then gamepad.pressedButtons ||| mask
              else gamepad.pressedButtons &&& ~~~mask }
        else gamepad)
      nativeResultLocked status .kGamepadButton

def handleGamepadAxisLocked (event : GamepadAxisEvent) : RouterM DispatchResult := do
  let r ← get
  match findGamepadLocked r event.instanceId with
  | none => pure (ignored .kGamepadAxis "gamepad is not available")
  | some (index, gamepad) =>
    if !sink.gamepad then pure (ignored .kGamepadAxis "gamepad is not available")
    else if !r.snapshot.focused then pure ⟨.kIgnoredUnfocused, .kGamepadAxis, {}⟩
    else if event.axis ≥ 6 || !has gamepad.descriptor.axes event.axis then
      pure (ignored .kGamepadAxis "gamepad axis is not supported")
    else
      let (status, dispatched, gamepad) ← dispatchGamepadAxesLocked sink
        { gamepad with rawAxes := gamepad.rawAxes.setIfInBounds event.axis.toNat event.value }
        event.axis.toNat
      setGamepad index gamepad
      if status.isOk && !dispatched then pure ⟨.kStateUpdated, .kGamepadAxis, {}⟩
      else nativeResultLocked status .kGamepadAxis

end

end Nightcap.Input
