import Nightcap.Text.Composition

/-! `RobloxTextDisplayState`: what the overlay shows of the focused TextBox. -/
namespace Nightcap.Text

open Utf8

def kSizeMax : Nat := 2 ^ 64 - 1

def kPasswordBullet : Bytes := [0xE2, 0x80, 0xA2]

/-- A display update as it arrives: a buffer that may be missing, and signed positions. -/
structure RobloxTextDisplayUpdate where
  event : DisplayEvent := .kHide
  generation : UInt64 := 0
  areaX : Int32 := 0
  areaY : Int32 := 0
  areaWidth : Int32 := 0
  areaHeight : Int32 := 0
  fontSize : Float32 := 0
  multiline : Bool := false
  xAlignment : Int32 := 0
  yAlignment : Int32 := 1
  textColor : Int32 := 0
  font : Int32 := 0
  textInputType : Int32 := 0
  textWrapped : Bool := false
  utf8 : Option Bytes := none
  utf8Size : Nat := 0
  cursorUtf16 : Int32 := 0
  selectionBeginUtf16 : Int32 := 0
  selectionEndUtf16 : Int32 := 0

/-- The bytes the update is about. -/
def RobloxTextDisplayUpdate.text (update : RobloxTextDisplayUpdate) : Bytes :=
  (update.utf8.getD []).take update.utf8Size

structure RobloxTextOverlayViewport where
  width : Int32 := 0
  height : Int32 := 0
  densityScale : Float32 := 1

namespace RobloxTextOverlayViewport

def valid (viewport : RobloxTextOverlayViewport) : Bool :=
  viewport.width > 0 && viewport.height > 0 && viewport.densityScale.isFinite &&
    decide (viewport.densityScale > 0)

/-- `std::lround` of a length over the scale. -/
def scaled (viewport : RobloxTextOverlayViewport) (length : Int32) : Int32 :=
  if viewport.valid then
    (Float32.ofInt length.toInt / viewport.densityScale).round.toInt64.toInt32
  else 0

def coordinateWidth (viewport : RobloxTextOverlayViewport) : Int32 := viewport.scaled viewport.width

def coordinateHeight (viewport : RobloxTextOverlayViewport) : Int32 :=
  viewport.scaled viewport.height

end RobloxTextOverlayViewport

structure RobloxTextOverlayGeometry where
  x : Int32 := 0
  y : Int32 := 0
  width : Int32 := 0
  height : Int32 := 0
  usedFallback : Bool := false
deriving DecidableEq

structure RobloxTextOverlayPresentation where
  visible : Bool := false
  generation : UInt64 := 0
  geometry : RobloxTextOverlayGeometry := {}
  fontSize : Float32 := 0
  multiline : Bool := false
  xAlignment : Int32 := 0
  yAlignment : Int32 := 1
  textColor : Int32 := 0
  font : Int32 := 0
  textInputType : Int32 := 0
  textWrapped : Bool := false
  displayUtf8 : Bytes := []
  caretUtf8Byte : Nat := 0
  selectionBeginUtf8Byte : Nat := 0
  selectionEndUtf8Byte : Nat := 0

def nativeGeometryIntersectsViewport (update : RobloxTextDisplayUpdate)
    (viewport : RobloxTextOverlayViewport) : Bool :=
  if !viewport.valid || update.areaWidth ≤ 0 || update.areaHeight ≤ 0 then false
  else
    let right := update.areaX.toInt + update.areaWidth.toInt
    let bottom := update.areaY.toInt + update.areaHeight.toInt
    right > 0 && bottom > 0 && update.areaX < viewport.coordinateWidth &&
      update.areaY < viewport.coordinateHeight

def resolveRobloxTextOverlayGeometry (update : RobloxTextDisplayUpdate)
    (viewport : RobloxTextOverlayViewport) : RobloxTextOverlayGeometry :=
  if !nativeGeometryIntersectsViewport update viewport then {}
  else ⟨update.areaX, update.areaY, update.areaWidth, update.areaHeight, false⟩

section

variable (u : Utf8proc)

/-- The loop of `Utf8ByteForUtf16Cursor`: the byte, and the code points before it. -/
def cursorLoop (target byte utf16 codepoints : Nat) (rest : Bytes) : Nat × Nat :=
  if rest = [] then (byte, codepoints)
  else
    match u.iterate rest with
    | none => (byte, codepoints)
    | some (codepoint, count) =>
      if count = 0 then (byte, codepoints)
      else if utf16 + unitsOf codepoint > target then (byte, codepoints)
      else
        cursorLoop target (byte + count) (utf16 + unitsOf codepoint)
          (codepoints + 1) (rest.drop count)
termination_by rest.length
decreasing_by
  have hpos : 0 < rest.length := List.length_pos_iff.2 ‹_›
  rw [List.length_drop]
  omega

def utf8ByteForUtf16Cursor (text : Bytes) (requestedUtf16 : Int32) : Nat × Nat :=
  let target := if requestedUtf16 > 0 then requestedUtf16.toInt.toNat else 0
  cursorLoop u target 0 0 0 text

def validateLoop (count : Nat) (rest : Bytes) : Option Nat :=
  if rest = [] then some count
  else
    match u.iterate rest with
    | none => none
    | some (_, length) => if length = 0 then none else validateLoop (count + 1) (rest.drop length)
termination_by rest.length
decreasing_by
  have hpos : 0 < rest.length := List.length_pos_iff.2 ‹_›
  rw [List.length_drop]
  omega

def validateAndCountUtf8 (text : Bytes) : Option Nat := validateLoop u 0 text

variable (update : RobloxTextDisplayUpdate) (viewport : RobloxTextOverlayViewport)

/-- The candidate before its text is set. -/
def candidatePresentation : RobloxTextOverlayPresentation where
  visible := true
  generation := update.generation
  geometry := resolveRobloxTextOverlayGeometry update viewport
  fontSize := update.fontSize
  multiline := update.multiline
  xAlignment := update.xAlignment
  yAlignment := update.yAlignment
  textColor := update.textColor
  font := update.font
  textInputType := update.textInputType
  textWrapped := update.textWrapped

/-- `std::size_t` multiplication by the size of a bullet. -/
def bulletBytes (codepoints : Nat) : Nat := codepoints * kPasswordBullet.length % 2 ^ 64

def buildRobloxTextOverlayPresentation : Except Status RobloxTextOverlayPresentation :=
  if update.generation = 0 then throw (invalidArgument "text overlay generation must be nonzero")
  else if !viewport.valid then throw (invalidArgument "text overlay viewport must be positive")
  else if update.utf8Size ≠ 0 ∧ update.utf8 = none then
    throw (invalidArgument "text overlay UTF-8 buffer is unavailable")
  else
    match validateAndCountUtf8 u update.text with
    | none => throw (invalidArgument "text overlay received invalid UTF-8")
    | some codepointCount =>
      let candidate := candidatePresentation update viewport
      let caret := utf8ByteForUtf16Cursor u update.text update.cursorUtf16
      let selectionBegin := utf8ByteForUtf16Cursor u update.text update.selectionBeginUtf16
      let selectionEnd := utf8ByteForUtf16Cursor u update.text update.selectionEndUtf16
      if isPasswordInputType update.textInputType then
        if codepointCount > kSizeMax / kPasswordBullet.length then
          throw ⟨.unavailable, "text overlay password mask is too large"⟩
        else
          return { candidate with
            displayUtf8 := (List.replicate codepointCount kPasswordBullet).flatten
            caretUtf8Byte := bulletBytes caret.2
            selectionBeginUtf8Byte := bulletBytes (min selectionBegin.2 selectionEnd.2)
            selectionEndUtf8Byte := bulletBytes (max selectionBegin.2 selectionEnd.2) }
      else
        return { candidate with
          displayUtf8 := update.text
          caretUtf8Byte := caret.1
          selectionBeginUtf8Byte := min selectionBegin.1 selectionEnd.1
          selectionEndUtf8Byte := max selectionBegin.1 selectionEnd.1 }

/-- `Apply`: the status, the presentation and whether it changed. -/
def applyUpdate (shown : RobloxTextOverlayPresentation) :
    Status × RobloxTextOverlayPresentation × Bool :=
  if update.event = .kHide then
    if !shown.visible || update.generation != shown.generation then ({}, shown, false)
    else ({}, {}, true)
  else if update.event = .kUpdate ∧
    (shown.visible = false ∨ update.generation ≠ shown.generation) then
    ({}, shown, false)
  else if update.event = .kShow ∧ shown.visible = true ∧ update.generation < shown.generation then
    ({}, shown, false)
  else
    match buildRobloxTextOverlayPresentation u update viewport with
    | .error status => (status, shown, false)
    | .ok candidate => ({}, candidate, true)

end

end Nightcap.Text
