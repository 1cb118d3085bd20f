import Nightcap.Status
import Nightcap.Lib.Ascii
import Nightcap.Text.Layout

/-! `RobloxTextEditor`: the text, selection and composition of the focused TextBox. -/
namespace Nightcap.Text

open Utf8

def kMaximumTextBytes : Nat := 4 * 1024 * 1024

def kMaximumPendingNativeEchoes : Nat := 16

/-- `std::size_t` subtraction. -/
def sizeSub (a b : Nat) : Nat := (a + 2 ^ 64 - b) % 2 ^ 64

structure FocusProperties where
  manualFocusRelease : Bool := false
  multiline : Bool := false
  areaX : Int32 := 0
  areaY : Int32 := 0
  areaWidth : Int32 := 0
  areaHeight : Int32 := 0
  fontSize : Float32 := 0
  xAlignment : Int32 := 0
  yAlignment : Int32 := 1
  textColor : Int32 := 0
  font : Int32 := 0
  textInputType : Int32 := 0
  returnKeyType : Int32 := 0
  textWrapped : Bool := false

/-- A focus session; once it is installed its initial text is empty. -/
structure FocusSession where
  textboxHandle : Int64 := 0
  generation : UInt64 := 0
  initialText : Bytes := []
  properties : FocusProperties := {}

inductive DisplayEvent
  | kShow
  | kUpdate
  | kHide
deriving DecidableEq

/-- A display update; the layout fields are those of the session. -/
structure DisplayUpdate where
  event : DisplayEvent
  generation : UInt64
  properties : FocusProperties
  utf8 : Bytes := []
  cursorUtf16 : Nat := 0
  selectionBeginUtf16 : Nat := 0
  selectionEndUtf16 : Nat := 0

/-- A call out of the editor. -/
inductive Output
  | sync (utf8 : Bytes) (cursorUtf16 : Nat)
  | passText (textboxHandle : Int64) (utf8 : Bytes) (finished : Bool) (cursorUtf16 : Nat)
  | returnPressed (textboxHandle : Int64)
  | releaseFocus (textboxHandle : Int64)
  | display (update : DisplayUpdate)
  | writeClipboard (text : Bytes)
  | readClipboard

/-- What the sink and the clipboard answer during one operation, which calls each at most once. -/
structure Replies where
  sync : Status := {}
  passText : Status := {}
  returnPressed : Status := {}
  releaseFocus : Status := {}
  writeText : Status := {}
  readText : Status × Bytes := ({}, [])

structure Snapshot where
  focused : Bool := false
  textboxHandle : Int64 := 0
  generation : UInt64 := 0
  textBytes : Nat := 0
  cursorUtf16 : Nat := 0
  selectionBeginUtf16 : Nat := 0
  selectionEndUtf16 : Nat := 0
  committedEdits : Nat := 0
  nativeErrors : Nat := 0

structure Editor where
  session : FocusSession := {}
  text : Bytes := []
  cursorByte : Nat := 0
  selectionAnchorByte : Nat := 0
  compositionBeginByte : Nat := 0
  compositionEndByte : Nat := 0
  compositionOriginalCursorByte : Nat := 0
  compositionOriginalAnchorByte : Nat := 0
  compositionReplacedText : Bytes := []
  compositionActive : Bool := false
  activeShortcuts : UInt32 := 0
  pendingNativeEchoes : List Bytes := []
  pendingNativeEchoBytes : Nat := 0
  snapshot : Snapshot := {}
  /-- Everything the editor has called, first call first. -/
  outputs : List Output := []

structure EditResult where
  handled : Bool
  dispatched : Bool
  sessionEnded : Bool
  status : Status := {}

/-- What an editor is built with: the library, and which of its collaborators are there. -/
structure Collaborators where
  utf8proc : Utf8proc
  sinkComplete : Bool
  hasDisplay : Bool
  hasClipboard : Bool

structure KeyEvent where
  pressed : Bool := false
  repeated : Bool := false
  scancode : UInt32 := 0
  keycode : UInt32 := 0
  modifiers : UInt32 := 0

structure TextEditingEvent where
  text : Bytes
  start : Int := 0
  length : Int := 0

namespace Editor

def output (e : Editor) (o : Output) : Editor := { e with outputs := e.outputs ++ [o] }

def selectionBegin (e : Editor) : Nat := min e.cursorByte e.selectionAnchorByte

def selectionEnd (e : Editor) : Nat := max e.cursorByte e.selectionAnchorByte

def hasSelection (e : Editor) : Bool := e.cursorByte != e.selectionAnchorByte

/-- The text with a range replaced. -/
def spliced (e : Editor) (begin finish : Nat) (replacement : Bytes) : Bytes :=
  splice e.text begin finish replacement

/-- Whether a replacement for the range exceeds the limit, in the source's unsigned arithmetic. -/
def tooLarge (e : Editor) (begin finish : Nat) (replacement : Bytes) : Bool :=
  replacement.length > sizeSub kMaximumTextBytes (sizeSub e.text.length (sizeSub finish begin))

def noComposition (e : Editor) : Editor :=
  { e with
    compositionBeginByte := 0
    compositionEndByte := 0
    compositionOriginalCursorByte := 0
    compositionOriginalAnchorByte := 0
    compositionReplacedText := []
    compositionActive := false }

def clearPendingNativeEchoes (e : Editor) : Editor :=
  { e with pendingNativeEchoes := [], pendingNativeEchoBytes := 0 }

/-- Drops old echoes until there is room for one of `size` bytes. -/
def trimEchoes (size : Nat) : List Bytes → Nat → List Bytes × Nat
  | [], total => ([], total)
  | echo :: echoes, total =>
    if (echo :: echoes).length ≥ kMaximumPendingNativeEchoes ∨
        total > sizeSub kMaximumTextBytes size then
      trimEchoes size echoes (sizeSub total echo.length)
    else (echo :: echoes, total)

def rememberPendingNativeEcho (e : Editor) : Editor :=
  if e.pendingNativeEchoes.getLast? = some e.text then e
  else
    let r := trimEchoes e.text.length e.pendingNativeEchoes e.pendingNativeEchoBytes
    { e with
      pendingNativeEchoes := r.1 ++ [e.text]
      pendingNativeEchoBytes := (r.2 + e.text.length) % 2 ^ 64 }

def consumePendingNativeEcho (e : Editor) (text : Bytes) : Option Editor :=
  if text ∈ e.pendingNativeEchoes then
    some { e with
      pendingNativeEchoes := e.pendingNativeEchoes.erase text
      pendingNativeEchoBytes := sizeSub e.pendingNativeEchoBytes text.length }
  else none

end Editor

open Editor

section

variable (col : Collaborators) (replies : Replies) (e : Editor)

def publishDisplay (event : DisplayEvent) : Editor :=
  if !col.hasDisplay then e
  else if event = .kHide then
    e.output
      (.display { event, generation := e.session.generation, properties := e.session.properties })
  else
    e.output (.display
      { event
        generation := e.session.generation
        properties := e.session.properties
        utf8 := e.text
        cursorUtf16 := e.snapshot.cursorUtf16
        selectionBeginUtf16 := e.snapshot.selectionBeginUtf16
        selectionEndUtf16 := e.snapshot.selectionEndUtf16 })

def updateSelectionSnapshot : Editor :=
  { e with snapshot := { e.snapshot with
      cursorUtf16 := utf16Cursor col.utf8proc e.text e.cursorByte
      selectionBeginUtf16 := utf16Cursor col.utf8proc e.text e.selectionBegin
      selectionEndUtf16 := utf16Cursor col.utf8proc e.text e.selectionEnd } }

def clearLocked : Editor :=
  let e := if e.snapshot.focused then publishDisplay col e .kHide else e
  { snapshot :=
      { committedEdits := e.snapshot.committedEdits, nativeErrors := e.snapshot.nativeErrors }
    outputs := e.outputs }

/-- A native call failed: the focus is given up whatever the answer. -/
def abandonFocus : Editor :=
  clearLocked col
    ({ e with snapshot := { e.snapshot with nativeErrors := e.snapshot.nativeErrors + 1 } }.output
      (.releaseFocus e.session.textboxHandle))

def syncLocked : Status × Editor :=
  (replies.sync, e.output (.sync e.text e.snapshot.cursorUtf16))

def passLocked (finished : Bool) : Status × Editor :=
  (replies.passText,
    e.output (.passText e.session.textboxHandle e.text finished e.snapshot.cursorUtf16))

/-- `SyncLocked`, then `PassLocked` if it went well. -/
def syncAndPass : Status × Editor :=
  match syncLocked replies e with
  | (status, e) => if status.isOk then passLocked replies e false else (status, e)

/-- The text after an edit, and where its cursor stands. -/
def editedText (begin finish : Nat) (replacement : Bytes) : Editor :=
  let text := e.spliced begin finish replacement
  let e := { e with
    text
    cursorByte := begin + replacement.length
    selectionAnchorByte := begin + replacement.length
    snapshot := { e.snapshot with textBytes := text.length } }
  updateSelectionSnapshot col e.noComposition

def replaceLocked (begin finish : Nat) (replacement : Bytes) : Editor × EditResult :=
  match syncAndPass replies (editedText col e begin finish replacement) with
  | (status, e) =>
    if status.isOk then
      let e := e.rememberPendingNativeEcho
      let e := { e with
        snapshot := { e.snapshot with committedEdits := e.snapshot.committedEdits + 1 } }
      (publishDisplay col e .kUpdate, ⟨true, true, false, status⟩)
    else (abandonFocus col e, ⟨true, false, true, status⟩)

/-- The range a text event replaces. -/
def replaceBegin : Nat := if e.compositionActive then e.compositionBeginByte else e.selectionBegin

def replaceEnd : Nat := if e.compositionActive then e.compositionEndByte else e.selectionEnd

/-- The first preedit of a composition saves what it covers. -/
def savedComposition : Editor :=
  if e.compositionActive then e
  else { e with
    compositionOriginalCursorByte := e.cursorByte
    compositionOriginalAnchorByte := e.selectionAnchorByte
    compositionReplacedText :=
      (e.text.drop (replaceBegin e)).take (sizeSub (replaceEnd e) (replaceBegin e)) }

/-- The text with the preedit in it, or with the covered text back when the preedit is empty. -/
def composedText (event : TextEditingEvent) : Editor :=
  let begin := replaceBegin e
  let finish := replaceEnd e
  let saved := savedComposition e
  let cancel := event.text.isEmpty
  let visible := if cancel then saved.compositionReplacedText else event.text
  let text := e.spliced begin finish visible
  let e := { saved with
    text
    compositionBeginByte := begin
    compositionEndByte := begin + visible.length
    compositionActive := !cancel
    snapshot := { saved.snapshot with textBytes := text.length } }
  let e := if cancel then
      { e with
        cursorByte := e.compositionOriginalCursorByte
        selectionAnchorByte := e.compositionOriginalAnchorByte
        compositionOriginalCursorByte := 0
        compositionOriginalAnchorByte := 0
        compositionReplacedText := [] }
    else
      { e with
        cursorByte := begin + utf8CharacterByteOffset col.utf8proc event.text event.start
        selectionAnchorByte := begin + utf8CharacterByteOffset col.utf8proc event.text event.start }
  updateSelectionSnapshot col e

def replaceCompositionLocked (event : TextEditingEvent) : Editor × EditResult :=
  if !e.compositionActive && event.text.isEmpty then (e, ⟨true, false, false, {}⟩)
  else if !(layout col.utf8proc event.text).valid ||
      e.tooLarge (replaceBegin e) (replaceEnd e) event.text then
    (e, ⟨true, false, false, invalidArgument "preedit text is invalid UTF-8 or too large"⟩)
  else
    match syncAndPass replies (composedText col e event) with
    | (status, e) =>
      if status.isOk then
        (publishDisplay col e.rememberPendingNativeEcho .kUpdate, ⟨true, true, false, status⟩)
      else (abandonFocus col e, ⟨true, false, true, status⟩)

/-- Tells the engine about a cursor that has moved. -/
def syncCursor : Editor × EditResult :=
  match syncLocked replies e with
  | (status, e) =>
    if status.isOk then (publishDisplay col e .kUpdate, ⟨true, true, false, status⟩)
    else (abandonFocus col e, ⟨true, false, true, status⟩)

def moveCursorLocked (byteOffset : Nat) (extendSelection : Bool) : Editor × EditResult :=
  let moved := { e with
    cursorByte := byteOffset
    selectionAnchorByte := if extendSelection then e.selectionAnchorByte else byteOffset }
  if moved.cursorByte = e.cursorByte ∧ moved.selectionAnchorByte = e.selectionAnchorByte then
    (moved, ⟨true, false, false, {}⟩)
  else
    let updated := updateSelectionSnapshot col moved
    if moved.cursorByte = e.cursorByte then
      (publishDisplay col updated .kUpdate, ⟨true, false, false, {}⟩)
    else syncCursor col replies updated

def selectAllLocked : Editor × EditResult :=
  let selected := { e with selectionAnchorByte := 0, cursorByte := e.text.length }
  if selected.cursorByte = e.cursorByte ∧ selected.selectionAnchorByte = e.selectionAnchorByte then
    (selected, ⟨true, false, false, {}⟩)
  else
    let updated := updateSelectionSnapshot col selected
    if selected.cursorByte = e.cursorByte then
      (publishDisplay col updated .kUpdate, ⟨true, false, false, {}⟩)
    else syncCursor col replies updated

def isPasswordInputType (textInputType : Int32) : Bool :=
  textInputType == 5 || textInputType == 9 || textInputType == 10

def copySelectionLocked (cut : Bool) : Editor × EditResult :=
  if !e.hasSelection || !col.hasClipboard ||
    isPasswordInputType e.session.properties.textInputType then
    (e, ⟨true, false, false, {}⟩)
  else
    let selected := (e.text.drop e.selectionBegin).take (sizeSub e.selectionEnd e.selectionBegin)
    let copied := e.output (.writeClipboard selected)
    if !replies.writeText.isOk || !cut then (copied, ⟨true, false, false, {}⟩)
    else replaceLocked col replies copied e.selectionBegin e.selectionEnd []

def pasteLocked : Editor × EditResult :=
  if !col.hasClipboard then (e, ⟨true, false, false, {}⟩)
  else
    let read := e.output .readClipboard
    let text := replies.readText.2
    if replies.readText.1.isOk && !text.isEmpty &&
      !e.tooLarge e.selectionBegin e.selectionEnd text &&
        (layout col.utf8proc text).valid then
      replaceLocked col replies read e.selectionBegin e.selectionEnd text
    else (read, ⟨true, false, false, {}⟩)

/-- `FinishLocked` after the return key has been passed on. -/
def finishText : Editor × EditResult :=
  match passLocked replies e true with
  | (status, e) =>
    if status.isOk then (clearLocked col e, ⟨true, true, true, status⟩)
    else (abandonFocus col e, ⟨true, false, true, status⟩)

def finishLocked : Editor × EditResult :=
  match syncLocked replies e with
  | (status, e) =>
    if !status.isOk then (abandonFocus col e, ⟨true, false, true, status⟩)
    else
      let e := e.output (.returnPressed e.session.textboxHandle)
      if !replies.returnPressed.isOk then
        (abandonFocus col e, ⟨true, false, true, replies.returnPressed⟩)
      else if e.session.properties.manualFocusRelease then
        (e, ⟨true, true, false, replies.returnPressed⟩)
      else finishText col replies e

def releaseLocked : Editor × EditResult :=
  let e := e.output (.releaseFocus e.session.textboxHandle)
  if !replies.releaseFocus.isOk then
    ({ e with snapshot := { e.snapshot with nativeErrors := e.snapshot.nativeErrors + 1 } },
      ⟨true, false, false, replies.releaseFocus⟩)
  else (clearLocked col e, ⟨true, true, true, {}⟩)

/-! The public operations. -/

def installSession (session : FocusSession) : Editor :=
  let text := session.initialText
  let e := { e with
    text
    session := { session with initialText := [] }
    cursorByte := text.length
    selectionAnchorByte := text.length
    activeShortcuts := 0
    snapshot := { e.snapshot with
      focused := true
      textboxHandle := session.textboxHandle
      generation := session.generation
      textBytes := text.length } }
  updateSelectionSnapshot col e.noComposition

def beginFocusSession (session : FocusSession) : Editor × Status :=
  if session.textboxHandle = 0 ∨ session.generation = 0 then
    (e, invalidArgument "TextBox handle and generation must be non-zero")
  else if session.initialText.length > kMaximumTextBytes ∨
      (layout col.utf8proc session.initialText).valid = false then
    (e, invalidArgument "initial TextBox text is invalid UTF-8 or too large")
  else if !col.sinkComplete then
    (e, unsupported "Roblox TextBox native export table is incomplete")
  else
    let e := if e.snapshot.focused then clearLocked col e else e
    (publishDisplay col (installSession col e session) .kShow, {})

def endFocusSession (textboxHandle : Int64) (generation : UInt64) (notifyNative : Bool) :
    Editor × Status :=
  if !e.snapshot.focused then (e, {})
  else if textboxHandle ≠ e.session.textboxHandle ∨ generation ≠ e.session.generation then
    (e, failedPrecondition "stale Roblox TextBox focus generation")
  else if notifyNative then
    let e := e.output (.releaseFocus e.session.textboxHandle)
    let e := if replies.releaseFocus.isOk then e else
      { e with snapshot := { e.snapshot with nativeErrors := e.snapshot.nativeErrors + 1 } }
    (clearLocked col e, replies.releaseFocus)
  else (clearLocked col e, {})

/-- A text from the engine takes the place of the editor's. -/
def authoritativeText (text : Bytes) : Editor :=
  let e := { e with
    text
    cursorByte := text.length
    selectionAnchorByte := text.length
    snapshot := { e.snapshot with textBytes := text.length } }
  publishDisplay col (updateSelectionSnapshot col e.noComposition) .kUpdate

def replaceFocusedTextFromEngine (generation : UInt64) (text : Bytes) : Editor × Status :=
  if !e.snapshot.focused ∨ generation ≠ e.session.generation then
    (e, failedPrecondition "stale Roblox TextBox engine update")
  else if text.length > kMaximumTextBytes ∨ (layout col.utf8proc text).valid = false then
    (e, invalidArgument "engine TextBox text is invalid UTF-8 or too large")
  else if text.isEmpty then (authoritativeText col e.clearPendingNativeEchoes [], {})
  else
    match e.consumePendingNativeEcho text with
    | some e => (e, {})
    | none => if text = e.text then (e, {}) else (authoritativeText col e text, {})

def updateFocusProperties (generation : UInt64) (properties : FocusProperties) : Editor × Status :=
  if !e.snapshot.focused ∨ generation ≠ e.session.generation then
    (e, failedPrecondition "stale Roblox TextBox property update")
  else
    (publishDisplay col { e with session := { e.session with properties } } .kUpdate, {})

def handleTextInput (text : Bytes) : Editor × EditResult :=
  if !e.snapshot.focused then (e, ⟨false, false, false, {}⟩)
  else if text.isEmpty then (e, ⟨true, false, false, {}⟩)
  else if !(layout col.utf8proc text).valid || e.tooLarge (replaceBegin e) (replaceEnd e) text then
    (e, ⟨true, false, false, invalidArgument "committed text is invalid UTF-8 or too large"⟩)
  else replaceLocked col replies e (replaceBegin e) (replaceEnd e) text

def handleTextEditing (event : TextEditingEvent) : Editor × EditResult :=
  if !e.snapshot.focused then (e, ⟨false, false, false, {}⟩)
  else replaceCompositionLocked col replies e event

/-! Keys. -/

def scancodeA : UInt32 := 4
def scancodeC : UInt32 := 6
def scancodeV : UInt32 := 25
def scancodeX : UInt32 := 27
def scancodeReturn : UInt32 := 40
def scancodeEscape : UInt32 := 41
def scancodeBackspace : UInt32 := 42
def scancodeHome : UInt32 := 74
def scancodeDelete : UInt32 := 76
def scancodeEnd : UInt32 := 77
def scancodeRight : UInt32 := 79
def scancodeLeft : UInt32 := 80
def scancodeKpEnter : UInt32 := 88

def kmodShift : UInt32 := 0x0003
def kmodCtrl : UInt32 := 0x00C0
def kmodAlt : UInt32 := 0x0300

def kShortcutSelectAll : UInt32 := 1
def kShortcutCopy : UInt32 := 2
def kShortcutPaste : UInt32 := 4
def kShortcutCut : UInt32 := 8

def shortcutBit (scancode : UInt32) : UInt32 :=
  if scancode = scancodeA then kShortcutSelectAll
  else if scancode = scancodeC then kShortcutCopy
  else if scancode = scancodeV then kShortcutPaste
  else if scancode = scancodeX then kShortcutCut
  else 0

/-- A shortcut letter with Ctrl and without Alt. -/
def isShortcut (event : KeyEvent) : Bool :=
  shortcutBit event.scancode != 0 && event.modifiers &&& kmodCtrl != 0 &&
    event.modifiers &&& kmodAlt == 0

def isEditKey (event : KeyEvent) : Bool :=
  [scancodeBackspace, scancodeDelete, scancodeLeft, scancodeRight, scancodeHome, scancodeEnd,
    scancodeReturn, scancodeKpEnter, scancodeEscape].contains event.scancode || isShortcut event

/-- `std::lower_bound` on sorted offsets, as an index. -/
def lowerBound (offsets : List Nat) (value : Nat) : Nat := offsets.findIdx (value ≤ ·)

/-- The editing keys, once nothing else has claimed the event. -/
def handleEditKey (event : KeyEvent) : Editor × EditResult :=
  let shift := event.modifiers &&& kmodShift != 0
  let boundaries := (layout col.utf8proc e.text).graphemeBoundaries
  let current := lowerBound boundaries e.cursorByte
  let before := boundaries.getD (current - 1) 0
  let after := boundaries.getD (current + 1) 0
  if event.scancode = scancodeBackspace then
    if e.hasSelection then replaceLocked col replies e e.selectionBegin e.selectionEnd []
    else if current = 0 then (e, ⟨true, false, false, {}⟩)
    else replaceLocked col replies e before e.cursorByte []
  else if event.scancode = scancodeDelete then
    if e.hasSelection then replaceLocked col replies e e.selectionBegin e.selectionEnd []
    else if current = boundaries.length ∨ current + 1 = boundaries.length then
      (e, ⟨true, false, false, {}⟩)
    else replaceLocked col replies e e.cursorByte after []
  else if event.scancode = scancodeLeft then
    if e.hasSelection && !shift then moveCursorLocked col replies e e.selectionBegin false
    else moveCursorLocked col replies e (if current = 0 then e.cursorByte else before) shift
  else if event.scancode = scancodeRight then
    if e.hasSelection && !shift then moveCursorLocked col replies e e.selectionEnd false
    else
      moveCursorLocked col replies e
        (if current + 1 = boundaries.length then e.cursorByte else after) shift
  else if event.scancode = scancodeHome then moveCursorLocked col replies e 0 shift
  else if event.scancode = scancodeEnd then moveCursorLocked col replies e e.text.length shift
  else if event.scancode = scancodeEscape then releaseLocked col replies e
  else if e.session.properties.multiline then
    replaceLocked col replies e e.selectionBegin e.selectionEnd (Ascii.bytes "\n")
  else finishLocked col replies e

/-- A pressed editing key or shortcut outside a composition. -/
def handlePressedKey (event : KeyEvent) : Editor × EditResult :=
  let bit := shortcutBit event.scancode
  if bit = kShortcutSelectAll then selectAllLocked col replies e
  else if bit = kShortcutCopy then copySelectionLocked col replies e false
  else if bit = kShortcutPaste then pasteLocked col replies e
  else if bit = kShortcutCut then copySelectionLocked col replies e true
  else handleEditKey col replies e event

def handleKey (event : KeyEvent) : Editor × EditResult :=
  let bit := shortcutBit event.scancode
  if !e.snapshot.focused then (e, ⟨false, false, false, {}⟩)
  else if !event.pressed && bit != 0 && e.activeShortcuts &&& bit != 0 then
    ({ e with activeShortcuts := e.activeShortcuts &&& ~~~bit }, ⟨true, false, false, {}⟩)
  else if !isEditKey event then (e, ⟨false, false, false, {}⟩)
  else if !event.pressed then (e, ⟨true, false, false, {}⟩)
  else
    let e := if isShortcut event then { e with activeShortcuts := e.activeShortcuts ||| bit } else e
    if e.compositionActive then (e, ⟨true, false, false, {}⟩)
    else handlePressedKey col replies e event

end

end Nightcap.Text
