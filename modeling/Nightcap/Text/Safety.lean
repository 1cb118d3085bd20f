import Nightcap.Text.Invariant

/-! Runs of the text editor: the keys, and what holds in every state it reaches. -/
namespace Nightcap.Text

open Utf8 Transition Editor

variable {col : Collaborators} {replies : Replies} {e e' : Editor} {event : KeyEvent}
  {offsets : List Nat} {value : Nat}

/-! Positions next to the cursor. -/

theorem lowerBound_before (h : lowerBound offsets value ≠ 0) :
    offsets.getD (lowerBound offsets value - 1) 0 < value := by
  have hlt : lowerBound offsets value - 1 < lowerBound offsets value := by omega
  have hlen : lowerBound offsets value - 1 < offsets.length :=
    hlt.trans_le List.findIdx_le_length
  have hbelow := List.not_of_lt_findIdx hlt
  rw [List.getD_eq_getElem offsets 0 hlen]
  simpa using hbelow

theorem lowerBound_after (hs : offsets.Pairwise (· < ·))
    (h : lowerBound offsets value + 1 < offsets.length) :
    value ≤ offsets.getD (lowerBound offsets value + 1) 0 := by
  have hlen : lowerBound offsets value < offsets.length := by omega
  have hat : value ≤ offsets[lowerBound offsets value] :=
    of_decide_eq_true (List.findIdx_getElem (w := hlen))
  have hnext := List.pairwise_iff_getElem.1 hs _ _ hlen h (Nat.lt_succ_self _)
  rw [List.getD_eq_getElem offsets 0 h]
  omega

theorem getD_boundary (hu : col.utf8proc.Faithful) (text : Bytes) (i : Nat) :
    Boundary text ((layout col.utf8proc text).graphemeBoundaries.getD i 0) := by
  by_cases hi : i < (layout col.utf8proc text).graphemeBoundaries.length
  · rw [List.getD_eq_getElem _ 0 hi]
    exact layout_boundary hu (List.getElem_mem hi)
  · rw [List.getD_eq_default _ 0 (by omega)]
    exact boundary_zero text

/-- In a sound text `lower_bound` never runs off the boundaries. -/
theorem lowerBound_lt (hu : col.utf8proc.Faithful) (h : TextSound e) :
    lowerBound (layout col.utf8proc e.text).graphemeBoundaries e.cursorByte <
      (layout col.utf8proc e.text).graphemeBoundaries.length := by
  have hmax : kMaximumTextBytes ≤ 2147483647 := by decide
  have hvalid := valid_of_wellFormed hu h.wellFormed (h.size.trans hmax)
  refine List.findIdx_lt_length.2 ⟨e.text.length, layout_last hu hvalid, ?_⟩
  simpa using h.cursor.1

/-! Keys. -/

/-- The event makes the editor insert a line break. -/
def insertsNewline (e : Editor) (event : KeyEvent) : Bool :=
  e.snapshot.focused && event.pressed &&
    (event.scancode == scancodeReturn || event.scancode == scancodeKpEnter) &&
    !e.compositionActive && e.session.properties.multiline

/-- A line break in place of the selection fits. -/
def newlineFits (e : Editor) : Bool :=
  e.text.length - (e.selectionEnd - e.selectionBegin) < kMaximumTextBytes

theorem edit_newline (h : Sound e) (hn : newlineFits e = true) :
    Edit e e.selectionBegin e.selectionEnd (Ascii.bytes "\n") where
  begins := boundary_min h.text
  ends := boundary_max h.text
  wellFormed := Ascii.wellFormed_ascii (by decide)
  fits := by
    have hle := selection_ordered e
    have hend := (boundary_max h.text).1
    have hlen : (Ascii.bytes "\n").length = 1 := rfl
    simp only [newlineFits, decide_eq_true_eq] at hn
    omega

theorem backspace_sound (hu : col.utf8proc.Faithful) (h : Sound e) (hf : e.snapshot.focused = true)
    (hzero : lowerBound (layout col.utf8proc e.text).graphemeBoundaries e.cursorByte ≠ 0) :
    Sound (replaceLocked col replies e ((layout col.utf8proc e.text).graphemeBoundaries.getD
      (lowerBound (layout col.utf8proc e.text).graphemeBoundaries e.cursorByte - 1) 0)
      e.cursorByte []).1 :=
  replaceLocked_sound hu h hf
    (edit_delete h (getD_boundary hu e.text _) h.text.cursor (lowerBound_before hzero).le)

theorem delete_sound (hu : col.utf8proc.Faithful) (h : Sound e) (hf : e.snapshot.focused = true)
    (hlast : lowerBound (layout col.utf8proc e.text).graphemeBoundaries e.cursorByte + 1 ≠
      (layout col.utf8proc e.text).graphemeBoundaries.length) :
    Sound (replaceLocked col replies e e.cursorByte
      ((layout col.utf8proc e.text).graphemeBoundaries.getD
        (lowerBound (layout col.utf8proc e.text).graphemeBoundaries e.cursorByte + 1) 0) []).1 := by
  have hlt := lowerBound_lt hu h.text
  have hle := lowerBound_after (layout_sorted hu) (Nat.lt_of_le_of_ne hlt hlast)
  exact replaceLocked_sound hu h hf
    (edit_delete h h.text.cursor (getD_boundary hu e.text _) hle)

theorem handleEditKey_sound (hu : col.utf8proc.Faithful) (h : Sound e)
    (hf : e.snapshot.focused = true)
    (hn : e.session.properties.multiline = true → event.scancode = scancodeReturn ∨
      event.scancode = scancodeKpEnter → newlineFits e = true)
    (hkey : isEditKey event = true) (hletter : shortcutBit event.scancode = 0) :
    Sound (handleEditKey col replies e event).1 := by
  unfold handleEditKey
  dsimp only
  split_ifs with hback hsel hzero hdel hsel' hend hleft hmove hcur hright hmove' hlast hhome hlend
    hesc hmulti
  · exact deleteSelection_sound hu h hf
  · exact h
  · exact backspace_sound hu h hf hzero
  · exact deleteSelection_sound hu h hf
  · exact h
  · exact delete_sound hu h hf (not_or.1 hend).2
  · exact moveCursorLocked_sound hu h hf (boundary_min h.text) false
  · exact moveCursorLocked_sound hu h hf h.text.cursor _
  · exact moveCursorLocked_sound hu h hf (getD_boundary hu e.text _) _
  · exact moveCursorLocked_sound hu h hf (boundary_max h.text) false
  · exact moveCursorLocked_sound hu h hf h.text.cursor _
  · exact moveCursorLocked_sound hu h hf (getD_boundary hu e.text _) _
  · exact moveCursorLocked_sound hu h hf (boundary_zero e.text) _
  · exact moveCursorLocked_sound hu h hf h.text.wellFormed.take_length _
  · exact releaseLocked_sound h
  · have hreturn : event.scancode = scancodeReturn ∨ event.scancode = scancodeKpEnter := by
      simp [isEditKey, isShortcut, hletter] at hkey
      tauto
    exact replaceLocked_sound hu h hf (edit_newline h (hn hmulti hreturn))
  · exact finishLocked_sound h

theorem shortcutBit_cases (scancode : UInt32) :
    shortcutBit scancode = 0 ∨ shortcutBit scancode = kShortcutSelectAll ∨
      shortcutBit scancode = kShortcutCopy ∨ shortcutBit scancode = kShortcutPaste ∨
      shortcutBit scancode = kShortcutCut := by
  unfold shortcutBit
  split_ifs <;> simp

theorem handlePressedKey_sound (hu : col.utf8proc.Faithful) (h : Sound e)
    (hf : e.snapshot.focused = true)
    (hn : e.session.properties.multiline = true → event.scancode = scancodeReturn ∨
      event.scancode = scancodeKpEnter → newlineFits e = true)
    (hkey : isEditKey event = true) : Sound (handlePressedKey col replies e event).1 := by
  unfold handlePressedKey
  dsimp only
  split_ifs with hall hcopy hpaste hcut
  · exact selectAllLocked_sound hu h hf
  · exact copySelectionLocked_sound hu h hf false
  · exact pasteLocked_sound hu h hf
  · exact copySelectionLocked_sound hu h hf true
  · have hletter : shortcutBit event.scancode = 0 := by
      have hcases := shortcutBit_cases event.scancode
      tauto
    exact handleEditKey_sound hu h hf hn hkey hletter

theorem handleKey_sound (hu : col.utf8proc.Faithful) (h : Sound e)
    (hn : insertsNewline e event = true → newlineFits e = true) :
    Sound (handleKey col replies e event).1 := by
  unfold handleKey
  dsimp only
  by_cases hf : e.snapshot.focused = true
  · rw [if_neg (by simp [hf])]
    split
    · exact h.withSession hf
    · split
      · exact h
      · next hkey =>
        split
        · exact h
        · next hpressed =>
          simp only [Bool.not_eq_true', Bool.not_eq_false] at hkey hpressed
          have hmarked : ∀ bits : UInt32, Sound { e with activeShortcuts := bits } :=
            fun bits => h.withSession hf
          have hline : e.compositionActive = false → e.session.properties.multiline = true →
              event.scancode = scancodeReturn ∨ event.scancode = scancodeKpEnter →
              newlineFits e = true := by
            intro hc hmulti hreturn
            refine hn ?_
            simp only [insertsNewline, hf, hpressed, hc, hmulti]
            simpa using hreturn
          split_ifs with hshort hc hc
          · exact hmarked _
          · exact handlePressedKey_sound hu (hmarked _) hf (hline (Bool.not_eq_true _ ▸ hc)) hkey
          · exact h
          · exact handlePressedKey_sound hu h hf (hline (Bool.not_eq_true _ ▸ hc)) hkey
  · rw [if_pos (by simpa using hf)]
    exact h

/-! Runs. -/

inductive Call
  | beginFocusSession (session : FocusSession)
  | endFocusSession (textboxHandle : Int64) (generation : UInt64) (notifyNative : Bool)
  | replaceFocusedTextFromEngine (generation : UInt64) (text : Bytes)
  | updateFocusProperties (generation : UInt64) (properties : FocusProperties)
  | handleTextInput (text : Bytes)
  | handleTextEditing (event : TextEditingEvent)
  | handleKey (event : KeyEvent)

/-- One call of the editor, with what the sink and the clipboard answer during it. -/
def perform (col : Collaborators) (e : Editor) (call : Call × Replies) : Editor :=
  match call.1 with
  | .beginFocusSession session => (beginFocusSession col e session).1
  | .endFocusSession handle generation notify =>
    (endFocusSession col call.2 e handle generation notify).1
  | .replaceFocusedTextFromEngine generation text =>
    (replaceFocusedTextFromEngine col e generation text).1
  | .updateFocusProperties generation properties =>
    (updateFocusProperties col e generation properties).1
  | .handleTextInput text => (handleTextInput col call.2 e text).1
  | .handleTextEditing event => (handleTextEditing col call.2 e event).1
  | .handleKey event => (handleKey col call.2 e event).1

/-- The editor from its construction on. -/
def editorLTS (col : Collaborators) : LTS Editor (Call × Replies) :=
  LTS.ofFun {} fun e call => some (perform col e call)

/-- The call does not make the editor insert a line break into a full text. -/
def NewlineFits (e : Editor) (call : Call × Replies) : Prop :=
  ∀ event, call.1 = .handleKey event → insertsNewline e event = true → newlineFits e = true

theorem sound_initial : Sound {} where
  text := ⟨wellFormed_nil, Nat.zero_le _, boundary_zero _, boundary_zero _⟩
  composition := nofun
  snapshot := ⟨hasUtf16Length_nil, hasUtf16Length_nil, hasUtf16Length_nil⟩
  echoes := echoSound_nil rfl rfl
  unfocused _ := rfl

theorem sound_step (hu : col.utf8proc.Faithful) {call : Call × Replies} (h : Sound e)
    (hn : NewlineFits e call) : Sound (perform col e call) := by
  obtain ⟨call, replies⟩ := call
  cases call with
  | beginFocusSession session => exact beginFocusSession_sound hu h session
  | endFocusSession handle generation notify =>
    exact endFocusSession_sound h handle generation notify
  | replaceFocusedTextFromEngine generation text =>
    exact replaceFocusedTextFromEngine_sound hu h generation text
  | updateFocusProperties generation properties =>
    exact updateFocusProperties_sound h generation properties
  | handleTextInput text => exact handleTextInput_sound hu h text
  | handleTextEditing event => exact handleTextEditing_sound hu h event
  | handleKey event => exact handleKey_sound hu h (hn event rfl)

/-- Every state the editor reaches is sound, as long as no line break is put into a full text. -/
theorem editor_sound_reachable (hu : col.utf8proc.Faithful)
    (h : ((editorLTS col).restrict NewlineFits).Reachable e) : Sound e := by
  refine h.invariant ?_ ?_
  · rintro s rfl
    exact sound_initial
  · rintro s call t ⟨hs, hn⟩ hsound
    cases hs
    exact sound_step hu hsound hn

theorem publishDisplay_outputs (col : Collaborators) (e : Editor) (event : DisplayEvent) :
    ∃ outputs, publishDisplay col e event = { e with outputs } := by
  unfold publishDisplay
  split
  · exact ⟨_, rfl⟩
  · split <;> exact ⟨_, rfl⟩

/-- A focus session whose text may have several lines. -/
def multilineSession (text : Bytes) : FocusSession :=
  { textboxHandle := 1, generation := 1, initialText := text, properties := { multiline := true } }

theorem beginFocusSession_multiline (hu : col.utf8proc.Faithful) (hsink : col.sinkComplete = true)
    {text : Bytes} (hw : WellFormed text) (hsize : text.length ≤ kMaximumTextBytes) :
    ∃ outputs, perform col {} (.beginFocusSession (multilineSession text), {}) =
      { installSession col {} (multilineSession text) with outputs } := by
  have hmax : kMaximumTextBytes ≤ 2147483647 := by decide
  have hvalid := valid_of_wellFormed hu hw (hsize.trans hmax)
  have hok : ¬ ((multilineSession text).initialText.length > kMaximumTextBytes ∨
      (layout col.utf8proc (multilineSession text).initialText).valid = false) := by
    rw [not_or, Bool.not_eq_false]
    exact ⟨Nat.not_lt.2 hsize, hvalid⟩
  have hids : ¬ ((multilineSession text).textboxHandle = 0 ∨
      (multilineSession text).generation = 0) := by
    simp [multilineSession]
  simp only [perform, beginFocusSession]
  rw [if_neg hids, if_neg hok, hsink]
  exact publishDisplay_outputs col _ _

theorem rememberPendingNativeEcho_text (e : Editor) :
    e.rememberPendingNativeEcho.text = e.text := by
  unfold rememberPendingNativeEcho
  split <;> rfl

/-- An edit that the sink accepts. -/
theorem replaceLocked_text (e : Editor) (begin finish : Nat) (replacement : Bytes) :
    (replaceLocked col {} e begin finish replacement).1.text =
      e.spliced begin finish replacement := by
  unfold replaceLocked
  change (publishDisplay col _ .kUpdate).text = _
  obtain ⟨outputs, hpublished⟩ := publishDisplay_outputs col _ .kUpdate
  rw [hpublished]
  exact rememberPendingNativeEcho_text _

def returnKey : KeyEvent := { pressed := true, scancode := scancodeReturn }

/-- Return in a text of several lines inserts a line break, whatever the size of the text. -/
theorem handleKey_return (hf : e.snapshot.focused = true) (hc : e.compositionActive = false)
    (hm : e.session.properties.multiline = true) :
    (handleKey col {} e returnKey).1.text =
      e.spliced e.selectionBegin e.selectionEnd (Ascii.bytes "\n") := by
  have hkey : isEditKey returnKey = true := by decide
  have hshort : isShortcut returnKey = false := by decide
  have hbit : shortcutBit returnKey.scancode = 0 := by decide
  have hdown : returnKey.pressed = true := rfl
  have hpressed : handleKey col {} e returnKey = handlePressedKey col {} e returnKey := by
    simp [handleKey, hf, hkey, hshort, hdown, hc]
  have hedit : handlePressedKey col {} e returnKey = handleEditKey col {} e returnKey := by
    rw [handlePressedKey, hbit]
    rfl
  have hline : handleEditKey col {} e returnKey =
      replaceLocked col {} e e.selectionBegin e.selectionEnd (Ascii.bytes "\n") := by
    simp only [handleEditKey, hm, returnKey]
    rfl
  rw [hpressed, hedit, hline, replaceLocked_text]

/-- utf8proc on texts whose only joined characters are CR LF. -/
def plainUtf8proc : Utf8proc where
  iterate bs := (bs.toByteArray.utf8DecodeChar? 0).map fun c => (c.toNat, c.utf8Size)
  graphemeBreak before after state := (!(before == 13 && after == 10), state)

theorem plainUtf8proc_faithful : plainUtf8proc.Faithful where
  reads c rest := by
    simp only [plainUtf8proc, List.toByteArray_append,
      ByteArray.utf8DecodeChar?_utf8EncodeChar_append, Option.map_some,
      String.length_utf8EncodeChar]
  only bs r h := by
    obtain ⟨c, hc, _⟩ := Option.map_eq_some_iff.1 h
    obtain ⟨l, hl⟩ := ByteArray.exists_of_utf8DecodeChar?_eq_some hc
    refine ⟨c, l.data.toList, ?_⟩
    have hdata := congrArg (fun b => b.data.toList) hl
    simpa using hdata

theorem return_reachable (col : Collaborators) (text : Bytes) :
    (editorLTS col).Reachable (perform col
      (perform col {} (.beginFocusSession (multilineSession text), {}))
      (.handleKey returnKey, {})) :=
  ⟨_, [(.beginFocusSession (multilineSession text), {}), (.handleKey returnKey, {})], rfl,
    .cons rfl (.single rfl)⟩

/-- A text of several lines grows by one byte at Return, also when it is full. -/
theorem text_after_return (hu : col.utf8proc.Faithful) (hsink : col.sinkComplete = true)
    {text : Bytes} (hw : WellFormed text) (hsize : text.length ≤ kMaximumTextBytes) :
    (perform col (perform col {} (.beginFocusSession (multilineSession text), {}))
      (.handleKey returnKey, {})).text.length = text.length + 1 := by
  obtain ⟨outputs, hopened⟩ := beginFocusSession_multiline hu hsink hw hsize
  have hselection : min text.length text.length ≤ text.length := by simp
  rw [hopened, perform, handleKey_return rfl rfl rfl]
  change (splice text (min text.length text.length) (max text.length text.length) _).length = _
  rw [length_splice hselection, Nat.min_self, Nat.max_self, Nat.sub_self]
  rfl

def plainCollaborators : Collaborators := ⟨plainUtf8proc, true, true, true⟩

theorem plainCollaborators_faithful : plainCollaborators.utf8proc.Faithful := plainUtf8proc_faithful

/-- Return in a short text. -/
theorem sound_after_return : Sound (perform plainCollaborators (perform plainCollaborators {}
    (.beginFocusSession (multilineSession [104, 105]), {})) (.handleKey returnKey, {})) := by
  refine editor_sound_reachable plainCollaborators_faithful
    ⟨_, [(.beginFocusSession (multilineSession [104, 105]), {}), (.handleKey returnKey, {})], rfl,
      .cons ⟨rfl, nofun⟩ (.single ⟨rfl, ?_⟩)⟩
  obtain ⟨outputs, hopened⟩ := beginFocusSession_multiline plainCollaborators_faithful rfl
    (Ascii.wellFormed_of_ascii (s := [104, 105]) (by simp)) (by simp [kMaximumTextBytes])
  intro event _ _
  rw [hopened]
  rfl

/-- Return in a full text: the text exceeds its limit. -/
theorem return_exceeds_limit :
    ¬ ∀ e, (editorLTS plainCollaborators).Reachable e → Sound e := by
  intro hall
  have hfull : ∀ b ∈ List.replicate kMaximumTextBytes (97 : UInt8), b < 128 := by
    intro b hb
    rw [List.eq_of_mem_replicate hb]
    decide
  have hlen := text_after_return plainCollaborators_faithful rfl
    (Ascii.wellFormed_of_ascii hfull) (List.length_replicate).le
  have hsize := (hall _ (return_reachable _ (List.replicate kMaximumTextBytes 97))).text.size
  rw [hlen, List.length_replicate] at hsize
  omega

end Nightcap.Text
