import Nightcap.Text.Graphemes

/-! Right, Delete, Left and Backspace step by one grapheme exactly from a grapheme boundary. -/
namespace Nightcap.Text

open Utf8 Transition Editor

variable {col : Collaborators} {replies : Replies} {e : Editor} {event : KeyEvent} {cs : List Char}
  {begin finish : Nat} {replacement : Bytes}

/-- The engine takes what the editor tells it. -/
structure Accepts (replies : Replies) : Prop where
  sync : replies.sync.isOk = true
  passText : replies.passText.isOk = true

/-- A focused editor with a caret in a well-formed text. -/
structure AtCaret (e : Editor) (cs : List Char) : Prop where
  focused : e.snapshot.focused = true
  noComposition : e.compositionActive = false
  noSelection : e.selectionAnchorByte = e.cursorByte
  text : encode cs = e.text

theorem accepts_default : Accepts {} := ⟨rfl, rfl⟩

theorem rememberPendingNativeEcho_eq (e : Editor) :
    ∃ echoes total, e.rememberPendingNativeEcho =
      { e with pendingNativeEchoes := echoes, pendingNativeEchoBytes := total } := by
  unfold rememberPendingNativeEcho
  split <;> exact ⟨_, _, rfl⟩

/-- A focused editor outside a composition, with a text and a selection. -/
structure Resting (e : Editor) (text : Bytes) (cursor anchor : Nat) : Prop where
  focused : e.snapshot.focused = true
  noComposition : e.compositionActive = false
  text : e.text = text
  cursor : e.cursorByte = cursor
  anchor : e.selectionAnchorByte = anchor

theorem Resting.placed {text : Bytes} {cursor anchor : Nat} (h : Resting e text cursor anchor) :
    e.text = text ∧ e.cursorByte = cursor := ⟨h.text, h.cursor⟩

/-- An accepted edit of the text. -/
theorem replaceLocked_accepted (h : Accepts replies) (hf : e.snapshot.focused = true) :
    Resting (replaceLocked col replies e begin finish replacement).1
      (e.spliced begin finish replacement) (begin + replacement.length)
      (begin + replacement.length) := by
  unfold replaceLocked syncAndPass syncLocked passLocked
  dsimp only
  rw [if_pos h.sync]
  dsimp only
  rw [if_pos h.passText]
  obtain ⟨echoes, total, hremembered⟩ := rememberPendingNativeEcho_eq
    (((editedText col e begin finish replacement).output _).output _)
  obtain ⟨outputs, hpublished⟩ := publishDisplay_outputs col _ .kUpdate
  rw [hpublished, hremembered]
  exact ⟨hf, rfl, rfl, rfl, rfl⟩

/-- An accepted text event. -/
theorem handleTextInput_accepted (col : Collaborators) (h : Accepts replies)
    (hf : e.snapshot.focused = true)
    (hne : replacement ≠ []) (hvalid : (layout col.utf8proc replacement).valid = true)
    (hfits : e.tooLarge (replaceBegin e) (replaceEnd e) replacement = false) :
    Resting (handleTextInput col replies e replacement).1
      (e.spliced (replaceBegin e) (replaceEnd e) replacement)
      (replaceBegin e + replacement.length) (replaceBegin e + replacement.length) := by
  have hnonempty : replacement.isEmpty = false := by simpa using hne
  unfold handleTextInput
  rw [if_neg (by simp [hf]), if_neg (by simp [hnonempty]), if_neg (by simp [hvalid, hfits])]
  exact replaceLocked_accepted h hf

theorem Resting.publish {text : Bytes} {cursor anchor : Nat} (h : Resting e text cursor anchor) :
    Resting (publishDisplay col e .kUpdate) text cursor anchor := by
  obtain ⟨outputs, hpublished⟩ := publishDisplay_outputs col e .kUpdate
  rw [hpublished]
  exact ⟨h.focused, h.noComposition, h.text, h.cursor, h.anchor⟩

/-- A cursor move that the engine accepts. -/
theorem moveCursorLocked_accepted (h : Accepts replies) (hf : e.snapshot.focused = true)
    (hc : e.compositionActive = false) (byteOffset : Nat) (extend : Bool) :
    Resting (moveCursorLocked col replies e byteOffset extend).1 e.text byteOffset
      (if extend then e.selectionAnchorByte else byteOffset) := by
  unfold moveCursorLocked syncCursor syncLocked
  dsimp only
  generalize (if extend = true then e.selectionAnchorByte else byteOffset) = anchor
  by_cases hsame : byteOffset = e.cursorByte ∧ anchor = e.selectionAnchorByte
  · rw [if_pos hsame]
    exact ⟨hf, hc, rfl, rfl, rfl⟩
  · rw [if_neg hsame]
    by_cases hcursor : byteOffset = e.cursorByte
    · rw [if_pos hcursor]
      exact Resting.publish ⟨hf, hc, rfl, rfl, rfl⟩
    · rw [if_neg hcursor, if_pos h.sync]
      exact Resting.publish ⟨hf, hc, rfl, rfl, rfl⟩

/-- An editing key without a shortcut letter goes straight to its case. -/
theorem handleKey_edit (hf : e.snapshot.focused = true) (hc : e.compositionActive = false)
    (hp : event.pressed = true) (hbit : shortcutBit event.scancode = 0)
    (hkey : isEditKey event = true) :
    handleKey col replies e event = handleEditKey col replies e event := by
  have hshort : isShortcut event = false := by simp [isShortcut, hbit]
  have hnone : (0 : UInt32) ≠ kShortcutSelectAll ∧ (0 : UInt32) ≠ kShortcutCopy ∧
      (0 : UInt32) ≠ kShortcutPaste ∧ (0 : UInt32) ≠ kShortcutCut := by decide
  simp only [handleKey, hf, hp, hkey, hshort, hc, handlePressedKey, hbit, hnone]
  simp [hc]

/-- The keys that step by one grapheme. -/
def stepKeys : List UInt32 := [scancodeRight, scancodeDelete, scancodeLeft, scancodeBackspace]

theorem handleKey_step (h : AtCaret e cs) (hp : event.pressed = true)
    (hkey : event.scancode ∈ stepKeys) :
    handleKey col replies e event = handleEditKey col replies e event := by
  have hmember : event.scancode = scancodeRight ∨ event.scancode = scancodeDelete ∨
      event.scancode = scancodeLeft ∨ event.scancode = scancodeBackspace := by
    simpa [stepKeys] using hkey
  refine handleKey_edit h.focused h.noComposition hp ?_ ?_
  · rcases hmember with hk | hk | hk | hk <;> rw [hk] <;> rfl
  · unfold isEditKey
    rcases hmember with hk | hk | hk | hk <;> rw [hk] <;> rfl

theorem hasSelection_eq (h : AtCaret e cs) : e.hasSelection = false := by
  simp [hasSelection, h.noSelection]

theorem handleKey_right (h : AtCaret e cs) (ha : Accepts replies) (hp : event.pressed = true)
    (hk : event.scancode = scancodeRight) :
    (handleKey col replies e event).1.text = e.text ∧
      (handleKey col replies e event).1.cursorByte =
        stepForward (layout col.utf8proc e.text).graphemeBoundaries e.cursorByte := by
  rw [handleKey_step h hp (by simp [stepKeys, hk]), handleEditKey]
  rw [if_neg (by rw [hk]; decide), if_neg (by rw [hk]; decide), if_neg (by rw [hk]; decide),
    if_pos hk, if_neg (by simp [hasSelection_eq h])]
  exact (moveCursorLocked_accepted ha h.focused h.noComposition _ _).placed

theorem handleKey_left (h : AtCaret e cs) (ha : Accepts replies) (hp : event.pressed = true)
    (hk : event.scancode = scancodeLeft) :
    (handleKey col replies e event).1.text = e.text ∧
      (handleKey col replies e event).1.cursorByte =
        stepBack (layout col.utf8proc e.text).graphemeBoundaries e.cursorByte := by
  rw [handleKey_step h hp (by simp [stepKeys, hk]), handleEditKey]
  rw [if_neg (by rw [hk]; decide), if_neg (by rw [hk]; decide), if_pos hk,
    if_neg (by simp [hasSelection_eq h])]
  exact (moveCursorLocked_accepted ha h.focused h.noComposition _ _).placed

/-- A range of no bytes. -/
theorem spliced_self (e : Editor) (k : Nat) : e.spliced k k [] = e.text := by
  simp [spliced, splice]

theorem handleKey_backspace (h : AtCaret e cs) (ha : Accepts replies) (hp : event.pressed = true)
    (hk : event.scancode = scancodeBackspace) :
    (handleKey col replies e event).1.text = e.spliced
        (stepBack (layout col.utf8proc e.text).graphemeBoundaries e.cursorByte) e.cursorByte [] ∧
      (handleKey col replies e event).1.cursorByte =
        stepBack (layout col.utf8proc e.text).graphemeBoundaries e.cursorByte := by
  rw [handleKey_step h hp (by simp [stepKeys, hk]), handleEditKey]
  rw [if_pos hk, if_neg (by simp [hasSelection_eq h]), stepBack]
  split
  · exact ⟨(spliced_self e _).symm, rfl⟩
  · exact (replaceLocked_accepted ha h.focused).placed

/-- `Delete` looks for the end of the boundaries first. -/
theorem handleKey_delete (h : AtCaret e cs) (ha : Accepts replies) (hp : event.pressed = true)
    (hk : event.scancode = scancodeDelete)
    (hin : lowerBound (layout col.utf8proc e.text).graphemeBoundaries e.cursorByte ≠
      (layout col.utf8proc e.text).graphemeBoundaries.length) :
    (handleKey col replies e event).1.text = e.spliced e.cursorByte
        (stepForward (layout col.utf8proc e.text).graphemeBoundaries e.cursorByte) [] ∧
      (handleKey col replies e event).1.cursorByte = e.cursorByte := by
  rw [handleKey_step h hp (by simp [stepKeys, hk]), handleEditKey]
  rw [if_neg (by rw [hk]; decide), if_pos hk, if_neg (by simp [hasSelection_eq h]), stepForward]
  split
  · next hend =>
    rw [if_pos (hend.resolve_left hin)]
    exact ⟨(spliced_self e _).symm, rfl⟩
  · next hend =>
    rw [if_neg (not_or.1 hend).2]
    exact (replaceLocked_accepted ha h.focused).placed

/-- What the four keys do from a caret: Right and Left move to the next and the previous boundary,
Delete and Backspace remove the bytes up to there. -/
def StepsByGrapheme (col : Collaborators) (e : Editor) (boundaries : List Nat) : Prop :=
  ∀ (replies : Replies) (event : KeyEvent), Accepts replies → event.pressed = true →
    let after := (handleKey col replies e event).1
    (event.scancode = scancodeRight →
      after.text = e.text ∧ after.cursorByte = nextBoundary boundaries e.cursorByte) ∧
    (event.scancode = scancodeDelete →
      after.text = e.spliced e.cursorByte (nextBoundary boundaries e.cursorByte) [] ∧
        after.cursorByte = e.cursorByte) ∧
    (event.scancode = scancodeLeft →
      after.text = e.text ∧ after.cursorByte = previousBoundary boundaries e.cursorByte) ∧
    (event.scancode = scancodeBackspace →
      after.text = e.spliced (previousBoundary boundaries e.cursorByte) e.cursorByte [] ∧
        after.cursorByte = previousBoundary boundaries e.cursorByte)

theorem layout_boundaries (hu : col.utf8proc.Faithful) (h : AtCaret e cs) :
    (layout col.utf8proc e.text).graphemeBoundaries <+: graphemeBoundaries col.utf8proc cs ∧
      0 ∈ (layout col.utf8proc e.text).graphemeBoundaries := by
  rw [← h.text]
  exact ⟨layout_front hu, (layout_extends hu).subset (List.mem_singleton_self 0)⟩

theorem found_of_steps (hu : col.utf8proc.Faithful) (h : AtCaret e cs)
    (hsteps : StepsByGrapheme col e (graphemeBoundaries col.utf8proc cs)) :
    e.cursorByte ∈ (layout col.utf8proc e.text).graphemeBoundaries ∧
      nextBoundary (graphemeBoundaries col.utf8proc cs) e.cursorByte ∈
        (layout col.utf8proc e.text).graphemeBoundaries := by
  obtain ⟨hfront, hzero⟩ := layout_boundaries hu h
  have hright :=
    (hsteps {} { pressed := true, scancode := scancodeRight } accepts_default rfl).1 rfl
  rw [(handleKey_right h accepts_default rfl rfl).2] at hright
  exact (stepForward_eq_iff hfront graphemeBoundaries_sorted hzero).1 hright.2

theorem steps_of_found (hu : col.utf8proc.Faithful) (h : AtCaret e cs)
    (hfound : e.cursorByte ∈ (layout col.utf8proc e.text).graphemeBoundaries)
    (hnext : nextBoundary (graphemeBoundaries col.utf8proc cs) e.cursorByte ∈
      (layout col.utf8proc e.text).graphemeBoundaries) :
    StepsByGrapheme col e (graphemeBoundaries col.utf8proc cs) := by
  obtain ⟨hfront, hzero⟩ := layout_boundaries hu h
  have hsorted : (graphemeBoundaries col.utf8proc cs).Pairwise (· < ·) := graphemeBoundaries_sorted
  have hforward := (stepForward_eq_iff hfront hsorted hzero).2 ⟨hfound, hnext⟩
  have hback := stepBack_eq hfront hsorted hfound
  have hin := (lowerBound_of_mem (hsorted.sublist hfront.sublist) hfound).1
  intro replies event haccepts hp
  refine ⟨fun hk => ?_, fun hk => ?_, fun hk => ?_, fun hk => ?_⟩
  · rw [← hforward]
    exact handleKey_right h haccepts hp hk
  · rw [← hforward]
    exact handleKey_delete h haccepts hp hk hin.ne
  · rw [← hback]
    exact handleKey_left h haccepts hp hk
  · rw [← hback]
    exact handleKey_backspace h haccepts hp hk

/-- The keys step by one grapheme exactly where `Layout` finds the caret among the boundaries, and
the one after it. -/
theorem stepsByGrapheme_iff (hu : col.utf8proc.Faithful) (h : AtCaret e cs) :
    StepsByGrapheme col e (graphemeBoundaries col.utf8proc cs) ↔
      e.cursorByte ∈ (layout col.utf8proc e.text).graphemeBoundaries ∧
        nextBoundary (graphemeBoundaries col.utf8proc cs) e.cursorByte ∈
          (layout col.utf8proc e.text).graphemeBoundaries :=
  ⟨found_of_steps hu h, fun hfound => steps_of_found hu h hfound.1 hfound.2⟩

/-- In a text that `Layout` accepts, exactly from a grapheme boundary. -/
theorem steps_iff_boundary (hu : col.utf8proc.Faithful) (h : AtCaret e cs)
    (hvalid : (layout col.utf8proc e.text).valid = true) :
    StepsByGrapheme col e (graphemeBoundaries col.utf8proc cs) ↔
      e.cursorByte ∈ graphemeBoundaries col.utf8proc cs := by
  have hall : (layout col.utf8proc e.text).graphemeBoundaries =
      graphemeBoundaries col.utf8proc cs := by
    rw [← h.text] at hvalid ⊢
    exact layout_eq hu hvalid
  constructor
  · intro hsteps
    exact hall ▸ (found_of_steps hu h hsteps).1
  · intro hat
    have hnext := nextBoundary_mem hat
    exact steps_of_found hu h (hall ▸ hat) (by rwa [hall])

/-! A base letter typed before a combining mark. -/

/-- utf8proc on texts whose only combining character is U+0301. -/
def combiningUtf8proc : Utf8proc :=
  { plainUtf8proc with graphemeBreak := fun _ after state => (after != 0x301, state) }

theorem combiningUtf8proc_faithful : combiningUtf8proc.Faithful :=
  ⟨plainUtf8proc_faithful.reads, plainUtf8proc_faithful.only⟩

def combiningCollaborators : Collaborators := ⟨combiningUtf8proc, true, true, true⟩

def homeKey : KeyEvent := { pressed := true, scancode := scancodeHome }

theorem handleKey_home (h : Accepts replies) (hf : e.snapshot.focused = true)
    (hc : e.compositionActive = false) :
    Resting (handleKey col replies e homeKey).1 e.text 0 0 := by
  rw [handleKey_edit hf hc rfl rfl rfl, handleEditKey]
  exact moveCursorLocked_accepted h hf hc 0 false

/-- The mark, and Home. -/
def markHome : Editor :=
  perform combiningCollaborators
    (perform combiningCollaborators {} (.beginFocusSession (multilineSession [0xCC, 0x81]), {}))
    (.handleKey homeKey, {})

/-- The mark, Home, and the letter. -/
def letterTyped : Editor := perform combiningCollaborators markHome (.handleTextInput [0x65], {})

theorem letterTyped_reachable : (editorLTS combiningCollaborators).Reachable letterTyped :=
  ⟨_, [(.beginFocusSession (multilineSession [0xCC, 0x81]), {}), (.handleKey homeKey, {}),
    (.handleTextInput [0x65], {})], rfl, .cons rfl (.cons rfl (.single rfl))⟩

theorem markHome_resting : Resting markHome [0xCC, 0x81] 0 0 := by
  have hmark : WellFormed [0xCC, 0x81] := ⟨['\u0301'], by decide⟩
  obtain ⟨outputs, hopened⟩ := beginFocusSession_multiline
    (show combiningCollaborators.utf8proc.Faithful from combiningUtf8proc_faithful) rfl hmark
    (by decide)
  unfold markHome
  rw [hopened, perform]
  dsimp only
  exact handleKey_home accepts_default rfl rfl

theorem letterTyped_resting : Resting letterTyped (encode ['e', '\u0301']) 1 1 := by
  have hletter : WellFormed [0x65] := ⟨['e'], by decide⟩
  have hvalid := valid_of_wellFormed combiningUtf8proc_faithful hletter (by decide)
  have hhome := markHome_resting
  unfold letterTyped
  generalize markHome = e at hhome ⊢
  have hrange : replaceBegin e = 0 ∧ replaceEnd e = 0 := by
    simp [replaceBegin, replaceEnd, selectionBegin, selectionEnd, hhome.noComposition,
      hhome.cursor, hhome.anchor]
  have hfits : e.tooLarge (replaceBegin e) (replaceEnd e) [0x65] = false := by
    rw [hrange.1, hrange.2, tooLarge, hhome.text]
    decide
  have hdone : Resting (handleTextInput combiningCollaborators {} e [0x65]).1 _ _ _ :=
    handleTextInput_accepted _ accepts_default hhome.focused (by simp) hvalid hfits
  rw [hrange.1, hrange.2, spliced, hhome.text] at hdone
  exact hdone

/-- Before the mark the keys step over it. -/
theorem stepsByGrapheme_iff_markHome :
    StepsByGrapheme combiningCollaborators markHome
      (graphemeBoundaries combiningUtf8proc ['\u0301']) := by
  have hcaret : AtCaret markHome ['\u0301'] :=
    ⟨markHome_resting.focused, markHome_resting.noComposition,
      markHome_resting.anchor.trans markHome_resting.cursor.symm, markHome_resting.text.symm⟩
  have hvalid := valid_of_wellFormed combiningUtf8proc_faithful ⟨['\u0301'], rfl⟩ (by decide)
  refine (stepsByGrapheme_iff combiningUtf8proc_faithful hcaret).2 ?_
  have hall : (layout combiningUtf8proc markHome.text).graphemeBoundaries = [0, 2] := by
    rw [← hcaret.text]
    exact (layout_eq combiningUtf8proc_faithful hvalid).trans (by decide)
  have hnext : nextBoundary (graphemeBoundaries combiningUtf8proc ['\u0301']) 0 = 2 := by decide
  rw [markHome_resting.cursor]
  change 0 ∈ (layout combiningUtf8proc markHome.text).graphemeBoundaries ∧
    nextBoundary (graphemeBoundaries combiningUtf8proc ['\u0301']) 0 ∈
      (layout combiningUtf8proc markHome.text).graphemeBoundaries
  rw [hall, hnext]
  decide

/-- The letter and the mark are one grapheme, and the cursor is inside it. -/
theorem letterTyped_not_stepsByGrapheme :
    (editorLTS combiningCollaborators).Reachable letterTyped ∧
      AtCaret letterTyped ['e', '\u0301'] ∧
      ¬ StepsByGrapheme combiningCollaborators letterTyped
          (graphemeBoundaries combiningUtf8proc ['e', '\u0301']) := by
  have hcaret : AtCaret letterTyped ['e', '\u0301'] :=
    ⟨letterTyped_resting.focused, letterTyped_resting.noComposition,
      letterTyped_resting.anchor.trans letterTyped_resting.cursor.symm,
      letterTyped_resting.text.symm⟩
  refine ⟨letterTyped_reachable, hcaret, fun hsteps => ?_⟩
  have hfound := (found_of_steps combiningUtf8proc_faithful hcaret hsteps).1
  have hin := (layout_boundaries combiningUtf8proc_faithful hcaret).1.subset hfound
  rw [letterTyped_resting.cursor] at hin
  revert hin
  decide

end Nightcap.Text
