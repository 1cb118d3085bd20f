import Nightcap.Text.KeySteps

/-! A cancelled composition leaves no trace, and a commit replaces what it covered. -/
namespace Nightcap.Text

open Utf8 Transition Editor

variable {col : Collaborators} {replies : Replies} {e e' : Editor} {event : TextEditingEvent}
  {call : Call × Replies} {s : Bytes}

/-- A text with a selection in it. -/
structure Selected where
  text : Bytes
  cursorByte : Nat
  selectionAnchorByte : Nat

def selected (e : Editor) : Selected := ⟨e.text, e.cursorByte, e.selectionAnchorByte⟩

/-- The text and the selection before the composition, if there is one. -/
def origin (e : Editor) : Selected :=
  if e.compositionActive then
    ⟨restored e, e.compositionOriginalCursorByte, e.compositionOriginalAnchorByte⟩
  else selected e

def Selected.begin (o : Selected) : Nat := min o.cursorByte o.selectionAnchorByte

def Selected.finish (o : Selected) : Nat := max o.cursorByte o.selectionAnchorByte

/-- The preedit begins where the selection it covers began, and what it covers fills it. -/
structure Composing (e : Editor) : Prop where
  begins : e.compositionBeginByte =
    min e.compositionOriginalCursorByte e.compositionOriginalAnchorByte
  covers : e.compositionBeginByte + e.compositionReplacedText.length =
    max e.compositionOriginalCursorByte e.compositionOriginalAnchorByte
  inside : e.compositionBeginByte ≤ e.text.length

/-- The positions of an editor are positions in its text. -/
structure Placed (e : Editor) : Prop where
  selection : e.compositionActive = false → e.selectionEnd ≤ e.text.length ∧ e.text.length < 2 ^ 64
  composition : e.compositionActive = true → Composing e

/-- The two editors hold the same text, selection and composition. -/
def EditsAs (e e' : Editor) : Prop :=
  e' = { e with
    session := e'.session
    activeShortcuts := e'.activeShortcuts
    pendingNativeEchoes := e'.pendingNativeEchoes
    pendingNativeEchoBytes := e'.pendingNativeEchoBytes
    snapshot := e'.snapshot
    outputs := e'.outputs }

theorem EditsAs.origin (h : EditsAs e e') : origin e' = origin e := by
  rw [h]
  rfl

theorem EditsAs.selected (h : EditsAs e e') : selected e' = selected e := by
  rw [h]
  rfl

theorem EditsAs.active (h : EditsAs e e') : e'.compositionActive = e.compositionActive := by
  rw [h]

theorem EditsAs.composing (h : EditsAs e e') (hc : Composing e) : Composing e' := by
  rw [h]
  exact ⟨hc.begins, hc.covers, hc.inside⟩

/-! One preedit. -/

theorem Placed.saved (hp : Placed e) :
    replaceBegin e = min (savedComposition e).compositionOriginalCursorByte
        (savedComposition e).compositionOriginalAnchorByte ∧
      replaceBegin e + (savedComposition e).compositionReplacedText.length =
        max (savedComposition e).compositionOriginalCursorByte
          (savedComposition e).compositionOriginalAnchorByte ∧
      replaceBegin e ≤ e.text.length := by
  cases hc : e.compositionActive with
  | true =>
    have hcomp := hp.composition hc
    simp only [replaceBegin, savedComposition, hc, if_true]
    exact ⟨hcomp.begins, hcomp.covers, hcomp.inside⟩
  | false =>
    obtain ⟨hinside, hsize⟩ := hp.selection hc
    have hle := selection_ordered e
    have hlen : sizeSub e.selectionEnd e.selectionBegin = e.selectionEnd - e.selectionBegin :=
      sizeSub_eq hle (hinside.trans_lt hsize)
    simp only [replaceBegin, replaceEnd, savedComposition, hc, Bool.false_eq_true, if_false, hlen]
    refine ⟨rfl, ?_, hle.trans hinside⟩
    rw [List.length_take, List.length_drop]
    change _ = e.selectionEnd
    omega

/-- Putting back what is covered gives the text of the origin. -/
theorem Placed.putBack (hp : Placed e) :
    (⟨e.spliced (replaceBegin e) (replaceEnd e) (savedComposition e).compositionReplacedText,
      (savedComposition e).compositionOriginalCursorByte,
      (savedComposition e).compositionOriginalAnchorByte⟩ : Selected) = origin e := by
  cases hc : e.compositionActive with
  | true =>
    simp only [replaceBegin, replaceEnd, savedComposition, origin, restored, hc, if_true]
  | false =>
    obtain ⟨hinside, hsize⟩ := hp.selection hc
    have hle := selection_ordered e
    have hlen : sizeSub e.selectionEnd e.selectionBegin = e.selectionEnd - e.selectionBegin :=
      sizeSub_eq hle (hinside.trans_lt hsize)
    have hback : e.spliced e.selectionBegin e.selectionEnd
        ((e.text.drop e.selectionBegin).take (e.selectionEnd - e.selectionBegin)) = e.text :=
      splice_slice hle
    simp only [replaceBegin, replaceEnd, savedComposition, origin, selected, hc,
      Bool.false_eq_true, if_false, hlen, hback]

/-- A preedit keeps the origin: the first one takes it down. -/
theorem composedText_origin (col : Collaborators) (hp : Placed e)
    (hne : event.text.isEmpty = false) :
    (composedText col e event).compositionActive = true ∧ Composing (composedText col e event) ∧
      origin (composedText col e event) = origin e := by
  obtain ⟨hbegins, hcovers, hinside⟩ := hp.saved
  have hback := hp.putBack
  have hrestored : splice (e.spliced (replaceBegin e) (replaceEnd e) event.text) (replaceBegin e)
      (replaceBegin e + event.text.length) (savedComposition e).compositionReplacedText =
        e.spliced (replaceBegin e) (replaceEnd e) (savedComposition e).compositionReplacedText :=
    splice_splice hinside
  have hlength : replaceBegin e ≤
      (e.spliced (replaceBegin e) (replaceEnd e) event.text).length := by
    rw [spliced, length_splice hinside]
    omega
  rw [← hback, ← hrestored]
  unfold composedText
  rw [savedComposition_eq]
  simp only [hne]
  exact ⟨rfl, ⟨hbegins, hcovers, hlength⟩, rfl⟩

/-- An empty preedit puts the origin back. -/
theorem composedText_cancel (col : Collaborators) (hp : Placed e) (hempty : event.text = []) :
    (composedText col e event).compositionActive = false ∧
      selected (composedText col e event) = origin e := by
  have hback := hp.putBack
  rw [← hback]
  unfold composedText
  rw [savedComposition_eq]
  simp only [hempty]
  exact ⟨rfl, rfl⟩

/-! Calls that the engine accepts. -/

theorem accepted_editsAs (col : Collaborators) (h : Accepts replies) (e : Editor) :
    (syncAndPass replies e).1.isOk = true ∧
      EditsAs e (publishDisplay col (syncAndPass replies e).2.rememberPendingNativeEcho .kUpdate) ∧
      (publishDisplay col (syncAndPass replies e).2.rememberPendingNativeEcho
        .kUpdate).snapshot.focused = e.snapshot.focused := by
  unfold syncAndPass syncLocked passLocked
  dsimp only
  rw [if_pos h.sync]
  dsimp only
  generalize hsent : (e.output (.sync e.text e.snapshot.cursorUtf16)).output
    (.passText _ _ false _) = sent
  obtain ⟨echoes, total, hremembered⟩ := rememberPendingNativeEcho_eq sent
  obtain ⟨outputs, hpublished⟩ := publishDisplay_outputs col sent.rememberPendingNativeEcho .kUpdate
  rw [hpublished, hremembered, ← hsent]
  exact ⟨h.passText, rfl, rfl⟩

theorem layout_nil (u : Utf8proc) : (layout u []).valid = true := by
  unfold layout
  rw [layoutLoop, if_pos rfl]

theorem composedText_focused (e : Editor) (event : TextEditingEvent) :
    (composedText col e event).snapshot.focused = e.snapshot.focused := by
  unfold composedText
  rw [savedComposition_eq]
  cases event.text.isEmpty <;> rfl

/-- A preedit is refused, or taken, or ends the session. -/
theorem handleTextEditing_cases (col : Collaborators) (replies : Replies) (e : Editor)
    (event : TextEditingEvent) :
    let after := (handleTextEditing col replies e event).1
    after = e ∨ EditsAs (composedText col e event) after ∨ after.compositionActive = false := by
  have hsent := syncAndPass_agrees replies (composedText col e event)
  unfold handleTextEditing replaceCompositionLocked
  split
  · exact .inl rfl
  · split
    · exact .inl rfl
    · split
      · exact .inl rfl
      · generalize syncAndPass replies (composedText col e event) = sent at hsent ⊢
        obtain ⟨status, sent⟩ := sent
        dsimp only at hsent ⊢
        split
        · obtain ⟨echoes, total, hremembered⟩ := rememberPendingNativeEcho_eq sent
          obtain ⟨outputs, hpublished⟩ :=
            publishDisplay_outputs col sent.rememberPendingNativeEcho .kUpdate
          refine .inr (.inl ?_)
          rw [hpublished, hremembered, hsent]
          rfl
        · exact .inr (.inr rfl)

/-- A preedit that the engine accepts is refused or taken. -/
theorem handleTextEditing_accepted (col : Collaborators) (event : TextEditingEvent)
    (h : Accepts replies) (hf : e.snapshot.focused = true) :
    let after := (handleTextEditing col replies e event).1
    after.snapshot.focused = true ∧
      (after = e ∧ (event.text = [] → e.compositionActive = false) ∨
        EditsAs (composedText col e event) after) := by
  unfold handleTextEditing replaceCompositionLocked
  rw [if_neg (by simp [hf])]
  obtain ⟨hok, hedits, hfocused⟩ :=
    accepted_editsAs col h (composedText col e event)
  split
  · next hidle =>
    simp only [Bool.and_eq_true, Bool.not_eq_true'] at hidle
    exact ⟨hf, .inl ⟨rfl, fun _ => hidle.1⟩⟩
  · split
    · next hrefused =>
      refine ⟨hf, .inl ⟨rfl, fun hempty => ?_⟩⟩
      simp [hempty, tooLarge, layout_nil] at hrefused
    · generalize syncAndPass replies (composedText col e event) = sent at hok hedits hfocused ⊢
      obtain ⟨status, sent⟩ := sent
      dsimp only at hok hedits hfocused ⊢
      rw [if_pos hok]
      exact ⟨hfocused.trans ((composedText_focused e event).trans hf), .inr hedits⟩

/-- A preedit that is valid and not too large is taken. -/
theorem handleTextEditing_taken (h : Accepts replies) (hf : e.snapshot.focused = true)
    (hne : event.text ≠ []) (hvalid : (layout col.utf8proc event.text).valid = true)
    (hfits : e.tooLarge (replaceBegin e) (replaceEnd e) event.text = false) :
    EditsAs (composedText col e event) (handleTextEditing col replies e event).1 := by
  obtain ⟨hok, hedits, _⟩ := accepted_editsAs col h (composedText col e event)
  unfold handleTextEditing replaceCompositionLocked
  rw [if_neg (by simp [hf]), if_neg (by simp [hne]), if_neg (by simp [hvalid, hfits])]
  generalize syncAndPass replies (composedText col e event) = sent at hok hedits ⊢
  obtain ⟨status, sent⟩ := sent
  dsimp only at hok hedits ⊢
  rw [if_pos hok]
  exact hedits

theorem preedit_step (col : Collaborators) (h : Accepts replies) (hp : Placed e)
    (hf : e.snapshot.focused = true)
    (hne : event.text ≠ []) :
    let after := (handleTextEditing col replies e event).1
    after.snapshot.focused = true ∧ Placed after ∧ origin after = origin e := by
  have hnonempty : event.text.isEmpty = false := by simpa using hne
  obtain ⟨hfocused, hrefused | htaken⟩ :=
    handleTextEditing_accepted col event h hf
  · rw [hrefused.1]
    exact ⟨hf, hp, rfl⟩
  · obtain ⟨hactive, hcomposing, horigin⟩ := composedText_origin col hp hnonempty
    refine ⟨hfocused, ⟨fun hidle => ?_, fun _ => htaken.composing hcomposing⟩,
      htaken.origin.trans horigin⟩
    rw [htaken.active, hactive] at hidle
    cases hidle

theorem cancel_step (h : Accepts replies) (hp : Placed e) (hf : e.snapshot.focused = true)
    (hempty : event.text = []) :
    selected (handleTextEditing col replies e event).1 = origin e := by
  obtain ⟨_, hidle | htaken⟩ := handleTextEditing_accepted col event h hf
  · have hinactive := hidle.2 hempty
    rw [hidle.1, origin, hinactive]
    rfl
  · exact htaken.selected.trans (composedText_cancel col hp hempty).2

/-- A commit takes the place of what was selected at the origin. -/
theorem commit_step (h : Accepts replies) (hp : Placed e) (hf : e.snapshot.focused = true)
    (hne : s ≠ []) (hvalid : (layout col.utf8proc s).valid = true)
    (hfits : e.tooLarge (replaceBegin e) (replaceEnd e) s = false) :
    selected (handleTextInput col replies e s).1 =
      ⟨splice (origin e).text (origin e).begin (origin e).finish s,
        (origin e).begin + s.length, (origin e).begin + s.length⟩ := by
  have hdone := handleTextInput_accepted col h hf hne hvalid hfits
  obtain ⟨hbegins, hcovers, hinside⟩ := hp.saved
  have hreplaced : splice (e.spliced (replaceBegin e) (replaceEnd e)
      (savedComposition e).compositionReplacedText) (replaceBegin e)
        (replaceBegin e + (savedComposition e).compositionReplacedText.length) s =
          e.spliced (replaceBegin e) (replaceEnd e) s := splice_splice hinside
  rw [← hp.putBack]
  simp only [Selected.begin, Selected.finish, ← hbegins, ← hcovers, hreplaced]
  simp only [selected, hdone.text, hdone.cursor, hdone.anchor]

/-- A sequence of preedits, each with what the sink answers. -/
def preedits (col : Collaborators) (e : Editor)
    (events : List (TextEditingEvent × Replies)) : Editor :=
  events.foldl (fun e event => (handleTextEditing col event.2 e event.1).1) e

theorem preedits_run (col : Collaborators) {events : List (TextEditingEvent × Replies)}
    (hp : Placed e)
    (hf : e.snapshot.focused = true) (h : ∀ event ∈ events, event.1.text ≠ [] ∧ Accepts event.2) :
    (preedits col e events).snapshot.focused = true ∧ Placed (preedits col e events) ∧
      origin (preedits col e events) = origin e := by
  induction events generalizing e with
  | nil => exact ⟨hf, hp, rfl⟩
  | cons event events ih =>
    obtain ⟨hne, haccepts⟩ := h event (List.mem_cons_self ..)
    obtain ⟨hfocused, hplaced, horigin⟩ := preedit_step col haccepts hp hf hne
    obtain ⟨hfocused', hplaced', horigin'⟩ := ih hplaced hfocused fun later hlater =>
      h later (List.mem_cons_of_mem _ hlater)
    exact ⟨hfocused', hplaced', horigin'.trans horigin⟩

/-! The positions in every state, and the origin through every call. -/

theorem publishDisplay_editsAs (col : Collaborators) (e : Editor) (event : DisplayEvent) :
    EditsAs e (publishDisplay col e event) := by
  obtain ⟨outputs, hpublished⟩ := publishDisplay_outputs col e event
  rw [hpublished]
  rfl

theorem publishDisplay_active (e : Editor) (event : DisplayEvent) :
    (publishDisplay col e event).compositionActive = e.compositionActive :=
  (publishDisplay_editsAs col e event).active

theorem clearLocked_idle (e : Editor) : (clearLocked col e).compositionActive = false := rfl

theorem abandonFocus_idle (e : Editor) : (abandonFocus col e).compositionActive = false := rfl

theorem syncAndPass_active (replies : Replies) (e : Editor) :
    (syncAndPass replies e).2.compositionActive = e.compositionActive := by
  rw [syncAndPass_agrees replies e]

theorem replaceLocked_idle (e : Editor) (begin finish : Nat) :
    (replaceLocked col replies e begin finish s).1.compositionActive = false := by
  have hsent := syncAndPass_active replies (editedText col e begin finish s)
  unfold replaceLocked
  generalize syncAndPass replies (editedText col e begin finish s) = sent at hsent ⊢
  obtain ⟨status, sent⟩ := sent
  dsimp only at hsent ⊢
  split
  · obtain ⟨echoes, total, hremembered⟩ := rememberPendingNativeEcho_eq sent
    rw [publishDisplay_active, hremembered]
    exact hsent
  · exact abandonFocus_idle sent

theorem syncCursor_idle (h : e.compositionActive = false) :
    (syncCursor col replies e).1.compositionActive = false := by
  unfold syncCursor syncLocked
  dsimp only
  split
  · exact (publishDisplay_active _ _).trans h
  · exact abandonFocus_idle _

theorem moveCursorLocked_idle (h : e.compositionActive = false) (byteOffset : Nat) (extend : Bool) :
    (moveCursorLocked col replies e byteOffset extend).1.compositionActive = false := by
  unfold moveCursorLocked
  dsimp only
  generalize (if extend = true then e.selectionAnchorByte else byteOffset) = anchor
  split
  · exact h
  · split
    · exact (publishDisplay_active _ _).trans h
    · exact syncCursor_idle h

theorem selectAllLocked_idle (h : e.compositionActive = false) :
    (selectAllLocked col replies e).1.compositionActive = false := by
  unfold selectAllLocked
  dsimp only
  split
  · exact h
  · split
    · exact (publishDisplay_active _ _).trans h
    · exact syncCursor_idle h

theorem copySelectionLocked_idle (h : e.compositionActive = false) (cut : Bool) :
    (copySelectionLocked col replies e cut).1.compositionActive = false := by
  unfold copySelectionLocked
  split
  · exact h
  · dsimp only
    split
    · exact h
    · exact replaceLocked_idle _ _ _

theorem pasteLocked_idle (h : e.compositionActive = false) :
    (pasteLocked col replies e).1.compositionActive = false := by
  unfold pasteLocked
  split
  · exact h
  · dsimp only
    split
    · exact replaceLocked_idle _ _ _
    · exact h

theorem releaseLocked_idle (h : e.compositionActive = false) :
    (releaseLocked col replies e).1.compositionActive = false := by
  unfold releaseLocked
  dsimp only
  split
  · exact h
  · exact clearLocked_idle _

theorem finishLocked_idle (h : e.compositionActive = false) :
    (finishLocked col replies e).1.compositionActive = false := by
  unfold finishLocked finishText syncLocked passLocked
  dsimp only
  split_ifs
  · exact abandonFocus_idle _
  · exact abandonFocus_idle _
  · exact h
  · exact clearLocked_idle _
  · exact abandonFocus_idle _

theorem handleEditKey_idle {key : KeyEvent} (h : e.compositionActive = false) :
    (handleEditKey col replies e key).1.compositionActive = false := by
  unfold handleEditKey
  dsimp only
  split_ifs
  all_goals first
    | exact h
    | exact replaceLocked_idle _ _ _
    | exact moveCursorLocked_idle h _ _
    | exact releaseLocked_idle h
    | exact finishLocked_idle h

theorem handlePressedKey_idle {key : KeyEvent} (h : e.compositionActive = false) :
    (handlePressedKey col replies e key).1.compositionActive = false := by
  unfold handlePressedKey
  dsimp only
  split_ifs
  · exact selectAllLocked_idle h
  · exact copySelectionLocked_idle h false
  · exact pasteLocked_idle h
  · exact copySelectionLocked_idle h true
  · exact handleEditKey_idle h

/-- A call leaves a composition as it is or ends it, unless it is a preedit. -/
def EndsOrKeeps (e e' : Editor) : Prop := e'.compositionActive = false ∨ EditsAs e e'

theorem endsOrKeeps_refl (e : Editor) : EndsOrKeeps e e := .inr rfl

theorem handleKey_endsOrKeeps {key : KeyEvent} :
    EndsOrKeeps e (handleKey col replies e key).1 := by
  unfold handleKey
  dsimp only
  split_ifs with hfocus hrelease hkey hup hshort hactive hactive
  · exact endsOrKeeps_refl e
  · exact .inr rfl
  · exact endsOrKeeps_refl e
  · exact endsOrKeeps_refl e
  · exact .inr rfl
  · exact .inl (handlePressedKey_idle (by simpa using hactive))
  · exact endsOrKeeps_refl e
  · exact .inl (handlePressedKey_idle (by simpa using hactive))

theorem handleTextInput_endsOrKeeps : EndsOrKeeps e (handleTextInput col replies e s).1 := by
  unfold handleTextInput
  split
  · exact endsOrKeeps_refl e
  · split
    · exact endsOrKeeps_refl e
    · split
      · exact endsOrKeeps_refl e
      · exact .inl (replaceLocked_idle _ _ _)

theorem beginFocusSession_endsOrKeeps (session : FocusSession) :
    EndsOrKeeps e (beginFocusSession col e session).1 := by
  unfold beginFocusSession
  split
  · exact endsOrKeeps_refl e
  · split
    · exact endsOrKeeps_refl e
    · split
      · exact endsOrKeeps_refl e
      · exact .inl (publishDisplay_active _ _)

theorem endFocusSession_endsOrKeeps (handle : Int64) (generation : UInt64) (notify : Bool) :
    EndsOrKeeps e (endFocusSession col replies e handle generation notify).1 := by
  unfold endFocusSession
  split
  · exact endsOrKeeps_refl e
  · split
    · exact endsOrKeeps_refl e
    · split
      · exact .inl (clearLocked_idle _)
      · exact .inl (clearLocked_idle _)

theorem replaceFocusedTextFromEngine_endsOrKeeps (generation : UInt64) (text : Bytes) :
    EndsOrKeeps e (replaceFocusedTextFromEngine col e generation text).1 := by
  unfold replaceFocusedTextFromEngine
  split
  · exact endsOrKeeps_refl e
  · split
    · exact endsOrKeeps_refl e
    · split
      · exact .inl (publishDisplay_active _ _)
      · split
        · next echoed hecho =>
          unfold consumePendingNativeEcho at hecho
          split at hecho
          · cases hecho
            exact .inr rfl
          · cases hecho
        · split
          · exact endsOrKeeps_refl e
          · exact .inl (publishDisplay_active _ _)

theorem updateFocusProperties_endsOrKeeps (generation : UInt64) (properties : FocusProperties) :
    EndsOrKeeps e (updateFocusProperties col e generation properties).1 := by
  unfold updateFocusProperties
  split
  · exact endsOrKeeps_refl e
  · refine .inr ?_
    dsimp only
    rw [publishDisplay_editsAs col _ .kUpdate]
    rfl

/-- While a call leaves a composition, it stands as it should, over the same origin. -/
theorem perform_composing (hp : Placed e)
    (hactive : (perform col e call).compositionActive = true) :
    Composing (perform col e call) ∧ origin (perform col e call) = origin e := by
  have hkept : EndsOrKeeps e (perform col e call) →
      Composing (perform col e call) ∧ origin (perform col e call) = origin e := by
    rintro (hidle | hedits)
    · rw [hidle] at hactive
      cases hactive
    · exact ⟨hedits.composing (hp.composition (hedits.active ▸ hactive)), hedits.origin⟩
  obtain ⟨call, replies⟩ := call
  cases call with
  | beginFocusSession session => exact hkept (beginFocusSession_endsOrKeeps session)
  | endFocusSession handle generation notify =>
    exact hkept (endFocusSession_endsOrKeeps handle generation notify)
  | replaceFocusedTextFromEngine generation text =>
    exact hkept (replaceFocusedTextFromEngine_endsOrKeeps generation text)
  | updateFocusProperties generation properties =>
    exact hkept (updateFocusProperties_endsOrKeeps generation properties)
  | handleTextInput text => exact hkept handleTextInput_endsOrKeeps
  | handleKey key => exact hkept handleKey_endsOrKeeps
  | handleTextEditing event =>
    change (handleTextEditing col replies e event).1.compositionActive = true at hactive
    change Composing (handleTextEditing col replies e event).1 ∧
      origin (handleTextEditing col replies e event).1 = origin e
    rcases handleTextEditing_cases col replies e event with hsame | htaken | hidle
    · refine hkept ?_
      change EndsOrKeeps e (handleTextEditing col replies e event).1
      rw [hsame]
      exact endsOrKeeps_refl e
    · cases hempty : event.text.isEmpty with
      | true =>
        have hcancelled := (composedText_cancel col hp (List.isEmpty_iff.1 hempty)).1
        rw [htaken.active, hcancelled] at hactive
        cases hactive
      | false =>
        obtain ⟨_, hcomposing, horigin⟩ := composedText_origin col hp hempty
        exact ⟨htaken.composing hcomposing, htaken.origin.trans horigin⟩
    · rw [hidle] at hactive
      cases hactive

theorem placed_initial : Placed {} := ⟨fun _ => by decide, nofun⟩

/-- Every state the editor reaches is placed, as long as no line break is put into a full text. -/
theorem placed_reachable (hu : col.utf8proc.Faithful)
    (h : ((editorLTS col).restrict NewlineFits).Reachable e) : Placed e := by
  have hboth : Sound e ∧ Placed e := by
    refine LTS.Reachable.invariant (I := fun e => Sound e ∧ Placed e) ?_ ?_ h
    · rintro s rfl
      exact ⟨sound_initial, placed_initial⟩
    · rintro s call t ⟨hs, hn⟩ ⟨hsound, hplaced⟩
      cases hs
      have hafter := sound_step hu hsound hn
      have hmax : kMaximumTextBytes < 2 ^ 64 := by decide
      exact ⟨hafter, ⟨fun _ => ⟨(boundary_max hafter.text).1, hafter.text.size.trans_lt hmax⟩,
        fun hactive => (perform_composing hplaced hactive).1⟩⟩
  exact hboth.2

/-- Preedits lead from reachable states to such. -/
theorem preedits_reachable {events : List (TextEditingEvent × Replies)}
    (h : ((editorLTS col).restrict NewlineFits).Reachable e) :
    ((editorLTS col).restrict NewlineFits).Reachable (preedits col e events) := by
  induction events generalizing e with
  | nil => exact h
  | cons event events ih =>
    have hstep : ((editorLTS col).restrict NewlineFits).step e (.handleTextEditing event.1, event.2)
        (handleTextEditing col event.2 e event.1).1 := ⟨rfl, nofun⟩
    exact ih (h.run (.single hstep))

/-- What fits beside the whole origin fits in place of the preedit. -/
theorem fits_of_origin (hs : Sound e) (h : (origin e).text.length + s.length ≤ kMaximumTextBytes) :
    e.tooLarge (replaceBegin e) (replaceEnd e) s = false := by
  have hsize := hs.text.size
  have hmax : kMaximumTextBytes < 2 ^ 64 := by decide
  cases hactive : e.compositionActive with
  | true =>
    have hc := hs.composition hactive
    have hlength : (restored e).length = e.compositionBeginByte + e.compositionReplacedText.length +
        (e.text.length - e.compositionEndByte) := length_splice hc.begins.1
    have hordered := hc.ordered
    have hends := hc.ends.1
    rw [origin, if_pos hactive] at h
    simp only [hlength] at h
    rw [tooLarge, replaceBegin, replaceEnd, if_pos hactive, if_pos hactive,
      sizeSub_eq hordered (by omega), sizeSub_eq (a := e.text.length) (by omega) (by omega),
      sizeSub_eq (by omega) hmax, decide_eq_false_iff_not]
    omega
  | false =>
    have hordered := selection_ordered e
    have hends := (boundary_max hs.text).1
    rw [origin, if_neg (by simp [hactive])] at h
    simp only [selected] at h
    rw [tooLarge, replaceBegin, replaceEnd, if_neg (by simp [hactive]), if_neg (by simp [hactive]),
      sizeSub_eq hordered (by omega), sizeSub_eq (a := e.text.length) (by omega) (by omega),
      sizeSub_eq (by omega) hmax, decide_eq_false_iff_not]
    omega

/-- Whatever the preedits were, an empty one puts the origin back, and a commit replaces what was
selected there. -/
theorem preedits_cancel_or_commit (col : Collaborators) {events : List (TextEditingEvent × Replies)}
    (hp : Placed e)
    (hf : e.snapshot.focused = true) (h : ∀ event ∈ events, event.1.text ≠ [] ∧ Accepts event.2)
    (haccepts : Accepts replies) :
    (∀ cancel : TextEditingEvent, cancel.text = [] →
      selected (handleTextEditing col replies (preedits col e events) cancel).1 = origin e) ∧
    (∀ s : Bytes, s ≠ [] → (layout col.utf8proc s).valid = true →
      (preedits col e events).tooLarge (replaceBegin (preedits col e events))
        (replaceEnd (preedits col e events)) s = false →
      selected (handleTextInput col replies (preedits col e events) s).1 =
        ⟨splice (origin e).text (origin e).begin (origin e).finish s,
          (origin e).begin + s.length, (origin e).begin + s.length⟩) := by
  obtain ⟨hfocused, hplaced, horigin⟩ := preedits_run col hp hf h
  rw [← horigin]
  exact ⟨fun cancel => cancel_step haccepts hplaced hfocused,
    fun s => commit_step haccepts hplaced hfocused⟩

/-! A selected letter, and two preedits over it. -/

def shiftHomeKey : KeyEvent := { homeKey with modifiers := 1 }

theorem handleKey_shiftHome (h : Accepts replies) (hf : e.snapshot.focused = true)
    (hc : e.compositionActive = false) :
    Resting (handleKey col replies e shiftHomeKey).1 e.text 0 e.selectionAnchorByte := by
  rw [handleKey_edit hf hc rfl rfl rfl, handleEditKey]
  exact moveCursorLocked_accepted h hf hc 0 true

/-- The letter before the mark, selected. -/
def letterSelected : Editor :=
  perform combiningCollaborators letterTyped (.handleKey shiftHomeKey, {})

theorem letterSelected_resting : Resting letterSelected (encode ['e', '\u0301']) 0 1 := by
  have htyped := letterTyped_resting
  have hdone := @handleKey_shiftHome combiningCollaborators _ _ accepts_default htyped.focused
    htyped.noComposition
  rwa [htyped.text, htyped.anchor] at hdone

theorem letterSelected_reachable :
    ((editorLTS combiningCollaborators).restrict NewlineFits).Reachable letterSelected := by
  have hplain (e : Editor) (event : KeyEvent) (replies : Replies)
      (hscan : event.scancode = scancodeHome) : NewlineFits e (.handleKey event, replies) := by
    rintro _ hkey hnewline
    cases hkey
    simp [insertsNewline, hscan, scancodeHome, scancodeReturn, scancodeKpEnter] at hnewline
  refine ⟨_, [(.beginFocusSession (multilineSession [0xCC, 0x81]), {}), (.handleKey homeKey, {}),
    (.handleTextInput [0x65], {}), (.handleKey shiftHomeKey, {})], rfl, ?_⟩
  exact .cons ⟨rfl, fun _ hkey => by cases hkey⟩ (.cons ⟨rfl, hplain _ _ _ rfl⟩
    (.cons ⟨rfl, fun _ hkey => by cases hkey⟩ (.single ⟨rfl, hplain _ _ _ rfl⟩)))

def kanaPreedits : List (TextEditingEvent × Replies) :=
  [({ text := encode ['k'] }, {}), ({ text := encode ['か'] }, {})]

/-- A cancel gives the selected letter back, and a commit takes its place. -/
theorem preedits_cancel_or_commit_selected :
    selected (handleTextEditing combiningCollaborators {}
        (preedits combiningCollaborators letterSelected kanaPreedits) { text := [] }).1 =
      ⟨encode ['e', '\u0301'], 0, 1⟩ ∧
    selected (handleTextInput combiningCollaborators {}
        (preedits combiningCollaborators letterSelected kanaPreedits) (encode ['か'])).1 =
      ⟨encode ['か', '\u0301'], 3, 3⟩ := by
  have hplaced := placed_reachable combiningUtf8proc_faithful letterSelected_reachable
  have hpreedits : ∀ event ∈ kanaPreedits, event.1.text ≠ [] ∧ Accepts event.2 := by
    simp [kanaPreedits, accepts_default, encode]
  have horigin : origin letterSelected = ⟨encode ['e', '\u0301'], 0, 1⟩ := by
    rw [origin, letterSelected_resting.noComposition, selected, letterSelected_resting.text,
      letterSelected_resting.cursor, letterSelected_resting.anchor]
    rfl
  have hreach : ((editorLTS combiningCollaborators).restrict NewlineFits).Reachable
      (preedits combiningCollaborators letterSelected kanaPreedits) :=
    preedits_reachable letterSelected_reachable
  have hsound := editor_sound_reachable combiningUtf8proc_faithful hreach
  have hfits := fits_of_origin (s := encode ['か']) hsound (by
    rw [(preedits_run _ hplaced letterSelected_resting.focused hpreedits).2.2, horigin]
    decide)
  have hvalid := valid_of_wellFormed combiningUtf8proc_faithful ⟨['か'], rfl⟩ (by decide)
  obtain ⟨hcancel, hcommit⟩ := preedits_cancel_or_commit combiningCollaborators hplaced
    letterSelected_resting.focused hpreedits accepts_default
  refine ⟨(hcancel { text := [] } rfl).trans horigin, ?_⟩
  refine (hcommit (encode ['か']) (by decide) hvalid hfits).trans ?_
  rw [horigin]
  rfl

/-! A letter composed in an empty text. -/

def emptyFocused : Editor :=
  perform combiningCollaborators {} (.beginFocusSession (multilineSession []), {})

def letterA : TextEditingEvent := { text := [0x61] }

def letterComposed : Editor := (handleTextEditing combiningCollaborators {} emptyFocused letterA).1

theorem emptyFocused_resting : Resting emptyFocused [] 0 0 := by
  obtain ⟨outputs, hopened⟩ := beginFocusSession_multiline
    (show combiningCollaborators.utf8proc.Faithful from combiningUtf8proc_faithful) rfl
    wellFormed_nil (by decide)
  rw [emptyFocused, hopened]
  exact ⟨rfl, rfl, rfl, rfl, rfl⟩

theorem Resting.placed_empty (h : Resting e [] 0 0) : Placed e := by
  refine ⟨fun _ => ?_, fun hactive => ?_⟩
  · rw [selectionEnd, h.cursor, h.anchor, h.text]
    decide
  · rw [h.noComposition] at hactive
    cases hactive

theorem letterComposed_text :
    letterComposed.snapshot.focused = true ∧ letterComposed.text = [0x61] := by
  have hempty := emptyFocused_resting
  have hletter : WellFormed [0x61] := ⟨['a'], by decide⟩
  have hvalid := valid_of_wellFormed combiningUtf8proc_faithful hletter (by decide)
  unfold letterComposed
  generalize emptyFocused = e at hempty ⊢
  have hrange : replaceBegin e = 0 ∧ replaceEnd e = 0 := by
    simp [replaceBegin, replaceEnd, selectionBegin, selectionEnd, hempty.noComposition,
      hempty.cursor, hempty.anchor]
  have hfits : e.tooLarge (replaceBegin e) (replaceEnd e) letterA.text = false := by
    rw [hrange.1, hrange.2, tooLarge, hempty.text]
    decide
  have htaken : EditsAs (composedText combiningCollaborators e letterA) _ :=
    handleTextEditing_taken accepts_default hempty.focused (by simp [letterA]) hvalid hfits
  refine ⟨(handleTextEditing_accepted _ _ accepts_default hempty.focused).1, ?_⟩
  rw [htaken]
  change e.spliced (replaceBegin e) (replaceEnd e) [0x61] = [0x61]
  rw [hrange.1, hrange.2, spliced, hempty.text]
  rfl

theorem letterComposed_cancel :
    selected (handleTextEditing combiningCollaborators {} letterComposed { text := [] }).1 =
      ⟨[], 0, 0⟩ := by
  have hempty := emptyFocused_resting
  obtain ⟨hfocused, hplaced, horigin⟩ := preedit_step combiningCollaborators accepts_default
    hempty.placed_empty hempty.focused (show letterA.text ≠ [] by simp [letterA])
  refine (cancel_step accepts_default hplaced hfocused rfl).trans (horigin.trans ?_)
  rw [origin, hempty.noComposition]
  simp [selected, hempty.text, hempty.cursor, hempty.anchor]

/-- Committing nothing, or no UTF-8, leaves the letter; and cancelling from a state with the letter
in it takes the letter away. -/
theorem letterComposed_left :
    (editorLTS combiningCollaborators).Reachable letterComposed ∧
      letterComposed.snapshot.focused = true ∧ letterComposed.text = [0x61] ∧
      (handleTextInput combiningCollaborators {} letterComposed []).1.text = [0x61] ∧
      (handleTextInput combiningCollaborators {} letterComposed [0xFF]).1.text = [0x61] ∧
      (handleTextEditing combiningCollaborators {} letterComposed { text := [] }).1.text = [] := by
  obtain ⟨hfocused, htext⟩ := letterComposed_text
  refine ⟨⟨_, [(.beginFocusSession (multilineSession []), {}), (.handleTextEditing letterA, {})],
    rfl, .cons rfl (.single rfl)⟩, hfocused, htext, ?_, ?_,
      congrArg Selected.text letterComposed_cancel⟩
  · simp [handleTextInput, hfocused, htext]
  · have hinvalid : (layout combiningCollaborators.utf8proc [0xFF]).valid = false := by
      unfold layout
      rw [layoutLoop]
      decide
    simp [handleTextInput, hfocused, hinvalid, htext]

end Nightcap.Text
