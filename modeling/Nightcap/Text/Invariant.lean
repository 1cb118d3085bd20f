import Nightcap.Lib.Transition
import Nightcap.Text.Editor

/-! What every operation of the text editor keeps. -/
namespace Nightcap.Text

open Utf8 Transition Editor

variable {col : Collaborators} {replies : Replies} {e e' : Editor} {begin finish : Nat}
  {replacement text : Bytes}

structure TextSound (e : Editor) : Prop where
  wellFormed : WellFormed e.text
  size : e.text.length ≤ kMaximumTextBytes
  cursor : Boundary e.text e.cursorByte
  anchor : Boundary e.text e.selectionAnchorByte

/-- The text with what the composition covers put back. -/
def restored (e : Editor) : Bytes :=
  e.spliced e.compositionBeginByte e.compositionEndByte e.compositionReplacedText

structure CompositionSound (e : Editor) : Prop where
  begins : Boundary e.text e.compositionBeginByte
  ends : Boundary e.text e.compositionEndByte
  ordered : e.compositionBeginByte ≤ e.compositionEndByte
  wellFormed : WellFormed (restored e)
  size : (restored e).length ≤ kMaximumTextBytes
  cursor : Boundary (restored e) e.compositionOriginalCursorByte
  anchor : Boundary (restored e) e.compositionOriginalAnchorByte

structure SnapshotSound (e : Editor) : Prop where
  cursor : HasUtf16Length (e.text.take e.cursorByte) e.snapshot.cursorUtf16
  selectionBegin : HasUtf16Length (e.text.take e.selectionBegin) e.snapshot.selectionBeginUtf16
  selectionEnd : HasUtf16Length (e.text.take e.selectionEnd) e.snapshot.selectionEndUtf16

structure EchoSound (e : Editor) : Prop where
  count : e.pendingNativeEchoes.length ≤ kMaximumPendingNativeEchoes
  total : e.pendingNativeEchoBytes = (e.pendingNativeEchoes.map List.length).sum
  size : e.pendingNativeEchoBytes ≤ kMaximumTextBytes

/-- Nothing is left of a session: no text, echo, composition, shortcut or position. -/
def Blank (e : Editor) : Prop :=
  e = {
    snapshot :=
      { committedEdits := e.snapshot.committedEdits, nativeErrors := e.snapshot.nativeErrors }
    outputs := e.outputs }

structure Sound (e : Editor) : Prop where
  text : TextSound e
  composition : e.compositionActive = true → CompositionSound e
  snapshot : SnapshotSound e
  echoes : EchoSound e
  unfocused : e.snapshot.focused = false → Blank e

/-- The two editors differ in calls made and counters at most. -/
def Agrees (e e' : Editor) : Prop :=
  e' = { e with
    outputs := e'.outputs
    snapshot := { e.snapshot with
      committedEdits := e'.snapshot.committedEdits
      nativeErrors := e'.snapshot.nativeErrors } }

theorem Sound.agrees (h : Sound e) (ha : Agrees e e') : Sound e' := by
  rw [ha]
  exact ⟨⟨h.text.1, h.text.2, h.text.3, h.text.4⟩,
    fun hc => let ⟨h₁, h₂, h₃, h₄, h₅, h₆, h₇⟩ := h.composition hc; ⟨h₁, h₂, h₃, h₄, h₅, h₆, h₇⟩,
    ⟨h.snapshot.1, h.snapshot.2, h.snapshot.3⟩, ⟨h.echoes.1, h.echoes.2, h.echoes.3⟩,
    fun hf => by rw [h.unfocused hf]; rfl⟩

/-- The properties and the shortcuts of a focused editor are independent of the rest. -/
theorem Sound.withSession {session : FocusSession} {bits : UInt32} (h : Sound e)
    (hf : e.snapshot.focused = true) :
    Sound { e with session := session, activeShortcuts := bits } where
  text := ⟨h.text.1, h.text.2, h.text.3, h.text.4⟩
  composition hc :=
    let ⟨h₁, h₂, h₃, h₄, h₅, h₆, h₇⟩ := h.composition hc; ⟨h₁, h₂, h₃, h₄, h₅, h₆, h₇⟩
  snapshot := ⟨h.snapshot.1, h.snapshot.2, h.snapshot.3⟩
  echoes := ⟨h.echoes.1, h.echoes.2, h.echoes.3⟩
  unfocused h' := by simp [hf] at h'

theorem publishDisplay_agrees (e : Editor) (event : DisplayEvent) :
    Agrees e (publishDisplay col e event) := by
  unfold publishDisplay
  split
  · rfl
  · split <;> rfl

theorem Sound.publish (h : Sound e) (event : DisplayEvent) : Sound (publishDisplay col e event) :=
  h.agrees (publishDisplay_agrees e event)

theorem Sound.output (h : Sound e) (o : Output) : Sound (e.output o) := h.agrees rfl

theorem echoSound_nil (h : e.pendingNativeEchoes = []) (ht : e.pendingNativeEchoBytes = 0) :
    EchoSound e := ⟨by simp [h], by simp [h, ht], by simp [ht]⟩

/-- A blank text with everything at its start. -/
theorem sound_cleared (e : Editor) : Sound (clearLocked col e) where
  text := ⟨wellFormed_nil, Nat.zero_le _, boundary_zero _, boundary_zero _⟩
  composition := nofun
  snapshot := ⟨hasUtf16Length_nil, hasUtf16Length_nil, hasUtf16Length_nil⟩
  echoes := echoSound_nil rfl rfl
  unfocused _ := rfl

theorem sound_abandoned (e : Editor) : Sound (abandonFocus col e) := sound_cleared _

theorem boundary_min (h : TextSound e) : Boundary e.text e.selectionBegin := by
  unfold selectionBegin
  rcases Nat.le_total e.cursorByte e.selectionAnchorByte with hle | hle
  · rw [Nat.min_eq_left hle]
    exact h.cursor
  · rw [Nat.min_eq_right hle]
    exact h.anchor

theorem boundary_max (h : TextSound e) : Boundary e.text e.selectionEnd := by
  unfold selectionEnd
  rcases Nat.le_total e.cursorByte e.selectionAnchorByte with hle | hle
  · rw [Nat.max_eq_right hle]
    exact h.anchor
  · rw [Nat.max_eq_left hle]
    exact h.cursor

theorem selection_ordered (e : Editor) : e.selectionBegin ≤ e.selectionEnd := by
  unfold selectionBegin selectionEnd
  omega

/-- Once the UTF-16 positions are recomputed only the rest has to hold. -/
theorem sound_updated (hu : col.utf8proc.Faithful) (ht : TextSound e)
    (hc : e.compositionActive = true → CompositionSound e) (he : EchoSound e)
    (hf : e.snapshot.focused = true) : Sound (updateSelectionSnapshot col e) where
  text := ⟨ht.1, ht.2, ht.3, ht.4⟩
  composition h := let ⟨h₁, h₂, h₃, h₄, h₅, h₆, h₇⟩ := hc h; ⟨h₁, h₂, h₃, h₄, h₅, h₆, h₇⟩
  snapshot :=
    have hbegin : Boundary e.text e.selectionBegin := boundary_min ht
    have hend : Boundary e.text e.selectionEnd := boundary_max ht
    ⟨utf16Cursor_spec hu ht.cursor, utf16Cursor_spec hu hbegin, utf16Cursor_spec hu hend⟩
  echoes := ⟨he.1, he.2, he.3⟩
  unfocused h := by simp [updateSelectionSnapshot, hf] at h

/-! Echoes. -/

theorem sizeSub_eq {a b : Nat} (hb : b ≤ a) (ha : a < 2 ^ 64) : sizeSub a b = a - b := by
  unfold sizeSub
  omega

theorem trimEchoes_spec {size : Nat} {echoes : List Bytes} {total : Nat}
    (ht : total = (echoes.map List.length).sum) (hm : total ≤ kMaximumTextBytes)
    (hs : size ≤ kMaximumTextBytes) :
    let r := trimEchoes size echoes total
    r.1.length < kMaximumPendingNativeEchoes ∧ r.2 = (r.1.map List.length).sum ∧
      r.2 + size ≤ kMaximumTextBytes := by
  have hmax : kMaximumTextBytes < 2 ^ 64 := by decide
  induction echoes generalizing total with
  | nil =>
    obtain rfl : total = 0 := by simpa using ht
    exact ⟨by simp [trimEchoes, kMaximumPendingNativeEchoes], rfl, by simpa [trimEchoes] using hs⟩
  | cons echo echoes ih =>
    simp only [List.map_cons, List.sum_cons] at ht
    unfold trimEchoes
    split
    · have hsub : sizeSub total echo.length = (echoes.map List.length).sum := by
        rw [sizeSub_eq (by omega) (by omega)]
        omega
      rw [hsub]
      exact ih rfl (by omega)
    · next h =>
      rw [not_or, sizeSub_eq hs hmax] at h
      refine ⟨?_, ?_, ?_⟩
      · dsimp only
        omega
      · simpa using ht
      · dsimp only
        omega

theorem remember_echoSound (h : EchoSound e) (hs : e.text.length ≤ kMaximumTextBytes) :
    EchoSound e.rememberPendingNativeEcho := by
  unfold rememberPendingNativeEcho
  split
  · exact h
  · obtain ⟨hcount, htotal, hsize⟩ := trimEchoes_spec h.total h.size hs
    have hmax : kMaximumTextBytes < 2 ^ 64 := by decide
    have hmod : ((trimEchoes e.text.length e.pendingNativeEchoes e.pendingNativeEchoBytes).2 +
        e.text.length) % 2 ^ 64 = (trimEchoes e.text.length e.pendingNativeEchoes
          e.pendingNativeEchoBytes).2 + e.text.length := Nat.mod_eq_of_lt (by omega)
    constructor
    · simpa using hcount
    · dsimp only
      rw [hmod, htotal]
      simp
    · dsimp only
      omega

/-- The echoes of a focused editor are independent of the rest. -/
theorem Sound.withEchoes {echoes : List Bytes} {total : Nat} (h : Sound e)
    (hf : e.snapshot.focused = true)
    (he : EchoSound { e with pendingNativeEchoes := echoes, pendingNativeEchoBytes := total }) :
    Sound { e with pendingNativeEchoes := echoes, pendingNativeEchoBytes := total } where
  text := ⟨h.text.1, h.text.2, h.text.3, h.text.4⟩
  composition hc :=
    let ⟨h₁, h₂, h₃, h₄, h₅, h₆, h₇⟩ := h.composition hc; ⟨h₁, h₂, h₃, h₄, h₅, h₆, h₇⟩
  snapshot := ⟨h.snapshot.1, h.snapshot.2, h.snapshot.3⟩
  echoes := he
  unfocused h' := by simp [hf] at h'

theorem Sound.remember (h : Sound e) (hf : e.snapshot.focused = true) :
    Sound e.rememberPendingNativeEcho := by
  have he := remember_echoSound h.echoes h.text.size
  unfold rememberPendingNativeEcho at he ⊢
  split
  · exact h
  · next hlast =>
    rw [if_neg hlast] at he
    exact h.withEchoes hf he

theorem consume_sound (h : Sound e) (hf : e.snapshot.focused = true)
    (hc : e.consumePendingNativeEcho text = some e') : Sound e' := by
  unfold consumePendingNativeEcho at hc
  split at hc
  · next hm =>
    cases hc
    have hmax : kMaximumTextBytes < 2 ^ 64 := by decide
    have hsum := ((List.perm_cons_erase hm).map List.length).sum_eq
    rw [List.map_cons, List.sum_cons, ← h.echoes.total] at hsum
    have hsize := h.echoes.size
    have hsub : sizeSub e.pendingNativeEchoBytes text.length =
        ((e.pendingNativeEchoes.erase text).map List.length).sum := by
      rw [sizeSub_eq (by omega) (by omega)]
      omega
    refine h.withEchoes hf ⟨?_, hsub, ?_⟩
    · exact (List.length_erase_le).trans h.echoes.count
    · dsimp only
      rw [hsub]
      omega
  · cases hc

/-! Edits. -/

/-- The size check, where its unsigned arithmetic is exact. -/
theorem fits_of_not_tooLarge (hs : e.text.length ≤ kMaximumTextBytes) (hle : begin ≤ finish)
    (hfin : finish ≤ e.text.length) (h : e.tooLarge begin finish replacement = false) :
    begin + replacement.length + (e.text.length - finish) ≤ kMaximumTextBytes := by
  have hmax : kMaximumTextBytes < 2 ^ 64 := by decide
  rw [tooLarge, sizeSub_eq hle (by omega), sizeSub_eq (a := e.text.length) (by omega) (by omega),
    sizeSub_eq (by omega) hmax, decide_eq_false_iff_not] at h
  omega

/-- An edit of a sound text that fits. -/
structure Edit (e : Editor) (begin finish : Nat) (replacement : Bytes) : Prop where
  begins : Boundary e.text begin
  ends : Boundary e.text finish
  wellFormed : WellFormed replacement
  fits : begin + replacement.length + (e.text.length - finish) ≤ kMaximumTextBytes

theorem Edit.textSound (h : Edit e begin finish replacement) (hw : WellFormed e.text) :
    WellFormed (e.spliced begin finish replacement) ∧
      (e.spliced begin finish replacement).length ≤ kMaximumTextBytes ∧
      Boundary (e.spliced begin finish replacement) (begin + replacement.length) := by
  refine ⟨hw.splice h.begins h.ends h.wellFormed, ?_, h.begins.splice h.wellFormed.take_length⟩
  rw [spliced, length_splice h.begins.1]
  exact h.fits

theorem syncAndPass_agrees (replies : Replies) (e : Editor) :
    Agrees e (syncAndPass replies e).2 := by
  unfold syncAndPass syncLocked
  dsimp only
  split <;> rfl

theorem replaceLocked_sound (hu : col.utf8proc.Faithful) (h : Sound e)
    (hf : e.snapshot.focused = true) (hedit : Edit e begin finish replacement) :
    Sound (replaceLocked col replies e begin finish replacement).1 := by
  obtain ⟨hw, hsize, hb⟩ := hedit.textSound h.text.wellFormed
  have hedited : Sound (editedText col e begin finish replacement) :=
    sound_updated hu ⟨hw, hsize, hb, hb⟩ nofun ⟨h.echoes.1, h.echoes.2, h.echoes.3⟩ hf
  have ha := syncAndPass_agrees replies (editedText col e begin finish replacement)
  have hsent := hedited.agrees ha
  have hfocus :
      (syncAndPass replies (editedText col e begin finish replacement)).2.snapshot.focused =
      true := by
    rw [ha]
    exact hf
  unfold replaceLocked
  generalize syncAndPass replies (editedText col e begin finish replacement) = r at hsent hfocus
  obtain ⟨status, sent⟩ := r
  dsimp only at hsent hfocus ⊢
  split
  · refine Sound.publish ?_ _
    exact (hsent.remember hfocus).agrees rfl
  · exact sound_abandoned _

/-- The range a text event replaces is a range of the text. -/
theorem replaceRange (h : Sound e) : Boundary e.text (replaceBegin e) ∧
    Boundary e.text (replaceEnd e) ∧ replaceBegin e ≤ replaceEnd e := by
  unfold replaceBegin replaceEnd
  cases hc : e.compositionActive with
  | true =>
    have hcomp := h.composition hc
    exact ⟨hcomp.begins, hcomp.ends, hcomp.ordered⟩
  | false => exact ⟨boundary_min h.text, boundary_max h.text, selection_ordered e⟩

/-- The covered text put back gives a sound text that the saved positions belong to. -/
theorem saved_sound (h : Sound e) :
    let back :=
      e.spliced (replaceBegin e) (replaceEnd e) (savedComposition e).compositionReplacedText
    WellFormed back ∧ back.length ≤ kMaximumTextBytes ∧
      Boundary back (savedComposition e).compositionOriginalCursorByte ∧
      Boundary back (savedComposition e).compositionOriginalAnchorByte := by
  obtain ⟨_, hend, hle⟩ := replaceRange h
  cases hc : e.compositionActive with
  | true =>
    have hcomp := h.composition hc
    simp only [savedComposition, replaceBegin, replaceEnd, hc, if_true]
    exact ⟨hcomp.wellFormed, hcomp.size, hcomp.cursor, hcomp.anchor⟩
  | false =>
    have hmax : kMaximumTextBytes < 2 ^ 64 := by decide
    have hsize := h.text.size
    have hfin := hend.1
    have hback : e.spliced (replaceBegin e) (replaceEnd e)
        (savedComposition e).compositionReplacedText = e.text := by
      simp only [savedComposition, hc, spliced]
      rw [sizeSub_eq hle (by omega)]
      exact splice_slice hle
    simp only [hback]
    simp only [savedComposition, hc]
    exact ⟨h.text.wellFormed, hsize, h.text.cursor, h.text.anchor⟩

theorem savedComposition_eq (e : Editor) : savedComposition e =
    { e with
      compositionOriginalCursorByte := (savedComposition e).compositionOriginalCursorByte
      compositionOriginalAnchorByte := (savedComposition e).compositionOriginalAnchorByte
      compositionReplacedText := (savedComposition e).compositionReplacedText } := by
  unfold savedComposition
  split <;> rfl

theorem composedText_sound (hu : col.utf8proc.Faithful) (h : Sound e)
    (hf : e.snapshot.focused = true)
    {event : TextEditingEvent} (hw : WellFormed event.text)
    (hfits : replaceBegin e + event.text.length + (e.text.length - replaceEnd e) ≤
      kMaximumTextBytes) :
    Sound (composedText col e event) ∧ (composedText col e event).snapshot.focused = true := by
  obtain ⟨hbegin, hend, _⟩ := replaceRange h
  obtain ⟨hback, hsize, hcursor, hanchor⟩ := saved_sound h
  obtain ⟨htext, htextSize, hlast⟩ := Edit.textSound ⟨hbegin, hend, hw, hfits⟩ h.text.wellFormed
  have hfirst : Boundary (e.spliced (replaceBegin e) (replaceEnd e) event.text) (replaceBegin e) :=
    hbegin.splice (boundary_zero _)
  have hcaret : Boundary (e.spliced (replaceBegin e) (replaceEnd e) event.text)
      (replaceBegin e + utf8CharacterByteOffset col.utf8proc event.text event.start) :=
    hbegin.splice (utf8CharacterByteOffset_boundary hu hw event.start)
  unfold composedText
  rw [savedComposition_eq]
  generalize (savedComposition e).compositionReplacedText = replaced at *
  generalize (savedComposition e).compositionOriginalCursorByte = cursor at *
  generalize (savedComposition e).compositionOriginalAnchorByte = anchor at *
  cases hcancel : event.text.isEmpty with
  | true =>
    exact ⟨sound_updated hu ⟨hback, hsize, hcursor, hanchor⟩ nofun
      ⟨h.echoes.1, h.echoes.2, h.echoes.3⟩ hf, hf⟩
  | false =>
    refine ⟨sound_updated hu ⟨htext, htextSize, hcaret, hcaret⟩ (fun _ => ?_)
      ⟨h.echoes.1, h.echoes.2, h.echoes.3⟩ hf, hf⟩
    have hrestored : splice (e.spliced (replaceBegin e) (replaceEnd e) event.text) (replaceBegin e)
        (replaceBegin e + event.text.length) replaced =
          e.spliced (replaceBegin e) (replaceEnd e) replaced := splice_splice hbegin.1
    rw [← hrestored] at hback hsize hcursor hanchor
    exact ⟨hfirst, hlast, Nat.le_add_right _ _, hback, hsize, hcursor, hanchor⟩

theorem replaceCompositionLocked_sound (hu : col.utf8proc.Faithful) (h : Sound e)
    (hf : e.snapshot.focused = true) (event : TextEditingEvent) :
    Sound (replaceCompositionLocked col replies e event).1 := by
  unfold replaceCompositionLocked
  split
  · exact h
  · split
    · exact h
    · next hok =>
      simp only [Bool.or_eq_true, Bool.not_eq_true', not_or, Bool.not_eq_false,
        Bool.not_eq_true] at hok
      obtain ⟨hbegin, hend, hle⟩ := replaceRange h
      obtain ⟨hcomposed, hfocus⟩ := composedText_sound hu h hf
        (wellFormed_of_valid hu hok.1) (fits_of_not_tooLarge h.text.size hle hend.1 hok.2)
      have ha := syncAndPass_agrees replies (composedText col e event)
      have hsent := hcomposed.agrees ha
      have hfocus' :
          (syncAndPass replies (composedText col e event)).2.snapshot.focused = true := by
        rw [ha]
        exact hfocus
      generalize syncAndPass replies (composedText col e event) = r at hsent hfocus'
      obtain ⟨status, sent⟩ := r
      dsimp only at hsent hfocus' ⊢
      split
      · exact (hsent.remember hfocus').publish _
      · exact sound_abandoned _

/-! Cursor, clipboard and the end of a session. -/

theorem syncCursor_sound (h : Sound e) : Sound (syncCursor col replies e).1 := by
  unfold syncCursor syncLocked
  dsimp only
  split
  · exact (h.output _).publish _
  · exact sound_abandoned _

/-- A new selection of a sound text. -/
theorem selection_sound {cursor anchor : Nat} (hu : col.utf8proc.Faithful) (h : Sound e)
    (hf : e.snapshot.focused = true) (hc : Boundary e.text cursor) (ha : Boundary e.text anchor) :
    Sound (updateSelectionSnapshot col { e with
      cursorByte := cursor, selectionAnchorByte := anchor }) :=
  sound_updated hu ⟨h.text.wellFormed, h.text.size, hc, ha⟩
    (fun hactive => let ⟨h₁, h₂, h₃, h₄, h₅, h₆, h₇⟩ := h.composition hactive
      ⟨h₁, h₂, h₃, h₄, h₅, h₆, h₇⟩)
    ⟨h.echoes.1, h.echoes.2, h.echoes.3⟩ hf

theorem moveCursorLocked_sound {byteOffset : Nat} (hu : col.utf8proc.Faithful) (h : Sound e)
    (hf : e.snapshot.focused = true) (hb : Boundary e.text byteOffset) (extend : Bool) :
    Sound (moveCursorLocked col replies e byteOffset extend).1 := by
  have ha : Boundary e.text (if extend then e.selectionAnchorByte else byteOffset) := by
    cases extend with
    | true => exact h.text.anchor
    | false => exact hb
  have hmoved := selection_sound hu h hf hb ha
  unfold moveCursorLocked
  dsimp only
  generalize (if extend = true then e.selectionAnchorByte else byteOffset) = anchor at hmoved ⊢
  split
  · next hsame =>
    rw [hsame.1, hsame.2]
    exact h
  · split
    · exact hmoved.publish _
    · exact syncCursor_sound hmoved

theorem selectAllLocked_sound (hu : col.utf8proc.Faithful) (h : Sound e)
    (hf : e.snapshot.focused = true) : Sound (selectAllLocked col replies e).1 := by
  have hselected := selection_sound hu h hf h.text.wellFormed.take_length (boundary_zero e.text)
  unfold selectAllLocked
  dsimp only
  split
  · next hsame =>
    rw [hsame.1, hsame.2]
    exact h
  · split
    · exact hselected.publish _
    · exact syncCursor_sound hselected

/-- Deleting a range. -/
theorem edit_delete (h : Sound e) (hb : Boundary e.text begin) (hend : Boundary e.text finish)
    (hle : begin ≤ finish) : Edit e begin finish [] where
  begins := hb
  ends := hend
  wellFormed := wellFormed_nil
  fits := by
    have hsize := h.text.size
    have hfin := hend.1
    simp only [List.length_nil]
    omega

theorem deleteSelection_sound (hu : col.utf8proc.Faithful) (h : Sound e)
    (hf : e.snapshot.focused = true) :
    Sound (replaceLocked col replies e e.selectionBegin e.selectionEnd []).1 :=
  replaceLocked_sound hu h hf
    (edit_delete h (boundary_min h.text) (boundary_max h.text) (selection_ordered e))

theorem copySelectionLocked_sound (hu : col.utf8proc.Faithful) (h : Sound e)
    (hf : e.snapshot.focused = true) (cut : Bool) :
    Sound (copySelectionLocked col replies e cut).1 := by
  unfold copySelectionLocked
  split
  · exact h
  · dsimp only
    split
    · exact h.output _
    · exact deleteSelection_sound hu (h.output _) hf

theorem pasteLocked_sound (hu : col.utf8proc.Faithful) (h : Sound e)
    (hf : e.snapshot.focused = true) : Sound (pasteLocked col replies e).1 := by
  unfold pasteLocked
  split
  · exact h
  · dsimp only
    split
    · next hok =>
      simp only [Bool.and_eq_true, Bool.not_eq_true'] at hok
      have hbegin := boundary_min h.text
      have hend := boundary_max h.text
      exact replaceLocked_sound hu (h.output _) hf ⟨hbegin, hend, wellFormed_of_valid hu hok.2,
        fits_of_not_tooLarge h.text.size (selection_ordered e) hend.1 hok.1.2⟩
    · exact h.output _

theorem finishLocked_sound (h : Sound e) : Sound (finishLocked col replies e).1 := by
  unfold finishLocked syncLocked
  dsimp only
  split
  · exact sound_abandoned _
  · split
    · exact sound_abandoned _
    · split
      · exact (h.output _).output _
      · unfold finishText passLocked
        dsimp only
        split
        · exact sound_cleared _
        · exact sound_abandoned _

theorem releaseLocked_sound (h : Sound e) : Sound (releaseLocked col replies e).1 := by
  unfold releaseLocked
  dsimp only
  split
  · exact (h.output _).agrees rfl
  · exact sound_cleared _

/-! The public operations. -/

theorem installSession_sound (hu : col.utf8proc.Faithful) (h : EchoSound e) {session : FocusSession}
    (hw : WellFormed session.initialText) (hsize : session.initialText.length ≤ kMaximumTextBytes) :
    Sound (installSession col e session) :=
  sound_updated hu ⟨hw, hsize, hw.take_length, hw.take_length⟩ nofun ⟨h.1, h.2, h.3⟩ rfl

theorem beginFocusSession_sound (hu : col.utf8proc.Faithful) (h : Sound e)
    (session : FocusSession) :
    Sound (beginFocusSession col e session).1 := by
  unfold beginFocusSession
  split
  · exact h
  · split
    · exact h
    · next hok =>
      rw [not_or, Bool.not_eq_false, Nat.not_lt] at hok
      split
      · exact h
      · dsimp only
        refine Sound.publish (installSession_sound hu ?_ (wellFormed_of_valid hu hok.2) hok.1) _
        split
        · exact (sound_cleared e).echoes
        · exact h.echoes

theorem endFocusSession_sound (h : Sound e) (handle : Int64) (generation : UInt64) (notify : Bool) :
    Sound (endFocusSession col replies e handle generation notify).1 := by
  unfold endFocusSession
  split
  · exact h
  · split
    · exact h
    · split
      · exact sound_cleared _
      · exact sound_cleared _

theorem authoritativeText_sound (hu : col.utf8proc.Faithful) (h : EchoSound e)
    (hf : e.snapshot.focused = true) (hw : WellFormed text)
    (hsize : text.length ≤ kMaximumTextBytes) :
    Sound (authoritativeText col e text) := by
  refine Sound.publish ?_ _
  exact sound_updated hu ⟨hw, hsize, hw.take_length, hw.take_length⟩ nofun ⟨h.1, h.2, h.3⟩ hf

theorem replaceFocusedTextFromEngine_sound (hu : col.utf8proc.Faithful) (h : Sound e)
    (generation : UInt64) (text : Bytes) :
    Sound (replaceFocusedTextFromEngine col e generation text).1 := by
  unfold replaceFocusedTextFromEngine
  split
  · exact h
  · next hfocus =>
    have hf : e.snapshot.focused = true := by simp_all
    split
    · exact h
    · next hok =>
      rw [not_or, Bool.not_eq_false, Nat.not_lt] at hok
      split
      · exact authoritativeText_sound hu (echoSound_nil rfl rfl) hf wellFormed_nil (Nat.zero_le _)
      · split
        · next hc => exact consume_sound h hf hc
        · split
          · exact h
          · exact authoritativeText_sound hu h.echoes hf (wellFormed_of_valid hu hok.2) hok.1

theorem updateFocusProperties_sound (h : Sound e) (generation : UInt64)
    (properties : FocusProperties) :
    Sound (updateFocusProperties col e generation properties).1 := by
  unfold updateFocusProperties
  split
  · exact h
  · next hfocus => exact (h.withSession (by simp_all)).publish _

theorem handleTextInput_sound (hu : col.utf8proc.Faithful) (h : Sound e) (text : Bytes) :
    Sound (handleTextInput col replies e text).1 := by
  unfold handleTextInput
  split
  · exact h
  · next hfocus =>
    split
    · exact h
    · split
      · exact h
      · next hok =>
        simp only [Bool.or_eq_true, Bool.not_eq_true', not_or, Bool.not_eq_false,
          Bool.not_eq_true] at hok
        obtain ⟨hbegin, hend, hle⟩ := replaceRange h
        exact replaceLocked_sound hu h (by simpa using hfocus) ⟨hbegin, hend,
          wellFormed_of_valid hu hok.1, fits_of_not_tooLarge h.text.size hle hend.1 hok.2⟩

theorem handleTextEditing_sound (hu : col.utf8proc.Faithful) (h : Sound e)
    (event : TextEditingEvent) :
    Sound (handleTextEditing col replies e event).1 := by
  unfold handleTextEditing
  split
  · exact h
  · next hfocus => exact replaceCompositionLocked_sound hu h (by simpa using hfocus) event

end Nightcap.Text
