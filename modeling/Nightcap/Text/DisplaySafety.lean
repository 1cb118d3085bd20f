import Nightcap.Text.DisplayState

/-! The overlay's caret and selection stand between code points, and a password shows its width
only. -/
namespace Nightcap.Text

open Utf8 Transition Editor

variable {u : Utf8proc} {cs ds : List Char} {text rest : Bytes} {target byte utf16 count n k : Nat}
  {cursor : Int32} {update update' : RobloxTextDisplayUpdate} {viewport : RobloxTextOverlayViewport}
  {shown : RobloxTextOverlayPresentation}

/-- The UTF-16 width of each code point. -/
def widths (cs : List Char) : List Nat := cs.map fun c => unitsOf c.toNat

/-- How many of the widths fit into a budget, from the first on. -/
def fitting : Nat → List Nat → Nat
  | _, [] => 0
  | budget, w :: ws => if w > budget then 0 else fitting (budget - w) ws + 1

theorem fitting_le (budget : Nat) (ws : List Nat) : fitting budget ws ≤ ws.length := by
  induction ws generalizing budget with
  | nil => exact le_rfl
  | cons w ws ih =>
    rw [fitting]
    split
    · exact Nat.zero_le _
    · exact Nat.succ_le_succ (ih _)

theorem unitsOf_pos (codepoint : Nat) : 0 < unitsOf codepoint := by
  unfold unitsOf
  split <;> decide

/-- The width of a prefix is a budget for exactly that prefix. -/
theorem fitting_prefix (cs ds : List Char) :
    fitting (utf16Length cs) (widths (cs ++ ds)) = cs.length := by
  induction cs with
  | nil =>
    cases ds with
    | nil => rfl
    | cons d ds =>
      have hpos := unitsOf_pos d.toNat
      change fitting 0 (unitsOf d.toNat :: widths ds) = 0
      rw [fitting, if_pos hpos]
  | cons c cs ih =>
    change fitting (utf16Length (c :: cs)) (unitsOf c.toNat :: widths (cs ++ ds)) = _
    rw [utf16Length_cons, fitting, if_neg (by omega), Nat.add_sub_cancel_left, ih]
    rfl

/-! The loops. -/

theorem cursorLoop_encode (hu : u.Faithful) (h : utf16 ≤ target) :
    cursorLoop u target byte utf16 k (encode cs) =
      (byte + (encode (cs.take (fitting (target - utf16) (widths cs)))).length,
        k + fitting (target - utf16) (widths cs)) := by
  induction cs generalizing byte utf16 k with
  | nil => simp [cursorLoop, widths, fitting]
  | cons c cs ih =>
    have hpos := Nat.ne_of_gt (encodeChar_length_pos c)
    have hwidths : widths (c :: cs) = unitsOf c.toNat :: widths cs := rfl
    rw [encode_cons, cursorLoop, if_neg encodeChar_ne_nil, hu.reads, hwidths, fitting]
    dsimp only
    rw [if_neg hpos, List.drop_left]
    by_cases hfits : utf16 + unitsOf c.toNat > target
    · rw [if_pos hfits, if_pos (by omega)]
      simp
    · rw [if_neg hfits, if_neg (by omega), ih (by omega), Nat.sub_sub, List.take_succ_cons,
        encode_cons, List.length_append]
      exact Prod.ext (by dsimp only; omega) (by dsimp only; omega)

/-- The code points before a cursor. -/
def before (cursor : Int32) (cs : List Char) : Nat :=
  fitting (if cursor > 0 then cursor.toInt.toNat else 0) (widths cs)

theorem before_le (cursor : Int32) (cs : List Char) : before cursor cs ≤ cs.length := by
  have hlen : (widths cs).length = cs.length := List.length_map _
  exact hlen ▸ fitting_le _ _

theorem before_eq (h : cursor.toInt = n) (cs : List Char) :
    before cursor cs = fitting n (widths cs) := by
  unfold before
  by_cases hpos : cursor > 0
  · rw [if_pos hpos, h, Int.toNat_natCast]
  · have hle : ¬ (0 : Int) < cursor.toInt := fun hlt => hpos (Int32.lt_iff_toInt_lt.2 hlt)
    have hzero : n = 0 := by omega
    rw [if_neg hpos, hzero]

theorem utf8ByteForUtf16Cursor_encode (hu : u.Faithful) (cursor : Int32) :
    utf8ByteForUtf16Cursor u (encode cs) cursor =
      ((encode (cs.take (before cursor cs))).length, before cursor cs) := by
  unfold utf8ByteForUtf16Cursor
  dsimp only
  rw [cursorLoop_encode hu (Nat.zero_le _), Nat.sub_zero, Nat.zero_add, Nat.zero_add]
  rfl

theorem validateLoop_encode (hu : u.Faithful) :
    validateLoop u count (encode cs) = some (count + cs.length) := by
  induction cs generalizing count with
  | nil => simp [validateLoop]
  | cons c cs ih =>
    have hpos := Nat.ne_of_gt (encodeChar_length_pos c)
    rw [encode_cons, validateLoop, if_neg encodeChar_ne_nil, hu.reads]
    dsimp only
    rw [if_neg hpos, List.drop_left, ih, List.length_cons]
    congr 1
    omega

theorem validateLoop_wellFormed (hu : u.Faithful) (h : validateLoop u count rest = some n) :
    WellFormed rest := by
  induction hlen : rest.length using Nat.strong_induction_on generalizing count rest with
  | _ m ih =>
    by_cases hr : rest = []
    · exact hr ▸ wellFormed_nil
    · cases hi : u.iterate rest with
      | none => simp [validateLoop, hr, hi] at h
      | some r =>
        obtain ⟨c, tail, rfl, rfl⟩ := hu.iterate_inv hi
        have hpos := encodeChar_length_pos c
        rw [validateLoop, if_neg hr, hi] at h
        dsimp only at h
        rw [if_neg (Nat.ne_of_gt hpos), List.drop_left] at h
        have hlt : tail.length < m := by
          rw [← hlen, List.length_append]
          omega
        exact (wellFormed_encodeChar c).append (ih tail.length hlt h rfl)

/-! Round trip with the editor. -/

theorem boundary_take (cs : List Char) (k : Nat) : Boundary (encode cs)
    (encode (cs.take k)).length := by
  have hsplit : encode cs = encode (cs.take k) ++ encode (cs.drop k) := by
    rw [← encode_append, List.take_append_drop]
  rw [hsplit]
  exact ⟨by simp, by rw [List.take_left]; exact wellFormed_encode _⟩

/-- The byte of a cursor that the editor computed is the byte it computed it from. -/
theorem utf8Byte_utf16Cursor (hu : u.Faithful) (hw : WellFormed text) (hk : Boundary text k)
    (hcursor : cursor.toInt = utf16Cursor u text k) :
    (utf8ByteForUtf16Cursor u text cursor).1 = k := by
  obtain ⟨ds, hds⟩ := hk.2
  obtain ⟨es, hes⟩ := hk.drop hw
  have htext : text = encode (ds ++ es) := by
    rw [encode_append, hds, hes, List.take_append_drop]
  have hunits : utf16Cursor u text k = utf16Length ds := by
    rw [utf16Cursor, ← hds, utf16Loop_encode hu, Nat.zero_add]
  have hbefore : before cursor (ds ++ es) = ds.length := by
    rw [before_eq (hcursor.trans (congrArg Nat.cast hunits)), fitting_prefix]
  rw [htext, utf8ByteForUtf16Cursor_encode hu, hbefore, List.take_left, hds, List.length_take]
  exact Nat.min_eq_left hk.1

/-! The presentation. -/

/-- The caret and the selection stand between code points, the selection in order. -/
structure OnBoundaries (p : RobloxTextOverlayPresentation) : Prop where
  caret : Boundary p.displayUtf8 p.caretUtf8Byte
  selectionBegin : Boundary p.displayUtf8 p.selectionBeginUtf8Byte
  selectionEnd : Boundary p.displayUtf8 p.selectionEndUtf8Byte
  ordered : p.selectionBeginUtf8Byte ≤ p.selectionEndUtf8Byte

theorem bullets_encode (n : Nat) :
    (List.replicate n kPasswordBullet).flatten = encode (List.replicate n '•') := by
  induction n with
  | zero => rfl
  | succ n ih =>
    rw [List.replicate_succ, List.replicate_succ, List.flatten_cons, ih, encode_cons]
    rfl

theorem bullets_length (n : Nat) : (encode (List.replicate n '•')).length = n * 3 := by
  induction n with
  | zero => rfl
  | succ n ih =>
    have hone : (String.utf8EncodeChar '•').length = 3 := by decide
    rw [List.replicate_succ, encode_cons, List.length_append, ih, hone]
    omega

theorem boundary_of_min {j : Nat} (hj : Boundary text j) (hk : Boundary text k) :
    Boundary text (min j k) := by
  rcases Nat.le_total j k with hle | hle
  · rwa [Nat.min_eq_left hle]
  · rwa [Nat.min_eq_right hle]

theorem boundary_of_max {j : Nat} (hj : Boundary text j) (hk : Boundary text k) :
    Boundary text (max j k) := by
  rcases Nat.le_total j k with hle | hle
  · rwa [Nat.max_eq_right hle]
  · rwa [Nat.max_eq_left hle]

/-- The byte after some of the bullets, without wrapping around. -/
theorem bulletBytes_boundary (hk : k ≤ n) (hn : n ≤ kSizeMax / kPasswordBullet.length) :
    bulletBytes k = k * 3 ∧ Boundary (List.replicate n kPasswordBullet).flatten (k * 3) := by
  have hlen : kPasswordBullet.length = 3 := rfl
  have hmax : kSizeMax = 2 ^ 64 - 1 := rfl
  rw [hlen, hmax] at hn
  have hboundary := boundary_take (List.replicate n '•') k
  rw [List.take_replicate, Nat.min_eq_left hk, bullets_length, ← bullets_encode] at hboundary
  refine ⟨?_, hboundary⟩
  rw [bulletBytes, hlen, Nat.mod_eq_of_lt (by omega)]

/-- The update brings a text of these code points. -/
structure Carries (update : RobloxTextDisplayUpdate) (cs : List Char) : Prop where
  available : update.utf8Size = 0 ∨ update.utf8 ≠ none
  text : encode cs = update.text

/-- The byte at which a cursor stands in the text. -/
def byteBefore (cursor : Int32) (cs : List Char) : Nat :=
  (encode (cs.take (before cursor cs))).length

/-- What is built from a text of these code points. -/
def builtFor (update : RobloxTextDisplayUpdate) (viewport : RobloxTextOverlayViewport)
    (cs : List Char) : Except Status RobloxTextOverlayPresentation :=
  if update.generation = 0 then throw (invalidArgument "text overlay generation must be nonzero")
  else if !viewport.valid then throw (invalidArgument "text overlay viewport must be positive")
  else if isPasswordInputType update.textInputType then
    if cs.length > kSizeMax / kPasswordBullet.length then
      throw ⟨.unavailable, "text overlay password mask is too large"⟩
    else
      return { candidatePresentation update viewport with
        displayUtf8 := (List.replicate cs.length kPasswordBullet).flatten
        caretUtf8Byte := bulletBytes (before update.cursorUtf16 cs)
        selectionBeginUtf8Byte := bulletBytes
          (min (before update.selectionBeginUtf16 cs) (before update.selectionEndUtf16 cs))
        selectionEndUtf8Byte := bulletBytes
          (max (before update.selectionBeginUtf16 cs) (before update.selectionEndUtf16 cs)) }
  else
    return { candidatePresentation update viewport with
      displayUtf8 := encode cs
      caretUtf8Byte := byteBefore update.cursorUtf16 cs
      selectionBeginUtf8Byte :=
        min (byteBefore update.selectionBeginUtf16 cs) (byteBefore update.selectionEndUtf16 cs)
      selectionEndUtf8Byte :=
        max (byteBefore update.selectionBeginUtf16 cs) (byteBefore update.selectionEndUtf16 cs) }

theorem build_eq (hu : u.Faithful) (hc : Carries update cs) :
    buildRobloxTextOverlayPresentation u update viewport = builtFor update viewport cs := by
  have hbuffer : ¬ (update.utf8Size ≠ 0 ∧ update.utf8 = none) := fun h =>
    hc.available.elim h.1 fun hsome => hsome h.2
  have hcount : validateAndCountUtf8 u update.text = some cs.length := by
    rw [← hc.text, validateAndCountUtf8, validateLoop_encode hu, Nat.zero_add]
  have hcursor : ∀ cursor, utf8ByteForUtf16Cursor u update.text cursor =
      (byteBefore cursor cs, before cursor cs) := by
    intro cursor
    rw [← hc.text]
    exact utf8ByteForUtf16Cursor_encode hu cursor
  unfold buildRobloxTextOverlayPresentation builtFor
  rw [if_neg hbuffer, hcount]
  simp only [hcursor, hc.text]

theorem byteBefore_boundary (cursor : Int32) (cs : List Char) :
    Boundary (encode cs) (byteBefore cursor cs) := boundary_take cs _

theorem builtFor_boundaries {p : RobloxTextOverlayPresentation}
    (h : builtFor update viewport cs = .ok p) : OnBoundaries p := by
  unfold builtFor at h
  split_ifs at h with hgeneration hviewport hpassword hlarge
  · have hn : cs.length ≤ kSizeMax / kPasswordBullet.length := Nat.not_lt.1 hlarge
    cases h
    have hat : ∀ k, k ≤ cs.length → bulletBytes k = k * 3 ∧
        Boundary (List.replicate cs.length kPasswordBullet).flatten (bulletBytes k) := by
      intro k hk
      obtain ⟨hbytes, hboundary⟩ := bulletBytes_boundary hk hn
      exact ⟨hbytes, hbytes ▸ hboundary⟩
    have hbegin := before_le update.selectionBeginUtf16 cs
    have hend := before_le update.selectionEndUtf16 cs
    have hmin :=
      hat (min (before update.selectionBeginUtf16 cs) (before update.selectionEndUtf16 cs))
      ((Nat.min_le_left _ _).trans hbegin)
    have hmax := hat _ (Nat.max_le.2 ⟨hbegin, hend⟩)
    refine ⟨(hat _ (before_le _ _)).2, hmin.2, hmax.2, ?_⟩
    dsimp only
    rw [hmin.1, hmax.1]
    omega
  · cases h
    have hbegin := byteBefore_boundary update.selectionBeginUtf16 cs
    have hend := byteBefore_boundary update.selectionEndUtf16 cs
    exact ⟨byteBefore_boundary _ _, boundary_of_min hbegin hend, boundary_of_max hbegin hend,
      min_le_max⟩

theorem builtFor_isOk : (builtFor update viewport cs).isOk = true ↔
    update.generation ≠ 0 ∧ viewport.valid = true ∧
      (isPasswordInputType update.textInputType = true →
        cs.length ≤ kSizeMax / kPasswordBullet.length) := by
  unfold builtFor
  split_ifs with hgeneration hviewport hpassword hlarge
  · exact iff_of_false Bool.false_ne_true fun h => h.1 hgeneration
  · exact iff_of_false Bool.false_ne_true fun h => by simp [h.2.1] at hviewport
  · exact iff_of_false Bool.false_ne_true fun h => Nat.not_lt.2 (h.2.2 hpassword) hlarge
  · exact iff_of_true rfl ⟨hgeneration, by simpa using hviewport, fun _ => Nat.not_lt.1 hlarge⟩
  · exact iff_of_true rfl ⟨hgeneration, by simpa using hviewport, fun h => absurd h hpassword⟩

/-- What a password shows depends on the widths of its code points alone. -/
theorem builtFor_masked (hwidths : widths cs = widths ds)
    (hpassword : isPasswordInputType update.textInputType = true) :
    builtFor update viewport cs = builtFor update viewport ds := by
  have hlen : cs.length = ds.length := by simpa [widths] using congrArg List.length hwidths
  have hbefore : ∀ cursor, before cursor cs = before cursor ds := by
    intro cursor
    rw [before, hwidths, before]
  unfold builtFor
  simp only [hpassword, if_true, hlen, hbefore]

theorem builtFor_text
    (h : update' = { update with utf8 := update'.utf8, utf8Size := update'.utf8Size }) :
    builtFor update' viewport cs = builtFor update viewport cs := by
  rw [h]
  rfl

/-- The overlay is built for every text of code points, with caret and selection between them;
a cursor that the editor computed comes back as its byte; and the presentations of two passwords
of the same widths are one. -/
theorem overlay_positions_and_mask (viewport : RobloxTextOverlayViewport) (hu : u.Faithful)
    (hc : Carries update cs) :
    ((buildRobloxTextOverlayPresentation u update viewport).isOk = true ↔
      update.generation ≠ 0 ∧ viewport.valid = true ∧
        (isPasswordInputType update.textInputType = true →
          cs.length ≤ kSizeMax / kPasswordBullet.length)) ∧
    (∀ p, buildRobloxTextOverlayPresentation u update viewport = .ok p → OnBoundaries p) ∧
    (∀ k cursor, Boundary update.text k → Int32.toInt cursor = utf16Cursor u update.text k →
      (utf8ByteForUtf16Cursor u update.text cursor).1 = k) ∧
    (∀ update' ds, Carries update' ds →
      update' = { update with utf8 := update'.utf8, utf8Size := update'.utf8Size } →
      isPasswordInputType update.textInputType = true → widths ds = widths cs →
      buildRobloxTextOverlayPresentation u update' viewport =
        buildRobloxTextOverlayPresentation u update viewport) := by
  have hbuilt : buildRobloxTextOverlayPresentation u update viewport =
      builtFor update viewport cs :=
    build_eq hu hc
  refine ⟨?_, fun p hp => ?_, fun k cursor hk hcursor => ?_,
    fun update' ds hc' hsame hpassword hwidths => ?_⟩
  · rw [hbuilt]
    exact builtFor_isOk
  · rw [hbuilt] at hp
    exact builtFor_boundaries hp
  · exact utf8Byte_utf16Cursor hu ⟨cs, hc.text⟩ hk hcursor
  · rw [hbuilt, build_eq hu hc', builtFor_text hsame]
    exact builtFor_masked hwidths hpassword

def letterUpdate (bytes : Bytes) : RobloxTextDisplayUpdate :=
  { event := .kShow, generation := 1, textInputType := 5
    utf8 := some bytes, utf8Size := bytes.length
    cursorUtf16 := 1, selectionBeginUtf16 := 1, selectionEndUtf16 := 1 }

theorem overlay_positions_and_mask_letter :
    buildRobloxTextOverlayPresentation plainUtf8proc (letterUpdate [0x62]) {} =
        buildRobloxTextOverlayPresentation plainUtf8proc (letterUpdate [0x61]) {} ∧
      (utf8ByteForUtf16Cursor plainUtf8proc [0x61] 0).1 = 0 := by
  have ha : Carries (letterUpdate [0x61]) ['a'] := ⟨.inr (by simp [letterUpdate]), by decide⟩
  have hb : Carries (letterUpdate [0x62]) ['b'] := ⟨.inr (by simp [letterUpdate]), by decide⟩
  obtain ⟨_, _, hround, hmask⟩ :=
    overlay_positions_and_mask {} plainUtf8proc_faithful ha
  have hzero : utf16Cursor plainUtf8proc (letterUpdate [0x61]).text 0 = 0 := by
    rw [utf16Cursor, List.take_zero, utf16Loop]
    rfl
  refine ⟨hmask _ _ hb rfl (by decide) (by decide), ?_⟩
  exact hround 0 0 (boundary_zero _) (by rw [hzero]; rfl)

/-! The editor's own positions. -/

/-- A display update on its way to the overlay. -/
def DisplayUpdate.sent (update : DisplayUpdate) : RobloxTextDisplayUpdate where
  event := update.event
  generation := update.generation
  areaX := update.properties.areaX
  areaY := update.properties.areaY
  areaWidth := update.properties.areaWidth
  areaHeight := update.properties.areaHeight
  fontSize := update.properties.fontSize
  multiline := update.properties.multiline
  xAlignment := update.properties.xAlignment
  yAlignment := update.properties.yAlignment
  textColor := update.properties.textColor
  font := update.properties.font
  textInputType := update.properties.textInputType
  textWrapped := update.properties.textWrapped
  utf8 := if update.event = .kHide then none else some update.utf8
  utf8Size := update.utf8.length
  cursorUtf16 := Int32.ofNat update.cursorUtf16
  selectionBeginUtf16 := Int32.ofNat update.selectionBeginUtf16
  selectionEndUtf16 := Int32.ofNat update.selectionEndUtf16

/-- A position of a sound text survives the way through UTF-16. -/
theorem position_sent {e : Editor} (hu : u.Faithful) (h : Sound e) (hk : Boundary e.text k)
    (hn : HasUtf16Length (e.text.take k) n) :
    (utf8ByteForUtf16Cursor u e.text (Int32.ofNat n)).1 = k := by
  obtain ⟨ds, hds, hunits⟩ := hn
  have hle := utf16Length_le ds
  have htake : (e.text.take k).length ≤ e.text.length := by simp
  have hsize := h.text.size
  have hmax : kMaximumTextBytes = 4194304 := rfl
  rw [hds] at hle
  have hint : (Int32.ofNat n).toInt = n := Int32.toInt_ofNat_of_lt (by omega)
  refine utf8Byte_utf16Cursor hu h.text.wellFormed hk ?_
  rw [hint, utf16Cursor, ← hds, utf16Loop_encode hu, Nat.zero_add, hunits]

/-- What the editor publishes is shown with the editor's own cursor and selection. -/
theorem overlay_shows_editor {col : Collaborators} {e : Editor} {shownUpdate : DisplayUpdate}
    {p : RobloxTextOverlayPresentation} (hu : col.utf8proc.Faithful) (h : Sound e)
    (hpublished : (publishDisplay col e .kUpdate).outputs = e.outputs ++ [.display shownUpdate])
    (hplain : isPasswordInputType e.session.properties.textInputType = false)
    (hbuilt : buildRobloxTextOverlayPresentation col.utf8proc shownUpdate.sent viewport = .ok p) :
    p.displayUtf8 = e.text ∧ p.caretUtf8Byte = e.cursorByte ∧
      p.selectionBeginUtf8Byte = e.selectionBegin ∧ p.selectionEndUtf8Byte = e.selectionEnd := by
  have hupdate : shownUpdate =
      { event := .kUpdate
        generation := e.session.generation
        properties := e.session.properties
        utf8 := e.text
        cursorUtf16 := e.snapshot.cursorUtf16
        selectionBeginUtf16 := e.snapshot.selectionBeginUtf16
        selectionEndUtf16 := e.snapshot.selectionEndUtf16 } := by
    unfold publishDisplay at hpublished
    split_ifs at hpublished with hnone hhide
    · simp at hpublished
    · cases hhide
    · have hlast := List.append_cancel_left hpublished
      cases hlast
      rfl
  have htext : shownUpdate.sent.text = e.text := by
    rw [hupdate]
    exact List.take_length
  have hcaret := position_sent hu h h.text.cursor h.snapshot.cursor
  have hbegin := position_sent hu h (boundary_min h.text) h.snapshot.selectionBegin
  have hend := position_sent hu h (boundary_max h.text) h.snapshot.selectionEnd
  have hle := selection_ordered e
  obtain ⟨cs, hcs⟩ := h.text.wellFormed
  have hc : Carries shownUpdate.sent cs := by
    refine ⟨.inr ?_, hcs.trans htext.symm⟩
    rw [hupdate]
    simp [DisplayUpdate.sent]
  have htype : isPasswordInputType shownUpdate.sent.textInputType = false := by
    rw [hupdate]
    exact hplain
  rw [build_eq hu hc] at hbuilt
  unfold builtFor at hbuilt
  rw [← hcs, utf8ByteForUtf16Cursor_encode hu] at hcaret hbegin hend
  split_ifs at hbuilt with hgeneration hviewport hpassword hlarge
  · rw [htype] at hpassword
    cases hpassword
  · cases hbuilt
    refine ⟨hcs, ?_, ?_, ?_⟩
    · rw [hupdate]
      exact hcaret
    · rw [hupdate]
      exact (congrArg₂ min hbegin hend).trans (Nat.min_eq_left hle)
    · rw [hupdate]
      exact (congrArg₂ max hbegin hend).trans (Nat.max_eq_right hle)

/-! Runs of the display. -/

/-- The bytes are bullets. -/
def Bullets (bytes : Bytes) : Prop := ∃ n, bytes = (List.replicate n kPasswordBullet).flatten

structure ShownSound (p : RobloxTextOverlayPresentation) : Prop where
  positions : OnBoundaries p
  masked : isPasswordInputType p.textInputType = true → Bullets p.displayUtf8

theorem builtFor_bullets {p : RobloxTextOverlayPresentation}
    (h : builtFor update viewport cs = .ok p)
    (hpassword : isPasswordInputType p.textInputType = true) :
    Bullets p.displayUtf8 := by
  unfold builtFor at h
  split_ifs at h with hgeneration hviewport htype hlarge
  · cases h
    exact ⟨cs.length, rfl⟩
  · cases h
    exact absurd hpassword htype

/-- Nothing is built from bytes that are no text. -/
theorem carries_of_ok {p : RobloxTextOverlayPresentation} (hu : u.Faithful)
    (h : buildRobloxTextOverlayPresentation u update viewport = .ok p) :
    ∃ cs, Carries update cs := by
  unfold buildRobloxTextOverlayPresentation at h
  by_cases hbuffer : update.utf8Size ≠ 0 ∧ update.utf8 = none
  · rw [if_pos hbuffer] at h
    split_ifs at h
  · cases hvalid : validateAndCountUtf8 u update.text with
    | none =>
      rw [hvalid] at h
      split_ifs at h
    | some count =>
      obtain ⟨cs, hcs⟩ := validateLoop_wellFormed hu hvalid
      refine ⟨cs, ?_, hcs⟩
      tauto

theorem build_sound {p : RobloxTextOverlayPresentation} (hu : u.Faithful)
    (h : buildRobloxTextOverlayPresentation u update viewport = .ok p) : ShownSound p := by
  obtain ⟨cs, hc⟩ := carries_of_ok hu h
  rw [build_eq hu hc] at h
  exact ⟨builtFor_boundaries h, builtFor_bullets h⟩

theorem shownSound_hidden : ShownSound {} :=
  ⟨⟨boundary_zero _, boundary_zero _, boundary_zero _, le_rfl⟩, fun h => absurd h (by decide)⟩

theorem applyUpdate_sound (hu : u.Faithful) (h : ShownSound shown) :
    ShownSound (applyUpdate u update viewport shown).2.1 := by
  unfold applyUpdate
  split_ifs
  · exact h
  · exact shownSound_hidden
  · exact h
  · exact h
  · split
    · exact h
    · next hbuilt => exact build_sound hu hbuilt

/-- An update with the viewport of its time, or a reset. -/
abbrev DisplayCall := Option (RobloxTextDisplayUpdate × RobloxTextOverlayViewport)

def display (u : Utf8proc) (shown : RobloxTextOverlayPresentation) (call : DisplayCall) :
    RobloxTextOverlayPresentation :=
  match call with
  | some (update, viewport) => (applyUpdate u update viewport shown).2.1
  | none => {}

def displayLTS (u : Utf8proc) : LTS RobloxTextOverlayPresentation DisplayCall :=
  LTS.ofFun {} fun shown call => some (display u shown call)

theorem display_reachable (hu : u.Faithful) (h : (displayLTS u).Reachable shown) :
    ShownSound shown := by
  refine h.invariant ?_ ?_
  · rintro s rfl
    exact shownSound_hidden
  · rintro s call t hs hsound
    cases hs
    cases call with
    | none => exact shownSound_hidden
    | some call => exact applyUpdate_sound hu hsound

/-- The two calls differ at most in the text of a password, with its widths kept. -/
inductive SameWidths : DisplayCall → DisplayCall → Prop
  | same (call : DisplayCall) : SameWidths call call
  | password {update update' : RobloxTextDisplayUpdate} {viewport : RobloxTextOverlayViewport}
      {cs ds : List Char} (hc : Carries update cs) (hd : Carries update' ds)
      (hsame : update' = { update with utf8 := update'.utf8, utf8Size := update'.utf8Size })
      (hpassword : isPasswordInputType update.textInputType = true)
      (hwidths : widths ds = widths cs) : SameWidths (some (update, viewport))
      (some (update', viewport))

theorem display_masked (hu : u.Faithful) {call call' : DisplayCall} (h : SameWidths call call') :
    display u shown call' = display u shown call := by
  cases h with
  | same => rfl
  | @password update update' viewport cs ds hc hd hsame hpassword hwidths =>
    have hbuilt : buildRobloxTextOverlayPresentation u update' viewport =
        buildRobloxTextOverlayPresentation u update viewport := by
      rw [build_eq hu hc, build_eq hu hd, builtFor_text hsame]
      exact builtFor_masked hwidths hpassword
    have hevent : update'.event = update.event := by rw [hsame]
    have hgeneration : update'.generation = update.generation := by rw [hsame]
    simp only [display, applyUpdate, hbuilt, hevent, hgeneration]

/-- Two runs that type passwords of the same widths show the same. -/
theorem display_masked_run (hu : u.Faithful) {calls calls' : List DisplayCall}
    (h : List.Forall₂ SameWidths calls calls') (shown : RobloxTextOverlayPresentation) :
    calls'.foldl (display u) shown = calls.foldl (display u) shown := by
  induction h generalizing shown with
  | nil => rfl
  | cons hcall _ ih =>
    rw [List.foldl_cons, List.foldl_cons, display_masked hu hcall]
    exact ih _

end Nightcap.Text
