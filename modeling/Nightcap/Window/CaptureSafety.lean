import Nightcap.Window.PointerCapture

/-! When the pointer is captured: only for a reason Roblox or the user has given. -/
namespace Nightcap.Window

open Transition

variable {setup : Setup} {s t : Owner} {answers : Answers} {lock : Option MouseLock} {text : Bool}

def BackendCall.captures : BackendCall → Bool
  | .apply relativeMode _ _ _ _ => relativeMode
  | .setPressAnchor _ => false

/-- The owner as `Pump` finds it, and whether text input is active, for an operation that pumps. -/
def pumped (s : Owner) : Operation → Option (Owner × Bool)
  | .pump text => some (s, text)
  | .onRightButton pressed text _ =>
    some ({ s with focused := pressed || s.focused, rightButtonHeld := pressed }, text)
  | .onFocusGained text | .onShiftKeyPressed text => some ({ s with focused := true }, text)
  | _ => none

/-! What an outside observer remembers of a run. -/

structure Watch where
  /-- The readings when the native lock was first seen released since it was last seen. -/
  firstReleased : Option (UInt64 × UInt64) := none
  /-- Roblox has reported panning since the right button went down. -/
  pannedInHold : Bool := false
  focusLost : Bool := false
deriving DecidableEq

/-- What a pump with the focus learns. -/
def Watch.look (w : Watch) (held : Bool) (lock : Option MouseLock) (answers : Answers) : Watch :=
  { w with
    firstReleased :=
      match lock with
      | none => w.firstReleased
      | some lock =>
        if lock.center then none else w.firstReleased.or (some (answers.frames, answers.nowMs))
    pannedInHold := w.pannedInHold || (held && reportsPan lock) }

/-- What an operation itself tells: whether the hold of the button goes on, and where the focus
is. -/
def Watch.note (w : Watch) (s : Owner) : Operation → Watch
  | .onRightButton pressed _ _ =>
    { w with
      pannedInHold := w.pannedInHold && pressed && s.rightButtonHeld
      focusLost := w.focusLost && !pressed }
  | .onFocusGained _ | .onShiftKeyPressed _ => { w with focusLost := false }
  | .onFocusLost | .shutdown => { w with pannedInHold := false, focusLost := true }
  | _ => w

@[simp] theorem Watch.note_pump {w : Watch} : w.note s (.pump text) = w := rfl

@[simp] theorem Watch.note_click {w : Watch} {pressed : Bool} {position : Option PointerPosition} :
    w.note s (.onRightButton pressed text position) =
      { w with
        pannedInHold := w.pannedInHold && pressed && s.rightButtonHeld
        focusLost := w.focusLost && !pressed } := rfl

def Watch.observe (w : Watch) (s : Owner) (op : Operation) (answers : Answers) : Watch :=
  match pumped s op with
  | none => w.note s op
  | some (s', _) =>
    if s'.focused then (w.note s op).look s'.rightButtonHeld (queryLock s' answers) answers
    else w.note s op

/-- A reason to capture the pointer. -/
inductive Justified (s : Owner) (w : Watch) (lock : Option MouseLock) (answers : Answers)
    (text : Bool) : Prop
  | locked (h : nativeLockActive lock = true) : Justified s w lock answers text
  | unlocking {frame ms : UInt64} (hc : s.pointerCentered = true)
      (hw : w.firstReleased = some (frame, ms)) (hf : answers.frames - frame < 3)
      (hm : answers.nowMs - ms < 250) : Justified s w lock answers text
  | dragging (hh : s.rightButtonHeld = true) (hs : s.gameSessionActive = true) (ht : text = false)
      (hp : (∀ l, lock = some l → l.reportsCurrentPosition = true → l.currentPosition = true) ∨
        w.pannedInHold = true) : Justified s w lock answers text

/-! The backend requests. -/

/-- The part of the owner that decides about the capture. -/
structure Core where
  focused : Bool
  held : Bool
  panning : Bool
  pending : Bool
  frame : UInt64
  ms : UInt64

def Owner.core (s : Owner) : Core :=
  ⟨s.focused, s.rightButtonHeld, s.rightDragPanning, s.nativeUnlockPending, s.nativeUnlockFrame,
    s.nativeUnlockMs⟩

/-- What a request for a pointer state does to the owner. -/
structure Applied (setup : Setup) (s t : Owner) (capture centerPointer : Bool) : Prop where
  core : t.core = s.core
  captured : t.captured = true → capture = true
  centered : t.pointerCentered = true → centerPointer = true ∧ capture = true
  headless : setup.hasBackend = false → t.pointerCentered = false

/-- The four ways a request for a pointer state can go. -/
theorem apply_cases {motive : Effect → Prop} {capture centerPointer restorePointer : Bool}
    {cursor : CursorShape} {image : Option CursorImage}
    (same : capture = s.captured → (centerPointer && capture) = s.pointerCentered →
      motive ⟨s, [], true⟩)
    (headless : setup.hasBackend = false →
      motive ⟨{ s with captured := false, cursor := .kArrow, cursorImage := none }, [],
        !capture && cursor == .kArrow⟩)
    (accepted : setup.hasBackend = true → ∀ pending ms recenter, motive
      ⟨{ s with
          captured := capture
          captureReleaseMotionPending := pending
          captureReleaseMs := ms
          cursor
          cursorImage := image
          pointerRecenterPending := recenter
          pointerCentered := centerPointer && capture },
        [.apply capture cursor image (centerPointer && capture) restorePointer], true⟩)
    (refused : setup.hasBackend = true → ∀ pending ms, motive
      ⟨{ s with
          captureReleaseMotionPending := pending
          captureReleaseMs := ms
          captured := false
          cursor := .kArrow
          cursorImage := none
          pointerCentered := false },
        [.apply capture cursor image (centerPointer && capture) restorePointer,
          .apply false .kArrow none false restorePointer], false⟩) :
    motive (apply setup s answers capture cursor image centerPointer restorePointer) := by
  unfold apply
  by_cases hsame : capture = s.captured ∧ cursor = s.cursor ∧ image = s.cursorImage ∧
      (centerPointer && capture) = s.pointerCentered
  · rw [if_pos hsame]
    exact same hsame.1 hsame.2.2.2
  rw [if_neg hsame]
  cases hbackend : setup.hasBackend with
  | false => exact headless hbackend
  | true =>
    cases answers.accepted with
    | true => exact accepted hbackend _ _ _
    | false => exact refused hbackend _ _

theorem apply_applied {capture centerPointer restorePointer : Bool} {cursor : CursorShape}
    {image : Option CursorImage} (hs : setup.hasBackend = false → s.pointerCentered = false) :
    Applied setup s
      (apply setup s answers capture cursor image centerPointer restorePointer).owner capture
      centerPointer := by
  refine apply_cases (motive := fun e => Applied setup s e.owner capture centerPointer) ?_ ?_ ?_ ?_
  · intro hc hp
    refine ⟨rfl, fun h => hc.trans h, fun h => ?_, hs⟩
    simpa using hp.trans h
  · intro hbackend
    refine ⟨rfl, nofun, fun h => ?_, hs⟩
    exact absurd (h.symm.trans (hs hbackend)) (by decide)
  · intro hbackend _ _ _
    refine ⟨rfl, id, fun h => ?_, fun h => ?_⟩
    · simpa using h
    · rw [hbackend] at h
      cases h
  · intro _ _ _
    exact ⟨rfl, nofun, nofun, fun _ => rfl⟩

theorem apply_captures {capture centerPointer restorePointer : Bool} {cursor : CursorShape}
    {image : Option CursorImage} {call : BackendCall}
    (h : call ∈ (apply setup s answers capture cursor image centerPointer restorePointer).calls)
    (hc : call.captures = true) : capture = true := by
  revert h
  refine apply_cases (motive := fun e => call ∈ e.calls → capture = true) ?_ ?_ ?_ ?_
  · intro _ _ h
    cases h
  · intro _ h
    cases h
  · intro _ _ _ _ h
    obtain rfl := List.mem_singleton.1 h
    exact hc
  · intro _ _ _ h
    rcases List.mem_cons.1 h with rfl | h
    · exact hc
    · obtain rfl := List.mem_singleton.1 h
      cases hc

/-! The native lock. -/

/-- What following the native lock does: a centred capture is kept while the lock is reported, and
for a while from the first reading after it was. -/
structure Followed (s t : Owner) (lock : Option MouseLock) (answers : Answers) (kept : Bool) :
    Prop where
  focused : t.focused = s.focused
  held : t.rightButtonHeld = s.rightButtonHeld
  panning : t.rightDragPanning = s.rightDragPanning
  session : t.gameSessionActive = s.gameSessionActive
  captured : t.captured = s.captured
  centered : t.pointerCentered = s.pointerCentered
  reason : kept = true → nativeLockActive lock = true ∧ t.nativeUnlockPending = false ∨
    nativeLockActive lock = false ∧ lock ≠ none ∧ s.pointerCentered = true ∧
      t.nativeUnlockPending = true ∧ answers.frames - t.nativeUnlockFrame < 3 ∧
      answers.nowMs - t.nativeUnlockMs < 250 ∧
      (s.nativeUnlockPending = true ∧ t.nativeUnlockFrame = s.nativeUnlockFrame ∧
          t.nativeUnlockMs = s.nativeUnlockMs ∨
        s.nativeUnlockPending = false ∧ t.nativeUnlockFrame = answers.frames ∧
          t.nativeUnlockMs = answers.nowMs)

theorem followNativeLock_followed :
    Followed s (followNativeLock setup s lock answers).2 lock answers
      (followNativeLock setup s lock answers).1 := by
  unfold followNativeLock
  simp only
  by_cases hgrace : (!nativeLockActive lock && lock.isSome && s.pointerCentered &&
      setup.hasFrameCounter) = true
  · rw [if_pos hgrace]
    simp only [Bool.and_eq_true, Bool.not_eq_true'] at hgrace
    obtain ⟨⟨⟨hactive, hsome⟩, hcentered⟩, _⟩ := hgrace
    have hne : lock ≠ none := by
      rintro rfl
      cases hsome
    cases hpending : s.nativeUnlockPending with
    | true =>
      refine ⟨rfl, rfl, rfl, rfl, rfl, rfl, fun hkept => .inr ?_⟩
      obtain ⟨hframes, hms⟩ := Bool.and_eq_true_iff.1 hkept
      exact ⟨hactive, hne, hcentered, hkept, of_decide_eq_true hframes, of_decide_eq_true hms,
        .inl ⟨hpending, rfl, rfl⟩⟩
    | false =>
      refine ⟨rfl, rfl, rfl, rfl, rfl, rfl, fun hkept => .inr ?_⟩
      obtain ⟨hframes, hms⟩ := Bool.and_eq_true_iff.1 hkept
      exact ⟨hactive, hne, hcentered, hkept, of_decide_eq_true hframes, of_decide_eq_true hms,
        .inr ⟨hpending, rfl, rfl⟩⟩
  · rw [if_neg hgrace]
    exact ⟨rfl, rfl, rfl, rfl, rfl, rfl, fun hkept => .inl ⟨hkept, rfl⟩⟩

/-! Pumps. -/

/-- The end of a pump is one request, which centres the pointer for the native lock alone. -/
theorem showCursor_eq {clientActive kept requested : Bool} : ∃ u cursor image center,
    showCursor setup s answers clientActive kept requested =
      apply setup u answers requested cursor image center ∧
    u.core = s.core ∧ u.pointerCentered = s.pointerCentered ∧ (center = true → kept = true) := by
  cases requested with
  | false => exact ⟨_, _, _, false, rfl, rfl, rfl, nofun⟩
  | true =>
    let uncaptured := if clientActive then currentRobloxCursor setup s answers.cursorFrames
      else (.kArrow, none)
    let s' := if s.captured then s
      else { s with captureCursor := uncaptured.1, captureCursorImage := uncaptured.2 }
    have hcore : s'.core = s.core := by
      by_cases h : s.captured = true
      · simp only [s', if_pos h]
      · simp only [s', if_neg h]
        rfl
    have hcentered : s'.pointerCentered = s.pointerCentered := by
      by_cases h : s.captured = true
      · simp only [s', if_pos h]
      · simp only [s', if_neg h]
    by_cases hshows : (setup.hasBackend && answers.showsCursorWhileCaptured) = true
    · exact ⟨{ s' with desktopShowsRobloxCursor := clientActive }, _, _, kept, if_pos hshows, hcore,
        hcentered, id⟩
    · exact ⟨{ s' with desktopShowsRobloxCursor := false }, _, _, kept, if_neg hshows, hcore,
        hcentered, id⟩

/-- A pump with the focus follows the lock, settles whether Roblox pans, and makes one request. -/
structure Pumps (setup : Setup) (s : Owner) (e : Effect) (kept dragging : Bool)
    (lock : Option MouseLock)
    (u : Owner) : Prop where
  focused : e.owner.focused = true
  held : e.owner.rightButtonHeld = s.rightButtonHeld
  panning : e.owner.rightDragPanning = (dragging && (s.rightDragPanning || reportsPan lock))
  pending : e.owner.nativeUnlockPending = u.nativeUnlockPending
  frame : e.owner.nativeUnlockFrame = u.nativeUnlockFrame
  ms : e.owner.nativeUnlockMs = u.nativeUnlockMs
  centered : e.owner.pointerCentered = true → kept = true
  headless : setup.hasBackend = false → e.owner.pointerCentered = false
  captures : ∀ call ∈ e.calls, call.captures = true → kept = true ∨ dragging = true

theorem pump_pumps (hf : s.focused = true)
    (hs : setup.hasBackend = false → s.pointerCentered = false) :
    Pumps setup s (pump setup s text answers)
      (followNativeLock setup s (queryLock s answers) answers).1
      (rightDragActive s (queryLock s answers) && !text) (queryLock s answers)
      (followNativeLock setup s (queryLock s answers) answers).2 := by
  have hfollow := @followNativeLock_followed setup s answers (queryLock s answers)
  unfold pump
  rw [hf]
  simp only [Bool.not_true, Bool.false_eq_true, if_false]
  generalize queryLock s answers = lock at hfollow ⊢
  generalize followNativeLock setup s lock answers = f at hfollow ⊢
  have hdrag : rightDragActive f.2 lock = rightDragActive s lock := by
    unfold rightDragActive
    rw [hfollow.held, hfollow.session, hfollow.panning]
  rw [hdrag]
  generalize (rightDragActive s lock && !text) = dragging
  obtain ⟨u, cursor, image, center, he, hcore, hcentered, hcenter⟩ := @showCursor_eq setup
    { f.2 with rightDragPanning := dragging && (f.2.rightDragPanning || reportsPan lock) } answers
    lock.isSome f.1 (f.1 || dragging)
  rw [he]
  have happ : Applied setup u (apply setup u answers (f.1 || dragging) cursor image center).owner
      (f.1 || dragging) center :=
    apply_applied (fun hb => hcentered.trans (hfollow.centered.trans (hs hb)))
  have hcore := happ.core.trans hcore
  simp only [Owner.core, Core.mk.injEq] at hcore
  obtain ⟨h₁, h₂, h₃, h₄, h₅, h₆⟩ := hcore
  refine ⟨h₁.trans (hfollow.focused.trans hf), h₂.trans hfollow.held, ?_, h₄,
    h₅, h₆, ?_, happ.headless,
    ?_⟩
  · rw [h₃, hfollow.panning]
  · exact fun h => hcenter (happ.centered h).1
  · exact fun call hcall hc => Bool.or_eq_true_iff.1 (apply_captures hcall hc)

/-! What holds of the owner and its watch. -/

/-- The last part as long as the run is fresh: no click has met the pan of an earlier hold. -/
structure Sound (setup : Setup) (fresh : Prop) (s : Owner) (w : Watch) : Prop where
  focus : w.focusLost = !s.focused
  released : s.focused = false → s.captured = false ∧ s.rightButtonHeld = false
  headless : setup.hasBackend = false → s.pointerCentered = false
  pending : s.pointerCentered = true → s.nativeUnlockPending = true →
    w.firstReleased = some (s.nativeUnlockFrame, s.nativeUnlockMs)
  locked : s.pointerCentered = true → s.nativeUnlockPending = false → w.firstReleased = none
  panning : fresh → s.focused = true → s.rightDragPanning = true →
    s.rightButtonHeld = true ∧ w.pannedInHold = true

/-- What a pump with the focus needs of the owner and the watch. -/
structure Ready (setup : Setup) (fresh : Prop) (s : Owner) (w : Watch) (lock : Option MouseLock)
    (text : Bool) : Prop where
  focus : w.focusLost = !s.focused
  headless : setup.hasBackend = false → s.pointerCentered = false
  pending : s.pointerCentered = true → s.nativeUnlockPending = true →
    w.firstReleased = some (s.nativeUnlockFrame, s.nativeUnlockMs)
  locked : s.pointerCentered = true → s.nativeUnlockPending = false → w.firstReleased = none
  panning : fresh → s.rightButtonHeld = true → s.gameSessionActive = true → text = false →
    s.rightDragPanning = true → w.pannedInHold = true ∨ reportsPan lock = true

variable {fresh : Prop} {w : Watch}

theorem initial_sound : Sound setup fresh {} {} :=
  ⟨rfl, nofun, fun _ => rfl, nofun, nofun, fun _ => nofun⟩

/-- A request for the plain pointer of an owner without the focus. -/
theorem apply_release_sound {cursor : CursorShape} {restorePointer : Bool}
    (hfocus : w.focusLost = true) (hf : s.focused = false) (hheld : s.rightButtonHeld = false)
    (hs : setup.hasBackend = false → s.pointerCentered = false) :
    Sound setup fresh (apply setup s answers false cursor none false restorePointer).owner w := by
  have happ : Applied setup s
      (apply setup s answers false cursor none false restorePointer).owner false
      false := apply_applied hs
  generalize (apply setup s answers false cursor none false restorePointer).owner = t at happ
  have hcore := happ.core
  simp only [Owner.core, Core.mk.injEq] at hcore
  have hcentered : t.pointerCentered = false :=
    Bool.eq_false_iff.2 (fun h => nomatch (happ.centered h).1)
  have hcaptured : t.captured = false := Bool.eq_false_iff.2 (fun h => nomatch happ.captured h)
  refine ⟨?_, fun _ => ⟨hcaptured, hcore.2.1.trans hheld⟩, fun _ => hcentered, ?_, ?_, ?_⟩
  · rw [hcore.1, hf, hfocus]
    rfl
  · intro h
    rw [hcentered] at h
    cases h
  · intro h
    rw [hcentered] at h
    cases h
  · intro _ h
    rw [hcore.1, hf] at h
    cases h

theorem rightDragActive_iff : rightDragActive s lock = true ↔
    s.rightButtonHeld = true ∧ s.gameSessionActive = true ∧
      (robloxPans lock = true ∨ s.rightDragPanning = true) := by
  simp only [rightDragActive, Bool.and_eq_true, Bool.or_eq_true, and_assoc]

theorem robloxPans_iff : robloxPans lock = true ↔
    ∀ l, lock = some l → l.reportsCurrentPosition = true → l.currentPosition = true := by
  cases lock with
  | none => exact ⟨fun _ => nofun, fun _ => rfl⟩
  | some l =>
    constructor
    · intro h l' hl hr
      obtain rfl := Option.some.inj hl
      simpa [robloxPans, hr] using h
    · intro h
      cases hr : l.reportsCurrentPosition with
      | false => simp [robloxPans, hr]
      | true => simp [robloxPans, hr, h l rfl hr]

/-- A pump with the focus keeps the invariant and captures only for a reason. -/
theorem pump_sound (h : Ready setup fresh s w (queryLock s answers) text) (hf : s.focused = true) :
    Sound setup fresh (pump setup s text answers).owner
        (w.look s.rightButtonHeld (queryLock s answers) answers) ∧
      (fresh → ∀ call ∈ (pump setup s text answers).calls, call.captures = true →
        Justified s (w.look s.rightButtonHeld (queryLock s answers) answers) (queryLock s answers)
          answers text) := by
  have hp := @pump_pumps _ _ answers text hf h.headless
  have hfollow := @followNativeLock_followed setup s answers (queryLock s answers)
  generalize pump setup s text answers = e at hp ⊢
  generalize followNativeLock setup s (queryLock s answers) answers = f at hp hfollow
  obtain ⟨kept, u⟩ := f
  generalize queryLock s answers = lock at h hp hfollow ⊢
  -- What the watch knows once a capture was kept after the native lock.
  have hfirst : kept = true → u.nativeUnlockPending = true →
      (w.look s.rightButtonHeld lock answers).firstReleased =
        some (u.nativeUnlockFrame, u.nativeUnlockMs) := by
    intro hkept hpending
    rcases hfollow.reason hkept with ⟨_, hnot⟩ | ⟨hactive, hne, hcentered, _, _, _, hsince⟩
    · rw [hpending] at hnot
      cases hnot
    obtain ⟨l, rfl⟩ := Option.ne_none_iff_exists'.1 hne
    have hl : l.center = false := hactive
    rcases hsince with ⟨hs, hframe, hms⟩ | ⟨hs, hframe, hms⟩
    · simp only [Watch.look, hl, h.pending hcentered hs]
      simp [← hframe, ← hms]
    · simp only [Watch.look, hl, h.locked hcentered hs]
      simp [← hframe, ← hms]
  have hdragging : (rightDragActive s lock && !text) = true →
      s.rightButtonHeld = true ∧ s.gameSessionActive = true ∧ text = false ∧
        (robloxPans lock = true ∨ s.rightDragPanning = true) := by
    intro hd
    obtain ⟨hactive, htext⟩ := Bool.and_eq_true_iff.1 hd
    obtain ⟨hheld, hsession, hpans⟩ := rightDragActive_iff.1 hactive
    exact ⟨hheld, hsession, by simpa using htext, hpans⟩
  have hpanned : s.rightButtonHeld = true → w.pannedInHold = true ∨ reportsPan lock = true →
      (w.look s.rightButtonHeld lock answers).pannedInHold = true := by
    intro hheld hor
    simpa [Watch.look, hheld] using hor
  refine ⟨⟨?_, ?_, hp.headless, ?_, ?_, ?_⟩, ?_⟩
  · exact h.focus.trans (by rw [hf, hp.focused])
  · intro hnot
    rw [hp.focused] at hnot
    cases hnot
  · intro hcentered hpending
    rw [hp.pending] at hpending
    rw [hp.frame, hp.ms]
    exact hfirst (hp.centered hcentered) hpending
  · intro hcentered hpending
    rw [hp.pending] at hpending
    rcases hfollow.reason (hp.centered hcentered) with ⟨hactive, _⟩ | ⟨_, _, _, hpending', _⟩
    · cases lock with
      | none => cases hactive
      | some l =>
        have hl : l.center = true := hactive
        simp [Watch.look, hl]
    · rw [hpending] at hpending'
      cases hpending'
  · intro hfresh _ hpan
    rw [hp.panning] at hpan
    obtain ⟨hd, hor⟩ := Bool.and_eq_true_iff.1 hpan
    obtain ⟨hheld, hsession, htext, _⟩ := hdragging hd
    refine ⟨hp.held.trans hheld, hpanned hheld ?_⟩
    rcases Bool.or_eq_true_iff.1 hor with hs | hl
    · exact h.panning hfresh hheld hsession htext hs
    · exact .inr hl
  · intro hfresh call hcall hc
    rcases hp.captures call hcall hc with hkept | hd
    · rcases hfollow.reason hkept with ⟨hactive, _⟩ | ⟨_, _, hcentered, hpending, hf, hm, _⟩
      · exact .locked hactive
      · exact .unlocking hcentered (hfirst hkept hpending) hf hm
    · obtain ⟨hheld, hsession, htext, hpans⟩ := hdragging hd
      refine .dragging hheld hsession htext ?_
      rcases hpans with hpans | hs
      · exact .inl (robloxPans_iff.1 hpans)
      · exact .inr (hpanned hheld (h.panning hfresh hheld hsession htext hs))

/-! Runs. -/

/-- The owner and an observer of its run. -/
structure Watched where
  owner : Owner := {}
  watch : Watch := {}

/-- Runs of the owner, by operation and the answers it gets. -/
def watched (setup : Setup) : LTS Watched (Operation × Answers) where
  initial st := st = {}
  step st a st' :=
    st' = ⟨(run setup st.owner a.2 a.1).owner, st.watch.observe st.owner a.1 a.2⟩

/-- A right click that regains the focus finds a pan of an earlier hold, though Roblox reports
none. -/
def StaleDrag (s : Owner) (answers : Answers) : Operation → Prop
  | .onRightButton pressed text _ =>
    pressed = true ∧ s.focused = false ∧ s.rightDragPanning = true ∧ s.gameSessionActive = true ∧
      text = false ∧ reportsPan (queryLock s answers) = false
  | _ => False

/-- A capture requested by an operation is requested in a pump with the focus, for a reason. -/
def CapturesJustified (setup : Setup) (st : Watched) (op : Operation) (answers : Answers) : Prop :=
  ∀ call ∈ (run setup st.owner answers op).calls, call.captures = true →
    ∃ s text, pumped st.owner op = some (s, text) ∧ s.focused = true ∧
      Justified s (st.watch.observe st.owner op answers) (queryLock s answers) answers text

theorem Sound.ready (h : Sound setup fresh s w) (hf : s.focused = true) :
    Ready setup fresh s w lock text :=
  ⟨h.focus, h.headless, h.pending, h.locked, fun hfresh _ _ _ hp => .inl (h.panning hfresh hf hp).2⟩

/-- The focus regained without a click. -/
theorem Sound.regained (h : Sound setup fresh s w) :
    Ready setup fresh { s with focused := true } { w with focusLost := false } lock text := by
  refine ⟨rfl, h.headless, h.pending, h.locked, fun hfresh hheld _ _ hp => ?_⟩
  cases hf : s.focused with
  | false => exact absurd (hheld.symm.trans (h.released hf).2) (by decide)
  | true => exact .inl (h.panning hfresh hf hp).2

/-- A right click: a pan already known is one of this hold, unless the click meets a stale one. -/
theorem Sound.clicked {position : Option PointerPosition} (h : Sound setup fresh s w)
    (hstale : fresh → ¬ StaleDrag s answers (.onRightButton true text position)) :
    Ready setup fresh { s with focused := true, rightButtonHeld := true }
      (w.note s (.onRightButton true text position)) (queryLock s answers) text := by
  refine ⟨?_, h.headless, h.pending, h.locked, fun hfresh _ hsession htext hp => ?_⟩
  · simp
  cases hf : s.focused with
  | true =>
    obtain ⟨hheld, hpanned⟩ := h.panning hfresh hf hp
    left
    simp only [Watch.note_click, hheld, hpanned, Bool.and_true]
  | false =>
    right
    by_contra hreports
    exact hstale hfresh ⟨rfl, hf, hp, hsession, htext, Bool.eq_false_iff.2 hreports⟩

theorem Sound.unclicked {position : Option PointerPosition} (h : Sound setup fresh s w) :
    Ready setup fresh { s with rightButtonHeld := false }
      (w.note s (.onRightButton false text position)) lock text :=
  ⟨(Bool.and_true _).trans h.focus, h.headless, h.pending, h.locked, fun _ hheld => nomatch hheld⟩

/-- A pump without the focus asks for the plain pointer. -/
theorem pump_unfocused (hf : s.focused = false) : pump setup s text answers =
    apply setup { s with desktopShowsRobloxCursor :=
      false } answers false .kArrow none false false := by
  unfold pump
  rw [hf]
  rfl

theorem pump_unfocused_sound (hfocus : w.focusLost = true) (hf : s.focused = false)
    (hheld : s.rightButtonHeld = false)
    (hs : setup.hasBackend = false → s.pointerCentered = false) :
    Sound setup fresh (pump setup s text answers).owner w ∧
      ∀ call ∈ (pump setup s text answers).calls, call.captures = false := by
  rw [pump_unfocused hf]
  constructor
  · exact apply_release_sound hfocus hf hheld hs
  · intro call hcall
    by_contra hc
    exact nomatch apply_captures hcall (Bool.eq_true_of_not_eq_false hc)

theorem onRightButton_calls {pressed : Bool} {position : Option PointerPosition}
    {call : BackendCall}
    (hcall : call ∈ (onRightButton setup s pressed text position answers).calls)
    (hc : call.captures = true) :
    call ∈ (pump setup { s with focused := pressed || s.focused, rightButtonHeld := pressed } text
      answers).calls := by
  unfold onRightButton at hcall
  simp only at hcall
  split at hcall
  · rcases List.mem_cons.1 hcall with rfl | hcall
    · cases hc
    rcases List.mem_append.1 hcall with hcall | hcall
    · exact hcall
    · obtain rfl := List.mem_singleton.1 hcall
      cases hc
  · exact hcall

theorem onRightButton_owner {pressed : Bool} {position : Option PointerPosition} :
    (onRightButton setup s pressed text position answers).owner =
      (pump setup { s with focused := pressed || s.focused, rightButtonHeld := pressed } text
        answers).owner := by
  unfold onRightButton
  simp only
  split <;> rfl

/-- Every operation keeps the invariant, and captures only for a reason. -/
theorem run_sound {op : Operation} (h : Sound setup fresh s w)
    (hstale : fresh → ¬ StaleDrag s answers op) :
    Sound setup fresh (run setup s answers op).owner (w.observe s op answers) ∧
      (fresh → CapturesJustified setup ⟨s, w⟩ op answers) := by
  cases op with
  | pump text =>
    cases hf : s.focused with
    | true =>
      have hw : w.observe s (.pump text) answers =
          w.look s.rightButtonHeld (queryLock s answers) answers := by
        simp only [Watch.observe, pumped, hf, if_true, Watch.note_pump]
      obtain ⟨hsound, hcaptures⟩ := @pump_sound _ _ answers text _ _ (h.ready hf) hf
      rw [← hw] at hsound hcaptures
      exact ⟨hsound, fun hfresh call hcall hc => ⟨s, text, rfl, hf, hcaptures hfresh call hcall hc⟩⟩
    | false =>
      have hw : w.observe s (.pump text) answers = w := by
        simp [Watch.observe, pumped, hf]
      obtain ⟨hsound, hcalls⟩ := @pump_unfocused_sound _ _ answers text fresh _
        (h.focus.trans (by rw [hf]; rfl)) hf (h.released hf).2 h.headless
      rw [hw]
      exact ⟨hsound, fun _ call hcall hc => absurd (hc.symm.trans (hcalls call hcall)) (by decide)⟩
  | onFocusGained text =>
    obtain ⟨hsound, hcaptures⟩ := @pump_sound _ _ answers text _ _
      (@Sound.regained _ _ (queryLock { s with focused := true } answers) _ _ _ h) rfl
    exact ⟨hsound, fun hfresh call hcall hc => ⟨_, text, rfl, rfl, hcaptures hfresh call hcall hc⟩⟩
  | onShiftKeyPressed text =>
    obtain ⟨hsound, hcaptures⟩ := @pump_sound _ _ answers text _ _
      (@Sound.regained _ _ (queryLock { s with focused := true } answers) _ _ _ h) rfl
    exact ⟨hsound, fun hfresh call hcall hc => ⟨_, text, rfl, rfl, hcaptures hfresh call hcall hc⟩⟩
  | onRightButton pressed text position =>
    cases pressed with
    | true =>
      obtain ⟨hsound, hcaptures⟩ := @pump_sound _ _ answers text _ _
        (h.clicked hstale) rfl
      constructor
      · exact onRightButton_owner.symm ▸ hsound
      · intro hfresh call hcall hc
        exact ⟨_, text, rfl, rfl, hcaptures hfresh call (onRightButton_calls hcall hc) hc⟩
    | false =>
      cases hf : s.focused with
      | true =>
        have hw : w.observe s (.onRightButton false text position) answers =
            (w.note s (.onRightButton false text position)).look false (queryLock s answers)
              answers := by
          simp only [Watch.observe, pumped, hf, Bool.or_true, if_true]
          rfl
        obtain ⟨hsound, hcaptures⟩ := @pump_sound _ _ answers text _ _
          (@Sound.unclicked _ _ _ _ _ _ position h) hf
        constructor
        · rw [hw]
          exact onRightButton_owner.symm ▸ hsound
        · intro hfresh call hcall hc
          refine ⟨_, text, rfl, hf, ?_⟩
          rw [hw]
          exact hcaptures hfresh call (onRightButton_calls hcall hc) hc
      | false =>
        have hw : w.observe s (.onRightButton false text position) answers =
            w.note s (.onRightButton false text position) := by
          simp [Watch.observe, pumped, hf]
        have hlost : w.focusLost = true := h.focus.trans (by rw [hf]; rfl)
        obtain ⟨hsound, hcalls⟩ := @pump_unfocused_sound setup
          { s with focused := false || s.focused, rightButtonHeld := false } answers text fresh
          (w.note s (.onRightButton false text position)) (by simp [hlost]) hf rfl h.headless
        constructor
        · rw [hw]
          exact onRightButton_owner.symm ▸ hsound
        · intro _ call hcall hc
          have hcall := @onRightButton_calls _ _ _ _ _ position _ hcall hc
          exact absurd (hc.symm.trans (hcalls call hcall)) (by decide)
  | onFocusLost =>
    constructor
    · exact apply_release_sound rfl rfl rfl h.headless
    · intro _ call hcall hc
      exact nomatch apply_captures hcall hc
  | shutdown =>
    constructor
    · exact apply_release_sound rfl rfl rfl h.headless
    · intro _ call hcall hc
      exact nomatch apply_captures hcall hc
  | setGameSessionActive active => exact ⟨⟨h.1, h.2, h.3, h.4, h.5, h.6⟩, fun _ => nofun⟩
  | registerQuery callbackGiven contextGiven =>
    show Sound setup fresh
        (run setup s answers (.registerQuery callbackGiven contextGiven)).owner w ∧ _
    unfold CapturesJustified run
    simp only
    split
    · exact ⟨⟨h.1, h.2, h.3, h.4, h.5, h.6⟩, fun _ => nofun⟩
    · exact ⟨h, fun _ => nofun⟩
  | clearQuery => exact ⟨⟨h.1, h.2, h.3, h.4, h.5, h.6⟩, fun _ => nofun⟩
  | publishRobloxCursor shape image => exact ⟨⟨h.1, h.2, h.3, h.4, h.5, h.6⟩, fun _ => nofun⟩

variable {st : Watched}

theorem watched_reachable_sound (h : (watched setup).Reachable st) :
    Sound setup False st.owner st.watch := by
  refine h.invariant (I := fun st => Sound setup False st.owner st.watch) ?_ ?_
  · rintro _ rfl
    exact initial_sound
  · rintro st a _ rfl hs
    exact (run_sound hs False.elim).1

/-- The steps that meet no stale drag. -/
def Fresh (st : Watched) (a : Operation × Answers) : Prop := ¬ StaleDrag st.owner a.2 a.1

theorem fresh_reachable_sound (h : ((watched setup).restrict Fresh).Reachable st) :
    Sound setup True st.owner st.watch := by
  refine h.invariant (I := fun st => Sound setup True st.owner st.watch) ?_ ?_
  · rintro _ rfl
    exact initial_sound
  · rintro st a _ ⟨rfl, hfresh⟩ hs
    exact (run_sound hs (fun _ => hfresh)).1

/-- While no click meets a stale drag every capture has its reason, and in every run the pointer
stays free from the loss of the focus until it is regained. -/
theorem capture_safe (setup : Setup) :
    (∀ st a st', ((watched setup).restrict Fresh).Reachable st →
        ((watched setup).restrict Fresh).step st a st' → CapturesJustified setup st a.1 a.2) ∧
      ∀ st, (watched setup).Reachable st → st.watch.focusLost = true →
        st.owner.captured = false := by
  constructor
  · rintro st a _ hr ⟨_, hfresh⟩
    exact (run_sound (fresh_reachable_sound hr) (fun _ => hfresh)).2 trivial
  · intro st hr hlost
    have hs := watched_reachable_sound hr
    exact (hs.released (by simpa [hlost] using hs.focus)).1

/-- A drag in a game session, and the loss of the focus during it. -/
theorem capture_safe_drag : ∃ st st' : Watched,
    (run ⟨true, true⟩ st.owner { lock := some ⟨false, true, true⟩ }
      (.onRightButton true false none)).owner.captured = true ∧
    CapturesJustified ⟨true, true⟩ st (.onRightButton true false none)
      { lock := some ⟨false, true, true⟩ } ∧
    st'.watch.focusLost = true ∧ st'.owner.captured = false := by
  have hsafe := capture_safe ⟨true, true⟩
  refine ⟨_, _, ?_, hsafe.1 _ (.onRightButton true false none,
      { lock := some ⟨false, true, true⟩ }) _
    ⟨{}, [(.registerQuery true true, {}), (.setGameSessionActive true, {})], rfl,
      .cons ⟨rfl, nofun⟩ (.cons ⟨rfl, nofun⟩ (.refl _))⟩ ⟨rfl, ?_⟩, ?_,
    hsafe.2 _ ⟨{}, [(.registerQuery true true, {}), (.setGameSessionActive true, {}),
      (.onRightButton true false none, { lock := some ⟨false, true, true⟩ }), (.onFocusLost, {})],
      rfl, .cons rfl (.cons rfl (.cons rfl (.cons rfl (.refl _))))⟩ rfl⟩
  · decide
  · rintro ⟨_, hf, _⟩
    exact absurd hf (by decide)
  · rfl

/-- A pan, the focus lost while it goes on, and a right click back into the window: the pointer is
captured though Roblox says that it does not pan. -/
theorem stale_drag_captures : ∃ st, (watched ⟨true, true⟩).Reachable st ∧
    ¬ CapturesJustified ⟨true, true⟩ st (.onRightButton true false none)
      { lock := some ⟨false, false, true⟩ } := by
  refine ⟨_, ⟨{}, [(.registerQuery true true, {}), (.setGameSessionActive true, {}),
    (.onRightButton true false none, { lock := some ⟨false, true, true⟩ }), (.onFocusLost, {})],
    rfl, .cons rfl (.cons rfl (.cons rfl (.cons rfl (.refl _))))⟩, ?_⟩
  intro h
  obtain ⟨s, text, hp, -, hj⟩ := h (.apply true .kHidden none false true) (by decide) rfl
  cases hp
  cases hj with
  | locked h => exact absurd h (by decide)
  | unlocking hc => exact absurd hc (by decide)
  | dragging _ _ _ hp =>
    rcases hp with hp | hp
    · exact absurd (hp _ rfl rfl) (by decide)
    · exact absurd hp (by decide)

end Nightcap.Window
