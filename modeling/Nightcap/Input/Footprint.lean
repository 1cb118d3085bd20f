import Nightcap.Lib.StateFrame
import Nightcap.Input.Router

/-! Which key events the text editor takes, and which part of the router a step can change. -/
namespace Nightcap.Input

open Text StateFrame

variable {sink : Sink} {r r' : Router} {scancode : UInt32} {event : KeyEvent}

/-! What the text editor takes for itself. -/

/-- The editor keeps the event from the native side. -/
def swallows (e : Editor) (event : KeyEvent) : Bool :=
  e.snapshot.focused && (isEditKey event || (!event.pressed && shortcutBit event.scancode != 0 &&
    e.activeShortcuts &&& shortcutBit event.scancode != 0))

section

variable (col : Collaborators) (replies : Replies) (e : Editor)

theorem replaceLocked_handled (begin finish : Nat) (replacement : Utf8.Bytes) :
    (replaceLocked col replies e begin finish replacement).2.handled = true := by
  unfold replaceLocked
  dsimp only
  split <;> rfl

theorem syncCursor_handled : (syncCursor col replies e).2.handled = true := by
  unfold syncCursor
  dsimp only
  split <;> rfl

theorem moveCursorLocked_handled (byteOffset : Nat) (extend : Bool) :
    (moveCursorLocked col replies e byteOffset extend).2.handled = true := by
  unfold moveCursorLocked
  dsimp only
  split_ifs <;> first | rfl | exact syncCursor_handled col replies _

theorem selectAllLocked_handled : (selectAllLocked col replies e).2.handled = true := by
  unfold selectAllLocked
  dsimp only
  split_ifs <;> first | rfl | exact syncCursor_handled col replies _

theorem copySelectionLocked_handled (cut : Bool) :
    (copySelectionLocked col replies e cut).2.handled = true := by
  unfold copySelectionLocked
  dsimp only
  split
  · rfl
  · split
    · rfl
    · exact replaceLocked_handled col replies _ _ _ _

theorem pasteLocked_handled : (pasteLocked col replies e).2.handled = true := by
  unfold pasteLocked
  dsimp only
  split
  · rfl
  · split
    · exact replaceLocked_handled col replies _ _ _ _
    · rfl

theorem finishLocked_handled : (finishLocked col replies e).2.handled = true := by
  unfold finishLocked finishText
  dsimp only
  split_ifs <;> rfl

theorem releaseLocked_handled : (releaseLocked col replies e).2.handled = true := by
  unfold releaseLocked
  dsimp only
  split <;> rfl

theorem handleEditKey_handled (event : KeyEvent) :
    (handleEditKey col replies e event).2.handled = true := by
  unfold handleEditKey
  dsimp only
  split_ifs <;> first
    | rfl
    | exact replaceLocked_handled col replies _ _ _ _
    | exact moveCursorLocked_handled col replies _ _ _
    | exact releaseLocked_handled col replies _
    | exact finishLocked_handled col replies _

theorem handlePressedKey_handled (event : KeyEvent) :
    (handlePressedKey col replies e event).2.handled = true := by
  unfold handlePressedKey
  dsimp only
  split_ifs
  · exact selectAllLocked_handled col replies e
  · exact copySelectionLocked_handled col replies e false
  · exact pasteLocked_handled col replies e
  · exact copySelectionLocked_handled col replies e true
  · exact handleEditKey_handled col replies e event

theorem handleKey_handled (event : KeyEvent) :
    (handleKey col replies e event).2.handled = swallows e event := by
  unfold handleKey swallows
  dsimp only
  cases hf : e.snapshot.focused with
  | false => rfl
  | true =>
    rw [if_neg (by simp)]
    split
    · next hshort =>
      rw [hshort]
      simp
    · next hshort =>
      rw [Bool.eq_false_iff.2 hshort]
      cases hkey : isEditKey event with
      | false => rfl
      | true =>
        rw [if_neg (by simp)]
        split_ifs
        · rfl
        · rfl
        · exact handlePressedKey_handled col replies _ event
        · rfl
        · exact handlePressedKey_handled col replies _ event

end

/-! What a step can change. -/

/-- The kinds of input the router keeps apart. -/
inductive Group
  | mouse
  | touch
  | key
  | pad
deriving DecidableEq

def Native.group : Native → Group
  | .mouseMove .. | .mouseButton .. | .mouseWheel .. => .mouse
  | .touch .. => .touch
  | .key .. => .key
  | .gamepadSupportedKey .. | .gamepadSupportedMotion ..
  | .gamepadConnect .. | .gamepadDisconnect ..
  | .gamepadButton .. | .gamepadAxis .. => .pad

/-- What the router keeps of one kind of input, with what its snapshot says of it. -/
def Group.Part : Group → Type
  | .mouse => List Int32 × Nat
  | .touch => List ActiveTouch × Nat
  | .key => List ActiveKey × Nat
  | .pad => List ActiveGamepad × Nat × Nat

def Router.part (r : Router) : (g : Group) → g.Part
  | .mouse => (r.activeMouseButtons, r.snapshot.activeMouseButtons)
  | .touch => (r.activeTouches, r.snapshot.activeTouches)
  | .key => (r.activeKeys, r.snapshot.activeKeys)
  | .pad => (r.gamepads, r.snapshot.detectedGamepads, r.snapshot.connectedGamepads)

/-- Only some kinds of input change between the two, the router stays as active as it was, and it
does not lose the focus. -/
structure Footprint (gs : Group → Prop) (r r' : Router) : Prop where
  active : r'.snapshot.active = r.snapshot.active
  focused : r.snapshot.focused = true → r'.snapshot.focused = true
  part : ∀ g, ¬ gs g → r'.part g = r.part g
  native : ∃ more, r'.native = r.native ++ more ∧ ∀ n ∈ more, gs n.group

/-- The footprint of a step that touches no kind of input. -/
def NoGroup : Group → Prop := fun _ => False

variable {gs : Group → Prop}

instance : IsPreorder Router (Footprint gs) where
  refl r := ⟨rfl, id, fun _ _ => rfl, [], by simp⟩
  trans r₁ r₂ r₃ h₁ h₂ := by
    obtain ⟨more₁, hn₁, hm₁⟩ := h₁.native
    obtain ⟨more₂, hn₂, hm₂⟩ := h₂.native
    refine ⟨h₂.active.trans h₁.active, h₂.focused ∘ h₁.focused,
      fun g hg => (h₂.part g hg).trans (h₁.part g hg), more₁ ++ more₂, ?_, ?_⟩
    · rw [hn₂, hn₁, List.append_assoc]
    · intro n hn
      rcases List.mem_append.1 hn with hn | hn
      · exact hm₁ n hn
      · exact hm₂ n hn

/-- A larger footprint. -/
theorem Footprint.mono {gs' : Group → Prop} (h : Footprint gs r r') (hg : ∀ g, gs g → gs' g) :
    Footprint gs' r r' where
  active := h.active
  focused := h.focused
  part g hn := h.part g (mt (hg g) hn)
  native := by
    obtain ⟨more, hn, hm⟩ := h.native
    exact ⟨more, hn, fun n hmem => hg _ (hm n hmem)⟩

theorem Within.mono {α : Type} {m : RouterM α} {gs' : Group → Prop} (h : Within (Footprint gs) m)
    (hg : ∀ g, gs g → gs' g) : Within (Footprint gs') m := fun r => (h r).mono hg

/-- No list of active inputs changes and nothing is sent. -/
structure SameInput (r r' : Router) : Prop where
  part : ∀ g, r'.part g = r.part g
  native : r'.native = r.native

instance : IsPreorder Router SameInput where
  refl _ := ⟨fun _ => rfl, rfl⟩
  trans _ _ _ h₁ h₂ := ⟨fun g => (h₂.part g).trans (h₁.part g), h₂.native.trans h₁.native⟩

theorem Footprint.sameInput (h : Footprint NoGroup r r') : SameInput r r' := by
  obtain ⟨more, hn, hm⟩ := h.native
  refine ⟨fun g => h.part g id, ?_⟩
  cases more with
  | nil => simpa using hn
  | cons n more => exact (hm n (by simp)).elim

theorem modify_mouse {f : Router → Router} (h : ∀ r, ∃ buttons count, f r =
    { r with
      activeMouseButtons := buttons
      snapshot := { r.snapshot with activeMouseButtons := count } }) :
    Within (Footprint (· = .mouse)) (modify f : RouterM Unit) := by
  intro r
  obtain ⟨buttons, count, hf⟩ := h r
  change Footprint _ r (f r)
  rw [hf]
  exact ⟨rfl, id, fun g hg => by cases g <;> first | rfl | exact absurd rfl hg, [], by simp⟩

theorem modify_touch {f : Router → Router} (h : ∀ r, ∃ touches count, f r =
    { r with activeTouches := touches, snapshot := { r.snapshot with activeTouches := count } }) :
    Within (Footprint (· = .touch)) (modify f : RouterM Unit) := by
  intro r
  obtain ⟨touches, count, hf⟩ := h r
  change Footprint _ r (f r)
  rw [hf]
  exact ⟨rfl, id, fun g hg => by cases g <;> first | rfl | exact absurd rfl hg, [], by simp⟩

theorem modify_key {f : Router → Router} (h : ∀ r, ∃ keys count, f r =
    { r with activeKeys := keys, snapshot := { r.snapshot with activeKeys := count } }) :
    Within (Footprint (· = .key)) (modify f : RouterM Unit) := by
  intro r
  obtain ⟨keys, count, hf⟩ := h r
  change Footprint _ r (f r)
  rw [hf]
  exact ⟨rfl, id, fun g hg => by cases g <;> first | rfl | exact absurd rfl hg, [], by simp⟩

theorem modify_pad {f : Router → Router} (h : ∀ r, ∃ gamepads detected connected, f r =
    { r with
      gamepads
      snapshot :=
        { r.snapshot with detectedGamepads := detected, connectedGamepads := connected } }) :
    Within (Footprint (· = .pad)) (modify f : RouterM Unit) := by
  intro r
  obtain ⟨gamepads, detected, connected, hf⟩ := h r
  change Footprint _ r (f r)
  rw [hf]
  exact ⟨rfl, id, fun g hg => by cases g <;> first | rfl | exact absurd rfl hg, [], by simp⟩

/-- An update of what belongs to no kind of input. -/
theorem modify_other {f : Router → Router} (ha : ∀ r, (f r).snapshot.active = r.snapshot.active)
    (hf : ∀ r, r.snapshot.focused = true → (f r).snapshot.focused = true)
    (hn : ∀ r, (f r).native = r.native) (hp : ∀ r g, (f r).part g = r.part g) :
    Within (Footprint gs) (modify f : RouterM Unit) :=
  within_modify fun r => ⟨ha r, hf r, fun g _ => hp r g, [], by simp [hn r]⟩

theorem takeFocus_frame : Within (Footprint gs) takeFocus :=
  modify_other (fun _ => rfl) (fun _ _ => rfl) (fun _ => rfl) fun _ g => by cases g <;> rfl

theorem countError_frame : Within (Footprint gs)
    (modifySnapshot fun s => { s with nativeErrors := s.nativeErrors + 1 }) :=
  modify_other (fun _ => rfl) (fun _ => id) (fun _ => rfl) fun _ g => by cases g <;> rfl

theorem countEvent_frame (kind : EventKind) :
    Within (Footprint gs) (modifySnapshot (countEvent kind)) := by
  cases kind <;>
    exact modify_other (fun _ => rfl) (fun _ => id) (fun _ => rfl) fun _ g => by cases g <;> rfl

theorem call_frame (sink : Sink) {n : Native} (h : gs n.group) :
    Within (Footprint gs) (call sink n) := by
  intro r
  exact ⟨rfl, id, fun g _ => by cases g <;> rfl, [n], rfl, by simpa using h⟩

theorem call_only (sink : Sink) {n : Native} {g : Group} (h : n.group = g) :
    Within (Footprint (· = g)) (call sink n) := call_frame sink h

theorem nativeResultLocked_frame (status : Status) (kind : EventKind) :
    Within (Footprint gs) (nativeResultLocked status kind) := by
  unfold nativeResultLocked
  refine within_ite (fun _ => ?_) fun _ => ?_
  · exact countError_frame.bind fun _ => within_pure _
  · exact (countEvent_frame kind).bind fun _ => within_pure _

theorem countIf_frame (c : Bool) (kind : EventKind) : Within (Footprint gs) (countIf c kind) := by
  cases c with
  | false => exact within_pure _
  | true => exact countEvent_frame kind

theorem ifOk_frame {next : RouterM Status} (status : Status) (h : Within (Footprint gs) next) :
    Within (Footprint gs) (ifOk status next) := within_ite (fun _ => h) fun _ => within_pure _

theorem configureGamepadLocked_frame (gamepad : ActiveGamepad) (available : Bool) :
    Within (Footprint (· = .pad)) (configureGamepadLocked sink gamepad available) := by
  unfold configureGamepadLocked
  refine (within_foldlM (fun first button => ?_) _ _).bind fun first =>
    (within_foldlM (fun first axis => ?_) _ _).bind fun first =>
      within_foldlM (fun first axis => ?_) _ _
  · exact Within.bind (call_only sink rfl) fun _ => within_pure _
  · exact Within.bind (call_only sink rfl) fun _ => within_pure _
  · refine Within.bind (call_only sink rfl) fun _ => within_ite (fun _ => ?_) fun _ => within_pure _
    exact Within.bind (call_only sink rfl) fun _ => within_pure _

theorem connectGamepadLocked_frame (gamepad : ActiveGamepad) :
    Within (Footprint (· = .pad)) (connectGamepadLocked sink gamepad) := by
  unfold connectGamepadLocked
  refine within_ite (fun _ => within_pure _) fun _ => ?_
  refine (configureGamepadLocked_frame gamepad true).bind fun status => ?_
  refine Within.bind (ifOk_frame status (call_only sink rfl)) fun status => ?_
  refine within_ite (fun _ => ?_) fun _ => Within.bind (modify_pad fun _ => ⟨_, _, _, rfl⟩) fun _ =>
    within_pure _
  exact (configureGamepadLocked_frame gamepad false).bind fun _ =>
    Within.bind (call_only sink rfl) fun _ => within_pure _

theorem sendAxes_frame (gamepad : ActiveGamepad) (x y z : Float32) (axes : List Nat)
    (dispatched : Bool) : Within (Footprint (· = .pad))
    (sendAxes sink gamepad x y z axes dispatched) := by
  induction axes generalizing dispatched with
  | nil => exact within_pure _
  | cons index axes ih =>
    refine within_ite (fun _ => ih dispatched) fun _ => ?_
    refine Within.bind (call_only sink rfl) fun status => ?_
    exact within_ite (fun _ => within_pure _) fun _ => ih true

theorem dispatchGamepadAxesLocked_frame (gamepad : ActiveGamepad) (axis : Nat) :
    Within (Footprint (· = .pad)) (dispatchGamepadAxesLocked sink gamepad axis) := by
  unfold dispatchGamepadAxesLocked
  refine within_ite (fun _ => within_pure _) fun _ => ?_
  refine (connectGamepadLocked_frame gamepad).bind fun connected => ?_
  refine within_ite (fun _ => within_pure _) fun _ => ?_
  refine (sendAxes_frame _ _ _ _ _ _).bind fun sent => ?_
  exact within_ite (fun _ => within_pure _) fun _ => within_pure _

theorem releaseConnected_frame (gamepad : ActiveGamepad) :
    Within (Footprint (· = .pad)) (releaseConnected sink gamepad) := by
  unfold releaseConnected
  refine (within_foldlM (fun first button => ?_) _ _).bind fun first =>
    within_foldlM (fun state axis => ?_) _ _
  · refine within_ite (fun _ => ?_) fun _ => within_pure _
    exact Within.bind (call_only sink rfl) fun status =>
      (countIf_frame _ _).bind fun _ => within_pure _
  · exact (dispatchGamepadAxesLocked_frame _ _).bind fun sent =>
      (countIf_frame _ _).bind fun _ => within_pure _

theorem releaseGamepadInputsLocked_frame (gamepad : ActiveGamepad) :
    Within (Footprint (· = .pad)) (releaseGamepadInputsLocked sink gamepad) := by
  unfold releaseGamepadInputsLocked
  refine within_ite (fun _ => ?_) fun _ => within_pure _
  exact (releaseConnected_frame gamepad).bind fun _ => within_pure _

theorem disconnectGamepadLocked_frame (gamepad : ActiveGamepad) :
    Within (Footprint (· = .pad)) (disconnectGamepadLocked sink gamepad) := by
  unfold disconnectGamepadLocked
  refine (releaseGamepadInputsLocked_frame gamepad).bind fun released => ?_
  refine within_ite (fun _ => ?_) fun _ => within_pure _
  refine (configureGamepadLocked_frame _ _).bind fun status => ?_
  refine Within.bind (call_only sink rfl) fun status => ?_
  exact Within.bind (modify_pad fun _ => ⟨_, _, _, rfl⟩) fun _ => within_pure _

theorem disconnectGamepadsLocked_frame : Within (Footprint (· = .pad))
    (disconnectGamepadsLocked sink) := by
  unfold disconnectGamepadsLocked
  refine within_get.bind fun r => (within_foldlM (fun first gamepad => ?_) _ _).bind fun first => ?_
  · exact (disconnectGamepadLocked_frame gamepad).bind fun _ => within_pure _
  · refine Within.bind (modify_pad fun _ => ⟨_, _, _, rfl⟩) fun _ => ?_
    exact Within.bind (modify_pad fun _ => ⟨_, _, _, rfl⟩) fun _ => within_pure _

theorem addGamepad_frame (event : GamepadConnectionEvent) (status : Status) :
    Within (Footprint (· = .pad)) (addGamepad event status) := by
  have hdone : Within (Footprint (· = .pad)) (if status.isOk = true then
      (pure ⟨.kStateUpdated, .kGamepadConnection, {}⟩ : RouterM DispatchResult)
      else nativeResultLocked status .kGamepadConnection) :=
    within_ite (fun _ => within_pure _) fun _ => nativeResultLocked_frame _ _
  unfold addGamepad
  refine within_ite (fun _ => within_get.bind fun r => ?_) fun _ => hdone
  split
  · exact within_pure _
  · refine Within.bind (modify_pad fun _ => ⟨_, _, _, rfl⟩) fun _ => ?_
    exact Within.bind (modify_pad fun _ => ⟨_, _, _, rfl⟩) fun _ => hdone

theorem handleGamepadConnectionLocked_frame (event : GamepadConnectionEvent) :
    Within (Footprint (· = .pad)) (handleGamepadConnectionLocked sink event) := by
  unfold handleGamepadConnectionLocked
  refine within_ite (fun _ => within_pure _) fun _ =>
    within_ite (fun _ => within_pure _) fun _ => ?_
  refine within_get.bind fun r => ?_
  split
  · refine within_ite (fun _ => within_pure _) fun _ => ?_
    refine (disconnectGamepadLocked_frame _).bind fun disconnected => ?_
    refine Within.bind (modify_pad fun _ => ⟨_, _, _, rfl⟩) fun _ => ?_
    exact Within.bind (modify_pad fun _ => ⟨_, _, _, rfl⟩) fun _ => addGamepad_frame event _
  · exact addGamepad_frame event {}

theorem handleGamepadButtonLocked_frame (event : GamepadButtonEvent) :
    Within (Footprint (· = .pad)) (handleGamepadButtonLocked sink event) := by
  unfold handleGamepadButtonLocked
  refine within_get.bind fun r => ?_
  split
  · exact within_pure _
  · refine within_ite (fun _ => within_pure _) fun _ => within_ite (fun _ => within_pure _) fun _ =>
      within_ite (fun _ => within_pure _) fun _ => within_ite (fun _ => within_pure _) fun _ => ?_
    refine (connectGamepadLocked_frame _).bind fun connected => ?_
    refine Within.bind (ifOk_frame _ (call_only sink rfl)) fun status => ?_
    exact Within.bind (modify_pad fun _ => ⟨_, _, _, rfl⟩) fun _ =>
      nativeResultLocked_frame _ _

theorem handleGamepadAxisLocked_frame (event : GamepadAxisEvent) :
    Within (Footprint (· = .pad)) (handleGamepadAxisLocked sink event) := by
  unfold handleGamepadAxisLocked
  refine within_get.bind fun r => ?_
  split
  · exact within_pure _
  · refine within_ite (fun _ => within_pure _) fun _ => within_ite (fun _ => within_pure _) fun _ =>
      within_ite (fun _ => within_pure _) fun _ => ?_
    refine (dispatchGamepadAxesLocked_frame _ _).bind fun sent => ?_
    refine Within.bind (modify_pad fun _ => ⟨_, _, _, rfl⟩) fun _ => ?_
    exact within_ite (fun _ => within_pure _) fun _ => nativeResultLocked_frame _ _

theorem placePointer_frame (moves : Bool) (x y : Float32) :
    Within (Footprint gs) (placePointer moves x y) := by
  refine within_ite (fun _ => ?_) fun _ => within_modify fun r => ?_
  · exact modify_other (fun _ => rfl) (fun _ => id) (fun _ => rfl) fun _ g => by cases g <;> rfl
  · dsimp only
    split <;> exact ⟨rfl, id, fun g _ => by cases g <;> rfl, [], by simp⟩

theorem handleMouseMotionLocked_frame (event : MouseMotionEvent) :
    Within (Footprint (· = .mouse)) (handleMouseMotionLocked sink event) := by
  unfold handleMouseMotionLocked
  refine within_ite (fun _ => within_pure _) fun _ => within_get.bind fun r => ?_
  refine (placePointer_frame _ _ _).bind fun _ => within_get.bind fun r => ?_
  exact Within.bind (call_only sink rfl) fun _ => nativeResultLocked_frame _ _

theorem handleMouseButtonLocked_frame (event : MouseButtonEvent) :
    Within (Footprint (· = .mouse)) (handleMouseButtonLocked sink event) := by
  unfold handleMouseButtonLocked
  refine within_ite (fun _ => within_pure _) fun _ =>
    within_ite (fun _ => within_pure _) fun _ => ?_
  refine (placePointer_frame _ _ _).bind fun _ => within_get.bind fun r => ?_
  refine Within.bind (call_only sink rfl) fun status => ?_
  refine Within.bind (within_ite (fun _ => ?_) fun _ => within_pure _) fun _ =>
    nativeResultLocked_frame _ _
  exact modify_mouse fun _ => ⟨_, _, rfl⟩

theorem handleMouseWheelLocked_frame (event : MouseWheelEvent) :
    Within (Footprint (· = .mouse)) (handleMouseWheelLocked sink event) := by
  unfold handleMouseWheelLocked
  refine within_ite (fun _ => within_pure _) fun _ => ?_
  refine (placePointer_frame _ _ _).bind fun _ => within_get.bind fun r => ?_
  exact Within.bind (call_only sink rfl) fun _ => nativeResultLocked_frame _ _

theorem dispatchTouch_frame (event : TouchEvent) (active : Option Nat) (pointerId action : Int32) :
    Within (Footprint (· = .touch)) (dispatchTouch sink event active pointerId action) := by
  unfold dispatchTouch
  refine within_get.bind fun r => Within.bind (call_only sink rfl) fun status => ?_
  refine Within.bind (modify_touch fun r => ?_) fun _ =>
    Within.bind (modify_touch fun r => ⟨_, _, rfl⟩) fun _ => nativeResultLocked_frame _ _
  split
  · exact ⟨_, _, rfl⟩
  · cases active with
    | none => exact ⟨_, _, rfl⟩
    | some index =>
      dsimp only
      split_ifs <;> exact ⟨_, _, rfl⟩

theorem handleTouchLocked_frame (event : TouchEvent) :
    Within (Footprint (· = .touch)) (handleTouchLocked sink event) := by
  unfold handleTouchLocked
  refine within_ite (fun _ => within_pure _) fun _ => within_get.bind fun r => ?_
  split
  · exact within_pure _
  · exact within_ite (fun _ => within_pure _) fun _ => dispatchTouch_frame _ _ _ _
  · exact within_pure _
  · exact dispatchTouch_frame _ _ _ _

theorem releaseOne_frame {n : Native} {g : Group} (present : Bool)
    (kind : EventKind) (first : Status)
    (h : n.group = g) : Within (Footprint (· = g)) (releaseOne sink present n kind first) := by
  refine within_ite (fun _ => within_pure _) fun _ => ?_
  exact Within.bind (call_only sink h) fun _ => (countIf_frame _ _).bind fun _ => within_pure _

theorem releaseOne_native (n : Native) (kind : EventKind) (first : Status) (r : Router) :
    ((releaseOne sink true n kind first).run r).2.native = r.native ++ [n] := by
  have hcount : Within SameInput (countIf (sink.answer r.native n).isOk kind) :=
    fun s => (countIf_frame _ kind s).sameInput
  exact (hcount { r with native := r.native ++ [n] }).native

/-- A loop of releases makes one call for each. -/
theorem releaseLoop_native {ι : Type} (f : ι → Native) (kind : EventKind) (xs : List ι)
    (first : Status) (r : Router) :
    ((xs.foldlM (fun first x => releaseOne sink true (f x) kind first) first).run r).2.native =
      r.native ++ xs.map f := by
  induction xs generalizing first r with
  | nil => exact (List.append_nil _).symm
  | cons x xs ih =>
    rw [List.foldlM_cons, run_bind_snd, ih, releaseOne_native, List.append_assoc]
    rfl

theorem releaseGamepads_frame (first : Status) (gamepads : List ActiveGamepad) :
    Within (Footprint (· = .pad)) (releaseGamepads sink first gamepads) := by
  induction gamepads generalizing first with
  | nil => exact within_pure _
  | cons gamepad gamepads ih =>
    exact (releaseGamepadInputsLocked_frame gamepad).bind fun _ =>
      (ih _).bind fun _ => within_pure _

theorem releaseAllGamepads_frame (sink : Sink) : Within (Footprint (· = .pad))
    (releaseAllGamepads sink) := by
  unfold releaseAllGamepads
  refine within_get.bind fun r => (releaseGamepads_frame _ _).bind fun released => ?_
  exact Within.bind (modify_pad fun _ => ⟨_, _, _, rfl⟩) fun _ => within_pure _

theorem releaseMouseButtons_frame (sink : Sink) (first : Status) :
    Within (Footprint (· = .mouse)) (releaseMouseButtons sink first) := by
  unfold releaseMouseButtons
  refine within_get.bind fun r =>
    Within.bind (within_foldlM (fun first button => ?_) _ _) fun first => ?_
  · exact releaseOne_frame _ _ _ rfl
  · exact Within.bind (modify_mouse fun _ => ⟨_, _, rfl⟩) fun _ => within_pure _

theorem releaseTouches_frame (sink : Sink) (first : Status) :
    Within (Footprint (· = .touch)) (releaseTouches sink first) := by
  unfold releaseTouches
  refine within_get.bind fun r =>
    Within.bind (within_foldlM (fun first touch => ?_) _ _) fun first => ?_
  · exact releaseOne_frame _ _ _ rfl
  · exact Within.bind (modify_touch fun _ => ⟨_, _, rfl⟩) fun _ => within_pure _

theorem withEditor_frame {α : Type} (f : Editor → Editor × α) :
    Within (Footprint gs) (withEditor f) := by
  unfold withEditor
  refine within_get.bind fun r => ?_
  refine Within.bind ?_ fun _ => within_pure _
  exact modify_other (fun _ => rfl) (fun _ => id) (fun _ => rfl) fun _ g => by cases g <;> rfl

theorem endText_frame (replies : Replies) (status : Status) :
    Within (Footprint gs) (endText sink replies status) := by
  unfold endText
  refine within_get.bind fun r => within_ite (fun _ => ?_) fun _ => within_pure _
  exact (withEditor_frame _).bind fun _ => within_pure _

theorem textResult_frame (result : EditResult) : Within (Footprint gs) (textResult result) := by
  unfold textResult
  refine within_ite (fun _ => countError_frame.bind fun _ => within_pure _) fun _ => ?_
  refine Within.bind (within_ite (fun _ => ?_) fun _ => within_pure _) fun _ => within_pure _
  exact modify_other (fun _ => rfl) (fun _ => id) (fun _ => rfl) fun _ g => by cases g <;> rfl

theorem handleText_frame (step : Editor → Editor × EditResult) :
    Within (Footprint gs) (handleText step) := by
  unfold handleText
  refine (withEditor_frame _).bind fun result =>
    within_ite (fun _ => ?_) fun _ => textResult_frame _
  refine Within.bind ?_ fun _ => within_pure _
  exact modify_other (fun _ => rfl) (fun _ => id) (fun _ => rfl) fun _ g => by cases g <;> rfl

theorem handleKeyLocked_only (event : KeyEvent) :
    Within (Footprint (· = .key)) (handleKeyLocked sink event) := by
  unfold handleKeyLocked
  refine within_ite (fun _ => within_pure _) fun _ =>
    within_ite (fun _ => within_pure _) fun _ => ?_
  refine Within.bind (call_only sink rfl) fun status => ?_
  refine Within.bind (within_ite (fun _ => ?_) fun _ => within_pure _) fun _ =>
    nativeResultLocked_frame _ _
  exact modify_key fun _ => ⟨_, _, rfl⟩

theorem releaseKeys_frame (sink : Sink) (keys : List ActiveKey) (first : Status) :
    Within (Footprint (· = .key)) (releaseKeys sink keys first) := by
  refine within_foldlM (fun first key => ?_) _ _
  exact releaseOne_frame _ _ _ rfl

theorem handleKeyEvent_frame (replies : Replies) (event : KeyEvent) :
    Within (Footprint (· = .key)) (handleKeyEvent sink replies event) := by
  unfold handleKeyEvent
  refine (withEditor_frame _).bind fun result => ?_
  exact within_ite (fun _ => textResult_frame _) fun _ => handleKeyLocked_only event

/-! Steps of the router. -/

/-- The kind of input an event is of. -/
def PlatformEvent.group : PlatformEvent → Option Group
  | .mouseMotion _ | .mouseButton _ | .mouseWheel _ => some .mouse
  | .touch _ => some .touch
  | .key _ => some .key
  | .gamepadConnection _ | .gamepadAxis _ | .gamepadButton _ => some .pad
  | .quit | .windowResized _ | .windowFocus _ | .textInput _ | .textEditing _ => none

/-- An event that does not move the focus changes its own kind of input only. -/
theorem handleActiveEvent_frame (replies : Replies) (event : PlatformEvent)
    (hf : ∀ focused, event ≠ .windowFocus focused) :
    Within (Footprint (event.group = some ·)) (handleActiveEvent sink replies event) := by
  have hone {α : Type} {m : RouterM α} {g : Group} (h : Within (Footprint (· = g)) m) :
      Within (Footprint (some g = some ·)) m := Within.mono h fun _ hg => congrArg some hg.symm
  cases event with
  | quit => exact within_pure _
  | windowResized viewport =>
    refine within_ite (fun _ => within_pure _) fun _ => Within.bind ?_ fun _ => within_pure _
    exact modify_other (fun _ => rfl) (fun _ => id) (fun _ => rfl) fun _ g => by cases g <;> rfl
  | windowFocus focused => exact absurd rfl (hf focused)
  | gamepadConnection event => exact hone (handleGamepadConnectionLocked_frame event)
  | gamepadButton event => exact hone (handleGamepadButtonLocked_frame event)
  | gamepadAxis event => exact hone (handleGamepadAxisLocked_frame event)
  | mouseMotion event =>
    refine within_get.bind fun r => within_ite (fun _ => within_pure _) fun _ => ?_
    exact hone (handleMouseMotionLocked_frame event)
  | mouseButton event =>
    exact takeFocus_frame.bind fun _ => hone (handleMouseButtonLocked_frame event)
  | mouseWheel event =>
    exact takeFocus_frame.bind fun _ => hone (handleMouseWheelLocked_frame event)
  | touch event => exact takeFocus_frame.bind fun _ => hone (handleTouchLocked_frame event)
  | key event => exact takeFocus_frame.bind fun _ => hone (handleKeyEvent_frame replies event)
  | textInput text => exact takeFocus_frame.bind fun _ => handleText_frame _
  | textEditing event => exact takeFocus_frame.bind fun _ => handleText_frame _

theorem endText_same (sink : Sink) (replies : Replies) (status : Status) :
    Within SameInput (endText sink replies status) :=
  fun r => (endText_frame replies status r).sameInput

/-- After the gamepads, `ReleasePressedInputsLocked` leaves them alone. -/
theorem releasePressedInputsLocked_pads (sink : Sink) (r : Router) :
    Footprint (· ≠ .pad) ((releaseAllGamepads sink).run r).2
      ((releasePressedInputsLocked sink).run r).2 := by
  have hother {α : Type} {m : RouterM α} {g : Group} (h : Within (Footprint (· = g)) m)
      (hg : g ≠ .pad) : Within (Footprint (· ≠ .pad)) m := Within.mono h fun _ he => he ▸ hg
  rw [releasePressedInputsLocked, run_bind_snd]
  refine Within.bind (hother (releaseMouseButtons_frame sink _) nofun) (fun first => ?_) _
  refine Within.bind (hother (releaseTouches_frame sink first) nofun) fun first => ?_
  refine within_get.bind fun s => ?_
  refine Within.bind (hother (releaseKeys_frame sink _ first) nofun) fun first => ?_
  refine Within.bind (within_modify fun s => ?_) fun _ => within_pure _
  refine ⟨rfl, id, fun g hg => ?_, [], by simp⟩
  obtain rfl : g = .pad := not_not.1 hg
  rfl

/-- What `ReleasePressedInputsLocked` does to the mouse buttons. -/
theorem releasePressedInputsLocked_mouse (sink : Sink) (r : Router) :
    ((releasePressedInputsLocked sink).run r).2.part .mouse = ([], 0) := by
  rw [releasePressedInputsLocked, run_bind_snd, run_bind_snd]
  generalize (releaseAllGamepads sink).run r = pads
  have hnone : ((releaseMouseButtons sink pads.1).run pads.2).2.activeMouseButtons = [] := rfl
  generalize (releaseMouseButtons sink pads.1).run pads.2 = mouse at hnone ⊢
  have htouches := releaseTouches_frame sink mouse.1 mouse.2
  rw [run_bind_snd]
  generalize (releaseTouches sink mouse.1).run mouse.2 = touches at htouches ⊢
  have hkeys := releaseKeys_frame sink touches.2.activeKeys touches.1 touches.2
  have hm := congrArg Prod.fst ((hkeys.part .mouse nofun).trans (htouches.part .mouse nofun))
  exact Prod.ext (hm.trans hnone) rfl

/-- What `ReleasePressedInputsLocked` does to the touches. -/
theorem releasePressedInputsLocked_touches (sink : Sink) (r : Router) :
    let r' := ((releasePressedInputsLocked sink).run r).2
    ∃ s first, Footprint (· ≠ .touch) r s ∧ r'.activeTouches = [] ∧ r'.snapshot.activeTouches = 0 ∧
      ∃ more, r'.native = ((releaseTouches sink first).run s).2.native ++ more ∧
        ∀ n ∈ more, n.group ≠ .touch := by
  have hother {α : Type} {m : RouterM α} {g : Group} (h : Within (Footprint (· = g)) m)
      (hg : g ≠ .touch) : Within (Footprint (· ≠ .touch)) m := Within.mono h fun _ he => he ▸ hg
  have hpads := hother (releaseAllGamepads_frame sink) nofun r
  have hmouse := hother (releaseMouseButtons_frame sink ((releaseAllGamepads sink).run r).1) nofun
    ((releaseAllGamepads sink).run r).2
  have hbefore := trans_of _ hpads hmouse
  rw [releasePressedInputsLocked, run_bind_snd, run_bind_snd, run_bind_snd]
  generalize ((releaseMouseButtons sink ((releaseAllGamepads sink).run r).1).run
    ((releaseAllGamepads sink).run r).2) = mouse at hbefore ⊢
  have hnone : ((releaseTouches sink mouse.1).run mouse.2).2.activeTouches = [] := rfl
  refine ⟨mouse.2, mouse.1, hbefore, ?_⟩
  generalize (releaseTouches sink mouse.1).run mouse.2 = touches at hnone ⊢
  have hkeys := releaseKeys_frame sink touches.2.activeKeys touches.1 touches.2
  obtain ⟨more, hn, hm⟩ := hkeys.native
  refine ⟨(congrArg Prod.fst (hkeys.part .touch nofun)).trans hnone, rfl,
    more, hn, fun n hmem => ?_⟩
  rw [hm n hmem]
  exact nofun

/-- A focus event of a router that is not focused, or that keeps the focus. -/
theorem handleWindowFocus_frame (replies : Replies) (focused : Bool)
    (h : (!focused && r.snapshot.focused) = false) :
    Footprint gs r ((handleWindowFocus sink replies focused).run r).2 := by
  have hrun : ((handleWindowFocus sink replies focused).run r).2 =
      { r with snapshot := { r.snapshot with focused } } := by
    unfold handleWindowFocus
    rw [StateT.run_bind, StateT.run_get, pure_bind, h]
    rfl
  rw [hrun]
  refine ⟨rfl, ?_, fun g _ => by cases g <;> rfl, [], by simp⟩
  intro hfocused
  cases focused with
  | true => rfl
  | false =>
    rw [hfocused] at h
    cases h

/-- A focus event that takes the focus away releases everything. -/
theorem handleWindowFocus_release (sink : Sink) (replies : Replies)
    (hf : r.snapshot.focused = true) :
    let s := ((releasePressedInputsLocked sink).run r).2
    let r' := ((handleWindowFocus sink replies false).run r).2
    SameInput s r' ∧ r'.snapshot.focused = false ∧ r'.snapshot.active = s.snapshot.active := by
  intro s
  have hrun : (handleWindowFocus sink replies false).run r =
      (do
        let status ← endText sink replies ((releasePressedInputsLocked sink).run r).1
        modifySnapshot fun s => { s with focused := false }
        if !status.isOk then
          modifySnapshot fun s => { s with nativeErrors := s.nativeErrors + 1 }
          pure ⟨.kNativeError, .kFocus, status⟩
        else pure ⟨.kStateUpdated, .kFocus, {}⟩ : RouterM DispatchResult).run s := by
    unfold handleWindowFocus
    rw [StateT.run_bind, StateT.run_get, pure_bind, hf]
    rfl
  rw [hrun]
  refine ⟨?_, ?_, ?_⟩
  · refine Within.bind (endText_same sink replies _) (fun status => ?_) _
    refine Within.bind (within_modify fun s => ⟨fun g => by cases g <;> rfl, rfl⟩) fun _ => ?_
    refine within_ite (fun _ => Within.bind ?_ fun _ => within_pure _) fun _ => within_pure _
    exact fun s => (countError_frame s).sameInput
  · refine ends_after (P := fun s : Router => s.snapshot.focused = false) (fun status => ?_) _
    refine Ends.bind (ends_modify fun s => rfl) fun _ => ?_
    exact keeps_ite (fun _ => Keeps.bind (keeps_modify fun s hs => hs) fun _ => keeps_pure _)
      fun _ => keeps_pure _
  · refine Keeps.bind (P := fun t : Router => t.snapshot.active = s.snapshot.active) ?_
      (fun status => ?_)
      s rfl
    · exact Within.keeps (R := Footprint NoGroup) (endText_frame replies _) fun _ _ htu ht =>
        htu.active.trans ht
    · refine Keeps.bind (keeps_modify fun s hs => hs) fun _ => ?_
      exact keeps_ite (fun _ => Keeps.bind (keeps_modify fun s hs => hs) fun _ => keeps_pure _)
        fun _ => keeps_pure _

/-- The counts of the snapshot that `Deactivate` clears once more. -/
def InputSnapshot.closed (s : InputSnapshot) : InputSnapshot :=
  { s with
    active := false, focused := false
    activeMouseButtons := 0, activeTouches := 0, activeKeys := 0 }

theorem closed_same (hp : ∀ g, r'.part g = r.part g) (hn : r'.native = r.native)
    (hm : r.snapshot.activeMouseButtons = 0) (ht : r.snapshot.activeTouches = 0)
    (hk : r.snapshot.activeKeys = 0) : SameInput r { r' with snapshot := r'.snapshot.closed } where
  part g := by
    cases g with
    | mouse =>
      have hb : r'.activeMouseButtons = r.activeMouseButtons := congrArg Prod.fst (hp .mouse)
      exact Prod.ext hb hm.symm
    | touch =>
      have hb : r'.activeTouches = r.activeTouches := congrArg Prod.fst (hp .touch)
      exact Prod.ext hb ht.symm
    | key =>
      have hb : r'.activeKeys = r.activeKeys := congrArg Prod.fst (hp .key)
      exact Prod.ext hb hk.symm
    | pad => exact hp .pad
  native := hn

/-- What `Deactivate` does to the inputs. -/
theorem deactivate_release (sink : Sink) (replies : Replies) (ha : r.snapshot.active = true) :
    let s := ((releasePressedInputsLocked sink).run r).2
    let r' := ((deactivate sink replies).run r).2
    SameInput ((disconnectGamepadsLocked sink).run s).2 r' ∧ r'.snapshot.active = false ∧
      r'.snapshot.focused = false := by
  intro s
  obtain ⟨status, hrun⟩ : ∃ status, ((deactivate sink replies).run r).2 =
      let t := ((endText sink replies status).run ((disconnectGamepadsLocked sink).run s).2).2
      { t with snapshot := t.snapshot.closed } := by
    unfold deactivate
    rw [StateT.run_bind, StateT.run_get, pure_bind, ha]
    exact ⟨_, rfl⟩
  have hcounts : s.snapshot.activeMouseButtons = 0 ∧ s.snapshot.activeTouches = 0 ∧
      s.snapshot.activeKeys = 0 := ⟨rfl, rfl, rfl⟩
  clear_value s
  have hnone : Footprint (· = .pad) s ((disconnectGamepadsLocked sink).run s).2 :=
    disconnectGamepadsLocked_frame s
  have hend := endText_same sink replies status ((disconnectGamepadsLocked sink).run s).2
  have hm := congrArg Prod.snd (hnone.part .mouse nofun)
  have ht := congrArg Prod.snd (hnone.part .touch nofun)
  have hk := congrArg Prod.snd (hnone.part .key nofun)
  rw [hrun]
  exact ⟨closed_same hend.part hend.native (hm.trans hcounts.1) (ht.trans hcounts.2.1)
    (hk.trans hcounts.2.2), rfl, rfl⟩

/-- The router after `Activate`. -/
def Router.activated (r : Router) (viewport : Viewport) (focused : Bool) : Router :=
  { textEditor := r.textEditor
    rawMouse := r.rawMouse
    native := r.native
    snapshot := { active := true, focused, viewport } }

/-- A property of one kind of input outlives a call if it outlives those that can change it. -/
theorem perform_keeps {g : Group} {P : Router → Prop} {call : Call} {replies : Replies}
    (hframe : ∀ r r', Footprint (· ≠ g) r r' → P r → P r')
    (hactivate : ∀ viewport focused, r.snapshot.active = false → P (r.activated viewport focused))
    (hdeactivate : call = .deactivate → r.snapshot.active = true →
      P ((deactivate sink replies).run r).2)
    (hfocus : call = .handleEvent (.windowFocus false) → r.snapshot.active = true →
      r.snapshot.focused = true →
      P ((handleWindowFocus sink replies false).run r).2)
    (hevent : ∀ event, call = .handleEvent event → event.group = some g → r.snapshot.active = true →
      P ((handleActiveEvent sink replies event).run r).2) (h : P r) :
    P (perform sink r (call, replies)) := by
  cases call with
  | activate viewport focused =>
    change P ((activate viewport focused).run r).2
    unfold activate
    rw [StateT.run_bind, StateT.run_get, pure_bind]
    split
    · exact h
    · next hactive =>
      split
      · exact h
      · exact hactivate viewport focused (Bool.eq_false_iff.2 hactive)
  | deactivate =>
    cases hactive : r.snapshot.active with
    | true => exact hdeactivate rfl hactive
    | false =>
      have hrun : perform sink r (.deactivate, replies) = r := by
        change ((deactivate sink replies).run r).2 = r
        unfold deactivate
        rw [StateT.run_bind, StateT.run_get, pure_bind, hactive]
        rfl
      rw [hrun]
      exact h
  | beginTextFocusSession session =>
    refine hframe
      _ _ (within_get.bind (fun s => within_ite (fun _ => within_pure _) fun _ => ?_) r) h
    exact withEditor_frame _
  | endTextFocusSession handle generation notify => exact hframe _ _ (withEditor_frame _ r) h
  | replaceFocusedTextFromEngine generation text => exact hframe _ _ (withEditor_frame _ r) h
  | updateTextFocusProperties generation properties => exact hframe _ _ (withEditor_frame _ r) h
  | setRawMouseEnabled enabled =>
    have hset : Footprint (· ≠ g) r { r with rawMouse := enabled } :=
      ⟨rfl, id, fun g _ => by cases g <;> rfl, [], by simp⟩
    exact hframe _ _ hset h
  | handleEvent event =>
    rw [perform_event]
    cases hactive : r.snapshot.active with
    | false => exact h
    | true =>
      rw [if_pos rfl]
      by_cases hg : event.group = some g
      · exact hevent event rfl hg hactive
      · by_cases hf : ∃ focused, event = .windowFocus focused
        · obtain ⟨focused, rfl⟩ := hf
          cases hlost : (!focused && r.snapshot.focused) with
          | false => exact hframe _ _ (handleWindowFocus_frame replies focused hlost) h
          | true =>
            obtain ⟨hf, hfocused⟩ := Bool.and_eq_true_iff.1 hlost
            obtain rfl : focused = false := by simpa using hf
            exact hfocus rfl hactive hfocused
        · rw [not_exists] at hf
          refine hframe _ _ ?_ h
          exact (handleActiveEvent_frame replies event hf r).mono fun g' hg' he => hg (he ▸ hg')

end Nightcap.Input
