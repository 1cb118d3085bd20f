import Nightcap.Lib.Signal
import Nightcap.Lib.Transition
import Nightcap.Input.Footprint

/-! Runs of the input router: the native key-downs and key-ups of a scancode are bracketed. -/
namespace Nightcap.Input

open Text Signal StateFrame Transition

variable {sink : Sink} {r r' : Router} {scancode : UInt32} {event : KeyEvent} {gs : Group → Prop}

/-- The native calls that press or release a scancode. -/
def keySignal (scancode : UInt32) : Native → Option Bool
  | .key s pressed _ _ => if s = scancode then some pressed else none
  | _ => none

theorem keySignal_eq_none {n : Native} (h : n.group ≠ .key) : keySignal scancode n = none := by
  cases n with
  | key => exact absurd rfl h
  | _ => rfl

/-- The scancode is in `active_keys_`. -/
def Active (r : Router) (scancode : UInt32) : Prop := scancode ∈ r.activeKeys.map (·.sdlScancode)

instance : Decidable (Active r scancode) := inferInstanceAs (Decidable (_ ∈ _))

/-- What holds of the keys between two calls of the router. -/
structure KeysSound (sink : Sink) (scancode : UInt32) (r : Router) : Prop where
  nodup : (r.activeKeys.map (·.sdlScancode)).Nodup
  active_iff : Active r scancode ↔ held (keySignal scancode) r.native = true
  bracketed : Bracketed (keySignal scancode) r.native
  absent : sink.key = false → r.activeKeys = []
  inactive : r.snapshot.active = false → r.activeKeys = []

theorem KeysSound.frame (h : KeysSound sink scancode r) (hf : Footprint gs r r') (hg : ¬ gs .key) :
    KeysSound sink scancode r' := by
  obtain ⟨more, hn, hm⟩ := hf.native
  have hk : r'.activeKeys = r.activeKeys := congrArg Prod.fst (hf.part .key hg)
  have ha := hf.active
  have hquiet : ∀ n ∈ more, keySignal scancode n = none :=
    fun n hmem => keySignal_eq_none fun he => hg (he ▸ hm n hmem)
  constructor
  · rw [hk]
    exact h.nodup
  · rw [Active, hk, hn, held_append hquiet]
    exact h.active_iff
  · rw [hn]
    exact h.bracketed.append hquiet
  · rw [hk]
    exact h.absent
  · rw [hk, ha]
    exact h.inactive

theorem KeysSound.quiet (h : KeysSound sink scancode r) (hf : Footprint NoGroup r r') :
    KeysSound sink scancode r' := h.frame hf id

/-- The focus of the window is independent of the keys. -/
theorem KeysSound.congr (h : KeysSound sink scancode r) (hk : r'.activeKeys = r.activeKeys)
    (ha : r'.snapshot.active = r.snapshot.active) (hn : r'.native = r.native) :
    KeysSound sink scancode r' where
  nodup := by
    rw [hk]
    exact h.nodup
  active_iff := by
    rw [Active, hk, hn]
    exact h.active_iff
  bracketed := by
    rw [hn]
    exact h.bracketed
  absent := by
    rw [hk]
    exact h.absent
  inactive := by
    rw [hk, ha]
    exact h.inactive

theorem KeysSound.keepsBut {α : Type} {m : RouterM α} (h : Within (Footprint gs) m)
    (hg : ¬ gs .key) : Keeps (KeysSound sink scancode) m := h.keeps fun _ _ hf hs => hs.frame hf hg

/-! One key event. -/

theorem map_pressedKeys (pressed : Bool) (s : UInt32) (android : AndroidKeyMapping)
    (active : List ActiveKey) :
    (pressedKeys pressed s android active).map (·.sdlScancode) =
      if pressed then
        if s ∈ active.map (·.sdlScancode) then active.map (·.sdlScancode)
        else active.map (·.sdlScancode) ++ [s]
      else (active.map (·.sdlScancode)).erase s := by
  have hfound : active.any (·.sdlScancode == s) = decide (s ∈ active.map (·.sdlScancode)) := by
    rw [Bool.eq_iff_iff]
    simp
  have herase : (active.eraseP (·.sdlScancode == s)).map (·.sdlScancode) =
      (active.map (·.sdlScancode)).erase s := by
    rw [List.erase_eq_eraseP', List.eraseP_map]
    rfl
  unfold pressedKeys
  rw [hfound]
  cases pressed with
  | true => by_cases hs : s ∈ active.map (·.sdlScancode) <;> simp [hs]
  | false =>
    by_cases hs : s ∈ active.map (·.sdlScancode)
    · simpa [hs] using herase
    · simp [hs, List.erase_of_not_mem hs]

theorem nodup_pressedKeys {active : List ActiveKey} (h : (active.map (·.sdlScancode)).Nodup)
    (pressed : Bool) (s : UInt32) (android : AndroidKeyMapping) :
    ((pressedKeys pressed s android active).map (·.sdlScancode)).Nodup := by
  rw [map_pressedKeys]
  split_ifs with hp hs
  · exact h
  · rw [← List.concat_eq_append]
    exact h.concat hs
  · exact h.erase s

theorem mem_pressedKeys {active : List ActiveKey} (h : (active.map (·.sdlScancode)).Nodup)
    (pressed : Bool) (s : UInt32) (android : AndroidKeyMapping) :
    scancode ∈ (pressedKeys pressed s android active).map (·.sdlScancode) ↔
      if s = scancode then pressed = true else scancode ∈ active.map (·.sdlScancode) := by
  rw [map_pressedKeys]
  by_cases hs : s = scancode
  · subst hs
    rw [if_pos rfl]
    cases pressed with
    | true =>
      rw [if_pos rfl]
      split_ifs with hm
      · simpa using hm
      · simp
    | false => simpa using h.not_mem_erase
  · rw [if_neg hs]
    cases pressed with
    | true =>
      rw [if_pos rfl]
      split_ifs with hm
      · rfl
      · simp [Ne.symm hs]
    | false =>
      rw [if_neg (by simp)]
      exact List.mem_erase_of_ne (Ne.symm hs)

/-- A native key call, whose release is matched. -/
theorem KeysSound.call {pressed repeated : Bool} {s : UInt32} {android : AndroidKeyMapping}
    (h : KeysSound sink scancode r) (hkey : sink.key = true)
    (hrelease : pressed = false → s = scancode → Active r scancode)
    (hk : r'.activeKeys = pressedKeys pressed s android r.activeKeys)
    (hn : r'.native = r.native ++ [.key s pressed android repeated])
    (ha : r'.snapshot.active = true) : KeysSound sink scancode r' := by
  constructor
  · rw [hk]
    exact nodup_pressedKeys h.nodup _ _ _
  · rw [Active, hk, hn, mem_pressedKeys h.nodup]
    by_cases hs : s = scancode
    · rw [if_pos hs, held_snoc (b := pressed) (by simp [keySignal, hs])]
    · rw [if_neg hs, held_append (by simp [keySignal, hs])]
      exact h.active_iff
  · rw [hn]
    refine h.bracketed.snoc fun hsig => ?_
    simp only [keySignal] at hsig
    split at hsig
    · next hs => exact h.active_iff.1 (hrelease (Option.some.inj hsig) hs)
    · cases hsig
  · intro hfalse
    rw [hkey] at hfalse
    cases hfalse
  · intro hfalse
    rw [ha] at hfalse
    cases hfalse

/-- A key event that the editor leaves to the native side. -/
theorem handleKeyLocked_spec (hok : ∀ log n, (sink.answer log n).isOk = true)
    (hkey : sink.key = true)
    (hvalid : (mapSdlKeyToAndroid event.scancode event.keycode).valid = true) (r : Router) :
    let r' := ((handleKeyLocked sink event).run r).2
    r'.native = r.native ++ [.key event.scancode event.pressed
      (mapSdlKeyToAndroid event.scancode event.keycode) event.repeated] ∧
    r'.activeKeys = pressedKeys event.pressed event.scancode
      (mapSdlKeyToAndroid event.scancode event.keycode) r.activeKeys ∧
    r'.snapshot.active = r.snapshot.active := by
  unfold handleKeyLocked
  rw [hkey]
  simp only [Bool.not_true, Bool.false_eq_true, ↓reduceIte, hvalid, call, bind_pure_comp, modifyIf,
    nativeResultLocked, Bool.not_eq_eq_eq_not, modifySnapshot, bind_assoc, bind_map_left, hok,
    Bool.true_eq_false, LawfulMonadStateOf.get_bind_const, StateT.run_bind, StateT.run_modify,
    StateT.run_map, map_pure]
  exact ⟨rfl, rfl, rfl⟩

/-- Without a key entry, or without a mapping, nothing is sent. -/
theorem handleKeyLocked_frame (h : sink.key = false ∨
    (mapSdlKeyToAndroid event.scancode event.keycode).valid = false) :
    Within (Footprint gs) (handleKeyLocked sink event) := by
  unfold handleKeyLocked
  refine within_ite (fun _ => within_pure _) fun hkey => ?_
  refine within_ite (fun _ => within_pure _) fun hvalid => ?_
  rcases h with h | h
  · exact absurd (by rw [h]; rfl) hkey
  · exact absurd (by rw [h]; rfl) hvalid

theorem handleKeyLocked_sound (hok : ∀ log n, (sink.answer log n).isOk = true)
    (h : KeysSound sink scancode r) (ha : r.snapshot.active = true)
    (hrelease : event.pressed = false → event.scancode = scancode → sink.key = true →
      Active r scancode) :
    KeysSound sink scancode ((handleKeyLocked sink event).run r).2 := by
  cases hkey : sink.key with
  | false => exact h.quiet (handleKeyLocked_frame (.inl hkey) r)
  | true =>
    cases hvalid : (mapSdlKeyToAndroid event.scancode event.keycode).valid with
    | false => exact h.quiet (handleKeyLocked_frame (.inr hvalid) r)
    | true =>
      obtain ⟨hn, hk, ha'⟩ := handleKeyLocked_spec hok hkey hvalid r
      exact h.call hkey (fun hp hs => hrelease hp hs hkey) hk hn (ha'.trans ha)

/-! Releasing every key. -/

/-- The calls that release the keys, in order. -/
def keyUps (keys : List ActiveKey) : List Native :=
  keys.map fun key => .key key.sdlScancode false key.android false

theorem releaseKeys_native (hkey : sink.key = true) (keys : List ActiveKey) (first : Status)
    (r : Router) : ((releaseKeys sink keys first).run r).2.native = r.native ++ keyUps keys := by
  unfold releaseKeys
  rw [hkey]
  exact releaseLoop_native _ _ keys first r

/-- Releasing exactly the keys that are down leaves none of them down. -/
theorem keyUps_signal {log : List Native} {keys : List ActiveKey}
    (hnodup : (keys.map (·.sdlScancode)).Nodup)
    (hheld : scancode ∈ keys.map (·.sdlScancode) ↔ held (keySignal scancode) log = true)
    (hb : Bracketed (keySignal scancode) log) :
    held (keySignal scancode) (log ++ keyUps keys) = false ∧
      Bracketed (keySignal scancode) (log ++ keyUps keys) := by
  induction keys generalizing log with
  | nil =>
    refine ⟨?_, by simpa [keyUps] using hb⟩
    simpa [keyUps] using hheld
  | cons key keys ih =>
    rw [List.map_cons, List.nodup_cons] at hnodup
    have hcons : log ++ keyUps (key :: keys) =
        log ++ [.key key.sdlScancode false key.android false] ++ keyUps keys := by simp [keyUps]
    rw [hcons]
    by_cases hs : key.sdlScancode = scancode
    · have hdown : held (keySignal scancode) log = true := hheld.1 (by simp [hs])
      have hsig : keySignal scancode (.key key.sdlScancode false key.android false) =
          some false := by
        simp [keySignal, hs]
      refine ih hnodup.2 ?_ (hb.snoc fun _ => hdown)
      rw [held_snoc hsig]
      exact ⟨fun hm => absurd (hs ▸ hm) hnodup.1, nofun⟩
    · have hquiet : ∀ n ∈ [Native.key key.sdlScancode false key.android false],
          keySignal scancode n = none := by
        simp [keySignal, hs]
      refine ih hnodup.2 ?_ (hb.append hquiet)
      rw [held_append hquiet, ← hheld, List.map_cons, List.mem_cons]
      simp [Ne.symm hs]

theorem releaseKeys_sound (h : KeysSound sink scancode r) (first : Status)
    (hk : r'.activeKeys = [])
    (hn : r'.native = ((releaseKeys sink r.activeKeys first).run r).2.native) :
    KeysSound sink scancode r' := by
  have hsignal : held (keySignal scancode) r'.native = false ∧
      Bracketed (keySignal scancode) r'.native := by
    rw [hn]
    cases hkey : sink.key with
    | false =>
      have hnone := h.absent hkey
      rw [hnone]
      refine ⟨?_, h.bracketed⟩
      have hup : ¬ Active r scancode := by simp [Active, hnone]
      exact Bool.eq_false_iff.2 (mt h.active_iff.2 hup)
    | true =>
      rw [releaseKeys_native hkey]
      exact keyUps_signal h.nodup h.active_iff h.bracketed
  constructor
  · simp [hk]
  · rw [Active, hk, hsignal.1]
    simp
  · exact hsignal.2
  · exact fun _ => hk
  · exact fun _ => hk

theorem releasePressedInputsLocked_sound (sink : Sink) :
    Keeps (KeysSound sink scancode) (releasePressedInputsLocked sink) := by
  unfold releasePressedInputsLocked
  refine Keeps.bind (KeysSound.keepsBut (releaseAllGamepads_frame sink) (by simp)) fun first => ?_
  refine Keeps.bind
    (KeysSound.keepsBut (releaseMouseButtons_frame sink first) (by simp)) fun first => ?_
  refine Keeps.bind (KeysSound.keepsBut (releaseTouches_frame sink first) (by simp)) fun first => ?_
  intro r h
  exact releaseKeys_sound h first rfl rfl

/-! What a scancode has gone through. -/

/-- A call, with the router before it. -/
structure Moment where
  router : Router
  call : Call

/-- A key-down of the scancode that an active router is fed. -/
def Moment.Presses (m : Moment) (scancode : UInt32) (event : KeyEvent) : Prop :=
  m.call = .handleEvent (.key event) ∧ m.router.snapshot.active = true ∧ event.scancode = scancode ∧
    event.pressed = true

/-- The calls after which no key-down is open: the scancode's key-up, the window's loss of the focus
and the end of the router's activity. -/
def Moment.lifts (m : Moment) (scancode : UInt32) : Bool :=
  m.router.snapshot.active && match m.call with
    | .handleEvent (.key event) => event.scancode == scancode && !event.pressed
    | .handleEvent (.windowFocus focused) => m.router.snapshot.focused && !focused
    | .deactivate => true
    | _ => false

/-- The calls since the last that left the scancode up; the last call is first. -/
def sinceUp (scancode : UInt32) (past : List Moment) : List Moment :=
  past.takeWhile (!·.lifts scancode)

/-- A TextBox has the focus, and the event is of an editing key or a shortcut, or ends a shortcut in
progress. -/
def ForTextBox (r : Router) (event : KeyEvent) : Prop :=
  r.textEditor.snapshot.focused = true ∧ (isEditKey event = true ∨
    event.pressed = false ∧ r.textEditor.activeShortcuts &&& shortcutBit event.scancode ≠ 0)

/-- A router, and the calls it has had. -/
structure Watched where
  router : Router := {}
  past : List Moment := []

def watchedLTS (sink : Sink) : LTS Watched (Call × Replies) :=
  LTS.ofFun {} fun w call => some ⟨perform sink w.router call, ⟨w.router, call.1⟩ :: w.past⟩

/-- A key-up of a mapped scancode is for the TextBox exactly if every key-down was since the
scancode was last up. -/
def Paired (sink : Sink) (w : Watched) (call : Call × Replies) : Prop :=
  ∀ event, call.1 = .handleEvent (.key event) → w.router.snapshot.active = true → sink.key = true →
    event.pressed = false → hasMapping event.scancode = true →
    (ForTextBox w.router event ↔ ∀ m ∈ sinceUp event.scancode w.past, ∀ down,
      m.Presses event.scancode down →
      ForTextBox m.router down)

/-- Some key-down since then was not for the TextBox. -/
def PressedBeside (scancode : UInt32) (past : List Moment) : Prop :=
  ∃ m ∈ sinceUp scancode past, ∃ down, m.Presses scancode down ∧ ¬ ForTextBox m.router down

variable {m : Moment} {past : List Moment} {w : Watched}

theorem swallows_iff : swallows r.textEditor event = true ↔ ForTextBox r event := by
  rw [swallows, Bool.and_eq_true, ForTextBox]
  refine and_congr_right fun _ => ?_
  cases event.pressed with
  | true => simp
  | false =>
    by_cases hbit : shortcutBit event.scancode = 0
    · simp [hbit]
    · simp [hbit]

theorem pressedBeside_nil : ¬ PressedBeside scancode [] := by
  rintro ⟨m, hm, -⟩
  cases hm

theorem pressedBeside_cons : PressedBeside scancode (m :: past) ↔ m.lifts scancode = false ∧
    ((∃ down, m.Presses scancode down ∧ ¬ ForTextBox m.router down) ∨
      PressedBeside scancode past) := by
  unfold PressedBeside sinceUp
  rw [List.takeWhile_cons]
  cases m.lifts scancode with
  | true => simp
  | false => simp

/-- The condition on a key-up, in terms of the key-downs that were not for the TextBox. -/
theorem pairs_iff :
    (ForTextBox r event ↔ ∀ m ∈ sinceUp scancode past, ∀ down, m.Presses scancode down →
      ForTextBox m.router down) ↔ (ForTextBox r event ↔ ¬ PressedBeside scancode past) := by
  refine iff_congr Iff.rfl ?_
  simp only [PressedBeside, not_exists, not_and, not_not]

/-! Runs. -/

theorem handleKeyEvent_run (replies : Replies) (r : Router) :
    (handleKeyEvent sink replies event).run r =
      (if swallows r.textEditor event then
          textResult (handleKey sink.text replies r.textEditor event).2
        else handleKeyLocked sink event : RouterM DispatchResult).run
      ((withEditor (handleKey sink.text replies · event)).run r).2 := by
  rw [← handleKey_handled sink.text replies]
  rfl

theorem perform_key (replies : Replies) (ha : r.snapshot.active = true) :
    perform sink r (.handleEvent (.key event), replies) =
      ((handleKeyEvent sink replies event).run ((takeFocus).run r).2).2 := by
  rw [perform_event, if_pos ha]
  rfl

/-- The editor's part of a key event. -/
def afterEditor (sink : Sink) (replies : Replies) (event : KeyEvent) (r : Router) : Router :=
  ((withEditor (handleKey sink.text replies · event)).run ((takeFocus).run r).2).2

theorem afterEditor_frame (replies : Replies) :
    Footprint NoGroup r (afterEditor sink replies event r) :=
  trans_of (Footprint NoGroup) (takeFocus_frame r) (withEditor_frame _ _)

/-- A key event for the TextBox stays there. -/
theorem perform_forTextBox (replies : Replies) (ha : r.snapshot.active = true)
    (ht : ForTextBox r event) :
    Footprint NoGroup r (perform sink r (.handleEvent (.key event), replies)) := by
  have hs : swallows ((takeFocus).run r).2.textEditor event = true := swallows_iff.2 ht
  rw [perform_key replies ha, handleKeyEvent_run, hs]
  exact trans_of (Footprint NoGroup) (afterEditor_frame replies) (textResult_frame _ _)

/-- Any other key event goes on to the native side. -/
theorem perform_beside (replies : Replies) (ha : r.snapshot.active = true)
    (ht : ¬ ForTextBox r event) :
    perform sink r (.handleEvent (.key event), replies) =
      ((handleKeyLocked sink event).run (afterEditor sink replies event r)).2 := by
  have hs : swallows ((takeFocus).run r).2.textEditor event = false :=
    Bool.eq_false_iff.2 (mt swallows_iff.1 ht)
  rw [perform_key replies ha, handleKeyEvent_run, hs]
  rfl

theorem active_of_frame (hf : Footprint NoGroup r r') : Active r' scancode ↔ Active r scancode := by
  have hk : r'.activeKeys = r.activeKeys := congrArg Prod.fst (hf.part .key id)
  rw [Active, hk, Active]

theorem keyEvent_sound (hok : ∀ log n, (sink.answer log n).isOk = true) (replies : Replies)
    (h : KeysSound sink scancode r) (ha : r.snapshot.active = true)
    (hrelease : event.pressed = false → event.scancode = scancode → sink.key = true →
      ¬ ForTextBox r event → Active r scancode) :
    KeysSound sink scancode (perform sink r (.handleEvent (.key event), replies)) := by
  by_cases ht : ForTextBox r event
  · exact h.quiet (perform_forTextBox replies ha ht)
  · rw [perform_beside replies ha ht]
    refine handleKeyLocked_sound hok (h.quiet (afterEditor_frame replies))
      ((afterEditor_frame replies).active.trans ha) ?_
    intro hp hs hkey
    exact (active_of_frame (afterEditor_frame replies)).2 (hrelease hp hs hkey ht)

/-- With no key down, whether the router is active makes no difference. -/
theorem KeysSound.idle (h : KeysSound sink scancode r) (hnone : r.activeKeys = [])
    (hk : r'.activeKeys = []) (hn : r'.native = r.native) : KeysSound sink scancode r' where
  nodup := by simp [hk]
  active_iff := by
    rw [Active, hk, ← hnone, hn]
    exact h.active_iff
  bracketed := by
    rw [hn]
    exact h.bracketed
  absent _ := hk
  inactive _ := hk

theorem keysSound_initial : KeysSound sink scancode {} where
  nodup := by simp
  active_iff := by simp [Active]
  bracketed := bracketed_nil
  absent _ := rfl
  inactive _ := rfl

theorem deactivate_keysSound (replies : Replies) (h : KeysSound sink scancode r)
    (ha : r.snapshot.active = true) :
    KeysSound sink scancode ((deactivate sink replies).run r).2 ∧
      ((deactivate sink replies).run r).2.activeKeys = [] := by
  have hreleased := releasePressedInputsLocked_sound sink r h
  have hnone : ((releasePressedInputsLocked sink).run r).2.activeKeys = [] := rfl
  obtain ⟨hsame, -⟩ := deactivate_release sink replies ha
  generalize ((releasePressedInputsLocked sink).run r).2 = s at hreleased hnone hsame
  have hframe : Footprint (· = .pad) s ((disconnectGamepadsLocked sink).run s).2 :=
    disconnectGamepadsLocked_frame s
  have hleft := (congrArg Prod.fst (hframe.part .key nofun)).trans hnone
  have hgone := (congrArg Prod.fst (hsame.part .key)).trans hleft
  exact ⟨(hreleased.frame hframe nofun).idle hleft hgone hsame.native, hgone⟩

theorem handleWindowFocus_activeKeys (replies : Replies) (hf : r.snapshot.focused = true) :
    ((handleWindowFocus sink replies false).run r).2.activeKeys = [] := by
  obtain ⟨hsame, -⟩ := handleWindowFocus_release sink replies hf
  exact congrArg Prod.fst (hsame.part .key)

theorem keysSound_step (hok : ∀ log n, (sink.answer log n).isOk = true) {call : Call × Replies}
    (h : KeysSound sink scancode r)
    (hrelease : ∀ event, call.1 = .handleEvent (.key event) →
      r.snapshot.active = true → event.pressed = false →
      event.scancode = scancode → sink.key = true → ¬ ForTextBox r event → Active r scancode) :
    KeysSound sink scancode (perform sink r call) := by
  refine perform_keeps (g := .key) (fun _ _ hf hs => hs.frame hf (by simp)) ?_ ?_ ?_ ?_ h
  · intro viewport focused ha
    exact h.idle (h.inactive ha) rfl rfl
  · exact fun _ ha => (deactivate_keysSound call.2 h ha).1
  · intro _ ha hf
    obtain ⟨hsame, _, hactive⟩ := handleWindowFocus_release sink call.2 hf
    exact (releasePressedInputsLocked_sound sink r h).congr (congrArg Prod.fst (hsame.part .key))
      hactive hsame.native
  · intro event he hg ha
    cases event with
    | key event =>
      have hsound := keyEvent_sound hok call.2 h ha (hrelease event he ha)
      rwa [perform_event, if_pos ha] at hsound
    | _ => cases hg

/-! What is down, read off the calls so far. -/

/-- Calls that neither lift keys nor are key events leave the keys as they are. -/
theorem activeKeys_quiet {call : Call × Replies} (h : KeysSound sink scancode r)
    (hlifts : (⟨r, call.1⟩ : Moment).lifts scancode = false)
    (hkey : ∀ event, call.1 = .handleEvent (.key event) → r.snapshot.active = false) :
    (perform sink r call).activeKeys = r.activeKeys := by
  refine perform_keeps (g := .key) (P := fun t => t.activeKeys = r.activeKeys)
    (fun _ _ hf hs => (congrArg Prod.fst (hf.part .key (by simp))).trans hs) ?_ ?_ ?_ ?_ rfl
  · intro viewport focused ha
    exact (h.inactive ha).symm
  · intro hc ha
    simp [Moment.lifts, hc, ha] at hlifts
  · intro hc ha hf
    simp [Moment.lifts, hc, ha, hf] at hlifts
  · intro event hc hg ha
    cases event with
    | key event => exact absurd ha (Bool.eq_false_iff.1 (hkey event hc))
    | _ => cases hg

/-- A key event: whether the scancode is down afterwards. -/
theorem keyEvent_active (hok : ∀ log n, (sink.answer log n).isOk = true)
    (hmap : hasMapping scancode = true)
    (replies : Replies) (hkey : sink.key = true) (h : KeysSound sink scancode r)
    (ha : r.snapshot.active = true)
    (ht : ¬ ForTextBox r event) :
    Active (perform sink r (.handleEvent (.key event), replies)) scancode ↔
      if event.scancode = scancode then event.pressed = true else Active r scancode := by
  rw [perform_beside replies ha ht]
  have hframe : Footprint NoGroup r (afterEditor sink replies event r) := afterEditor_frame replies
  cases hvalid : (mapSdlKeyToAndroid event.scancode event.keycode).valid with
  | false =>
    have hne : event.scancode ≠ scancode := by
      rintro rfl
      rw [(hasMapping_iff _).1 hmap event.keycode] at hvalid
      cases hvalid
    rw [if_neg hne, active_of_frame (handleKeyLocked_frame (.inr hvalid) _)]
    exact active_of_frame hframe
  | true =>
    obtain ⟨-, hk, -⟩ := handleKeyLocked_spec hok hkey hvalid (afterEditor sink replies event r)
    rw [Active, hk, mem_pressedKeys (h.quiet hframe).nodup]
    split_ifs with hs
    · rfl
    · exact active_of_frame hframe

theorem active_step_key (hok : ∀ log n, (sink.answer log n).isOk = true)
    (hmap : hasMapping scancode = true)
    (replies : Replies) (hkey : sink.key = true) (h : KeysSound sink scancode r)
    (ha : r.snapshot.active = true)
    (hswallowed : event.pressed = false → event.scancode = scancode →
      ForTextBox r event → ¬ Active r scancode) :
    Active (perform sink r (.handleEvent (.key event), replies)) scancode ↔
      (event.scancode = scancode → event.pressed = true) ∧
        ((event.scancode = scancode ∧ event.pressed = true ∧ ¬ ForTextBox r event) ∨
          Active r scancode) := by
  by_cases ht : ForTextBox r event
  · rw [active_of_frame (perform_forTextBox replies ha ht)]
    constructor
    · intro hdown
      refine ⟨fun hs => ?_, .inr hdown⟩
      by_contra hp
      exact hswallowed (Bool.eq_false_iff.2 hp) hs ht hdown
    · rintro ⟨-, ⟨-, -, hbeside⟩ | hdown⟩
      · exact absurd ht hbeside
      · exact hdown
  · rw [keyEvent_active hok hmap replies hkey h ha ht]
    by_cases hs : event.scancode = scancode
    · rw [if_pos hs]
      exact ⟨fun hp => ⟨fun _ => hp, .inl ⟨hs, hp, ht⟩⟩, fun hboth => hboth.1 hs⟩
    · rw [if_neg hs]
      refine ⟨fun hdown => ⟨fun heq => absurd heq hs, .inr hdown⟩, ?_⟩
      rintro ⟨-, ⟨heq, -⟩ | hdown⟩
      · exact absurd heq hs
      · exact hdown

theorem activeKeys_lifted {call : Call} (replies : Replies) (h : KeysSound sink scancode r)
    (hkey : ∀ event, call = .handleEvent (.key event) → r.snapshot.active = false)
    (hl : (⟨r, call⟩ : Moment).lifts scancode = true) :
    (perform sink r (call, replies)).activeKeys = [] := by
  obtain ⟨ha, hcall⟩ := Bool.and_eq_true_iff.1 hl
  cases call with
  | deactivate => exact (deactivate_keysSound replies h ha).2
  | handleEvent event =>
    cases event with
    | windowFocus focused =>
      obtain ⟨hf, hlost⟩ := Bool.and_eq_true_iff.1 hcall
      obtain rfl : focused = false := by simpa using hlost
      rw [perform_event, if_pos ha]
      exact handleWindowFocus_activeKeys replies hf
    | key event => exact absurd ha (Bool.eq_false_iff.1 (hkey event rfl))
    | _ => cases hcall
  | _ => cases hcall

/-- One more call, for the scancodes that are down. -/
theorem active_step (hok : ∀ log n, (sink.answer log n).isOk = true)
    (hmap : hasMapping scancode = true)
    (hkey : sink.key = true) {call : Call × Replies} (h : KeysSound sink scancode r)
    (hswallowed : ∀ event, call.1 = .handleEvent (.key event) →
      r.snapshot.active = true → event.pressed = false →
      event.scancode = scancode → ForTextBox r event → ¬ Active r scancode) :
    Active (perform sink r call) scancode ↔ (⟨r, call.1⟩ : Moment).lifts scancode = false ∧
      ((∃ down, (⟨r, call.1⟩ : Moment).Presses scancode down ∧ ¬ ForTextBox r down) ∨
        Active r scancode) := by
  obtain ⟨call, replies⟩ := call
  by_cases hevent : ∃ event, call = .handleEvent (.key event) ∧ r.snapshot.active = true
  · obtain ⟨event, rfl, ha⟩ := hevent
    rw [active_step_key hok hmap replies hkey h ha (hswallowed event rfl ha)]
    refine and_congr (by simp [Moment.lifts, ha]) (or_congr_left ?_)
    constructor
    · rintro ⟨hs, hp, ht⟩
      exact ⟨event, ⟨rfl, ha, hs, hp⟩, ht⟩
    · rintro ⟨down, ⟨he, -, hs, hp⟩, ht⟩
      cases he
      exact ⟨hs, hp, ht⟩
  · have hquiet : ∀ event, call = .handleEvent (.key event) → r.snapshot.active = false :=
      fun event he => Bool.eq_false_iff.2 fun ha => hevent ⟨event, he, ha⟩
    have hpresses : ¬ ∃ down, (⟨r, call⟩ : Moment).Presses scancode down ∧ ¬ ForTextBox r down := by
      rintro ⟨down, ⟨he, ha, -, -⟩, -⟩
      exact hevent ⟨down, he, ha⟩
    rw [or_iff_right hpresses]
    cases hl : (⟨r, call⟩ : Moment).lifts scancode with
    | false =>
      have hkeep : (perform sink r (call, replies)).activeKeys = r.activeKeys :=
        activeKeys_quiet h hl hquiet
      rw [Active, hkeep]
      exact ⟨fun hdown => ⟨rfl, hdown⟩, And.right⟩
    | true =>
      rw [Active, activeKeys_lifted replies h hquiet hl]
      simp

/-- What holds of a scancode in every run in which its key-ups are paired. -/
structure WatchedSound (sink : Sink) (scancode : UInt32) (w : Watched) : Prop where
  keys : KeysSound sink scancode w.router
  active_iff : sink.key = true → (Active w.router scancode ↔ PressedBeside scancode w.past)

theorem watchedSound_step (hok : ∀ log n, (sink.answer log n).isOk = true)
    (hmap : hasMapping scancode = true)
    {call : Call × Replies} (h : WatchedSound sink scancode w) (hc : Paired sink w call) :
    WatchedSound sink scancode ⟨perform sink w.router call, ⟨w.router, call.1⟩ :: w.past⟩ := by
  constructor
  · refine keysSound_step hok h.keys ?_
    rintro event he ha hp rfl hkey ht
    have hpair := pairs_iff.1 (hc event he ha hkey hp hmap)
    exact (h.active_iff hkey).2 (not_not.1 (mt hpair.2 ht))
  · intro hkey
    rw [active_step hok hmap hkey h.keys, pressedBeside_cons, h.active_iff hkey]
    rintro event he ha hp rfl ht hdown
    have hpair := pairs_iff.1 (hc event he ha hkey hp hmap)
    exact hpair.1 ht ((h.active_iff hkey).1 hdown)

theorem watchedSound_reachable (hok : ∀ log n, (sink.answer log n).isOk = true)
    (hmap : hasMapping scancode = true)
    (h : ((watchedLTS sink).restrict (Paired sink)).Reachable w) :
    WatchedSound sink scancode w := by
  refine h.invariant ?_ ?_
  · rintro s rfl
    exact ⟨keysSound_initial, fun _ => ⟨nofun, fun hp => absurd hp pressedBeside_nil⟩⟩
  · rintro s call t ⟨hs, hc⟩ hsound
    cases hs
    exact watchedSound_step hok hmap hsound hc

/-- A key-up that the native side gets. -/
theorem release_spec (hok : ∀ log n, (sink.answer log n).isOk = true) (replies : Replies)
    (h : KeysSound sink event.scancode r) (ha : r.snapshot.active = true) (hkey : sink.key = true)
    (hmap : hasMapping event.scancode = true) (hp : event.pressed = false)
    (ht : ¬ ForTextBox r event) :
    let r' := perform sink r (.handleEvent (.key event), replies)
    r'.native = r.native ++ [.key event.scancode false
      (mapSdlKeyToAndroid event.scancode event.keycode) event.repeated] ∧
      ¬ Active r' event.scancode := by
  dsimp only
  rw [keyEvent_active hok hmap replies hkey h ha ht, if_pos rfl, hp]
  obtain ⟨hn, -, -⟩ := handleKeyLocked_spec hok hkey ((hasMapping_iff _).1 hmap event.keycode)
    (afterEditor sink replies event r)
  rw [perform_beside replies ha ht, hn, hp, (afterEditor_frame replies).sameInput.native]
  exact ⟨rfl, nofun⟩

/-- In every run whose key-ups are paired, the native stream of a mapped scancode is bracketed; and
the next key-up keeps it so and releases the key if it is down, exactly if it is paired too. -/
theorem keys_bracketed (hok : ∀ log n, (sink.answer log n).isOk = true)
    (hmap : hasMapping scancode = true)
    (h : ((watchedLTS sink).restrict (Paired sink)).Reachable w) :
    Bracketed (keySignal scancode) w.router.native ∧
    (Active w.router scancode ↔ held (keySignal scancode) w.router.native = true) ∧
    ∀ event replies, event.scancode = scancode → event.pressed = false →
      w.router.snapshot.active = true →
      let r' := perform sink w.router (.handleEvent (.key event), replies)
      (Bracketed (keySignal scancode) r'.native ∧ (Active w.router scancode →
        r'.native =
          w.router.native ++ [.key scancode false (mapSdlKeyToAndroid scancode event.keycode)
            event.repeated] ∧ ¬ Active r' scancode)) ↔
      Paired sink w (.handleEvent (.key event), replies) := by
  have hsound := watchedSound_reachable hok hmap h
  refine ⟨hsound.keys.bracketed, hsound.keys.active_iff, ?_⟩
  rintro event replies rfl hp ha
  constructor
  · rintro ⟨hb, hreleased⟩ up he - hkey - -
    cases he
    refine pairs_iff.2 ?_
    rw [← hsound.active_iff hkey]
    by_cases ht : ForTextBox w.router event
    · refine iff_of_true ht fun hdown => ?_
      have hn := (hreleased hdown).1
      rw [(perform_forTextBox replies ha ht).sameInput.native] at hn
      simp at hn
    · refine iff_of_false ht (not_not.2 (hsound.keys.active_iff.2 ?_))
      have hn := (release_spec hok replies hsound.keys ha hkey hmap hp ht).1
      exact hb _ _ [] hn (by simp [keySignal])
  · intro hc
    refine ⟨(watchedSound_step hok hmap hsound hc).keys.bracketed, fun hdown => ?_⟩
    have hkey : sink.key = true := by
      by_contra hno
      have hnone := hsound.keys.absent (Bool.eq_false_iff.2 hno)
      simp [Active, hnone] at hdown
    refine release_spec hok replies hsound.keys ha hkey hmap hp fun ht => ?_
    exact (pairs_iff.1 (hc event rfl ha hkey hp hmap)).1 ht ((hsound.active_iff hkey).1 hdown)

/-- A sink that has every entry and always succeeds. -/
def plainSink : Sink where
  answer _ _ := {}
  text := { utf8proc := ⟨fun _ => none, fun _ _ s => (true, s)⟩, sinkComplete := true,
            hasDisplay := false, hasClipboard := false }

def plainViewport : Viewport :=
  { logicalWidth := 1280, logicalHeight := 720, pixelWidth := 1280, pixelHeight := 720 }

/-- The calls for a key event. -/
def keyCall (scancode : UInt32) (pressed : Bool) : Call × Replies :=
  (.handleEvent (.key { pressed, scancode }), {})

/-- A key is pressed in an active router. -/
def keyDown : Router :=
  perform plainSink (perform plainSink {} (.activate plainViewport true, {})) (keyCall 26 true)

/-- A TextBox takes both halves of a Backspace while a letter is down. -/
def typed : List (Call × Replies) :=
  [(.activate plainViewport true, {}),
    (.beginTextFocusSession { textboxHandle := 1, generation := 1 }, {}),
    keyCall 42 true, keyCall 26 true, keyCall 42 false]

/-- The router and its calls after a list of calls. -/
def watch (calls : List (Call × Replies)) : Watched :=
  calls.foldl (fun w call => ⟨perform plainSink w.router call, ⟨w.router, call.1⟩ :: w.past⟩) {}

theorem keys_bracketed_release :
    Bracketed (keySignal 26) (watch typed).router.native ∧
      ¬ Active (perform plainSink (watch typed).router (keyCall 26 false)) 26 := by
  have hquiet (w : Watched) (call : Call × Replies)
      (h : ∀ event, call.1 = .handleEvent (.key event) →
        event.pressed = true) : Paired plainSink w call := by
    intro event he _ _ hp
    rw [h event he] at hp
    cases hp
  have hbackspace : Paired plainSink (watch (typed.take 4)) (keyCall 42 false) := by
    intro event he _ _ _ _
    cases he
    refine iff_of_true ⟨by decide +kernel, .inl (by decide)⟩ fun m hm down hdown => ?_
    obtain ⟨hcall, -, hs, -⟩ := hdown
    have hpast : m ∈ [Moment.mk (watch (typed.take 3)).router (keyCall 26 true).1,
        ⟨(watch (typed.take 2)).router, (keyCall 42 true).1⟩,
        ⟨(watch (typed.take 1)).router,
          .beginTextFocusSession { textboxHandle := 1, generation := 1 }⟩,
        ⟨{}, .activate plainViewport true⟩] := (List.takeWhile_sublist _).subset hm
    rcases List.mem_cons.1 hpast with rfl | hpast
    · cases hcall
      cases hs
    rcases List.mem_cons.1 hpast with rfl | hpast
    · cases hcall
      exact ⟨by decide +kernel, .inl (by decide)⟩
    rcases List.mem_cons.1 hpast with rfl | hpast
    · cases hcall
    · rw [List.mem_singleton.1 hpast] at hcall
      cases hcall
  have hreach : ((watchedLTS plainSink).restrict (Paired plainSink)).Reachable (watch typed) := by
    refine ⟨_, typed, rfl, .cons ⟨rfl, hquiet _ _ nofun⟩ (.cons ⟨rfl, hquiet _ _ nofun⟩
      (.cons ⟨rfl, hquiet _ _ ?_⟩ (.cons ⟨rfl, hquiet _ _ ?_⟩ (.single ⟨rfl, hbackspace⟩))))⟩
    · intro event he
      cases he
      rfl
    · intro event he
      cases he
      rfl
  obtain ⟨hb, -, hnext⟩ := keys_bracketed (fun _ _ => rfl)
    (by decide : hasMapping 26 = true) hreach
  refine ⟨hb, (((hnext { pressed := false, scancode := 26 } {} rfl rfl (by decide +kernel)).2 ?_).2
    (by decide +kernel)).2⟩
  intro event he _ _ _ _
  cases he
  refine iff_of_false ?_ ?_
  · rintro ⟨-, hedit | ⟨-, hshortcut⟩⟩
    · cases hedit
    · exact hshortcut (by decide +kernel)
  · intro hall
    have hsince : ⟨(watch (typed.take 3)).router, (keyCall 26 true).1⟩ ∈ sinceUp 26
        (watch typed).past := by
      change _ ∈ List.takeWhile _ (⟨(watch (typed.take 4)).router, (keyCall 42 false).1⟩ ::
        ⟨(watch (typed.take 3)).router, (keyCall 26 true).1⟩ :: (watch (typed.take 3)).past)
      rw [List.takeWhile_cons_of_pos (by decide +kernel),
        List.takeWhile_cons_of_pos (by decide +kernel)]
      exact List.mem_cons_of_mem _ List.mem_cons_self
    have hdown := hall _ hsince
      { pressed := true, scancode := 26 } ⟨rfl, by decide +kernel, rfl, rfl⟩
    rcases hdown.2 with hedit | ⟨hup, -⟩
    · cases hedit
    · cases hup

/-- The window loses the focus while a key is down: the key goes up twice. -/
theorem key_up_twice : ¬ ∀ r, (routerLTS plainSink).Reachable r →
    Bracketed (keySignal 26) r.native := by
  intro hall
  have hb :=
    hall (perform plainSink (perform plainSink keyDown (.handleEvent (.windowFocus false), {}))
      (keyCall 26 false)) ⟨_, [(.activate plainViewport true, {}), keyCall 26 true,
        (.handleEvent (.windowFocus false), {}), keyCall 26 false], rfl,
        .cons rfl (.cons rfl (.cons rfl (.single rfl)))⟩
  have hheld := hb [.key 26 true ⟨17, 51⟩ false, .key 26 false ⟨17, 51⟩ false]
    (.key 26 false ⟨17, 51⟩ false) [] rfl rfl
  cases hheld

end Nightcap.Input
