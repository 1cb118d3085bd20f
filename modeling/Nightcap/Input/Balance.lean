import Nightcap.Input.Keys
import Nightcap.Input.PadCalls
import Nightcap.Input.Touch

/-! Runs of the input router: every touch and every gamepad button that goes down comes up once. -/
namespace Nightcap.Input

open Text Signal StateFrame Transition

variable {sink : Sink} {r r' : Router} {d k : Int32} {g g' : ActiveGamepad}
  {gs pre post : List ActiveGamepad} {more : List Native} {v : PadView}

/-- What the native side sees of a device, given the gamepads of the router. -/
def viewOf (gs : List ActiveGamepad) (d : Int32) : PadView :=
  ((gs.find? (·.deviceId == d)).map (·.view)).getD .absent

theorem viewOf_absent (h : d ∉ gs.map (·.deviceId)) : viewOf gs d = .absent := by
  have hnone : gs.find? (·.deviceId == d) = none := by
    refine List.find?_eq_none.2 fun g hg => ?_
    simpa using fun he : g.deviceId = d => h (List.mem_map.2 ⟨g, hg, he⟩)
  rw [viewOf, hnone]
  rfl

theorem viewOf_middle (h : ((pre ++ g :: post).map (·.deviceId)).Nodup) (d : Int32) :
    viewOf (pre ++ g :: post) d = if d = g.deviceId then g.view else viewOf (pre ++ post) d := by
  have hfind : (g :: post).find? (·.deviceId == d) =
      if d = g.deviceId then some g else post.find? (·.deviceId == d) := by
    rw [List.find?_cons]
    by_cases hd : d = g.deviceId
    · simp [hd]
    · have hne : (g.deviceId == d) = false := beq_false_of_ne (Ne.symm hd)
      simp [hd, hne]
  rw [viewOf, viewOf, List.find?_append, List.find?_append, hfind]
  split
  · next hd =>
    have hpre : pre.find? (·.deviceId == d) = none := by
      refine List.find?_eq_none.2 fun g' hg' => ?_
      rw [List.map_append, List.map_cons, List.nodup_append] at h
      have hne :=
        h.2.2 g'.deviceId (List.mem_map.2 ⟨g', hg', rfl⟩) g.deviceId (List.mem_cons_self ..)
      simpa [hd] using hne
    rw [hpre]
    rfl
  · rfl

/-- The gamepads, and what the native side has seen of every device. -/
structure PadsShow (gs : List ActiveGamepad) (r : Router) : Prop where
  nodup : (gs.map (·.deviceId)).Nodup
  wellFormed : ∀ g ∈ gs, g.WellFormed
  log : ∀ d k, padRun d k (false, false) r.native = some ((viewOf gs d).at k)
  connected : r.snapshot.connectedGamepads = gs.countP (·.connected)

namespace PadsShow

theorem nodup_drop (h : PadsShow (pre ++ g :: post) r) :
    ((pre ++ post).map (·.deviceId)).Nodup ∧ g.deviceId ∉ (pre ++ post).map (·.deviceId) := by
  have hp : ((pre ++ g :: post).map (·.deviceId)).Perm
      (g.deviceId :: (pre ++ post).map (·.deviceId)) := List.perm_middle.map _
  obtain ⟨hnot, hnodup⟩ := List.nodup_cons.1 (hp.nodup_iff.1 h.nodup)
  exact ⟨hnodup, hnot⟩

/-- Calls for one device change what is seen of that device only. -/
theorem moved (h : PadsShow (pre ++ g :: post) r) (hn : r'.native = r.native ++ more)
    (hown : ∀ k, padRun g.deviceId k (g.view.at k) more = some (v.at k))
    (hother : ∀ d k state, d ≠ g.deviceId → padRun d k state more = some state) (d k : Int32) :
    padRun d k (false, false) r'.native =
      some ((if d = g.deviceId then v else viewOf (pre ++ post) d).at k) := by
  rw [hn, padRun_append, h.log, Option.bind_some, viewOf_middle h.nodup]
  split
  · next hd =>
    rw [hd]
    exact hown k
  · next hd => exact hother d k _ hd

/-- The gamepad is replaced by what the calls made of it. -/
theorem replace (h : PadsShow (pre ++ g :: post) r) (hd : g'.deviceId = g.deviceId)
    (hw : g'.WellFormed) (hn : r'.native = r.native ++ more)
    (hown : ∀ k, padRun g.deviceId k (g.view.at k) more = some (g'.view.at k))
    (hother : ∀ d k state, d ≠ g.deviceId → padRun d k state more = some state)
    (hc : r'.snapshot.connectedGamepads + g.connected.toNat =
      r.snapshot.connectedGamepads + g'.connected.toNat) : PadsShow (pre ++ g' :: post) r' := by
  have hids : (pre ++ g' :: post).map (·.deviceId) = (pre ++ g :: post).map (·.deviceId) := by
    simp [hd]
  have hnodup : ((pre ++ g' :: post).map (·.deviceId)).Nodup := hids ▸ h.nodup
  refine ⟨hnodup, ?_, fun d k => ?_, ?_⟩
  · intro x hx
    rcases List.mem_append.1 hx with hx | hx
    · exact h.wellFormed x (by simp [hx])
    · rcases List.mem_cons.1 hx with rfl | hx
      · exact hw
      · exact h.wellFormed x (by simp [hx])
  · rw [h.moved hn hown hother, viewOf_middle hnodup, hd]
  · have hold := h.connected
    simp only [List.countP_append, List.countP_cons] at hold ⊢
    cases hb : g.connected <;> cases hb' : g'.connected <;> simp [hb, hb'] at hc hold ⊢ <;> omega

theorem leads (h : PadsShow (pre ++ g :: post) r) (hd : g'.deviceId = g.deviceId)
    (hw : g'.WellFormed) (hl : Leads g.deviceId g.view g'.view r r') :
    PadsShow (pre ++ g' :: post) r' := by
  obtain ⟨more, hn, _, hown, hother⟩ := hl.native
  exact h.replace hd hw hn hown hother hl.connected

/-- The gamepad is gone. -/
theorem remove (h : PadsShow (pre ++ g :: post) r) (hl : Leads g.deviceId g.view .absent r r') :
    PadsShow (pre ++ post) r' := by
  obtain ⟨more, hn, _, hown, hother⟩ := hl.native
  obtain ⟨hnodup, hnot⟩ := h.nodup_drop
  refine ⟨hnodup, fun x hx => h.wellFormed x ?_, fun d k => ?_, ?_⟩
  · rcases List.mem_append.1 hx with hx | hx <;> simp [hx]
  · rw [h.moved hn hown hother]
    split
    · next hd => rw [hd, viewOf_absent hnot]
    · rfl
  · have hold := h.connected
    have hc := hl.connected
    simp only [List.countP_append, List.countP_cons, ActiveGamepad.view, PadView.absent]
      at hold hc ⊢
    cases hb : g.connected <;> simp [hb] at hc hold ⊢ <;> omega

/-- A gamepad that is not announced yet. -/
theorem add (h : PadsShow gs r) (hnew : g.deviceId ∉ gs.map (·.deviceId))
    (hp : g.pressedButtons = 0)
    (hg : g.connected = false) : PadsShow (gs ++ [g]) r := by
  have hnodup : ((gs ++ [g]).map (·.deviceId)).Nodup := by
    rw [List.map_append, List.map_singleton, ← List.concat_eq_append]
    exact h.nodup.concat hnew
  refine ⟨hnodup, ?_, fun d k => ?_, ?_⟩
  · intro x hx
    rcases List.mem_append.1 hx with hx | hx
    · exact h.wellFormed x hx
    · obtain rfl := List.mem_singleton.1 hx
      exact ActiveGamepad.wellFormed_of_zero hp
  · rw [h.log, viewOf_middle hnodup, List.append_nil]
    split
    · next hd => rw [hd, viewOf_absent hnew, ActiveGamepad.view_released hp, hg, PadView.absent]
    · rfl
  · simp [h.connected, hg]

theorem inert (h : PadsShow gs r) (hi : InertStep r r') : PadsShow gs r' := by
  obtain ⟨more, hn, hm⟩ := hi.native
  refine ⟨h.nodup, h.wellFormed, fun d k => ?_, ?_⟩
  · rw [hn, padRun_append, h.log, Option.bind_some, padRun_inert hm]
  · rw [← h.connected]
    exact congrArg (fun part => part.2.2) hi.part

theorem congr (h : PadsShow gs r) (hn : r'.native = r.native)
    (hc : r'.snapshot.connectedGamepads = r.snapshot.connectedGamepads) : PadsShow gs r' :=
  ⟨h.nodup, h.wellFormed, hn ▸ h.log, hc.trans h.connected⟩

theorem positive (h : PadsShow (pre ++ g :: post) r) (hg : g.connected = true) :
    0 < r.snapshot.connectedGamepads := by
  rw [h.connected]
  exact List.countP_pos_iff.2 ⟨g, by simp, hg⟩

end PadsShow

/-- What holds of the gamepads between two calls of the router. -/
structure PadSound (r : Router) : Prop where
  shows : PadsShow r.gamepads r
  detected : r.snapshot.detectedGamepads = r.gamepads.length
  unfocused : r.snapshot.focused = false → ∀ g ∈ r.gamepads, g.pressedButtons = 0
  inactive : r.snapshot.active = false → r.gamepads = []

theorem inert_of_group {n : Native} (h : n.group ≠ .pad) : n.Inert := by
  intro d k
  cases n with
  | mouseMove | mouseButton | mouseWheel | touch | key => exact ⟨rfl, rfl⟩
  | _ => exact absurd rfl h

theorem Footprint.inertStep (h : Footprint (· ≠ .pad) r r') : InertStep r r' := by
  obtain ⟨more, hn, hm⟩ := h.native
  exact ⟨h.part .pad (by simp), more, hn, fun n hmem => inert_of_group (hm n hmem)⟩

theorem PadSound.frame (h : PadSound r) (hf : Footprint (· ≠ .pad) r r') : PadSound r' := by
  have hi := hf.inertStep
  have hg : r'.gamepads = r.gamepads := congrArg Prod.fst hi.part
  refine ⟨hg ▸ h.shows.inert hi, ?_, fun hu => ?_, ?_⟩
  · rw [hg, ← h.detected]
    exact congrArg (fun part => part.2.1) hi.part
  · rw [hg]
    refine h.unfocused (Bool.eq_false_iff.2 fun hfocused => ?_)
    rw [hf.focused hfocused] at hu
    cases hu
  · rw [hg, hf.active]
    exact h.inactive

/-! Events of one gamepad. -/

theorem findGamepadLocked_split {id : Int64} {index : Nat}
    (h : findGamepadLocked r id = some (index, g)) :
    ∃ pre post, r.gamepads = pre ++ g :: post ∧ r.gamepads.eraseIdx index = pre ++ post ∧
      ∀ g', r.gamepads.set index g' = pre ++ g' :: post := by
  unfold findGamepadLocked at h
  dsimp only at h
  obtain ⟨found, hfound, heq⟩ := Option.map_eq_some_iff.1 h
  cases heq
  obtain ⟨hlt, hget⟩ := List.getElem?_eq_some_iff.1 hfound
  refine ⟨_, _, ?_, List.eraseIdx_eq_take_drop_succ .., fun g' => ?_⟩
  · rw [← hget, List.getElem_cons_drop, List.take_append_drop]
  · rw [List.set_eq_take_append_cons_drop, if_pos hlt]

theorem freeDeviceId_new {fuel : Nat} {id : Int32} (h : freeDeviceId gs fuel id = some d) :
    d ∉ gs.map (·.deviceId) := by
  induction fuel generalizing id with
  | zero => cases h
  | succ fuel ih =>
    unfold freeDeviceId at h
    split at h
    · split at h
      · cases h
      · exact ih h
    · next hfree =>
      cases h
      simpa using hfree

/-- Sound, and active. -/
def PadsActive (r : Router) : Prop := PadSound r ∧ r.snapshot.active = true

theorem PadsActive.keeps {α : Type} {m : RouterM α} (h : Within (Footprint (· ≠ .pad)) m) :
    Keeps PadsActive m := fun r hr => ⟨hr.1.frame (h r), (h r).active.trans hr.2⟩

theorem addGamepad_active (event : GamepadConnectionEvent) (status : Status) :
    Keeps PadsActive (addGamepad event status) := by
  have hdone : Keeps PadsActive (if status.isOk = true then
      (pure ⟨.kStateUpdated, .kGamepadConnection, {}⟩ : RouterM DispatchResult)
      else nativeResultLocked status .kGamepadConnection) :=
    keeps_ite (fun _ => keeps_pure _) fun _ => PadsActive.keeps (nativeResultLocked_frame _ _)
  unfold addGamepad
  refine keeps_ite (fun _ => keeps_get_bind fun r hr => ?_) fun _ => hdone
  split
  · exact hr
  · next deviceId hfree =>
    refine hdone _ ⟨⟨?_, rfl, fun hu => ?_, fun hi => ?_⟩, hr.2⟩
    · exact (hr.1.shows.add (g := ⟨event.instanceId, deviceId, event.descriptor, false, 0,
        .replicate 6 0, .replicate 6 0⟩) (freeDeviceId_new hfree) rfl rfl).congr rfl rfl
    · intro g hg
      rcases List.mem_append.1 hg with hg | hg
      · exact hr.1.unfocused hu g hg
      · obtain rfl := List.mem_singleton.1 hg
        rfl
    · have hactive : r.snapshot.active = false := hi
      rw [hr.2] at hactive
      cases hactive

section

variable (hok : ∀ log n, (sink.answer log n).isOk = true)

include hok

theorem handleGamepadConnectionLocked_active (event : GamepadConnectionEvent) :
    Keeps PadsActive (handleGamepadConnectionLocked sink event) := by
  unfold handleGamepadConnectionLocked
  refine keeps_ite (fun _ => keeps_pure _) fun _ => keeps_ite (fun _ => keeps_pure _) fun _ => ?_
  refine keeps_get_bind fun r hr => ?_
  split
  · next index g hfind =>
    obtain ⟨pre, post, hgs, herase, -⟩ := findGamepadLocked_split hfind
    split
    · exact hr
    · have hshows : PadsShow (pre ++ g :: post) r := hgs ▸ hr.1.shows
      have hw := hshows.wellFormed g (by simp)
      obtain ⟨-, hleads⟩ := disconnectGamepadLocked_spec hok g hw r
      have hl := hleads hshows.positive
      have hremoved := hshows.remove hl
      have hframe : Footprint (· = .pad) r ((disconnectGamepadLocked sink g).run r).2 :=
        disconnectGamepadLocked_frame g r
      rw [run_bind_snd]
      generalize (disconnectGamepadLocked sink g).run r = out at hl hremoved hframe ⊢
      have herase' : out.2.gamepads.eraseIdx index = pre ++ post := by rw [hl.gamepads, herase]
      have hactive := hframe.active.trans hr.2
      refine addGamepad_active event out.1.1 _ ⟨⟨?_, rfl, fun hu x hx => ?_, fun hi => ?_⟩, hactive⟩
      · change PadsShow (out.2.gamepads.eraseIdx index) _
        rw [herase']
        exact hremoved.congr rfl rfl
      · have hx' : x ∈ pre ++ post := herase' ▸ hx
        refine hr.1.unfocused ?_ x ?_
        · refine Bool.eq_false_iff.2 fun hfocused => ?_
          have hu' : out.2.snapshot.focused = false := hu
          rw [hframe.focused hfocused] at hu'
          cases hu'
        · rw [hgs]
          rcases List.mem_append.1 hx' with hx | hx <;> simp [hx]
      · have hi' : out.2.snapshot.active = false := hi
        rw [hactive] at hi'
        cases hi'
  · exact addGamepad_active event {} r hr

omit hok in
/-- A focused router after its gamepad at an index is replaced. -/
theorem setGamepad_active {index : Nat} {s : Router} (hr : PadsActive r)
    (hf : r.snapshot.focused = true)
    (hset : ∀ g', r.gamepads.set index g' = pre ++ g' :: post) (hs : PadsShow (pre ++ g' :: post) s)
    (hframe : Footprint (· = .pad) r s) (hgamepads : s.gamepads = r.gamepads)
    (hdetected : s.snapshot.detectedGamepads = r.snapshot.detectedGamepads) :
    PadsActive ((setGamepad index g').run s).2 := by
  have hset' : s.gamepads.set index g' = pre ++ g' :: post := by rw [hgamepads, hset]
  have hfocused := hframe.focused hf
  have hactive := hframe.active.trans hr.2
  refine ⟨⟨?_, ?_, fun hu => ?_, fun hi => ?_⟩, hactive⟩
  · change PadsShow (s.gamepads.set index g') _
    rw [hset']
    exact hs.congr rfl rfl
  · change s.snapshot.detectedGamepads = (s.gamepads.set index g').length
    rw [List.length_set, hdetected, hgamepads]
    exact hr.1.detected
  · have hu' : s.snapshot.focused = false := hu
    rw [hfocused] at hu'
    cases hu'
  · have hi' : s.snapshot.active = false := hi
    rw [hactive] at hi'
    cases hi'

theorem handleGamepadAxisLocked_active (event : GamepadAxisEvent) :
    Keeps PadsActive (handleGamepadAxisLocked sink event) := by
  unfold handleGamepadAxisLocked
  refine keeps_get_bind fun r hr => ?_
  split
  · exact hr
  · next index g hfind =>
    obtain ⟨pre, post, hgs, -, hset⟩ := findGamepadLocked_split hfind
    have hshows : PadsShow (pre ++ g :: post) r := hgs ▸ hr.1.shows
    have hw := hshows.wellFormed g (by simp)
    split
    · exact hr
    · split
      · exact hr
      · next hfocus =>
        have hf : r.snapshot.focused = true := by simpa using hfocus
        split
        · exact hr
        · rw [run_bind_snd]
          generalize hraw : ({ g with
            rawAxes := g.rawAxes.setIfInBounds event.axis.toNat event.value } : ActiveGamepad) =
              moved
          have hmoved : SamePad g moved ∧ moved.connected = g.connected := by
            rw [← hraw]
            exact ⟨⟨rfl, rfl, rfl, id⟩, rfl⟩
          obtain ⟨-, hsame, hleads⟩ := dispatchGamepadAxesLocked_spec hok moved event.axis.toNat r
          have hframe : Footprint (· = .pad) r
            ((dispatchGamepadAxesLocked sink moved event.axis.toNat).run r).2 :=
            dispatchGamepadAxesLocked_frame moved _ r
          generalize (dispatchGamepadAxesLocked sink moved event.axis.toNat).run r = out
            at hsame hleads hframe ⊢
          have hall := trans_of SamePad hmoved.1 hsame
          have hl := hleads (fun k => decide (k ∈ g.heldKeys)) ?_
          · rw [hmoved.1.deviceId, hmoved.2] at hl
            have hview : out.1.2.2.view = ⟨out.1.2.2.connected, fun k =>
                decide (k ∈ g.heldKeys)⟩ := by
              rw [ActiveGamepad.view, hall.heldKeys]
            have hnext : PadsShow (pre ++ out.1.2.2 :: post) out.2 :=
              hshows.leads hall.deviceId (hall.wellFormed hw) (hview ▸ hl)
            have hdone := setGamepad_active hr hf hset hnext hframe hl.gamepads hl.detected
            refine keeps_ite (fun _ => keeps_pure _) (fun _ => ?_) _ hdone
            exact PadsActive.keeps (nativeResultLocked_frame _ _)
          · intro hc k
            rw [hmoved.2] at hc
            simp [ActiveGamepad.heldKeys_of_disconnected hw hc]

omit hok in
/-- A button call while the gamepad is connected and the button is not there yet. -/
theorem PadsShow.press {b : UInt8} {pressed : Bool} (h : PadsShow (pre ++ g :: post) r)
    (hc : g.connected = true) (hb : b ∈ kButtons) (hp : has g.pressedButtons b = !pressed)
    (hn : r'.native =
      r.native ++ [.gamepadButton g.deviceId (mapSdlGamepadButtonToAndroid b) pressed])
    (hcount : r'.snapshot.connectedGamepads = r.snapshot.connectedGamepads) :
    PadsShow (pre ++ g.press b pressed :: post) r' := by
  have hw := h.wellFormed g (by simp)
  have hold : decide (mapSdlGamepadButtonToAndroid b ∈ g.heldKeys) = !pressed := by
    rw [← hp, Bool.eq_iff_iff, decide_eq_true_eq]
    exact ActiveGamepad.mem_heldKeys_map hb
  have hnew (k : Int32) : decide (k ∈ (g.press b pressed).heldKeys) =
      if k = mapSdlGamepadButtonToAndroid b then pressed else decide (k ∈ g.heldKeys) := by
    rw [Bool.eq_iff_iff, decide_eq_true_eq, ActiveGamepad.mem_heldKeys_press hb]
    split <;> simp
  refine h.replace rfl (hw.press hc hb pressed) hn (fun k => ?_) ?_ ?_
  · have hat : (g.press b pressed).view.at k = (true, decide (k ∈ (g.press b pressed).heldKeys)) :=
      congrArg (Prod.mk · _) hc
    have hat' : g.view.at k = (true, decide (k ∈ g.heldKeys)) := congrArg (Prod.mk · _) hc
    rw [hat, hat', hnew]
    by_cases hk : k = mapSdlGamepadButtonToAndroid b
    · subst hk
      simp [padRun, padStep, connectSignal, buttonSignal, hold]
    · simp [padRun, padStep, connectSignal, buttonSignal, hk, Ne.symm hk]
  · intro d k state hd
    simp [padRun, padStep, connectSignal, buttonSignal, Ne.symm hd]
  · rw [hcount]
    rfl

theorem handleGamepadButtonLocked_active (event : GamepadButtonEvent) :
    Keeps PadsActive (handleGamepadButtonLocked sink event) := by
  unfold handleGamepadButtonLocked
  refine keeps_get_bind fun r hr => ?_
  split
  · exact hr
  · next index g hfind =>
    obtain ⟨pre, post, hgs, -, hset⟩ := findGamepadLocked_split hfind
    have hshows : PadsShow (pre ++ g :: post) r := hgs ▸ hr.1.shows
    have hw := hshows.wellFormed g (by simp)
    dsimp only
    split
    · exact hr
    · split
      · exact hr
      · next hfocus =>
        have hf : r.snapshot.focused = true := by simpa using hfocus
        split
        · exact hr
        · next hsupported =>
          split
          · exact hr
          · next hpressed =>
            have hb : event.button ∈ kButtons :=
              mem_kButtons (by simp at hsupported; simp [hsupported.1])
            have hold : has g.pressedButtons event.button = !event.pressed :=
              Bool.eq_not.2 (by simpa using hpressed)
            obtain ⟨hout, hleads⟩ := connectGamepadLocked_spec hok g r
            have hframe : Footprint (· = .pad) r ((connectGamepadLocked sink g).run r).2 :=
              connectGamepadLocked_frame g r
            rw [run_bind_snd, hout]
            generalize ((connectGamepadLocked sink g).run r).2 = s at hleads hframe ⊢
            have hl := hleads (fun k => decide (k ∈ g.heldKeys))
              fun hc k => by simp [ActiveGamepad.heldKeys_of_disconnected hw hc]
            have hwc : ({ g with connected := true } : ActiveGamepad).WellFormed :=
              ⟨hw.announced, fun _ _ => rfl⟩
            have hconnected : PadsShow (pre ++ { g with connected := true } :: post) s :=
              hshows.leads rfl hwc hl
            let n :=
              Native.gamepadButton g.deviceId
                (mapSdlGamepadButtonToAndroid event.button) event.pressed
            let called : Router := { s with native := s.native ++ [n] }
            have hcall : Footprint (· = .pad) s called := call_only (n := n) (g := .pad) sink rfl s
            have hpress : PadsShow
                (pre ++ ActiveGamepad.press { g with connected := true } event.button
                  event.pressed :: post) called := hconnected.press rfl hb hold rfl rfl
            have hdone := setGamepad_active hr hf hset hpress (trans_of _ hframe hcall) hl.gamepads
              hl.detected
            refine PadsActive.keeps (nativeResultLocked_frame _ _) _ ?_
            change PadsActive ((setGamepad index
              (if (sink.answer s.native n).isOk = true then _ else _)).run called).2
            rw [if_pos (hok s.native n)]
            exact hdone

end

/-! Releasing every button. -/

/-- No button goes down. -/
def LiftsOnly (r r' : Router) : Prop :=
  ∃ more, r'.native = r.native ++ more ∧ ∀ n ∈ more, n.lifts = true

instance : IsPreorder Router LiftsOnly where
  refl r := ⟨[], by simp⟩
  trans r₁ r₂ r₃ h₁ h₂ := by
    obtain ⟨more₁, hn₁, hm₁⟩ := h₁
    obtain ⟨more₂, hn₂, hm₂⟩ := h₂
    refine ⟨more₁ ++ more₂, by rw [hn₂, hn₁, List.append_assoc], ?_⟩
    exact fun n hn => (List.mem_append.1 hn).elim (hm₁ n) (hm₂ n)

theorem Leads.liftsOnly {v' : PadView} (h : Leads d v v' r r') : LiftsOnly r r' := by
  obtain ⟨more, hn, hm, -⟩ := h.native
  exact ⟨more, hn, hm⟩

theorem InertStep.liftsOnly (h : InertStep r r') : LiftsOnly r r' :=
  (h.leads 0 .absent).liftsOnly

/-- The gamepads between a state and one in which every button is up. -/
structure PadsLifted (r r' : Router) : Prop where
  shows : PadsShow r'.gamepads r'
  released : ∀ g ∈ r'.gamepads, g.pressedButtons = 0
  detected : r'.snapshot.detectedGamepads = r'.gamepads.length
  lifts : LiftsOnly r r'

theorem PadsLifted.inert {s : Router} (h : PadsLifted r s)
    (hi : InertStep s r') : PadsLifted r r' := by
  have hg : r'.gamepads = s.gamepads := congrArg Prod.fst hi.part
  constructor
  · exact hg ▸ h.shows.inert hi
  · exact hg ▸ h.released
  · exact (congrArg (fun part => part.2.1) hi.part).trans
      (h.detected.trans (congrArg List.length hg.symm))
  · exact trans_of LiftsOnly h.lifts hi.liftsOnly

section

variable (hok : ∀ log n, (sink.answer log n).isOk = true)

include hok

theorem releaseGamepads_shows (gs : List ActiveGamepad) (first : Status)
    (h : PadsShow (pre ++ gs) r) :
    let out := (releaseGamepads sink first gs).run r
    PadsShow (pre ++ out.1.2) out.2 ∧ out.1.2.length = gs.length ∧
      (∀ g ∈ out.1.2, g.pressedButtons = 0) ∧ LiftsOnly r out.2 ∧
      out.2.snapshot.detectedGamepads = r.snapshot.detectedGamepads := by
  induction gs generalizing pre first r with
  | nil =>
    have hnone : ∀ g ∈ ([] : List ActiveGamepad), g.pressedButtons = 0 := nofun
    exact ⟨h, rfl, hnone, refl_of LiftsOnly r, rfl⟩
  | cons g gs ih =>
    obtain ⟨hf, hreleased, hl⟩ := releaseGamepadInputsLocked_spec hok g (h.wellFormed g (by simp)) r
    unfold releaseGamepads
    rw [run_bind_eq]
    generalize (releaseGamepadInputsLocked sink g).run r = out at hf hreleased hl ⊢
    have hnext := h.leads hreleased.deviceId
      (ActiveGamepad.wellFormed_of_zero hreleased.pressedButtons) hl
    rw [List.append_cons] at hnext
    obtain ⟨hshows, hlength, hzero, hlifts, hdetected⟩ := ih (keepFirstError first out.1.1) hnext
    dsimp only
    rw [run_bind_eq]
    generalize (releaseGamepads sink (keepFirstError first out.1.1) gs).run out.2 = rest
      at hshows hlength hzero hlifts hdetected ⊢
    refine ⟨?_, congrArg (· + 1) hlength, ?_, trans_of LiftsOnly hl.liftsOnly hlifts,
      hdetected.trans hl.detected⟩
    · rw [List.append_assoc] at hshows
      exact hshows
    · exact List.forall_mem_cons.2 ⟨hreleased.pressedButtons, hzero⟩

/-- `ReleasePressedInputsLocked` lifts every button. -/
theorem releasePressedInputsLocked_liftsPads (h : PadSound r) :
    PadsLifted r ((releasePressedInputsLocked sink).run r).2 := by
  have hafter := (releasePressedInputsLocked_pads sink r).inertStep
  have hbefore : PadsShow ([] ++ r.gamepads) r := h.shows
  obtain ⟨hshows, hlength, hzero, hlifts, hdetected⟩ :=
    releaseGamepads_shows hok r.gamepads {} hbefore
  have hall : PadsLifted r ((releaseAllGamepads sink).run r).2 :=
    ⟨hshows.congr rfl rfl, hzero, hdetected.trans (h.detected.trans hlength.symm), hlifts⟩
  exact hall.inert hafter

theorem disconnectGamepadsLocked_shows (h : PadsShow r.gamepads r) :
    PadsLifted r ((disconnectGamepadsLocked sink).run r).2 ∧
      ((disconnectGamepadsLocked sink).run r).2.gamepads = [] := by
  have hloop (gs : List ActiveGamepad) (first : Status) (r : Router) (h : PadsShow gs r) :
      let s := ((gs.foldlM (fun first gamepad => do
        let result ← disconnectGamepadLocked sink gamepad
        pure (keepFirstError first result.1)) first : RouterM Status).run r).2
      PadsShow [] s ∧ LiftsOnly r s := by
    induction gs generalizing first r with
    | nil => exact ⟨h, refl_of LiftsOnly r⟩
    | cons g gs ih =>
      obtain ⟨-, hleads⟩ := disconnectGamepadLocked_spec hok g (h.wellFormed g (by simp)) r
      have hshows : PadsShow ([] ++ g :: gs) r := h
      have hl := hleads hshows.positive
      obtain ⟨hnone, hlifts⟩ :=
        ih (keepFirstError first ((disconnectGamepadLocked sink g).run r).1.1)
        ((disconnectGamepadLocked sink g).run r).2 (hshows.remove hl)
      exact ⟨hnone, trans_of LiftsOnly hl.liftsOnly hlifts⟩
  obtain ⟨hnone, hlifts⟩ := hloop r.gamepads {} r h
  exact ⟨⟨hnone.congr rfl rfl, fun _ h => (List.not_mem_nil h).elim, rfl, hlifts⟩, rfl⟩

theorem windowFocus_liftsPads (replies : Replies) (h : PadSound r)
    (hf : r.snapshot.focused = true) :
    PadsLifted r ((handleWindowFocus sink replies false).run r).2 :=
  (releasePressedInputsLocked_liftsPads hok h).inert
  (handleWindowFocus_release sink replies hf).1.inertStep

theorem deactivate_liftsPads (replies : Replies) (h : PadSound r) (ha : r.snapshot.active = true) :
    PadsLifted r ((deactivate sink replies).run r).2 ∧
      ((deactivate sink replies).run r).2.gamepads = [] := by
  have hreleased := releasePressedInputsLocked_liftsPads hok h
  obtain ⟨hsame, -⟩ := deactivate_release sink replies ha
  generalize ((releasePressedInputsLocked sink).run r).2 = s at hreleased hsame
  obtain ⟨hgone, hnone⟩ := disconnectGamepadsLocked_shows hok hreleased.shows
  have hlifted : PadsLifted r ((disconnectGamepadsLocked sink).run s).2 :=
    ⟨hgone.shows, hgone.released, hgone.detected, trans_of LiftsOnly hreleased.lifts hgone.lifts⟩
  exact ⟨hlifted.inert hsame.inertStep, (congrArg Prod.fst (hsame.part .pad)).trans hnone⟩

theorem padSound_step {call : Call × Replies} (h : PadSound r) :
    PadSound (perform sink r call) := by
  refine perform_keeps (g := .pad) (fun _ _ hf hs => hs.frame hf) ?_ ?_ ?_ ?_ h
  · intro viewport focused ha
    have hshows := h.shows
    rw [h.inactive ha] at hshows
    have hcount := hshows.connected
    exact ⟨hshows.congr rfl hcount.symm, rfl, fun _ => nofun, fun _ => rfl⟩
  · intro _ ha
    obtain ⟨hlifted, hnone⟩ := deactivate_liftsPads hok call.2 h ha
    exact ⟨hlifted.shows, hlifted.detected, fun _ => hlifted.released, fun _ => hnone⟩
  · intro _ ha hf
    have hlifted := windowFocus_liftsPads hok call.2 h hf
    obtain ⟨_, _, hactive⟩ := handleWindowFocus_release sink call.2 hf
    refine ⟨hlifted.shows, hlifted.detected, fun _ => hlifted.released, fun hi => ?_⟩
    have hkept := (releasePressedInputsLocked_pads sink r).active.trans
      (releaseAllGamepads_frame sink r).active
    rw [hactive, hkept, ha] at hi
    cases hi
  · intro event _ hg ha
    cases event with
    | gamepadConnection event => exact (handleGamepadConnectionLocked_active hok event r ⟨h, ha⟩).1
    | gamepadButton event => exact (handleGamepadButtonLocked_active hok event r ⟨h, ha⟩).1
    | gamepadAxis event => exact (handleGamepadAxisLocked_active hok event r ⟨h, ha⟩).1
    | _ => cases hg

end

theorem padSound_initial : PadSound {} where
  shows := ⟨List.nodup_nil, nofun, fun _ _ => rfl, rfl⟩
  detected := rfl
  unfocused _ := nofun
  inactive _ := rfl

/-! The counts of the other inputs. -/

/-- The snapshot counts the active mouse buttons. -/
def MouseCounted (r : Router) : Prop := r.snapshot.activeMouseButtons = r.activeMouseButtons.length

/-- The snapshot counts the active keys. -/
def KeysCounted (r : Router) : Prop := r.snapshot.activeKeys = r.activeKeys.length

theorem MouseCounted.part (h : MouseCounted r) (hp : r'.part .mouse = r.part .mouse) :
    MouseCounted r' :=
  (congrArg Prod.snd hp).trans (h.trans (congrArg (List.length ∘ Prod.fst) hp).symm)

theorem KeysCounted.part (h : KeysCounted r) (hp : r'.part .key = r.part .key) : KeysCounted r' :=
  (congrArg Prod.snd hp).trans (h.trans (congrArg (List.length ∘ Prod.fst) hp).symm)

theorem mouseCounted_keeps {α : Type} {m : RouterM α} (h : Within (Footprint NoGroup) m) :
    Keeps MouseCounted m := fun r hr => hr.part ((h r).part .mouse id)

theorem keysCounted_keeps {α : Type} {m : RouterM α} (h : Within (Footprint NoGroup) m) :
    Keeps KeysCounted m := fun r hr => hr.part ((h r).part .key id)

theorem handleMouseEvent_counted (replies : Replies) {event : PlatformEvent}
    (hg : event.group = some .mouse) :
    Keeps MouseCounted (handleActiveEvent sink replies event) := by
  have hcall (n : Native) : Keeps MouseCounted (call sink n) := fun _ hr => hr
  cases event with
  | mouseMotion event =>
    refine keeps_get.bind fun r => keeps_ite (fun _ => keeps_pure _) fun _ => ?_
    unfold handleMouseMotionLocked
    refine keeps_ite (fun _ => keeps_pure _) fun _ => keeps_get.bind fun r => ?_
    refine (mouseCounted_keeps (placePointer_frame _ _ _)).bind fun _ => keeps_get.bind fun r => ?_
    exact (hcall _).bind fun _ => mouseCounted_keeps (nativeResultLocked_frame _ _)
  | mouseWheel event =>
    refine (mouseCounted_keeps takeFocus_frame).bind fun _ => ?_
    unfold handleMouseWheelLocked
    refine keeps_ite (fun _ => keeps_pure _) fun _ => ?_
    refine (mouseCounted_keeps (placePointer_frame _ _ _)).bind fun _ => keeps_get.bind fun r => ?_
    exact (hcall _).bind fun _ => mouseCounted_keeps (nativeResultLocked_frame _ _)
  | mouseButton event =>
    refine (mouseCounted_keeps takeFocus_frame).bind fun _ => ?_
    unfold handleMouseButtonLocked
    refine keeps_ite (fun _ => keeps_pure _) fun _ => keeps_ite (fun _ => keeps_pure _) fun _ => ?_
    refine (mouseCounted_keeps (placePointer_frame _ _ _)).bind fun _ => keeps_get.bind fun r => ?_
    refine (hcall _).bind fun status => Keeps.bind ?_ fun _ =>
      mouseCounted_keeps (nativeResultLocked_frame _ _)
    exact keeps_ite (fun _ => keeps_modify fun r _ => rfl) fun _ => keeps_pure _
  | _ => cases hg

theorem handleKeyEvent_counted (replies : Replies) (event : KeyEvent) :
    Keeps KeysCounted (handleKeyEvent sink replies event) := by
  unfold handleKeyEvent
  refine (keysCounted_keeps (withEditor_frame _)).bind fun result => ?_
  refine keeps_ite (fun _ => keysCounted_keeps (textResult_frame _)) fun _ => ?_
  unfold handleKeyLocked
  refine keeps_ite (fun _ => keeps_pure _) fun _ => keeps_ite (fun _ => keeps_pure _) fun _ => ?_
  have hcall (n : Native) : Keeps KeysCounted (call sink n) := fun _ hr => hr
  refine (hcall _).bind fun status => Keeps.bind ?_ fun _ =>
    keysCounted_keeps (nativeResultLocked_frame _ _)
  exact keeps_ite (fun _ => keeps_modify fun r _ => rfl) fun _ => keeps_pure _

/-- What is left of mouse buttons and keys when the router is deactivated. -/
theorem deactivate_parts (replies : Replies) (ha : r.snapshot.active = true) :
    let r' := ((deactivate sink replies).run r).2
    r'.part .mouse = ([], 0) ∧ r'.part .key = ([], 0) := by
  obtain ⟨hsame, -⟩ := deactivate_release sink replies ha
  have hmouse := releasePressedInputsLocked_mouse sink r
  have hkey : ((releasePressedInputsLocked sink).run r).2.part .key = ([], 0) := rfl
  generalize ((releasePressedInputsLocked sink).run r).2 = s at hsame hmouse hkey
  have hpads : Footprint (· = .pad) s ((disconnectGamepadsLocked sink).run s).2 :=
    disconnectGamepadsLocked_frame s
  exact ⟨(hsame.part .mouse).trans ((hpads.part .mouse nofun).trans hmouse),
    (hsame.part .key).trans ((hpads.part .key nofun).trans hkey)⟩

theorem mouseCounted_step {call : Call × Replies} (h : MouseCounted r) :
    MouseCounted (perform sink r call) := by
  have hnone {r' : Router} (hp : r'.part .mouse = ([], 0)) : MouseCounted r' :=
    (congrArg Prod.snd hp).trans (congrArg (List.length ∘ Prod.fst) hp).symm
  refine perform_keeps (g := .mouse)
    (fun _ _ hf hs => hs.part (hf.part .mouse (by simp))) ?_ ?_ ?_ ?_ h
  · exact fun _ _ _ => rfl
  · exact fun _ ha => hnone (deactivate_parts call.2 ha).1
  · intro _ _ hf
    obtain ⟨hsame, -⟩ := handleWindowFocus_release sink call.2 hf
    exact hnone ((hsame.part .mouse).trans (releasePressedInputsLocked_mouse sink r))
  · exact fun event _ hg _ => handleMouseEvent_counted call.2 hg r h

theorem keysCounted_step {call : Call × Replies} (h : KeysCounted r) :
    KeysCounted (perform sink r call) := by
  have hnone {r' : Router} (hp : r'.part .key = ([], 0)) : KeysCounted r' :=
    (congrArg Prod.snd hp).trans (congrArg (List.length ∘ Prod.fst) hp).symm
  refine perform_keeps (g := .key) (fun _ _ hf hs => hs.part (hf.part .key (by simp))) ?_ ?_ ?_ ?_ h
  · exact fun _ _ _ => rfl
  · exact fun _ ha => hnone (deactivate_parts call.2 ha).2
  · intro _ _ hf
    obtain ⟨hsame, -⟩ := handleWindowFocus_release sink call.2 hf
    exact hnone (hsame.part .key)
  · intro event _ hg _
    cases event with
    | key event =>
      exact (keysCounted_keeps takeFocus_frame).bind
        (fun _ => handleKeyEvent_counted call.2 event) r h
    | _ => cases hg

/-! Runs. -/

/-- What holds of every state of a run. -/
structure Balanced (sink : Sink) (r : Router) : Prop where
  touches : TouchSound sink r
  pads : PadSound r
  mouse : MouseCounted r
  keys : KeysCounted r

theorem balanced_reachable (hok : ∀ log n, (sink.answer log n).isOk = true)
    (h : (routerLTS sink).Reachable r) : Balanced sink r := by
  refine h.invariant ?_ ?_
  · rintro s rfl
    exact ⟨touchSound_initial, padSound_initial, rfl, rfl⟩
  · intro s call t hs hb
    cases hs
    exact ⟨touchSound_step hok hb.touches, padSound_step hok hb.pads, mouseCounted_step hb.mouse,
      keysCounted_step hb.keys⟩

/-- A button of a device is down. -/
def Holds (r : Router) (d k : Int32) : Prop :=
  ∃ g ∈ r.gamepads, g.deviceId = d ∧
    ∃ b, has g.pressedButtons b = true ∧ mapSdlGamepadButtonToAndroid b = k

theorem holds_iff (h : PadsShow r.gamepads r) :
    Holds r d k ↔ (viewOf r.gamepads d).pressed k = true := by
  constructor
  · rintro ⟨g, hg, rfl, b, hb, rfl⟩
    obtain ⟨pre, post, hgs⟩ := List.append_of_mem hg
    have hmem := (ActiveGamepad.mem_heldKeys_map ((h.wellFormed g hg).announced b hb)).2 hb
    rw [hgs, viewOf_middle (hgs ▸ h.nodup), if_pos rfl]
    exact decide_eq_true hmem
  · intro hp
    unfold viewOf at hp
    cases hfind : r.gamepads.find? (·.deviceId == d) with
    | none =>
      rw [hfind] at hp
      cases hp
    | some g =>
      rw [hfind] at hp
      obtain ⟨b, _, hb, hk⟩ := ActiveGamepad.mem_heldKeys.1 (of_decide_eq_true hp)
      exact ⟨g, List.mem_of_find?_eq_some hfind, by simpa using List.find?_some hfind, b, hb, hk⟩

/-- Each button that was down is released once. -/
theorem PadsLifted.words (h : PadsLifted r r') (hr : PadsShow r.gamepads r) {more : List Native}
    (hn : r'.native = r.native ++ more) (d k : Int32) :
    (Holds r d k → more.filterMap (buttonSignal d k) = [false]) ∧
      (¬ Holds r d k → more.filterMap (buttonSignal d k) = []) := by
  obtain ⟨more', hn', hm⟩ := h.lifts
  obtain rfl : more' = more := List.append_cancel_left (hn'.symm.trans hn)
  have hrun : padRun d k ((viewOf r.gamepads d).at k) more' = some
      ((viewOf r'.gamepads d).at k) := by
    have hlog := h.shows.log d k
    rw [hn, padRun_append, hr.log, Option.bind_some] at hlog
    exact hlog
  have hup : (viewOf r'.gamepads d).pressed k = false := by
    refine Bool.eq_false_iff.2 fun hp => ?_
    obtain ⟨g, hg, _, b, hb, _⟩ := (holds_iff h.shows).2 hp
    rw [h.released g hg, has_zero] at hb
    cases hb
  have hword := (buttonWord_of_run hm hrun).1
  rw [holds_iff hr, hword]
  simp only [PadView.at, hup]
  cases (viewOf r.gamepads d).pressed k <;> simp

/-- What a step leaves behind that releases everything. -/
def ReleasesAll (r r' : Router) : Prop :=
  ∃ more, r'.native = r.native ++ more ∧
    (∀ p, touchWord p more = if p ∈ r.pointerIds then [kAndroidTouchUp] else []) ∧
    (∀ d k, (Holds r d k → more.filterMap (buttonSignal d k) = [false]) ∧
      (¬ Holds r d k → more.filterMap (buttonSignal d k) = [])) ∧
    r'.activeTouches = [] ∧ ∀ g ∈ r'.gamepads, g.pressedButtons = 0

theorem releasesAll_of_lifted (ht : TouchesLifted r r') (hp : PadsLifted r r')
    (hr : PadsShow r.gamepads r) : ReleasesAll r r' := by
  obtain ⟨more, hn, hword⟩ := ht.native
  exact ⟨more, hn, hword, hp.words hr hn, ht.none, hp.released⟩

/-- With nothing down, nothing is sent. -/
theorem releasesAll_idle (ht : r.activeTouches = []) (hp : ∀ g ∈ r.gamepads, g.pressedButtons = 0)
    (hs : SameInput r r') : ReleasesAll r r' := by
  have hids : r.pointerIds = [] := by rw [Router.pointerIds, ht, List.map_nil]
  have hup (d k : Int32) : ¬ Holds r d k := by
    rintro ⟨g, hg, _, b, hb, _⟩
    rw [hp g hg, has_zero] at hb
    cases hb
  refine ⟨[], by simp [hs.native], fun p => ?_,
    fun d k => ⟨fun h => absurd h (hup d k), fun _ => rfl⟩,
    (congrArg Prod.fst (hs.part .touch)).trans ht, ?_⟩
  · rw [hids]
    rfl
  · have hg : r'.gamepads = r.gamepads := congrArg Prod.fst (hs.part .pad)
    exact hg ▸ hp

/-- A focus loss, or `Deactivate`. -/
def Call.Releases (call : Call) : Prop :=
  call = .handleEvent (.windowFocus false) ∨ call = .deactivate

theorem perform_releasesAll (hok : ∀ log n, (sink.answer log n).isOk = true) (h : Balanced sink r)
    {call : Call} (hc : call.Releases) (replies : Replies) :
    ReleasesAll r (perform sink r (call, replies)) := by
  cases ha : r.snapshot.active with
  | false =>
    have hgone := h.pads.inactive ha
    have hidle : ReleasesAll r r :=
      releasesAll_idle (h.touches.inactive ha) (by simp [hgone]) (refl_of SameInput r)
    rcases hc with rfl | rfl
    · rw [perform_event, ha]
      exact hidle
    · have hrun : perform sink r (.deactivate, replies) = r := by
        change ((deactivate sink replies).run r).2 = r
        unfold deactivate
        rw [StateT.run_bind, StateT.run_get, pure_bind, ha]
        rfl
      rw [hrun]
      exact hidle
  | true =>
    rcases hc with rfl | rfl
    · rw [perform_event, ha, if_pos rfl]
      change ReleasesAll r ((handleWindowFocus sink replies false).run r).2
      cases hf : r.snapshot.focused with
      | true =>
        exact releasesAll_of_lifted (windowFocus_lifts replies h.touches hf)
          (windowFocus_liftsPads hok replies h.pads hf) h.pads.shows
      | false =>
        have hkept : Footprint NoGroup r ((handleWindowFocus sink replies false).run r).2 :=
          handleWindowFocus_frame replies false (by simp [hf])
        exact releasesAll_idle (h.touches.unfocused hf) (h.pads.unfocused hf) hkept.sameInput
    · exact releasesAll_of_lifted (deactivate_lifts replies h.touches ha)
        (deactivate_liftsPads hok replies h.pads ha).1 h.pads.shows

/-- In every run with a sink that succeeds, pointer and device ids are distinct, each pointer is a
word of taps, each button takes turns after its device is connected, a focus loss or `Deactivate`
releases each input that is down once, and the counts are right. -/
theorem inputs_balanced (hok : ∀ log n, (sink.answer log n).isOk = true)
    (h : (routerLTS sink).Reachable r) :
    (r.pointerIds.Nodup ∧ ∀ p ∈ r.pointerIds, 0 ≤ p ∧ p < 32) ∧
    (∀ p, touchWord p r.native ∈ if p ∈ r.pointerIds then taps * holding else taps) ∧
    (r.gamepads.map (·.deviceId)).Nodup ∧
    (∀ d k, Alternates (buttonSignal d k) r.native ∧ ConnectedFirst d k r.native) ∧
    (∀ call replies, call.Releases → ReleasesAll r (perform sink r (call, replies))) ∧
    r.snapshot.activeTouches = r.activeTouches.length ∧
    r.snapshot.activeMouseButtons = r.activeMouseButtons.length ∧
    r.snapshot.activeKeys = r.activeKeys.length ∧
    r.snapshot.detectedGamepads = r.gamepads.length ∧
    r.snapshot.connectedGamepads = r.gamepads.countP (·.connected) := by
  have hb := balanced_reachable hok h
  have hwords (d k : Int32) := padWords_of_run (hb.pads.shows.log d k)
  refine ⟨⟨hb.touches.shows.nodup, hb.touches.shows.bounds⟩, hb.touches.shows.word,
    hb.pads.shows.nodup, fun d k => ⟨(hwords d k).alternates, (hwords d k).connectedFirst⟩,
    fun call replies hc => perform_releasesAll hok hb hc replies,
    hb.touches.count, hb.mouse, hb.keys,
    hb.pads.detected, hb.pads.shows.connected⟩

/-- A finger goes down in an active router. -/
def fingerDown : Router :=
  perform plainSink (perform plainSink {} (.activate plainViewport true, {}))
    (.handleEvent (.touch { action := .kDown, touchId := 7, fingerId := 7 }), {})

theorem inputs_balanced_release : fingerDown.pointerIds = [0] ∧
    ReleasesAll fingerDown
      (perform plainSink fingerDown (.handleEvent (.windowFocus false), {})) := by
  have hreach : (routerLTS plainSink).Reachable fingerDown :=
    ⟨_, [(.activate plainViewport true, {}),
      (.handleEvent (.touch { action := .kDown, touchId := 7, fingerId := 7 }), {})], rfl,
      .cons rfl (.single rfl)⟩
  obtain ⟨_, _, _, _, hrelease, _⟩ := inputs_balanced (fun _ _ => rfl) hreach
  exact ⟨rfl, hrelease _ {} (.inl rfl)⟩

end Nightcap.Input
