import Nightcap.Input.Pads

/-! What the functions that handle one gamepad send to the native side. -/
namespace Nightcap.Input

open Text Signal StateFrame

variable {sink : Sink} {r r' r'' : Router} {d k : Int32} {g g' : ActiveGamepad}

/-! Calls that say nothing about connections and buttons. -/

def Native.Inert (n : Native) : Prop :=
  ∀ d k, connectSignal d n = none ∧ buttonSignal d k n = none

theorem Native.Inert.lifts {n : Native} (h : n.Inert) : n.lifts = true := by
  cases n with
  | gamepadButton device key pressed => simpa [buttonSignal] using (h device key).2
  | _ => rfl

theorem padRun_inert {more : List Native} (h : ∀ n ∈ more, n.Inert) (d k : Int32)
    (state : Bool × Bool) : padRun d k state more = some state := by
  induction more with
  | nil => rfl
  | cons n more ih =>
    rw [List.forall_mem_cons] at h
    have hstep : padStep d k state n = some state := by simp only [padStep, h.1 d k]
    rw [padRun, List.foldlM_cons, hstep]
    exact ih h.2

/-- Only such calls are made, and no gamepad changes. -/
structure InertStep (r r' : Router) : Prop where
  part : r'.part .pad = r.part .pad
  native : ∃ more, r'.native = r.native ++ more ∧ ∀ n ∈ more, n.Inert

instance : IsPreorder Router InertStep where
  refl r := ⟨rfl, [], by simp⟩
  trans r₁ r₂ r₃ h₁ h₂ := by
    obtain ⟨more₁, hn₁, hm₁⟩ := h₁.native
    obtain ⟨more₂, hn₂, hm₂⟩ := h₂.native
    refine ⟨h₂.part.trans h₁.part, more₁ ++ more₂, by rw [hn₂, hn₁, List.append_assoc], ?_⟩
    exact fun n hn => (List.mem_append.1 hn).elim (hm₁ n) (hm₂ n)

theorem SameInput.inertStep (h : SameInput r r') : InertStep r r' :=
  ⟨h.part .pad, [], by simp [h.native]⟩

theorem call_inert (sink : Sink) {n : Native} (h : n.Inert) : Within InertStep (call sink n) :=
  fun r => ⟨rfl, [n], rfl, by simpa using h⟩

theorem countIf_inert (c : Bool) (kind : EventKind) : Within InertStep (countIf c kind) :=
  fun r => (countIf_frame c kind r).sameInput.inertStep

theorem configureGamepadLocked_inert (sink : Sink) (g : ActiveGamepad) (available : Bool) :
    Within InertStep (configureGamepadLocked sink g available) := by
  unfold configureGamepadLocked
  refine (within_foldlM (fun first button => ?_) _ _).bind fun first =>
    (within_foldlM (fun first axis => ?_) _ _).bind fun first =>
      within_foldlM (fun first axis => ?_) _ _
  · exact Within.bind (call_inert sink fun _ _ => ⟨rfl, rfl⟩) fun _ => within_pure _
  · exact Within.bind (call_inert sink fun _ _ => ⟨rfl, rfl⟩) fun _ => within_pure _
  · refine Within.bind (call_inert sink fun _ _ => ⟨rfl, rfl⟩) fun _ =>
      within_ite (fun _ => ?_) fun _ => within_pure _
    exact Within.bind (call_inert sink fun _ _ => ⟨rfl, rfl⟩) fun _ => within_pure _

theorem sendAxes_inert (sink : Sink) (g : ActiveGamepad) (x y z : Float32) (axes : List Nat)
    (dispatched : Bool) : Within InertStep (sendAxes sink g x y z axes dispatched) := by
  induction axes generalizing dispatched with
  | nil => exact within_pure _
  | cons index axes ih =>
    refine within_ite (fun _ => ih dispatched) fun _ => ?_
    refine Within.bind (call_inert sink fun _ _ => ⟨rfl, rfl⟩) fun status => ?_
    exact within_ite (fun _ => within_pure _) fun _ => ih true

/-! A sink that always succeeds. -/

def Succeeded (status : Status) : Prop := status.isOk = true

section

variable (hok : ∀ log n, (sink.answer log n).isOk = true)

include hok

theorem call_ok (n : Native) : Yields Succeeded (call sink n) :=
  fun r => hok r.native n

omit hok in
theorem keepFirstError_ok {first status : Status} (hf : Succeeded first) (hs : Succeeded status) :
    Succeeded (keepFirstError first status) := by
  unfold keepFirstError
  split
  · exact hs
  · exact hf

theorem configureGamepadLocked_ok (g : ActiveGamepad) (available : Bool) :
    Yields Succeeded (configureGamepadLocked sink g available) := by
  have hkeep (n : Native) (first : Status) (hf : Succeeded first) :
      Yields Succeeded (call sink n >>= fun status =>
        (pure (keepFirstError first status) : RouterM Status)) :=
    (call_ok hok n).bind fun status hs => yields_pure (keepFirstError_ok hf hs)
  have hinit : Succeeded {} := rfl
  unfold configureGamepadLocked
  refine Yields.bind (yields_foldlM (Q := Succeeded) (fun first button hf => ?_) hinit _)
    fun first hf => ?_
  · exact hkeep _ first hf
  refine Yields.bind (yields_foldlM (Q := Succeeded) (fun first axis hf => ?_) hf _) fun first hf =>
    ?_
  · exact hkeep _ first hf
  refine yields_foldlM (Q := Succeeded) (fun first axis hf => ?_) hf _
  refine (call_ok hok _).bind fun status hs => ?_
  refine yields_ite (fun _ => hkeep _ _ (keepFirstError_ok hf hs)) fun _ => ?_
  exact yields_pure (keepFirstError_ok hf hs)

theorem sendAxes_ok (g : ActiveGamepad) (x y z : Float32) (axes : List Nat) (dispatched : Bool) :
    Yields (fun sent => Succeeded sent.1) (sendAxes sink g x y z axes dispatched) := by
  induction axes generalizing dispatched with
  | nil => exact yields_pure rfl
  | cons index axes ih =>
    refine yields_ite (fun _ => ih dispatched) fun _ => (call_ok hok _).bind fun status hs => ?_
    exact yields_ite (fun hn => absurd hn (by rw [hs]; simp)) fun _ => ih true

end

/-! What the native side sees of a gamepad. -/

structure PadView where
  connected : Bool
  pressed : Int32 → Bool

def PadView.at (v : PadView) (k : Int32) : Bool × Bool := (v.connected, v.pressed k)

/-- A device nobody has heard of. -/
def PadView.absent : PadView := ⟨false, fun _ => false⟩

def ActiveGamepad.view (g : ActiveGamepad) : PadView :=
  ⟨g.connected, fun k => decide (k ∈ g.heldKeys)⟩

theorem ActiveGamepad.view_released (h : g.pressedButtons = 0) :
    g.view = ⟨g.connected, fun _ => false⟩ := by
  simp [view, heldKeys_of_zero h]

/-- Calls for one device, which press nothing, take it from one view to another. -/
structure Leads (d : Int32) (v v' : PadView) (r r' : Router) : Prop where
  gamepads : r'.gamepads = r.gamepads
  detected : r'.snapshot.detectedGamepads = r.snapshot.detectedGamepads
  connected : r'.snapshot.connectedGamepads + v.connected.toNat =
    r.snapshot.connectedGamepads + v'.connected.toNat
  native : ∃ more, r'.native = r.native ++ more ∧ (∀ n ∈ more, n.lifts = true) ∧
    (∀ k, padRun d k (v.at k) more = some (v'.at k)) ∧
    ∀ d' k state, d' ≠ d → padRun d' k state more = some state

variable {v v' v'' : PadView}

theorem Leads.trans (h₁ : Leads d v v' r r') (h₂ : Leads d v' v'' r' r'') :
    Leads d v v'' r r'' := by
  obtain ⟨more₁, hn₁, hl₁, hv₁, ho₁⟩ := h₁.native
  obtain ⟨more₂, hn₂, hl₂, hv₂, ho₂⟩ := h₂.native
  have hc₁ := h₁.connected
  have hc₂ := h₂.connected
  refine ⟨h₂.gamepads.trans h₁.gamepads, h₂.detected.trans h₁.detected, by omega, more₁ ++ more₂,
    by rw [hn₂, hn₁, List.append_assoc], ?_, fun k => ?_, fun d' k state hd => ?_⟩
  · exact fun n hn => (List.mem_append.1 hn).elim (hl₁ n) (hl₂ n)
  · rw [padRun_append, hv₁, Option.bind_some, hv₂]
  · rw [padRun_append, ho₁ d' k state hd, Option.bind_some, ho₂ d' k state hd]

theorem InertStep.leads (h : InertStep r r') (d : Int32) (v : PadView) : Leads d v v r r' := by
  obtain ⟨more, hn, hm⟩ := h.native
  refine ⟨congrArg Prod.fst h.part, congrArg (fun part => part.2.1) h.part, ?_, more, hn,
    fun n hmem => (hm n hmem).lifts, fun k => padRun_inert hm d k _,
    fun d' k state _ => padRun_inert hm d' k state⟩
  rw [show r'.snapshot.connectedGamepads = r.snapshot.connectedGamepads from
    congrArg (fun part => part.2.2) h.part]

/-- One call for the device. -/
theorem leads_call {n : Native} (hp : r'.gamepads = r.gamepads)
    (hd : r'.snapshot.detectedGamepads = r.snapshot.detectedGamepads)
    (hc : r'.snapshot.connectedGamepads + v.connected.toNat =
      r.snapshot.connectedGamepads + v'.connected.toNat)
    (hn : r'.native = r.native ++ [n]) (hl : n.lifts = true)
    (hv : ∀ k, padStep d k (v.at k) n = some (v'.at k))
    (ho : ∀ d' k, d' ≠ d → connectSignal d' n = none ∧ buttonSignal d' k n = none) :
    Leads d v v' r r' := by
  refine ⟨hp, hd, hc, [n], hn, by simpa using hl, fun k => ?_, fun d' k state hd' => ?_⟩
  · rw [padRun, List.foldlM_cons, hv]
    rfl
  · have hstep : padStep d' k state n = some state := by simp only [padStep, ho d' k hd']
    rw [padRun, List.foldlM_cons, hstep]
    rfl

/-! The functions of the source. -/

/-- The same gamepad, with the same buttons down, connected at least as it was. -/
structure SamePad (g g' : ActiveGamepad) : Prop where
  instanceId : g'.instanceId = g.instanceId
  deviceId : g'.deviceId = g.deviceId
  pressedButtons : g'.pressedButtons = g.pressedButtons
  connected : g.connected = true → g'.connected = true

instance : IsPreorder ActiveGamepad SamePad where
  refl _ := ⟨rfl, rfl, rfl, id⟩
  trans _ _ _ h₁ h₂ := ⟨h₂.instanceId.trans h₁.instanceId, h₂.deviceId.trans h₁.deviceId,
    h₂.pressedButtons.trans h₁.pressedButtons, h₂.connected ∘ h₁.connected⟩

theorem SamePad.wellFormed (h : SamePad g g') (hw : g.WellFormed) : g'.WellFormed where
  announced b hb := hw.announced b (h.pressedButtons ▸ hb)
  connected b hb := h.connected (hw.connected b (h.pressedButtons ▸ hb))

theorem SamePad.heldKeys (h : SamePad g g') : g'.heldKeys = g.heldKeys := by
  rw [ActiveGamepad.heldKeys, h.pressedButtons, ActiveGamepad.heldKeys]

section

variable (hok : ∀ log n, (sink.answer log n).isOk = true)

include hok

theorem connectGamepadLocked_spec (g : ActiveGamepad) :
    Meets (fun r out r' => out = ({}, { g with connected := true }) ∧
      ∀ pressed : Int32 → Bool, (g.connected = false → ∀ k, pressed k = false) →
        Leads g.deviceId ⟨g.connected, pressed⟩ ⟨true, pressed⟩ r r')
          (connectGamepadLocked sink g) := by
  intro r
  cases hc : g.connected with
  | true =>
    have hrun : (connectGamepadLocked sink g).run r = (({}, g), r) := by
      unfold connectGamepadLocked
      rw [hc]
      rfl
    have hg : { g with connected := true } = g := by
      cases g
      cases hc
      rfl
    rw [hrun, hg]
    refine ⟨rfl, fun pressed _ => ?_⟩
    exact (refl_of InertStep r).leads _ _
  | false =>
    have hconf := configureGamepadLocked_inert sink g true r
    have hconfOk : ((configureGamepadLocked sink g true).run r).1.isOk = true :=
      configureGamepadLocked_ok hok g true r
    obtain ⟨type, hrun⟩ : ∃ type, (connectGamepadLocked sink g).run r =
        let s := ((configureGamepadLocked sink g true).run r).2
        (({}, { g with connected := true }), { s with
          native := s.native ++ [.gamepadConnect g.deviceId type]
          snapshot :=
            { s.snapshot with connectedGamepads := s.snapshot.connectedGamepads + 1 } }) := by
      unfold connectGamepadLocked
      rw [hc, if_neg (by simp), run_bind_eq, ifOk, if_pos hconfOk, run_bind_eq, if_neg]
      · exact ⟨_, rfl⟩
      · have hanswer (n : Native) (s : Router) : ((call sink n).run s).1.isOk = true :=
          call_ok hok n s
        rw [hanswer]
        simp
    rw [hrun]
    refine ⟨rfl, fun pressed hp => (hconf.leads _ _).trans ?_⟩
    refine leads_call rfl rfl (by simp) rfl rfl (fun k => ?_) fun d' k hd => ?_
    · simp [padStep, connectSignal, PadView.at, hp rfl k]
    · simp [connectSignal, buttonSignal, Ne.symm hd]

theorem dispatchGamepadAxesLocked_spec (g : ActiveGamepad) (axis : Nat) :
    Meets (fun r out r' => Succeeded out.1 ∧ SamePad g out.2.2 ∧
      ∀ pressed : Int32 → Bool, (g.connected = false → ∀ k, pressed k = false) →
        Leads g.deviceId ⟨g.connected, pressed⟩ ⟨out.2.2.connected, pressed⟩ r r')
      (dispatchGamepadAxesLocked sink g axis) := by
  unfold dispatchGamepadAxesLocked
  refine meets_ite (fun _ => meets_pure fun r => ?_) fun _ => ?_
  · exact ⟨rfl, refl_of SamePad g, fun pressed _ => (refl_of InertStep r).leads _ _⟩
  refine (connectGamepadLocked_spec hok g).bind fun out => ?_
  refine meets_ite (fun hfail => ?_) fun _ => ?_
  · rintro t s ⟨rfl, -⟩
    exact absurd hfail (by simp [Status.isOk])
  refine Meets.bind (Q := fun t sent u => Succeeded sent.1 ∧ InertStep t u) ?_ fun sent => ?_
  · exact fun t => ⟨sendAxes_ok hok _ _ _ _ _ _ t, sendAxes_inert sink _ _ _ _ _ _ t⟩
  refine meets_ite (fun hfail => ?_) fun _ => meets_pure ?_
  · rintro u t ⟨hsent, -⟩
    exact absurd hfail (by rw [hsent]; simp)
  · rintro u t ⟨-, hinert⟩ s ⟨rfl, hleads⟩
    refine ⟨rfl, ⟨rfl, rfl, rfl, fun _ => rfl⟩, fun pressed hp => ?_⟩
    exact (hleads pressed hp).trans (hinert.leads _ _)

/-- The release of one key that is down. -/
theorem releaseButton_spec {key : Int32} {keys : List Int32} (hkey : key ∉ keys) (d : Int32)
    (first : Status) (hf : Succeeded first) :
    Meets (fun r out r' => Succeeded out ∧ Leads d ⟨true, fun k => decide (k ∈ key :: keys)⟩
      ⟨true, fun k => decide (k ∈ keys)⟩ r r')
      (do
        let status ← call sink (.gamepadButton d key false)
        countIf status.isOk .kGamepadButton
        pure (keepFirstError first status) : RouterM Status) := by
  intro r
  have hcall : Leads d ⟨true, fun k => decide (k ∈ key :: keys)⟩
      ⟨true, fun k => decide (k ∈ keys)⟩ r
      ((call sink (.gamepadButton d key false)).run r).2 := by
    refine leads_call rfl rfl rfl rfl rfl (fun k => ?_) fun d' k hd => ?_
    · by_cases hk : k = key
      · subst hk
        simp [padStep, connectSignal, buttonSignal, PadView.at, hkey]
      · simp [padStep, connectSignal, buttonSignal, PadView.at, hk, Ne.symm hk]
    · simp [connectSignal, buttonSignal, Ne.symm hd]
  refine ⟨keepFirstError_ok hf (hok _ _), hcall.trans ?_⟩
  exact InertStep.leads (countIf_inert _ _ _) _ _

/-- The releases of the buttons among a list. -/
theorem releaseButtons_spec (g : ActiveGamepad) (buttons : List UInt8)
    (hnodup : (buttons.map mapSdlGamepadButtonToAndroid).Nodup) (first : Status)
    (hf : Succeeded first) :
    Meets (fun r out r' => Succeeded out ∧ Leads g.deviceId
      ⟨true, fun k =>
        decide (k ∈ (buttons.filter (has g.pressedButtons)).map mapSdlGamepadButtonToAndroid)⟩
      ⟨true, fun _ => false⟩ r r')
      (buttons.foldlM (fun first button => do
        if has g.pressedButtons button then
          let status ← call sink
              (.gamepadButton g.deviceId (mapSdlGamepadButtonToAndroid button) false)
          countIf status.isOk .kGamepadButton
          pure (keepFirstError first status)
        else pure first) first) := by
  induction buttons generalizing first with
  | nil =>
    refine meets_pure fun r => ⟨hf, ?_⟩
    simpa using (refl_of InertStep r).leads g.deviceId ⟨true, fun _ => false⟩
  | cons b buttons ih =>
    rw [List.map_cons, List.nodup_cons] at hnodup
    rw [List.foldlM_cons]
    cases hb : has g.pressedButtons b with
    | false =>
      rw [List.filter_cons_of_neg (by simp [hb])]
      exact ih hnodup.2 first hf
    | true =>
      have hkey : mapSdlGamepadButtonToAndroid b ∉
          (buttons.filter (has g.pressedButtons)).map mapSdlGamepadButtonToAndroid :=
        fun hm => hnodup.1 (List.map_subset _ (List.filter_subset_self _) hm)
      rw [List.filter_cons_of_pos hb, List.map_cons, if_pos rfl]
      intro r
      obtain ⟨hf', hone⟩ := releaseButton_spec hok hkey g.deviceId first hf r
      obtain ⟨hf'', hrest⟩ := ih hnodup.2 _ hf' _
      exact ⟨hf'', hone.trans hrest⟩

theorem releaseConnected_spec (g : ActiveGamepad) (hg : g.connected = true) :
    Meets (fun r out r' => Succeeded out.1 ∧ SamePad g out.2 ∧
      Leads g.deviceId g.view ⟨true, fun _ => false⟩ r r') (releaseConnected sink g) := by
  have hview : g.view = ⟨true, fun k => decide (k ∈ g.heldKeys)⟩ := by rw [ActiveGamepad.view, hg]
  rw [hview]
  unfold releaseConnected
  refine Meets.bind (releaseButtons_spec hok g kButtons kButtons_nodup {} rfl) fun first => ?_
  -- the loop over the axes changes neither the connection nor a button
  refine Meets.mono (meets_foldlM (Q := fun t out u => (Succeeded first → Succeeded out.1) ∧
    SamePad g out.2 ∧ Leads g.deviceId ⟨true, fun _ => false⟩ ⟨true, fun _ => false⟩ t u) ?_ ?_ _)
      ?_
  · exact fun t => ⟨id, ⟨rfl, rfl, rfl, id⟩, (refl_of InertStep t).leads _ _⟩
  · rintro ⟨first', gamepad⟩ axis
    refine (dispatchGamepadAxesLocked_spec hok gamepad axis).bind fun out => ?_
    refine Meets.bind (Q := fun t _ u => InertStep t u) (countIf_inert _ _) fun _ => meets_pure ?_
    rintro u t hcount s ⟨hs, hsame, hleads⟩ r ⟨hf, hsame', hleads'⟩
    have hc := hsame'.connected hg
    have hone := hleads (fun _ => false) (fun _ _ => rfl)
    rw [hc, hsame.connected hc, hsame'.deviceId] at hone
    exact ⟨fun h => keepFirstError_ok (hf h) hs, trans_of SamePad hsame' hsame,
      hleads'.trans (hone.trans (hcount.leads _ _))⟩
  · rintro t out u ⟨hf, hsame, hleads⟩ s ⟨hfirst, hbuttons⟩
    exact ⟨hf hfirst, hsame, hbuttons.trans hleads⟩

/-- A gamepad whose inputs are released, with everything else as it was. -/
structure Released (g g' : ActiveGamepad) : Prop where
  instanceId : g'.instanceId = g.instanceId
  deviceId : g'.deviceId = g.deviceId
  connected : g'.connected = g.connected
  pressedButtons : g'.pressedButtons = 0

theorem releaseGamepadInputsLocked_spec (g : ActiveGamepad) (hw : g.WellFormed) :
    Meets (fun r out r' => Succeeded out.1 ∧ Released g out.2 ∧
      Leads g.deviceId g.view out.2.view r r') (releaseGamepadInputsLocked sink g) := by
  unfold releaseGamepadInputsLocked
  refine meets_ite (fun hg => ?_) fun hg => meets_pure fun r => ?_
  · refine (releaseConnected_spec hok g hg).bind fun out => meets_pure ?_
    rintro s r ⟨hf, hsame, hleads⟩
    have hc := hsame.connected hg
    have hview : out.2.released.view = ⟨true, fun _ => false⟩ :=
      (ActiveGamepad.view_released rfl).trans (congrArg (PadView.mk · _) hc)
    refine ⟨hf, ⟨hsame.instanceId, hsame.deviceId, hc.trans hg.symm, rfl⟩, ?_⟩
    rw [hview]
    exact hleads
  · have hnone : g.view = g.released.view := by
      have hheld := ActiveGamepad.heldKeys_of_disconnected hw (Bool.eq_false_iff.2 hg)
      rw [ActiveGamepad.view_released (g := g.released) rfl, ActiveGamepad.view, hheld]
      simp [ActiveGamepad.released]
    refine ⟨rfl, ⟨rfl, rfl, rfl, rfl⟩, ?_⟩
    rw [hnone]
    exact (refl_of InertStep r).leads _ _

theorem disconnectGamepadLocked_spec (g : ActiveGamepad) (hw : g.WellFormed) :
    Meets (fun r out r' => Succeeded out.1 ∧
      ((g.connected = true → 0 < r.snapshot.connectedGamepads) →
        Leads g.deviceId g.view .absent r r')) (disconnectGamepadLocked sink g) := by
  intro r
  obtain ⟨hf, hreleased, hleads⟩ := releaseGamepadInputsLocked_spec hok g hw r
  unfold disconnectGamepadLocked
  rw [run_bind_eq]
  generalize (releaseGamepadInputsLocked sink g).run r = out at hf hreleased hleads ⊢
  have hview := ActiveGamepad.view_released hreleased.pressedButtons
  dsimp only
  split
  · next hc =>
    have hconf := configureGamepadLocked_inert sink out.1.2 false out.2
    have hconfOk := configureGamepadLocked_ok hok out.1.2 false out.2
    rw [run_bind_eq]
    refine ⟨keepFirstError_ok (keepFirstError_ok hf hconfOk) (hok _ _), fun hpos => ?_⟩
    have hconfigured := hleads.trans (hconf.leads g.deviceId _)
    rw [hview, hc] at hconfigured
    refine hconfigured.trans (leads_call rfl rfl ?_ rfl rfl (fun k => ?_) fun d' k hd => ?_)
    · have hcount := hconfigured.connected
      have hg := hreleased.connected.symm.trans hc
      rw [ActiveGamepad.view, hg] at hcount
      have hsame :
          ((configureGamepadLocked sink out.1.2 false).run out.2).2.snapshot.connectedGamepads =
          r.snapshot.connectedGamepads := by simpa using hcount
      exact Nat.sub_add_cancel ((hpos hg).trans_eq hsame.symm)
    · simp [padStep, connectSignal, PadView.at, PadView.absent, hreleased.deviceId]
    · simp [connectSignal, buttonSignal, hreleased.deviceId, Ne.symm hd]
  · next hc =>
    refine ⟨hf, fun _ => ?_⟩
    rw [hview, Bool.eq_false_iff.2 hc] at hleads
    exact hleads

end

end Nightcap.Input
