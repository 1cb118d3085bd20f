import Nightcap.Session.Safety

/-! Present evidence: what is pending, what is committed, and on whose authority. -/
namespace Nightcap.Session

open Coordinator Transition

variable {s t : Coordinator} {ph : Phase} {o : Outcome} {sys sys' : System} {act : Action}
  {acts : List Action} {evidence e : PresentEvidence} {status : Status} {callback : Callback}
  {c : Continuation} {history : List Event} {g : UInt64}
  {capabilities : Capabilities} {requirements : Requirements}

/-- The surface a callback binds the game to. -/
def Callback.surface? : Callback → Option Surface
  | .startGame _ _ surface => some surface
  | .updateSurface surface => some surface
  | .resumeGame surface => some surface
  | _ => none

/-- A callback that binds a surface of generation `g` has returned OK. -/
def Bound (history : List Event) (g : UInt64) : Prop :=
  ∃ callback status surface, .returned callback status ∈ history ∧ status.isOk = true ∧
    callback.surface? = some surface ∧ surface.generation = g

/-- The states whose native transition evidence may wait for. -/
def Awaits (state : State) : Prop := state = .starting ∨ state = .resuming ∨
    state = .updatingSurface

structure Pending (s : Coordinator) (history : List Event) : Prop where
  awaits : Awaits s.state
  available : s.pendingSurfaceAvailable = true
  generation : s.pendingPresentEvidence.surfaceGeneration = s.pendingSurface.generation
  shape : s.isPresentShapeValid s.pendingPresentEvidence = true
  recorded : .present s.pendingPresentEvidence ∈ history

/-- The frame shown first comes from recorded evidence for a surface that was really bound. -/
structure Witnessed (s : Coordinator) (history : List Event) (e : PresentEvidence) : Prop where
  recorded : .present e ∈ history
  shape : s.isPresentShapeValid e = true
  frame : e.frameSerial = s.firstPresentedFrame
  bound : Bound history e.surfaceGeneration

structure Presents (sys : System) : Prop where
  pending : sys.coordinator.pendingPresent = true → Pending sys.coordinator sys.history
  iff : sys.coordinator.gamePresented = true ↔ sys.coordinator.firstPresentedFrame ≠ 0
  active : sys.coordinator.activeSurface.generation ≠ 0 →
    Bound sys.history sys.coordinator.activeSurface.generation
  witnessed : sys.coordinator.gamePresented = true →
    ∃ e, Witnessed sys.coordinator sys.history e

/-- `t` has seen no more frames than `s`. -/
structure SameFrames (s t : Coordinator) : Prop where
  requirements : t.requirements = s.requirements
  gamePresented : t.gamePresented = s.gamePresented
  firstPresentedFrame : t.firstPresentedFrame = s.firstPresentedFrame
  activeSurface : t.activeSurface = s.activeSurface

theorem shape_congr (h : t.requirements = s.requirements) :
    t.isPresentShapeValid e = s.isPresentShapeValid e := by
  simp [isPresentShapeValid, h]

theorem Bound.mono (h : Bound history g) (events : List Event) : Bound (history ++ events) g := by
  obtain ⟨callback, status, surface, hm, hok, hs, hg⟩ := h
  exact ⟨callback, status, surface, List.mem_append_left _ hm, hok, hs, hg⟩

theorem Witnessed.mono (h : Witnessed s history e) (events : List Event)
    (hr : t.requirements = s.requirements)
    (hf : t.firstPresentedFrame = s.firstPresentedFrame) : Witnessed t (history ++ events) e where
  recorded := List.mem_append_left _ h.recorded
  shape := (shape_congr hr).trans h.shape
  frame := h.frame.trans hf.symm
  bound := h.bound.mono events

/-- Nothing pending and no new frame: whatever held of the frames still holds. -/
theorem Presents.keep (h : Presents sys) (hk : SameFrames sys.coordinator t)
    (hp : t.pendingPresent = false) (fl : Option (Callback × Continuation)) (events : List Event) :
    Presents { coordinator := t, inFlight := fl, history := sys.history ++ events } where
  pending hp' := absurd (hp.symm.trans hp') (by decide)
  iff := by
    rw [hk.gamePresented, hk.firstPresentedFrame]
    exact h.iff
  active := by
    rw [hk.activeSurface]
    exact fun hg => (h.active hg).mono events
  witnessed hg := by
    obtain ⟨e, he⟩ := h.witnessed (hk.gamePresented ▸ hg)
    exact ⟨e, he.mono events hk.requirements hk.firstPresentedFrame⟩

theorem Presents.idle (h : Presents sys) (hs : Stage sys.coordinator none ph) :
    sys.coordinator.pendingPresent = false := by
  cases hp : sys.coordinator.pendingPresent with
  | false => rfl
  | true =>
    rcases (h.pending hp).awaits with ha | ha | ha <;> cases hs <;> simp_all

/-! Operations and their callbacks. -/

theorem Effect.frames (h : Effect s o) (sys : System) (hp : s.pendingPresent = false) :
    SameFrames s (sys.settle o).coordinator ∧
      (sys.settle o).coordinator.pendingPresent = false := by
  cases h with
  | failed hk =>
    exact ⟨⟨hk.requirements, hk.gamePresented, hk.firstPresentedFrame, hk.activeSurface⟩,
      hk.pendingPresent.trans hp⟩
  | unchanged | principal | queued | offered | prepare | leave | stop =>
    exact ⟨⟨rfl, rfl, rfl, rfl⟩, hp⟩
  | _ => exact ⟨⟨rfl, rfl, rfl, rfl⟩, rfl⟩

theorem settle_presents (h : Effect sys.coordinator o) (hf : sys.inFlight = none)
    (ht : Tracks sys) (hs : Presents sys) : Presents (sys.settle o) := by
  obtain ⟨ph, hst, _⟩ := ht
  rw [hf] at hst
  obtain ⟨hk, hp⟩ := h.frames sys (hs.idle hst)
  cases o with
  | returned t r => simpa [System.settle] using hs.keep hk hp sys.inFlight []
  | calls t callback c => exact hs.keep hk hp _ _

/-- A callback that returns shows no frame, or promotes the surface it was given. -/
theorem finish_frames (hs : Stage s (some (callback, c)) ph) (status : Status) :
    (SameFrames s (finish s c status).1 ∧
      ((finish s c status).1.pendingPresent = false ∨
        ¬ Awaits s.state ∧ (finish s c status).1.pendingPresent = s.pendingPresent)) ∨
    status.isOk = true ∧ callback.surface? = some s.pendingSurface ∧
      (finish s c status).1.requirements = s.requirements ∧
      (finish s c status).1.activeSurface = s.pendingSurface ∧
      (finish s c status).1.pendingPresent = false ∧
      (finish s c status).1.gamePresented = (s.gamePresented || s.pendingPresent) ∧
      (finish s c status).1.firstPresentedFrame =
        if s.pendingPresent && !s.gamePresented then s.pendingPresentEvidence.frameSerial
        else s.firstPresentedFrame := by
  cases hok : status.isOk with
  | false =>
    left
    cases hs <;> simp only [finish, hok, Bool.not_false, if_true]
    case preparing hs _ _ => exact ⟨⟨rfl, rfl, rfl, rfl⟩, .inr ⟨by simp [Awaits, hs], rfl⟩⟩
    case pausing hs _ _ _ => exact ⟨⟨rfl, rfl, rfl, rfl⟩, .inr ⟨by simp [Awaits, hs], rfl⟩⟩
    case leaving hs _ => exact ⟨⟨rfl, rfl, rfl, rfl⟩, .inr ⟨by simp [Awaits, hs], rfl⟩⟩
    case stopping hs _ => exact ⟨⟨rfl, rfl, rfl, rfl⟩, .inr ⟨by simp [Awaits, hs], rfl⟩⟩
    all_goals exact ⟨⟨rfl, rfl, rfl, rfl⟩, .inl rfl⟩
  | true =>
    cases hs <;> simp only [finish, hok, commitPendingPresent_eq, Bool.not_true,
      Bool.false_eq_true, if_false]
    case starting | updating | resuming => exact .inr ⟨trivial, rfl, rfl, rfl, rfl, rfl, rfl⟩
    case preparing hs _ _ => exact .inl ⟨⟨rfl, rfl, rfl, rfl⟩, .inr ⟨by simp [Awaits, hs], rfl⟩⟩
    case pausing hs _ _ _ => exact .inl ⟨⟨rfl, rfl, rfl, rfl⟩, .inr ⟨by simp [Awaits, hs], rfl⟩⟩
    case leaving | stopping => exact .inl ⟨⟨rfl, rfl, rfl, rfl⟩, .inl rfl⟩

theorem frameSerial_ne_zero (h : s.isPresentShapeValid e = true) : e.frameSerial ≠ 0 := by
  simp only [isPresentShapeValid, Bool.and_eq_true, bne_iff_ne] at h
  exact h.1.1.1.2

theorem finish_presents (hf : sys.inFlight = some (callback, c)) (ht : Tracks sys)
    (hs : Presents sys) :
    Presents { coordinator := (finish sys.coordinator c status).1
               inFlight := none
               history := sys.history ++ [.returned callback status] } := by
  obtain ⟨ph, hst, _⟩ := ht
  rw [hf] at hst
  rcases finish_frames hst status with ⟨hk, hp⟩ | ⟨hok, hb, hr, ha, hp, hg, hn⟩
  · refine hs.keep hk ?_ _ _
    rcases hp with hp | ⟨ha, hp⟩
    · exact hp
    · rw [hp]
      cases hpp : sys.coordinator.pendingPresent with
      | false => rfl
      | true => exact absurd (hs.pending hpp).awaits ha
  · have hbound : Bound (sys.history ++ [.returned callback status])
        sys.coordinator.pendingSurface.generation :=
      ⟨callback, status, _, by simp, hok, hb, rfl⟩
    refine ⟨fun hp' => absurd (hp.symm.trans hp') (by decide), ?_, fun _ => ha ▸ hbound, ?_⟩
    · rw [hg, hn]
      cases hgp : sys.coordinator.gamePresented with
      | true => simpa [hgp] using hs.iff
      | false =>
        cases hpp : sys.coordinator.pendingPresent with
        | true => simpa using frameSerial_ne_zero (hs.pending hpp).shape
        | false => simpa [hgp] using hs.iff
    · intro hg'
      cases hgp : sys.coordinator.gamePresented with
      | true =>
        obtain ⟨e, he⟩ := hs.witnessed hgp
        exact ⟨e, he.mono _ hr (by simp [hn, hgp])⟩
      | false =>
        have hpp : sys.coordinator.pendingPresent = true := by
          simpa [hgp] using hg.symm.trans hg'
        have hpend := hs.pending hpp
        exact ⟨_, List.mem_append_left _ hpend.recorded, (shape_congr hr).trans hpend.shape,
          by simp [hn, hgp, hpp], hpend.generation ▸ hbound⟩

/-! Evidence. -/

theorem observes_deferred (h : (observes s e).1 = true) : Awaits s.state ∧
    s.pendingSurfaceAvailable = true ∧ e.surfaceGeneration = s.pendingSurface.generation := by
  unfold observes at h
  dsimp only at h
  split at h
  all_goals simp_all [Awaits]

theorem observes_immediate (h : (observes s e).2 = true) : s.activeSurface.generation ≠ 0 ∧
    e.surfaceGeneration = s.activeSurface.generation := by
  unfold observes at h
  dsimp only at h
  split at h
  all_goals simp_all

theorem present_presents (h : Observed sys.coordinator evidence t) (hs : Presents sys) :
    Presents { sys with coordinator := t, history := sys.history ++ [.present evidence] } := by
  have hold : ∀ e, Witnessed sys.coordinator sys.history e →
      Witnessed sys.coordinator (sys.history ++ [.present evidence]) e :=
    fun e he => he.mono _ rfl rfl
  cases h with
  | unchanged =>
    refine ⟨fun hp => ?_, hs.iff, fun hg => (hs.active hg).mono _, fun hg => ?_⟩
    · have hpend := hs.pending hp
      exact { hpend with recorded := List.mem_append_left _ hpend.recorded }
    · obtain ⟨e, he⟩ := hs.witnessed hg
      exact ⟨e, hold e he⟩
  | deferred hv hd hg =>
    obtain ⟨ha, hn, hgen⟩ := observes_deferred hd
    refine ⟨fun _ => ⟨ha, hn, hgen, hv, by simp⟩, hs.iff, fun hg => (hs.active hg).mono _, ?_⟩
    intro hg'
    exact absurd (hg.symm.trans hg') (by decide)
  | presented hv hi hg =>
    obtain ⟨hne, hgen⟩ := observes_immediate hi
    refine ⟨fun hp => ?_, ?_, fun hg => (hs.active hg).mono _, fun _ => ?_⟩
    · have hpend := hs.pending hp
      exact ⟨hpend.awaits, hpend.available, hpend.generation, hpend.shape,
        List.mem_append_left _ hpend.recorded⟩
    · simpa using frameSerial_ne_zero hv
    · exact ⟨evidence, by simp, hv, rfl, hgen ▸ (hs.active hne).mono _⟩

theorem presents_step (h : step sys act = some sys') (ht : Tracks sys) (hs : Presents sys) :
    Presents sys' := by
  rcases step_cases h with
      ⟨o, hf, he, rfl⟩ | ⟨callback, c, status, hf, rfl⟩ | ⟨evidence, t, ho, rfl⟩
  · exact settle_presents he hf ht hs
  · exact finish_presents hf ht hs
  · exact present_presents ho hs

theorem presents_reachable (h : (sessionLTS capabilities requirements).Reachable sys) :
    Presents sys := by
  refine h.induction (motive := Presents) ?_ fun s a t hr ht hs =>
    presents_step ht (sound_reachable hr).tracks hs
  rintro s rfl
  exact ⟨nofun, by simp, by simp, nofun⟩

/-- A frame once presented is never replaced. -/
theorem presented_step (h : step sys act = some sys') (ht : Tracks sys) (hs : Presents sys)
    (hg : sys.coordinator.gamePresented = true) : sys'.coordinator.gamePresented = true ∧
      sys'.coordinator.firstPresentedFrame = sys.coordinator.firstPresentedFrame := by
  obtain ⟨ph, hst, _⟩ := ht
  rcases step_cases h with
      ⟨o, hf, he, rfl⟩ | ⟨callback, c, status, hf, rfl⟩ | ⟨evidence, t, ho, rfl⟩
  · rw [hf] at hst
    obtain ⟨hk, _⟩ := he.frames sys (hs.idle hst)
    exact ⟨hk.gamePresented.trans hg, hk.firstPresentedFrame⟩
  · rw [hf] at hst
    rcases finish_frames hst status with ⟨hk, _⟩ | ⟨_, _, _, _, _, hg', hn⟩
    · exact ⟨hk.gamePresented.trans hg, hk.firstPresentedFrame⟩
    · exact ⟨by simp [hg', hg], by simp [hn, hg]⟩
  · cases ho with
    | unchanged => exact ⟨hg, rfl⟩
    | deferred _ _ hg' => exact ⟨hg, rfl⟩
    | presented _ _ hg' => exact absurd (hg'.symm.trans hg) (by decide)

theorem presented_run (h : (sessionLTS capabilities requirements).Run sys acts sys')
    (hr : (sessionLTS capabilities requirements).Reachable sys)
    (hg : sys.coordinator.gamePresented = true) : sys'.coordinator.gamePresented = true ∧
      sys'.coordinator.firstPresentedFrame = sys.coordinator.firstPresentedFrame := by
  induction h with
  | refl => exact ⟨hg, rfl⟩
  | cons h _ ih =>
    obtain ⟨hg', hn⟩ := presented_step h (sound_reachable hr).tracks (presents_reachable hr) hg
    obtain ⟨hg'', hn'⟩ := ih (hr.run (.single h)) hg'
    exact ⟨hg'', hn'.trans hn⟩

/-- In every reachable state, whenever evidence arrives: it is pending only during the transition of
its own surface, the first frame is set once and for all, and it was recorded for a surface some
callback has really bound. -/
theorem present_evidence_genuine (h : (sessionLTS capabilities requirements).Reachable sys) :
    (sys.coordinator.pendingPresent = true →
      (sys.coordinator.state = .starting ∨ sys.coordinator.state = .resuming ∨
        sys.coordinator.state = .updatingSurface) ∧
      sys.coordinator.pendingSurfaceAvailable = true ∧
      sys.coordinator.pendingPresentEvidence.surfaceGeneration =
        sys.coordinator.pendingSurface.generation) ∧
    (sys.inFlight = none → sys.coordinator.pendingPresent = false) ∧
    (sys.coordinator.gamePresented = true ↔ sys.coordinator.firstPresentedFrame ≠ 0) ∧
    (∀ acts sys', (sessionLTS capabilities requirements).Run sys acts sys' →
      sys.coordinator.gamePresented = true → sys'.coordinator.gamePresented = true ∧
        sys'.coordinator.firstPresentedFrame = sys.coordinator.firstPresentedFrame) ∧
    (sys.coordinator.gamePresented = true →
      ∃ e callback status surface, .present e ∈ sys.history ∧
        sys.coordinator.isPresentShapeValid e = true ∧
        e.frameSerial = sys.coordinator.firstPresentedFrame ∧
        .returned callback status ∈ sys.history ∧ status.isOk = true ∧
        callback.surface? = some surface ∧ e.surfaceGeneration = surface.generation) := by
  have hs := presents_reachable h
  refine ⟨fun hp => ?_, fun hf => ?_, hs.iff, fun acts sys' hr hg => presented_run hr h hg,
    fun hg => ?_⟩
  · have hpend := hs.pending hp
    exact ⟨hpend.awaits, hpend.available, hpend.generation⟩
  · obtain ⟨ph, hst, _⟩ := (sound_reachable h).tracks
    rw [hf] at hst
    exact hs.idle hst
  · obtain ⟨e, he⟩ := hs.witnessed hg
    obtain ⟨callback, status, surface, hm, hok, hsf, hgen⟩ := he.bound
    exact ⟨e, callback, status, surface, he.recorded, he.shape, he.frame, hm, hok, hsf, hgen.symm⟩

theorem present_evidence_genuine_firstStart : ∃ sys : System,
    sys.coordinator.gamePresented = true ∧ sys.coordinator.firstPresentedFrame ≠ 0 := by
  obtain ⟨sys, hr, _, hg, _⟩ := firstStart_reachable
  exact ⟨sys, hg, (present_evidence_genuine hr).2.2.1.1 hg⟩

end Nightcap.Session
