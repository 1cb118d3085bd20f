import Nightcap.Session.Safety
import Nightcap.Window.GameSurfaceBridge

/-! The game session keeps up with the window: whatever is reported and whenever the game is joined,
no event is rejected. -/
namespace Nightcap.Window

open Transition Session WindowSurfaceLifecycle

/-- Equal up to the evidence of presents and the revision. -/
def Same (c c' : Coordinator) : Prop :=
  ∃ revision pendingPresent pendingPresentEvidence gamePresented firstPresentedFrame,
    c' = { c with revision, pendingPresent, pendingPresentEvidence, gamePresented,
                  firstPresentedFrame }

/-- What every state of a session with its principal and at most this join has. -/
structure Seated (request : JoinRequest) (c : Coordinator) : Prop where
  principal : c.principalReady = true
  joined : c.joinRequestQueued = true → c.request = request
  admitted : request.placeId ≠ 0 → c.principal.kind = .authenticated
  begun : c.initialStartCompleted = true → c.joinRequestQueued = true

/-- The session at rest, by what it has seen of the surface, before and after the game started. -/
inductive Shows (c : Coordinator) : View → Prop
  | waiting (last : UInt64) (ht : c.isForwardTerminal = false)
    (hi : c.initialStartCompleted = false)
      (hc : c.surfaceCreated = false) (hn : c.pendingSurfaceAvailable = false) :
      Shows c (.none last)
  | prepared (hg : c.preparedSurfaceGeneration ≠ 0) (ht : c.isForwardTerminal = false)
      (hi : c.initialStartCompleted = false) (hc : c.surfaceCreated = true)
      (hn : c.pendingSurfaceAvailable = false) : Shows c (.created c.preparedSurfaceGeneration)
  | offered {s : WindowSurfaceSnapshot} (hu : Usable s) (ht : c.isForwardTerminal = false)
      (hi : c.initialStartCompleted = false) (hc : c.surfaceCreated = true)
      (hp : c.preparedSurfaceGeneration = s.generation) (hj : c.joinRequestQueued = false)
      (hn : c.pendingSurfaceAvailable = true)
      (hs : sameSurface c.pendingSurface s.gameSurface = true) : Shows c (.shown s)
  | paused {last : UInt64} (hs : c.state = .paused) (hi : c.initialStartCompleted = true)
      (hc : c.surfaceCreated = false) (hl : c.lastDestroyedSurfaceGeneration = last)
      (ha : c.activeSurface.generation = last) : Shows c (.none last)
  | repaused (hg : c.preparedSurfaceGeneration ≠ 0) (hs : c.state = .paused)
      (hi : c.initialStartCompleted = true) (hc : c.surfaceCreated = true) :
      Shows c (.created c.preparedSurfaceGeneration)
  | running {s : WindowSurfaceSnapshot} (hu : Usable s) (hs : c.state = .running)
    (hi : c.initialStartCompleted = true)
      (hc : c.surfaceCreated = true) (hp : c.preparedSurfaceGeneration = s.generation)
      (ha : c.activeSurfaceAvailable = true)
      (hf : sameSurface c.activeSurface s.gameSurface = true) : Shows c (.shown s)

/-- What the events still to come start from, by how far the session has its first surface and what
it has seen. -/
inductive Due (initial : WindowSurfaceSnapshot) : Handover → View → View → Prop
  | waiting : Due initial .waiting (.none 0) (.shown initial)
  | read {s : WindowSurfaceSnapshot} (hg : s.generation = 1) (hu : Usable s) :
      Due initial (.read s) (.none 0) (.shown s)
  | created {s : WindowSurfaceSnapshot} (hu : Usable s) :
      Due initial (.created s) (.created s.generation) (.shown s)
  | done (v : View) : Due initial .done v v

structure Attended (request : JoinRequest) (initial : WindowSurfaceSnapshot) (h : Host) : Prop where
  seated : Seated request h.game
  shows : ∃ v w, Shows h.game v ∧ Due initial h.handover v w ∧
    Follows w (h.held.toList ++ h.lifecycle.events) h.lifecycle.current
  polled : h.held ≠ none → h.handover = .done
  accepted : h.rejected = []

/-- Everything was drained. -/
def Host.Drained (h : Host) : Prop :=
  h.handover = .done ∧ h.held = none ∧ h.lifecycle.events = []

/-- A joined game has started once there is a surface, and shows the current one; without one it is
paused. -/
structure Host.Current (h : Host) : Prop where
  started : h.game.joinRequestQueued = true → h.lifecycle.current.available = true →
    h.game.initialStartCompleted = true
  running : h.game.initialStartCompleted = true → h.lifecycle.current.available = true →
    h.game.state = .running ∧ h.game.activeSurfaceAvailable = true ∧
      sameSurface h.game.activeSurface h.lifecycle.current.gameSurface = true
  paused : h.game.initialStartCompleted = true → h.lifecycle.current.available = false →
    h.game.state = .paused

variable {c c' : Coordinator} {initial : WindowSurfaceSnapshot} {request : JoinRequest} {v : View}
  {s s' : WindowSurfaceSnapshot}
  {e : WindowSurfaceEvent} {es : List WindowSurfaceEvent} {operation : Session.Operation}
  {callback : Callback} {k : Continuation} {result : UpdateResult} {g last : UInt64}
  {presents : List PresentEvidence} {evidence : PresentEvidence} {h h' : Host}

theorem Same.refl (c : Coordinator) : Same c c := ⟨_, _, _, _, _, rfl⟩

theorem Same.trans {d : Coordinator} (h : Same c c') (h' : Same c' d) : Same c d := by
  obtain ⟨_, _, _, _, _, rfl⟩ := h
  obtain ⟨_, _, _, _, _, rfl⟩ := h'
  exact ⟨_, _, _, _, _, rfl⟩

theorem recordGamePresent_same (c : Coordinator) (evidence : PresentEvidence) :
    Same c (recordGamePresent c evidence).1 := by
  have ho := recordGamePresent_observed c evidence
  generalize (recordGamePresent c evidence).1 = d at ho
  cases ho with
  | unchanged => exact .refl _
  | deferred => exact ⟨_, _, _, _, _, rfl⟩
  | presented => exact ⟨_, _, _, _, _, rfl⟩

theorem presents_same (c : Coordinator) (presents : List PresentEvidence) :
    Same c (presents.foldl (fun c evidence => (recordGamePresent c evidence).1) c) := by
  induction presents generalizing c with
  | nil => exact .refl c
  | cons evidence presents ih => exact (recordGamePresent_same c evidence).trans (ih _)

theorem Same.seated (h : Same c c') (hs : Seated request c) : Seated request c' := by
  obtain ⟨_, _, _, _, _, rfl⟩ := h
  exact ⟨hs.principal, hs.joined, hs.admitted, hs.begun⟩

theorem Same.shows (h : Same c c') (hs : Shows c v) : Shows c' v := by
  obtain ⟨_, _, _, _, _, rfl⟩ := h
  cases hs with
  | waiting last ht hi hc hn => exact .waiting last ht hi hc hn
  | prepared hg ht hi hc hn => exact .prepared hg ht hi hc hn
  | offered hu ht hi hc hp hj hn hs => exact .offered hu ht hi hc hp hj hn hs
  | paused hs hi hc hl ha => exact .paused hs hi hc hl ha
  | repaused hg hs hi hc => exact .repaused hg hs hi hc
  | running hu hs hi hc hp ha hf => exact .running hu hs hi hc hp ha hf

theorem perform_returned (h : begin c operation = .returned c' result)
    (presents : List PresentEvidence) : perform c operation presents = (c', result) := by
  simp only [perform, h]

theorem perform_calls (h : begin c operation = .calls c' callback k)
    (presents : List PresentEvidence) :
    ∃ t, Same c' t ∧ perform c operation presents = finish t k {} :=
  ⟨_, presents_same c' presents, by simp only [perform, h]⟩

theorem compare_self {a f : Float.Model.UnpackedFloat} (h : a.compare f = some .lt) :
    f.compare f = some .eq := by
  cases f with
  | notANumber => cases a <;> simp [Float.Model.UnpackedFloat.compare] at h
  | infinity sign => cases sign <;> rfl
  | zero sign => rfl
  | finite sign => cases sign <;> simp [Float.Model.UnpackedFloat.compare]

/-- A scale above zero is a number, and equal to itself. -/
theorem dpiScale_self {x : Float32} (hx : x > 0.0) : (x == x) = true := by
  have hl : Float32.lt 0.0 x = true := hx
  have hm : Float32.toModel 0.0 < x.toModel := by simpa [Float32.lt] using hl
  have hb : ((Float32.toModel 0.0).unpack.compare x.toModel.unpack == some .lt) = true := hm
  have he : (x.toModel.unpack.compare x.toModel.unpack == some .eq) = true :=
    beq_iff_eq.2 (compare_self (beq_iff_eq.1 hb))
  exact he

theorem sameSurface_self (h : Usable s) : sameSurface s.gameSurface s.gameSurface = true := by
  have hv := h.valid
  simp only [WindowSurfaceSnapshot.valid, validAvailableSurface, Bool.and_eq_true,
    decide_eq_true_eq] at hv
  simp [sameSurface, WindowSurfaceSnapshot.gameSurface, dpiScale_self hv.2]

theorem Usable.validSurface (h : Usable s) : validSurface s.gameSurface = true := by
  obtain ⟨hn, hw, hh⟩ := h.extent
  have hw : s.width ≠ 0 := by
    rintro hc
    rw [hc] at hw
    exact absurd hw (by decide)
  have hh : s.height ≠ 0 := by
    rintro hc
    rw [hc] at hh
    exact absurd hh (by decide)
  simp [Session.validSurface, WindowSurfaceSnapshot.gameSurface, h.generation, hn, hw, hh]

/-- What an operation of the session leaves behind when it does not reject. -/
def Accepted (request : JoinRequest) (v : View) (r : Coordinator × UpdateResult) : Prop :=
  Seated request r.1 ∧ Shows r.1 v ∧ r.2.status ≠ .rejected

theorem Shows.not_terminal (h : Shows c v) : c.isForwardTerminal = false := by
  cases h <;> simp_all [Coordinator.isForwardTerminal]

theorem surfaceCreated_begins (hs : Seated request c) (h : Shows c (.none last))
    (hg : g.toNat = last.toNat + 1) :
    begin c (.surfaceCreated g) =
      .calls (c.enter .preparingSurface) .setGameForeground (.foregrounded g) := by
  have h0 : g ≠ 0 := generation_ne_zero hg
  have hne : g ≠ last := by
    rintro rfl
    omega
  have ht := h.not_terminal
  cases h with
  | waiting last _ hi hc hn =>
    simp [begin, surfaceCreated, prepareSurface, ht, hs.principal, hi, hc, h0]
  | paused hp hi hc hl ha =>
    simp [begin, surfaceCreated, prepareSurface, ht, hs.principal, hi, hc, h0, hp, hl, ha, hne]

theorem preStartState_not_terminal (c : Coordinator) :
    c.preStartState ≠ .failure ∧ c.preStartState ≠ .returnedToLuaApp ∧
      c.preStartState ≠ .stopping ∧ c.preStartState ≠ .stopped := by
  unfold Coordinator.preStartState
  split_ifs <;> decide

theorem applied_not_terminal {d : Coordinator} {message : String} :
    (c.applyLocked d.preStartState message).1.isForwardTerminal = false := by
  obtain ⟨h1, h2, h3, h4⟩ := preStartState_not_terminal d
  simp [Coordinator.isForwardTerminal, Coordinator.applyLocked, Coordinator.enter, h1, h2, h3, h4]

theorem surfaceCreated_shows (hs : Seated request c) (h : Shows c (.none last))
    (hg : g.toNat = last.toNat + 1) (presents : List PresentEvidence) :
    Accepted request (.created g) (perform c (.surfaceCreated g) presents) := by
  have h0 : g ≠ 0 := generation_ne_zero hg
  obtain ⟨t, ht, hp⟩ := perform_calls (surfaceCreated_begins hs h hg) presents
  obtain ⟨r, pp, pe, gp, ff, rfl⟩ := ht
  rw [hp]
  refine ⟨⟨hs.principal, hs.joined, hs.admitted, hs.begun⟩, ?_, nofun⟩
  cases h with
  | waiting last ht hi hc hn =>
    refine .prepared h0 ?_ hi rfl hn
    simp only [finish, Coordinator.enter, hi]
    exact applied_not_terminal
  | paused hp hi hc hl ha =>
    refine .repaused h0 ?_ hi rfl
    simp [finish, Coordinator.applyLocked, Coordinator.enter, hi, Status.isOk]

/-- A callback that starts, updates or resumes the game makes the pending surface the active one. -/
theorem promoted_shows (hs : Seated request c) (hu : Usable s) (hc : c.surfaceCreated = true)
    (hp : c.preparedSurfaceGeneration = s.generation)
    (hf : sameSurface c.pendingSurface s.gameSurface = true) (hj : c.joinRequestQueued = true)
    (hk : (∃ message, k = .started message) ∨
      c.initialStartCompleted = true ∧ (k = .updated ∨ k = .resumed)) :
    Accepted request (.shown s) (finish c k {}) := by
  rcases hk with ⟨message, rfl⟩ | ⟨hi, rfl | rfl⟩ <;>
    simp only [finish, commitPendingPresent_eq]
  · exact ⟨⟨hs.principal, hs.joined, hs.admitted, fun _ => hj⟩,
      .running hu rfl rfl hc hp rfl hf, fun h => by cases h⟩
  · exact ⟨⟨hs.principal, hs.joined, hs.admitted, fun _ => hj⟩,
      .running hu rfl hi hc hp rfl hf, fun h => by cases h⟩
  · exact ⟨⟨hs.principal, hs.joined, hs.admitted, fun _ => hj⟩,
      .running hu rfl hi hc hp rfl hf, fun h => by cases h⟩

theorem startIfReady_begins (hp : c.principalReady = true) (hj : c.joinRequestQueued = true)
    (hc : c.surfaceCreated = true) (hn : c.pendingSurfaceAvailable = true)
    (hi : c.initialStartCompleted = false) (message : String) :
    startIfReady c message = .calls (c.enter .starting).discardPendingPresent
      (.startGame c.principal c.request c.pendingSurface) (.started message) := by
  simp [startIfReady, hp, hj, hc, hn, hi]

/-- A surface offered before the game started waits for the join, or starts the game at once. -/
theorem offered_shows {rebind : Bool} (hs : Seated request c) (hu : Usable s)
    (hb : begin c operation = updateSurface c s.gameSurface rebind)
    (ht : c.isForwardTerminal = false) (hi : c.initialStartCompleted = false)
    (hc : c.surfaceCreated = true) (hp : c.preparedSurfaceGeneration = s.generation)
    (hd : (c.pendingSurfaceAvailable && sameSurface c.pendingSurface s.gameSurface) = false)
    (presents : List PresentEvidence) :
    Accepted request (.shown s) (perform c operation presents) := by
  have hg : s.gameSurface.generation = s.generation := rfl
  cases hj : c.joinRequestQueued with
  | false =>
    have hr : begin c operation = done ((c.offerSurface s.gameSurface).applyLocked
        .surfaceAvailable "changed surface accepted; waiting for join request") := by
      rw [hb]
      simp [updateSurface, ht, hs.principal, hu.validSurface, hc, hp, hg, hi, hd, hj,
        Coordinator.offerSurface]
    rw [perform_returned hr]
    refine ⟨⟨hs.principal, hs.joined, hs.admitted, hs.begun⟩, ?_, fun h => by cases h⟩
    exact .offered hu rfl hi hc hp hj rfl (sameSurface_self hu)
  | true =>
    have hr : begin c operation =
        startIfReady (c.offerSurface s.gameSurface) "changed surface completed start prerequisites"
        := by
      rw [hb]
      simp [updateSurface, ht, hs.principal, hu.validSurface, hc, hp, hg, hi, hd, hj,
        Coordinator.offerSurface]
    rw [startIfReady_begins (c := c.offerSurface s.gameSurface) hs.principal hj hc rfl hi] at hr
    obtain ⟨t, hsame, hperf⟩ := perform_calls hr presents
    obtain ⟨_, _, _, _, _, rfl⟩ := hsame
    rw [hperf]
    exact promoted_shows ⟨hs.principal, hs.joined, hs.admitted,
      hs.begun⟩ hu hc hp (sameSurface_self hu)
      hj (.inl ⟨_, rfl⟩)

/-- A surface given to a started game is bound to it. -/
theorem bound_shows {d : Coordinator} (hs : Seated request c) (hu : Usable s)
    (hi : c.initialStartCompleted = true) (hc : c.surfaceCreated = true)
    (hp : c.preparedSurfaceGeneration = s.generation) {state : State}
    (hd : d = ((c.offerSurface s.gameSurface).discardPendingPresent.enter state))
    (hb : begin c operation = .calls d callback k) (hk : k = .updated ∨ k = .resumed)
    (presents : List PresentEvidence) :
    Accepted request (.shown s) (perform c operation presents) := by
  obtain ⟨t, hsame, hperf⟩ := perform_calls hb presents
  subst hd
  obtain ⟨_, _, _, _, _, rfl⟩ := hsame
  rw [hperf]
  exact promoted_shows ⟨hs.principal, hs.joined, hs.admitted,
    hs.begun⟩ hu hc hp (sameSurface_self hu)
    (hs.begun hi) (.inr ⟨hi, hk⟩)

theorem updateSurface_shows {rebind : Bool} (hs : Seated request c) (h : Shows c v)
    (hn : Next v ⟨.changed, s⟩)
    (hb : begin c operation = updateSurface c s.gameSurface rebind)
    (presents : List PresentEvidence) :
    Accepted request (.shown s) (perform c operation presents) := by
  have hg : s.gameSurface.generation = s.generation := rfl
  have ht := h.not_terminal
  have hu : Usable s := by cases hn <;> assumption
  have hv := hu.validSurface
  cases h with
  | waiting => cases hn
  | paused => cases hn
  | prepared _ _ hi hc hnp =>
    obtain hp : s.generation = c.preparedSurfaceGeneration := by cases hn; assumption
    exact offered_shows hs hu hb ht hi hc hp.symm (by simp [hnp]) presents
  | offered _ _ hi hc hp hj hnp hsame =>
    rename_i s₀
    obtain hp : c.preparedSurfaceGeneration = s.generation := by
      cases hn with
      | changed hgen => exact hp.trans hgen.symm
    cases hd : sameSurface c.pendingSurface s.gameSurface with
    | false => exact offered_shows hs hu hb ht hi hc hp (by simp [hd]) presents
    | true =>
      have hr : begin c operation =
          done (c.duplicateLocked "initial candidate surface already current") := by
        rw [hb]
        simp [updateSurface, ht, hs.principal, hv, hc, hp, hg, hi, hnp, hd]
      rw [perform_returned hr]
      exact ⟨hs, .offered hu ht hi hc hp hj hnp hd, nofun⟩
  | repaused _ hst hi hc =>
    obtain hp : s.generation = c.preparedSurfaceGeneration := by cases hn; assumption
    have hr : begin c operation =
        .calls ((c.offerSurface s.gameSurface).discardPendingPresent.enter .resuming)
          (.resumeGame s.gameSurface) .resumed := by
      rw [hb]
      simp [updateSurface, ht, hs.principal, hv, hc, hp, hg, hi, hst]
    exact bound_shows hs hu hi hc hp.symm rfl hr (.inr rfl) presents
  | running _ hst hi hc hp ha hf =>
    obtain hp : c.preparedSurfaceGeneration = s.generation := by
      cases hn with
      | changed hgen => exact hp.trans hgen.symm
    cases hd : !rebind && c.activeSurfaceAvailable && sameSurface c.activeSurface s.gameSurface with
    | false =>
      have hr : begin c operation =
          .calls ((c.offerSurface s.gameSurface).discardPendingPresent.enter .updatingSurface)
            (.updateSurface s.gameSurface) .updated := by
        rw [hb]
        simp [updateSurface, ht, hs.principal, hv, hc, hp, hg, hi, hst, hd]
      exact bound_shows hs hu hi hc hp rfl hr (.inl rfl) presents
    | true =>
      have hr : begin c operation =
          done (c.duplicateLocked "running game surface already current") := by
        rw [hb]
        simp [updateSurface, ht, hs.principal, hv, hc, hp, hg, hi, hst, hd]
      rw [perform_returned hr]
      simp only [Bool.and_eq_true] at hd
      exact ⟨hs, .running hu hst hi hc hp ha hd.2, nofun⟩

theorem surfaceDestroyed_shows (hs : Seated request c) (h : Shows c (.shown s))
    (presents : List PresentEvidence) :
    Accepted request (.none s.generation)
      (perform c (.surfaceDestroyed s.generation) presents) := by
  have ht := h.not_terminal
  cases h with
  | offered hu _ hi hc hp hj hn hsame =>
    have hr : begin c (.surfaceDestroyed s.generation) = done
        ({ c.dropPreparedSurface with
            lastDestroyedSurfaceGeneration := s.generation
            }.discardPendingSurface.discardPendingPresent.applyLocked
          ({ c.dropPreparedSurface with
            lastDestroyedSurfaceGeneration := s.generation
            }.discardPendingSurface.discardPendingPresent).preStartState
          "unused pre-start surface destroyed") := by
      simp [begin, surfaceDestroyed, destroyCandidate, ht, hi, hc, hp, hu.generation]
    rw [perform_returned hr]
    refine ⟨⟨hs.principal, hs.joined, hs.admitted, hs.begun⟩, ?_, nofun⟩
    exact .waiting _ applied_not_terminal hi rfl rfl
  | running hu hst hi hc hp ha hf =>
    have hg : c.activeSurface.generation = s.generation := by
      simp only [sameSurface, Bool.and_eq_true, beq_iff_eq] at hf
      exact hf.1.1.1.1
    have hr : begin c (.surfaceDestroyed s.generation) = .calls
        ({ c.dropPreparedSurface with
            activeSurfaceAvailable := false
            lastDestroyedSurfaceGeneration := s.generation
            }.discardPendingSurface.discardPendingPresent.enter .pausing) .pauseGame .paused := by
      simp [begin, surfaceDestroyed, ht, hi, hc, hst, ha, hg, hu.generation]
    obtain ⟨t, hsame, hperf⟩ := perform_calls hr presents
    obtain ⟨_, _, _, _, _, rfl⟩ := hsame
    rw [hperf]
    refine ⟨⟨hs.principal, hs.joined, hs.admitted, hs.begun⟩, ?_, nofun⟩
    exact .paused rfl hi rfl rfl hg

/-- Joining a game changes nothing that the window sees, except that it may start the game. -/
theorem queueJoinRequest_shows (hs : Seated request c) (h : Shows c v)
    (hv : validRequest request = true) (presents : List PresentEvidence) :
    Accepted request v (perform c (.queueJoinRequest request) presents) := by
  have ht := h.not_terminal
  cases hj : c.joinRequestQueued with
  | true =>
    have hr : begin c (.queueJoinRequest request) =
        done (c.duplicateLocked "game join request already queued") := by
      simp [begin, queueJoinRequest, hj, hs.joined hj, sameRequest]
    rw [perform_returned hr]
    exact ⟨hs, h, nofun⟩
  | false =>
    have had : (request.placeId != 0 && c.principal.kind != .authenticated) = false := by
      cases hp : request.placeId != 0 with
      | false => rfl
      | true =>
        rw [bne_iff_ne] at hp
        simp [hs.admitted hp]
    cases hn : c.pendingSurfaceAvailable with
    | false =>
      have hr : begin c (.queueJoinRequest request) =
          done ({ c with request, joinRequestQueued := true }.applyLocked .joinRequestQueued
            "game join request queued; waiting for changed surface") := by
        simp [begin, queueJoinRequest, hj, ht, hs.principal, hv, had, hn]
      rw [perform_returned hr]
      refine ⟨⟨hs.principal, fun _ => rfl, hs.admitted, fun _ => rfl⟩, ?_, nofun⟩
      cases h with
      | waiting last _ hi hc _ => exact .waiting last rfl hi hc hn
      | prepared hg _ hi hc _ => exact .prepared hg rfl hi hc hn
      | offered _ _ _ _ _ _ hnp => rw [hn] at hnp; cases hnp
      | paused _ hi => rw [hs.begun hi] at hj; cases hj
      | repaused _ _ hi => rw [hs.begun hi] at hj; cases hj
      | running _ _ hi => rw [hs.begun hi] at hj; cases hj
    | true =>
      have hr : begin c (.queueJoinRequest request) =
          startIfReady { c with request, joinRequestQueued := true }
            "game join request completed start prerequisites" := by
        simp [begin, queueJoinRequest, hj, ht, hs.principal, hv, had, hn]
      cases h with
      | waiting _ _ _ _ hnp => rw [hn] at hnp; cases hnp
      | prepared _ _ _ _ hnp => rw [hn] at hnp; cases hnp
      | offered hu _ hi hc hp _ _ hsame =>
        rw [startIfReady_begins (c := { c with request, joinRequestQueued := true }) hs.principal
          rfl hc hn hi] at hr
        obtain ⟨t, hst, hperf⟩ := perform_calls hr presents
        obtain ⟨_, _, _, _, _, rfl⟩ := hst
        rw [hperf]
        exact promoted_shows ⟨hs.principal, fun _ => rfl, hs.admitted, fun _ => rfl⟩ hu hc hp hsame
          rfl (.inl ⟨_, rfl⟩)
      | paused _ hi => rw [hs.begun hi] at hj; cases hj
      | repaused _ _ hi => rw [hs.begun hi] at hj; cases hj
      | running _ _ hi => rw [hs.begun hi] at hj; cases hj

/-- No event that may come next is rejected. -/
theorem dispatch_shows (hs : Seated request c) (h : Shows c v) (hn : Next v e)
    (presents : List PresentEvidence) :
    Accepted request (.after e) (perform c (dispatch e) presents) := by
  cases hn with
  | created hg => exact surfaceCreated_shows hs h hg presents
  | first hg hu => exact updateSurface_shows hs h (.first hg hu) rfl presents
  | changed hg hu => exact updateSurface_shows hs h (.changed hg hu) rfl presents
  | destroyed hg =>
    simp only [dispatch, View.after, hg]
    exact surfaceDestroyed_shows hs h presents

theorem validateEvent_next (h : Shows c v) (hn : Next v e) : validateEvent e = {} := by
  have h0 : e.surface.generation ≠ 0 := by
    cases hn with
    | created hg => exact generation_ne_zero hg
    | first _ hu => exact hu.generation
    | changed _ hu => exact hu.generation
    | destroyed hg =>
      change _ = _ at hg
      rw [hg]
      cases h with
      | offered hu => exact hu.generation
      | running hu => exact hu.generation
  have hu : e.type = .changed → Usable e.surface := by
    intro ht
    cases hn with
    | created => cases ht
    | first _ hu => exact hu
    | changed _ hu => exact hu
    | destroyed => cases ht
  cases ht : e.type with
  | created => simp [validateEvent, h0, ht]
  | destroyed => simp [validateEvent, h0, ht]
  | changed =>
    have hv := (hu ht).validSurface
    simp only [Session.validSurface, WindowSurfaceSnapshot.gameSurface, Bool.and_eq_true,
      bne_iff_ne] at hv
    simp [validateEvent, h0, ht, (hu ht).available, hv]

/-- The events may as well start from the current surface, if it is still the same one. -/
theorem Follows.restart {s₀ : WindowSurfaceSnapshot} (h : Follows (.shown s₀) es s)
    (ha : s.available = true) (hg : s.generation = s₀.generation) : Follows (.shown s) es s := by
  refine ⟨?_, ?_, h.usable⟩
  · cases es with
    | nil => trivial
    | cons e es =>
      obtain ⟨hn, hl⟩ := h.legal
      refine ⟨?_, hl⟩
      cases hn with
      | changed hg' hu => exact .changed (hg'.trans hg.symm) hu
      | destroyed hg' => exact .destroyed (hg'.trans hg.symm)
  · cases es with
    | nil => exact (view_of_available ha).symm
    | cons e es => exact h.final

theorem handOver_attended (hw : Attended request initial h) (hi : initial.generation = 1)
    (hs : h.handOver presents = some h') : Attended request initial h' := by
  obtain ⟨hseat, ⟨v, w, hsh, hd, hf⟩, hp, hr⟩ := hw
  unfold Host.handOver at hs
  cases hh : h.handover with
  | waiting =>
    rw [hh] at hs hd hp
    cases hd
    simp only [Option.ite_none_right_eq_some, Option.some.injEq] at hs
    obtain ⟨⟨ha, hg⟩, rfl⟩ := hs
    have hf' := hf.restart ha (hg.trans hi.symm)
    exact ⟨hseat, ⟨_, _, hsh, .read hg (hf.usable ha), hf'⟩, fun hne => (nomatch hp hne), hr⟩
  | read s =>
    rw [hh] at hs hd hp
    cases hd with
    | read hg hu =>
      simp only [Option.some.injEq] at hs
      subst hs
      have hgen : s.generation.toNat = (0 : UInt64).toNat + 1 := by
        rw [hg]
        rfl
      obtain ⟨hseat, hsh, -⟩ := surfaceCreated_shows hseat hsh hgen presents
      exact ⟨hseat, ⟨_, _, hsh, .created hu, hf⟩, fun hne => (nomatch hp hne), hr⟩
  | created s =>
    rw [hh] at hs hd
    cases hd with
    | created hu =>
      simp only [Option.some.injEq] at hs
      subst hs
      have hb : begin h.game (.surfaceChanged s.gameSurface) =
          updateSurface h.game s.gameSurface false := rfl
      obtain ⟨hseat, hsh, -⟩ := updateSurface_shows hseat hsh (.first rfl hu) hb presents
      exact ⟨hseat, ⟨_, _, hsh, .done _, hf⟩, fun _ => rfl, hr⟩
  | done =>
    rw [hh] at hs
    cases hs

theorem poll_attended (hw : Attended request initial h) (hs : h.poll = some h') :
    Attended request initial h' := by
  obtain ⟨hseat, ⟨v, w, hsh, hd, hf⟩, -, hr⟩ := hw
  unfold Host.poll at hs
  split at hs
  · rename_i hh hheld
    split at hs
    · obtain ⟨hc, he⟩ := poll_spec h.lifecycle
      simp only [Option.some.injEq] at hs
      subst hs
      rw [hheld, he, ← hc] at hf
      exact ⟨hseat, ⟨v, w, hsh, hd, hf⟩, fun _ => hh, hr⟩
    · cases hs
  · cases hs

theorem drain_attended {observed : Status} (hw : Attended request initial h)
    (hs : h.drain presents observed = some h') : Attended request initial h' := by
  obtain ⟨hseat, ⟨v, w, hsh, hd, hf⟩, hp, hr⟩ := hw
  unfold Host.drain at hs
  cases hheld : h.held with
  | none =>
    rw [hheld] at hs
    cases hs
  | some e =>
    have hh : h.handover = .done := hp (by simp [hheld])
    rw [hh] at hd
    cases hd
    rw [hheld] at hs hf
    obtain ⟨⟨hn, hl⟩, hfin, hu⟩ := hf
    obtain ⟨hseat, hsh', hacc⟩ := dispatch_shows hseat hsh hn presents
    simp only [validateEvent_next hsh hn, Status.isOk, if_neg hacc] at hs
    have hs : { h with
        bridge := h.bridge.drained e (perform h.game (dispatch e) presents).2 observed
        held := none
        game := (perform h.game (dispatch e) presents).1 } = h' := by simpa using hs
    subst hs
    refine ⟨hseat, ⟨_, _, hsh', ?_, hl, hfin, hu⟩, fun hne => absurd rfl hne, hr⟩
    rw [hh]
    exact .done _

theorem attended_step {a : HostAction} (hw : Attended request initial h)
    (hi : initial.generation = 1) (hv : validRequest request = true)
    (hs : h.step request a = some h') : Attended request initial h' := by
  cases a with
  | report r =>
    obtain ⟨hseat, ⟨v, w, hsh, hd, hf⟩, hp, hr⟩ := hw
    simp only [Host.step, Option.some.injEq] at hs
    subst hs
    exact ⟨hseat, ⟨v, w, hsh, hd, hf.report r⟩, hp, hr⟩
  | handOver presents => exact handOver_attended hw hi hs
  | join presents =>
    obtain ⟨hseat, ⟨v, w, hsh, hd, hf⟩, hp, hr⟩ := hw
    simp only [Host.step, Option.some.injEq] at hs
    subst hs
    obtain ⟨hseat, hsh, -⟩ := queueJoinRequest_shows hseat hsh hv presents
    exact ⟨hseat, ⟨v, w, hsh, hd, hf⟩, hp, hr⟩
  | present evidence =>
    obtain ⟨hseat, ⟨v, w, hsh, hd, hf⟩, hp, hr⟩ := hw
    simp only [Host.step, Option.some.injEq] at hs
    subst hs
    have hsame := recordGamePresent_same h.game evidence
    exact ⟨hsame.seated hseat, ⟨v, w, hsame.shows hsh, hd, hf⟩, hp, hr⟩
  | poll => exact poll_attended hw hs
  | drain presents observed => exact drain_attended hw hs

theorem attended_reachable {l : WindowSurfaceLifecycle} {game : Coordinator}
    (hu : Usable l.current) (he : l.events = []) (hg : l.current.generation = 1)
    (hseat : Seated request game) (hsh : Shows game (.none 0)) (hv : validRequest request = true)
    (h : (hostLTS request l game).Reachable h') : Attended request l.current h' := by
  refine h.invariant ?_ (fun s a t hs hw => attended_step hw hg hv hs)
  rintro h rfl
  refine ⟨hseat, ⟨_, _, hsh, .waiting, ?_⟩, fun hne => absurd rfl hne, rfl⟩
  exact .init hu he

/-- What the session shows once everything was drained. -/
theorem Attended.current (hw : Attended request initial h) (hd : h.Drained) : h.Current := by
  obtain ⟨hh, hheld, he⟩ := hd
  obtain ⟨hseat, ⟨v, w, hsh, hdue, hf⟩, -, -⟩ := hw
  rw [hh] at hdue
  cases hdue
  rw [hheld, he] at hf
  have hview : v = h.lifecycle.current.view := hf.final
  cases ha : h.lifecycle.current.available with
  | true =>
    rw [view_of_available ha] at hview
    refine ⟨fun hj _ => ?_, fun hi _ => ?_, fun _ hc => (nomatch hc.symm.trans ha)⟩
    · cases hsh with
      | offered _ _ _ _ _ hn => rw [hj] at hn; cases hn
      | running _ _ hi => exact hi
      | _ => cases hview
    · cases hsh with
      | offered _ _ hn => rw [hi] at hn; cases hn
      | running _ hst _ _ _ hact hsame =>
        cases hview
        exact ⟨hst, hact, hsame⟩
      | _ => cases hview
  | false =>
    rw [view_of_unavailable ha] at hview
    refine ⟨fun _ hc => (nomatch hc.symm.trans ha), fun _ hc => (nomatch hc.symm.trans ha),
      fun hi _ => ?_⟩
    cases hsh with
    | waiting _ _ hn => rw [hi] at hn; cases hn
    | paused hst => exact hst
    | _ => cases hview

theorem setPrincipal_seated {capabilities : Capabilities} {requirements : Requirements}
    {principal : Principal} {game : Coordinator}
    (hp : perform { capabilities, requirements } (.setPrincipal principal) [] = (game, result))
    (hr : result.status = .applied)
    (hk : request.placeId ≠ 0 → principal.kind = .authenticated) :
    Seated request game ∧ Shows game (.none 0) := by
  have ht : ({ capabilities, requirements } : Coordinator).isForwardTerminal = false := rfl
  have hs : (({ capabilities, requirements } : Coordinator).state != .created) = false := rfl
  simp only [perform, begin, setPrincipal, ht, hs, Bool.false_eq_true, if_false] at hp
  cases hc : capabilities.complete with
  | false =>
    simp only [hc, Bool.not_false, if_true, done, Coordinator.failLocked, Prod.mk.injEq] at hp
    rw [← hp.2] at hr
    cases hr
  | true =>
    cases hv : validPrincipal principal with
    | false =>
      simp only [hc, hv, Bool.not_false, Bool.not_true, Bool.false_eq_true, if_true, if_false, done,
        Coordinator.failLocked, Prod.mk.injEq] at hp
      rw [← hp.2] at hr
      cases hr
    | true =>
      simp only [hc, hv, Bool.not_true, Bool.false_eq_true, if_false, done,
        Coordinator.applyLocked, Prod.mk.injEq] at hp
      obtain ⟨rfl, -⟩ := hp
      exact ⟨⟨rfl, (fun h => by cases h), hk, (fun h => by cases h)⟩, .waiting 0 rfl rfl rfl rfl⟩

/-- For every order of reports, polls and a join, the events are one surface lifetime after another,
the session accepts each of them, and a drained game shows the current surface or is paused. -/
theorem surface_events_accepted {l₀ l : WindowSurfaceLifecycle} {nativeWindow : UInt64}
    {width height : UInt32} {dpiScale : Float32} {capabilities : Capabilities}
    {requirements : Requirements} {principal : Principal} {game : Coordinator}
    (ha : l₀.activate nativeWindow width height dpiScale = (l, {}))
    (hp : perform { capabilities, requirements } (.setPrincipal principal) [] = (game, result))
    (hr : result.status = .applied) (hv : validRequest request = true)
    (hk : request.placeId ≠ 0 → principal.kind = .authenticated) :
    (∀ st, (surfaceLTS l).Reachable st →
      Lifetimes l.current st.events st.lifecycle.current) ∧
    (∀ h, (hostLTS request l game).Reachable h →
      h.rejected = [] ∧ (h.Drained → h.Current)) := by
  obtain ⟨hu, he, hg⟩ := activate_usable ha
  obtain ⟨hseat, hsh⟩ := setPrincipal_seated hp hr hk
  refine ⟨fun st hst => lifetimes_reachable hu he hst, fun h hh => ?_⟩
  have hw := attended_reachable hu he hg hseat hsh hv hh
  exact ⟨hw.accepted, hw.current⟩

theorem surface_events_accepted_local :
    (∀ st, (surfaceLTS (({} : WindowSurfaceLifecycle).activate 7 800 600 1.0).1).Reachable st →
      Lifetimes (({} : WindowSurfaceLifecycle).activate 7 800 600 1.0).1.current st.events
        st.lifecycle.current) ∧
    (∀ h, (hostLTS ⟨1, 0, "\x7b\x7d"⟩ (({} : WindowSurfaceLifecycle).activate 7 800 600 1.0).1
        (perform { capabilities := ⟨true, true, true, true, true, true, true⟩, requirements := {} }
          (.setPrincipal ⟨.localGuest, 1, "", "https://www.roblox.com/"⟩) []).1).Reachable h →
      h.rejected = [] ∧ (h.Drained → h.Current)) := by
  have ha : ({} : WindowSurfaceLifecycle).activate 7 800 600 1.0 =
      ((({} : WindowSurfaceLifecycle).activate 7 800 600 1.0).1, {}) := Prod.ext rfl (by decide)
  have hk : (⟨1, 0, "\x7b\x7d"⟩ : JoinRequest).placeId ≠ 0 →
      (⟨.localGuest, 1, "", "https://www.roblox.com/"⟩ : Principal).kind = .authenticated :=
    fun h => absurd rfl h
  have hp : perform
      { capabilities := ⟨true, true, true, true, true, true, true⟩, requirements := {} }
      (.setPrincipal ⟨.localGuest, 1, "", "https://www.roblox.com/"⟩) [] =
      ((perform { capabilities := ⟨true, true, true, true, true, true, true⟩, requirements := {} }
        (.setPrincipal ⟨.localGuest, 1, "", "https://www.roblox.com/"⟩) []).1,
        ⟨.applied, .principalReady, {}, "game-session principal accepted"⟩) := Prod.ext rfl rfl
  exact surface_events_accepted ha hp rfl (by decide) hk

end Nightcap.Window
