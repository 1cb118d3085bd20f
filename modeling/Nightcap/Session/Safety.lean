import Nightcap.Session.Lifecycle

/-! The invariant that ties the coordinator's fields to the callbacks invoked so far. -/
namespace Nightcap.Session

open Coordinator Transition

variable {s t : Coordinator} {ph ph' : Phase} {w : List Kind} {k : Kind} {o : Outcome}
  {fl : Option (Callback × Continuation)} {a b : Bool} {sys sys' : System} {act : Action}
  {acts : List Action} {evidence : PresentEvidence} {status : Status}
  {capabilities : Capabilities} {requirements : Requirements} {p : Principal} {r : JoinRequest}
  {f : Surface} {c : Continuation} {callback : Callback}

/-- Which fields go with which phase, at rest and with a callback in flight. -/
inductive Stage (s : Coordinator) : Option (Callback × Continuation) → Phase → Prop
  | fresh (hs : s.state = .created) (ha : s.shutdownAttempted = false)
      (hi : s.initialStartCompleted = false) (hc : s.surfaceCreated = false) :
      Stage s none .fresh
  | prestart {ph : Phase} (hs : s.state = .principalReady ∨ s.state = .joinRequestQueued ∨
        s.state = .surfaceCreated ∨ s.state = .surfaceAvailable)
      (ha : s.shutdownAttempted = false) (hi : s.initialStartCompleted = false)
      (hp : ph = .fresh ∨ ph = .foregrounded) (hc : s.surfaceCreated = true → ph = .foregrounded) :
      Stage s none ph
  | running (hs : s.state = .running) (ha : s.shutdownAttempted = false)
      (hi : s.initialStartCompleted = true) : Stage s none .running
  | paused {ph : Phase} (hs : s.state = .paused) (ha : s.shutdownAttempted = false)
      (hi : s.initialStartCompleted = true) (hp : ph = .paused ∨ ph = .repaused)
      (hc : s.surfaceCreated = true → ph = .repaused) : Stage s none ph
  | returned (hs : s.state = .returnedToLuaApp) (ha : s.shutdownAttempted = false) :
      Stage s none .left
  | failed {ph : Phase} (hs : s.state = .failure) : Stage s none ph
  | stopped {ph : Phase} (hs : s.state = .stopped) (ha : s.shutdownAttempted = true) :
      Stage s none ph
  | preparing {ph : Phase} {g : UInt64} (hs : s.state = .preparingSurface)
      (ha : s.shutdownAttempted = false)
      (hp : ph = if s.initialStartCompleted then .repaused else .foregrounded) :
      Stage s (some (.setGameForeground, .foregrounded g)) ph
  | starting {p : Principal} {r : JoinRequest} {message : String} (hs : s.state = .starting)
      (ha : s.shutdownAttempted = false) (hj : s.joinRequestQueued = true)
      (hn : s.pendingSurfaceAvailable = true) :
      Stage s (some (.startGame p r s.pendingSurface, .started message)) .running
  | updating (hs : s.state = .updatingSurface) (ha : s.shutdownAttempted = false)
      (hi : s.initialStartCompleted = true) (hn : s.pendingSurfaceAvailable = true) :
      Stage s (some (.updateSurface s.pendingSurface, .updated)) .running
  | pausing (hs : s.state = .pausing) (ha : s.shutdownAttempted = false)
      (hi : s.initialStartCompleted = true) (hc : s.surfaceCreated = false) :
      Stage s (some (.pauseGame, .paused)) .paused
  | resuming (hs : s.state = .resuming) (ha : s.shutdownAttempted = false)
      (hi : s.initialStartCompleted = true) (hn : s.pendingSurfaceAvailable = true) :
      Stage s (some (.resumeGame s.pendingSurface, .resumed)) .running
  | leaving (hs : s.state = .leaving) (ha : s.shutdownAttempted = false) :
      Stage s (some (.leaveGame, .left)) .left
  | stopping {ph : Phase} (hs : s.state = .stopping) (ha : s.shutdownAttempted = true) :
      Stage s (some (.shutdownRuntime, .stopped)) ph

/-- The word of a phase, closed by a shutdown once one was attempted. -/
inductive Written (ph : Phase) : Bool → List Kind → Prop
  | ongoing {w : List Kind} (h : Spells ph w) : Written ph false w
  | shut {w : List Kind} (h : Spells ph w) : Written ph true (w ++ [.shutdownRuntime])

def Tracks (sys : System) : Prop :=
  ∃ ph, Stage sys.coordinator sys.inFlight ph ∧
    Written ph sys.coordinator.shutdownAttempted sys.callbacks

theorem Stage.of_prestart (h : Stage s none ph) (ht : s.isForwardTerminal = false)
    (hi : s.initialStartCompleted = false) :
    (ph = .fresh ∨ ph = .foregrounded) ∧ (s.surfaceCreated = true → ph = .foregrounded) ∧
      s.shutdownAttempted = false := by
  cases h <;> simp_all [isForwardTerminal]

theorem Stage.of_running (h : Stage s none ph) (hs : s.state = .running) :
    ph = .running ∧ s.shutdownAttempted = false := by
  cases h <;> simp_all

theorem Stage.of_paused (h : Stage s none ph) (hs : s.state = .paused) :
    (ph = .paused ∨ ph = .repaused) ∧ (s.surfaceCreated = true → ph = .repaused) ∧
      s.shutdownAttempted = false := by
  cases h <;> simp_all

theorem Written.snoc (h : Written ph a w) (ha : a = false) (hn : ph.next k = some ph') :
    Written ph' a (w ++ [k]) := by
  subst ha
  cases h with
  | ongoing h => exact .ongoing (h.snoc hn)

theorem callbacks_settle_calls (sys : System) (callback : Callback) (c : Continuation) :
    (sys.settle (.calls s callback c)).callbacks = sys.callbacks ++ [callback.kind] := by
  simp [System.settle, System.callbacks, Event.kind?]

/-- An operation that returned at once leaves the phase as it was. -/
theorem Tracks.returned {result : UpdateResult} (hf : sys.inFlight = none)
    (hs : Stage s none ph) (ha : s.shutdownAttempted = sys.coordinator.shutdownAttempted)
    (hw : Written ph sys.coordinator.shutdownAttempted sys.callbacks) :
    Tracks (sys.settle (.returned s result)) := by
  refine ⟨ph, ?_, ?_⟩
  · simpa only [System.settle, hf] using hs
  · change Written ph s.shutdownAttempted sys.callbacks
    rwa [ha]

/-- An operation that invokes a callback takes one step through the phases. -/
theorem Tracks.called {callback : Callback} {c : Continuation}
    (hw : Written ph sys.coordinator.shutdownAttempted sys.callbacks)
    (h : sys.coordinator.shutdownAttempted = false) (ha : s.shutdownAttempted = false)
    (hn : ph.next callback.kind = some ph') (hs : Stage s (some (callback, c)) ph') :
    Tracks (sys.settle (.calls s callback c)) := by
  refine ⟨ph', hs, ?_⟩
  rw [callbacks_settle_calls]
  have hw' := hw.snoc h hn
  rw [h] at hw'
  simpa only [System.settle, ha] using hw'

theorem settle_tracks (h : Effect sys.coordinator o) (hf : sys.inFlight = none)
    (hr : Ready sys.coordinator) (hs : Tracks sys) : Tracks (sys.settle o) := by
  obtain ⟨ph, hs, hw⟩ := hs
  rw [hf] at hs
  cases h with
  | unchanged => exact .returned hf hs rfl hw
  | failed hk => exact .returned hf (.failed rfl) hk.shutdownAttempted hw
  | principal p m hst hn hv =>
    have hs' : ph = .fresh ∧ sys.coordinator.shutdownAttempted = false ∧
        sys.coordinator.initialStartCompleted = false ∧
        sys.coordinator.surfaceCreated = false := by
      cases hs <;> simp_all
    obtain ⟨rfl, ha, hi, hc⟩ := hs'
    exact .returned hf (.prestart (.inl rfl) ha hi (.inl rfl)
      (fun h => absurd (hc.symm.trans h) (by decide))) rfl hw
  | queued r m ht hp hj hv ha hn =>
    have hi : sys.coordinator.initialStartCompleted = false := by
      cases hi : sys.coordinator.initialStartCompleted
      · rfl
      · simpa [hj] using hr.begun hi
    obtain ⟨hph, hc, hsh⟩ := hs.of_prestart ht hi
    exact .returned hf (.prestart (.inr (.inl rfl)) hsh hi hph hc) rfl hw
  | offered surface m ht hp hc hi hv =>
    obtain ⟨hph, hc, hsh⟩ := hs.of_prestart ht hi
    exact .returned hf (.prestart (.inr (.inr (.inr rfl))) hsh hi hph hc) rfl hw
  | released g m ht hi state hr' hst =>
    obtain ⟨hph, hc, hsh⟩ := hs.of_prestart ht hi
    refine .returned hf (.prestart ?_ hsh hi hph fun h => ?_) rfl hw
    rotate_left
    · exact absurd (show false = true from h) (by decide)
    rcases hst with rfl | rfl
    · exact .inr (.inl rfl)
    · exact .inl rfl
  | prepare g ht hp hi =>
    cases hst : sys.coordinator.initialStartCompleted with
    | false =>
      obtain ⟨hph, hc, hsh⟩ := hs.of_prestart ht hst
      have hs' : Stage (sys.coordinator.enter .preparingSurface)
          (some (.setGameForeground, .foregrounded g)) .foregrounded :=
        .preparing rfl hsh (by simp [enter, hst])
      refine .called hw hsh hsh ?_ hs'
      rcases hph with rfl | rfl <;> rfl
    | true =>
      obtain ⟨hph, hc, hsh⟩ := hs.of_paused (hi hst)
      have hs' : Stage (sys.coordinator.enter .preparingSurface)
          (some (.setGameForeground, .foregrounded g)) .repaused :=
        .preparing rfl hsh (by simp [enter, hst])
      refine .called hw hsh hsh ?_ hs'
      rcases hph with rfl | rfl <;> rfl
  | startQueued r m ht hp hv ha hc hn hi =>
    obtain ⟨hph, hc', hsh⟩ := hs.of_prestart ht hi
    obtain rfl := hc' hc
    exact .called hw hsh hsh rfl (.starting rfl hsh rfl hn)
  | startOffered surface m ht hp hv hj hc hi =>
    obtain ⟨hph, hc', hsh⟩ := hs.of_prestart ht hi
    obtain rfl := hc' hc
    exact .called hw hsh hsh rfl (.starting rfl hsh hj rfl)
  | resume surface hst hi hc hv =>
    obtain ⟨hph, hc', hsh⟩ := hs.of_paused hst
    obtain rfl := hc' hc
    exact .called hw hsh hsh rfl (.resuming rfl hsh hi rfl)
  | update surface hst hi hv =>
    obtain ⟨rfl, hsh⟩ := hs.of_running hst
    exact .called hw hsh hsh rfl (.updating rfl hsh hi rfl)
  | pause g hst hi =>
    obtain ⟨rfl, hsh⟩ := hs.of_running hst
    exact .called hw hsh hsh rfl (.pausing rfl hsh hi rfl)
  | leave hi hst =>
    rcases hst with hst | hst
    · obtain ⟨rfl, hsh⟩ := hs.of_running hst
      exact .called hw hsh hsh rfl (.leaving rfl hsh)
    · obtain ⟨hph, hc, hsh⟩ := hs.of_paused hst
      refine .called hw hsh hsh ?_ (.leaving rfl hsh)
      rcases hph with rfl | rfl <;> rfl
  | stop hst ha =>
    refine ⟨ph, .stopping rfl rfl, ?_⟩
    rw [callbacks_settle_calls]
    rw [ha] at hw
    cases hw with
    | ongoing hw => exact .shut hw

/-! Callbacks that return. -/

/-- Committing touches only the present fields and the revision. -/
theorem commitPendingPresent_eq (s : Coordinator) : s.commitPendingPresent =
    { s with
      pendingPresent := false
      pendingPresentEvidence := {}
      gamePresented := s.gamePresented || s.pendingPresent
      firstPresentedFrame :=
        if s.pendingPresent && !s.gamePresented then s.pendingPresentEvidence.frameSerial
        else s.firstPresentedFrame
      revision := if s.pendingPresent && !s.gamePresented then s.revision + 1
        else s.revision } := by
  unfold commitPendingPresent
  cases hp : s.pendingPresent <;> cases hg : s.gamePresented <;> simp [discardPendingPresent, hg]

theorem finish_error (hok : status.isOk = false) (c : Continuation) :
    (finish s c status).1.state = .failure := by
  cases c <;> simp [finish, hok, failLocked, enter]

theorem finish_shutdownAttempted (c : Continuation) :
    (finish s c status).1.shutdownAttempted = s.shutdownAttempted := by
  cases c <;> simp only [finish, commitPendingPresent_eq] <;> split <;> rfl

theorem preStartState_cases (s : Coordinator) :
    s.preStartState = .principalReady ∨ s.preStartState = .joinRequestQueued ∨
      s.preStartState = .surfaceCreated ∨ s.preStartState = .surfaceAvailable := by
  unfold preStartState
  split_ifs <;> simp

theorem finish_stage {callback : Callback} {c : Continuation}
    (h : Stage s (some (callback, c)) ph) : Stage (finish s c status).1 none ph := by
  cases hok : status.isOk with
  | false => exact .failed (finish_error hok c)
  | true =>
    cases h <;> simp only [finish, hok, commitPendingPresent_eq, Bool.not_true, Bool.false_eq_true,
      if_false]
    case preparing g hs ha hp =>
      cases hi : s.initialStartCompleted with
      | false =>
        simp only [hi, Bool.false_eq_true, if_false] at hp
        exact .prestart (preStartState_cases _) ha rfl (.inr hp) fun _ => hp
      | true =>
        simp only [hi, if_true] at hp
        exact .paused rfl ha rfl (.inr hp) fun _ => hp
    case starting hs ha hj hn => exact .running rfl ha rfl
    case updating hs ha hi hn => exact .running rfl ha hi
    case pausing hs ha hi hc =>
      exact .paused rfl ha hi (.inl rfl) fun h => absurd (hc.symm.trans h) (by decide)
    case resuming hs ha hi hn => exact .running rfl ha hi
    case leaving hs ha => exact .returned rfl ha
    case stopping hs ha => exact .stopped rfl ha

theorem callbacks_snoc {events : List Event} {e : Event} (he : e.kind? = none) :
    (events ++ [e]).filterMap Event.kind? = events.filterMap Event.kind? := by
  simp [he]

theorem finish_tracks {callback : Callback} {c : Continuation}
    (hf : sys.inFlight = some (callback, c)) (hs : Tracks sys) :
    Tracks { coordinator := (finish sys.coordinator c status).1
             inFlight := none
             history := sys.history ++ [.returned callback status] } := by
  obtain ⟨ph, hs, hw⟩ := hs
  rw [hf] at hs
  refine ⟨ph, finish_stage hs, ?_⟩
  rw [finish_shutdownAttempted, System.callbacks, callbacks_snoc rfl]
  exact hw

/-- Stages do not look at the present fields. -/
theorem Stage.record (h : Stage s fl ph) (p g : Bool) (e : PresentEvidence) (f r : UInt64) :
    Stage { s with
      pendingPresent := p
      pendingPresentEvidence := e
      gamePresented := g
      firstPresentedFrame := f
      revision := r } fl ph := by
  cases h with
  | fresh hs ha hi hc => exact .fresh hs ha hi hc
  | prestart hs ha hi hp hc => exact .prestart hs ha hi hp hc
  | running hs ha hi => exact .running hs ha hi
  | paused hs ha hi hp hc => exact .paused hs ha hi hp hc
  | returned hs ha => exact .returned hs ha
  | failed hs => exact .failed hs
  | stopped hs ha => exact .stopped hs ha
  | preparing hs ha hp => exact .preparing hs ha hp
  | starting hs ha hj hn => exact .starting hs ha hj hn
  | updating hs ha hi hn => exact .updating hs ha hi hn
  | pausing hs ha hi hc => exact .pausing hs ha hi hc
  | resuming hs ha hi hn => exact .resuming hs ha hi hn
  | leaving hs ha => exact .leaving hs ha
  | stopping hs ha => exact .stopping hs ha

theorem Observed.stage (h : Observed s evidence t) (hs : Stage s fl ph) : Stage t fl ph := by
  cases h with
  | unchanged => exact hs
  | deferred => exact hs.record true s.gamePresented evidence s.firstPresentedFrame _
  | presented =>
    exact hs.record s.pendingPresent true s.pendingPresentEvidence evidence.frameSerial _

theorem Observed.shutdownAttempted (h : Observed s evidence t) :
    t.shutdownAttempted = s.shutdownAttempted := by
  cases h <;> rfl

theorem present_tracks (h : Observed sys.coordinator evidence t) (hs : Tracks sys) :
    Tracks { sys with coordinator := t, history := sys.history ++ [.present evidence] } := by
  obtain ⟨ph, hs, hw⟩ := hs
  refine ⟨ph, h.stage hs, ?_⟩
  rw [h.shutdownAttempted, System.callbacks, callbacks_snoc rfl]
  exact hw

/-! What the callbacks are given, and what is left once something failed. -/

/-- The checks a principal, a request and a surface have passed before `start_game` sees them. -/
structure StartChecked (p : Principal) (r : JoinRequest) (surface : Surface) : Prop where
  principal : validPrincipal p = true
  request : validRequest r = true
  kind : r.placeId ≠ 0 → p.kind = .authenticated
  surface : validSurface surface = true

/-- Nothing but a shutdown can follow. -/
def Doomed (s : Coordinator) : Prop := s.state = .failure ∨ s.shutdownAttempted = true

structure Sound (sys : System) : Prop where
  ready : Ready sys.coordinator
  tracks : Tracks sys
  starts : ∀ p r surface, .called (.startGame p r surface) ∈ sys.history → StartChecked p r surface
  errors : ∀ callback status, .returned callback status ∈ sys.history → status.isOk = false →
    Doomed sys.coordinator

theorem Effect.ready (h : Effect s o) (hr : Ready s) : Ready (sys.settle o).coordinator := by
  cases h with
  | unchanged => exact hr
  | failed hk =>
    have hr' := hk.ready hr
    exact ⟨hr'.principal, hr'.request, hr'.joined, hr'.begun, hr'.surface⟩
  | principal p m hst hn hv =>
    have hj : s.joinRequestQueued = false := by
      cases hj : s.joinRequestQueued
      · rfl
      · simpa [hn] using hr.joined hj
    refine ⟨fun _ => hv, fun h => ?_, fun _ => rfl, hr.begun, hr.surface⟩
    exact absurd (hj.symm.trans h) (by decide)
  | queued r m ht hp hj hv ha hn =>
    exact ⟨hr.principal, fun _ => ⟨hv, ha⟩, fun _ => hp, fun _ => rfl, hr.surface⟩
  | offered surface m ht hp hc hi hv =>
    exact ⟨hr.principal, hr.request, hr.joined, hr.begun, fun _ => hv⟩
  | released => exact ⟨hr.principal, hr.request, hr.joined, hr.begun, nofun⟩
  | prepare => exact ⟨hr.principal, hr.request, hr.joined, hr.begun, hr.surface⟩
  | startQueued r m ht hp hv ha hc hn hi =>
    exact ⟨hr.principal, fun _ => ⟨hv, ha⟩, fun _ => hp, fun _ => rfl, hr.surface⟩
  | startOffered surface m ht hp hv hj hc hi =>
    exact ⟨hr.principal, hr.request, hr.joined, hr.begun, fun _ => hv⟩
  | resume surface hst hi hc hv =>
    exact ⟨hr.principal, hr.request, hr.joined, hr.begun, fun _ => hv⟩
  | update surface hst hi hv =>
    exact ⟨hr.principal, hr.request, hr.joined, hr.begun, fun _ => hv⟩
  | pause => exact ⟨hr.principal, hr.request, hr.joined, hr.begun, nofun⟩
  | leave => exact ⟨hr.principal, hr.request, hr.joined, hr.begun, hr.surface⟩
  | stop => exact ⟨hr.principal, hr.request, hr.joined, hr.begun, hr.surface⟩

theorem finish_ready {callback : Callback} {c : Continuation}
    (hs : Stage s (some (callback, c)) ph) (hr : Ready s) : Ready (finish s c status).1 := by
  cases hs <;> simp only [finish, commitPendingPresent_eq] <;> split
  case starting.isFalse hj _ _ =>
    exact ⟨hr.principal, hr.request, hr.joined, fun _ => hj, nofun⟩
  all_goals
    first
    | exact ⟨hr.principal, hr.request, hr.joined, hr.begun, hr.surface⟩
    | exact ⟨hr.principal, hr.request, hr.joined, hr.begun, nofun⟩

theorem Observed.ready (h : Observed s evidence t) (hr : Ready s) : Ready t := by
  cases h <;> exact ⟨hr.principal, hr.request, hr.joined, hr.begun, hr.surface⟩

/-- A `start_game` is invoked only with what the checks let through. -/
theorem Effect.starts (h : Effect s (.calls t (.startGame p r f) c)) (hr : Ready s) :
    StartChecked p r f := by
  cases h with
  | startQueued r m ht hp hv ha hc hn hi => exact ⟨hr.principal hp, hv, ha, hr.surface hn⟩
  | startOffered surface m ht hp hv hj hc hi =>
    obtain ⟨hq, hk⟩ := hr.request hj
    exact ⟨hr.principal hp, hq, hk, hv⟩

/-- In a doomed session an operation invokes nothing but `shutdown_runtime`. -/
theorem Effect.doomed (h : Effect s o) (hs : Stage s none ph) (hd : Doomed s) :
    (∃ t r, o = .returned t r ∧ Doomed t) ∨
      ∃ t c, o = .calls t .shutdownRuntime c ∧ Doomed t := by
  have hdead : s.state = .failure ∨ s.state = .stopped := by
    cases hs <;> simp_all [Doomed]
  cases h with
  | unchanged r => exact .inl ⟨s, r, rfl, hd⟩
  | failed => exact .inl ⟨_, _, rfl, .inl rfl⟩
  | stop => exact .inr ⟨_, _, rfl, .inr rfl⟩
  | _ => rcases hdead with hdead | hdead <;> simp_all [isForwardTerminal]

theorem Stage.attempted_of_doomed (hs : Stage s (some (callback, c)) ph) (hd : Doomed s) :
    s.shutdownAttempted = true := by
  cases hs <;> simp_all [Doomed]

theorem Observed.doomed (h : Observed s evidence t) (hd : Doomed s) : Doomed t := by
  cases h <;> exact hd

/-- The three kinds of step, each with what its part of the coordinator did. -/
theorem step_cases (h : step sys act = some sys') :
    (∃ o, sys.inFlight = none ∧ Effect sys.coordinator o ∧ sys' = sys.settle o) ∨
    (∃ callback c status, sys.inFlight = some (callback, c) ∧
      sys' = { coordinator := (finish sys.coordinator c status).1
               inFlight := none
               history := sys.history ++ [.returned callback status] }) ∨
    (∃ evidence t, Observed sys.coordinator evidence t ∧
      sys' = { sys with coordinator := t, history := sys.history ++ [.present evidence] }) := by
  cases act with
  | call operation =>
    simp only [step] at h
    split at h
    · next hf =>
      exact .inl ⟨_, hf, begin_effect sys.coordinator operation, (Option.some.inj h).symm⟩
    · cases h
  | ret status =>
    simp only [step] at h
    split at h
    · cases h
    · next callback c hf =>
      exact .inr (.inl ⟨callback, c, status, hf, (Option.some.inj h).symm⟩)
  | present evidence =>
    exact .inr (.inr ⟨evidence, _, recordGamePresent_observed sys.coordinator evidence,
      (Option.some.inj h).symm⟩)

theorem doomed_step (h : step sys act = some sys') (hs : Tracks sys) (hd : Doomed sys.coordinator) :
    Doomed sys'.coordinator ∧
      ∃ rest, sys'.callbacks = sys.callbacks ++ rest ∧ ∀ k ∈ rest, k = .shutdownRuntime := by
  obtain ⟨ph, hst, _⟩ := hs
  rcases step_cases h with
      ⟨o, hf, he, rfl⟩ | ⟨callback, c, status, hf, rfl⟩ | ⟨evidence, t, ho, rfl⟩
  · rw [hf] at hst
    rcases he.doomed hst hd with ⟨t, r, rfl, ht⟩ | ⟨t, c, rfl, ht⟩
    · exact ⟨ht, [], by simp [System.settle, System.callbacks], by simp⟩
    · exact ⟨ht, [.shutdownRuntime], callbacks_settle_calls sys _ c, by simp⟩
  · rw [hf] at hst
    refine ⟨.inr ?_, [], ?_, by simp⟩
    · rw [finish_shutdownAttempted]
      exact hst.attempted_of_doomed hd
    · rw [System.callbacks, callbacks_snoc rfl, List.append_nil, System.callbacks]
  · refine ⟨ho.doomed hd, [], ?_, by simp⟩
    rw [System.callbacks, callbacks_snoc rfl, List.append_nil, System.callbacks]

theorem sound_step (h : step sys act = some sys') (hs : Sound sys) : Sound sys' := by
  have hdoom : Doomed sys.coordinator → Doomed sys'.coordinator := fun hd =>
    (doomed_step h hs.tracks hd).1
  have herr : ∀ callback status, .returned callback status ∈ sys.history → status.isOk = false →
      Doomed sys'.coordinator := fun callback status hm he =>
        hdoom (hs.errors callback status hm he)
  rcases step_cases h with
      ⟨o, hf, he, rfl⟩ | ⟨callback, c, status, hf, rfl⟩ | ⟨evidence, t, ho, rfl⟩
  · refine ⟨he.ready hs.ready, settle_tracks he hf hs.ready hs.tracks, ?_, ?_⟩
    · intro p r f hm
      cases o with
      | returned t u => exact hs.starts p r f hm
      | calls t callback c =>
        rcases List.mem_append.1 hm with hm | hm
        · exact hs.starts p r f hm
        · obtain rfl : .startGame p r f = callback := by simpa using hm
          exact he.starts hs.ready
    · intro callback status hm
      cases o with
      | returned t u => exact herr callback status hm
      | calls t cb c =>
        rcases List.mem_append.1 hm with hm | hm
        · exact herr callback status hm
        · simp at hm
  · obtain ⟨ph, hst, hw⟩ := hs.tracks
    rw [hf] at hst
    refine ⟨finish_ready hst hs.ready, finish_tracks hf hs.tracks, ?_, ?_⟩
    · intro p r f hm
      rcases List.mem_append.1 hm with hm | hm
      · exact hs.starts p r f hm
      · simp at hm
    · intro cb st hm hok
      rcases List.mem_append.1 hm with hm | hm
      · exact herr cb st hm hok
      · obtain ⟨rfl, rfl⟩ : cb = callback ∧ st = status := by simpa using hm
        exact .inl (finish_error hok c)
  · refine ⟨ho.ready hs.ready, present_tracks ho hs.tracks, ?_, ?_⟩
    · intro p r f hm
      rcases List.mem_append.1 hm with hm | hm
      · exact hs.starts p r f hm
      · simp at hm
    · intro cb st hm hok
      rcases List.mem_append.1 hm with hm | hm
      · exact herr cb st hm hok
      · simp at hm

theorem sound_reachable (h : (sessionLTS capabilities requirements).Reachable sys) : Sound sys := by
  refine h.invariant (I := Sound) ?_ fun s a t ht hs => sound_step ht hs
  rintro s rfl
  exact ⟨⟨nofun, nofun, nofun, nofun, nofun⟩, ⟨.fresh, .fresh rfl rfl rfl rfl, .ongoing .nil⟩,
    nofun, nofun⟩

theorem doomed_run (h : (sessionLTS capabilities requirements).Run sys acts sys') (hs : Sound sys)
    (hd : Doomed sys.coordinator) :
    ∃ rest, sys'.callbacks = sys.callbacks ++ rest ∧ ∀ k ∈ rest, k = .shutdownRuntime := by
  induction h with
  | refl => exact ⟨[], by simp, by simp⟩
  | cons h _ ih =>
    obtain ⟨hd', rest, hrest, hk⟩ := doomed_step h hs.tracks hd
    obtain ⟨rest', hrest', hk'⟩ := ih (sound_step h hs) hd'
    refine ⟨rest ++ rest', by rw [hrest', hrest, List.append_assoc], ?_⟩
    intro k hm
    rcases List.mem_append.1 hm with hm | hm
    · exact hk k hm
    · exact hk' k hm

theorem Written.mem_cutLifecycle (h : Written ph a w) : w ∈ cutLifecycle := by
  cases h with
  | ongoing h =>
    have hnil : [] ∈ 1 + letter .shutdownRuntime := Or.inl rfl
    have hw := Language.append_mem_mul h.mem_prefixes hnil
    rwa [List.append_nil] at hw
  | shut h => exact Language.append_mem_mul h.mem_prefixes (Or.inr rfl)

theorem Written.count_le (h : Written ph a w) (hk : k = .startGame ∨ k = .leaveGame ∨
    k = .shutdownRuntime) : w.count k ≤ 1 := by
  cases h with
  | ongoing h =>
    rw [h.count_eq hk]
    rcases hk with rfl | rfl | rfl <;> cases ph <;> decide
  | shut h =>
    rw [List.count_append, h.count_eq hk]
    rcases hk with rfl | rfl | rfl <;> cases ph <;> decide

/-- Whatever is called, in whatever order, with evidence at any moment and callbacks returning what
they like: callbacks follow the lifecycle, one-shot callbacks happen once, after an error or a
failure only a shutdown is left, and `start_game` sees only checked arguments. -/
theorem callbacks_follow_lifecycle (h : (sessionLTS capabilities requirements).Reachable sys) :
    sys.callbacks ∈ cutLifecycle ∧
    (sys.callbacks.count .startGame ≤ 1 ∧ sys.callbacks.count .leaveGame ≤ 1 ∧
      sys.callbacks.count .shutdownRuntime ≤ 1) ∧
    ((sys.coordinator.state = .failure ∨
        ∃ callback status, .returned callback status ∈ sys.history ∧ status.isOk = false) →
      ∀ acts sys', (sessionLTS capabilities requirements).Run sys acts sys' →
        ∃ rest, sys'.callbacks = sys.callbacks ++ rest ∧ ∀ k ∈ rest, k = .shutdownRuntime) ∧
    ∀ p r surface, .called (.startGame p r surface) ∈ sys.history →
      validPrincipal p = true ∧ validRequest r = true ∧ validSurface surface = true ∧
        (r.placeId ≠ 0 → p.kind = .authenticated) := by
  have hs := sound_reachable h
  obtain ⟨ph, _, hw⟩ := hs.tracks
  refine ⟨hw.mem_cutLifecycle, ⟨hw.count_le (.inl rfl), hw.count_le (.inr (.inl rfl)),
    hw.count_le (.inr (.inr rfl))⟩, ?_, ?_⟩
  · intro hfail acts sys' hrun
    refine doomed_run hrun hs ?_
    rcases hfail with hfail | ⟨callback, status, hm, hok⟩
    · exact .inl hfail
    · exact hs.errors callback status hm hok
  · intro p r surface hm
    obtain ⟨hp, hr, hk, hf⟩ := hs.starts p r surface hm
    exact ⟨hp, hr, hf, hk⟩

def completeTable : Capabilities := ⟨true, true, true, true, true, true, true⟩

/-- A guest session up to the return of `start_game`, with evidence arriving while it runs. -/
def firstStart : List Action :=
  [.call (.setPrincipal { generation := 1, baseUrl := "https://www.roblox.com" }),
    .call (.queueJoinRequest { requestId := 1, launchParameters := "placeId=0" }),
    .call (.surfaceCreated 7), .ret {},
    .call (.surfaceChanged { generation := 7, nativeWindow := 1, width := 640, height := 480 }),
    .present { surfaceGeneration := 7, frameSerial := 3, backend := .vulkan
               presentSucceeded := true },
    .ret {}]

theorem firstStart_reachable : ∃ sys, (sessionLTS completeTable {}).Reachable sys ∧
    sys.callbacks = [.setGameForeground, .startGame] ∧ sys.coordinator.gamePresented = true ∧
    sys.inFlight = none := by
  have hrun : ∃ sys, firstStart.foldlM step
      { coordinator := { capabilities := completeTable, requirements := {} } } = some sys ∧
      sys.callbacks = [.setGameForeground, .startGame] ∧ sys.coordinator.gamePresented = true ∧
      sys.inFlight = none := ⟨_, rfl, rfl, rfl, rfl⟩
  obtain ⟨sys, hr, hc, hg, hf⟩ := hrun
  exact ⟨sys, ⟨_, firstStart, rfl, .of_foldlM (fun _ _ _ h => h) hr⟩, hc, hg, hf⟩

theorem callbacks_follow_lifecycle_firstStart : ∃ sys : System,
    sys.callbacks = [.setGameForeground, .startGame] ∧ sys.callbacks ∈ cutLifecycle := by
  obtain ⟨sys, hr, hc, _⟩ := firstStart_reachable
  exact ⟨sys, hc, (callbacks_follow_lifecycle hr).1⟩

end Nightcap.Session
