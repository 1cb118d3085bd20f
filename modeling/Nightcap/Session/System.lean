import Nightcap.Lib.Transition
import Nightcap.Session.Coordinator

/-! The coordinator among its callers: one lifecycle operation at a time, native callbacks that
return whatever they like, and present evidence at any moment. -/
namespace Nightcap.Session

open Coordinator Transition

variable {s s' : Coordinator} {o : Outcome} {k : Continuation} {status : Status}
  {evidence : PresentEvidence} {message : String}

inductive Event
  | called (callback : Callback)
  | returned (callback : Callback) (status : Status)
  | present (evidence : PresentEvidence)

/-- The coordinator, the callback it is waiting for, and what has crossed the native boundary. -/
structure System where
  coordinator : Coordinator
  inFlight : Option (Callback × Continuation) := none
  history : List Event := []

inductive Action
  | call (operation : Operation)
  | ret (status : Status)
  | present (evidence : PresentEvidence)

/-- What an operation leaves behind when it returns or drops the lock. -/
def System.settle (sys : System) : Outcome → System
  | .returned s _ => { sys with coordinator := s }
  | .calls s callback continuation =>
    { coordinator := s
      inFlight := some (callback, continuation)
      history := sys.history ++ [.called callback] }

def step (sys : System) : Action → Option System
  | .call operation =>
    match sys.inFlight with
    | none => some (sys.settle (begin sys.coordinator operation))
    | some _ => none
  | .ret status =>
    match sys.inFlight with
    | none => none
    | some (callback, continuation) =>
      some { coordinator := (finish sys.coordinator continuation status).1
             inFlight := none
             history := sys.history ++ [.returned callback status] }
  | .present evidence =>
    some { sys with
      coordinator := (recordGamePresent sys.coordinator evidence).1
      history := sys.history ++ [.present evidence] }

def sessionLTS (capabilities : Capabilities) (requirements : Requirements) : LTS System Action :=
  .ofFun { coordinator := { capabilities, requirements } } step

/-- What has been accepted so far passed its check. -/
structure Ready (s : Coordinator) : Prop where
  principal : s.principalReady = true → validPrincipal s.principal = true
  request : s.joinRequestQueued = true → validRequest s.request = true ∧
    (s.request.placeId ≠ 0 → s.principal.kind = .authenticated)
  joined : s.joinRequestQueued = true → s.principalReady = true
  begun : s.initialStartCompleted = true → s.joinRequestQueued = true
  surface : s.pendingSurfaceAvailable = true → validSurface s.pendingSurface = true

/-- `t` is `s` up to fields that no longer matter once the session has failed. -/
structure Spent (s t : Coordinator) : Prop where
  ready : Ready s → Ready t
  shutdownAttempted : t.shutdownAttempted = s.shutdownAttempted
  pendingPresent : t.pendingPresent = s.pendingPresent
  gamePresented : t.gamePresented = s.gamePresented
  firstPresentedFrame : t.firstPresentedFrame = s.firstPresentedFrame
  activeSurface : t.activeSurface = s.activeSurface
  requirements : t.requirements = s.requirements

theorem Spent.refl (s : Coordinator) : Spent s s := ⟨id, rfl, rfl, rfl, rfl, rfl, rfl⟩

/-- Everything an operation can do, with the guards it passed. -/
inductive Effect (s : Coordinator) : Outcome → Prop
  | unchanged (result : UpdateResult) : Effect s (.returned s result)
  | failed {t : Coordinator} (h : Spent s t) (cause : Status) (message : String) :
      Effect s (done (t.failLocked cause message))
  | principal (p : Principal) (message : String) (hs : s.state = .created)
      (hn : s.principalReady = false) (hv : validPrincipal p = true) :
      Effect s (done ({ s with principal := p, principalReady := true }.applyLocked
        .principalReady message))
  | queued (r : JoinRequest) (message : String) (ht : s.isForwardTerminal = false)
      (hp : s.principalReady = true) (hj : s.joinRequestQueued = false)
      (hv : validRequest r = true)
      (ha : r.placeId ≠ 0 → s.principal.kind = .authenticated)
      (hn : s.pendingSurfaceAvailable = false) :
      Effect s (done ({ s with request := r, joinRequestQueued := true }.applyLocked
        .joinRequestQueued message))
  | offered (surface : Surface) (message : String) (ht : s.isForwardTerminal = false)
      (hp : s.principalReady = true) (hc : s.surfaceCreated = true)
      (hi : s.initialStartCompleted = false) (hv : validSurface surface = true) :
      Effect s (done ((s.offerSurface surface).applyLocked .surfaceAvailable message))
  | released (g : UInt64) (message : String) (ht : s.isForwardTerminal = false)
      (hi : s.initialStartCompleted = false) (state : State)
      (hr : s.surfaceCreated = true ∨ s.pendingSurfaceAvailable = true)
      (hs : state = .joinRequestQueued ∨ state = .principalReady) :
      Effect s (done ({ s.dropPreparedSurface with
        lastDestroyedSurfaceGeneration := g
        }.discardPendingSurface.discardPendingPresent.applyLocked state message))
  | prepare (g : UInt64) (ht : s.isForwardTerminal = false) (hp : s.principalReady = true)
      (hi : s.initialStartCompleted = true → s.state = .paused) :
      Effect s (.calls (s.enter .preparingSurface) .setGameForeground (.foregrounded g))
  | startQueued (r : JoinRequest) (message : String) (ht : s.isForwardTerminal = false)
      (hp : s.principalReady = true) (hv : validRequest r = true)
      (ha : r.placeId ≠ 0 → s.principal.kind = .authenticated) (hc : s.surfaceCreated = true)
      (hn : s.pendingSurfaceAvailable = true) (hi : s.initialStartCompleted = false) :
      Effect s (.calls
        ({ s with request := r, joinRequestQueued := true }.enter .starting).discardPendingPresent
        (.startGame s.principal r s.pendingSurface) (.started message))
  | startOffered (surface : Surface) (message : String) (ht : s.isForwardTerminal = false)
      (hp : s.principalReady = true) (hv : validSurface surface = true)
      (hj : s.joinRequestQueued = true) (hc : s.surfaceCreated = true)
      (hi : s.initialStartCompleted = false) :
      Effect s (.calls ((s.offerSurface surface).enter .starting).discardPendingPresent
        (.startGame s.principal s.request surface) (.started message))
  | resume (surface : Surface) (hs : s.state = .paused) (hi : s.initialStartCompleted = true)
      (hc : s.surfaceCreated = true) (hv : validSurface surface = true) :
      Effect s (.calls ((s.offerSurface surface).discardPendingPresent.enter .resuming)
        (.resumeGame surface) .resumed)
  | update (surface : Surface) (hs : s.state = .running) (hi : s.initialStartCompleted = true)
      (hv : validSurface surface = true) :
      Effect s (.calls ((s.offerSurface surface).discardPendingPresent.enter .updatingSurface)
        (.updateSurface surface) .updated)
  | pause (g : UInt64) (hs : s.state = .running) (hi : s.initialStartCompleted = true) :
      Effect s (.calls
        ({ s.dropPreparedSurface with
          activeSurfaceAvailable := false
          lastDestroyedSurfaceGeneration := g
          }.discardPendingSurface.discardPendingPresent.enter .pausing) .pauseGame .paused)
  | leave (hi : s.initialStartCompleted = true) (hs : s.state = .running ∨ s.state = .paused) :
      Effect s (.calls (s.enter .leaving) .leaveGame .left)
  | stop (hs : s.state ≠ .stopped) (ha : s.shutdownAttempted = false) :
      Effect s (.calls ({ s with shutdownAttempted := true }.enter .stopping) .shutdownRuntime
        .stopped)

theorem Effect.fail (cause : Status) (message : String) :
    Effect s (done (s.failLocked cause message)) :=
  .failed (.refl s) cause message

theorem setPrincipal_effect (s : Coordinator) (p : Principal) : Effect s (setPrincipal s p) := by
  unfold setPrincipal
  split_ifs with h1 h2 h3 h4 h5 h6 h7
  · exact .unchanged _
  · exact .unchanged _
  · exact .fail _ _
  · exact .unchanged _
  · exact .fail _ _
  · exact .fail _ _
  · exact .fail _ _
  · exact .principal p _ (by simpa using h5) (by simpa using h1) (by simpa using h7)

theorem queueJoinRequest_effect (s : Coordinator) (r : JoinRequest) :
    Effect s (queueJoinRequest s r) := by
  unfold queueJoinRequest
  split_ifs with h1 h2 h3 h4 h5 h6 h7
  · exact .unchanged _
  · exact .unchanged _
  · exact .fail _ _
  · exact .unchanged _
  · exact .fail _ _
  · exact .fail _ _
  · exact .fail _ _
  · have hp : s.principalReady = true := by simpa using h5
    have hv : validRequest r = true := by simpa using h6
    have ha : r.placeId ≠ 0 → s.principal.kind = .authenticated := by simpa using h7
    dsimp only [startIfReady]
    split_ifs with h8 h9
    · exact .queued r _ (by simpa using h4) hp (by simpa using h1) hv ha (by simpa using h8)
    · refine .failed ?_ _ _
      refine ⟨fun h => ?_, rfl, rfl, rfl, rfl, rfl, rfl⟩
      exact ⟨h.principal, fun _ => ⟨hv, ha⟩, fun _ => hp, fun _ => rfl, h.surface⟩
    · simp only [Bool.or_eq_true, Bool.not_eq_true', not_or, Bool.not_eq_false,
        Bool.not_eq_true] at h9
      exact .startQueued r _ (by simpa using h4) hp hv ha h9.1.1.2 h9.1.2 h9.2

theorem surfaceCreated_effect (s : Coordinator) (g : UInt64) : Effect s (surfaceCreated s g) := by
  unfold surfaceCreated
  split_ifs with h1 h2 h3 h4 h5 h6 h7 h8
  · exact .unchanged _
  · exact .unchanged _
  · exact .fail _ _
  · exact .fail _ _
  · exact .fail _ _
  · exact .fail _ _
  · exact .prepare g (by simpa using h2) (by simpa using h3) (fun _ => by simpa using h6)
  · exact .fail _ _
  · exact .prepare g (by simpa using h2) (by simpa using h3) (fun h => absurd h h5)

theorem updateSurface_effect (s : Coordinator) (surface : Surface) (rebind : Bool) :
    Effect s (updateSurface s surface rebind) := by
  unfold updateSurface
  split_ifs with h1 h2 h3 h4 h5 h6 h7 h8 h9
  · exact .unchanged _
  · exact .fail _ _
  · exact .fail _ _
  · exact .fail _ _
  · exact .unchanged _
  all_goals
    have ht : s.isForwardTerminal = false := by simpa using h1
    have hp : s.principalReady = true := by simpa using h2
    have hv : validSurface surface = true := by simpa using h3
    have hc : s.surfaceCreated = true := by
      simp only [Bool.or_eq_true, not_or] at h4
      simpa using h4.1
  · have hi : s.initialStartCompleted = false := by simpa using h5
    dsimp only [startIfReady]
    split_ifs with h10 h11
    · exact .offered surface _ ht hp hc hi hv
    · refine .failed ?_ _ _
      refine ⟨fun h => ?_, rfl, rfl, rfl, rfl, rfl, rfl⟩
      exact ⟨h.principal, h.request, h.joined, h.begun, fun _ => hv⟩
    · exact .startOffered surface _ ht hp hv (by simpa [offerSurface] using h10) hc hi
  · exact .resume surface (by simpa using h7) (by simpa using h5) hc hv
  · exact .fail _ _
  · exact .unchanged _
  · exact .update surface (by simpa using h8) (by simpa using h5) hv

theorem destroyCandidate_effect (g : UInt64) (ht : s.isForwardTerminal = false)
    (hi : s.initialStartCompleted = false) : Effect s (destroyCandidate s g) := by
  unfold destroyCandidate
  dsimp only
  split_ifs with h
  · exact .fail _ _
  · refine .released g _ ht hi _ ?_ ?_
    · simp only [Bool.and_eq_true, Bool.not_eq_true', not_and_or, Bool.not_eq_false] at h
      rcases h with h | h
      · exact .inl h.1
      · exact .inr h.1
    · unfold preStartState
      cases hj : s.joinRequestQueued
      · exact .inr (by simp [discardPendingPresent, discardPendingSurface, dropPreparedSurface, hj])
      · exact .inl (by simp [discardPendingPresent, discardPendingSurface, dropPreparedSurface, hj])

theorem surfaceDestroyed_effect (s : Coordinator) (g : UInt64) :
    Effect s (surfaceDestroyed s g) := by
  unfold surfaceDestroyed
  split_ifs with h1 h2 h3 h4 h5 h6
  · exact .unchanged _
  · exact .unchanged _
  · exact .fail _ _
  · exact destroyCandidate_effect g (by simpa using h2) (by simpa using h4)
  · exact .fail _ _
  · exact .fail _ _
  · simp only [Bool.or_eq_true, not_or] at h5
    exact .pause g (by simpa using h5.1) (by simpa using h4)

theorem leaveGame_effect (s : Coordinator) : Effect s (leaveGame s) := by
  unfold leaveGame
  split_ifs with h1 h2 h3
  · exact .unchanged _
  · exact .unchanged _
  · exact .fail _ _
  · simp only [Bool.or_eq_true, Bool.and_eq_true, not_or, not_and_or] at h3
    exact .leave (by simpa using h3.1) (by simpa using h3.2)

theorem shutdown_effect (s : Coordinator) : Effect s (shutdown s) := by
  unfold shutdown
  split_ifs with h1 h2 h3
  · exact .unchanged _
  · exact .unchanged _
  · exact .fail _ _
  · exact .stop (by simpa using h1) (by simpa using h2)

theorem begin_effect (s : Coordinator) (operation : Operation) : Effect s (begin s operation) := by
  cases operation with
  | setPrincipal p => exact setPrincipal_effect s p
  | queueJoinRequest r => exact queueJoinRequest_effect s r
  | surfaceCreated g => exact surfaceCreated_effect s g
  | surfaceChanged surface => exact updateSurface_effect s surface false
  | rebindSurface surface => exact updateSurface_effect s surface true
  | surfaceDestroyed g => exact surfaceDestroyed_effect s g
  | leaveGame => exact leaveGame_effect s
  | shutdown => exact shutdown_effect s

/-- Everything present evidence can do. -/
inductive Observed (s : Coordinator) (evidence : PresentEvidence) : Coordinator → Prop
  | unchanged : Observed s evidence s
  | deferred (hv : s.isPresentShapeValid evidence = true) (hd : (observes s evidence).1 = true)
      (hg : s.gamePresented = false) :
      Observed s evidence
        { s with
          pendingPresent := true
          pendingPresentEvidence := evidence
          revision := s.revision + 1 }
  | presented (hv : s.isPresentShapeValid evidence = true) (hi : (observes s evidence).2 = true)
      (hg : s.gamePresented = false) :
      Observed s evidence
        { s with
          gamePresented := true
          firstPresentedFrame := evidence.frameSerial
          revision := s.revision + 1 }

theorem recordGamePresent_observed (s : Coordinator) (evidence : PresentEvidence) :
    Observed s evidence (recordGamePresent s evidence).1 := by
  unfold recordGamePresent
  dsimp only
  split_ifs with h1 h2 h3 h4 h5
  · exact .unchanged
  · exact .unchanged
  · exact .unchanged
  · exact .unchanged
  · exact .deferred (by simpa using h1) h4 (by simpa using h3)
  all_goals
    refine .presented (by simpa using h1) ?_ (by simpa using h3)
    simpa [h4] using h2

end Nightcap.Session
