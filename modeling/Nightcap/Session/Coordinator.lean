import Nightcap.Status

/-! `GameSessionCoordinator`: its fields, its operations up to and after their native callback, and
`RecordGamePresent`. -/
namespace Nightcap.Session

inductive PrincipalKind
  | localGuest
  | authenticated
deriving DecidableEq

structure Principal where
  kind : PrincipalKind := .localGuest
  generation : UInt64 := 0
  principalId : String := ""
  baseUrl : String := ""
deriving DecidableEq

structure JoinRequest where
  requestId : UInt64 := 0
  placeId : Int64 := 0
  launchParameters : String := ""
deriving DecidableEq

structure Surface where
  generation : UInt64 := 0
  nativeWindow : UInt64 := 0
  width : UInt32 := 0
  height : UInt32 := 0
  dpiScale : Float32 := 0

inductive PresentBackend
  | unknown
  | vulkan
  | openGlEs
deriving DecidableEq

structure PresentEvidence where
  surfaceGeneration : UInt64 := 0
  frameSerial : UInt64 := 0
  backend : PresentBackend := .unknown
  presentSucceeded : Bool := false
deriving DecidableEq

/-- Which entries of the capability table are not null. -/
structure Capabilities where
  setGameForeground : Bool
  startGame : Bool
  updateSurface : Bool
  pauseGame : Bool
  resumeGame : Bool
  leaveGame : Bool
  shutdownRuntime : Bool

def Capabilities.complete (c : Capabilities) : Bool :=
  c.setGameForeground && c.startGame && c.updateSurface && c.pauseGame && c.resumeGame &&
    c.leaveGame && c.shutdownRuntime

structure Requirements where
  requiredPresentBackend : PresentBackend := .vulkan

inductive State
  | created
  | principalReady
  | joinRequestQueued
  | preparingSurface
  | surfaceCreated
  | surfaceAvailable
  | starting
  | running
  | updatingSurface
  | pausing
  | paused
  | resuming
  | leaving
  | returnedToLuaApp
  | failure
  | stopping
  | stopped
deriving DecidableEq

def State.name : State → String
  | .created => "Created"
  | .principalReady => "PrincipalReady"
  | .joinRequestQueued => "JoinRequestQueued"
  | .preparingSurface => "PreparingSurface"
  | .surfaceCreated => "SurfaceCreated"
  | .surfaceAvailable => "SurfaceAvailable"
  | .starting => "Starting"
  | .running => "Running"
  | .updatingSurface => "UpdatingSurface"
  | .pausing => "Pausing"
  | .paused => "Paused"
  | .resuming => "Resuming"
  | .leaving => "Leaving"
  | .returnedToLuaApp => "ReturnedToLuaApp"
  | .failure => "Failure"
  | .stopping => "Stopping"
  | .stopped => "Stopped"

inductive UpdateStatus
  | applied
  | duplicate
  | rejected
deriving DecidableEq

structure UpdateResult where
  status : UpdateStatus
  state : State
  cause : Status
  message : String

structure Coordinator where
  capabilities : Capabilities
  requirements : Requirements
  state : State := .created
  revision : UInt64 := 0
  principalReady : Bool := false
  joinRequestQueued : Bool := false
  surfaceCreated : Bool := false
  pendingSurfaceAvailable : Bool := false
  activeSurfaceAvailable : Bool := false
  initialStartCompleted : Bool := false
  gamePaused : Bool := false
  pendingPresent : Bool := false
  gamePresented : Bool := false
  returnedToLuaApp : Bool := false
  shutdownAttempted : Bool := false
  preparedSurfaceGeneration : UInt64 := 0
  lastDestroyedSurfaceGeneration : UInt64 := 0
  principal : Principal := {}
  request : JoinRequest := {}
  pendingSurface : Surface := {}
  activeSurface : Surface := {}
  pendingPresentEvidence : PresentEvidence := {}
  firstPresentedFrame : UInt64 := 0
  failureReason : String := ""

/-- The native boundary, with the arguments each callback receives. -/
inductive Callback
  | setGameForeground
  | startGame (principal : Principal) (request : JoinRequest) (surface : Surface)
  | updateSurface (surface : Surface)
  | pauseGame
  | resumeGame (surface : Surface)
  | leaveGame
  | shutdownRuntime

/-- Where an operation picks up once its callback has returned. -/
inductive Continuation
  | foregrounded (surfaceGeneration : UInt64)
  | started (acceptedMessage : String)
  | updated
  | paused
  | resumed
  | left
  | stopped

/-- An operation either returns at once or drops the lock to invoke one callback. -/
inductive Outcome
  | returned (s : Coordinator) (result : UpdateResult)
  | calls (s : Coordinator) (callback : Callback) (continuation : Continuation)

def validPrincipal (principal : Principal) : Bool :=
  if principal.generation == 0 || principal.baseUrl.isEmpty then false
  else if principal.kind == .authenticated then !principal.principalId.isEmpty
  else principal.kind == .localGuest && principal.principalId.isEmpty

def validRequest (request : JoinRequest) : Bool :=
  request.requestId != 0 && decide (0 ≤ request.placeId) && !request.launchParameters.isEmpty

def validSurface (surface : Surface) : Bool :=
  surface.generation != 0 && surface.nativeWindow != 0 && surface.width != 0 && surface.height != 0

def samePrincipal (left right : Principal) : Bool :=
  left.kind == right.kind && left.generation == right.generation &&
    left.principalId == right.principalId && left.baseUrl == right.baseUrl

def sameRequest (left right : JoinRequest) : Bool :=
  left.requestId == right.requestId && left.placeId == right.placeId &&
    left.launchParameters == right.launchParameters

def sameSurface (left right : Surface) : Bool :=
  left.generation == right.generation && left.nativeWindow == right.nativeWindow &&
    left.width == right.width && left.height == right.height && left.dpiScale == right.dpiScale

namespace Coordinator

def isForwardTerminal (s : Coordinator) : Bool :=
  s.state == .failure || s.state == .returnedToLuaApp || s.state == .stopping ||
    s.state == .stopped

def preStartState (s : Coordinator) : State :=
  if s.pendingSurfaceAvailable then .surfaceAvailable
  else if s.joinRequestQueued then .joinRequestQueued
  else if s.surfaceCreated then .surfaceCreated
  else .principalReady

def isPresentShapeValid (s : Coordinator) (evidence : PresentEvidence) : Bool :=
  evidence.presentSucceeded && evidence.frameSerial != 0 && evidence.surfaceGeneration != 0 &&
    evidence.backend != .unknown &&
    (s.requirements.requiredPresentBackend == .unknown ||
      evidence.backend == s.requirements.requiredPresentBackend)

/-- `state_ = state; ++revision_`. -/
def enter (s : Coordinator) (state : State) : Coordinator :=
  { s with state, revision := s.revision + 1 }

def applyLocked (s : Coordinator) (state : State) (message : String) : Coordinator × UpdateResult :=
  (s.enter state, ⟨.applied, state, {}, message⟩)

def duplicateLocked (s : Coordinator) (message : String) : Coordinator × UpdateResult :=
  (s, ⟨.duplicate, s.state, {}, message⟩)

def rejectLocked (s : Coordinator) (cause : Status) (message : String) :
    Coordinator × UpdateResult :=
  (s, ⟨.rejected, s.state, cause, message⟩)

def rejectTerminalLocked (s : Coordinator) (operation : String) : Coordinator × UpdateResult :=
  let message := operation ++ " rejected in state " ++ s.state.name
  s.rejectLocked (failedPrecondition message) message

def failureText (cause : Status) (message : String) : String :=
  if cause.message.isEmpty then message else message ++ ": " ++ cause.message

def failLocked (s : Coordinator) (cause : Status) (message : String) : Coordinator × UpdateResult :=
  let reason := failureText cause message
  ({ s with failureReason := reason }.enter .failure, ⟨.rejected, .failure, cause, reason⟩)

def discardPendingSurface (s : Coordinator) : Coordinator :=
  { s with pendingSurfaceAvailable := false, pendingSurface := {} }

def discardPendingPresent (s : Coordinator) : Coordinator :=
  { s with pendingPresent := false, pendingPresentEvidence := {} }

def promotePendingSurface (s : Coordinator) : Coordinator :=
  { s with activeSurface := s.pendingSurface, activeSurfaceAvailable := true }.discardPendingSurface

def commitPendingPresent (s : Coordinator) : Coordinator :=
  let s :=
    if s.pendingPresent && !s.gamePresented then
      { s with
        gamePresented := true
        firstPresentedFrame := s.pendingPresentEvidence.frameSerial
        revision := s.revision + 1 }
    else s
  s.discardPendingPresent

def offerSurface (s : Coordinator) (surface : Surface) : Coordinator :=
  { s with pendingSurface := surface, pendingSurfaceAvailable := true }

/-- No surface is created or prepared any more. -/
def dropPreparedSurface (s : Coordinator) : Coordinator :=
  { s with surfaceCreated := false, preparedSurfaceGeneration := 0 }

/-- What leaving and stopping both clear. -/
def releaseSurfaces (s : Coordinator) : Coordinator :=
  { s.dropPreparedSurface with
    activeSurfaceAvailable := false
    gamePaused := false }.discardPendingSurface.discardPendingPresent

end Coordinator

open Coordinator

/-- The operation is over. -/
def done (r : Coordinator × UpdateResult) : Outcome := .returned r.1 r.2

def setPrincipal (s : Coordinator) (principal : Principal) : Outcome :=
  if s.principalReady then
    if samePrincipal s.principal principal then
      done (s.duplicateLocked "game-session principal already accepted")
    else if s.isForwardTerminal then done (s.rejectTerminalLocked "replace game-session principal")
    else
      done (s.failLocked (failedPrecondition "game-session principal replacement is forbidden")
        "conflicting game-session principal")
  else if s.isForwardTerminal then done (s.rejectTerminalLocked "set game-session principal")
  else if s.state != .created then
    done (s.failLocked (failedPrecondition "principal must be set first") "invalid principal order")
  else if !s.capabilities.complete then
    done (s.failLocked ⟨.unavailable, "game-session capability table is incomplete"⟩
      "cannot accept principal without complete native capabilities")
  else if !validPrincipal principal then
    done (s.failLocked
      (invalidArgument ("principal generation and base URL are required; " ++
        "authenticated principals also require an ID"))
      "invalid game-session principal")
  else
    done ({ s with principal, principalReady := true }.applyLocked .principalReady
      "game-session principal accepted")

def startIfReady (s : Coordinator) (acceptedMessage : String) : Outcome :=
  if !s.principalReady || !s.joinRequestQueued || !s.surfaceCreated ||
      !s.pendingSurfaceAvailable || s.initialStartCompleted then
    done (s.failLocked (failedPrecondition "initial StartGame prerequisites are incomplete")
      "internal start precondition rejected")
  else
    .calls (s.enter .starting).discardPendingPresent
      (.startGame s.principal s.request s.pendingSurface) (.started acceptedMessage)

def queueJoinRequest (s : Coordinator) (request : JoinRequest) : Outcome :=
  if s.joinRequestQueued then
    if sameRequest s.request request then
      done (s.duplicateLocked "game join request already queued")
    else if s.isForwardTerminal then done (s.rejectTerminalLocked "replace game join request")
    else
      done (s.failLocked (failedPrecondition "queued game join request is immutable")
        "conflicting game join request")
  else if s.isForwardTerminal then done (s.rejectTerminalLocked "queue game join request")
  else if !s.principalReady then
    done (s.failLocked (failedPrecondition "game-session principal is required before join")
      "game join request arrived before principal")
  else if !validRequest request then
    done (s.failLocked (invalidArgument "request ID and launch parameters are required")
      "invalid game join request")
  else if request.placeId != 0 && s.principal.kind != .authenticated then
    done (s.failLocked
      (failedPrecondition "authenticated principal is required for a network game join")
      "local guest attempted a non-local game join")
  else
    let s := { s with request, joinRequestQueued := true }
    if !s.pendingSurfaceAvailable then
      done (s.applyLocked .joinRequestQueued
        "game join request queued; waiting for changed surface")
    else startIfReady s "game join request completed start prerequisites"

/-- `SurfaceCreated` past its checks: foreground the game first. -/
def prepareSurface (s : Coordinator) (surfaceGeneration : UInt64) : Outcome :=
  .calls (s.enter .preparingSurface) .setGameForeground (.foregrounded surfaceGeneration)

def surfaceCreated (s : Coordinator) (surfaceGeneration : UInt64) : Outcome :=
  if s.surfaceCreated && surfaceGeneration != 0 &&
      surfaceGeneration == s.preparedSurfaceGeneration then
    done (s.duplicateLocked "surface generation is already prepared")
  else if s.isForwardTerminal then done (s.rejectTerminalLocked "create game surface")
  else if !s.principalReady then
    done (s.failLocked
      (failedPrecondition "game-session principal is required before surface events")
      "SurfaceCreated arrived before principal")
  else if surfaceGeneration == 0 then
    done (s.failLocked (invalidArgument "surface generation is required") "invalid created surface")
  else if s.initialStartCompleted then
    if s.state != .paused then
      done (s.failLocked
        (failedPrecondition "a new surface can be prepared only after the game pauses")
        "SurfaceCreated arrived while game was not paused")
    else if surfaceGeneration == s.activeSurface.generation ||
        surfaceGeneration == s.lastDestroyedSurfaceGeneration then
      done (s.failLocked (invalidArgument "recreated surface requires a new lifetime generation")
        "paused game received stale SurfaceCreated generation")
    else prepareSurface s surfaceGeneration
  else if s.surfaceCreated then
    done (s.failLocked
      (failedPrecondition "current prepared surface must be destroyed before replacement")
      "conflicting SurfaceCreated generation")
  else prepareSurface s surfaceGeneration

def updateSurface (s : Coordinator) (surface : Surface) (forceRebind : Bool) : Outcome :=
  if s.isForwardTerminal then done (s.rejectTerminalLocked "change game surface")
  else if !s.principalReady then
    done (s.failLocked
      (failedPrecondition "game-session principal is required before surface events")
      "SurfaceChanged arrived before principal")
  else if !validSurface surface then
    done (s.failLocked
      (invalidArgument "surface generation, native window and dimensions are required")
      "invalid changed surface")
  else if !s.surfaceCreated || surface.generation != s.preparedSurfaceGeneration then
    done (s.failLocked
      (failedPrecondition "SurfaceChanged requires a matching successful SurfaceCreated")
      "unprepared SurfaceChanged generation")
  else if !s.initialStartCompleted then
    if s.pendingSurfaceAvailable && sameSurface s.pendingSurface surface then
      done (s.duplicateLocked "initial candidate surface already current")
    else
      let s := s.offerSurface surface
      if !s.joinRequestQueued then
        done (s.applyLocked .surfaceAvailable "changed surface accepted; waiting for join request")
      else startIfReady s "changed surface completed start prerequisites"
  else if s.state == .paused then
    .calls ((s.offerSurface surface).discardPendingPresent.enter .resuming) (.resumeGame surface)
      .resumed
  else if s.state != .running then
    done (s.failLocked (failedPrecondition "surface update requires a running game")
      "invalid SurfaceChanged order")
  else if !forceRebind && s.activeSurfaceAvailable && sameSurface s.activeSurface surface then
    done (s.duplicateLocked "running game surface already current")
  else
    .calls ((s.offerSurface surface).discardPendingPresent.enter .updatingSurface)
      (.updateSurface surface) .updated

/-- `SurfaceDestroyed` before the initial start. -/
def destroyCandidate (s : Coordinator) (surfaceGeneration : UInt64) : Outcome :=
  let matchesPrepared := s.surfaceCreated && surfaceGeneration == s.preparedSurfaceGeneration
  let matchesCandidate :=
    s.pendingSurfaceAvailable && surfaceGeneration == s.pendingSurface.generation
  if !matchesPrepared && !matchesCandidate then
    done (s.failLocked (failedPrecondition "destroyed surface was never prepared")
      "unknown pre-start SurfaceDestroyed generation")
  else
    let s := { s.dropPreparedSurface with
      lastDestroyedSurfaceGeneration := surfaceGeneration
      }.discardPendingSurface.discardPendingPresent
    done (s.applyLocked s.preStartState "unused pre-start surface destroyed")

def surfaceDestroyed (s : Coordinator) (surfaceGeneration : UInt64) : Outcome :=
  if !s.surfaceCreated && !s.pendingSurfaceAvailable && !s.activeSurfaceAvailable &&
      surfaceGeneration != 0 && surfaceGeneration == s.lastDestroyedSurfaceGeneration then
    done (s.duplicateLocked "surface generation is already destroyed")
  else if s.isForwardTerminal then done (s.rejectTerminalLocked "destroy game surface")
  else if surfaceGeneration == 0 then
    done (s.failLocked (invalidArgument "surface generation is required")
      "invalid destroyed surface")
  else if !s.initialStartCompleted then destroyCandidate s surfaceGeneration
  else if s.state != .running || !s.activeSurfaceAvailable then
    done (s.failLocked (failedPrecondition "SurfaceDestroyed requires an active running game")
      "invalid SurfaceDestroyed order")
  else if surfaceGeneration != s.activeSurface.generation then
    done (s.failLocked (failedPrecondition "destroyed surface is not the active surface")
      "conflicting SurfaceDestroyed generation")
  else
    -- Host destruction is a fact before PauseGame runs, whatever that callback returns.
    let s := { s.dropPreparedSurface with
      activeSurfaceAvailable := false
      lastDestroyedSurfaceGeneration := surfaceGeneration
      }.discardPendingSurface.discardPendingPresent
    .calls (s.enter .pausing) .pauseGame .paused

def leaveGame (s : Coordinator) : Outcome :=
  if s.returnedToLuaApp then done (s.duplicateLocked "game already returned to LuaApp")
  else if s.isForwardTerminal then done (s.rejectTerminalLocked "leave game")
  else if !s.initialStartCompleted || (s.state != .running && s.state != .paused) then
    done (s.failLocked (failedPrecondition "LeaveGame requires a started game")
      "game leave arrived before initial start")
  else .calls (s.enter .leaving) .leaveGame .left

def shutdown (s : Coordinator) : Outcome :=
  if s.state == .stopped then done (s.duplicateLocked "game runtime is already stopped")
  else if s.shutdownAttempted then
    done (s.rejectLocked
      (failedPrecondition "a failed shutdown is not retried after possible side effects")
      "game runtime shutdown was already attempted")
  else if !s.capabilities.shutdownRuntime then
    done (s.failLocked ⟨.unavailable, "ShutdownGameRuntime capability is missing"⟩
      "cannot stop game runtime")
  else .calls ({ s with shutdownAttempted := true }.enter .stopping) .shutdownRuntime .stopped

/-- The lifecycle operations, which `operation_mutex_` serialises. -/
inductive Operation
  | setPrincipal (principal : Principal)
  | queueJoinRequest (request : JoinRequest)
  | surfaceCreated (surfaceGeneration : UInt64)
  | surfaceChanged (surface : Surface)
  | rebindSurface (surface : Surface)
  | surfaceDestroyed (surfaceGeneration : UInt64)
  | leaveGame
  | shutdown

def begin (s : Coordinator) : Operation → Outcome
  | .setPrincipal principal => setPrincipal s principal
  | .queueJoinRequest request => queueJoinRequest s request
  | .surfaceCreated surfaceGeneration => surfaceCreated s surfaceGeneration
  | .surfaceChanged surface => updateSurface s surface false
  | .rebindSurface surface => updateSurface s surface true
  | .surfaceDestroyed surfaceGeneration => surfaceDestroyed s surfaceGeneration
  | .leaveGame => leaveGame s
  | .shutdown => shutdown s

/-- The rest of an operation, from the moment it holds `mutex_` again. -/
def finish (s : Coordinator) (continuation : Continuation) (status : Status) :
    Coordinator × UpdateResult :=
  match continuation with
  | .foregrounded surfaceGeneration =>
    if !status.isOk then s.failLocked status "ES.onSurfaceCreated foreground callback failed"
    else
      let s := { s with surfaceCreated := true, preparedSurfaceGeneration := surfaceGeneration }
      s.applyLocked (if s.initialStartCompleted then .paused else s.preStartState)
        "surface generation prepared and game foregrounded"
  | .started acceptedMessage =>
    if !status.isOk then
      s.discardPendingSurface.discardPendingPresent.failLocked status "StartGame callback failed"
    else
      { s.promotePendingSurface with
        initialStartCompleted := true
        gamePaused := false }.commitPendingPresent.applyLocked .running
        (acceptedMessage ++ "; initial game started without ResumeGame")
  | .updated =>
    if !status.isOk then
      s.discardPendingSurface.discardPendingPresent.failLocked status
        "UpdateSurfaceGame callback failed"
    else
      s.promotePendingSurface.commitPendingPresent.applyLocked .running
        "running game surface updated"
  | .paused =>
    if !status.isOk then s.failLocked status "PauseGame callback failed"
    else { s with gamePaused := true }.applyLocked .paused "game paused after surface destruction"
  | .resumed =>
    if !status.isOk then
      s.discardPendingSurface.discardPendingPresent.failLocked status "ResumeGame callback failed"
    else
      { s.promotePendingSurface with gamePaused := false }.commitPendingPresent.applyLocked .running
        "game resumed with recreated surface"
  | .left =>
    if !status.isOk then s.failLocked status "LeaveGame callback failed"
    else
      { s with returnedToLuaApp := true }.releaseSurfaces.applyLocked .returnedToLuaApp
        "game returned to LuaApp; app runtime remains alive"
  | .stopped =>
    if !status.isOk then s.failLocked status "ShutdownGameRuntime callback failed"
    else s.releaseSurfaces.applyLocked .stopped "entire game app runtime stopped"

/-- Whether evidence is deferred until the native transition succeeds, and whether it counts now. -/
def observes (s : Coordinator) (evidence : PresentEvidence) : Bool × Bool :=
  let matchesPending :=
    s.pendingSurfaceAvailable && evidence.surfaceGeneration == s.pendingSurface.generation
  let matchesActive :=
    s.activeSurface.generation != 0 && evidence.surfaceGeneration == s.activeSurface.generation
  match s.state with
  | .starting | .resuming => (matchesPending, false)
  -- A same-generation resize is still pending until UpdateSurface succeeds.
  | .updatingSurface =>
    (matchesPending, !matchesPending && matchesActive && s.activeSurfaceAvailable)
  | .running => (false, matchesActive && s.activeSurfaceAvailable)
  -- A queued present can arrive after host destruction.
  | .pausing | .paused => (false, matchesActive)
  | _ => (false, false)

def recordGamePresent (s : Coordinator) (evidence : PresentEvidence) : Coordinator × UpdateResult :=
  if !s.isPresentShapeValid evidence then
    s.rejectLocked (invalidArgument "present must succeed with a serial and required backend")
      "malformed or unsupported game present evidence"
  else
    let (deferUntilNativeSuccess, immediateObservation) := observes s evidence
    if !deferUntilNativeSuccess && !immediateObservation then
      s.rejectLocked
        (failedPrecondition "present evidence does not match a current or pending surface")
        "stale game present evidence"
    else if s.gamePresented then s.duplicateLocked "real game frame was already presented"
    else if deferUntilNativeSuccess then
      if s.pendingPresent then s.duplicateLocked "game present evidence is already pending"
      else
        ({ s with
            pendingPresent := true
            pendingPresentEvidence := evidence
            revision := s.revision + 1 },
          ⟨.applied, s.state, {}, "game present evidence pending native transition success"⟩)
    else
      ({ s with
          gamePresented := true
          firstPresentedFrame := evidence.frameSerial
          revision := s.revision + 1 },
        ⟨.applied, s.state, {},
          if s.state == .paused then "late last-surface game frame observed while paused"
          else "first real game frame presented"⟩)

end Nightcap.Session
