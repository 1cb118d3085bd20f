import Nightcap.Status
import Nightcap.Lib.Ascii
import Nightcap.Lib.Threads

/-! The web windows the game opens on the host: the slot that tracks one of them, and the events
that tell the game of the focus and of closed windows. -/
namespace Nightcap.WebView

open Transition Threads Ascii Utf8

/-! Requests. -/

inductive OpenSource
  | kMessageBus
  | kDataModelNotification
  | kNativeOverlay
  | kWebActivity
  | kCaptcha
deriving DecidableEq

/-- What `DispatchOpenRequest` reads and sets of a `RobloxWebViewOpenRequest`. -/
structure RobloxWebViewOpenRequest where
  url : Bytes
  title : Bytes := []
  isVisible : Option Bool := none
  closeWhenChallengeSolved : Bool := false
deriving DecidableEq

def kMaximumRobloxWebViewUrlBytes : Nat := 16 * 1024
def kBrowserLoginUrl : Bytes := bytes "https://www.roblox.com/login"

def startsWithIgnoreCase (text head : Bytes) : Bool := (lower head).isPrefixOf (lower text)

/-- What `IsLoginChallengeUrl` takes off the front of an URL. -/
def challengeHosts : List Bytes :=
  ["https://www.roblox.com/", "https://roblox.com/", "https://apis.roblox.com/",
    "https://arkose.roblox.com/",
    "www:"].map bytes

def kChallengePrefixes : List Bytes :=
  ["captcha", "view-generic-challenge", "generic-challenge",
    "login/challenge", "challenge", "arkose",
    "login/twostepverification", "twostepverification", "login/two-step-verification",
    "two-step-verification", "reauthenticate"].map bytes

def normalizedChallengeUrl (url : Bytes) : Bytes :=
  match challengeHosts.find? (startsWithIgnoreCase url) with
  | some host => url.drop host.length
  | none => if url.head? = some (chr '/') then url.tail else url

def isLoginChallengeUrl (url : Bytes) : Bool :=
  let normalized := normalizedChallengeUrl url
  kChallengePrefixes.any fun head =>
    startsWithIgnoreCase normalized head &&
      (normalized.drop head.length).head?.all fun b => is '/' b || is '?' b || is '#' b

/-- `nativeLogin` is the value of `MOCKTAIL_NATIVE_LOGIN`. -/
def browserLoginFallback (nativeLogin : Option String)
    (request : RobloxWebViewOpenRequest) : Bool :=
  nativeLogin == some "0" && isLoginChallengeUrl request.url

/-- A verification is presented at once, or replaced by the sign-in of the browser. -/
def present (nativeLogin : Option String) (request : RobloxWebViewOpenRequest) :
    RobloxWebViewOpenRequest :=
  let visible :=
    if isLoginChallengeUrl request.url then
      { request with
        isVisible := some true
        title := if request.title.isEmpty then bytes "Roblox verification" else request.title }
    else request
  if browserLoginFallback nativeLogin request then
    { visible with url := kBrowserLoginUrl, title := bytes "Roblox sign in" }
  else visible

/-! Windows and their events. -/

structure HostWindow where
  generation : Nat
  source : OpenSource
deriving DecidableEq

/-- Whether a window takes the focus from the game. -/
def OpenSource.takesFocus : OpenSource → Bool
  | .kDataModelNotification | .kWebActivity | .kCaptcha => true
  | _ => false

inductive HostWindowEventType
  | kDataModelUnfocused
  | kDataModelFocused
  | kMessageBusWindowClose
  | kStartConversationWithUser
deriving DecidableEq

/-- What the exit of a window is reported by. -/
def closeEvent : OpenSource → Option HostWindowEventType
  | .kDataModelNotification | .kWebActivity | .kCaptcha => some .kDataModelFocused
  | .kMessageBus => some .kMessageBusWindowClose
  | .kNativeOverlay => none

structure PendingHostWindowEvent where
  type : HostWindowEventType
  generation : Nat := 0
  userId : Bytes := []
deriving DecidableEq

def kMaximumPendingHostWindowEvents : Nat := 256

structure HostWindowCloseTarget where
  activeGeneration : Nat := 0
  activeSource : OpenSource := .kMessageBus
  closeQueued : Bool := false
  browserLoginFallback : Bool := false
deriving DecidableEq

/-- An exit that was reported, and whether the window was still the tracked one. -/
structure WindowExit where
  window : HostWindow
  tracked : Bool
deriving DecidableEq

structure Shared where
  target : HostWindowCloseTarget := {}
  nextHostWindowGeneration : Nat := 1
  pendingHostWindowEvents : List PendingHostWindowEvent := []
  /-- What has happened, which is not in the code: the windows with a generation, those the slot has
  tracked, those the sink has accepted, the exits, the events queued and those the game was told. -/
  begun : List HostWindow := []
  tracks : List HostWindow := []
  accepted : List HostWindow := []
  exits : List WindowExit := []
  queued : List PendingHostWindowEvent := []
  told : List PendingHostWindowEvent := []

namespace Shared

variable (s : Shared)

/-- An accepted window that has not exited. -/
def Running (w : HostWindow) : Prop := w ∈ s.accepted ∧ ∀ e ∈ s.exits, e.window ≠ w

instance (w : HostWindow) : Decidable (s.Running w) := inferInstanceAs (Decidable (_ ∧ _))

def push (event : PendingHostWindowEvent) : Shared :=
  let pending := s.pendingHostWindowEvents
  { s with
    pendingHostWindowEvents :=
      (if pending.length = kMaximumPendingHostWindowEvents then pending.tail
        else pending) ++ [event]
    queued := s.queued ++ [event] }

def queueHostWindowEvent (type : HostWindowEventType) (generation : Nat) : Shared :=
  if generation = 0 then s else s.push { type, generation }

def queueStartConversation (userId : Bytes) : Shared :=
  s.push { type := .kStartConversationWithUser, userId }

/-- `HostWindowExited`. The event is queued under the target's mutex: what only takes the events'
mutex does not read the target, so this is one step. -/
def hostWindowExited (w : HostWindow) : Shared :=
  let tracked := s.target.activeGeneration == w.generation && !s.target.closeQueued
  let s := { s with exits := s.exits ++ [⟨w, tracked⟩] }
  if !tracked then s
  else
    match closeEvent s.target.activeSource with
    | some type =>
      { s with target :=
        { s.target with closeQueued := true } }.queueHostWindowEvent type w.generation
    | none =>
      { s with target := { s.target with activeGeneration := 0, browserLoginFallback := false } }

/-- The section of `DispatchOpenRequest` before the sink is called. -/
def track (w : HostWindow) (fallback : Bool) : Shared :=
  { s with target := ⟨w.generation, w.source, false, fallback⟩, tracks := s.tracks ++ [w] }

/-- Its section after the sink refused. -/
def restore (w : HostWindow) (previous : HostWindowCloseTarget) : Shared :=
  if s.target.activeGeneration = w.generation then { s with target := previous } else s

/-- The section of `DrainHostWindowEvents` after the game was told of a closed window. -/
def clearActive (event : PendingHostWindowEvent) : Shared :=
  if s.target.activeGeneration = event.generation then
    { s with target := { s.target with
      activeGeneration := 0, closeQueued := false, browserLoginFallback := false } }
  else s

end Shared

/-- Where a thread is: the section or the call out of the bridge it enters next. -/
inductive Place
  | returned (status : Status)
  | track (w : HostWindow) (request : RobloxWebViewOpenRequest) (fallback : Bool)
  | dispatchOpen (w : HostWindow) (request : RobloxWebViewOpenRequest)
    (previous : HostWindowCloseTarget)
  | queueUnfocused (w : HostWindow)
  | restore (w : HostWindow) (previous : HostWindowCloseTarget) (status : Status)
  | acquire (events : List PendingHostWindowEvent)
  | deliver (event : PendingHostWindowEvent) (rest : List PendingHostWindowEvent)
  | clearActive (event : PendingHostWindowEvent) (rest : List PendingHostWindowEvent)
  | putBack (events : List PendingHostWindowEvent) (status : Status)

inductive Call
  | dispatchOpenRequest (request : RobloxWebViewOpenRequest) (source : OpenSource)
  | hostWindowExited (w : HostWindow)
  | queueStartConversation (userId : Bytes)
  | drainHostWindowEvents

/-- What the sink, the provider of the `JNIEnv` and the game's own calls answer. -/
structure Answers where
  sink : Status := {}
  acquire : Status := {}
  jni : Status := {}

inductive Act
  | call (c : Call)
  | step (answers : Answers)

/-- The bridge is initialised: `BeginDispatch` succeeds. -/
def begin (nativeLogin : Option String) (s : Shared) : Call → Shared × Place
  | .dispatchOpenRequest request source =>
    let presented := present nativeLogin request
    if presented.url.isEmpty || presented.url.length > kMaximumRobloxWebViewUrlBytes then
      (s, .returned (invalidArgument "WebView host-window URL is invalid"))
    else
      let w : HostWindow := ⟨s.nextHostWindowGeneration, source⟩
      ({ s with
          nextHostWindowGeneration := s.nextHostWindowGeneration + 1, begun := s.begun ++ [w] },
        .track w { presented with closeWhenChallengeSolved := source == .kCaptcha }
          (browserLoginFallback nativeLogin request))
  | .hostWindowExited w => (s.hostWindowExited w, .returned {})
  | .queueStartConversation userId => (s.queueStartConversation userId, .returned {})
  | .drainHostWindowEvents =>
    ({ s with pendingHostWindowEvents := [] },
      if s.pendingHostWindowEvents.isEmpty then .returned {}
      else .acquire s.pendingHostWindowEvents)

/-- The head of the loop over the events. -/
def next : List PendingHostWindowEvent → Place
  | [] => .returned {}
  | event :: rest => .deliver event rest

def continueCall (s : Shared) (answers : Answers) : Place → Option (Shared × Place)
  | .returned _ => none
  | .track w request fallback => some (s.track w fallback, .dispatchOpen w request s.target)
  | .dispatchOpen w _ previous =>
    if answers.sink.isOk then
      some ({ s with accepted := s.accepted ++ [w] },
        if w.source.takesFocus then .queueUnfocused w else .returned {})
    else some (s, .restore w previous answers.sink)
  | .queueUnfocused w =>
    some (s.queueHostWindowEvent .kDataModelUnfocused w.generation, .returned {})
  | .restore w previous status => some (s.restore w previous, .returned status)
  | .acquire events =>
    some (s, if answers.acquire.isOk then WebView.next events else .putBack events answers.acquire)
  | .deliver event rest =>
    let told := { s with told := s.told ++ [event] }
    match event.type with
    -- A conversation that could not be started is dropped.
    | .kStartConversationWithUser => some (told, WebView.next rest)
    | .kDataModelUnfocused =>
      some (if answers.jni.isOk then (told, WebView.next rest)
        else (s, .putBack (event :: rest) answers.jni))
    | _ =>
      some (if answers.jni.isOk then (told, .clearActive event rest)
        else (s, .putBack (event :: rest) answers.jni))
  | .clearActive event rest => some (s.clearActive event, WebView.next rest)
  | .putBack events status =>
    some ({ s with pendingHostWindowEvents := events ++ s.pendingHostWindowEvents },
      .returned status)

variable {τ : Type*} (nativeLogin : Option String)

/-- An accepted window exits once. -/
def act (_ : τ) (s : Shared) (place : Place) : Act → Option (Shared × Place)
  | .call c =>
    match place, c with
    | .returned _, .hostWindowExited w => if s.Running w then some (begin nativeLogin s c) else none
    | .returned _, c => some (begin nativeLogin s c)
    | _, _ => none
  | .step answers => continueCall s answers place

abbrev State (τ : Type*) := System τ Shared Place

variable [DecidableEq τ]

def system : LTS (State τ) (τ × Act) := interleaving {} (.returned {}) (act nativeLogin)

/-! What the code promises. -/

def unfocused (w : HostWindow) : PendingHostWindowEvent := ⟨.kDataModelUnfocused, w.generation, []⟩
def focused (w : HostWindow) : PendingHostWindowEvent := ⟨.kDataModelFocused, w.generation, []⟩
def closed (w : HostWindow) : PendingHostWindowEvent := ⟨.kMessageBusWindowClose, w.generation, []⟩

namespace PendingHostWindowEvent

/-- The events of the focus. -/
def focusEvent (e : PendingHostWindowEvent) : Bool :=
  e.type = .kDataModelUnfocused || e.type = .kDataModelFocused

/-- The events of an exit. -/
def closing (e : PendingHostWindowEvent) : Bool :=
  e.type = .kDataModelFocused || e.type = .kMessageBusWindowClose

end PendingHostWindowEvent

namespace Place

/-- The window of an open that the sink has not accepted. -/
def opening : Place → Option HostWindow
  | track w _ _ | dispatchOpen w _ _ | restore w _ _ => some w
  | _ => none

/-- The window whose `Unfocused` is still to be queued. -/
def unfocusing : Place → Option HostWindow
  | queueUnfocused w => some w
  | _ => none

/-- The events a drain has taken and the game was not told. -/
def held : Place → List PendingHostWindowEvent
  | acquire events | putBack events _ => events
  | deliver event rest => event :: rest
  | clearActive _ rest => rest
  | _ => []

/-- The event of an exit that the slot is about to hear of. -/
def clearing : Place → Option PendingHostWindowEvent
  | clearActive event _ => some event
  | _ => none

end Place

/-- The event of the exit of a window is on its way to the game or to the slot. -/
def Undelivered (st : State τ) (e : PendingHostWindowEvent) : Prop :=
  e ∈ st.shared.pendingHostWindowEvents ∨ ∃ t, e ∈ (st.own t).held ∨ (st.own t).clearing = some e

/-- The window in a slot is still opening on another thread, or running, or its close is on its
way. -/
def Awaited (st : State τ) (t : τ) (target : HostWindowCloseTarget) : Prop :=
  if target.closeQueued then
    ∃ e, e.closing ∧ e.generation = target.activeGeneration ∧ Undelivered st e
  else
    (∃ u w, u ≠ t ∧ (st.own u).opening = some w ∧ w.generation = target.activeGeneration) ∨
      ∃ w, st.shared.Running w ∧ w.generation = target.activeGeneration

/-- A step of a run that the statement covers. -/
structure Covered (st : State τ) (a : τ × Act) : Prop where
  /-- There is room for an event. -/
  room : st.shared.pendingHostWindowEvents.length < kMaximumPendingHostWindowEvents
  /-- No window exits before its own `Unfocused` is queued. -/
  unfocused : ∀ w, a.2 = .call (.hostWindowExited w) → ∀ u, (st.own u).unfocusing ≠ some w
  /-- No refused open puts a window back that has exited, that the game was told is closed or whose
  own open was refused. -/
  restored : ∀ w previous status, st.own a.1 = .restore w previous status →
    st.shared.target.activeGeneration = w.generation → previous.activeGeneration = 0 ∨
      Awaited st a.1 previous
  /-- No drain takes events while another still has some. -/
  drained : a.2 = .call .drainHostWindowEvents → st.shared.pendingHostWindowEvents = [] ∨
    ∀ u, (st.own u).held = []

/-- Every accepted window has exited, every event is delivered and no call is in progress. -/
structure Settled (st : State τ) : Prop where
  returned : ∀ t, ∃ status, st.own t = .returned status
  exited : ∀ w, ¬ st.shared.Running w
  drained : st.shared.pendingHostWindowEvents = []

/-- The slot will report the exit of this window. -/
def Shared.Reports (s : Shared) (w : HostWindow) : Prop :=
  s.target.activeGeneration = w.generation ∧ s.target.activeSource = w.source ∧
    s.target.closeQueued = false

structure Safe (st : State τ) : Prop where
  unfocusedFirst : ∀ before e after, st.shared.told = before ++ e :: after →
    e.type = .kDataModelFocused →
    ∃ w ∈ st.shared.accepted, e = focused w ∧ WebView.unfocused w ∈ before
  unfocusedOnce : ∀ w, st.shared.told.count (WebView.unfocused w) ≤ 1
  focusedOnce : ∀ w, st.shared.told.count (focused w) ≤ 1
  /-- Only a window that a later open has replaced exits unreported. -/
  superseded : ∀ e ∈ st.shared.exits, e.tracked = false →
    ∃ before w after, st.shared.tracks = before ++ e.window :: w :: after
  inactive : Settled st → st.shared.target.activeGeneration = 0
  closedOnce : Settled st → ∀ e ∈ st.shared.exits, e.window.source = .kMessageBus →
    st.shared.told.count (closed e.window) = if e.tracked then 1 else 0
  /-- The last window that took the focus gives it back, unless it was replaced. -/
  focusReturned : Settled st →
    ∀ e, (st.shared.exits.filter (·.window.source.takesFocus)).getLast? = some e →
    e.tracked → ∃ w, (st.shared.told.filter (·.focusEvent)).getLast? = some (focused w)

end Nightcap.WebView
