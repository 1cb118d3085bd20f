import Nightcap.Update.Plan

/-! `RunUpdate`: one run of the native updater, among whatever the world answers to its
questions. -/
namespace Nightcap.Update

inductive CanaryGraphicsBackend
  | directVulkan
  | openGlEs
  | systemEgl
  | angleVulkan
  | angleSwiftShader
deriving DecidableEq

def canaryGraphicsBackendName : CanaryGraphicsBackend → String
  | .directVulkan => "direct-vulkan"
  | .openGlEs => "opengl"
  | .systemEgl => "system"
  | .angleVulkan => "angle-vulkan"
  | .angleSwiftShader => "angle-swiftshader"

structure UpdateRequest where
  startupPreflight : Bool := false
  checkLatest : Bool := true
  runCanary : Bool := true
  downloadOnly : Bool := false
  forceRunLatest : Bool := false
  canaryGraphicsBackend : CanaryGraphicsBackend := .directVulkan
deriving DecidableEq

structure UpdateResult where
  changed : Bool := false
  stale : Bool := false
  payloadId : Option PayloadId := none
  message : String := ""
  warnings : List String := []
  error : String := ""
deriving DecidableEq

/-- What `update.json` keeps from run to run. -/
structure UpdateState where
  phase : String := ""
  metadataStatus : String := ""
  latestSeen : ProviderVersion := {}
  latestDownloaded : ProviderVersion := {}
  downloadedId : Option String := none
  active : Option PayloadId := none
  message : String := ""
  error : String := ""
  stale : Bool := false
deriving DecidableEq

/-! The answers of everything outside this file. -/

/-- The text of a failure. -/
abbrev Failure := { text : String // text ≠ "" }

structure UpdateConfig where
  automatic : Bool := true
  source : String := "apk-pure"
  warnings : List String := []
  error : String := ""

structure Catalog where
  profiles : List SupportedPayloadProfile := []
  error : String := ""

/-- How far reading the payload of `current.json` gets; a hash that cannot be written counts as
`unverified`. -/
inductive Verification
  | unread (error : Failure)
  | identified (versionName : String) (error : Failure)
  | unverified (versionName : String) (error : Failure)
  | verified (versionName librarySha256 : String)

/-- The download of an identity, verified against it; only a staged one has a Build ID. -/
inductive Download
  | refused (error : String)
  | unstaged (error : Failure)
  | staged (buildId : String)

structure Reference where
  library : String := ""
  profile : String := ""
  error : String := ""

def Reference.ok (r : Reference) : Bool :=
  r.error.isEmpty && !r.library.isEmpty && !r.profile.isEmpty

structure Derivation where
  profile : String := ""
  compatibilityManifest : String := ""
  error : String := ""

def Derivation.ok (d : Derivation) : Bool :=
  d.error.isEmpty && !d.profile.isEmpty && !d.compatibilityManifest.isEmpty

structure CanaryResult where
  logPath : String := ""
  exitCode : Int := -1
  spawnError : Int := 0
  teardownCrash : Bool := false
  error : String := ""

def CanaryResult.ok (c : CanaryResult) : Bool :=
  c.error.isEmpty && !c.logPath.isEmpty && (c.exitCode == 0 || c.teardownCrash)

/-- What a promotion that succeeds has read and written. -/
structure Promotion where
  versionName : String
  librarySha256 : String
  hostAbiProfile : String := ""
  compatibilityManifest : String := ""

structure UnsafeLatestRun where
  exitCode : Int := -1
  error : String := ""

def UnsafeLatestRun.ok (r : UnsafeLatestRun) : Bool := r.error.isEmpty && r.exitCode == 0

/-- The answers while one candidate is tried. -/
structure Attempt where
  listing : PayloadListing
  verified : Bool
  download : Download
  rejectedForRuntime : Bool
  reference : Reference
  derivation : Derivation
  canary : Nat → CanaryResult
  promotion : Except Failure Promotion

structure Garbage where
  removed : Nat := 0
  freedBytes : Nat := 0
  error : String := ""

/-- The answers of one run, one for each place that asks. -/
structure Env where
  lock : Option Failure
  stored : UpdateState
  config : UpdateConfig
  catalog : Catalog
  current : Verification
  installed : Verification
  latest : ProviderVersion
  rollback : Except Failure Activation
  rolledBack : Verification
  downloadedListing : PayloadListing
  workspace : Option Failure
  referencePayloadIds : List String
  keepOldPayloads : Bool
  garbage : Garbage
  attempt : Nat → Attempt
  launch : UnsafeLatestRun
  active : Verification

/-! What a run does to the world, and what it did on the way. -/

inductive Event
  | examined (runnable : Option PayloadId)
  | derived (payloadId : Option PayloadId) (ok : Bool)
  | promoting (candidate : Candidate)
  | canary (payloadId : Option PayloadId) (ok : Bool)
  | promoted (activation : Activation)
  | rolledBack (activation : Activation)
  | persisted (activation : Activation)

/-- `current.json`; `history` is never read. -/
structure World where
  current : Option Activation := none
  history : List Event := []

def World.record (w : World) (event : Event) : World := { w with history := w.history ++ [event] }

/-- `current.json` is replaced. -/
def World.promote (w : World) (a : Activation) : World :=
  { w with current := some a }.record (.promoted a)

def World.rollback (w : World) (a : Activation) : World :=
  { w with current := some a }.record (.rolledBack a)

def World.persist (w : World) (a : Activation) : World :=
  { w with current := some a }.record (.persisted a)

/-- `InspectCurrent`, and what `VerifyCurrent` reads of the payload that is current. -/
def readCurrent (current : Option Activation) (v : Verification) : PayloadStoreResult :=
  match current, v with
  | none, .unread error => { error := error.1 }
  | none, _ => { error := "no current payload" }
  | some _, .unread error => { error := error.1 }
  | some a, .identified versionName error =>
    { payloadId := some a.payloadId, versionName, error := error.1 }
  | some a, .unverified versionName error =>
    { payloadId := some a.payloadId, versionName, hostAbiProfile := a.hostAbiProfile
      compatibilityManifest := a.compatibilityManifest, error := error.1 }
  | some a, .verified versionName librarySha256 =>
    if a.payloadSha256.all (· == librarySha256) then
      { payloadId := some a.payloadId, versionName, hostAbiProfile := a.hostAbiProfile
        compatibilityManifest := a.compatibilityManifest }
    else
      { payloadId := some a.payloadId, versionName
        error := "active payload manifest hash does not match payload" }

/-- A manifest without the hash of its library is written again with it. -/
def persistPayloadSha256 (a : Activation) (librarySha256 : String) (w : World) : World :=
  match a.payloadSha256 with
  | some _ => w
  | none => w.persist { a with payloadSha256 := some librarySha256 }

def verifyCurrent (v : Verification) (w : World) : PayloadStoreResult × World :=
  (readCurrent w.current v,
    match w.current, v with
    | some a, .verified _ librarySha256 => persistPayloadSha256 a librarySha256 w
    | _, _ => w)

/-! Candidates. -/

def downloadCandidate (download : Download) (identity : ExpectedPayloadIdentity)
    (exactSupported : Bool) : Candidate :=
  match download with
  | .refused error => { identity, exactSupported, error }
  | .unstaged error =>
    { identity, exactSupported, staged := { error := error.1 }, error := error.1 }
  | .staged buildId =>
    { identity, exactSupported
      staged :=
        { payloadId := some ⟨identity.versionCode, identity.exactBuildId.getD buildId⟩
          versionName := identity.versionName } }

/-- A staged payload of the identity, or a download of it. -/
def stagedOrDownloaded (a : Attempt) (identity : ExpectedPayloadIdentity) (exactSupported : Bool) :
    Candidate :=
  let staged := findStagedCandidate a.listing identity exactSupported a.verified
  if staged.ok then staged else downloadCandidate a.download identity exactSupported

/-- `RunUnsafeLatest`; it does not touch `current.json`. -/
def runUnsafeLatest (e : Env) (request : UpdateRequest) (profiles : List SupportedPayloadProfile) :
    UpdateResult :=
  if request.startupPreflight || !request.checkLatest then
    { error := "unsafe latest launch requires an explicit latest-version check" }
  else if !e.latest.ok then
    { error := "cannot check latest Roblox for unsafe launch: " ++ e.latest.error }
  else
    match e.workspace with
    | some error => { error := error.1 }
    | none =>
      let exact := findSupportedProfile profiles e.latest.versionName e.latest.versionCode
      let candidate :=
        stagedOrDownloaded (e.attempt 0) (planIdentity profiles e.latest) exact.isSome
      if !candidate.ok then
        { error := "cannot prepare latest Roblox for unsafe launch: " ++ candidate.error }
      else if !candidate.exactSupported && !(e.attempt 0).reference.ok then
        { error := "cannot prepare latest Roblox for unsafe launch: " ++
            (e.attempt 0).reference.error }
      else if !candidate.exactSupported && !(e.attempt 0).derivation.ok then
        { error := "cannot derive latest Roblox HostAbi profile: " ++
            (e.attempt 0).derivation.error }
      else if !e.launch.ok then
        { payloadId := candidate.staged.payloadId
          error := "unsafe latest Roblox " ++ candidate.staged.versionName ++
            " did not complete: " ++ e.launch.error }
      else
        { payloadId := candidate.staged.payloadId
          message := "unsafe latest Roblox " ++ candidate.staged.versionName ++
            " exited successfully; active payload was not changed" }

/-! Canaries and promotion. -/

structure CanaryOutcome where
  passed : Bool
  error : String := ""
  retryable : Bool := false

/-- `EAGAIN`. -/
def eagain : Int := 11

/-- The canaries from one index on, up to the first that fails. -/
def runCanaries (canary : Nat → CanaryResult) (candidate : Candidate) :
    Nat → Nat → World → CanaryOutcome × World
  | _, 0, w => ({ passed := true }, w)
  | index, runs + 1, w =>
    let result := canary index
    let w := w.record (.canary candidate.staged.payloadId result.ok)
    if !result.ok then
      ({ passed := false
         error := if result.logPath.isEmpty then result.error
           else result.error ++ "; log: " ++ result.logPath
         retryable := result.spawnError == eagain }, w)
    else runCanaries canary candidate (index + 1) runs w

def runCandidateCanaries (canary : Nat → CanaryResult) (candidate : Candidate) (runCanary : Bool)
    (w : World) : CanaryOutcome × World :=
  if !runCanary then
    if !candidate.exactSupported then
      ({ passed := false
         error := "latest candidate cannot be activated without Tier C probation" }, w)
    else ({ passed := true }, w)
  else runCanaries canary candidate 0 (if candidate.exactSupported then 1 else 2) w

structure PromoteOutcome where
  promoted : PayloadStoreResult := {}
  error : String := ""
  retryable : Bool := false

/-- `Promote` for an exact-supported candidate, `PromoteProbation` for any other. -/
def storePromote (promotion : Except Failure Promotion) (candidate : Candidate) (w : World) :
    PayloadStoreResult × World :=
  match candidate.staged.payloadId, promotion with
  | none, _ => ({ error := "invalid payload ID" }, w)
  | some payloadId, .error error => ({ payloadId := some payloadId, error := error.1 }, w)
  | some payloadId, .ok p =>
    if candidate.exactSupported then
      ({ payloadId := some payloadId, versionName := p.versionName },
        w.promote { payloadId, payloadSha256 := some p.librarySha256 })
    else
      ({ payloadId := some payloadId, versionName := p.versionName
         hostAbiProfile := p.hostAbiProfile, compatibilityManifest := p.compatibilityManifest },
        w.promote ⟨payloadId, p.hostAbiProfile, p.compatibilityManifest, some p.librarySha256⟩)

def promoteCandidate (a : Attempt) (request : UpdateRequest) (candidate : Candidate) (w : World) :
    PromoteOutcome × World :=
  match runCandidateCanaries a.canary candidate request.runCanary
    (w.record (.promoting candidate)) with
  | (canaries, w) =>
    if !canaries.passed then
      ({ error := canaries.error, retryable := canaries.retryable }, w)
    else
      match storePromote a.promotion candidate w with
      | (promoted, w) => ({ promoted, error := if promoted.ok then "" else promoted.error }, w)

/-! The run. -/

/-- What `finish` reads of a run. -/
structure Run where
  result : UpdateResult := {}
  state : UpdateState := {}
  supportedVersionCode : UInt64 := 0

def Run.savePhase (r : Run) (phase : String) : Run := { r with state := { r.state with phase } }

def Run.fail (r : Run) (error : String) : Run := { r with result := { r.result with error } }

/-- Nothing changes: the payload that is current, if any, stays. -/
def Run.keep (r : Run) (current : PayloadStoreResult) (message : String) : Run :=
  { r with result := { r.result with payloadId := current.payloadId, message } }

def finish (e : Env) (r : Run) (w : World) : UpdateResult × UpdateState :=
  let active := readCurrent w.current e.active
  let newest := max r.supportedVersionCode r.state.latestSeen.versionCode
  let stale := active.ok && decide (active.versionCode < newest)
  let result := { r.result with stale }
  let state :=
    { r.state with
      active := if active.ok then active.payloadId else none
      message := result.message
      error := result.error
      stale }
  let phase :=
    if !result.error.isEmpty then "error"
    else if result.changed then (if stale then "blocked" else "current")
    else if state.phase == "checking" then
      if state.metadataStatus == "unavailable" then "metadata-unavailable"
      else if stale then "blocked" else "current"
    else state.phase
  (result, { state with phase })

/-- `CollectSupersededPayloads`: what the message gets. -/
def collectSupersededPayloads (e : Env) : String :=
  if e.keepOldPayloads || !e.garbage.error.isEmpty || e.garbage.removed == 0 then ""
  else "; freed " ++ toString (e.garbage.freedBytes / (1024 * 1024)) ++ " MiB from " ++
    toString e.garbage.removed ++ " superseded payload" ++
    (if e.garbage.removed == 1 then "" else "s")

def planDescription (plan : UpdateCandidatePlan) : String :=
  "Roblox " ++ plan.identity.versionName ++ " (" ++ toString plan.identity.versionCode ++ ")"

/-- A startup or a background check with automatic updates off. -/
def automaticDisabled (e : Env) (request : UpdateRequest) (current : PayloadStoreResult) (r : Run)
    (w : World) : Run × World :=
  let r := r.savePhase "disabled"
  if current.ok || request.downloadOnly then
    (r.keep current "automatic Roblox updates are disabled", w)
  else
    let failure := "no runnable payload is installed and automatic updates are disabled"
    match e.rollback with
    | .error _ => (r.fail failure, w)
    | .ok previous =>
      match verifyCurrent e.rolledBack (w.rollback previous) with
      | (verified, w) =>
        if verified.ok then
          ({ r with
            result := { r.result with
              payloadId := verified.payloadId
              changed := true
              message := "automatic Roblox updates are disabled; using the installed Roblox " ++
                verified.versionName ++ " this version supports" } }, w)
        else (r.fail failure, w)

/-- `CheckLatest`, unless this is a startup: the version, and what the state remembers of it. -/
def checkLatest (e : Env) (request : UpdateRequest) (r : Run) : Option ProviderVersion × Run :=
  let r :=
    if request.startupPreflight then
      { r with state := { r.state with metadataStatus := "deferred" } }
    else r
  if request.checkLatest && !request.startupPreflight then
    if e.latest.ok then
      let state := { r.state with metadataStatus := "available" }
      (some e.latest,
        { r with
          state :=
            if state.latestSeen.versionCode ≤ e.latest.versionCode then
              { state with
                latestSeen :=
                  { versionName := e.latest.versionName, versionCode := e.latest.versionCode } }
            else state })
    else
      (none,
        { r with
          state := { r.state with metadataStatus := "unavailable" }
          result := { r.result with
            warnings := r.result.warnings ++
              ["update metadata is temporarily unavailable: " ++ e.latest.error] } })
  else (none, r)

/-- A newer version that an earlier run downloaded takes the place of the latest one. -/
def preferDownloaded (e : Env) (request : UpdateRequest) (profiles : List SupportedPayloadProfile)
    (current : PayloadStoreResult) (downloaded : ProviderVersion)
    (latest : Option ProviderVersion) : Option ProviderVersion :=
  if downloaded.ok &&
      (match latest with
        | none => true
        | some latest => decide (latest.versionCode < downloaded.versionCode)) &&
      (!request.startupPreflight || current.ok ||
        (findSupportedProfile profiles downloaded.versionName downloaded.versionCode).isSome) &&
      (findStagedCandidate e.downloadedListing ⟨downloaded.versionName,
        downloaded.versionCode, none⟩
        false true).ok then
    some downloaded
  else latest

/-- The candidate a plan stands for. -/
def prepareCandidate (a : Attempt) (installed : PayloadStoreResult) (plan : UpdateCandidatePlan) :
    Candidate :=
  if plan.reuseInstalled then
    { staged := installed, identity := plan.identity, exactSupported := plan.exactSupported
      profile := installed.hostAbiProfile, compatibility := installed.compatibilityManifest }
  else stagedOrDownloaded a plan.identity plan.exactSupported

/-- The candidate is what was last downloaded, unless something newer was. -/
def rememberDownloaded (r : Run) (candidate : Candidate) : Run :=
  if r.state.latestDownloaded.versionCode ≤ candidate.staged.versionCode then
    { r with
      state := { r.state with
        latestDownloaded :=
          { versionName := candidate.staged.versionName
            versionCode := candidate.staged.versionCode }
        downloadedId := candidate.staged.payloadId.map (·.text) } }
  else r

/-- Derives the profile of a candidate that has none; the error is empty when there is none. -/
def deriveCandidate (a : Attempt) (candidate : Candidate) (w : World) :
    (Candidate × String) × World :=
  if !candidate.exactSupported && candidate.profile.isEmpty then
    if !a.reference.ok then ((candidate, a.reference.error), w)
    else
      let w := w.record (.derived candidate.staged.payloadId a.derivation.ok)
      if !a.derivation.ok then ((candidate, a.derivation.error), w)
      else
        (({ candidate with
            profile := a.derivation.profile
            compatibility := a.derivation.compatibilityManifest }, ""), w)
  else ((candidate, ""), w)

/-- How one plan ends: the run is over, or the reason why the next plan is tried. -/
inductive Tried
  | over (r : Run)
  | blocked (r : Run) (reason : String)

def installedMessage (request : UpdateRequest) (candidate : Candidate)
    (promoted : PayloadStoreResult) : String :=
  if candidate.exactSupported then
    "installed exact-supported Roblox " ++ promoted.versionName ++ " (" ++
      toString promoted.versionCode ++ ")"
  else
    "Roblox " ++ promoted.versionName ++ " (" ++ toString promoted.versionCode ++
      ") passed two " ++ canaryGraphicsBackendName request.canaryGraphicsBackend ++
      " graphics canaries and is current"

/-- Derives and promotes a candidate that was prepared and not rejected before. -/
def activate (e : Env) (a : Attempt) (request : UpdateRequest) (current : PayloadStoreResult)
    (plan : UpdateCandidatePlan) (candidate : Candidate) (blocked : String) (r : Run) (w : World) :
    Tried × World :=
  match deriveCandidate a candidate w with
  | ((candidate, error), w) =>
    let outcome :=
      if error.isEmpty then promoteCandidate a request candidate w else ({ error }, w)
    match outcome with
    | (outcome, w) =>
      if outcome.error.isEmpty && outcome.promoted.ok then
        (.over { r with
          result := { r.result with
            changed := !current.ok || current.payloadId != outcome.promoted.payloadId
            payloadId := outcome.promoted.payloadId
            message := installedMessage request candidate outcome.promoted ++
              (if blocked.isEmpty then "" else "; " ++ blocked) ++ collectSupersededPayloads e } },
          w)
      else (.blocked r (planDescription plan ++ " was rejected: " ++ outcome.error), w)

/-- The body of the loop over the plans. -/
def tryPlan (e : Env) (a : Attempt) (request : UpdateRequest)
    (current installed : PayloadStoreResult) (plan : UpdateCandidatePlan) (blocked : String)
    (r : Run) (w : World) : Tried × World :=
  let candidate := prepareCandidate a installed plan
  if !candidate.ok then
    (.blocked (r.savePhase "blocked")
      (planDescription plan ++ " could not be prepared: " ++ candidate.error), w)
  else
    let r := rememberDownloaded r candidate
    let rejected :=
      (request.startupPreflight || request.downloadOnly) && current.ok && a.rejectedForRuntime
    if request.downloadOnly && !rejected then
      (.over ((r.keep current ("Roblox " ++ candidate.staged.versionName ++
        " is downloaded for the next launch")).savePhase "ready"), w)
    else if rejected then
      (.blocked r (planDescription plan ++ " already failed probation with this runtime"), w)
    else activate e a request current plan candidate blocked (r.savePhase "verifying") w

/-- The loop over the plans, numbered from `attempt`. -/
def tryPlans (e : Env) (request : UpdateRequest) (current installed : PayloadStoreResult) :
    Nat → List UpdateCandidatePlan → String → Run → World → Tried × World
  | _, [], blocked, r, w => (.blocked r blocked, w)
  | attempt, plan :: plans, blocked, r, w =>
    match tryPlan e (e.attempt attempt) request current installed plan blocked r w with
    | (.over r, w) => (.over r, w)
    | (.blocked r blocked, w) =>
      tryPlans e request current installed (attempt + 1) plans blocked r w

/-- What is left when no plan was installed. -/
def concludeBlocked (current : PayloadStoreResult) (latest : Option ProviderVersion)
    (blocked : String) (r : Run) : Run :=
  if !current.ok then r.fail ("no Roblox payload could be installed; " ++ blocked)
  else
    let r := (r.savePhase "blocked").keep current
      ("kept Roblox " ++ current.versionName ++ " (" ++ toString current.versionCode ++ "); " ++
        blocked)
    match latest with
    | some latest =>
      if current.versionCode < latest.versionCode then
        { r with
          result := { r.result with
            stale := true
            message := r.result.message ++ "; Roblox " ++ latest.versionName ++
              " is published, so this session can be rejected as outdated" } }
      else r
    | none => r

/-- The candidates, once it is known what the latest version is. -/
def installCandidates (e : Env) (request : UpdateRequest) (preferred : SupportedPayloadProfile)
    (current installed : PayloadStoreResult) (latest : Option ProviderVersion) (r : Run)
    (w : World) : Run × World :=
  let plans := planUpdateCandidates e.catalog.profiles preferred latest current installed
  if plans.isEmpty then
    if !current.ok then (r.fail "no Roblox payload is available to install", w)
    else
      (r.keep current ("installed Roblox " ++ current.versionName ++ " (" ++
        toString current.versionCode ++ ") remains installed"), w)
  else
    match e.workspace with
    | some error => (r.fail error.1, w)
    | none =>
      match tryPlans e request current installed 0 plans "" r w with
      | (.over r, w) => (r, w)
      | (.blocked r blocked, w) => (concludeBlocked current latest blocked r, w)

/-- The part of the run that looks for something newer. -/
def discover (e : Env) (request : UpdateRequest) (preferred : SupportedPayloadProfile)
    (current installed : PayloadStoreResult) (r : Run) (w : World) : Run × World :=
  match checkLatest e request r with
  | (latest, r) =>
    let downloaded := r.state.latestDownloaded
    let latest := preferDownloaded e request e.catalog.profiles current downloaded latest
    if request.downloadOnly && latest.isNone then
      (r.keep current "cannot discover a newer Roblox release", w)
    else
      let nothingNewer :=
        match latest with
        | some latest => decide (latest.versionCode ≤ current.versionCode)
        | none => request.startupPreflight
      if current.ok && nothingNewer && decide (preferred.versionCode ≤ current.versionCode) then
        (r.keep current ("Roblox " ++ current.versionName ++ " is installed" ++
          (if request.downloadOnly then "" else collectSupersededPayloads e)), w)
      else installCandidates e request preferred current installed latest r w

/-- The payload, if it can be run. -/
def PayloadStoreResult.runnable (r : PayloadStoreResult) : Option PayloadId :=
  if r.ok then r.payloadId else none

/-- The payload to derive from when the current one cannot be run. -/
def readInstalled (e : Env) (current : PayloadStoreResult) (w : World) : PayloadStoreResult :=
  if !current.ok && current.payloadId.isSome && !current.hostAbiProfile.isEmpty &&
      !current.compatibilityManifest.isEmpty then
    { current with error := "" }
  else if !current.ok then readCurrent w.current e.installed
  else current

/-- The run once the catalog is loaded. -/
def update (e : Env) (request : UpdateRequest) (preferred : SupportedPayloadProfile) (r : Run)
    (w : World) : Run × World :=
  match
    if request.downloadOnly then (readCurrent w.current e.current, w)
    else verifyCurrent e.current w with
  | (current, w) =>
    let w := w.record (.examined current.runnable)
    let installed := readInstalled e current w
    if request.forceRunLatest then
      ({ r with
        result :=
          { runUnsafeLatest e request e.catalog.profiles with warnings := r.result.warnings } }, w)
    else if !e.config.automatic && (request.startupPreflight || request.downloadOnly) then
      automaticDisabled e request current r w
    else discover e request preferred current installed r w

/-- The run under the update lock, up to `finish`. -/
def underLock (e : Env) (request : UpdateRequest) (w : World) : Run × World :=
  let r : Run :=
    { state := { e.stored with metadataStatus := "unchecked", phase := "checking" }
      result := { warnings := e.config.warnings } }
  if !e.config.error.isEmpty then (r.fail e.config.error, w)
  else if e.config.source != "apk-pure" && e.config.source != "auto" then
    (r.fail "native updater supports only the direct APK providers", w)
  else if !e.catalog.error.isEmpty then (r.fail e.catalog.error, w)
  else
    match preferredSupportedProfile e.catalog.profiles with
    | none => (r.fail "no preferred supported Roblox profile is available", w)
    | some preferred =>
      update e request preferred { r with supportedVersionCode := preferred.versionCode } w

/-- One run; without the lock nothing is read or saved. -/
def runUpdate (e : Env) (request : UpdateRequest) (w : World) :
    (UpdateResult × Option UpdateState) × World :=
  match e.lock with
  | some error => (({ error := error.1 }, none), w)
  | none =>
    match underLock e request w with
    | (r, w) =>
      match finish e r w with
      | (result, state) => ((result, some state), w)

end Nightcap.Update
