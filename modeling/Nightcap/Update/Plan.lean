import Nightcap.Status

/-! What the native updater knows of payloads, and which candidates it tries. -/
namespace Nightcap.Update

/-- A payload ID: its text is the version code, a dash and the Build ID. -/
structure PayloadId where
  versionCode : UInt64
  buildId : String
deriving DecidableEq

def PayloadId.text (id : PayloadId) : String := toString id.versionCode ++ "-" ++ id.buildId

structure ProviderVersion where
  versionName : String := ""
  versionCode : UInt64 := 0
  error : String := ""
deriving DecidableEq

def ProviderVersion.ok (v : ProviderVersion) : Bool :=
  v.error.isEmpty && !v.versionName.isEmpty && decide (0 < v.versionCode)

structure SupportedPayloadProfile where
  versionName : String
  versionCode : UInt64
  elfBuildId : String
deriving DecidableEq

structure ExpectedPayloadIdentity where
  versionName : String := ""
  versionCode : UInt64 := 0
  exactBuildId : Option String := none
deriving DecidableEq

/-- What `current.json` says: a payload, the approval it was promoted with, if any, and the hash
of its library, which older manifests do not have. -/
structure Activation where
  payloadId : PayloadId
  hostAbiProfile : String := ""
  compatibilityManifest : String := ""
  payloadSha256 : Option String := none
deriving DecidableEq

/-- `none` is an empty payload ID. -/
structure PayloadStoreResult where
  payloadId : Option PayloadId := none
  versionName : String := ""
  hostAbiProfile : String := ""
  compatibilityManifest : String := ""
  error : String := ""
deriving DecidableEq

def PayloadStoreResult.ok (r : PayloadStoreResult) : Bool := r.error.isEmpty && r.payloadId.isSome

def PayloadStoreResult.versionCode (r : PayloadStoreResult) : UInt64 :=
  match r.payloadId with
  | some id => id.versionCode
  | none => 0

def exactPayloadIdentity (profile : SupportedPayloadProfile) : ExpectedPayloadIdentity :=
  ⟨profile.versionName, profile.versionCode, some profile.elfBuildId⟩

/-- `std::max_element` by version code: the first of the newest. -/
def preferredSupportedProfile (profiles : List SupportedPayloadProfile) :
    Option SupportedPayloadProfile :=
  profiles.foldl (fun best profile =>
    match best with
    | none => some profile
    | some b => if b.versionCode < profile.versionCode then some profile else some b) none

def findSupportedProfile (profiles : List SupportedPayloadProfile) (versionName : String)
    (versionCode : UInt64) : Option SupportedPayloadProfile :=
  profiles.find? fun profile => profile.versionName == versionName &&
    (versionCode == 0 || profile.versionCode == versionCode)

structure UpdateCandidatePlan where
  identity : ExpectedPayloadIdentity := {}
  exactSupported : Bool := false
  reuseInstalled : Bool := false
  origin : String := ""
deriving DecidableEq

/-- The identity of a version, with the Build ID of its supported profile if there is one. -/
def planIdentity (profiles : List SupportedPayloadProfile) (version : ProviderVersion) :
    ExpectedPayloadIdentity :=
  ⟨version.versionName, version.versionCode,
    (findSupportedProfile profiles version.versionName version.versionCode).map (·.elfBuildId)⟩

def latestPlan (profiles : List SupportedPayloadProfile) (latest : ProviderVersion)
    (installed : PayloadStoreResult) : UpdateCandidatePlan where
  identity := planIdentity profiles latest
  exactSupported := (findSupportedProfile profiles latest.versionName latest.versionCode).isSome
  reuseInstalled := installed.ok && installed.versionName == latest.versionName &&
    installed.versionCode == latest.versionCode && !installed.hostAbiProfile.isEmpty &&
    !installed.compatibilityManifest.isEmpty
  origin := "provider latest"

def planUpdateCandidates (profiles : List SupportedPayloadProfile)
    (preferred : SupportedPayloadProfile) (latest : Option ProviderVersion)
    (current installed : PayloadStoreResult) : List UpdateCandidatePlan :=
  let runnableCode := if current.ok then current.versionCode else 0
  let plans :=
    match latest with
    | some latest =>
      if latest.ok && (!current.ok || decide (runnableCode < latest.versionCode)) then
        [latestPlan profiles latest installed]
      else []
    | none => []
  if !current.ok || decide (runnableCode < preferred.versionCode) then
    match plans with
    | front :: _ =>
      if front.identity.versionCode ≠ preferred.versionCode then
        plans ++ [{ identity := exactPayloadIdentity preferred, exactSupported := true
                    origin := "supported catalog" }]
      else plans
    | [] => [{ identity := exactPayloadIdentity preferred, exactSupported := true
               origin := "supported catalog" }]
  else plans

structure Candidate where
  staged : PayloadStoreResult := {}
  identity : ExpectedPayloadIdentity := {}
  exactSupported : Bool := false
  profile : String := ""
  compatibility : String := ""
  error : String := ""

def Candidate.ok (c : Candidate) : Bool := c.error.isEmpty && c.staged.ok

/-- A directory entry under `payloads`; `inspected` is what `InspectPreparedPayload` accepts. -/
structure PayloadEntry where
  name : String
  directory : Bool
  inspected : Option (PayloadId × String)

/-- The entries seen, and whether the iteration broke off. -/
structure PayloadListing where
  entries : List PayloadEntry := []
  failed : Bool := false

/-- The payload of an entry that has the identity. -/
def PayloadEntry.matching (entry : PayloadEntry) (identity : ExpectedPayloadIdentity) :
    Option PayloadStoreResult :=
  match entry.directory, entry.inspected with
  | true, some (id, versionName) =>
    if id.text = entry.name ∧ versionName = identity.versionName ∧
        id.versionCode = identity.versionCode ∧
        ∀ buildId ∈ identity.exactBuildId, id.buildId = buildId then
      some { payloadId := some id, versionName }
    else none
  | _, _ => none

/-- `FindStagedCandidate`: the only entry that matches; `verified` is what `VerifyPreparedPayload`
says of it. -/
def findStagedCandidate (listing : PayloadListing) (identity : ExpectedPayloadIdentity)
    (exactSupported : Bool) (verified : Bool) : Candidate :=
  match listing.entries.filterMap (·.matching identity) with
  | [staged] =>
    if listing.failed || !verified then {} else { staged, identity, exactSupported }
  | _ => {}

end Nightcap.Update
