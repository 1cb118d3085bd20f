import Nightcap.Payload.Staging

/-! `Promote`, `PromoteProbation` and `Rollback`: what a payload has to pass before it becomes
current. -/
namespace Nightcap.Payload

open Utf8 Ascii FileTree Disk

/-- The text of an error; it is never empty. -/
abbrev Message := { text : String // text ≠ "" }

/-- What a store works with. `json.dump` stands for `dump(2)` and the newline after it. -/
structure Environment where
  guest : Guest
  json : Json.Library
  sha256 : Bytes → Bytes
  -- the empty text is no document
  parse_nil : json.parse [] = none

def Environment.libraries (env : Environment) : Libraries := ⟨env.json.parse, env.sha256⟩

structure SupportedPayloadProfile where
  versionName : Bytes
  versionCode : UInt64
  elfBuildId : Bytes

/-- What `LoadCompatibilityCatalog` returns. -/
abbrev Catalog := Except Message (List SupportedPayloadProfile)

/-- `ExactSupported`; `none` is the source's true. -/
def exactSupported (catalog : Catalog) (metadata : Metadata) : Option String :=
  match catalog with
  | .error message => some message.1
  | .ok profiles =>
    if profiles.any fun profile => profile.versionCode == metadata.versionCode &&
        profile.versionName == metadata.versionName &&
          profile.elfBuildId == metadata.buildId then none
    else some "payload is not an exact default-supported profile"

def activationFields (payload : PayloadIntegrity) (seconds : Nat) : List (Bytes × Json) :=
  [(bytes "schema_version", .integer 1), (bytes "payload_id", .string payload.payloadId),
    (bytes "payload_path", .string (bytes "payloads/" ++ payload.payloadId)),
    (bytes "version_name", .string payload.metadata.versionName),
    (bytes "version_code", .unsigned payload.metadata.versionCode),
    (bytes "elf_build_id", .string payload.metadata.buildId),
    (bytes "payload_sha256", .string payload.metadata.librarySha256),
    (bytes "activated_at_epoch", .integer (Int64.ofNat seconds))]

def activationManifest (payload : PayloadIntegrity) (seconds : Nat) : Json :=
  .ofFields (activationFields payload seconds)

/-- The fields `ProbationActivationManifest` adds. -/
def approvalFields (payload : PayloadIntegrity) (generation : Bytes) : List (Bytes × Json) :=
  let stem := payload.payloadId ++ bytes "-" ++ generation
  [(bytes "approval_path", .string (bytes "approvals/" ++ stem ++ bytes ".json")),
    (bytes "host_abi_profile_path", .string (bytes "host_abi_profiles/" ++ stem ++ bytes ".json")),
    (bytes "compatibility_manifest_path",
      .string (bytes "compatibility_profiles/" ++ stem ++ bytes ".json"))]

def probationActivationManifest (payload : PayloadIntegrity) (generation : Bytes)
    (seconds : Nat) : Json :=
  .ofFields (activationFields payload seconds ++ approvalFields payload generation)

/-! Candidate approvals. -/

structure CandidateApproval where
  generation : Bytes := []
  error : String := ""

def CandidateApproval.ok (approval : CandidateApproval) : Bool :=
  approval.error == "" && !approval.generation.isEmpty

/-- The arguments of a probation promotion, and what its steps outside the store's manifests come
to. -/
structure Probation where
  runtimeBinary : Bytes
  canaryLogs : Bytes × Bytes
  /-- Reading, parsing and binding the candidate's profile and compatibility manifest. -/
  candidate : Option Message
  /-- Hashing the runtime and the payload's metadata. -/
  fingerprint : Option Message
  /-- `ReadElfBuildId` of the runtime. -/
  runtimeBuildId : Except Message Bytes
  /-- The digest of the approval's evidence. -/
  generation : Bytes
  /-- Hashing the canary logs and writing the approval's files. -/
  evidence : Option Message
  /-- `ValidateCandidateApproval`. -/
  validation : Option Message

def createCandidateApproval (p : Probation) : CandidateApproval :=
  if p.canaryLogs.1.isEmpty || p.canaryLogs.2.isEmpty || p.canaryLogs.1 == p.canaryLogs.2 then
    { error := "candidate approval requires two distinct canary logs" }
  else
    match p.candidate, p.fingerprint, p.runtimeBuildId with
    | some message, _, _ => { error := message.1 }
    | none, some message, _ => { error := message.1 }
    | none, none, .error message => { error := message.1 }
    | none, none, .ok buildId =>
      -- the error of the build ID that was read, which is empty
      if !lowerHex buildId 40 then {}
      else
        match p.evidence with
        | some message => { error := message.1 }
        | none => { generation := p.generation }

/-! Operations. `none` is a process that ends because a document cannot be printed. -/

section

variable (env : Environment) (catalog : Catalog)

/-- `payloads/<id>` passes its checks and is what its name says. -/
def verifiedPayload (d : Disk) (payloadId : Bytes) : Except String PayloadIntegrity × Disk :=
  match onDisk (verifyPreparedPayload env.libraries env.guest) d
    (d.store.payloads.lookup payloadId) with
  | (.error error, d) => (.error error, d)
  | (.ok payload, d) =>
    if payload.payloadId = payloadId then (.ok payload, d)
    else (.error "payload directory identity mismatch", d)

/-- The result of an operation that has verified its payload. -/
def PayloadStoreResult.of (payload : PayloadIntegrity)
    (error : Option String) : PayloadStoreResult :=
  { payloadId := payload.payloadId
    versionName := payload.metadata.versionName
    versionCode := payload.metadata.versionCode
    buildId := payload.metadata.buildId
    error }

def PayloadStoreResult.ok (result : PayloadStoreResult) : Bool :=
  result.error.isNone && !result.payloadId.isEmpty

def promote (d : Disk) (payloadId : Bytes) : Option (PayloadStoreResult × Disk) :=
  if !validPayloadId payloadId then some ({ error := some "invalid payload ID" }, d)
  else
    match lock d with
    | (some error, d) => some ({ error := some error }, d)
    | (none, d) =>
      match verifiedPayload env d payloadId with
      | (.error error, d) => some ({ payloadId, error := some error }, d)
      | (.ok payload, d) =>
        match exactSupported catalog payload.metadata with
        | some error => some ({ payloadId, error := some error }, d)
        | none =>
          match env.json.dump (activationManifest payload d.seconds) with
          | none => none
          | some contents =>
            match publishActivation env.json.parse d payloadId contents with
            | (error, d) => some (.of payload error, d)

def promoteProbation (d : Disk) (payloadId : Bytes) (p : Probation) :
    Option (PayloadStoreResult × Disk) :=
  if !validPayloadId payloadId || p.runtimeBinary.isEmpty then
    some ({ error := some "probation promotion requires a valid payload and runtime" }, d)
  else
    match lock d with
    | (some error, d) => some ({ error := some error }, d)
    | (none, d) =>
      match verifiedPayload env d payloadId with
      | (.error error, d) => some ({ payloadId, error := some error }, d)
      | (.ok payload, d) =>
        match exactSupported catalog payload.metadata with
        | none =>
          some ({ payloadId, error := some "exact-supported payload must use regular promotion" },
            d)
        | some _ =>
          let approval := createCandidateApproval p
          if !approval.ok then
            -- an empty error is none
            some ({ payloadId, error := if approval.error = "" then none
              else some approval.error }, d)
          else
            match env.json.dump
              (probationActivationManifest payload approval.generation d.seconds) with
            | none => none
            | some contents =>
              match p.validation with
              | some message => some ({ payloadId, error := some message.1 }, d)
              | none =>
                match publishActivation env.json.parse d payloadId contents with
                | (some error, d) => some ({ payloadId, error := some error }, d)
                | (none, d) => some (.of payload none, d)

/-- The tree at `payloads/<id>`; without an identity that is the directory of the payloads
itself. -/
def payloadTree (s : Store) (payloadId : Bytes) : Option Entry :=
  if payloadId.isEmpty then some (.directory s.payloads) else s.payloads.lookup payloadId

/-- `Rollback`; `validation` is what `ValidateCandidateApproval` comes to. -/
def rollback (d : Disk) (validation : Option Message) : PayloadStoreResult × Disk :=
  match lock d with
  | (some error, d) => ({ error := some error }, d)
  | (none, d) =>
    match readManifest env.json.parse d .previousGood false with
    | (.error error, d) => ({ error := some error }, d)
    | (.ok previous, d) =>
      match onDisk (verifyPreparedPayload env.libraries env.guest) d
        (payloadTree d.store previous.payloadId) with
      | (.error error, d) => ({ payloadId := previous.payloadId, error := some error }, d)
      | (.ok payload, d) =>
        match exactSupported catalog payload.metadata, validation with
        | some _, some message =>
          ({ payloadId := previous.payloadId, error := some message.1 }, d)
        | _, _ =>
          if payload.payloadId ≠ previous.payloadId then
            ({ payloadId := previous.payloadId
               error := some "previous-good payload identity mismatch" }, d)
          else
            match writeAtomic d .current previous.contents with
            | (error, d) => (.of payload error, d)

end

end Nightcap.Payload
