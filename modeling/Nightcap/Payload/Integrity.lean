import Nightcap.Lib.Framing
import Nightcap.Payload.Store

/-! Prepared payloads: the metadata they carry and the hashes that vouch for their files. -/
namespace Nightcap.Payload

open Utf8 Ascii FileTree

/-- The processor the program is built for. -/
inductive Guest
  | aarch64
  | x86_64

/-- `kGuestSplitApkFile`. -/
def Guest.splitApkFile : Guest → String
  | .aarch64 => "split_config.arm64_v8a.apk"
  | .x86_64 => "split_config.x86_64.apk"

/-- `kGuestSplitApkHashKey`. -/
def Guest.splitApkHashKey : Guest → String
  | .aarch64 => "arm64_v8a_split_apk"
  | .x86_64 => "x86_64_split_apk"

/-- The libraries below the store: a JSON parser and SHA-256. -/
structure Libraries where
  parse : Bytes → Option Json
  sha256 : Bytes → Bytes

structure Metadata where
  packageName : Bytes
  versionName : Bytes
  versionCode : UInt64
  buildId : Bytes
  librarySha256 : Bytes
  baseApkSha256 : Bytes
  splitApkSha256 : Bytes
  assetTreeSha256 : Bytes
  assetFileCount : UInt64
deriving DecidableEq

/-- A payload that passed its checks. -/
structure PayloadIntegrity where
  payloadId : Bytes
  metadata : Metadata
deriving DecidableEq

def lowerHex (value : Bytes) (size : Nat) : Bool := value.length == size && value.all isHexDigit

def hexDigit (n : UInt8) : UInt8 := if n < 10 then 48 + n else 87 + n

def formatHex (digest : Bytes) : Bytes :=
  digest.flatMap fun (b : UInt8) => [hexDigit (b >>> 4), hexDigit (b &&& 15)]

/-- A relative path as it stands in messages. -/
def relativeText (relative : List String) : String := "/".intercalate relative

/-- The entry at a relative path, links not followed at its end. -/
def locate (root : Entry) (relative : List String) : Option Entry := root.at (relative.map bytes)

def requireRegular (root : Entry) (relative : List String) : Except String Unit :=
  match locate root relative with
  | some (.regular _) => .ok ()
  | _ => .error ("payload is missing regular file: " ++ relativeText relative)

def requireDirectory (root : Entry) (relative : List String) : Except String Unit :=
  match locate root relative with
  | some (.directory _) => .ok ()
  | _ => .error ("payload is missing real directory: " ++ relativeText relative)

def readMetadata (root : Entry) : Except String Bytes :=
  match locate root ["roblox_payload.json"] with
  | none => .error "payload metadata is unavailable"
  | some (.symlink _) => .error "payload metadata is unavailable"
  | some (.regular contents) =>
    if contents.length > 1024 * 1024 then .error "payload metadata is not a bounded regular file"
    else .ok contents
  | some _ => .error "payload metadata is not a bounded regular file"

def identityInvalid : String := "payload metadata identity or hashes are invalid"

def stringField (fields : List (Bytes × Json)) (name : String) : Except String Bytes :=
  match fields.lookup (bytes name) with
  | some (.string value) => .ok value
  | _ => .error identityInvalid

/-- The parts of a metadata document that are checked first. -/
structure Schema where
  fields : List (Bytes × Json)
  versionCode : UInt64
  hashes : List (Bytes × Json)
  assets : List (Bytes × Json)

def readSchema (document : Option Json) : Except String Schema :=
  match document with
  | some (.object fields) =>
    match isOne (fields.lookup (bytes "schema_version")), fields.lookup (bytes "version_code"),
      fields.lookup (bytes "sha256"), fields.lookup (bytes "assets") with
    | true, some (.unsigned versionCode), some (.object hashes), some (.object assets) =>
      .ok { fields, versionCode, hashes, assets }
    | _, _, _, _ => .error "payload metadata schema is invalid"
  | _ => .error "payload metadata schema is invalid"

def assetCount (assets : List (Bytes × Json)) : Except String UInt64 :=
  match assets.lookup (bytes "file_count") with
  | some (.unsigned count) => .ok count
  | _ => .error "payload metadata asset count is invalid"

def Metadata.valid (metadata : Metadata) : Bool :=
  metadata.packageName == bytes "com.roblox.client" && !metadata.versionName.isEmpty &&
    metadata.versionCode != 0 && lowerHex metadata.buildId 40 &&
    lowerHex metadata.librarySha256 64 && lowerHex metadata.baseApkSha256 64 &&
    lowerHex metadata.splitApkSha256 64 && lowerHex metadata.assetTreeSha256 64

def payloadIdOf (metadata : Metadata) : Bytes :=
  ofNat metadata.versionCode.toNat ++ bytes "-" ++ metadata.buildId

/-- The metadata of a parsed document, in the order of the source's checks. -/
def readPayload (guest : Guest) (document : Option Json) : Except String PayloadIntegrity := do
  let schema ← readSchema document
  let packageName ← stringField schema.fields "package"
  let versionName ← stringField schema.fields "version_name"
  let buildId ← stringField schema.fields "elf_build_id"
  let librarySha256 ← stringField schema.hashes "libroblox"
  let baseApkSha256 ← stringField schema.hashes "base_apk"
  let splitApkSha256 ← stringField schema.hashes guest.splitApkHashKey
  let assetTreeSha256 ← stringField schema.assets "sha256_tree"
  let assetFileCount ← assetCount schema.assets
  let metadata : Metadata :=
    { packageName, versionName, versionCode := schema.versionCode, buildId, librarySha256,
      baseApkSha256, splitApkSha256, assetTreeSha256, assetFileCount }
  if metadata.valid then .ok { payloadId := payloadIdOf metadata, metadata }
  else .error identityInvalid

def inspectPreparedPayload (lib : Libraries) (guest : Guest) (directory : Option Entry) :
    Except String PayloadIntegrity :=
  match directory with
  | some (.directory entries) => do
    let root := Entry.directory entries
    requireRegular root ["libroblox.so"]
    requireRegular root ["sober_apk", "base.apk"]
    requireRegular root ["sober_apk", guest.splitApkFile]
    requireRegular root ["roblox_payload.json"]
    requireDirectory root ["assets"]
    requireDirectory root ["assets", "content"]
    let contents ← readMetadata root
    readPayload guest (lib.parse contents)
  | _ => .error "payload root is not a real directory"

/-- `HashRegularFile`. Its messages carry the whole path in the source; inspection has found a
regular file before. -/
def hashRegularFile (lib : Libraries) (root : Entry) (relative : List String) :
    Except String Bytes :=
  match locate root relative with
  | some (.regular contents) => .ok (formatHex (lib.sha256 contents))
  | some (.directory _) | some .special =>
    .error ("hash input is not a regular file: " ++ relativeText relative)
  | _ => .error ("cannot open regular file for hashing: " ++ relativeText relative)

def verifyFile (lib : Libraries) (root : Entry) (relative : List String) (expected : Bytes) :
    Except String Unit :=
  match hashRegularFile lib root relative with
  | .error error => .error error
  | .ok actual =>
    if actual = expected then .ok ()
    else .error ("payload hash mismatch: " ++ relativeText relative)

mutual

/-- The regular files of a tree, with their paths from `path` on. -/
def collectFiles (path : Bytes) : Entry → Except String (List (Bytes × Bytes))
  | .regular contents => .ok [(path, contents)]
  | .directory entries => collectEntries path entries
  | .symlink _ => .error "asset tree contains a symbolic link"
  | .special => .error "asset tree contains a non-regular entry"

def collectEntries (path : Bytes) : List (Bytes × Entry) → Except String (List (Bytes × Bytes))
  | [] => .ok []
  | (name, e) :: entries =>
    match collectFiles (if path.isEmpty then name else path ++ bytes "/" ++ name) e with
    | .error error => .error error
    | .ok files =>
      match collectEntries path entries with
      | .error error => .error error
      | .ok more => .ok (files ++ more)

end

def sortFiles (files : List (Bytes × Bytes)) : List (Bytes × Bytes) :=
  files.insertionSort fun left right => left.1 ≤ right.1

/-- How many threads hash the files of a tree. The count of files is cut to 32 bits. -/
def hashWorkers (hardware : UInt32) (files : Nat) : UInt32 :=
  min (min (if hardware = 0 then 1 else hardware) 8) (UInt32.ofNat files)

/-- The digest of one of `count` files. It stays empty where no thread is started. -/
def fileDigest (lib : Libraries) (count : Nat) (contents : Bytes) : Bytes :=
  if UInt32.ofNat count = 0 then [] else formatHex (lib.sha256 contents)

def treeLine (digest path : Bytes) : Bytes := digest ++ bytes "  " ++ path

/-- What the tree digest is taken of: a line for each file, ended by a NUL. -/
def treeText (digests paths : List Bytes) : Bytes :=
  Framing.terminated 0 (List.zipWith treeLine digests paths)

/-- The lines of the files of a tree. -/
def assetText (lib : Libraries) (files : List (Bytes × Bytes)) : Bytes :=
  let sorted := sortFiles files
  treeText (sorted.map fun file => fileDigest lib files.length file.2) (sorted.map Prod.fst)

/-- `HashAssetTree`: the digest of the sorted file digests, and how many files there are. -/
def hashAssetTree (lib : Libraries) (root : Option Entry) : Except String (Bytes × Nat) :=
  match root with
  | some (.directory entries) =>
    match collectEntries [] entries with
    | .error error => .error error
    | .ok files => .ok (formatHex (lib.sha256 (assetText lib files)), files.length)
  | _ => .error "asset root is not a real directory"

def verifyPreparedPayload (lib : Libraries) (guest : Guest) (directory : Option Entry) :
    Except String PayloadIntegrity :=
  match inspectPreparedPayload lib guest directory, directory with
  | .error error, _ => .error error
  | .ok _, none => .error "payload root is not a real directory"
  | .ok payload, some root => do
    verifyFile lib root ["libroblox.so"] payload.metadata.librarySha256
    verifyFile lib root ["sober_apk", "base.apk"] payload.metadata.baseApkSha256
    verifyFile lib root ["sober_apk", guest.splitApkFile] payload.metadata.splitApkSha256
    let (tree, count) ← hashAssetTree lib (locate root ["assets"])
    if count = payload.metadata.assetFileCount.toNat ∧ tree = payload.metadata.assetTreeSha256 then
      .ok payload
    else .error "payload asset tree does not match metadata"

end Nightcap.Payload
