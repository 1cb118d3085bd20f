import Nightcap.Lib.FileTree
import Nightcap.Lib.Json

/-! The payload store on disk: manifests, atomic writes, activation and garbage collection. -/
namespace Nightcap.Payload

open Utf8 Ascii FileTree

/-- The files of the store's root. -/
inductive FileName
  | current
  | previousGood
  | previousRecovery
  | absentRecovery
  | temporary (pid generation : Nat)
deriving DecidableEq

def FileName.text : FileName → String
  | .current => "current.json"
  | .previousGood => "previous_good.json"
  | .previousRecovery => ".previous_good-recovery.json"
  | .absentRecovery => ".previous_good-recovery.absent"
  | .temporary pid generation => ".manifest-" ++ toString pid ++ "-" ++ toString generation

structure Store where
  files : FileName → Option Entry
  payloads : Directory
  quarantine : Directory

/-- A store and the system under it. `faults` answers the fallible system calls in turn: a message
makes the call fail with it. `wreck` is what a removal that fails half-way leaves of a tree. -/
structure Disk where
  store : Store
  root : String
  pid : Nat
  generation : Nat
  seconds : Nat
  faults : Nat → Option String
  wreck : Entry → Entry

def Store.put (s : Store) (name : FileName) (e : Option Entry) : Store :=
  { s with files := Function.update s.files name e }

namespace Disk

/-- The fate of the next system call. -/
def ask (d : Disk) : Option String × Disk :=
  (d.faults 0, { d with faults := fun n => d.faults (n + 1) })

theorem store_of_ask {d d' : Disk} {r : Option String} (h : d.ask = (r, d')) :
    d'.store = d.store := by
  simp only [ask, Prod.mk.injEq] at h
  rw [← h.2]

def put (d : Disk) (name : FileName) (e : Option Entry) : Disk :=
  { d with store := d.store.put name e }

def path (d : Disk) (name : FileName) : String := d.root ++ "/" ++ name.text

/-- `std::filesystem::symlink_status`; a missing entry is no error. -/
def inspect (d : Disk) (name : FileName) : Except String (Option Entry) × Disk :=
  match d.ask with
  | (some message, d) => (.error message, d)
  | (none, d) => (.ok (d.store.files name), d)

/-- `std::filesystem::remove`. -/
def remove (d : Disk) (name : FileName) : Option String × Disk :=
  match d.store.files name with
  | none => (none, d)
  | some (.directory (_ :: _)) => (some "Directory not empty", d)
  | some _ =>
    match d.ask with
    | (some message, d) => (some message, d)
    | (none, d) => (none, d.put name none)

end Disk

open Disk

def kMaximumManifest : Nat := 1024 * 1024

def notBounded : String := "payload-store file is not a bounded regular file"

def readRegular (d : Disk) (name : FileName) (missingOk : Bool) : Except String Bytes × Disk :=
  match d.store.files name with
  | none =>
    if missingOk then (.ok [], d)
    else (.error ("cannot open payload-store file: " ++ d.path name), d)
  | some (.symlink _) => (.error ("cannot open payload-store file: " ++ d.path name), d)
  | some entry =>
    match d.ask with
    | (some _, d) => (.error ("cannot open payload-store file: " ++ d.path name), d)
    | (none, d) =>
      match d.ask with
      | (some _, d) => (.error notBounded, d)
      | (none, d) =>
        match entry with
        | .regular contents =>
          if contents.length > kMaximumManifest then (.error notBounded, d)
          else
            match d.ask with
            | (some _, d) => (.error "cannot read payload-store file", d)
            | (none, d) => (.ok contents, d)
        | _ => (.error notBounded, d)

/-- Gives up on a temporary file; a failed removal is ignored. -/
def abandon (d : Disk) (temporary : FileName) (error : String) : Option String × Disk :=
  (some error, (d.remove temporary).2)

/-- Whether a file can be renamed onto this entry. -/
def replaceable : Option Entry → Bool
  | some (.directory _) => false
  | _ => true

/-- `WriteAtomic`; `none` is success. Writing is one phase however many `write` calls it takes, and
is skipped for empty contents. -/
def writeAtomic (d : Disk) (destination : FileName) (contents : Bytes) : Option String × Disk :=
  let temporary := .temporary d.pid (d.generation + 1)
  match { d with generation := d.generation + 1 }.ask with
  | (some _, d) => (some "cannot create atomic payload manifest", d)
  | (none, d) =>
    if (d.store.files temporary).isSome then (some "cannot create atomic payload manifest", d)
    else
      let d := d.put temporary (some (.regular []))
      match if contents.isEmpty then (none, d) else d.ask with
      | (some _, d) => abandon d temporary "cannot write atomic payload manifest"
      | (none, d) =>
        let d := d.put temporary (some (.regular contents))
        match d.ask with
        | (some _, d) => abandon d temporary "cannot persist atomic payload manifest"
        | (none, d) =>
          match d.ask with
          | (some _, d) => abandon d temporary "cannot publish atomic payload manifest"
          | (none, d) =>
            if replaceable (d.store.files destination) then
              (none, (d.put temporary none).put destination (some (.regular contents)))
            else abandon d temporary "cannot publish atomic payload manifest"

def isHexDigit (b : UInt8) : Bool := isDigit b || (chr 'a' ≤ b && b ≤ chr 'f')

/-- Digits, a dash and forty hexadecimal digits. -/
def validPayloadId (value : Bytes) : Bool :=
  let number := value.takeWhile (!is '-' ·)
  match value.dropWhile (!is '-' ·) with
  | [] => false
  | _ :: build =>
    !number.isEmpty && build.length == 40 && number.all isDigit && build.all isHexDigit

structure Manifest where
  payloadId : Bytes
  contents : Bytes

/-- Whether a JSON value is the number one. -/
def isOne : Option Json → Bool
  | some (.unsigned n) => n == 1
  | some (.integer n) => n == 1
  | _ => false

/-- The identity in a manifest's text. -/
def manifestId (parse : Bytes → Option Json) (contents : Bytes) : Except String Bytes :=
  match parse contents with
  | some (.object fields) =>
    if !isOne (fields.lookup (bytes "schema_version")) then
      .error "active payload manifest is invalid"
    else
      match fields.lookup (bytes "payload_id") with
      | some (.string payloadId) =>
        match fields.lookup (bytes "payload_path") with
        | some (.string payloadPath) =>
          if validPayloadId payloadId && payloadPath == bytes "payloads/" ++ payloadId then
            .ok payloadId
          else .error "active payload manifest identity is invalid"
        | _ => .error "active payload manifest identity is invalid"
      | _ => .error "active payload manifest is invalid"
  | _ => .error "active payload manifest is invalid"

/-- A missing or empty file is a manifest without an identity. -/
def readManifest (parse : Bytes → Option Json) (d : Disk) (name : FileName) (missingOk : Bool) :
    Except String Manifest × Disk :=
  match readRegular d name missingOk with
  | (.error error, d) => (.error error, d)
  | (.ok contents, d) =>
    if contents.isEmpty then (.ok ⟨[], []⟩, d)
    else
      match manifestId parse contents with
      | .error error => (.error error, d)
      | .ok payloadId => (.ok ⟨payloadId, contents⟩, d)

/-- One of the two checks of `NoPendingRecovery`. -/
def noRecovery (d : Disk) (name : FileName) : Option String × Disk :=
  match d.inspect name with
  | (.error message, d) => (some ("cannot inspect previous_good recovery: " ++ message), d)
  | (.ok (some _), d) => (some ("previous_good recovery is pending: " ++ d.path name), d)
  | (.ok none, d) => (none, d)

def noPendingRecovery (d : Disk) : Option String × Disk :=
  match noRecovery d .previousRecovery with
  | (some error, d) => (some error, d)
  | (none, d) => noRecovery d .absentRecovery

/-- `error` is what has gone wrong before; it is kept in front of the new text. -/
def removeRecovery (d : Disk) (recovery : FileName) (error : String) (currentPublished : Bool) :
    Option String × Disk :=
  match d.remove recovery with
  | (none, d) => (none, d)
  | (some message, d) =>
    (some (error ++ (if error.isEmpty then "" else "; ") ++
      (if currentPublished then "current manifest published; " else "") ++
      "cannot remove previous_good recovery: " ++ message ++ "; recovery retained at " ++
      d.path recovery), d)

/-- The recovery file is dropped after a failure that is reported either way. -/
def dropRecovery (d : Disk) (recovery : FileName) (error : String) : Option String × Disk :=
  match removeRecovery d recovery error false with
  | (none, d) => (some error, d)
  | (some error, d) => (some error, d)

/-- Puts `previous_good.json` back to its bytes, or to absence. -/
def restorePrevious (d : Disk) (previous : Option Bytes) : Option String × Disk :=
  match previous with
  | some contents => writeAtomic d .previousGood contents
  | none =>
    match d.remove .previousGood with
    | (none, d) => (none, d)
    | (some message, d) => (some ("cannot restore absence of previous_good: " ++ message), d)

def readPrevious (d : Disk) (status : Option Entry) : Except String (Option Bytes) × Disk :=
  match status with
  | none => (.ok none, d)
  | some _ =>
    match readRegular d .previousGood false with
    | (.error error, d) => (.error error, d)
    | (.ok contents, d) => (.ok (some contents), d)

def recoveryName (previous : Option Bytes) : FileName :=
  if previous.isSome then .previousRecovery else .absentRecovery

/-- The bytes a recovery file keeps: those of `previous_good.json`, or a marker of its absence. -/
def recoveryContents (previous : Option Bytes) : Bytes := previous.getD (bytes "absent\n")

/-- The last steps of `PublishActivation`: `current.json`, and the way back if it fails. -/
def publishCurrent (d : Disk) (previous : Option Bytes) (contents : Bytes) : Option String × Disk :=
  let recovery := recoveryName previous
  match writeAtomic d .current contents with
  | (none, d) => removeRecovery d recovery "" true
  | (some error, d) =>
    match restorePrevious d previous with
    | (none, d) => dropRecovery d recovery error
    | (some restoreError, d) =>
      (some (error ++ "; previous_good restoration failed: " ++ restoreError ++
        "; recovery retained at " ++ d.path recovery), d)

/-- Saves `previous_good.json`, then makes the old manifest the previous one. -/
def savePrevious (d : Disk) (previous : Option Bytes) (old contents : Bytes) :
    Option String × Disk :=
  let recovery := recoveryName previous
  match writeAtomic d recovery (recoveryContents previous) with
  | (some error, d) => (some error, d)
  | (none, d) =>
    match writeAtomic d .previousGood old with
    | (some error, d) => dropRecovery d recovery error
    | (none, d) => publishCurrent d previous contents

/-- `PublishActivation` once another payload is known to be current. -/
def replaceCurrent (d : Disk) (old contents : Bytes) : Option String × Disk :=
  match d.inspect .previousGood with
  | (.error message, d) => (some ("cannot inspect previous_good manifest: " ++ message), d)
  | (.ok status, d) =>
    match readPrevious d status with
    | (.error error, d) => (some error, d)
    | (.ok previous, d) => savePrevious d previous old contents

/-- `PublishActivation`; `none` is the source's true. -/
def publishActivation (parse : Bytes → Option Json) (d : Disk) (payloadId contents : Bytes) :
    Option String × Disk :=
  match noPendingRecovery d with
  | (some error, d) => (some error, d)
  | (none, d) =>
    match readManifest parse d .current true with
    | (.error error, d) => (some error, d)
    | (.ok current, d) =>
      if current.contents.isEmpty || current.payloadId == payloadId then
        writeAtomic d .current contents
      else replaceCurrent d current.contents contents

/-! Payload trees. -/

inductive Area
  | payloads
  | quarantine

def Store.dir (s : Store) : Area → Directory
  | .payloads => s.payloads
  | .quarantine => s.quarantine

def Disk.setDir (d : Disk) (area : Area) (entries : Directory) : Disk :=
  match area with
  | .payloads => { d with store := { d.store with payloads := entries } }
  | .quarantine => { d with store := { d.store with quarantine := entries } }

/-- `StoreLock`. The payload directory and the lock file it creates are part of every store here. -/
def lock (d : Disk) : Option String × Disk :=
  match d.ask with
  | (some _, d) => (some "cannot create payload store", d)
  | (none, d) =>
    match d.ask with
    | (some _, d) => (some "cannot lock payload store", d)
    | (none, d) => (none, d)

theorem lock_store (d : Disk) : (lock d).2.store = d.store := by
  unfold lock
  split
  · next h => exact store_of_ask h
  · next h =>
    split
    · next h' => exact (store_of_ask h').trans (store_of_ask h)
    · next h' => exact (store_of_ask h').trans (store_of_ask h)

mutual

/-- The bytes of a tree's regular files. -/
def treeBytes : Entry → Nat
  | .regular contents => contents.length
  | .directory entries => entriesBytes entries
  | _ => 0

def entriesBytes : List (Bytes × Entry) → Nat
  | [] => 0
  | (_, e) :: entries => treeBytes e + entriesBytes entries

end

/-- `RemovePayloadTree`: the bytes freed, or `none` when the removal failed. -/
def removePayloadTree (d : Disk) (area : Area) (name : Bytes) : Option Nat × Disk :=
  match (d.store.dir area).lookup name with
  | none => (some 0, d)
  | some e =>
    match d.ask with
    | (some _, d) => (none, d.setDir area ((d.store.dir area).set name (d.wreck e)))
    | (none, d) => (some (treeBytes e), d.setDir area ((d.store.dir area).erase name))

/-- The real directories with a wanted name, up to the first entry that cannot be inspected. -/
def listDirectories (d : Disk) (wanted : Bytes → Bool) : Directory → (List Bytes × Bool) × Disk
  | [] => (([], false), d)
  | (name, e) :: entries =>
    match d.ask with
    | (some _, d) => (([], true), d)
    | (none, d) =>
      match listDirectories d wanted entries with
      | ((found, failed), d) =>
        match e with
        | .directory _ => ((if wanted name then name :: found else found, failed), d)
        | _ => ((found, failed), d)

structure GarbageResult where
  removed : List Bytes := []
  freedBytes : Nat := 0
  error : Option String := none

def removeSuperseded (d : Disk) (result : GarbageResult) :
    List (Area × Bytes) → GarbageResult × Disk
  | [] => (result, d)
  | (area, name) :: superseded =>
    match removePayloadTree d area name with
    | (none, d) => removeSuperseded d result superseded
    | (some freed, d) =>
      removeSuperseded d
        { result with removed := result.removed ++ [name], freedBytes := result.freedBytes + freed }
        superseded

/-- A payload nothing names, or the workspace of a killed `Stage`. -/
def collectable (retained : List Bytes) (name : Bytes) : Bool :=
  (validPayloadId name && !retained.contains name) || (bytes ".stage-").isPrefixOf name

def collectGarbage (parse : Bytes → Option Json) (d : Disk) (keep : List Bytes) :
    GarbageResult × Disk :=
  match lock d with
  | (some error, d) => ({ error }, d)
  | (none, d) =>
    match noPendingRecovery d with
    | (some error, d) => ({ error }, d)
    | (none, d) =>
      match readManifest parse d .current true with
      | (.error error, d) => ({ error := some error }, d)
      | (.ok current, d) =>
        match readManifest parse d .previousGood true with
        | (.error error, d) => ({ error := some error }, d)
        | (.ok previous, d) =>
          let named := [current.payloadId, previous.payloadId].filter (!·.isEmpty)
          match listDirectories d (collectable (keep ++ named)) d.store.payloads with
          | ((_, true), d) => ({ error := some "cannot inspect the payload store" }, d)
          | ((payloads, false), d) =>
            match listDirectories d (fun _ => true) d.store.quarantine with
            | ((quarantined, _), d) =>
              removeSuperseded d {}
                (payloads.map (Area.payloads, ·) ++ quarantined.map (Area.quarantine, ·))

end Nightcap.Payload
