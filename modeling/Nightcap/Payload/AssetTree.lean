import Nightcap.Lib.JobPool
import Nightcap.Payload.Integrity

/-! The asset tree digest: a walk, a pool of threads that hash the files, and one fold. -/
namespace Nightcap.Payload

open Utf8 Ascii FileTree Transition JobPool

/-- Why `HashRegularFile` fails. -/
inductive HashFault
  | unopened
  | irregular
  | uninitialised
  | unread
  | unfinished

def HashFault.message (path : Bytes) : HashFault → Bytes
  | .unopened => bytes "cannot open regular file for hashing: " ++ path
  | .irregular => bytes "hash input is not a regular file: " ++ path
  | .uninitialised => bytes "cannot initialise the file digest"
  | .unread => bytes "cannot hash regular file: " ++ path
  | .unfinished => bytes "cannot finalise the hash of " ++ path

/-- Why the walk over the tree fails. -/
inductive WalkFault
  | status
  | enumeration

def WalkFault.message : WalkFault → Bytes
  | .status => bytes "asset root is not a real directory"
  | .enumeration => bytes "cannot enumerate asset tree"

/-- Why the digest of the lines fails. -/
inductive FoldFault
  | uninitialised
  | notUpdated
  | unfinished

def FoldFault.message : FoldFault → Bytes
  | .uninitialised => bytes "cannot initialise asset tree digest"
  | .notUpdated => bytes "cannot update asset tree digest"
  | .unfinished => bytes "cannot finalise asset tree digest"

/-- What fails during a call, the files by their relative path. -/
structure Faults where
  walk : Option WalkFault
  file : Bytes → Option HashFault
  fold : Option FoldFault

def noFaults : Faults := ⟨none, fun _ => none, none⟩

/-- `root / relative`. -/
def appendPath (root relative : Bytes) : Bytes :=
  if root.isEmpty || root.getLast? == some 47 then root ++ relative
  else root ++ bytes "/" ++ relative

/-- `HashRegularFile` on a file of the walk. -/
def hashFile (lib : Libraries) (faults : Faults) (root : Bytes) (file : Bytes × Bytes) :
    Except Bytes Bytes :=
  match faults.file file.1 with
  | some fault => .error (fault.message (appendPath root file.1))
  | none => .ok (formatHex (lib.sha256 file.2))

/-- The fold over the digests the threads left, which are empty where none was stored. -/
def foldDigests (lib : Libraries) (faults : Faults) (sorted : List (Bytes × Bytes))
    (results : Nat → Option Bytes) : Except Bytes (Bytes × Nat) :=
  match faults.fold with
  | some fault => .error fault.message
  | none =>
    let digests := (List.range sorted.length).map fun k => (results k).getD []
    .ok (formatHex (lib.sha256 (treeText digests (sorted.map Prod.fst))), sorted.length)

/-- What a call of `HashAssetTree` may return, on a machine with so many hardware threads. -/
inductive Returns (lib : Libraries) (faults : Faults) (hardware : UInt32) (path : Bytes) :
    Option Entry → Except Bytes (Bytes × Nat) → Prop
  | unreal {root : Option Entry} (h : ∀ entries, root ≠ some (.directory entries)) :
      Returns lib faults hardware path root (.error (bytes "asset root is not a real directory"))
  | interrupted {root : Option Entry} {fault : WalkFault} (h : faults.walk = some fault) :
      Returns lib faults hardware path root (.error fault.message)
  | refused {entries : Directory} {error : String} (h : collectEntries [] entries = .error error) :
      Returns lib faults hardware path (some (.directory entries)) (.error (bytes error))
  | failed {entries : Directory} {files : List (Bytes × Bytes)} {error : Bytes}
      {s : JobPool.State (hashWorkers hardware files.length).toNat Bytes Bytes}
      (hw : faults.walk = none) (hc : collectEntries [] entries = .ok files)
      (hs : (poolLTS _ ((sortFiles files).map (hashFile lib faults path))).Reachable s)
      (hd : s.Done) (he : s.error = some error) :
      Returns lib faults hardware path (some (.directory entries)) (.error error)
  | folded {entries : Directory} {files : List (Bytes × Bytes)}
      {s : JobPool.State (hashWorkers hardware files.length).toNat Bytes Bytes}
      (hw : faults.walk = none) (hc : collectEntries [] entries = .ok files)
      (hs : (poolLTS _ ((sortFiles files).map (hashFile lib faults path))).Reachable s)
      (hd : s.Done) (he : s.error = none) :
      Returns lib faults hardware path (some (.directory entries))
        (foldDigests lib faults (sortFiles files) s.results)

end Nightcap.Payload
