import Nightcap.Lib.Ascii
import Nightcap.Lib.Transition

/-! `ExtractZipPrefix`: what the entries of an archive under a prefix become on disk, call by
call. -/
namespace Nightcap.Update.ZipArchive

open Utf8 Transition

structure ZipEntry where
  name : Bytes
  uncompressedSize : Nat
  directory : Bool
  symbolicLink : Bool
deriving DecidableEq

/-! Paths in an archive. -/

/-- The component at the front of a path. -/
def component (path : Bytes) : Bytes := path.takeWhile (· != 47)

/-- What follows the component at the front, its slash included. -/
def afterComponent (path : Bytes) : Bytes := path.drop (component path).length

theorem afterComponent_shorter {path : Bytes} (h : path ≠ []) :
    ((afterComponent path).drop 1).length < path.length := by
  have hpos := List.length_pos_iff.2 h
  rw [List.length_drop, afterComponent, List.length_drop]
  omega

def dot : Bytes := Ascii.bytes "."

def dotDot : Bytes := Ascii.bytes ".."

def safeLoop (path : Bytes) : Bool :=
  if path = [] then true
  else if component path = [] ∨ component path = dot ∨ component path = dotDot then
    afterComponent path == [] && component path == []
  else safeLoop ((afterComponent path).drop 1)
termination_by path.length
decreasing_by exact afterComponent_shorter ‹_›

def isSafeArchivePath (path : Bytes) : Bool :=
  if path = [] ∨ path.head? = some 47 ∨ 0 ∈ path ∨ 92 ∈ path then false else safeLoop path

/-- The components of a relative path; a slash at its end adds none. -/
def components (path : Bytes) : List Bytes :=
  if path = [] then [] else component path :: components ((afterComponent path).drop 1)
termination_by path.length
decreasing_by exact afterComponent_shorter ‹_›

/-! Listing. -/

def say (message : String) : Bytes := Ascii.bytes message

structure RawInfo where
  name : Bytes
  uncompressedSize : Nat
  externalFa : Nat

/-- What minizip says of the current entry. -/
inductive InfoAnswer
  | noMetadata
  | noName
  | info (raw : RawInfo)

inductive GoTo
  | ok
  | endOfList
  | failed
deriving DecidableEq

def currentInfo : InfoAnswer → Except Bytes ZipEntry
  | .noMetadata => throw (say "cannot read ZIP entry metadata")
  | .noName => throw (say "cannot read ZIP entry name")
  | .info raw =>
    if raw.name = [] ∨ raw.name.length > 64 * 1024 then throw (say "cannot read ZIP entry metadata")
    else
      return {
        name := raw.name
        uncompressedSize := raw.uncompressedSize
        directory := raw.name.getLast? == some 47
        symbolicLink := raw.externalFa >>> 16 &&& 0xffff &&& 0o170000 == 0o120000 }

/-- What minizip answers while an archive is listed. -/
structure Listing where
  openError : Option Bytes
  declared : Option Nat
  first : GoTo
  infos : Nat → InfoAnswer
  next : Nat → Bool

def listLoop (listing : Listing) (declared : Nat) : Nat → List ZipEntry →
    Except Bytes (List ZipEntry)
  | 0, entries => return entries
  | left + 1, entries => do
    let index := declared - (left + 1)
    let entry ← currentInfo (listing.infos index)
    if !isSafeArchivePath entry.name || entry.symbolicLink then
      throw (say "ZIP archive contains an unsafe entry: " ++ entry.name)
    else if index + 1 < declared ∧ listing.next index = false then
      throw (say "ZIP archive ended before its declared entry count")
    else listLoop listing declared left (entries ++ [entry])

def listZipEntries (listing : Listing) (maximumEntries : Nat) : Except Bytes (List ZipEntry) :=
  match listing.openError, listing.declared with
  | some error, _ => throw error
  | none, none => throw (say "ZIP archive has an invalid or excessive entry count")
  | none, some declared =>
    if declared > maximumEntries then
      throw (say "ZIP archive has an invalid or excessive entry count")
    else if declared = 0 then return []
    else
      match listing.first with
      | .ok => listLoop listing declared declared []
      | .endOfList => return []
      | .failed => throw (say "cannot enumerate ZIP archive")

/-! The disk. -/

abbrev Path := List Bytes

inductive Node
  | directory
  | file (contents : Bytes)
  /-- A link to somewhere, or anything else. -/
  | other
deriving DecidableEq

abbrev Disk := Path → Option Node

def Disk.set (disk : Disk) (path : Path) (node : Option Node) : Disk :=
  fun p => if p = path then node else disk p

/-- Bytes at the end of a file. -/
def Disk.append (disk : Disk) (path : Path) (bytes : Bytes) : Disk :=
  match disk path with
  | some (.file contents) => disk.set path (some (.file (contents ++ bytes)))
  | _ => disk

/-- The paths that `create_directories` makes where they are missing, the shortest first. -/
def ancestors (path : Path) : List Path :=
  (List.range path.length).map fun n => path.take (n + 1)

/-! Extraction. -/

/-- What `ExtractZipPrefix` is called with, the listing it has made included. -/
structure Extraction where
  entries : List ZipEntry
  namePrefix : Bytes
  destination : Path
  maximumTotalBytes : Nat

def kMaximumEntries : Nat := 100000

def kBufferBytes : Nat := 128 * 1024

/-- The next call to be made. -/
inductive Pc
  | openArchive
  | info
  /-- The directories still to be made, and the file to be created in the last. -/
  | makeDirectories (missing : List Path) (output : Option Path)
  | create (output : Path)
  | openEntry (output : Path)
  | read (output : Path) (written : Nat)
  | write (output : Path) (written : Nat) (chunk : Bytes) (offset : Nat)
  | closeEntry (output : Path) (written : Nat) (failure : Option Bytes)
  | remove (output : Path) (error : Bytes)
  | next
  | done (result : Bool) (error : Bytes)
deriving DecidableEq

inductive ReadAnswer
  /-- The bytes decompressed, none at the end of the entry. -/
  | data (bytes : Bytes)
  | failed

inductive WriteAnswer
  | count (bytes : Nat)
  | interrupted
  | failed (error : Bytes)

/-- What minizip and the file system answer to a call. -/
inductive Answer
  | opened (error : Option Bytes) (first : GoTo)
  | info (answer : InfoAnswer)
  | made (ok : Bool)
  | created (ok : Bool)
  | entryOpened (ok : Bool)
  | read (answer : ReadAnswer)
  | wrote (answer : WriteAnswer)
  | closed (ok : Bool)
  | removed (ok : Bool)
  | next (ok : Bool)

structure State where
  pc : Pc := .openArchive
  index : Nat := 0
  total : Nat := 0
  files : Nat := 0
  disk : Disk
  /-- All bytes ever written to a file. -/
  bytes : Nat := 0
  /-- The bytes minizip has delivered of the current entry. -/
  delivered : Bytes := []
  /-- The entries extracted so far, each with the bytes delivered. -/
  completed : List (Nat × Bytes) := []

def State.fail (s : State) (error : Bytes) : State := { s with pc := .done false error }

section

variable (x : Extraction) (s : State)

def relativeOf (entry : ZipEntry) : Bytes := entry.name.drop x.namePrefix.length

/-- The name starts with the prefix and goes on behind it. -/
def selects (entry : ZipEntry) : Bool :=
  entry.name.take x.namePrefix.length == x.namePrefix && relativeOf x entry != []

def outputOf (entry : ZipEntry) : Path := x.destination ++ components (relativeOf x entry)

def afterOpened (error : Option Bytes) (first : GoTo) : State :=
  match error, first with
  | some error, _ => s.fail error
  | none, .ok => { s with pc := if x.entries = [] then .done true [] else .info }
  | none, .endOfList => if x.entries = [] then { s with pc := .done true [] } else s.fail []
  | none, .failed =>
    if x.entries = [] then { s with pc := .done true [] }
    else s.fail (say "cannot enumerate ZIP archive")

def afterInfo (entry : ZipEntry) (answer : InfoAnswer) : State :=
  match currentInfo answer with
  | .error error => s.fail error
  | .ok current =>
    if current ≠ entry then s.fail (say "ZIP archive changed during extraction")
    else if !selects x entry then { s with pc := .next }
    else if !isSafeArchivePath (relativeOf x entry) || entry.symbolicLink ||
        entry.uncompressedSize > x.maximumTotalBytes ||
        s.total > x.maximumTotalBytes - entry.uncompressedSize then
      s.fail (say "ZIP prefix contains an unsafe or oversized entry")
    else if entry.directory then
      { s with pc := .makeDirectories (ancestors (outputOf x entry)) none }
    else
      { s with pc := .makeDirectories (ancestors (outputOf x entry).dropLast)
                  (some (outputOf x entry)) }

def afterMade (missing : List Path) (output : Option Path) (ok : Bool) : State :=
  match missing, output with
  | [], none => { s with pc := .next }
  | [], some output => { s with pc := .create output }
  | path :: missing, output =>
    let made := { s with pc := .makeDirectories missing output }
    match s.disk path with
    | some .directory => made
    | some (.file _) => s.fail (say "cannot create extracted ZIP directory")
    | some .other => if ok then made else s.fail (say "cannot create extracted ZIP directory")
    | none =>
      if ok then { made with disk := s.disk.set path (some .directory) }
      else s.fail (say "cannot create extracted ZIP directory")

/-- `O_EXCL` creates what is not there, and nothing else. -/
def afterCreated (output : Path) (ok : Bool) : State :=
  if ok && s.disk output == none then
    { s with pc := .openEntry output, disk := s.disk.set output (some (.file [])), delivered := [] }
  else s.fail (say "cannot create extracted ZIP entry")

def afterEntryOpened (output : Path) (ok : Bool) : State :=
  { s with pc := if ok then .read output 0
    else .remove output (say "cannot open compressed ZIP entry") }

/-- `WriteCurrent` between two reads; the limit is the declared size of the entry. -/
def afterRead (entry : ZipEntry) (output : Path) (written : Nat) (answer : ReadAnswer) : State :=
  match answer with
  | .failed =>
    { s with pc := .closeEntry output written (some (say "cannot decompress ZIP entry")) }
  | .data [] => { s with pc := .closeEntry output written none }
  | .data chunk =>
    if chunk.length > entry.uncompressedSize ∨ written > entry.uncompressedSize - chunk.length then
      { s with pc := .closeEntry output written
                  (some (say "decompressed ZIP data exceeds its size limit")) }
    else { s with pc := .write output written chunk 0, delivered := s.delivered ++ chunk }

def afterWrote (output : Path) (written : Nat) (chunk : Bytes) (offset : Nat)
    (answer : WriteAnswer) : State :=
  match answer with
  | .interrupted => s
  | .failed error =>
    { s with pc := .closeEntry output (written + chunk.length)
                (some (say "cannot write decompressed ZIP entry: " ++ error)) }
  | .count count =>
    let s := { s with
      bytes := s.bytes + count
      disk := s.disk.append output ((chunk.drop offset).take count) }
    if offset + count < chunk.length then
      { s with pc := .write output written chunk (offset + count) }
    else { s with pc := .read output (written + chunk.length) }

def afterClosed (entry : ZipEntry) (output : Path) (written : Nat) (failure : Option Bytes)
    (ok : Bool) : State :=
  match failure with
  | some error => { s with pc := .remove output error }
  | none =>
    if !ok then { s with pc := .remove output (say "ZIP entry failed its CRC check") }
    else if written ≠ entry.uncompressedSize then
      { s with pc := .remove output (say "extracted ZIP entry is truncated") }
    else
      { s with
        pc := .next
        total := s.total + entry.uncompressedSize
        files := s.files + 1
        completed := s.completed ++ [(s.index, s.delivered)] }

def afterRemoved (output : Path) (error : Bytes) (ok : Bool) : State :=
  { s with pc := .done false error, disk := if ok then s.disk.set output none else s.disk }

/-- `advance`; behind the last entry there is nothing to ask. -/
def afterNext (ok : Bool) : State :=
  if s.index + 1 ≥ x.entries.length then { s with pc := .done true [], index := s.index + 1 }
  else if ok then { s with pc := .info, index := s.index + 1 }
  else s.fail (say "ZIP archive ended during extraction")

/-- One call with its answer, where the answer is one to that call. -/
def step (answer : Answer) : Option State :=
  match s.pc, answer, x.entries[s.index]? with
  | .openArchive, .opened error first, _ => some (afterOpened x s error first)
  | .info, .info answer, some entry => some (afterInfo x s entry answer)
  | .makeDirectories missing output, .made ok, _ => some (afterMade s missing output ok)
  | .create output, .created ok, _ => some (afterCreated s output ok)
  | .openEntry output, .entryOpened ok, _ => some (afterEntryOpened s output ok)
  | .read output written, .read answer, some entry => some (afterRead s entry output written answer)
  | .write output written chunk offset, .wrote answer, _ =>
    some (afterWrote s output written chunk offset answer)
  | .closeEntry output written failure, .closed ok, some entry =>
    some (afterClosed s entry output written failure ok)
  | .remove output error, .removed ok, _ => some (afterRemoved s output error ok)
  | .next, .next ok, _ => some (afterNext x s ok)
  | _, _, _ => none

end

/-- A read fills the buffer at most, a write takes the bytes it is given at most. -/
def permitted (s : State) : Answer → Bool
  | .read (.data bytes) => bytes.length ≤ kBufferBytes
  | .wrote (.count count) =>
    match s.pc with
    | .write _ _ chunk offset => offset + count ≤ chunk.length
    | _ => true
  | _ => true

/-- An extraction on a disk, from its first call on. -/
def extractLTS (x : Extraction) (disk : Disk) : LTS State Answer where
  initial s := s = { disk }
  step s answer t := permitted s answer = true ∧ step x s answer = some t

def extractZipPrefix (listing : Listing) (namePrefix : Bytes) (destination : Path)
    (maximumTotalBytes : Nat) (disk : Disk) : LTS State Answer :=
  match listZipEntries listing kMaximumEntries with
  | .error error =>
    { initial := fun s => s = { disk, pc := .done false error }, step := fun _ _ _ => False }
  | .ok entries => extractLTS { entries, namePrefix, destination, maximumTotalBytes } disk

end Nightcap.Update.ZipArchive
