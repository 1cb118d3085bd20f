import Nightcap.Lib.Ascii
import Nightcap.Lib.Transition

/-! Resumed downloads: one attempt, the partial file and the record of its entity tag. -/
namespace Nightcap.Update.Download

open Utf8 Ascii

structure HttpTransferRequest where
  url : Bytes
  maximum_bytes : Nat := 0
  maximum_attempts : Int := 3
  maximum_redirects : Int := 5

/-- What the state file records. -/
structure StateRecord where
  url : Bytes
  etag : Bytes
deriving DecidableEq

/-- The partial file, the record beside it and the finished file. -/
structure Files where
  part : Option Bytes := none
  state : Option StateRecord := none
  destination : Option Bytes := none
deriving DecidableEq

/-- What is done to the files; a remove may fail. -/
inductive FileOp
  | removePart (removed : Bool)
  | removeState (removed : Bool)
  | openPart (truncate : Bool)
  | write (data : Bytes)
  | saveState (record : StateRecord)
  | publish
deriving DecidableEq

def FileOp.apply (d : Files) : FileOp → Files
  | .removePart removed => { d with part := if removed then none else d.part }
  | .removeState removed => { d with state := if removed then none else d.state }
  | .openPart truncate => { d with part := some (if truncate then [] else d.part.getD []) }
  | .write data => { d with part := d.part.map (· ++ data) }
  | .saveState record => { d with state := some record }
  | .publish => { d with part := none, destination := d.part }

def applyAll (d : Files) (ops : List FileOp) : Files := ops.foldl FileOp.apply d

/-- The codes of libcurl that the attempt tells apart. -/
inductive CurlCode
  | ok
  | rangeError
  | couldntConnect
  | couldntResolveHost
  | couldntResolveProxy
  | operationTimedout
  | partialFile
  | recvError
  | sendError
  | gotNothing
  | sslConnectError
  | other
deriving DecidableEq

def retryableTransport : CurlCode → Bool
  | .couldntConnect | .couldntResolveHost | .couldntResolveProxy | .operationTimedout
  | .partialFile | .recvError
  | .sendError | .gotNothing | .sslConnectError => true
  | .ok | .rangeError | .other => false

def retryableStatus (status : Int) : Bool := status = 408 || status = 425 ||
    status = 429 || status ≥ 500

def redirectStatus (status : Int) : Bool :=
  status = 301 || status = 302 || status = 303 || status = 307 || status = 308

def strongEtag (value : Bytes) : Bool :=
  2 ≤ value.length && value.head? == some 34 && value.getLast? == some 34 &&
    value.all fun c => 0x21 ≤ c && c != 0x7f

structure DownloadHeaders where
  status : Int := 0
  etag : Bytes := []
  encoding : Bytes := []
  range : Bytes := []
  expected_etag : Bytes := []
  url : Bytes
  offset : Nat
  maximum : Nat
  total : Nat := 0
  restart : Bool := false
  failed : Bool := false
  complete : Bool := false

/-- A `size_t` at the start of a text, and the rest. -/
def fromChars (text : Bytes) : Option (Nat × Bytes) :=
  let digits := text.takeWhile isDigit
  if digits ≠ [] ∧ decimal digits < 2 ^ 64 then
    some (decimal digits, text.dropWhile isDigit)
  else none

def skip (c : Char) : Bytes → Option Bytes
  | [] => none
  | b :: rest => if is c b then some rest else none

/-- The three numbers of a content range, and what follows them. -/
def rangeValues (range : Bytes) : Option (Nat × Nat × Nat × Bytes) := do
  let range ← if range.take 6 = bytes "bytes " then some (range.drop 6) else none
  let (first, range) ← fromChars range
  let (last, range) ← fromChars (← skip '-' range)
  let (total, range) ← fromChars (← skip '/' range)
  some (first, last, total, range)

def readRange (h : DownloadHeaders) : Bool × DownloadHeaders :=
  match rangeValues h.range with
  | none => (false, h)
  | some (first, last, total, rest) =>
    (rest.isEmpty && first == h.offset && decide (first ≤ last) &&
      decide (last < total) && last == total - 1 &&
      decide (total ≤ h.maximum), { h with total })

/-- How the writing of a state file ends: before its rename, after it with the directory not synced,
or well. -/
inductive Saved
  | failed
  | unsynced
  | written
deriving DecidableEq

def writeStateFile (record : StateRecord) : Saved → Bool × List FileOp
  | .failed => (false, [])
  | .unsynced => (false, [.saveState record])
  | .written => (true, [.saveState record])

def isStatusLine (line : Bytes) : Bool := line.take 5 = bytes "HTTP/"

def isBlank (line : Bytes) : Bool := line = [13, 10] || line = [10]

/-- The number after the first blank, if there is one. -/
def statusOf (line : Bytes) : Int :=
  let number := (line.dropWhile (· ≠ 32)).drop 1
  let (negative, digits) :=
    if number.head? = some 45 then (true, number.drop 1) else (false, number)
  match fromChars digits with
  | some (n, _) =>
    let status : Int := if negative then -(n : Int) else n
    if -2 ^ 63 ≤ status ∧ status < 2 ^ 63 then status else 0
  | none => 0

/-- The end of a header block. -/
def endHeaders (h : DownloadHeaders) (saved : Saved) : Bool × DownloadHeaders × List FileOp :=
  let h := { h with complete := true }
  if 0 < h.offset ∧ (h.status = 200 ∨ h.status = 416) then (false, { h with restart := true }, [])
  else if h.status ≠ 200 ∧ h.status ≠ 206 then (true, h, [])
  else if h.encoding ≠ [] ∧ h.encoding ≠ bytes "identity" then
    (false, { h with restart := true }, [])
  else
    let (valid, h) := if h.status = 206 then readRange h else (true, h)
    if valid = false ∨
      (h.status = 206 ∧ h.expected_etag ≠ [] ∧ h.etag ≠ [] ∧ h.expected_etag ≠ h.etag) then
      (false, { h with restart := true }, [])
    else if h.offset = 0 ∧ strongEtag h.etag then
      let (success, ops) := writeStateFile ⟨h.url, h.etag⟩ saved
      (success, { h with failed := h.failed || !success }, ops)
    else (true, h, [])

def trimField (value : Bytes) : Bytes :=
  (value.dropWhile fun b => b == 32 || b == 9).rdropWhile fun b => b == 13 || b == 10 || b == 32

/-- One line given to the header callback: whether it is taken, and what is written. -/
def readDownloadHeaders (h : DownloadHeaders) (line : Bytes) (saved : Saved) :
    Bool × DownloadHeaders × List FileOp :=
  if isStatusLine line then
    (true, { h with
      complete := false, etag := [], encoding := [], range := [], status := statusOf line }, [])
  else if isBlank line then endHeaders h saved
  else if h.complete then (true, h, [])
  else
    match line.dropWhile (· ≠ 58) with
    | [] => (true, h, [])
    | _ :: value =>
      let key := lower (line.takeWhile (· ≠ 58))
      let value := trimField value
      (true,
        { h with
          etag := if key = bytes "etag" then value else h.etag
          encoding := if key = bytes "content-encoding" then lower value else h.encoding
          range := if key = bytes "content-range" then value else h.range }, [])

structure FileWriter where
  maximum : Nat
  written : Nat
  /-- What the digest was given, while one is taken. -/
  sha256 : Option Bytes
  exceeded : Bool := false
  write_failed : Bool := false
  hash_failed : Bool := false

/-- A piece of a body, how many bytes more than one each `write` of it takes, and whether its digest
succeeds. -/
structure Chunk where
  data : Bytes
  cuts : List Nat
  hashed : Bool := true

/-- The data of each `write`, up to the one that fails. -/
def writes : Bytes → List Nat → List Bytes
  | [], _ => []
  | _ :: _, [] => []
  | b :: data, n :: cuts => (b :: data.take n) :: writes (data.drop n) cuts

def writeFileBytes (status : Int) (w : FileWriter) (chunk : Chunk) :
    Bool × FileWriter × List FileOp :=
  if status ≠ 200 ∧ status ≠ 206 then (true, w, [])
  else if w.maximum < chunk.data.length ∨ w.maximum - chunk.data.length < w.written then
    (false, { w with exceeded := true }, [])
  else
    let ops := (writes chunk.data chunk.cuts).map .write
    if (writes chunk.data chunk.cuts).flatten ≠ chunk.data then
      (false, { w with write_failed := true }, ops)
    else if w.sha256.isSome && !chunk.hashed then (false, { w with hash_failed := true }, ops)
    else (true, { w with
      written := w.written + chunk.data.length, sha256 := w.sha256.map (· ++ chunk.data) }, ops)

/-- A transfer ends at the first callback that does not take all it is given. -/
def readLines (h : DownloadHeaders) : List (Bytes × Saved) → Bool × DownloadHeaders × List FileOp
  | [] => (true, h, [])
  | (line, saved) :: lines =>
    let (taken, h, ops) := readDownloadHeaders h line saved
    if taken then
      let (taken, h, more) := readLines h lines
      (taken, h, ops ++ more)
    else (false, h, ops)

def writeChunks (status : Int) (w : FileWriter) : List Chunk → Bool × FileWriter × List FileOp
  | [] => (true, w, [])
  | chunk :: chunks =>
    let (taken, w, ops) := writeFileBytes status w chunk
    if taken then
      let (taken, w, more) := writeChunks status w chunks
      (taken, w, ops ++ more)
    else (false, w, ops)

/-- Why an attempt gives no file. -/
inductive DownloadError
  | cannotCreate (reason : String)
  | cannotResume (reason : String)
  | curlInit
  | configure
  | digestInit
  | status (url : Bytes) (code : Int)
  | redirect
  | restart
  | digest
  | size
  | persist
  | transport (code : CurlCode)
  | range
  | finalize
  | redirects
  | noBytes
  | refused (reason : String)
  | publish
deriving DecidableEq

structure HttpDownloadResult where
  bytes_written : Nat := 0
  sha256 : Bytes := []
  final_url : Bytes := []
  error : Option DownloadError := none
deriving DecidableEq

/-- What the server and the system answer to one request. -/
structure Transfer where
  lines : List (Bytes × Saved)
  chunks : List Chunk
  status : CurlCode
  http_status : Int
  redirect_url : Bytes := []
  trusted : Bool := true
  synced : Bool := true
  digested : Bool := true

/-- How far the preparation of a request comes. -/
inductive Setup
  | ready
  | notOpened (reason : String)
  | notSeeked (reason : String)
  | noHandle
  | notConfigured
  | noDigest
deriving DecidableEq

/-- Which removes succeed. -/
structure Removed where
  part : Bool := true
  state : Bool := true
deriving DecidableEq

structure Hop where
  setup : Setup := .ready
  transfer : Transfer
  removed : Removed := {}

/-- What one attempt is answered: whether the state file can be read, which removes before its
requests and after a failure for good succeed, and its requests by their redirects. -/
structure Try where
  readable : Bool := true
  removed : Removed := {}
  hops : Nat → Hop
  ended : Removed := {}

/-- Where an attempt starts: how many bytes it resumes after, and under which tag. -/
structure Start where
  existing : Nat
  etag : Bytes
  ops : List FileOp
deriving DecidableEq

/-- How many bytes a text takes between the quotes of a JSON string. -/
def escapedSize (text : Bytes) : Nat :=
  (text.map fun b =>
    if b = 34 ∨ b = 92 ∨ b = 8 ∨ b = 9 ∨ b = 10 ∨ b = 12 ∨ b = 13 then 2
    else if b < 0x20 then 6
    else 1).sum

/-- The size of `document.dump(2)` and a newline. -/
def StateRecord.fileSize (record : StateRecord) : Nat :=
  30 + escapedSize record.etag + escapedSize record.url

def readStateFile (readable : Bool) (d : Files) : Option StateRecord :=
  d.state.filter fun record => readable && decide (record.fileSize ≤ 65536)

/-- The tag that the record keeps for the address, or an empty text. -/
def recordedEtag (request : HttpTransferRequest) (state : Option StateRecord) : Bytes :=
  match state with
  | some record => if record.url = request.url then record.etag else []
  | none => []

def readStart (request : HttpTransferRequest) (t : Try) (d : Files) : Start :=
  let etag := recordedEtag request (readStateFile t.readable d)
  let afresh : Start := ⟨0, [], [.removePart t.removed.part, .removeState t.removed.state]⟩
  match d.part with
  | some part =>
    if request.maximum_bytes < part.length ∨ strongEtag etag = false then afresh
    else ⟨part.length, etag, []⟩
  | none => afresh

/-- What is left of a request once its preparation fails. -/
def setupFailure (resuming removed : Bool) : Setup → Option (List FileOp × DownloadError)
  | .ready => none
  | .notOpened reason => some ([], .cannotCreate reason)
  | .notSeeked reason =>
    if resuming then some ([.openPart false, .removePart removed], .cannotResume reason) else none
  | .noHandle => some ([.openPart (!resuming), .removePart removed], .curlInit)
  | .notConfigured => some ([.openPart (!resuming), .removePart removed], .configure)
  | .noDigest =>
    if resuming then none else some ([.openPart true, .removePart removed], .digestInit)

def response (request : HttpTransferRequest) (start : Start) : DownloadHeaders :=
  { expected_etag := start.etag, url := request.url, offset := start.existing
    maximum := request.maximum_bytes }

def writer (request : HttpTransferRequest) (start : Start) : FileWriter :=
  { maximum := request.maximum_bytes
    written := start.existing
    sha256 := if 0 < start.existing then none else some [] }

/-- The transfer of one request: whether all of it was taken, the headers, the writer and what was
done to the files. -/
def perform (request : HttpTransferRequest) (start : Start) (transfer : Transfer) :
    Bool × DownloadHeaders × FileWriter × List FileOp :=
  let (taken, h, ops) := readLines (response request start) transfer.lines
  if taken then
    let (taken, w, more) := writeChunks h.status (writer request start) transfer.chunks
    (taken, h, w, ops ++ more)
  else (false, h, writer request start, ops)

inductive Conclusion
  | finished (ops : List FileOp) (result : HttpDownloadResult) (retryable : Bool)
  | redirected (next : Bytes)

def failed (error : DownloadError) : HttpDownloadResult := { error := some error }

/-- What a transfer that did not end well is reported as, and whether it is worth another
attempt. -/
def transferFailure (h : DownloadHeaders) (w : FileWriter)
    (transfer : Transfer) : DownloadError × Bool :=
  if w.hash_failed then (.digest, false)
  else if w.exceeded then (.size, false)
  else if w.write_failed ∨ h.failed ∨ transfer.synced = false then (.persist, false)
  else (.transport transfer.status, retryableTransport transfer.status)

/-- What an attempt makes of a finished transfer; `digest` is the digest of the file. -/
def conclude (request : HttpTransferRequest) (redirect : Nat) (resuming : Bool) (current : Bytes)
    (h : DownloadHeaders) (w : FileWriter) (transfer : Transfer) (removed : Removed)
    (digest : Bytes) : Conclusion :=
  let http_status := transfer.http_status
  if transfer.synced && retryableStatus http_status then
    .finished [] (failed (.status current http_status)) true
  else if redirectStatus http_status then
    if transfer.redirect_url = [] ∨ (redirect : Int) = request.maximum_redirects ∨
      transfer.trusted = false then
      .finished [.removePart removed.part] (failed .redirect) false
    else .redirected transfer.redirect_url
  else if h.restart || (resuming && transfer.status = .rangeError) then
    .finished [.removePart removed.part, .removeState removed.state] (failed .restart) true
  else if transfer.status ≠ .ok ∨ w.write_failed ∨ w.hash_failed ∨ h.failed ∨
    transfer.synced = false then
    let (error, retryable) := transferFailure h w transfer
    .finished (if retryable then [] else [.removePart removed.part]) (failed error) retryable
  else if (http_status ≠ 200 ∧ http_status ≠ 206) ∨ w.written = 0 then
    let retryable := retryableStatus http_status
    .finished (if retryable then [] else [.removePart removed.part])
      (failed (.status current http_status)) retryable
  else if http_status = 206 ∧ w.written ≠ h.total then .finished [] (failed .range) true
  else if digest = [] then .finished [.removePart removed.part] (failed .finalize) false
  else .finished [] { bytes_written := w.written, sha256 := digest, final_url := current } false

/-- What is done to the files, what is returned and whether another attempt is worth it. -/
structure Outcome where
  ops : List FileOp
  result : HttpDownloadResult
  retryable : Bool

variable (sha256 : Bytes → Bytes)

/-- The digest of the file, taken along the way or from what is on disk. -/
def digestOf (d : Files) (start : Start) (w : FileWriter) (transfer : Transfer)
    (ops : List FileOp) : Bytes :=
  if transfer.digested then
    sha256 (if 0 < start.existing then ((applyAll d ops).part.getD []) else w.sha256.getD [])
  else []

/-- The requests of an attempt from the given redirect on. -/
def requests (request : HttpTransferRequest) (start : Start) (hops : Nat → Hop) :
    Nat → Nat → Bytes → Files → Outcome
  | 0, redirect, _, _ => ⟨[.removePart (hops redirect).removed.part], failed .redirects, false⟩
  | left + 1, redirect, current, d =>
    let resuming := decide (0 < start.existing)
    match setupFailure resuming (hops redirect).removed.part (hops redirect).setup with
    | some (ops, error) => ⟨ops, failed error, false⟩
    | none =>
      let transfer := (hops redirect).transfer
      let (_, h, w, ops) := perform request start transfer
      let ops := .openPart (!resuming) :: ops
      match conclude request redirect resuming current h w transfer (hops redirect).removed
        (digestOf sha256 d start w transfer ops) with
      | .finished more result retryable => ⟨ops ++ more, result, retryable⟩
      | .redirected next =>
        let rest := requests request start hops left (redirect + 1) next (applyAll d ops)
        { rest with ops := ops ++ rest.ops }

def downloadFileAttempt (request : HttpTransferRequest) (t : Try) (d : Files) : Outcome :=
  let start := readStart request t d
  let rest :=
    requests sha256 request start t.hops (request.maximum_redirects + 1).toNat 0 request.url
    (applyAll d start.ops)
  { rest with ops := start.ops ++ rest.ops }

/-- The attempts of a download; `left` more may follow the first of them. -/
def attempts (request : HttpTransferRequest) (tries : Nat → Try) : Nat → Nat → Files → Outcome
  | left, attempt, d =>
    let tried := downloadFileAttempt sha256 request (tries attempt) d
    if tried.result.error = none then tried
    else if tried.retryable = false then
      { tried with
        ops := tried.ops ++ [.removePart (tries attempt).ended.part,
          .removeState (tries attempt).ended.state] }
    else
      match left with
      | 0 => tried
      | left + 1 =>
        let rest := attempts request tries left (attempt + 1) (applyAll d tried.ops)
        { rest with ops := tried.ops ++ rest.ops }

/-- A call of `DownloadFile`: what stops it before its attempts, what they are answered, whether the
finished file can be renamed and the record removed, and the operation after which it crashes. -/
structure Call where
  request : HttpTransferRequest
  refused : Option String := none
  tries : Nat → Try
  renamed : Bool := true
  removed : Bool := true
  crash : Option Nat := none

/-- How many attempts may follow the first. -/
def Call.left (c : Call) : Nat := (max 1 c.request.maximum_attempts).toNat - 1

def downloadFile (c : Call) (d : Files) : Outcome :=
  if c.request.maximum_bytes = 0 then ⟨[], failed .noBytes, false⟩
  else
    match c.refused with
    | some reason => ⟨[], failed (.refused reason), false⟩
    | none =>
      let tried := attempts sha256 c.request c.tries c.left 1 d
      if tried.result.error ≠ none then tried
      else if c.renamed then { tried with ops := tried.ops ++ [.publish, .removeState c.removed] }
      else { tried with result := { tried.result with error := some .publish } }

/-- What a call does to the files before it returns or crashes. -/
def Call.ops (c : Call) (d : Files) : List FileOp :=
  match c.crash with
  | none => (downloadFile sha256 c d).ops
  | some n => (downloadFile sha256 c d).ops.take n

open Transition in
/-- Calls for one destination, each after the last has returned or crashed. -/
def store : LTS Files Call where
  initial d := d.part = none ∧ d.state = none
  step d c d' := d' = applyAll d (c.ops sha256 d)

end Nightcap.Update.Download
