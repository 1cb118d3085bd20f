import Nightcap.Lib.Checked
import Nightcap.Lib.Pieces

/-! `BionicSendmsg` of the bionic socket runtime: a segmented send that the host does not support is
made one datagram at a time. -/
namespace Nightcap.Compat.Socket

open Checked

abbrev Bytes := List UInt8

def kSolUdp : Nat := 17
def kUdpSegment : Nat := 103
def kIovMax : Nat := 1024
def kSizeMax : Nat := 2 ^ 64 - 1
/-- `max_size` of a vector of bytes. -/
def kVectorMax : Nat := 2 ^ 63 - 1
/-- `sizeof(cmsghdr)`. -/
def kCmsgHeader : Nat := 16
def EIO : Nat := 5
def EINVAL : Nat := 22
def ENOPROTOOPT : Nat := 92
def EOPNOTSUPP : Nat := 95

/-- A pointer to so many items, which may be null. -/
structure Counted (α : Type) where
  items : Option (List α)
  count : Nat
  backed : ∀ xs, items = some xs → xs.length = count
  addressable : count < 2 ^ 64

structure Iovec where
  iov_base : Nat
  iov_len : Nat
deriving DecidableEq

structure Msghdr where
  msg_name : Nat
  msg_namelen : Nat
  msg_iov : Counted Iovec
  msg_control : Counted UInt8
  msg_flags : Int

/-- A number of the host, its lowest byte first. -/
def number (bytes : Bytes) : Nat := bytes.foldr (fun b rest => b.toNat + 256 * rest) 0

/-! Control messages. -/

/-- `CMSG_ALIGN`. -/
def cmsgAlign (length : Nat) : Nat := (length + 7) % 2 ^ 64 / 8 * 8

/-- `CMSG_LEN`. -/
def cmsgLen (length : Nat) : Nat := cmsgAlign kCmsgHeader + length

structure UdpSegmentControl where
  present : Bool := false
  segment_size : Nat := 0
deriving DecidableEq

structure ParsedControlMessages where
  udp_segment : UdpSegmentControl := {}
  passthrough : Bytes := []
deriving DecidableEq

/-- `cmsghdr`. -/
structure Header where
  cmsg_len : Nat
  cmsg_level : Nat
  cmsg_type : Nat

def Header.read (bytes : Bytes) : Header where
  cmsg_len := number (bytes.take 8)
  cmsg_level := number ((bytes.drop 8).take 4)
  cmsg_type := number ((bytes.drop 12).take 4)

/-- The variables of the loop of `ParseControlMessages`. -/
structure Cursor where
  cursor : Nat
  remaining : Nat
  udp_segment_seen : Bool := false
  result : ParsedControlMessages := {}

/-- What one control message adds to the result. -/
def parseMessage (control : Bytes) (view : View) (s : Cursor) (header : Header)
    (aligned_length : Nat) : Comp Unit (Bool × ParsedControlMessages) :=
  if header.cmsg_level = kSolUdp ∧ header.cmsg_type = kUdpSegment then
    if header.cmsg_len < cmsgLen 2 then refuse ()
    else if s.udp_segment_seen then pure (true, s.result)
    else do
      let size ← bytesAt control view (s.cursor + cmsgAlign kCmsgHeader) 2
      pure (true, { s.result with
        udp_segment := { present := number size != 0, segment_size := number size } })
  else
    let old_size := s.result.passthrough.length
    if aligned_length > kSizeMax - old_size ∨ aligned_length > kVectorMax - old_size then refuse ()
    else do
      let bytes ← bytesAt control view s.cursor header.cmsg_len
      pure (s.udp_segment_seen, { s.result with passthrough :=
        s.result.passthrough ++ bytes ++ List.replicate (aligned_length - header.cmsg_len) 0 })

/-- A round of the loop of `ParseControlMessages`. -/
def parseRound (control : Bytes) (view : View) (s : Cursor) :
    Comp Unit (Cursor ⊕ ParsedControlMessages) :=
  if s.remaining ≥ kCmsgHeader then do
    let bytes ← bytesAt control view s.cursor kCmsgHeader
    let header := Header.read bytes
    if header.cmsg_len < kCmsgHeader ∨ header.cmsg_len > s.remaining ∨
        header.cmsg_len > kSizeMax - 7 then refuse ()
    else if cmsgAlign header.cmsg_len < header.cmsg_len then refuse ()
    else do
      let (seen, result) ← parseMessage control view s header (cmsgAlign header.cmsg_len)
      let consumed := min (cmsgAlign header.cmsg_len) s.remaining
      pure (.inl { cursor := s.cursor + consumed, remaining := s.remaining - consumed,
                   udp_segment_seen := seen, result })
  else pure (.inr s.result)

/-- `ParseControlMessages`; to refuse is to return false. -/
def parseControlMessages (message : Msghdr) : Comp Unit ParsedControlMessages :=
  if message.msg_control.count = 0 then pure {}
  else
    match message.msg_control.items with
    | none => refuse ()
    | some control =>
      loop (parseRound control { base := 0, size := message.msg_control.count })
        (message.msg_control.count + 1) { cursor := 0, remaining := message.msg_control.count }

/-! Payloads. -/

/-- The sum of the loop of `IovecByteCount`. -/
def addLengths : List Iovec → Nat → Option Nat
  | [], total => some total
  | iov :: rest, total =>
    if iov.iov_len > kSizeMax - total then none else addLengths rest (total + iov.iov_len)

def iovecByteCount (message : Msghdr) : Option Nat :=
  if message.msg_iov.count > kIovMax then none
  else
    match message.msg_iov.items with
    | none => if message.msg_iov.count ≠ 0 then none else some 0
    | some iovecs => addLengths iovecs 0

/-- The loop of `SliceIovecs`. -/
def slice : List Iovec → Nat → Nat → List Iovec
  | [], _, _ => []
  | source :: rest, offset, length =>
    if length = 0 then []
    else if offset ≥ source.iov_len then slice rest (offset - source.iov_len) length
    else
      let selected := min (source.iov_len - offset) length
      { iov_base := source.iov_base + offset, iov_len := selected } ::
        slice rest 0 (length - selected)

def sliceIovecs (message : Msghdr) (offset length : Nat) : List Iovec :=
  slice (message.msg_iov.items.getD []) offset length

/-! Sending. -/

/-- What a call of `sendmsg` comes back with. -/
structure Answer where
  value : Int
  errno : Nat := 0
deriving DecidableEq

/-- The host: whether it is the FreeBSD Linuxulator, and how it answers each call of `sendmsg`. -/
structure Host where
  freeBsdLinuxulator : Bool
  sendmsg : Nat → Answer

structure Call where
  socket : Int
  message : Msghdr
  flags : Int
  answer : Answer

/-- What `BionicSendmsg` comes back with, and the calls of `sendmsg` it made. -/
structure Returned where
  value : Int
  errno : Nat
  calls : List Call

def isUnsupportedSocketOptionError (error : Nat) : Bool :=
  error == ENOPROTOOPT || error == EINVAL || error == EOPNOTSUPP

/-- A vector of items, whose data are not used where it is empty. -/
def Counted.ofList {α : Type} (xs : List α) (h : xs.length < 2 ^ 64) : Counted α where
  items := if xs = [] then none else some xs
  count := xs.length
  backed := by
    intro ys hys
    split at hys
    · cases hys
    · rw [Option.some.inj hys]
  addressable := h

/-- The message of one segment. -/
def segmentOf (message : Msghdr) (iovecs : List Iovec) (passthrough : Bytes) : Comp Unit Msghdr :=
  if h : iovecs.length < 2 ^ 64 ∧ passthrough.length < 2 ^ 64 then
    pure { message with
      msg_iov := .ofList iovecs h.1
      msg_control := .ofList passthrough h.2 }
  else fault .wrap

/-- `static_cast<ssize_t>`. -/
def toSsize (n : Nat) : Int := (n : Int).bmod (2 ^ 64)

/-- The variables of the loop of `BionicSendmsg`. -/
structure Sending where
  sent_total : Nat
  calls : List Call

/-- A round of the loop of `BionicSendmsg`. -/
def sendRound (host : Host) (socket : Int) (message : Msghdr) (flags : Int)
    (previous_errno : Nat) (control : ParsedControlMessages) (total : Nat) (s : Sending) :
    Comp Unit (Sending ⊕ Returned) :=
  if s.sent_total < total then
    let segment_length := min control.udp_segment.segment_size (total - s.sent_total)
    let iovecs := sliceIovecs message s.sent_total segment_length
    if iovecs = [] then pure (.inr { value := -1, errno := EINVAL, calls := s.calls })
    else do
      let segment ← segmentOf message iovecs control.passthrough
      let answer := host.sendmsg s.calls.length
      let calls := s.calls ++ [{ socket, message := segment, flags, answer }]
      if answer.value < 0 then pure (.inr { value := -1, errno := answer.errno, calls })
      else if answer.value ≠ segment_length then pure (.inr { value := -1, errno := EIO, calls })
      else pure (.inl { sent_total := s.sent_total + segment_length, calls })
  else pure (.inr { value := toSsize s.sent_total, errno := previous_errno, calls := s.calls })

def bionicSendmsg (host : Host) (socket : Int) (message : Option Msghdr) (flags : Int)
    (previous_errno : Nat) : Comp Unit Returned :=
  match message with
  | none => pure { value := -1, errno := EINVAL, calls := [] }
  | some message => do
    let answer := host.sendmsg 0
    let calls := [{ socket, message, flags, answer }]
    let errno := if answer.value = -1 then answer.errno else previous_errno
    if answer.value ≠ -1 ∨ !host.freeBsdLinuxulator ∨ !isUnsupportedSocketOptionError errno then
      pure { value := answer.value, errno, calls }
    else
      match ← attempt (parseControlMessages message) with
      | none => pure { value := -1, errno := EINVAL, calls }
      | some control =>
        if !control.udp_segment.present then pure { value := answer.value, errno, calls }
        else
          match iovecByteCount message with
          | none => pure { value := -1, errno := EINVAL, calls }
          | some total =>
            if total = 0 then pure { value := answer.value, errno, calls }
            else
              loop (sendRound host socket message flags previous_errno control total) (total + 1)
                { sent_total := 0, calls }

end Nightcap.Compat.Socket
