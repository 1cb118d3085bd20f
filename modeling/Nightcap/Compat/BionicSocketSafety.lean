import Nightcap.Compat.BionicSocket

/-! The datagrams of a segmented send are the pieces of its payload, each with the other control
messages. -/
namespace Nightcap.Compat.Socket

open Checked Pieces

variable {control : Bytes} {message : Msghdr} {n : Nat}

/-! Control messages. -/

/-- A control message: its header and its data. -/
abbrev ControlMessage := Bytes

def isUdpSegment (m : ControlMessage) : Bool :=
  (Header.read m).cmsg_level = kSolUdp ∧ (Header.read m).cmsg_type = kUdpSegment

/-- Where the next control message starts. -/
def aligned (length : Nat) : Nat := (length + 7) / 8 * 8

/-- The control messages of a buffer up to the first malformed one, and whether there is none. -/
def walk (control : Bytes) : List ControlMessage × Bool :=
  if control.length < kCmsgHeader then ([], true)
  else if (Header.read control).cmsg_len < kCmsgHeader ∨
      control.length < (Header.read control).cmsg_len then ([], false)
  else
    let rest := walk (control.drop (aligned (Header.read control).cmsg_len))
    (control.take (Header.read control).cmsg_len :: rest.1, rest.2)
termination_by control.length
decreasing_by
  rw [List.length_drop]
  simp only [kCmsgHeader, aligned] at *
  omega

/-- The size that the first UDP_SEGMENT message of a list asks for. -/
def segmentSize (ms : List ControlMessage) : Option Nat :=
  (ms.find? isUdpSegment).map fun m => number ((m.drop kCmsgHeader).take 2)

def others (ms : List ControlMessage) : List ControlMessage := ms.filter (! isUdpSegment ·)

/-- A control message up to where the next one starts. -/
def padded (m : ControlMessage) : Bytes := m ++ List.replicate (aligned m.length - m.length) 0

/-- What the control messages of a buffer come to. -/
def parsedOf (ms : List ControlMessage) : ParsedControlMessages where
  udp_segment :=
    match segmentSize ms with
    | none => {}
    | some size => { present := size != 0, segment_size := size }
  passthrough := (others ms).flatMap padded

theorem read_take (h : kCmsgHeader ≤ n) : Header.read (control.take n) = Header.read control := by
  rw [kCmsgHeader] at h
  have hdrop (k : Nat) (hk : k + 4 ≤ n) :
      ((control.take n).drop k).take 4 = (control.drop k).take 4 := by
    rw [List.drop_take, List.take_take]
    congr 1
    omega
  have hlen : (control.take n).take 8 = control.take 8 := by
    rw [List.take_take]
    congr 1
    omega
  rw [Header.read, Header.read, hlen, hdrop 8 (by omega), hdrop 12 (by omega)]

theorem cmsgAlign_eq (h : n ≤ kSizeMax - 7) : cmsgAlign n = aligned n := by
  rw [kSizeMax] at h
  rw [cmsgAlign, aligned, Nat.mod_eq_of_lt (by omega)]

theorem le_aligned (n : Nat) : n ≤ aligned n := by
  rw [aligned]
  omega

theorem walk_short (h : control.length < kCmsgHeader) : walk control = ([], true) := by
  rw [walk, if_pos h]

theorem walk_message (h : kCmsgHeader ≤ (Header.read control).cmsg_len)
    (hfit : (Header.read control).cmsg_len ≤ control.length) :
    walk control =
      (control.take (Header.read control).cmsg_len ::
          (walk (control.drop (aligned (Header.read control).cmsg_len))).1,
        (walk (control.drop (aligned (Header.read control).cmsg_len))).2) := by
  rw [walk, if_neg (by omega), if_neg (by omega)]

/-! What one more message comes to. -/

theorem segmentSize_snoc (ms : List ControlMessage) (m : ControlMessage) :
    segmentSize (ms ++ [m]) =
      if ms.any isUdpSegment then segmentSize ms
      else if isUdpSegment m then some (number ((m.drop kCmsgHeader).take 2)) else none := by
  rw [segmentSize, List.find?_append]
  cases hany : ms.any isUdpSegment with
  | true =>
    obtain ⟨k, hk, hudp⟩ := List.any_eq_true.1 hany
    obtain ⟨first, hfirst⟩ := Option.isSome_iff_exists.1 (List.find?_isSome.2 ⟨k, hk, hudp⟩)
    simp [segmentSize, hfirst]
  | false =>
    have hnone : ms.find? isUdpSegment = none :=
      List.find?_eq_none.2 fun k hk hudp => by
        rw [List.any_eq_true.2 ⟨k, hk, hudp⟩] at hany
        cases hany
    cases hm : isUdpSegment m <;> simp [hnone, hm]

theorem segmentSize_none {ms : List ControlMessage} (h : ms.any isUdpSegment = false) :
    segmentSize ms = none := by
  rw [segmentSize, List.find?_eq_none.2, Option.map_none]
  intro k hk hudp
  rw [List.any_eq_true.2 ⟨k, hk, hudp⟩] at h
  cases h

theorem others_snoc (ms : List ControlMessage) (m : ControlMessage) :
    others (ms ++ [m]) = if isUdpSegment m then others ms else others ms ++ [m] := by
  rw [others, List.filter_append]
  cases hm : isUdpSegment m <;> simp [hm, others]

/-- A second UDP_SEGMENT message is dropped. -/
theorem parsedOf_seen {ms : List ControlMessage} {m : ControlMessage} (hm : isUdpSegment m = true)
    (hseen : ms.any isUdpSegment = true) : parsedOf (ms ++ [m]) = parsedOf ms := by
  rw [parsedOf, parsedOf, segmentSize_snoc, if_pos hseen, others_snoc, if_pos hm]

theorem parsedOf_first {ms : List ControlMessage} {m : ControlMessage} (hm : isUdpSegment m = true)
    (hseen : ms.any isUdpSegment = false) :
    parsedOf (ms ++ [m]) =
      { parsedOf ms with udp_segment :=
          { present := number ((m.drop kCmsgHeader).take 2) != 0
            segment_size := number ((m.drop kCmsgHeader).take 2) } } := by
  have hfirst : segmentSize (ms ++ [m]) = some (number ((m.drop kCmsgHeader).take 2)) := by
    rw [segmentSize_snoc, if_neg (by rw [hseen]; exact Bool.false_ne_true), if_pos hm]
  rw [parsedOf, hfirst, others_snoc, if_pos hm]
  rfl

theorem parsedOf_other {ms : List ControlMessage} {m : ControlMessage}
    (hm : isUdpSegment m = false) :
    parsedOf (ms ++ [m]) =
      { parsedOf ms with passthrough := (parsedOf ms).passthrough ++ padded m } := by
  have hsize : segmentSize (ms ++ [m]) = segmentSize ms := by
    rw [segmentSize_snoc]
    split
    · rfl
    · rename_i hseen
      rw [segmentSize_none (Bool.eq_false_iff.2 hseen), hm]
      rfl
  rw [parsedOf, hsize, others_snoc, if_neg (by rw [hm]; exact Bool.false_ne_true),
    List.flatMap_append]
  simp [parsedOf]

/-! `ParseControlMessages`. -/

/-- The loop has read the messages `done`. -/
structure Read (control : Bytes) (s : Cursor) (done : List ControlMessage) : Prop where
  within : s.cursor + s.remaining = control.length
  walked : walk control =
    (done ++ (walk (control.drop s.cursor)).1, (walk (control.drop s.cursor)).2)
  seen : s.udp_segment_seen = done.any isUdpSegment
  result : s.result = parsedOf done
  small : s.result.passthrough.length ≤ kVectorMax

variable {s : Cursor} {done : List ControlMessage} {header : Header} {m : ControlMessage}

theorem read_start (control : Bytes) : Read control ⟨0, control.length, false, {}⟩ [] where
  within := Nat.zero_add _
  walked := rfl
  seen := rfl
  result := rfl
  small := Nat.zero_le _

theorem meets_parseMessage (h : Read control s done)
    (hm : m = (control.drop s.cursor).take m.length) (hheader : header = Header.read m)
    (hlen : header.cmsg_len = m.length) (hhigh : m.length ≤ s.remaining) :
    Meets (parseMessage control ⟨0, control.length⟩ s header (aligned m.length))
      (fun r => r.1 = (done ++ [m]).any isUdpSegment ∧ r.2 = parsedOf (done ++ [m]) ∧
        r.2.passthrough.length ≤ kVectorMax) (fun _ => True) := by
  have hwithin := h.within
  unfold parseMessage
  refine meets_ite (fun hudp => ?_) (fun hudp => ?_)
  · have hm' : isUdpSegment m = true := by
      rw [isUdpSegment, decide_eq_true_iff, ← hheader]
      exact hudp
    have hany : (done ++ [m]).any isUdpSegment = true := by
      rw [List.any_append, List.any_cons, hm']
      simp
    refine meets_ite (fun _ => meets_refuse trivial) (fun hsize => ?_)
    cases hseen : s.udp_segment_seen with
    | true =>
      rw [if_pos rfl]
      refine meets_pure ⟨hany.symm, ?_, h.small⟩
      rw [parsedOf_seen hm' (h.seen.symm.trans hseen)]
      exact h.result
    | false =>
      rw [if_neg Bool.false_ne_true]
      have hroom : s.cursor + cmsgAlign kCmsgHeader + 2 ≤ control.length := by
        have halign : cmsgAlign kCmsgHeader = 16 := by decide
        rw [cmsgLen, halign] at hsize
        omega
      refine meets_bind (meets_bytesAt_eq (by simp) hroom) fun size hbytes => ?_
      have hread : size = (m.drop kCmsgHeader).take 2 := by
        have halign : cmsgAlign kCmsgHeader = kCmsgHeader := by decide
        rw [hbytes, hm, List.drop_take, List.take_take, List.drop_drop, halign]
        have htwo : min 2 (m.length - kCmsgHeader) = 2 := by
          rw [cmsgLen, halign] at hsize
          omega
        rw [htwo]
        simp [Nat.add_comm]
      refine meets_pure ⟨hany.symm, ?_, h.small⟩
      rw [parsedOf_first hm' (h.seen.symm.trans hseen), h.result, hread]
  · have hm' : isUdpSegment m = false := by
      rw [isUdpSegment, decide_eq_false_iff_not, ← hheader]
      exact hudp
    refine meets_ite (fun _ => meets_refuse trivial) (fun hroom => ?_)
    have hsmall := h.small
    refine meets_bind (meets_bytesAt_eq (by simp) (by dsimp only; omega)) fun bytes hbytes => ?_
    have hread : bytes = m := by
      rw [hbytes, hlen, hm]
      simp
    have hpad : s.result.passthrough ++ bytes ++
        List.replicate (aligned m.length - header.cmsg_len) 0 =
          s.result.passthrough ++ padded m := by
      rw [hread, hlen, padded, List.append_assoc]
    refine meets_pure ⟨?_, ?_, ?_⟩
    · rw [h.seen, List.any_append, List.any_cons, hm']
      simp
    · rw [parsedOf_other hm', hpad, h.result]
    · have hle := le_aligned m.length
      simp only [hread, hlen, List.length_append, List.length_replicate]
      omega

theorem meets_parseRound (h : Read control s done) :
    Meets (parseRound control ⟨0, control.length⟩ s)
      (Sum.elim (fun t => (∃ done, Read control t done) ∧ t.remaining < s.remaining)
        (fun parsed => ∃ ms, walk control = (ms, true) ∧ parsed = parsedOf ms ∧
          parsed.passthrough.length ≤ kVectorMax)) (fun _ => True) := by
  have hwithin := h.within
  unfold parseRound
  refine meets_ite (fun hmore => ?_) (fun hlast => ?_)
  · have hroom : s.cursor + kCmsgHeader ≤ control.length := by omega
    refine meets_bind (meets_bytesAt_eq (by simp) hroom) fun bytes hbytes => ?_
    have hbytes' : bytes = (control.drop s.cursor).take kCmsgHeader := by
      rw [hbytes]
      simp
    have hheader : Header.read bytes = Header.read (control.drop s.cursor) := by
      rw [hbytes', read_take le_rfl]
    refine meets_ite (fun _ => meets_refuse trivial) (fun hfits => ?_)
    refine meets_ite (fun _ => meets_refuse trivial) (fun _ => ?_)
    obtain ⟨m, hmdef⟩ : ∃ m, m = (control.drop s.cursor).take (Header.read bytes).cmsg_len :=
      ⟨_, rfl⟩
    have hlen : (Header.read bytes).cmsg_len = m.length := by
      rw [hmdef, List.length_take, List.length_drop]
      omega
    have hread : Header.read bytes = Header.read m := by
      rw [hheader, hmdef, read_take (by omega)]
    have halign : cmsgAlign (Header.read bytes).cmsg_len = aligned m.length := by
      rw [hlen, cmsgAlign_eq (by omega)]
    rw [halign]
    refine meets_bind (meets_parseMessage h (by rw [← hlen]; exact hmdef) hread hlen
      (by omega)) fun r hr => ?_
    obtain ⟨seen, result⟩ := r
    obtain ⟨hseen, hresult, hsmall⟩ := hr
    have hpast := le_aligned m.length
    refine meets_pure ⟨⟨done ++ [m], ?_, ?_, hseen, hresult, hsmall⟩, ?_⟩
    · dsimp only
      omega
    · have hlow : kCmsgHeader ≤ (Header.read (control.drop s.cursor)).cmsg_len := by
        rw [← hheader]
        omega
      have hhigh : (Header.read (control.drop s.cursor)).cmsg_len ≤
          (control.drop s.cursor).length := by
        rw [← hheader, List.length_drop]
        omega
      have hmsg := walk_message hlow hhigh
      have hdrop : (control.drop s.cursor).drop (aligned m.length) =
          control.drop (s.cursor + min (aligned m.length) s.remaining) := by
        rw [List.drop_drop]
        rcases Nat.le_total (aligned m.length) s.remaining with hin | hout
        · rw [Nat.min_eq_left hin]
        · rw [Nat.min_eq_right hout, List.drop_eq_nil_of_le (by omega),
            List.drop_eq_nil_of_le (by omega)]
      rw [h.walked, hmsg, ← hheader, hlen, hdrop, hmdef]
      simp [hlen]
    · have hsixteen : kCmsgHeader = 16 := rfl
      dsimp only
      omega
  · refine meets_pure ⟨done, ?_, h.result, h.small⟩
    have hshort : walk (control.drop s.cursor) = ([], true) :=
      walk_short (by rw [List.length_drop]; omega)
    rw [h.walked, hshort, List.append_nil]

/-- The control messages of a message, where its pointer is not null. -/
def controlOf (message : Msghdr) : Bytes := message.msg_control.items.getD []

/-- `ParseControlMessages` ends, reads inside the control buffer only, and what it accepts is a run
of control messages. -/
theorem meets_parseControlMessages (message : Msghdr) :
    Meets (parseControlMessages message) (fun parsed => ∃ ms,
      walk (controlOf message) = (ms, true) ∧ parsed = parsedOf ms ∧
        parsed.passthrough.length ≤ kVectorMax) (fun _ => True) := by
  have hbacked := message.msg_control.backed
  unfold parseControlMessages
  refine meets_ite (fun hempty => ?_) (fun _ => ?_)
  · have hcontrol : controlOf message = [] := by
      rw [controlOf]
      cases hitems : message.msg_control.items with
      | none => rfl
      | some control => exact List.eq_nil_of_length_eq_zero ((hbacked control hitems).trans hempty)
    refine meets_pure ⟨[], ?_, rfl, Nat.zero_le _⟩
    rw [hcontrol, walk_short (by decide)]
  · cases hitems : message.msg_control.items with
    | none => exact meets_refuse trivial
    | some control =>
      have hcontrol : controlOf message = control := by rw [controlOf, hitems, Option.getD_some]
      rw [← hbacked control hitems, hcontrol]
      refine meets_loop (fun s => ∃ done, Read control s done) Cursor.remaining ?_
        ⟨[], read_start control⟩ (Nat.lt_succ_self _)
      intro s hs
      obtain ⟨done, h⟩ := hs
      exact meets_parseRound h

/-! The other control messages of a segment. -/

/-- A control message as long as it says. -/
def Sound (m : ControlMessage) : Prop :=
  kCmsgHeader ≤ m.length ∧ (Header.read m).cmsg_len = m.length

theorem sound_of_mem_walk (h : m ∈ (walk control).1) : Sound m := by
  fun_induction walk control with
  | case1 control hshort => cases h
  | case2 control hlong hbad => cases h
  | case3 control hlong hgood rest ih =>
    obtain rfl | h := List.mem_cons.1 h
    · have hsize : (control.take (Header.read control).cmsg_len).length =
          (Header.read control).cmsg_len := by
        rw [List.length_take]
        omega
      exact ⟨by omega, by rw [hsize, read_take (by omega)]⟩
    · exact ih h

/-- Reading control messages that were put beside each other gives them back. -/
theorem walk_padded {ms : List ControlMessage} (h : ∀ m ∈ ms, Sound m) :
    walk (ms.flatMap padded) = (ms, true) := by
  induction ms with
  | nil => exact walk_short (by decide)
  | cons m ms ih =>
    obtain ⟨hlow, hlen⟩ := h m (List.mem_cons_self ..)
    have hrest := ih fun k hk => h k (List.mem_cons_of_mem _ hk)
    have hpad := le_aligned m.length
    have htake : (padded m ++ ms.flatMap padded).take m.length = m := by
      rw [padded, List.append_assoc, List.take_left]
    have hsize : (padded m).length = aligned m.length := by
      rw [padded, List.length_append, List.length_replicate]
      omega
    have hread : (Header.read (padded m ++ ms.flatMap padded)).cmsg_len = m.length := by
      rw [← read_take hlow, htake, hlen]
    rw [List.flatMap_cons,
      walk_message (by omega) (by rw [hread, List.length_append]; omega), hread,
      htake, List.drop_left' hsize, hrest]

/-! The payload of a segment. -/

variable {mem : Nat → UInt8} {iovecs : List Iovec} {offset length total : Nat}

def Iovec.bytes (mem : Nat → UInt8) (v : Iovec) : Bytes :=
  (List.range v.iov_len).map fun i => mem (v.iov_base + i)

/-- The bytes that a send of these vectors is of. -/
def gather (mem : Nat → UInt8) (iovecs : List Iovec) : Bytes := iovecs.flatMap (Iovec.bytes mem)

theorem length_bytes (mem : Nat → UInt8) (v : Iovec) : (v.bytes mem).length = v.iov_len := by
  rw [Iovec.bytes, List.length_map, List.length_range]

theorem bytes_part (mem : Nat → UInt8) {v : Iovec} (h : offset + length ≤ v.iov_len) :
    Iovec.bytes mem ⟨v.iov_base + offset, length⟩ = ((v.bytes mem).drop offset).take length := by
  refine List.ext_getElem ?_ fun i hi hi' => ?_
  · rw [length_bytes, List.length_take, List.length_drop, length_bytes]
    dsimp only
    omega
  · simp [Iovec.bytes, Nat.add_assoc]

theorem gather_slice (mem : Nat → UInt8) (iovecs : List Iovec) (offset length : Nat) :
    gather mem (slice iovecs offset length) = ((gather mem iovecs).drop offset).take length := by
  induction iovecs generalizing offset length with
  | nil => simp [slice, gather]
  | cons v rest ih =>
    have hsize := length_bytes mem v
    have hgather : gather mem (v :: rest) = v.bytes mem ++ gather mem rest := List.flatMap_cons
    rw [slice, hgather]
    split
    · rename_i hzero
      rw [hzero, List.take_zero]
      rfl
    · split
      · rename_i hpast
        have hnone : (v.bytes mem).drop offset = [] := List.drop_eq_nil_of_le (by omega)
        rw [ih, List.drop_append, hnone, List.nil_append, hsize]
      · rename_i hin
        have hpart : Iovec.bytes mem ⟨v.iov_base + offset, min (v.iov_len - offset) length⟩ =
            ((v.bytes mem).drop offset).take length := by
          rw [bytes_part mem (by omega), ← hsize, ← List.length_drop]
          exact List.take_eq_take_iff.2 (by omega)
        have hcons : gather mem (⟨v.iov_base + offset, min (v.iov_len - offset) length⟩ ::
            slice rest 0 (length - min (v.iov_len - offset) length)) =
              Iovec.bytes mem ⟨v.iov_base + offset, min (v.iov_len - offset) length⟩ ++
                gather mem (slice rest 0 (length - min (v.iov_len - offset) length)) :=
          List.flatMap_cons
        rw [hcons, hpart, ih, List.drop_zero, List.drop_append_of_le_length (by omega),
          List.take_append, List.length_drop, hsize]
        congr 2
        omega

theorem addLengths_some (mem : Nat → UInt8) {n : Nat} (hroom : n ≤ kSizeMax)
    (h : addLengths iovecs n = some total) :
    total = n + (gather mem iovecs).length ∧ total ≤ kSizeMax := by
  induction iovecs generalizing n with
  | nil =>
    obtain rfl := Option.some.inj h
    exact ⟨by simp [gather], hroom⟩
  | cons v rest ih =>
    rw [addLengths] at h
    split at h
    · cases h
    · obtain ⟨hsum, hmax⟩ := ih (by omega) h
      have hsize := length_bytes mem v
      refine ⟨?_, hmax⟩
      rw [hsum, gather, gather, List.flatMap_cons, List.length_append, hsize, Nat.add_assoc]

/-- The payload of a message. -/
def payload (mem : Nat → UInt8) (message : Msghdr) : Bytes :=
  gather mem (message.msg_iov.items.getD [])

theorem iovecByteCount_some (mem : Nat → UInt8) (h : iovecByteCount message = some total) :
    total = (payload mem message).length ∧ total ≤ kSizeMax := by
  unfold iovecByteCount at h
  split at h
  · cases h
  · rw [payload]
    cases hitems : message.msg_iov.items with
    | none =>
      rw [hitems] at h
      dsimp only at h
      split at h
      · cases h
      · obtain rfl := Option.some.inj h
        exact ⟨rfl, Nat.zero_le _⟩
    | some iovecs =>
      rw [hitems] at h
      have hsum := addLengths_some mem (Nat.zero_le _) h
      rwa [Nat.zero_add] at hsum

/-! Sending. -/

/-- What one send hands to the socket. -/
structure Datagram where
  name : Nat
  namelen : Nat
  payload : Bytes
  control : List ControlMessage

def Msghdr.datagram (mem : Nat → UInt8) (message : Msghdr) : Datagram where
  name := message.msg_name
  namelen := message.msg_namelen
  payload := payload mem message
  control := (walk (controlOf message)).1

/-- The datagrams that left: those whose send came back with no error. -/
def Returned.sent (mem : Nat → UInt8) (r : Returned) : List Datagram :=
  (r.calls.filter (0 ≤ ·.answer.value)).map (·.message.datagram mem)

/-- A piece of the payload, with the other control messages. -/
def pieceOf (message : Msghdr) (piece : Bytes) : Datagram where
  name := message.msg_name
  namelen := message.msg_namelen
  payload := piece
  control := others (walk (controlOf message)).1

theorem items_ofList {α : Type} (xs : List α) (h : xs.length < 2 ^ 64) :
    (Counted.ofList xs h).items.getD [] = xs := by
  rw [Counted.ofList]
  dsimp only
  split
  · rename_i hempty
    rw [hempty, Option.getD_none]
  · rfl

theorem meets_segmentOf (mem : Nat → UInt8) (message : Msghdr) {iovecs : List Iovec}
    {passthrough : Bytes} (hiov : iovecs.length < 2 ^ 64) (hpass : passthrough.length < 2 ^ 64) :
    Meets (segmentOf message iovecs passthrough)
      (fun segment => segment.datagram mem =
        { name := message.msg_name, namelen := message.msg_namelen
          payload := gather mem iovecs, control := (walk passthrough).1 }) (fun _ => False) := by
  rw [segmentOf, dif_pos ⟨hiov, hpass⟩]
  refine meets_pure ?_
  dsimp only [Msghdr.datagram, payload, controlOf]
  rw [items_ofList, items_ofList]

/-- A segment is the piece of the payload it was cut for. -/
theorem segment_eq (mem : Nat → UInt8) (message : Msghdr) (offset length : Nat) :
    ({ name := message.msg_name, namelen := message.msg_namelen
       payload := gather mem (sliceIovecs message offset length)
       control := (walk ((others (walk (controlOf message)).1).flatMap padded)).1 } : Datagram) =
      pieceOf message (((payload mem message).drop offset).take length) := by
  have hsound : ∀ m ∈ others (walk (controlOf message)).1, Sound m :=
    fun m hm => sound_of_mem_walk (List.mem_filter.1 hm).1
  have hpayload : gather mem (sliceIovecs message offset length) =
      ((payload mem message).drop offset).take length := gather_slice mem _ offset length
  rw [hpayload, walk_padded hsound, pieceOf]

theorem length_slice_le (iovecs : List Iovec) (offset length : Nat) :
    (slice iovecs offset length).length ≤ iovecs.length := by
  induction iovecs generalizing offset length with
  | nil => exact Nat.le_refl _
  | cons v rest ih =>
    have hcons (n l : Nat) := ih n l
    rw [slice, List.length_cons]
    split
    · exact Nat.zero_le _
    · split
      · exact (hcons _ _).trans (Nat.le_succ _)
      · rw [List.length_cons]
        exact Nat.succ_le_succ (hcons _ _)

theorem length_sliceIovecs_lt (message : Msghdr) (offset length : Nat) :
    (sliceIovecs message offset length).length < 2 ^ 64 := by
  have hle := length_slice_le (message.msg_iov.items.getD []) offset length
  have hroom := message.msg_iov.addressable
  rw [sliceIovecs]
  cases hitems : message.msg_iov.items with
  | none =>
    rw [Option.getD_none, slice]
    exact Nat.two_pow_pos _
  | some iovecs =>
    have hcount := message.msg_iov.backed iovecs hitems
    rw [hitems, Option.getD_some] at hle
    rw [Option.getD_some]
    omega

variable {host : Host} {socket flags : Int} {previous_errno size : Nat}
  {control : ParsedControlMessages}
  {direct : Call} {sending : Sending} {sent rest : List Bytes} {piece : Bytes} {r : Returned}

/-- The `k`-th send of a piece takes all of it. -/
def Whole (host : Host) (k : Nat) (piece : Bytes) : Prop :=
  (host.sendmsg (k + 1)).value = piece.length

/-- The loop has sent the first pieces, `rest` being left. -/
structure Sent (mem : Nat → UInt8) (host : Host) (message : Msghdr) (direct : Call) (size : Nat)
    (sending : Sending) (sent rest : List Bytes) : Prop where
  within : sending.sent_total ≤ (payload mem message).length
  cut : pieces size (payload mem message) = sent ++ rest
  rest : rest = if sending.sent_total < (payload mem message).length then
    pieces size ((payload mem message).drop sending.sent_total) else []
  calls : ∃ taken, sending.calls = direct :: taken ∧ taken.length = sent.length ∧
    taken.map (·.message.datagram mem) = sent.map (pieceOf message) ∧
      ∀ call ∈ taken, 0 ≤ call.answer.value
  whole : ∀ k piece, sent[k]? = some piece → Whole host k piece

/-- How the loop ends. -/
inductive Ending (mem : Nat → UInt8) (host : Host) (message : Msghdr)
    (size : Nat) (r : Returned) : Prop
  | all (whole : ∀ k piece, (pieces size (payload mem message))[k]? = some piece →
    Whole host k piece)
      (value : r.value = toSsize (payload mem message).length)
      (sent : r.sent mem = (pieces size (payload mem message)).map (pieceOf message))
  | failed (sent : List Bytes) (piece : Bytes) (rest : List Bytes)
      (cut : pieces size (payload mem message) = sent ++ piece :: rest)
      (whole : ∀ k piece, sent[k]? = some piece → Whole host k piece)
      (fails : ¬ Whole host sent.length piece) (value : r.value = -1)
      (took : r.sent mem = if 0 ≤ (host.sendmsg (sent.length + 1)).value then
        (sent ++ [piece]).map (pieceOf message) else sent.map (pieceOf message))

theorem Sent.returned (h : Sent mem host message direct size sending sent rest)
    (hdirect : direct.answer.value < 0) {value : Int} {errno : Nat} :
    Returned.sent mem { value, errno, calls := sending.calls } = sent.map (pieceOf message) := by
  obtain ⟨taken, hcalls, -, hmap, hall⟩ := h.calls
  have hfilter : (direct :: taken).filter (0 ≤ ·.answer.value) = taken := by
    rw [List.filter_cons_of_neg (by simpa using hdirect), List.filter_eq_self]
    intro call hcall
    simpa using hall call hcall
  rw [Returned.sent, hcalls, hfilter, hmap]

/-- A last send counts where it came back with no error. -/
theorem Sent.returned_snoc (h : Sent mem host message direct size sending sent rest)
    (hdirect : direct.answer.value < 0) {call : Call} {value : Int} {errno : Nat}
    (hdatagram : call.message.datagram mem = pieceOf message piece) :
    Returned.sent mem { value, errno, calls := sending.calls ++ [call] } =
      if 0 ≤ call.answer.value then (sent ++ [piece]).map (pieceOf message)
      else sent.map (pieceOf message) := by
  have hsent : Returned.sent mem { value, errno, calls := sending.calls } =
      sent.map (pieceOf message) := h.returned hdirect
  rw [Returned.sent] at hsent ⊢
  rw [List.filter_append, List.map_append, hsent]
  split
  · rename_i hanswer
    simp [hanswer, hdatagram]
  · rename_i hanswer
    simp [hanswer]

/-- The loop has sent one more piece. -/
theorem Sent.snoc (h : Sent mem host message direct size sending sent (piece :: rest)) {call : Call}
    (hdatagram : call.message.datagram mem = pieceOf message piece)
    (hanswer : call.answer = host.sendmsg sending.calls.length)
    (hwhole : call.answer.value = piece.length) {n : Nat} (hn : n ≤ (payload mem message).length)
    (hrest : rest = if n < (payload mem message).length then
      pieces size ((payload mem message).drop n) else []) :
    Sent mem host message direct size { sent_total := n, calls := sending.calls ++ [call] }
      (sent ++ [piece]) rest := by
  obtain ⟨taken, hcalls, hlength, hmap, hall⟩ := h.calls
  have hindex : sending.calls.length = sent.length + 1 := by
    rw [hcalls, List.length_cons, hlength]
  refine ⟨hn, ?_, hrest, ⟨taken ++ [call], ?_, ?_, ?_, ?_⟩, ?_⟩
  · rw [h.cut, List.append_assoc, List.singleton_append]
  · rw [hcalls, List.cons_append]
  · rw [List.length_append, List.length_append, hlength]
    rfl
  · rw [List.map_append, List.map_append, hmap, List.map_singleton, List.map_singleton, hdatagram]
  · intro c hc
    obtain hc | hc := List.mem_append.1 hc
    · exact hall c hc
    · obtain rfl := List.mem_singleton.1 hc
      omega
  · intro k p hk
    rcases Nat.lt_trichotomy k sent.length with hlt | rfl | hgt
    · exact h.whole k p (by rwa [List.getElem?_append_left hlt] at hk)
    · rw [List.getElem?_concat_length] at hk
      obtain rfl := Option.some.inj hk
      rw [Whole, ← hindex, ← hanswer, hwhole]
    · rw [List.getElem?_eq_none (by rw [List.length_append, List.length_singleton]; omega)] at hk
      cases hk

theorem meets_sendRound (hsize : 0 < size)
    (hcontrol : control = parsedOf (walk (controlOf message)).1)
    (hseg : control.udp_segment.segment_size = size)
    (hpass : control.passthrough.length ≤ kVectorMax) (hdirect : direct.answer.value < 0)
    (h : Sent mem host message direct size sending sent rest) :
    Meets (sendRound host socket message flags previous_errno control
        (payload mem message).length sending)
      (Sum.elim (fun t => (∃ sent rest, Sent mem host message direct size t sent rest) ∧
          (payload mem message).length - t.sent_total <
            (payload mem message).length - sending.sent_total)
        (Ending mem host message size)) (fun _ => False) := by
  have hrest := h.rest
  unfold sendRound
  refine meets_ite (fun hmore => ?_) (fun hlast => ?_)
  · dsimp only
    rw [hseg]
    obtain ⟨segment_length, hlen⟩ : ∃ n, n = min size ((payload mem message).length -
      sending.sent_total) := ⟨_, rfl⟩
    rw [← hlen]
    rw [if_pos hmore, pieces_eq hsize, List.length_drop, ← hlen] at hrest
    have hpiece : gather mem (sliceIovecs message sending.sent_total segment_length) =
        ((payload mem message).drop sending.sent_total).take segment_length :=
      gather_slice mem _ _ _
    have htake : (((payload mem message).drop sending.sent_total).take segment_length).length =
        segment_length := by
      rw [List.length_take, List.length_drop]
      omega
    refine meets_ite (fun hnone => ?_) (fun _ => ?_)
    · rw [hnone, gather, List.flatMap_nil] at hpiece
      rw [← hpiece, List.length_nil] at htake
      omega
    · have hroom : control.passthrough.length < 2 ^ 64 := by
        rw [kVectorMax] at hpass
        omega
      refine meets_bind (meets_segmentOf mem message (length_sliceIovecs_lt _ _ _) hroom)
        fun segment hsegment => ?_
      rw [hcontrol] at hsegment
      have hdatagram := hsegment.trans (segment_eq mem message _ _)
      subst hrest
      obtain ⟨taken, hcalls, hlength, -, -⟩ := h.calls
      have hindex : sending.calls.length = sent.length + 1 := by
        rw [hcalls, List.length_cons, hlength]
      refine meets_ite (fun hfail => ?_) (fun htaken => ?_)
      · refine meets_pure (.failed sent _ _ h.cut h.whole ?_ rfl ?_)
        · rw [Whole, ← hindex, htake]
          omega
        · rw [h.returned_snoc hdirect hdatagram, hindex]
      · refine meets_ite (fun hshort => ?_) (fun hwhole => ?_)
        · refine meets_pure (.failed sent _ _ h.cut h.whole ?_ rfl ?_)
          · rw [Whole, ← hindex, htake]
            exact hshort
          · rw [h.returned_snoc hdirect hdatagram, hindex]
        · refine meets_pure ⟨⟨_, _, h.snoc hdatagram rfl ?_ (by omega) ?_⟩, ?_⟩
          · rw [htake]
            exact not_not.1 hwhole
          · rcases Nat.lt_or_ge size ((payload mem message).length - sending.sent_total) with
                hin | hout
            · rw [if_pos hin, if_pos (by omega), List.drop_drop, hlen, Nat.min_eq_left hin.le]
            · rw [if_neg (by omega), if_neg (by omega)]
          · dsimp only
            omega
  · rw [if_neg hlast] at hrest
    subst hrest
    have hcut : pieces size (payload mem message) = sent := by rw [h.cut, List.append_nil]
    refine meets_pure (.all ?_ ?_ ?_)
    · rw [hcut]
      exact h.whole
    · have hwithin := h.within
      have hall : sending.sent_total = (payload mem message).length := by omega
      rw [hall]
    · rw [hcut]
      exact h.returned hdirect

theorem meets_sendLoop (direct : Call) (hsize : 0 < size)
    (hcontrol : control = parsedOf (walk (controlOf message)).1)
    (hseg : control.udp_segment.segment_size = size)
    (hpass : control.passthrough.length ≤ kVectorMax) (hdirect : direct.answer.value < 0)
    (hpayload : payload mem message ≠ []) :
    Meets (loop (sendRound host socket message flags previous_errno control
        (payload mem message).length) ((payload mem message).length + 1)
        { sent_total := 0, calls := [direct] })
      (Ending mem host message size) (fun _ => False) := by
  refine meets_loop (fun s => ∃ sent rest, Sent mem host message direct size s sent rest)
    (fun s => (payload mem message).length - s.sent_total) ?_ ?_ (by dsimp only; omega)
  · intro s hs
    obtain ⟨sent, rest, h⟩ := hs
    exact meets_sendRound hsize hcontrol hseg hpass hdirect h
  · refine ⟨[], _, Nat.zero_le _, rfl, ?_, ⟨[], rfl, rfl, rfl, ?_⟩, ?_⟩
    · rw [if_pos (List.length_pos_of_ne_nil hpayload), List.drop_zero]
    · intro call hcall
      cases hcall
    · intro k piece hk
      cases hk

/-! The claim of the segmented send. -/

/-- A send that has to be made one datagram at a time. -/
structure Fallback (host : Host) (message : Msghdr) (size : Nat) : Prop where
  direct : (host.sendmsg 0).value = -1
  linuxulator : host.freeBsdLinuxulator = true
  unsupported : isUnsupportedSocketOptionError (host.sendmsg 0).errno = true
  segment : segmentSize (walk (controlOf message)).1 = some size
  positive : 0 < size

/-- Nothing is sent: the control buffer or the vectors are malformed, or there is no payload. -/
def Refused (message : Msghdr) : Prop :=
  (∀ parsed, parseControlMessages message ≠ .ok parsed) ∨ iovecByteCount message = none ∨
    iovecByteCount message = some 0

/-- The datagrams are the first pieces of the payload; all of them where the call returns the size
of the payload, and none where it returns -1. -/
structure Delivered (mem : Nat → UInt8) (message : Msghdr) (size : Nat) (r : Returned) : Prop where
  order : r.sent mem <+: (pieces size (payload mem message)).map (pieceOf message)
  full : r.value = (payload mem message).length ↔
    r.sent mem = (pieces size (payload mem message)).map (pieceOf message)
  none : r.value = -1 → r.sent mem = []

/-- The first send fails, or every one takes its piece. -/
def AllOrNothing (mem : Nat → UInt8) (host : Host) (message : Msghdr) (size : Nat) : Prop :=
  (host.sendmsg 1).value < 0 ∨ (payload mem message).length < 2 ^ 63 ∧
    ∀ k piece, (pieces size (payload mem message))[k]? = some piece → Whole host k piece

theorem bionicSendmsg_cases (mem : Nat → UInt8) (h : Fallback host message size) :
    ∃ r, bionicSendmsg host socket (some message) flags previous_errno = .ok r ∧
      (Refused message ∧ r.value = -1 ∧ r.sent mem = [] ∨
        ¬ Refused message ∧ Ending mem host message size r) := by
  have hanswer := h.direct
  have hparsed := meets_parseControlMessages message
  have hnothing (errno : Nat) : Returned.sent mem
      { value := -1, errno, calls := [{ socket, message, flags, answer := host.sendmsg 0 }] } =
      [] := by
    simp [Returned.sent, hanswer]
  rw [bionicSendmsg]
  simp only [hanswer, h.linuxulator, h.unsupported, if_true, ne_eq, not_true, Bool.not_true,
    Bool.false_eq_true, or_self, if_false]
  cases hparse : parseControlMessages message with
  | error stop =>
    rw [hparse] at hparsed
    cases stop with
    | fault f => exact hparsed.elim
    | refused e =>
      have hrefused : Refused message := .inl fun parsed hok => by
        rw [hparse] at hok
        cases hok
      exact ⟨_, rfl, .inl ⟨hrefused, rfl, hnothing _⟩⟩
  | ok control =>
    rw [hparse] at hparsed
    obtain ⟨ms, hwalk, rfl, hpass⟩ := hparsed
    have hms : (walk (controlOf message)).1 = ms := congrArg Prod.fst hwalk
    have hsegment : segmentSize ms = some size := hms ▸ h.segment
    have hudp : (parsedOf ms).udp_segment = { present := true, segment_size := size } := by
      have hpresent : (size != 0) = true := bne_iff_ne.2 (Nat.pos_iff_ne_zero.1 h.positive)
      simp only [parsedOf, hsegment, hpresent]
    have hok : (attempt (Except.ok (parsedOf ms) : Comp Unit _) : Comp Unit _) =
      pure (some (parsedOf ms)) := rfl
    rw [hok, pure_bind]
    simp only [hudp, Bool.not_true, Bool.false_eq_true, if_false]
    cases hcount : iovecByteCount message with
    | none => exact ⟨_, rfl, .inl ⟨.inr (.inl hcount), rfl, hnothing _⟩⟩
    | some total =>
      obtain ⟨htotal, -⟩ := iovecByteCount_some mem hcount
      dsimp only
      split
      · rename_i hzero
        exact ⟨_, rfl, .inl ⟨.inr (.inr (hzero ▸ hcount)), rfl, hnothing _⟩⟩
      · rename_i hsome
        have hpayload : payload mem message ≠ [] := by
          intro hempty
          rw [hempty] at htotal
          exact hsome htotal
        have hrefused : ¬ Refused message := by
          rintro (hbad | hbad | hbad)
          · exact hbad _ hparse
          · rw [hcount] at hbad
            cases hbad
          · rw [hcount] at hbad
            exact hsome (Option.some.inj hbad)
        rw [htotal]
        obtain ⟨r, hloop, hending⟩ :=
          (meets_sendLoop { socket, message, flags, answer := host.sendmsg 0 }
            h.positive (by rw [hms]) (by rw [hudp]) hpass (hanswer ▸ by decide) hpayload).ok
        exact ⟨r, hloop, .inr ⟨hrefused, hending⟩⟩

theorem toSsize_eq {n : Nat} : toSsize n = n ↔ n < 2 ^ 63 := by
  constructor
  · intro heq
    have hlt : toSsize n < ((2 ^ 64 : Nat) + 1) / 2 := Int.bmod_lt (Nat.two_pow_pos 64)
    omega
  · intro hlt
    have hlow : -((2 ^ 64 : Nat) : Int) ≤ (n : Int) * 2 := by omega
    have hhigh : (n : Int) * 2 < (2 ^ 64 : Nat) := by omega
    exact Int.bmod_eq_of_le_mul_two hlow hhigh

theorem map_pieces_ne_nil (mem : Nat → UInt8) (message : Msghdr) (size : Nat) :
    (pieces size (payload mem message)).map (pieceOf message) ≠ [] := by
  rw [Ne, List.map_eq_nil_iff]
  exact pieces_ne_nil size _

/-- A call that sends nothing and says so. -/
theorem delivered_nothing (hvalue : r.value = -1) (hsent : r.sent mem = []) :
    Delivered mem message size r where
  order := hsent ▸ List.nil_prefix
  full := by
    constructor
    · intro h
      omega
    · intro h
      exact absurd (h.symm.trans hsent) (map_pieces_ne_nil mem message size)
  none := fun _ => hsent

theorem Ending.delivered_iff (h : Ending mem host message size r) :
    Delivered mem message size r ↔ AllOrNothing mem host message size := by
  cases h with
  | all whole value sent =>
    constructor
    · intro h
      have hfull := h.full.2 sent
      exact .inr ⟨toSsize_eq.1 (value.symm.trans hfull), whole⟩
    · intro h
      have hroom : (payload mem message).length < 2 ^ 63 := by
        rcases h with hfails | ⟨hroom, -⟩
        · obtain ⟨piece, rest, hcut⟩ :=
            List.exists_cons_of_ne_nil (pieces_ne_nil size (payload mem message))
          have hfirst : (host.sendmsg 1).value = piece.length := whole 0 piece (by rw [hcut]; rfl)
          omega
        · exact hroom
      have hvalue := value.trans (toSsize_eq.2 hroom)
      refine ⟨sent ▸ List.prefix_rfl, ⟨fun _ => sent, fun _ => hvalue⟩, fun hfail => ?_⟩
      omega
  | failed done piece rest cut whole fails value took =>
    constructor
    · intro h
      have hnone := h.none value
      rw [took] at hnone
      split at hnone
      · simp at hnone
      · rename_i hanswer
        obtain rfl := List.map_eq_nil_iff.1 hnone
        exact .inl (by simpa using hanswer)
    · rintro (hfails | ⟨-, hall⟩)
      · cases done with
        | nil =>
          refine delivered_nothing value ?_
          rw [took, if_neg (by simpa using hfails)]
          rfl
        | cons first done =>
          have hfirst : (host.sendmsg 1).value = first.length := whole 0 first rfl
          omega
      · exact absurd (hall done.length piece (by rw [cut]; simp)) fails

/-- `ParseControlMessages` never reads outside its buffer and always ends; and a segmented send
keeps its word where nothing is refused exactly if its sends are all or nothing. -/
theorem bionicSendmsg_iff (mem : Nat → UInt8) (host : Host) (socket : Int) (message : Msghdr)
    (flags : Int) (previous_errno size : Nat) :
    (∀ f, parseControlMessages message ≠ .error (.fault f)) ∧
      (Fallback host message size →
        ∃ r, bionicSendmsg host socket (some message) flags previous_errno = .ok r ∧
          (Delivered mem message size r ↔ Refused message ∨
            AllOrNothing mem host message size)) := by
  constructor
  · intro f hfault
    have hparsed := meets_parseControlMessages message
    rw [hfault] at hparsed
    exact hparsed
  · intro h
    obtain ⟨r, hcall, ⟨hrefused, hvalue, hsent⟩ | ⟨hrefused, hending⟩⟩ := bionicSendmsg_cases mem h
    · exact ⟨r, hcall, iff_of_true (delivered_nothing hvalue hsent) (.inl hrefused)⟩
    · refine ⟨r, hcall, ?_⟩
      rw [hending.delivered_iff, or_iff_right hrefused]

/-- The header of a UDP_SEGMENT message of 18 bytes and what it asks for: segments of 2 bytes. -/
def segmentTwo : Bytes :=
  [18, 0, 0, 0, 0, 0, 0, 0, 17, 0, 0, 0, 103, 0, 0, 0, 2, 0]

/-- Four bytes in two vectors, with an empty one between. -/
def fourBytes : Msghdr where
  msg_name := 0
  msg_namelen := 0
  msg_iov := .ofList [⟨0, 3⟩, ⟨8, 0⟩, ⟨16, 1⟩] (by decide)
  msg_control := .ofList segmentTwo (by decide)
  msg_flags := 0

theorem segmentSize_fourBytes : segmentSize (walk (controlOf fourBytes)).1 = some 2 := by
  have hlen : (Header.read segmentTwo).cmsg_len = 18 := by decide
  have hcontrol : controlOf fourBytes = segmentTwo := rfl
  rw [hcontrol, walk_message (by rw [hlen]; decide) (by rw [hlen]; decide), hlen,
    walk_short (by decide)]
  decide

/-- A host that refuses the segmented send and takes every datagram of two bytes. -/
def takesTwo : Host where
  freeBsdLinuxulator := true
  sendmsg k := if k = 0 then { value := -1, errno := EINVAL } else { value := 2 }

theorem pieces_fourBytes : pieces 2 (payload (fun _ => 0) fourBytes) = [[0, 0], [0, 0]] := by
  have hpayload : payload (fun _ => 0) fourBytes = [0, 0, 0, 0] := by decide
  rw [hpayload, pieces_cons (by decide) (by decide), pieces_last (by decide)]
  rfl

theorem bionicSendmsg_iff_fourBytes :
    ∃ r, bionicSendmsg takesTwo 3 (some fourBytes) 0 0 = .ok r ∧
      Delivered (fun _ => 0) fourBytes 2 r := by
  obtain ⟨r, hcall, hiff⟩ := (bionicSendmsg_iff (fun _ => 0) takesTwo 3 fourBytes 0 0 2).2
    ⟨rfl, rfl, rfl, segmentSize_fourBytes, by decide⟩
  refine ⟨r, hcall, hiff.2 (.inr (.inr ⟨by decide, ?_⟩))⟩
  rw [pieces_fourBytes]
  intro k piece hpiece
  have hmem := List.mem_of_getElem? hpiece
  have hlength : piece.length = 2 := by
    simp only [List.mem_cons, List.not_mem_nil, or_false, or_self] at hmem
    rw [hmem]
    rfl
  rw [Whole, hlength]
  rfl

/-- A host that refuses the segmented send, takes one datagram and then has no room. -/
def fullAfterOne : Host where
  freeBsdLinuxulator := true
  sendmsg k :=
    if k = 0 then { value := -1, errno := EINVAL }
    else if k = 1 then { value := 2 } else { value := -1, errno := 11 }

/-- The call fails after its first datagram has left. -/
theorem fails_after_one : Fallback fullAfterOne fourBytes 2 ∧
    ∃ r, bionicSendmsg fullAfterOne 3 (some fourBytes) 0 0 = .ok r ∧
      r.value = -1 ∧ r.sent (fun _ => 0) ≠ [] := by
  refine ⟨⟨rfl, rfl, rfl, segmentSize_fourBytes, by decide⟩, _, rfl, rfl, ?_⟩
  intro hnone
  cases hnone

end Nightcap.Compat.Socket
