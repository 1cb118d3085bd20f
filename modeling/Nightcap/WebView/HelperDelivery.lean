import Nightcap.Lib.Framing
import Nightcap.WebView.HelperAgreement
import Nightcap.WebView.HelperStream

/-! The events of the helper arrive in order and once, however the stream is cut and whoever reads
it. -/
namespace Nightcap.WebView.Helper

open Utf8 Transition Framing

variable {s t : Channel} {packet buffer : Bytes} {packets : List Bytes} {event : WebViewHelperEvent}
  {events : List WebViewHelperEvent} {caller : Caller} {action : Action}

/-! Frames. -/

theorem extractFrame_whole {rest : Bytes} (h : packet.length ≤ kMaximumWebViewEventPacketBytes) :
    extractFrame (framePacket packet ++ rest) = (some packet, rest) := by
  have hbound : packet.length < 2 ^ 32 := by
    rw [kMaximumWebViewEventPacketBytes, kMaximumWebViewHybridEventBytes] at h
    omega
  have hsize := sizeOf_sizeBytes hbound
  change extractFrame (_ :: _ :: _ :: _ :: (packet ++ rest)) = _
  rw [extractFrame, hsize, if_neg (Nat.not_lt.2 h), if_neg, List.take_left, List.drop_left]
  simp only [List.length_cons, List.length_append]
  omega

theorem extractFrame_part (h : packet.length ≤ kMaximumWebViewEventPacketBytes)
    (hfront : buffer <+: framePacket packet)
    (hlength : buffer.length < (framePacket packet).length) :
    extractFrame buffer = (none, buffer) := by
  have hbound : packet.length < 2 ^ 32 := by
    rw [kMaximumWebViewEventPacketBytes, kMaximumWebViewHybridEventBytes] at h
    omega
  have hsize := sizeOf_sizeBytes hbound
  have hframe : (framePacket packet).length = 4 + packet.length := by
    rw [framePacket, List.length_append]
    rfl
  rcases buffer with _ | ⟨b₀, _ | ⟨b₁, _ | ⟨b₂, _ | ⟨b₃, rest⟩⟩⟩⟩
  · rfl
  · rfl
  · rfl
  · rfl
  · obtain ⟨after, hafter⟩ := hfront
    simp only [framePacket, sizeBytes, List.cons_append, List.nil_append, List.cons.injEq] at hafter
    obtain ⟨rfl, rfl, rfl, rfl, _⟩ := hafter
    rw [extractFrame, hsize, if_neg (Nat.not_lt.2 h), if_pos]
    omega

def frames : Code Bytes UInt8 where
  frame := framePacket
  extract := extractFrame
  Good packet := packet.length ≤ kMaximumWebViewEventPacketBytes
  extract_nil := rfl
  whole _ _ h := extractFrame_whole h
  part _ _ h hfront hlength := extractFrame_part h hfront hlength

/-! Events and their packets. -/

def Encodes (event : WebViewHelperEvent) (packet : Bytes) : Prop :=
  encodeWebViewHelperEventPacket event.type event.payload = some packet

/-- The events a caller is to see. -/
def shown (events : List WebViewHelperEvent) : List WebViewHelperEvent :=
  events.filter (·.type ≠ .kReady)

theorem Encodes.length (h : Encodes event packet) : packet ≠ [] ∧ frames.Good packet := by
  obtain ⟨rfl, _, hsize, _⟩ := encode_event h
  have hmaximum := hsize.trans maximumPayload_le
  refine ⟨by simp [header, kEventMagic, Ascii.bytes], ?_⟩
  change _ ≤ kMaximumWebViewEventPacketBytes
  rw [List.length_append, kMaximumWebViewEventPacketBytes, Nat.add_comm]
  exact Nat.add_le_add_right hmaximum _

theorem encodes_good (h : List.Forall₂ Encodes events packets) : ∀ p ∈ packets, frames.Good p := by
  induction h with
  | nil => exact nofun
  | cons hp _ ih =>
    rw [List.forall_mem_cons]
    exact ⟨hp.length.2, ih⟩

/-- An event that is shown is read as what it is. -/
theorem Encodes.decode (h : Encodes event packet) (hready : event.type ≠ .kReady) :
    decodeWebViewHelperEventPacket packet = .ok event :=
  (decode_encoded h).2 fun hboth => hready hboth.1

theorem Encodes.decode_or (h : Encodes event packet) :
    decodeWebViewHelperEventPacket packet = .ok event ∨
      ∃ error, decodeWebViewHelperEventPacket packet = .error error := by
  obtain ⟨rfl, _, hsize, hnul⟩ := encode_event h
  rw [decode_event_header (hsize.trans maximumPayload_le) hnul]
  split
  · exact .inr ⟨_, rfl⟩
  · exact .inl rfl

/-- A packet hands one event on, if it is one to show, and at most sets the flag otherwise. -/
theorem takePacket_cases (h : Encodes event packet) :
    (event.type ≠ .kReady ∧ s.takePacket caller packet = s.takeEvent caller event) ∨
      (event.type = .kReady ∧ ∃ ready, s.takePacket caller packet = { s with ready }) := by
  unfold Channel.takePacket
  by_cases hready : event.type = .kReady
  · refine .inr ⟨hready, ?_⟩
    rcases h.decode_or with hok | ⟨error, herror⟩
    · rw [hok]
      exact ⟨true, if_pos hready⟩
    · rw [herror]
      exact ⟨s.ready, rfl⟩
  · rw [h.decode hready]
    exact .inl ⟨hready, rfl⟩

/-! The invariant. -/

/-- What is on the way, in the buffer and with the callers makes up what was sent. -/
structure Consistent (events : List WebViewHelperEvent) (s : Channel)
    (rest : List WebViewHelperEvent)
    (packets : List Bytes) : Prop where
  encodes : List.Forall₂ Encodes rest packets
  stream : s.receiveBuffer ++ s.wire = frames.stream packets
  suffix : rest <:+ events
  order : s.delivered ++ s.pendingEvents ++ shown rest = shown events

/-- There is no whole packet in the buffer. -/
def Exhausted (s : Channel) : Prop := extractFrame s.receiveBuffer = (none, s.receiveBuffer)

/-- `DrainEvents` has handed out what was pending before it reads on. -/
def AtCall (s : Channel) : Prop :=
  match s.pc with
  | .receive caller => caller = .drainEvents → s.pendingEvents = []
  | .read caller => Exhausted s ∧ (caller = .drainEvents → s.pendingEvents = [])
  | _ => True

structure Ordered (events : List WebViewHelperEvent) (s : Channel) : Prop where
  consistent : ∃ rest packets, Consistent events s rest packets
  atCall : AtCall s
  calls : s.pc ≠ .idle → s.returned = none
  drained : s.returned = some (.drainEvents, true) → s.pendingEvents = [] ∧ Exhausted s
  within : s.overflowed = false

theorem Ordered.returns {result : Bool} (h : Ordered events s)
    (hdrained : caller = .drainEvents → result = true → s.pendingEvents = [] ∧ Exhausted s) :
    Ordered events (s.returns caller result) where
  consistent := by
    obtain ⟨rest, packets, hconsistent⟩ := h.consistent
    exact ⟨rest, packets, hconsistent.encodes, hconsistent.stream,
      hconsistent.suffix, hconsistent.order⟩
  atCall := trivial
  calls hpc := absurd rfl hpc
  drained hreturned := by
    cases hreturned
    exact hdrained rfl rfl
  within := h.within

/-- A call goes on where nothing has changed. -/
theorem Ordered.goto {pc : Pc} (h : Ordered events s) (hreturned : s.returned = none)
    (hcall : AtCall { s with pc }) : Ordered events { s with pc } where
  consistent := by
    obtain ⟨rest, packets, hconsistent⟩ := h.consistent
    exact ⟨rest, packets, hconsistent.encodes, hconsistent.stream,
      hconsistent.suffix, hconsistent.order⟩
  atCall := hcall
  calls _ := hreturned
  drained hdrained := by
    change s.returned = _ at hdrained
    rw [hreturned] at hdrained
    cases hdrained
  within := h.within

theorem ordered_callWait {timeout : Int} (h : Ordered events s) :
    Ordered events (s.callWait timeout) := by
  unfold Channel.callWait
  split
  · exact h.returns nofun
  · obtain ⟨rest, packets, hconsistent⟩ := h.consistent
    exact ⟨⟨rest, packets, hconsistent.encodes, hconsistent.stream, hconsistent.suffix,
      hconsistent.order⟩, trivial, fun _ => rfl, nofun, h.within⟩

theorem ordered_callDrain (h : Ordered events s) : Ordered events s.callDrain := by
  unfold Channel.callDrain
  split
  · obtain ⟨rest, packets, hconsistent⟩ := h.consistent
    refine ⟨⟨rest, packets, hconsistent.encodes, hconsistent.stream, hconsistent.suffix, ?_⟩,
      fun _ => rfl, fun _ => rfl, nofun, h.within⟩
    change s.delivered ++ s.pendingEvents ++ [] ++ shown rest = _
    rw [List.append_nil]
    exact hconsistent.order
  · exact h.returns nofun

theorem ordered_afterCheck {expired : Bool} (h : Ordered events s) (hpc : s.pc = .check) :
    Ordered events (s.afterCheck expired) := by
  unfold Channel.afterCheck
  split
  · exact h.returns nofun
  · exact h.goto (h.calls (by simp [hpc])) nofun

theorem ordered_afterPoll {answer : PollAnswer} (h : Ordered events s) (hpc : s.pc = .poll) :
    Ordered events (s.afterPoll answer) := by
  cases answer with
  | answered => exact h.goto (h.calls (by simp [hpc])) trivial
  | interrupted => exact h
  | failed => exact h.returns nofun

/-- The end of a call that has nothing more to read. -/
theorem ordered_afterReceive {received : Received} (h : Ordered events s)
    (hpc : s.pc = .read caller)
    (hpacket : ∀ packet, received ≠ .packet packet) :
    Ordered events (s.afterReceive caller received) := by
  have hcall := h.atCall
  rw [AtCall, hpc] at hcall
  obtain ⟨hexhausted, hpending⟩ := hcall
  cases caller with
  | waitUntilReady =>
    cases received with
    | packet packet => exact absurd rfl (hpacket packet)
    | again => exact h.goto (h.calls (by simp [hpc])) trivial
    | failed => exact h.returns nofun
    | closed => exact h.returns nofun
  | drainEvents =>
    have hdrained : Ordered events (s.returns .drainEvents true) :=
      h.returns fun _ _ => ⟨hpending rfl, hexhausted⟩
    cases received with
    | packet packet => exact absurd rfl (hpacket packet)
    | again => exact hdrained
    | failed => exact h.returns nofun
    | closed => exact hdrained

theorem shown_cons_ready {rest : List WebViewHelperEvent} (h : event.type = .kReady) :
    shown (event :: rest) = shown rest := by
  rw [shown, List.filter_cons_of_neg (by simp [h]), shown]

theorem shown_cons {rest : List WebViewHelperEvent} (h : event.type ≠ .kReady) :
    shown (event :: rest) = event :: shown rest := by
  rw [shown, List.filter_cons_of_pos (by simp [h]), shown]

/-- The callers have the first event of those that were still to come. -/
structure Taken (events rest : List WebViewHelperEvent) (caller : Caller)
    (s u : Channel) : Prop where
  buffer : u.receiveBuffer = s.receiveBuffer
  wire : u.wire = s.wire
  returned : u.returned = s.returned
  within : u.overflowed = s.overflowed
  order : u.delivered ++ u.pendingEvents ++ shown rest = shown events
  pending : caller = .drainEvents → u.pendingEvents = []

theorem takePacket_taken {rest : List WebViewHelperEvent} (hencodes : Encodes event packet)
    (hpending : caller = .drainEvents → s.pendingEvents = [])
    (horder : s.delivered ++ s.pendingEvents ++ shown (event :: rest) = shown events) :
    Taken events rest caller s (s.takePacket caller packet) := by
  rcases takePacket_cases hencodes with ⟨hready, htake⟩ | ⟨hready, ready, htake⟩
  · rw [shown_cons hready] at horder
    rw [htake, Channel.takeEvent.eq_def, if_neg hready]
    cases caller with
    | waitUntilReady => exact ⟨rfl, rfl, rfl, rfl, by simpa using horder, nofun⟩
    | drainEvents =>
      have hempty := hpending rfl
      rw [hempty] at horder
      refine ⟨rfl, rfl, rfl, rfl, ?_, hpending⟩
      change s.delivered ++ [event] ++ s.pendingEvents ++ shown rest = _
      rw [hempty]
      simpa using horder
  · rw [shown_cons_ready hready] at horder
    rw [htake]
    exact ⟨rfl, rfl, rfl, rfl, horder, hpending⟩

/-- A packet leaves the buffer for the callers. -/
theorem ordered_taken {rest : List WebViewHelperEvent} (h : Ordered events s)
    (hpc : s.pc = .receive caller) (hencodes : Encodes event packet)
    (hrest : List.Forall₂ Encodes rest packets) (hstream : buffer ++ s.wire = frames.stream packets)
    (hsuffix : event :: rest <:+ events)
    (horder : s.delivered ++ s.pendingEvents ++ shown (event :: rest) = shown events) :
    Ordered events ({ s with receiveBuffer := buffer }.afterReceive caller (.packet packet)) := by
  have hcall := h.atCall
  rw [AtCall, hpc] at hcall
  have hreturned := h.calls (by simp [hpc])
  have htaken : Taken events rest caller { s with receiveBuffer := buffer }
      ({ s with receiveBuffer := buffer }.takePacket caller packet) :=
    takePacket_taken hencodes hcall horder
  have hconsistent : Consistent events ({ s with receiveBuffer := buffer }.takePacket caller packet)
      rest packets :=
    ⟨hrest, by rw [htaken.buffer, htaken.wire]; exact hstream, (List.suffix_cons _ _).trans hsuffix,
      htaken.order⟩
  have hnone := htaken.returned.trans hreturned
  have hwithin := htaken.within.trans h.within
  have hgoon : Ordered events { { s with receiveBuffer := buffer }.takePacket caller packet with
      pc := .receive caller } := by
    refine ⟨⟨rest, packets, hconsistent.encodes, hconsistent.stream, hconsistent.suffix,
      hconsistent.order⟩, htaken.pending, fun _ => hnone, ?_, hwithin⟩
    intro hdrained
    change Channel.returned _ = _ at hdrained
    rw [hnone] at hdrained
    cases hdrained
  cases caller with
  | waitUntilReady =>
    unfold Channel.afterReceive
    dsimp only
    split
    · exact hgoon.returns nofun
    · exact hgoon
  | drainEvents => exact hgoon

theorem ordered_afterExtract (h : Ordered events s) (hpc : s.pc = .receive caller) :
    Ordered events (s.afterExtract caller) := by
  obtain ⟨rest, packets, hconsistent⟩ := h.consistent
  have hcall := h.atCall
  rw [AtCall, hpc] at hcall
  unfold Channel.afterExtract
  rcases frames.extract_cases (encodes_good hconsistent.encodes) hconsistent.stream with
    ⟨hnone, _⟩ | ⟨packet, packets', buffer, rfl, hsome, hstream⟩
  · rw [show extractFrame s.receiveBuffer = _ from hnone]
    exact h.goto (h.calls (by simp [hpc])) ⟨hnone, hcall⟩
  · rw [show extractFrame s.receiveBuffer = _ from hsome]
    cases hencodes : hconsistent.encodes with
    | cons hevent hrest =>
    dsimp only
    rw [Received.ofPacket, if_neg hevent.length.1]
    exact ordered_taken h hpc hevent hrest hstream hconsistent.suffix hconsistent.order

/-- The limit is not reached: less than a frame was in the buffer before the read. -/
theorem ordered_afterData {count : Nat} (h : Ordered events s) (hpc : s.pc = .read caller)
    (hcount : count ≤ 4096) : Ordered events (s.afterData caller count) := by
  obtain ⟨rest, packets, hconsistent⟩ := h.consistent
  have hcall := h.atCall
  rw [AtCall, hpc] at hcall
  have hreturned := h.calls (by simp [hpc])
  have hgood := encodes_good hconsistent.encodes
  have hbuffer : s.receiveBuffer.length ≤ 4 + kMaximumWebViewEventPacketBytes := by
    rcases frames.extract_cases hgood hconsistent.stream with
      ⟨_, hempty | ⟨packet, hpacket, hlength⟩⟩ | ⟨_, _, _, _, hsome, _⟩
    · rw [hempty]
      exact Nat.zero_le _
    · have hsize := hgood packet hpacket
      have hframe : (frames.frame packet).length = 4 + packet.length := by
        change (sizeBytes _ ++ packet).length = _
        rw [List.length_append]
        rfl
      change packet.length ≤ _ at hsize
      omega
    · rw [show frames.extract s.receiveBuffer = _ from hcall.1] at hsome
      cases hsome
  have hlimit : ¬ (s.receiveBuffer ++ s.wire.take count).length >
      kMaximumWebViewEventPacketBytes * 2 := by
    have htake : (s.wire.take count).length ≤ count := List.length_take_le ..
    rw [List.length_append]
    rw [kMaximumWebViewEventPacketBytes, kMaximumWebViewHybridEventBytes] at hbuffer ⊢
    omega
  unfold Channel.afterData
  dsimp only
  rw [if_neg hlimit]
  refine ⟨⟨rest, packets, hconsistent.encodes, ?_, hconsistent.suffix, hconsistent.order⟩, hcall.2,
    fun _ => hreturned, ?_, h.within⟩
  · change (s.receiveBuffer ++ s.wire.take count) ++ s.wire.drop count = _
    rw [List.append_assoc, List.take_append_drop]
    exact hconsistent.stream
  · intro hdrained
    change s.returned = _ at hdrained
    rw [hreturned] at hdrained
    cases hdrained

theorem ordered_afterRead {answer : ReadAnswer} (h : Ordered events s) (hpc : s.pc = .read caller)
    (ht : s.afterRead caller answer = some t) : Ordered events t := by
  have hcall := h.atCall
  rw [AtCall, hpc] at hcall
  cases answer with
  | data count =>
    unfold Channel.afterRead at ht
    dsimp only at ht
    split at ht
    · next hcount =>
      cases ht
      exact ordered_afterData h hpc hcount.2.1
    · cases ht
  | again =>
    cases ht
    exact ordered_afterReceive h hpc nofun
  | interrupted =>
    cases ht
    exact h.goto (h.calls (by simp [hpc])) hcall.2
  | failed =>
    cases ht
    exact ordered_afterReceive h hpc nofun
  | closed =>
    cases ht
    exact ordered_afterReceive h hpc nofun

/-! Runs. -/

theorem ordered_step (hstep : s.step action = some t)
    (h : Ordered events s) : Ordered events t := by
  have halive : Ordered events { s with alive := false } := by
    obtain ⟨rest, packets, hconsistent⟩ := h.consistent
    exact ⟨⟨rest, packets, hconsistent.encodes, hconsistent.stream, hconsistent.suffix,
      hconsistent.order⟩, h.atCall, h.calls, h.drained, h.within⟩
  have hclosed : Ordered events { s with opened := false } := by
    obtain ⟨rest, packets, hconsistent⟩ := h.consistent
    exact ⟨⟨rest, packets, hconsistent.encodes, hconsistent.stream, hconsistent.suffix,
      hconsistent.order⟩, h.atCall, h.calls, h.drained, h.within⟩
  unfold Channel.step at hstep
  split at hstep
  · cases hstep
    exact halive
  · cases hstep
    exact ordered_callWait h
  · cases hstep
    exact ordered_callDrain h
  · cases hstep
    exact hclosed
  · next hpc =>
    cases hstep
    exact ordered_afterCheck h hpc
  · next hpc =>
    cases hstep
    exact ordered_afterExtract h hpc
  · next hpc => exact ordered_afterRead h hpc hstep
  · next hpc =>
    cases hstep
    exact ordered_afterPoll h hpc
  · cases hstep

theorem ordered_initial (h : List.Forall₂ Encodes events packets) :
    Ordered events { wire := packets.flatMap framePacket } where
  consistent := ⟨events, packets, h, rfl, List.suffix_refl _, rfl⟩
  atCall := trivial
  calls hpc := absurd rfl hpc
  drained := nofun
  within := rfl

theorem ordered_reachable (hencodes : List.Forall₂ Encodes events packets)
    (h : (channelLTS packets).Reachable s) : Ordered events s := by
  refine h.invariant ?_ fun _ _ _ hstep => ordered_step hstep
  rintro s rfl
  exact ordered_initial hencodes

/-- What the callers have is a part of what was sent from the front on; it is all of it when the
stream has been read and what is there has been asked for. -/
structure Delivered (events : List WebViewHelperEvent) (s : Channel) : Prop where
  order : s.delivered ++ s.pendingEvents <+: shown events
  all : s.returned = some (.drainEvents, true) → s.wire = [] → s.delivered = shown events

theorem Ordered.delivered (h : Ordered events s) : Delivered events s := by
  obtain ⟨rest, packets, hconsistent⟩ := h.consistent
  refine ⟨⟨_, hconsistent.order⟩, ?_⟩
  intro hreturned hwire
  obtain ⟨hpending, hexhausted⟩ := h.drained hreturned
  have hstream := hconsistent.stream
  have horder := hconsistent.order
  rw [hwire, List.append_nil] at hstream
  rw [Exhausted, hstream] at hexhausted
  have hempty := frames.eq_nil_of_extract (encodes_good hconsistent.encodes) hexhausted
  subst hempty
  cases hconsistent.encodes
  simpa [hpending, shown] using horder

/-! The two sides. -/

/-- They agree on everything but a ready event that carries something, and a cookie that is none. -/
theorem helper_protocol_iff (type : WebViewHelperEventType) (payload packet : Bytes)
    (event : WebViewHelperEvent) (curl : Bytes → Option CurlUrl) (live : Bool) (request : Request)
    (events : List WebViewHelperEvent) (packets : List Bytes) (s : Channel) :
    (encodeWebViewHelperEventPacket type payload = some packet →
      (decodeWebViewHelperEventPacket packet = .ok { type, payload } ↔
        ¬ (type = .kReady ∧ payload ≠ []))) ∧
    (decodeWebViewHelperEventPacket packet = .ok event →
      encodeWebViewHelperEventPacket event.type event.payload = some packet) ∧
    (request.send curl live = some packet →
      (decodeWebViewHelperControlPacket curl packet = .ok (request.command curl) ↔
        request.SafeCookie)) ∧
    (List.Forall₂ Encodes events packets → (channelLTS packets).Reachable s →
      s.overflowed = false ∧ Delivered events s) := by
  refine ⟨decode_encoded, encode_decoded, decode_sent, ?_⟩
  intro hencodes h
  have hordered := ordered_reachable hencodes h
  exact ⟨hordered.within, hordered.delivered⟩

/-- No URL can be taken apart. -/
def noCurl : Bytes → Option CurlUrl := fun _ => none

def readyPacket : Bytes := header kEventMagic 3 0

def cookieEvent : WebViewHelperEvent := { type := .kRobloxCookie, payload := [65] }

def cookiePacket : Bytes := header kEventMagic 4 1 ++ [65]

/-- One read cuts the second frame behind its size; `DrainEvents` reads the rest of it. -/
def cutRun : List Action :=
  [.waitUntilReady 10, .check false, .extract, .read (.data 20), .extract, .drainEvents, .extract,
    .read (.data 13), .extract, .extract, .read .again]

/-- A cookie there and back, and what that run delivers. -/
theorem helper_protocol_iff_cut :
    decodeWebViewHelperEventPacket cookiePacket = .ok cookieEvent ∧
      (∃ packet, (Request.setRobloxCookie [65]).send noCurl true = some packet ∧
        decodeWebViewHelperControlPacket noCurl packet =
          .ok ((Request.setRobloxCookie [65]).command noCurl)) ∧
      ∃ s : Channel, (channelLTS [readyPacket, cookiePacket]).Reachable s ∧
        s.returned = some (.drainEvents, true) ∧ s.delivered = [cookieEvent] ∧
          s.overflowed = false ∧ Delivered [{ type := .kReady }, cookieEvent] s := by
  have hrun : ∃ s, cutRun.foldlM Channel.step
      { wire := [readyPacket, cookiePacket].flatMap framePacket } = some s ∧
        s.returned = some (.drainEvents, true) ∧ s.delivered = [cookieEvent] := ⟨_, rfl, rfl, rfl⟩
  obtain ⟨s, hs, hreturned, hdelivered⟩ := hrun
  have hreach : (channelLTS [readyPacket, cookiePacket]).Reachable s :=
    ⟨_, cutRun, rfl, LTS.Run.of_foldlM (fun _ _ _ hstep => hstep) hs⟩
  have hencodes : List.Forall₂ Encodes [{ type := .kReady }, cookieEvent]
      [readyPacket, cookiePacket] :=
    .cons rfl (.cons rfl .nil)
  have hsafe : (Request.setRobloxCookie [65]).SafeCookie := by
    intro b hb
    rw [List.mem_singleton.1 hb]
    rfl
  obtain ⟨hevent, -, -, hstream⟩ := helper_protocol_iff .kRobloxCookie [65] cookiePacket
    cookieEvent noCurl true (.setRobloxCookie [65]) _ _ s
  obtain ⟨hwithin, hall⟩ := hstream hencodes hreach
  refine ⟨(hevent (by decide)).2 (by decide), ⟨_, rfl, ?_⟩, s, hreach,
    hreturned, hdelivered, hwithin,
    hall⟩
  exact ((helper_protocol_iff .kRobloxCookie [65] _ cookieEvent noCurl true (.setRobloxCookie [65])
    [] [] s).2.2.1 rfl).2 hsafe

/-- A ready event with a byte, and a cookie with a semicolon: written by one side, refused by the
other. -/
theorem ready_byte_cookie_semicolon :
    (∃ packet, encodeWebViewHelperEventPacket .kReady [120] = some packet ∧
      decodeWebViewHelperEventPacket packet =
        .error "webview event payload does not match its type") ∧
    ∃ packet, (Request.setRobloxCookie [59]).send noCurl true = some packet ∧
      decodeWebViewHelperControlPacket noCurl packet =
        .error "webview Roblox cookie is oversized or unsafe" := by
  refine ⟨⟨_, rfl, ?_⟩, _, rfl, ?_⟩
  · decide
  · decide

end Nightcap.WebView.Helper
