import Nightcap.WebView.HelperPackets

/-! What one side of the helper's packets writes and what the other side reads of it. -/
namespace Nightcap.WebView.Helper

open Utf8 Ascii

variable {packet payload magic : Bytes} {code : UInt8} {n maximum : Nat}
  {type : WebViewHelperEventType} {event : WebViewHelperEvent}
  {operation : WebViewHelperControlOperation} {curl : Bytes → Option CurlUrl} {live : Bool}

/-! Headers. -/

theorem sizeOf_sizeBytes (h : n < 2 ^ 32) :
    sizeOf (UInt8.ofNat (n / 2 ^ 24)) (UInt8.ofNat (n / 2 ^ 16)) (UInt8.ofNat (n / 2 ^ 8))
      (UInt8.ofNat n) = n := by
  simp only [sizeOf, UInt8.toNat_ofNat']
  omega

theorem sizeBytes_sizeOf (b₀ b₁ b₂ b₃ : UInt8) :
    sizeBytes (sizeOf b₀ b₁ b₂ b₃) = [b₀, b₁, b₂, b₃] := by
  have h₀ := b₀.toNat_lt
  have h₁ := b₁.toNat_lt
  have h₂ := b₂.toNat_lt
  have h₃ := b₃.toNat_lt
  simp only [sizeBytes, sizeOf, List.cons.injEq, and_true, ← UInt8.toNat_inj, UInt8.toNat_ofNat']
  omega

theorem exists_header (h : kControlHeaderBytes ≤ packet.length) :
    ∃ b₀ b₁ b₂ b₃ b₄ b₅ b₆ b₇ b₈ b₉ b₁₀ b₁₁ rest,
      packet = [b₀, b₁, b₂, b₃, b₄, b₅, b₆, b₇, b₈, b₉, b₁₀, b₁₁] ++ rest := by
  match packet, h with
  | b₀ :: b₁ :: b₂ :: b₃ :: b₄ :: b₅ :: b₆ :: b₇ :: b₈ :: b₉ :: b₁₀ :: b₁₁ :: rest, _ =>
    exact ⟨b₀, b₁, b₂, b₃, b₄, b₅, b₆, b₇, b₈, b₉, b₁₀, b₁₁, rest, rfl⟩

theorem exists_magic (h : magic.length = 4) : ∃ m₀ m₁ m₂ m₃, magic = [m₀, m₁, m₂, m₃] := by
  match magic, h with
  | [m₀, m₁, m₂, m₃], _ => exact ⟨m₀, m₁, m₂, m₃, rfl⟩

section Written

variable (hmagic : magic.length = 4)

include hmagic

theorem validHeader_header (h : payload.length + kControlHeaderBytes ≤ maximum) :
    validHeader magic maximum (header magic code n ++ payload) = true := by
  obtain ⟨m₀, m₁, m₂, m₃, rfl⟩ := exists_magic hmagic
  rw [kControlHeaderBytes] at h
  simp [validHeader, header, sizeBytes, kControlHeaderBytes]
  omega

theorem payloadSize_header (h : n < 2 ^ 32) : payloadSize (header magic code n ++ payload) = n := by
  obtain ⟨m₀, m₁, m₂, m₃, rfl⟩ := exists_magic hmagic
  exact sizeOf_sizeBytes h

theorem payloadOf_header : payloadOf (header magic code n ++ payload) = payload := by
  obtain ⟨m₀, m₁, m₂, m₃, rfl⟩ := exists_magic hmagic
  rfl

theorem code_header : (header magic code n ++ payload).getD 5 0 = code := by
  obtain ⟨m₀, m₁, m₂, m₃, rfl⟩ := exists_magic hmagic
  rfl

/-- Nothing of a packet is left open by what a decoder checks and returns. -/
theorem eq_header (hvalid : validHeader magic maximum packet = true)
    (hsize : payloadSize packet = (payloadOf packet).length) :
    packet = header magic (packet.getD 5 0) (payloadOf packet).length ++ payloadOf packet := by
  obtain ⟨m₀, m₁, m₂, m₃, rfl⟩ := exists_magic hmagic
  simp only [validHeader, Bool.and_eq_true, decide_eq_true_eq, beq_iff_eq] at hvalid
  obtain ⟨⟨⟨⟨⟨hlength, _⟩, hfront⟩, hversion⟩, h₆⟩, h₇⟩ := hvalid
  obtain ⟨b₀, b₁, b₂, b₃, b₄, b₅, b₆, b₇, b₈, b₉, b₁₀, b₁₁, rest, rfl⟩ := exists_header hlength
  rw [← hsize, header, payloadSize, sizeBytes_sizeOf]
  simp_all [payloadOf, kControlHeaderBytes]

end Written

/-! Events. -/

theorem decode_event_header (hsize : payload.length ≤ kMaximumWebViewHybridEventBytes)
    (hnul : 0 ∉ payload) :
    decodeWebViewHelperEventPacket (header kEventMagic type.code payload.length ++ payload) =
      if payload.isEmpty != (type == .kReady) ||
          (type == .kRobloxCookie && kMaximumWebViewCookieBytes < payload.length) then
        .error "webview event payload does not match its type"
      else .ok { type, payload } := by
  have hmagic : kEventMagic.length = 4 := rfl
  have hbound : payload.length < 2 ^ 32 := by
    rw [kMaximumWebViewHybridEventBytes] at hsize
    omega
  have hvalid : validHeader kEventMagic kMaximumWebViewEventPacketBytes
      (header kEventMagic type.code payload.length ++ payload) = true :=
    validHeader_header hmagic (Nat.add_le_add_right hsize _)
  rw [decodeWebViewHelperEventPacket, if_neg (by simp [hvalid])]
  dsimp only
  rw [payloadOf_header hmagic, payloadSize_header hmagic hbound, code_header hmagic,
    WebViewHelperEventType.ofCode_code, if_neg (by simp [hnul])]

theorem maximumPayload_le : maximumPayload type ≤ kMaximumWebViewHybridEventBytes := by
  unfold maximumPayload
  split <;> decide

theorem encode_event (h : encodeWebViewHelperEventPacket type payload = some packet) :
    packet = header kEventMagic type.code payload.length ++ payload ∧
      (type ≠ .kReady → payload ≠ []) ∧ payload.length ≤ maximumPayload type ∧ 0 ∉ payload := by
  unfold encodeWebViewHelperEventPacket at h
  split at h
  · cases h
  · next haccepted =>
    rw [not_or, not_or, Nat.not_lt] at haccepted
    obtain ⟨hempty, hsize, hnul⟩ := haccepted
    exact ⟨(Option.some.inj h).symm, fun hready hnil => hempty ⟨hready, hnil⟩, hsize, hnul⟩

/-- The two checks differ for the event that carries nothing. -/
theorem decode_encoded (h : encodeWebViewHelperEventPacket type payload = some packet) :
    decodeWebViewHelperEventPacket packet = .ok { type, payload } ↔
      ¬ (type = .kReady ∧ payload ≠ []) := by
  obtain ⟨rfl, hempty, hsize, hnul⟩ := encode_event h
  rw [decode_event_header (hsize.trans maximumPayload_le) hnul]
  constructor
  · rintro hok ⟨rfl, hpayload⟩
    rw [if_pos (by simpa using hpayload)] at hok
    cases hok
  · intro hready
    rw [not_and, not_not] at hready
    have hmatch : payload.isEmpty = (type == .kReady) := by
      rw [Bool.eq_iff_iff, List.isEmpty_iff, beq_iff_eq]
      exact ⟨fun hnil => by_contra fun hne => hempty hne hnil, hready⟩
    have hsmall : type = .kRobloxCookie → payload.length ≤ kMaximumWebViewCookieBytes := by
      rintro rfl
      exact hsize
    rw [if_neg]
    rw [Bool.or_eq_true, bne_iff_ne, not_or, not_not, Bool.and_eq_true,
      beq_iff_eq, decide_eq_true_eq,
      not_and, Nat.not_lt]
    exact ⟨hmatch, hsmall⟩

theorem encode_decoded (h : decodeWebViewHelperEventPacket packet = .ok event) :
    encodeWebViewHelperEventPacket event.type event.payload = some packet := by
  unfold decodeWebViewHelperEventPacket at h
  split at h
  · cases h
  · next hvalid =>
    rw [Bool.not_eq_false] at hvalid
    dsimp only at h
    split at h
    · cases h
    · next hpayload =>
      rw [not_or, not_not] at hpayload
      obtain ⟨hsize, hnul⟩ := hpayload
      have hpacket := eq_header rfl hvalid hsize
      have hlength : (payloadOf packet).length ≤ kMaximumWebViewHybridEventBytes := by
        simp only [validHeader, Bool.and_eq_true, decide_eq_true_eq] at hvalid
        have hmaximum := hvalid.1.1.1.1.2
        rw [payloadOf, List.length_drop, kControlHeaderBytes]
        rw [kMaximumWebViewEventPacketBytes] at hmaximum
        omega
      split at h
      · cases h
      · next type htype =>
        split at h
        · cases h
        · next hmatch =>
          cases h
          rw [Bool.or_eq_true, bne_iff_ne, not_or, not_not, Bool.and_eq_true, beq_iff_eq,
            decide_eq_true_eq, not_and, Nat.not_lt] at hmatch
          obtain ⟨hempty, hcookie⟩ := hmatch
          rw [encodeWebViewHelperEventPacket, if_neg]
          · rw [WebViewHelperEventType.code_of_ofCode htype, ← hpacket]
          · rw [not_or, not_or, Nat.not_lt, maximumPayload]
            refine ⟨?_, ?_, hnul⟩
            · rintro ⟨hready, hnil⟩
              rw [Bool.eq_iff_iff, List.isEmpty_iff, beq_iff_eq] at hempty
              exact hready (hempty.1 hnil)
            · split
              · next htype => exact hcookie htype
              · exact hlength

/-! Commands. -/

/-- A validated URL is what is sent. -/
theorem normalize_valid {url normalized : Bytes}
    (h : normalizeWebViewUrl curl url = .ok normalized) :
    validateWebViewUrl curl normalized = .ok () := by
  unfold normalizeWebViewUrl at h
  split at h
  · cases h
  · split at h
    · dsimp only at h
      split at h
      · cases h
      · cases hvalid :
          validateWebViewUrl curl (kRobloxWebOrigin ++ url.drop kInternalRoutePrefix.length) with
        | error error =>
          rw [hvalid] at h
          cases h
        | ok =>
          rw [hvalid] at h
          cases h
          exact hvalid
    · cases hvalid : validateWebViewUrl curl url with
      | error error =>
        rw [hvalid] at h
        cases h
      | ok =>
        rw [hvalid] at h
        cases h
        exact hvalid

theorem valid_length {url : Bytes} (h : validateWebViewUrl curl url = .ok ()) :
    url.length ≤ kMaximumWebViewUrlBytes := by
  unfold validateWebViewUrl at h
  split at h
  · cases h
  · next haccepted =>
    rw [not_or, not_or, Nat.not_lt] at haccepted
    exact haccepted.2.1

/-- A decoder reads what was written, and then asks for what the operation needs. -/
theorem decode_control (hsize : payload.length ≤ kMaximumWebViewJavaScriptBytes) :
    decodeWebViewHelperControlPacket curl (encodeControlPacket operation payload) =
        .ok { operation, payload, visible := payload.head?.any (· != 0) } ↔
      checkControlPayload curl payload operation = .ok () := by
  have hmagic : kControlMagic.length = 4 := rfl
  have hbound : payload.length < 2 ^ 32 := by
    rw [kMaximumWebViewJavaScriptBytes] at hsize
    omega
  have hvalid : validHeader kControlMagic kMaximumWebViewControlPacketBytes
      (encodeControlPacket operation payload) = true :=
    validHeader_header hmagic (Nat.add_le_add_right hsize _)
  have hlength : (encodeControlPacket operation payload).length - kControlHeaderBytes =
      payload.length := by
    rw [← List.length_drop, ← payloadOf, encodeControlPacket, payloadOf_header hmagic]
  rw [decodeWebViewHelperControlPacket, if_neg (by simp [hvalid]), hlength, encodeControlPacket,
    payloadSize_header hmagic hbound, if_neg (by simp), code_header hmagic,
    WebViewHelperControlOperation.ofCode_code]
  dsimp only
  rw [payloadOf_header hmagic]
  cases hcheck : checkControlPayload curl payload operation with
  | error error =>
    constructor
    · rintro ⟨⟩
    · rintro ⟨⟩
  | ok =>
    constructor
    · intro _
      rfl
    · intro _
      rfl

/-- What a packet on the socket says of the request behind it. -/
structure Sent (curl : Bytes → Option CurlUrl) (request : Request) (packet : Bytes) : Prop where
  packet : packet = encodeControlPacket request.operation (request.payload curl)
  size : (request.payload curl).length ≤ kMaximumWebViewJavaScriptBytes
  check : checkControlPayload curl (request.payload curl) request.operation = .ok () ↔
    request.SafeCookie

theorem send_eq {request : Request}
    (h : sendControlCommand live request.operation (request.payload curl) = some packet) :
    packet = encodeControlPacket request.operation (request.payload curl) := by
  unfold sendControlCommand at h
  split at h
  · exact (Option.some.inj h).symm
  · cases h

theorem checkFlag_encoded (value : Bool) : checkFlag (encodedFlag value) = .ok () := by
  cases value <;> rfl

theorem sent_flag {value : Bool} {request : Request}
    (hpayload : request.payload curl = encodedFlag value)
    (hcheck : checkControlPayload curl (encodedFlag value) request.operation =
      checkFlag (encodedFlag value))
    (hsafe : request.SafeCookie)
    (h : sendControlCommand live request.operation (request.payload curl) = some packet) :
    Sent curl request packet where
  packet := send_eq h
  size := by
    rw [hpayload]
    exact Nat.le_of_ble_eq_true rfl
  check := by
    rw [hpayload, hcheck, checkFlag_encoded]
    exact iff_of_true rfl hsafe

theorem sent_cookie {value : Bytes} (h : setRobloxCookie live value = some packet) :
    Sent curl (.setRobloxCookie value) packet := by
  unfold setRobloxCookie at h
  split at h
  · cases h
  · next hsize =>
    have hcookie : kMaximumWebViewCookieBytes ≤ kMaximumWebViewJavaScriptBytes := by decide
    refine ⟨send_eq h, (Nat.not_lt.1 hsize).trans hcookie, ?_⟩
    change checkControlPayload curl value (if value = [] then _ else _) = _ ↔
      ∀ b ∈ value, isCookieByte b = true
    by_cases hempty : value = []
    · subst hempty
      exact iff_of_true rfl nofun
    · rw [if_neg hempty, checkControlPayload, ← List.all_eq_true]
      simp [hempty, hsize]

theorem sent_url {url : Bytes} (h : loadUrl curl live url = some packet) :
    Sent curl (.loadUrl url) packet := by
  unfold loadUrl at h
  split at h
  · cases h
  · next normalized hnormal =>
    have hvalid := normalize_valid hnormal
    have hpayload : Request.payload curl (.loadUrl url) = normalized := by
      rw [Request.payload, hnormal]
      rfl
    have hurl : kMaximumWebViewUrlBytes ≤ kMaximumWebViewJavaScriptBytes := by decide
    rw [← hpayload] at h hvalid
    exact ⟨send_eq h, (valid_length hvalid).trans hurl, iff_of_true hvalid trivial⟩

theorem sent_title {title : Bytes} (h : setTitle live title = some packet) :
    Sent curl (.setTitle title) packet := by
  unfold setTitle at h
  split at h
  · cases h
  · next hsafe =>
    have htitle : kMaximumWebViewTitleBytes ≤ kMaximumWebViewJavaScriptBytes := by decide
    have hsize : title.length ≤ kMaximumWebViewTitleBytes := Nat.not_lt.1 (not_or.1 hsafe).1
    refine ⟨send_eq h, hsize.trans htitle, iff_of_true ?_ trivial⟩
    exact if_neg hsafe

theorem sent_script {script : Bytes} (h : evaluateJavaScript live script = some packet) :
    Sent curl (.evaluateJavaScript script) packet := by
  unfold evaluateJavaScript at h
  split at h
  · cases h
  · next hsafe =>
    refine ⟨send_eq h, Nat.not_lt.1 (not_or.1 hsafe).1, iff_of_true ?_ trivial⟩
    exact if_neg hsafe

theorem sent {request : Request} (h : request.send curl live = some packet) :
    Sent curl request packet := by
  cases request with
  | loadUrl url => exact sent_url h
  | setTitle title => exact sent_title h
  | setVisible visible => exact sent_flag rfl rfl trivial h
  | evaluateJavaScript script => exact sent_script h
  | setBackNavigationDisabled disabled => exact sent_flag rfl rfl trivial h
  | setShowDomainAsTitle enabled => exact sent_flag rfl rfl trivial h
  | setRobloxCookie value => exact sent_cookie h
  | clearRobloxCookie => exact ⟨send_eq h, Nat.zero_le _, iff_of_true rfl trivial⟩

/-- A packet on the socket is taken, unless a cookie is in it that only the receiver looks at. -/
theorem decode_sent {request : Request} (h : request.send curl live = some packet) :
    decodeWebViewHelperControlPacket curl packet = .ok (request.command curl) ↔
      request.SafeCookie := by
  obtain ⟨rfl, hsize, hcheck⟩ := sent h
  exact (decode_control hsize).trans hcheck

end Nightcap.WebView.Helper
