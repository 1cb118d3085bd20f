import Nightcap.Lib.Ascii

/-! The packets between the runtime and the helper that shows its web view, as each side writes and
reads them. -/
namespace Nightcap.WebView.Helper

open Utf8 Ascii

def kMaximumWebViewUrlBytes : Nat := 16 * 1024
def kMaximumWebViewTitleBytes : Nat := 512
def kMaximumWebViewJavaScriptBytes : Nat := 64 * 1024
def kMaximumWebViewCookieBytes : Nat := 16 * 1024
def kMaximumWebViewControlPacketBytes : Nat := kMaximumWebViewJavaScriptBytes + 12
def kMaximumWebViewHybridEventBytes : Nat := 64 * 1024
def kMaximumWebViewEventPacketBytes : Nat := kMaximumWebViewHybridEventBytes + 12

def kControlMagic : Bytes := bytes "MWVC"
def kEventMagic : Bytes := bytes "MWVE"
def kControlProtocolVersion : UInt8 := 1
def kControlHeaderBytes : Nat := 12
def kInternalRoutePrefix : Bytes := bytes "www:"
def kRobloxWebOrigin : Bytes := bytes "https://www.roblox.com/"

/-! Headers. -/

/-- A size in four bytes, the highest first. -/
def sizeBytes (size : Nat) : Bytes :=
  [UInt8.ofNat (size / 2 ^ 24), UInt8.ofNat (size / 2 ^ 16),
    UInt8.ofNat (size / 2 ^ 8), UInt8.ofNat size]

def sizeOf (b₀ b₁ b₂ b₃ : UInt8) : Nat :=
  b₀.toNat * 2 ^ 24 + b₁.toNat * 2 ^ 16 + b₂.toNat * 2 ^ 8 + b₃.toNat

def header (magic : Bytes) (code : UInt8) (size : Nat) : Bytes :=
  magic ++ [kControlProtocolVersion, code, 0, 0] ++ sizeBytes size

/-- What both decoders ask of the front of a packet. -/
def validHeader (magic : Bytes) (maximum : Nat) (packet : Bytes) : Bool :=
  kControlHeaderBytes ≤ packet.length && packet.length ≤ maximum &&
    packet.take magic.length == magic &&
    packet.getD 4 0 == kControlProtocolVersion && packet.getD 6 0 == 0 && packet.getD 7 0 == 0

/-- The size that a header states. -/
def payloadSize (packet : Bytes) : Nat :=
  sizeOf (packet.getD 8 0) (packet.getD 9 0) (packet.getD 10 0) (packet.getD 11 0)

def payloadOf (packet : Bytes) : Bytes := packet.drop kControlHeaderBytes

/-! URLs. -/

def isControl (b : UInt8) : Bool := b < 0x20 || b == 0x7f

def containsControlBytes (value : Bytes) : Bool := value.any isControl

/-- The root domain or one below it. -/
def isRobloxHost (host : Bytes) : Bool :=
  let root := bytes "roblox.com"
  lower host == root ||
    (root.length < host.length && root.isSuffixOf (lower host) &&
      (lower host).getD (host.length - root.length - 1) 0 == chr '.')

def hexDigitValue (b : UInt8) : Option UInt8 :=
  if chr '0' ≤ b ∧ b ≤ chr '9' then some (b - chr '0')
  else if chr 'a' ≤ b ∧ b ≤ chr 'f' then some (b - chr 'a' + 10)
  else if chr 'A' ≤ b ∧ b ≤ chr 'F' then some (b - chr 'A' + 10)
  else none

/-- A segment that changes the directory. -/
def dotSegment (segment : Bytes) : Bool := segment == bytes "." || segment == bytes ".."

def unsafeByte (b : UInt8) : Bool := isControl b || b == chr '\\'

/-- The loop of `HasUnsafePath`, with the segment read so far. -/
def unsafePathLoop (segment : Bytes) : Bytes → Bool
  | [] => dotSegment segment
  | b :: path =>
    if b = chr '/' then dotSegment segment || unsafePathLoop [] path
    else if b = chr '%' then
      match path with
      | high :: low :: path =>
        match hexDigitValue high, hexDigitValue low with
        | some high, some low =>
          let decoded := high <<< 4 ||| low
          if decoded = chr '/' ∨ unsafeByte decoded = true then true
          else unsafePathLoop (segment ++ [decoded]) path
        | _, _ => true
      | _ => true
    else if unsafeByte b then true
    else unsafePathLoop (segment ++ [b]) path

def hasUnsafePath (path : Bytes) : Bool := unsafePathLoop [] path

inductive CurlPort
  | port (value : Bytes)
  | noPort
  | failed

/-- What curl says of the parts of an URL; a missing part was not there or could not be read. -/
structure CurlUrl where
  scheme : Option Bytes
  host : Option Bytes
  user : Option Bytes
  password : Option Bytes
  port : CurlPort
  path : Option Bytes

section

variable (curl : Bytes → Option CurlUrl)

/-- `ValidateWebViewUrl`; libcurl's answer is a parameter. -/
def validateWebViewUrl (url : Bytes) : Except String Unit :=
  if url = [] ∨ url.length > kMaximumWebViewUrlBytes ∨ containsControlBytes url = true then
    .error "webview URL is empty, oversized, or contains control bytes"
  else
    match curl url with
    | none => .error "webview URL is malformed"
    | some parsed =>
      if parsed.scheme ≠ some (bytes "https") ∨ parsed.host.any isRobloxHost = false then
        .error "webview URL must use HTTPS on roblox.com"
      else if parsed.user.isSome ∨ parsed.password.isSome then
        .error "webview URL must not contain user information"
      else
        match parsed.port, parsed.path with
        | .failed, _ => .error "webview URL contains an invalid port"
        | .port value, path =>
          if value ≠ bytes "443" then .error "webview URL must use the default HTTPS port"
          else if path.any (!hasUnsafePath ·) then .ok ()
          else .error "webview URL contains an unsafe path"
        | .noPort, path =>
          if path.any (!hasUnsafePath ·) then .ok ()
          else .error "webview URL contains an unsafe path"

/-- A route of the form `www:` is put behind the origin first. -/
def normalizeWebViewUrl (url : Bytes) : Except String Bytes := do
  if url = [] ∨ url.length > kMaximumWebViewUrlBytes ∨ containsControlBytes url = true then
    throw "webview URL is empty, oversized, or contains control bytes"
  else if kInternalRoutePrefix.isPrefixOf url then
    let route := url.drop kInternalRoutePrefix.length
    if route = [] ∨ route.head? = some (chr '/') then
      throw "webview internal Roblox route is invalid"
    else do
      validateWebViewUrl curl (kRobloxWebOrigin ++ route)
      return kRobloxWebOrigin ++ route
  else do
    validateWebViewUrl curl url
    return url

end

/-! Control packets. -/

inductive WebViewHelperControlOperation
  | kLoadUrl
  | kSetTitle
  | kSetVisible
  | kEvaluateJavaScript
  | kClose
  | kSetBackNavigationDisabled
  | kSetShowDomainAsTitle
  | kSetRobloxCookie
  | kClearRobloxCookie
  | kRetainPersistentRobloxCookie
deriving DecidableEq

namespace WebViewHelperControlOperation

def code : WebViewHelperControlOperation → UInt8
  | kLoadUrl => 1
  | kSetTitle => 2
  | kSetVisible => 3
  | kEvaluateJavaScript => 4
  | kClose => 5
  | kSetBackNavigationDisabled => 6
  | kSetShowDomainAsTitle => 7
  | kSetRobloxCookie => 8
  | kClearRobloxCookie => 9
  | kRetainPersistentRobloxCookie => 10

def ofCode (code : UInt8) : Option WebViewHelperControlOperation :=
  [kLoadUrl, kSetTitle, kSetVisible, kEvaluateJavaScript, kClose, kSetBackNavigationDisabled,
    kSetShowDomainAsTitle, kSetRobloxCookie, kClearRobloxCookie,
    kRetainPersistentRobloxCookie].find?
    (·.code == code)

@[simp] theorem ofCode_code (operation : WebViewHelperControlOperation) :
    ofCode operation.code = some operation := by
  cases operation <;> rfl

end WebViewHelperControlOperation

/-- A command; a refused packet leaves one with these values. -/
structure WebViewHelperControlCommand where
  operation : WebViewHelperControlOperation := .kClose
  payload : Bytes := []
  visible : Bool := false
deriving DecidableEq

def encodeControlPacket (operation : WebViewHelperControlOperation) (payload : Bytes) : Bytes :=
  header kControlMagic operation.code payload.length ++ payload

def isCookieByte (b : UInt8) : Bool :=
  b == 0x21 || (0x23 ≤ b && b ≤ 0x2b) || (0x2d ≤ b && b ≤ 0x3a) || (0x3c ≤ b && b ≤ 0x5b) ||
    (0x5d ≤ b && b ≤ 0x7e)

/-- An operation without payload. -/
def checkEmpty (payload : Bytes) (message : String) : Except String Unit :=
  if payload ≠ [] then .error message else .ok ()

/-- An operation whose payload is a flag. -/
def checkFlag (payload : Bytes) : Except String Unit :=
  if payload ≠ [0] ∧ payload ≠ [1] then
    .error "webview control boolean payload is invalid"
  else .ok ()

/-- The checks of each operation, in the order of the source. -/
def checkControlPayload (curl : Bytes → Option CurlUrl) (payload : Bytes) :
    WebViewHelperControlOperation → Except String Unit
  | .kLoadUrl => validateWebViewUrl curl payload
  | .kSetTitle =>
    if payload.length > kMaximumWebViewTitleBytes ∨ containsControlBytes payload = true then
      .error "webview control title is oversized or unsafe"
    else .ok ()
  | .kSetVisible => checkFlag payload
  | .kSetBackNavigationDisabled => checkFlag payload
  | .kSetShowDomainAsTitle => checkFlag payload
  | .kEvaluateJavaScript =>
    if payload.length > kMaximumWebViewJavaScriptBytes ∨ 0 ∈ payload then
      .error "webview control JavaScript is oversized or contains NUL"
    else .ok ()
  | .kSetRobloxCookie =>
    if payload = [] ∨ payload.length > kMaximumWebViewCookieBytes ∨
      payload.all isCookieByte = false then
      .error "webview Roblox cookie is oversized or unsafe"
    else .ok ()
  | .kClearRobloxCookie => checkEmpty payload "webview Roblox cookie clear payload must be empty"
  | .kRetainPersistentRobloxCookie =>
    checkEmpty payload "webview Roblox cookie retention payload must be empty"
  | .kClose => checkEmpty payload "webview control close payload must be empty"

/-- The header is checked first, then the payload by its operation. -/
def decodeWebViewHelperControlPacket (curl : Bytes → Option CurlUrl) (packet : Bytes) :
    Except String WebViewHelperControlCommand :=
  if validHeader kControlMagic kMaximumWebViewControlPacketBytes packet = false then
    .error "webview control packet has an invalid header"
  else if payloadSize packet ≠ packet.length - kControlHeaderBytes then
    .error "webview control packet has an invalid payload length"
  else
    match WebViewHelperControlOperation.ofCode (packet.getD 5 0) with
    | none => .error "webview control operation is unsupported"
    | some operation => do
      let payload := payloadOf packet
      checkControlPayload curl payload operation
      return { operation, payload, visible := payload.head?.any (· != 0) }

/-! Sending. -/

section

variable (curl : Bytes → Option CurlUrl)
  /- The child runs and the descriptor is open. -/
  (live : Bool)

/-- The packet handed to the socket. -/
def sendControlCommand (operation : WebViewHelperControlOperation)
    (payload : Bytes) : Option Bytes :=
  if live then some (encodeControlPacket operation payload) else none

def loadUrl (url : Bytes) : Option Bytes :=
  match normalizeWebViewUrl curl url with
  | .error _ => none
  | .ok normalizedUrl => sendControlCommand live .kLoadUrl normalizedUrl

def setTitle (title : Bytes) : Option Bytes :=
  if title.length > kMaximumWebViewTitleBytes ∨ containsControlBytes title = true then none
  else sendControlCommand live .kSetTitle title

def encodedFlag (value : Bool) : Bytes := [if value then 1 else 0]

def setVisible (visible : Bool) : Option Bytes :=
  sendControlCommand live .kSetVisible (encodedFlag visible)

/-- A script may hold any bytes but zero. -/
def evaluateJavaScript (script : Bytes) : Option Bytes :=
  if script.length > kMaximumWebViewJavaScriptBytes ∨ 0 ∈ script then none
  else sendControlCommand live .kEvaluateJavaScript script

def setBackNavigationDisabled (disabled : Bool) : Option Bytes :=
  sendControlCommand live .kSetBackNavigationDisabled (encodedFlag disabled)

def setShowDomainAsTitle (enabled : Bool) : Option Bytes :=
  sendControlCommand live .kSetShowDomainAsTitle (encodedFlag enabled)

/-- Only the length is checked; without a value the persistent cookie is kept. -/
def setRobloxCookie (value : Bytes) : Option Bytes :=
  if value.length > kMaximumWebViewCookieBytes then none
  else
    sendControlCommand live (if value = [] then .kRetainPersistentRobloxCookie
      else .kSetRobloxCookie) value

def clearRobloxCookie : Option Bytes := sendControlCommand live .kClearRobloxCookie []

end

/-- The calls that send a command. -/
inductive Request
  | loadUrl (url : Bytes)
  | setTitle (title : Bytes)
  | setVisible (visible : Bool)
  | evaluateJavaScript (script : Bytes)
  | setBackNavigationDisabled (disabled : Bool)
  | setShowDomainAsTitle (enabled : Bool)
  | setRobloxCookie (value : Bytes)
  | clearRobloxCookie
deriving DecidableEq

def Request.send (curl : Bytes → Option CurlUrl) (live : Bool) : Request → Option Bytes
  | loadUrl url => Helper.loadUrl curl live url
  | setTitle title => Helper.setTitle live title
  | setVisible visible => Helper.setVisible live visible
  | evaluateJavaScript script => Helper.evaluateJavaScript live script
  | setBackNavigationDisabled disabled => Helper.setBackNavigationDisabled live disabled
  | setShowDomainAsTitle enabled => Helper.setShowDomainAsTitle live enabled
  | setRobloxCookie value => Helper.setRobloxCookie live value
  | clearRobloxCookie => Helper.clearRobloxCookie live

/-- The operation a request asks for. -/
def Request.operation : Request → WebViewHelperControlOperation
  | loadUrl _ => .kLoadUrl
  | setTitle _ => .kSetTitle
  | setVisible _ => .kSetVisible
  | evaluateJavaScript _ => .kEvaluateJavaScript
  | setBackNavigationDisabled _ => .kSetBackNavigationDisabled
  | setShowDomainAsTitle _ => .kSetShowDomainAsTitle
  | setRobloxCookie value =>
    if value = [] then .kRetainPersistentRobloxCookie else .kSetRobloxCookie
  | clearRobloxCookie => .kClearRobloxCookie

/-- The payload a request has; an URL goes out in its normal form. -/
def Request.payload (curl : Bytes → Option CurlUrl) : Request → Bytes
  | loadUrl url => (normalizeWebViewUrl curl url).toOption.getD []
  | setTitle title => title
  | setVisible visible => encodedFlag visible
  | evaluateJavaScript script => script
  | setBackNavigationDisabled disabled => encodedFlag disabled
  | setShowDomainAsTitle enabled => encodedFlag enabled
  | setRobloxCookie value => value
  | clearRobloxCookie => []

/-- A cookie that the helper takes. -/
def Request.SafeCookie : Request → Prop
  | setRobloxCookie value => ∀ b ∈ value, isCookieByte b = true
  | _ => True

/-- What a request is to be read as. -/
def Request.command (curl : Bytes → Option CurlUrl) (request : Request) :
    WebViewHelperControlCommand where
  operation := request.operation
  payload := request.payload curl
  visible := (request.payload curl).head?.any (· != 0)

/-! Event packets. -/

inductive WebViewHelperEventType
  | kExecuteRoblox
  | kRobloxWkHybrid
  | kReady
  | kRobloxCookie
deriving DecidableEq

namespace WebViewHelperEventType

def code : WebViewHelperEventType → UInt8
  | kExecuteRoblox => 1
  | kRobloxWkHybrid => 2
  | kReady => 3
  | kRobloxCookie => 4

def ofCode (code : UInt8) : Option WebViewHelperEventType :=
  [kExecuteRoblox, kRobloxWkHybrid, kReady, kRobloxCookie].find? (·.code == code)

@[simp] theorem ofCode_code (type : WebViewHelperEventType) : ofCode type.code = some type := by
  cases type <;> rfl

theorem code_of_ofCode {code : UInt8} {type : WebViewHelperEventType}
    (h : ofCode code = some type) :
    type.code = code := by
  simpa using List.find?_some h

end WebViewHelperEventType

structure WebViewHelperEvent where
  type : WebViewHelperEventType := .kExecuteRoblox
  payload : Bytes := []
deriving DecidableEq

/-- A cookie has a lower limit than the other events. -/
def maximumPayload (type : WebViewHelperEventType) : Nat :=
  if type = .kRobloxCookie then kMaximumWebViewCookieBytes else kMaximumWebViewHybridEventBytes

def encodeWebViewHelperEventPacket (type : WebViewHelperEventType)
    (payload : Bytes) : Option Bytes :=
  if (type ≠ .kReady ∧ payload = []) ∨ payload.length > maximumPayload type ∨ 0 ∈ payload then none
  else some (header kEventMagic type.code payload.length ++ payload)

def decodeWebViewHelperEventPacket (packet : Bytes) : Except String WebViewHelperEvent :=
  if validHeader kEventMagic kMaximumWebViewEventPacketBytes packet = false then
    .error "webview event packet has an invalid header"
  else
    let payload := payloadOf packet
    if payloadSize packet ≠ payload.length ∨ 0 ∈ payload then
      .error "webview event packet has an invalid payload"
    else
      match WebViewHelperEventType.ofCode (packet.getD 5 0) with
      | none => .error "webview event type is unsupported"
      | some type =>
        if payload.isEmpty != (type == .kReady) ||
            (type == .kRobloxCookie && kMaximumWebViewCookieBytes < payload.length) then
          .error "webview event payload does not match its type"
        else .ok { type, payload }

end Nightcap.WebView.Helper
