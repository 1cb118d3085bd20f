import Nightcap.Launch.Experience

/-! `ParseRobloxLaunchUri`: the two website launch protocols. -/
namespace Nightcap.Launch

open Utf8 Ascii

def kMaximumRobloxLaunchUriBytes : Nat := 64 * 1024

def kMaximumParameterCount : Nat := 64

def kMaximumParameterKeyBytes : Nat := 128

def kMaximumParameterValueBytes : Nat := 16 * 1024

def kModernExperiencePrefix : Bytes := bytes "//experiences/start?"

def kModernDirectPrefix : Bytes := bytes "//placeid="

def kPlaceLauncherPath : Bytes := bytes "/game/placelauncher.ashx"

def isControl (b : UInt8) : Bool := b < 0x20 || b == 0x7f

def containsControlBytes (value : Bytes) : Bool := value.any isControl

def isContinuation (b : UInt8) : Bool := b &&& 0xc0 == 0x80

def codePoint (first : UInt8) (continuations : List UInt8) : UInt32 :=
  continuations.foldl (fun c b => c <<< 6 ||| (b &&& 0x3f).toUInt32) first.toUInt32

def isScalar (c : UInt32) : Bool := !(0xd800 ≤ c && c ≤ 0xdfff) && c ≤ 0x10ffff

def isValidUtf8 : Bytes → Bool
  | [] => true
  | first :: rest =>
    if first ≤ 0x7f then isValidUtf8 rest
    else if 0xc2 ≤ first && first ≤ 0xdf then
      match rest with
      | c₁ :: rest =>
        isContinuation c₁ && isScalar (codePoint (first &&& 0x1f) [c₁]) && isValidUtf8 rest
      | _ => false
    else if 0xe0 ≤ first && first ≤ 0xef then
      match rest with
      | c₁ :: c₂ :: rest =>
        let c := codePoint (first &&& 0x0f) [c₁, c₂]
        isContinuation c₁ && isContinuation c₂ && 0x800 ≤ c && isScalar c && isValidUtf8 rest
      | _ => false
    else if 0xf0 ≤ first && first ≤ 0xf4 then
      match rest with
      | c₁ :: c₂ :: c₃ :: rest =>
        let c := codePoint (first &&& 0x07) [c₁, c₂, c₃]
        isContinuation c₁ && isContinuation c₂ && isContinuation c₃ && 0x10000 ≤ c && isScalar c &&
          isValidUtf8 rest
      | _ => false
    else false

def hexDigitValue (b : UInt8) : Option UInt8 :=
  if 48 ≤ b ∧ b ≤ 57 then some (b - 48)
  else if 97 ≤ b ∧ b ≤ 102 then some (b - 97 + 10)
  else if 65 ≤ b ∧ b ≤ 70 then some (b - 65 + 10)
  else none

def invalidEncoding : Status :=
  invalidArgument "Roblox launch URI contains invalid percent encoding"

/-- One decoded byte in front of what the rest decodes to. -/
def consDecoded (b : UInt8) (rest : Except Status Bytes) : Except Status Bytes :=
  if isControl b then .error (invalidArgument "Roblox launch URI contains a control byte")
  else
    match rest with
    | .error status => .error status
    | .ok decoded => .ok (b :: decoded)

def decodeBytes (plusAsSpace : Bool) : Bytes → Except Status Bytes
  | [] => .ok []
  | b :: rest =>
    if is '%' b then
      match rest with
      | high :: low :: rest =>
        match hexDigitValue high, hexDigitValue low with
        | some h, some l => consDecoded (h <<< 4 ||| l) (decodeBytes plusAsSpace rest)
        | _, _ => .error invalidEncoding
      | _ => .error invalidEncoding
    else
      consDecoded (if is '+' b && plusAsSpace then chr ' ' else b) (decodeBytes plusAsSpace rest)

def percentDecode (encoded : Bytes) (plusAsSpace : Bool) : Except Status Bytes :=
  if encoded.length > kMaximumParameterValueBytes then
    .error (invalidArgument "Roblox launch parameter size is invalid")
  else
    match decodeBytes plusAsSpace encoded with
    | .error status => .error status
    | .ok decoded =>
      if decoded.length > kMaximumParameterValueBytes || !isValidUtf8 decoded then
        .error (invalidArgument "Roblox launch parameter is not bounded UTF-8")
      else .ok decoded

/-- A field of the launch contract, under its canonical name. -/
inductive LaunchKey
  | request
  | integer (field : IntegerField)
  | text (field : StringField)
deriving DecidableEq

structure LaunchFields where
  integers : IntegerField → Int64 := fun _ => 0
  strings : StringField → Bytes := fun _ => []
  requestType : Bytes := []
  seenFields : List LaunchKey := []

def integerInvalid (field : IntegerField) : Status :=
  invalidArgument ("Roblox launch integer is invalid: " ++ field.name)

def readDecimalInteger (value : Bytes) (field : IntegerField) (allowZero : Bool) :
    Except Status Int64 :=
  if !allDigits value || decimal value > Int64.maxValue.toInt.toNat ||
      (!allowZero && decimal value == 0) then .error (integerInvalid field)
  else .ok (Int64.ofNat (decimal value))

/-- The names a field goes by, in lower case. -/
def launchKeys : List (String × LaunchKey) :=
  [("request", .request), ("placeid", .integer .placeId), ("userid", .integer .userId),
    ("conversationid", .integer .conversationId),
    ("referredbyplayerid", .integer .referredByPlayerId), ("gameid", .text .gameInstanceId),
    ("gameinstanceid", .text .gameInstanceId), ("instanceid", .text .gameInstanceId),
    ("reservedserveraccesscode", .text .reservedServerAccessCode), ("callid", .text .callId),
    ("referralpage", .text .referralPage), ("accesscode", .text .accessCode),
    ("linkcode", .text .linkCode), ("privateserverlinkcode", .text .linkCode),
    ("launchdata", .text .launchData), ("eventid", .text .eventId),
    ("gamejoincontext", .text .gameJoinContext), ("joinattemptid", .text .joinAttemptId),
    ("joinattemptorigin", .text .joinAttemptOrigin), ("isocontext", .text .isoContext)]

def canonicalKey (key : Bytes) : Option LaunchKey :=
  (launchKeys.find? fun entry => bytes entry.1 == key).map Prod.snd

/-- Stores a value under its canonical key. -/
def storeField (key : LaunchKey) (value : Bytes) (fields : LaunchFields) :
    Except Status LaunchFields :=
  match key with
  | .request => .ok { fields with requestType := value }
  | .text field => .ok { fields with strings := Function.update fields.strings field value }
  | .integer field =>
    match readDecimalInteger value field (field ≠ .placeId) with
    | .error status => .error status
    | .ok n => .ok { fields with integers := Function.update fields.integers field n }

def assignField (rawKey value : Bytes) (decodeModernLaunchData : Bool) (fields : LaunchFields) :
    Except Status LaunchFields :=
  if rawKey = [] ∨ rawKey.length > kMaximumParameterKeyBytes then
    .error (invalidArgument "Roblox launch parameter key is invalid")
  else
    match canonicalKey (lower rawKey) with
    | none => .ok fields
    | some key =>
      if key ∈ fields.seenFields then
        .error (invalidArgument "Roblox launch URI repeats a singleton field")
      else
        let fields := { fields with seenFields := key :: fields.seenFields }
        if key = .text .launchData ∧ decodeModernLaunchData = true ∧ chr '%' ∈ value then
          match percentDecode value false with
          | .error status => .error status
          | .ok decoded => storeField key decoded fields
        else storeField key value fields

/-- The parts before and after the first `sep`, if there is one. -/
def splitFirst (sep : UInt8) : Bytes → Option (Bytes × Bytes)
  | [] => none
  | b :: rest =>
    if b = sep then some ([], rest)
    else (splitFirst sep rest).map fun parts => (b :: parts.1, parts.2)

/-- One `key=value` parameter of a query. -/
def assignPair (pair : Bytes) (decodeModernLaunchData : Bool) (fields : LaunchFields) :
    Except Status LaunchFields :=
  if pair = [] then .error (invalidArgument "Roblox launch URI contains an empty parameter")
  else
    match splitFirst (chr '=') pair with
    | none | some ([], _) => .error (invalidArgument "Roblox launch URI parameter has no value")
    | some (encodedKey, encodedValue) => do
      let key ← percentDecode encodedKey true
      let value ← percentDecode encodedValue true
      assignField key value decodeModernLaunchData fields

/-- The loop over the parameters of a query, `count` of them done. -/
def assignPairs (decodeModernLaunchData : Bool) :
    Nat → List Bytes → LaunchFields → Except Status LaunchFields
  | _, [], fields => .ok fields
  | count, pair :: pairs, fields =>
    if count + 1 > kMaximumParameterCount then
      .error (invalidArgument "Roblox launch URI has too many parameters")
    else
      match assignPair pair decodeModernLaunchData fields with
      | .error status => .error status
      | .ok fields => assignPairs decodeModernLaunchData (count + 1) pairs fields

def parseQuery (query : Bytes) (decodeModernLaunchData : Bool) (fields : LaunchFields) :
    Except Status LaunchFields :=
  if query = [] then .error (invalidArgument "Roblox launch URI query is missing")
  else assignPairs decodeModernLaunchData 0 (query.splitOn (chr '&')) fields

/-- A URL taken apart; a missing part was not there or could not be read. -/
structure UrlParts where
  scheme : Option Bytes
  host : Option Bytes
  path : Option Bytes
  query : Option Bytes
  user : Option Bytes
  password : Option Bytes
  fragment : Option Bytes
  port : Option Bytes

structure ResolvedFollowUserPlace where
  placeId : Int64
  gameInstanceId : Bytes

/-- The libraries below the parser, and the presence lookup with the stored cookie. -/
structure LaunchEnvironment where
  json : Json.Library
  parseUrl : Bytes → Option UrlParts
  resolveFollowUserPlace : Int64 → Except Status ResolvedFollowUserPlace

def getRequiredUrlPart (part : Option Bytes) (label : String) : Except Status Bytes :=
  match part with
  | none => .error (invalidArgument ("Roblox PlaceLauncher URL has no " ++ label))
  | some value => .ok value

def hasUrlPart (part : Option Bytes) : Bool := part.any (! ·.isEmpty)

def placeLauncherHosts : List Bytes :=
  [bytes "www.roblox.com", bytes "roblox.com", bytes "assetgame.roblox.com"]

def parsePlaceLauncherUrl (env : LaunchEnvironment) (launcherUrl : Bytes) (fields : LaunchFields) :
    Except Status LaunchFields :=
  if launcherUrl = [] ∨ launcherUrl.length > kMaximumRobloxLaunchUriBytes ∨
      containsControlBytes launcherUrl = true ∨ isValidUtf8 launcherUrl = false then
    .error (invalidArgument "Roblox PlaceLauncher URL is invalid")
  else
    match env.parseUrl launcherUrl with
    | none => .error (invalidArgument "Roblox PlaceLauncher URL cannot be parsed")
    | some url => do
      let scheme ← getRequiredUrlPart url.scheme "scheme"
      let host ← getRequiredUrlPart url.host "host"
      let path ← getRequiredUrlPart url.path "path"
      let query ← getRequiredUrlPart url.query "query"
      if lower scheme ≠ bytes "https" ∨ lower host ∉ placeLauncherHosts ∨
          lower path ≠ kPlaceLauncherPath ∨ hasUrlPart url.user = true ∨
          hasUrlPart url.password = true ∨ hasUrlPart url.fragment = true then
        .error (invalidArgument "Roblox PlaceLauncher URL origin or path is not allowed")
      else if url.port.any (· ≠ bytes "443") then
        .error (invalidArgument "Roblox PlaceLauncher URL port is not allowed")
      else parseQuery query false fields

/-- What the loop over the fields of a player launch has seen. -/
structure ClassicFields where
  launchModeSeen : Bool := false
  launcherUrl : Option Bytes := none

/-- One field of a player launch after the version. Unknown fields are not decoded. -/
def readClassicField (field : Bytes) (seen : ClassicFields) : Except Status ClassicFields :=
  match splitFirst (chr ':') field with
  | none | some ([], _) => .error (invalidArgument "Roblox player launch field is malformed")
  | some (rawKey, encodedValue) =>
    if lower rawKey = bytes "launchmode" then
      if seen.launchModeSeen then
        .error (invalidArgument "Roblox player launch repeats launchmode")
      else
        match percentDecode encodedValue false with
        | .error status => .error status
        | .ok launchMode =>
          if lower launchMode ≠ bytes "play" then
            .error (invalidArgument "Roblox player launch mode is unsupported")
          else .ok { seen with launchModeSeen := true }
    else if lower rawKey = bytes "placelauncherurl" then
      if seen.launcherUrl.isSome then
        .error (invalidArgument "Roblox player launch repeats PlaceLauncher URL")
      else
        match percentDecode encodedValue false with
        | .error status => .error status
        | .ok launcherUrl => .ok { seen with launcherUrl := some launcherUrl }
    else .ok seen

def kMaximumClassicFieldBytes : Nat := kMaximumParameterKeyBytes + 1 + kMaximumParameterValueBytes

/-- The loop over the fields of a player launch, `count` of them done. The first is the version. -/
def readClassicFields : Nat → List Bytes → ClassicFields → Except Status ClassicFields
  | _, [], seen => .ok seen
  | count, field :: rest, seen =>
    if count + 1 > kMaximumParameterCount then
      .error (invalidArgument "Roblox player launch payload has too many fields")
    else if field.length > kMaximumClassicFieldBytes then
      .error (invalidArgument "Roblox player launch field is too large")
    else if count = 0 then
      if field ≠ bytes "1" then
        .error (invalidArgument "Roblox player launch version is unsupported")
      else readClassicFields 1 rest seen
    else
      match readClassicField field seen with
      | .error status => .error status
      | .ok seen => readClassicFields (count + 1) rest seen

def parseClassic (env : LaunchEnvironment) (payload : Bytes) : Except Status LaunchFields :=
  if payload = [] then .error (invalidArgument "Roblox player launch payload is missing")
  else
    match readClassicFields 0 (payload.splitOn (chr '+')) {} with
    | .error status => .error status
    | .ok seen =>
      match seen.launchModeSeen, seen.launcherUrl with
      | true, some launcherUrl =>
        match parsePlaceLauncherUrl env launcherUrl {} with
        | .error status => .error status
        | .ok fields =>
          if fields.requestType = [] then
            .error (invalidArgument "Roblox PlaceLauncher request type is missing")
          else .ok fields
      | _, _ => .error (invalidArgument "Roblox player launch contract is incomplete")

def parseModern (payload : Bytes) : Except Status LaunchFields :=
  let read (query : Bytes) (decodeLaunchDataTwice : Bool) : Except Status LaunchFields :=
    if chr '#' ∈ query then
      .error (invalidArgument "Roblox launch URI contains an unsupported fragment")
    else parseQuery query decodeLaunchDataTwice {}
  if payload.length > kModernExperiencePrefix.length ∧
      lower (payload.take kModernExperiencePrefix.length) = kModernExperiencePrefix then
    read (payload.drop kModernExperiencePrefix.length) true
  else if payload.length ≥ kModernDirectPrefix.length ∧
      lower (payload.take kModernDirectPrefix.length) = kModernDirectPrefix then
    read (payload.drop 2) false
  else .error (invalidArgument "Roblox launch path is unsupported")

/-! From the fields to the request. -/

def privateJoin (fields : LaunchFields) : Bool :=
  fields.strings .accessCode ≠ [] || fields.strings .linkCode ≠ []

def selectors (fields : LaunchFields) : List Bool :=
  [decide (0 < fields.integers .userId), decide (0 < fields.integers .conversationId),
    privateJoin fields, decide (fields.strings .gameInstanceId ≠ []),
    decide (fields.strings .reservedServerAccessCode ≠ [])]

def validateSelector (fields : LaunchFields) : Except Status Unit :=
  let selectorCount := (selectors fields).count true
  let request := lower fields.requestType
  let require (holds : Bool) (message : String) : Except Status Unit :=
    if holds then .ok () else .error (invalidArgument message)
  if selectorCount > 1 then
    .error (invalidArgument "Roblox launch URI contains conflicting join selectors")
  else if fields.requestType = [] then .ok ()
  else if request = bytes "requestgame" then
    require (selectorCount == 0) "RequestGame contains a non-public join selector"
  else if request = bytes "requestgamejob" then
    require (selectorCount == 0 || fields.strings .gameInstanceId ≠ [])
      "RequestGameJob contains a non-public join selector"
  else if request = bytes "requestprivategame" then
    require (privateJoin fields || fields.strings .reservedServerAccessCode ≠ [])
      "RequestPrivateGame requires an access code"
  else if request = bytes "requestplaytogethergame" then
    require (0 < fields.integers .conversationId)
      "RequestPlayTogetherGame requires a conversation"
  else if request = bytes "requestfollowuser" then
    require (0 < fields.integers .placeId) "RequestFollowUser could not resolve a place"
  else .error (invalidArgument "Roblox PlaceLauncher request type is unsupported")

/-- The place of a follow-user request, which names a user instead. -/
def resolveFields (env : LaunchEnvironment) (fields : LaunchFields) : Except Status LaunchFields :=
  if 0 < fields.integers .placeId then .ok fields
  else if lower fields.requestType ≠ bytes "requestfollowuser" then
    .error (invalidArgument "Roblox launch URI requires a positive placeId")
  else
    match env.resolveFollowUserPlace (fields.integers .userId) with
    | .error status => .error status
    | .ok resolved =>
      let strings := if resolved.gameInstanceId = [] then fields.strings
        else Function.update fields.strings .gameInstanceId resolved.gameInstanceId
      let integers := Function.update fields.integers .placeId resolved.placeId
      .ok { fields with strings, integers := Function.update integers .userId 0 }

def optionalIntegers : List IntegerField := [.userId, .conversationId, .referredByPlayerId]

def optionalStrings : List StringField :=
  [.gameInstanceId, .reservedServerAccessCode, .callId, .referralPage, .accessCode, .linkCode,
    .launchData, .eventId, .gameJoinContext, .joinAttemptId, .joinAttemptOrigin, .isoContext]

/-- The fields of the document of a request; zero and empty values are left out. -/
def documentFields (fields : LaunchFields) : List (Bytes × Json) :=
  (bytes IntegerField.placeId.name, .integer (fields.integers .placeId)) ::
    ((optionalIntegers.filter fun f => 0 < fields.integers f).map fun f =>
      (bytes f.name, .integer (fields.integers f))) ++
    ((optionalStrings.filter fun f => fields.strings f ≠ []).map fun f =>
      (bytes f.name, .string (fields.strings f)))

def documentOf (fields : LaunchFields) : Json := .ofFields (documentFields fields)

def makeRequest (env : LaunchEnvironment) (fields : LaunchFields) :
    Except LaunchFailure RobloxExperienceLaunchRequest :=
  match resolveFields env fields with
  | .error status => .error (.refused status)
  | .ok fields =>
    match validateSelector fields with
    | .error status => .error (.refused status)
    | .ok () =>
      match env.json.dump (documentOf fields) with
      | none => .error .raised
      | some text => parseExperienceLaunch env.json text

def uriInvalid : Status := invalidArgument "Roblox launch URI size or encoding is invalid"

/-- The fields of a launch URI. -/
def parseUriFields (env : LaunchEnvironment) (uri : Bytes) : Except Status LaunchFields :=
  if uri = [] ∨ uri.length > kMaximumRobloxLaunchUriBytes ∨ containsControlBytes uri = true ∨
      isValidUtf8 uri = false then .error uriInvalid
  else
    match splitFirst (chr ':') uri with
    | none | some ([], _) => .error (invalidArgument "Roblox launch URI has no supported scheme")
    | some (scheme, payload) =>
      if lower scheme = bytes "roblox-player" then parseClassic env payload
      else if lower scheme = bytes "roblox" then parseModern payload
      else .error (invalidArgument "Roblox launch URI scheme is unsupported")

def parseLaunchUri (env : LaunchEnvironment) (uri : Bytes) :
    Except LaunchFailure RobloxExperienceLaunchRequest :=
  match parseUriFields env uri with
  | .error status => .error (.refused status)
  | .ok fields => makeRequest env fields

/-- `ParseRobloxLaunchUri`, with what it leaves in its output. -/
def parseRobloxLaunchUri (env : LaunchEnvironment) (uri : Bytes)
    (_request : RobloxExperienceLaunchRequest) :
    Except LaunchFailure Unit × RobloxExperienceLaunchRequest :=
  match parseLaunchUri env uri with
  | .error failure => (.error failure, {})
  | .ok parsed => (.ok (), parsed)

/-! A launch of one place, and what the libraries make of it. -/

def placeText : Bytes := bytes "\x7b\"placeId\":1818\x7d"

def placeJson : Json.Library where
  dump
    | .object [(key, .integer n)] =>
      if key = bytes "placeId" ∧ n = 1818 then some placeText else none
    | .object [(key, .unsigned n)] =>
      if key = bytes "placeId" ∧ n = 1818 then some placeText else none
    | _ => none
  parse text :=
    if text = placeText then some (.object [(bytes "placeId", .unsigned 1818)]) else none

def placeLauncherUrl : Bytes :=
  bytes "https://www.roblox.com/Game/PlaceLauncher.ashx?request=RequestGame&placeId=1818"

def placeEnvironment : LaunchEnvironment where
  json := placeJson
  parseUrl url :=
    if url = placeLauncherUrl then
      some
        { scheme := some (bytes "https")
          host := some (bytes "www.roblox.com")
          path := some (bytes "/Game/PlaceLauncher.ashx")
          query := some (bytes "request=RequestGame&placeId=1818")
          user := none
          password := none
          fragment := none
          port := none }
    else none
  resolveFollowUserPlace _ :=
    .error (invalidArgument "User is not currently in a joinable Roblox experience")

theorem placeJson_roundTrips (document : Json) : placeJson.RoundTrips document := by
  intro text h
  simp only [placeJson] at h ⊢
  split at h
  · split_ifs at h with hkey
    obtain ⟨rfl, rfl⟩ := hkey
    obtain rfl := Option.some.inj h
    exact ⟨rfl, rfl⟩
  · split_ifs at h with hkey
    obtain ⟨rfl, rfl⟩ := hkey
    obtain rfl := Option.some.inj h
    exact ⟨rfl, rfl⟩
  · cases h

end Nightcap.Launch
