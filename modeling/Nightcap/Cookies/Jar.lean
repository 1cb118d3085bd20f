import Nightcap.Lib.Ascii
import Nightcap.Lib.Transition

/-! The cookie jar: URL and `Set-Cookie` parsing, storage rules and `Apply`. -/
namespace Nightcap.Cookies

open Utf8 Ascii

def kSite : Bytes := bytes "roblox.com"

def kCredentialName : Bytes := bytes ".ROBLOSECURITY"

/-- Browser limits: cookies per site, and bytes per `name=value`. -/
def kMaximumCookies : Nat := 180

def kMaximumCookieBytes : Nat := 4096

structure Cookie where
  name : Bytes := []
  value : Bytes := []
  domain : Bytes := []
  path : Bytes := []
  hostOnly : Bool := false
  secure : Bool := false
  /-- Unix seconds; zero keeps the cookie until it is replaced or deleted. -/
  expires : Int64 := 0
deriving DecidableEq

abbrev Jar := List Cookie

structure ParsedUrl where
  scheme : Bytes := []
  host : Bytes := []
  path : Bytes := []
deriving DecidableEq

def isHostEnd (b : UInt8) : Bool := is '/' b || is '?' b || is '#' b

def isQueryStart (b : UInt8) : Bool := is '?' b || is '#' b

def parseUrl (url : Bytes) : ParsedUrl :=
  match find (bytes "://") url with
  | none => {}
  | some schemeEnd =>
    let rest := url.drop (schemeEnd + 3)
    let authority := rest.takeWhile (!isHostEnd ·)
    -- Everything up to the last '@' is user information.
    let host := authority.rtakeWhile (!is '@' ·)
    let path :=
      match rest.dropWhile (!isHostEnd ·) with
      | [] => [chr '/']
      | b :: tail => if is '/' b then (b :: tail).takeWhile (!isQueryStart ·) else [chr '/']
    { scheme := lower (url.take schemeEnd), host := lower (host.takeWhile (!is ':' ·)), path }

def domainMatches (host domain : Bytes) : Bool :=
  if host.isEmpty || domain.isEmpty then false
  else if host == domain then true
  else
    decide (host.length > domain.length) &&
      host.drop (host.length - domain.length) == domain &&
      host[host.length - domain.length - 1]? == some (chr '.')

def defaultPath (requestPath : Bytes) : Bytes :=
  if requestPath.head? ≠ some (chr '/') then [chr '/']
  else
    let upToLast := requestPath.rdropWhile (!is '/' ·)
    if upToLast.length = 1 then [chr '/'] else upToLast.dropLast

def validName (name : Bytes) : Bool :=
  !(name.isEmpty || name == kCredentialName) &&
    name.all fun b => !(b ≤ 0x20 || b ≥ 0x7f || is '=' b || is ';' b || is ',' b)

def validValue (value : Bytes) : Bool :=
  value.all fun b => !(b < 0x20 || b == 0x7f || is ';' b)

def kMonths : List Bytes :=
  ["jan", "feb", "mar", "apr", "may", "jun", "jul", "aug", "sep", "oct", "nov", "dec"].map bytes

/-- The month a token's first three letters name. -/
def monthIndex (token : Bytes) : Option Nat :=
  if token.length < 3 then none else kMonths.findIdx? (· == lower (token.take 3))

/-- The fields `ParseCookieDate` collects; `none` is the source's -1. -/
structure DateFields where
  day : Option Nat := none
  month : Option Nat := none
  year : Option Nat := none
  time : Option (Nat × Nat × Nat) := none

/-- `hh:mm:ss`, eight characters. -/
def parseTime (token : Bytes) : Option (Nat × Nat × Nat) :=
  let part (i : Nat) := (token.drop i).take 2
  if token.length = 8 ∧ token[2]? = some (chr ':') ∧
    token[5]? = some (chr ':') ∧ allDigits (part 0) ∧
      allDigits (part 3) ∧ allDigits (part 6) then
    some (decimal (part 0), decimal (part 3), decimal (part 6))
  else none

def dateToken (fields : DateFields) (token : Bytes) : DateFields :=
  if token.isEmpty then fields
  else if fields.time.isNone && token.any (is ':') then
    { fields with time := parseTime token }
  else if allDigits token && decide (token.length ≤ 2) && fields.day.isNone then
    { fields with day := some (decimal token) }
  else if allDigits token && fields.year.isNone && (token.length == 2 || token.length == 4) then
    let year := decimal token
    { fields with year := some <|
        if token.length = 2 then year + (if year < 70 then 2000 else 1900) else year }
  else if fields.month.isNone && (monthIndex token).isSome then
    { fields with month := monthIndex token }
  else fields

def isLeap (year : Nat) : Bool := year % 4 == 0 && (year % 100 != 0 || year % 400 == 0)

def monthLengths (year : Nat) : List Nat :=
  [31, if isLeap year then 29 else 28, 31, 30, 31, 30, 31, 31, 30, 31, 30, 31]

/-- `timegm` from 1970 on; days and seconds past their range carry over. -/
def timegm (year month day hour minute second : Nat) : Int :=
  let leaps (y : Nat) : Nat := y / 4 - y / 100 + y / 400
  let days := 365 * (year - 1970) + (leaps (year - 1) - leaps 1969) +
    ((monthLengths year).take month).sum + (day - 1)
  86400 * days + 3600 * hour + 60 * minute + second

/-- Accepts the RFC 1123 and dashed Netscape forms of a cookie date. -/
def parseCookieDate (text : Bytes) : Option Int64 :=
  let fields := (text.splitOnP fun b => is ' ' b || is ',' b || is '-' b).foldl dateToken {}
  match fields.day, fields.month, fields.year, fields.time with
  | some day, some month, some year, some (hour, minute, second) =>
    if day < 1 ∨ day > 31 ∨ year < 1970 ∨ hour > 23 ∨ minute > 59 ∨ second > 60 then none
    else some (Int64.ofInt (timegm year month day hour minute second))
  | _, _, _, _ => none

def expired (cookie : Cookie) (now : Int64) : Bool :=
  cookie.expires != 0 && decide (cookie.expires ≤ now)

def sameCookie (left right : Cookie) : Bool :=
  left.name == right.name && left.domain == right.domain && left.path == right.path

def sameContents (left right : Cookie) : Bool :=
  sameCookie left right && left.value == right.value && left.hostOnly == right.hostOnly &&
    left.secure == right.secure && left.expires == right.expires

def storableCookie (cookie : Cookie) : Bool :=
  validName cookie.name && validValue cookie.value &&
    decide (cookie.name.length + 1 + cookie.value.length ≤ kMaximumCookieBytes) &&
    domainMatches cookie.domain kSite && cookie.path.head? == some (chr '/')

/-- What the attributes of one header have set so far. -/
structure Attributes where
  domain : Bytes := []
  path : Bytes := []
  secure : Bool := false
  maxAge : Option Int64 := none
  hasExpires : Bool := false
  expires : Int64 := 0

def parseMaxAge (value : Bytes) : Option Int64 :=
  let negative := value.head? == some (chr '-')
  let digits := if negative then value.drop 1 else value
  if allDigits digits && decide (digits.length ≤ 12) then
    some (Int64.ofInt (if negative then -(decimal digits : Int) else decimal digits))
  else none

def applyAttribute (attributes : Attributes) (item : Bytes) : Attributes :=
  let key := lower (trim (item.takeWhile (!is '=' ·)))
  let value :=
    match item.dropWhile (!is '=' ·) with
    | [] => []
    | _ :: tail => trim tail
  if key = bytes "domain" then
    { attributes with domain := (lower value).dropWhile (is '.') }
  else if key = bytes "path" then { attributes with path := value }
  else if key = bytes "secure" then { attributes with secure := true }
  else if key = bytes "max-age" then
    match parseMaxAge value with
    | some maxAge => { attributes with maxAge := some maxAge }
    | none => attributes
  else if key = bytes "expires" then
    match parseCookieDate value with
    | some expires => { attributes with hasExpires := true, expires }
    | none => { attributes with hasExpires := false }
  else attributes

/-- The attributes after the first `;`, in order. The source stops before an empty last piece,
which would set nothing. -/
def applyAttributes (rest : Bytes) : Attributes :=
  (rest.splitOnP (is ';')).foldl (fun attributes item => applyAttribute attributes (trim item)) {}

/-- The `name=value` pair in front of a header's attributes. -/
def headerPair (header : Bytes) : Option (Bytes × Bytes) :=
  let pair := trim (header.takeWhile (!is ';' ·))
  match pair.dropWhile (!is '=' ·) with
  | [] => none
  | _ :: value => some (trim (pair.takeWhile (!is '=' ·)), trim value)

def headerAttributes (header : Bytes) : Attributes :=
  match header.dropWhile (!is ';' ·) with
  | [] => {}
  | _ :: rest => applyAttributes rest

/-- The cookie before its expiry is known; missing scope comes from the origin. -/
def scopedCookie (origin : ParsedUrl) (attributes : Attributes) (name value : Bytes) : Cookie :=
  { name
    value
    domain := if attributes.domain.isEmpty then origin.host else attributes.domain
    path := if attributes.path.head? ≠ some (chr '/') then defaultPath origin.path
      else attributes.path
    hostOnly := attributes.domain.isEmpty
    secure := attributes.secure }

/-- The cookie with its expiry, and whether the header asks for its removal. -/
def withExpiry (attributes : Attributes) (now : Int64) (cookie : Cookie) : Cookie × Bool :=
  match attributes.maxAge with
  | some maxAge =>
    if maxAge ≤ 0 then (cookie, true) else ({ cookie with expires := now + maxAge }, false)
  | none =>
    if attributes.hasExpires then
      ({ cookie with expires := attributes.expires }, decide (attributes.expires ≤ now))
    else (cookie, false)

/-- What one header asks for; `none` when it is skipped. -/
def parseSetCookie (origin : ParsedUrl) (now : Int64) (header : Bytes) : Option (Cookie × Bool) :=
  match headerPair header with
  | none => none
  | some (name, value) =>
    let attributes := headerAttributes header
    let cookie := scopedCookie origin attributes name value
    if !domainMatches origin.host cookie.domain then none
    else if !storableCookie cookie then none
    else some (withExpiry attributes now cookie)

/-- Stores or removes one parsed cookie; the newest cookie is last. -/
def storeCookie (jar : Jar) (cookie : Cookie) (remove : Bool) : Jar × Bool :=
  match jar.findIdx? (sameCookie · cookie) with
  | some existing =>
    if remove then (jar.eraseIdx existing, true)
    else if (jar[existing]?.any (sameContents · cookie)) && existing + 1 == jar.length then
      (jar, false)
    else (jar.eraseIdx existing ++ [cookie], true)
  | none =>
    if remove then (jar, false)
    else if jar.length ≥ kMaximumCookies then (jar.drop 1 ++ [cookie], true)
    else (jar ++ [cookie], true)

def applyHeader (origin : ParsedUrl) (now : Int64) (state : Jar × Bool) (header : Bytes) :
    Jar × Bool :=
  match parseSetCookie origin now header with
  | none => state
  | some (cookie, remove) =>
    let (jar, changed) := storeCookie state.1 cookie remove
    (jar, state.2 || changed)

/-- The final sweep of expired cookies. -/
def sweep (now : Int64) (state : Jar × Bool) : Jar × Bool :=
  if state.1.any (expired · now) then (state.1.filter (!expired · now), true) else state

/-- The origin `Apply` accepts headers from. -/
def acceptsOrigin (origin : ParsedUrl) : Bool :=
  origin.scheme == bytes "https" && domainMatches origin.host kSite

/-- `RobloxCookieJar::Apply`: the new jar and whether the stored set changed. -/
def apply (jar : Jar) (url : Bytes) (setCookies : List Bytes) (now : Int64) : Jar × Bool :=
  let origin := parseUrl url
  if !acceptsOrigin origin then (jar, false)
  else sweep now (setCookies.foldl (applyHeader origin now) (jar, false))

end Nightcap.Cookies
