import Nightcap.Lib.Json
import Nightcap.Status

/-! Experience launch requests, and the JSON documents they travel in. -/
namespace Nightcap.Launch

open Utf8 Ascii

inductive IntegerField
  | placeId
  | userId
  | conversationId
  | referredByPlayerId
deriving DecidableEq

inductive StringField
  | gameInstanceId
  | reservedServerAccessCode
  | callId
  | referralPage
  | accessCode
  | linkCode
  | launchData
  | eventId
  | gameJoinContext
  | joinAttemptId
  | joinAttemptOrigin
  | isoContext
  | gameIdToExclude
deriving DecidableEq

def IntegerField.name : IntegerField → String
  | .placeId => "placeId"
  | .userId => "userId"
  | .conversationId => "conversationId"
  | .referredByPlayerId => "referredByPlayerId"

def StringField.name : StringField → String
  | .gameInstanceId => "gameInstanceId"
  | .reservedServerAccessCode => "reservedServerAccessCode"
  | .callId => "callId"
  | .referralPage => "referralPage"
  | .accessCode => "accessCode"
  | .linkCode => "linkCode"
  | .launchData => "launchData"
  | .eventId => "eventId"
  | .gameJoinContext => "gameJoinContext"
  | .joinAttemptId => "joinAttemptId"
  | .joinAttemptOrigin => "joinAttemptOrigin"
  | .isoContext => "isoContext"
  | .gameIdToExclude => "gameIdToExclude"

/-- `RobloxExperienceLaunchRequest`, its members by the name of their field. -/
structure RobloxExperienceLaunchRequest where
  integers : IntegerField → Int64 := fun _ => 0
  strings : StringField → Bytes := fun _ => []
  canonicalJson : Bytes := []

/-- A launch is refused with a status, or an error of the JSON library escapes. -/
inductive LaunchFailure
  | raised
  | refused (status : Status)
deriving DecidableEq

def kMaximumExperienceLaunchJsonBytes : Nat := 64 * 1024

def kMaximumLaunchStringBytes : Nat := 16 * 1024

def readOptionalInteger (fields : List (Bytes × Json)) (field : IntegerField) :
    Except Status Int64 :=
  match fields.lookup (bytes field.name) with
  | none | some .null => .ok 0
  | some (.integer n) => .ok n
  | some (.unsigned n) =>
    if n.toNat > Int64.maxValue.toInt.toNat then
      .error (invalidArgument ("experience launch integer is out of range: " ++ field.name))
    else .ok n.toInt64
  | some _ => .error (invalidArgument ("experience launch field is not an integer: " ++ field.name))

def readOptionalString (fields : List (Bytes × Json)) (field : StringField) :
    Except Status Bytes :=
  match fields.lookup (bytes field.name) with
  | none | some .null => .ok []
  | some (.string value) =>
    if value.length > kMaximumLaunchStringBytes then
      .error (invalidArgument ("experience launch field is too large: " ++ field.name))
    else .ok value
  | some _ => .error (invalidArgument ("experience launch field is not a string: " ++ field.name))

/-- Reads fields in order, and stops at the first that is refused. -/
def readFields {φ α : Type} [DecidableEq φ] (read : φ → Except Status α) :
    List φ → (φ → α) → Except Status (φ → α)
  | [], values => .ok values
  | field :: rest, values =>
    match read field with
    | .error status => .error status
    | .ok value => readFields read rest (Function.update values field value)

def integerFields : List IntegerField := [.placeId, .userId, .conversationId, .referredByPlayerId]

def kStringFields : List StringField :=
  [.gameInstanceId, .reservedServerAccessCode, .callId, .referralPage, .accessCode, .linkCode,
    .launchData, .eventId, .gameJoinContext, .joinAttemptId, .joinAttemptOrigin, .isoContext,
    .gameIdToExclude]

/-- The request a document holds, its text apart. -/
def readRequest (fields : List (Bytes × Json)) : Except Status RobloxExperienceLaunchRequest := do
  let integers ← readFields (readOptionalInteger fields) integerFields fun _ => 0
  let strings ← readFields (readOptionalString fields) kStringFields fun _ => []
  if integers .placeId ≤ 0 then
    .error (invalidArgument "experience launch requires a positive placeId")
  else if integers .userId < 0 ∨ integers .conversationId < 0 ∨
    integers .referredByPlayerId < 0 then
    .error (invalidArgument "experience launch identifiers cannot be negative")
  else .ok { integers, strings }

def parseExperienceLaunch (json : Json.Library) (text : Bytes) :
    Except LaunchFailure RobloxExperienceLaunchRequest :=
  if text = [] ∨ text.length > kMaximumExperienceLaunchJsonBytes then
    .error (.refused (invalidArgument "experience launch JSON size is invalid"))
  else
    match json.parse text with
    | some (.object fields) =>
      match readRequest fields with
      | .error status => .error (.refused status)
      | .ok parsed =>
        match json.dump (.object fields) with
        | none => .error .raised
        | some canonicalJson =>
          if canonicalJson.length > kMaximumExperienceLaunchJsonBytes then
            .error (.refused (invalidArgument "canonical experience launch JSON is too large"))
          else .ok { parsed with canonicalJson }
    | _ => .error (.refused (invalidArgument "experience launch payload is not a JSON object"))

/-- `ParseRobloxExperienceLaunchJson`, with what it leaves in its output. -/
def parseRobloxExperienceLaunchJson (json : Json.Library) (text : Bytes)
    (_request : RobloxExperienceLaunchRequest) :
    Except LaunchFailure Unit × RobloxExperienceLaunchRequest :=
  match parseExperienceLaunch json text with
  | .error failure => (.error failure, {})
  | .ok parsed => (.ok (), parsed)

end Nightcap.Launch
