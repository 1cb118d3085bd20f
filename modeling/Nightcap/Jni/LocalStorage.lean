import Nightcap.Jni.Strings
import Nightcap.Lib.Ascii
import Nightcap.Lib.TaggedStore
import Nightcap.Lib.Transition

/-! The local storage that Java asks for its users' values: one flat map and the set of the known
users. -/
namespace Nightcap.Jni

open Utf8 Ascii TaggedStore

abbrev UserId := Int64

def kLocalStorageUninitializedUser : UserId := -2

def kLocalStorageNoUser : UserId := -1

/-- The two variables a user may come from. -/
structure Environment where
  localStorageCurrentUserId : Option Bytes := none
  robloxUserId : Option Bytes := none

/-- An unordered set comes in any order. -/
structure Iteration where
  order : List UserId → List UserId
  perm : ∀ users, (order users).Perm users

structure LocalStorage where
  values : Store UInt8 Bytes := fun _ => none
  users : List UserId := []
  currentUser : UserId := kLocalStorageUninitializedUser

def nonempty (value : Option Bytes) : Option Bytes := value.filter (!·.isEmpty)

/-- A whole decimal number in range, and 0 for anything else. -/
def strtollWhole (value : Bytes) : Int64 :=
  let text := value.dropWhile isSpace
  let negative := text.head? == some 45
  let digits := if negative || text.head? == some 43 then text.drop 1 else text
  let parsed : Int := if negative then -(decimal digits : Int) else decimal digits
  if allDigits digits && -2 ^ 63 ≤ parsed && parsed < 2 ^ 63 then Int64.ofInt parsed else 0

def parseLocalStorageUserIdFromEnv (environment : Environment) : UserId :=
  match nonempty environment.localStorageCurrentUserId with
  | some value => strtollWhole value
  | none =>
    match nonempty environment.robloxUserId with
    | some value => strtollWhole value
    | none => 0

/-- The current user is the new state's. -/
def currentLocalStorageUserLocked (environment : Environment) (s : LocalStorage) : LocalStorage :=
  if s.currentUser = kLocalStorageUninitializedUser then
    let user := parseLocalStorageUserIdFromEnv environment
    { s with
      currentUser := user
      users := if user ≠ kLocalStorageNoUser then s.users.insert user else s.users }
  else s

def toStringBytes (n : Int64) : Bytes :=
  if n < 0 then 45 :: ofNat n.toInt.natAbs else ofNat n.toInt.natAbs

def localStorageUserKey (key : Bytes) (user : UserId) : Bytes := toStringBytes user ++ [95] ++ key

def commaListContains (list value : Bytes) : Bool := (list.splitOn 44).contains value

def appendCommaListValue (list value : Bytes) : Bytes :=
  if value.isEmpty || commaListContains list value then list
  else (if list.isEmpty then list else list ++ [44]) ++ value

def kUsers : Bytes := bytes "Users"

def kCurrentUser : Bytes := bytes "CurrentUser"

def kUserKeys : Bytes := bytes "UserKeys"

def refreshLocalStorageUsersValueLocked (iteration : Iteration) (s : LocalStorage) : LocalStorage :=
  { s with
    values := put s.values kUsers
      (((iteration.order s.users).map toStringBytes).foldl appendCommaListValue []) }

def localStorageGetValue (environment : Environment) (s : LocalStorage)
    (key : Bytes) : Bytes × LocalStorage :=
  let s := currentLocalStorageUserLocked environment s
  ((s.values key).getD [], s)

def localStorageSetUserValueLocked (iteration : Iteration) (s : LocalStorage)
    (user : UserId) (key value : Bytes) :
    LocalStorage :=
  let values := put s.values (localStorageUserKey key user) value
  let userKeys := localStorageUserKey kUserKeys user
  refreshLocalStorageUsersValueLocked iteration
    { s with
      users := s.users.insert user
      values := put values userKeys (appendCommaListValue ((values userKeys).getD []) key) }

def localStorageDeleteUserValues (environment : Environment)
    (iteration : Iteration) (s : LocalStorage)
    (user : UserId) : LocalStorage :=
  let s := currentLocalStorageUserLocked environment s
  refreshLocalStorageUsersValueLocked iteration
    { values := clear s.values (toStringBytes user ++ [95])
      users := s.users.erase user
      currentUser := if s.currentUser = user then kLocalStorageNoUser else s.currentUser }

inductive Call
  | setCurrentUser (user : UserId)
  | getCurrentUser
  | getUsers
  | setSecureValue (key value : List JChar)
  | setSecureValueForCurrentUser (key value : List JChar)
  | setSecureValueForUser (key value : List JChar) (user : UserId)
  | getSecureValue (key : List JChar)
  | getSecureValueForCurrentUser (key : List JChar)
  | getSecureValueForUser (key : List JChar) (user : UserId)
  | deleteSecureValue (key : List JChar)
  | deleteUserValues (user : UserId)
  | deleteCurrentUserValues
deriving DecidableEq

inductive Answer
  | boolean (b : Bool)
  | long (n : Int64)
  | size (n : Nat)
  | string (units : List JChar)
deriving DecidableEq

/-- A Java string keeps its text in standard UTF-8 as well. -/
def stringFromJString (string : List JChar) : Bytes := utf16ToUtf8 string

def makeString (utf : Bytes) : Answer := .string (modifiedUtf8ToUtf16 (some utf))

/-- What the methods do, by their names; a missing string is an empty one. -/
def call (environment : Environment) (iteration : Iteration) (s : LocalStorage) :
    Call → Answer × LocalStorage
  | .setCurrentUser user =>
    let s := { s with
      currentUser := user
      users := if user ≠ kLocalStorageNoUser then s.users.insert user else s.users }
    let s := refreshLocalStorageUsersValueLocked iteration s
    (.boolean true, { s with values := put s.values kCurrentUser (toStringBytes user) })
  | .getCurrentUser =>
    let s := currentLocalStorageUserLocked environment s
    (.long s.currentUser, s)
  | .getUsers =>
    let s := currentLocalStorageUserLocked environment s
    (.size s.users.length, s)
  | .setSecureValue key value =>
    let s := currentLocalStorageUserLocked environment s
    (.boolean true,
      { s with values := put s.values (stringFromJString key) (stringFromJString value) })
  | .setSecureValueForCurrentUser key value =>
    let s := currentLocalStorageUserLocked environment s
    if s.currentUser = kLocalStorageNoUser then (.boolean false, s)
    else
      (.boolean true,
        localStorageSetUserValueLocked iteration s s.currentUser (stringFromJString key)
        (stringFromJString value))
  | .setSecureValueForUser key value user =>
    let s := currentLocalStorageUserLocked environment s
    (.boolean true, localStorageSetUserValueLocked iteration s user (stringFromJString key)
      (stringFromJString value))
  | .getSecureValue key =>
    let (value, s) := localStorageGetValue environment s (stringFromJString key)
    (makeString value, s)
  | .getSecureValueForCurrentUser key =>
    let s := currentLocalStorageUserLocked environment s
    if s.currentUser = kLocalStorageNoUser then (makeString [], s)
    else
      let (value, s) := localStorageGetValue environment s
        (localStorageUserKey (stringFromJString key) s.currentUser)
      (makeString value, s)
  | .getSecureValueForUser key user =>
    let (value, s) := localStorageGetValue environment s
      (localStorageUserKey (stringFromJString key) user)
    (makeString value, s)
  | .deleteSecureValue key =>
    let s := currentLocalStorageUserLocked environment s
    (.boolean true, { s with values := TaggedStore.drop s.values (stringFromJString key) })
  | .deleteUserValues user =>
    (.boolean true, localStorageDeleteUserValues environment iteration s user)
  | .deleteCurrentUserValues =>
    let s := currentLocalStorageUserLocked environment s
    if s.currentUser = kLocalStorageNoUser then (.boolean false, s)
    else (.boolean true, localStorageDeleteUserValues environment iteration s s.currentUser)

/-! What the storage is for: a map for each user, and who is the current one. -/

structure Accounts where
  currentUser : UserId
  stored : UserId → List JChar → Option (List JChar)

def Accounts.set (a : Accounts) (user : UserId) (key value : List JChar) : Accounts :=
  { a with stored :=
    Function.update a.stored user (Function.update (a.stored user) key (some value)) }

def Accounts.delete (a : Accounts) (user : UserId) : Accounts :=
  { currentUser := if a.currentUser = user then kLocalStorageNoUser else a.currentUser
    stored := Function.update a.stored user fun _ => none }

def Accounts.call (a : Accounts) : Call → Accounts
  | .setCurrentUser user => { a with currentUser := user }
  | .setSecureValueForCurrentUser key value =>
    if a.currentUser = kLocalStorageNoUser then a else a.set a.currentUser key value
  | .setSecureValueForUser key value user => a.set user key value
  | .deleteUserValues user => a.delete user
  | .deleteCurrentUserValues =>
    if a.currentUser = kLocalStorageNoUser then a else a.delete a.currentUser
  | _ => a

end Nightcap.Jni
