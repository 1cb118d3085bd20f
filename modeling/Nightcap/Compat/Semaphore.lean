import Nightcap.Lib.Threads

/-! The bionic semaphore: `sem_init`, `sem_wait` and `sem_post`, one atomic access or futex call at
a time. -/
namespace Nightcap.Compat.Semaphore

open Transition Threads

/-- An `unsigned` of the guest. -/
abbrev Word := BitVec 32

def kSemValueMask : Word := 0xfffffffe

def kSemValueShift : Nat := 1

def kSemOne : Word := 1 <<< kSemValueShift

def kSemMinusOne : Word := kSemValueMask

/-- `SEM_VALUE_MAX` of the host. -/
def semValueMax : Nat := 2 ^ 31 - 1

def semValue (encoded : Word) : Int := (encoded.sshiftRight kSemValueShift).toInt

def semEncode (value : Word) : Word := (value <<< kSemValueShift) &&& kSemValueMask

/-- `mocktail_bionic_sem_init`: what it stores, or `none` for `EINVAL`. -/
def semInit (processShared : Bool) (value : Word) : Option Word :=
  if processShared then none
  else if value.toNat > semValueMax then none
  else some (semEncode value)

inductive Result
  | ok
  | EOVERFLOW
deriving DecidableEq

inductive Operation
  | wait
  | post
deriving DecidableEq

/-- Where a thread is: the access it makes next, with the old value it knows. -/
inductive Place
  | returned (result : Result)
  | waitLoad
  | waitExchange (oldValue : Word)
  | waitFutex
  | waitAsleep
  | postLoad
  | postExchange (oldValue : Word)
  | postWake
deriving DecidableEq

/-- The semaphore in guest storage, and the threads that the kernel has asleep on its word. -/
structure Shared (τ : Type*) where
  count : Word
  sleepers : List τ := []
  /-- Not in the code: how many waits have taken one, and how many posts have added one. -/
  waits : Nat := 0
  posts : Nat := 0

/-- `SemDec` once it has read the word. -/
def afterDec (oldValue : Word) : Place :=
  if semValue oldValue < 0 then .waitFutex else .waitExchange oldValue

/-- `SemInc` once it has read the word. -/
def afterInc (oldValue : Word) : Place :=
  if semValue oldValue = semValueMax then .returned .EOVERFLOW else .postExchange oldValue

inductive Act
  | call (operation : Operation)
  /-- The next access. `disturbed`: a weak exchange fails spuriously, a sleep ends without a
  wake. -/
  | access (disturbed : Bool)
deriving DecidableEq

def start : Operation → Place
  | .wait => .waitLoad
  | .post => .postLoad

variable {τ : Type*} [DecidableEq τ]

/-- What the next access of a thread does. -/
def access (t : τ) (s : Shared τ) (place : Place) (disturbed : Bool) : Option (Shared τ × Place) :=
  match place with
  | .returned _ => none
  | .waitLoad => some (s, afterDec s.count)
  | .waitExchange oldValue =>
    if s.count = oldValue ∧ ¬ disturbed then
      let count := (oldValue - kSemOne) &&& kSemValueMask
      if semValue oldValue > 0 then
        some ({ s with count := count, waits := s.waits + 1 }, .returned .ok)
      else some ({ s with count := count }, .waitFutex)
    else some (s, afterDec s.count)
  | .waitFutex =>
    if s.count = kSemMinusOne then some ({ s with sleepers := s.sleepers ++ [t] }, .waitAsleep)
    else some (s, .waitLoad)
  | .waitAsleep =>
    -- Asleep until a wake, or a signal.
    if t ∈ s.sleepers then
      if disturbed then some ({ s with sleepers := s.sleepers.erase t }, .waitLoad) else none
    else some (s, .waitLoad)
  | .postLoad => some (s, afterInc s.count)
  | .postExchange oldValue =>
    if s.count = oldValue ∧ ¬ disturbed then
      let newValue :=
        if semValue oldValue < 0 then kSemOne else (oldValue + kSemOne) &&& kSemValueMask
      some ({ s with count := newValue, posts := s.posts + 1 },
        if semValue oldValue < 0 then .postWake else .returned .ok)
    else some (s, afterInc s.count)
  | .postWake => some ({ s with sleepers := [] }, .returned .ok)

def act (t : τ) (s : Shared τ) (place : Place) : Act → Option (Shared τ × Place)
  | .call operation =>
    match place with
    | .returned _ => some (s, start operation)
    | _ => none
  | .access disturbed => access t s place disturbed

abbrev State (τ : Type*) := System τ (Shared τ) Place

/-- The threads that use a semaphore, from what `sem_init` stored on. -/
def system (count : Word) : LTS (State τ) (τ × Act) := interleaving { count } (.returned .ok) act

/-- What the threads find at first. -/
def fresh (count : Word) : State τ := ⟨{ count }, fun _ => .returned .ok⟩

/-- The waits never take more than there was; the count is what is left, or minus one when nothing
is; and nobody sleeps over a positive count that is not about to be woken. -/
structure Safe (value : Nat) (st : State τ) : Prop where
  waited : st.shared.waits ≤ value + st.shared.posts
  counted : semValue st.shared.count + st.shared.waits = value + st.shared.posts ∨
    semValue st.shared.count = -1 ∧ st.shared.waits = value + st.shared.posts
  woken : 0 < semValue st.shared.count → st.shared.sleepers ≠ [] → ∃ t, st.own t = .postWake

/-- A step of a post adds one and goes on to succeed, or leaves the word as it was. A failure is
such a step. -/
def PostsOne (st : State τ) (a : τ × Act) (st' : State τ) : Prop :=
  st.own a.1 = .postLoad ∨ (∃ oldValue, st.own a.1 = .postExchange oldValue) →
    (st'.own a.1 = .returned .ok ∨ st'.own a.1 = .postWake) ∧
        semValue st'.shared.count = max (semValue st.shared.count) 0 + 1 ∨
      (st'.own a.1 = .returned .EOVERFLOW ∨ st'.own a.1 = .postLoad ∨
          ∃ oldValue, st'.own a.1 = .postExchange oldValue) ∧
        st'.shared.count = st.shared.count

/-- The step is not the exchange of a post that finds the largest count there is a word for. -/
def Room (st : State τ) (a : τ × Act) : Prop :=
  ∀ oldValue, st.own a.1 = .postExchange oldValue → a.2 = .access false →
    st.shared.count = oldValue →
    semValue oldValue ≠ 2 ^ 30 - 1

end Nightcap.Compat.Semaphore
