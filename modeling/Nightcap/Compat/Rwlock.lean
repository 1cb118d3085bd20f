import Nightcap.Lib.Threads

/-! The bionic rwlock: `rdlock`, `wrlock` and `unlock`, one atomic access or futex call at a
time. -/
namespace Nightcap.Compat.Rwlock

open Transition Threads

/-- An `int` of the guest. -/
abbrev Word := BitVec 32

def kRwlockWriterFlag : Word := 1 <<< 31

def kRwlockPendingWritersFlag : Word := 1 <<< 1

def kRwlockPendingReadersFlag : Word := 1 <<< 0

def kRwlockReaderStep : Word := 1 <<< 2

def ownedByWriter (state : Word) : Bool := state.slt 0

def ownedByReaders (state : Word) : Bool := kRwlockReaderStep.sle state

inductive Result
  | ok
  | EPERM
  | EAGAIN
  | EBUSY
  | EDEADLK
deriving DecidableEq

inductive Operation
  | rdlock
  | wrlock
  | unlock
deriving DecidableEq

/-- Where a thread is: the access it makes next, with the locals that matter from there on. `first`
tells the attempt before the loop from those in it. -/
inductive Place
  | returned (result : Result)
  | rdLoad (first : Bool)
  | rdExchange (first : Bool) (oldState : Word)
  | rdReload
  | rdPend (oldState : Word)
  | rdWait (pending : Word)
  | rdAsleep
  | wrTid
  | wrLoad (first : Bool)
  | wrExchange (first : Bool) (oldState : Word)
  | wrStoreTid
  | wrReload
  | wrPend (oldState : Word)
  | wrWait (pending : Word)
  | wrAsleep
  | unLoad
  | unTid
  | unClearTid
  | unFetchAnd
  | unFetchSub
  | unWake
deriving DecidableEq

structure Thread where
  place : Place := .returned .ok
  /-- How often it holds the lock for reading. -/
  reads : Nat := 0
  writes : Bool := false
deriving DecidableEq

/-- The lock in guest storage, and the threads that the kernel has asleep on its state word. -/
structure Shared (τ : Type*) where
  state : Word := 0
  writerTid : Word := 0
  sleepers : List τ := []

/-- What `TryRdlock` returns without an exchange, or `none` if it goes on to one. -/
def tryRdlock (oldState : Word) : Option Result :=
  if ownedByWriter oldState then some .EBUSY
  else if !ownedByReaders (oldState + kRwlockReaderStep) then some .EAGAIN
  else none

/-- `rdlock` after `TryRdlock` has read the state word. -/
def afterTryRdlock (first : Bool) (oldState : Word) : Place :=
  match tryRdlock oldState with
  | none => .rdExchange first oldState
  | some result =>
    if first then .rdLoad false
    else if result = .EAGAIN then .returned .EAGAIN
    else .rdReload

/-- `wrlock` after `TryWrlock` has read the state word. -/
def afterTryWrlock (first : Bool) (oldState : Word) : Place :=
  if !ownedByWriter oldState && !ownedByReaders oldState then .wrExchange first oldState
  else if first then .wrLoad false
  else .wrReload

inductive Act
  | call (operation : Operation)
  /-- The next access. `disturbed`: a weak exchange fails spuriously, a sleep ends without a
  wake. -/
  | access (disturbed : Bool)
deriving DecidableEq

def start : Operation → Place
  | .rdlock => .rdLoad true
  | .wrlock => .wrTid
  | .unlock => .unLoad

variable {τ : Type*} [DecidableEq τ]

/-- A thread asleep goes on once the kernel has woken it, or when its sleep is disturbed. -/
def awaken (t : τ) (s : Shared τ) (disturbed : Bool) : Option (Shared τ) :=
  if t ∈ s.sleepers then
    if disturbed then some { s with sleepers := s.sleepers.erase t } else none
  else some s

/-- What the next access of a thread does. -/
def access (tid : τ → Word) (t : τ) (s : Shared τ) (th : Thread) (disturbed : Bool) :
    Option (Shared τ × Thread) :=
  let go (place : Place) : Option (Shared τ × Thread) := some (s, { th with place })
  match th.place with
  | .returned _ => none
  | .rdLoad first => go (afterTryRdlock first s.state)
  | .rdExchange first oldState =>
    if s.state = oldState ∧ ¬ disturbed then
      some ({ s with state := oldState + kRwlockReaderStep },
        { th with place := .returned .ok, reads := th.reads + 1 })
    else go (afterTryRdlock first s.state)
  | .rdReload => go (if !ownedByWriter s.state then .rdLoad false else .rdPend s.state)
  | .rdPend oldState =>
    let pending := oldState ||| kRwlockPendingReadersFlag
    if s.state = oldState ∧ ¬ disturbed then
      some ({ s with state := pending }, { th with place := .rdWait pending })
    else go (.rdLoad false)
  | .rdWait pending =>
    if s.state = pending then
      some ({ s with sleepers := s.sleepers ++ [t] }, { th with place := .rdAsleep })
    else go (.rdLoad false)
  | .rdAsleep => (awaken t s disturbed).map (·, { th with place := .rdLoad false })
  | .wrTid => go (if s.writerTid = tid t then .returned .EDEADLK else .wrLoad true)
  | .wrLoad first => go (afterTryWrlock first s.state)
  | .wrExchange first oldState =>
    if s.state = oldState ∧ ¬ disturbed then
      some ({ s with state := oldState ||| kRwlockWriterFlag },
        { th with place := .wrStoreTid, writes := true })
    else go (afterTryWrlock first s.state)
  | .wrStoreTid => some ({ s with writerTid := tid t }, { th with place := .returned .ok })
  | .wrReload =>
    go (if !ownedByWriter s.state && !ownedByReaders s.state then .wrLoad false
      else .wrPend s.state)
  | .wrPend oldState =>
    let pending := oldState ||| kRwlockPendingWritersFlag
    if s.state = oldState ∧ ¬ disturbed then
      some ({ s with state := pending }, { th with place := .wrWait pending })
    else go (.wrLoad false)
  | .wrWait pending =>
    if s.state = pending then
      some ({ s with sleepers := s.sleepers ++ [t] }, { th with place := .wrAsleep })
    else go (.wrLoad false)
  | .wrAsleep => (awaken t s disturbed).map (·, { th with place := .wrLoad false })
  | .unLoad =>
    go (if ownedByWriter s.state then .unTid
      else if ownedByReaders s.state then .unFetchSub
      else .returned .EPERM)
  | .unTid => go (if s.writerTid ≠ tid t then .returned .EPERM else .unClearTid)
  | .unClearTid => some ({ s with writerTid := 0 }, { th with place := .unFetchAnd })
  | .unFetchAnd =>
    some ({ s with state := s.state &&& ~~~kRwlockWriterFlag },
      { th with place := .unWake, writes := false })
  | .unFetchSub =>
    some ({ s with state := s.state - kRwlockReaderStep },
      { th with
        place := if s.state.sshiftRight 2 ≠ 1 then .returned .ok else .unWake
        reads := th.reads - 1 })
  | .unWake => some ({ s with sleepers := [] }, { th with place := .returned .ok })

def act (tid : τ → Word) (t : τ) (s : Shared τ) (th : Thread) : Act → Option (Shared τ × Thread)
  | .call operation =>
    match th.place with
    | .returned _ => some (s, { th with place := start operation })
    | _ => none
  | .access disturbed => access tid t s th disturbed

/-- The threads of a process, by the thread ids the kernel gave them. -/
structure Process (τ : Type*) where
  tid : τ → Word
  tid_injective : Function.Injective tid
  tid_ne_zero : ∀ t, tid t ≠ 0

abbrev State (τ : Type*) := System τ (Shared τ) Thread

def system (process : Process τ) : LTS (State τ) (τ × Act) :=
  interleaving {} {} (act process.tid)

end Nightcap.Compat.Rwlock
