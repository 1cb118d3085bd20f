import Nightcap.Lib.KeyHistory
import Nightcap.Lib.Threads

/-! The bionic pthread keys: `Create`, `Delete`, `Get`, `Set` and the `Clean` of a thread that
exits, one atomic access at a time. -/
namespace Nightcap.Compat.PthreadKey

open Transition Threads KeyHistory

def kBionicPthreadKeyCount : Nat := 130

def kBionicPthreadKeyValidFlag : UInt32 := (1 : UInt32) <<< 31

def kBionicDestructorIterations : Nat := 4

def kSequenceInUseBit : Nat := 1

/-- An index into the slots. -/
abbrev Index := Fin kBionicPthreadKeyCount

def isInUse (sequence : Nat) : Bool := sequence &&& kSequenceInUseBit != 0

def encodeKey (index : Index) : UInt32 := kBionicPthreadKeyValidFlag ||| UInt32.ofNat index

def decodeKey (key : UInt32) : Option Index :=
  if key &&& kBionicPthreadKeyValidFlag = 0 then none
  else
    let candidate := (key &&& ~~~kBionicPthreadKeyValidFlag).toNat
    if h : candidate < kBionicPthreadKeyCount then some ⟨candidate, h⟩ else none

/-- Functions of the guest are named by `δ`, its pointers by `ν`, and `none` is the null pointer. -/
structure KeySlot (δ : Type*) where
  sequence : Nat := 0
  destructor : Option δ := none

structure KeyValue (ν : Type*) where
  sequence : Nat := 0
  value : Option ν := none

structure Shared (τ ν δ : Type*) where
  slots : Index → KeySlot δ
  mutex : Option τ := none
  log : History τ Index ν δ

/-- Where `Clean` is in its loops. -/
structure Frame where
  round : Nat
  index : Index
  calledDestructors : Nat
deriving DecidableEq

inductive Outcome (ν : Type*)
  | ok
  | key (key : UInt32)
  | value (value : Option ν)
  | EINVAL
  | EAGAIN

/-- The access a thread makes next. -/
inductive Place (ν δ : Type*)
  | returned (outcome : Outcome ν)
  | createLock (destructor : Option δ)
  | createLoad (destructor : Option δ) (index : Index)
  | createStoreDestructor (destructor : Option δ) (index : Index) (sequence : Nat)
  | createStoreSequence (destructor : Option δ) (index : Index) (sequence : Nat)
  | deleteLock (index : Index)
  | deleteLoad (index : Index)
  | deleteStoreSequence (index : Index) (sequence : Nat)
  | deleteStoreDestructor (index : Index)
  | unlock (outcome : Outcome ν)
  | getLoad (index : Index)
  | setLoad (index : Index) (value : Option ν)
  | cleanLoad (frame : Frame)
  | cleanDestructor (frame : Frame) (sequence : Nat)
  | cleanConfirm (frame : Frame) (sequence : Nat) (destructor : Option δ)

structure Thread (ν δ : Type*) where
  place : Place ν δ := .returned .ok
  values : Index → KeyValue ν := fun _ => {}
  /-- Where `Clean` goes on when the destructor it is in returns. -/
  destroying : Option Frame := none

inductive Call (ν δ : Type*)
  | create (keyGiven : Bool) (destructor : Option δ)
  | delete (key : UInt32)
  | get (key : UInt32)
  | set (key : UInt32) (value : Option ν)
  | clean

inductive Act (ν δ : Type*)
  | call (call : Call ν δ)
  | access
  /-- A destructor that `Clean` has called returns. -/
  | destroyed

variable {τ ν δ : Type*} [DecidableEq τ]

def first : Index := ⟨0, by decide⟩

/-- The reserved keys of libc and jemalloc are there from the start. -/
def initial : Shared τ ν δ where
  slots index := if index.val < 2 then { sequence := kSequenceInUseBit } else {}
  log := [.create ⟨1, by decide⟩ none, .create ⟨0, by decide⟩ none]

variable (t : τ) (s : Shared τ ν δ) (th : Thread ν δ)

/-- The next slot that `Clean` looks at, in this round or in one more. -/
def cleanOn (frame : Frame) : Shared τ ν δ × Thread ν δ :=
  if h : frame.index.val + 1 < kBionicPthreadKeyCount then
    (s, { th with place := .cleanLoad { frame with index := ⟨frame.index.val + 1, h⟩ } })
  else if frame.calledDestructors = 0 then (s, { th with place := .returned .ok })
  else if frame.round + 1 < kBionicDestructorIterations then
    ({ s with log := .round t :: s.log },
      { th with place := .cleanLoad ⟨frame.round + 1, first, 0⟩ })
  else (s, { th with place := .returned .ok })

def call : Call ν δ → Shared τ ν δ × Thread ν δ
  | .create keyGiven destructor =>
    (s, { th with
      place := if keyGiven then .createLock destructor else .returned .EINVAL })
  | .delete key =>
    (s, { th with
      place := match decodeKey key with
        | none => .returned .EINVAL
        | some index => .deleteLock index })
  | .get key =>
    (s, { th with
      place := match decodeKey key with
        | none => .returned (.value none)
        | some index => .getLoad index })
  | .set key value =>
    (s, { th with
      place := match decodeKey key with
        | none => .returned .EINVAL
        | some index => .setLoad index value })
  | .clean =>
    ({ s with log := .round t :: .clean t :: s.log }, { th with place := .cleanLoad ⟨0, first, 0⟩ })

/-- What the next access of a thread does. -/
def access : Option (Shared τ ν δ × Thread ν δ) :=
  let go (place : Place ν δ) : Option (Shared τ ν δ × Thread ν δ) := some (s, { th with place })
  let lock (place : Place ν δ) : Option (Shared τ ν δ × Thread ν δ) :=
    if s.mutex = none then some ({ s with mutex := some t }, { th with place }) else none
  match th.place with
  | .returned _ => none
  | .createLock destructor => lock (.createLoad destructor first)
  | .createLoad destructor index =>
    let sequence := (s.slots index).sequence
    go <| if !isInUse sequence then .createStoreDestructor destructor index sequence
      else if h : index.val + 1 < kBionicPthreadKeyCount then
        .createLoad destructor ⟨index.val + 1, h⟩
      else .unlock .EAGAIN
  | .createStoreDestructor destructor index sequence =>
    some ({ s with slots := Function.update s.slots index { s.slots index with destructor } },
      { th with place := .createStoreSequence destructor index sequence })
  | .createStoreSequence destructor index sequence =>
    some ({ s with
        slots := Function.update s.slots index { s.slots index with sequence := sequence + 1 }
        log := .create index destructor :: s.log },
      { th with place := .unlock (.key (encodeKey index)) })
  | .deleteLock index => lock (.deleteLoad index)
  | .deleteLoad index =>
    let sequence := (s.slots index).sequence
    go (if !isInUse sequence then .unlock .EINVAL else .deleteStoreSequence index sequence)
  | .deleteStoreSequence index sequence =>
    some ({ s with
        slots := Function.update s.slots index { s.slots index with sequence := sequence + 1 }
        log := .delete index :: s.log },
      { th with place := .deleteStoreDestructor index })
  | .deleteStoreDestructor index =>
    some ({ s with slots :=
      Function.update s.slots index { s.slots index with destructor := none } },
      { th with place := .unlock .ok })
  | .unlock outcome => some ({ s with mutex := none }, { th with place := .returned outcome })
  | .getLoad index =>
    let sequence := (s.slots index).sequence
    let own := th.values index
    if isInUse sequence && own.sequence == sequence then
      some ({ s with log := .get t index own.value :: s.log },
        { th with place := .returned (.value own.value) })
    else
      some ({ s with log := .get t index none :: s.log },
        { th with
          place := .returned (.value none)
          values := Function.update th.values index { own with value := none } })
  | .setLoad index value =>
    let sequence := (s.slots index).sequence
    if !isInUse sequence then go (.returned .EINVAL)
    else
      some ({ s with log := .set t index value :: s.log },
        { th with
          place := .returned .ok
          values := Function.update th.values index ⟨sequence, value⟩ })
  | .cleanLoad frame =>
    let sequence := (s.slots frame.index).sequence
    let own := th.values frame.index
    if !isInUse sequence || own.sequence != sequence || own.value.isNone then
      some (cleanOn t s th frame)
    else go (.cleanDestructor frame sequence)
  | .cleanDestructor frame sequence =>
    go (.cleanConfirm frame sequence (s.slots frame.index).destructor)
  | .cleanConfirm frame sequence destructor =>
    match destructor with
    | none => some (cleanOn t s th frame)
    | some destructor =>
      if sequence ≠ (s.slots frame.index).sequence then some (cleanOn t s th frame)
      else
        let own := th.values frame.index
        some ({ s with log := .destroy t frame.index own.value destructor :: s.log },
          { place := .returned .ok
            values := Function.update th.values frame.index { own with value := none }
            destroying := some frame })

def act : Act ν δ → Option (Shared τ ν δ × Thread ν δ)
  | .call c =>
    match th.place, c, th.destroying with
    | .returned _, .clean, some _ => none
    | .returned _, c, _ => some (call t s th c)
    | _, _, _ => none
  | .access => access t s th
  | .destroyed =>
    match th.place, th.destroying with
    | .returned _, some frame =>
      some (cleanOn t s { th with destroying := none }
        { frame with calledDestructors := frame.calledDestructors + 1 })
    | _, _ => none

abbrev State (τ ν δ : Type*) := System τ (Shared τ ν δ) (Thread ν δ)

/-- Threads `τ` that use the keys with values `ν` and destructors `δ`. -/
def system (τ ν δ : Type*) [DecidableEq τ] : LTS (State τ ν δ) (τ × Act ν δ) :=
  interleaving initial {} act

end Nightcap.Compat.PthreadKey
