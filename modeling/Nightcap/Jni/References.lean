import Mathlib.Algebra.BigOperators.Group.Multiset.Basic
import Nightcap.Lib.Holdings
import Nightcap.Lib.Transition
import Nightcap.Lib.Utf8

/-! The JNI handle table: slots, reference counts, local frames, object fields and arrays. -/
namespace Nightcap.Jni.References

open Utf8 Holdings

/-- A `jobject`: an encoded slot number or the address of an array, 0 for null. -/
abbrev Handle := Nat

abbrev Thread := Nat

/-- A frame holds a handle as often as its count of it says. -/
abbrev LocalFrame := AList fun _ : Handle => UInt32

/-- A frame's references, one by one. -/
def LocalFrame.handles (frame : LocalFrame) : List Handle :=
  frame.entries.flatMap fun entry => List.replicate entry.2.toNat entry.1

abbrev Fields := AList fun _ : Bytes => Handle

def kJniSegmentCapacity : Nat := 100000

def kJniHandleShift : Nat := 16

def jniHandleFromIndex (index : Nat) : Handle := index <<< kJniHandleShift

def jniIndexFromHandle (obj : Handle) : Nat := (obj >>> kJniHandleShift) % 2 ^ 32

def isSegmentHandle (obj : Handle) : Bool :=
  obj ≠ 0 && obj &&& 0xffff = 0 && obj >>> kJniHandleShift < kJniSegmentCapacity

inductive SegmentType
  | kEmpty
  | kObject
  | kClass
deriving DecidableEq

/-- What a slot points to: the object stored under a handle, or a class. -/
inductive Pointer
  | object (key : Handle)
  | cls (c : Nat)
deriving DecidableEq

/-- What a call has still to do with the references it took out of the frames. -/
inductive Task
  | release (obj : Handle)
  | register (obj : Handle)
deriving DecidableEq

def Task.handle : Task → Handle
  | .release obj => obj
  | .register obj => obj

/-- The orders in which one call visits the unordered maps it empties. -/
structure MapOrder where
  fields : Handle → Fields → List Handle
  frames : List LocalFrame → List Handle
  fields_perm : ∀ obj object, (fields obj object).Perm (object.entries.map Sigma.snd)
  frames_perm : ∀ local_frames, (frames local_frames).Perm (local_frames.flatMap LocalFrame.handles)

def MapOrder.stored : MapOrder where
  fields _ object := object.entries.map Sigma.snd
  frames local_frames := local_frames.flatMap LocalFrame.handles
  fields_perm _ _ := .refl _
  frames_perm _ := .refl _

/-- The innermost frame comes first, and so does the last free slot. -/
structure JniState where
  my_segment : Nat → Option Pointer := fun _ => none
  segment_types : Nat → SegmentType := fun _ => .kEmpty
  free_slots : List Nat := []
  jni_ref_index : Nat := 1
  jni_ref_counts : Handle → Option UInt32 := fun _ => none
  object_storage : AList fun _ : Handle => Fields := ∅
  array_storage : AList fun _ : Handle => List Handle := ∅
  known_classes : List Handle := []
  class_handles : Nat → Option Handle := fun _ => none
  singleton_objects : Bytes → Option Handle := fun _ => none
  singleton_handles : List Handle := []
  static_object_fields : Fields := ∅
  local_frames : AList fun _ : Thread => List LocalFrame := ∅
  /-- What the calls in progress have left to do. -/
  pending : AList fun _ : Thread => List Task := ∅
  /-- The undeleted global references. -/
  globals : List Handle := []
  /-- The results of the calls that stored an object or a class, while it is there. -/
  results : List Handle := []

variable (s : JniState) (order : MapOrder) (t : Thread) (obj value : Handle)

namespace JniState

def frames : List LocalFrame := (s.local_frames.lookup t).getD []

def setFrames (frames : List LocalFrame) : JniState :=
  { s with local_frames := s.local_frames.insert t frames }

def tasks : List Task := (s.pending.lookup t).getD []

def setTasks (tasks : List Task) : JniState := { s with pending := s.pending.insert t tasks }

end JniState

def ensureLocalFrame (frames : List LocalFrame) : List LocalFrame :=
  if frames.isEmpty then [∅] else frames

/-- One more registration of a handle; the count wraps. -/
def LocalFrame.register (frame : LocalFrame) : LocalFrame :=
  frame.insert obj ((frame.lookup obj).getD 0 + 1)

def registerIn : List LocalFrame → List LocalFrame
  | [] => [LocalFrame.register obj ∅]
  | frame :: frames => frame.register obj :: frames

def registerLocalRef : JniState :=
  if obj = 0 then s else s.setFrames t (registerIn obj (s.frames t))

/-- The innermost frame with a count of the handle loses it once. -/
def unregisterIn : List LocalFrame → List LocalFrame
  | [] => []
  | frame :: frames =>
    match frame.lookup obj with
    | some count =>
      (if count - 1 = 0 then frame.erase obj else frame.insert obj (count - 1)) :: frames
    | none => frame :: unregisterIn frames

def unregisterLocalRef : JniState :=
  if obj = 0 then s else s.setFrames t (unregisterIn obj (s.frames t))

def retainJniReference : JniState :=
  if obj = 0 then s
  else
    { s with
      jni_ref_counts :=
        Function.update s.jni_ref_counts obj (some ((s.jni_ref_counts obj).elim 1 (· + 1))) }

/-- Frees the slot of a handle, if it has one. -/
def freeSegmentSlot : JniState :=
  let index := jniIndexFromHandle obj
  if 0 < index ∧ index < kJniSegmentCapacity then
    { s with
      segment_types := Function.update s.segment_types index .kEmpty
      my_segment := Function.update s.my_segment index none
      free_slots := index :: s.free_slots
      results := s.results.filter (jniIndexFromHandle · ≠ index) }
  else s

/-- A release up to the releases of what the dying object or array refers to, which come with it. -/
def releaseOne : JniState × List Handle :=
  if obj = 0 then (s, [])
  else
    match s.jni_ref_counts obj with
    | none => (s, [])
    | some n =>
      if 1 < n then
        ({ s with jni_ref_counts := Function.update s.jni_ref_counts obj (some (n - 1)) }, [])
      else
        let s := { s with jni_ref_counts := Function.update s.jni_ref_counts obj none }
        match s.array_storage.lookup obj with
        | some elements => ({ s with array_storage := s.array_storage.erase obj }, elements)
        | none =>
          if obj ∈ s.known_classes then (s, [])
          else if obj ∈ s.singleton_handles then (s, [])
          else
            let s := freeSegmentSlot s obj
            match s.object_storage.lookup obj with
            | some object =>
              ({ s with object_storage := s.object_storage.erase obj }, order.fields obj object)
            | none => (s, [])

/-- The releases of a list, each with all it leads to before the next. -/
def releases : Nat → JniState → List Handle → JniState
  | 0, s, _ => s
  | _, s, [] => s
  | fuel + 1, s, obj :: rest =>
    releases fuel (releaseOne s order obj).1 ((releaseOne s order obj).2 ++ rest)

def fieldValues (object : Fields) : Multiset Handle := (object.entries.map Sigma.snd : List Handle)

/-- What the stored objects and arrays refer to. -/
def stored : Multiset Handle :=
  held fieldValues s.object_storage + held Multiset.ofList s.array_storage

def releaseAll (objs : List Handle) : JniState :=
  releases order ((stored s).card + objs.length) s objs

def releaseJniReference : JniState := releaseAll s order [obj]

/-- A slot and the state that has it filled, or nothing when the table is full. -/
def allocateSegmentSlot (point : Nat → Pointer) (type : SegmentType) : Option (Nat × JniState) :=
  let fill (s : JniState) (index : Nat) : JniState :=
    { s with
      my_segment := Function.update s.my_segment index (some (point index))
      segment_types := Function.update s.segment_types index type
      results := jniHandleFromIndex index :: s.results }
  match s.free_slots with
  | index :: free_slots => some (index, fill { s with free_slots } index)
  | [] =>
    if 0 < s.jni_ref_index ∧ s.jni_ref_index < kJniSegmentCapacity then
      some (s.jni_ref_index, fill { s with jni_ref_index := s.jni_ref_index + 1 } s.jni_ref_index)
    else none

def storeClass (cls : Nat) : JniState × Handle :=
  match s.class_handles cls with
  | some cached => (s, cached)
  | none =>
    match allocateSegmentSlot s (fun _ => .cls cls) .kClass with
    | none => (s, 0)
    | some (index, s) =>
      let handle := jniHandleFromIndex index
      ({ s with
         known_classes := handle :: s.known_classes
         class_handles := Function.update s.class_handles cls (some handle) }, handle)

/-- Stores a new object, which has no fields yet; an object already there dies first. -/
def storeObject : JniState × Handle :=
  match allocateSegmentSlot s (.object <| jniHandleFromIndex ·) .kObject with
  | none => (s, 0)
  | some (index, s) =>
    let handle := jniHandleFromIndex index
    let previous := (s.object_storage.lookup handle).elim [] (order.fields handle)
    let s := releaseAll { s with object_storage := s.object_storage.insert handle ∅ } order previous
    let s := { s with jni_ref_counts := Function.update s.jni_ref_counts handle (some 1) }
    (registerLocalRef s t handle, handle)

def singletonObject (class_name : Bytes) : JniState × Handle :=
  match s.singleton_objects class_name with
  | some object => (s, object)
  | none =>
    let (s, object) := storeObject s order t
    ({ s with
       singleton_objects := Function.update s.singleton_objects class_name (some object)
       singleton_handles := object :: s.singleton_handles }, object)

def markSingletonHandle : JniState := { s with singleton_handles := obj :: s.singleton_handles }

/-- Keeps a new array under its address. -/
def storeArray (address : Handle) (objects : List Handle) : JniState :=
  let s := { s with
    array_storage := s.array_storage.insert address objects
    jni_ref_counts := Function.update s.jni_ref_counts address (some 1) }
  registerLocalRef s t address

def makeByteArray (address : Handle) : JniState := storeArray s t address []

def makeFloatArray (address : Handle) : JniState := storeArray s t address []

def retainTimes : Nat → JniState → JniState
  | 0, s => s
  | n + 1, s => retainTimes n (retainJniReference s obj)

def makeObjectArray (address : Handle) (len : Int) (init : Handle) : JniState :=
  storeArray (retainTimes init len.toNat s) t address (List.replicate len.toNat init)

def newLocalJniReference : JniState := registerLocalRef (retainJniReference s obj) t obj

def deleteLocalJniReference : JniState := releaseJniReference (unregisterLocalRef s t obj) order obj

def newGlobalRef : JniState :=
  let s := retainJniReference s obj
  { s with globals := if obj = 0 then s.globals else obj :: s.globals }

def deleteGlobalRef : JniState :=
  releaseJniReference { s with globals := s.globals.erase obj } order obj

def pushLocalJniFrame : JniState := s.setFrames t (∅ :: ensureLocalFrame (s.frames t))

def popFrame : List LocalFrame → LocalFrame × List LocalFrame
  | [] => (∅, [])
  | [frame] => (frame, [∅])
  | frame :: frames => (frame, frames)

/-- The frame is off at once; its references are released one by one, and then the result is
registered. -/
def popLocalJniFrame (result : Handle) : JniState :=
  let s := retainJniReference s result
  let (frame, frames) := popFrame (ensureLocalFrame (s.frames t))
  (s.setFrames t frames).setTasks t ((order.frames [frame]).map .release ++ [.register result])

/-- The outermost frame is released first. -/
def releaseThreadLocalRefs : JniState :=
  (s.setFrames t []).setTasks t ((order.frames (s.frames t).reverse).map .release)

def pseudoObjectFromRef : Option Handle :=
  let index := jniIndexFromHandle obj
  if obj = 0 then none
  else if 0 < index ∧ index < kJniSegmentCapacity ∧ s.segment_types index = .kObject then
    match s.my_segment index with
    | some (.object key) => some key
    | _ => none
  else none

/-- A field and its object, when both are there. -/
def fieldOf (field_name : Option Bytes) : Option (Handle × Fields × Bytes) := do
  let key ← pseudoObjectFromRef s obj
  let object ← s.object_storage.lookup key
  let name ← field_name
  some (key, object, name)

def setObjectFieldRaw (field_name : Option Bytes) (value : Handle) : JniState :=
  match fieldOf s obj field_name with
  | none => s
  | some (key, object, name) =>
    let s := retainJniReference s value
    let prev := (object.lookup name).getD 0
    releaseJniReference
      { s with object_storage := s.object_storage.insert key (object.insert name value) } order prev

def objectFieldValue (field_name : Option Bytes) : JniState × Handle :=
  match fieldOf s obj field_name with
  | none => (s, 0)
  | some (_, object, name) =>
    match object.lookup name with
    | none => (s, 0)
    | some value => (newLocalJniReference s t value, value)

def setStaticObjectFieldRaw (name : Option Bytes) (value : Handle) : JniState :=
  match name with
  | none => s
  | some name =>
    let s := retainJniReference s value
    let previous := (s.static_object_fields.lookup name).getD 0
    releaseJniReference { s with static_object_fields :=
      s.static_object_fields.insert name value } order previous

def staticObjectFieldValue (name : Option Bytes) : JniState × Handle :=
  match name.bind s.static_object_fields.lookup with
  | none => (s, 0)
  | some value => (newLocalJniReference s t value, value)

/-- One step of a thread: a call, or what a call of it still has to do. -/
inductive Op
  | storeObject (t : Thread)
  | storeClass (t : Thread) (cls : Nat)
  | singletonObject (t : Thread) (class_name : Bytes)
  | markSingletonHandle (t : Thread) (obj : Handle)
  | makeByteArray (t : Thread) (address : Handle)
  | makeFloatArray (t : Thread) (address : Handle)
  | makeObjectArray (t : Thread) (address : Handle) (len : Int) (init : Handle)
  | newLocalRef (t : Thread) (obj : Handle)
  | deleteLocalRef (t : Thread) (obj : Handle)
  | newGlobalRef (t : Thread) (obj : Handle)
  | deleteGlobalRef (t : Thread) (obj : Handle)
  | pushLocalJniFrame (t : Thread)
  | popLocalJniFrame (t : Thread) (result : Handle)
  | releaseThreadLocalRefs (t : Thread)
  | setObjectFieldRaw (t : Thread) (obj : Handle) (field_name : Option Bytes) (value : Handle)
  | objectFieldValue (t : Thread) (obj : Handle) (field_name : Option Bytes)
  | setStaticObjectFieldRaw (t : Thread) (name : Option Bytes) (value : Handle)
  | staticObjectFieldValue (t : Thread) (name : Option Bytes)
  | resume (t : Thread)

def Op.thread : Op → Thread
  | .storeObject t | .storeClass t _ | .singletonObject t _
  | .markSingletonHandle t _ | .makeByteArray t _
  | .makeFloatArray t _ | .makeObjectArray t _ _ _ | .newLocalRef t _
  | .deleteLocalRef t _ | .newGlobalRef t _
  | .deleteGlobalRef t _ | .pushLocalJniFrame t | .popLocalJniFrame t _ | .releaseThreadLocalRefs t
  | .setObjectFieldRaw t _ _ _ | .objectFieldValue t _ _ | .setStaticObjectFieldRaw t _ _
  | .staticObjectFieldValue t _ | .resume t => t

/-- The address of a new array, which is no live array's. -/
def Op.address : Op → Option Handle
  | .makeByteArray _ address | .makeFloatArray _ address | .makeObjectArray _ address _ _ =>
    some address
  | _ => none

/-- What a call does, up to the references it releases one at a time. -/
def call (s : JniState) (order : MapOrder) : Op → JniState
  | .storeObject t => (storeObject s order t).1
  | .storeClass _ cls => (storeClass s cls).1
  | .singletonObject t class_name => (singletonObject s order t class_name).1
  | .markSingletonHandle _ obj => markSingletonHandle s obj
  | .makeByteArray t address => makeByteArray s t address
  | .makeFloatArray t address => makeFloatArray s t address
  | .makeObjectArray t address len init => makeObjectArray s t address len init
  | .newLocalRef t obj => newLocalJniReference s t obj
  | .deleteLocalRef t obj => deleteLocalJniReference s order t obj
  | .newGlobalRef _ obj => newGlobalRef s obj
  | .deleteGlobalRef _ obj => deleteGlobalRef s order obj
  | .pushLocalJniFrame t => pushLocalJniFrame s t
  | .popLocalJniFrame t result => popLocalJniFrame s order t result
  | .releaseThreadLocalRefs t => releaseThreadLocalRefs s order t
  | .setObjectFieldRaw _ obj field_name value => setObjectFieldRaw s order obj field_name value
  | .objectFieldValue t obj field_name => (objectFieldValue s t obj field_name).1
  | .setStaticObjectFieldRaw _ name value => setStaticObjectFieldRaw s order name value
  | .staticObjectFieldValue t name => (staticObjectFieldValue s t name).1
  | .resume _ => s

def perform (s : JniState) (order : MapOrder) (t : Thread) : Task → JniState
  | .release obj => releaseJniReference s order obj
  | .register obj => registerLocalRef s t obj

/-- Every critical section is one step; a thread starts no call before its last one is done. -/
def step (s : JniState) (order : MapOrder) (op : Op) : Option JniState :=
  match op, s.tasks op.thread with
  | .resume t, task :: tasks => some (perform (s.setTasks t tasks) order t task)
  | .resume _, [] => none
  | _, _ :: _ => none
  | op, [] =>
    if ∀ address ∈ op.address, address ≠ 0 ∧ address ∉ s.array_storage then
      some (call s order op)
    else none

def references : Transition.LTS JniState (MapOrder × Op) :=
  .ofFun {} fun s label => step s label.1 label.2

end Nightcap.Jni.References
