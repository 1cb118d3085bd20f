import Mathlib.Data.List.AList
import Nightcap.Graphics.EtcCopies
import Nightcap.Lib.CountingFilter
import Nightcap.Lib.Threads

/-! The top levels of upscaled images, as barriers and copies find them without the lock where they
can. -/
namespace Nightcap.Graphics.TopLevels

open Transition Threads CountingFilter Nightcap.Graphics.Copies

abbrev Image := UInt64

/-- An image memory barrier: its image, and the levels of its subresource range. -/
structure Barrier where
  image : Image
  levels : LevelRange
deriving DecidableEq

/-- Who has an image of the host: the application, or a call that creates or destroys it. -/
inductive Role (τ : Type)
  | application
  | call (t : τ)
deriving DecidableEq

structure Shared (τ : Type) where
  top_levels : AList (fun _ : Image => UInt32) := ∅
  top_filter : Nat → Nat := fun _ => 0
  top_images : Nat := 0
  /-- Who holds `top_mutex` alone. -/
  top_mutex : Option τ := none
  /-- Not in the code: the live images of the host, with the number of their top levels. -/
  host_images : Image → Option (UInt32 × Role τ) := fun _ => none

/-- The barriers of a command, one list for each of its dependencies: those done with, the list in
hand and those to come. -/
structure Groups where
  done : List (List Barrier × List Barrier)
  group : List Barrier
  todo : List (List Barrier)
deriving DecidableEq

inductive Place
  | idle
  | creating (image : Image) (top : UInt32)
  | counting (image : Image)
  | created (image : Image)
  | destroying (images : List Image)
  | entering (images : List Image)
  | erasing (todo images : List Image)
  | uncounting (image : Image) (todo images : List Image)
  | freeing (images : List Image)
  | asking (image : Image)
  | finding (image : Image)
  | answered (image : Image) (top : UInt32)
  | waiting (groups : List (List Barrier))
  | remapping (groups : Groups)
  /-- `rest` of the group in hand has not been asked the filter about. -/
  | probing (groups : Groups) (rest : List Barrier)
  | patching (groups : Groups)
  | recorded (results : List (List Barrier × List Barrier))
deriving DecidableEq

def topSlot (image : Image) : Nat :=
  let key := image ^^^ (image >>> 29)
  ((key * 0x9E3779B97F4A7C15) >>> 48).toNat

inductive Act
  /-- `CreateImage`, once the host has made the image and planned its top levels. -/
  | createImage (image : Image) (top : UInt32)
  /-- `DestroyImage`, or `DestroyDevice` with all of its upscaled images. -/
  | destroyImages (images : List Image)
  | topLevelsOf (image : Image)
  /-- `CmdPipelineBarrier` and its like. -/
  | barriers (barriers : List Barrier)
  | waitEvents2 (dependencies : List (List Barrier))
  | step

variable {τ : Type} [DecidableEq τ]

namespace Shared

variable (s : Shared τ)

def setImage (image : Image) (value : Option (UInt32 × Role τ)) : Shared τ :=
  { s with host_images := Function.update s.host_images image value }

def pass (image : Image) (role : Role τ) : Shared τ :=
  s.setImage image ((s.host_images image).map fun made => (made.1, role))

def stored : Shared τ := { s with top_images := s.top_levels.keys.length, top_mutex := none }

def Fresh (image : Image) : Prop := s.host_images image = none

/-- `HostLevels` of a barrier on an image that is entered. -/
def patch (barrier : Barrier) : Barrier :=
  match s.top_levels.lookup barrier.image with
  | some top => { barrier with levels := hostLevels top barrier.levels }
  | none => barrier

end Shared

def Place.next (done : List (List Barrier × List Barrier)) : List (List Barrier) → Place
  | [] => .recorded done
  | group :: todo => .remapping { done, group, todo }

def Groups.answer (groups : Groups) (result : List Barrier) : Place :=
  .next (groups.done ++ [(groups.group, result)]) groups.todo

def begin (t : τ) (s : Shared τ) : Act → Option (Shared τ × Place)
  | .createImage image top =>
    if 0 < top then some (s.setImage image (some (top, .call t)), .creating image top)
    else some (s.setImage image (some (0, .application)), .idle)
  | .destroyImages images =>
    some (images.foldl (fun s image => s.pass image (.call t)) s, .destroying images)
  | .topLevelsOf image => some (s, .asking image)
  | .barriers barriers => some (s, .next [] [barriers])
  | .waitEvents2 dependencies => some (s, .waiting dependencies)
  | .step => none

/-- The rest of a call. A section waits for `top_mutex`. -/
def proceed (t : τ) (s : Shared τ) : Place → Option (Shared τ × Place)
  | .idle => none
  | .creating image top =>
    if s.top_mutex.isSome then none
    else if s.top_levels.lookup image = none then
      some ({ s with top_levels := s.top_levels.insert image top, top_mutex := some t },
        .counting image)
    else some ({ s with top_levels := s.top_levels.insert image top, top_mutex := some t },
      .created image)
  | .counting image =>
    some ({ s with top_filter := add 65536 s.top_filter (topSlot image) }, .created image)
  | .created image => some (s.stored.pass image .application, .idle)
  | .destroying images =>
    if images = [] ∨ s.top_images = 0 then some (s, .freeing images) else some (s, .entering images)
  | .entering images =>
    if s.top_mutex.isSome then none
    else some ({ s with top_mutex := some t }, .erasing images images)
  | .erasing (image :: todo) images =>
    if image ∈ s.top_levels then
      some ({ s with top_levels := s.top_levels.erase image }, .uncounting image todo images)
    else some (s, .erasing todo images)
  | .erasing [] images => some (s.stored, .freeing images)
  | .uncounting image todo images =>
    some ({ s with top_filter := remove 65536 s.top_filter (topSlot image) }, .erasing todo images)
  | .freeing (image :: images) => some (s.setImage image none, .freeing images)
  | .freeing [] => some (s, .idle)
  | .asking image =>
    if s.top_filter (topSlot image) = 0 then some (s, .answered image 0)
    else some (s, .finding image)
  | .finding image =>
    if s.top_mutex.isSome then none
    else some (s, .answered image ((s.top_levels.lookup image).getD 0))
  | .answered _ _ => some (s, .idle)
  | .waiting groups =>
    if s.top_images = 0 then some (s, .recorded (groups.map fun group => (group, group)))
    else some (s, .next [] groups)
  | .remapping groups =>
    if groups.group = [] ∨ s.top_images = 0 then some (s, groups.answer groups.group)
    else some (s, .probing groups groups.group)
  | .probing groups (barrier :: rest) =>
    if s.top_filter (topSlot barrier.image) = 0 then some (s, .probing groups rest)
    else some (s, .patching groups)
  | .probing groups [] => some (s, groups.answer groups.group)
  | .patching groups =>
    if s.top_mutex.isSome then none else some (s, groups.answer (groups.group.map s.patch))
  | .recorded _ => some (s, .idle)

def act (t : τ) (s : Shared τ) (place : Place) : Act → Option (Shared τ × Place)
  | .step => proceed t s place
  | call =>
    match place with
    | .idle => begin t s call
    | _ => none

abbrev State (τ : Type) := System τ (Shared τ) Place

def system : LTS (State τ) (τ × Act) := interleaving {} .idle act

end Nightcap.Graphics.TopLevels
