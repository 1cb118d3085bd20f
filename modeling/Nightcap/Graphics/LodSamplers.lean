import Mathlib.Data.List.AList
import Nightcap.Lib.CountingFilter
import Nightcap.Lib.Threads

/-! Samplers whose clamps are shifted past the top levels of upscaled images, and the fast paths
that find them. -/
namespace Nightcap.Graphics.Lod

open Transition Threads CountingFilter

abbrev Sampler := UInt64

/-- A `VkImageView`; 0 is `VK_NULL_HANDLE`. -/
abbrev View := UInt64

structure SamplerInfo (Lod : Type) where
  pNext : Bool := false
  minLod : Lod
  maxLod : Lod
deriving DecidableEq

/-- A clamped sampler and its copies, one for each number of top levels asked for. -/
structure ClampedSampler (Lod : Type) where
  info : SamplerInfo Lod
  shifted : AList (fun _ : Nat => Sampler) := ∅
  /-- Not in the code: the numbers of top levels for which the host made no copy. -/
  refused : List Nat := []

/-- Who has a handle of the host: the application, a call that creates or destroys it, or a sampler
it is a copy of. -/
inductive Role (τ : Type)
  | application
  | call (t : τ)
  | copy (sampler : Sampler) (top : Nat)
deriving DecidableEq

structure Shared (τ Lod : Type) where
  clamped_samplers : AList (fun _ : Sampler => ClampedSampler Lod) := ∅
  top_views : AList (fun _ : View => Nat) := ∅
  clamped_filter : Nat → Nat := fun _ => 0
  g_lod_generation : Nat := 1
  pairs_possible : Bool := false
  /-- Who holds `lod_mutex` alone. -/
  lod_mutex : Option τ := none
  /-- From here on not in the code: the live handles of the host, as they were made. -/
  host_samplers : Sampler → Option (SamplerInfo Lod × Role τ) := fun _ => none
  host_views : View → Option (Nat × Role τ) := fun _ => none

/-- What is left of a call when it has let go of `lod_mutex`. -/
inductive After
  | sampler (sampler : Sampler)
  | view (view : View)
  | free (sampler : Sampler) (copies : List Sampler)
  | freeView (view : View)
deriving DecidableEq

/-- The combined image samplers of an update: those done with, the one in hand, and those to
come. -/
structure Writes where
  done : List (Sampler × View × Sampler)
  sampler : Sampler
  view : View
  todo : List (Sampler × View)
deriving DecidableEq

inductive Place (Lod : Type)
  | idle
  | creating (sampler : Sampler) (info : SamplerInfo Lod)
  | creatingView (view : View) (top : Nat)
  | destroying (sampler : Sampler)
  | destroyingView (view : View)
  | bump (after : After)
  | store (after : After)
  | free (sampler : Sampler) (copies : List Sampler)
  | freeView (view : View)
  | asking (pairs : List (Sampler × View))
  | filtering (writes : Writes)
  | probing (writes : Writes)
  | looking (writes : Writes) (generation : Nat)
  /-- Between the two phases of `LookupShiftedSampler`. -/
  | making (writes : Writes) (generation top : Nat)
  | caching (writes : Writes) (generation : Nat) (result : Sampler)
  | writing (results : List (Sampler × View × Sampler))
deriving DecidableEq

structure Pair where
  generation : Nat
  sampler : Sampler
  view : View
  result : Sampler
deriving DecidableEq

structure Local (Lod : Type) where
  place : Place Lod := .idle
  cache : Nat → Option Pair := fun _ => none

def clampedSlot (sampler : Sampler) : Nat :=
  let key := sampler ^^^ (sampler >>> 29)
  ((key * 0x9E3779B97F4A7C15) >>> 52).toNat

def cacheSlot (sampler : Sampler) (view : View) : Nat :=
  (((view >>> 4) ^^^ (sampler >>> 4)) &&& 15).toNat

section Info

variable {Lod : Type} [Zero Lod] [Add Lod] [NatCast Lod] [LE Lod] [LT Lod]
  [DecidableLE Lod] [DecidableLT Lod]

def lodClampNone : Lod := ((1000 : Nat) : Lod)

/-- Whether a sampler of an emulated device that upscales has clamps that count levels. -/
def SamplerInfo.clamps (upscales : Bool) (info : SamplerInfo Lod) : Bool :=
  upscales && !(decide (info.minLod ≤ 0) && decide (lodClampNone ≤ info.maxLod)) && !info.pNext

/-- A minLod of 0 stays 0, so that magnified draws still reach the top levels. -/
def SamplerInfo.shift (info : SamplerInfo Lod) (top : Nat) : SamplerInfo Lod :=
  { info with
    minLod := if 0 < info.minLod then info.minLod + top else info.minLod
    maxLod := if info.maxLod < lodClampNone then info.maxLod + top else info.maxLod }

end Info

inductive Act (Lod : Type)
  | createSampler (info : SamplerInfo Lod) (sampler : Sampler)
  | createImageView (view : View) (baseMipLevel top : Nat)
  | destroySampler (sampler : Sampler)
  | destroyImageView (view : View)
  | update (pairs : List (Sampler × View))
  /-- Goes on; `noting` is what `NotingBinds` says and `created` the sampler the host makes, if it
  is asked for one. -/
  | step (noting : Bool) (created : Option Sampler)

variable {τ Lod : Type} [DecidableEq τ] [Zero Lod] [Add Lod] [NatCast Lod] [LE Lod]
  [LT Lod] [DecidableLE Lod]
  [DecidableLT Lod]

namespace Shared

variable (s : Shared τ Lod)

def setSampler (sampler : Sampler) (value : Option (SamplerInfo Lod × Role τ)) : Shared τ Lod :=
  { s with host_samplers := Function.update s.host_samplers sampler value }

def setView (view : View) (value : Option (Nat × Role τ)) : Shared τ Lod :=
  { s with host_views := Function.update s.host_views view value }

def passSampler (sampler : Sampler) (role : Role τ) : Shared τ Lod :=
  s.setSampler sampler ((s.host_samplers sampler).map fun made => (made.1, role))

def passView (view : View) (role : Role τ) : Shared τ Lod :=
  s.setView view ((s.host_views view).map fun made => (made.1, role))

/-- A clamped sampler is remembered; a slot counts those that are new. -/
def clamp (sampler : Sampler) (info : SamplerInfo Lod) : Shared τ Lod :=
  match s.clamped_samplers.lookup sampler with
  | some clamped =>
    { s with clamped_samplers := s.clamped_samplers.insert sampler { clamped with info } }
  | none =>
    { s with
      clamped_samplers := s.clamped_samplers.insert sampler { info }
      clamped_filter := add 65536 s.clamped_filter (clampedSlot sampler) }

def unclamp (sampler : Sampler) : Shared τ Lod :=
  { s with
    clamped_samplers := s.clamped_samplers.erase sampler
    clamped_filter := remove 65536 s.clamped_filter (clampedSlot sampler) }

/-- The shifted copy of a clamped sampler that the host made, or that it did not. -/
def emplace (sampler : Sampler) (clamped : ClampedSampler Lod) (top : Nat) :
    Option Sampler → Shared τ Lod
  | some copy =>
    { s.setSampler copy (some (clamped.info.shift top, .copy sampler top)) with
      clamped_samplers := s.clamped_samplers.insert sampler
        { clamped with shifted := clamped.shifted.insert top copy } }
  | none =>
    { s with
      clamped_samplers :=
        s.clamped_samplers.insert sampler { clamped with refused := top :: clamped.refused } }

def stored : Shared τ Lod :=
  { s with
    pairs_possible := decide (s.clamped_samplers.entries ≠ [] ∧ s.top_views.entries ≠ [])
    lod_mutex := none }

def FreshSampler (sampler : Sampler) : Prop := sampler ≠ 0 ∧ s.host_samplers sampler = none

def FreshView (view : View) : Prop := view ≠ 0 ∧ s.host_views view = none

end Shared

def Place.next (done : List (Sampler × View × Sampler)) : List (Sampler × View) → Place Lod
  | [] => .writing done
  | (sampler, view) :: todo => .filtering { done, sampler, view, todo }

def Writes.answer (writes : Writes) (result : Sampler) : Place Lod :=
  .next (writes.done ++ [(writes.sampler, writes.view, result)]) writes.todo

variable (upscales : Bool)

def begin (t : τ) (s : Shared τ Lod) : Act Lod → Option (Shared τ Lod × Place Lod)
  | .createSampler info sampler =>
    if info.clamps upscales then
      some (s.setSampler sampler (some (info, .call t)), .creating sampler info)
    else some (s.setSampler sampler (some (info, .application)), .idle)
  | .createImageView view baseMipLevel top =>
    if 0 < top ∧ baseMipLevel = 0 then
      some (s.setView view (some (top, .call t)), .creatingView view top)
    else some (s.setView view (some (0, .application)), .idle)
  | .destroySampler sampler => some (s.passSampler sampler (.call t), .destroying sampler)
  | .destroyImageView view => some (s.passView view (.call t), .destroyingView view)
  | .update pairs => some (s, .asking pairs)
  | .step _ _ => none

def finish (s : Shared τ Lod) : After → Shared τ Lod × Place Lod
  | .sampler sampler => (s.stored.passSampler sampler .application, .idle)
  | .view view => (s.stored.passView view .application, .idle)
  | .free sampler copies => (s.stored, .free sampler copies)
  | .freeView view => (s.stored, .freeView view)

/-- The first phase of `LookupShiftedSampler`, under a shared `lod_mutex`. -/
def look (s : Shared τ Lod) (writes : Writes) (generation : Nat) : Place Lod :=
  match s.clamped_samplers.lookup writes.sampler with
  | none => .caching writes generation writes.sampler
  | some clamped =>
    match s.top_views.lookup writes.view with
    | none => .caching writes generation writes.sampler
    | some top =>
      match clamped.shifted.lookup top with
      | some copy => .caching writes generation copy
      | none => .making writes generation top

def make (s : Shared τ Lod) (writes : Writes) (generation top : Nat) (created : Option Sampler) :
    Shared τ Lod × Place Lod :=
  match s.clamped_samplers.lookup writes.sampler with
  | none => (s, .caching writes generation writes.sampler)
  | some clamped =>
    match clamped.shifted.lookup top with
    | some copy => (s, .caching writes generation copy)
    | none =>
      (s.emplace writes.sampler clamped top created,
        .caching writes generation (created.getD writes.sampler))

/-- The rest of a call. A section waits for `lod_mutex`. -/
def proceed (t : τ) (s : Shared τ Lod) (cache : Nat → Option Pair) (noting : Bool)
    (created : Option Sampler) :
    Place Lod → Option (Shared τ Lod × Place Lod)
  | .idle => none
  | .creating sampler info =>
    if s.lod_mutex.isSome then none
    else some ({ s.clamp sampler info with lod_mutex := some t }, .bump (.sampler sampler))
  | .creatingView view top =>
    if s.lod_mutex.isSome then none
    else some ({ s with top_views := s.top_views.insert view top, lod_mutex := some t },
      .bump (.view view))
  | .destroying sampler =>
    if s.lod_mutex.isSome then none
    else
      match s.clamped_samplers.lookup sampler with
      | some clamped =>
        some ({ s.unclamp sampler with lod_mutex := some t },
          .bump (.free sampler (clamped.shifted.entries.map Sigma.snd)))
      | none => some (s, .free sampler [])
  | .destroyingView view =>
    if s.lod_mutex.isSome then none
    else
      match s.top_views.lookup view with
      | some _ =>
        some ({ s with top_views := s.top_views.erase view, lod_mutex := some t },
          .bump (.freeView view))
      | none => some (s, .freeView view)
  | .bump after => some ({ s with g_lod_generation := s.g_lod_generation + 1 }, .store after)
  | .store after => some (finish s after)
  | .free sampler (copy :: copies) => some (s.setSampler copy none, .free sampler copies)
  | .free sampler [] => some (s.setSampler sampler none, .idle)
  | .freeView view => some (s.setView view none, .idle)
  | .asking pairs =>
    if !s.pairs_possible && !noting then
      some (s, .writing (pairs.map fun pair => (pair.1, pair.2, pair.1)))
    else some (s, .next [] pairs)
  | .filtering writes =>
    if s.clamped_filter (clampedSlot writes.sampler) = 0 then some (s, writes.answer writes.sampler)
    else some (s, .probing writes)
  | .probing writes =>
    match cache (cacheSlot writes.sampler writes.view) with
    | some pair =>
      if pair.generation = s.g_lod_generation ∧ pair.sampler = writes.sampler ∧
        pair.view = writes.view then
        some (s, writes.answer pair.result)
      else some (s, .looking writes s.g_lod_generation)
    | none => some (s, .looking writes s.g_lod_generation)
  | .looking writes generation =>
    if s.lod_mutex.isSome then none else some (s, look s writes generation)
  | .making writes generation top =>
    if s.lod_mutex.isSome then none else some (make s writes generation top created)
  | .caching writes _ result => some (s, writes.answer result)
  | .writing _ => some (s, .idle)

/-- The cache once the answer of a lookup is stored. -/
def remember (cache : Nat → Option Pair) : Place Lod → Nat → Option Pair
  | .caching writes generation result =>
    Function.update cache (cacheSlot writes.sampler writes.view)
      (some ⟨generation, writes.sampler, writes.view, result⟩)
  | _ => cache

def act (t : τ) (s : Shared τ Lod) (own : Local Lod) : Act Lod → Option (Shared τ Lod × Local Lod)
  | .step noting created =>
    (proceed t s own.cache noting created own.place).map fun next =>
      (next.1, { place := next.2, cache := remember own.cache own.place })
  | call =>
    match own.place with
    | .idle => (begin upscales t s call).map fun next => (next.1, { own with place := next.2 })
    | _ => none

abbrev State (τ Lod : Type) := System τ (Shared τ Lod) (Local Lod)

def system : LTS (State τ Lod) (τ × Act Lod) := interleaving {} {} (act upscales)

end Nightcap.Graphics.Lod
