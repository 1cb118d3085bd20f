import Nightcap.Graphics.TopLevels
import Nightcap.Lib.Mutex

/-! Every barrier and copy sees the top levels its image was made with, whichever path answered. -/
namespace Nightcap.Graphics.TopLevels

open Transition Threads CountingFilter Nightcap.Graphics.Copies

variable {τ : Type} {st st' : State τ} {s s' : Shared τ} {t u : τ} {place place' : Place}
  {image : Image} {images : List Image} {top : UInt32} {groups : Groups} {used : Image → Prop}

def Groups.uses (groups : Groups) : List Image :=
  (groups.done.flatMap Prod.fst ++ groups.group ++ groups.todo.flatten).map Barrier.image

/-- The images of the copy or the barriers in progress. -/
def Place.uses : Place → List Image
  | .asking image | .finding image | .answered image _ => [image]
  | .waiting groups => groups.flatten.map Barrier.image
  | .remapping groups | .probing groups _ | .patching groups => groups.uses
  | .recorded results => (results.flatMap Prod.fst).map Barrier.image
  | _ => []

/-- What the application has made and not begun to destroy. -/
def Usable (s : Shared τ) (image : Image) : Prop :=
  ∃ top, s.host_images image = some (top, .application)

/-- The host gives out new handles only, the application destroys nothing a command in progress uses
and uses only what it has, and there are fewer upscaled images than a word of the filter counts. -/
def Allowed (st : State τ) (a : τ × Act) : Prop :=
  match a.2 with
  | .createImage image _ => st.shared.Fresh image
  | .destroyImages images => images.Nodup ∧ ∀ image ∈ images, Usable st.shared image ∧
    ∀ u, image ∉ (st.own u).uses
  | .topLevelsOf image => Usable st.shared image
  | .barriers barriers => ∀ barrier ∈ barriers, Usable st.shared barrier.image
  | .waitEvents2 dependencies => ∀ barrier ∈ dependencies.flatten, Usable st.shared barrier.image
  | .step => st.shared.top_levels.keys.length + 1 < 65536

/-- What the host is to be given for a barrier: the levels it covers of the image that the host
has. -/
def Shared.remapped (s : Shared τ) (barrier : Barrier) : Barrier :=
  match s.host_images barrier.image with
  | some (top, _) =>
    if 0 < top then { barrier with levels := hostLevels top barrier.levels } else barrier
  | none => barrier

def Right (s : Shared τ) (results : List (List Barrier × List Barrier)) : Prop :=
  ∀ x ∈ results, x.2 = x.1.map s.remapped

/-- The images of a call that destroys them. -/
def Held (s : Shared τ) (t : τ) (images : List Image) : Prop :=
  images.Nodup ∧ ∀ image ∈ images, ∃ top, s.host_images image = some (top, .call t)

def Ready (s : Shared τ) (groups : Groups) : Prop :=
  Right s groups.done ∧ ∀ image ∈ groups.uses, Usable s image

def Entered (s : Shared τ) (t : τ) (image : Image) : Prop :=
  ∃ top, s.host_images image = some (top, .call t) ∧ s.top_levels.lookup image = some top

/-- What a thread knows where it is. -/
def Placed (s : Shared τ) (t : τ) : Place → Prop
  | .idle => True
  | .creating image top =>
    s.host_images image = some (top, .call t) ∧ 0 < top ∧ s.top_levels.lookup image = none
  | .counting image | .created image =>
    Entered s t image ∧ ∃ top, s.host_images image = some (top, .call t) ∧ 0 < top
  | .destroying images | .entering images => Held s t images
  | .erasing todo images | .uncounting _ todo images =>
    Held s t images ∧ (∀ image ∈ todo, image ∈ images) ∧
      ∀ image ∈ images, image ∈ todo ∨ s.top_levels.lookup image = none
  | .freeing images => Held s t images ∧ ∀ image ∈ images, s.top_levels.lookup image = none
  | .asking image | .finding image => Usable s image
  | .answered image top => s.host_images image = some (top, .application)
  | .waiting groups => ∀ image ∈ groups.flatten.map Barrier.image, Usable s image
  | .remapping groups | .patching groups => Ready s groups
  | .probing groups rest =>
    Ready s groups ∧ ∀ barrier ∈ groups.group, barrier ∈ rest ∨ s.remapped barrier = barrier
  | .recorded results =>
    Right s results ∧ ∀ image ∈ (results.flatMap Prod.fst).map Barrier.image, Usable s image

/-- Whether a thread is in the section. -/
def Place.inside : Place → Bool
  | .counting _ | .created _ | .erasing _ _ | .uncounting _ _ _ => true
  | _ => false

/-- The image that the thread in the section is adding. -/
def Place.adding : Place → Option Image
  | .counting image | .created image => some image
  | _ => none

/-- An entry whose slot has yet to be changed. -/
inductive Pending
  | added (image : Image)
  | erased (image : Image)

def Place.pending : Place → Option Pending
  | .counting image => some (.added image)
  | .uncounting image _ _ => some (.erased image)
  | _ => none

/-- Two places that are the same to the section. -/
def Place.Like (place place' : Place) : Prop :=
  place.inside = place'.inside ∧ place.pending = place'.pending ∧ place.adding = place'.adding

/-- The images the filter counts. -/
def counted (keys : List Image) : Option Pending → List Image
  | none => keys
  | some (.added image) => keys.erase image
  | some (.erased image) => image :: keys

/-- The map and the host agree. -/
structure Kept (s : Shared τ) : Prop where
  levels : ∀ image top, s.top_levels.lookup image = some top →
    0 < top ∧ ∃ role, s.host_images image = some (top, role)
  live : ∀ image top, s.host_images image = some (top, .application) → 0 < top →
    s.top_levels.lookup image = some top

structure Sound (st : State τ) : Prop where
  owned : Mutex.Owned st.shared.top_mutex st.own Place.inside
  kept : Kept st.shared
  placed : ∀ t, Placed st.shared t (st.own t)
  filter : Counts 65536 topSlot st.shared.top_filter
    (counted st.shared.top_levels.keys (Mutex.kept st.shared.top_mutex st.own Place.pending))
  /-- A session without upscaled images has none entered, but for one being added. -/
  zero : st.shared.top_images = 0 → ∀ image, st.shared.top_levels.lookup image ≠ none →
    Mutex.kept st.shared.top_mutex st.own Place.adding = some image

/-! ## What a step leaves to the other threads -/

/-- What a step of one thread leaves as the others know it; `used` are the images of their
commands. -/
structure Spares (t : τ) (used : Image → Prop) (s s' : Shared τ) : Prop where
  calls : ∀ u image top, u ≠ t → s.host_images image = some (top, .call u) →
    s'.host_images image = some (top, .call u) ∧
      s'.top_levels.lookup image = s.top_levels.lookup image
  used : ∀ image, used image → s'.host_images image = s.host_images image

theorem Spares.refl (s : Shared τ) : Spares t used s s :=
  ⟨fun _ _ _ _ h => ⟨h, rfl⟩, fun _ _ => rfl⟩

theorem Spares.usable (h : Spares t used s s') (hused : used image)
    (hu : Usable s image) : Usable s' image :=
  hu.imp fun _ htop => (h.used image hused).trans htop

theorem Spares.remapped (h : Spares t used s s') {barrier : Barrier} (hused : used barrier.image) :
    s'.remapped barrier = s.remapped barrier := by
  rw [Shared.remapped, h.used _ hused, Shared.remapped]

theorem Spares.right (h : Spares t used s s') {results : List (List Barrier × List Barrier)}
    (hused : ∀ image ∈ (results.flatMap Prod.fst).map Barrier.image, used image)
    (hr : Right s results) :
    Right s' results := by
  intro x hx
  rw [hr x hx]
  refine List.map_congr_left fun barrier hbarrier => (h.remapped (hused _ ?_)).symm
  exact List.mem_map_of_mem (List.mem_flatMap.2 ⟨x, hx, hbarrier⟩)

theorem Spares.ready (h : Spares t used s s') (hused : ∀ image ∈ groups.uses, used image)
    (hr : Ready s groups) :
    Ready s' groups := by
  refine ⟨h.right (fun image himage => hused image ?_) hr.1, fun image himage =>
    h.usable (hused _ himage) (hr.2 _ himage)⟩
  rw [Groups.uses, List.map_append, List.map_append, List.append_assoc]
  exact List.mem_append_left _ himage

theorem Spares.held (h : Spares t used s s') (hu : u ≠ t)
    (hh : Held s u images) : Held s' u images :=
  ⟨hh.1, fun image himage => (hh.2 image himage).imp fun _ htop => (h.calls u image _ hu htop).1⟩

theorem Spares.lookup (h : Spares t used s s') (hu : u ≠ t) (hh : Held s u images)
    (himage : image ∈ images) :
    s'.top_levels.lookup image = s.top_levels.lookup image := by
  obtain ⟨top, htop⟩ := hh.2 image himage
  exact (h.calls u image top hu htop).2

theorem Placed.spared (hp : Placed s u place) (h : Spares t used s s') (hu : u ≠ t)
    (hused : ∀ image ∈ place.uses, used image) : Placed s' u place := by
  cases place with
  | idle => trivial
  | creating image top =>
    obtain ⟨htop, hpos, hnone⟩ := hp
    obtain ⟨htop', hlookup⟩ := h.calls u image top hu htop
    exact ⟨htop', hpos, hlookup.trans hnone⟩
  | counting image | created image =>
    obtain ⟨⟨top, htop, hsome⟩, top', hhost, hpos⟩ := hp
    obtain ⟨htop', hlookup⟩ := h.calls u image top hu htop
    exact ⟨⟨top, htop', hlookup.trans hsome⟩, top', (h.calls u image top' hu hhost).1, hpos⟩
  | destroying images | entering images => exact h.held hu hp
  | erasing todo images | uncounting _ todo images =>
    refine ⟨h.held hu hp.1, hp.2.1, fun image himage => ?_⟩
    rw [h.lookup hu hp.1 himage]
    exact hp.2.2 image himage
  | freeing images =>
    refine ⟨h.held hu hp.1, fun image himage => ?_⟩
    rw [h.lookup hu hp.1 himage]
    exact hp.2 image himage
  | asking image | finding image => exact h.usable (hused _ List.mem_cons_self) hp
  | answered image top => exact (h.used _ (hused _ List.mem_cons_self)).trans hp
  | waiting groups => exact fun image himage => h.usable (hused _ himage) (hp image himage)
  | remapping groups | patching groups => exact h.ready hused hp
  | probing groups rest =>
    refine ⟨h.ready hused hp.1, fun barrier hbarrier => ?_⟩
    have himage : barrier.image ∈ groups.uses := by
      rw [Groups.uses]
      exact List.mem_map_of_mem (List.mem_append_left _ (List.mem_append_right _ hbarrier))
    rw [h.remapped (hused _ himage)]
    exact hp.2 barrier hbarrier
  | recorded results =>
    exact ⟨h.right hused hp.1, fun image himage => h.usable (hused _ himage) (hp.2 image himage)⟩

/-- The images of the commands of the threads but one. -/
def Others (st : State τ) (t : τ) (image : Image) : Prop := ∃ u, u ≠ t ∧ image ∈ (st.own u).uses

/-! ## What the fast paths know -/

/-- A slot of zero has no image with top levels. -/
theorem Sound.unfiltered (hs : Sound st) (hfew : st.shared.top_levels.keys.length + 1 < 65536)
    (himage : st.shared.host_images image = some (top, .application))
    (hzero : st.shared.top_filter (topSlot image) = 0) : top = 0 := by
  by_contra hne
  have hlookup := hs.kept.live image top himage (UInt32.pos_iff_ne_zero.2 hne)
  have hkey : image ∈ st.shared.top_levels.keys := AList.lookup_isSome.1 (by rw [hlookup]; rfl)
  have hcounted : image ∈ counted st.shared.top_levels.keys
      (Mutex.kept st.shared.top_mutex st.own Place.pending) ∧
      (counted st.shared.top_levels.keys
        (Mutex.kept st.shared.top_mutex st.own Place.pending)).length < 65536 := by
    cases hmutex : st.shared.top_mutex with
    | none => exact ⟨hkey, Nat.lt_of_succ_lt hfew⟩
    | some u =>
      have hplaced := hs.placed u
      rw [show Mutex.kept (some u) st.own Place.pending = (st.own u).pending from rfl]
      cases hplace : st.own u with
      | counting image' =>
        rw [hplace] at hplaced
        obtain ⟨-, top', hcall, -⟩ := hplaced
        have hother : image ≠ image' := by
          rintro rfl
          rw [himage] at hcall
          cases hcall
        exact ⟨(List.mem_erase_of_ne hother).2 hkey,
          List.length_erase_le.trans_lt (Nat.lt_of_succ_lt hfew)⟩
      | uncounting image' todo images => exact ⟨List.mem_cons_of_mem _ hkey, hfew⟩
      | _ => exact ⟨hkey, Nat.lt_of_succ_lt hfew⟩
  exact hs.filter.notMem hcounted.2 hzero hcounted.1

/-- In a session without upscaled images, one that is entered is being added by the thread in the
section. -/
theorem Sound.added (hs : Sound st) (hzero : st.shared.top_images = 0)
    (hlookup : st.shared.top_levels.lookup image ≠ none) :
    ∃ u top, (st.own u).adding = some image ∧
      st.shared.host_images image = some (top, .call u) := by
  have hadding := hs.zero hzero image hlookup
  obtain ⟨u, -, hu⟩ := Option.bind_eq_some_iff.1 hadding
  have hplaced := hs.placed u
  refine ⟨u, ?_⟩
  cases hplace : st.own u with
  | counting image' | created image' =>
    rw [hplace] at hplaced hu
    cases hu
    obtain ⟨⟨top, htop, -⟩, -⟩ := hplaced
    exact ⟨top, rfl, htop⟩
  | _ =>
    rw [hplace] at hu
    cases hu

theorem Sound.unentered (hs : Sound st) (hzero : st.shared.top_images = 0)
    (himage : st.shared.host_images image = some (top, .application)) : top = 0 := by
  by_contra hne
  have hlookup := hs.kept.live image top himage (UInt32.pos_iff_ne_zero.2 hne)
  obtain ⟨u, top', -, hcall⟩ := hs.added hzero (by rw [hlookup]; exact Option.some_ne_none _)
  rw [himage] at hcall
  cases hcall

theorem remapped_of_zero {barrier : Barrier}
    (h : s.host_images barrier.image = some (0, .application)) :
    s.remapped barrier = barrier := by
  rw [Shared.remapped, h]
  rfl

/-- The section gives a barrier the levels of its image. -/
theorem Kept.patch_eq {barrier : Barrier} (hk : Kept s) (hu : Usable s barrier.image) :
    s.patch barrier = s.remapped barrier := by
  obtain ⟨top, htop⟩ := hu
  rw [Shared.remapped, htop, Shared.patch]
  by_cases hpos : 0 < top
  · simp only [hk.live _ _ htop hpos, if_pos hpos]
  · have hnone : s.top_levels.lookup barrier.image = none := by
      refine Option.eq_none_iff_forall_not_mem.2 fun top' htop' => hpos ?_
      obtain ⟨hpos', role, hrole⟩ := hk.levels _ _ htop'
      rw [htop] at hrole
      obtain ⟨rfl, -⟩ := Prod.mk.inj (Option.some.inj hrole)
      exact hpos'
    simp only [hnone, if_neg hpos]

theorem Kept.lookup_getD (hk : Kept s) (h : s.host_images image = some (top, .application)) :
    (s.top_levels.lookup image).getD 0 = top := by
  by_cases hpos : 0 < top
  · rw [hk.live _ _ h hpos]
    rfl
  · cases hlookup : s.top_levels.lookup image with
    | none => exact (UInt32.pos_iff_ne_zero.not_left.1 hpos).symm
    | some top' =>
      obtain ⟨hpos', role, hrole⟩ := hk.levels _ _ hlookup
      rw [h] at hrole
      obtain ⟨rfl, -⟩ := Prod.mk.inj (Option.some.inj hrole)
      rfl

/-! ## The groups of a command -/

theorem Place.Like.trans {place'' : Place} (h : place.Like place') (h' : place'.Like place'') :
    place.Like place'' :=
  ⟨h.1.trans h'.1, h.2.1.trans h'.2.1, h.2.2.trans h'.2.2⟩

theorem next_placed (done : List (List Barrier × List Barrier))
    (todo : List (List Barrier)) (hr : Right s done)
    (hused : ∀ image ∈ (done.flatMap Prod.fst ++ todo.flatten).map Barrier.image, Usable s image) :
    Placed s t (.next done todo) ∧ (Place.next done todo).Like .idle := by
  cases todo with
  | nil =>
    refine ⟨⟨hr, fun image himage => hused image ?_⟩, ⟨rfl, rfl, rfl⟩⟩
    rwa [List.flatten_nil, List.append_nil]
  | cons group todo =>
    refine ⟨⟨hr, fun image himage => hused image ?_⟩, ⟨rfl, rfl, rfl⟩⟩
    rwa [List.flatten_cons, ← List.append_assoc]

theorem map_unchanged {group : List Barrier} (h : ∀ barrier ∈ group, s.remapped barrier = barrier) :
    group = group.map s.remapped :=
  ((List.map_congr_left h).trans (List.map_id' group)).symm

/-! ## The steps -/

section Host

variable {value : Option (UInt32 × Role τ)} {image' : Image}

@[simp] theorem setImage_self : (s.setImage image value).host_images image = value :=
  Function.update_self ..

theorem setImage_of_ne (h : image' ≠ image) :
    (s.setImage image value).host_images image' = s.host_images image' :=
  Function.update_of_ne h ..

/-- Only a handle that nobody else knows is changed. -/
theorem spares_update (hlevels : s'.top_levels = s.top_levels)
    (himages : s'.host_images = Function.update s.host_images image value)
    (hcall : ∀ u top, u ≠ t → s.host_images image ≠ some (top, .call u)) (hused : ¬used image) :
    Spares t used s s' where
  calls u image' top' hu htop := by
    rw [hlevels, himages]
    refine ⟨(Function.update_of_ne ?_ ..).trans htop, rfl⟩
    rintro rfl
    exact hcall u top' hu htop
  used image' himage := by
    rw [himages]
    exact Function.update_of_ne (by rintro rfl; exact hused himage) ..

end Host

theorem Kept.of_eq (hk : Kept s) (hlevels : s'.top_levels = s.top_levels)
    (himages : s'.host_images = s.host_images) :
    Kept s' where
  levels := by
    rw [hlevels, himages]
    exact hk.levels
  live := by
    rw [hlevels, himages]
    exact hk.live

/-- Nobody uses what the application does not have. -/
theorem Sound.unused (hs : Sound st) (himage : ¬Usable st.shared image) : ¬Others st t image := by
  rintro ⟨u, -, huse⟩
  refine himage ?_
  have hplaced := hs.placed u
  cases hplace : st.own u with
  | asking image' | finding image' =>
    rw [hplace] at huse hplaced
    rwa [List.mem_singleton.1 huse]
  | answered image' top' =>
    rw [hplace] at huse hplaced
    rw [List.mem_singleton.1 huse]
    exact ⟨top', hplaced⟩
  | waiting groups =>
    rw [hplace] at huse hplaced
    exact hplaced image huse
  | remapping groups | patching groups =>
    rw [hplace] at huse hplaced
    exact hplaced.2 image huse
  | probing groups rest =>
    rw [hplace] at huse hplaced
    exact hplaced.1.2 image huse
  | recorded results =>
    rw [hplace] at huse hplaced
    exact hplaced.2 image huse
  | _ =>
    rw [hplace] at huse
    cases huse

theorem not_usable_of_call (h : s.host_images image = some (top, .call t)) : ¬Usable s image := by
  rintro ⟨top', htop'⟩
  rw [h] at htop'
  cases htop'

theorem ne_of_call {image' : Image} {role : Role τ} {top' : UInt32}
    (h : s.host_images image = some (top, .call t))
    (h' : s.host_images image' = some (top', role)) (hrole : role ≠ .call t) : image' ≠ image := by
  rintro rfl
  rw [h] at h'
  exact hrole (Prod.mk.inj (Option.some.inj h')).2.symm

theorem not_call_of_call (h : s.host_images image = some (top, .call t)) (u : τ)
    (top' : UInt32) (hu : u ≠ t) :
    s.host_images image ≠ some (top', .call u) := by
  rw [h]
  rintro heq
  exact hu (Role.call.inj (Prod.mk.inj (Option.some.inj heq)).2).symm

theorem call_ne {u : τ} (hu : u ≠ t) : (Role.call u : Role τ) ≠ .call t :=
  fun h => hu (Role.call.inj h)

/-- The map changed for an image in the hands of the thread. -/
theorem Kept.enter {levels : AList fun _ : Image => UInt32} (hk : Kept s)
    (himage : s.host_images image = some (top, .call t)) (hother : ∀ image', image' ≠ image →
      levels.lookup image' = s.top_levels.lookup image')
    (hself : ∀ top', levels.lookup image = some top' → top' = top ∧ 0 < top)
    (hlevels : s'.top_levels = levels)
    (himages : s'.host_images = s.host_images) : Kept s' where
  levels image' top' h := by
    rw [hlevels] at h
    rw [himages]
    by_cases heq : image' = image
    · subst heq
      obtain ⟨rfl, hpos⟩ := hself top' h
      exact ⟨hpos, _, himage⟩
    · rw [hother _ heq] at h
      exact hk.levels image' top' h
  live image' top' h hpos := by
    rw [himages] at h
    rw [hlevels, hother _ (ne_of_call himage h nofun)]
    exact hk.live image' top' h hpos

theorem spares_enter {levels : AList fun _ : Image => UInt32}
    (himage : s.host_images image = some (top, .call t))
    (hother : ∀ image', image' ≠ image → levels.lookup image' = s.top_levels.lookup image')
    (hlevels : s'.top_levels = levels) (himages : s'.host_images = s.host_images) :
    Spares t used s s' where
  calls u image' top' hu htop := by
    rw [himages, hlevels]
    exact ⟨htop, hother _ (ne_of_call himage htop (call_ne hu))⟩
  used image' _ := by rw [himages]

theorem spares_of_eq (hlevels : s'.top_levels = s.top_levels)
    (himages : s'.host_images = s.host_images) :
    Spares t used s s' where
  calls u image' top' _ htop := by
    rw [himages, hlevels]
    exact ⟨htop, rfl⟩
  used image' _ := by rw [himages]

/-- The filter of a free section counts the entries. -/
theorem Sound.filter_free (hs : Sound st) (hnone : st.shared.top_mutex = none) :
    Counts 65536 topSlot st.shared.top_filter st.shared.top_levels.keys := by
  have hfilter := hs.filter
  rw [hnone] at hfilter
  exact hfilter

theorem Sound.zero_free (hs : Sound st) (hnone : st.shared.top_mutex = none)
    (hzero : st.shared.top_images = 0) :
    st.shared.top_levels.lookup image = none := by
  by_contra hlookup
  have hadding := hs.zero hzero image hlookup
  rw [hnone] at hadding
  cases hadding

theorem Sound.filter_inside (hs : Sound st) (ht : (st.own t).inside = true) :
    Counts 65536 topSlot st.shared.top_filter
      (counted st.shared.top_levels.keys (st.own t).pending) := by
  have hfilter := hs.filter
  rwa [Mutex.kept_self hs.owned ht] at hfilter

theorem Sound.zero_inside (hs : Sound st) (ht : (st.own t).inside = true)
    (hzero : st.shared.top_images = 0)
    (image : Image) (hlookup : st.shared.top_levels.lookup image ≠ none) :
    (st.own t).adding = some image := by
  have hadding := hs.zero hzero image hlookup
  rwa [Mutex.kept_self hs.owned ht] at hadding

theorem passed_eq (s : Shared τ) (t : τ) (images : List Image) :
    (images.foldl (fun s image => s.pass image (.call t)) s) = { s with
      host_images := (images.foldl (fun s image => s.pass image (.call t)) s).host_images } := by
  induction images generalizing s with
  | nil => rfl
  | cons image images ih => exact ih _

theorem passed_of_not_mem (himage : image ∉ images) :
    (images.foldl (fun s image => s.pass image (.call t)) s).host_images image =
      s.host_images image := by
  induction images generalizing s with
  | nil => rfl
  | cons image' images ih =>
    obtain ⟨hne, hrest⟩ := List.ne_and_not_mem_of_not_mem_cons himage
    exact (ih hrest).trans (setImage_of_ne hne)

theorem passed_of_mem (himage : image ∈ images) :
    (images.foldl (fun s image => s.pass image (.call t)) s).host_images
    image = (s.host_images image).map fun made => (made.1, .call t) := by
  induction images generalizing s with
  | nil => cases himage
  | cons image' images ih =>
    by_cases hmem : image ∈ images
    · refine (ih hmem).trans ?_
      by_cases heq : image = image'
      · subst heq
        have hpass : (s.pass image (.call t)).host_images image =
            (s.host_images image).map fun made => (made.1, .call t) :=
          setImage_self
        change ((s.pass image (.call t)).host_images image).map _ = _
        rw [hpass, Option.map_map]
        rfl
      · exact congrArg _ (setImage_of_ne heq)
    · obtain rfl : image = image' := (List.mem_cons.1 himage).resolve_right hmem
      exact (passed_of_not_mem hmem).trans setImage_self

theorem initial_sound : Sound (⟨{}, fun _ => .idle⟩ : State τ) where
  owned t := ⟨fun h => (Bool.false_ne_true h).elim, fun h => by cases h⟩
  kept := {
    levels := fun _ _ h => by cases h
    live := fun _ _ h => by cases h }
  placed _ := trivial
  filter := counts_nil
  zero _ _ h := absurd rfl h

variable [DecidableEq τ]

theorem Sound.next (hs : Sound st)
    (howned : Mutex.Owned s'.top_mutex (Function.update st.own t place') Place.inside)
    (hkept : Kept s') (hspares : Spares t (Others st t) st.shared s') (hplaced : Placed s' t place')
    (hfilter : Counts 65536 topSlot s'.top_filter
      (counted s'.top_levels.keys
        (Mutex.kept s'.top_mutex (Function.update st.own t place') Place.pending)))
    (hzero : s'.top_images = 0 → ∀ image, s'.top_levels.lookup image ≠ none →
      Mutex.kept s'.top_mutex (Function.update st.own t place') Place.adding = some image) :
    Sound (st.set t s' place') where
  owned := howned
  kept := hkept
  placed := System.forall_set.2 ⟨hplaced, fun u hu =>
    (hs.placed u).spared hspares hu fun _ himage => ⟨u, hu, himage⟩⟩
  filter := hfilter
  zero := hzero

/-- A step that leaves the section, the map and the filter as they are. -/
theorem Sound.move (hs : Sound st) (hkept : Kept s') (hspares : Spares t (Others st t) st.shared s')
    (hplaced : Placed s' t place') (hlike : place'.Like (st.own t))
    (hlevels : s'.top_levels = st.shared.top_levels)
    (hfilter : s'.top_filter = st.shared.top_filter)
    (himages : s'.top_images = st.shared.top_images) (hmutex : s'.top_mutex = st.shared.top_mutex) :
    Sound (st.set t s' place') := by
  obtain ⟨hinside, hpending, hadding⟩ := hlike
  refine hs.next ?_ hkept hspares hplaced ?_ ?_
  · rw [hmutex]
    exact hs.owned.move hinside
  · rw [hfilter, hlevels, hmutex, Mutex.kept_move hpending]
    exact hs.filter
  · rw [himages, hlevels, hmutex, Mutex.kept_move hadding]
    exact hs.zero

/-- A step that only the thread itself sees. -/
theorem Sound.stay (hs : Sound st) (place' : Place) (hplaced : Placed st.shared t place')
    (hlike : place'.Like (st.own t)) : Sound (st.set t st.shared place') :=
  hs.move hs.kept (.refl _) hplaced hlike rfl rfl rfl rfl

/-- A step after which the thread is in the section. -/
theorem Sound.hold (hs : Sound st)
    (howned : Mutex.Owned s'.top_mutex (Function.update st.own t place') Place.inside)
    (hmutex : s'.top_mutex = some t) (hinside : place'.inside = true) (hkept : Kept s')
    (hspares : Spares t (Others st t) st.shared s') (hplaced : Placed s' t place')
    (hfilter : Counts 65536 topSlot s'.top_filter (counted s'.top_levels.keys place'.pending))
    (hzero : s'.top_images = 0 → ∀ image, s'.top_levels.lookup image ≠ none →
      place'.adding = some image) :
    Sound (st.set t s' place') := by
  have hself : (Function.update st.own t place' t).inside = true := by
    rw [Function.update_self, hinside]
  refine hs.next howned hkept hspares hplaced ?_ ?_
  · rw [hmutex, Mutex.kept_self (hmutex ▸ howned) hself, Function.update_self]
    exact hfilter
  · rw [hmutex, Mutex.kept_self (hmutex ▸ howned) hself, Function.update_self]
    exact hzero

theorem Sound.enter (hs : Sound st) (s' : Shared τ) (hnone : st.shared.top_mutex = none)
    (hmutex : s'.top_mutex = some t)
    (hinside : place'.inside = true) (hkept : Kept s')
    (hspares : Spares t (Others st t) st.shared s')
    (hplaced : Placed s' t place')
    (hfilter : Counts 65536 topSlot s'.top_filter (counted s'.top_levels.keys place'.pending))
    (hzero : s'.top_images = 0 → ∀ image, s'.top_levels.lookup image ≠ none →
      place'.adding = some image) :
    Sound (st.set t s' place') := by
  have howned := hs.owned.acquire (t := t) hnone hinside
  exact hs.hold (hmutex ▸ howned) hmutex hinside hkept hspares hplaced hfilter hzero

theorem Sound.within (hs : Sound st) (s' : Shared τ) (ht : (st.own t).inside = true)
    (hinside : place'.inside = true)
    (hmutex : s'.top_mutex = st.shared.top_mutex) (hkept : Kept s')
    (hspares : Spares t (Others st t) st.shared s')
    (hplaced : Placed s' t place')
    (hfilter : Counts 65536 topSlot s'.top_filter (counted s'.top_levels.keys place'.pending))
    (hzero : s'.top_images = 0 → ∀ image, s'.top_levels.lookup image ≠ none →
      place'.adding = some image) :
    Sound (st.set t s' place') := by
  have howned := hs.owned.move (hinside.trans ht.symm)
  exact hs.hold (hmutex ▸ howned) (hmutex.trans ((hs.owned t).1 ht)) hinside hkept hspares hplaced
    hfilter hzero

theorem Sound.leave (hs : Sound st) (s' : Shared τ) (ht : (st.own t).inside = true)
    (hinside : place'.inside = false)
    (hmutex : s'.top_mutex = none) (hkept : Kept s') (hspares : Spares t (Others st t) st.shared s')
    (hplaced : Placed s' t place') (hfilter : Counts 65536 topSlot s'.top_filter s'.top_levels.keys)
    (hzero : s'.top_images = s'.top_levels.keys.length) : Sound (st.set t s' place') := by
  refine hs.next (hmutex ▸ hs.owned.release ht hinside) hkept hspares hplaced ?_ ?_
  · rw [hmutex]
    exact hfilter
  · intro h0 image himage
    rw [hzero, List.length_eq_zero_iff] at h0
    refine absurd (AList.lookup_eq_none.2 fun hmem => ?_) himage
    rw [AList.mem_keys, h0] at hmem
    cases hmem

/-- The group in hand is answered as it should be. -/
theorem Sound.answered (hs : Sound st) (hready : Ready st.shared groups) {result : List Barrier}
    (hresult : result = groups.group.map st.shared.remapped) (hlike : Place.idle.Like (st.own t)) :
    Sound (st.set t st.shared (groups.answer result)) := by
  obtain ⟨hplaced, hnext⟩ := next_placed (s := st.shared) (t := t)
    (groups.done ++ [(groups.group, result)]) groups.todo (by
      intro x hx
      obtain hx | hx := List.mem_append.1 hx
      · exact hready.1 x hx
      · rw [List.mem_singleton.1 hx]
        exact hresult) (by
      intro image himage
      refine hready.2 image ?_
      rwa [List.flatMap_append, List.flatMap_singleton] at himage)
  exact hs.stay _ hplaced (hnext.trans hlike)

theorem creating_sound (hs : Sound st) (hplace : st.own t = .creating image top)
    (h : proceed t st.shared (st.own t) = some (s', place')) : Sound (st.set t s' place') := by
  have hplaced := hs.placed t
  rw [hplace] at h hplaced
  obtain ⟨himage, hpos, hnone⟩ := hplaced
  simp only [proceed, hnone, if_true] at h
  split at h
  · cases h
  · rename_i hmutex
    cases h
    have hfree : st.shared.top_mutex = none := Option.not_isSome_iff_eq_none.1 hmutex
    have hkey : image ∉ st.shared.top_levels.keys :=
      fun hmem => AList.lookup_eq_none.1 hnone (AList.mem_keys.2 hmem)
    have hother : ∀ image', image' ≠ image → (st.shared.top_levels.insert image top).lookup image' =
        st.shared.top_levels.lookup image' := fun image' hne => AList.lookup_insert_ne hne
    have hself : ∀ top', (st.shared.top_levels.insert image top).lookup image = some top' →
        top' = top ∧ 0 < top := by
      intro top' htop'
      rw [AList.lookup_insert] at htop'
      exact ⟨(Option.some.inj htop').symm, hpos⟩
    refine hs.enter _ hfree rfl rfl (hs.kept.enter himage hother hself rfl rfl)
      (spares_enter himage hother rfl rfl)
      ⟨⟨top, himage, AList.lookup_insert _⟩, top, himage, hpos⟩ ?_ ?_
    · have hcounted : counted (st.shared.top_levels.insert image top).keys (some (.added image)) =
          st.shared.top_levels.keys := by
        rw [counted, AList.keys_insert, List.erase_cons_head, List.erase_of_not_mem hkey]
      exact hcounted ▸ hs.filter_free hfree
    · intro hzero image' hlookup
      by_cases heq : image' = image
      · rw [heq]
        rfl
      · exact absurd ((hother image' heq).trans (hs.zero_free hfree hzero)) hlookup

theorem counting_sound (hs : Sound st) (hplace : st.own t = .counting image)
    (h : proceed t st.shared (st.own t) = some (s', place')) : Sound (st.set t s' place') := by
  have hplaced := hs.placed t
  have hin : (st.own t).inside = true := by rw [hplace]; rfl
  have hcounts := hs.filter_inside hin
  have hzero := hs.zero_inside hin
  rw [hplace] at h hplaced hcounts hzero
  cases h
  have hkey : image ∈ st.shared.top_levels.keys := by
    obtain ⟨⟨top, -, hlookup⟩, -⟩ := hplaced
    exact AList.lookup_isSome.1 (by rw [hlookup]; rfl)
  refine hs.within _ hin rfl rfl (hs.kept.of_eq rfl rfl) (spares_of_eq rfl rfl) hplaced ?_ hzero
  exact hcounts.add.perm (List.perm_cons_erase hkey).symm

theorem created_sound (hs : Sound st) (hplace : st.own t = .created image)
    (h : proceed t st.shared (st.own t) = some (s', place')) : Sound (st.set t s' place') := by
  have hplaced := hs.placed t
  have hin : (st.own t).inside = true := by rw [hplace]; rfl
  have hcounts := hs.filter_inside hin
  rw [hplace] at h hplaced hcounts
  cases h
  obtain ⟨⟨top, himage, hlookup⟩, -⟩ := hplaced
  have hhost : (st.shared.stored.pass image .application).host_images image = some
      (top, .application) := by
    rw [Shared.pass, setImage_self, show st.shared.stored.host_images image = _ from himage]
    rfl
  refine hs.leave _ hin rfl rfl ⟨fun image' top' htop' => ?_, fun image' top' htop' hpos => ?_⟩
    (spares_update rfl rfl (not_call_of_call himage) (hs.unused (not_usable_of_call himage)))
      trivial hcounts rfl
  · obtain ⟨hpos, role, hrole⟩ := hs.kept.levels image' top' htop'
    by_cases heq : image' = image
    · subst heq
      refine ⟨hpos, .application, hhost.trans ?_⟩
      rw [himage] at hrole
      rw [(Prod.mk.inj (Option.some.inj hrole)).1]
    · exact ⟨hpos, role, (setImage_of_ne heq).trans hrole⟩
  · by_cases heq : image' = image
    · subst heq
      rw [hhost] at htop'
      rw [← (Prod.mk.inj (Option.some.inj htop')).1]
      exact hlookup
    · exact hs.kept.live image' top' ((setImage_of_ne heq).symm.trans htop') hpos

theorem destroying_sound (hs : Sound st) (hplace : st.own t = .destroying images)
    (h : proceed t st.shared (st.own t) = some (s', place')) : Sound (st.set t s' place') := by
  have hplaced := hs.placed t
  rw [hplace] at h hplaced
  simp only [proceed] at h
  split at h
  · rename_i hearly
    cases h
    refine hs.stay _ ⟨hplaced, fun image himage => ?_⟩ (by rw [hplace]; exact ⟨rfl, rfl, rfl⟩)
    obtain hnil | hzero := hearly
    · rw [hnil] at himage
      cases himage
    · by_contra hlookup
      obtain ⟨u, top, hadding, hcall⟩ := hs.added hzero hlookup
      obtain ⟨top', hcall'⟩ := hplaced.2 image himage
      rw [hcall'] at hcall
      obtain rfl : t = u := Role.call.inj (Prod.mk.inj (Option.some.inj hcall)).2
      rw [hplace] at hadding
      cases hadding
  · cases h
    exact hs.stay _ hplaced (by rw [hplace]; exact ⟨rfl, rfl, rfl⟩)

theorem entering_sound (hs : Sound st) (hplace : st.own t = .entering images)
    (h : proceed t st.shared (st.own t) = some (s', place')) : Sound (st.set t s' place') := by
  have hplaced := hs.placed t
  rw [hplace] at h hplaced
  simp only [proceed] at h
  split at h
  · cases h
  · rename_i hmutex
    cases h
    have hfree : st.shared.top_mutex = none := Option.not_isSome_iff_eq_none.1 hmutex
    exact hs.enter _ hfree rfl rfl (hs.kept.of_eq rfl rfl) (spares_of_eq rfl rfl)
      ⟨hplaced, fun _ h => h, fun _ h => .inl h⟩ (hs.filter_free hfree)
      fun hzero _ hlookup => absurd (hs.zero_free hfree hzero) hlookup

theorem erasing_sound (hs : Sound st) {todo : List Image} (hplace : st.own t = .erasing todo images)
    (h : proceed t st.shared (st.own t) = some (s', place')) : Sound (st.set t s' place') := by
  have hplaced := hs.placed t
  have hin : (st.own t).inside = true := by rw [hplace]; rfl
  have hcounts := hs.filter_inside hin
  have hzero := hs.zero_inside hin
  rw [hplace] at h hplaced hcounts hzero
  obtain ⟨hheld, hsub, hdone⟩ := hplaced
  cases todo with
  | nil =>
    cases h
    exact hs.leave _ hin rfl rfl (hs.kept.of_eq rfl rfl) (spares_of_eq rfl rfl)
      ⟨hheld, fun image himage => (hdone image himage).resolve_left List.not_mem_nil⟩ hcounts rfl
  | cons image todo =>
    obtain ⟨top, himage⟩ := hheld.2 image (hsub image List.mem_cons_self)
    have hsub' : ∀ image' ∈ todo, image' ∈ images :=
      fun image' h => hsub image' (List.mem_cons_of_mem _ h)
    simp only [proceed] at h
    split at h
    · rename_i hmem
      cases h
      have hother : ∀ image', image' ≠ image → (st.shared.top_levels.erase image).lookup image' =
          st.shared.top_levels.lookup image' := fun image' hne => AList.lookup_erase_ne hne
      have hgone : (st.shared.top_levels.erase image).lookup image = none := AList.lookup_erase _ _
      refine hs.within _ hin rfl rfl (hs.kept.enter himage hother (fun top' htop' => ?_) rfl rfl)
        (spares_enter himage hother rfl rfl) ⟨hheld, hsub', fun image' himage' => ?_⟩ ?_ ?_
      · rw [hgone] at htop'
        cases htop'
      · by_cases heq : image' = image
        · exact .inr (heq ▸ hgone)
        · exact (hdone image' himage').imp (List.mem_of_ne_of_mem heq) (hother image' heq).trans
      · refine Counts.perm hcounts ?_
        have hcounted : counted (st.shared.top_levels.erase image).keys (some (.erased image)) =
            image :: st.shared.top_levels.keys.erase image := by rw [counted, AList.keys_erase]
        exact hcounted ▸ List.perm_cons_erase (AList.mem_keys.1 hmem)
      · intro hzero' image' hlookup
        have heq : image' ≠ image := by
          rintro rfl
          exact hlookup hgone
        exact absurd (hzero hzero' image' (hother image' heq ▸ hlookup)) nofun
    · rename_i hmem
      cases h
      refine hs.stay _ ⟨hheld, hsub', fun image' himage' => ?_⟩
        (by rw [hplace]; exact ⟨rfl, rfl, rfl⟩)
      by_cases heq : image' = image
      · exact .inr (heq ▸ AList.lookup_eq_none.2 hmem)
      · exact (hdone image' himage').imp_left (List.mem_of_ne_of_mem heq)

theorem uncounting_sound (hs : Sound st) {todo : List Image}
    (hplace : st.own t = .uncounting image todo images)
    (h : proceed t st.shared (st.own t) = some (s', place')) : Sound (st.set t s' place') := by
  have hplaced := hs.placed t
  have hin : (st.own t).inside = true := by rw [hplace]; rfl
  have hcounts := hs.filter_inside hin
  have hzero := hs.zero_inside hin
  rw [hplace] at h hplaced hcounts hzero
  cases h
  exact hs.within _ hin rfl rfl (hs.kept.of_eq rfl rfl) (spares_of_eq rfl rfl) hplaced
    (hcounts.remove (by decide)) hzero

theorem freeing_sound (hs : Sound st) (hplace : st.own t = .freeing images)
    (h : proceed t st.shared (st.own t) = some (s', place')) : Sound (st.set t s' place') := by
  have hplaced := hs.placed t
  rw [hplace] at h hplaced
  cases images with
  | nil =>
    cases h
    exact hs.stay .idle trivial (by rw [hplace]; exact ⟨rfl, rfl, rfl⟩)
  | cons image images =>
    cases h
    obtain ⟨hheld, hgone⟩ := hplaced
    obtain ⟨top, himage⟩ := hheld.2 image List.mem_cons_self
    have hother : ∀ image' ∈ images, image' ≠ image := fun image' himage' => by
      rintro rfl
      exact (List.nodup_cons.1 hheld.1).1 himage'
    refine hs.move ⟨fun image' top' htop' => ?_, fun image' top' htop' hpos => ?_⟩
      (spares_update rfl rfl (not_call_of_call himage) (hs.unused (not_usable_of_call himage)))
      ⟨⟨hheld.1.of_cons, fun image' himage' => ?_⟩, fun image' himage' =>
        hgone image' (List.mem_cons_of_mem _ himage')⟩
      (by rw [hplace]; exact ⟨rfl, rfl, rfl⟩) rfl rfl rfl rfl
    · have hne : image' ≠ image := by
        rintro rfl
        rw [show (st.shared.setImage image' none).top_levels.lookup image' = none from
          hgone image' List.mem_cons_self] at htop'
        cases htop'
      rw [setImage_of_ne hne]
      exact hs.kept.levels image' top' htop'
    · have hne : image' ≠ image := by
        rintro rfl
        rw [setImage_self] at htop'
        cases htop'
      exact hs.kept.live image' top' ((setImage_of_ne hne).symm.trans htop') hpos
    · rw [setImage_of_ne (hother image' himage')]
      exact hheld.2 image' (List.mem_cons_of_mem _ himage')

theorem asking_sound (hs : Sound st) (ha : Allowed st (t, .step))
    (hplace : st.own t = .asking image)
    (h : proceed t st.shared (st.own t) = some (s', place')) : Sound (st.set t s' place') := by
  have hplaced := hs.placed t
  rw [hplace] at h hplaced
  simp only [proceed] at h
  split at h
  · rename_i hzero
    cases h
    obtain ⟨top, htop⟩ := hplaced
    obtain rfl : top = 0 := hs.unfiltered ha htop hzero
    exact hs.stay (.answered image 0) htop (by rw [hplace]; exact ⟨rfl, rfl, rfl⟩)
  · cases h
    exact hs.stay (.finding image) hplaced (by rw [hplace]; exact ⟨rfl, rfl, rfl⟩)

theorem finding_sound (hs : Sound st) (hplace : st.own t = .finding image)
    (h : proceed t st.shared (st.own t) = some (s', place')) : Sound (st.set t s' place') := by
  have hplaced := hs.placed t
  rw [hplace] at h hplaced
  simp only [proceed] at h
  split at h
  · cases h
  · cases h
    obtain ⟨top, htop⟩ := hplaced
    rw [hs.kept.lookup_getD htop]
    exact hs.stay (.answered image top) htop (by rw [hplace]; exact ⟨rfl, rfl, rfl⟩)

theorem waiting_sound (hs : Sound st) {todo : List (List Barrier)}
    (hplace : st.own t = .waiting todo)
    (h : proceed t st.shared (st.own t) = some (s', place')) : Sound (st.set t s' place') := by
  have hplaced := hs.placed t
  rw [hplace] at h hplaced
  simp only [proceed] at h
  split at h
  · rename_i hzero
    cases h
    have hflat : ((todo.map fun group => (group, group)).flatMap Prod.fst) = todo.flatten := by
      rw [List.flatMap_map, List.flatMap_id']
    refine hs.stay (.recorded _) ⟨fun x hx => ?_, by rw [hflat]; exact hplaced⟩
      (by rw [hplace]; exact ⟨rfl, rfl, rfl⟩)
    obtain ⟨group, hgroup, rfl⟩ := List.mem_map.1 hx
    refine map_unchanged fun barrier hbarrier => ?_
    obtain ⟨top, htop⟩ := hplaced barrier.image
      (List.mem_map_of_mem (List.mem_flatten.2 ⟨group, hgroup, hbarrier⟩))
    obtain rfl : top = 0 := hs.unentered hzero htop
    exact remapped_of_zero htop
  · cases h
    obtain ⟨hnext, hlike⟩ := next_placed (s := st.shared) (t := t) [] todo nofun hplaced
    exact hs.stay _ hnext (hlike.trans (by rw [hplace]; exact ⟨rfl, rfl, rfl⟩))

theorem Groups.mem_uses {barrier : Barrier} (h : barrier ∈ groups.group) :
    barrier.image ∈ groups.uses := by
  rw [Groups.uses]
  exact List.mem_map_of_mem (List.mem_append_left _ (List.mem_append_right _ h))

theorem remapping_sound (hs : Sound st) (hplace : st.own t = .remapping groups)
    (h : proceed t st.shared (st.own t) = some (s', place')) : Sound (st.set t s' place') := by
  have hplaced := hs.placed t
  rw [hplace] at h hplaced
  simp only [proceed] at h
  split at h
  · rename_i hearly
    cases h
    refine hs.answered hplaced (map_unchanged fun barrier hbarrier => ?_)
      (by rw [hplace]; exact ⟨rfl, rfl, rfl⟩)
    obtain hnil | hzero := hearly
    · rw [hnil] at hbarrier
      cases hbarrier
    · obtain ⟨top, htop⟩ := hplaced.2 _ (Groups.mem_uses hbarrier)
      obtain rfl : top = 0 := hs.unentered hzero htop
      exact remapped_of_zero htop
  · cases h
    exact hs.stay (.probing groups groups.group) ⟨hplaced, fun _ h => .inl h⟩
      (by rw [hplace]; exact ⟨rfl, rfl, rfl⟩)

theorem probing_sound (hs : Sound st) (ha : Allowed st (t, .step)) {rest : List Barrier}
    (hplace : st.own t = .probing groups rest)
    (h : proceed t st.shared (st.own t) = some (s', place')) : Sound (st.set t s' place') := by
  have hplaced := hs.placed t
  rw [hplace] at h hplaced
  obtain ⟨hready, hprobed⟩ := hplaced
  cases rest with
  | nil =>
    cases h
    exact hs.answered hready
      (map_unchanged fun barrier hbarrier =>
        (hprobed barrier hbarrier).resolve_left List.not_mem_nil)
      (by rw [hplace]; exact ⟨rfl, rfl, rfl⟩)
  | cons barrier rest =>
    simp only [proceed] at h
    split at h
    · rename_i hzero
      cases h
      refine hs.stay (.probing groups rest) ⟨hready, fun barrier' hbarrier' => ?_⟩
        (by rw [hplace]; exact ⟨rfl, rfl, rfl⟩)
      by_cases heq : barrier' = barrier
      · subst heq
        obtain ⟨top, htop⟩ := hready.2 _ (Groups.mem_uses hbarrier')
        obtain rfl : top = 0 := hs.unfiltered ha htop hzero
        exact .inr (remapped_of_zero htop)
      · exact (hprobed barrier' hbarrier').imp_left (List.mem_of_ne_of_mem heq)
    · cases h
      exact hs.stay (.patching groups) hready (by rw [hplace]; exact ⟨rfl, rfl, rfl⟩)

theorem patching_sound (hs : Sound st) (hplace : st.own t = .patching groups)
    (h : proceed t st.shared (st.own t) = some (s', place')) : Sound (st.set t s' place') := by
  have hplaced := hs.placed t
  rw [hplace] at h hplaced
  simp only [proceed] at h
  split at h
  · cases h
  · cases h
    exact hs.answered hplaced
      (List.map_congr_left fun barrier hbarrier =>
        hs.kept.patch_eq (hplaced.2 _ (Groups.mem_uses hbarrier)))
      (by rw [hplace]; exact ⟨rfl, rfl, rfl⟩)

theorem proceed_sound (hs : Sound st) (ha : Allowed st (t, .step))
    (h : proceed t st.shared (st.own t) = some (s', place')) : Sound (st.set t s' place') := by
  cases hplace : st.own t with
  | idle =>
    rw [hplace] at h
    cases h
  | creating image top => exact creating_sound hs hplace h
  | counting image => exact counting_sound hs hplace h
  | created image => exact created_sound hs hplace h
  | destroying images => exact destroying_sound hs hplace h
  | entering images => exact entering_sound hs hplace h
  | erasing todo images => exact erasing_sound hs hplace h
  | uncounting image todo images => exact uncounting_sound hs hplace h
  | freeing images => exact freeing_sound hs hplace h
  | asking image => exact asking_sound hs ha hplace h
  | finding image => exact finding_sound hs hplace h
  | waiting groups => exact waiting_sound hs hplace h
  | remapping groups => exact remapping_sound hs hplace h
  | probing groups rest => exact probing_sound hs ha hplace h
  | patching groups => exact patching_sound hs hplace h
  | answered _ _ | recorded _ =>
    rw [hplace] at h
    cases h
    exact hs.stay .idle trivial (by rw [hplace]; exact ⟨rfl, rfl, rfl⟩)

/-! ## Calls -/

theorem destroyImages_sound (hs : Sound st) (ha : Allowed st (t, .destroyImages images))
    (hplace : st.own t = .idle) :
    Sound (st.set t (images.foldl (fun s image => s.pass image (.call t)) st.shared)
      (.destroying images)) := by
  obtain ⟨hnodup, husable⟩ := ha
  rw [passed_eq]
  refine hs.move ⟨fun image top hlookup => ?_, fun image top htop hpos => ?_⟩
    ⟨fun u image top hu htop => ⟨?_, rfl⟩, fun image himage => ?_⟩ ⟨hnodup, fun image himage => ?_⟩
    (by rw [hplace]; exact ⟨rfl, rfl, rfl⟩) rfl rfl rfl rfl
  · obtain ⟨hpos, role, hrole⟩ := hs.kept.levels image top hlookup
    by_cases hmem : image ∈ images
    · exact ⟨hpos, .call t, (passed_of_mem hmem).trans (by rw [hrole]; rfl)⟩
    · exact ⟨hpos, role, (passed_of_not_mem hmem).trans hrole⟩
  · by_cases hmem : image ∈ images
    · rw [passed_of_mem hmem] at htop
      obtain ⟨made, -, hmade⟩ := Option.map_eq_some_iff.1 htop
      cases hmade
    · exact hs.kept.live image top ((passed_of_not_mem hmem).symm.trans htop) hpos
  · refine (passed_of_not_mem fun hmem => ?_).trans htop
    exact not_usable_of_call htop (husable image hmem).1
  · obtain ⟨u, -, huse⟩ := himage
    exact passed_of_not_mem fun hmem => (husable image hmem).2 u huse
  · obtain ⟨⟨top, htop⟩, -⟩ := husable image himage
    exact ⟨top, (passed_of_mem himage).trans (by rw [htop]; rfl)⟩

theorem createImage_sound (hs : Sound st) {role : Role τ} (hfresh : st.shared.Fresh image)
    (hrole : role = .application → top = 0) (place' : Place)
    (hplaced : Placed (st.shared.setImage image (some (top, role))) t place')
    (hlike : place'.Like (st.own t)) :
    Sound (st.set t (st.shared.setImage image (some (top, role))) place') := by
  have hnot : ¬Usable st.shared image := by
    rintro ⟨top', htop'⟩
    rw [hfresh] at htop'
    cases htop'
  refine hs.move ⟨fun image' top' htop' => ?_, fun image' top' htop' hpos => ?_⟩
    (spares_update rfl rfl (fun _ _ _ => by rw [hfresh]; nofun) (hs.unused hnot))
      hplaced hlike rfl rfl rfl rfl
  · obtain ⟨hpos, role', hrole'⟩ := hs.kept.levels image' top' htop'
    refine ⟨hpos, role', (setImage_of_ne ?_).trans hrole'⟩
    rintro rfl
    rw [hfresh] at hrole'
    cases hrole'
  · by_cases heq : image' = image
    · subst heq
      rw [setImage_self] at htop'
      obtain ⟨rfl, rfl⟩ := Prod.mk.inj (Option.some.inj htop')
      rw [hrole rfl] at hpos
      exact absurd hpos (lt_irrefl 0)
    · exact hs.kept.live image' top' ((setImage_of_ne heq).symm.trans htop') hpos

theorem begin_sound (hs : Sound st) {call : Act} (ha : Allowed st (t, call))
    (hplace : st.own t = .idle)
    (h : begin t st.shared call = some (s', place')) : Sound (st.set t s' place') := by
  have hidle : Place.idle.Like (st.own t) := by rw [hplace]; exact ⟨rfl, rfl, rfl⟩
  cases call with
  | createImage image top =>
    have hlookup : st.shared.top_levels.lookup image = none := by
      refine Option.eq_none_iff_forall_not_mem.2 fun top' htop' => ?_
      obtain ⟨-, role, hrole⟩ := hs.kept.levels image top' htop'
      rw [show st.shared.host_images image = none from ha] at hrole
      cases hrole
    simp only [begin] at h
    split at h
    · rename_i hpos
      cases h
      exact createImage_sound hs ha (fun h => by cases h) (.creating image top)
        ⟨setImage_self, hpos, hlookup⟩ hidle
    · cases h
      exact createImage_sound hs ha (fun _ => rfl) .idle trivial hidle
  | destroyImages images =>
    cases h
    exact destroyImages_sound hs ha hplace
  | topLevelsOf image =>
    cases h
    exact hs.stay (.asking image) ha hidle
  | barriers barriers =>
    cases h
    refine hs.stay (.next [] [barriers]) ⟨nofun, ?_⟩ hidle
    intro image himage
    rw [Groups.uses, List.flatMap_nil, List.nil_append, List.flatten_nil, List.append_nil] at himage
    obtain ⟨barrier, hbarrier, rfl⟩ := List.mem_map.1 himage
    exact ha barrier hbarrier
  | waitEvents2 dependencies =>
    cases h
    refine hs.stay (.waiting dependencies) ?_ hidle
    intro image himage
    obtain ⟨barrier, hbarrier, rfl⟩ := List.mem_map.1 himage
    exact ha barrier hbarrier
  | step => cases h

theorem sound_step {a : τ × Act} (hs : Sound st) (ha : Allowed st a) (h : system.step st a st') :
    Sound st' := by
  obtain ⟨t, call⟩ := a
  obtain ⟨s', place', hact, rfl⟩ := h
  cases call with
  | step => exact proceed_sound hs ha hact
  | _ =>
    simp only [act] at hact
    split at hact
    · rename_i hidle
      exact begin_sound hs ha hidle hact
    · cases hact

theorem reachable_sound (h : (system.restrict Allowed).Reachable st) : Sound st := by
  refine h.invariant ?_ ?_
  · rintro _ rfl
    exact initial_sound
  · rintro st a st' ⟨hstep, hallowed⟩ hs
    exact sound_step hs hallowed hstep

/-- Whichever of the count of images, the filter and the locked map answers, a copy is told the top
levels its image was made with, and the host is given each barrier with just the levels of the image
it has. -/
theorem top_levels_honoured (h : (system.restrict Allowed).Reachable st) :
    (∀ t image top, st.own t = .answered image top →
      st.shared.host_images image = some (top, .application)) ∧
      ∀ t results, st.own t = .recorded results → Right st.shared results := by
  have hs := reachable_sound h
  refine ⟨fun t image top hplace => ?_, fun t results hplace => ?_⟩
  · have hplaced := hs.placed t
    rw [hplace] at hplaced
    exact hplaced
  · have hplaced := hs.placed t
    rw [hplace] at hplaced
    exact hplaced.1

local instance : Decidable (Usable s image) :=
  decidable_of_iff ((s.host_images image).map Prod.snd = some .application) (by
    unfold Usable
    cases s.host_images image <;> simp [Prod.ext_iff])

local instance : Decidable (s.Fresh image) := inferInstanceAs (Decidable (_ = _))

local instance {p : Image → Prop} [DecidablePred p] : Decidable (∀ image ∈ images, p image) :=
  List.decidableBAll p images

local instance {p : Barrier → Prop} [DecidablePred p] {barriers : List Barrier} :
    Decidable (∀ barrier ∈ barriers, p barrier) :=
  List.decidableBAll p barriers

local instance [Fintype τ] (st : State τ) (a : τ × Act) : Decidable (Allowed st a) := by
  obtain ⟨t, call⟩ := a
  cases call <;> dsimp only [Allowed] <;> infer_instance

/-- Barriers on an upscaled image and on a plain one, each in a dependency of its own. -/
theorem top_levels_honoured_two : ∃ st : State Unit,
    st.own () = .recorded [([⟨7, ⟨0, 1⟩⟩], [⟨7, ⟨0, 3⟩⟩]), ([⟨9, ⟨0, 1⟩⟩], [⟨9, ⟨0, 1⟩⟩])] ∧
      Right st.shared [([⟨7, ⟨0, 1⟩⟩], [⟨7, ⟨0, 3⟩⟩]), ([⟨9, ⟨0, 1⟩⟩], [⟨9, ⟨0, 1⟩⟩])] := by
  have hrun : ((([.createImage 7 2, .step, .step, .step, .createImage 9 0,
      .waitEvents2 [[⟨7, ⟨0, 1⟩⟩], [⟨9, ⟨0, 1⟩⟩]], .step, .step, .step, .step, .step,
      .step, .step] : List Act).map
        ((), ·)).foldlM (nextIf act Allowed) (⟨{}, fun _ => .idle⟩ : State Unit)).map
          (fun st => st.own ()) =
      some (.recorded [([⟨7, ⟨0, 1⟩⟩], [⟨7, ⟨0, 3⟩⟩]), ([⟨9, ⟨0, 1⟩⟩], [⟨9, ⟨0, 1⟩⟩])]) := by
    decide +kernel
  obtain ⟨st, hst, hplace⟩ := Option.map_eq_some_iff.1 hrun
  exact ⟨st, hplace, (top_levels_honoured (reachable_of_nextIf hst)).2 () _ hplace⟩

end Nightcap.Graphics.TopLevels
