import Nightcap.Graphics.LodSamplers
import Nightcap.Lib.Mutex

/-! Every sampler an update is given is the one the locked maps say, whichever path answered. -/
namespace Nightcap.Graphics.Lod

open Transition Threads CountingFilter

variable {τ Lod : Type} {upscales : Bool} {st st' : State τ Lod} {s s' : Shared τ Lod}
  {t u : τ} {place : Place Lod}
  {S copy r : Sampler} {V : View} {info : SamplerInfo Lod} {top generation : Nat} {writes : Writes}
  {used : Sampler → View → Prop} {x' : Local Lod}

/-- The samplers and views of an update in progress. -/
def Place.uses : Place Lod → List (Sampler × View)
  | .asking pairs => pairs
  | .filtering writes | .probing writes | .looking writes _ | .making writes _ _
  | .caching writes _ _ =>
    writes.done.map (fun x => (x.1, x.2.1)) ++ (writes.sampler, writes.view) :: writes.todo
  | .writing results => results.map fun x => (x.1, x.2.1)
  | _ => []

/-- What the application has made and not begun to destroy. -/
def Usable (s : Shared τ Lod) (S : Sampler) (V : View) : Prop :=
  (∃ info, s.host_samplers S = some (info, .application)) ∧
    (V = 0 ∨ ∃ top, s.host_views V = some (top, .application))

/-- The host gives out new handles only, the application destroys nothing an update in progress uses
and uses only what it has, and there are fewer clamped samplers than a word of the filter counts. -/
def Allowed (st : State τ Lod) (a : τ × Act Lod) : Prop :=
  match a.2 with
  | .createSampler _ sampler => st.shared.FreshSampler sampler
  | .createImageView view _ _ => st.shared.FreshView view
  | .destroySampler sampler =>
    (∃ info, st.shared.host_samplers sampler = some (info, .application)) ∧
      ∀ u, ∀ pair ∈ (st.own u).place.uses, pair.1 ≠ sampler
  | .destroyImageView view =>
    (∃ top, st.shared.host_views view = some (top, .application)) ∧
      ∀ u, ∀ pair ∈ (st.own u).place.uses, pair.2 ≠ view
  | .update pairs => ∀ pair ∈ pairs, Usable st.shared pair.1 pair.2
  | .step _ created =>
    (∀ copy ∈ created, st.shared.FreshSampler copy) ∧
      st.shared.clamped_samplers.keys.length + 1 < 65536

/-- What the locked maps answer for a sampler and a view. -/
def Good (s : Shared τ Lod) (S : Sampler) (V : View) (r : Sampler) : Prop :=
  match s.clamped_samplers.lookup S, s.top_views.lookup V with
  | some clamped, some top => clamped.shifted.lookup top = some r ∨ (r = S ∧ top ∈ clamped.refused)
  | _, _ => r = S

/-- Each sampler and view of an update is usable, and those done with are answered. -/
def Ready (s : Shared τ Lod) (writes : Writes) : Prop :=
  (∀ x ∈ writes.done, Usable s x.1 x.2.1 ∧ Good s x.1 x.2.1 x.2.2) ∧
    Usable s writes.sampler writes.view ∧
    ∀ pair ∈ writes.todo, Usable s pair.1 pair.2

/-- What a call knows that is about to free a sampler and its copies. -/
def Freeing (s : Shared τ Lod) (t : τ) (S : Sampler) (copies : List Sampler) : Prop :=
  (∃ info, s.host_samplers S = some (info, .call t)) ∧ S ∉ s.clamped_samplers ∧ copies.Nodup ∧
    ∀ copy ∈ copies, ∃ info top, s.host_samplers copy = some (info, .copy S top)

def FreeingView (s : Shared τ Lod) (t : τ) (V : View) : Prop :=
  (∃ top, s.host_views V = some (top, .call t)) ∧ V ∉ s.top_views

/-- What a call in its section knows of the handle it is about. -/
def Later (s : Shared τ Lod) (t : τ) : After → Prop
  | .sampler S => (∃ info, s.host_samplers S = some (info, .call t)) ∧ S ∈ s.clamped_samplers
  | .view V => (∃ top, s.host_views V = some (top, .call t)) ∧ V ∈ s.top_views
  | .free S copies => Freeing s t S copies
  | .freeView V => FreeingView s t V

/-- Whether a thread is in the section. -/
def Place.inside : Place Lod → Bool
  | .bump _ | .store _ => true
  | _ => false

/-- What a change in progress is about. -/
def After.touches (S : Sampler) (V : View) : After → Prop
  | .sampler S' => S' = S
  | .free S' _ => S' = S
  | .view V' => V' = V
  | .freeView V' => V' = V

def Changing (st : State τ Lod) (S : Sampler) (V : View) : Prop :=
  ∃ t after, (st.own t).place = .bump after ∧ after.touches S V

/-- An entry of the current generation is right, or its sampler or view is being changed right
now. -/
def Cached (st : State τ Lod) (pair : Pair) : Prop :=
  pair.generation ≤ st.shared.g_lod_generation ∧
    (pair.generation = st.shared.g_lod_generation →
      Good st.shared pair.sampler pair.view pair.result ∨ Changing st pair.sampler pair.view)

section Updates

variable {value : Option (SamplerInfo Lod × Role τ)} {viewed : Option (Nat × Role τ)}
  {S' : Sampler} {V' : View}

@[simp] theorem setSampler_self : (s.setSampler S value).host_samplers S = value :=
  Function.update_self ..

theorem setSampler_of_ne (h : S' ≠ S) :
    (s.setSampler S value).host_samplers S' = s.host_samplers S' :=
  Function.update_of_ne h ..

@[simp] theorem setView_self : (s.setView V viewed).host_views V = viewed := Function.update_self ..

theorem setView_of_ne (h : V' ≠ V) : (s.setView V viewed).host_views V' = s.host_views V' :=
  Function.update_of_ne h ..

end Updates

/-! ## What a step leaves to the other threads -/

/-- What a step of one thread leaves as the others know it; `used` are the pairs of their
updates. -/
structure Spares (t : τ) (used : Sampler → View → Prop) (s s' : Shared τ Lod) : Prop where
  samplers : ∀ u S info, u ≠ t → s.host_samplers S = some (info, .call u) →
    s'.host_samplers S = some (info, .call u) ∧ (S ∈ s'.clamped_samplers ↔ S ∈ s.clamped_samplers)
  copies : ∀ u S info copy made top, u ≠ t → s.host_samplers S = some (info, .call u) →
    s.host_samplers copy = some (made, .copy S top) →
      s'.host_samplers copy = some (made, .copy S top)
  views : ∀ u V top, u ≠ t → s.host_views V = some (top, .call u) →
    s'.host_views V = some (top, .call u) ∧ (V ∈ s'.top_views ↔ V ∈ s.top_views)
  used : ∀ S V, used S V → Usable s S V → Usable s' S V ∧ (∀ r, Good s S V r → Good s' S V r) ∧
    s'.top_views.lookup V = s.top_views.lookup V
  generation : s.g_lod_generation ≤ s'.g_lod_generation

theorem Spares.refl (s : Shared τ Lod) : Spares t used s s where
  samplers _ _ _ _ h := ⟨h, .rfl⟩
  copies _ _ _ _ _ _ _ _ h := h
  views _ _ _ _ h := ⟨h, .rfl⟩
  used _ _ _ h := ⟨h, fun _ h => h, rfl⟩
  generation := Nat.le_refl _

theorem Spares.freeing (h : Spares t used s s') (hu : u ≠ t) {copies : List Sampler}
    (hf : Freeing s u S copies) :
    Freeing s' u S copies := by
  obtain ⟨⟨info, hinfo⟩, hclamped, hnodup, hcopies⟩ := hf
  obtain ⟨hinfo', hiff⟩ := h.samplers u S info hu hinfo
  refine ⟨⟨info, hinfo'⟩, fun hmem => hclamped (hiff.1 hmem), hnodup, fun copy hcopy => ?_⟩
  obtain ⟨made, top, hmade⟩ := hcopies copy hcopy
  exact ⟨made, top, h.copies u S info copy made top hu hinfo hmade⟩

theorem Spares.freeingView (h : Spares t used s s') (hu : u ≠ t) (hf : FreeingView s u V) :
    FreeingView s' u V := by
  obtain ⟨⟨top, htop⟩, hout⟩ := hf
  obtain ⟨htop', hiff⟩ := h.views u V top hu htop
  exact ⟨⟨top, htop'⟩, fun hmem => hout (hiff.1 hmem)⟩

theorem Spares.later (h : Spares t used s s') (hu : u ≠ t) {after : After}
    (hl : Later s u after) : Later s' u after := by
  cases after with
  | sampler S =>
    obtain ⟨⟨info, hinfo⟩, hmem⟩ := hl
    obtain ⟨hinfo', hiff⟩ := h.samplers u S info hu hinfo
    exact ⟨⟨info, hinfo'⟩, hiff.2 hmem⟩
  | view V =>
    obtain ⟨⟨top, htop⟩, hmem⟩ := hl
    obtain ⟨htop', hiff⟩ := h.views u V top hu htop
    exact ⟨⟨top, htop'⟩, hiff.2 hmem⟩
  | free S copies => exact h.freeing hu hl
  | freeView V => exact h.freeingView hu hl

theorem Spares.ready (h : Spares t used s s')
    (hused : ∀ pair ∈ writes.done.map (fun x => (x.1, x.2.1)) ++ (writes.sampler,
      writes.view) :: writes.todo,
      used pair.1 pair.2) (hr : Ready s writes) : Ready s' writes := by
  obtain ⟨hdone, hnow, htodo⟩ := hr
  refine ⟨fun x hx => ?_, ?_, fun pair hpair => ?_⟩
  · have hx' := hused (x.1, x.2.1) (List.mem_append_left _ (List.mem_map.2 ⟨x, hx, rfl⟩))
    obtain ⟨husable, hgood⟩ := hdone x hx
    obtain ⟨husable', hgoods, -⟩ := h.used _ _ hx' husable
    exact ⟨husable', hgoods _ hgood⟩
  · exact (h.used _ _ (hused (writes.sampler, writes.view) (by simp)) hnow).1
  · exact (h.used _ _ (hused pair (by simp [hpair])) (htodo pair hpair)).1

/-- A handle that is new, this thread's, no longer used by an update, or a copy of this thread's. -/
def Own (s : Shared τ Lod) (t : τ) (used : Sampler → View → Prop) (S : Sampler) : Prop :=
  s.host_samplers S = none ∨ (∃ info, s.host_samplers S = some (info, .call t)) ∨
    (∀ V, ¬used S V) ∧ (∃ info, s.host_samplers S = some (info, .application)) ∨
    ∃ made S' top info, s.host_samplers S = some (made, .copy S' top) ∧
      s.host_samplers S' = some (info, .call t)

theorem Spares.setSampler (h : Own s t used S) (value : Option (SamplerInfo Lod × Role τ)) :
    Spares t used s (s.setSampler S value) where
  samplers u S' info hu hinfo := by
    have hne : S' ≠ S := by
      rintro rfl
      unfold Own at h
      grind
    exact ⟨(setSampler_of_ne hne).trans hinfo, .rfl⟩
  copies u S' info copy made top hu hinfo hmade := by
    have hne : copy ≠ S := by
      rintro rfl
      unfold Own at h
      grind
    exact (setSampler_of_ne hne).trans hmade
  views _ _ _ _ h := ⟨h, .rfl⟩
  used S' V hused hnow := by
    have hne : S' ≠ S := by
      rintro rfl
      obtain ⟨⟨info, hinfo⟩, -⟩ := hnow
      unfold Own at h
      grind
    refine ⟨⟨?_, hnow.2⟩, fun _ h => h, rfl⟩
    obtain ⟨info, hinfo⟩ := hnow.1
    exact ⟨info, (setSampler_of_ne hne).trans hinfo⟩
  generation := Nat.le_refl _

theorem Spares.setView (hnull : V ≠ 0)
    (h : s.host_views V = none ∨ (∃ top, s.host_views V = some (top, .call t)) ∨ ∀ S, ¬used S V)
    (hcalls : ∀ u top, u ≠ t → s.host_views V ≠ some (top, .call u))
    (value : Option (Nat × Role τ)) :
    Spares t used s (s.setView V value) where
  samplers _ _ _ _ h := ⟨h, .rfl⟩
  copies _ _ _ _ _ _ _ _ h := h
  views u V' top hu htop := by
    have hne : V' ≠ V := by
      rintro rfl
      exact hcalls u top hu htop
    exact ⟨(setView_of_ne hne).trans htop, .rfl⟩
  used S V' hused hnow := by
    refine ⟨⟨hnow.1, ?_⟩, fun _ h => h, rfl⟩
    obtain hzero | ⟨top, htop⟩ := hnow.2
    · exact .inl hzero
    · have hne : V' ≠ V := by
        rintro rfl
        grind
      exact .inr ⟨top, (setView_of_ne hne).trans htop⟩
  generation := Nat.le_refl _

/-- The map of clamped samplers changes at a sampler that only this thread has. -/
theorem Spares.clamped (hS : s.host_samplers S = some (info, .call t))
    (hother : ∀ S', S' ≠ S → s'.clamped_samplers.lookup S' = s.clamped_samplers.lookup S')
    (hviews : s'.top_views = s.top_views) (hsamplers : s'.host_samplers = s.host_samplers)
    (hhostViews : s'.host_views = s.host_views)
    (hgeneration : s'.g_lod_generation = s.g_lod_generation) :
    Spares t used s s' where
  samplers u S' info' hu hinfo := by
    have hne : S' ≠ S := by
      rintro rfl
      grind
    rw [hsamplers, ← AList.lookup_isSome, ← AList.lookup_isSome, hother S' hne]
    exact ⟨hinfo, .rfl⟩
  copies u S' info' copy made top hu hinfo hmade := by rw [hsamplers, hmade]
  views u V top hu htop := by
    rw [hhostViews, hviews]
    exact ⟨htop, .rfl⟩
  used S' V hused hnow := by
    have hne : S' ≠ S := by
      rintro rfl
      obtain ⟨⟨info', hinfo⟩, -⟩ := hnow
      grind
    unfold Usable Good at *
    rw [hsamplers, hhostViews, hviews, hother S' hne]
    exact ⟨hnow, fun _ h => h, rfl⟩
  generation := by rw [hgeneration]

/-- The map of views changes at a view that only this thread has. -/
theorem Spares.topViews (hV : s.host_views V = some (top, .call t)) (hnull : V ≠ 0)
    (hother : ∀ V', V' ≠ V → s'.top_views.lookup V' = s.top_views.lookup V')
    (hclamped : s'.clamped_samplers = s.clamped_samplers)
    (hsamplers : s'.host_samplers = s.host_samplers)
    (hhostViews : s'.host_views = s.host_views)
    (hgeneration : s'.g_lod_generation = s.g_lod_generation) :
    Spares t used s s' where
  samplers u S info hu hinfo := by
    rw [hsamplers, hclamped]
    exact ⟨hinfo, .rfl⟩
  copies u S' info' copy made top hu hinfo hmade := by rw [hsamplers, hmade]
  views u V' top' hu htop := by
    have hne : V' ≠ V := by
      rintro rfl
      grind
    rw [hhostViews, ← AList.lookup_isSome, ← AList.lookup_isSome, hother V' hne]
    exact ⟨htop, .rfl⟩
  used S V' hused hnow := by
    have hne : V' ≠ V := by
      rintro rfl
      obtain ⟨-, hzero | ⟨top', htop⟩⟩ := hnow
      · exact hnull hzero
      · grind
    unfold Usable Good at *
    rw [hsamplers, hhostViews, hclamped, hother V' hne]
    exact ⟨hnow, fun _ h => h, rfl⟩
  generation := by rw [hgeneration]

theorem keys_lookup {β : Type} {m : AList (fun _ : Sampler => β)} : S ∈ m ↔
    ∃ b, m.lookup S = some b := by
  rw [← AList.lookup_isSome, Option.isSome_iff_exists]

theorem entries_ne_nil {β : Type} {m : AList (fun _ : Sampler => β)}
    (h : S ∈ m) : m.entries ≠ [] := by
  intro hnone
  have hmem : S ∈ m.entries.keys := h
  rw [hnone] at hmem
  cases hmem

theorem clamp_new (hS : S ∉ s.clamped_samplers) (info : SamplerInfo Lod) :
    s.clamp S info = { s with
      clamped_samplers := s.clamped_samplers.insert S { info }
      clamped_filter := add 65536 s.clamped_filter (clampedSlot S) } := by
  rw [Shared.clamp, AList.lookup_eq_none.2 hS]

theorem Good.grow {S' : Sampler} (hgood : Good s S' V r) {clamped clamped' : ClampedSampler Lod}
    (h : s.clamped_samplers.lookup S = some clamped)
    (hshifted : ∀ top copy, clamped.shifted.lookup top = some copy →
      clamped'.shifted.lookup top = some copy)
    (hrefused : ∀ top ∈ clamped.refused, top ∈ clamped'.refused) :
    Good { s with clamped_samplers := s.clamped_samplers.insert S clamped' } S' V r := by
  by_cases hne : S' = S
  · subst hne
    unfold Good at *
    rw [h] at hgood
    dsimp only
    rw [AList.lookup_insert]
    cases hview : s.top_views.lookup V with
    | none => simpa [hview] using hgood
    | some top =>
      rw [hview] at hgood
      exact hgood.imp (hshifted top r) fun h => ⟨h.1, hrefused top h.2⟩
  · unfold Good at *
    dsimp only
    rw [AList.lookup_insert_ne hne]
    exact hgood

theorem Spares.grow {clamped clamped' : ClampedSampler Lod}
    (h : s.clamped_samplers.lookup S = some clamped)
    (hshifted : ∀ top copy, clamped.shifted.lookup top = some copy →
      clamped'.shifted.lookup top = some copy)
    (hrefused : ∀ top ∈ clamped.refused, top ∈ clamped'.refused) :
    Spares t used s { s with clamped_samplers := s.clamped_samplers.insert S clamped' } where
  samplers u S' info hu hinfo := by
    refine ⟨hinfo, (AList.mem_insert _).trans ⟨fun hmem => ?_, .inr⟩⟩
    obtain rfl | hmem := hmem
    · exact keys_lookup.2 ⟨clamped, h⟩
    · exact hmem
  copies _ _ _ _ _ _ _ _ h := h
  views _ _ _ _ h := ⟨h, .rfl⟩
  used _ _ _ hnow := ⟨hnow, fun _ hgood => hgood.grow h hshifted hrefused, rfl⟩
  generation := Nat.le_refl _

theorem Spares.trans {s'' : Shared τ Lod} (h : Spares t used s s') (h' : Spares t used s' s'') :
    Spares t used s s'' where
  samplers u S info hu hinfo := by
    obtain ⟨hinfo', hiff⟩ := h.samplers u S info hu hinfo
    obtain ⟨hinfo'', hiff'⟩ := h'.samplers u S info hu hinfo'
    exact ⟨hinfo'', hiff'.trans hiff⟩
  copies u S info copy made top hu hinfo hmade :=
    h'.copies u S info copy made top hu (h.samplers u S info hu hinfo).1
      (h.copies u S info copy made top hu hinfo hmade)
  views u V top hu htop := by
    obtain ⟨htop', hiff⟩ := h.views u V top hu htop
    obtain ⟨htop'', hiff'⟩ := h'.views u V top hu htop'
    exact ⟨htop'', hiff'.trans hiff⟩
  used S V hused hnow := by
    obtain ⟨hnow', hgood, hview⟩ := h.used S V hused hnow
    obtain ⟨hnow'', hgood', hview'⟩ := h'.used S V hused hnow'
    exact ⟨hnow'', fun r hr => hgood' r (hgood r hr), hview'.trans hview⟩
  generation := h.generation.trans h'.generation

/-- What only the section reads and writes is nobody else's. -/
theorem Spares.of_eq (h : Spares t used s s') {pairs_possible : Bool} {lod_mutex : Option τ}
    (hg : s'.g_lod_generation ≤ generation) :
    Spares t used s { s' with pairs_possible, lod_mutex, g_lod_generation := generation } :=
  ⟨h.samplers, h.copies, h.views, h.used, h.generation.trans hg⟩

theorem passSampler_eq {role role' : Role τ} (h : s.host_samplers S = some (info, role)) :
    s.passSampler S role' = s.setSampler S (some (info, role')) := by
  rw [Shared.passSampler, h]
  rfl

theorem passView_eq {role role' : Role τ} (h : s.host_views V = some (top, role)) :
    s.passView V role' = s.setView V (some (top, role')) := by
  rw [Shared.passView, h]
  rfl

/-- A sampler the maps do not list is its own answer, and so is any sampler for a view without top
levels. -/
theorem good_unclamped (h : S ∉ s.clamped_samplers) : Good s S V S := by
  unfold Good
  rw [AList.lookup_eq_none.2 h]

theorem good_untopped (h : V ∉ s.top_views) : Good s S V S := by
  unfold Good
  rw [AList.lookup_eq_none.2 h]
  split <;> simp_all

theorem good_of_lookup {clamped : ClampedSampler Lod}
    (hS : s.clamped_samplers.lookup S = some clamped)
    (hV : s.top_views.lookup V = some top) (hcopy : clamped.shifted.lookup top = some copy) :
    Good s S V copy := by
  unfold Good
  rw [hS, hV]
  exact .inl hcopy

theorem Changing.other [DecidableEq τ] (h : Changing st S V)
    (ht : ∀ after, (st.own t).place ≠ .bump after) :
    Changing (st.set t s' x') S V := by
  obtain ⟨u, after, hplace, htouches⟩ := h
  have hu : u ≠ t := by
    rintro rfl
    exact ht after hplace
  exact ⟨u, after, by rwa [System.set_own_of_ne hu], htouches⟩

theorem answer_outside (writes : Writes) (r : Sampler) :
    (writes.answer r : Place Lod).inside = false := by
  unfold Writes.answer
  cases writes.todo <;> rfl

variable [Zero Lod] [NatCast Lod] [LE Lod] [DecidableLE Lod]

/-- What a thread knows where it is. -/
def Placed (upscales : Bool) (s : Shared τ Lod) (t : τ) : Place Lod → Prop
  | .idle => True
  | .creating S info =>
    s.host_samplers S = some (info, .call t) ∧ info.clamps upscales = true ∧ S ∉ s.clamped_samplers
  | .creatingView V top => s.host_views V = some (top, .call t) ∧ 0 < top ∧ V ∉ s.top_views
  | .destroying S => ∃ info, s.host_samplers S = some (info, .call t)
  | .destroyingView V => ∃ top, s.host_views V = some (top, .call t)
  | .bump after | .store after => Later s t after
  | .free S copies => Freeing s t S copies
  | .freeView V => FreeingView s t V
  | .asking pairs => ∀ pair ∈ pairs, Usable s pair.1 pair.2
  | .filtering writes | .probing writes => Ready s writes
  | .looking writes generation => Ready s writes ∧ generation ≤ s.g_lod_generation
  | .making writes generation top =>
    Ready s writes ∧ generation ≤ s.g_lod_generation ∧ s.top_views.lookup writes.view = some top
  | .caching writes generation result =>
    Ready s writes ∧ generation ≤ s.g_lod_generation ∧ Good s writes.sampler writes.view result
  | .writing results => ∀ x ∈ results, Usable s x.1 x.2.1 ∧ Good s x.1 x.2.1 x.2.2

/-- A thread knows after a step of another one what it knew before. -/
theorem Spares.placed (h : Spares t used s s') (hu : u ≠ t)
    (hused : ∀ pair ∈ place.uses, used pair.1 pair.2)
    (hp : Placed upscales s u place) : Placed upscales s' u place := by
  cases place with
  | idle => trivial
  | creating S info =>
    obtain ⟨hinfo, hclamps, hout⟩ := hp
    obtain ⟨hinfo', hiff⟩ := h.samplers u S info hu hinfo
    exact ⟨hinfo', hclamps, fun hmem => hout (hiff.1 hmem)⟩
  | creatingView V top =>
    obtain ⟨htop, hpos, hout⟩ := hp
    obtain ⟨htop', hiff⟩ := h.views u V top hu htop
    exact ⟨htop', hpos, fun hmem => hout (hiff.1 hmem)⟩
  | destroying S =>
    obtain ⟨info, hinfo⟩ := hp
    exact ⟨info, (h.samplers u S info hu hinfo).1⟩
  | destroyingView V =>
    obtain ⟨top, htop⟩ := hp
    exact ⟨top, (h.views u V top hu htop).1⟩
  | bump after => exact h.later hu hp
  | store after => exact h.later hu hp
  | free S copies => exact h.freeing hu hp
  | freeView V => exact h.freeingView hu hp
  | asking pairs => exact fun pair hpair => (h.used _ _ (hused pair hpair) (hp pair hpair)).1
  | filtering writes => exact h.ready hused hp
  | probing writes => exact h.ready hused hp
  | looking writes generation => exact ⟨h.ready hused hp.1, hp.2.trans h.generation⟩
  | making writes generation top =>
    have hnow := hused (writes.sampler, writes.view) (by simp [Place.uses])
    exact ⟨h.ready hused hp.1, hp.2.1.trans h.generation,
      (h.used _ _ hnow hp.1.2.1).2.2.trans hp.2.2⟩
  | caching writes generation result =>
    have hnow := hused (writes.sampler, writes.view) (by simp [Place.uses])
    exact ⟨h.ready hused hp.1, hp.2.1.trans h.generation, (h.used _ _ hnow hp.1.2.1).2.1 _ hp.2.2⟩
  | writing results =>
    intro x hx
    have hx' := hused (x.1, x.2.1) (List.mem_map.2 ⟨x, hx, rfl⟩)
    obtain ⟨husable, hgood⟩ := hp x hx
    obtain ⟨husable', hgoods, -⟩ := h.used _ _ hx' husable
    exact ⟨husable', hgoods _ hgood⟩

theorem Ready.answer (hr : Ready s writes) (hgood : Good s writes.sampler writes.view r) :
    Placed upscales s t (writes.answer r) := by
  obtain ⟨hdone, hnow, htodo⟩ := hr
  have hdone' : ∀ x ∈ writes.done ++ [(writes.sampler, writes.view, r)], Usable s x.1 x.2.1 ∧
      Good s x.1 x.2.1 x.2.2 := by
    intro x hx
    obtain hx | hx := List.mem_append.1 hx
    · exact hdone x hx
    · rw [List.mem_singleton.1 hx]
      exact ⟨hnow, hgood⟩
  unfold Writes.answer
  cases htodo' : writes.todo with
  | nil => exact hdone'
  | cons pair todo =>
    rw [htodo'] at htodo
    exact ⟨hdone', htodo pair List.mem_cons_self, fun p hp => htodo p (List.mem_cons_of_mem _ hp)⟩

theorem look_placed (hr : Ready s writes) (hg : generation ≤ s.g_lod_generation) :
    Placed upscales s t (look s writes generation) ∧ (look s writes generation).inside = false := by
  unfold look
  split
  · rename_i hS
    exact ⟨⟨hr, hg, good_unclamped (AList.lookup_eq_none.1 hS)⟩, rfl⟩
  · rename_i clamped hS
    split
    · rename_i hV
      exact ⟨⟨hr, hg, good_untopped (AList.lookup_eq_none.1 hV)⟩, rfl⟩
    · rename_i top hV
      split
      · rename_i copy hcopy
        exact ⟨⟨hr, hg, good_of_lookup hS hV hcopy⟩, rfl⟩
      · exact ⟨⟨hr, hg, hV⟩, rfl⟩

variable [Add Lod] [LT Lod] [DecidableLT Lod]

/-- The maps, the filter and the host agree. -/
structure Kept (upscales : Bool) (s : Shared τ Lod) : Prop where
  filter : Counts 65536 clampedSlot s.clamped_filter s.clamped_samplers.keys
  few : s.clamped_samplers.keys.length < 65536
  clamped : ∀ S clamped, s.clamped_samplers.lookup S = some clamped →
    clamped.info.clamps upscales = true ∧
    ∃ role, s.host_samplers S = some (clamped.info, role) ∧ ∀ S' top, role ≠ .copy S' top
  copies : ∀ S clamped top copy, s.clamped_samplers.lookup S = some clamped →
    clamped.shifted.lookup top = some copy →
      s.host_samplers copy = some (clamped.info.shift top, .copy S top)
  samplers : ∀ S info, s.host_samplers S = some (info, .application) → info.clamps upscales = true →
    S ∈ s.clamped_samplers
  top_views : ∀ V top, s.top_views.lookup V = some top →
    0 < top ∧ ∃ role, s.host_views V = some (top, role)
  views : ∀ V top, s.host_views V = some (top, .application) → 0 < top → V ∈ s.top_views
  null : s.host_views 0 = none
  pairs : ∀ S V info top, S ∈ s.clamped_samplers → s.host_samplers S = some (info, .application) →
    V ∈ s.top_views → s.host_views V = some (top, .application) → s.pairs_possible = true

structure Sound (upscales : Bool) (st : State τ Lod) : Prop where
  owned : Mutex.Owned st.shared.lod_mutex (fun t => (st.own t).place) Place.inside
  kept : Kept upscales st.shared
  placed : ∀ t, Placed upscales st.shared t (st.own t).place
  cached : ∀ t i pair, (st.own t).cache i = some pair → Cached st pair

/-! ## What a step keeps of the maps -/

theorem Kept.setSampler (hk : Kept upscales s) {value : Option (SamplerInfo Lod × Role τ)}
    (hclamped : ∀ clamped, s.clamped_samplers.lookup S = some clamped →
      ∃ role, value = some (clamped.info, role) ∧ ∀ S' top, role ≠ .copy S' top)
    (hcopy : ∀ S' clamped top, s.clamped_samplers.lookup S' = some clamped →
      clamped.shifted.lookup top ≠ some S)
    (happlication : ∀ info, value = some (info, .application) → info.clamps upscales = true →
      S ∈ s.clamped_samplers)
    (hpairs : ∀ info V, value = some (info, .application) →
      S ∈ s.clamped_samplers → V ∈ s.top_views →
      s.pairs_possible = true) : Kept upscales (s.setSampler S value) where
  filter := hk.filter
  few := hk.few
  clamped S' clamped h := by
    refine ⟨(hk.clamped S' clamped h).1, ?_⟩
    by_cases hS : S' = S
    · subst hS
      obtain ⟨role, hvalue, hrole⟩ := hclamped clamped h
      exact ⟨role, setSampler_self.trans hvalue, hrole⟩
    · obtain ⟨role, hrole⟩ := (hk.clamped S' clamped h).2
      exact ⟨role, (setSampler_of_ne hS).trans hrole.1, hrole.2⟩
  copies S' clamped top copy h hshifted := by
    have hne : copy ≠ S := by
      rintro rfl
      exact hcopy S' clamped top h hshifted
    exact (setSampler_of_ne hne).trans (hk.copies S' clamped top copy h hshifted)
  samplers S' info h hclamps := by
    by_cases hS : S' = S
    · subst hS
      exact happlication info (setSampler_self.symm.trans h) hclamps
    · exact hk.samplers S' info ((setSampler_of_ne hS).symm.trans h) hclamps
  top_views := hk.top_views
  views := hk.views
  null := hk.null
  pairs S' V info top hmem h hV htop := by
    by_cases hS : S' = S
    · subst hS
      exact hpairs info V (setSampler_self.symm.trans h) hmem hV
    · exact hk.pairs S' V info top hmem ((setSampler_of_ne hS).symm.trans h) hV htop

theorem Kept.setView (hk : Kept upscales s) (hnull : V ≠ 0) {value : Option (Nat × Role τ)}
    (htop : ∀ top, s.top_views.lookup V = some top → ∃ role, value = some (top, role))
    (happlication : ∀ top, value = some (top, .application) → 0 < top → V ∈ s.top_views)
    (hpairs : ∀ top S, value = some (top, .application) → V ∈ s.top_views → S ∈ s.clamped_samplers →
      s.pairs_possible = true) : Kept upscales (s.setView V value) where
  filter := hk.filter
  few := hk.few
  clamped := hk.clamped
  copies := hk.copies
  samplers := hk.samplers
  top_views V' top h := by
    refine ⟨(hk.top_views V' top h).1, ?_⟩
    by_cases hV : V' = V
    · subst hV
      obtain ⟨role, hvalue⟩ := htop top h
      exact ⟨role, setView_self.trans hvalue⟩
    · obtain ⟨role, hrole⟩ := (hk.top_views V' top h).2
      exact ⟨role, (setView_of_ne hV).trans hrole⟩
  views V' top h hpos := by
    by_cases hV : V' = V
    · subst hV
      exact happlication top (setView_self.symm.trans h) hpos
    · exact hk.views V' top ((setView_of_ne hV).symm.trans h) hpos
  null := (setView_of_ne hnull.symm).trans hk.null
  pairs S V' info top hmem h hV' htop' := by
    by_cases hV : V' = V
    · subst hV
      exact hpairs top S (setView_self.symm.trans htop') hV' hmem
    · exact hk.pairs S V' info top hmem h hV' ((setView_of_ne hV).symm.trans htop')

theorem Kept.clamp (hk : Kept upscales s) (hinfo : s.host_samplers S = some (info, .call t))
    (hclamps : info.clamps upscales = true) (hS : S ∉ s.clamped_samplers)
    (hfew : s.clamped_samplers.keys.length + 1 < 65536) : Kept upscales (s.clamp S info) := by
  have hkeys : (s.clamped_samplers.insert S { info }).keys = S :: s.clamped_samplers.keys := by
    rw [AList.keys_insert, List.erase_of_not_mem hS]
  rw [clamp_new hS]
  constructor
  · rw [hkeys]
    exact hk.filter.add
  · rw [hkeys]
    exact hfew
  · intro S' clamped h
    by_cases hne : S' = S
    · subst hne
      rw [AList.lookup_insert] at h
      cases h
      exact ⟨hclamps, _, hinfo, nofun⟩
    · rw [AList.lookup_insert_ne hne] at h
      exact hk.clamped S' clamped h
  · intro S' clamped top copy h hshifted
    by_cases hne : S' = S
    · subst hne
      rw [AList.lookup_insert] at h
      cases h
      simp at hshifted
    · rw [AList.lookup_insert_ne hne] at h
      exact hk.copies S' clamped top copy h hshifted
  · intro S' info' h hclamps'
    exact AList.mem_insert _ |>.2 (.inr (hk.samplers S' info' h hclamps'))
  · exact hk.top_views
  · exact hk.views
  · exact hk.null
  · intro S' V info' top hmem h hV htop
    have hne : S' ≠ S := by
      rintro rfl
      rw [hinfo] at h
      cases h
    exact hk.pairs S' V info' top ((AList.mem_insert _).1 hmem |>.resolve_left hne) h hV htop

theorem Kept.unclamp (hk : Kept upscales s) (hinfo : s.host_samplers S = some (info, .call t))
    (hS : S ∈ s.clamped_samplers) : Kept upscales (s.unclamp S) := by
  have hperm : s.clamped_samplers.keys.Perm (S :: s.clamped_samplers.keys.erase S) :=
    List.perm_cons_erase hS
  have hlookup : ∀ S' clamped, (s.clamped_samplers.erase S).lookup S' = some clamped →
      S' ≠ S ∧ s.clamped_samplers.lookup S' = some clamped := by
    intro S' clamped h
    have hne : S' ≠ S := by
      rintro rfl
      rw [AList.lookup_erase] at h
      cases h
    exact ⟨hne, (AList.lookup_erase_ne hne).symm.trans h⟩
  constructor
  · change Counts _ _ _ (s.clamped_samplers.erase S).keys
    rw [AList.keys_erase]
    exact (hk.filter.perm hperm).remove (by decide)
  · change (s.clamped_samplers.erase S).keys.length < _
    rw [AList.keys_erase]
    have hlength := hperm.length_eq
    have hfew := hk.few
    rw [List.length_cons] at hlength
    omega
  · intro S' clamped h
    exact hk.clamped S' clamped (hlookup S' clamped h).2
  · intro S' clamped top copy h hshifted
    exact hk.copies S' clamped top copy (hlookup S' clamped h).2 hshifted
  · intro S' info' h hclamps
    have hne : S' ≠ S := by
      rintro rfl
      rw [show s.host_samplers S' = _ from h] at hinfo
      cases hinfo
    exact AList.mem_erase.2 ⟨hne, hk.samplers S' info' h hclamps⟩
  · exact hk.top_views
  · exact hk.views
  · exact hk.null
  · intro S' V info' top hmem h hV htop
    exact hk.pairs S' V info' top (AList.mem_erase.1 hmem).2 h hV htop

theorem Kept.insertView (hk : Kept upscales s) (htop : s.host_views V = some (top, .call t))
    (hpos : 0 < top) :
    Kept upscales { s with top_views := s.top_views.insert V top } where
  filter := hk.filter
  few := hk.few
  clamped := hk.clamped
  copies := hk.copies
  samplers := hk.samplers
  top_views V' top' h := by
    by_cases hne : V' = V
    · subst hne
      rw [AList.lookup_insert] at h
      cases h
      exact ⟨hpos, _, htop⟩
    · rw [AList.lookup_insert_ne hne] at h
      exact hk.top_views V' top' h
  views V' top' h hpos' := (AList.mem_insert _).2 (.inr (hk.views V' top' h hpos'))
  null := hk.null
  pairs S V' info top' hmem h hV htop' := by
    have hne : V' ≠ V := by
      rintro rfl
      rw [htop] at htop'
      cases htop'
    exact hk.pairs S V' info top' hmem h ((AList.mem_insert _).1 hV |>.resolve_left hne) htop'

theorem Kept.eraseView (hk : Kept upscales s) (htop : s.host_views V = some (top, .call t)) :
    Kept upscales { s with top_views := s.top_views.erase V } where
  filter := hk.filter
  few := hk.few
  clamped := hk.clamped
  copies := hk.copies
  samplers := hk.samplers
  top_views V' top' h := by
    have hne : V' ≠ V := by
      rintro rfl
      rw [AList.lookup_erase] at h
      cases h
    exact hk.top_views V' top' ((AList.lookup_erase_ne hne).symm.trans h)
  views V' top' h hpos := by
    have hne : V' ≠ V := by
      rintro rfl
      rw [htop] at h
      cases h
    exact AList.mem_erase.2 ⟨hne, hk.views V' top' h hpos⟩
  null := hk.null
  pairs S V' info top' hmem h hV htop' :=
    hk.pairs S V' info top' hmem h (AList.mem_erase.1 hV).2 htop'

theorem Kept.of_eq (hk : Kept upscales s) {generation : Nat} {lod_mutex : Option τ} :
    Kept upscales { s with g_lod_generation := generation, lod_mutex } :=
  ⟨hk.filter, hk.few, hk.clamped, hk.copies, hk.samplers, hk.top_views, hk.views, hk.null, hk.pairs⟩

theorem Kept.stored (hk : Kept upscales s) : Kept upscales s.stored where
  filter := hk.filter
  few := hk.few
  clamped := hk.clamped
  copies := hk.copies
  samplers := hk.samplers
  top_views := hk.top_views
  views := hk.views
  null := hk.null
  pairs _ _ _ _ hS _ hV _ := decide_eq_true ⟨entries_ne_nil hS, entries_ne_nil hV⟩

/-- The record of a clamped sampler grows by copies that the host has made of it. -/
theorem Kept.grow (hk : Kept upscales s) {clamped clamped' : ClampedSampler Lod}
    (h : s.clamped_samplers.lookup S = some clamped) (hinfo : clamped'.info = clamped.info)
    (hcopies : ∀ top copy, clamped'.shifted.lookup top = some copy →
      s.host_samplers copy = some (clamped.info.shift top, .copy S top)) :
    Kept upscales { s with clamped_samplers := s.clamped_samplers.insert S clamped' } := by
  have hS : S ∈ s.clamped_samplers := keys_lookup.2 ⟨clamped, h⟩
  have hperm : s.clamped_samplers.keys.Perm (S :: s.clamped_samplers.keys.erase S) :=
    List.perm_cons_erase hS
  have hmem : ∀ S', S' ∈ s.clamped_samplers.insert S clamped' ↔ S' ∈ s.clamped_samplers := by
    intro S'
    rw [AList.mem_insert]
    exact ⟨fun h => h.elim (fun h => h ▸ hS) id, .inr⟩
  constructor
  · change Counts _ _ _ (s.clamped_samplers.insert S clamped').keys
    rw [AList.keys_insert]
    exact hk.filter.perm hperm
  · change (s.clamped_samplers.insert S clamped').keys.length < _
    rw [AList.keys_insert, ← hperm.length_eq]
    exact hk.few
  · intro S' other hother
    by_cases hne : S' = S
    · subst hne
      rw [AList.lookup_insert] at hother
      cases hother
      rw [hinfo]
      exact hk.clamped S' clamped h
    · rw [AList.lookup_insert_ne hne] at hother
      exact hk.clamped S' other hother
  · intro S' other top copy hother hshifted
    by_cases hne : S' = S
    · subst hne
      rw [AList.lookup_insert] at hother
      cases hother
      rw [hinfo]
      exact hcopies top copy hshifted
    · rw [AList.lookup_insert_ne hne] at hother
      exact hk.copies S' other top copy hother hshifted
  · intro S' info hhost hclamps
    exact (hmem S').2 (hk.samplers S' info hhost hclamps)
  · exact hk.top_views
  · exact hk.views
  · exact hk.null
  · intro S' V info top hS' hhost hV htop
    exact hk.pairs S' V info top ((hmem S').1 hS') hhost hV htop

theorem Kept.not_clamped (hk : Kept upscales s) (h : s.host_samplers S = none) :
    S ∉ s.clamped_samplers := by
  intro hmem
  obtain ⟨clamped, hclamped⟩ := keys_lookup.1 hmem
  obtain ⟨-, role, hrole, -⟩ := hk.clamped S clamped hclamped
  rw [h] at hrole
  cases hrole

theorem Kept.not_topView (hk : Kept upscales s) (h : s.host_views V = none) : V ∉ s.top_views := by
  intro hmem
  obtain ⟨top, htop⟩ := keys_lookup.1 hmem
  obtain ⟨-, role, hrole⟩ := hk.top_views V top htop
  rw [h] at hrole
  cases hrole

/-- A handle that is no copy is no clamped sampler's copy. -/
theorem Kept.not_copy (hk : Kept upscales s)
    (h : ∀ made S' top, s.host_samplers S ≠ some (made, .copy S' top))
    (S' : Sampler) (clamped : ClampedSampler Lod) (top : Nat)
    (hc : s.clamped_samplers.lookup S' = some clamped) :
    clamped.shifted.lookup top ≠ some S :=
  fun hcopy => h _ _ _ (hk.copies S' clamped top S hc hcopy)

theorem Kept.view_ne (hk : Kept upscales s) {value : Nat × Role τ}
    (h : s.host_views V = some value) : V ≠ 0 := by
  rintro rfl
  rw [hk.null] at h
  cases h

/-- While `pairs_possible` is false, samplers and views of the application are their own answers. -/
theorem Kept.unpaired (hk : Kept upscales s) (h : s.pairs_possible = false)
    (hu : Usable s S V) : Good s S V S := by
  by_cases hS : S ∈ s.clamped_samplers
  · by_cases hV : V ∈ s.top_views
    · obtain ⟨⟨info, hinfo⟩, hview⟩ := hu
      obtain rfl | ⟨top, htop⟩ := hview
      · obtain ⟨top, htop⟩ := keys_lookup.1 hV
        obtain ⟨-, role, hrole⟩ := hk.top_views 0 top htop
        rw [hk.null] at hrole
        cases hrole
      · have htrue := hk.pairs S V info top hS hinfo hV htop
        rw [h] at htrue
        cases htrue
    · exact good_untopped hV
  · exact good_unclamped hS

/-- The copies of a clamped sampler are live, each once. -/
theorem Kept.copies_of (hk : Kept upscales s) {clamped : ClampedSampler Lod}
    (h : s.clamped_samplers.lookup S = some clamped) :
    (clamped.shifted.entries.map Sigma.snd).Nodup ∧
      ∀ copy ∈ clamped.shifted.entries.map Sigma.snd, ∃ info top,
        s.host_samplers copy = some (info, .copy S top) := by
  have hentry : ∀ e ∈ clamped.shifted.entries,
      s.host_samplers e.2 = some (clamped.info.shift e.1, .copy S e.1) :=
    fun e he => hk.copies S clamped e.1 e.2 h (AList.mem_lookup_iff.2 he)
  constructor
  · refine List.Nodup.map_on (fun e he e' he' heq => ?_) clamped.shifted.nodupKeys.nodup
    have hsame := (hentry e he).symm.trans ((congrArg _ heq).trans (hentry e' he'))
    obtain ⟨top, copy⟩ := e
    obtain ⟨top', copy'⟩ := e'
    simp only [Option.some.injEq, Prod.mk.injEq, Role.copy.injEq, true_and] at hsame heq
    rw [hsame.2, heq]
  · intro copy hcopy
    obtain ⟨e, he, rfl⟩ := List.mem_map.1 hcopy
    exact ⟨_, _, hentry e he⟩

/-- What the lookup of a shifted copy does to the maps: nothing, or one more copy or refusal. -/
theorem emplace_spec (hk : Kept upscales s) {clamped : ClampedSampler Lod}
    (h : s.clamped_samplers.lookup S = some clamped) (hnone : clamped.shifted.lookup top = none)
    {created : Option Sampler} (hfresh : ∀ copy, created = some copy → s.FreshSampler copy) :
    Kept upscales (s.emplace S clamped top created) ∧
      (∀ used, Spares t used s (s.emplace S clamped top created)) ∧
      (∀ S' V r, Good s S' V r → Good (s.emplace S clamped top created) S' V r) ∧
      (s.top_views.lookup V = some top →
        Good (s.emplace S clamped top created) S V (created.getD S)) ∧
      (s.emplace S clamped top created).g_lod_generation = s.g_lod_generation ∧
      (s.emplace S clamped top created).lod_mutex = s.lod_mutex := by
  have hkeep : ∀ copy top' copy', clamped.shifted.lookup top' = some copy' →
      (clamped.shifted.insert top copy).lookup top' = some copy' := by
    intro copy top' copy' hcopy'
    have hne : top' ≠ top := by
      rintro rfl
      rw [hnone] at hcopy'
      cases hcopy'
    rw [AList.lookup_insert_ne hne, hcopy']
  cases created with
  | none =>
    refine ⟨?_, ?_, ?_, ?_, rfl, rfl⟩
    · exact hk.grow h rfl fun top' copy hcopy => hk.copies S clamped top' copy h hcopy
    · exact fun used => Spares.grow h (fun _ _ h => h) fun _ h => List.mem_cons_of_mem _ h
    · exact fun S' V r hgood => hgood.grow h (fun _ _ h => h) fun _ h => List.mem_cons_of_mem _ h
    · intro hview
      unfold Good Shared.emplace
      dsimp only
      rw [AList.lookup_insert, hview]
      exact .inr ⟨rfl, List.mem_cons_self⟩
  | some copy =>
    obtain ⟨-, hnew⟩ := hfresh copy rfl
    have hout : copy ∉ s.clamped_samplers := by
      intro hmem
      obtain ⟨other, hother⟩ := keys_lookup.1 hmem
      obtain ⟨-, role, hrole, -⟩ := hk.clamped copy other hother
      rw [hnew] at hrole
      cases hrole
    have hk' : Kept upscales (s.setSampler copy (some (clamped.info.shift top, .copy S top))) := by
      refine hk.setSampler ?_ ?_ (fun _ h => by cases h) (fun _ _ h => by cases h)
      · intro other hother
        exact absurd (keys_lookup.2 ⟨other, hother⟩) hout
      · intro S' other top' hother hcopy
        have hmade := hk.copies S' other top' copy hother hcopy
        rw [hnew] at hmade
        cases hmade
    refine ⟨?_, ?_, ?_, ?_, rfl, rfl⟩
    · refine hk'.grow h rfl fun top' copy' hcopy' => ?_
      by_cases htop : top' = top
      · subst htop
        rw [AList.lookup_insert] at hcopy'
        cases hcopy'
        exact setSampler_self
      · rw [AList.lookup_insert_ne htop] at hcopy'
        exact hk'.copies S clamped top' copy' h hcopy'
    · exact fun used =>
        (Spares.setSampler (.inl hnew) _).trans (Spares.grow h (hkeep copy) fun _ h => h)
    · intro S' V r hgood
      exact Good.grow (s := s.setSampler copy _) hgood h (hkeep copy) fun _ h => h
    · intro hview
      unfold Good Shared.emplace
      dsimp only
      rw [AList.lookup_insert, show (s.setSampler copy _).top_views.lookup V = some top from hview]
      exact .inl (AList.lookup_insert ..)

/-- A hit of the cache is right for what the application has. -/
theorem Sound.hit (hs : Sound upscales st) {pair : Pair} (hpair : Cached st pair)
    (hnow : pair.generation = st.shared.g_lod_generation)
    (hu : Usable st.shared pair.sampler pair.view) :
    Good st.shared pair.sampler pair.view pair.result := by
  obtain hgood | ⟨u, after, hplace, htouches⟩ := hpair.2 hnow
  · exact hgood
  have hlater : Later st.shared u after := by
    have hplaced := hs.placed u
    rw [hplace] at hplaced
    exact hplaced
  obtain ⟨⟨info, hinfo⟩, hview⟩ := hu
  exfalso
  cases after with
  | sampler S =>
    obtain ⟨⟨info', hinfo'⟩, -⟩ := hlater
    rw [show S = pair.sampler from htouches, hinfo] at hinfo'
    cases hinfo'
  | free S copies =>
    obtain ⟨⟨info', hinfo'⟩, -⟩ := hlater
    rw [show S = pair.sampler from htouches, hinfo] at hinfo'
    cases hinfo'
  | view V =>
    obtain ⟨⟨top, htop⟩, -⟩ := hlater
    rw [show V = pair.view from htouches] at htop
    obtain hzero | ⟨top', htop'⟩ := hview
    · exact hs.kept.view_ne htop hzero
    · rw [htop'] at htop
      cases htop
  | freeView V =>
    obtain ⟨⟨top, htop⟩, -⟩ := hlater
    rw [show V = pair.view from htouches] at htop
    obtain hzero | ⟨top', htop'⟩ := hview
    · exact hs.kept.view_ne htop hzero
    · rw [htop'] at htop
      cases htop

theorem mutex_none {m : Option τ} (h : ¬m.isSome = true) : m = none := by
  cases m with
  | none => rfl
  | some t => exact absurd rfl h

theorem initial_sound : Sound upscales (⟨{}, fun _ => {}⟩ : State τ Lod) where
  owned t := ⟨fun h => (Bool.false_ne_true h).elim, fun h => by cases h⟩
  kept := {
    filter := counts_nil
    few := Nat.zero_lt_succ 65535
    clamped := fun _ _ h => by cases h
    copies := fun _ _ _ _ h => by cases h
    samplers := fun _ _ h => by cases h
    top_views := fun _ _ h => by cases h
    views := fun _ _ h => by cases h
    null := rfl
    pairs := fun _ _ _ _ h => absurd h (AList.notMem_empty _) }
  placed _ := trivial
  cached _ _ _ h := by cases h

/-- What an update is to be given for a sampler and a view: for a sampler with clamps and a view
with top levels, a live copy of that sampler, shifted for that view, unless the host made none; else
the sampler itself. -/
def Answers (upscales : Bool) (s : Shared τ Lod) (S : Sampler) (V : View) (r : Sampler) : Prop :=
  ∃ info, s.host_samplers S = some (info, .application) ∧
    ((∃ top, info.clamps upscales = true ∧ 0 < top ∧ s.host_views V = some (top, .application) ∧
        (s.host_samplers r = some (info.shift top, .copy S top) ∨
          (r = S ∧ ∃ clamped, s.clamped_samplers.lookup S = some clamped ∧
            top ∈ clamped.refused))) ∨
      (r = S ∧
        (info.clamps upscales = true → ∀ top, s.host_views V = some (top, .application) → top = 0)))

theorem Kept.answers (hk : Kept upscales s) (hu : Usable s S V) (hgood : Good s S V r) :
    Answers upscales s S V r := by
  obtain ⟨⟨info, hinfo⟩, hview⟩ := hu
  refine ⟨info, hinfo, ?_⟩
  unfold Good at hgood
  split at hgood
  · rename_i clamped top hS hV
    obtain ⟨hclamps, role, hrole, -⟩ := hk.clamped S clamped hS
    obtain ⟨hpos, role', hrole'⟩ := hk.top_views V top hV
    rw [hinfo] at hrole
    obtain ⟨rfl, -⟩ := Prod.mk.inj (Option.some.inj hrole)
    obtain ⟨top', htop'⟩ := hview.resolve_left (hk.view_ne hrole')
    rw [htop'] at hrole'
    obtain ⟨rfl, -⟩ := Prod.mk.inj (Option.some.inj hrole')
    refine .inl ⟨top', hclamps, hpos, htop', hgood.imp (hk.copies S clamped top' r hS) fun h =>
      ⟨h.1, clamped, hS, h.2⟩⟩
  · rename_i hnone
    refine .inr ⟨hgood, fun hclamps top htop => ?_⟩
    by_contra hne
    obtain ⟨clamped, hS⟩ := keys_lookup.1 (hk.samplers S info hinfo hclamps)
    obtain ⟨top', hV⟩ := keys_lookup.1 (hk.views V top htop (Nat.pos_of_ne_zero hne))
    exact hnone clamped top' hS hV

/-! ## One step -/

variable [DecidableEq τ]

/-- The pairs of the updates of the other threads. -/
def Others (st : State τ Lod) (t : τ) (S : Sampler) (V : View) : Prop :=
  ∃ u, u ≠ t ∧ (S, V) ∈ (st.own u).place.uses

theorem Sound.next (hs : Sound upscales st)
    (howned : Mutex.Owned s'.lod_mutex
      (Function.update (fun u => (st.own u).place) t x'.place) Place.inside)
    (hkept : Kept upscales s') (hspares : Spares t (Others st t) st.shared s')
    (hplaced : Placed upscales s' t x'.place)
    (hcached : ∀ u i pair, ((st.set t s' x').own u).cache i = some pair →
      Cached (st.set t s' x') pair) :
    Sound upscales (st.set t s' x') where
  owned := by
    have hplaces : (fun u => ((st.set t s' x').own u).place) = Function.update
        (fun u => (st.own u).place) t x'.place := by
      funext u
      by_cases hu : u = t
      · subst hu
        simp
      · rw [System.set_own_of_ne hu, Function.update_of_ne hu]
    rw [hplaces]
    exact howned
  kept := hkept
  placed := by
    refine (System.forall_set (P := fun u (x : Local Lod) => Placed upscales s' u x.place)).2
      ⟨hplaced, fun u hu => ?_⟩
    exact hspares.placed hu (fun pair hpair => ⟨u, hu, hpair⟩) (hs.placed u)
  cached := hcached

theorem cached_set (hold : ∀ pair, Cached st pair → Cached (st.set t s' x') pair)
    (hs : Sound upscales st)
    (hnew : ∀ i pair, x'.cache i = some pair → (st.own t).cache i = some pair ∨
      Cached (st.set t s' x') pair) :
    ∀ u i pair, ((st.set t s' x').own u).cache i = some pair → Cached (st.set t s' x') pair := by
  refine (System.forall_set (P := fun _ (x : Local Lod) => ∀ i pair, x.cache i = some pair →
    Cached (st.set t s' x') pair)).2 ⟨fun i pair hpair => ?_, fun u _ i pair hpair =>
      hold pair (hs.cached u i pair hpair)⟩
  exact (hnew i pair hpair).elim (fun h => hold pair (hs.cached t i pair h)) id

/-- Entries stay right while answers only grow, and a new one is right when it is made. -/
theorem Sound.cached_grow (hs : Sound upscales st)
    (hgood : ∀ S V r, Good st.shared S V r → Good s' S V r)
    (hgeneration : s'.g_lod_generation = st.shared.g_lod_generation)
    (ht : ∀ after, (st.own t).place ≠ .bump after)
    (hnew : ∀ i pair, x'.cache i = some pair → (st.own t).cache i = some pair ∨
      (pair.generation ≤ st.shared.g_lod_generation ∧ Good s' pair.sampler pair.view pair.result)) :
    ∀ u i pair, ((st.set t s' x').own u).cache i = some pair → Cached (st.set t s' x') pair := by
  refine cached_set ?_ hs fun i pair hpair => (hnew i pair hpair).imp id fun h =>
    ⟨h.1.trans_eq hgeneration.symm, fun _ => .inl h.2⟩
  rintro pair ⟨hle, hright⟩
  refine ⟨hle.trans_eq hgeneration.symm, fun hnow => ?_⟩
  exact (hright (hnow.trans hgeneration)).imp (hgood _ _ _) fun h => h.other ht

/-- Entries about what is changed are marked until the generation is raised. -/
theorem Sound.cached_change (hs : Sound upscales st) (after : After)
    (hgood : ∀ S V r, Good st.shared S V r → Good s' S V r ∨ after.touches S V)
    (hgeneration : s'.g_lod_generation = st.shared.g_lod_generation)
    (ht : ∀ after, (st.own t).place ≠ .bump after)
    (hplace : x'.place = .bump after) (hcache : x'.cache = (st.own t).cache) :
    ∀ u i pair, ((st.set t s' x').own u).cache i = some pair → Cached (st.set t s' x') pair := by
  refine cached_set ?_ hs fun i pair hpair => .inl (by rwa [hcache] at hpair)
  rintro pair ⟨hle, hright⟩
  refine ⟨hle.trans_eq hgeneration.symm, fun hnow => ?_⟩
  obtain hright | hchanging := hright (hnow.trans hgeneration)
  · refine (hgood _ _ _ hright).imp id fun htouches => ⟨t, after, ?_, htouches⟩
    rw [System.set_own_self, hplace]
  · exact .inr (hchanging.other ht)

/-- No entry is of a generation just begun. -/
theorem Sound.cached_bump (hs : Sound upscales st)
    (hgeneration : s'.g_lod_generation = st.shared.g_lod_generation + 1)
    (hcache : x'.cache = (st.own t).cache) :
    ∀ u i pair, ((st.set t s' x').own u).cache i = some pair → Cached (st.set t s' x') pair := by
  refine cached_set ?_ hs fun i pair hpair => .inl (by rwa [hcache] at hpair)
  rintro pair ⟨hle, -⟩
  have hlt : pair.generation < (st.set t s' x').shared.g_lod_generation := by
    rw [System.set_shared, hgeneration]
    omega
  exact ⟨hlt.le, fun hnow => absurd hnow hlt.ne⟩

variable {place' : Place Lod} {noting : Bool} {created : Option Sampler}

/-- A step that only the thread itself sees. -/
theorem Sound.stay (hs : Sound upscales st) (hplaced : Placed upscales st.shared t place')
    (hout : (st.own t).place.inside = false) (hout' : place'.inside = false)
    {cache : Nat → Option Pair}
    (hnew : ∀ i pair, cache i = some pair → (st.own t).cache i = some pair ∨
      (pair.generation ≤ st.shared.g_lod_generation ∧
        Good st.shared pair.sampler pair.view pair.result)) :
    Sound upscales (st.set t st.shared ⟨place', cache⟩) := by
  refine hs.next (hs.owned.move (hout'.trans hout.symm)) hs.kept (.refl _) hplaced
    (hs.cached_grow (fun _ _ _ h => h) rfl ?_ hnew)
  rintro after hafter
  rw [hafter] at hout
  cases hout

/-- A change of the host's handles outside the section. -/
theorem Sound.outside (hs : Sound upscales st) (hkept : Kept upscales s')
    (hspares : Spares t (Others st t) st.shared s')
    (hplaced : Placed upscales s' t place') (hout : (st.own t).place.inside = false)
    (hout' : place'.inside = false)
    (hmutex : s'.lod_mutex = st.shared.lod_mutex)
    (hgeneration : s'.g_lod_generation = st.shared.g_lod_generation)
    (hgood : ∀ S V r, Good st.shared S V r → Good s' S V r) :
    Sound upscales (st.set t s' ⟨place', (st.own t).cache⟩) := by
  refine hs.next ?_ hkept hspares hplaced (hs.cached_grow hgood hgeneration ?_ fun _ _ h => .inl h)
  · rw [hmutex]
    exact hs.owned.move (hout'.trans hout.symm)
  · rintro after hafter
    rw [hafter] at hout
    cases hout

/-- The section is entered, with a change of a map that is about one handle. -/
theorem Sound.enter (hs : Sound upscales st) (s' : Shared τ Lod) {after : After}
    (hnone : st.shared.lod_mutex = none)
    (hkept : Kept upscales s') (hspares : Spares t (Others st t) st.shared s')
    (hplaced : Later s' t after)
    (hgeneration : s'.g_lod_generation = st.shared.g_lod_generation)
    (hgood : ∀ S V r, Good st.shared S V r → Good s' S V r ∨ after.touches S V) :
    Sound upscales (st.set t { s' with lod_mutex := some t } ⟨.bump after, (st.own t).cache⟩) := by
  have hout := hs.owned.outside hnone t
  refine hs.next (hs.owned.acquire hnone rfl) hkept.of_eq (hspares.of_eq (Nat.le_refl _)) ?_
    (hs.cached_change after hgood hgeneration ?_ rfl rfl)
  · cases after <;> exact hplaced
  · rintro after hafter
    rw [hafter] at hout
    cases hout

theorem begin_sound {call : Act Lod} (hs : Sound upscales st) (ha : Allowed st (t, call))
    (hidle : (st.own t).place = .idle) (h : begin upscales t st.shared call = some (s', place')) :
    Sound upscales (st.set t s' ⟨place', (st.own t).cache⟩) := by
  have hk := hs.kept
  have hout : (st.own t).place.inside = false := by rw [hidle]; rfl
  cases call with
  | createSampler info sampler =>
    obtain ⟨-, hnew⟩ := ha
    have hclamped := hk.not_clamped hnew
    have hcopy := hk.not_copy (S := sampler) (fun _ _ _ h => by rw [hnew] at h; cases h)
    simp only [begin] at h
    split at h
    · rename_i hclamps
      cases h
      refine hs.outside ?_ (.setSampler (.inl hnew) _) ⟨setSampler_self, hclamps,
        hclamped⟩ hout rfl rfl rfl fun _ _ _ h => h
      refine hk.setSampler ?_ hcopy (fun _ h => by cases h) fun _ _ h => by cases h
      exact fun clamped h => absurd (keys_lookup.2 ⟨clamped, h⟩) hclamped
    · rename_i hclamps
      cases h
      refine hs.outside ?_ (.setSampler (.inl hnew) _) trivial hout rfl rfl rfl fun _ _ _ h => h
      refine hk.setSampler ?_ hcopy ?_ fun _ _ _ h => absurd h hclamped
      · exact fun clamped h => absurd (keys_lookup.2 ⟨clamped, h⟩) hclamped
      · intro info' hinfo hclamps'
        cases hinfo
        exact absurd hclamps' hclamps
  | createImageView view baseMipLevel top =>
    obtain ⟨hnull, hnew⟩ := ha
    have hview := hk.not_topView hnew
    have hspares : ∀ value, Spares t (Others st t) st.shared (st.shared.setView view value) :=
      fun value =>
      .setView hnull (.inl hnew) (fun u top _ h => by rw [hnew] at h; cases h) value
    simp only [begin] at h
    split at h
    · rename_i htop
      cases h
      refine hs.outside ?_ (hspares _) ⟨setView_self, htop.1,
        hview⟩ hout rfl rfl rfl fun _ _ _ h => h
      refine hk.setView hnull ?_ (fun _ h => by cases h) fun _ _ h => by cases h
      exact fun top h => absurd (keys_lookup.2 ⟨top, h⟩) hview
    · cases h
      refine hs.outside ?_ (hspares _) trivial hout rfl rfl rfl fun _ _ _ h => h
      refine hk.setView hnull ?_ ?_ fun _ _ _ h => absurd h hview
      · exact fun top h => absurd (keys_lookup.2 ⟨top, h⟩) hview
      · intro top' htop' hpos
        cases htop'
        exact absurd hpos (Nat.lt_irrefl 0)
  | destroySampler sampler =>
    obtain ⟨⟨info, hinfo⟩, hunused⟩ := ha
    cases h
    rw [passSampler_eq hinfo]
    refine hs.outside ?_ (.setSampler (.inr (.inr (.inl ⟨?_, info, hinfo⟩))) _)
      ⟨info, setSampler_self⟩ hout rfl rfl rfl
      fun _ _ _ h => h
    · refine hk.setSampler ?_ ?_ (fun _ h => by cases h) fun _ _ h => by cases h
      · intro clamped hclamped
        obtain ⟨-, role, hrole, -⟩ := hk.clamped sampler clamped hclamped
        rw [hinfo] at hrole
        cases hrole
        exact ⟨_, rfl, fun _ _ h => by cases h⟩
      · exact hk.not_copy fun _ _ _ h => by rw [hinfo] at h; cases h
    · rintro V ⟨u, -, hused⟩
      exact hunused u _ hused rfl
  | destroyImageView view =>
    obtain ⟨⟨top, htop⟩, hunused⟩ := ha
    have hnull := hk.view_ne htop
    cases h
    rw [passView_eq htop]
    refine hs.outside ?_ (.setView hnull (.inr (.inr ?_)) ?_ _)
      ⟨top, setView_self⟩ hout rfl rfl rfl fun _ _ _ h => h
    · refine hk.setView hnull ?_ (fun _ h => by cases h) fun _ _ h => by cases h
      intro top' h
      obtain ⟨-, role, hrole⟩ := hk.top_views view top' h
      rw [htop] at hrole
      cases hrole
      exact ⟨_, rfl⟩
    · rintro S ⟨u, -, hused⟩
      exact hunused u _ hused rfl
    · intro u top' _ h
      rw [htop] at h
      cases h
  | update pairs =>
    cases h
    have hpairs : Placed upscales st.shared t (.asking pairs) := ha
    exact hs.stay hpairs hout rfl fun _ _ h => .inl h
  | step noting created => cases h

theorem finish_sound (hs : Sound upscales st) {after : After}
    (hplace : (st.own t).place = .store after) :
    Sound upscales
      (st.set t (finish st.shared after).1 ⟨(finish st.shared after).2, (st.own t).cache⟩) := by
  have hlater : Later st.shared t after := by
    have hplaced := hs.placed t
    rw [hplace] at hplaced
    exact hplaced
  have hinside : (st.own t).place.inside = true := by rw [hplace]; rfl
  have hbump : ∀ after, (st.own t).place ≠ .bump after := by
    intro after h
    rw [hplace] at h
    cases h
  have hk := hs.kept.stored
  have hspares : Spares t (Others st t) st.shared st.shared.stored :=
    (Spares.refl _).of_eq (Nat.le_refl _)
  cases after with
  | sampler S =>
    obtain ⟨⟨info, hinfo⟩, hmem⟩ := hlater
    replace hinfo : st.shared.stored.host_samplers S = some (info, .call t) := hinfo
    rw [finish, passSampler_eq hinfo]
    refine hs.next (hs.owned.release hinside rfl) ?_
      (hspares.trans (.setSampler (.inr (.inl ⟨info, hinfo⟩)) _)) trivial
      (hs.cached_grow (fun _ _ _ h => h) rfl hbump fun _ _ h => .inl h)
    refine hk.setSampler ?_ (hk.not_copy fun _ _ _ h => ?_) (fun _ _ _ => hmem) ?_
    · intro clamped hclamped
      obtain ⟨-, role, hrole, -⟩ := hk.clamped S clamped hclamped
      rw [hrole] at hinfo
      cases hinfo
      exact ⟨_, rfl, fun _ _ h => by cases h⟩
    · rw [h] at hinfo
      cases hinfo
    · exact fun _ V _ hS hV => decide_eq_true ⟨entries_ne_nil hS, entries_ne_nil hV⟩
  | view V =>
    obtain ⟨⟨top, htop⟩, hmem⟩ := hlater
    replace htop : st.shared.stored.host_views V = some (top, .call t) := htop
    have hnull := hk.view_ne htop
    rw [finish, passView_eq htop]
    refine hs.next (hs.owned.release hinside rfl) ?_
      (hspares.trans (.setView hnull (.inr (.inl ⟨top, htop⟩)) ?_ _)) trivial
      (hs.cached_grow (fun _ _ _ h => h) rfl hbump fun _ _ h => .inl h)
    · refine hk.setView hnull ?_ (fun _ _ _ => hmem) ?_
      · intro top' h
        obtain ⟨-, role, hrole⟩ := hk.top_views V top' h
        rw [hrole] at htop
        cases htop
        exact ⟨_, rfl⟩
      · exact fun _ S _ hV hS => decide_eq_true ⟨entries_ne_nil hS, entries_ne_nil hV⟩
    · intro u top' hu h
      rw [h] at htop
      cases htop
      exact hu rfl
  | free S copies =>
    exact hs.next (hs.owned.release hinside rfl) hk hspares hlater
      (hs.cached_grow (fun _ _ _ h => h) rfl hbump fun _ _ h => .inl h)
  | freeView V =>
    exact hs.next (hs.owned.release hinside rfl) hk hspares hlater
      (hs.cached_grow (fun _ _ _ h => h) rfl hbump fun _ _ h => .inl h)

theorem free_sound (hs : Sound upscales st) {copies : List Sampler}
    (hplace : (st.own t).place = .free S copies)
    (h : proceed t st.shared (st.own t).cache noting created (.free S copies) = some (s', place')) :
    Sound upscales (st.set t s' ⟨place', (st.own t).cache⟩) := by
  have hk := hs.kept
  have hout : (st.own t).place.inside = false := by rw [hplace]; rfl
  have hfreeing : Freeing st.shared t S copies := by
    have hplaced := hs.placed t
    rw [hplace] at hplaced
    exact hplaced
  obtain ⟨⟨info, hinfo⟩, hclamped, hnodup, hcopies⟩ := hfreeing
  cases copies with
  | nil =>
    cases h
    refine hs.outside ?_ (.setSampler (.inr (.inl ⟨info, hinfo⟩)) _) trivial hout rfl
      rfl rfl fun _ _ _ h => h
    refine hk.setSampler ?_ ?_ (fun _ h => by cases h) fun _ _ h => by cases h
    · exact fun clamped h => absurd (keys_lookup.2 ⟨clamped, h⟩) hclamped
    · exact hk.not_copy fun _ _ _ h => by rw [hinfo] at h; cases h
  | cons copy copies =>
    cases h
    obtain ⟨made, top, hmade⟩ := hcopies copy List.mem_cons_self
    have hne : S ≠ copy := by
      rintro rfl
      rw [hinfo] at hmade
      cases hmade
    have hout' : copy ∉ st.shared.clamped_samplers := by
      intro hmem
      obtain ⟨clamped, h⟩ := keys_lookup.1 hmem
      obtain ⟨-, role, hrole, hnone⟩ := hk.clamped copy clamped h
      rw [hmade] at hrole
      cases hrole
      exact hnone _ _ rfl
    refine hs.outside ?_ (.setSampler (.inr (.inr (.inr ⟨made, S, top, info, hmade, hinfo⟩))) _)
      ⟨⟨info, (setSampler_of_ne hne).trans hinfo⟩, hclamped,
        (List.nodup_cons.1 hnodup).2, ?_⟩ hout rfl rfl rfl
      fun _ _ _ h => h
    · refine hk.setSampler ?_ ?_ (fun _ h => by cases h) fun _ _ h => by cases h
      · exact fun clamped h => absurd (keys_lookup.2 ⟨clamped, h⟩) hout'
      · intro S' clamped top' h hcopy
        have hmade' := hk.copies S' clamped top' copy h hcopy
        rw [hmade] at hmade'
        cases hmade'
        exact hclamped (keys_lookup.2 ⟨clamped, h⟩)
    · intro other hother
      obtain ⟨made', top', hmade'⟩ := hcopies other (List.mem_cons_of_mem _ hother)
      have hne' : other ≠ copy := by
        rintro rfl
        exact (List.nodup_cons.1 hnodup).1 hother
      exact ⟨made', top', (setSampler_of_ne hne').trans hmade'⟩

theorem creating_sound (hs : Sound upscales st) (ha : Allowed st (t, .step noting created))
    (hplace : (st.own t).place = .creating S info) (hnone : st.shared.lod_mutex = none) :
    Sound upscales
      (st.set t { st.shared.clamp S info with lod_mutex := some t } ⟨.bump (.sampler S),
        (st.own t).cache⟩) := by
  have hplaced := hs.placed t
  rw [hplace] at hplaced
  obtain ⟨hinfo, hclamps, hS⟩ := hplaced
  have hother : ∀ S', S' ≠ S →
      (st.shared.clamp S info).clamped_samplers.lookup S' =
        st.shared.clamped_samplers.lookup S' := by
    intro S' hne
    rw [clamp_new hS]
    exact AList.lookup_insert_ne hne
  have hmem : S ∈ (st.shared.clamp S info).clamped_samplers := by
    rw [clamp_new hS]
    exact (AList.mem_insert _).2 (.inl rfl)
  have hsame : (st.shared.clamp S info).top_views = st.shared.top_views ∧
      (st.shared.clamp S info).host_samplers = st.shared.host_samplers ∧
      (st.shared.clamp S info).host_views = st.shared.host_views ∧
      (st.shared.clamp S info).g_lod_generation = st.shared.g_lod_generation := by
    rw [clamp_new hS]
    exact ⟨rfl, rfl, rfl, rfl⟩
  obtain ⟨hviews, hsamplers, hhostViews, hgeneration⟩ := hsame
  refine hs.enter _ hnone (hs.kept.clamp hinfo hclamps hS ha.2)
    (.clamped hinfo hother hviews hsamplers hhostViews hgeneration)
      ⟨⟨info, by rwa [hsamplers]⟩, hmem⟩ hgeneration ?_
  intro S' V r hgood
  by_cases hne : S' = S
  · exact .inr hne.symm
  · left
    unfold Good at *
    rwa [hother S' hne, hviews]

theorem destroying_sound (hs : Sound upscales st) (hplace : (st.own t).place = .destroying S)
    (hnone : st.shared.lod_mutex = none) {clamped : ClampedSampler Lod}
    (h : st.shared.clamped_samplers.lookup S = some clamped) :
    Sound upscales (st.set t { st.shared.unclamp S with lod_mutex := some t }
      ⟨.bump (.free S (clamped.shifted.entries.map Sigma.snd)), (st.own t).cache⟩) := by
  have hplaced := hs.placed t
  rw [hplace] at hplaced
  obtain ⟨info, hinfo⟩ := hplaced
  obtain ⟨hnodup, hcopies⟩ := hs.kept.copies_of h
  have hother : ∀ S', S' ≠ S →
      (st.shared.unclamp S).clamped_samplers.lookup S' = st.shared.clamped_samplers.lookup S' :=
    fun S' hne => AList.lookup_erase_ne hne
  refine hs.enter _ hnone (hs.kept.unclamp hinfo (keys_lookup.2 ⟨clamped, h⟩))
    (.clamped hinfo hother rfl rfl rfl rfl) ⟨⟨info, hinfo⟩, ?_, hnodup, hcopies⟩ rfl ?_
  · exact fun hmem => (AList.mem_erase.1 hmem).1 rfl
  · intro S' V r hgood
    by_cases hne : S' = S
    · exact .inr hne.symm
    · left
      unfold Good at *
      rwa [hother S' hne]

theorem viewing_sound (hs : Sound upscales st) {top_views : AList fun _ : View => Nat}
    {after : After}
    (htop : st.shared.host_views V = some (top, .call t)) (hnone : st.shared.lod_mutex = none)
    (hkept : Kept upscales { st.shared with top_views })
    (hplaced : Later { st.shared with top_views } t after)
    (hother : ∀ V', V' ≠ V → top_views.lookup V' = st.shared.top_views.lookup V')
    (htouches : ∀ S, after.touches S V) :
    Sound upscales
      (st.set t { st.shared with top_views, lod_mutex := some t }
        ⟨.bump after, (st.own t).cache⟩) := by
  refine hs.enter { st.shared with top_views } hnone hkept
    (.topViews htop (hs.kept.view_ne htop) hother rfl rfl rfl rfl) hplaced rfl ?_
  intro S V' r hgood
  by_cases hne : V' = V
  · subst hne
    exact .inr (htouches S)
  · left
    unfold Good at *
    dsimp only
    rwa [hother V' hne]

theorem make_sound (hs : Sound upscales st) (ha : Allowed st (t, .step noting created))
    (hplaced : Placed upscales st.shared t (.making writes generation top))
    (hout : (st.own t).place.inside = false) :
    Sound upscales (st.set t (make st.shared writes generation top created).1
      ⟨(make st.shared writes generation top created).2, (st.own t).cache⟩) := by
  obtain ⟨hready, hle, hV⟩ := hplaced
  have hstay : ∀ r, Good st.shared writes.sampler writes.view r →
      Sound upscales (st.set t st.shared ⟨.caching writes generation r, (st.own t).cache⟩) := by
    intro r hgood
    have hcaching : Placed upscales st.shared t (.caching writes generation r) :=
      ⟨hready, hle, hgood⟩
    exact hs.stay hcaching hout rfl fun _ _ h => .inl h
  unfold make
  split
  · rename_i hS
    exact hstay _ (good_unclamped (AList.lookup_eq_none.1 hS))
  · rename_i clamped hS
    split
    · rename_i copy hcopy
      exact hstay _ (good_of_lookup hS hV hcopy)
    · rename_i hnone
      obtain ⟨hkept, hspares, hgrow, hgood, hgeneration, hmutex⟩ := emplace_spec (t := t)
        (V := writes.view) hs.kept hS hnone ha.1
      have hready' : Ready (st.shared.emplace writes.sampler clamped top created) writes :=
        (hspares fun _ _ => True).ready (fun _ _ => trivial) hready
      exact hs.outside hkept (hspares _) ⟨hready', hle.trans_eq hgeneration.symm,
        hgood hV⟩ hout rfl hmutex hgeneration hgrow

theorem creatingView_sound (hs : Sound upscales st)
    (hplace : (st.own t).place = .creatingView V top)
    (h : proceed t st.shared (st.own t).cache noting created
      (.creatingView V top) = some (s', place')) :
    Sound upscales (st.set t s' ⟨place', (st.own t).cache⟩) := by
  have hplaced := hs.placed t
  rw [hplace] at hplaced
  obtain ⟨htop, hpos, hV⟩ := hplaced
  simp only [proceed] at h
  split at h
  · cases h
  · rename_i hnone
    cases h
    exact viewing_sound hs htop (mutex_none hnone) (hs.kept.insertView htop hpos)
      ⟨⟨top, htop⟩, (AList.mem_insert _).2 (.inl rfl)⟩
        (fun V' hne => AList.lookup_insert_ne hne) fun _ => rfl

theorem destroySampler_sound (hs : Sound upscales st) (hplace : (st.own t).place = .destroying S)
    (h : proceed t st.shared (st.own t).cache noting created (.destroying S) = some (s', place')) :
    Sound upscales (st.set t s' ⟨place', (st.own t).cache⟩) := by
  have hplaced := hs.placed t
  rw [hplace] at hplaced
  obtain ⟨info, hinfo⟩ := hplaced
  simp only [proceed] at h
  split at h
  · cases h
  · rename_i hnone
    split at h
    · rename_i clamped hclamped
      cases h
      exact destroying_sound hs hplace (mutex_none hnone) hclamped
    · rename_i hclamped
      cases h
      have hfreeing : Placed upscales st.shared t (.free S []) :=
        ⟨⟨info, hinfo⟩, AList.lookup_eq_none.1 hclamped, List.nodup_nil, fun _ h => by cases h⟩
      exact hs.stay hfreeing (by rw [hplace]; rfl) rfl fun _ _ h => .inl h

theorem destroyingView_sound (hs : Sound upscales st)
    (hplace : (st.own t).place = .destroyingView V)
    (h : proceed t st.shared (st.own t).cache noting created
      (.destroyingView V) = some (s', place')) :
    Sound upscales (st.set t s' ⟨place', (st.own t).cache⟩) := by
  have hplaced := hs.placed t
  rw [hplace] at hplaced
  obtain ⟨top, htop⟩ := hplaced
  simp only [proceed] at h
  split at h
  · cases h
  · rename_i hnone
    split at h
    · cases h
      exact viewing_sound hs htop (mutex_none hnone) (hs.kept.eraseView htop)
        ⟨⟨top, htop⟩, fun hmem => (AList.mem_erase.1 hmem).1 rfl⟩
          (fun V' hne => AList.lookup_erase_ne hne) fun _ => rfl
    · rename_i hV
      cases h
      have hfreeing : Placed upscales st.shared t (.freeView V) :=
        ⟨⟨top, htop⟩, AList.lookup_eq_none.1 hV⟩
      exact hs.stay hfreeing (by rw [hplace]; rfl) rfl fun _ _ h => .inl h

theorem bump_sound {after : After} (hs : Sound upscales st)
    (hplace : (st.own t).place = .bump after)
    (h : proceed t st.shared (st.own t).cache noting created (.bump after) = some (s', place')) :
    Sound upscales (st.set t s' ⟨place', (st.own t).cache⟩) := by
  have hplaced := hs.placed t
  rw [hplace] at hplaced
  cases h
  refine hs.next (hs.owned.move ?_) hs.kept.of_eq ((Spares.refl _).of_eq (Nat.le_succ _)) ?_
    (hs.cached_bump rfl rfl)
  · rw [hplace]
    rfl
  · cases after <;> exact hplaced

theorem freeView_sound (hs : Sound upscales st) (hplace : (st.own t).place = .freeView V)
    (h : proceed t st.shared (st.own t).cache noting created (.freeView V) = some (s', place')) :
    Sound upscales (st.set t s' ⟨place', (st.own t).cache⟩) := by
  have hplaced := hs.placed t
  rw [hplace] at hplaced
  obtain ⟨⟨top, htop⟩, hV⟩ := hplaced
  cases h
  have hnull := hs.kept.view_ne htop
  refine hs.outside ?_ (.setView hnull (.inr (.inl ⟨top, htop⟩)) ?_ _) trivial
    (by rw [hplace]; rfl) rfl rfl rfl
    fun _ _ _ h => h
  · refine hs.kept.setView hnull ?_ (fun _ h => by cases h) fun _ _ h => by cases h
    exact fun top h => absurd (keys_lookup.2 ⟨top, h⟩) hV
  · intro u top' hu h
    rw [htop] at h
    cases h
    exact hu rfl

theorem asking_sound {pairs : List (Sampler × View)} (hs : Sound upscales st)
    (hplace : (st.own t).place = .asking pairs)
    (h : proceed t st.shared (st.own t).cache noting created (.asking pairs) = some (s', place')) :
    Sound upscales (st.set t s' ⟨place', (st.own t).cache⟩) := by
  have hplaced := hs.placed t
  rw [hplace] at hplaced
  have hout : (st.own t).place.inside = false := by rw [hplace]; rfl
  simp only [proceed] at h
  split at h
  · rename_i hpairs
    cases h
    have hunpaired : st.shared.pairs_possible = false := by simp_all
    have hall : Placed upscales st.shared t
        (.writing (pairs.map fun pair => (pair.1, pair.2, pair.1))) := by
      intro x hx
      obtain ⟨pair, hpair, rfl⟩ := List.mem_map.1 hx
      exact ⟨hplaced pair hpair, hs.kept.unpaired hunpaired (hplaced pair hpair)⟩
    exact hs.stay hall hout rfl fun _ _ h => .inl h
  · cases h
    cases pairs with
    | nil =>
      have hnone : Placed upscales st.shared t (.writing []) :=
        fun x hx => absurd hx List.not_mem_nil
      exact hs.stay hnone hout rfl fun _ _ h => .inl h
    | cons pair pairs =>
      have hready : Ready st.shared ⟨[], pair.1, pair.2, pairs⟩ :=
        ⟨fun _ h => absurd h List.not_mem_nil, hplaced pair List.mem_cons_self, fun p hp =>
          hplaced p (List.mem_cons_of_mem _ hp)⟩
      have hnext : Placed upscales st.shared t (.filtering ⟨[], pair.1, pair.2, pairs⟩) := hready
      exact hs.stay hnext hout rfl fun _ _ h => .inl h

theorem filtering_sound (hs : Sound upscales st) (hplace : (st.own t).place = .filtering writes)
    (h : proceed t st.shared (st.own t).cache noting created
      (.filtering writes) = some (s', place')) :
    Sound upscales (st.set t s' ⟨place', (st.own t).cache⟩) := by
  have hplaced := hs.placed t
  rw [hplace] at hplaced
  have hout : (st.own t).place.inside = false := by rw [hplace]; rfl
  simp only [proceed] at h
  split at h
  · rename_i hzero
    cases h
    have hgood := good_unclamped (V := writes.view) (hs.kept.filter.notMem hs.kept.few hzero)
    exact hs.stay (Ready.answer hplaced hgood) hout (answer_outside _ _) fun _ _ h => .inl h
  · cases h
    have hprobing : Placed upscales st.shared t (.probing writes) := hplaced
    exact hs.stay hprobing hout rfl fun _ _ h => .inl h

theorem probing_sound (hs : Sound upscales st) (hplace : (st.own t).place = .probing writes)
    (h : proceed t st.shared (st.own t).cache noting created
      (.probing writes) = some (s', place')) :
    Sound upscales (st.set t s' ⟨place', (st.own t).cache⟩) := by
  have hplaced := hs.placed t
  rw [hplace] at hplaced
  have hready : Ready st.shared writes := hplaced
  have hout : (st.own t).place.inside = false := by rw [hplace]; rfl
  have hlook : Placed upscales st.shared t (.looking writes st.shared.g_lod_generation) :=
    ⟨hready, Nat.le_refl _⟩
  simp only [proceed] at h
  split at h
  · rename_i pair hpair
    split at h
    · rename_i hhit
      cases h
      obtain ⟨hnow, hsampler, hview⟩ := hhit
      have hgood :=
        hs.hit (hs.cached t _ pair hpair) hnow (by rw [hsampler, hview]; exact hready.2.1)
      rw [hsampler, hview] at hgood
      exact hs.stay (hready.answer hgood) hout (answer_outside _ _) fun _ _ h => .inl h
    · cases h
      exact hs.stay hlook hout rfl fun _ _ h => .inl h
  · cases h
    exact hs.stay hlook hout rfl fun _ _ h => .inl h

theorem looking_sound (hs : Sound upscales st)
    (hplace : (st.own t).place = .looking writes generation)
    (h : proceed t st.shared (st.own t).cache noting created
      (.looking writes generation) = some (s', place')) :
    Sound upscales (st.set t s' ⟨place', (st.own t).cache⟩) := by
  have hplaced := hs.placed t
  rw [hplace] at hplaced
  have hout : (st.own t).place.inside = false := by rw [hplace]; rfl
  simp only [proceed] at h
  split at h
  · cases h
  · cases h
    obtain ⟨hlooked, hout'⟩ : Placed upscales st.shared t (look st.shared writes generation) ∧
        (look st.shared writes generation).inside = false := look_placed hplaced.1 hplaced.2
    exact hs.stay hlooked hout hout' fun _ _ h => .inl h

theorem caching_sound {result : Sampler} (hs : Sound upscales st)
    (hplace : (st.own t).place = .caching writes generation result)
    (h : proceed t st.shared (st.own t).cache noting created (.caching writes generation result) =
      some (s', place')) :
    Sound upscales
      (st.set t s'
        ⟨place', remember (st.own t).cache (.caching writes generation result : Place Lod)⟩) := by
  have hplaced := hs.placed t
  rw [hplace] at hplaced
  obtain ⟨hready, hle, hgood⟩ := hplaced
  cases h
  refine hs.stay (hready.answer hgood) (by rw [hplace]; rfl)
    (answer_outside _ _) fun i pair hpair => ?_
  by_cases hi : i = cacheSlot writes.sampler writes.view
  · subst hi
    simp only [remember, Function.update_self, Option.some.injEq] at hpair
    subst hpair
    exact .inr ⟨hle, hgood⟩
  · exact .inl ((Function.update_of_ne hi ..).symm.trans hpair)

theorem proceed_sound (hs : Sound upscales st) (ha : Allowed st (t, .step noting created))
    (h : proceed t st.shared (st.own t).cache noting created (st.own t).place = some (s', place')) :
    Sound upscales (st.set t s' ⟨place', remember (st.own t).cache (st.own t).place⟩) := by
  cases hplace : (st.own t).place with
  | idle =>
    rw [hplace] at h
    cases h
  | creating S info =>
    simp only [hplace, proceed] at h
    split at h
    · cases h
    · rename_i hnone
      cases h
      exact creating_sound hs ha hplace (mutex_none hnone)
  | creatingView _ _ => exact creatingView_sound hs hplace (hplace ▸ h)
  | destroying _ => exact destroySampler_sound hs hplace (hplace ▸ h)
  | destroyingView _ => exact destroyingView_sound hs hplace (hplace ▸ h)
  | bump _ => exact bump_sound hs hplace (hplace ▸ h)
  | store after =>
    rw [hplace] at h
    have hfinish := finish_sound hs hplace
    rw [Option.some.inj h] at hfinish
    exact hfinish
  | free S copies =>
    rw [hplace] at h
    exact free_sound hs hplace h
  | freeView _ => exact freeView_sound hs hplace (hplace ▸ h)
  | asking _ => exact asking_sound hs hplace (hplace ▸ h)
  | filtering _ => exact filtering_sound hs hplace (hplace ▸ h)
  | probing _ => exact probing_sound hs hplace (hplace ▸ h)
  | looking _ _ => exact looking_sound hs hplace (hplace ▸ h)
  | making writes generation top =>
    have hplaced := hs.placed t
    rw [hplace] at hplaced
    have hout : (st.own t).place.inside = false := by rw [hplace]; rfl
    simp only [hplace, proceed] at h
    split at h
    · cases h
    · have hmade := make_sound hs ha hplaced hout
      rw [Option.some.inj h] at hmade
      exact hmade
  | caching _ _ _ => exact caching_sound hs hplace (hplace ▸ h)
  | writing results =>
    rw [hplace] at h
    cases h
    have hidle : Placed upscales st.shared t .idle := trivial
    exact hs.stay hidle (by rw [hplace]; rfl) rfl fun _ _ h => .inl h

theorem sound_step {a : τ × Act Lod} (hs : Sound upscales st) (ha : Allowed st a)
    (h : (system upscales).step st a st') :
    Sound upscales st' := by
  obtain ⟨t, call⟩ := a
  obtain ⟨s', x', hact, rfl⟩ := h
  cases call with
  | step noting created =>
    obtain ⟨⟨s'', place'⟩, hproceed, heq⟩ := Option.map_eq_some_iff.1 hact
    obtain ⟨rfl, rfl⟩ := Prod.mk.inj heq
    exact proceed_sound hs ha hproceed
  | _ =>
    simp only [act] at hact
    split at hact
    · rename_i hidle
      obtain ⟨⟨s'', place'⟩, hbegin, heq⟩ := Option.map_eq_some_iff.1 hact
      obtain ⟨rfl, rfl⟩ := Prod.mk.inj heq
      exact begin_sound hs ha hidle hbegin
    · cases hact

theorem reachable_sound (h : ((system upscales).restrict Allowed).Reachable st) :
    Sound upscales st := by
  refine h.invariant ?_ ?_
  · rintro _ rfl
    exact initial_sound
  · rintro st a st' ⟨hstep, hallowed⟩ hs
    exact sound_step hs hallowed hstep

/-- Whichever of the filter, the cache of the thread and the maps answers, every update hands the
host the right sampler for each of its views, in every interleaving. -/
theorem updates_answered (h : ((system upscales).restrict Allowed).Reachable st)
    {results : List (Sampler × View × Sampler)} (hwriting : (st.own t).place = .writing results) :
    ∀ x ∈ results, Answers upscales st.shared x.1 x.2.1 x.2.2 := by
  have hs := reachable_sound h
  have hplaced := hs.placed t
  rw [hwriting] at hplaced
  exact fun x hx => hs.kept.answers (hplaced x hx).1 (hplaced x hx).2

local instance {α : Type} {o : Option (α × Role τ)} {role : Role τ} :
  Decidable (∃ a, o = some (a, role)) :=
  decidable_of_iff (o.map Prod.snd = some role) (by cases o <;> simp [Prod.ext_iff])

local instance : Decidable (Usable s S V) := inferInstanceAs (Decidable (_ ∧ (_ ∨ _)))

local instance : Decidable (s.FreshSampler S) := inferInstanceAs (Decidable (_ ∧ _))

local instance : Decidable (s.FreshView V) := inferInstanceAs (Decidable (_ ∧ _))

/-- Not by going through all the handles there can be. -/
local instance {p : Sampler → Prop} [DecidablePred p] {created : Option Sampler} :
    Decidable (∀ copy ∈ created, p copy) :=
  Option.decidableForallMem created

local instance {p : Sampler × View → Prop} [DecidablePred p] {pairs : List (Sampler × View)} :
    Decidable (∀ pair ∈ pairs, p pair) :=
  List.decidableBAll p pairs

local instance [Fintype τ] (st : State τ Lod) (a : τ × Act Lod) : Decidable (Allowed st a) := by
  obtain ⟨t, call⟩ := a
  cases call <;> dsimp only [Allowed] <;> infer_instance

/-- A clamped sampler, an upscaled view, and an update that shifts the one for the other. -/
theorem updates_answered_shifted : ∃ st : State Unit Int,
    (st.own ()).place = .writing [(16, 32, 48)] ∧
    Answers true st.shared 16 32 48 := by
  have hrun :
      ((([.createSampler { minLod := 1, maxLod := 4 } 16, .step false none, .step false none,
          .step false none, .createImageView 32 0 2, .step false none, .step false none,
          .step false none, .update [(16, 32)], .step false none, .step false none,
          .step false none, .step false none, .step false (some 48),
          .step false none] : List (Act Int)).map ((), ·)).foldlM
        (nextIf (act true) Allowed) ⟨{}, fun _ => {}⟩).map
        (fun st => (st.own ()).place) = some (.writing [(16, 32, 48)]) := by
    decide +kernel
  obtain ⟨st, hst, hwriting⟩ := Option.map_eq_some_iff.1 hrun
  exact ⟨st, hwriting, updates_answered (reachable_of_nextIf hst) hwriting _ List.mem_cons_self⟩

end Nightcap.Graphics.Lod
