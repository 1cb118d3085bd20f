import Nightcap.Graphics.EtcBudget

/-! The counters are the sums they stand for, and no reservation goes over the budget. -/
namespace Nightcap.Graphics.Budget

open Transition Threads

/-! The sums over the records. -/

section Records

variable {images : List (VkImage × ImageRecord)} {doomed : VkImage × ImageRecord → Bool}
  {s : Shared}
  {image : VkImage}

/-- What the records of some kind add up to. -/
def total (f : ImageRecord → Nat) (images : List (VkImage × ImageRecord)) : Nat :=
  (images.map fun entry => f entry.2).sum

theorem total_append (f : ImageRecord → Nat) (xs ys : List (VkImage × ImageRecord)) :
    total f (xs ++ ys) = total f xs + total f ys := by
  simp [total]

theorem total_filter (f : ImageRecord → Nat) :
    total f (images.filter doomed) + total f (images.filter fun entry => !doomed entry) =
      total f images := by
  induction images with
  | nil => rfl
  | cons entry rest ih =>
    cases hd : doomed entry <;>
      simp only [List.filter_cons, hd, total, List.map_cons, List.sum_cons,
        Bool.not_true, Bool.not_false, if_true, Bool.false_eq_true, if_false] at ih ⊢ <;> omega

theorem filter_ne (h : ∀ entry ∈ images, entry.1 ≠ image) : images.filter (·.1 ≠ image) = images :=
  List.filter_eq_self.2 fun entry he => by simpa using h entry he

/-- What taking records out of the counters leaves. -/
theorem foldl_without :
    let s' := images.foldl (fun s entry => s.without entry.2) s
    s'.textureCompressed = s.textureCompressed - total (·.bytes.compressed) images ∧
      s'.textureDecoded = s.textureDecoded - total (·.bytes.decoded) images ∧
      s'.upscaledBytes = s.upscaledBytes - total ImageRecord.upscaled images ∧
      s'.reservedSinceFree = s.reservedSinceFree := by
  induction images generalizing s with
  | nil => simp [total]
  | cons entry rest ih =>
    obtain ⟨hcompressed, hdecoded, hupscaled, hfree⟩ := ih (s := s.without entry.2)
    simp only [List.foldl_cons, hcompressed, hdecoded, hupscaled, hfree, total,
      List.map_cons, List.sum_cons,
      Nat.cast_add]
    refine ⟨?_, ?_, ?_, rfl⟩
    · simp only [Shared.without]
      omega
    · simp only [Shared.without]
      omega
    · simp only [Shared.without, ImageRecord.upscaled]
      split <;> omega

end Records

/-! What a step does to the counters. -/

/-- The counters move with the records and the reservation of the thread. -/
structure Balanced (s : Shared) (place : Place) (s' : Shared) (place' : Place) : Prop where
  compressed : s'.textureCompressed - s.textureCompressed =
    total (·.bytes.compressed) s'.images - total (·.bytes.compressed) s.images
  decoded : s'.textureDecoded - s.textureDecoded =
    total (·.bytes.decoded) s'.images - total (·.bytes.decoded) s.images
  upscaled : s'.upscaledBytes - s.upscaledBytes =
    (total ImageRecord.upscaled s'.images - total ImageRecord.upscaled s.images : Int) +
      (place'.reservation - place.reservation)
  sinceFree : 0 ≤ s.reservedSinceFree → 0 ≤ s'.reservedSinceFree

section Steps

variable {setup : Setup} {s s' : Shared} {place place' : Place} {answers : Answers} {c : Creation}
  {image : VkImage}

/-- A step that leaves the counters and the reservation alone. -/
theorem Balanced.quiet (himages : s'.images = s.images)
    (hcompressed : s'.textureCompressed = s.textureCompressed)
    (hdecoded : s'.textureDecoded = s.textureDecoded)
    (hupscaled : s'.upscaledBytes = s.upscaledBytes)
    (hfree : 0 ≤ s.reservedSinceFree → 0 ≤ s'.reservedSinceFree)
    (hreservation : place'.reservation = place.reservation) : Balanced s place s' place' := by
  refine ⟨?_, ?_, ?_, hfree⟩
  · rw [hcompressed, himages]
    omega
  · rw [hdecoded, himages]
    omega
  · rw [hupscaled, himages, hreservation]
    omega

theorem drop_balanced (doomed : VkImage × ImageRecord → Bool) (hplace : place.reservation = 0) :
    Balanced s place (s.drop doomed) (.returned true) := by
  obtain ⟨hcompressed, hdecoded, hupscaled, hfree⟩ := @foldl_without (s.images.filter doomed) s
  have hsplit := fun f => @total_filter s.images doomed f
  refine ⟨?_, ?_, ?_, fun h => hfree.symm ▸ h⟩
  · have := hsplit (·.bytes.compressed)
    simp only [Shared.drop, hcompressed]
    omega
  · have := hsplit (·.bytes.decoded)
    simp only [Shared.drop, hdecoded]
    omega
  · have := hsplit ImageRecord.upscaled
    have hreturned : (Place.returned true).reservation = 0 := rfl
    rw [hplace, hreturned]
    simp only [Shared.drop, hupscaled]
    omega

theorem release_balanced (hplace : place.reservation = c.reserved)
    (hplace' : place'.reservation = 0) :
    Balanced s place (s.release c.reserved) place' := by
  refine ⟨?_, ?_, ?_, fun h => ?_⟩
  · simp only [Shared.release]
    omega
  · simp only [Shared.release]
    omega
  · simp only [Shared.release, hplace, hplace']
    omega
  · simp only [Shared.release]
    omega

theorem record_balanced (hnew : ∀ entry ∈ s.images, entry.1 ≠ image) :
    Balanced s (.record c image) (s.recordImage setup c image) (.returned true) := by
  have himages : (s.recordImage setup c image).images =
      s.images ++ [(image, ⟨c.device, c.scale, c.bytes setup⟩)] := by
    simp only [Shared.recordImage, filter_ne hnew]
  refine ⟨?_, ?_, ?_, fun h => ?_⟩
  · rw [himages, total_append]
    simp [Shared.recordImage, total]
  · rw [himages, total_append]
    simp [Shared.recordImage, total]
  · rw [himages, total_append]
    simp only [Shared.recordImage, total, Creation.settled, ImageRecord.upscaled, Place.reservation,
      List.map_cons, List.map_nil, List.sum_cons, List.sum_nil]
    omega
  · simp only [Shared.recordImage]
    split <;> omega

/-- The image a thread is about to record. -/
def Place.recording : Place → Option VkImage
  | .record _ image => some image
  | _ => none

theorem recording_eq (h : place.recording = some image) : ∃ c, place = .record c image := by
  cases place with
  | record c recorded =>
    cases h
    exact ⟨c, rfl⟩
  | _ => cases h

/-- The creation that goes through `RefreshVideoFree` or reserves has nothing reserved. -/
def Place.Unreserved : Place → Prop
  | .refreshVideoFree (some c) | .refreshed (some c) _ | .reserveUpscale c => c.reserved = 0
  | _ => True

theorem reserve_places : (c.reserve setup).reservation = 0 ∧ (c.reserve setup).Unreserved ∧
    (c.reserve setup).recording = none := by
  simp only [Creation.reserve]
  split
  · exact ⟨rfl, trivial, rfl⟩
  · exact ⟨rfl, rfl, rfl⟩

theorem afterRefresh_places {c : Option Creation} (h : ∀ d, c = some d → d.reserved = 0) :
    (afterRefresh c).reservation = 0 ∧ (afterRefresh c).Unreserved ∧
    (afterRefresh c).recording = none := by
  cases c with
  | none => exact ⟨rfl, trivial, rfl⟩
  | some d => exact ⟨rfl, h d rfl, rfl⟩

/-- The start of a call. -/
theorem begin_balanced (call : Call) (hplace : place.reservation = 0) :
    Balanced s place (begin setup s call).1 (begin setup s call).2 ∧
      (begin setup s call).2.Unreserved ∧ (begin setup s call).2.recording = none ∧
      (∀ entry ∈ (begin setup s call).1.images, entry ∈ s.images) ∧
      ((begin setup s call).2 = .returned true ∨ (begin setup s call).1.images = s.images) := by
  cases call with
  | createImage device info wanted =>
    obtain ⟨hzero, hun, hrec⟩ := @reserve_places setup { device, info, wanted, scale := 1 }
    exact ⟨.quiet rfl rfl rfl rfl id (hzero.trans hplace.symm), hun, hrec, fun _ h => h, .inr rfl⟩
  | destroyImage image =>
    exact ⟨drop_balanced _ hplace, trivial, rfl, fun _ h => (List.mem_filter.1 h).1, .inl rfl⟩
  | destroyDevice device =>
    exact ⟨drop_balanced _ hplace, trivial, rfl, fun _ h => (List.mem_filter.1 h).1, .inl rfl⟩
  | refreshVideoFree =>
    exact ⟨.quiet rfl rfl rfl rfl id hplace.symm, trivial, rfl, fun _ h => h, .inr rfl⟩

theorem begin_reservation (call : Call) : (begin setup s call).2.reservation = 0 := by
  cases call with
  | createImage device info wanted => exact reserve_places.1
  | _ => rfl

/-- What the rest of a call does. -/
structure Continued (s : Shared) (place : Place) (answers : Answers) (s' : Shared)
    (place' : Place) : Prop where
  balanced : Balanced s place s' place'
  unreserved : place'.Unreserved
  /-- Only a handle of the host gets into a record. -/
  recorded : ∀ image, place'.recording = some image → answers.created = some image
  images : ∀ entry ∈ s'.images, entry ∈ s.images ∨ place.recording = some entry.1
  /-- Only the end of a call that succeeds changes the records. -/
  kept : place' = .returned true ∨ s'.images = s.images

/-- A step that only moves the thread on, with what its creation has reserved. -/
theorem Continued.onward (hreserved : place'.reservation = place.reservation)
    (hun : place'.Unreserved) (hrec : place'.recording = none) :
    Continued s place answers s place' :=
  ⟨.quiet rfl rfl rfl rfl id hreserved, hun, fun _ h => (nomatch hrec.symm.trans h),
    fun _ h => .inl h, .inr rfl⟩

/-- A creation ends; what it has reserved it gives up first. -/
theorem ended_places {c : Creation} {success : Bool} :
    (if c.reserved ≠ 0 then Place.giveUp c success else .returned success).reservation =
        c.reserved ∧
      (if c.reserved ≠ 0 then Place.giveUp c success else .returned success).Unreserved ∧
      (if c.reserved ≠ 0 then Place.giveUp c success else .returned success).recording = none := by
  split
  · exact ⟨rfl, trivial, rfl⟩
  · next hzero => exact ⟨(not_not.1 hzero).symm, trivial, rfl⟩

theorem continue_balanced (hun : place.Unreserved)
    (hnew : ∀ image, place.recording = some image → ∀ entry ∈ s.images, entry.1 ≠ image)
    (hstep : continueCall setup s answers place = some (s', place')) :
    Continued s place answers s' place' := by
  cases place with
  | returned success => cases hstep
  | refreshVideoFree c =>
    obtain ⟨hzero, hafter, hrec⟩ := @afterRefresh_places c fun d hd => by subst hd; exact hun
    simp only [continueCall] at hstep
    split at hstep
    · cases hstep
      exact .onward hzero hafter hrec
    · cases hstep
      refine ⟨.quiet rfl rfl rfl rfl id rfl, ?_, nofun, fun _ h => .inl h, .inr rfl⟩
      cases c with
      | none => trivial
      | some d => exact hun
  | refreshed c reservedBefore =>
    obtain ⟨hzero, hafter, hrec⟩ := @afterRefresh_places c fun d hd => by subst hd; exact hun
    cases hstep
    refine ⟨.quiet rfl rfl rfl rfl (fun h => ?_) hzero, hafter, fun image h =>
      (nomatch hrec.symm.trans h),
      fun _ h => .inl h, .inr rfl⟩
    simp only
    omega
  | reserveUpscale c =>
    have hzero : c.reserved = 0 := hun
    simp only [continueCall] at hstep
    split at hstep
    · next rung hpick =>
      cases hstep
      refine ⟨⟨?_, ?_, ?_, fun h => ?_⟩, trivial, nofun, fun _ h => .inl h, .inr rfl⟩
      · simp only [Shared.reserve]
        omega
      · simp only [Shared.reserve]
        omega
      · simp only [Shared.reserve, Place.reservation]
        omega
      · simp only [Shared.reserve]
        omega
    · cases hstep
      exact .onward hzero trivial rfl
  | createImage c =>
    simp only [continueCall] at hstep
    split at hstep
    · next image hcreated =>
      split at hstep
      · cases hstep
        refine ⟨.quiet rfl rfl rfl rfl id rfl, trivial, fun image h => ?_,
          fun _ h => .inl h, .inr rfl⟩
        cases h
        exact hcreated
      · cases hstep
        exact .onward ended_places.1 ended_places.2.1 ended_places.2.2
    · split at hstep
      · cases hstep
        by_cases hr : c.reserved ≠ 0
        · rw [if_pos hr]
          exact .onward rfl trivial rfl
        · rw [if_neg hr]
          exact .onward rfl trivial rfl
      · cases hstep
        exact .onward ended_places.1 ended_places.2.1 ended_places.2.2
  | releaseUpscale c =>
    cases hstep
    obtain ⟨hzero, hun, hrec⟩ := @reserve_places setup c
    exact ⟨release_balanced rfl hzero, hun, fun image h => (nomatch hrec.symm.trans h),
      fun _ h => .inl h, .inr rfl⟩
  | record c image =>
    cases hstep
    refine ⟨record_balanced (hnew image rfl), trivial, nofun, fun entry h => ?_, .inl rfl⟩
    rcases List.mem_append.1 h with h | h
    · exact .inl (List.mem_filter.1 h).1
    · obtain rfl := List.mem_singleton.1 h
      exact .inr rfl
  | giveUp c success =>
    cases hstep
    exact ⟨release_balanced rfl rfl, trivial, nofun, fun _ h => .inl h, .inr rfl⟩

/-- A rung that is picked keeps to the budget. -/
theorem pick_fits {rung : UpscaleRung} (h : s.pick setup c = some rung)
    (hbudget : setup.upscaleBudget ≠ 0) :
    s.upscaledBytes + rung.cost ≤ setup.upscaleBudget := by
  have hfits := List.find?_some h
  unfold Shared.fits at hfits
  simp only [Bool.and_eq_true, Bool.or_eq_true, beq_iff_eq, decide_eq_true_eq] at hfits
  have hle := hfits.1.resolve_left hbudget
  split at hle <;> omega

/-- Only a rung that is picked adds to the reservation of a thread. -/
theorem continue_grants (hun : place.Unreserved)
    (hstep : continueCall setup s answers place = some (s', place')) :
    place'.reservation ≤ place.reservation ∨
      ∃ c rung, s.pick setup c = some rung ∧ s'.upscaledBytes = s.upscaledBytes + rung.cost := by
  cases place with
  | returned success => cases hstep
  | refreshVideoFree c =>
    left
    simp only [continueCall] at hstep
    split at hstep
    · cases hstep
      cases c <;> exact le_rfl
    · cases hstep
      exact le_rfl
  | refreshed c reservedBefore =>
    left
    cases hstep
    cases c <;> exact le_rfl
  | reserveUpscale c =>
    simp only [continueCall] at hstep
    split at hstep
    · next rung hpick =>
      cases hstep
      exact .inr ⟨c, rung, hpick, rfl⟩
    · left
      cases hstep
      exact hun.le
  | createImage c =>
    left
    simp only [continueCall] at hstep
    split at hstep
    · split at hstep
      · cases hstep
        exact le_rfl
      · cases hstep
        split
        · exact le_rfl
        · exact Nat.zero_le _
    · split at hstep
      · cases hstep
        split <;> exact le_rfl
      · cases hstep
        split
        · exact le_rfl
        · exact Nat.zero_le _
  | releaseUpscale c =>
    left
    cases hstep
    exact reserve_places.1.trans_le (Nat.zero_le _)
  | record c image =>
    left
    cases hstep
    exact Nat.zero_le _
  | giveUp c success =>
    left
    cases hstep
    exact Nat.zero_le _

end Steps

/-! Reachable states. -/

/-- What a call has added so far, unless it has succeeded. -/
def Thread.Accounted (th : Thread) : Prop :=
  th.place = .returned true ∨ th.addedTexture = (0, 0) ∧ th.addedUpscaled = th.place.reservation

/-- A step that keeps the records adds what it reserves. -/
theorem after_accounted {th : Thread} {s s' : Shared} {place place' : Place}
    (htexture : th.addedTexture = (0, 0))
    (hupscaled : th.addedUpscaled = place.reservation) (hbalanced : Balanced s place s' place')
    (hkept : place' = .returned true ∨ s'.images = s.images) :
    (th.after s s' place').Accounted := by
  rcases hkept with hplace | himages
  · exact .inl hplace
  · obtain ⟨hcompressed, hdecoded, hmoved, _⟩ := hbalanced
    rw [himages] at hcompressed hdecoded hmoved
    refine .inr ⟨Prod.ext ?_ ?_, ?_⟩
    · simp only [Thread.after, htexture, hcompressed]
      omega
    · simp only [Thread.after, htexture, hdecoded]
      omega
    · simp only [Thread.after, hupscaled, hmoved]
      omega

variable {τ : Type*} {setup : Setup} {st st' : State τ} {a : τ × Act} {t : τ}

theorem distinct_of_none {answers : Answers} (h : answers.created = none) :
    DistinctHandles st (t, .step answers) := by
  intro _ image hanswers hcreated
  cases hanswers
  exact nomatch h.symm.trans hcreated

variable [Fintype τ]

/-- The reservations of all calls in progress. -/
def reservations (st : State τ) : Nat := ∑ t, (st.own t).place.reservation

/-- The invariant of the threads and the counters. -/
structure Sound (st : State τ) : Prop where
  compressed : st.shared.textureCompressed = total (·.bytes.compressed) st.shared.images
  decoded : st.shared.textureDecoded = total (·.bytes.decoded) st.shared.images
  upscaled : st.shared.upscaledBytes = total ImageRecord.upscaled st.shared.images + reservations st
  sinceFree : 0 ≤ st.shared.reservedSinceFree
  unreserved : ∀ t, (st.own t).place.Unreserved
  /-- An image on its way to a record is not in one. -/
  fresh : ∀ t image, (st.own t).place.recording = some image →
    ∀ entry ∈ st.shared.images, entry.1 ≠ image
  apart : ∀ t u image, (st.own t).place.recording = some image →
    (st.own u).place.recording = some image → t = u
  accounted : ∀ t, (st.own t).Accounted

theorem initial_sound : Sound (⟨{}, fun _ => {}⟩ : State τ) := by
  refine ⟨rfl, rfl, ?_, le_rfl, fun _ => trivial, nofun, nofun, fun _ => .inl rfl⟩
  simp [total, reservations, Place.reservation]

theorem Sound.safe (h : Sound st) : Safe st := by
  refine ⟨h.compressed, h.decoded, h.upscaled, fun t => ?_, h.sinceFree, fun t hplace => ?_⟩
  · have hle : (st.own t).place.reservation ≤ reservations st :=
      Finset.single_le_sum (f := fun t => (st.own t).place.reservation) (fun _ _ => Nat.zero_le _)
        (Finset.mem_univ t)
    rw [h.upscaled]
    omega
  · have hne : (st.own t).place ≠ .returned true := by
      rw [hplace]
      nofun
    obtain ⟨htexture, hupscaled⟩ := (h.accounted t).resolve_left hne
    rw [hplace] at hupscaled
    exact ⟨htexture, hupscaled⟩

variable [DecidableEq τ]

/-- A balanced step of one thread keeps the invariant. -/
theorem Sound.move (h : Sound st) {s' : Shared} {x : Thread}
    (hbalanced : Balanced st.shared (st.own t).place s' x.place) (hun : x.place.Unreserved)
    (hnew : ∀ image, x.place.recording = some image →
      (∀ entry ∈ st.shared.images, entry.1 ≠ image) ∧ ∀ u, (st.own u).place.recording ≠ some image)
    (himages : ∀ entry ∈ s'.images, entry ∈ st.shared.images ∨
      (st.own t).place.recording = some entry.1)
    (haccounted : x.Accounted) : Sound (st.set t s' x) := by
  have hsum : reservations (st.set t s' x) + (st.own t).place.reservation =
      reservations st + x.place.reservation :=
    st.sum_set fun th => th.place.reservation
  have hcompressed := hbalanced.compressed
  have hdecoded := hbalanced.decoded
  have hupscaled := hbalanced.upscaled
  rw [h.compressed] at hcompressed
  rw [h.decoded] at hdecoded
  rw [h.upscaled] at hupscaled
  refine ⟨?_, ?_, ?_, hbalanced.sinceFree h.sinceFree, ?_, ?_, ?_, ?_⟩
  · rw [System.set_shared]
    omega
  · rw [System.set_shared]
    omega
  · rw [System.set_shared]
    omega
  · exact (System.forall_set (P := fun _ (th : Thread) => th.place.Unreserved)).2
      ⟨hun, fun u _ => h.unreserved u⟩
  · intro u image hu entry hentry heq
    by_cases hut : u = t
    · subst hut
      rw [System.set_own_self] at hu
      obtain ⟨hold, hothers⟩ := hnew image hu
      rcases himages entry hentry with hin | hd
      · exact hold entry hin heq
      · exact hothers u (heq ▸ hd)
    · rw [System.set_own_of_ne hut] at hu
      rcases himages entry hentry with hin | hd
      · exact h.fresh u image hu entry hin heq
      · exact hut (h.apart u t image hu (heq ▸ hd))
  · intro u v image hu hv
    by_cases hut : u = t <;> by_cases hvt : v = t
    · exact hut.trans hvt.symm
    · subst hut
      rw [System.set_own_self] at hu
      rw [System.set_own_of_ne hvt] at hv
      exact absurd hv ((hnew image hu).2 v)
    · subst hvt
      rw [System.set_own_self] at hv
      rw [System.set_own_of_ne hut] at hu
      exact absurd hu ((hnew image hv).2 u)
    · rw [System.set_own_of_ne hut] at hu
      rw [System.set_own_of_ne hvt] at hv
      exact h.apart u v image hu hv
  · exact (System.forall_set (P := fun _ (th : Thread) => th.Accounted)).2
      ⟨haccounted, fun u _ => h.accounted u⟩

theorem sound_step {s' : Shared} {x : Thread} {what : Act} (h : Sound st)
    (hact : act setup t st.shared (st.own t) what = some (s', x))
    (hdistinct : DistinctHandles st (t, what)) :
    Sound (st.set t s' x) := by
  cases what with
  | call c =>
    simp only [act] at hact
    split at hact
    · next success hplace =>
      cases hact
      have hzero : (st.own t).place.reservation = 0 := by rw [hplace]; rfl
      obtain ⟨hbalanced, hun, hrec, himages, hkept⟩ :=
        @begin_balanced setup st.shared _ c hzero
      refine h.move hbalanced hun (fun image hd => (nomatch hrec.symm.trans hd))
        (fun e he => .inl (himages e he)) ?_
      exact after_accounted rfl (by rw [hzero]; rfl) hbalanced hkept
    · cases hact
  | step answers =>
    obtain ⟨⟨s₁, place'⟩, hcontinue, hx⟩ := Option.map_eq_some_iff.1 hact
    cases hx
    obtain ⟨hbalanced, hun, hrec, himages, hkept⟩ :=
      continue_balanced (h.unreserved t) (h.fresh t) hcontinue
    refine h.move hbalanced hun (fun image hd => ?_) himages ?_
    · obtain ⟨hold, hothers⟩ := hdistinct answers image rfl (hrec image hd)
      refine ⟨hold, fun u hu => ?_⟩
      obtain ⟨c, hplace⟩ := recording_eq hu
      exact hothers u c hplace
    · have hunfinished : (st.own t).place ≠ .returned true := by
        intro hplace
        rw [hplace] at hcontinue
        cases hcontinue
      obtain ⟨htexture, hadded⟩ := (h.accounted t).resolve_left hunfinished
      exact after_accounted htexture hadded hbalanced hkept

theorem reachable_sound (h : ((system (τ := τ) setup).restrict DistinctHandles).Reachable st) :
    Sound st := by
  refine h.invariant (I := Sound) ?_ ?_
  · rintro _ rfl
    exact initial_sound
  · rintro st ⟨t, what⟩ _ ⟨⟨s', x, hact, rfl⟩, hdistinct⟩ hs
    exact sound_step hs hact hdistinct

/-- In every run the counters are the sums they stand for and a call that fails adds nothing to
them, and no step reserves over the budget. -/
theorem budget_kept (h : ((system (τ := τ) setup).restrict DistinctHandles).Reachable st) :
    Safe st ∧ ∀ a st', (system setup).step st a st' → setup.upscaleBudget ≠ 0 →
      (st.own a.1).place.reservation < (st'.own a.1).place.reservation →
        st'.shared.upscaledBytes ≤ setup.upscaleBudget := by
  have hs := reachable_sound h
  refine ⟨hs.safe, ?_⟩
  rintro ⟨t, what⟩ _ ⟨s', x, hact, rfl⟩ hbudget hgrown
  rw [System.set_own_self] at hgrown
  cases what with
  | call c =>
    simp only [act] at hact
    split at hact
    · next success hplace =>
      cases hact
      have hnone : (begin setup st.shared c).2.reservation = 0 := begin_reservation c
      exact absurd (hgrown.trans_eq hnone) (Nat.not_lt_zero _)
    · cases hact
  | step answers =>
    obtain ⟨⟨s₁, place'⟩, hcontinue, hx⟩ := Option.map_eq_some_iff.1 hact
    cases hx
    rcases continue_grants (hs.unreserved t) hcontinue with hle | ⟨c, rung, hpick, hbytes⟩
    · exact absurd hgrown (not_lt.2 hle)
    · rw [System.set_shared, hbytes]
      exact pick_fits hpick hbudget

/-- Small textures twice as large, on a device without BC. -/
def doubling : Setup where
  upscale := 2
  upscaleFor _ _ := 1
  mayReplace _ _ := false
  upscaleBudget := 1 <<< 20
  videoMemory := 0
  videoMemoryOverridden := false
  hasBudgetQuery := false
  bcTextures _ := false
  canTranscode _ := false
  canScale _ := false

/-- An image of 16 by 16 is created with 32 by 32 and its half. -/
theorem budget_kept_doubling : ∃ st : State Unit, st.shared.images ≠ [] ∧
    st.shared.upscaledBytes = 5120 ∧
    Safe st := by
  have hrun : ∃ st : State Unit, ((system doubling).restrict DistinctHandles).Reachable st ∧
      st.shared.images ≠ [] ∧ st.shared.upscaledBytes = 5120 := by
    refine ⟨_, ⟨_,
      [((), .call (.createImage 1
          { format := .etc2Rgb8, extent := { width := 16, height := 16 } } true)),
        ((), .step {}), ((), .step {}), ((), .step { created := some 1 }), ((), .step {})], rfl,
      .cons ⟨⟨_, _, rfl, rfl⟩, nofun⟩ (.cons ⟨⟨_, _, rfl, rfl⟩, ?_⟩ (.cons ⟨⟨_, _, rfl, rfl⟩, ?_⟩
        (.cons ⟨⟨_, _, rfl, rfl⟩, ?_⟩ (.cons ⟨⟨_, _, rfl, rfl⟩, ?_⟩ (.refl _)))))⟩,
          List.cons_ne_nil _ _, rfl⟩
    · exact distinct_of_none rfl
    · exact distinct_of_none rfl
    · exact fun answers image hanswers hcreated => ⟨nofun, nofun⟩
    · exact distinct_of_none rfl
  obtain ⟨st, hst, himages, hbytes⟩ := hrun
  exact ⟨st, himages, hbytes, (budget_kept hst).1⟩

end Nightcap.Graphics.Budget
