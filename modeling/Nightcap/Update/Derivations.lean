import Nightcap.Lib.Transition
import Nightcap.Update.DerivedAnchors
import Nightcap.Update.DerivedProfile

/-! Profiles that are derived from derived profiles, again and again. -/
namespace Nightcap.Update.HostAbi

open Runs Compat Transition

variable {finders : Finders} {leading : LeadingConstructors}
  {constructor_anchors : Json} {jni_rva : UInt64}
  {reference_init candidate_init init next : List UInt64} {reference sidecar after : Sidecar}
  {native tail : ConstructorRange} {rs : List ConstructorRange} {indexes : List Nat}
  {jni i j count previous : Nat}

/-- A sidecar and the constructors of the payload it describes, with each derivation from it. -/
def derivation (described : Sidecar × List UInt64) (derived : Finders × List UInt64) :
    Option (Sidecar × List UInt64) :=
  (deriveSidecar derived.1 described.1 described.2 derived.2).toOption.map fun sidecar =>
  (sidecar, derived.2)

def derivations (first : Sidecar × List UInt64) : LTS (Sidecar × List UInt64)
    (Finders × List UInt64) :=
  .ofFun first derivation

/-- A constructor among the leading ones that the policy leaves out. -/
def Excludes (profile : HostAbiProfile) (index : Nat) : Prop :=
  ∃ native, profile.native_mimalloc_constructor_run_ranges = [native] ∧ native.begin ≤ index ∧
    index < profile.leadingEnd native.begin ∧ profile.allowsConstructor index = false

/-! Ranges that every derivation accepts. -/

/-- The ranges end with one that begins right behind an anchor at the latest and runs to the end. -/
def Whole (count : Nat) (indexes : List Nat) (rs : List ConstructorRange) : Prop :=
  ∃ front last, rs = front ++ [last] ∧ Fits count 0 rs ∧ last.begin ≤ indexes.getLastD 0 + 1 ∧
    last.end_exclusive = count

theorem fits_of_separated (h : Separated rs) (hprevious : ∀ r ∈ rs, previous ≤ r.begin)
    (hlow : ∀ r ∈ rs, kLeadingConstructorBegin ≤ r.begin)
    (hcount : ∀ r ∈ rs, r.end_exclusive ≤ count) :
    Fits count previous rs := by
  induction rs generalizing previous with
  | nil => trivial
  | cons range rs ih =>
    obtain ⟨hapart, hrest⟩ := List.pairwise_cons.1 h.apart
    refine ⟨h.nonempty range List.mem_cons_self, hprevious range List.mem_cons_self,
      hcount range List.mem_cons_self,
      hlow range List.mem_cons_self, ?_⟩
    exact ih ⟨fun r hr => h.nonempty r (List.mem_cons_of_mem _ hr), hrest⟩
      (fun r hr => Nat.le_of_lt (hapart r hr))
      (fun r hr => hlow r (List.mem_cons_of_mem _ hr)) fun r hr =>
        hcount r (List.mem_cons_of_mem _ hr)

theorem le_getLastD (h : indexes.Pairwise (· < ·)) (hi : i ∈ indexes) : i ≤ indexes.getLastD 0 := by
  obtain ⟨front, last, rfl⟩ := (List.eq_nil_or_concat' indexes).resolve_left (List.ne_nil_of_mem hi)
  rw [List.getLastD_concat]
  rcases List.mem_append.1 hi with hi | hi
  · exact Nat.le_of_lt ((List.pairwise_append.1 h).2.2 i hi last (List.mem_singleton_self _))
  · exact (List.mem_singleton.1 hi).le

/-- In front of the last range is the place of an anchor, unless it begins where the window does. -/
theorem whole_emitted (h : leading.Sound constructor_anchors jni_rva reference_init candidate_init)
    (hascending : indexes.Pairwise (· < ·))
    (hindexes : ∀ i, i ∈ indexes ↔ ∃ a ∈ leading.reference_index, leading.place a = i) :
    Whole candidate_init.length indexes (emitted leading rs candidate_init.length) := by
  obtain ⟨front, last, heq, hend⟩ := getLast?_emitted leading rs candidate_init.length
  have hseparated : Separated (emitted leading rs candidate_init.length) := separated_emitted h.room
  have hmem : last ∈ emitted leading rs candidate_init.length := by
    rw [heq]
    exact List.mem_append_right _ (List.mem_singleton_self _)
  have hlow := low_emitted hmem
  refine ⟨front, last, heq, ?_, ?_, hend⟩
  · exact fits_of_separated hseparated (fun _ _ => Nat.zero_le _) (fun r hr => low_emitted hr)
      fun r hr => end_emitted_le h.room hr
  · rcases Nat.lt_or_eq_of_le hlow with hbehind | hfirst
    · have hno : ¬ Covered (emitted leading rs candidate_init.length) (last.begin - 1) := by
        rintro ⟨r, hr, hbegin, hlast⟩
        rw [heq] at hr
        rcases List.mem_append.1 hr with hr | hr
        · have hapart := hseparated.apart
          rw [heq] at hapart
          have hgap := (List.pairwise_append.1 hapart).2.2 r hr last (List.mem_singleton_self _)
          omega
        · rw [List.mem_singleton.1 hr] at hbegin
          omega
      have hbound := hseparated.nonempty last hmem
      obtain ⟨a, ha, hplace, -⟩ :=
        not_covered_emitted h (i := last.begin - 1) (by omega) (by omega) hno
      have hle := le_getLastD hascending ((hindexes _).2 ⟨a, ha, hplace⟩)
      omega
    · obtain ⟨a, ha⟩ := List.exists_mem_of_ne_nil leading.reference_index
        (List.ne_nil_of_length_pos (h.count ▸ by decide))
      have hplace := (h.place_bounds ha).1
      have hle := le_getLastD hascending ((hindexes _).2 ⟨a, ha, rfl⟩)
      omega

theorem remappable_of_whole (h : leading.Sound constructor_anchors jni_rva init next)
    (hwhole : Whole init.length leading.reference_index rs) :
    Remappable leading init.length next.length rs := by
  obtain ⟨front, last, rfl, hfits, htail, hend⟩ := hwhole
  exact ⟨front, last, rfl, hfits, h.reference_end ▸ htail, hend, h.past, h.room⟩

/-! A sidecar that can be derived from. -/

def derivedSidecar (reference : Sidecar) (leading : LeadingConstructors)
    (candidate_count : Nat) : Sidecar :=
  ⟨derived reference.profile leading candidate_count, constructorAnchors leading,
    leading.jni_singleton.rva⟩

/-- What a sidecar says about the constructors of its payload holds of them, and passes the checks
of a derivation. -/
structure Ready (sidecar : Sidecar) (init : List UInt64) (indexes : List Nat) : Prop where
  count : sidecar.profile.init_array_count = init.length
  read : leadingIndexes sidecar.constructor_rvas init.length = .ok indexes
  entries : ∀ i ∈ indexes, init.getD i 0 ≠ 0 →
    verifiedEntry sidecar.constructor_rvas init i = .ok (init.getD i 0)
  whole : Whole init.length indexes sidecar.profile.constructor_run_ranges
  whole_native : Whole init.length indexes sidecar.profile.native_mimalloc_constructor_run_ranges
  anchored : ∃ jni native tail, init.getD jni 0 = sidecar.jni_singleton_initializer_rva ∧
    Anchored sidecar.profile indexes jni native tail

theorem ready_derived (h : leading.Sound constructor_anchors jni_rva reference_init candidate_init)
    (ha : Anchored reference.profile leading.reference_index jni native tail)
    (hjni : reference_init.getD jni 0 = jni_rva) :
    ∃ indexes,
      Ready (derivedSidecar reference leading candidate_init.length) candidate_init indexes := by
  obtain ⟨indexes, hindexes, hascending, -, hmem⟩ := leadingIndexes_written h
  obtain ⟨last, hanchored⟩ := anchored_derived h ha hmem
  refine ⟨indexes, rfl, hindexes, fun i hi hne => ?_, whole_emitted h hascending hmem,
    whole_emitted h hascending hmem,
    leading.place jni, _, last, h.jni_place ha.jni hjni, hanchored⟩
  obtain ⟨a, hmem', rfl⟩ := (hmem i).1 hi
  exact (verifiedEntry_written h hmem').trans (if_neg hne)

theorem Ready.profile_eq (hr : Ready sidecar init indexes)
    (hmatch : matchLeadingConstructors finders sidecar.constructor_rvas sidecar.jniSpec init next =
      .ok leading) :
    deriveProfile sidecar.profile leading next.length =
      .ok (derived sidecar.profile leading next.length) := by
  have h := sound_of_match hmatch
  obtain rfl : indexes = leading.reference_index := Except.ok.inj (hr.read.symm.trans h.indexes)
  obtain ⟨jni, native, tail, -, hanchored⟩ := hr.anchored
  refine deriveProfile_iff.2 ⟨?_, ?_, hanchored.checkpoint, rfl⟩
  · exact hr.count ▸ remappable_of_whole h hr.whole
  · exact hr.count ▸ remappable_of_whole h hr.whole_native

theorem Ready.derive (hr : Ready sidecar init indexes)
    (hmatch : matchLeadingConstructors finders sidecar.constructor_rvas sidecar.jniSpec init next =
      .ok leading)
    (henough : 8 ≤ next.length) :
    deriveSidecar finders sidecar init next = .ok (derivedSidecar sidecar leading next.length) := by
  have hshape : ¬ (init.length ≠ sidecar.profile.init_array_count ∨ next.length < 8) := by
    rw [hr.count]
    omega
  unfold deriveSidecar
  rw [if_neg hshape, hmatch]
  simp only [bind, Except.bind, hr.profile_eq hmatch]
  rfl

theorem deriveSidecar_ok
    (h : deriveSidecar finders reference reference_init candidate_init = .ok sidecar) :
    ∃ leading,
      matchLeadingConstructors finders reference.constructor_rvas reference.jniSpec
        reference_init candidate_init =
        .ok leading ∧
      deriveProfile reference.profile leading candidate_init.length = .ok sidecar.profile ∧
      sidecar = derivedSidecar reference leading candidate_init.length := by
  unfold deriveSidecar at h
  obtain ⟨-, h⟩ := check_ok h
  obtain ⟨leading, hleading, h⟩ := bind_ok h
  obtain ⟨profile, hprofile, h⟩ := bind_ok h
  cases h
  obtain ⟨-, -, -, rfl⟩ := deriveProfile_iff.1 hprofile
  exact ⟨leading, hleading, hprofile, rfl⟩

theorem Ready.step (hr : Ready sidecar init indexes)
    (h : deriveSidecar finders sidecar init next = .ok after) :
    ∃ indexes, Ready after next indexes := by
  obtain ⟨leading, hmatch, -, rfl⟩ := deriveSidecar_ok h
  have hsound := sound_of_match hmatch
  obtain rfl : indexes = leading.reference_index :=
    Except.ok.inj (hr.read.symm.trans hsound.indexes)
  obtain ⟨jni, native, tail, hjni, hanchored⟩ := hr.anchored
  exact ready_derived hsound hanchored hjni

/-- What was derived any number of times can be derived from again. -/
theorem ready_of_reachable {first described : Sidecar × List UInt64}
    (hr : ∃ indexes, Ready first.1 first.2 indexes)
    (h : (derivations first).Reachable described) :
    ∃ indexes, Ready described.1 described.2 indexes := by
  refine h.invariant (I := fun s => ∃ indexes, Ready s.1 s.2 indexes) ?_ ?_
  · rintro s rfl
    exact hr
  · rintro s a t hstep ⟨indexes, hs⟩
    obtain ⟨sidecar, hderived, rfl⟩ := Option.map_eq_some_iff.1 hstep
    cases hok : deriveSidecar a.1 s.1 s.2 a.2 with
    | error e =>
      rw [hok] at hderived
      cases hderived
    | ok result =>
      rw [hok] at hderived
      cases hderived
      exact hs.step hok

/-! The ranges of the candidate, and the policies of all that is derived. -/

theorem carried_iff : leading.carried i = some j ↔ i ∈ leading.reference_index ∧
    leading.place i = j := by
  constructor
  · intro h
    obtain ⟨hmem, rfl⟩ := mem_of_carried h
    exact ⟨hmem, rfl⟩
  · rintro ⟨hmem, rfl⟩
    exact carried_of_mem hmem

theorem covered_emitted_carried
    (h : leading.Sound constructor_anchors jni_rva reference_init candidate_init) :
    Covered (emitted leading rs candidate_init.length) i ↔
      kLeadingConstructorBegin + leading.window ≤ i ∧ i < candidate_init.length ∨
        (kLeadingConstructorBegin ≤ i ∧ i < kLeadingConstructorBegin + leading.window) ∧
          ((∀ a, leading.carried a ≠ some i) ∨ ∃ a, leading.carried a = some i ∧ Covered rs a) := by
  rw [covered_emitted_place h, or_comm, and_assoc]
  refine or_congr_right (and_congr_right fun _ => and_congr_right fun _ => ?_)
  constructor
  · intro hall
    by_cases hfree : ∃ a, leading.carried a = some i
    · obtain ⟨a, ha⟩ := hfree
      obtain ⟨hmem, hplace⟩ := carried_iff.1 ha
      exact .inr ⟨a, ha, hall a hmem hplace⟩
    · exact .inl fun a ha => hfree ⟨a, ha⟩
  · rintro (hfree | ⟨a, ha, hcovered⟩) b hb hplace
    · exact absurd (carried_iff.2 ⟨hb, hplace⟩) (hfree b)
    · obtain ⟨hmem, hplace'⟩ := carried_iff.1 ha
      exact h.place_inj hmem hb (hplace'.trans hplace.symm) ▸ hcovered

theorem anchored_of_policy {profile : HostAbiProfile}
    (hpolicy : profile.hasVerifiedConstructorPolicy jni = true)
    (hexcluded : ∀ i, Excludes profile i → i ∈ indexes) (hjni : jni ∈ indexes)
    (hcheckpoint : profile.native_mimalloc_thread_initializer_after_constructor ∈ indexes) :
    ∃ native tail, Anchored profile indexes jni native tail := by
  obtain ⟨native, tail, hverified⟩ := HostAbiProfile.hasVerifiedConstructorPolicy_iff.1 hpolicy
  exact ⟨native, tail, hverified, hjni, hcheckpoint, fun i hlow hhigh hno =>
    hexcluded i ⟨native, hverified.only, hlow, hhigh, hno⟩⟩

theorem Anchored.excludes {profile : HostAbiProfile} (ha : Anchored profile indexes jni native tail)
    (hi : Excludes profile i) : i ∈ indexes := by
  obtain ⟨native', hnative, hlow, hhigh, hno⟩ := hi
  obtain rfl := List.singleton_inj.1 (hnative.symm.trans ha.policy.only)
  exact ha.excluded i hlow hhigh hno

/-- The ranges of a candidate run what is new and what the reference runs, and a verified policy
stays one however often profiles are derived from the derived ones. -/
theorem constructors_spec
    (hmatch : matchLeadingConstructors finders reference.constructor_rvas
      reference.jniSpec reference_init
      candidate_init = .ok leading) :
    (∀ ranges reference_count out,
      remapConstructorRanges ranges leading reference_count candidate_init.length = .ok out →
        ∃ rs, ranges = some (rs.map some) ∧ out ≠ [] ∧ Separated out ∧
          (∀ r ∈ out, r.end_exclusive ≤ candidate_init.length) ∧
            ∀ i, Covered out i ↔
              kLeadingConstructorBegin + leading.window ≤ i ∧ i < candidate_init.length ∨
                (kLeadingConstructorBegin ≤ i ∧ i < kLeadingConstructorBegin + leading.window) ∧
                  ((∀ a, leading.carried a ≠ some i) ∨ ∃ a,
                    leading.carried a = some i ∧ Covered rs a)) ∧
    ∀ jni jni' profile,
      deriveProfile reference.profile leading candidate_init.length = .ok profile →
      reference.profile.hasVerifiedConstructorPolicy jni = true → leading.carried jni = some jni' →
        (∀ i, Excludes reference.profile i → i ∈ leading.reference_index) →
          profile.hasVerifiedConstructorPolicy jni' = true ∧
          (∀ i, Excludes profile i → ∃ a, leading.carried a = some i) ∧
          leading.carried reference.profile.native_mimalloc_thread_initializer_after_constructor =
            some profile.native_mimalloc_thread_initializer_after_constructor ∧
          (reference_init.getD jni 0 = reference.jni_singleton_initializer_rva →
            candidate_init.getD jni' 0 = leading.jni_singleton.rva ∧
            ∀ sidecar init,
              (derivations (⟨profile, constructorAnchors leading, leading.jni_singleton.rva⟩,
                candidate_init)).Reachable
                (sidecar, init) →
              (∃ jni, init.getD jni 0 = sidecar.jni_singleton_initializer_rva ∧
                sidecar.profile.hasVerifiedConstructorPolicy jni = true) ∧
              (∃ indexes, leadingIndexes sidecar.constructor_rvas init.length = .ok indexes ∧
                (∀ i, Excludes sidecar.profile i → i ∈ indexes) ∧
                ∀ i ∈ indexes, init.getD i 0 ≠ 0 →
                  verifiedEntry sidecar.constructor_rvas init i = .ok (init.getD i 0)) ∧
              ∀ finders next leading,
                matchLeadingConstructors finders sidecar.constructor_rvas sidecar.jniSpec
                  init next = .ok leading →
                  ∃ profile, deriveProfile sidecar.profile leading next.length = .ok profile ∧
                    (8 ≤ next.length → deriveSidecar finders sidecar init next =
                      .ok ⟨profile, constructorAnchors leading, leading.jni_singleton.rva⟩)) := by
  have h := sound_of_match hmatch
  constructor
  · intro ranges reference_count out hout
    obtain ⟨front, last, rfl, -, rfl⟩ := remapConstructorRanges_iff.1 hout
    exact ⟨_, rfl, emitted_ne_nil, separated_emitted h.room, fun r hr => end_emitted_le h.room hr,
      fun i => covered_emitted_carried h⟩
  · intro jni jni' profile hprofile hpolicy hcarried hexcluded
    obtain ⟨-, -, hcheckpoint, rfl⟩ := deriveProfile_iff.1 hprofile
    obtain ⟨hjni, rfl⟩ := carried_iff.1 hcarried
    obtain ⟨native, tail, hanchored⟩ := anchored_of_policy hpolicy hexcluded hjni hcheckpoint
    obtain ⟨last, hderived⟩ := anchored_derived h hanchored
      (fun i => List.mem_map (f := leading.place) (b := i))
    refine ⟨HostAbiProfile.hasVerifiedConstructorPolicy_iff.2 ⟨_, last, hderived.policy⟩,
      fun i hi => ?_,
      carried_of_mem hcheckpoint, ?_⟩
    · obtain ⟨a, ha, hplace⟩ := List.mem_map.1 (hderived.excludes hi)
      exact ⟨a, carried_iff.2 ⟨ha, hplace⟩⟩
    intro hentry
    refine ⟨h.jni_place hjni hentry, fun sidecar init hreachable => ?_⟩
    obtain ⟨indexes, hready⟩ := ready_of_reachable (ready_derived h hanchored hentry) hreachable
    obtain ⟨at_index, native', tail', hat, hpolicy'⟩ := hready.anchored
    refine ⟨⟨at_index, hat,
      HostAbiProfile.hasVerifiedConstructorPolicy_iff.2 ⟨native', tail', hpolicy'.policy⟩⟩,
      ⟨indexes, hready.read, fun i hi => hpolicy'.excludes hi, hready.entries⟩,
      fun finders next leading hnext => ?_⟩
    exact ⟨_, hready.profile_eq hnext, fun henough => hready.derive hnext henough⟩

/-! Four constructors in another order, with a new one among them and one behind them. -/

def shiftedFinders : Finders where
  firstInstruction rva := .ok ⟨rva, 3, "mov", [], 0, 0, 0, 0, false, false⟩
  jniSingleton spec _ := .ok ⟨spec.reference_rva + 1, [], []⟩
  boundary spec _ := .ok ⟨spec.reference_rva + 1, [], []⟩
  signature spec := .ok ⟨spec.reference_rva + 1, [], []⟩

def originalInit : List UInt64 := [16, 32, 48, 64, 80, 96, 112, 128, 144]

def shiftedInit : List UInt64 := [16, 32, 97, 7, 49, 65, 81, 129, 145]

def originalSidecar : Sidecar where
  profile :=
    { init_array_count := 9
      constructor_run_ranges := [⟨2, 4⟩, ⟨6, 9⟩]
      native_mimalloc_constructor_run_ranges := [⟨2, 9⟩]
      native_mimalloc_thread_initializer_after_constructor := 2 }
  constructor_rvas :=
    .object [([50], .string [48, 120, 51, 48]), ([51], .string [48, 120, 52, 48]),
      ([52], .string [48, 120, 53, 48]), ([53], .string [48, 120, 54, 48])]
  jni_singleton_initializer_rva := 64

def shiftedLeading : LeadingConstructors where
  reference_index := [2, 3, 4, 5]
  reference_end := 6
  candidate_offset := [2, 3, 4, 0]
  candidate_entry := [49, 65, 81, 97]
  window := 6
  jni_singleton := ⟨65, [], []⟩

def shiftedProfile : HostAbiProfile where
  init_array_count := 9
  constructor_run_ranges := [⟨3, 6⟩, ⟨7, 9⟩]
  native_mimalloc_constructor_run_ranges := [⟨2, 9⟩]
  native_mimalloc_thread_initializer_after_constructor := 4

theorem constructors_spec_shifted :
    Separated shiftedProfile.constructor_run_ranges ∧
      shiftedProfile.hasVerifiedConstructorPolicy 5 = true ∧
        ∀ finders next leading,
          matchLeadingConstructors finders (constructorAnchors shiftedLeading)
              (Sidecar.jniSpec ⟨shiftedProfile, constructorAnchors shiftedLeading, 65⟩)
                shiftedInit next = .ok leading →
            ∃ profile, deriveProfile shiftedProfile leading next.length = .ok profile := by
  have hmatch : matchLeadingConstructors shiftedFinders
      originalSidecar.constructor_rvas originalSidecar.jniSpec
      originalInit shiftedInit = .ok shiftedLeading := by rfl
  obtain ⟨hranges, hpolicy⟩ := constructors_spec hmatch
  obtain ⟨-, -, -, hseparated, -⟩ :=
    hranges (some (originalSidecar.profile.constructor_run_ranges.map some)) 9
      shiftedProfile.constructor_run_ranges (by decide)
  have hexcluded : ∀ i, Excludes originalSidecar.profile i →
      i ∈ shiftedLeading.reference_index := by
    rintro i ⟨native, hnative, hlow, hhigh, hno⟩
    obtain rfl : ⟨2, 9⟩ = native := List.singleton_inj.1 hnative
    have hall : ∀ j < 8, 2 ≤ j → originalSidecar.profile.allowsConstructor j = false →
        j ∈ shiftedLeading.reference_index := by decide
    exact hall i hhigh hlow hno
  obtain ⟨hverified, -, -, hderived⟩ :=
    hpolicy 3 5 shiftedProfile (by decide) (by decide) (by decide) hexcluded
  obtain ⟨-, hreached⟩ := hderived (by decide)
  obtain ⟨-, -, hfurther⟩ := hreached _ _ ⟨_, [], rfl, .refl _⟩
  refine ⟨hseparated, hverified, fun finders next leading hnext => ?_⟩
  obtain ⟨profile, hprofile, -⟩ := hfurther finders next leading hnext
  exact ⟨profile, hprofile⟩

end Nightcap.Update.HostAbi
