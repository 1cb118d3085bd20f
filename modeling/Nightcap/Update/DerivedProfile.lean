import Nightcap.Update.ConstructorSafety

/-! The profile that is derived from one with a verified policy has a verified policy. -/
namespace Nightcap.Update.HostAbi

open Runs Compat

variable {leading : LeadingConstructors} {constructor_anchors : Json} {jni_rva : UInt64}
  {reference_init candidate_init : List UInt64} {reference profile : HostAbiProfile}
  {native tail : ConstructorRange}
  {indexes : List Nat} {jni i j : Nat}

/-- What is derived once the ranges are accepted and the thread initializer is carried along. -/
def derived (reference : HostAbiProfile) (leading : LeadingConstructors)
    (candidate_count : Nat) : HostAbiProfile where
  init_array_count := candidate_count
  constructor_run_ranges := emitted leading reference.constructor_run_ranges candidate_count
  native_mimalloc_constructor_run_ranges :=
    emitted leading reference.native_mimalloc_constructor_run_ranges candidate_count
  native_mimalloc_thread_initializer_after_constructor :=
    leading.place reference.native_mimalloc_thread_initializer_after_constructor

/-- A list of ranges that is accepted, as its last one and the ones in front. -/
def Remappable (leading : LeadingConstructors) (reference_count candidate_count : Nat)
    (rs : List ConstructorRange) : Prop :=
  ∃ front last, rs = front ++ [last] ∧ Fitting leading reference_count candidate_count front last

theorem remap_iff {reference_count candidate_count : Nat} {rs out : List ConstructorRange} :
    remapConstructorRanges (some (rs.map some)) leading reference_count candidate_count = .ok out ↔
      Remappable leading reference_count candidate_count rs ∧
        out = emitted leading rs candidate_count := by
  rw [remapConstructorRanges_iff]
  constructor
  · rintro ⟨front, last, heq, hfitting, rfl⟩
    obtain rfl := List.map_injective_iff.2 (Option.some_injective _) (Option.some_inj.1 heq)
    exact ⟨⟨front, last, rfl, hfitting⟩, rfl⟩
  · rintro ⟨⟨front, last, rfl, hfitting⟩, rfl⟩
    exact ⟨front, last, rfl, hfitting, rfl⟩

theorem deriveProfile_iff {candidate_count : Nat} :
    deriveProfile reference leading candidate_count = .ok profile ↔
      Remappable leading reference.init_array_count candidate_count
        reference.constructor_run_ranges ∧
        Remappable leading reference.init_array_count candidate_count
          reference.native_mimalloc_constructor_run_ranges ∧
          reference.native_mimalloc_thread_initializer_after_constructor ∈ leading.reference_index ∧
            profile = derived reference leading candidate_count := by
  constructor
  · intro h
    unfold deriveProfile at h
    simp only at h
    split at h
    · rename_i constructor_ranges native_ranges hhost hnative
      obtain ⟨haccepted, rfl⟩ := remap_iff.1 hhost
      obtain ⟨haccepted', rfl⟩ := remap_iff.1 hnative
      split at h
      · cases h
      · rename_i thread_boundary hcarried
        obtain ⟨hmem, rfl⟩ := mem_of_carried hcarried
        cases h
        exact ⟨haccepted, haccepted', hmem, rfl⟩
    · cases h
    · cases h
  · rintro ⟨hhost, hnative, hmem, rfl⟩
    unfold deriveProfile
    simp only [remap_iff.2 ⟨hhost, rfl⟩, remap_iff.2 ⟨hnative, rfl⟩, carried_of_mem hmem]
    rfl

section Policy
variable (h : leading.Sound constructor_anchors jni_rva reference_init candidate_init)
include h

theorem length_emitted_le {rs : List ConstructorRange} :
    (emitted leading rs candidate_init.length).length ≤ kMaxConstructorRunRanges := by
  have hseparated : Separated (emitted leading rs candidate_init.length) := separated_emitted h.room
  have hlength := hseparated.length_le (fun r hr => low_emitted hr) fun r hr => begin_emitted_le hr
  have hwindow := h.window_le
  simp only [kLeadingConstructorBegin, kLeadingConstructorWindow, kLeadingConstructorCount,
    kMaxConstructorRunRanges] at *
  omega

theorem valid_emitted {rs : List ConstructorRange} :
    HostAbiProfile.validRanges
      (emitted leading rs candidate_init.length) candidate_init.length = true :=
  HostAbiProfile.validRanges_of_separated (separated_emitted h.room) emitted_ne_nil
    (length_emitted_le h)
    fun _ hr => end_emitted_le h.room hr

theorem allowsConstructor_derived :
    (derived reference leading candidate_init.length).allowsConstructor i = true ↔
      Covered (emitted leading reference.constructor_run_ranges candidate_init.length) i :=
  allowsConstructor_iff (valid_emitted h)

theorem not_allowsConstructor_derived :
    (derived reference leading candidate_init.length).allowsConstructor i = false ↔
      ¬ Covered (emitted leading reference.constructor_run_ranges candidate_init.length) i := by
  rw [← allowsConstructor_derived h, Bool.not_eq_true]

/-- The window lies below where the policy looks for the leading constructors. -/
theorem window_le_leadingEnd (reference : HostAbiProfile) :
    kLeadingConstructorBegin + leading.window ≤
    (derived reference leading candidate_init.length).leadingEnd kLeadingConstructorBegin := by
  have hroom := h.room
  have hwindow := h.window_le
  refine le_min ?_ (Nat.le_of_lt hroom)
  exact Nat.add_le_add_left hwindow _

variable (ha : Anchored reference leading.reference_index jni native tail)
include ha

/-- The native replay runs all the anchors, and so all that is behind the first two. -/
theorem native_emitted :
    emitted leading reference.native_mimalloc_constructor_run_ranges candidate_init.length =
      [⟨kLeadingConstructorBegin, candidate_init.length⟩] := by
  have hroom := h.room
  have hp := ha.policy
  obtain ⟨hanchors, -⟩ := ha.anchors h.indexes_nodup h.count
  refine (separated_emitted hroom).eq_singleton (by omega) fun i => ?_
  rw [covered_emitted_place h]
  have hall : ∀ a ∈ leading.reference_index, leading.place a = i →
      Covered reference.native_mimalloc_constructor_run_ranges a := by
    intro a hmem _
    obtain ⟨hlow, hhigh⟩ := hanchors a hmem
    have hcount : reference.leadingEnd native.begin ≤ reference.init_array_count :=
      Nat.min_le_right _ _
    have hend := hp.native_end
    rw [hp.only, covered_singleton]
    exact ⟨hlow, by omega⟩
  constructor
  · rintro (⟨hlow, hhigh, -⟩ | ⟨hlow, hhigh⟩)
    · exact ⟨hlow, by omega⟩
    · exact ⟨by omega, hhigh⟩
  · rintro ⟨hlow, hhigh⟩
    rcases Nat.lt_or_ge i (kLeadingConstructorBegin + leading.window) with hin | hpast
    · exact .inl ⟨hlow, hin, hall⟩
    · exact .inr ⟨hpast, hhigh⟩

theorem place_runs {a : Nat} (hmem : a ∈ leading.reference_index) :
    (derived reference leading candidate_init.length).allowsConstructor (leading.place a) =
      reference.allowsConstructor a := by
  rw [Bool.eq_iff_iff, allowsConstructor_derived h, covered_place h hmem,
    allowsConstructor_iff ha.policy.valid]

/-- What the candidate leaves out are the places of the two anchors that the reference leaves
out. -/
theorem excluded_derived :
    (derived reference leading candidate_init.length).excludedBetween kLeadingConstructorBegin
        ((derived reference leading candidate_init.length).leadingEnd kLeadingConstructorBegin) =
      HostAbiProfile.kWiringConstructors := by
  obtain ⟨-, hcard⟩ := ha.anchors h.indexes_nodup h.count
  rw [HostAbiProfile.excludedBetween_eq, ← hcard]
  refine (congrArg Finset.card (Finset.ext fun i => ?_)).trans
    (Finset.card_image_of_injOn (f := leading.place) ?_)
  · rw [Finset.mem_filter, Finset.mem_Ico, Finset.mem_image]
    constructor
    · rintro ⟨⟨hlow, hhigh⟩, hno⟩
      have hbound : i < candidate_init.length := hhigh.trans_le (Nat.min_le_right _ _)
      obtain ⟨a, hmem, rfl, -⟩ :=
        not_covered_emitted h hlow hbound ((not_allowsConstructor_derived h).1 hno)
      rw [place_runs h ha hmem] at hno
      exact ⟨a, Finset.mem_filter.2 ⟨List.mem_toFinset.2 hmem, hno⟩, rfl⟩
    · rintro ⟨a, ha', rfl⟩
      obtain ⟨hmem, hno⟩ := Finset.mem_filter.1 ha'
      rw [List.mem_toFinset] at hmem
      obtain ⟨hlow, hhigh⟩ := h.place_bounds hmem
      exact ⟨⟨hlow, hhigh.trans_le (window_le_leadingEnd h reference)⟩,
        (place_runs h ha hmem).trans hno⟩
  · intro a ha' b hb heq
    have hmem := List.mem_toFinset.1 (Finset.mem_filter.1 ha').1
    have hmem' := List.mem_toFinset.1 (Finset.mem_filter.1 hb).1
    exact h.place_inj hmem hmem' heq

theorem verified_derived : ∃ last,
    (derived reference leading candidate_init.length).Verified (leading.place jni)
      ⟨kLeadingConstructorBegin, candidate_init.length⟩ last := by
  obtain ⟨rest, last, heq, hend⟩ :=
    getLast?_emitted leading reference.constructor_run_ranges candidate_init.length
  have hp := ha.policy
  have hroom := h.room
  have henough := h.enough
  have hwindow := window_le_leadingEnd h reference
  obtain ⟨hlow, hhigh⟩ := h.place_bounds ha.checkpoint
  obtain ⟨hlow', hhigh'⟩ := h.place_bounds ha.jni
  have hlast : last ∈ emitted leading reference.constructor_run_ranges candidate_init.length := by
    rw [heq]
    exact List.mem_append_right _ (List.mem_singleton_self _)
  refine ⟨last, ?_⟩
  constructor
  case valid => exact valid_emitted h
  case valid_native => exact valid_emitted h
  case only => exact native_emitted h ha
  case last =>
    change (emitted leading reference.constructor_run_ranges candidate_init.length).getLast? =
      some last
    rw [heq, List.getLast?_concat]
  case enough =>
    change kLeadingConstructorBegin + HostAbiProfile.kLeadingConstructors ≤ candidate_init.length
    have hsame : HostAbiProfile.kLeadingConstructors = kLeadingConstructorCount := rfl
    omega
  case native_end => rfl
  case checkpoint_low => exact hlow
  case checkpoint_high => exact hhigh.trans_le hwindow
  case checkpoint_runs => exact (place_runs h ha ha.checkpoint).trans hp.checkpoint_runs
  case jni_low => exact hlow'
  case jni_high => exact hhigh'.trans_le hwindow
  case jni_ne => exact fun hsame => hp.jni_ne (h.place_inj ha.jni ha.checkpoint hsame)
  case jni_runs => exact (place_runs h ha ha.jni).trans hp.jni_runs
  case begin_low =>
    have hne : emitted leading reference.constructor_run_ranges candidate_init.length ≠ [] :=
      emitted_ne_nil
    obtain ⟨first, more, hfirst⟩ := List.exists_cons_of_ne_nil hne
    have hmem : first ∈ emitted leading reference.constructor_run_ranges candidate_init.length := by
      rw [hfirst]
      exact List.mem_cons_self
    have hvalid : (derived reference leading candidate_init.length).hasValidConstructorRanges =
        true := valid_emitted h
    rw [HostAbiProfile.constructorRangeBegin, if_pos hvalid]
    change kLeadingConstructorBegin ≤
      (((emitted leading reference.constructor_run_ranges candidate_init.length).head?).map
        (·.begin)).getD 0
    rw [hfirst]
    exact low_emitted hmem
  case tail_begin => exact (begin_emitted_le hlast).trans hwindow
  case tail_end => exact hend
  case excluded => exact excluded_derived h ha

/-- The new anchors are the places of the old ones. -/
theorem anchored_derived (hindexes : ∀ i, i ∈ indexes ↔
    ∃ a ∈ leading.reference_index, leading.place a = i) :
    ∃ last, Anchored (derived reference leading candidate_init.length) indexes (leading.place jni)
      ⟨kLeadingConstructorBegin, candidate_init.length⟩ last := by
  obtain ⟨last, hverified⟩ := verified_derived h ha
  refine ⟨last, hverified, (hindexes _).2 ⟨_, ha.jni, rfl⟩,
    (hindexes _).2 ⟨_, ha.checkpoint, rfl⟩, ?_⟩
  intro i hlow hhigh hno
  have hbound : i < candidate_init.length := hhigh.trans_le (Nat.min_le_right _ _)
  obtain ⟨a, hmem, heq, -⟩ :=
    not_covered_emitted h hlow hbound ((not_allowsConstructor_derived h).1 hno)
  exact (hindexes i).2 ⟨a, hmem, heq⟩

end Policy

end Nightcap.Update.HostAbi
