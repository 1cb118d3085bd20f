import Nightcap.Lib.Runs

/-! Which constructors of a payload a host ABI profile runs, and the one policy that a profile may
have. -/
namespace Nightcap.Compat

open Runs

abbrev ConstructorRange := Runs.Range

def ConstructorRange.isValidFor (range : ConstructorRange) (constructor_count : Nat) : Bool :=
  range.begin < range.end_exclusive && range.end_exclusive ≤ constructor_count

def kMaxConstructorRunRanges : Nat := 26

/-- The fields about constructors. -/
structure HostAbiProfile where
  init_array_count : Nat := 0
  constructor_run_ranges : List ConstructorRange := []
  native_mimalloc_constructor_run_ranges : List ConstructorRange := []
  native_mimalloc_thread_initializer_after_constructor : Nat := 0
deriving DecidableEq

namespace HostAbiProfile

/-- The loop over the ranges, from the end of the one before. -/
def validFrom (constructor_count : Nat) : Nat → List ConstructorRange → Bool
  | _, [] => true
  | previous_end, range :: ranges =>
    range.isValidFor constructor_count && previous_end ≤ range.begin &&
      validFrom constructor_count range.end_exclusive ranges

def validRanges (ranges : List ConstructorRange) (constructor_count : Nat) : Bool :=
  ranges.length ≠ 0 && ranges.length ≤ kMaxConstructorRunRanges &&
    validFrom constructor_count 0 ranges

def allowedBy (ranges : List ConstructorRange) (index : Nat) : Bool :=
  ranges.any fun range => range.begin ≤ index && index < range.end_exclusive

variable (profile : HostAbiProfile)

def hasValidConstructorRanges : Bool :=
  validRanges profile.constructor_run_ranges profile.init_array_count

def allowsConstructor (index : Nat) : Bool :=
  profile.hasValidConstructorRanges && allowedBy profile.constructor_run_ranges index

def constructorRangeBegin : Nat :=
  if profile.hasValidConstructorRanges then
    (profile.constructor_run_ranges.head?.map (·.begin)).getD 0
  else 0

def hasValidNativeMimallocConstructorRanges : Bool :=
  validRanges profile.native_mimalloc_constructor_run_ranges profile.init_array_count

/-- The constructors from an index on that do not run. -/
def excludedBetween (first past : Nat) : Nat :=
  (List.range' first (past - first)).countP fun index => !profile.allowsConstructor index

def kLeadingConstructors : Nat := 4

def kLeadingConstructorWindow : Nat := kLeadingConstructors + 2

def kWiringConstructors : Nat := 2

/-- Where the leading constructors of a replay end at the latest. -/
def leadingEnd (first : Nat) : Nat :=
  min (first + kLeadingConstructorWindow) profile.init_array_count

def hasVerifiedConstructorPolicy (jni_singleton_constructor : Nat) : Bool :=
  if !profile.hasValidConstructorRanges || !profile.hasValidNativeMimallocConstructorRanges then
    false
  else
    match profile.native_mimalloc_constructor_run_ranges,
      profile.constructor_run_ranges.getLast? with
    | [native], some tail =>
      let begin := native.begin
      let checkpoint := profile.native_mimalloc_thread_initializer_after_constructor
      if profile.init_array_count < begin + kLeadingConstructors then false
      else
        let leading_end := profile.leadingEnd begin
        if native.end_exclusive ≠ profile.init_array_count || checkpoint < begin ||
          leading_end ≤ checkpoint ||
            !profile.allowsConstructor checkpoint || jni_singleton_constructor < begin ||
            leading_end ≤ jni_singleton_constructor || jni_singleton_constructor == checkpoint ||
            !profile.allowsConstructor jni_singleton_constructor ||
              profile.constructorRangeBegin < begin ||
            leading_end < tail.begin || tail.end_exclusive ≠ profile.init_array_count then false
        else profile.excludedBetween begin leading_end == kWiringConstructors
    | _, _ => false

/-! What the checks say. -/

variable {profile : HostAbiProfile} {ranges : List ConstructorRange} {range : ConstructorRange}
  {constructor_count previous_end index jni first past : Nat}

theorem allowedBy_iff : allowedBy ranges index = true ↔ Covered ranges index := by
  simp [allowedBy, Covered, Range.Covers]

theorem isValidFor_iff :
    range.isValidFor constructor_count = true ↔ range.begin < range.end_exclusive ∧
      range.end_exclusive ≤ constructor_count := by
  rw [ConstructorRange.isValidFor, Bool.and_eq_true, decide_eq_true_eq, decide_eq_true_eq]

theorem validFrom_of_separated (h : Separated ranges)
    (hprevious : ∀ r ∈ ranges, previous_end ≤ r.begin)
    (hcount : ∀ r ∈ ranges, r.end_exclusive ≤ constructor_count) :
    validFrom constructor_count previous_end ranges = true := by
  induction ranges generalizing previous_end with
  | nil => rfl
  | cons range ranges ih =>
    obtain ⟨hapart, hrest⟩ := List.pairwise_cons.1 h.apart
    have hrange : range.isValidFor constructor_count = true :=
      isValidFor_iff.2 ⟨h.nonempty range List.mem_cons_self, hcount range List.mem_cons_self⟩
    rw [validFrom, hrange, decide_eq_true (hprevious range List.mem_cons_self),
      Bool.true_and, Bool.true_and]
    exact ih ⟨fun r hr => h.nonempty r (List.mem_cons_of_mem _ hr), hrest⟩
      (fun r hr => Nat.le_of_lt (hapart r hr))
      fun r hr => hcount r (List.mem_cons_of_mem _ hr)

theorem validRanges_of_separated (h : Separated ranges) (hne : ranges ≠ [])
    (hlength : ranges.length ≤ kMaxConstructorRunRanges)
    (hcount : ∀ r ∈ ranges, r.end_exclusive ≤ constructor_count) :
    validRanges ranges constructor_count = true := by
  rw [validRanges, validFrom_of_separated h (fun _ _ => Nat.zero_le _) hcount]
  simpa [hne] using hlength

/-- The policy as a list of conditions. -/
structure Verified (profile : HostAbiProfile) (jni : Nat)
    (native tail : ConstructorRange) : Prop where
  valid : profile.hasValidConstructorRanges = true
  valid_native : profile.hasValidNativeMimallocConstructorRanges = true
  only : profile.native_mimalloc_constructor_run_ranges = [native]
  last : profile.constructor_run_ranges.getLast? = some tail
  enough : native.begin + kLeadingConstructors ≤ profile.init_array_count
  native_end : native.end_exclusive = profile.init_array_count
  checkpoint_low : native.begin ≤ profile.native_mimalloc_thread_initializer_after_constructor
  checkpoint_high :
    profile.native_mimalloc_thread_initializer_after_constructor < profile.leadingEnd native.begin
  checkpoint_runs :
    profile.allowsConstructor profile.native_mimalloc_thread_initializer_after_constructor = true
  jni_low : native.begin ≤ jni
  jni_high : jni < profile.leadingEnd native.begin
  jni_ne : jni ≠ profile.native_mimalloc_thread_initializer_after_constructor
  jni_runs : profile.allowsConstructor jni = true
  begin_low : native.begin ≤ profile.constructorRangeBegin
  tail_begin : tail.begin ≤ profile.leadingEnd native.begin
  tail_end : tail.end_exclusive = profile.init_array_count
  excluded :
    profile.excludedBetween native.begin (profile.leadingEnd native.begin) = kWiringConstructors

theorem hasVerifiedConstructorPolicy_iff :
    profile.hasVerifiedConstructorPolicy jni = true ↔
      ∃ native tail, Verified profile jni native tail := by
  unfold hasVerifiedConstructorPolicy
  split
  · rename_i hinvalid
    refine iff_of_false Bool.false_ne_true ?_
    rintro ⟨native, tail, h⟩
    rw [h.valid, h.valid_native] at hinvalid
    exact Bool.false_ne_true hinvalid
  · rename_i hvalid
    simp only [Bool.or_eq_true, Bool.not_eq_true', not_or, Bool.not_eq_false] at hvalid
    split
    · rename_i native tail hnative htail
      simp only
      split
      · rename_i hshort
        refine iff_of_false Bool.false_ne_true ?_
        rintro ⟨native', tail', h⟩
        obtain rfl : native' = native := List.singleton_inj.1 (h.only.symm.trans hnative)
        exact absurd h.enough (Nat.not_le.2 hshort)
      · rename_i hshort
        constructor
        · intro h
          split at h
          · cases h
          · rename_i hall
            simp only [Bool.or_eq_true, decide_eq_true_eq, Bool.not_eq_true', not_or,
              not_not, not_lt, not_le,
              beq_iff_eq, Bool.not_eq_false] at hall
            obtain ⟨⟨⟨⟨⟨⟨⟨⟨⟨⟨h1, h2⟩, h3⟩, h4⟩, h5⟩, h6⟩, h7⟩, h8⟩, h9⟩, h10⟩, h11⟩ := hall
            exact ⟨native, tail, hvalid.1, hvalid.2, hnative, htail, Nat.not_lt.1 hshort, h1,
              h2, h3, h4, h5, h6, h7, h8,
              h9, h10, h11, beq_iff_eq.1 h⟩
        · rintro ⟨native', tail', h⟩
          obtain rfl : native' = native := List.singleton_inj.1 (h.only.symm.trans hnative)
          obtain rfl : tail' = tail := Option.some_inj.1 (h.last.symm.trans htail)
          rw [if_neg]
          · exact beq_iff_eq.2 h.excluded
          · simp only [Bool.or_eq_true, decide_eq_true_eq, Bool.not_eq_true', not_or, not_not,
              not_lt, not_le, beq_iff_eq,
              Bool.not_eq_false]
            exact ⟨⟨⟨⟨⟨⟨⟨⟨⟨⟨h.native_end, h.checkpoint_low⟩, h.checkpoint_high⟩, h.checkpoint_runs⟩,
              h.jni_low⟩, h.jni_high⟩,
              h.jni_ne⟩, h.jni_runs⟩, h.begin_low⟩, h.tail_begin⟩, h.tail_end⟩
    · rename_i hother
      refine iff_of_false Bool.false_ne_true ?_
      rintro ⟨native, tail, h⟩
      exact hother native tail h.only h.last

/-- The number of the constructors that do not run. -/
theorem excludedBetween_eq :
    profile.excludedBetween first past = ((Finset.Ico first past).filter fun i =>
      profile.allowsConstructor i = false).card := by
  rw [excludedBetween, List.countP_eq_length_filter,
    ← List.toFinset_card_of_nodup ((List.nodup_range' 1 (by decide)).filter _)]
  refine congrArg Finset.card (Finset.ext fun i => ?_)
  simp only [List.mem_toFinset, List.mem_filter, List.mem_range'_1, Finset.mem_filter,
    Finset.mem_Ico, Bool.not_eq_true']
  refine and_congr_left fun _ => ?_
  omega

end HostAbiProfile

end Nightcap.Compat
