import Nightcap.Update.LeadingSafety

/-! The ranges of constructors that are derived from those of a reference, and that the policy of a
profile and the checks of a further derivation hold of them. -/
namespace Nightcap.Update.HostAbi

open Runs Compat

variable {leading : LeadingConstructors} {range last : ConstructorRange}
  {rs out : List ConstructorRange}
  {ranges : Option (List (Option ConstructorRange))} {entries : List (Option ConstructorRange)}
  {s after : Remapping}
  {runs : List Bool} {pairs : List (Nat × Nat)} {offsets : List Nat}
  {previous reference_count candidate_count i o : Nat}

/-! Which of the window run. -/

theorem getD_set {b : Bool} (ho : o < runs.length) :
    (runs.set i b).getD o false = if i = o then b else runs.getD o false := by
  rw [List.getD_eq_getElem?_getD, List.getD_eq_getElem?_getD, List.getElem?_set]
  split
  · rename_i heq
    subst heq
    rw [if_pos ho]
    rfl
  · rfl

theorem length_foldl_set {step : List Bool → α → List Bool} {xs : List α}
    (hstep : ∀ runs x, (step runs x).length = runs.length) :
    (xs.foldl step runs).length = runs.length := by
  induction xs generalizing runs with
  | nil => rfl
  | cons x xs ih => rw [List.foldl_cons, ih, hstep]

theorem foldl_set_false (ho : o < runs.length) :
    (offsets.foldl (fun runs offset => runs.set offset false) runs).getD o false = true ↔
      o ∉ offsets ∧ runs.getD o false = true := by
  induction offsets generalizing runs with
  | nil => simp
  | cons offset offsets ih =>
    rw [List.foldl_cons, ih (by rwa [List.length_set]), getD_set ho, List.mem_cons, not_or]
    by_cases heq : offset = o
    · simp [heq]
    · simp [heq, Ne.symm heq]

theorem length_runAnchor {anchor : Nat × Nat} :
    (runAnchor range runs anchor).length = runs.length := by
  unfold runAnchor
  split
  · exact List.length_set
  · rfl

theorem foldl_runAnchor (ho : o < runs.length) :
    (pairs.foldl (runAnchor range) runs).getD o false = true ↔
      (∃ p ∈ pairs, p.2 = o ∧ range.Covers p.1) ∨ runs.getD o false = true := by
  induction pairs generalizing runs with
  | nil => simp
  | cons p pairs ih =>
    have hnext : (runAnchor range runs p).getD o false = true ↔ p.2 = o ∧ range.Covers p.1 ∨
        runs.getD o false = true := by
      unfold runAnchor
      split
      · rename_i hcovers
        have hcovers : range.Covers p.1 := hcovers
        rw [getD_set ho]
        by_cases heq : p.2 = o
        · simp [heq, hcovers]
        · simp [heq]
      · rename_i hcovers
        have hcovers : ¬ range.Covers p.1 := hcovers
        simp [hcovers]
    rw [List.foldl_cons, ih (by rwa [length_runAnchor]), hnext, ← or_assoc]
    refine or_congr_left ?_
    rw [or_comm]
    simp only [List.mem_cons, exists_eq_or_imp]

theorem length_runLeading : (runLeading leading range runs).length = runs.length :=
  length_foldl_set fun _ _ => length_runAnchor

theorem length_initialRuns : (initialRuns leading).length = leading.window := by
  rw [initialRuns, length_foldl_set fun _ _ => List.length_set, List.length_replicate]

/-- The marks of the window after the ranges. -/
def runsOf (leading : LeadingConstructors) (rs : List ConstructorRange) : List Bool :=
  rs.foldl (fun runs range => runLeading leading range runs) (initialRuns leading)

theorem foldl_runLeading (ho : o < runs.length) :
    (rs.foldl (fun runs range => runLeading leading range runs) runs).getD o false = true ↔
      (∃ p ∈ leading.anchors, p.2 = o ∧ Covered rs p.1) ∨ runs.getD o false = true := by
  induction rs generalizing runs with
  | nil => simp [Covered]
  | cons range rs ih =>
    rw [List.foldl_cons, ih (by rwa [length_runLeading]), runLeading,
      foldl_runAnchor ho, ← or_assoc]
    refine or_congr_left ?_
    constructor
    · rintro (⟨p, hp, ho, r, hr, hcovers⟩ | ⟨p, hp, ho, hcovers⟩)
      · exact ⟨p, hp, ho, r, List.mem_cons_of_mem _ hr, hcovers⟩
      · exact ⟨p, hp, ho, range, List.mem_cons_self, hcovers⟩
    · rintro ⟨p, hp, ho, r, hr, hcovers⟩
      rcases List.mem_cons.1 hr with rfl | hr
      · exact .inr ⟨p, hp, ho, hcovers⟩
      · exact .inl ⟨p, hp, ho, r, hr, hcovers⟩

theorem runsOf_iff (ho : o < leading.window) :
    (runsOf leading rs).getD o false = true ↔
      o ∉ leading.candidate_offset ∨ ∃ p ∈ leading.anchors, p.2 = o ∧ Covered rs p.1 := by
  have hlength : o < (List.replicate leading.window true).length := by rwa [List.length_replicate]
  rw [runsOf, foldl_runLeading (by rwa [length_initialRuns]), initialRuns,
    foldl_set_false hlength, or_comm]
  simp [ho]

/-! The ranges that are accepted. -/

/-- Ascending ranges that are not empty, from an end on and up to a number of constructors. -/
def Fits (reference_count : Nat) : Nat → List ConstructorRange → Prop
  | _, [] => True
  | previous, range :: rs =>
    range.begin < range.end_exclusive ∧ previous ≤ range.begin ∧
      range.end_exclusive ≤ reference_count ∧
      kLeadingConstructorBegin ≤ range.begin ∧ Fits reference_count range.end_exclusive rs

def remapped (leading : LeadingConstructors) (s : Remapping) (range : ConstructorRange) :
    Remapping :=
  ⟨runLeading leading range s.runs, range.end_exclusive, range.begin, range.end_exclusive⟩

theorem remapRange_iff {entry : Option ConstructorRange} :
    remapRange leading reference_count s entry = .ok after ↔ ∃ range, entry = some range ∧
      range.begin < range.end_exclusive ∧ s.previous_end ≤ range.begin ∧
        range.end_exclusive ≤ reference_count ∧
        kLeadingConstructorBegin ≤ range.begin ∧ after = remapped leading s range := by
  cases entry with
  | none => exact iff_of_false nofun nofun
  | some range =>
    rw [remapRange]
    split
    · rename_i hno
      refine iff_of_false nofun ?_
      rintro ⟨r, hr, h1, h2, h3, h4, -⟩
      cases hr
      omega
    · rename_i hno
      constructor
      · intro h
        cases h
        exact ⟨range, rfl, by omega, by omega, by omega, by omega, rfl⟩
      · rintro ⟨r, hr, -, -, -, -, rfl⟩
        cases hr
        rfl

theorem foldlM_remapRange_iff :
    entries.foldlM (remapRange leading reference_count) s = .ok after ↔
      ∃ rs, entries = rs.map some ∧ Fits reference_count s.previous_end rs ∧
        after = rs.foldl (remapped leading) s := by
  induction entries generalizing s with
  | nil =>
    constructor
    · intro h
      cases h
      exact ⟨[], rfl, trivial, rfl⟩
    · rintro ⟨rs, hrs, -, rfl⟩
      rw [List.map_eq_nil_iff.1 hrs.symm]
      rfl
  | cons entry entries ih =>
    rw [List.foldlM_cons]
    constructor
    · intro h
      obtain ⟨next, hnext, h⟩ := bind_ok h
      obtain ⟨range, rfl, h1, h2, h3, h4, rfl⟩ := remapRange_iff.1 hnext
      obtain ⟨rs, rfl, hfits, rfl⟩ := ih.1 h
      exact ⟨range :: rs, rfl, ⟨h1, h2, h3, h4, hfits⟩, rfl⟩
    · rintro ⟨rs, hrs, hfits, rfl⟩
      cases rs with
      | nil => cases hrs
      | cons range rest =>
        obtain ⟨rfl, rfl⟩ := List.cons_eq_cons.1 hrs
        obtain ⟨h1, h2, h3, h4, hfits⟩ := hfits
        have hstep : remapRange leading reference_count s (some range) =
            .ok (remapped leading s range) :=
          remapRange_iff.2 ⟨range, rfl, h1, h2, h3, h4, rfl⟩
        rw [hstep]
        exact ih.2 ⟨rest, rfl, hfits, rfl⟩

theorem foldl_remapped_runs :
    (rs.foldl (remapped leading) s).runs = rs.foldl
    (fun runs range => runLeading leading range runs) s.runs := by
  induction rs generalizing s with
  | nil => rfl
  | cons range rs ih => exact ih

/-- The ranges of the candidate by the marks of its window. -/
def emitted (leading : LeadingConstructors) (rs : List ConstructorRange) (candidate_count : Nat) :
    List ConstructorRange :=
  close (scan ((runsOf leading rs).getD · false) kLeadingConstructorBegin leading.window)
    (kLeadingConstructorBegin + leading.window) candidate_count

/-- The last of the ranges runs to the end, and begins among the leading constructors. -/
structure Fitting (leading : LeadingConstructors) (reference_count candidate_count : Nat)
    (rs : List ConstructorRange)
    (last : ConstructorRange) : Prop where
  fits : Fits reference_count 0 (rs ++ [last])
  tail : last.begin ≤ leading.reference_end
  whole : last.end_exclusive = reference_count
  past : leading.reference_end < reference_count
  room : kLeadingConstructorBegin + leading.window < candidate_count

theorem remapConstructorRanges_iff :
    remapConstructorRanges ranges leading reference_count candidate_count = .ok out ↔
      ∃ rs last, ranges = some ((rs ++ [last]).map some) ∧
        Fitting leading reference_count candidate_count rs last ∧
          out = emitted leading (rs ++ [last]) candidate_count := by
  have htail : ∀ (rs : List ConstructorRange) (last : ConstructorRange) (s : Remapping),
      (rs ++ [last]).foldl (remapped leading) s = remapped leading
      (rs.foldl (remapped leading) s) last :=
    fun rs last s => List.foldl_append
  have hruns : ∀ rs : List ConstructorRange,
      (rs.foldl (remapped leading) { runs := initialRuns leading }).runs = runsOf leading rs :=
    fun rs => foldl_remapped_runs
  unfold remapConstructorRanges
  split
  · refine iff_of_false nofun ?_
    rintro ⟨rs, last, hnone, -⟩
    cases hnone
  · refine iff_of_false nofun ?_
    rintro ⟨rs, last, hnil, -⟩
    simp at hnil
  · rename_i entries hne
    constructor
    · intro h
      obtain ⟨after, hafter, h⟩ := bind_ok h
      obtain ⟨hcheck, h⟩ := check_ok h
      cases h
      obtain ⟨all, rfl, hfits, rfl⟩ := foldlM_remapRange_iff.1 hafter
      rcases List.eq_nil_or_concat all with rfl | ⟨rs, last, rfl⟩
      · exact absurd rfl hne
      · rw [List.concat_eq_append] at hfits hcheck ⊢
        rw [htail] at hcheck
        simp only [remapped] at hcheck
        rw [hruns]
        exact ⟨rs, last, rfl, ⟨hfits, by omega, by omega, by omega, by omega⟩, rfl⟩
    · rintro ⟨rs, last, hranges, ⟨hfits, h1, h2, h3, h4⟩, rfl⟩
      cases hranges
      have hfold : ((rs ++ [last]).map some).foldlM (remapRange leading reference_count)
          { runs := initialRuns leading } = .ok _ :=
        foldlM_remapRange_iff.2 ⟨rs ++ [last], rfl, hfits, rfl⟩
      rw [hfold, htail]
      change (if _ then _ else _) = _
      rw [if_neg]
      · rw [← htail, hruns]
        rfl
      · simp only [remapped]
        omega

/-! What the new ranges cover. -/

theorem holds_emitted (rs : List ConstructorRange) :
    Holds ((runsOf leading rs).getD · false) kLeadingConstructorBegin leading.window
      (scan ((runsOf leading rs).getD · false) kLeadingConstructorBegin leading.window) :=
  holds_scan _ _ _

theorem covered_emitted (hroom : kLeadingConstructorBegin + leading.window < candidate_count) :
    Covered (emitted leading rs candidate_count) i ↔
      (kLeadingConstructorBegin ≤ i ∧ i < kLeadingConstructorBegin + leading.window ∧
        (i - kLeadingConstructorBegin ∉ leading.candidate_offset ∨
          ∃ p ∈ leading.anchors, p.2 = i - kLeadingConstructorBegin ∧ Covered rs p.1)) ∨
      kLeadingConstructorBegin + leading.window ≤ i ∧ i < candidate_count := by
  rw [emitted, covered_close (holds_emitted rs) hroom]
  refine or_congr_left (and_congr_right fun hlow => and_congr_right fun hhigh => ?_)
  exact runsOf_iff (by omega)

theorem separated_emitted (hroom : kLeadingConstructorBegin + leading.window < candidate_count) :
    Separated (emitted leading rs candidate_count) :=
  separated_close (holds_emitted rs) hroom

theorem low_emitted (hr : range ∈ emitted leading rs candidate_count) :
    kLeadingConstructorBegin ≤ range.begin :=
  low_close (holds_emitted rs) hr

theorem begin_emitted_le (hr : range ∈ emitted leading rs candidate_count) :
    range.begin ≤ kLeadingConstructorBegin + leading.window :=
  begin_close_le (holds_emitted rs) hr

theorem end_emitted_le (hroom : kLeadingConstructorBegin + leading.window < candidate_count)
    (hr : range ∈ emitted leading rs candidate_count) : range.end_exclusive ≤ candidate_count :=
  end_close_le (holds_emitted rs) hroom hr

theorem emitted_ne_nil : emitted leading rs candidate_count ≠ [] :=
  List.append_ne_nil_of_right_ne_nil _ (List.cons_ne_nil _ _)

/-- The last range runs to the end of the candidate. -/
theorem getLast?_emitted (leading : LeadingConstructors) (rs : List ConstructorRange)
    (candidate_count : Nat) :
    ∃ rest last, emitted leading rs candidate_count = rest ++ [last] ∧
    last.end_exclusive = candidate_count := ⟨_, _, rfl, rfl⟩

/-! Against the anchors of the reference. -/

variable {constructor_anchors : Json} {jni_rva : UInt64}
  {reference_init candidate_init : List UInt64}
  {reference profile : HostAbiProfile} {native tail : ConstructorRange} {jni a : Nat}

theorem covered_emitted_place
    (h : leading.Sound constructor_anchors jni_rva reference_init candidate_init) :
    Covered (emitted leading rs candidate_init.length) i ↔
      (kLeadingConstructorBegin ≤ i ∧ i < kLeadingConstructorBegin + leading.window ∧
        ∀ a ∈ leading.reference_index, leading.place a = i → Covered rs a) ∨
      kLeadingConstructorBegin + leading.window ≤ i ∧ i < candidate_init.length := by
  rw [covered_emitted h.room]
  refine or_congr_left (and_congr_right fun hlow => and_congr_right fun _ => ?_)
  have hsum : kLeadingConstructorBegin + (i - kLeadingConstructorBegin) = i :=
    Nat.add_sub_cancel' hlow
  constructor
  · rintro (hfree | ⟨p, hp, hplace, hcovered⟩) a ha heq
    · exact absurd (h.mem_offsets.2 ⟨a, ha, heq.trans hsum.symm⟩) hfree
    · obtain ⟨hmem, hat⟩ := h.mem_anchors.1 hp
      rw [hplace, hsum] at hat
      exact h.place_inj hmem ha (hat.trans heq.symm) ▸ hcovered
  · intro hall
    by_cases hfree : i - kLeadingConstructorBegin ∈ leading.candidate_offset
    · obtain ⟨a, ha, heq⟩ := h.mem_offsets.1 hfree
      exact .inr ⟨(a, i - kLeadingConstructorBegin), h.mem_anchors.2 ⟨ha, heq⟩, rfl,
        hall a ha (heq.trans hsum)⟩
    · exact .inl hfree

theorem covered_place (h : leading.Sound constructor_anchors jni_rva reference_init candidate_init)
    (ha : a ∈ leading.reference_index) :
    Covered (emitted leading rs candidate_init.length) (leading.place a) ↔ Covered rs a := by
  obtain ⟨hlow, hhigh⟩ := h.place_bounds ha
  rw [covered_emitted_place h]
  constructor
  · rintro (⟨-, -, hall⟩ | ⟨hpast, -⟩)
    · exact hall a ha rfl
    · omega
  · intro hcovered
    exact .inl ⟨hlow, hhigh, fun b hb heq => h.place_inj ha hb heq.symm ▸ hcovered⟩

/-- What does not run in the candidate is the place of an anchor that does not run. -/
theorem not_covered_emitted
    (h : leading.Sound constructor_anchors jni_rva reference_init candidate_init)
    (hlow : kLeadingConstructorBegin ≤ i) (hhigh : i < candidate_init.length)
    (hno : ¬ Covered (emitted leading rs candidate_init.length) i) :
    ∃ a ∈ leading.reference_index, leading.place a = i ∧ ¬ Covered rs a := by
  rw [covered_emitted_place h, not_or] at hno
  have hinside : i < kLeadingConstructorBegin + leading.window := by
    by_contra hpast
    exact hno.2 ⟨Nat.not_lt.1 hpast, hhigh⟩
  have hall : ¬ ∀ a ∈ leading.reference_index, leading.place a = i → Covered rs a :=
    fun hall => hno.1 ⟨hlow, hinside, hall⟩
  simpa only [not_forall, exists_prop] using hall

/-! The policy. -/

theorem allowsConstructor_iff (h : profile.hasValidConstructorRanges = true) :
    profile.allowsConstructor i = true ↔ Covered profile.constructor_run_ranges i := by
  rw [HostAbiProfile.allowsConstructor, h, Bool.true_and, HostAbiProfile.allowedBy_iff]

/-- A verified policy, with the constructors that it names or leaves out among the anchors. -/
structure Anchored (profile : HostAbiProfile) (indexes : List Nat) (jni : Nat)
    (native tail : ConstructorRange) :
    Prop where
  policy : profile.Verified jni native tail
  jni : jni ∈ indexes
  checkpoint : profile.native_mimalloc_thread_initializer_after_constructor ∈ indexes
  excluded : ∀ i, native.begin ≤ i → i < profile.leadingEnd native.begin →
    profile.allowsConstructor i = false →
    i ∈ indexes

/-- The anchors are the two that are left out and the two that the policy names. -/
theorem Anchored.anchors {indexes : List Nat} (ha : Anchored profile indexes jni native tail)
    (hnodup : indexes.Nodup)
    (hcount : indexes.length = kLeadingConstructorCount) :
    (∀ a ∈ indexes, native.begin ≤ a ∧ a < profile.leadingEnd native.begin) ∧
      (indexes.toFinset.filter fun a => profile.allowsConstructor a = false).card =
        HostAbiProfile.kWiringConstructors := by
  have hp := ha.policy
  have hexcluded := hp.excluded
  rw [HostAbiProfile.excludedBetween_eq] at hexcluded
  set wiring := (Finset.Ico native.begin (profile.leadingEnd native.begin)).filter fun i =>
    profile.allowsConstructor i = false with hwiring
  set checkpoint := profile.native_mimalloc_thread_initializer_after_constructor with hcheckpoint
  have hnot : ∀ i, profile.allowsConstructor i = true → i ∉ wiring := by
    intro i hruns hi
    rw [(Finset.mem_filter.1 hi).2] at hruns
    cases hruns
  have hjni : jni ∉ wiring := hnot jni hp.jni_runs
  have hnew : checkpoint ∉ insert jni wiring := by
    rw [Finset.mem_insert, not_or]
    exact ⟨hp.jni_ne.symm, hnot _ hp.checkpoint_runs⟩
  have hsub : insert checkpoint (insert jni wiring) ⊆ indexes.toFinset := by
    intro i hi
    rw [List.mem_toFinset]
    rcases Finset.mem_insert.1 hi with rfl | hi
    · exact ha.checkpoint
    · rcases Finset.mem_insert.1 hi with rfl | hi
      · exact ha.jni
      · obtain ⟨hbounds, hno⟩ := Finset.mem_filter.1 hi
        exact ha.excluded i (Finset.mem_Ico.1 hbounds).1 (Finset.mem_Ico.1 hbounds).2 hno
  have hcard : indexes.toFinset.card ≤ (insert checkpoint (insert jni wiring)).card := by
    rw [List.toFinset_card_of_nodup hnodup, hcount, Finset.card_insert_of_notMem hnew,
      Finset.card_insert_of_notMem hjni, hexcluded]
    exact le_rfl
  have hall := Finset.eq_of_subset_of_card_le hsub hcard
  have hbounds : ∀ a ∈ indexes, native.begin ≤ a ∧ a < profile.leadingEnd native.begin := by
    intro a hmem
    rw [← List.mem_toFinset, ← hall] at hmem
    rcases Finset.mem_insert.1 hmem with rfl | hmem
    · exact ⟨hp.checkpoint_low, hp.checkpoint_high⟩
    · rcases Finset.mem_insert.1 hmem with rfl | hmem
      · exact ⟨hp.jni_low, hp.jni_high⟩
      · exact Finset.mem_Ico.1 (Finset.mem_filter.1 hmem).1
  refine ⟨hbounds, ?_⟩
  rw [← hexcluded]
  refine congrArg Finset.card (Finset.ext fun i => ?_)
  rw [Finset.mem_filter, hwiring, Finset.mem_filter, List.mem_toFinset, Finset.mem_Ico]
  refine and_congr_left fun hno => ⟨hbounds i, fun hi => ha.excluded i hi.1 hi.2 hno⟩

end Nightcap.Update.HostAbi
