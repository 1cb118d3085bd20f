import Nightcap.Update.HostAbiConstructors
import Nightcap.Update.SignatureSafety

/-! What holds of the leading constructors that a match returns. -/
namespace Nightcap.Update.HostAbi

variable {finders : Finders} {constructor_anchors value : Json}
  {jni_spec : SignatureSpec} {jni_rva rva : UInt64}
  {reference_init candidate_init candidate_entries : List UInt64} {leading : LeadingConstructors}
  {matching after : Matching} {indexes : List Nat} {fields : List (Bytes × Json)} {key : Bytes}
  {i j index count : Nat} {description : String}

/-! The set of the indexes. -/

theorem mem_insertIndex : j ∈ insertIndex i indexes ↔ j = i ∨ j ∈ indexes := by
  induction indexes with
  | nil => exact List.mem_singleton.trans (or_iff_left List.not_mem_nil).symm
  | cons first rest ih =>
    unfold insertIndex
    split
    · exact List.mem_cons
    · split
      · rename_i heq
        subst heq
        simp
      · rw [List.mem_cons, ih, List.mem_cons, or_left_comm]

theorem pairwise_insertIndex (h : indexes.Pairwise (· < ·)) :
    (insertIndex i indexes).Pairwise (· < ·) := by
  induction indexes with
  | nil => exact List.pairwise_singleton _ _
  | cons first rest ih =>
    obtain ⟨hfirst, hrest⟩ := List.pairwise_cons.1 h
    unfold insertIndex
    split
    · rename_i hlt
      refine List.pairwise_cons.2 ⟨fun j hj => ?_, h⟩
      rcases List.mem_cons.1 hj with rfl | hj
      · exact hlt
      · exact hlt.trans (hfirst j hj)
    · split
      · exact h
      · refine List.pairwise_cons.2 ⟨fun j hj => ?_, ih hrest⟩
        rcases mem_insertIndex.1 hj with rfl | hj
        · omega
        · exact hfirst j hj

theorem length_insertIndex_le : (insertIndex i indexes).length ≤ indexes.length + 1 := by
  induction indexes with
  | nil => exact le_rfl
  | cons first rest ih =>
    unfold insertIndex
    split
    · exact le_rfl
    · split
      · exact Nat.le_succ _
      · rw [List.length_cons, List.length_cons]
        omega

theorem anchorIndex_ok (h : anchorIndex count key = .ok i) :
    i = Ascii.decimal key ∧ kLeadingConstructorBegin ≤ i ∧
      i < kLeadingConstructorBegin + kLeadingConstructorWindow ∧ i < count := by
  unfold anchorIndex at h
  simp only at h
  split at h
  · cases h
  · rename_i hno
    cases h
    simp only [Bool.or_eq_true, decide_eq_true_eq, not_or, not_lt, not_le] at hno
    exact ⟨rfl, hno.1.1.2, hno.1.2, hno.2⟩

/-- The set that the loop over the keys makes. -/
structure Indexed (count : Nat) (fields : List (Bytes × Json)) (indexes : List Nat) : Prop where
  ascending : indexes.Pairwise (· < ·)
  length : indexes.length ≤ fields.length
  mem : ∀ i, i ∈ indexes ↔ ∃ field ∈ fields, anchorIndex count field.1 = .ok i
  named : ∀ field ∈ fields, ∃ i, anchorIndex count field.1 = .ok i

theorem indexed_of_foldlM {before : List (Bytes × Json)} {start : List Nat}
    (hstart : Indexed count before start)
    (h : fields.foldlM (fun indexes (field : Bytes × Json) => do
      .ok (insertIndex (← anchorIndex count field.1) indexes)) start = Except.ok indexes) :
    Indexed count (before ++ fields) indexes := by
  induction fields generalizing before start with
  | nil =>
    cases h
    rwa [List.append_nil]
  | cons field fields ih =>
    rw [List.foldlM_cons] at h
    obtain ⟨next, hnext, h⟩ := bind_ok h
    obtain ⟨i, hindex, hnext⟩ := bind_ok hnext
    cases hnext
    have hsplit : before ++ field :: fields = before ++ [field] ++ fields := by simp
    rw [hsplit]
    refine ih ⟨pairwise_insertIndex hstart.ascending, ?_, fun j => ?_, fun f hf => ?_⟩ h
    · rw [List.length_append, List.length_singleton]
      exact length_insertIndex_le.trans (Nat.succ_le_succ hstart.length)
    · rw [mem_insertIndex, hstart.mem]
      constructor
      · rintro (rfl | ⟨f, hf, hj⟩)
        · exact ⟨field, List.mem_append_right _ (List.mem_singleton_self _), hindex⟩
        · exact ⟨f, List.mem_append_left _ hf, hj⟩
      · rintro ⟨f, hf, hj⟩
        rcases List.mem_append.1 hf with hf | hf
        · exact .inr ⟨f, hf, hj⟩
        · rw [List.mem_singleton.1 hf, hindex] at hj
          exact .inl (Except.ok.inj hj).symm
    · rcases List.mem_append.1 hf with hf | hf
      · exact hstart.named f hf
      · rw [List.mem_singleton.1 hf]
        exact ⟨i, hindex⟩

theorem leadingIndexes_ok (h : leadingIndexes constructor_anchors count = .ok indexes) :
    ∃ fields found, constructor_anchors = .object fields ∧ Indexed count fields found ∧
      indexes = found ++ List.replicate (kLeadingConstructorCount - found.length) 0 ∧
      fields.length = kLeadingConstructorCount ∧ indexes.getLastD 0 + 1 < count := by
  unfold leadingIndexes at h
  split at h
  · rename_i fields
    obtain ⟨hlength, h⟩ := check_ok h
    obtain ⟨found, hfound, h⟩ := bind_ok h
    obtain ⟨hcount, h⟩ := check_ok h
    cases h
    have hindexed : Indexed count ([] ++ fields) found :=
      indexed_of_foldlM ⟨.nil, Nat.zero_le _, by simp, List.forall_mem_nil _⟩ hfound
    exact ⟨fields, found, rfl, hindexed, rfl, not_not.1 hlength, Nat.not_le.1 hcount⟩
  · cases h

/-! The anchors of the indexes. -/

theorem verifiedEntry_ok {entry : UInt64}
    (h : verifiedEntry constructor_anchors reference_init index = .ok entry) :
    entry = reference_init.getD index 0 ∧
      ∃ value, constructor_anchors.field? (Ascii.ofNat index) = some value ∧
      parseRva value (constructorName index) = .ok entry := by
  unfold verifiedEntry at h
  obtain ⟨anchor, hparse, h⟩ := bind_ok h
  obtain ⟨heq, h⟩ := check_ok h
  cases h
  refine ⟨not_not.1 heq, ?_⟩
  cases hfield : constructor_anchors.field? (Ascii.ofNat index) with
  | none =>
    rw [hfield] at hparse
    cases hparse
  | some value =>
    rw [hfield] at hparse
    exact ⟨value, rfl, hparse⟩

theorem mem_of_lookup {fields : List (Bytes × Json)} (h : fields.lookup key = some value) :
    (key, value) ∈ fields := by
  induction fields with
  | nil => cases h
  | cons field fields ih =>
    rw [Json.lookup_cons_ite] at h
    split at h
    · rename_i heq
      cases h
      rw [heq]
      exact List.mem_cons_self
    · exact List.mem_cons_of_mem _ (ih h)

/-- No zero fills up the array: none of the keys names it. -/
theorem indexes_verified {entries : Nat → UInt64}
    (h : leadingIndexes constructor_anchors count = .ok indexes)
    (hverified : ∀ i ∈ indexes,
      verifiedEntry constructor_anchors reference_init i = .ok (entries i)) :
    ∃ fields, constructor_anchors = .object fields ∧ Indexed count fields indexes ∧
      indexes.length = kLeadingConstructorCount ∧ indexes.getLastD 0 + 1 < count := by
  obtain ⟨fields, found, hfields, hindexed, heq, hlength, hcount⟩ := leadingIndexes_ok h
  have hle : found.length ≤ kLeadingConstructorCount := hlength ▸ hindexed.length
  rcases Nat.lt_or_ge found.length kLeadingConstructorCount with hshort | hfull
  · have hzero : 0 ∈ indexes := by
      rw [heq]
      exact List.mem_append_right _ (List.mem_replicate.2 ⟨by omega, rfl⟩)
    obtain ⟨-, value, hvalue, -⟩ := verifiedEntry_ok (hverified 0 hzero)
    rw [hfields] at hvalue
    obtain ⟨i, hi⟩ := hindexed.named _ (mem_of_lookup hvalue)
    obtain ⟨hdecimal, hlow, -⟩ := anchorIndex_ok hi
    rw [Ascii.decimal_ofNat] at hdecimal
    subst hdecimal
    cases hlow
  · have hnone : kLeadingConstructorCount - found.length = 0 := by omega
    rw [hnone, List.replicate_zero, List.append_nil] at heq
    subst heq
    exact ⟨fields, hfields, hindexed, Nat.le_antisymm hle hfull, hcount⟩

/-! The loop over the anchors. -/

/-- What the loop has after the anchors of some indexes. -/
structure Matched (finders : Finders) (constructor_anchors : Json) (jni_spec : SignatureSpec)
    (reference_init candidate_entries : List UInt64) (indexes : List Nat)
    (matching : Matching) : Prop where
  offsets : matching.candidate_offset.length = indexes.length
  nodup : matching.candidate_offset.Nodup
  entries :
    List.Forall₂ (fun offset entry => candidate_entries.idxOf? entry = some offset)
    matching.candidate_offset
    matching.candidate_entry
  verified : ∀ i ∈ indexes, verifiedEntry constructor_anchors reference_init i =
    .ok (reference_init.getD i 0)
  jni : ∀ anchor index : Nat, indexes[anchor]? = some index →
    reference_init.getD index 0 = jni_spec.reference_rva →
    ∃ found, finders.jniSingleton jni_spec candidate_entries = .ok found ∧
      matching.jni_singleton = some found ∧
      matching.candidate_entry[anchor]? = some found.rva
  found : matching.jni_singleton ≠ none →
    ∃ index ∈ indexes, reference_init.getD index 0 = jni_spec.reference_rva

theorem matched_start :
    Matched finders constructor_anchors jni_spec reference_init candidate_entries [] {} where
  offsets := rfl
  nodup := .nil
  entries := .nil
  verified := List.forall_mem_nil _
  jni _ _ h := by cases h
  found h := absurd rfl h

theorem matchConstructor_ok
    (h : matchConstructor finders constructor_anchors jni_spec reference_init
      candidate_entries matching index =
      .ok after) :
    ∃ found offset, verifiedEntry constructor_anchors reference_init index =
      .ok (reference_init.getD index 0) ∧
      findConstructor finders jni_spec candidate_entries index
        (reference_init.getD index 0) = .ok found ∧
      candidate_entries.idxOf? found.rva = some offset ∧ offset ∉ matching.candidate_offset ∧
      after = ⟨matching.candidate_offset ++ [offset], matching.candidate_entry ++ [found.rva],
        if reference_init.getD index 0 = jni_spec.reference_rva then some found
        else matching.jni_singleton⟩ := by
  unfold matchConstructor at h
  obtain ⟨entry, hentry, h⟩ := bind_ok h
  obtain ⟨rfl, -⟩ := verifiedEntry_ok hentry
  obtain ⟨found, hfound, h⟩ := bind_ok h
  split at h
  · cases h
  · rename_i offset hoffset
    split at h
    · cases h
    · rename_i hnew
      cases h
      refine ⟨found, offset, hentry, hfound, hoffset, ?_, rfl⟩
      simpa using hnew

theorem getElem?_of_forall₂ {α β : Type} {R : α → β → Prop} {as : List α}
    {bs : List β} {b : β} {n : Nat}
    (h : List.Forall₂ R as bs) (hb : bs[n]? = some b) : ∃ a, as[n]? = some a ∧ R a b := by
  obtain ⟨hn, rfl⟩ := List.getElem?_eq_some_iff.1 hb
  have hn' : n < as.length := h.length_eq ▸ hn
  exact ⟨as[n], List.getElem?_eq_getElem hn', h.get hn' hn⟩

theorem findConstructor_jni {entry : UInt64} (h : entry = jni_spec.reference_rva) :
    findConstructor finders jni_spec candidate_entries index entry =
      finders.jniSingleton jni_spec candidate_entries :=
  if_pos h

/-- The initializer of the singleton is found once: a second time it would be at the same place. -/
theorem Matched.step
    (hm : Matched finders constructor_anchors jni_spec reference_init
      candidate_entries indexes matching)
    (h : matchConstructor finders constructor_anchors jni_spec reference_init
      candidate_entries matching index =
      .ok after) :
    Matched finders constructor_anchors jni_spec reference_init candidate_entries
      (indexes ++ [index]) after := by
  obtain ⟨found, offset, hentry, hfound, hoffset, hnew, rfl⟩ := matchConstructor_ok h
  have hlast : (matching.candidate_entry ++ [found.rva])[indexes.length]? = some found.rva := by
    rw [← hm.offsets, hm.entries.length_eq, List.getElem?_concat_length]
  refine ⟨?_, ?_, List.rel_append hm.entries (.cons hoffset .nil), ?_,
    fun anchor i hi heq => ?_, fun hsome => ?_⟩
  · rw [List.length_append, List.length_append, hm.offsets]
    rfl
  · exact List.nodup_append.2 ⟨hm.nodup, List.nodup_singleton _, fun a ha b hb heq => hnew (by
      rw [List.mem_singleton.1 hb] at heq
      exact heq ▸ ha)⟩
  · intro i hi
    rcases List.mem_append.1 hi with hi | hi
    · exact hm.verified i hi
    · rw [List.mem_singleton.1 hi]
      exact hentry
  · rcases Nat.lt_or_ge anchor indexes.length with hlt | hge
    · rw [List.getElem?_append_left hlt] at hi
      obtain ⟨jni, hjni, hsingleton, hplace⟩ := hm.jni anchor i hi heq
      by_cases hagain : reference_init.getD index 0 = jni_spec.reference_rva
      · rw [findConstructor_jni hagain, hjni] at hfound
        cases hfound
        obtain ⟨offset', hat, hoffset'⟩ := getElem?_of_forall₂ hm.entries hplace
        rw [hoffset, Option.some_inj] at hoffset'
        subst hoffset'
        exact absurd (List.mem_of_getElem? hat) hnew
      · refine ⟨jni, hjni, ?_, ?_⟩
        · simp only [if_neg hagain]
          exact hsingleton
        · rw [List.getElem?_append_left (List.getElem?_eq_some_iff.1 hplace).1]
          exact hplace
    · obtain ⟨hbound, -⟩ := List.getElem?_eq_some_iff.1 hi
      rw [List.length_append, List.length_singleton] at hbound
      obtain rfl : anchor = indexes.length := by omega
      rw [List.getElem?_concat_length, Option.some_inj] at hi
      subst hi
      rw [findConstructor_jni heq] at hfound
      exact ⟨found, hfound, if_pos heq, hlast⟩
  · by_cases hjni : reference_init.getD index 0 = jni_spec.reference_rva
    · exact ⟨index, List.mem_append_right _ (List.mem_singleton_self _), hjni⟩
    · simp only [if_neg hjni] at hsome
      obtain ⟨i, hi, heq⟩ := hm.found hsome
      exact ⟨i, List.mem_append_left _ hi, heq⟩

theorem matched_of_foldlM {before : List Nat}
    (hm : Matched finders constructor_anchors jni_spec reference_init
      candidate_entries before matching)
    (h : indexes.foldlM
      (matchConstructor finders constructor_anchors jni_spec reference_init
        candidate_entries) matching =
      .ok after) :
    Matched finders constructor_anchors jni_spec reference_init candidate_entries
      (before ++ indexes) after := by
  induction indexes generalizing before matching with
  | nil =>
    cases h
    rwa [List.append_nil]
  | cons index indexes ih =>
    rw [List.foldlM_cons] at h
    obtain ⟨next, hnext, h⟩ := bind_ok h
    have hsplit : before ++ index :: indexes = before ++ [index] ++ indexes := by simp
    rw [hsplit]
    exact ih (hm.step hnext) h

/-! The result. -/

/-- Four constructors of the reference, each at a place of its own in the window of the
candidate. -/
structure LeadingConstructors.Sound (leading : LeadingConstructors)
    (constructor_anchors : Json) (jni_rva : UInt64)
    (reference_init candidate_init : List UInt64) : Prop where
  indexes : leadingIndexes constructor_anchors reference_init.length = .ok leading.reference_index
  verified : ∀ i ∈ leading.reference_index,
    verifiedEntry constructor_anchors reference_init i = .ok (reference_init.getD i 0)
  ascending : leading.reference_index.Pairwise (· < ·)
  low : ∀ i ∈ leading.reference_index, kLeadingConstructorBegin ≤ i
  count : leading.reference_index.length = kLeadingConstructorCount
  reference_end : leading.reference_end = leading.reference_index.getLastD 0 + 1
  past : leading.reference_end < reference_init.length
  window :
    leading.window = min kLeadingConstructorWindow
    (candidate_init.length - kLeadingConstructorBegin - 1)
  enough : kLeadingConstructorCount ≤ leading.window
  offsets : leading.candidate_offset.length = kLeadingConstructorCount
  nodup : leading.candidate_offset.Nodup
  inside : ∀ offset ∈ leading.candidate_offset, offset < leading.window
  entries :
    List.Forall₂
    (fun offset entry => candidate_init[kLeadingConstructorBegin + offset]? = some entry)
    leading.candidate_offset leading.candidate_entry
  jni : ∀ anchor index : Nat, leading.reference_index[anchor]? = some index →
    reference_init.getD index 0 = jni_rva →
      leading.candidate_entry[anchor]? = some leading.jni_singleton.rva
  found : ∃ index ∈ leading.reference_index, reference_init.getD index 0 = jni_rva

theorem getElem?_window {window offset : Nat} {entry : UInt64}
    (h : ((candidate_init.drop kLeadingConstructorBegin).take window).idxOf? entry = some offset) :
    offset < window ∧ candidate_init[kLeadingConstructorBegin + offset]? = some entry := by
  obtain ⟨hlt, heq, -⟩ := List.findIdx?_eq_some_iff_getElem.1 h
  rw [List.getElem_take, List.getElem_drop, beq_iff_eq] at heq
  rw [List.length_take, List.length_drop] at hlt
  refine ⟨by omega, ?_⟩
  rw [List.getElem?_eq_getElem (by omega), heq]

theorem sound_of_match
    (h : matchLeadingConstructors finders constructor_anchors jni_spec reference_init
      candidate_init = .ok leading) :
    leading.Sound constructor_anchors jni_spec.reference_rva reference_init candidate_init := by
  unfold matchLeadingConstructors at h
  obtain ⟨-, h⟩ := check_ok h
  obtain ⟨hwindow, h⟩ := check_ok h
  obtain ⟨indexes, hindexes, h⟩ := bind_ok h
  obtain ⟨matching, hmatching, h⟩ := bind_ok h
  have hmatched := matched_of_foldlM matched_start hmatching
  rw [List.nil_append] at hmatched
  obtain ⟨fields, hfields, hindexed, hcount, hpast⟩ := indexes_verified hindexes hmatched.verified
  split at h
  · cases h
  · rename_i jni hjni
    cases h
    have hlow : ∀ i ∈ indexes, kLeadingConstructorBegin ≤ i := by
      intro i hi
      obtain ⟨field, -, hfield⟩ := (hindexed.mem i).1 hi
      exact (anchorIndex_ok hfield).2.1
    refine ⟨hindexes, hmatched.verified, hindexed.ascending, hlow, hcount, rfl, hpast,
      rfl, Nat.not_lt.1 hwindow,
      hmatched.offsets.trans hcount, hmatched.nodup, ?_, ?_, ?_, hmatched.found ?_⟩
    · intro offset hoffset
      obtain ⟨n, hn, rfl⟩ := List.getElem_of_mem hoffset
      exact (getElem?_window (hmatched.entries.get hn (hmatched.entries.length_eq ▸ hn))).1
    · exact hmatched.entries.imp fun offset entry hentry => (getElem?_window hentry).2
    · intro anchor index hindex heq
      obtain ⟨found, -, hfound, hentry⟩ := hmatched.jni anchor index hindex heq
      rw [hjni, Option.some_inj] at hfound
      exact hfound ▸ hentry
    · rw [hjni]
      exact Option.some_ne_none _

/-! The places of the anchors in the candidate. -/

def LeadingConstructors.place (leading : LeadingConstructors) (index : Nat) : Nat :=
  kLeadingConstructorBegin + leading.candidate_offset.getD (leading.reference_index.idxOf index) 0

theorem carried_of_mem (h : i ∈ leading.reference_index) :
    leading.carried i = some (leading.place i) := by
  have hidx : leading.reference_index.idxOf? i = some (leading.reference_index.idxOf i) := by
    refine List.idxOf?_eq_some_iff.2 ⟨List.idxOf_lt_length_of_mem h,
      List.getElem_idxOf _, fun j hj heq => ?_⟩
    exact beq_eq_false_iff_ne.1 (List.not_of_lt_findIdx hj) heq
  rw [LeadingConstructors.carried, hidx]
  rfl

theorem mem_of_carried (h : leading.carried i = some j) : i ∈ leading.reference_index ∧
    j = leading.place i := by
  have hmem : i ∈ leading.reference_index := by
    by_contra hno
    rw [LeadingConstructors.carried, List.idxOf?_eq_none_iff.2 hno] at h
    cases h
  rw [carried_of_mem hmem, Option.some_inj] at h
  exact ⟨hmem, h.symm⟩

theorem exists_anchor (hi : i ∈ leading.reference_index) :
    ∃ anchor : Nat, leading.reference_index[anchor]? = some i := by
  obtain ⟨anchor, hlt, rfl⟩ := List.getElem_of_mem hi
  exact ⟨anchor, List.getElem?_eq_getElem hlt⟩

variable (h : leading.Sound constructor_anchors jni_rva reference_init candidate_init)

include h

namespace LeadingConstructors.Sound

theorem indexes_nodup : leading.reference_index.Nodup := h.ascending.imp Nat.ne_of_lt

/-- The anchor at a position, with its place. -/
theorem getElem?_place {anchor : Nat} (hi : leading.reference_index[anchor]? = some i) :
    leading.reference_index.idxOf i = anchor ∧
      leading.candidate_offset[anchor]? = some (leading.place i - kLeadingConstructorBegin) ∧
      kLeadingConstructorBegin ≤ leading.place i := by
  obtain ⟨hlt, rfl⟩ := List.getElem?_eq_some_iff.1 hi
  have hidx := h.indexes_nodup.idxOf_getElem anchor hlt
  have hlt' : anchor < leading.candidate_offset.length := by
    rw [h.offsets, ← h.count]
    exact hlt
  refine ⟨hidx, ?_, Nat.le_add_right _ _⟩
  rw [place, hidx, Nat.add_sub_cancel_left, List.getD_eq_getElem?_getD,
    List.getElem?_eq_getElem hlt']
  rfl

theorem place_sub_mem (hi : i ∈ leading.reference_index) :
    leading.place i - kLeadingConstructorBegin ∈ leading.candidate_offset := by
  obtain ⟨anchor, hanchor⟩ := exists_anchor hi
  exact List.mem_of_getElem? (h.getElem?_place hanchor).2.1

theorem place_bounds (hi : i ∈ leading.reference_index) :
    kLeadingConstructorBegin ≤ leading.place i ∧
      leading.place i < kLeadingConstructorBegin + leading.window := by
  have hlt := h.inside _ (h.place_sub_mem hi)
  have hle : kLeadingConstructorBegin ≤ leading.place i := Nat.le_add_right _ _
  omega

theorem place_inj (hi : i ∈ leading.reference_index) (hj : j ∈ leading.reference_index)
    (heq : leading.place i = leading.place j) : i = j := by
  obtain ⟨m, hm⟩ := exists_anchor hi
  obtain ⟨n, hn⟩ := exists_anchor hj
  have hplace := (h.getElem?_place hm).2.1
  rw [heq, ← (h.getElem?_place hn).2.1] at hplace
  have hlt := (List.getElem?_eq_some_iff.1 (h.getElem?_place hm).2.1).1
  have hmn : m = n := (List.getElem?_inj hlt h.nodup).1 hplace
  subst hmn
  exact Option.some_inj.1 (hm.symm.trans hn)

theorem mem_offsets : j ∈ leading.candidate_offset ↔
    ∃ i ∈ leading.reference_index, leading.place i = kLeadingConstructorBegin + j := by
  constructor
  · intro hj
    obtain ⟨anchor, hlt, rfl⟩ := List.getElem_of_mem hj
    have hlt' : anchor < leading.reference_index.length := by
      rw [h.count, ← h.offsets]
      exact hlt
    obtain ⟨-, hplace, hle⟩ := h.getElem?_place (List.getElem?_eq_getElem hlt')
    rw [List.getElem?_eq_getElem hlt, Option.some_inj] at hplace
    exact ⟨_, List.getElem_mem hlt', by omega⟩
  · rintro ⟨i, hi, heq⟩
    have hmem := h.place_sub_mem hi
    rwa [heq, Nat.add_sub_cancel_left] at hmem

theorem mem_anchors {p : Nat × Nat} : p ∈ leading.anchors ↔
    p.1 ∈ leading.reference_index ∧ leading.place p.1 = kLeadingConstructorBegin + p.2 := by
  constructor
  · intro hp
    obtain ⟨anchor, hlt, rfl⟩ := List.getElem_of_mem hp
    unfold anchors at hlt ⊢
    rw [List.getElem_zip]
    rw [List.length_zip] at hlt
    have hindex : anchor < leading.reference_index.length := by omega
    have hoffset : anchor < leading.candidate_offset.length := by omega
    obtain ⟨-, hplace, hle⟩ := h.getElem?_place (List.getElem?_eq_getElem hindex)
    rw [List.getElem?_eq_getElem hoffset, Option.some_inj] at hplace
    exact ⟨List.getElem_mem hindex, by simp only; omega⟩
  · rintro ⟨hi, heq⟩
    obtain ⟨anchor, hanchor⟩ := exists_anchor hi
    obtain ⟨-, hplace, -⟩ := h.getElem?_place hanchor
    rw [heq, Nat.add_sub_cancel_left] at hplace
    exact List.mem_of_getElem? (List.getElem?_zip_eq_some.2 ⟨hanchor, hplace⟩)

/-- The initializer of the singleton is carried along. -/
theorem jni_place (hi : i ∈ leading.reference_index) (hjni : reference_init.getD i 0 = jni_rva) :
    candidate_init.getD (leading.place i) 0 = leading.jni_singleton.rva := by
  obtain ⟨anchor, hanchor⟩ := exists_anchor hi
  obtain ⟨offset, hoffset, hentry⟩ := getElem?_of_forall₂ h.entries (h.jni anchor i hanchor hjni)
  obtain ⟨-, hplace, hle⟩ := h.getElem?_place hanchor
  rw [hoffset, Option.some_inj] at hplace
  subst hplace
  rw [Nat.add_sub_cancel' hle] at hentry
  rw [List.getD_eq_getElem?_getD, hentry]
  rfl

theorem room : kLeadingConstructorBegin + leading.window < candidate_init.length := by
  have hwindow := h.window
  have henough := h.enough
  simp only [kLeadingConstructorCount, kLeadingConstructorWindow, kLeadingConstructorBegin] at *
  omega

theorem window_le : leading.window ≤ kLeadingConstructorWindow := h.window ▸ Nat.min_le_left _ _

end LeadingConstructors.Sound

end Nightcap.Update.HostAbi
