import Nightcap.Update.LeadingSafety

/-! The anchors that a derivation writes down are those that a further one reads. -/
namespace Nightcap.Update.HostAbi

variable {leading : LeadingConstructors} {constructor_anchors : Json} {jni_rva value : UInt64}
  {reference_init candidate_init : List UInt64} {fields : List (Bytes × Json)}
  {key : Bytes} {entry : Json}
  {indexes start digits : List Nat} {description : String} {a count digit i : Nat}

/-! RVAs are read as they were written. -/

theorem hexDigit_spec (h : digit < 16) : isLowerHex (hexDigit digit) = true ∧
    hexValue (hexDigit digit) = digit ∧
    (hexDigit digit = 48 → digit = 0) := by
  have hall : ∀ d < 16, isLowerHex (hexDigit d) = true ∧ hexValue (hexDigit d) = d ∧
      (hexDigit d = 48 → d = 0) := by
    decide
  exact hall digit h

/-- The digits are read from the most significant one on, and the value never exceeds 64 bits. -/
theorem foldlM_digits (hdigits : ∀ d ∈ digits, d < 16) (hbound : Nat.ofDigits 16 digits < 2 ^ 64) :
    ((digits.map hexDigit).reverse).foldlM (parseRvaDigit description) 0 =
      .ok (Nat.ofDigits 16 digits) := by
  induction digits with
  | nil => rfl
  | cons d rest ih =>
    have hd := hdigits d List.mem_cons_self
    rw [Nat.ofDigits_cons] at hbound ⊢
    have hread := ih (fun e he => hdigits e (List.mem_cons_of_mem _ he)) (by omega)
    have hfits : ¬ (2 ^ 64 - 1 - d) / 16 < Nat.ofDigits 16 rest := by omega
    rw [List.map_cons, List.reverse_cons, List.foldlM_append, hread]
    change List.foldlM (parseRvaDigit description) (Nat.ofDigits 16 rest) [hexDigit d] = _
    rw [List.foldlM_cons, parseRvaDigit, (hexDigit_spec hd).2.1, if_neg hfits]
    exact congrArg Except.ok (by omega)

/-- No leading zero is written, so the canonical form is accepted. -/
theorem parseRva_formatRva (h : value ≠ 0) :
    parseRva (.string (formatRva value)) description = .ok value := by
  have hvalue : value.toNat ≠ 0 := fun hzero => h (UInt64.toNat_inj.1 hzero)
  have hdigits : ∀ d ∈ Nat.digits 16 value.toNat, d < 16 := fun d => Nat.digits_lt_base (by decide)
  have hne : Nat.digits 16 value.toNat ≠ [] := Nat.digits_ne_nil_iff_ne_zero.2 hvalue
  have hlast := Nat.getLast_digit_ne_zero 16 hvalue
  have hbound : Nat.ofDigits 16 (Nat.digits 16 value.toNat) < 2 ^ 64 := by
    rw [Nat.ofDigits_digits]
    exact value.toNat_lt
  have hread : (((Nat.digits 16 value.toNat).map hexDigit).reverse).foldlM
      (parseRvaDigit description) 0 =
      .ok (Nat.ofDigits 16 (Nat.digits 16 value.toNat)) := foldlM_digits hdigits hbound
  rw [Nat.ofDigits_digits] at hread
  obtain ⟨front, last, heq⟩ := (List.eq_nil_or_concat' _).resolve_left hne
  have hdrop : (formatRva value).drop 2 = ((Nat.digits 16 value.toNat).map hexDigit).reverse := rfl
  have hlower : ((formatRva value).drop 2).all isLowerHex = true := by
    rw [hdrop, List.all_reverse, List.all_map, List.all_eq_true]
    exact fun d hd => (hexDigit_spec (hdigits d hd)).1
  have hsome : (formatRva value)[2]? = some (hexDigit last) := by
    rw [formatRva, heq, List.map_append, List.reverse_append]
    rfl
  have hzero : hexDigit last ≠ 48 := by
    intro hsame
    have hmem : last ∈ Nat.digits 16 value.toNat := by
      rw [heq]
      exact List.mem_append_right _ (List.mem_singleton_self _)
    refine hlast ?_
    simp only [heq, List.getLast_append_singleton]
    exact (hexDigit_spec (hdigits last hmem)).2.2 hsame
  have hlength : ¬ (formatRva value).length < 3 := by
    obtain ⟨hlt, -⟩ := List.getElem?_eq_some_iff.1 hsome
    omega
  have htake : (formatRva value).take 2 = [48, 120] := rfl
  unfold parseRva
  change (if _ then _ else _) = _
  rw [if_neg, hdrop, hread]
  · exact congrArg Except.ok UInt64.ofNat_toNat
  · simp only [hlower, htake, hsome, Bool.or_eq_true, decide_eq_true_eq,
      bne_self_eq_false, Option.some_beq_some,
      beq_iff_eq, Bool.not_true, Bool.false_eq_true, or_false, not_or]
    exact ⟨hlength, hzero⟩

theorem parseRva_formatRva_zero : parseRva (.string (formatRva 0)) description =
    .error (description ++ " must be a canonical nonzero hex RVA") := by
  have hzero : formatRva 0 = [48, 120] := by simp [formatRva]
  rw [hzero]
  rfl

/-! The object of the anchors. -/

theorem perm_insertField (h : key ∉ fields.map Prod.fst) :
    (Json.insertField key entry fields).Perm ((key, entry) :: fields) := by
  induction fields with
  | nil => exact .refl _
  | cons field fields ih =>
    rw [List.map_cons, List.mem_cons, not_or] at h
    rw [Json.insertField, if_neg h.1]
    split
    · exact .refl _
    · exact ((ih h.2).cons field).trans (.swap _ _ _)

theorem perm_assign (entry : Json) (h : key ∉ fields.map Prod.fst) :
    (assign fields key entry).Perm ((key, entry) :: fields) := by
  have hsame : fields.filter (·.1 ≠ key) = fields := by
    refine List.filter_eq_self.2 fun field hfield => decide_eq_true fun heq => ?_
    exact h (heq ▸ List.mem_map_of_mem hfield)
  rw [assign, hsame]
  exact perm_insertField h

/-- The field of one leading constructor. -/
def anchorField (pair : Nat × UInt64) : Bytes × Json :=
  (Ascii.ofNat (kLeadingConstructorBegin + pair.1), .string (formatRva pair.2))

/-- New keys are inserted somewhere; the order is that of the object. -/
theorem perm_foldl_assign {pairs : List (Nat × UInt64)}
    (h : ((pairs.map anchorField ++ fields).map Prod.fst).Nodup) :
    (pairs.foldl
      (fun fields pair => assign fields (anchorField pair).1 (anchorField pair).2) fields).Perm
      (pairs.map anchorField ++ fields) := by
  induction pairs generalizing fields with
  | nil => exact .refl _
  | cons pair pairs ih =>
    have hswap : (pairs.map anchorField ++ anchorField pair :: fields).Perm
        ((pair :: pairs).map anchorField ++ fields) := List.perm_middle
    have hnew : (anchorField pair).1 ∉ fields.map Prod.fst := by
      rw [List.map_append, List.map_cons, List.map_cons, List.cons_append, List.nodup_cons] at h
      exact fun hin => h.1 (List.mem_append_right _ hin)
    have hassign := perm_assign (anchorField pair).2 hnew
    have hall : (pairs.map anchorField ++ assign fields (anchorField pair).1
        (anchorField pair).2).Perm
        ((pair :: pairs).map anchorField ++ fields) := (hassign.append_left _).trans hswap
    rw [List.foldl_cons]
    exact (ih (((hall.map Prod.fst).nodup_iff).2 h)).trans hall

/-! The indexes that are read from an object. -/

theorem foldlM_insertIndex {index : Bytes × Json → Nat} (start : List Nat)
    (hindex : ∀ field ∈ fields, anchorIndex count field.1 = .ok (index field)) :
    ∃ found, fields.foldlM (fun indexes (field : Bytes × Json) => do
      .ok (insertIndex (← anchorIndex count field.1) indexes)) start = Except.ok found := by
  induction fields generalizing start with
  | nil => exact ⟨start, rfl⟩
  | cons field fields ih =>
    rw [List.foldlM_cons, hindex field List.mem_cons_self]
    exact ih _ fun f hf => hindex f (List.mem_cons_of_mem _ hf)

/-- Four different indexes below the count are read as an ascending list of them. -/
theorem leadingIndexes_of_fields {index : Bytes × Json → Nat}
    (hlength : fields.length = kLeadingConstructorCount)
    (hindex : ∀ field ∈ fields, anchorIndex count field.1 = .ok (index field))
    (hnodup : (fields.map index).Nodup)
    (hcount : ∀ field ∈ fields, index field + 1 < count) :
    ∃ indexes, leadingIndexes (.object fields) count = .ok indexes ∧ indexes.Pairwise (· < ·) ∧
      indexes.length = kLeadingConstructorCount ∧ ∀ i, i ∈ indexes ↔
        ∃ field ∈ fields, index field = i := by
  obtain ⟨found, hfound⟩ := foldlM_insertIndex [] hindex
  have hindexed : Indexed count ([] ++ fields) found :=
    indexed_of_foldlM ⟨.nil, Nat.zero_le _, by simp, List.forall_mem_nil _⟩ hfound
  rw [List.nil_append] at hindexed
  have hmem : ∀ i, i ∈ found ↔ ∃ field ∈ fields, index field = i := by
    intro i
    rw [hindexed.mem]
    refine exists_congr fun field => and_congr_right fun hfield => ?_
    rw [hindex field hfield, Except.ok.injEq]
  have hfull : found.length = kLeadingConstructorCount := by
    have hsame : found.toFinset = (fields.map index).toFinset := by
      ext i
      rw [List.mem_toFinset, List.mem_toFinset, hmem, List.mem_map]
    have hcard := congrArg Finset.card hsame
    rwa [List.toFinset_card_of_nodup (hindexed.ascending.imp Nat.ne_of_lt),
      List.toFinset_card_of_nodup hnodup,
      List.length_map, hlength] at hcard
  have hlast : ¬ count ≤ found.getLastD 0 + 1 := by
    have hne : found ≠ [] := by
      rintro rfl
      cases hfull
    rw [List.getLastD_eq_getLast?, List.getLast?_eq_getLast_of_ne_nil hne, Option.getD_some, not_le]
    obtain ⟨field, hfield, heq⟩ := (hmem _).1 (List.getLast_mem hne)
    exact heq ▸ hcount field hfield
  refine ⟨found, ?_, hindexed.ascending, hfull, hmem⟩
  have hpad : found ++ List.replicate (kLeadingConstructorCount - found.length) 0 = found := by
    rw [hfull, Nat.sub_self, List.replicate_zero, List.append_nil]
  have hread : leadingIndexes (.object fields) count =
      if count ≤ (found ++ List.replicate (kLeadingConstructorCount - found.length) 0).getLastD
        0 + 1 then .error kShape
      else .ok (found ++ List.replicate (kLeadingConstructorCount - found.length) 0) := by
    simp only [leadingIndexes, hlength, hfound]
    rfl
  rw [hread, hpad, if_neg hlast]

section Written
variable (h : leading.Sound constructor_anchors jni_rva reference_init candidate_init)
include h

/-- The written object has one field for each anchor. -/
theorem constructorAnchors_eq : ∃ fields, constructorAnchors leading = .object fields ∧
    fields.Perm ((leading.candidate_offset.zip leading.candidate_entry).map anchorField) ∧
      (fields.map Prod.fst).Nodup := by
  have hkeys :
      (((leading.candidate_offset.zip leading.candidate_entry).map anchorField).map
        Prod.fst).Nodup := by
    have hoffsets :
        ((leading.candidate_offset.zip leading.candidate_entry).map Prod.fst).Nodup := by
      rw [List.map_fst_zip h.entries.length_eq.le]
      exact h.nodup
    have hsplit :
        ((leading.candidate_offset.zip leading.candidate_entry).map anchorField).map Prod.fst =
        ((leading.candidate_offset.zip leading.candidate_entry).map Prod.fst).map
          fun offset => Ascii.ofNat (kLeadingConstructorBegin + offset) := by
      rw [List.map_map, List.map_map]
      rfl
    rw [hsplit]
    exact hoffsets.map fun m n heq => Nat.add_left_cancel (Ascii.ofNat_injective heq)
  have hfirst :
      (((leading.candidate_offset.zip leading.candidate_entry).map anchorField ++ []).map
        Prod.fst).Nodup := by
    rwa [List.append_nil]
  have hperm := perm_foldl_assign hfirst
  rw [List.append_nil] at hperm
  exact ⟨_, rfl, hperm, ((hperm.map Prod.fst).nodup_iff).2 hkeys⟩

theorem mem_pairs {pair : Nat × UInt64} :
    pair ∈ leading.candidate_offset.zip leading.candidate_entry ↔
    ∃ a ∈ leading.reference_index,
      pair = (leading.place a - kLeadingConstructorBegin,
        candidate_init.getD (leading.place a) 0) := by
  constructor
  · intro hpair
    have hentry := (List.forall₂_iff_zip.1 h.entries).2 hpair
    obtain ⟨a, ha, hplace⟩ := h.mem_offsets.1 (List.of_mem_zip hpair).1
    refine ⟨a, ha, ?_⟩
    rw [hplace, Nat.add_sub_cancel_left, List.getD_eq_getElem?_getD, hentry]
    rfl
  · rintro ⟨a, ha, rfl⟩
    obtain ⟨n, hn, hoffset⟩ := List.getElem_of_mem (h.place_sub_mem ha)
    have hn' : n < leading.candidate_entry.length := h.entries.length_eq ▸ hn
    have hentry := h.entries.get hn hn'
    rw [List.get_eq_getElem, List.get_eq_getElem, hoffset,
      Nat.add_sub_cancel' (h.place_bounds ha).1] at hentry
    refine List.mem_of_getElem? (i := n) (List.getElem?_zip_eq_some.2 ⟨?_, ?_⟩)
    · rw [List.getElem?_eq_getElem hn, hoffset]
    · rw [List.getElem?_eq_getElem hn', List.getD_eq_getElem?_getD, hentry]
      rfl

theorem anchorField_place (ha : a ∈ leading.reference_index) {e : UInt64} :
    anchorField (leading.place a - kLeadingConstructorBegin, e) = (Ascii.ofNat (leading.place a),
      .string (formatRva e)) := by
  rw [anchorField, Nat.add_sub_cancel' (h.place_bounds ha).1]

theorem anchorIndex_place (ha : a ∈ leading.reference_index) :
    anchorIndex candidate_init.length (Ascii.ofNat (leading.place a)) = .ok (leading.place a) := by
  obtain ⟨hlow, hhigh⟩ := h.place_bounds ha
  have hroom := h.room
  have hwindow := h.window_le
  have hmax : kLeadingConstructorBegin + kLeadingConstructorWindow < 2 ^ 64 := by decide
  unfold anchorIndex
  simp only [Ascii.decimal_ofNat, Ascii.allDigits_ofNat]
  rw [if_neg]
  simp only [Bool.not_true, Bool.false_or, Bool.or_eq_true,
    decide_eq_true_eq, not_or, not_le, not_lt]
  omega

/-- The indexes of a further derivation are the places of the anchors. -/
theorem leadingIndexes_written : ∃ indexes,
    leadingIndexes (constructorAnchors leading) candidate_init.length = .ok indexes ∧
      indexes.Pairwise (· < ·) ∧
      indexes.length = kLeadingConstructorCount ∧ ∀ i, i ∈ indexes ↔
        ∃ a ∈ leading.reference_index, leading.place a = i := by
  obtain ⟨fields, heq, hperm, hkeys⟩ := constructorAnchors_eq h
  have hfields : ∀ field, field ∈ fields ↔ ∃ a ∈ leading.reference_index,
      field = (Ascii.ofNat (leading.place a),
        .string (formatRva (candidate_init.getD (leading.place a) 0))) := by
    intro field
    rw [hperm.mem_iff, List.mem_map]
    constructor
    · rintro ⟨pair, hpair, rfl⟩
      obtain ⟨a, ha, rfl⟩ := (mem_pairs h).1 hpair
      exact ⟨a, ha, anchorField_place h ha⟩
    · rintro ⟨a, ha, rfl⟩
      exact ⟨_, (mem_pairs h).2 ⟨a, ha, rfl⟩, anchorField_place h ha⟩
  have hdecimal : ∀ field ∈ fields, ∃ a ∈ leading.reference_index,
      field.1 = Ascii.ofNat (leading.place a) ∧
      Ascii.decimal field.1 = leading.place a := by
    intro field hfield
    obtain ⟨a, ha, rfl⟩ := (hfields field).1 hfield
    exact ⟨a, ha, rfl, Ascii.decimal_ofNat _⟩
  have hlength : fields.length = kLeadingConstructorCount := by
    rw [hperm.length_eq, List.length_map, List.length_zip, ← h.entries.length_eq,
      h.offsets, Nat.min_self]
  have hnodup : (fields.map fun field => Ascii.decimal field.1).Nodup := by
    refine .of_map Ascii.ofNat ?_
    rw [List.map_map]
    refine (List.map_congr_left fun field hfield => ?_).symm ▸ hkeys
    obtain ⟨a, -, hkey, hvalue⟩ := hdecimal field hfield
    exact (congrArg Ascii.ofNat hvalue).trans hkey.symm
  have hindex : ∀ field ∈ fields, anchorIndex candidate_init.length field.1 =
      .ok (Ascii.decimal field.1) := by
    intro field hfield
    obtain ⟨a, ha, hkey, hvalue⟩ := hdecimal field hfield
    rw [hvalue, hkey]
    exact anchorIndex_place h ha
  have hbound : ∀ field ∈ fields, Ascii.decimal field.1 + 1 < candidate_init.length := by
    intro field hfield
    obtain ⟨a, ha, -, hvalue⟩ := hdecimal field hfield
    have hhigh := (h.place_bounds ha).2
    have hroom := h.room
    omega
  obtain ⟨indexes, hindexes, hascending, hcount, hmem⟩ :=
    leadingIndexes_of_fields hlength hindex hnodup hbound
  refine ⟨indexes, heq ▸ hindexes, hascending, hcount, fun i => (hmem i).trans ?_⟩
  constructor
  · rintro ⟨field, hfield, rfl⟩
    obtain ⟨a, ha, -, hvalue⟩ := hdecimal field hfield
    exact ⟨a, ha, hvalue.symm⟩
  · rintro ⟨a, ha, rfl⟩
    exact ⟨_, (hfields _).2 ⟨a, ha, rfl⟩, Ascii.decimal_ofNat _⟩

/-- The anchor of a place is what the candidate runs there, but a zero does not count as one. -/
theorem verifiedEntry_written (ha : a ∈ leading.reference_index) :
    verifiedEntry (constructorAnchors leading) candidate_init (leading.place a) =
      if candidate_init.getD (leading.place a) 0 = 0 then
        .error (constructorName (leading.place a) ++ " must be a canonical nonzero hex RVA")
      else .ok (candidate_init.getD (leading.place a) 0) := by
  obtain ⟨fields, heq, hperm, hkeys⟩ := constructorAnchors_eq h
  have hmem : (Ascii.ofNat (leading.place a),
      Json.string (formatRva (candidate_init.getD (leading.place a) 0))) ∈ fields := by
    rw [hperm.mem_iff, ← anchorField_place h ha]
    exact List.mem_map_of_mem ((mem_pairs h).2 ⟨a, ha, rfl⟩)
  have hfield : (constructorAnchors leading).field? (Ascii.ofNat (leading.place a)) =
      some (.string (formatRva (candidate_init.getD (leading.place a) 0))) := by
    rw [heq]
    exact Json.lookup_of_mem hkeys hmem
  unfold verifiedEntry
  rw [hfield, Option.getD_some]
  by_cases hzero : candidate_init.getD (leading.place a) 0 = 0
  · rw [if_pos hzero, hzero, parseRva_formatRva_zero]
    rfl
  · rw [if_neg hzero, parseRva_formatRva hzero]
    change (if _ then _ else _) = _
    rw [if_neg (not_not.2 rfl)]

end Written

end Nightcap.Update.HostAbi
