import Mathlib.Data.List.Sort

/-! Where a pattern with some of its entries masked is in a text, found by an anchor: a run of
entries that are not masked. -/
namespace MaskedSearch

variable {α : Type} [DecidableEq α] {text anchor pattern : List α} {mask : List Bool}
  {start found offset size p i : Nat}

/-- The entries of the pattern that count, at a place of the text. -/
def sameAt (pattern : List α) (mask : List Bool) (text : List α) (p : Nat) : Bool :=
  (List.range pattern.length).all fun i => !mask.getD i false || text[p + i]? == pattern[i]?

/-- Where the whole pattern is inside the text and is the same, from the front on. -/
def positions (pattern : List α) (mask : List Bool) (text : List α) : List Nat :=
  (List.range (text.length + 1 - pattern.length)).filter (sameAt pattern mask text)

/-- `std::search` from a place on. -/
def find (text anchor : List α) (start : Nat) : Option Nat :=
  (List.range' start (text.length + 1 - anchor.length - start)).find? fun i =>
    anchor.isPrefixOf (text.drop i)

theorem find_eq_some (h : find text anchor start = some found) :
    start ≤ found ∧ found + anchor.length ≤ text.length ∧ anchor <+: text.drop found ∧
      ∀ i, start ≤ i → i < found → ¬ anchor <+: text.drop i := by
  rw [find, List.find?_range'_eq_some] at h
  obtain ⟨hsame, hmem, hbefore⟩ := h
  rw [List.mem_range'_1] at hmem
  refine ⟨hmem.1, by omega, List.isPrefixOf_iff_prefix.1 hsame, fun i hlow hhigh hprefix => ?_⟩
  have hnot := hbefore i hlow hhigh
  rw [List.isPrefixOf_iff_prefix.2 hprefix] at hnot
  cases hnot

theorem find_eq_none (h : find text anchor start = none) (hlow : start ≤ i)
    (hhigh : i + anchor.length ≤ text.length) : ¬ anchor <+: text.drop i := by
  intro hprefix
  rw [find, List.find?_eq_none] at h
  exact h i (List.mem_range'_1.2 ⟨hlow, by omega⟩) (List.isPrefixOf_iff_prefix.2 hprefix)

/-- The places of a pattern whose anchor is at `offset`, one search after the other: each starts one
entry behind the last place of the anchor. -/
def scanFrom (text pattern : List α) (mask : List Bool) (offset : Nat)
    (anchor : List α) (start : Nat) :
    List Nat :=
  if start < text.length then
    match _hfound : find text anchor start with
    | none => []
    | some found =>
      (if offset ≤ found ∧ found - offset ≤ text.length ∧
        pattern.length ≤ text.length - (found - offset) ∧
          sameAt pattern mask text (found - offset) then [found - offset] else []) ++
        scanFrom text pattern mask offset anchor (found + 1)
  else []
termination_by text.length - start
decreasing_by
  have hle := (find_eq_some _hfound).1
  omega

/-- The whole text. -/
def scan (text pattern : List α) (mask : List Bool) (offset size : Nat) : List Nat :=
  scanFrom text pattern mask offset ((pattern.drop offset).take size) 0

/-- A run of entries that count, which begins inside the pattern. -/
structure Unmasked (pattern : List α) (mask : List Bool) (offset size : Nat) : Prop where
  begins : offset < pattern.length
  inside : offset + size ≤ pattern.length
  counts : ∀ i, offset ≤ i → i < offset + size → mask.getD i false = true

theorem mem_positions :
    p ∈ positions pattern mask text ↔ p + pattern.length ≤ text.length ∧
      sameAt pattern mask text p = true := by
  rw [positions, List.mem_filter, List.mem_range]
  constructor
  · rintro ⟨hlt, hsame⟩
    exact ⟨by omega, hsame⟩
  · rintro ⟨hfits, hsame⟩
    exact ⟨by omega, hsame⟩

theorem positions_pairwise : (positions pattern mask text).Pairwise (· < ·) :=
  List.Pairwise.filter _ List.pairwise_lt_range

/-- Where the pattern is, its anchor is. -/
theorem Unmasked.anchor_prefix (h : Unmasked pattern mask offset size)
    (hsame : sameAt pattern mask text p = true) :
    (pattern.drop offset).take size <+: text.drop (p + offset) := by
  rw [sameAt, List.all_eq_true] at hsame
  have hinside := h.inside
  rw [List.prefix_iff_getElem?]
  intro i hi
  rw [List.length_take, List.length_drop] at hi
  have hcounts := h.counts (offset + i) (by omega) (by omega)
  have hat := hsame (offset + i) (List.mem_range.2 (by omega))
  rw [hcounts, Bool.not_true, Bool.false_or, beq_iff_eq] at hat
  rw [List.getElem?_drop, Nat.add_assoc, hat, List.getElem_take, List.getElem_drop]
  exact List.getElem?_eq_getElem (by omega)

/-- No place is lost by looking for the anchor only. -/
theorem mem_scanFrom (h : Unmasked pattern mask offset size) :
    p ∈ scanFrom text pattern mask offset ((pattern.drop offset).take size) start ↔
      start ≤ p + offset ∧ p + pattern.length ≤ text.length ∧
        sameAt pattern mask text p = true := by
  have hbegins := h.begins
  have hinside := h.inside
  have hanchor : ((pattern.drop offset).take size).length = size := by
    rw [List.length_take, List.length_drop]
    omega
  fun_induction scanFrom text pattern mask offset ((pattern.drop offset).take size) start with
  | case1 start hlt hnone =>
    refine ⟨fun hp => absurd hp List.not_mem_nil, fun ⟨hlow, hin, hsame⟩ => ?_⟩
    exact absurd (h.anchor_prefix hsame) (find_eq_none hnone hlow (by omega))
  | case2 start hlt found hfound ih =>
    obtain ⟨hle, hin, -, hfirst⟩ := find_eq_some hfound
    rw [List.mem_append]
    constructor
    · rintro (hp | hp)
      · split at hp
        · rename_i hgood
          obtain rfl := List.mem_singleton.1 hp
          exact ⟨by omega, by omega, hgood.2.2.2⟩
        · cases hp
      · obtain ⟨hlow, hrest⟩ := ih.1 hp
        exact ⟨by omega, hrest⟩
    · rintro ⟨hlow, hfits, hsame⟩
      rcases Nat.lt_or_ge found (p + offset) with hafter | hbefore
      · exact .inr (ih.2 ⟨hafter, hfits, hsame⟩)
      · have hhere : p + offset = found := by
          by_contra hother
          exact hfirst (p + offset) hlow (by omega) (h.anchor_prefix hsame)
        have hat : found - offset = p := by omega
        rw [hat, if_pos ⟨by omega, by omega, by omega, hsame⟩]
        exact .inl (List.mem_singleton_self p)
  | case3 start hge =>
    refine ⟨fun hp => absurd hp List.not_mem_nil, fun ⟨hlow, hfits, hsame⟩ => ?_⟩
    omega

/-- Each search starts behind the place before it. -/
theorem scanFrom_pairwise (h : Unmasked pattern mask offset size) :
    (scanFrom text pattern mask offset ((pattern.drop offset).take size) start).Pairwise
    (· < ·) := by
  have hmem : ∀ start p, p ∈ scanFrom text pattern mask offset
      ((pattern.drop offset).take size) start ↔
      start ≤ p + offset ∧ p + pattern.length ≤ text.length ∧ sameAt pattern mask text p = true :=
    fun _ _ => mem_scanFrom h
  fun_induction scanFrom text pattern mask offset ((pattern.drop offset).take size) start with
  | case1 start hlt hnone => exact List.Pairwise.nil
  | case2 start hlt found hfound ih =>
    refine List.pairwise_append.2 ⟨by split <;> simp, ih, fun p hp q hq => ?_⟩
    have hafter := ((hmem (found + 1) q).1 hq).1
    split at hp
    · obtain rfl := List.mem_singleton.1 hp
      omega
    · cases hp
  | case3 start hge => exact List.Pairwise.nil

/-- The scan finds every place once, from the front on, whatever run is its anchor. -/
theorem scan_eq_positions (h : Unmasked pattern mask offset size) :
    scan text pattern mask offset size = positions pattern mask text := by
  refine List.Pairwise.eq_of_mem_iff (scanFrom_pairwise h) positions_pairwise fun p => ?_
  rw [scan, mem_scanFrom h, mem_positions]
  constructor
  · exact fun hp => hp.2
  · exact fun hp => ⟨Nat.zero_le _, hp⟩

end MaskedSearch
