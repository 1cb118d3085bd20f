import Nightcap.Text.Safety

/-! The grapheme boundaries of a text, and how the keys that step by one find them. -/
namespace Nightcap.Text

open Utf8 Editor

variable {u : Utf8proc} {c : Char} {cs : List Char} {found all : List Nat} {k n i : Nat}

/-- The breaks from `offset` on, after the code point `previous`. -/
def breaksAfter (u : Utf8proc) (offset previous : Nat) (breakState : Int) : List Char → List Nat
  | [] => []
  | c :: cs =>
    let r := u.graphemeBreak previous c.toNat breakState
    (if r.1 then [offset] else []) ++
      breaksAfter u (offset + (String.utf8EncodeChar c).length) c.toNat r.2 cs

/-- The start of a text, its breaks and its end. -/
def graphemeBoundaries (u : Utf8proc) : List Char → List Nat
  | [] => [0]
  | c :: cs => 0 :: breaksAfter u (String.utf8EncodeChar c).length c.toNat 0 cs ++
      [(encode (c :: cs)).length]

/-- The smallest boundary after `k`, or `k` itself. -/
def nextBoundary (boundaries : List Nat) (k : Nat) : Nat :=
  ((boundaries.filter (k < ·)).min?).getD k

/-- The largest boundary before `k`, or `k` itself. -/
def previousBoundary (boundaries : List Nat) (k : Nat) : Nat :=
  ((boundaries.filter (· < k)).max?).getD k

/-! The boundaries in order. -/

theorem breaksAfter_cons {offset previous : Nat} {state : Int} :
    breaksAfter u offset previous state (c :: cs) =
      (if (u.graphemeBreak previous c.toNat state).1 then [offset] else []) ++
        breaksAfter u (offset + (String.utf8EncodeChar c).length) c.toNat
          (u.graphemeBreak previous c.toNat state).2 cs := rfl

theorem breaksAfter_bounds {offset previous b : Nat} {state : Int}
    (h : b ∈ breaksAfter u offset previous state cs) :
    offset ≤ b ∧ b < offset + (encode cs).length := by
  induction cs generalizing offset previous state with
  | nil => cases h
  | cons c cs ih =>
    have hpos := encodeChar_length_pos c
    rw [encode_cons, List.length_append]
    rcases List.mem_append.1 h with h | h
    · split at h
      · rw [List.mem_singleton.1 h]
        omega
      · cases h
    · have hb := ih h
      omega

theorem breaksAfter_sorted {offset previous : Nat} {state : Int} :
    (breaksAfter u offset previous state cs).Pairwise (· < ·) := by
  induction cs generalizing offset previous state with
  | nil => exact List.Pairwise.nil
  | cons c cs ih =>
    have hpos := encodeChar_length_pos c
    refine List.pairwise_append.2 ⟨?_, ih, fun a ha b hb => ?_⟩
    · split <;> simp
    · have hlow := (breaksAfter_bounds hb).1
      split at ha
      · rw [List.mem_singleton.1 ha]
        omega
      · cases ha

theorem graphemeBoundaries_sorted : (graphemeBoundaries u cs).Pairwise (· < ·) := by
  cases cs with
  | nil => simp [graphemeBoundaries]
  | cons c cs =>
    have hpos := encodeChar_length_pos c
    refine List.pairwise_append.2 ⟨List.pairwise_cons.2 ⟨fun b hb => ?_, breaksAfter_sorted⟩,
      List.pairwise_singleton _ _, fun a ha b hb => ?_⟩
    · have hlow := (breaksAfter_bounds hb).1
      omega
    · rw [List.mem_singleton.1 hb, encode_cons, List.length_append]
      rcases List.mem_cons.1 ha with rfl | ha
      · omega
      · exact (breaksAfter_bounds ha).2

theorem graphemeBoundaries_le {b : Nat} (h : b ∈ graphemeBoundaries u cs) :
    b ≤ (encode cs).length := by
  cases cs with
  | nil => simpa [graphemeBoundaries] using h
  | cons c cs =>
    have hsorted : (graphemeBoundaries u (c :: cs)).Pairwise (· < ·) := graphemeBoundaries_sorted
    have hend := (List.pairwise_append.1 hsorted).2.2
    rcases List.mem_append.1 h with h | h
    · exact (hend b h _ (by simp)).le
    · exact (List.mem_singleton.1 h).le

/-! `Layout` finds them from the start on. -/

theorem layoutLoop_some (hu : u.Faithful) (offset previous : Nat) (state : Int) (units : Nat)
    (boundaries : List Nat) (c : Char) (rest : Bytes) :
    layoutLoop u offset (some previous) state units boundaries (String.utf8EncodeChar c ++ rest) =
      let r := u.graphemeBreak previous c.toNat state
      let boundaries := if r.1 then boundaries ++ [offset] else boundaries
      if units + unitsOf c.toNat > 2147483647 then ⟨false, 0, boundaries⟩
      else layoutLoop u (offset + (String.utf8EncodeChar c).length) (some c.toNat) r.2
        (units + unitsOf c.toNat) boundaries rest := by
  have hpos := Nat.ne_of_gt (encodeChar_length_pos c)
  rw [layoutLoop, if_neg encodeChar_ne_nil, hu.reads]
  dsimp only
  rw [if_neg hpos, List.drop_left]

theorem layoutLoop_prefix (hu : u.Faithful) {offset previous units : Nat} {state : Int}
    {boundaries : List Nat} :
    (layoutLoop u offset (some previous) state units boundaries (encode cs)).graphemeBoundaries <+:
      boundaries ++ (breaksAfter u offset previous state cs ++ [offset + (encode cs).length]) := by
  induction cs generalizing offset previous units state boundaries with
  | nil =>
    rw [encode_nil, layoutLoop, if_pos rfl]
    dsimp only
    split
    · exact List.prefix_append _ _
    · simp [breaksAfter]
  | cons c cs ih =>
    have hlen : offset + (encode (c :: cs)).length =
        offset + (String.utf8EncodeChar c).length + (encode cs).length := by
      rw [encode_cons, List.length_append, Nat.add_assoc]
    have hsplit : boundaries ++ (breaksAfter u offset previous state (c :: cs) ++
          [offset + (encode (c :: cs)).length]) =
        (if (u.graphemeBreak previous c.toNat state).1 then boundaries ++ [offset]
          else boundaries) ++
          (breaksAfter u (offset + (String.utf8EncodeChar c).length) c.toNat
            (u.graphemeBreak previous c.toNat state).2 cs ++
              [offset + (String.utf8EncodeChar c).length + (encode cs).length]) := by
      rw [hlen, breaksAfter_cons]
      split <;> simp
    rw [encode_cons, layoutLoop_some hu, ← encode_cons, hsplit]
    dsimp only
    split
    · exact List.prefix_append _ _
    · exact ih

theorem layout_front (hu : u.Faithful) :
    (layout u (encode cs)).graphemeBoundaries <+: graphemeBoundaries u cs := by
  cases cs with
  | nil =>
    unfold layout
    rw [encode_nil, layoutLoop, if_pos rfl]
    exact List.prefix_refl _
  | cons c cs =>
    have hpos := Nat.ne_of_gt (encodeChar_length_pos c)
    unfold layout
    rw [encode_cons, layoutLoop, if_neg encodeChar_ne_nil, hu.reads]
    dsimp only
    rw [if_neg hpos, List.drop_left]
    have hall : graphemeBoundaries u (c :: cs) =
        [0] ++ (breaksAfter u (0 + (String.utf8EncodeChar c).length) c.toNat 0 cs ++
          [0 + (String.utf8EncodeChar c).length + (encode cs).length]) := by
      rw [Nat.zero_add, ← List.length_append, ← encode_cons]
      rfl
    rw [hall]
    split
    · exact List.prefix_append _ _
    · exact layoutLoop_prefix hu

/-- What has been found stays. -/
theorem layoutLoop_extends (hu : u.Faithful) {offset units : Nat}
    {previous : Option Nat} {state : Int}
    {boundaries : List Nat} :
    boundaries <+:
      (layoutLoop u offset previous state units boundaries (encode cs)).graphemeBoundaries := by
  induction cs generalizing offset previous units state boundaries with
  | nil =>
    rw [encode_nil, layoutLoop, if_pos rfl]
    dsimp only
    split
    · exact List.prefix_refl _
    · exact List.prefix_append _ _
  | cons c cs ih =>
    obtain ⟨breaks, state, heq, _⟩ :=
      layoutLoop_char hu offset previous state units boundaries c (encode cs)
    have hkept : boundaries <+: if breaks then boundaries ++ [offset] else boundaries := by
      split
      · exact List.prefix_append _ _
      · exact List.prefix_refl _
    rw [encode_cons, heq]
    split
    · exact hkept
    · exact hkept.trans ih

theorem layout_extends (hu : u.Faithful) : [0] <+: (layout u (encode cs)).graphemeBoundaries :=
  layoutLoop_extends hu

/-- In a text it accepts it finds them all. -/
theorem layout_eq (hu : u.Faithful) (h : (layout u (encode cs)).valid = true) :
    (layout u (encode cs)).graphemeBoundaries = graphemeBoundaries u cs := by
  have hfront : (layout u (encode cs)).graphemeBoundaries <+: graphemeBoundaries u cs :=
    layout_front hu
  obtain ⟨rest, hrest⟩ := hfront
  cases rest with
  | nil => simpa using hrest
  | cons b rest =>
    exfalso
    have hsorted : ((layout u (encode cs)).graphemeBoundaries ++ b :: rest).Pairwise (· < ·) :=
      hrest ▸ graphemeBoundaries_sorted
    have hlast := (List.pairwise_append.1 hsorted).2.2 _ (layout_last hu h) b (by simp)
    have hb : b ∈ graphemeBoundaries u cs := hrest ▸ by simp
    exact absurd (graphemeBoundaries_le hb) (Nat.not_le.2 hlast)

/-! Stepping through a part of the boundaries, in order. -/

theorem nextBoundary_eq_of {b : Nat} (hb : b ∈ all) (hk : k < b)
    (hmin : ∀ m ∈ all, k < m → b ≤ m) : nextBoundary all k = b := by
  have hleast : (all.filter (k < ·)).min? = some b := by
    rw [List.min?_eq_some_iff]
    refine ⟨List.mem_filter.2 ⟨hb, by simpa using hk⟩, fun m hm => ?_⟩
    obtain ⟨hm, hkm⟩ := List.mem_filter.1 hm
    exact hmin m hm (by simpa using hkm)
  rw [nextBoundary, hleast, Option.getD_some]

theorem previousBoundary_eq_of {b : Nat} (hb : b ∈ all) (hk : b < k)
    (hmax : ∀ m ∈ all, m < k → m ≤ b) : previousBoundary all k = b := by
  have hgreatest : (all.filter (· < k)).max? = some b := by
    rw [List.max?_eq_some_iff]
    refine ⟨List.mem_filter.2 ⟨hb, by simpa using hk⟩, fun m hm => ?_⟩
    obtain ⟨hm, hkm⟩ := List.mem_filter.1 hm
    exact hmax m hm (by simpa using hkm)
  rw [previousBoundary, hgreatest, Option.getD_some]

theorem previousBoundary_eq_self (h : ∀ m ∈ all, k ≤ m) : previousBoundary all k = k := by
  have hnone : all.filter (· < k) = [] := by
    rw [List.filter_eq_nil_iff]
    intro m hm
    simpa using h m hm
  rw [previousBoundary, hnone]
  rfl

/-- Where the source steps to from its lower bound, and where it stays. -/
def stepForward (boundaries : List Nat) (k : Nat) : Nat :=
  if lowerBound boundaries k + 1 = boundaries.length then k
  else boundaries.getD (lowerBound boundaries k + 1) 0

def stepBack (boundaries : List Nat) (k : Nat) : Nat :=
  if lowerBound boundaries k = 0 then k else boundaries.getD (lowerBound boundaries k - 1) 0

/-- The lower bound of a boundary is its place. -/
theorem lowerBound_of_mem (hs : found.Pairwise (· < ·)) (hk : k ∈ found) :
    ∃ h : lowerBound found k < found.length, found[lowerBound found k] = k := by
  have hlt : lowerBound found k < found.length :=
    List.findIdx_lt_length.2 ⟨k, hk, by simp⟩
  refine ⟨hlt, ?_⟩
  have hat : k ≤ found[lowerBound found k] := of_decide_eq_true (List.findIdx_getElem (w := hlt))
  obtain ⟨j, hj, hjk⟩ := List.getElem_of_mem hk
  have hle : lowerBound found k ≤ j := by
    by_contra hlt'
    have hbelow := List.not_of_lt_findIdx (Nat.lt_of_not_le hlt')
    simp [hjk] at hbelow
  rcases Nat.lt_or_eq_of_le hle with hlt' | heq
  · have hnext := List.pairwise_iff_getElem.1 hs _ _ hlt hj hlt'
    omega
  · subst heq
    exact hjk

theorem le_nextBoundary : k ≤ nextBoundary all k := by
  unfold nextBoundary
  cases h : (all.filter (k < ·)).min? with
  | none => rfl
  | some b =>
    have hb := List.min?_mem h
    have hlt := (List.mem_filter.1 hb).2
    simp only [decide_eq_true_eq] at hlt
    exact hlt.le

theorem nextBoundary_mem (h : k ∈ all) : nextBoundary all k ∈ all := by
  unfold nextBoundary
  cases hmin : (all.filter (k < ·)).min? with
  | none => exact h
  | some b => exact (List.mem_filter.1 (List.min?_mem hmin)).1

/-- The first of the found boundaries after `k` is the first of all. -/
theorem nextBoundary_eq_getElem (hp : found <+: all) (hs : all.Pairwise (· < ·)) {j : Nat}
    (hj : j < found.length) (hk : k < found[j])
    (hbefore : ∀ i (hi : i < found.length), i < j → found[i] ≤ k) :
    nextBoundary all k = found[j] := by
  obtain ⟨rest, rfl⟩ := hp
  obtain ⟨hfound, _, hrest⟩ := List.pairwise_append.1 hs
  refine nextBoundary_eq_of (List.mem_append_left _ (List.getElem_mem hj)) hk fun m hm hkm => ?_
  rcases List.mem_append.1 hm with hm | hm
  · obtain ⟨i, hi, rfl⟩ := List.getElem_of_mem hm
    rcases Nat.lt_trichotomy i j with hlt | rfl | hgt
    · exact absurd (hbefore i hi hlt) (Nat.not_le.2 hkm)
    · exact le_rfl
    · exact (List.pairwise_iff_getElem.1 hfound _ _ hj hi hgt).le
  · exact (hrest _ (List.getElem_mem hj) m hm).le

theorem getElem_lt_of_lt_lowerBound {j : Nat} (hj : j < found.length) (h : j < lowerBound found k) :
    found[j] < k := by
  have hbelow := List.not_of_lt_findIdx h
  simpa using hbelow

/-- Stepping from the lower bound finds the next boundary exactly when it starts at one. -/
theorem stepForward_eq_iff (hp : found <+: all) (hs : all.Pairwise (· < ·)) (hzero : 0 ∈ found) :
    stepForward found k = nextBoundary all k ↔ k ∈ found ∧ nextBoundary all k ∈ found := by
  have hfound : found.Pairwise (· < ·) := hs.sublist hp.sublist
  constructor
  · intro h
    by_cases hlt : lowerBound found k < found.length
    · have hat : k ≤ found[lowerBound found k] :=
        of_decide_eq_true (List.findIdx_getElem (w := hlt))
      rcases Nat.lt_or_eq_of_le hat with hgt | heq
      · -- Between two boundaries the step goes past the next one, or stays.
        exfalso
        have hnext := nextBoundary_eq_getElem hp hs hlt hgt fun i hi hil =>
          (getElem_lt_of_lt_lowerBound hi hil).le
        rw [stepForward, hnext] at h
        split at h
        · omega
        · next hlast =>
          have hsucc : lowerBound found k + 1 < found.length := by omega
          rw [List.getD_eq_getElem _ _ hsucc] at h
          have hlater := List.pairwise_iff_getElem.1 hfound _ _ hlt hsucc (Nat.lt_succ_self _)
          omega
      · have hk : k ∈ found := heq ▸ List.getElem_mem hlt
        refine ⟨hk, ?_⟩
        rw [← h, stepForward]
        split
        · exact hk
        · next hlast =>
          rw [List.getD_eq_getElem _ _ (by omega)]
          exact List.getElem_mem _
    · exfalso
      have hbelow : ∀ b ∈ found, b < k := by
        intro b hb
        by_contra hle
        exact hlt (List.findIdx_lt_length.2 ⟨b, hb, by simpa using hle⟩)
      have hpos := hbelow 0 hzero
      have hle : k ≤ nextBoundary all k := le_nextBoundary
      rw [← h, stepForward, if_neg (by omega), List.getD_eq_default _ _ (by omega)] at hle
      omega
  · rintro ⟨hk, hnext⟩
    obtain ⟨hlt, hat⟩ := lowerBound_of_mem hfound hk
    unfold stepForward
    split
    · next hlast =>
      have hle : nextBoundary all k ≤ k := by
        obtain ⟨j, hj, hj'⟩ := List.getElem_of_mem hnext
        rcases Nat.lt_or_ge j (lowerBound found k) with hjl | hjl
        · exact hj' ▸ (getElem_lt_of_lt_lowerBound hj hjl).le
        · have hje : j = lowerBound found k := by omega
          subst hje
          omega
      exact Nat.le_antisymm le_nextBoundary hle
    · next hlast =>
      have hsucc : lowerBound found k + 1 < found.length := by omega
      rw [List.getD_eq_getElem _ _ hsucc]
      have hlater := List.pairwise_iff_getElem.1 hfound _ _ hlt hsucc (Nat.lt_succ_self _)
      refine (nextBoundary_eq_getElem hp hs hsucc (by omega) fun i hi hil => ?_).symm
      rcases Nat.lt_or_eq_of_le (Nat.lt_succ_iff.1 hil) with hil | rfl
      · exact (getElem_lt_of_lt_lowerBound hi hil).le
      · omega

/-- Stepping back finds the boundary before, from a boundary. -/
theorem stepBack_eq (hp : found <+: all) (hs : all.Pairwise (· < ·)) (hk : k ∈ found) :
    stepBack found k = previousBoundary all k := by
  have hfound : found.Pairwise (· < ·) := hs.sublist hp.sublist
  obtain ⟨hlt, hat⟩ := lowerBound_of_mem hfound hk
  obtain ⟨rest, rfl⟩ := hp
  have hrest : ∀ m ∈ rest, k < m := fun m hm =>
    (List.pairwise_append.1 hs).2.2 k hk m hm
  have hat' : ∀ i (hi : i < found.length), found[i] < k → i < lowerBound found k := by
    intro i hi hik
    by_contra hge
    rcases Nat.lt_or_eq_of_le (Nat.not_lt.1 hge) with hgt | heq
    · have hlater := List.pairwise_iff_getElem.1 hfound _ _ hlt hi hgt
      omega
    · subst heq
      omega
  unfold stepBack
  split
  · next hfirst =>
    refine (previousBoundary_eq_self fun m hm => ?_).symm
    rcases List.mem_append.1 hm with hm | hm
    · obtain ⟨i, hi, rfl⟩ := List.getElem_of_mem hm
      by_contra hlow
      have hil := hat' i hi (by omega)
      omega
    · exact (hrest m hm).le
  · next hfirst =>
    have hpred : lowerBound found k - 1 < found.length := by omega
    rw [List.getD_eq_getElem _ _ hpred]
    refine (previousBoundary_eq_of (List.mem_append_left _ (List.getElem_mem hpred))
      (getElem_lt_of_lt_lowerBound hpred (by omega)) fun m hm hmk => ?_).symm
    rcases List.mem_append.1 hm with hm | hm
    · obtain ⟨i, hi, rfl⟩ := List.getElem_of_mem hm
      have hil := hat' i hi hmk
      rcases Nat.lt_or_eq_of_le (Nat.le_sub_one_of_lt hil) with hil | rfl
      · exact (List.pairwise_iff_getElem.1 hfound _ _ hi hpred hil).le
      · exact le_rfl
    · exact absurd (hrest m hm) (by omega)

end Nightcap.Text
