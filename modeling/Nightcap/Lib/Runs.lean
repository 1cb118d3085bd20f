import Mathlib

/-! The marked ones of some consecutive numbers, and all from there on, as ranges with gaps between
them. -/
namespace Runs

structure Range where
  begin : Nat
  end_exclusive : Nat
deriving DecidableEq

def Range.Covers (r : Range) (i : Nat) : Prop := r.begin ≤ i ∧ i < r.end_exclusive

instance (r : Range) (i : Nat) : Decidable (r.Covers i) := inferInstanceAs (Decidable (_ ∧ _))

def Covered (rs : List Range) (i : Nat) : Prop := ∃ r ∈ rs, r.Covers i

instance (rs : List Range) (i : Nat) : Decidable (Covered rs i) :=
  inferInstanceAs (Decidable (∃ r ∈ rs, _))

/-- Ascending ranges that are not empty, disjoint or next to each other. -/
structure Separated (rs : List Range) : Prop where
  nonempty : ∀ r ∈ rs, r.begin < r.end_exclusive
  apart : rs.Pairwise fun r s => r.end_exclusive < s.begin

/-- The ranges so far, and where the one that is still open began. -/
structure Scan where
  done : List Range := []
  run : Option Nat := none

def step (mark : Bool) (index : Nat) (s : Scan) : Scan :=
  if mark then { s with run := some (s.run.getD index) }
  else
    match s.run with
    | some begin => ⟨s.done ++ [⟨begin, index⟩], none⟩
    | none => s

def scan (marks : Nat → Bool) (start n : Nat) : Scan :=
  (List.range n).foldl (fun s k => step (marks k) (start + k) s) {}

/-- The open range, or one from the end of the marks on, goes up to a bound. -/
def close (s : Scan) (past stop : Nat) : List Range := s.done ++ [⟨s.run.getD past, stop⟩]

variable {marks : Nat → Bool} {start stop n i : Nat} {s : Scan} {r : Range} {rs : List Range}

theorem covered_append {rs ss : List Range} : Covered (rs ++ ss) i ↔
    Covered rs i ∨ Covered ss i := by
  unfold Covered
  simp only [List.mem_append, or_and_right, exists_or]

theorem covered_singleton : Covered [r] i ↔ r.Covers i := by
  simp [Covered]

/-- What the scan has found after so many marks. -/
structure Holds (marks : Nat → Bool) (start n : Nat) (s : Scan) : Prop where
  separated : Separated s.done
  low : ∀ r ∈ s.done, start ≤ r.begin
  high : ∀ r ∈ s.done, r.end_exclusive < start + n
  run : ∀ b, s.run = some b → start ≤ b ∧ b < start + n ∧ ∀ r ∈ s.done, r.end_exclusive < b
  covered : ∀ k < n, marks k = true ↔ Covered s.done (start + k) ∨
    ∃ b, s.run = some b ∧ b ≤ start + k

theorem holds_start : Holds marks start 0 {} where
  separated := ⟨List.forall_mem_nil _, .nil⟩
  low := List.forall_mem_nil _
  high := List.forall_mem_nil _
  run _ h := by cases h
  covered _ h := absurd h (Nat.not_lt_zero _)

theorem not_covered_of_high (h : ∀ r ∈ rs, r.end_exclusive ≤ i) : ¬ Covered rs i := by
  rintro ⟨r, hr, hcovers⟩
  exact absurd hcovers.2 (Nat.not_lt.2 (h r hr))

theorem separated_append (h : Separated rs) (hr : r.begin < r.end_exclusive)
    (hapart : ∀ s ∈ rs, s.end_exclusive < r.begin) : Separated (rs ++ [r]) where
  nonempty := by
    intro s hs
    rcases List.mem_append.1 hs with hs | hs
    · exact h.nonempty s hs
    · rw [List.mem_singleton.1 hs]
      exact hr
  apart := List.pairwise_append.2 ⟨h.apart, List.pairwise_singleton _ _, fun s hs t ht => by
    rw [List.mem_singleton.1 ht]
    exact hapart s hs⟩

theorem Holds.step (h : Holds marks start n s) : Holds marks start (n + 1)
    (step (marks n) (start + n) s) := by
  have hnot : ¬ Covered s.done (start + n) := not_covered_of_high fun r hr =>
      Nat.le_of_lt (h.high r hr)
  unfold Runs.step
  cases hmark : marks n with
  | true =>
    rw [if_pos rfl]
    refine ⟨h.separated, h.low, fun r hr => Nat.lt_succ_of_lt (h.high r hr), ?_, ?_⟩
    · intro b hb
      cases hrun : s.run with
      | none =>
        rw [hrun, Option.getD_none, Option.some_inj] at hb
        subst hb
        exact ⟨by omega, by omega, h.high⟩
      | some c =>
        rw [hrun, Option.getD_some, Option.some_inj] at hb
        subst hb
        obtain ⟨hlow, hhigh, hdone⟩ := h.run c hrun
        exact ⟨hlow, by omega, hdone⟩
    · intro k hk
      rcases Nat.lt_succ_iff_lt_or_eq.1 hk with hk | rfl
      · rw [h.covered k hk]
        refine or_congr_right ?_
        cases hrun : s.run with
        | none => simp; omega
        | some c => simp
      · refine iff_of_true hmark (.inr ⟨_, rfl, ?_⟩)
        cases hrun : s.run with
        | none => exact le_rfl
        | some c => exact Nat.le_of_lt (h.run c hrun).2.1
  | false =>
    rw [if_neg Bool.false_ne_true]
    cases hrun : s.run with
    | none =>
      refine ⟨h.separated, h.low, fun r hr => Nat.lt_succ_of_lt (h.high r hr), ?_, ?_⟩
      · intro b hb
        rw [hrun] at hb
        cases hb
      · intro k hk
        rcases Nat.lt_succ_iff_lt_or_eq.1 hk with hk | rfl
        · exact h.covered k hk
        · refine iff_of_false (by rw [hmark]; exact Bool.false_ne_true) ?_
          rintro (hcovered | ⟨b, hb, -⟩)
          · exact hnot hcovered
          · rw [hrun] at hb
            cases hb
    | some c =>
      obtain ⟨hlow, hhigh, hdone⟩ := h.run c hrun
      refine ⟨separated_append h.separated hhigh hdone, ?_, ?_, nofun, ?_⟩
      · intro r hr
        rcases List.mem_append.1 hr with hr | hr
        · exact h.low r hr
        · rw [List.mem_singleton.1 hr]
          exact hlow
      · intro r hr
        rcases List.mem_append.1 hr with hr | hr
        · exact Nat.lt_succ_of_lt (h.high r hr)
        · rw [List.mem_singleton.1 hr]
          exact Nat.lt_succ_self _
      · intro k hk
        rw [covered_append, covered_singleton]
        rcases Nat.lt_succ_iff_lt_or_eq.1 hk with hk | rfl
        · rw [h.covered k hk, hrun]
          simp [Range.Covers, hk]
        · refine iff_of_false (by rw [hmark]; exact Bool.false_ne_true) ?_
          rintro ((hcovered | hcovers) | ⟨b, hb, -⟩)
          · exact hnot hcovered
          · exact absurd hcovers.2 (Nat.lt_irrefl _)
          · cases hb

theorem holds_scan (marks : Nat → Bool) (start n : Nat) :
    Holds marks start n (scan marks start n) := by
  induction n with
  | zero => exact holds_start
  | succ n ih =>
    rw [scan, List.range_succ, List.foldl_append]
    exact ih.step

/-! The ranges with the last one closed. -/

theorem run_le (h : Holds marks start n s) : start ≤ s.run.getD (start + n) ∧
    s.run.getD (start + n) ≤ start + n ∧
    ∀ r ∈ s.done, r.end_exclusive < s.run.getD (start + n) := by
  cases hrun : s.run with
  | none => exact ⟨by simp, le_rfl, h.high⟩
  | some b =>
    obtain ⟨hlow, hhigh, hdone⟩ := h.run b hrun
    exact ⟨hlow, Nat.le_of_lt hhigh, hdone⟩

theorem separated_close (h : Holds marks start n s) (hstop : start + n < stop) :
    Separated (close s (start + n) stop) := by
  obtain ⟨-, hle, hdone⟩ := run_le h
  exact separated_append h.separated (hle.trans_lt hstop) hdone

theorem low_close (h : Holds marks start n s) (hr : r ∈ close s (start + n) stop) :
    start ≤ r.begin := by
  rcases List.mem_append.1 hr with hr | hr
  · exact h.low r hr
  · rw [List.mem_singleton.1 hr]
    exact (run_le h).1

theorem begin_close_le (h : Holds marks start n s) (hr : r ∈ close s (start + n) stop) :
    r.begin ≤ start + n := by
  rcases List.mem_append.1 hr with hr | hr
  · exact Nat.le_of_lt ((h.separated.nonempty r hr).trans (h.high r hr))
  · rw [List.mem_singleton.1 hr]
    exact (run_le h).2.1

theorem end_close_le (h : Holds marks start n s) (hstop : start + n < stop)
    (hr : r ∈ close s (start + n) stop) :
    r.end_exclusive ≤ stop := by
  rcases List.mem_append.1 hr with hr | hr
  · exact Nat.le_of_lt ((h.high r hr).trans hstop)
  · rw [List.mem_singleton.1 hr]

theorem covered_close (h : Holds marks start n s) (hstop : start + n < stop) :
    Covered (close s (start + n) stop) i ↔
      start ≤ i ∧ i < start + n ∧ marks (i - start) = true ∨ start + n ≤ i ∧ i < stop := by
  rw [close, covered_append, covered_singleton]
  by_cases hlow : start ≤ i
  · obtain ⟨k, rfl⟩ := Nat.exists_eq_add_of_le hlow
    by_cases hk : k < n
    · have hcovered := h.covered k hk
      have hsub : start + k - start = k := by omega
      have hin : start + k < start + n := by omega
      have hout : ¬ (start + n ≤ start + k ∧ start + k < stop) := by omega
      rw [hsub, hcovered]
      simp only [hlow, hin, true_and, hout, or_false]
      refine or_congr_right ?_
      cases hrun : s.run with
      | none =>
        refine iff_of_false (fun hcovers => ?_) nofun
        have hle : start + n ≤ start + k := hcovers.1
        omega
      | some b =>
        simp only [Option.getD_some, Range.Covers, Option.some_inj, exists_eq_left']
        omega
    · obtain ⟨-, hle, -⟩ := run_le h
      have hnot : ¬ Covered s.done (start + k) :=
        not_covered_of_high fun r hr => by have hr' := h.high r hr; omega
      simp only [hnot, false_or, Range.Covers]
      omega
  · have hnot : ¬ Covered s.done i := by
      rintro ⟨r, hr, hcovers⟩
      exact hlow ((h.low r hr).trans hcovers.1)
    obtain ⟨hle, -, -⟩ := run_le h
    simp only [hnot, false_or, Range.Covers]
    omega

/-- Ranges that cover one range are that range. -/
theorem Separated.eq_singleton {low high : Nat} (h : Separated rs) (hlt : low < high)
    (hcovered : ∀ i, Covered rs i ↔ low ≤ i ∧ i < high) : rs = [⟨low, high⟩] := by
  cases rs with
  | nil =>
    obtain ⟨r, hr, -⟩ := (hcovered low).2 ⟨le_rfl, hlt⟩
    cases hr
  | cons r rest =>
    have hr := h.nonempty r List.mem_cons_self
    obtain ⟨hapart, -⟩ := List.pairwise_cons.1 h.apart
    have hlow := ((hcovered r.begin).1 ⟨r, List.mem_cons_self, le_rfl, hr⟩).1
    have hhigh := ((hcovered (r.end_exclusive - 1)).1 ⟨r, List.mem_cons_self, by omega, by omega⟩).2
    have hin : ∀ i, low ≤ i → i < high → i ≤ r.end_exclusive → r.Covers i := by
      intro i hi hi' hle
      obtain ⟨s, hs, hcovers⟩ := (hcovered i).2 ⟨hi, hi'⟩
      rcases List.mem_cons.1 hs with rfl | hs
      · exact hcovers
      · have hgap := hapart s hs
        have hbegin := hcovers.1
        omega
    have hfirst := (hin low le_rfl hlt (by omega)).1
    have hlast : high ≤ r.end_exclusive := by
      by_contra hno
      have hover := (hin r.end_exclusive (by omega) (by omega) le_rfl).2
      omega
    cases rest with
    | nil =>
      obtain rfl : r = ⟨low, high⟩ := by
        cases r
        simp only [Range.mk.injEq]
        simp only at hfirst hlow hlast hhigh hr
        omega
      rfl
    | cons s rest =>
      have hs := h.nonempty s (List.mem_cons_of_mem _ List.mem_cons_self)
      have hgap := hapart s List.mem_cons_self
      have hbound :=
        ((hcovered s.begin).1 ⟨s, List.mem_cons_of_mem _ List.mem_cons_self, le_rfl, hs⟩).2
      omega

theorem Separated.length_le {low high : Nat} (h : Separated rs) (hlow : ∀ r ∈ rs, low ≤ r.begin)
    (hhigh : ∀ r ∈ rs, r.begin ≤ high) : rs.length ≤ high + 1 - low := by
  have hascending : (rs.map (·.begin)).Nodup := by
    refine List.pairwise_map.2 (h.apart.imp_of_mem fun {r s} hr _ hgap => ?_)
    have hnonempty := h.nonempty r hr
    omega
  have hsub : (rs.map (·.begin)).toFinset ⊆ Finset.Icc low high := by
    intro n hn
    obtain ⟨r, hr, rfl⟩ := List.mem_map.1 (List.mem_toFinset.1 hn)
    exact Finset.mem_Icc.2 ⟨hlow r hr, hhigh r hr⟩
  have hcard := Finset.card_le_card hsub
  rwa [List.toFinset_card_of_nodup hascending, List.length_map, Nat.card_Icc] at hcard

end Runs
