import Mathlib.Data.List.Basic

/-! A list cut into pieces of one size, the last of which may be smaller. -/
namespace Pieces

variable {α : Type} {s : Nat} {xs : List α}

/-- A list that fits is one piece. -/
def pieces (s : Nat) (xs : List α) : List (List α) :=
  if s = 0 ∨ xs.length ≤ s then [xs] else xs.take s :: pieces s (xs.drop s)
termination_by xs.length
decreasing_by
  rw [List.length_drop]
  omega

theorem pieces_last (h : xs.length ≤ s) : pieces s xs = [xs] := by
  rw [pieces, if_pos (.inr h)]

theorem pieces_cons (hs : 0 < s) (h : s < xs.length) :
    pieces s xs = xs.take s :: pieces s (xs.drop s) := by
  rw [pieces, if_neg (by omega)]

/-- The first piece, and what is left. -/
theorem pieces_eq (hs : 0 < s) (xs : List α) :
    pieces s xs = xs.take (min s xs.length) ::
      if s < xs.length then pieces s (xs.drop s) else [] := by
  split
  · rename_i h
    rw [pieces_cons hs h, Nat.min_eq_left (Nat.le_of_lt h)]
  · rename_i h
    rw [pieces_last (Nat.not_lt.1 h), Nat.min_eq_right (Nat.not_lt.1 h), List.take_length]

theorem flatten_pieces (s : Nat) (xs : List α) : (pieces s xs).flatten = xs := by
  fun_induction pieces s xs with
  | case1 xs h => simp
  | case2 xs h ih => rw [List.flatten_cons, ih, List.take_append_drop]

theorem pieces_ne_nil (s : Nat) (xs : List α) : pieces s xs ≠ [] := by
  unfold pieces
  split <;> simp

theorem length_pieces (hs : 0 < s) (hne : xs ≠ []) :
    (pieces s xs).length = (xs.length + s - 1) / s := by
  fun_induction pieces s xs with
  | case1 xs hlast =>
    have hpos := List.length_pos_iff.2 hne
    rw [List.length_singleton]
    exact (Nat.div_eq_of_lt_le (by omega) (by omega)).symm
  | case2 xs hmore ih =>
    have hdrop : xs.drop s ≠ [] := by
      intro hnone
      have hlength := congrArg List.length hnone
      rw [List.length_drop, List.length_nil] at hlength
      omega
    have hsplit : xs.length + s - 1 = (xs.length - s + s - 1) + s := by omega
    rw [List.length_cons, ih hdrop, List.length_drop, hsplit, Nat.add_div_right _ hs]

/-- Pieces of one size are found again in what they make up. -/
theorem eq_of_flatten {n : Nat} {xss yss : List (List α)} (hlength : xss.length = yss.length)
    (hxs : ∀ piece ∈ xss, piece.length = n) (hys : ∀ piece ∈ yss, piece.length = n)
    (h : xss.flatten = yss.flatten) :
    xss = yss := by
  induction xss generalizing yss with
  | nil => exact (List.length_eq_zero_iff.1 hlength.symm).symm
  | cons piece xss ih =>
    cases yss with
    | nil => cases hlength
    | cons other yss =>
      rw [List.flatten_cons, List.flatten_cons] at h
      have hsame : piece.length = other.length :=
        (hxs piece List.mem_cons_self).trans (hys other List.mem_cons_self).symm
      obtain ⟨rfl, hrest⟩ := List.append_inj h hsame
      rw [ih (Nat.succ_inj.1 hlength) (fun p hp => hxs p (List.mem_cons_of_mem _ hp))
        (fun p hp => hys p (List.mem_cons_of_mem _ hp)) hrest]

end Pieces
