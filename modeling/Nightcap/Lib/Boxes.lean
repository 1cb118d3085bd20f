import Mathlib

/-! Resampling a line of `n` cells to `m`: each new cell averages a box of old ones. -/
namespace Nightcap.Boxes

variable {n m i : Nat}

/-- The first old cell of a new one. -/
def boxStart (n m i : Nat) : Nat := i * n / m

/-- The end of its box, which holds at least one cell. -/
def boxEnd (n m i : Nat) : Nat := max (boxStart n m i + 1) ((i + 1) * n / m)

theorem boxStart_lt (hn : 0 < n) (hi : i < m) : boxStart n m i < n := by
  have hlt : i * n < n * m := by
    rw [Nat.mul_comm n m]
    exact Nat.mul_lt_mul_of_pos_right hi hn
  exact Nat.div_lt_of_lt_mul (Nat.mul_comm n m ▸ hlt)

theorem boxStart_lt_boxEnd : boxStart n m i < boxEnd n m i := by
  unfold boxEnd
  omega

theorem boxEnd_le (hn : 0 < n) (hi : i < m) : boxEnd n m i ≤ n := by
  refine max_le (boxStart_lt hn hi) (Nat.div_le_of_le_mul ?_)
  exact Nat.mul_le_mul_right n hi

/-- With as many new cells as old ones every box is one cell. -/
theorem boxStart_self (hn : 0 < n) : boxStart n n i = i := Nat.mul_div_cancel i hn

theorem boxEnd_self (hn : 0 < n) : boxEnd n n i = i + 1 := by
  rw [boxEnd, boxStart_self hn, Nat.mul_div_cancel _ hn, max_self]

/-- An average rounded to the nearest, halves up. -/
def roundedAverage (sum count : Nat) : Nat := (sum + count / 2) / count

theorem roundedAverage_one (sum : Nat) : roundedAverage sum 1 = sum := by
  simp [roundedAverage]

/-- The average of bytes is a byte. -/
theorem roundedAverage_le {sum count bound : Nat} (hc : 0 < count) (hs : sum ≤ bound * count) :
    roundedAverage sum count ≤ bound := by
  unfold roundedAverage
  have hhalf : count / 2 < count := by omega
  refine Nat.lt_succ_iff.1 ((Nat.div_lt_iff_lt_mul hc).2 ?_)
  calc sum + count / 2 < bound * count + count := by omega
    _ = (bound + 1) * count := by ring

/-- A sum that wraps always gives a smaller average. -/
theorem wrapped_lt {total count modulus : Nat} (hc : 0 < count) (hm : count ≤ modulus)
    (h : modulus ≤ total) : total % modulus / count < total / count := by
  have hpos : 1 ≤ total / modulus := Nat.div_pos h (by omega)
  have hmod : total % modulus + modulus ≤ total := by
    have hsplit := Nat.mod_add_div total modulus
    have hle : modulus ≤ modulus * (total / modulus) := Nat.le_mul_of_pos_right _ hpos
    omega
  calc total % modulus / count < total % modulus / count + 1 := Nat.lt_succ_self _
    _ = (total % modulus + count) / count := (Nat.add_div_right _ hc).symm
    _ ≤ total / count := Nat.div_le_div_right (by omega)

/-! Loops over a box. -/

/-- An accumulator that wraps holds the sum, wrapped. -/
theorem foldl_add_mod {α : Type*} (f : α → Nat) (modulus : Nat) (l : List α) (start : Nat) :
    l.foldl (fun sum a => (sum + f a) % modulus) (start % modulus) =
      (start + (l.map f).sum) % modulus := by
  induction l generalizing start with
  | nil => simp
  | cons a l ih =>
    have hstep : (start % modulus + f a) % modulus = (start + f a) % modulus :=
      Nat.mod_add_mod _ _ _
    rw [List.foldl_cons, hstep, ih, List.map_cons, List.sum_cons, Nat.add_assoc]

theorem sum_range'_eq_sum_Ico (f : Nat → Nat) (a b : Nat) :
    ((List.range' a (b - a)).map f).sum = ∑ i ∈ Finset.Ico a b, f i := rfl

/-- Rows of cells in order are all cells in order. -/
theorem flatMap_range_range (rows size : Nat) :
    ((List.range rows).flatMap fun x => (List.range size).map fun k => x * size + k) =
      List.range (rows * size) := by
  induction rows with
  | zero => simp
  | succ rows ih =>
    rw [List.range_succ, List.flatMap_append, ih, Nat.succ_mul, List.range_add]
    simp

end Nightcap.Boxes
