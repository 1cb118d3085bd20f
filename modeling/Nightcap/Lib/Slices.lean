import Nightcap.Lib.Checked

/-! Slices of a list, and lists with a part overwritten. -/
namespace Slices

open Checked

variable {α ε : Type} {xs ys zs : List α} {i m n size off : Nat}

def slice (xs : List α) (i n : Nat) : List α := (xs.drop i).take n

theorem length_slice (h : i + n ≤ xs.length) : (slice xs i n).length = n := by
  rw [slice, List.length_take, List.length_drop]
  omega

theorem slice_add (xs : List α) (i m n : Nat) :
    slice xs i (m + n) = slice xs i m ++ slice xs (i + m) n := by
  rw [slice, List.take_add, List.drop_drop]
  rfl

/-- A slice in pieces of one size. -/
theorem slice_mul (xs : List α) (i n size : Nat) :
    slice xs i (n * size) = (List.range n).flatMap fun k => slice xs (i + k * size) size := by
  induction n with
  | zero => simp [slice]
  | succ n ih =>
    rw [Nat.succ_mul, slice_add, ih, List.range_succ, List.flatMap_append, List.flatMap_singleton]

/-- The list with `ys` from `i` on. -/
def overwrite (xs : List α) (i : Nat) (ys : List α) : List α :=
  xs.take i ++ ys ++ xs.drop (i + ys.length)

theorem length_overwrite (h : i + ys.length ≤ xs.length) :
    (overwrite xs i ys).length = xs.length := by
  rw [overwrite, List.length_append, List.length_append, List.length_take, List.length_drop]
  omega

@[simp] theorem overwrite_nil : overwrite xs i [] = xs := by
  simp [overwrite]

/-- One part right behind the other. -/
theorem overwrite_overwrite (h : i + (ys.length + zs.length) ≤ xs.length) :
    overwrite (overwrite xs i ys) (i + ys.length) zs = overwrite xs i (ys ++ zs) := by
  have hfirst : (xs.take i ++ ys).length = i + ys.length := by
    rw [List.length_append, List.length_take]
    omega
  have htake : (overwrite xs i ys).take (i + ys.length) = xs.take i ++ ys := by
    rw [overwrite, ← hfirst, List.take_left]
  have hdrop : (overwrite xs i ys).drop (i + ys.length + zs.length) =
      xs.drop (i + (ys ++ zs).length) := by
    rw [← List.drop_drop, overwrite, ← hfirst, List.drop_left, hfirst,
      List.drop_drop, List.length_append,
      Nat.add_assoc]
  rw [overwrite, htake, hdrop, overwrite, List.append_assoc (xs.take i)]

theorem length_pieces {piece : Nat → List α} (h : ∀ k < n, (piece k).length = size) :
    ((List.range n).flatMap piece).length = n * size := by
  induction n with
  | zero => simp
  | succ n ih =>
    rw [List.range_succ, List.flatMap_append, List.flatMap_singleton, List.length_append,
      ih fun k hk => h k (hk.trans (Nat.lt_succ_self n)), h n (Nat.lt_succ_self n), Nat.succ_mul]

/-- A loop that overwrites one piece after the other. -/
theorem meets_overwrites {step : List α → Nat → Comp ε (List α)}
    {piece : Nat → List α} {err : ε → Prop}
    (hlength : ∀ k < n, (piece k).length = size)
    (hstep : ∀ k < n, ∀ ys : List α, ys.length = xs.length →
      Meets (step ys k) (· = overwrite ys (off + k * size) (piece k)) err)
    (hroom : off + n * size ≤ xs.length) :
    Meets ((List.range n).foldlM step xs)
      (· = overwrite xs off ((List.range n).flatMap piece)) err := by
  induction n with
  | zero => exact meets_pure overwrite_nil.symm
  | succ n ih =>
    rw [Nat.succ_mul] at hroom
    have hbefore : ∀ k < n, (piece k).length = size :=
      fun k hk => hlength k (hk.trans (Nat.lt_succ_self n))
    have hsize := length_pieces hbefore
    have hpiece := hlength n (Nat.lt_succ_self n)
    rw [List.range_succ, List.foldlM_append, List.flatMap_append, List.flatMap_singleton]
    refine meets_bind (ih hbefore (fun k hk => hstep k (hk.trans (Nat.lt_succ_self n))) (by omega))
      fun ys hys => ?_
    have hlen : ys.length = xs.length := by
      rw [hys]
      exact length_overwrite (by omega)
    rw [List.foldlM_cons]
    refine meets_bind (hstep n (Nat.lt_succ_self n) ys hlen) fun zs hzs => meets_pure ?_
    rw [hzs, hys, ← hsize]
    exact overwrite_overwrite (by omega)

end Slices
