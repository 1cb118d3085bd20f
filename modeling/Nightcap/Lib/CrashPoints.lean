import Mathlib.Data.List.Basic

/-! Lists of operations that may be cut short after any of them. -/
namespace CrashPoints

variable {σ α : Type} {f : σ → α → σ} {P Q : σ → Prop} {s : σ} {as bs : List α} {a : α}

/-- The property holds before, between and after the operations. -/
def Through (f : σ → α → σ) (P : σ → Prop) : σ → List α → Prop
  | s, [] => P s
  | s, a :: as => P s ∧ Through f P (f s a) as

@[simp] theorem through_nil : Through f P s [] ↔ P s := .rfl

@[simp] theorem through_cons : Through f P s (a :: as) ↔ P s ∧ Through f P (f s a) as := .rfl

theorem Through.first (h : Through f P s as) : P s := by
  cases as with
  | nil => exact h
  | cons a as => exact h.1

theorem Through.last (h : Through f P s as) : P (as.foldl f s) := by
  induction as generalizing s with
  | nil => exact h
  | cons a as ih => exact ih h.2

theorem Through.take (h : Through f P s as) (n : Nat) : P ((as.take n).foldl f s) := by
  induction as generalizing s n with
  | nil =>
    rw [List.take_nil]
    exact h
  | cons a as ih =>
    cases n with
    | zero => exact h.1
    | succ n => exact ih h.2 n

theorem Through.append (h : Through f P s as) (h' : Through f P (as.foldl f s) bs) :
    Through f P s (as ++ bs) := by
  induction as generalizing s with
  | nil => exact h'
  | cons a as ih => exact ⟨h.1, ih h.2 h'⟩

theorem Through.mono (hpq : ∀ s, P s → Q s) (h : Through f P s as) : Through f Q s as := by
  induction as generalizing s with
  | nil => exact hpq s h
  | cons a as ih => exact ⟨hpq s h.1, ih h.2⟩

/-- What every operation keeps holds throughout. -/
theorem Through.of_step (hs : P s) (hstep : ∀ s, P s → ∀ a ∈ as, P (f s a)) : Through f P s as := by
  induction as generalizing s with
  | nil => exact hs
  | cons a as ih =>
    refine ⟨hs, ih (hstep s hs a List.mem_cons_self) fun s hs b hb => ?_⟩
    exact hstep s hs b (List.mem_cons_of_mem a hb)

end CrashPoints
