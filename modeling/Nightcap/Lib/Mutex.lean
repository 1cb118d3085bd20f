import Mathlib

/-! Threads that take and leave a mutex: who is inside holds it, and nobody else does. -/
namespace Mutex

variable {τ π β : Type*} {m : Option τ} {pc : τ → π} {inside : π → Bool} {t u : τ} {p : π}

/-- The threads inside the section are those that hold the mutex. -/
def Owned (m : Option τ) (pc : τ → π) (inside : π → Bool) : Prop :=
  ∀ t, inside (pc t) = true ↔ m = some t

namespace Owned

theorem holder (h : Owned m pc inside) (ht : inside (pc t) = true) : m = some t := (h t).1 ht

theorem outside (h : Owned m pc inside) (hm : m = none) (t : τ) : inside (pc t) = false := by
  refine Bool.eq_false_iff.2 fun ht => ?_
  have hs := (h t).1 ht
  rw [hm] at hs
  cases hs

/-- Two threads are not inside together. -/
theorem unique (h : Owned m pc inside) (ht : inside (pc t) = true) (hu : inside (pc u) = true) :
    t = u := by
  have heq := (h.holder ht).symm.trans (h.holder hu)
  exact Option.some.inj heq

variable [DecidableEq τ]

theorem move (h : Owned m pc inside) (hp : inside p = inside (pc t)) :
    Owned m (Function.update pc t p) inside := by
  intro u
  by_cases hu : u = t
  · subst hu
    rw [Function.update_self, hp]
    exact h u
  · rw [Function.update_of_ne hu]
    exact h u

theorem acquire (h : Owned m pc inside) (hm : m = none) (hp : inside p = true) :
    Owned (some t) (Function.update pc t p) inside := by
  intro u
  by_cases hu : u = t
  · subst hu
    simp [hp]
  · rw [Function.update_of_ne hu, h.outside hm u]
    simp [Ne.symm hu]

theorem release (h : Owned m pc inside) (ht : inside (pc t) = true) (hp : inside p = false) :
    Owned none (Function.update pc t p) inside := by
  intro u
  by_cases hu : u = t
  · subst hu
    simp [hp]
  · rw [Function.update_of_ne hu, h u, h.holder ht]
    simp [Ne.symm hu]

end Owned

/-- What the thread inside the section has of its own. -/
def kept (m : Option τ) (pc : τ → π) (f : π → Option β) : Option β := m.bind fun t => f (pc t)

variable {f : π → Option β}

theorem kept_self (h : Owned m pc inside) (ht : inside (pc t) = true) :
    kept m pc f = f (pc t) := by
  rw [kept, h.holder ht]
  rfl

/-- The step of a thread that has the same afterwards. -/
theorem kept_move [DecidableEq τ] (hp : f p = f (pc t)) :
    kept m (Function.update pc t p) f = kept m pc f := by
  cases m with
  | none => rfl
  | some u =>
    by_cases hu : u = t
    · subst hu
      simp [kept, hp]
    · simp [kept, Function.update_of_ne hu]

end Mutex
