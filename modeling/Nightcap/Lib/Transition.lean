import Mathlib

/-! Labelled transition systems: finite runs, reachable states and the invariant rule. -/
namespace Transition

/-- A transition system with labelled steps. -/
structure LTS (σ : Type*) (α : Type*) where
  initial : σ → Prop
  step : σ → α → σ → Prop

/-- The system of a partial transition function from one initial state. -/
def LTS.ofFun {σ α : Type*} (init : σ) (f : σ → α → Option σ) : LTS σ α where
  initial s := s = init
  step s a t := f s a = some t

/-- The steps of a system that meet a condition on the state before them and their label. -/
def LTS.restrict {σ α : Type*} (L : LTS σ α) (P : σ → α → Prop) : LTS σ α where
  initial := L.initial
  step s a t := L.step s a t ∧ P s a

/-- The steps of a system that lead into states with a property. -/
def LTS.staying {σ α : Type*} (L : LTS σ α) (P : σ → Prop) : LTS σ α where
  initial := L.initial
  step s a t := L.step s a t ∧ P t

namespace LTS

variable {σ α : Type*} {L : LTS σ α} {s t u : σ} {a : α} {as bs : List α} {I : σ → Prop}

/-- A finite run and its labels, first step first. -/
inductive Run (L : LTS σ α) : σ → List α → σ → Prop
  | refl (s : σ) : Run L s [] s
  | cons {s t u : σ} {a : α} {as : List α} : L.step s a t → Run L t as u → Run L s (a :: as) u

def Reachable (L : LTS σ α) (s : σ) : Prop := ∃ s₀ as, L.initial s₀ ∧ L.Run s₀ as s

theorem Run.single (h : L.step s a t) : L.Run s [a] t := .cons h (.refl t)

theorem Run.append (h : L.Run s as t) (h' : L.Run t bs u) : L.Run s (as ++ bs) u := by
  induction h with
  | refl => exact h'
  | cons hs _ ih => exact .cons hs (ih h')

/-- A transition function that accepts every label of a list makes a run of it. -/
theorem Run.of_foldlM {f : σ → α → Option σ} (hf : ∀ s a t, f s a = some t → L.step s a t)
    (h : as.foldlM f s = some t) : L.Run s as t := by
  induction as generalizing s with
  | nil =>
    obtain rfl : s = t := by simpa using h
    exact .refl s
  | cons a as ih =>
    rw [List.foldlM_cons] at h
    obtain ⟨u, hu, hr⟩ := Option.bind_eq_some_iff.1 h
    exact .cons (hf _ _ _ hu) (ih hr)

theorem Reachable.run (h : L.Reachable s) (hr : L.Run s as t) : L.Reachable t := by
  obtain ⟨s₀, bs, hi, hb⟩ := h
  exact ⟨s₀, bs ++ as, hi, hb.append hr⟩

/-- A property every step keeps is kept by every run. -/
theorem Run.invariant (hstep : ∀ s a t, L.step s a t → I s → I t) (h : L.Run s as t) (hs : I s) :
    I t := by
  induction h with
  | refl => exact hs
  | cons h _ ih => exact ih (hstep _ _ _ h hs)

theorem Reachable.invariant (hinit : ∀ s, L.initial s → I s)
    (hstep : ∀ s a t, L.step s a t → I s → I t) (h : L.Reachable s) : I s := by
  obtain ⟨s₀, as, hi, hr⟩ := h
  exact hr.invariant hstep (hinit _ hi)

/-- Reachability peels off its last step. -/
theorem Reachable.induction {motive : σ → Prop} (hinit : ∀ s, L.initial s → motive s)
    (hstep : ∀ s a t, L.Reachable s → L.step s a t → motive s → motive t) (h : L.Reachable s) :
    motive s := by
  have hand : L.Reachable s ∧ motive s := by
    refine h.invariant (I := fun s => L.Reachable s ∧ motive s) ?_ ?_
    · intro s hi
      exact ⟨⟨s, [], hi, .refl s⟩, hinit s hi⟩
    · rintro s a t hs ⟨hr, hm⟩
      exact ⟨hr.run (.single hs), hstep s a t hr hs hm⟩
  exact hand.2

end LTS

end Transition
