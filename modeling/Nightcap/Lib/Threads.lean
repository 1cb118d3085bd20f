import Nightcap.Lib.Transition

/-! Threads over shared memory: at each step one of them acts on the memory and on its own state. -/
namespace Threads

open Transition

variable {τ σ κ α : Type*}

/-- What the threads share, and what each has of its own. -/
structure System (τ σ κ : Type*) where
  shared : σ
  own : τ → κ

variable [DecidableEq τ] {s : System τ σ κ} {shared : σ} {x : κ} {t u : τ}

def System.set (s : System τ σ κ) (t : τ) (shared : σ) (x : κ) : System τ σ κ :=
  ⟨shared, Function.update s.own t x⟩

@[simp] theorem System.set_shared : (s.set t shared x).shared = shared := rfl

@[simp] theorem System.set_own_self : (s.set t shared x).own t = x := Function.update_self ..

theorem System.set_own_of_ne (h : u ≠ t) : (s.set t shared x).own u = s.own u :=
  Function.update_of_ne h ..

/-- A property of every thread after a step: of the one that acted and of the others. -/
theorem System.forall_set {P : τ → κ → Prop} :
    (∀ u, P u ((s.set t shared x).own u)) ↔ P t x ∧ ∀ u, u ≠ t → P u (s.own u) :=
  Function.forall_update_iff s.own P

/-- A sum over a family moves by what one member of it changed. -/
theorem sum_update [Fintype τ] (own : τ → κ) (f : κ → ℕ) :
    ∑ u, f (Function.update own t x u) + f (own t) = ∑ u, f (own u) + f x := by
  have hsplit (g : τ → ℕ) : ∑ u, g u = g t + ∑ u ∈ Finset.univ.erase t, g u :=
    (Finset.add_sum_erase Finset.univ g (Finset.mem_univ t)).symm
  have hrest : ∑ u ∈ Finset.univ.erase t, f (Function.update own t x u) =
      ∑ u ∈ Finset.univ.erase t, f (own u) := by
    refine Finset.sum_congr rfl fun u hu => ?_
    rw [Function.update_of_ne (Finset.ne_of_mem_erase hu)]
  rw [hsplit, hsplit fun u => f (own u), hrest, Function.update_self]
  omega

/-- A number every thread has, over all threads, moves by what the one that acted changed. -/
theorem System.sum_set [Fintype τ] (f : κ → ℕ) :
    ∑ u, f ((s.set t shared x).own u) + f (s.own t) = ∑ u, f (s.own u) + f x :=
  sum_update s.own f

/-- The runs of the threads, from a start where all are in the same state. -/
def interleaving (start : σ) (idle : κ) (act : τ → σ → κ → α → Option (σ × κ)) :
    LTS (System τ σ κ) (τ × α) where
  initial s := s = ⟨start, fun _ => idle⟩
  step s a s' := ∃ shared x, act a.1 s.shared (s.own a.1) a.2 = some (shared, x) ∧
    s' = s.set a.1 shared x

/-- The step of a thread, as a function. -/
def next (act : τ → σ → κ → α → Option (σ × κ)) (s : System τ σ κ) (a : τ × α) :
    Option (System τ σ κ) :=
  (act a.1 s.shared (s.own a.1) a.2).map fun r => s.set a.1 r.1 r.2

/-- A list of steps that all happen leads to a reachable state. -/
theorem reachable_of_foldlM {start : σ} {idle : κ} {act : τ → σ → κ → α → Option (σ × κ)}
    {as : List (τ × α)} (h : as.foldlM (next act) ⟨start, fun _ => idle⟩ = some s) :
    (interleaving start idle act).Reachable s := by
  refine ⟨_, as, rfl, LTS.Run.of_foldlM (fun s a s' hs => ?_) h⟩
  obtain ⟨⟨shared, x⟩, hact, rfl⟩ := Option.map_eq_some_iff.1 hs
  exact ⟨shared, x, hact, rfl⟩

section Guarded

variable {start : σ} {idle : κ} {act : τ → σ → κ → α → Option (σ × κ)}
  {P : System τ σ κ → τ × α → Prop}
  [∀ s a, Decidable (P s a)]

/-- The step of a thread where a condition allows it. -/
def nextIf (act : τ → σ → κ → α → Option (σ × κ)) (P : System τ σ κ → τ × α → Prop)
    [∀ s a, Decidable (P s a)]
    (s : System τ σ κ) (a : τ × α) : Option (System τ σ κ) :=
  if P s a then next act s a else none

theorem reachable_of_nextIf {as : List (τ × α)}
    (h : as.foldlM (nextIf act P) ⟨start, fun _ => idle⟩ = some s) :
    ((interleaving start idle act).restrict P).Reachable s := by
  refine ⟨_, as, rfl, LTS.Run.of_foldlM (fun s a s' hs => ?_) h⟩
  rw [nextIf, Option.ite_none_right_eq_some] at hs
  obtain ⟨⟨shared, x⟩, hact, rfl⟩ := Option.map_eq_some_iff.1 hs.2
  exact ⟨⟨shared, x, hact, rfl⟩, hs.1⟩

end Guarded

end Threads
