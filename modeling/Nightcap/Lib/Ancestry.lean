import Mathlib.Data.Set.Finite.Basic
import Mathlib.Data.Fintype.Pigeonhole
import Mathlib.Logic.Relation

/-! Going backward in a finite relation: to a root, or around a cycle. -/
namespace Ancestry

open Relation

variable {α : Type} {r : α → α → Prop} {root : α → Prop} {nodes : Set α} {x : α}

/-- A walk backward stays related to where it started. -/
theorem reflTransGen_iterate {back : α → α} (hback : ∀ a, r (back a) a) (n : Nat) (a : α) :
    ReflTransGen r (back^[n] a) a := by
  induction n with
  | zero => exact .refl
  | succ n ih =>
    rw [Function.iterate_succ_apply']
    exact .head (hback _) ih

theorem transGen_iterate {back : α → α} (hback : ∀ a, r (back a) a) (n : Nat) (a : α) :
    TransGen r (back^[n + 1] a) a := by
  rw [Function.iterate_succ_apply']
  exact .head' (hback _) (reflTransGen_iterate hback n a)

/-- Whoever always has a predecessor among finitely many comes after a cycle. -/
theorem exists_cycle [Finite α] (h : ∀ b, ∃ a, r a b) (x : α) : ∃ c, TransGen r c c ∧
    ReflTransGen r c x := by
  choose back hback using h
  obtain ⟨m, n, hne, heq⟩ := Finite.exists_ne_map_eq_of_infinite fun n : Nat => back^[n] x
  wlog hlt : m < n generalizing m n
  · exact this n m hne.symm heq.symm (by omega)
  refine ⟨back^[m] x, ?_, reflTransGen_iterate hback m x⟩
  have hround := transGen_iterate hback (n - m - 1) (back^[m] x)
  rw [← Function.iterate_add_apply, show n - m - 1 + 1 + m = n by omega] at hround
  exact (heq ▸ hround : TransGen r (back^[m] x) (back^[m] x))

/-- Each node among finitely many that are roots or come after another comes after a root or a
cycle. -/
theorem root_or_cycle (hfinite : nodes.Finite)
    (h : ∀ b ∈ nodes, root b ∨ ∃ a, (root a ∨ a ∈ nodes) ∧ r a b)
    (hx : x ∈ nodes) : (∃ a, root a ∧ ReflTransGen r a x) ∨ ∃ c, TransGen r c c ∧
      ReflTransGen r c x := by
  by_cases hroot : ∃ a, root a ∧ ReflTransGen r a x
  · exact .inl hroot
  right
  have hfinite' : Finite {a // a ∈ nodes ∧ ReflTransGen r a x} :=
    (hfinite.subset fun a ha => ha.1).to_subtype
  obtain ⟨c, hcycle, hpath⟩ :=
    exists_cycle (r := fun a b : {a // a ∈ nodes ∧ ReflTransGen r a x} => r a.1 b.1)
    (fun b => by
      obtain hb | ⟨a, hb | hb, hab⟩ := h b.1 b.2.1
      · exact absurd ⟨b.1, hb, b.2.2⟩ hroot
      · exact absurd ⟨a, hb, .head hab b.2.2⟩ hroot
      · exact ⟨⟨a, hb, .head hab b.2.2⟩, hab⟩) ⟨x, hx, .refl⟩
  exact ⟨c.1, hcycle.lift Subtype.val fun _ _ h => h, hpath.lift Subtype.val fun _ _ h => h⟩

end Ancestry
