import Mathlib.Data.List.AList
import Mathlib.Data.Multiset.AddSub
import Mathlib.Algebra.BigOperators.Group.Multiset.Basic
import Mathlib.Algebra.Order.Group.Multiset

/-! What the values of a finite map hold, counted together. -/
namespace Holdings

variable {α β γ : Type} {f : β → Multiset γ} {m : AList fun _ : α => β} {a : α} {b : β}

def held (f : β → Multiset γ) (m : AList fun _ : α => β) : Multiset γ :=
  (m.entries.map fun e => f e.2).sum

@[simp] theorem held_empty : held f (∅ : AList fun _ : α => β) = 0 := rfl

variable [DecidableEq α]

theorem held_erase (h : m.lookup a = some b) : held f m = f b + held f (m.erase a) := by
  have hmem : a ∈ m.entries.keys := AList.lookup_isSome.1 (by rw [h]; rfl)
  obtain ⟨b', before, after, _, he, hk⟩ := List.exists_of_kerase hmem
  have hb : b' = b := by
    have hin : ⟨a, b'⟩ ∈ m.entries := by
      rw [he]
      exact List.mem_append_right _ List.mem_cons_self
    have hlook := (AList.mem_lookup_iff (s := m)).2 hin
    exact Option.some.inj (hlook.symm.trans h)
  subst hb
  have hm : m.entries.Perm (⟨a, b'⟩ :: (before ++ after)) := by
    rw [he]
    exact List.perm_middle
  have herase : (m.erase a).entries = before ++ after := hk
  rw [held, held, herase, (hm.map fun e => f e.2).sum_eq, List.map_cons, List.sum_cons]

theorem held_erase_of_not_mem (h : a ∉ m) : held f (m.erase a) = held f m := by
  have herase : (m.erase a).entries = m.entries := List.kerase_of_notMem_keys h
  rw [held, held, herase]

/-- What one key holds, nothing for a missing one. -/
def part (f : β → Multiset γ) (m : AList fun _ : α => β) (a : α) :
    Multiset γ := (m.lookup a).elim 0 f

theorem part_add_erase : part f m a + held f (m.erase a) = held f m := by
  cases h : m.lookup a with
  | none =>
    rw [part, h, Option.elim_none, zero_add, held_erase_of_not_mem (AList.lookup_eq_none.1 h)]
  | some b => rw [part, h, Option.elim_some, held_erase h]

/-- A new value takes the place of what its key held. -/
theorem held_insert : held f (m.insert a b) + part f m a = f b + held f m := by
  have hinsert : held f (m.insert a b) = f b + held f (m.erase a) := by
    rw [held, AList.entries_insert, List.map_cons, List.sum_cons]
    rfl
  rw [hinsert, add_assoc, add_comm (held f (m.erase a)), part_add_erase]

variable [DecidableEq γ] {c : γ}

theorem count_held_insert :
    (held f (m.insert a b)).count c + (part f m a).count c =
    (f b).count c + (held f m).count c := by
  rw [← Multiset.count_add, held_insert, Multiset.count_add]

theorem count_held_erase :
    (part f m a).count c + (held f (m.erase a)).count c = (held f m).count c := by
  rw [← Multiset.count_add, part_add_erase]

end Holdings
