import Mathlib.Data.List.Count
import Mathlib.Data.List.Perm.Basic

/-! A counting filter: how many keys hash to each slot, counted in words that wrap. -/
namespace CountingFilter

variable {κ ι : Type} [DecidableEq ι] {slot : κ → ι} {w : Nat}
  {counts : ι → Nat} {keys : List κ} {k : κ}

def add (w : Nat) (counts : ι → Nat) (i : ι) : ι → Nat :=
  Function.update counts i ((counts i + 1) % w)

def remove (w : Nat) (counts : ι → Nat) (i : ι) : ι → Nat :=
  Function.update counts i ((counts i + (w - 1)) % w)

/-- Each slot's count is the number of the keys that hash to it. -/
def Counts (w : Nat) (slot : κ → ι) (counts : ι → Nat) (keys : List κ) : Prop :=
  ∀ i, counts i = keys.countP (slot · = i) % w

theorem counts_nil : Counts w slot (fun _ => 0) [] := fun _ => (Nat.zero_mod w).symm

theorem Counts.perm {keys' : List κ} (h : Counts w slot counts keys) (hp : keys.Perm keys') :
    Counts w slot counts keys' :=
  fun i => (h i).trans (by rw [hp.countP_eq])

theorem Counts.add (h : Counts w slot counts keys) :
    Counts w slot (add w counts (slot k)) (k :: keys) := by
  intro i
  by_cases hi : i = slot k
  · subst hi
    rw [CountingFilter.add, Function.update_self, h,
      List.countP_cons_of_pos (by simp), Nat.mod_add_mod]
  · rw [CountingFilter.add, Function.update_of_ne hi, h,
      List.countP_cons_of_neg (by simpa using Ne.symm hi)]

theorem Counts.remove (hw : 0 < w) (h : Counts w slot counts (k :: keys)) :
    Counts w slot (remove w counts (slot k)) keys := by
  intro i
  by_cases hi : i = slot k
  · subst hi
    rw [CountingFilter.remove, Function.update_self, h,
      List.countP_cons_of_pos (by simp), Nat.mod_add_mod]
    rw [show keys.countP (slot · = slot k) + 1 + (w - 1) = keys.countP (slot · = slot k) +
      w by omega, Nat.add_mod_right]
  · rw [CountingFilter.remove, Function.update_of_ne hi, h,
      List.countP_cons_of_neg (by simpa using Ne.symm hi)]

/-- No key is missed, while there are fewer of them than a word counts. -/
theorem Counts.notMem (h : Counts w slot counts keys) (hfew : keys.length < w)
    (hzero : counts (slot k) = 0) : k ∉ keys := by
  intro hk
  have hpos : 0 < keys.countP (slot · = slot k) := List.countP_pos_iff.2 ⟨k, hk, by simp⟩
  have hle : keys.countP (slot · = slot k) ≤ keys.length := List.countP_le_length
  rw [h, Nat.mod_eq_of_lt (by omega)] at hzero
  omega

end CountingFilter
