import Mathlib.Data.Finmap
import Nightcap.Lib.Framing

/-! Finite maps whose keys are paths of names, joined by a separator. -/
namespace KeyPaths

open Framing

section Keep

variable {α : Type*} {β : α → Type*} {a : α} {p : α → Bool} {m : Finmap β}

/-- The entries whose key passes. -/
def keep (p : α → Bool) (m : Finmap β) : Finmap β where
  entries := m.entries.filter (p ·.1)
  nodupKeys := by
    obtain ⟨⟨entries⟩, h⟩ := m
    exact (Multiset.coe_nodupKeys.1 h).sublist List.filter_sublist

theorem lookup_keep [DecidableEq α] : (keep p m).lookup a = if p a then m.lookup a else none := by
  ext b
  rw [← Option.mem_def, Finmap.mem_lookup_iff, keep, Multiset.mem_filter, ← Finmap.mem_lookup_iff]
  cases p a <;> simp

end Keep

variable {α : Type*} {sep : α} {ls ms : List (List α)} {name l : List α} {path : List α}

/-- A name that can stand in a path. -/
def IsName (sep : α) (name : List α) : Prop := name ≠ [] ∧ sep ∉ name

/-- The key is the path, or leads further down from it. -/
def below [DecidableEq α] (sep : α) (path key : List α) : Bool :=
  key = path || (path ++ [sep]).isPrefixOf key

theorem joined_append (hl : ls ≠ []) (hm : ms ≠ []) :
    joined sep (ls ++ ms) = joined sep ls ++ sep :: joined sep ms := by
  induction ls with
  | nil => exact absurd rfl hl
  | cons l ls ih =>
    cases ls with
    | nil => exact joined_cons hm
    | cons k ls =>
      rw [List.cons_append, joined_cons (by simp), joined_cons (by simp), ih (by simp)]
      simp

/-- A joined path that another one begins with is the path of its first names. -/
theorem prefix_of_joined (hl : ∀ l ∈ ls, IsName sep l) (hm : ∀ m ∈ ms, IsName sep m) (hn : ls ≠ [])
    (h : joined sep ls ++ [sep] <+: joined sep ms) : ls <+: ms := by
  induction ls generalizing ms with
  | nil => exact absurd rfl hn
  | cons l ls ih =>
    cases ms with
    | nil => simp [joined] at h
    | cons m ms =>
      rw [List.forall_mem_cons] at hl hm
      obtain ⟨rest, hrest⟩ := h
      by_cases hms : ms = []
      · subst hms
        exfalso
        apply hm.1.2
        have hjoin : joined sep [m] = m := rfl
        rw [hjoin] at hrest
        rw [← hrest]
        simp
      · rw [joined_cons hms] at hrest
        by_cases hls : ls = []
        · subst hls
          have hjoin : joined sep [l] = l := rfl
          rw [hjoin, List.append_assoc] at hrest
          obtain ⟨rfl, -⟩ := split_first hl.1.2 hm.1.2 hrest
          exact ⟨ms, rfl⟩
        · rw [joined_cons hls, List.append_assoc, List.append_assoc] at hrest
          obtain ⟨rfl, htail⟩ := split_first hl.1.2 hm.1.2 hrest
          rw [List.prefix_cons_inj]
          refine ih hl.2 hm.2 hls ⟨rest, ?_⟩
          rw [List.append_assoc]
          exact htail

/-- Below a joined path are the paths it is the beginning of. -/
theorem below_joined [DecidableEq α] (hl : ∀ l ∈ ls, IsName sep l) (hm : ∀ m ∈ ms, IsName sep m)
    (hn : ls ≠ []) : below sep (joined sep ls) (joined sep ms) ↔ ls <+: ms := by
  unfold below
  rw [Bool.or_eq_true, decide_eq_true_iff, List.isPrefixOf_iff_prefix]
  constructor
  · rintro (h | h)
    · rw [joined_injective hm hl h]
    · exact prefix_of_joined hl hm hn h
  · rintro ⟨rest, rfl⟩
    by_cases hr : rest = []
    · subst hr
      exact .inl (by rw [List.append_nil])
    · refine .inr ⟨joined sep rest, ?_⟩
      rw [joined_append hn hr, List.append_assoc]
      rfl

section Maps

variable {ν : Type*} [DecidableEq α] {m : Finmap fun _ : List α => ν}

/-- Takes out a path and everything below it. -/
def eraseBelow (sep : α) (path : List α) (m : Finmap fun _ : List α => ν) :
    Finmap fun _ : List α => ν :=
  keep (fun key => !below sep path key) m

theorem lookup_eraseBelow {key : List α} :
    (eraseBelow sep path m).lookup key = if below sep path key then none else m.lookup key := by
  unfold eraseBelow
  rw [lookup_keep]
  cases below sep path key <;> rfl

theorem lookup_eraseBelow_of_not (hl : ∀ l ∈ ls, IsName sep l) (hm : ∀ m ∈ ms, IsName sep m)
    (hn : ls ≠ []) (h : ¬ ls <+: ms) :
    (eraseBelow sep (joined sep ls) m).lookup (joined sep ms) = m.lookup (joined sep ms) := by
  rw [lookup_eraseBelow, if_neg]
  rwa [below_joined hl hm hn]

theorem lookup_eraseBelow_self : (eraseBelow sep path m).lookup path = none := by
  rw [lookup_eraseBelow, if_pos]
  simp [below]

end Maps

end KeyPaths
