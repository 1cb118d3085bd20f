import Mathlib.Data.List.Basic
import Mathlib.Data.List.Pairwise

/-! Two lists whose entries are stamped, as one list in the order of the stamps. -/
namespace Interleave

variable {α β : Type} {f : α → Nat} {g : β → Nat} {as : List α} {bs : List β} {a : α} {b : β}
  {xs ys : List (α ⊕ β)} {x : α ⊕ β}

/-- The entries of both lists, always the earlier of the two heads. -/
def interleave (f : α → Nat) (g : β → Nat) : List α → List β → List (α ⊕ β)
  | [], bs => bs.map .inr
  | a :: as, [] => (a :: as).map .inl
  | a :: as, b :: bs =>
    if f a < g b then .inl a :: interleave f g as (b :: bs)
    else .inr b :: interleave f g (a :: as) bs
termination_by as bs => as.length + bs.length

def stamp (f : α → Nat) (g : β → Nat) : α ⊕ β → Nat := Sum.elim f g

@[simp] theorem stamp_inl : stamp f g (.inl a) = f a := rfl

@[simp] theorem stamp_inr : stamp f g (.inr b) = g b := rfl

@[simp] theorem interleave_nil : interleave f g as [] = as.map .inl := by
  cases as <;> simp [interleave]

theorem inl_mem_interleave : .inl a ∈ interleave f g as bs ↔ a ∈ as := by
  fun_induction interleave f g as bs with
  | case1 bs => simp
  | case2 a as => simp
  | case3 c as b bs hlt ih => rw [List.mem_cons, List.mem_cons, ih, Sum.inl.injEq]
  | case4 c as b bs hge ih =>
    rw [List.mem_cons, ih]
    exact ⟨fun h => h.resolve_left Sum.inl_ne_inr, .inr⟩

theorem inr_mem_interleave : .inr b ∈ interleave f g as bs ↔ b ∈ bs := by
  fun_induction interleave f g as bs with
  | case1 bs => simp
  | case2 a as => simp
  | case3 a as c bs hlt ih =>
    rw [List.mem_cons, ih]
    exact ⟨fun h => h.resolve_left Sum.inr_ne_inl, .inr⟩
  | case4 a as c bs hge ih => rw [List.mem_cons, List.mem_cons, ih, Sum.inr.injEq]

theorem interleave_perm : (interleave f g as bs).Perm (as.map .inl ++ bs.map .inr) := by
  fun_induction interleave f g as bs with
  | case1 bs => exact .refl _
  | case2 a as => rw [List.map_nil, List.append_nil]
  | case3 a as b bs hlt ih => exact ih.cons _
  | case4 a as b bs hge ih => exact (ih.cons _).trans List.perm_middle.symm

/-- Lists in order without a common stamp are in order together. -/
theorem interleave_pairwise (has : as.Pairwise fun a b => f a < f b)
    (hbs : bs.Pairwise fun a b => g a < g b)
    (hne : ∀ a ∈ as, ∀ b ∈ bs, f a ≠ g b) :
    (interleave f g as bs).Pairwise fun x y => stamp f g x < stamp f g y := by
  fun_induction interleave f g as bs with
  | case1 bs => exact List.pairwise_map.2 hbs
  | case2 a as => exact List.pairwise_map.2 has
  | case3 a as b bs hlt ih =>
    refine List.pairwise_cons.2 ⟨fun y hy => ?_, ih has.of_cons hbs fun c hc =>
      hne c (List.mem_cons_of_mem a hc)⟩
    cases y with
    | inl c => exact List.rel_of_pairwise_cons has (inl_mem_interleave.1 hy)
    | inr c =>
      rcases List.mem_cons.1 (inr_mem_interleave.1 hy) with rfl | hc
      · exact hlt
      · exact Nat.lt_trans hlt (List.rel_of_pairwise_cons hbs hc)
  | case4 a as b bs hge ih =>
    have hother := hne a List.mem_cons_self b List.mem_cons_self
    have hlt : g b < f a := by omega
    refine List.pairwise_cons.2
      ⟨fun y hy => ?_, ih has hbs.of_cons fun c hc d hd => hne c hc d (List.mem_cons_of_mem b hd)⟩
    cases y with
    | inl c =>
      rcases List.mem_cons.1 (inl_mem_interleave.1 hy) with rfl | hc
      · exact hlt
      · exact Nat.lt_trans hlt (List.rel_of_pairwise_cons has hc)
    | inr c => exact List.rel_of_pairwise_cons hbs (inr_mem_interleave.1 hy)

/-- Sorted lists are sorted together. -/
theorem interleave_sorted (has : as.Pairwise fun a b => f a ≤ f b)
    (hbs : bs.Pairwise fun a b => g a ≤ g b) :
    (interleave f g as bs).Pairwise fun x y => stamp f g x ≤ stamp f g y := by
  fun_induction interleave f g as bs with
  | case1 bs => exact List.pairwise_map.2 hbs
  | case2 a as => exact List.pairwise_map.2 has
  | case3 a as b bs hlt ih =>
    refine List.pairwise_cons.2 ⟨fun y hy => ?_, ih has.of_cons hbs⟩
    cases y with
    | inl c => exact List.rel_of_pairwise_cons has (inl_mem_interleave.1 hy)
    | inr c =>
      rcases List.mem_cons.1 (inr_mem_interleave.1 hy) with rfl | hc
      · exact Nat.le_of_lt hlt
      · exact Nat.le_trans (Nat.le_of_lt hlt) (List.rel_of_pairwise_cons hbs hc)
  | case4 a as b bs hge ih =>
    have hle : g b ≤ f a := Nat.not_lt.1 hge
    refine List.pairwise_cons.2 ⟨fun y hy => ?_, ih has hbs.of_cons⟩
    cases y with
    | inl c =>
      rcases List.mem_cons.1 (inl_mem_interleave.1 hy) with rfl | hc
      · exact hle
      · exact Nat.le_trans hle (List.rel_of_pairwise_cons has hc)
    | inr c => exact List.rel_of_pairwise_cons hbs (inr_mem_interleave.1 hy)

/-- Entries without a common stamp have one order. -/
theorem interleave_sort (hxs : xs.Pairwise fun x y => stamp f g x < stamp f g y)
    (hperm : (as.map Sum.inl ++ bs.map Sum.inr).Perm xs) :
    interleave f g (as.mergeSort fun a b => f a ≤ f b)
      (bs.mergeSort fun a b => g a ≤ g b) = xs := by
  have has : (as.mergeSort fun a b => f a ≤ f b).Pairwise fun a b => f a ≤ f b := by
    refine (List.pairwise_mergeSort (fun a b c hab hbc => ?_) (fun a b => ?_) as).imp
      of_decide_eq_true
    · rw [decide_eq_true_eq] at hab hbc ⊢
      exact Nat.le_trans hab hbc
    · rw [Bool.or_eq_true, decide_eq_true_eq, decide_eq_true_eq]
      exact Nat.le_total _ _
  have hbs : (bs.mergeSort fun a b => g a ≤ g b).Pairwise fun a b => g a ≤ g b := by
    refine (List.pairwise_mergeSort (fun a b c hab hbc => ?_) (fun a b => ?_) bs).imp
      of_decide_eq_true
    · rw [decide_eq_true_eq] at hab hbc ⊢
      exact Nat.le_trans hab hbc
    · rw [Bool.or_eq_true, decide_eq_true_eq, decide_eq_true_eq]
      exact Nat.le_total _ _
  have hall : (interleave f g (as.mergeSort fun a b => f a ≤ f b)
      (bs.mergeSort fun a b => g a ≤ g b)).Perm xs :=
    interleave_perm.trans
      ((((List.mergeSort_perm as _).map _).append ((List.mergeSort_perm bs _).map _)).trans hperm)
  refine hall.eq_of_pairwise (fun x y hx hy hxy hyx => ?_)
    (interleave_sorted has hbs) (hxs.imp Nat.le_of_lt)
  by_contra hne
  have hsymm : xs.Pairwise fun x y => stamp f g x ≠ stamp f g y := hxs.imp Nat.ne_of_lt
  have : Std.Symm fun x y : α ⊕ β => stamp f g x ≠ stamp f g y := ⟨fun _ _ => Ne.symm⟩
  exact hsymm.forall (hall.mem_iff.1 hx) hy hne (Nat.le_antisymm hxy hyx)

/-- What is before an entry of a list in order. -/
theorem takeWhile_before {order : α → Nat} {before after : List α}
    (h : (before ++ a :: after).Pairwise fun x y => order x < order y) :
    (before ++ a :: after).takeWhile (fun x => order x < order a) = before := by
  rw [List.takeWhile_append_of_pos]
  · simp
  · intro x hx
    rw [decide_eq_true_eq]
    exact (List.pairwise_append.1 h).2.2 x hx a List.mem_cons_self

end Interleave
