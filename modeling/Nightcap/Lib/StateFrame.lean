import Mathlib

/-! Stateful computations that move the state along a preorder, or keep a property of it. -/
namespace StateFrame

variable {σ α β ι : Type} {R : σ → σ → Prop} {P : σ → Prop} {m : StateM σ α} {f : α → StateM σ β}

/-- The second computation starts where the first ends. -/
theorem run_bind_eq (m : StateM σ α) (f : α → StateM σ β) (s : σ) :
    (m >>= f).run s = (f (m.run s).1).run (m.run s).2 := rfl

theorem run_bind_snd (m : StateM σ α) (f : α → StateM σ β) (s : σ) :
    ((m >>= f).run s).2 = ((f (m.run s).1).run (m.run s).2).2 := rfl

/-- Every state is related to the one the computation ends in. -/
def Within (R : σ → σ → Prop) (m : StateM σ α) : Prop := ∀ s, R s (m.run s).2

theorem within_modify {g : σ → σ} (h : ∀ s, R s (g s)) : Within R (modify g) := h

theorem within_ite {c : Prop} [Decidable c] {m n : StateM σ α} (hm : c → Within R m)
    (hn : ¬ c → Within R n) : Within R (if c then m else n) := by
  by_cases h : c
  · rw [if_pos h]
    exact hm h
  · rw [if_neg h]
    exact hn h

variable [IsPreorder σ R]

theorem within_pure (a : α) : Within R (pure a) := fun s => refl_of R s

theorem within_get : Within R (get : StateM σ σ) := fun s => refl_of R s

theorem Within.bind (hm : Within R m) (hf : ∀ a, Within R (f a)) : Within R (m >>= f) :=
  fun s => trans_of R (hm s) (hf _ _)

/-- A loop that threads a value through a list. -/
theorem within_foldlM {g : β → ι → StateM σ β} (hg : ∀ b i, Within R (g b i)) (b : β)
    (xs : List ι) : Within R (xs.foldlM g b) := by
  induction xs generalizing b with
  | nil => exact within_pure b
  | cons x xs ih =>
    rw [List.foldlM_cons]
    exact (hg b x).bind ih

omit [IsPreorder σ R]

/-- The property of the state outlives the computation. -/
def Keeps (P : σ → Prop) (m : StateM σ α) : Prop := ∀ s, P s → P (m.run s).2

theorem Within.keeps (h : Within R m) (hP : ∀ s t, R s t → P s → P t) : Keeps P m :=
  fun s hs => hP s _ (h s) hs

theorem keeps_pure (a : α) : Keeps P (pure a : StateM σ α) := fun _ hs => hs

theorem keeps_get : Keeps P (get : StateM σ σ) := fun _ hs => hs

theorem keeps_modify {g : σ → σ} (h : ∀ s, P s → P (g s)) : Keeps P (modify g) := h

theorem Keeps.bind (hm : Keeps P m) (hf : ∀ a, Keeps P (f a)) : Keeps P (m >>= f) :=
  fun s hs => hf _ _ (hm s hs)

/-- What follows a read of the state may use what was read. -/
theorem keeps_get_bind {f : σ → StateM σ β} (h : ∀ s, P s → P ((f s).run s).2) :
    Keeps P (get >>= f) := h

theorem keeps_ite {c : Prop} [Decidable c] {m n : StateM σ α} (hm : c → Keeps P m)
    (hn : ¬ c → Keeps P n) : Keeps P (if c then m else n) := by
  by_cases h : c
  · rw [if_pos h]
    exact hm h
  · rw [if_neg h]
    exact hn h

/-- The property holds of every state the computation ends in. -/
def Ends (P : σ → Prop) (m : StateM σ α) : Prop := ∀ s, P (m.run s).2

theorem ends_modify {g : σ → σ} (h : ∀ s, P (g s)) : Ends P (modify g) := h

theorem ends_after (hf : ∀ a, Ends P (f a)) : Ends P (m >>= f) := fun _ => hf _ _

theorem Ends.bind (hm : Ends P m) (hf : ∀ a, Keeps P (f a)) : Ends P (m >>= f) :=
  fun s => hf _ _ (hm s)

/-- The property holds of every value the computation returns. -/
def Yields (Q : α → Prop) (m : StateM σ α) : Prop := ∀ s, Q (m.run s).1

section

variable {Q : α → Prop} {Q' : β → Prop}

theorem yields_pure {a : α} (h : Q a) : Yields Q (pure a : StateM σ α) := fun _ => h

theorem Yields.bind (hm : Yields Q m) (hf : ∀ a, Q a → Yields Q' (f a)) : Yields Q' (m >>= f) :=
  fun s => hf _ (hm s) _

theorem yields_ite {c : Prop} [Decidable c] {m n : StateM σ α} (hm : c → Yields Q m)
    (hn : ¬ c → Yields Q n) : Yields Q (if c then m else n) := by
  by_cases h : c
  · rw [if_pos h]
    exact hm h
  · rw [if_neg h]
    exact hn h

theorem yields_foldlM {g : α → ι → StateM σ α} (hg : ∀ a i, Q a → Yields Q (g a i))
    {a : α} (ha : Q a)
    (xs : List ι) : Yields Q (xs.foldlM g a) := by
  induction xs generalizing a with
  | nil => exact yields_pure ha
  | cons x xs ih =>
    rw [List.foldlM_cons]
    exact (hg a x ha).bind fun b hb => ih hb

end

/-- What relates the state, the value the computation returns and the state it ends in. -/
def Meets (Q : σ → α → σ → Prop) (m : StateM σ α) : Prop := ∀ s, Q s (m.run s).1 (m.run s).2

theorem meets_pure {Q : σ → α → σ → Prop} {a : α} (h : ∀ s, Q s a s) : Meets Q (pure a) := h

theorem meets_ite {Q : σ → α → σ → Prop} {c : Prop} [Decidable c] {m n : StateM σ α}
    (hm : c → Meets Q m) (hn : ¬ c → Meets Q n) : Meets Q (if c then m else n) := by
  by_cases h : c
  · rw [if_pos h]
    exact hm h
  · rw [if_neg h]
    exact hn h

theorem Meets.bind {Q : σ → α → σ → Prop} {Q' : σ → β → σ → Prop} (hm : Meets Q m)
    (hf : ∀ a, Meets (fun t b u => ∀ s, Q s a t → Q' s b u) (f a)) : Meets Q' (m >>= f) :=
  fun s => hf _ _ s (hm s)

theorem Meets.mono {Q Q' : σ → α → σ → Prop} (h : Meets Q m) (hq : ∀ s a t, Q s a t → Q' s a t) :
    Meets Q' m := fun s => hq _ _ _ (h s)

/-- A loop that threads a value: what relates the state before it to the value and the state so
far. -/
theorem meets_foldlM {Q : σ → α → σ → Prop} {g : α → ι → StateM σ α} {a : α} (ha : ∀ s, Q s a s)
    (hg : ∀ a i, Meets (fun t b u => ∀ s, Q s a t → Q s b u) (g a i)) (xs : List ι) :
    Meets Q (xs.foldlM g a) := by
  have hall : ∀ a, Meets (fun t b u => ∀ s, Q s a t → Q s b u) (xs.foldlM g a) := by
    induction xs with
    | nil => exact fun a t s h => h
    | cons x xs ih => exact fun a t s h => ih _ _ s (hg a x t s h)
  exact fun s => hall a s s (ha s)

end StateFrame
