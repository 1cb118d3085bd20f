import Mathlib

/-! The last entry of each key in a list of entries. -/
namespace Newest

variable {α κ : Type*} [DecidableEq κ] {f : α → κ} {a b : α} {l m log : List α} {k : κ}

/-- The last entry of each key, in the order of the list. -/
def newest (f : α → κ) : List α → List α
  | [] => []
  | a :: l => if l.any (f · == f a) then newest f l else a :: newest f l

theorem newest_of_mem (h : ∃ b ∈ l, f b = f a) : newest f (a :: l) = newest f l := by
  obtain ⟨b, hb, hf⟩ := h
  rw [newest, if_pos]
  rw [List.any_eq_true]
  exact ⟨b, hb, beq_iff_eq.2 hf⟩

theorem newest_of_not_mem (h : ∀ b ∈ l, f b ≠ f a) : newest f (a :: l) = a :: newest f l := by
  rw [newest, if_neg]
  rw [List.any_eq_true]
  rintro ⟨b, hb, hf⟩
  exact h b hb (beq_iff_eq.1 hf)

theorem newest_cases (f : α → κ) (a : α) (l : List α) :
    (newest f (a :: l) = newest f l ∧ ∃ b ∈ l, f b = f a) ∨
      (newest f (a :: l) = a :: newest f l ∧ ∀ b ∈ l, f b ≠ f a) := by
  by_cases h : ∃ b ∈ l, f b = f a
  · exact .inl ⟨newest_of_mem h, h⟩
  · have hnew : ∀ b ∈ l, f b ≠ f a := fun b hb hf => h ⟨b, hb, hf⟩
    exact .inr ⟨newest_of_not_mem hnew, hnew⟩

theorem newest_sublist (l : List α) : (newest f l).Sublist l := by
  induction l with
  | nil => exact .slnil
  | cons a l ih =>
    rcases newest_cases f a l with ⟨heq, _⟩ | ⟨heq, _⟩
    · rw [heq]
      exact ih.cons a
    · rw [heq]
      exact ih.cons_cons a

/-- No key has two entries. -/
theorem newest_nodup (l : List α) : ((newest f l).map f).Nodup := by
  induction l with
  | nil => exact List.nodup_nil
  | cons a l ih =>
    rcases newest_cases f a l with ⟨heq, _⟩ | ⟨heq, hnew⟩
    · rw [heq]
      exact ih
    · rw [heq, List.map_cons, List.nodup_cons]
      refine ⟨fun hmem => ?_, ih⟩
      obtain ⟨b, hb, hf⟩ := List.mem_map.1 hmem
      exact hnew b ((newest_sublist l).subset hb) hf

/-- Every key has one. -/
theorem exists_newest (h : ∃ a ∈ l, f a = k) : ∃ b ∈ newest f l, f b = k := by
  induction l with
  | nil =>
    obtain ⟨_, hmem, _⟩ := h
    cases hmem
  | cons c l ih =>
    obtain ⟨a, ha, rfl⟩ := h
    rcases newest_cases f c l with ⟨heq, b, hb, hf⟩ | ⟨heq, _⟩
    · rw [heq]
      rcases List.mem_cons.1 ha with rfl | ha
      · exact ih ⟨b, hb, hf⟩
      · exact ih ⟨a, ha, rfl⟩
    · rw [heq]
      rcases List.mem_cons.1 ha with rfl | ha
      · exact ⟨a, List.mem_cons_self, rfl⟩
      · obtain ⟨b, hb, hf⟩ := ih ⟨a, ha, rfl⟩
        exact ⟨b, List.mem_cons_of_mem _ hb, hf⟩

/-- The entry behind which its key does not occur. -/
theorem mem_newest : a ∈ newest f l ↔ ∃ before after, l = before ++ a :: after ∧
    ∀ b ∈ after, f b ≠ f a := by
  induction l with
  | nil =>
    constructor
    · intro h
      cases h
    · rintro ⟨before, after, h, _⟩
      simp at h
  | cons c l ih =>
    constructor
    · intro h
      rcases newest_cases f c l with ⟨heq, _⟩ | ⟨heq, hnew⟩
      · rw [heq] at h
        obtain ⟨before, after, rfl, hafter⟩ := ih.1 h
        exact ⟨c :: before, after, rfl, hafter⟩
      · rw [heq] at h
        rcases List.mem_cons.1 h with rfl | h
        · exact ⟨[], l, rfl, hnew⟩
        · obtain ⟨before, after, rfl, hafter⟩ := ih.1 h
          exact ⟨c :: before, after, rfl, hafter⟩
    · rintro ⟨before, after, heq, hafter⟩
      cases before with
      | nil =>
        obtain ⟨rfl, rfl⟩ := List.cons.inj heq
        rw [newest_of_not_mem hafter]
        exact List.mem_cons_self
      | cons d before =>
        obtain ⟨rfl, rfl⟩ := List.cons.inj heq
        have hmem := ih.2 ⟨before, after, rfl, hafter⟩
        rcases newest_cases f c (before.append (a :: after)) with ⟨heq, _⟩ | ⟨heq, _⟩
        · rw [heq]
          exact hmem
        · rw [heq]
          exact List.mem_cons_of_mem _ hmem

/-- A new entry goes to the end, and the one before it with its key goes. -/
theorem newest_snoc (l : List α) (a : α) :
    newest f (l ++ [a]) = (newest f l).filter (f · ≠ f a) ++ [a] := by
  induction l with
  | nil => rfl
  | cons c l ih =>
    rw [List.cons_append]
    by_cases hc : f c = f a
    · rw [newest_of_mem ⟨a, by simp, hc.symm⟩, ih]
      rcases newest_cases f c l with ⟨heq, _⟩ | ⟨heq, _⟩
      · rw [heq]
      · rw [heq, List.filter_cons_of_neg (by simpa using hc)]
    · rcases newest_cases f c l with ⟨heq, b, hb, hf⟩ | ⟨heq, hnew⟩
      · rw [heq, newest_of_mem ⟨b, List.mem_append_left _ hb, hf⟩, ih]
      · rw [heq, List.filter_cons_of_pos (by simpa using hc),
          newest_of_not_mem, ih, List.cons_append]
        intro b hb
        rcases List.mem_append.1 hb with hb | hb
        · exact hnew b hb
        · rw [List.mem_singleton.1 hb]
          exact Ne.symm hc

/-- What is kept of the last entries of a log, and a new one behind them. -/
theorem snoc_sublist (h : l.Sublist (newest f log)) (hl : ∀ b ∈ l, f b ≠ f a) :
    (l ++ [a]).Sublist (newest f (log ++ [a])) := by
  rw [newest_snoc]
  refine List.Sublist.append ?_ (List.Sublist.refl _)
  have hkept := h.filter (f · ≠ f a)
  rwa [List.filter_eq_self.2 (by simpa using hl)] at hkept

/-! Order. -/

/-- `a` and `b` are the last entries of their keys, and that of `b` is the later one. -/
def Before (f : α → κ) (log : List α) (a b : α) : Prop :=
  ∃ before middle after, log = before ++ a :: (middle ++ b :: after) ∧
    (∀ c ∈ middle ++ b :: after, f c ≠ f a) ∧ ∀ c ∈ after, f c ≠ f b

omit [DecidableEq κ] in
theorem Before.cons {c : α} (h : Before f log a b) : Before f (c :: log) a b := by
  obtain ⟨before, middle, after, rfl, ha, hb⟩ := h
  exact ⟨c :: before, middle, after, rfl, ha, hb⟩

theorem newest_pairwise (log : List α) : (newest f log).Pairwise (Before f log) := by
  induction log with
  | nil => exact .nil
  | cons c log ih =>
    have ih := ih.imp fun h => Before.cons (c := c) h
    rcases newest_cases f c log with ⟨heq, _⟩ | ⟨heq, hnew⟩
    · rw [heq]
      exact ih
    · rw [heq, List.pairwise_cons]
      refine ⟨fun b hb => ?_, ih⟩
      obtain ⟨middle, after, rfl, hafter⟩ := mem_newest.1 hb
      exact ⟨[], middle, after, rfl, hnew, hafter⟩

omit [DecidableEq κ] in
theorem Before.ne (h : Before f log a b) : f b ≠ f a := by
  obtain ⟨_, middle, after, _, ha, _⟩ := h
  exact ha b (by simp)

omit [DecidableEq κ] in
/-- Of two entries only one can be the later. -/
theorem Before.asymm (h : Before f log a b) : ¬ Before f log b a := by
  intro h'
  have hne := h.ne
  obtain ⟨before, middle, after, rfl, ha, _⟩ := h
  obtain ⟨before', middle', after', heq, hb, _⟩ := h'
  rcases List.append_eq_append_iff.1 heq with ⟨between, _, heq⟩ | ⟨between, _, heq⟩
  · cases between with
    | nil => exact hne (congrArg f (List.cons.inj heq).1.symm)
    | cons c between =>
      -- The last entry of the key of `a` is at the front, and there is one behind it.
      refine ha a ?_ rfl
      rw [(List.cons.inj heq).2]
      simp
  · cases between with
    | nil => exact hne (congrArg f (List.cons.inj heq).1)
    | cons c between =>
      refine hb b ?_ rfl
      rw [(List.cons.inj heq).2]
      simp

end Newest
