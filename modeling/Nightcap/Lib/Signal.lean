import Mathlib

/-! Streams in which something is pressed and released: what is held, and releases that match. -/
namespace Signal

variable {α : Type*} (sig : α → Option Bool)

/-- Whether the last signal of the stream is a press; `sig` says which events are one. -/
def held (log : List α) : Bool := log.foldl (fun h a => (sig a).getD h) false

/-- A release is only sent while held. -/
def Bracketed (log : List α) : Prop :=
  ∀ before a after, log = before ++ a :: after → sig a = some false → held sig before = true

/-- Presses and releases take turns, a press first. -/
def Alternates (log : List α) : Prop :=
  ∀ before a after b, log = before ++ a :: after → sig a = some b → held sig before = !b

variable {sig} {log more : List α} {a : α} {b : Bool}

@[simp] theorem held_nil : held sig [] = false := rfl

theorem held_snoc (h : sig a = some b) : held sig (log ++ [a]) = b := by
  simp [held, h]

/-- Events that are no signal change nothing. -/
theorem held_append (h : ∀ a ∈ more, sig a = none) : held sig (log ++ more) = held sig log := by
  induction more generalizing log with
  | nil => simp
  | cons a more ih =>
    rw [List.forall_mem_cons] at h
    calc held sig (log ++ a :: more) = held sig (log ++ [a] ++ more) := by simp
      _ = held sig (log ++ [a]) := ih h.2
      _ = held sig log := by simp [held, h.1]

/-- A property of each event and of what is before it, for one more event. -/
theorem forall_split_snoc {P : List α → α → Prop}
    (h : ∀ before a after, log = before ++ a :: after → P before a) (ha : P log a) :
    ∀ before c after, log ++ [a] = before ++ c :: after → P before c := by
  intro before c after heq
  rcases List.eq_nil_or_concat after with rfl | ⟨init, last, rfl⟩
  · obtain ⟨rfl, hac⟩ := List.append_inj' heq rfl
    obtain rfl : a = c := by simpa using hac
    exact ha
  · rw [List.concat_eq_append, ← List.cons_append, ← List.append_assoc] at heq
    exact h before c init (List.append_inj' heq rfl).1

theorem bracketed_nil : Bracketed sig [] := by
  intro before a after h
  simp at h

/-- One more event, which is no release unless held. -/
theorem Bracketed.snoc (h : Bracketed sig log) (ha : sig a = some false → held sig log = true) :
    Bracketed sig (log ++ [a]) := by
  exact forall_split_snoc (P := fun before c => sig c = some false → held sig before = true) h ha

theorem Bracketed.append (h : Bracketed sig log) (hm : ∀ a ∈ more, sig a = none) :
    Bracketed sig (log ++ more) := by
  induction more generalizing log with
  | nil => simpa using h
  | cons a more ih =>
    rw [List.forall_mem_cons] at hm
    have hone : Bracketed sig (log ++ [a]) := h.snoc (by simp [hm.1])
    simpa using ih hone hm.2

theorem alternates_nil : Alternates sig [] := by
  intro before a after b h
  simp at h

theorem Alternates.snoc (h : Alternates sig log) (ha : ∀ b, sig a = some b → held sig log = !b) :
    Alternates sig (log ++ [a]) := fun before c after b heq hc =>
  forall_split_snoc (P := fun before c => ∀ b, sig c = some b → held sig before = !b)
    (fun before c after heq b hc => h before c after b heq hc) ha before c after heq b hc

end Signal
