import Mathlib.Data.List.Basic

/-! Sequences that can be read back from their concatenation. -/
namespace Framing

variable {α : Type*} {sep : α} {a b x y : List α} {ls ms : List (List α)}

/-- The first separator ends the part before it. -/
theorem split_first (ha : sep ∉ a) (hb : sep ∉ b) (h : a ++ sep :: x = b ++ sep :: y) :
    a = b ∧ x = y := by
  induction a generalizing b with
  | nil =>
    cases b with
    | nil => exact ⟨rfl, (List.cons.inj h).2⟩
    | cons c b =>
      obtain ⟨rfl, _⟩ := List.cons.inj h
      exact absurd List.mem_cons_self hb
  | cons c a ih =>
    cases b with
    | nil =>
      obtain ⟨rfl, _⟩ := List.cons.inj h
      exact absurd List.mem_cons_self ha
    | cons d b =>
      obtain ⟨rfl, ht⟩ := List.cons.inj h
      rw [List.mem_cons, not_or] at ha hb
      obtain ⟨rfl, rfl⟩ := ih ha.2 hb.2 ht
      exact ⟨rfl, rfl⟩

/-- Each sequence with the separator behind it. -/
def terminated (sep : α) (ls : List (List α)) : List α := ls.flatMap (· ++ [sep])

@[simp] theorem terminated_nil : terminated sep [] = [] := rfl

@[simp] theorem terminated_cons : terminated sep (a :: ls) = a ++ sep :: terminated sep ls := by
  simp [terminated]

theorem terminated_injective (hl : ∀ l ∈ ls, sep ∉ l) (hm : ∀ m ∈ ms, sep ∉ m)
    (h : terminated sep ls = terminated sep ms) : ls = ms := by
  induction ls generalizing ms with
  | nil =>
    cases ms with
    | nil => rfl
    | cons m ms => simp at h
  | cons l ls ih =>
    cases ms with
    | nil => simp at h
    | cons m ms =>
      rw [terminated_cons, terminated_cons] at h
      rw [List.forall_mem_cons] at hl hm
      obtain ⟨rfl, ht⟩ := split_first hl.1 hm.1 h
      rw [ih hl.2 hm.2 ht]

/-- The sequences with the separator between them. -/
def joined (sep : α) : List (List α) → List α
  | [] => []
  | [l] => l
  | l :: ls => l ++ sep :: joined sep ls

theorem joined_cons (h : ls ≠ []) : joined sep (a :: ls) = a ++ sep :: joined sep ls := by
  cases ls with
  | nil => exact absurd rfl h
  | cons l ls => rfl

theorem joined_snoc (h : ls ≠ []) : joined sep (ls ++ [a]) = joined sep ls ++ sep :: a := by
  induction ls with
  | nil => exact absurd rfl h
  | cons l ls ih =>
    cases ls with
    | nil => rfl
    | cons m ls =>
      rw [List.cons_append, joined_cons (by simp), joined_cons (by simp), ih (by simp)]
      simp

theorem joined_terminated (h : ls ≠ []) : joined sep ls ++ [sep] = terminated sep ls := by
  induction ls with
  | nil => exact absurd rfl h
  | cons l ls ih =>
    cases ls with
    | nil => simp [joined]
    | cons m ls => rw [joined_cons (by simp), terminated_cons, ← ih (by simp)]; simp

theorem joined_eq_nil (h : ∀ l ∈ ls, l ≠ []) : joined sep ls = [] ↔ ls = [] := by
  constructor
  · intro hj
    cases ls with
    | nil => rfl
    | cons l ls =>
      have hl := h l List.mem_cons_self
      cases ls with
      | nil => exact absurd hj hl
      | cons m ls => simp [joined_cons] at hj
  · rintro rfl
    rfl

theorem joined_injective (hl : ∀ l ∈ ls, l ≠ [] ∧ sep ∉ l) (hm : ∀ m ∈ ms, m ≠ [] ∧ sep ∉ m)
    (h : joined sep ls = joined sep ms) : ls = ms := by
  by_cases hn : ls = []
  · subst hn
    exact ((joined_eq_nil fun m hms => (hm m hms).1).1 h.symm).symm
  · have hn' : ms ≠ [] := by
      rintro rfl
      exact hn ((joined_eq_nil fun l hls => (hl l hls).1).1 h)
    refine terminated_injective (fun l hls => (hl l hls).2) (fun m hms => (hm m hms).2) ?_
    rw [← joined_terminated hn, ← joined_terminated hn', h]

theorem notMem_joined {c : α} (hc : c ≠ sep) (h : ∀ l ∈ ls, c ∉ l) : c ∉ joined sep ls := by
  induction ls with
  | nil => exact List.not_mem_nil
  | cons l ls ih =>
    rw [List.forall_mem_cons] at h
    cases ls with
    | nil => exact h.1
    | cons m ls =>
      rw [joined_cons (by simp), List.mem_append, List.mem_cons, not_or, not_or]
      exact ⟨h.1, hc, ih h.2⟩

/-! Frames read from a stream in pieces. -/

/-- How packets are framed, and how the first one is taken off what has been read. -/
structure Code (π α : Type*) where
  frame : π → List α
  extract : List α → Option π × List α
  Good : π → Prop
  extract_nil : extract [] = (none, [])
  whole : ∀ p rest, Good p → extract (frame p ++ rest) = (some p, rest)
  part : ∀ p front, Good p → front <+: frame p → front.length < (frame p).length →
    extract front = (none, front)

namespace Code

variable {π : Type*} (c : Code π α) {p : π} {ps : List π} {buffer unread : List α}

def stream (ps : List π) : List α := ps.flatMap c.frame

@[simp] theorem stream_nil : c.stream [] = [] := rfl

@[simp] theorem stream_cons : c.stream (p :: ps) = c.frame p ++ c.stream ps := rfl

variable {c}

/-- However a stream has been cut: what has been read of it begins with its first packet, or it
holds no packet and is less than the first one. -/
theorem extract_cases (hgood : ∀ p ∈ ps, c.Good p) (h : buffer ++ unread = c.stream ps) :
    (c.extract buffer = (none, buffer) ∧
        (buffer = [] ∨ ∃ p ∈ ps, buffer.length < (c.frame p).length)) ∨
      ∃ p rest buffer', ps = p :: rest ∧ c.extract buffer = (some p, buffer') ∧
        buffer' ++ unread = c.stream rest := by
  cases ps with
  | nil =>
    obtain ⟨rfl, rfl⟩ := List.append_eq_nil_iff.1 h
    exact .inl ⟨c.extract_nil, .inl rfl⟩
  | cons p rest =>
    have hp := hgood p List.mem_cons_self
    rw [stream_cons] at h
    rcases Nat.lt_or_ge buffer.length (c.frame p).length with hlt | hge
    · have hfront : buffer <+: c.frame p :=
        List.prefix_of_prefix_length_le ⟨unread, h⟩ (List.prefix_append _ _) (Nat.le_of_lt hlt)
      exact .inl ⟨c.part p buffer hp hfront hlt, .inr ⟨p, List.mem_cons_self, hlt⟩⟩
    · obtain ⟨buffer', rfl⟩ :=
        List.prefix_of_prefix_length_le (List.prefix_append _ _) ⟨unread, h⟩ hge
      rw [List.append_assoc, List.append_cancel_left_eq] at h
      exact .inr ⟨p, rest, buffer', rfl, c.whole p buffer' hp, h⟩

/-- A stream that has been read and from which nothing can be taken is at its end. -/
theorem eq_nil_of_extract (hgood : ∀ p ∈ ps, c.Good p)
    (h : c.extract (c.stream ps) = (none, buffer)) :
    ps = [] := by
  cases ps with
  | nil => rfl
  | cons p rest =>
    rw [stream_cons, c.whole p _ (hgood p List.mem_cons_self)] at h
    cases h

end Code

end Framing
