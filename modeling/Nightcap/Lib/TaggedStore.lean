import Mathlib

/-! Stores of words that many owners share, each behind a tag of its own. -/
namespace TaggedStore

/-- A tag for each owner; no word begins with the tags of two. -/
structure Tags (ι α : Type*) where
  tag : ι → List α
  apart : ∀ {i j xs ys}, tag i ++ xs = tag j ++ ys → i = j

abbrev Store (α β : Type*) := List α → Option β

variable {ι α β : Type*}

def put [DecidableEq α] (s : Store α β) (word : List α) (value : β) : Store α β :=
  Function.update s word (some value)

def drop [DecidableEq α] (s : Store α β) (word : List α) : Store α β := Function.update s word none

/-- Without the words that begin with another. -/
def clear [DecidableEq α] (s : Store α β) (start : List α) : Store α β := fun word =>
  if start.isPrefixOf word then none else s word

/-- What the store holds of one owner. -/
def view (T : Tags ι α) (s : Store α β) (i : ι) (key : List α) : Option β := s (T.tag i ++ key)

/-- A word of no owner. -/
def Untagged (T : Tags ι α) (word : List α) : Prop := ∀ i, ¬ T.tag i <+: word

variable {T : Tags ι α} {s : Store α β} {i j : ι} {key key' word : List α} {value : β}

theorem tag_append_inj (h : T.tag i ++ key = T.tag j ++ key') : i = j ∧ key = key' := by
  obtain rfl := T.apart h
  exact ⟨rfl, List.append_cancel_left h⟩

theorem Untagged.ne (h : Untagged T word) : T.tag i ++ key ≠ word := by
  rintro rfl
  exact h i (List.prefix_append _ _)

variable [DecidableEq α]

theorem put_self : put s word value word = some value := Function.update_self ..

theorem put_of_ne {other : List α} (h : other ≠ word) : put s word value other = s other :=
  Function.update_of_ne h ..

theorem view_put_self : view T (put s (T.tag i ++ key) value) i key = some value := put_self

theorem view_put_other (h : ¬ (i = j ∧ key = key')) :
    view T (put s (T.tag j ++ key') value) i key = view T s i key :=
  put_of_ne fun heq => h (tag_append_inj heq)

theorem view_clear_self : view T (clear s (T.tag i)) i key = none := by
  rw [view, clear, if_pos (List.isPrefixOf_iff_prefix.2 (List.prefix_append _ _))]

theorem view_clear_other (h : i ≠ j) : view T (clear s (T.tag j)) i key = view T s i key := by
  rw [view, clear, if_neg]
  · rfl
  · intro hbegins
    obtain ⟨rest, hrest⟩ := List.isPrefixOf_iff_prefix.1 hbegins
    exact h (T.apart hrest.symm)

theorem view_put_untagged (h : Untagged T word) :
    view T (put s word value) i key = view T s i key :=
  put_of_ne h.ne

theorem view_drop_untagged (h : Untagged T word) : view T (drop s word) i key = view T s i key :=
  Function.update_of_ne h.ne ..

theorem put_untagged (h : Untagged T word) : put s (T.tag i ++ key) value word = s word :=
  put_of_ne h.ne.symm

theorem clear_untagged (h : Untagged T word) : clear s (T.tag i) word = s word := by
  rw [clear, if_neg]
  exact fun hbegins => h i (List.isPrefixOf_iff_prefix.1 hbegins)

end TaggedStore
