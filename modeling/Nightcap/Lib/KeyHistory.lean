import Mathlib

/-! Keys with a value for each thread, by the history of what was done with them. -/
namespace KeyHistory

/-- What happens to keys `ι` in threads `τ`, with values `ν` and destructors `δ`. -/
inductive Event (τ ι ν δ : Type*)
  | create (key : ι) (destructor : Option δ)
  | delete (key : ι)
  | set (t : τ) (key : ι) (value : Option ν)
  | get (t : τ) (key : ι) (result : Option ν)
  /-- A thread that exits has begun to clean up, or a round of it. -/
  | clean (t : τ)
  | round (t : τ)
  | destroy (t : τ) (key : ι) (value : Option ν) (destructor : δ)

variable {τ ι ν δ : Type*}

/-- Histories have their last event first. -/
abbrev History (τ ι ν δ : Type*) := List (Event τ ι ν δ)

variable [DecidableEq τ] [DecidableEq ι]

/-- The destructor a key was created with, if it is live. -/
def live (key : ι) : History τ ι ν δ → Option (Option δ)
  | [] => none
  | .create k destructor :: log => if k = key then some destructor else live key log
  | .delete k :: log => if k = key then none else live key log
  | _ :: log => live key log

/-- What a thread last set for a key since the key was created. -/
def lastSet (t : τ) (key : ι) : History τ ι ν δ → Option ν
  | [] => none
  | .create k _ :: log | .delete k :: log => if k = key then none else lastSet t key log
  | .set u k value :: log => if u = t ∧ k = key then value else lastSet t key log
  | _ :: log => lastSet t key log

/-- The same, unless it was passed to a destructor since. -/
def held (t : τ) (key : ι) : History τ ι ν δ → Option ν
  | [] => none
  | .create k _ :: log | .delete k :: log => if k = key then none else held t key log
  | .set u k value :: log => if u = t ∧ k = key then value else held t key log
  | .destroy u k _ _ :: log => if u = t ∧ k = key then none else held t key log
  | _ :: log => held t key log

/-- The rounds a thread has begun since it began to clean up. -/
def rounds (t : τ) : History τ ι ν δ → ℕ
  | [] => 0
  | .clean u :: log => if u = t then 0 else rounds t log
  | .round u :: log => if u = t then rounds t log + 1 else rounds t log
  | _ :: log => rounds t log

/-- What an event may be after a history. -/
def Event.Allowed (maxRounds : ℕ) (log : History τ ι ν δ) : Event τ ι ν δ → Prop
  | .create key _ => live key log = none
  | .delete key => live key log ≠ none
  | .set _ key _ => live key log ≠ none
  | .get t key result => result = held t key log
  | .clean _ => True
  | .round t => rounds t log < maxRounds
  | .destroy t key value destructor =>
    live key log = some (some destructor) ∧ value = held t key log ∧ value ≠ none

/-- Every event was allowed when it happened. -/
def Legal (maxRounds : ℕ) : History τ ι ν δ → Prop
  | [] => True
  | event :: log => event.Allowed maxRounds log ∧ Legal maxRounds log

variable {maxRounds : ℕ} {log before after : History τ ι ν δ} {event : Event τ ι ν δ} {t : τ}
  {key key' : ι} {value value' : Option ν} {destructor destructor' : Option δ}

theorem Legal.suffix (h : Legal maxRounds (after ++ log)) : Legal maxRounds log := by
  induction after with
  | nil => exact h
  | cons _ _ ih => exact ih h.2

/-- An event in a history was allowed by what came before it. -/
theorem Legal.allowed (h : Legal maxRounds (after ++ event :: before)) :
    event.Allowed maxRounds before :=
  h.suffix.1

omit [DecidableEq τ] in
theorem live_of_not_deleted (h : Event.delete key ∉ after) :
    live key (after ++ .create key destructor :: before) ≠ none := by
  induction after with
  | nil => simp [live]
  | cons event after ih =>
    have hrest := ih fun hmem => h (List.mem_cons_of_mem _ hmem)
    cases event with
    | create k d =>
      simp only [List.cons_append, live]
      split
      · nofun
      · exact hrest
    | delete k =>
      have hne : k ≠ key := by
        rintro rfl
        exact h List.mem_cons_self
      simp only [List.cons_append, live, if_neg hne]
      exact hrest
    | _ => exact hrest

/-- Two creations of keys that are both still live are of different keys. -/
theorem Legal.create_ne {mid : History τ ι ν δ}
    (h : Legal maxRounds
      (after ++ .create key' destructor' :: (mid ++ .create key destructor :: before)))
    (hlive : Event.delete key ∉ mid) : key' ≠ key := by
  rintro rfl
  exact live_of_not_deleted hlive h.allowed

/-- A thread that has been passed a value and set none since holds none. -/
theorem held_of_not_set (h : ∀ value, Event.set t key value ∉ after)
    (hnone : held t key log = none) :
    held t key (after ++ log) = none := by
  induction after with
  | nil => exact hnone
  | cons event after ih =>
    have hrest := ih fun value hmem => h value (List.mem_cons_of_mem _ hmem)
    cases event with
    | create k d | delete k =>
      simp only [List.cons_append, held]
      split
      · rfl
      · exact hrest
    | set u k value =>
      have hne : ¬ (u = t ∧ k = key) := by
        rintro ⟨rfl, rfl⟩
        exact h value List.mem_cons_self
      simp only [List.cons_append, held, if_neg hne]
      exact hrest
    | destroy u k value d =>
      simp only [List.cons_append, held]
      split
      · rfl
      · exact hrest
    | _ => exact hrest

/-- Between two values of a key that a thread passes to destructors it sets one. -/
theorem Legal.set_between {mid : History τ ι ν δ} {d d' : δ}
    (h : Legal maxRounds
      (after ++ .destroy t key value' d' :: (mid ++ .destroy t key value d :: before))) :
    ∃ v, Event.set t key v ∈ mid := by
  by_contra hnot
  obtain ⟨-, hvalue, hne⟩ := h.allowed
  have hnone : held t key (.destroy t key value d :: before) = none := by simp [held]
  exact hne (hvalue.trans (held_of_not_set (fun v hv => hnot ⟨v, hv⟩) hnone))

/-- Nobody holds anything for a key that is not live. -/
theorem Legal.held_of_not_live (h : Legal maxRounds log) (hlive : live key log = none) :
    held t key log = none := by
  induction log with
  | nil => rfl
  | cons event log ih =>
    cases event with
    | create k d | delete k =>
      simp only [held]
      split
      · rfl
      · rename_i hne
        simp only [live, if_neg hne] at hlive
        exact ih h.2 hlive
    | set u k value =>
      have hset : live k log ≠ none := h.1
      have hne : ¬ (u = t ∧ k = key) := by
        rintro ⟨rfl, rfl⟩
        exact hset hlive
      simp only [held, if_neg hne]
      exact ih h.2 hlive
    | destroy u k value d =>
      simp only [held]
      split
      · rfl
      · exact ih h.2 hlive
    | _ => exact ih h.2 hlive

theorem Legal.rounds_le (h : Legal maxRounds log) : rounds t log ≤ maxRounds := by
  induction log with
  | nil => exact Nat.zero_le _
  | cons event log ih =>
    have hrest := ih h.2
    cases event with
    | clean u =>
      simp only [rounds]
      split
      · exact Nat.zero_le _
      · exact hrest
    | round u =>
      have hround : rounds u log < maxRounds := h.1
      simp only [rounds]
      split
      · rename_i heq
        rw [← heq]
        exact hround
      · exact hrest
    | _ => exact hrest

end KeyHistory
