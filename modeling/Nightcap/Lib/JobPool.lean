import Nightcap.Lib.WorkQueue

/-! Workers that draw jobs from a shared counter until one fails. -/
namespace JobPool

open Transition

/-- What a worker is doing. -/
inductive Worker (ε β : Type*)
  | drawing
  | checking (index : Nat)
  | working (index : Nat)
  | storing (index : Nat) (b : β)
  | failing (e : ε)
  | returned

structure State (n : Nat) (ε β : Type*) where
  next : Nat
  workers : Fin n → Worker ε β
  error : Option ε
  results : Nat → Option β

variable {n : Nat} {ε β : Type*} {jobs : List (Except ε β)} {s t : State n ε β} {i : Fin n}

def start (n : Nat) (ε β : Type*) : State n ε β := ⟨0, fun _ => .drawing, none, fun _ => none⟩

def State.Done (s : State n ε β) : Prop := ∀ i, s.workers i = .returned

def State.setWorker (s : State n ε β) (i : Fin n) (w : Worker ε β) : State n ε β :=
  { s with workers := Function.update s.workers i w }

@[simp] theorem setWorker_self {w : Worker ε β} : (s.setWorker i w).workers i = w := by
  simp [State.setWorker]

@[simp] theorem setWorker_of_ne {j : Fin n} {w : Worker ε β} (h : j ≠ i) :
    (s.setWorker i w).workers j = s.workers j := by
  simp [State.setWorker, h]

/-- One atomic action of a worker. A job is looked at only while no job has failed, and the first
failure is the one that stays. -/
inductive Step (jobs : List (Except ε β)) : State n ε β → Fin n → State n ε β → Prop
  | draw {s : State n ε β} {i : Fin n} (hw : s.workers i = .drawing)
      (hn : s.next < jobs.length) :
      Step jobs s i { s.setWorker i (.checking s.next) with next := s.next + 1 }
  | leave {s : State n ε β} {i : Fin n} (hw : s.workers i = .drawing)
      (hn : jobs.length ≤ s.next) :
      Step jobs s i { s.setWorker i .returned with next := s.next + 1 }
  | stop {s : State n ε β} {i : Fin n} {k : Nat} (hw : s.workers i = .checking k)
      (he : s.error ≠ none) : Step jobs s i (s.setWorker i .returned)
  | pass {s : State n ε β} {i : Fin n} {k : Nat} (hw : s.workers i = .checking k)
      (he : s.error = none) : Step jobs s i (s.setWorker i (.working k))
  | finish {s : State n ε β} {i : Fin n} {k : Nat} {b : β} (hw : s.workers i = .working k)
      (hj : jobs[k]? = some (.ok b)) : Step jobs s i (s.setWorker i (.storing k b))
  | fail {s : State n ε β} {i : Fin n} {k : Nat} {e : ε} (hw : s.workers i = .working k)
      (hj : jobs[k]? = some (.error e)) : Step jobs s i (s.setWorker i (.failing e))
  | store {s : State n ε β} {i : Fin n} {k : Nat} {b : β} (hw : s.workers i = .storing k b) :
      Step jobs s i
        { s.setWorker i .drawing with results := Function.update s.results k (some b) }
  | report {s : State n ε β} {i : Fin n} {e : ε} (hw : s.workers i = .failing e) :
      Step jobs s i { s.setWorker i .returned with error := s.error.or (some e) }

def poolLTS (n : Nat) (jobs : List (Except ε β)) : LTS (State n ε β) (Fin n) where
  initial s := s = start n ε β
  step := Step jobs

/-! What every schedule keeps. -/

/-- A worker that has a job in its hands. -/
inductive Holds (jobs : List (Except ε β)) (k : Nat) : Worker ε β → Prop
  | checking : Holds jobs k (.checking k)
  | working : Holds jobs k (.working k)
  | storing {b : β} : Holds jobs k (.storing k b)
  | failing {e : ε} : jobs[k]? = some (.error e) → Holds jobs k (.failing e)

/-- What a worker may have in its hands, and when it may have left. -/
def Sound (jobs : List (Except ε β)) (next : Nat) (error : Option ε) : Worker ε β → Prop
  | .drawing => True
  | .checking k | .working k => k < jobs.length
  | .storing k b => jobs[k]? = some (.ok b)
  | .failing e => .error e ∈ jobs
  | .returned => jobs.length ≤ next ∨ error ≠ none

/-- What has become of a job that was drawn. -/
def Settled (jobs : List (Except ε β)) (s : State n ε β) (k : Nat) : Prop :=
  s.results k ≠ none ∨ s.error ≠ none ∨ ∃ i, Holds jobs k (s.workers i)

structure Invariant (jobs : List (Except ε β)) (s : State n ε β) : Prop where
  workers : ∀ i, Sound jobs s.next s.error (s.workers i)
  error : ∀ e, s.error = some e → .error e ∈ jobs
  results : ∀ k b, s.results k = some b → jobs[k]? = some (.ok b)
  drawn : ∀ k, k < s.next → k < jobs.length → Settled jobs s k

theorem Sound.mono {next next' : Nat} {error error' : Option ε} {w : Worker ε β}
    (hn : next ≤ next') (he : error ≠ none → error' ≠ none) (h : Sound jobs next error w) :
    Sound jobs next' error' w := by
  cases w with
  | returned =>
    rcases h with h | h
    · exact .inl (h.trans hn)
    · exact .inr (he h)
  | _ => exact h

/-- The other workers stand where they stood. -/
theorem sound_setWorker {w : Worker ε β} {next : Nat} {error : Option ε} (h : Invariant jobs s)
    (hn : s.next ≤ next) (he : s.error ≠ none → error ≠ none) (hw : Sound jobs next error w)
    (j : Fin n) : Sound jobs next error ((s.setWorker i w).workers j) := by
  by_cases hj : j = i
  · subst hj
    simpa using hw
  · rw [setWorker_of_ne hj]
    exact (h.workers j).mono hn he

/-- A job stays settled as long as the moving worker does not drop it. -/
theorem settled_setWorker {w : Worker ε β} {k : Nat} (h : Settled jobs s k)
    (hk : Holds jobs k (s.workers i) → Holds jobs k w) : Settled jobs (s.setWorker i w) k := by
  rcases h with h | h | ⟨j, hj⟩
  · exact .inl h
  · exact .inr (.inl h)
  · refine .inr (.inr ?_)
    by_cases hji : j = i
    · subst hji
      exact ⟨j, by simpa using hk hj⟩
    · exact ⟨j, by rwa [setWorker_of_ne hji]⟩

theorem invariant_start : Invariant jobs (start n ε β) where
  workers _ := trivial
  error := nofun
  results := nofun
  drawn _ hk := absurd hk (Nat.not_lt_zero _)

theorem invariant_draw (h : Invariant jobs s) (hw : s.workers i = .drawing)
    (hn : s.next < jobs.length) :
    Invariant jobs { s.setWorker i (.checking s.next) with next := s.next + 1 } where
  workers := sound_setWorker h (Nat.le_succ _) id hn
  error := h.error
  results := h.results
  drawn k hk hlt := by
    rcases Nat.lt_succ_iff_lt_or_eq.1 hk with hk | rfl
    · refine settled_setWorker (h.drawn k hk hlt) ?_
      rw [hw]
      rintro ⟨⟩
    · refine .inr (.inr ⟨i, ?_⟩)
      simpa using Holds.checking

theorem invariant_leave (h : Invariant jobs s) (hw : s.workers i = .drawing)
    (hn : jobs.length ≤ s.next) :
    Invariant jobs { s.setWorker i .returned with next := s.next + 1 } where
  workers := sound_setWorker h (Nat.le_succ _) id (.inl (hn.trans (Nat.le_succ _)))
  error := h.error
  results := h.results
  drawn k _ hlt := by
    refine settled_setWorker (h.drawn k (hlt.trans_le hn) hlt) ?_
    rw [hw]
    rintro ⟨⟩

/-- A move that changes nothing but the worker, which keeps the job it holds. -/
theorem invariant_setWorker {w : Worker ε β} (h : Invariant jobs s)
    (hw : Sound jobs s.next s.error w)
    (hk : s.error ≠ none ∨ ∀ k, Holds jobs k (s.workers i) → Holds jobs k w) :
    Invariant jobs (s.setWorker i w) where
  workers := sound_setWorker h le_rfl id hw
  error := h.error
  results := h.results
  drawn k hn hlt := by
    rcases hk with he | hk
    · exact .inr (.inl he)
    · exact settled_setWorker (h.drawn k hn hlt) (hk k)

theorem invariant_store {k : Nat} {b : β} (h : Invariant jobs s)
    (hw : s.workers i = .storing k b) :
    Invariant jobs
      { s.setWorker i .drawing with results := Function.update s.results k (some b) } where
  workers := sound_setWorker h le_rfl id trivial
  error := h.error
  results l c hl := by
    have hs : Sound jobs s.next s.error (.storing k b) := hw ▸ h.workers i
    by_cases hlk : l = k
    · subst hlk
      obtain rfl : b = c := by simpa using hl
      exact hs
    · exact h.results l c (by simpa [hlk] using hl)
  drawn l hl hlt := by
    by_cases hlk : l = k
    · subst hlk
      exact .inl (by simp)
    · have hset : Settled jobs (s.setWorker i .drawing) l := by
        refine settled_setWorker (h.drawn l hl hlt) ?_
        rw [hw]
        rintro ⟨⟩
        exact absurd rfl hlk
      rcases hset with hr | he | hh
      · exact .inl (by simpa [hlk] using (show s.results l ≠ none from hr))
      · exact .inr (.inl he)
      · exact .inr (.inr hh)

theorem invariant_report {e : ε} (h : Invariant jobs s) (hw : s.workers i = .failing e) :
    Invariant jobs { s.setWorker i .returned with error := s.error.or (some e) } where
  workers := sound_setWorker h le_rfl (by cases s.error <;> simp) (.inr (by cases s.error <;> simp))
  error e' he := by
    have hs : Sound jobs s.next s.error (.failing e) := hw ▸ h.workers i
    cases ho : s.error with
    | none =>
      obtain rfl : e = e' := by simpa [ho] using he
      exact hs
    | some e₀ =>
      obtain rfl : e₀ = e' := by simpa [ho] using he
      exact h.error e₀ ho
  results := h.results
  drawn _ _ _ := .inr (.inl (by cases s.error <;> simp))

theorem invariant_step (hs : Step jobs s i t) (h : Invariant jobs s) : Invariant jobs t := by
  cases hs with
  | draw hw hn => exact invariant_draw h hw hn
  | leave hw hn => exact invariant_leave h hw hn
  | stop hw he => exact invariant_setWorker h (.inr he) (.inl he)
  | pass hw he =>
    have hs := h.workers i
    rw [hw] at hs
    refine invariant_setWorker h hs (.inr fun k hk => ?_)
    rw [hw] at hk
    cases hk
    exact .working
  | finish hw hj =>
    refine invariant_setWorker h hj (.inr fun k hk => ?_)
    rw [hw] at hk
    cases hk
    exact .storing
  | fail hw hj =>
    refine invariant_setWorker h (List.mem_of_getElem? hj) (.inr fun k hk => ?_)
    rw [hw] at hk
    cases hk
    exact .failing hj
  | store hw => exact invariant_store h hw
  | report hw => exact invariant_report h hw

theorem invariant_reachable (h : (poolLTS n jobs).Reachable s) : Invariant jobs s := by
  refine h.invariant ?_ ?_
  · rintro _ rfl
    exact invariant_start
  · intro s i t hs hi
    exact invariant_step hs hi

/-- Once every worker has returned, a failed job is reported, or every job has its result. -/
theorem done_cases (hn : 0 < n) (h : (poolLTS n jobs).Reachable s) (hd : s.Done) :
    (∃ e, s.error = some e ∧ .error e ∈ jobs) ∨
      (s.error = none ∧
        ∀ k, k < jobs.length → ∃ b, s.results k = some b ∧ jobs[k]? = some (.ok b)) := by
  have hi := invariant_reachable h
  cases he : s.error with
  | some e => exact .inl ⟨e, rfl, hi.error e he⟩
  | none =>
    refine .inr ⟨rfl, fun k hk => ?_⟩
    have hnext : jobs.length ≤ s.next := by
      have hw := hi.workers ⟨0, hn⟩
      rw [hd] at hw
      exact hw.resolve_right fun h => h he
    rcases hi.drawn k (hk.trans_le hnext) hk with hr | hr | ⟨j, hj⟩
    · obtain ⟨b, hb⟩ := Option.ne_none_iff_exists'.1 hr
      exact ⟨b, hb, hi.results k b hb⟩
    · exact absurd he hr
    · rw [hd j] at hj
      cases hj

/-! Every schedule ends. -/

/-- The steps a worker may still take on its own. -/
def Worker.work : Worker ε β → Nat
  | .drawing => 1
  | .checking _ => 5
  | .working _ => 4
  | .storing _ _ => 3
  | .failing _ => 2
  | .returned => 0

/-- The steps that may be left, whoever takes them. -/
def State.work (jobs : List (Except ε β)) (s : State n ε β) : Nat :=
  (∑ i, (s.workers i).work) + 5 * (jobs.length - s.next)

theorem work_setWorker {v w : Worker ε β} (hw : s.workers i = v) :
    (∑ j, ((s.setWorker i w).workers j).work) + v.work = (∑ j, (s.workers j).work) + w.work := by
  subst hw
  exact WorkQueue.sum_update Worker.work s.workers i w

theorem work_move {v w : Worker ε β} (hw : s.workers i = v) (hlt : w.work < v.work) :
    (s.setWorker i w).work jobs < s.work jobs := by
  have hu := work_setWorker (w := w) hw
  have hn : (s.setWorker i w).next = s.next := rfl
  simp only [State.work, hn]
  omega

theorem work_step (hs : Step jobs s i t) : t.work jobs < s.work jobs := by
  cases hs with
  | draw hw hn =>
    have hu : _ + 1 = _ + 5 := work_setWorker (w := .checking s.next) hw
    simp only [State.work]
    omega
  | leave hw hn =>
    have hu : _ + 1 = _ + 0 := work_setWorker (w := .returned) hw
    simp only [State.work]
    omega
  | stop hw => exact work_move hw (by simp [Worker.work])
  | pass hw => exact work_move hw (by simp [Worker.work])
  | finish hw => exact work_move hw (by simp [Worker.work])
  | fail hw => exact work_move hw (by simp [Worker.work])
  | store hw => exact work_move hw (by simp [Worker.work])
  | report hw => exact work_move hw (by simp [Worker.work])

theorem exists_step (h : Invariant jobs s) (hd : ¬ s.Done) : ∃ i t, Step jobs s i t := by
  rw [State.Done, not_forall] at hd
  obtain ⟨i, hi⟩ := hd
  have hs := h.workers i
  cases hw : s.workers i with
  | drawing =>
    rcases Nat.lt_or_ge s.next jobs.length with hn | hn
    · exact ⟨i, _, .draw hw hn⟩
    · exact ⟨i, _, .leave hw hn⟩
  | checking k =>
    by_cases he : s.error = none
    · exact ⟨i, _, .pass hw he⟩
    · exact ⟨i, _, .stop hw he⟩
  | working k =>
    rw [hw] at hs
    cases hj : jobs[k]? with
    | none => exact absurd hs (Nat.not_lt.2 (List.getElem?_eq_none_iff.1 hj))
    | some job =>
      cases job with
      | ok b => exact ⟨i, _, .finish hw hj⟩
      | error e => exact ⟨i, _, .fail hw hj⟩
  | storing k b => exact ⟨i, _, .store hw⟩
  | failing e => exact ⟨i, _, .report hw⟩
  | returned => exact absurd hw hi

/-- Any schedule can be run to the end. -/
theorem exists_done (h : (poolLTS n jobs).Reachable s) :
    ∃ t, (poolLTS n jobs).Reachable t ∧ t.Done := by
  induction hk : s.work jobs using Nat.strong_induction_on generalizing s with
  | _ k ih =>
    by_cases hd : s.Done
    · exact ⟨s, h, hd⟩
    · obtain ⟨i, t, hs⟩ := exists_step (invariant_reachable h) hd
      exact ih (t.work jobs) (hk ▸ work_step hs) (h.run (.single hs)) rfl

end JobPool
