import Nightcap.Lib.Transition

/-! Workers that draw tasks from a shared counter and write to shared memory. -/
namespace WorkQueue

open Transition

section Memory

variable {α β : Type*} [DecidableEq α] {m : α → β} {a : α} {b : β} {ws vs : List (α × β)}

/-- The memory after the writes, first write first. -/
def writeAll (m : α → β) (ws : List (α × β)) : α → β :=
  ws.foldl (fun m w => Function.update m w.1 w.2) m

/-- No two writes disagree on an address. -/
def Functional (ws : List (α × β)) : Prop := ∀ v ∈ ws, ∀ w ∈ ws, v.1 = w.1 → v.2 = w.2

@[simp] theorem writeAll_nil : writeAll m [] = m := rfl

@[simp] theorem writeAll_cons {w : α × β} :
    writeAll m (w :: ws) = writeAll (Function.update m w.1 w.2) ws := rfl

theorem writeAll_append : writeAll m (vs ++ ws) = writeAll (writeAll m vs) ws := by
  simp [writeAll]

theorem writeAll_flatMap {ι : Type*} {is : List ι} {f : ι → List (α × β)} :
    writeAll m (is.flatMap f) = is.foldl (fun m i => writeAll m (f i)) m := by
  induction is generalizing m with
  | nil => rfl
  | cons i is ih => rw [List.flatMap_cons, writeAll_append, ih, List.foldl_cons]

theorem writeAll_of_notMem (h : ∀ w ∈ ws, w.1 ≠ a) : writeAll m ws a = m a := by
  induction ws generalizing m with
  | nil => rfl
  | cons w ws ih =>
    rw [List.forall_mem_cons] at h
    rw [writeAll_cons, ih h.2, Function.update_of_ne h.1.symm]

theorem writeAll_of_mem (hf : Functional ws) (h : (a, b) ∈ ws) : writeAll m ws a = b := by
  induction ws generalizing m with
  | nil => cases h
  | cons w ws ih =>
    have hf' : Functional ws := fun v hv w' hw => hf v (.tail _ hv) w' (.tail _ hw)
    by_cases hin : ∃ v, (a, v) ∈ ws
    · obtain ⟨v, hv⟩ := hin
      obtain rfl : b = v := hf (a, b) h (a, v) (.tail _ hv) rfl
      exact ih hf' hv
    · have hw : w = (a, b) := by
        rcases List.mem_cons.1 h with rfl | h
        · rfl
        · exact absurd ⟨b, h⟩ hin
      subst hw
      rw [writeAll_cons, writeAll_of_notMem, Function.update_self]
      rintro ⟨c, v⟩ hv rfl
      exact hin ⟨v, hv⟩

/-- Writes under other tags leave a tagged memory alone. -/
theorem writeAll_tagged {ι : Type*} [DecidableEq ι] {m : ι × α → β} {ws : List ((ι × α) × β)}
    {i : ι} :
    (fun a => writeAll m ws (i, a)) =
      writeAll (fun a => m (i, a)) ((ws.filter (·.1.1 = i)).map fun w => (w.1.2, w.2)) := by
  induction ws generalizing m with
  | nil => rfl
  | cons w ws ih =>
    obtain ⟨⟨j, c⟩, v⟩ := w
    rw [writeAll_cons, ih]
    by_cases hj : j = i
    · subst hj
      simp only [decide_true, List.filter_cons_of_pos, List.map_cons, writeAll_cons]
      congr 1
      funext a
      by_cases ha : a = c
      · simp [ha]
      · simp [Function.update_of_ne, ha]
    · rw [List.filter_cons_of_neg (by simpa using hj)]
      congr 1
      funext a
      exact Function.update_of_ne (by simp [Ne.symm hj]) _ _

end Memory

/-- What a worker is doing. -/
inductive Worker (ω : Type*)
  | drawing
  | writing (pending : List ω)
  | returned

structure State (n : Nat) (α β : Type*) where
  next : Nat
  workers : Fin n → Worker (α × β)
  memory : α → β

variable {n : Nat} {α β : Type*} {tasks : List (List (α × β))} {m : α → β}
  {s t : State n α β} {i : Fin n}

def start (n : Nat) (m : α → β) : State n α β := ⟨0, fun _ => .drawing, m⟩

def State.Done (s : State n α β) : Prop := ∀ i, s.workers i = .returned

/-- The steps a worker still takes on its own. -/
def Worker.work : Worker (α × β) → Nat
  | .drawing => 1
  | .writing pending => pending.length + 2
  | .returned => 0

@[simp] theorem work_drawing : (Worker.drawing : Worker (α × β)).work = 1 := rfl

@[simp] theorem work_writing {ws : List (α × β)} : (Worker.writing ws).work = ws.length + 2 := rfl

@[simp] theorem work_returned : (Worker.returned : Worker (α × β)).work = 0 := rfl

/-- The steps that are left, whoever takes them. -/
def State.work (tasks : List (List (α × β))) (s : State n α β) : Nat :=
  (∑ i, (s.workers i).work) + ((tasks.drop s.next).map fun task => task.length + 2).sum

/-- One worker's move changes the sum by what its own share changes. -/
theorem sum_update {ω : Type*} (share : ω → Nat) (workers : Fin n → ω) (i : Fin n) (w : ω) :
    (∑ j, share (Function.update workers i w j)) + share (workers i) =
      (∑ j, share (workers j)) + share w := by
  have hupdate : (fun j => share (Function.update workers i w j)) =
      Function.update (fun j => share (workers j)) i (share w) := by
    funext j
    by_cases hj : j = i
    · subst hj
      simp
    · simp [hj]
  rw [hupdate, Finset.sum_update_of_mem (Finset.mem_univ i), Finset.sdiff_singleton_eq_erase,
    ← Finset.add_sum_erase Finset.univ (fun j => share (workers j)) (Finset.mem_univ i)]
  omega

/-! What every schedule keeps. -/

/-- Where a write still stands: in a worker's hands, or in a task nobody has drawn. -/
def Due (tasks : List (List (α × β))) (s : State n α β) (w : α × β) : Prop :=
  (∃ i ws, s.workers i = .writing ws ∧ w ∈ ws) ∨
    ∃ k task, s.next ≤ k ∧ tasks[k]? = some task ∧ w ∈ task

structure Invariant (tasks : List (List (α × β))) (m : α → β) (s : State n α β) : Prop where
  pending : ∀ i ws, s.workers i = .writing ws → ws ⊆ tasks.flatten
  returned : ∀ i, s.workers i = .returned → tasks.length ≤ s.next
  kept : ∀ a, s.memory a = m a ∨ (a, s.memory a) ∈ tasks.flatten
  due : ∀ w ∈ tasks.flatten, s.memory w.1 = w.2 ∨ Due tasks s w

theorem invariant_start : Invariant tasks m (start n m) where
  pending := nofun
  returned := nofun
  kept _ := .inl rfl
  due w hw := by
    obtain ⟨task, ht, hw⟩ := List.mem_flatten.1 hw
    obtain ⟨k, hk⟩ := List.mem_iff_getElem?.1 ht
    exact .inr (.inr ⟨k, task, Nat.zero_le k, hk, hw⟩)

theorem subset_flatten {k : Nat} {task : List (α × β)} (h : tasks[k]? = some task) :
    task ⊆ tasks.flatten :=
  fun _ hw => List.mem_flatten.2 ⟨task, List.mem_of_getElem? h, hw⟩

theorem invariant_draw {task : List (α × β)} (hw : s.workers i = .drawing)
    (ht : tasks[s.next]? = some task) (h : Invariant tasks m s) :
    Invariant tasks m
      { s with next := s.next + 1, workers := Function.update s.workers i (.writing task) } where
  pending j ws hj := by
    by_cases hji : j = i
    · subst hji
      obtain rfl : task = ws := by simpa using hj
      exact subset_flatten ht
    · exact h.pending j ws (by simpa [hji] using hj)
  returned j hj := by
    by_cases hji : j = i
    · subst hji
      simp at hj
    · exact (h.returned j (by simpa [hji] using hj)).trans (Nat.le_succ _)
  kept := h.kept
  due w hm := by
    rcases h.due w hm with hd | ⟨j, ws, hj, hin⟩ | ⟨k, task', hk, hk', hin⟩
    · exact .inl hd
    · have hji : j ≠ i := by
        rintro rfl
        simp [hw] at hj
      exact .inr (.inl ⟨j, ws, by simpa [hji] using hj, hin⟩)
    · rcases Nat.eq_or_lt_of_le hk with rfl | hlt
      · obtain rfl : task = task' := by simpa [ht] using hk'
        exact .inr (.inl ⟨i, task, by simp, hin⟩)
      · exact .inr (.inr ⟨k, task', hlt, hk', hin⟩)

theorem invariant_leave (hw : s.workers i = .drawing) (ht : tasks.length ≤ s.next)
    (h : Invariant tasks m s) :
    Invariant tasks m
      { s with next := s.next + 1, workers := Function.update s.workers i .returned } where
  pending j ws hj := by
    by_cases hji : j = i
    · subst hji
      simp at hj
    · exact h.pending j ws (by simpa [hji] using hj)
  returned _ _ := ht.trans (Nat.le_succ _)
  kept := h.kept
  due w hm := by
    rcases h.due w hm with hd | ⟨j, ws, hj, hin⟩ | ⟨k, task, hk, hk', _⟩
    · exact .inl hd
    · have hji : j ≠ i := by
        rintro rfl
        simp [hw] at hj
      exact .inr (.inl ⟨j, ws, by simpa [hji] using hj, hin⟩)
    · have hlt := (List.getElem?_eq_some_iff.1 hk').1
      omega

theorem invariant_finish (hw : s.workers i = .writing []) (h : Invariant tasks m s) :
    Invariant tasks m { s with workers := Function.update s.workers i .drawing } where
  pending j ws hj := by
    by_cases hji : j = i
    · subst hji
      simp at hj
    · exact h.pending j ws (by simpa [hji] using hj)
  returned j hj := by
    by_cases hji : j = i
    · subst hji
      simp at hj
    · exact h.returned j (by simpa [hji] using hj)
  kept := h.kept
  due w hm := by
    rcases h.due w hm with hd | ⟨j, ws, hj, hin⟩ | hd
    · exact .inl hd
    · by_cases hji : j = i
      · subst hji
        rw [hw] at hj
        cases hj
        cases hin
      · exact .inr (.inl ⟨j, ws, by simpa [hji] using hj, hin⟩)
    · exact .inr (.inr hd)

variable [DecidableEq α]

/-- One atomic action of a worker: taking an index, or one write. -/
inductive Step (tasks : List (List (α × β))) : State n α β → Fin n → State n α β → Prop
  | draw {s : State n α β} {i : Fin n} {task : List (α × β)} (hw : s.workers i = .drawing)
      (ht : tasks[s.next]? = some task) :
    Step tasks s i
      { s with next := s.next + 1, workers := Function.update s.workers i (.writing task) }
  | leave {s : State n α β} {i : Fin n} (hw : s.workers i = .drawing)
      (ht : tasks.length ≤ s.next) :
    Step tasks s i { s with next := s.next + 1, workers := Function.update s.workers i .returned }
  | write {s : State n α β} {i : Fin n} {w : α × β} {ws : List (α × β)}
      (hw : s.workers i = .writing (w :: ws)) :
    Step tasks s i
      { s with
        workers := Function.update s.workers i (.writing ws)
        memory := Function.update s.memory w.1 w.2 }
  | finish {s : State n α β} {i : Fin n} (hw : s.workers i = .writing []) :
    Step tasks s i { s with workers := Function.update s.workers i .drawing }

def queueLTS (n : Nat) (tasks : List (List (α × β))) (m : α → β) : LTS (State n α β) (Fin n) where
  initial s := s = start n m
  step := Step tasks

theorem invariant_write (hf : Functional tasks.flatten) {w : α × β} {ws : List (α × β)}
    (hw : s.workers i = .writing (w :: ws)) (h : Invariant tasks m s) :
    Invariant tasks m
      { s with
        workers := Function.update s.workers i (.writing ws)
        memory := Function.update s.memory w.1 w.2 } where
  pending j vs hj := by
    by_cases hji : j = i
    · subst hji
      obtain rfl : ws = vs := by simpa using hj
      exact List.Subset.trans (List.subset_cons_self w ws) (h.pending j _ hw)
    · exact h.pending j vs (by simpa [hji] using hj)
  returned j hj := by
    by_cases hji : j = i
    · subst hji
      simp at hj
    · exact h.returned j (by simpa [hji] using hj)
  kept a := by
    by_cases ha : a = w.1
    · subst ha
      exact .inr (by simpa using h.pending i _ hw List.mem_cons_self)
    · simpa [ha] using h.kept a
  due v hv := by
    have hwm : w ∈ tasks.flatten := h.pending i _ hw List.mem_cons_self
    by_cases hvw : v.1 = w.1
    · exact .inl (by simp [hvw, hf v hv w hwm hvw])
    · rcases h.due v hv with hd | ⟨j, vs, hj, hin⟩ | hd
      · exact .inl (by simpa [hvw] using hd)
      · by_cases hji : j = i
        · subst hji
          rw [hw] at hj
          cases hj
          rcases List.mem_cons.1 hin with rfl | hin
          · exact absurd rfl hvw
          · exact .inr (.inl ⟨j, ws, by simp, hin⟩)
        · exact .inr (.inl ⟨j, vs, by simpa [hji] using hj, hin⟩)
      · exact .inr (.inr hd)

theorem invariant_step (hf : Functional tasks.flatten) (hs : Step tasks s i t)
    (h : Invariant tasks m s) : Invariant tasks m t := by
  cases hs with
  | draw hw ht => exact invariant_draw hw ht h
  | leave hw ht => exact invariant_leave hw ht h
  | write hw => exact invariant_write hf hw h
  | finish hw => exact invariant_finish hw h

theorem invariant_reachable (hf : Functional tasks.flatten)
    (h : (queueLTS n tasks m).Reachable s) : Invariant tasks m s := by
  refine h.invariant ?_ ?_
  · rintro _ rfl
    exact invariant_start
  · intro s i t hs hi
    exact invariant_step hf hs hi

/-- Once every worker has returned, the memory is as if one had done all tasks in order. -/
theorem memory_of_done (hf : Functional tasks.flatten) (hn : 0 < n)
    (h : (queueLTS n tasks m).Reachable s) (hd : s.Done) :
    s.memory = writeAll m tasks.flatten := by
  have hi := invariant_reachable hf h
  have hnext : tasks.length ≤ s.next := hi.returned ⟨0, hn⟩ (hd _)
  funext a
  by_cases ha : ∃ b, (a, b) ∈ tasks.flatten
  · obtain ⟨b, hb⟩ := ha
    rw [writeAll_of_mem hf hb]
    rcases hi.due _ hb with hm | ⟨j, ws, hj, _⟩ | ⟨k, task, hk, hk', _⟩
    · exact hm
    · rw [hd j] at hj
      cases hj
    · have hlt := (List.getElem?_eq_some_iff.1 hk').1
      omega
  · rw [writeAll_of_notMem]
    · rcases hi.kept a with hm | hm
      · exact hm
      · exact absurd ⟨_, hm⟩ ha
    · rintro ⟨c, b⟩ hw rfl
      exact ha ⟨b, hw⟩

/-! Every schedule ends. -/

theorem work_step (hs : Step tasks s i t) : t.work tasks + 1 = s.work tasks := by
  cases hs with
  | draw hw ht =>
    rename_i task
    have hu := sum_update Worker.work s.workers i (.writing task)
    obtain ⟨hlt, rfl⟩ := List.getElem?_eq_some_iff.1 ht
    simp only [State.work, List.drop_eq_getElem_cons hlt, List.map_cons, List.sum_cons]
    simp only [hw, work_drawing, work_writing] at hu
    omega
  | leave hw ht =>
    have hu := sum_update Worker.work s.workers i .returned
    have h₁ : tasks.drop (s.next + 1) = [] := List.drop_eq_nil_of_le (by omega)
    simp only [State.work, List.drop_eq_nil_of_le ht, h₁]
    simp only [hw, work_drawing, work_returned] at hu
    omega
  | write hw =>
    rename_i w ws
    have hu := sum_update Worker.work s.workers i (.writing ws)
    simp only [State.work]
    simp only [hw, work_writing, List.length_cons] at hu
    omega
  | finish hw =>
    have hu := sum_update Worker.work s.workers i .drawing
    simp only [State.work]
    simp only [hw, work_drawing, work_writing, List.length_nil] at hu
    omega

/-- No run is longer than the work there is. -/
theorem work_run {is : List (Fin n)} (h : (queueLTS n tasks m).Run s is t) :
    t.work tasks + is.length = s.work tasks := by
  induction h with
  | refl => simp
  | cons hs _ ih =>
    have hstep := work_step hs
    rw [List.length_cons]
    omega

theorem exists_step (tasks : List (List (α × β))) (h : ¬ s.Done) : ∃ i t, Step tasks s i t := by
  rw [State.Done, not_forall] at h
  obtain ⟨i, hi⟩ := h
  cases hw : s.workers i with
  | drawing =>
    cases ht : tasks[s.next]? with
    | some task => exact ⟨i, _, .draw hw ht⟩
    | none => exact ⟨i, _, .leave hw (List.getElem?_eq_none_iff.1 ht)⟩
  | writing pending =>
    cases pending with
    | nil => exact ⟨i, _, .finish hw⟩
    | cons w ws => exact ⟨i, _, .write hw⟩
  | returned => exact absurd hw hi

/-- Any state can be run to the end. -/
theorem exists_done (s : State n α β) :
    ∃ is t, (queueLTS n tasks m).Run s is t ∧ t.Done := by
  induction hk : s.work tasks generalizing s with
  | zero =>
    by_cases hd : s.Done
    · exact ⟨[], s, .refl s, hd⟩
    · obtain ⟨i, t, hs⟩ := exists_step tasks hd
      have hstep := work_step hs
      omega
  | succ k ih =>
    by_cases hd : s.Done
    · exact ⟨[], s, .refl s, hd⟩
    · obtain ⟨i, t, hs⟩ := exists_step tasks hd
      have hstep := work_step hs
      obtain ⟨is, u, hr, hu⟩ := ih t (by omega)
      exact ⟨i :: is, u, .cons hs hr, hu⟩

end WorkQueue
