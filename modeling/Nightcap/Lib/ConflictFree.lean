import Nightcap.Lib.Threads

/-! Programs on a shared memory of cells, drawn by workers from a shared counter. Where no program
writes what another one reads, every schedule ends as if the programs had run one after the
other. -/
namespace ConflictFree

open Threads Transition

/-- Atomic changes of the memory, one after the other; what a thread sees may decide what
follows. -/
inductive Program (σ : Type*)
  | done
  | act (change : σ → σ) (rest : σ → Program σ)

def Program.run {σ : Type*} : Program σ → σ → σ
  | done, m => m
  | act change rest, m => (rest m).run (change m)

variable {σ κ : Type*} {β : κ → Type*} {get : σ → (k : κ) → β k}
  {reads writes : Set κ} {change : σ → σ}
  {p : Program σ} {m m' : σ} {k : κ}

/-! Footprints. -/

def Agree (get : σ → (k : κ) → β k) (cells : Set κ) (m m' : σ) : Prop :=
  ∀ k ∈ cells, get m k = get m' k

/-- What a change writes depends on what it reads. A cell is left alone, or it is written with one
value. -/
def Local (get : σ → (k : κ) → β k) (reads writes : Set κ) (change : σ → σ) : Prop :=
  ∀ m m', Agree get reads m m' → ∀ k, (get (change m) k = get m k ∧ get (change m') k = get m' k) ∨
    (k ∈ writes ∧ get (change m) k = get (change m') k)

inductive Within (get : σ → (k : κ) → β k) (reads writes : Set κ) : Program σ → Prop
  | done : Within get reads writes .done
  | act {change : σ → σ} {rest : σ → Program σ} (hchange : Local get reads writes change)
      (hrest : ∀ m m', Agree get reads m m' → rest m = rest m')
      (h : ∀ m, Within get reads writes (rest m)) :
      Within get reads writes (.act change rest)

theorem Agree.symm (h : Agree get reads m m') : Agree get reads m' m := fun k hk => (h k hk).symm

theorem Agree.trans {m'' : σ} (h : Agree get reads m m') (h' : Agree get reads m' m'') :
    Agree get reads m m'' :=
  fun k hk => (h k hk).trans (h' k hk)

theorem Local.id : Local get reads writes id := fun _ _ _ _ => .inl ⟨rfl, rfl⟩

theorem Local.frame (h : Local get reads writes change) (hk : k ∉ writes) :
    get (change m) k = get m k := by
  rcases h m m (fun _ _ => rfl) k with ⟨hm, -⟩ | ⟨hin, -⟩
  · exact hm
  · exact absurd hin hk

theorem Local.agree (h : Local get reads writes change) (hm : Agree get reads m m') :
    Agree get reads (change m) (change m') := by
  intro k hk
  rcases h m m' hm k with ⟨hleft, hright⟩ | ⟨-, heq⟩
  · rw [hleft, hright, hm k hk]
  · exact heq

/-- A program as a whole is as local as its changes. -/
theorem Within.local_run (h : Within get reads writes p) : Local get reads writes p.run := by
  induction h with
  | done => exact Local.id
  | @act change rest hchange hrest _ ih =>
    intro m m' hm k
    have hnext := ih m (change m) (change m') (hchange.agree hm) k
    have hsame : (Program.act change rest).run m' = (rest m).run (change m') :=
      by rw [Program.run, ← hrest m m' hm]
    rw [hsame, Program.run]
    rcases hnext with ⟨hleft, hright⟩ | hwritten
    · rw [hleft, hright]
      exact hchange m m' hm k
    · exact .inr hwritten

/-- A program with its footprint. -/
structure Task (get : σ → (k : κ) → β k) where
  program : Program σ
  reads : Set κ
  writes : Set κ
  within : Within get reads writes program

namespace Task

variable {t u : Task get} {ts : List (Task get)}

def run (m : σ) (t : Task get) : σ := t.program.run m

theorem local_run (t : Task get) : Local get t.reads t.writes fun m => t.run m := t.within.local_run

/-- Neither writes what the other reads, and what both write, both write alike. -/
structure Free (t u : Task get) : Prop where
  left : ∀ k ∈ t.reads, k ∉ u.writes
  right : ∀ k ∈ u.reads, k ∉ t.writes
  both : ∀ k ∈ t.writes, k ∈ u.writes → ∀ m, get (t.run m) k = get (u.run m) k

theorem Free.symm (h : Free t u) : Free u t :=
  ⟨h.right, h.left, fun k hk hk' m => (h.both k hk' hk m).symm⟩

instance : Std.Symm (@Free σ κ β get) := ⟨fun _ _ => Free.symm⟩

theorem Free.agree (h : Free t u) : Agree get t.reads (u.run m) m :=
  fun k hk => u.local_run.frame (h.left k hk)

/-- What a task leaves in a cell it may write is not changed by a free one before it. -/
theorem Free.run_eq (h : Free t u) (hk : k ∈ t.writes) :
    get (t.run (u.run m)) k = get (t.run m) k := by
  rcases t.local_run (u.run m) m h.agree k with ⟨hlate, hearly⟩ | ⟨-, heq⟩
  · rw [hlate, hearly]
    by_cases hu : k ∈ u.writes
    · rw [← h.both k hk hu, hearly]
    · exact u.local_run.frame hu
  · exact heq

/-- What tasks that are free of each other leave in a cell. -/
theorem foldl_run (hfree : ts.Pairwise Free) (m : σ) (k : κ) :
    ((∀ t ∈ ts, k ∉ t.writes) → get (ts.foldl run m) k = get m k) ∧
      ∀ t ∈ ts, k ∈ t.writes → get (ts.foldl run m) k = get (t.run m) k := by
  induction ts generalizing m with
  | nil => exact ⟨fun _ => rfl, fun t ht => absurd ht List.not_mem_nil⟩
  | cons u ts ih =>
    obtain ⟨hhead, htail⟩ := List.pairwise_cons.1 hfree
    obtain ⟨hnone, hsome⟩ := ih htail (u.run m)
    refine ⟨fun hall => ?_, fun t ht hk => ?_⟩
    · rw [List.forall_mem_cons] at hall
      exact (hnone hall.2).trans (u.local_run.frame hall.1)
    · rcases List.mem_cons.1 ht with rfl | ht
      · by_cases hlater : ∃ v ∈ ts, k ∈ v.writes
        · obtain ⟨v, hv, hkv⟩ := hlater
          calc get (ts.foldl run (t.run m)) k = get (v.run (t.run m)) k := hsome v hv hkv
            _ = get (v.run m) k := (hhead v hv).symm.run_eq hkv
            _ = get (t.run m) k := ((hhead v hv).both k hk hkv m).symm
        · exact hnone fun v hv hkv => hlater ⟨v, hv, hkv⟩
      · exact (hsome t ht hk).trans ((hhead t ht).symm.run_eq hk)

/-- Free tasks may change places. -/
theorem Free.commute (hget : ∀ m m', (∀ k, get m k = get m' k) → m = m') (h : Free t u) (m : σ) :
    u.run (t.run m) = t.run (u.run m) := by
  refine hget _ _ fun k => ?_
  by_cases ht : k ∈ t.writes
  · by_cases hu : k ∈ u.writes
    · rw [h.symm.run_eq hu, h.run_eq ht, h.both k ht hu]
    · rw [h.run_eq ht]
      exact u.local_run.frame hu
  · rw [show get (t.run (u.run m)) k = get (u.run m) k from t.local_run.frame ht]
    by_cases hu : k ∈ u.writes
    · exact h.symm.run_eq hu
    · rw [show get (u.run (t.run m)) k = get (t.run m) k from u.local_run.frame hu,
        show get (t.run m) k = get m k from t.local_run.frame ht,
        show get (u.run m) k = get m k from u.local_run.frame hu]

theorem foldl_commute (hget : ∀ m m', (∀ k, get m k = get m' k) → m = m')
    (h : ∀ u ∈ ts, Free t u) (m : σ) :
    ts.foldl run (t.run m) = t.run (ts.foldl run m) := by
  induction ts generalizing m with
  | nil => rfl
  | cons u ts ih =>
    rw [List.forall_mem_cons] at h
    rw [List.foldl_cons, List.foldl_cons, h.1.commute hget, ih h.2]

/-- A batch of free tasks has no order. -/
theorem foldl_perm (hget : ∀ m m', (∀ k, get m k = get m' k) → m = m') (hfree : ts.Pairwise Free)
    {us : List (Task get)} (h : ts.Perm us) (m : σ) : ts.foldl run m = us.foldl run m := by
  refine h.foldl_eq' (fun t ht u hu m => ?_) m
  rcases eq_or_ne t u with rfl | hne
  · rfl
  · exact (hfree.forall ht hu hne).commute hget m

end Task

/-! The workers. -/

structure Shared (σ : Type*) where
  next : Nat
  memory : σ

inductive Worker (σ : Type*)
  | drawing
  | running (index : Nat) (p : Program σ)
  | returned

/-- The next action of a worker: it takes an index, or goes on with the program it has. -/
def act {τ : Type*} (programs : List (Program σ)) (_ : τ) (shared : Shared σ) :
    Worker σ → Unit → Option (Shared σ × Worker σ)
  | .drawing, _ =>
    some ({ shared with next := shared.next + 1 },
      (programs[shared.next]?).elim .returned (.running shared.next))
  | .running index (.act change rest), _ =>
    some ({ shared with memory := change shared.memory }, .running index (rest shared.memory))
  | .running _ .done, _ => some (shared, .drawing)
  | .returned, _ => none

abbrev Pool (n : Nat) (σ : Type*) := System (Fin n) (Shared σ) (Worker σ)

def pool (n : Nat) (programs : List (Program σ)) (m : σ) : LTS (Pool n σ) (Fin n × Unit) :=
  interleaving ⟨0, m⟩ .drawing (act programs)

def Done {n : Nat} (s : Pool n σ) : Prop := ∀ i, s.own i = .returned

section Runs

variable {n : Nat} {tasks : List (Task get)} {s s' : Pool n σ} {a : Fin n × Unit}
  {i j : Fin n} {index : Nat}
  {own : Nat → σ}

abbrev programs (tasks : List (Task get)) : List (Program σ) := tasks.map Task.program

/-- What a step is. -/
inductive Move (programs : List (Program σ)) (s : Pool n σ) (i : Fin n) : Pool n σ → Prop
  | draw {p : Program σ} (hw : s.own i = .drawing) (hp : programs[s.shared.next]? = some p) :
      Move programs s i
        (s.set i { s.shared with next := s.shared.next + 1 } (.running s.shared.next p))
  | leave (hw : s.own i = .drawing) (hp : programs.length ≤ s.shared.next) :
      Move programs s i (s.set i { s.shared with next := s.shared.next + 1 } .returned)
  | act {index : Nat} {change : σ → σ} {rest : σ → Program σ}
    (hw : s.own i = .running index (.act change rest)) :
      Move programs s i (s.set i { s.shared with memory := change s.shared.memory }
        (.running index (rest s.shared.memory)))
  | finish {index : Nat} (hw : s.own i = .running index .done) :
    Move programs s i (s.set i s.shared .drawing)

theorem step_iff {programs : List (Program σ)} :
    (pool n programs m).step s a s' ↔ Move programs s a.1 s' := by
  obtain ⟨i, _⟩ := a
  change (∃ shared x, act programs i s.shared (s.own i) () = some (shared, x) ∧
    s' = s.set i shared x) ↔ _
  constructor
  · rintro ⟨shared, x, hact, rfl⟩
    cases hw : s.own i with
    | drawing =>
      rw [hw, act, Option.some_inj, Prod.mk.injEq] at hact
      obtain ⟨rfl, rfl⟩ := hact
      cases hp : programs[s.shared.next]? with
      | none => exact .leave hw (List.getElem?_eq_none_iff.1 hp)
      | some p => exact .draw hw hp
    | running index p =>
      cases p with
      | done =>
        rw [hw, act, Option.some_inj, Prod.mk.injEq] at hact
        obtain ⟨rfl, rfl⟩ := hact
        exact .finish hw
      | act change rest =>
        rw [hw, act, Option.some_inj, Prod.mk.injEq] at hact
        obtain ⟨rfl, rfl⟩ := hact
        exact .act hw
    | returned =>
      rw [hw] at hact
      cases hact
  · intro h
    cases h with
    | draw hw hp => exact ⟨_, _, by rw [hw, act, hp]; rfl, rfl⟩
    | leave hw hp => exact ⟨_, _, by rw [hw, act, List.getElem?_eq_none_iff.2 hp]; rfl, rfl⟩
    | act hw => exact ⟨_, _, by rw [hw, act], rfl⟩
    | finish hw => exact ⟨_, _, by rw [hw, act], rfl⟩

/-- The tasks that workers hold, and what all tasks so far have left in memories of their own. -/
structure Invariant (tasks : List (Task get)) (m : σ) (s : Pool n σ) (own : Nat → σ) : Prop where
  running : ∀ i index p, s.own i = .running index p → index < s.shared.next ∧
    ∃ t, tasks[index]? = some t ∧
    Within get t.reads t.writes p ∧ p.run (own index) = t.run m
  once : ∀ i j index p q, s.own i = .running index p → s.own j = .running index q → i = j
  fresh : ∀ index, s.shared.next ≤ index → own index = m
  finished : ∀ index t, index < s.shared.next → tasks[index]? = some t →
    (∀ i p, s.own i ≠ .running index p) → own index = t.run m
  returned : ∀ i, s.own i = .returned → tasks.length ≤ s.shared.next
  agree : ∀ index t, tasks[index]? = some t → Agree get t.reads s.shared.memory (own index)
  cells : ∀ k, (get s.shared.memory k = get m k ∧ ∀ index, get (own index) k = get m k) ∨
    ∃ index t, tasks[index]? = some t ∧ k ∈ t.writes ∧ get s.shared.memory k = get (own index) k

theorem own_set {shared : Shared σ} {x w : Worker σ} (h : (s.set i shared x).own j = w) :
    (j = i ∧ x = w) ∨ (j ≠ i ∧ s.own j = w) := by
  rcases eq_or_ne j i with rfl | hne
  · rw [System.set_own_self] at h
    exact .inl ⟨rfl, h⟩
  · rw [System.set_own_of_ne hne] at h
    exact .inr ⟨hne, h⟩

theorem invariant_start :
    Invariant tasks m (⟨⟨0, m⟩, fun _ => .drawing⟩ : Pool n σ) fun _ => m where
  running _ _ _ h := by cases h
  once _ _ _ _ _ h := by cases h
  fresh _ _ := rfl
  finished _ _ h := absurd h (Nat.not_lt_zero _)
  returned _ h := by cases h
  agree _ _ _ _ _ := rfl
  cells _ := .inl ⟨rfl, fun _ => rfl⟩

theorem invariant_draw {p : Program σ} (hw : s.own i = .drawing)
    (hp : (programs tasks)[s.shared.next]? = some p)
    (h : Invariant tasks m s own) :
    Invariant tasks m
      (s.set i { s.shared with next := s.shared.next + 1 } (.running s.shared.next p)) own where
  running j index q hj := by
    rcases own_set hj with ⟨rfl, heq⟩ | ⟨-, hj⟩
    · cases heq
      rw [List.getElem?_map, Option.map_eq_some_iff] at hp
      obtain ⟨t, ht, rfl⟩ := hp
      exact ⟨Nat.lt_succ_self _, t, ht, t.within, by rw [h.fresh _ le_rfl, Task.run]⟩
    · obtain ⟨hlt, hrest⟩ := h.running j index q hj
      exact ⟨Nat.lt_succ_of_lt hlt, hrest⟩
  once j j' index q q' hj hj' := by
    rcases own_set hj with ⟨rfl, heq⟩ | ⟨-, hold⟩ <;>
      rcases own_set hj' with ⟨rfl, heq'⟩ | ⟨-, hold'⟩
    · rfl
    · cases heq
      exact absurd (h.running j' _ q' hold').1 (lt_irrefl _)
    · cases heq'
      exact absurd (h.running j _ q hold).1 (lt_irrefl _)
    · exact h.once j j' index q q' hold hold'
  fresh index hindex := h.fresh index (Nat.le_of_succ_le hindex)
  finished index t hlt ht hno := by
    have hother : index ≠ s.shared.next := by
      rintro rfl
      exact hno i p (System.set_own_self ..)
    refine h.finished index t (lt_of_le_of_ne (Nat.le_of_lt_succ hlt) hother) ht fun j q hj => ?_
    refine hno j q ?_
    rwa [System.set_own_of_ne]
    rintro rfl
    rw [hw] at hj
    cases hj
  returned j hj := by
    rcases own_set hj with ⟨-, heq⟩ | ⟨-, hj⟩
    · cases heq
    · exact (h.returned j hj).trans (Nat.le_succ _)
  agree := h.agree
  cells := h.cells

theorem invariant_leave (hw : s.own i = .drawing) (hp : (programs tasks).length ≤ s.shared.next)
    (h : Invariant tasks m s own) :
    Invariant tasks m (s.set i { s.shared with next := s.shared.next + 1 } .returned) own where
  running j index q hj := by
    rcases own_set hj with ⟨-, heq⟩ | ⟨-, hj⟩
    · cases heq
    · obtain ⟨hlt, hrest⟩ := h.running j index q hj
      exact ⟨Nat.lt_succ_of_lt hlt, hrest⟩
  once j j' index q q' hj hj' := by
    rcases own_set hj with ⟨-, heq⟩ | ⟨-, hj⟩
    · cases heq
    · rcases own_set hj' with ⟨-, heq'⟩ | ⟨-, hj'⟩
      · cases heq'
      · exact h.once j j' index q q' hj hj'
  fresh index hindex := h.fresh index (Nat.le_of_succ_le hindex)
  finished index t _ ht hno := by
    have hlt := (List.getElem?_eq_some_iff.1 ht).1
    rw [List.length_map] at hp
    refine h.finished index t (hlt.trans_le hp) ht fun j q hj => hno j q ?_
    rwa [System.set_own_of_ne]
    rintro rfl
    rw [hw] at hj
    cases hj
  returned j _ := by
    rw [List.length_map] at hp
    exact hp.trans (Nat.le_succ _)
  agree := h.agree
  cells := h.cells

theorem invariant_finish (hw : s.own i = .running index .done) (h : Invariant tasks m s own) :
    Invariant tasks m (s.set i s.shared .drawing) own where
  running j index q hj := by
    rcases own_set hj with ⟨-, heq⟩ | ⟨-, hj⟩
    · cases heq
    · exact h.running j index q hj
  once j j' index q q' hj hj' := by
    rcases own_set hj with ⟨-, heq⟩ | ⟨-, hj⟩
    · cases heq
    · rcases own_set hj' with ⟨-, heq'⟩ | ⟨-, hj'⟩
      · cases heq'
      · exact h.once j j' index q q' hj hj'
  fresh := h.fresh
  finished index' t hlt ht hno := by
    rcases eq_or_ne index' index with rfl | hne
    · obtain ⟨-, u, hu, -, hrun⟩ := h.running i index' _ hw
      rw [ht, Option.some_inj] at hu
      rw [hu, ← hrun, Program.run]
    · refine h.finished index' t hlt ht fun j q hj => hno j q ?_
      rwa [System.set_own_of_ne]
      rintro rfl
      rw [hw] at hj
      cases hj
      exact hne rfl
  returned j hj := by
    rcases own_set hj with ⟨-, heq⟩ | ⟨-, hj⟩
    · cases heq
    · exact h.returned j hj
  agree := h.agree
  cells := h.cells

theorem free_of_ne (hfree : tasks.Pairwise Task.Free) {index index' : Nat} {t t' : Task get}
    (ht : tasks[index]? = some t) (ht' : tasks[index']? = some t')
    (hne : index ≠ index') : t.Free t' := by
  obtain ⟨hlt, rfl⟩ := List.getElem?_eq_some_iff.1 ht
  obtain ⟨hlt', rfl⟩ := List.getElem?_eq_some_iff.1 ht'
  rw [List.pairwise_iff_getElem] at hfree
  rcases lt_or_gt_of_ne hne with h | h
  · exact hfree index index' hlt hlt' h
  · exact (hfree index' index hlt' hlt h).symm

/-- A task's own memory takes the change that the shared one takes. -/
theorem invariant_act (hfree : tasks.Pairwise Task.Free) {rest : σ → Program σ}
    (hw : s.own i = .running index (.act change rest)) (h : Invariant tasks m s own) :
    Invariant tasks m
      (s.set i { s.shared with memory := change s.shared.memory }
        (.running index (rest s.shared.memory)))
      (Function.update own index (change (own index))) := by
  obtain ⟨hlt, t, ht, hwithin, hrun⟩ := h.running i index _ hw
  have hagree := h.agree index t ht
  cases hwithin with
  | act hchange hrest hall =>
    refine ⟨?_, ?_, ?_, ?_, ?_, ?_, ?_⟩
    · intro j index' q hj
      rcases own_set hj with ⟨-, heq⟩ | ⟨hne, hold⟩
      · cases heq
        refine ⟨hlt, t, ht, hall _, ?_⟩
        rw [Function.update_self, hrest _ _ hagree]
        exact hrun
      · have hother : index' ≠ index := by
          rintro rfl
          exact hne (h.once j i index' _ _ hold hw)
        rw [Function.update_of_ne hother]
        exact h.running j index' q hold
    · intro j j' index' q q' hj hj'
      rcases own_set hj with ⟨rfl, heq⟩ | ⟨-, hold⟩ <;>
        rcases own_set hj' with ⟨rfl, heq'⟩ | ⟨-, hold'⟩
      · rfl
      · cases heq
        exact h.once _ _ _ _ _ hw hold'
      · cases heq'
        exact h.once _ _ _ _ _ hold hw
      · exact h.once j j' index' q q' hold hold'
    · intro index' hle
      have hle : s.shared.next ≤ index' := hle
      rw [Function.update_of_ne (by omega)]
      exact h.fresh index' hle
    · intro index' t' hlt' ht' hno
      have hother : index' ≠ index := by
        rintro rfl
        exact hno i _ (System.set_own_self ..)
      rw [Function.update_of_ne hother]
      refine h.finished index' t' hlt' ht' fun j q hj => hno j q ?_
      rwa [System.set_own_of_ne]
      rintro rfl
      rw [hw] at hj
      cases hj
      exact hother rfl
    · intro j hj
      rcases own_set hj with ⟨-, heq⟩ | ⟨-, hj⟩
      · cases heq
      · exact h.returned j hj
    · intro index' t' ht'
      rcases eq_or_ne index' index with rfl | hne
      · rw [ht, Option.some_inj] at ht'
        subst ht'
        rw [Function.update_self]
        exact hchange.agree hagree
      · rw [Function.update_of_ne hne]
        refine Agree.trans (fun k hk => hchange.frame ?_) (h.agree index' t' ht')
        exact (free_of_ne hfree ht' ht hne).left k hk
    · intro k
      rcases hchange _ _ hagree k with ⟨hshared, hown⟩ | ⟨hin, heq⟩
      · have hkept (index' : Nat) :
            get (Function.update own index (change (own index)) index') k = get (own index') k := by
          rcases eq_or_ne index' index with rfl | hne
          · rw [Function.update_self, hown]
          · rw [Function.update_of_ne hne]
        change (get (change _) k = _ ∧ _) ∨ ∃ index' t', _ ∧ _ ∧ get (change _) k = _
        rw [hshared]
        simp only [hkept]
        exact h.cells k
      · exact .inr ⟨index, t, ht, hin, by rw [Function.update_self]; exact heq⟩

theorem invariant_reachable (hfree : tasks.Pairwise Task.Free)
    (h : (pool n (programs tasks) m).Reachable s) :
    ∃ own, Invariant tasks m s own := by
  refine LTS.Reachable.invariant (I := fun s => ∃ own, Invariant tasks m s own) ?_ ?_ h
  · rintro _ rfl
    exact ⟨_, invariant_start⟩
  · rintro s a s' hs ⟨own, hi⟩
    cases step_iff.1 hs with
    | draw hw hp => exact ⟨own, invariant_draw hw hp hi⟩
    | leave hw hp => exact ⟨own, invariant_leave hw hp hi⟩
    | act hw => exact ⟨_, invariant_act hfree hw hi⟩
    | finish hw => exact ⟨own, invariant_finish hw hi⟩

/-- Once every worker has returned, the memory is as if the tasks had run in order. -/
theorem memory_of_done (hget : ∀ m m', (∀ k, get m k = get m' k) → m = m')
    (hfree : tasks.Pairwise Task.Free)
    (hn : 0 < n) (h : (pool n (programs tasks) m).Reachable s) (hd : Done s) :
    s.shared.memory = tasks.foldl Task.run m := by
  obtain ⟨own, hi⟩ := invariant_reachable hfree h
  have hall : tasks.length ≤ s.shared.next := hi.returned ⟨0, hn⟩ (hd _)
  have hown : ∀ index t, tasks[index]? = some t → own index = t.run m := by
    intro index t ht
    refine hi.finished index t
      ((List.getElem?_eq_some_iff.1 ht).1.trans_le hall) ht fun i p hp => ?_
    rw [hd i] at hp
    cases hp
  refine hget _ _ fun k => ?_
  obtain ⟨hnone, hsome⟩ := Task.foldl_run hfree m k
  rcases hi.cells k with ⟨hm, hkept⟩ | ⟨index, t, ht, hk, heq⟩
  · by_cases hwritten : ∃ t ∈ tasks, k ∈ t.writes
    · obtain ⟨t, hin, hk⟩ := hwritten
      obtain ⟨index, ht⟩ := List.mem_iff_getElem?.1 hin
      rw [hsome t hin hk, ← hown index t ht, hkept, hm]
    · rw [hnone fun t hin hk => hwritten ⟨t, hin, hk⟩, hm]
  · rw [heq, hown index t ht, hsome t (List.mem_of_getElem? ht) hk]

/-! Every schedule can be run to the end. -/

/-- The steps that may be left, a whole program counted as one. -/
def Worker.work : Worker σ → Nat
  | .drawing => 1
  | .running _ _ => 2
  | .returned => 0

def work (tasks : List (Program σ)) (s : Pool n σ) : Nat :=
  (∑ i, (s.own i).work) + 2 * (tasks.length - s.shared.next)

theorem work_set {shared : Shared σ} {x : Worker σ} {ps : List (Program σ)} :
    work ps (s.set i shared x) + (s.own i).work + 2 * (ps.length - s.shared.next) =
      work ps s + x.work + 2 * (ps.length - shared.next) := by
  have hsum := @System.sum_set _ _ _ _ s shared x i _ Worker.work
  simp only [work, System.set_shared]
  omega

theorem work_lt {shared : Shared σ} {w x : Worker σ} {ps : List (Program σ)} (hw : s.own i = w)
    (h : x.work + 2 * (ps.length - shared.next) < w.work + 2 * (ps.length - s.shared.next)) :
    work ps (s.set i shared x) < work ps s := by
  have hset := @work_set _ n s i shared x ps
  rw [hw] at hset
  omega

theorem run_program {ps : List (Program σ)} (hw : s.own i = .running index p) :
    ∃ as memory, (pool n ps m).Run s as (s.set i { s.shared with memory := memory } .drawing) := by
  induction p generalizing s with
  | done => exact ⟨[(i, ())], s.shared.memory, .cons (step_iff.2 (.finish hw)) (.refl _)⟩
  | act change rest ih =>
    obtain ⟨as, memory, hrun⟩ :=
      @ih s.shared.memory (s.set i { s.shared with memory := change s.shared.memory }
        (.running index (rest s.shared.memory))) (System.set_own_self ..)
    refine ⟨(i, ()) :: as, memory, .cons (step_iff.2 (.act hw)) ?_⟩
    have hset : (s.set i { s.shared with memory := change s.shared.memory }
        (.running index (rest s.shared.memory))).set i { s.shared with memory := memory } .drawing =
        s.set i { s.shared with memory := memory } .drawing := by
      rw [System.set, System.set, System.set, Function.update_idem]
    rw [← hset]
    exact hrun

theorem exists_progress {ps : List (Program σ)} (hd : ¬ Done s) :
    ∃ as s', (pool n ps m).Run s as s' ∧ work ps s' < work ps s := by
  obtain ⟨i, hi⟩ := not_forall.1 hd
  cases hw : s.own i with
  | drawing =>
    cases hp : ps[s.shared.next]? with
    | some p =>
      have hlt := (List.getElem?_eq_some_iff.1 hp).1
      exact ⟨[(i, ())], _, .single (step_iff.2 (.draw hw hp)),
        work_lt hw (by simp only [Worker.work]; omega)⟩
    | none =>
      have hle := List.getElem?_eq_none_iff.1 hp
      exact ⟨[(i, ())], _, .single (step_iff.2 (.leave hw hle)),
        work_lt hw (by simp only [Worker.work]; omega)⟩
  | running index p =>
    obtain ⟨as, memory, hrun⟩ := @run_program _ p m n s i index ps hw
    exact ⟨as, _, hrun, work_lt hw (by simp only [Worker.work]; omega)⟩
  | returned => exact absurd hw hi

theorem exists_done {ps : List (Program σ)} (s : Pool n σ) :
    ∃ as s', (pool n ps m).Run s as s' ∧ Done s' := by
  induction hk : work ps s using Nat.strong_induction_on generalizing s with
  | _ k ih =>
    subst hk
    by_cases hd : Done s
    · exact ⟨[], s, .refl s, hd⟩
    · obtain ⟨as, s', hrun, hlt⟩ := @exists_progress _ m n s ps hd
      obtain ⟨as', s'', hrun', hdone⟩ := ih _ hlt s' rfl
      exact ⟨as ++ as', s'', hrun.append hrun', hdone⟩

end Runs

end ConflictFree
