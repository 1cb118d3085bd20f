import Nightcap.Compat.Rwlock

/-! The rwlock excludes writers from everybody else, counts its readers and loses no wake-up. -/
namespace Nightcap.Compat.Rwlock

open Transition Threads

/-! The state word. -/

/-- The word without the two pending bits: the writer's bit over the number of readers. -/
def core (state : Word) : Nat := state.toNat / 4

variable {x y : Word}

theorem ownedByWriter_iff : ownedByWriter x = true ↔ 2 ^ 29 ≤ core x := by
  unfold ownedByWriter core
  rw [show x.slt 0 = true ↔ x.msb = true from BitVec.slt_zero_iff_msb_cond,
    BitVec.msb_eq_true_iff_two_mul_ge]
  omega

theorem ownedByWriter_eq_false_iff : ownedByWriter x = false ↔ core x < 2 ^ 29 := by
  rw [← Bool.not_eq_true, ownedByWriter_iff]
  omega

theorem ownedByReaders_iff : ownedByReaders x = true ↔ 0 < core x ∧ core x < 2 ^ 29 := by
  have hstep : kRwlockReaderStep.toInt = 4 := by decide
  have := x.isLt
  unfold ownedByReaders core
  rw [BitVec.sle_iff_toInt_le, hstep, BitVec.toInt_eq_toNat_cond]
  split <;> omega

/-- Nobody owns the lock. -/
theorem core_eq_zero_iff :
    (!ownedByWriter x && !ownedByReaders x) = true ↔ core x = 0 := by
  rw [Bool.and_eq_true, Bool.not_eq_true', Bool.not_eq_true', ownedByWriter_eq_false_iff,
    ← Bool.not_eq_true, ownedByReaders_iff]
  omega

theorem core_add (h : core x < 2 ^ 29) : core (x + kRwlockReaderStep) = core x + 1 := by
  unfold core kRwlockReaderStep at *
  rw [BitVec.toNat_add]
  simp
  omega

theorem core_sub (h : 0 < core x) : core (x - kRwlockReaderStep) + 1 = core x := by
  unfold core kRwlockReaderStep at *
  rw [BitVec.toNat_sub]
  simp
  omega

theorem core_or : core (x ||| y) = core x ||| core y := by
  unfold core
  rw [BitVec.toNat_or, ← Nat.shiftRight_eq_div_pow _ 2, Nat.shiftRight_or_distrib,
    Nat.shiftRight_eq_div_pow, Nat.shiftRight_eq_div_pow]

theorem core_pendingReaders : core (x ||| kRwlockPendingReadersFlag) = core x := by
  rw [core_or, show core kRwlockPendingReadersFlag = 0 by decide, Nat.or_zero]

theorem core_pendingWriters : core (x ||| kRwlockPendingWritersFlag) = core x := by
  rw [core_or, show core kRwlockPendingWritersFlag = 0 by decide, Nat.or_zero]

theorem core_takeWriter (h : core x = 0) : core (x ||| kRwlockWriterFlag) = 2 ^ 29 := by
  rw [core_or, h, Nat.zero_or]
  decide

theorem core_dropWriter (h : core x = 2 ^ 29) : core (x &&& ~~~kRwlockWriterFlag) = 0 := by
  have hflag : (~~~kRwlockWriterFlag).toNat = 2 ^ 31 - 1 := by decide
  have hx := x.isLt
  unfold core at *
  rw [BitVec.toNat_and, hflag, Nat.and_two_pow_sub_one_eq_mod]
  omega

/-- The last reader. -/
theorem sshiftRight_eq_one_iff (h : core x < 2 ^ 29) : x.sshiftRight 2 = 1 ↔ core x = 1 := by
  have hx := x.isLt
  have hmsb : x.msb = false := by
    rw [← Bool.not_eq_true, BitVec.msb_eq_true_iff_two_mul_ge]
    unfold core at h
    omega
  rw [BitVec.sshiftRight_eq_of_msb_false hmsb, ← BitVec.toNat_inj]
  simp [core, Nat.shiftRight_eq_div_pow]

/-! What an access does. -/

variable {τ : Type*} {tid : τ → Word} {t u : τ} {s s' : Shared τ} {th th' : Thread}
  {a : Act} {place : Place} {first disturbed : Bool}

/-- What a thread knows from where it is. -/
def Thread.Placed (th : Thread) : Prop :=
  match th.place with
  | .rdExchange _ oldState => core oldState + 1 < 2 ^ 29
  | .rdPend state | .rdWait state | .wrPend state | .wrWait state => core state ≠ 0
  | .wrExchange _ oldState => core oldState = 0
  | .wrStoreTid | .unClearTid | .unFetchAnd => th.writes = true
  | .unFetchSub => 0 < th.reads
  | _ => True

/-- The ways a step changes the lock and what its thread holds. -/
inductive Effect (tid : τ → Word) (t : τ) (s : Shared τ) (th : Thread) : Shared τ → Thread → Prop
  /-- The owners stay. -/
  | quiet {s' : Shared τ} (place : Place) (hs : core s'.state = core s.state)
      (ht : s'.writerTid = s.writerTid)
      (hsleep : ∀ u ∈ s'.sleepers, u ∈ s.sleepers ∨ core s.state ≠ 0)
      (hw : th.place = .unWake → s'.sleepers = []) (hp : place ≠ .unFetchAnd) :
      Effect tid t s th s' { th with place }
  | takeRead (h : core s.state + 1 < 2 ^ 29) :
      Effect tid t s th { s with state := s.state + kRwlockReaderStep }
        { th with place := .returned .ok, reads := th.reads + 1 }
  | takeWrite (h : core s.state = 0) :
      Effect tid t s th { s with state := s.state ||| kRwlockWriterFlag }
        { th with place := .wrStoreTid, writes := true }
  | storeTid (h : th.writes = true) :
      Effect tid t s th { s with writerTid := tid t } { th with place := .returned .ok }
  | clearTid (h : th.writes = true) :
      Effect tid t s th { s with writerTid := 0 } { th with place := .unFetchAnd }
  | dropWrite (h : th.writes = true) (hp : th.place = .unFetchAnd) :
      Effect tid t s th { s with state := s.state &&& ~~~kRwlockWriterFlag }
        { th with place := .unWake, writes := false }
  | dropRead (h : 0 < th.reads) :
      Effect tid t s th { s with state := s.state - kRwlockReaderStep }
        { th with
          place := if s.state.sshiftRight 2 ≠ 1 then .returned .ok else .unWake
          reads := th.reads - 1 }

/-- A step that only goes to another place. -/
theorem Effect.go (hw : th.place ≠ .unWake) (hp : place ≠ .unFetchAnd) :
    Effect tid t s th s { th with place } :=
  .quiet place rfl rfl (fun _ hu => .inl hu) (fun h => absurd h hw) hp

/-- A pending bit is set. -/
theorem Effect.pend {flag oldState : Word} (hsame : s.state = oldState)
    (hcore : core (oldState ||| flag) = core oldState) (hw : th.place ≠ .unWake)
    (hp : place ≠ .unFetchAnd) :
    Effect tid t s th { s with state := oldState ||| flag } { th with place } :=
  .quiet place (hcore.trans (congrArg core hsame.symm)) rfl (fun _ hu => .inl hu)
    (fun h => absurd h hw) hp

theorem Effect.sleep (hcore : core s.state ≠ 0) (hw : th.place ≠ .unWake)
    (hp : place ≠ .unFetchAnd) :
    Effect tid t s th { s with sleepers := s.sleepers ++ [t] } { th with place } :=
  .quiet place rfl rfl (fun _ _ => .inr hcore) (fun h => absurd h hw) hp

theorem afterTryRdlock_placed :
    { th with place := afterTryRdlock first x }.Placed ∧ afterTryRdlock first x ≠ .unFetchAnd := by
  unfold afterTryRdlock tryRdlock
  cases hwriter : ownedByWriter x with
  | true => cases first <;> exact ⟨trivial, nofun⟩
  | false =>
    rw [ownedByWriter_eq_false_iff] at hwriter
    cases hreaders : ownedByReaders (x + kRwlockReaderStep) with
    | false => cases first <;> exact ⟨trivial, nofun⟩
    | true =>
      refine ⟨?_, nofun⟩
      have hnew := (ownedByReaders_iff.1 hreaders).2
      rwa [core_add hwriter] at hnew

theorem afterTryWrlock_placed :
    { th with place := afterTryWrlock first x }.Placed ∧ afterTryWrlock first x ≠ .unFetchAnd := by
  unfold afterTryWrlock
  split
  · rename_i hfree
    exact ⟨core_eq_zero_iff.1 hfree, nofun⟩
  · cases first <;> exact ⟨trivial, nofun⟩

/-- What a thread must know of the lock before its next access. -/
structure Informed (tid : τ → Word) (t : τ) (s : Shared τ) (th : Thread) : Prop where
  placed : th.Placed
  /-- A thread unlocks what it holds, or finds a writer. -/
  permitted : th.place = .unLoad → ownedByWriter s.state = false → 0 < th.reads
  writer : s.writerTid = tid t → th.writes = true

section

variable [DecidableEq τ]

theorem awaken_sleepers (h : awaken t s disturbed = some s') :
    s'.state = s.state ∧ s'.writerTid = s.writerTid ∧ ∀ u ∈ s'.sleepers, u ∈ s.sleepers := by
  unfold awaken at h
  split at h
  · split at h
    · cases h
      exact ⟨rfl, rfl, fun _ hu => List.mem_of_mem_erase hu⟩
    · cases h
  · cases h
    exact ⟨rfl, rfl, fun _ hu => hu⟩

theorem Effect.awaken (h : awaken t s disturbed = some s') (hw : th.place ≠ .unWake)
    (hp : place ≠ .unFetchAnd) : Effect tid t s th s' { th with place } := by
  obtain ⟨hstate, htid, hsleep⟩ := awaken_sleepers h
  exact .quiet place (by rw [hstate]) htid (fun u hu => .inl (hsleep u hu))
    (fun h => absurd h hw) hp

/-! What each access does. -/

theorem rdExchange_effect {oldState : Word} (h : access tid t s th disturbed = some (s', th'))
    (hi : Informed tid t s th) (hp : th.place = .rdExchange first oldState) :
    Effect tid t s th s' th' ∧ th'.Placed := by
  have hplaced := hi.placed
  simp only [Thread.Placed, hp] at hplaced
  simp only [access, hp] at h
  split at h
  · rename_i hsame
    cases h
    rw [← hsame.1] at hplaced ⊢
    exact ⟨.takeRead hplaced, trivial⟩
  · cases h
    obtain ⟨hnext, hne⟩ := @afterTryRdlock_placed s.state th first
    exact ⟨.go (by rw [hp]; nofun) hne, hnext⟩

theorem rdReload_effect (h : access tid t s th disturbed = some (s', th'))
    (hp : th.place = .rdReload) : Effect tid t s th s' th' ∧ th'.Placed := by
  simp only [access, hp] at h
  cases h
  cases hwriter : ownedByWriter s.state with
  | false => exact ⟨.go (by rw [hp]; nofun) nofun, trivial⟩
  | true =>
    refine ⟨.go (by rw [hp]; nofun) nofun, ?_⟩
    have := ownedByWriter_iff.1 hwriter
    show core s.state ≠ 0
    omega

theorem rdPend_effect {oldState : Word} (h : access tid t s th disturbed = some (s', th'))
    (hi : Informed tid t s th) (hp : th.place = .rdPend oldState) :
    Effect tid t s th s' th' ∧ th'.Placed := by
  have hplaced := hi.placed
  simp only [Thread.Placed, hp] at hplaced
  simp only [access, hp] at h
  split at h
  · rename_i hsame
    cases h
    refine ⟨.pend hsame.1 core_pendingReaders (by rw [hp]; nofun) nofun, ?_⟩
    exact fun h0 => hplaced (core_pendingReaders.symm.trans h0)
  · cases h
    exact ⟨.go (by rw [hp]; nofun) nofun, trivial⟩

theorem rdWait_effect {pending : Word} (h : access tid t s th disturbed = some (s', th'))
    (hi : Informed tid t s th) (hp : th.place = .rdWait pending) :
    Effect tid t s th s' th' ∧ th'.Placed := by
  have hplaced := hi.placed
  simp only [Thread.Placed, hp] at hplaced
  simp only [access, hp] at h
  split at h
  · rename_i hsame
    cases h
    rw [← hsame] at hplaced
    exact ⟨.sleep hplaced (by rw [hp]; nofun) nofun, trivial⟩
  · cases h
    exact ⟨.go (by rw [hp]; nofun) nofun, trivial⟩

theorem rdAsleep_effect (h : access tid t s th disturbed = some (s', th'))
    (hp : th.place = .rdAsleep) : Effect tid t s th s' th' ∧ th'.Placed := by
  simp only [access, hp] at h
  obtain ⟨s₁, hs, heq⟩ := Option.map_eq_some_iff.1 h
  cases heq
  exact ⟨.awaken hs (by rw [hp]; nofun) nofun, trivial⟩

theorem wrExchange_effect {oldState : Word} (h : access tid t s th disturbed = some (s', th'))
    (hi : Informed tid t s th) (hp : th.place = .wrExchange first oldState) :
    Effect tid t s th s' th' ∧ th'.Placed := by
  have hplaced := hi.placed
  simp only [Thread.Placed, hp] at hplaced
  simp only [access, hp] at h
  split at h
  · rename_i hsame
    cases h
    rw [← hsame.1] at hplaced ⊢
    exact ⟨.takeWrite hplaced, rfl⟩
  · cases h
    obtain ⟨hnext, hne⟩ := @afterTryWrlock_placed s.state th first
    exact ⟨.go (by rw [hp]; nofun) hne, hnext⟩

theorem wrReload_effect (h : access tid t s th disturbed = some (s', th'))
    (hp : th.place = .wrReload) : Effect tid t s th s' th' ∧ th'.Placed := by
  simp only [access, hp] at h
  cases h
  cases hfree : !ownedByWriter s.state && !ownedByReaders s.state with
  | true => exact ⟨.go (by rw [hp]; nofun) nofun, trivial⟩
  | false =>
    refine ⟨.go (by rw [hp]; nofun) nofun, ?_⟩
    show core s.state ≠ 0
    rw [ne_eq, ← core_eq_zero_iff, hfree]
    nofun

theorem wrPend_effect {oldState : Word} (h : access tid t s th disturbed = some (s', th'))
    (hi : Informed tid t s th) (hp : th.place = .wrPend oldState) :
    Effect tid t s th s' th' ∧ th'.Placed := by
  have hplaced := hi.placed
  simp only [Thread.Placed, hp] at hplaced
  simp only [access, hp] at h
  split at h
  · rename_i hsame
    cases h
    refine ⟨.pend hsame.1 core_pendingWriters (by rw [hp]; nofun) nofun, ?_⟩
    exact fun h0 => hplaced (core_pendingWriters.symm.trans h0)
  · cases h
    exact ⟨.go (by rw [hp]; nofun) nofun, trivial⟩

theorem wrWait_effect {pending : Word} (h : access tid t s th disturbed = some (s', th'))
    (hi : Informed tid t s th) (hp : th.place = .wrWait pending) :
    Effect tid t s th s' th' ∧ th'.Placed := by
  have hplaced := hi.placed
  simp only [Thread.Placed, hp] at hplaced
  simp only [access, hp] at h
  split at h
  · rename_i hsame
    cases h
    rw [← hsame] at hplaced
    exact ⟨.sleep hplaced (by rw [hp]; nofun) nofun, trivial⟩
  · cases h
    exact ⟨.go (by rw [hp]; nofun) nofun, trivial⟩

theorem wrAsleep_effect (h : access tid t s th disturbed = some (s', th'))
    (hp : th.place = .wrAsleep) : Effect tid t s th s' th' ∧ th'.Placed := by
  simp only [access, hp] at h
  obtain ⟨s₁, hs, heq⟩ := Option.map_eq_some_iff.1 h
  cases heq
  exact ⟨.awaken hs (by rw [hp]; nofun) nofun, trivial⟩

theorem unLoad_effect (h : access tid t s th disturbed = some (s', th'))
    (hi : Informed tid t s th) (hp : th.place = .unLoad) :
    Effect tid t s th s' th' ∧ th'.Placed := by
  simp only [access, hp] at h
  cases h
  cases hwriter : ownedByWriter s.state with
  | true => exact ⟨.go (by rw [hp]; nofun) nofun, trivial⟩
  | false =>
    cases hreaders : ownedByReaders s.state with
    | true => exact ⟨.go (by rw [hp]; nofun) nofun, hi.permitted hp hwriter⟩
    | false => exact ⟨.go (by rw [hp]; nofun) nofun, trivial⟩

theorem unTid_effect (h : access tid t s th disturbed = some (s', th'))
    (hi : Informed tid t s th) (hp : th.place = .unTid) :
    Effect tid t s th s' th' ∧ th'.Placed := by
  simp only [access, hp] at h
  cases h
  split
  · exact ⟨.go (by rw [hp]; nofun) nofun, trivial⟩
  · rename_i hmine
    exact ⟨.go (by rw [hp]; nofun) nofun, hi.writer (not_not.1 hmine)⟩

theorem unFetchSub_effect (h : access tid t s th disturbed = some (s', th'))
    (hi : Informed tid t s th) (hp : th.place = .unFetchSub) :
    Effect tid t s th s' th' ∧ th'.Placed := by
  have hplaced := hi.placed
  simp only [Thread.Placed, hp] at hplaced
  simp only [access, hp] at h
  cases h
  refine ⟨.dropRead hplaced, ?_⟩
  split <;> trivial

theorem access_effect (h : access tid t s th disturbed = some (s', th'))
    (hi : Informed tid t s th) : Effect tid t s th s' th' ∧ th'.Placed := by
  have hplaced := hi.placed
  cases hp : th.place with
  | returned result =>
    simp only [access, hp] at h
    cases h
  | rdLoad first =>
    simp only [access, hp] at h
    cases h
    obtain ⟨hnext, hne⟩ := @afterTryRdlock_placed s.state th first
    exact ⟨.go (by rw [hp]; nofun) hne, hnext⟩
  | rdExchange first oldState => exact rdExchange_effect h hi hp
  | rdReload => exact rdReload_effect h hp
  | rdPend oldState => exact rdPend_effect h hi hp
  | rdWait pending => exact rdWait_effect h hi hp
  | rdAsleep => exact rdAsleep_effect h hp
  | wrTid =>
    simp only [access, hp] at h
    cases h
    split <;> exact ⟨.go (by rw [hp]; nofun) nofun, trivial⟩
  | wrLoad first =>
    simp only [access, hp] at h
    cases h
    obtain ⟨hnext, hne⟩ := @afterTryWrlock_placed s.state th first
    exact ⟨.go (by rw [hp]; nofun) hne, hnext⟩
  | wrExchange first oldState => exact wrExchange_effect h hi hp
  | wrStoreTid =>
    simp only [Thread.Placed, hp] at hplaced
    simp only [access, hp] at h
    cases h
    exact ⟨.storeTid hplaced, trivial⟩
  | wrReload => exact wrReload_effect h hp
  | wrPend oldState => exact wrPend_effect h hi hp
  | wrWait pending => exact wrWait_effect h hi hp
  | wrAsleep => exact wrAsleep_effect h hp
  | unLoad => exact unLoad_effect h hi hp
  | unTid => exact unTid_effect h hi hp
  | unClearTid =>
    simp only [Thread.Placed, hp] at hplaced
    simp only [access, hp] at h
    cases h
    exact ⟨.clearTid hplaced, hplaced⟩
  | unFetchAnd =>
    simp only [Thread.Placed, hp] at hplaced
    simp only [access, hp] at h
    cases h
    exact ⟨.dropWrite hplaced hp, trivial⟩
  | unFetchSub => exact unFetchSub_effect h hi hp
  | unWake =>
    simp only [access, hp] at h
    cases h
    exact ⟨.quiet _ rfl rfl nofun (fun _ => rfl) nofun, trivial⟩

theorem act_effect (h : act tid t s th a = some (s', th')) (hi : Informed tid t s th) :
    Effect tid t s th s' th' ∧ th'.Placed := by
  cases a with
  | access disturbed => exact access_effect h hi
  | call operation =>
    unfold act at h
    cases hp : th.place with
    | returned result =>
      simp only [hp] at h
      cases h
      cases operation <;> exact ⟨.go (by rw [hp]; nofun) nofun, trivial⟩
    | _ =>
      simp only [hp] at h
      cases h

variable {process : Process τ} {st : State τ}

/-- Whose thread id may be stored, after a step. -/
theorem tids_set (h : ∀ u, u ≠ t → (st.own u).writes = true →
      s'.writerTid = 0 ∨ s'.writerTid = process.tid u)
    (ht : th'.writes = true → s'.writerTid = 0 ∨ s'.writerTid = process.tid t) :
    ∀ u, ((st.set t s' th').own u).writes = true →
      (st.set t s' th').shared.writerTid = 0 ∨
        (st.set t s' th').shared.writerTid = process.tid u :=
  (System.forall_set (P := fun u (th : Thread) => th.writes = true →
    s'.writerTid = 0 ∨ s'.writerTid = process.tid u)).2 ⟨ht, h⟩

theorem placed_set (h : ∀ u, (st.own u).Placed) (ht : th'.Placed) :
    ∀ u, ((st.set t s' th').own u).Placed :=
  (System.forall_set (P := fun _ (th : Thread) => th.Placed)).2 ⟨ht, fun u _ => h u⟩

theorem cleared_set (h : ∀ u, u ≠ t → (st.own u).place = .unFetchAnd → s'.writerTid = 0)
    (ht : th'.place = .unFetchAnd → s'.writerTid = 0) :
    ∀ u, ((st.set t s' th').own u).place = .unFetchAnd →
      (st.set t s' th').shared.writerTid = 0 :=
  (System.forall_set (P := fun _ (th : Thread) => th.place = .unFetchAnd →
    s'.writerTid = 0)).2 ⟨ht, h⟩

end

/-! Runs. -/

variable [Fintype τ] {process : Process τ} {st st' : State τ}

/-- How many read locks the threads hold. -/
def readers (st : State τ) : Nat := ∑ t, (st.own t).reads

def writers (st : State τ) : Nat := ∑ t, (st.own t).writes.toNat

/-- The invariant of every run. -/
structure Sound (process : Process τ) (st : State τ) : Prop where
  word : core st.shared.state = 2 ^ 29 * writers st + readers st
  few : readers st < 2 ^ 29
  alone : writers st = 0 ∨ writers st = 1 ∧ readers st = 0
  tidFree : writers st = 0 → st.shared.writerTid = 0
  tidOwn : ∀ t, (st.own t).writes = true →
    st.shared.writerTid = 0 ∨ st.shared.writerTid = process.tid t
  cleared : ∀ t, (st.own t).place = .unFetchAnd → st.shared.writerTid = 0
  placed : ∀ t, (st.own t).Placed
  woken : ∀ t ∈ st.shared.sleepers, core st.shared.state ≠ 0 ∨ ∃ u, (st.own u).place = .unWake

theorem reads_le : (st.own t).reads ≤ readers st :=
  Finset.single_le_sum (f := fun t => (st.own t).reads) (fun _ _ => Nat.zero_le _)
    (Finset.mem_univ t)

theorem writes_le : (st.own t).writes.toNat ≤ writers st :=
  Finset.single_le_sum (f := fun t => (st.own t).writes.toNat) (fun _ _ => Nat.zero_le _)
    (Finset.mem_univ t)

theorem Sound.unique (h : Sound process st) (ht : (st.own t).writes = true)
    (hu : (st.own u).writes = true) : t = u := by
  classical
  by_contra hne
  have hpair : ∑ v ∈ {t, u}, (st.own v).writes.toNat ≤ writers st :=
    Finset.sum_le_sum_of_subset (Finset.subset_univ _)
  rw [Finset.sum_pair hne, ht, hu] at hpair
  have := h.alone
  simp only [Bool.toNat_true] at hpair
  omega

theorem Sound.writer (h : Sound process st) (ht : (st.own t).writes = true) :
    writers st = 1 ∧ readers st = 0 := by
  have hle := @writes_le _ t _ st
  rw [ht, Bool.toNat_true] at hle
  have := h.alone
  omega

theorem exists_writer (h : writers st ≠ 0) : ∃ t, (st.own t).writes = true := by
  obtain ⟨t, -, ht⟩ := Finset.exists_ne_zero_of_sum_ne_zero h
  exact ⟨t, Bool.eq_true_of_not_eq_false fun hf => ht (by rw [hf]; rfl)⟩

/-- A step is allowed unless it is the unlock of a lock that the thread does not hold and no writer
holds either. -/
def Permitted (st : State τ) (a : τ × Act) : Prop :=
  (st.own a.1).place = .unLoad →
    0 < (st.own a.1).reads ∨ ∃ u, (st.own u).writes = true

theorem Sound.informed (h : Sound process st) (hpermitted : Permitted st (t, a)) :
    Informed process.tid t st.shared (st.own t) := by
  refine ⟨h.placed t, fun hp hwriter => ?_, fun htid => ?_⟩
  · rcases hpermitted hp with hreads | ⟨u, hu⟩
    · exact hreads
    · rw [ownedByWriter_eq_false_iff, h.word, (h.writer hu).1] at hwriter
      omega
  · obtain ⟨u, hu⟩ : ∃ u, (st.own u).writes = true := by
      refine exists_writer fun hfree => ?_
      exact process.tid_ne_zero t (htid.symm.trans (h.tidFree hfree))
    rcases h.tidOwn u hu with hzero | hmine
    · exact absurd (htid.symm.trans hzero) (process.tid_ne_zero t)
    · rwa [process.tid_injective (htid.symm.trans hmine)]

theorem initial_sound : Sound process (⟨{}, fun _ => {}⟩ : State τ) := by
  have hreaders : readers (⟨{}, fun _ => {}⟩ : State τ) = 0 := Finset.sum_const_zero
  have hwriters : writers (⟨{}, fun _ => {}⟩ : State τ) = 0 := Finset.sum_const_zero
  refine ⟨?_, ?_, .inl hwriters, fun _ => rfl, fun _ => nofun, fun _ => nofun, fun _ => trivial,
    nofun⟩
  · rw [hreaders, hwriters]
    exact show core 0 = 0 by decide
  · rw [hreaders]
    decide

theorem Sound.writers_ne_zero (h : Sound process st) :
    writers st ≠ 0 ↔ ownedByWriter st.shared.state = true := by
  have hword := h.word
  have halone := h.alone
  have hfew := h.few
  rw [ownedByWriter_iff]
  omega

/-- The bits of the state word. -/
theorem Sound.bits (h : Sound process st) :
    (st.shared.state.extractLsb' 2 29).toNat = readers st ∧
      (st.shared.state.getLsbD 31 = true ↔ ∃ t, (st.own t).writes = true) := by
  have hword := h.word
  have hfew := h.few
  constructor
  · rw [BitVec.extractLsb'_toNat, Nat.shiftRight_eq_div_pow]
    unfold core at hword
    omega
  · have hmsb : st.shared.state.getLsbD 31 = ownedByWriter st.shared.state :=
      (BitVec.msb_eq_getLsbD_last _).symm.trans BitVec.slt_zero_eq_msb.symm
    rw [hmsb, ← h.writers_ne_zero]
    constructor
    · exact exists_writer
    · rintro ⟨t, ht⟩
      rw [(h.writer ht).1]
      decide

theorem Sound.owned (h : Sound process st) (hcore : core st.shared.state ≠ 0) :
    ∃ t, (st.own t).writes = true ∨ 0 < (st.own t).reads := by
  by_cases hw : writers st = 0
  · have hr : readers st ≠ 0 := by
      have := h.word
      omega
    obtain ⟨t, -, ht⟩ := Finset.exists_ne_zero_of_sum_ne_zero hr
    exact ⟨t, .inr (Nat.pos_of_ne_zero ht)⟩
  · obtain ⟨t, ht⟩ := exists_writer hw
    exact ⟨t, .inl ht⟩

theorem Sound.stranger (h : Sound process st) (ht : (st.own t).writes = false) :
    st.shared.writerTid ≠ process.tid t := by
  intro htid
  by_cases hw : writers st = 0
  · exact process.tid_ne_zero t (htid.symm.trans (h.tidFree hw))
  · obtain ⟨u, hu⟩ := exists_writer hw
    rcases h.tidOwn u hu with hzero | hu'
    · exact process.tid_ne_zero t (htid.symm.trans hzero)
    · obtain rfl := process.tid_injective (htid.symm.trans hu')
      exact absurd (hu.symm.trans ht) (by decide)

variable [DecidableEq τ]

theorem readers_set : readers (st.set t s th) + (st.own t).reads = readers st + th.reads :=
  System.sum_set fun th : Thread => th.reads

theorem writers_set :
    writers (st.set t s th) + (st.own t).writes.toNat = writers st + th.writes.toNat :=
  System.sum_set fun th : Thread => th.writes.toNat

/-- Who sleeps while nobody owns the lock is about to be woken, before the step and after it. -/
theorem Sound.quiet (h : Sound process st) (hs : core s'.state = core st.shared.state)
    (htid : s'.writerTid = st.shared.writerTid)
    (hsleep : ∀ u ∈ s'.sleepers, u ∈ st.shared.sleepers ∨ core st.shared.state ≠ 0)
    (hwake : (st.own t).place = .unWake → s'.sleepers = []) (hne : place ≠ .unFetchAnd)
    (hp : { st.own t with place }.Placed) :
    Sound process (st.set t s' { st.own t with place }) := by
  have hr := @readers_set _ t s' { st.own t with place } _ st _
  have hw := @writers_set _ t s' { st.own t with place } _ st _
  simp only [Nat.add_right_cancel_iff] at hr hw
  refine ⟨?_, ?_, ?_, ?_, ?_, ?_, placed_set h.placed hp, ?_⟩
  · rw [hr, hw, ← h.word]
    exact hs
  · rw [hr]
    exact h.few
  · rw [hr, hw]
    exact h.alone
  · rw [hw]
    exact fun hfree => htid.trans (h.tidFree hfree)
  · exact tids_set (fun u _ => htid ▸ h.tidOwn u) (htid ▸ h.tidOwn t)
  · exact cleared_set (fun u _ hu => htid.trans (h.cleared u hu)) (fun hu => absurd hu hne)
  · intro u hu
    by_cases howned : core st.shared.state = 0
    · right
      rcases hsleep u hu with hold | hnew
      · rcases h.woken u hold with hne | ⟨v, hv⟩
        · exact absurd howned hne
        · have hvt : v ≠ t := by
            rintro rfl
            rw [System.set_shared, hwake hv] at hu
            cases hu
          exact ⟨v, by rw [System.set_own_of_ne hvt]; exact hv⟩
      · exact absurd howned hnew
    · left
      rw [System.set_shared, hs]
      exact howned

theorem Sound.takeRead (h : Sound process st) (hmore : core st.shared.state + 1 < 2 ^ 29)
    (hs : s'.state = st.shared.state + kRwlockReaderStep)
    (htid : s'.writerTid = st.shared.writerTid)
    (hreads : th'.reads = (st.own t).reads + 1) (hwrites : th'.writes = (st.own t).writes)
    (hne : th'.place ≠ .unFetchAnd) (hp : th'.Placed) : Sound process (st.set t s' th') := by
  have hr := @readers_set _ t s' th' _ st _
  have hw := @writers_set _ t s' th' _ st _
  have hword := h.word
  have hcore : core s'.state = core st.shared.state + 1 := by
    rw [hs]
    exact core_add (by omega)
  rw [hwrites, Nat.add_right_cancel_iff] at hw
  refine ⟨?_, ?_, ?_, ?_, ?_, ?_, placed_set h.placed hp, ?_⟩
  · refine hcore.trans ?_
    omega
  · omega
  · left
    omega
  · rw [hw]
    exact fun hfree => htid.trans (h.tidFree hfree)
  · refine tids_set (fun u _ => htid ▸ h.tidOwn u) ?_
    rw [hwrites, htid]
    exact h.tidOwn t
  · exact cleared_set (fun u _ hu => htid.trans (h.cleared u hu)) (fun hu => absurd hu hne)
  · intro u _
    left
    exact fun h0 => nomatch hcore.symm.trans h0

theorem Sound.takeWrite (h : Sound process st) (hfree : core st.shared.state = 0)
    (hs : s'.state = st.shared.state ||| kRwlockWriterFlag)
    (htid : s'.writerTid = st.shared.writerTid) (hreads : th'.reads = (st.own t).reads)
    (hwrites : th'.writes = true) (hp : th'.Placed) : Sound process (st.set t s' th') := by
  have hr := @readers_set _ t s' th' _ st _
  have hw := @writers_set _ t s' th' _ st _
  have hword := h.word
  have hnone : writers st = 0 ∧ readers st = 0 := by omega
  have hzero : s'.writerTid = 0 := htid.trans (h.tidFree hnone.1)
  have hidle : (st.own t).writes.toNat = 0 := by
    have := @writes_le _ t _ st
    omega
  have hcore : core s'.state = 2 ^ 29 := by
    rw [hs]
    exact core_takeWriter hfree
  rw [hreads, Nat.add_right_cancel_iff] at hr
  rw [hwrites, Bool.toNat_true] at hw
  refine ⟨?_, ?_, ?_, ?_, ?_, ?_, placed_set h.placed hp, ?_⟩
  · refine hcore.trans ?_
    omega
  · omega
  · right
    omega
  · exact fun _ => hzero
  · exact tids_set (fun _ _ _ => .inl hzero) (fun _ => .inl hzero)
  · exact cleared_set (fun _ _ _ => hzero) (fun _ => hzero)
  · intro u _
    left
    exact fun h0 => nomatch hcore.symm.trans h0

/-- What the writer does to the stored thread id. -/
theorem Sound.storeWriterTid (h : Sound process st) (hmine : (st.own t).writes = true)
    (hs : s'.state = st.shared.state) (hid : s'.writerTid = 0 ∨ s'.writerTid = process.tid t)
    (hreads : th'.reads = (st.own t).reads) (hwrites : th'.writes = (st.own t).writes)
    (hclear : th'.place = .unFetchAnd → s'.writerTid = 0) (hp : th'.Placed) :
    Sound process (st.set t s' th') := by
  obtain ⟨hone, hnoreader⟩ := h.writer hmine
  have hr := @readers_set _ t s' th' _ st _
  have hw := @writers_set _ t s' th' _ st _
  rw [hreads, Nat.add_right_cancel_iff] at hr
  rw [hwrites, Nat.add_right_cancel_iff] at hw
  refine ⟨?_, ?_, ?_, ?_, ?_, ?_, placed_set h.placed hp, ?_⟩
  · rw [hr, hw, System.set_shared, hs]
    exact h.word
  · rw [hr]
    exact h.few
  · rw [hr, hw]
    exact h.alone
  · rw [hw, hone]
    nofun
  · exact tids_set (fun u hne hu => absurd (h.unique hu hmine) hne) (fun _ => hid)
  · refine cleared_set (fun u hne hu => ?_) hclear
    have hother := h.placed u
    unfold Thread.Placed at hother
    rw [hu] at hother
    exact absurd (h.unique hother hmine) hne
  · intro u _
    left
    have hword := h.word
    rw [System.set_shared, hs]
    omega

theorem Sound.dropWrite (h : Sound process st) (hmine : (st.own t).writes = true)
    (hat : (st.own t).place = .unFetchAnd)
    (hs : s'.state = st.shared.state &&& ~~~kRwlockWriterFlag)
    (htid : s'.writerTid = st.shared.writerTid) (hreads : th'.reads = (st.own t).reads)
    (hwrites : th'.writes = false) (hplace : th'.place = .unWake) (hp : th'.Placed) :
    Sound process (st.set t s' th') := by
  obtain ⟨hone, hnoreader⟩ := h.writer hmine
  have hr := @readers_set _ t s' th' _ st _
  have hw := @writers_set _ t s' th' _ st _
  have hword := h.word
  have hzero : s'.writerTid = 0 := htid.trans (h.cleared t hat)
  have hcore : core s'.state = 0 := by
    rw [hs]
    exact core_dropWriter (by omega)
  rw [hreads, Nat.add_right_cancel_iff] at hr
  rw [hmine, hwrites, Bool.toNat_true, Bool.toNat_false] at hw
  refine ⟨?_, ?_, ?_, ?_, ?_, ?_, placed_set h.placed hp, ?_⟩
  · refine hcore.trans ?_
    omega
  · omega
  · left
    omega
  · exact fun _ => hzero
  · exact tids_set (fun _ _ _ => .inl hzero) (fun _ => .inl hzero)
  · exact cleared_set (fun _ _ _ => hzero) (fun _ => hzero)
  · intro u _
    right
    exact ⟨t, by rw [System.set_own_self]; exact hplace⟩

/-- The reader that leaves the lock to nobody goes on to wake the others. -/
theorem Sound.dropRead (h : Sound process st) (hmine : 0 < (st.own t).reads)
    (hs : s'.state = st.shared.state - kRwlockReaderStep)
    (htid : s'.writerTid = st.shared.writerTid) (hreads : th'.reads = (st.own t).reads - 1)
    (hwrites : th'.writes = (st.own t).writes)
    (hlast : st.shared.state.sshiftRight 2 = 1 → th'.place = .unWake)
    (hne : th'.place ≠ .unFetchAnd) (hp : th'.Placed) : Sound process (st.set t s' th') := by
  have hr := @readers_set _ t s' th' _ st _
  have hw := @writers_set _ t s' th' _ st _
  have hword := h.word
  have halone := h.alone
  have hfew := h.few
  have hle := @reads_le _ t _ st
  have hcore : core s'.state + 1 = core st.shared.state := by
    rw [hs]
    exact core_sub (by omega)
  rw [hwrites, Nat.add_right_cancel_iff] at hw
  refine ⟨?_, ?_, ?_, ?_, ?_, ?_, placed_set h.placed hp, ?_⟩
  · rw [System.set_shared]
    omega
  · omega
  · left
    omega
  · rw [hw]
    exact fun hfree => htid.trans (h.tidFree hfree)
  · refine tids_set (fun u _ => htid ▸ h.tidOwn u) ?_
    rw [hwrites, htid]
    exact h.tidOwn t
  · exact cleared_set (fun u _ hu => htid.trans (h.cleared u hu)) (fun hu => absurd hu hne)
  · intro u _
    by_cases hone : core st.shared.state = 1
    · right
      refine ⟨t, ?_⟩
      rw [System.set_own_self]
      exact hlast ((sshiftRight_eq_one_iff (by omega)).2 hone)
    · left
      rw [System.set_shared]
      omega

/-- Every effect of a thread that is where it should be keeps the invariant. -/
theorem Effect.sound (he : Effect process.tid t st.shared (st.own t) s' th') (h : Sound process st)
    (hp : th'.Placed) : Sound process (st.set t s' th') := by
  cases he with
  | quiet place hs htid hsleep hwake hne => exact h.quiet hs htid hsleep hwake hne hp
  | takeRead hmore => exact h.takeRead hmore rfl rfl rfl rfl nofun hp
  | takeWrite hfree => exact h.takeWrite hfree rfl rfl rfl rfl hp
  | storeTid hmine => exact h.storeWriterTid hmine rfl (.inr rfl) rfl rfl nofun hp
  | clearTid hmine => exact h.storeWriterTid hmine rfl (.inl rfl) rfl rfl (fun _ => rfl) hp
  | dropWrite hmine hat => exact h.dropWrite hmine hat rfl rfl rfl rfl rfl hp
  | dropRead hmine =>
    refine h.dropRead hmine rfl rfl rfl rfl (fun hone => if_neg (not_not.2 hone)) ?_ hp
    show (if _ then _ else _) ≠ _
    split <;> nofun

/-- Runs in which threads unlock what they hold, or find a writer. -/
def properRuns (process : Process τ) : LTS (State τ) (τ × Act) :=
  (system process).restrict Permitted

theorem reachable_sound (h : (properRuns process).Reachable st) : Sound process st := by
  refine h.invariant (I := Sound process) ?_ ?_
  · rintro _ rfl
    exact initial_sound
  · rintro st ⟨t, a⟩ _ ⟨⟨s', th', hact, rfl⟩, hpermitted⟩ hs
    obtain ⟨heffect, hplaced⟩ := act_effect hact (hs.informed hpermitted)
    exact heffect.sound hs hplaced

/-- At most one thread has the write lock, and then nobody a read lock; the state word and the
stored thread id tell who does; who sleeps while nobody does is about to be woken; and the unlock of
a thread that is not the writer is refused, in its two accesses, and changes nothing. -/
theorem lock_exclusive (h : (properRuns process).Reachable st) :
    (∀ t u, (st.own t).writes = true →
      ((st.own u).writes = true → t = u) ∧ (st.own u).reads = 0) ∧
    ((st.shared.state.extractLsb' 2 29).toNat = readers st ∧
      (st.shared.state.getLsbD 31 = true ↔ ∃ t, (st.own t).writes = true)) ∧
    (st.shared.writerTid = 0 ∨
      ∃ t, (st.own t).writes = true ∧ st.shared.writerTid = process.tid t) ∧
    (∀ u ∈ st.shared.sleepers, (∃ t, (st.own t).writes = true ∨ 0 < (st.own t).reads) ∨
      ∃ t, (st.own t).place = .unWake) ∧
    ∀ t disturbed, (st.own t).writes = false →
      ((st.own t).place = .unLoad → (∃ u, (st.own u).writes = true) →
        access process.tid t st.shared (st.own t) disturbed =
          some (st.shared, { st.own t with place := .unTid })) ∧
      ((st.own t).place = .unTid →
        access process.tid t st.shared (st.own t) disturbed =
          some (st.shared, { st.own t with place := .returned .EPERM })) := by
  have hs := reachable_sound h
  refine ⟨fun t u ht => ⟨fun hu => hs.unique ht hu, ?_⟩, hs.bits, ?_, ?_, ?_⟩
  · have hle := @reads_le _ u _ st
    have := (hs.writer ht).2
    omega
  · by_cases hw : writers st = 0
    · exact .inl (hs.tidFree hw)
    · obtain ⟨t, ht⟩ := exists_writer hw
      rcases hs.tidOwn t ht with hzero | hmine
      · exact .inl hzero
      · exact .inr ⟨t, ht, hmine⟩
  · intro u hu
    rcases hs.woken u hu with howned | hwake
    · exact .inl (hs.owned howned)
    · exact .inr hwake
  · intro t disturbed ht
    constructor
    · rintro hp ⟨u, hu⟩
      have hwriter : ownedByWriter st.shared.state = true := by
        rw [← hs.writers_ne_zero, (hs.writer hu).1]
        decide
      simp only [access, hp, hwriter, if_true]
    · intro hp
      simp only [access, hp, ne_eq, hs.stranger ht, not_false_eq_true, if_true]

/-- A writer in, and its lock seen by another thread. -/
theorem lock_exclusive_writer : ∃ st : State (Fin 2), (st.own 0).writes = true ∧
    (st.own 1).reads = 0 := by
  let process : Process (Fin 2) := ⟨fun t => if t = 0 then 1 else 2, by decide, by decide⟩
  have hrun : ∃ st, (properRuns process).Reachable st ∧ (st.own 0).writes = true :=
    ⟨_, ⟨_, [(0, .call .wrlock), (0, .access false), (0, .access false), (0, .access false)], rfl,
      .cons ⟨⟨_, _, rfl, rfl⟩, nofun⟩ (.cons ⟨⟨_, _, rfl, rfl⟩, nofun⟩
        (.cons ⟨⟨_, _, rfl, rfl⟩, nofun⟩ (.cons ⟨⟨_, _, rfl, rfl⟩, nofun⟩ (.refl _))))⟩, rfl⟩
  obtain ⟨st, hst, hwrites⟩ := hrun
  exact ⟨st, hwrites, ((lock_exclusive hst).1 0 1 hwrites).2⟩

end Nightcap.Compat.Rwlock
