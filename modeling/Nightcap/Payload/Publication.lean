import Nightcap.Payload.Store
import Nightcap.Lib.Transition

/-! What `PublishActivation` leaves behind, whichever of its steps fail. -/
namespace Nightcap.Payload

open Utf8 Ascii FileTree Disk Transition

variable {s s' t : Store} {d d' : Disk} {n m : FileName} {e : Option Entry} {r : Option String}
  {contents old payloadId : Bytes} {previous : Option Bytes} {parse : Bytes → Option Json}

def FileName.Lasting (n : FileName) : Prop := ∀ pid generation, n ≠ .temporary pid generation

/-- The two stores differ in temporary files at most. -/
structure Agree (s s' : Store) : Prop where
  files : ∀ n : FileName, n.Lasting → s'.files n = s.files n
  payloads : s'.payloads = s.payloads
  quarantine : s'.quarantine = s.quarantine

theorem Agree.refl (s : Store) : Agree s s := ⟨fun _ _ => rfl, rfl, rfl⟩

theorem Agree.of_eq (h : s' = s) : Agree s s' := h ▸ .refl s

theorem Agree.trans (h : Agree s t) (h' : Agree t s') : Agree s s' where
  files n hn := (h'.files n hn).trans (h.files n hn)
  payloads := h'.payloads.trans h.payloads
  quarantine := h'.quarantine.trans h.quarantine

theorem Agree.put (h : Agree s t) (n : FileName) (e : Option Entry) :
    Agree (s.put n e) (t.put n e) where
  files m hm := by
    by_cases hmn : m = n
    · simp [Store.put, hmn]
    · simpa [Store.put, hmn] using h.files m hm
  payloads := h.payloads
  quarantine := h.quarantine

theorem Agree.temporary (s : Store) (pid generation : Nat) (e : Option Entry) :
    Agree s (s.put (.temporary pid generation) e) where
  files n hn := by simp [Store.put, hn pid generation]
  payloads := rfl
  quarantine := rfl

@[simp] theorem lasting_current : FileName.current.Lasting := nofun

@[simp] theorem lasting_previousGood : FileName.previousGood.Lasting := nofun

@[simp] theorem lasting_previousRecovery : FileName.previousRecovery.Lasting := nofun

@[simp] theorem lasting_absentRecovery : FileName.absentRecovery.Lasting := nofun

/-! One system call, one file. -/

theorem inspect_cases (d : Disk) (n : FileName) : (d.inspect n).2.store = d.store ∧
    ∀ e, (d.inspect n).1 = .ok e → e = d.store.files n := by
  unfold inspect
  split
  · next h => exact ⟨store_of_ask h, nofun⟩
  · next h =>
    have hs := store_of_ask h
    exact ⟨hs, fun e he => by rw [← Except.ok.inj he, hs]⟩

/-- Either done, which leads to `t`, or failed with the lasting files of `s` as they were. -/
inductive Changed (s t : Store) : Option String × Disk → Prop
  | done {d : Disk} (h : Agree t d.store) : Changed s t (none, d)
  | failed {d : Disk} (message : String) (h : Agree s d.store) : Changed s t (some message, d)

theorem remove_changed (d : Disk) (n : FileName) :
    Changed d.store (d.store.put n none) (d.remove n) := by
  unfold Disk.remove
  split
  · next h =>
    refine .done (.of_eq ?_)
    rw [Store.put, ← h, Function.update_eq_self]
  · exact .failed _ (.refl _)
  · split
    · next h => exact .failed _ (.of_eq (store_of_ask h))
    · next h =>
      refine .done (.of_eq ?_)
      simp only [Disk.put, store_of_ask h]

theorem readRegular_cases (d : Disk) (n : FileName) (missingOk : Bool) :
    (readRegular d n missingOk).2.store = d.store ∧
      ∀ contents, (readRegular d n missingOk).1 = .ok contents →
        d.store.files n = some (.regular contents) ∨
          missingOk = true ∧ d.store.files n = none ∧ contents = [] := by
  unfold readRegular
  split
  · next h =>
    split
    · next hm => exact ⟨rfl, fun contents hc => .inr ⟨hm, h, (Except.ok.inj hc).symm⟩⟩
    · exact ⟨rfl, nofun⟩
  · exact ⟨rfl, nofun⟩
  · next entry _ hf =>
    split
    · next h => exact ⟨store_of_ask h, nofun⟩
    · next h₁ =>
      split
      · next h₂ => exact ⟨(store_of_ask h₂).trans (store_of_ask h₁), nofun⟩
      · next h₂ =>
        have hs := (store_of_ask h₂).trans (store_of_ask h₁)
        split
        · split
          · exact ⟨hs, nofun⟩
          · split
            · next h₃ => exact ⟨(store_of_ask h₃).trans hs, nofun⟩
            · next h₃ =>
              refine ⟨(store_of_ask h₃).trans hs, fun contents' hc => .inl ?_⟩
              rw [hf, Except.ok.inj hc]
        · exact ⟨hs, nofun⟩

theorem abandon_failed (h : Agree s d.store) (pid generation : Nat) (error : String) :
    Changed s t (abandon d (.temporary pid generation) error) := by
  unfold abandon
  have hr := remove_changed d (.temporary pid generation)
  refine .failed error (h.trans ?_)
  generalize d.remove (.temporary pid generation) = r at hr ⊢
  cases hr with
  | done hr => exact (Agree.temporary d.store pid generation none).trans hr
  | failed _ hr => exact hr

/-- An atomic write puts the whole contents in place, or changes no lasting file. -/
theorem writeAtomic_changed (d : Disk) (n : FileName) (contents : Bytes) :
    Changed d.store (d.store.put n (some (.regular contents))) (writeAtomic d n contents) := by
  unfold writeAtomic
  dsimp only
  split
  · next h₁ =>
    have hs := store_of_ask h₁
    exact .failed _ (.of_eq hs)
  · next d₁ h₁ =>
    have hs : d₁.store = d.store := by simpa using store_of_ask h₁
    split
    · exact .failed _ (.of_eq hs)
    · have hput : ∀ e, Agree d.store (d₁.store.put (.temporary d.pid (d.generation + 1)) e) :=
        fun e => (Agree.of_eq hs).trans (.temporary _ _ _ e)
      have hwrite : ∀ r d₂, (if contents.isEmpty = true then
            (none, d₁.put (.temporary d.pid (d.generation + 1)) (some (.regular [])))
          else (d₁.put (.temporary d.pid (d.generation + 1)) (some (.regular []))).ask) = (r, d₂) →
          Agree d.store d₂.store := by
        intro r d₂ h
        split at h
        · rw [← (Prod.mk.inj h).2]
          exact hput _
        · exact (hput _).trans (.of_eq (store_of_ask h))
      split
      · next d₂ h₂ => exact abandon_failed (hwrite _ _ h₂) ..
      · next d₂ h₂ =>
        have ha₂ := (hwrite _ _ h₂).trans
          (.temporary _ d.pid (d.generation + 1) (some (.regular contents)))
        split
        · next d₃ h₃ => exact abandon_failed (ha₂.trans (.of_eq (store_of_ask h₃))) ..
        · next d₃ h₃ =>
          have ha₃ := ha₂.trans (.of_eq (store_of_ask h₃))
          split
          · next d₄ h₄ => exact abandon_failed (ha₃.trans (.of_eq (store_of_ask h₄))) ..
          · next d₄ h₄ =>
            have ha₄ := ha₃.trans (.of_eq (store_of_ask h₄))
            split
            · exact .done ((ha₄.trans (.temporary _ _ _ none)).put n _)
            · exact abandon_failed ha₄ ..

/-! Manifests and recovery files. -/

theorem readManifest_cases (parse : Bytes → Option Json) (d : Disk)
    (n : FileName) (missingOk : Bool) :
    (readManifest parse d n missingOk).2.store = d.store ∧
      ∀ m, (readManifest parse d n missingOk).1 = .ok m →
        (m = ⟨[], []⟩ ∧
          (missingOk = true ∧ d.store.files n = none ∨ d.store.files n = some (.regular []))) ∨
        m.contents ≠ [] ∧ d.store.files n = some (.regular m.contents) ∧
          manifestId parse m.contents = .ok m.payloadId := by
  obtain ⟨hs, hok⟩ := readRegular_cases d n missingOk
  unfold readManifest
  split
  · next h =>
    rw [h] at hs
    exact ⟨hs, nofun⟩
  · next contents d₁ h =>
    rw [h] at hs hok
    split
    · next he =>
      refine ⟨hs, fun m hm => .inl ?_⟩
      obtain rfl := Except.ok.inj hm
      obtain rfl := List.isEmpty_iff.1 he
      rcases hok [] rfl with hf | ⟨hm, hf, _⟩
      · exact ⟨rfl, .inr hf⟩
      · exact ⟨rfl, .inl ⟨hm, hf⟩⟩
    · next he =>
      have hne : contents ≠ [] := by simpa using he
      split
      · exact ⟨hs, nofun⟩
      · next id hid =>
        refine ⟨hs, fun m hm => .inr ?_⟩
        obtain rfl := Except.ok.inj hm
        rcases hok contents rfl with hf | ⟨_, _, hc⟩
        · exact ⟨hne, hf, hid⟩
        · exact absurd hc hne

theorem readRegular_bounded {missingOk : Bool} (h : (readRegular d n missingOk).1 = .ok contents) :
    contents.length ≤ kMaximumManifest := by
  unfold readRegular at h
  split at h
  · split at h
    · cases h
      exact Nat.zero_le _
    · cases h
  · cases h
  · split at h
    · cases h
    · split at h
      · cases h
      · split at h
        · split at h
          · cases h
          · next hle =>
            split at h
            · cases h
            · cases h
              exact Nat.le_of_not_lt hle
        · cases h

theorem readManifest_bounded {m : Manifest} {missingOk : Bool}
    (h : (readManifest parse d n missingOk).1 = .ok m) : m.contents.length ≤ kMaximumManifest := by
  unfold readManifest at h
  split at h
  · cases h
  · next hr =>
    have hb := readRegular_bounded (congrArg Prod.fst hr)
    split at h
    · cases h
      exact Nat.zero_le _
    · split at h
      · cases h
      · cases h
        exact hb

theorem noRecovery_cases (d : Disk) (n : FileName) : (noRecovery d n).2.store = d.store ∧
    ((noRecovery d n).1 = none → d.store.files n = none) := by
  obtain ⟨hs, hok⟩ := inspect_cases d n
  unfold noRecovery
  split
  · next h =>
    rw [h] at hs
    exact ⟨hs, nofun⟩
  · next h =>
    rw [h] at hs
    exact ⟨hs, nofun⟩
  · next h =>
    rw [h] at hs hok
    exact ⟨hs, fun _ => (hok none rfl).symm⟩

theorem noPendingRecovery_cases (d : Disk) : (noPendingRecovery d).2.store = d.store ∧
    ((noPendingRecovery d).1 = none →
      d.store.files .previousRecovery = none ∧ d.store.files .absentRecovery = none) := by
  obtain ⟨hs, hok⟩ := noRecovery_cases d .previousRecovery
  unfold noPendingRecovery
  split
  · next h =>
    rw [h] at hs
    exact ⟨hs, nofun⟩
  · next d₁ h =>
    rw [h] at hs hok
    obtain ⟨hs', hok'⟩ := noRecovery_cases d₁ .absentRecovery
    rw [hs] at hs' hok'
    exact ⟨hs', fun hn => ⟨hok rfl, hok' hn⟩⟩

theorem readPrevious_cases (d : Disk) (h : e = d.store.files .previousGood) :
    (readPrevious d e).2.store = d.store ∧
      ∀ previous, (readPrevious d e).1 = .ok previous →
        d.store.files .previousGood = previous.map .regular := by
  unfold readPrevious
  split
  · refine ⟨rfl, fun previous hp => ?_⟩
    rw [← Except.ok.inj hp, ← h]
    rfl
  · obtain ⟨hs, hok⟩ := readRegular_cases d .previousGood false
    split
    · next hr =>
      rw [hr] at hs
      exact ⟨hs, nofun⟩
    · next contents d₁ hr =>
      rw [hr] at hs hok
      refine ⟨hs, fun previous hp => ?_⟩
      rw [← Except.ok.inj hp]
      rcases hok contents rfl with hf | ⟨hf, _⟩
      · exact hf
      · cases hf

theorem removeRecovery_changed (d : Disk) (n : FileName) (error : String) (published : Bool) :
    Changed d.store (d.store.put n none) (removeRecovery d n error published) := by
  unfold removeRecovery
  have hr := remove_changed d n
  generalize d.remove n = r at hr ⊢
  cases hr with
  | done h => exact .done h
  | failed _ h => exact .failed _ h

theorem restorePrevious_changed (d : Disk) (previous : Option Bytes) :
    Changed d.store (d.store.put .previousGood (previous.map .regular))
      (restorePrevious d previous) := by
  cases previous with
  | some contents => exact writeAtomic_changed d .previousGood contents
  | none =>
    unfold restorePrevious
    have hr := remove_changed d .previousGood
    generalize d.remove .previousGood = r at hr ⊢
    cases hr with
    | done h => exact .done h
    | failed _ h => exact .failed _ h

/-- The recovery file that is not written for this `previous_good.json`. -/
def otherRecovery (previous : Option Bytes) : FileName :=
  if previous.isSome then .absentRecovery else .previousRecovery

/-- Exactly one recovery file is left. It tells what `previous_good.json` was, and `current.json` is
wholly the old or wholly the new manifest. -/
structure PendingRecovery (s s' : Store) (contents : Bytes) (previous : Option Bytes) : Prop where
  original : s.files .previousGood = previous.map .regular
  saved : s'.files (recoveryName previous) = some (.regular (recoveryContents previous))
  only : s'.files (otherRecovery previous) = none
  current : s'.files .current = s.files .current ∨ s'.files .current = some (.regular contents)

/-- No recovery was pending, and these were the contents of `previous_good.json`. -/
structure Before (s : Store) (previous : Option Bytes) : Prop where
  original : s.files .previousGood = previous.map .regular
  previousRecovery : s.files .previousRecovery = none
  absentRecovery : s.files .absentRecovery = none

theorem Before.recovery (h : Before s previous) : s.files (recoveryName previous) = none := by
  cases previous with
  | none => exact h.absentRecovery
  | some _ => exact h.previousRecovery

/-- Every lasting file is one of the four, seen from the recovery in use. -/
theorem Agree.of_files (previous : Option Bytes) (hp : s'.payloads = s.payloads)
    (hq : s'.quarantine = s.quarantine)
    (hc : s'.files .current = s.files .current)
    (hg : s'.files .previousGood = s.files .previousGood)
    (hr : s'.files (recoveryName previous) = s.files (recoveryName previous))
    (ho : s'.files (otherRecovery previous) = s.files (otherRecovery previous)) : Agree s s' := by
  refine ⟨fun n hn => ?_, hp, hq⟩
  cases n with
  | current => exact hc
  | previousGood => exact hg
  | previousRecovery => cases previous <;> assumption
  | absentRecovery => cases previous <;> assumption
  | temporary pid generation => exact absurd rfl (hn pid generation)

@[simp] theorem put_put (s : Store) (n : FileName) (e e' : Option Entry) :
    (s.put n e).put n e' = s.put n e' := by
  simp [Store.put]

/-- The store once the recovery file is written. -/
def Store.saved (s : Store) (previous : Option Bytes) : Store :=
  s.put (recoveryName previous) (some (.regular (recoveryContents previous)))

section Saved

variable (hb : Before s previous)
include hb

/-- With the recovery file removed again and `previous_good.json` as it was, nothing has changed. -/
theorem Before.undone (hg : t = s.saved previous ∨
      t = (s.saved previous).put .previousGood (previous.map .regular))
    (h : Agree (t.put (recoveryName previous) none) s') : Agree s s' := by
  have hrec := hb.recovery
  have hog := hb.original
  have hc := h.files _ lasting_current
  have hp := h.files _ lasting_previousGood
  have h1 := h.files _ lasting_previousRecovery
  have h2 := h.files _ lasting_absentRecovery
  rcases hg with rfl | rfl
  all_goals
    refine Agree.of_files previous h.payloads h.quarantine ?_ ?_ ?_ ?_
    all_goals
      cases previous <;>
        simp_all [Store.saved, Store.put, recoveryName, otherRecovery]

/-- With the recovery file in place, recovery is pending. -/
theorem Before.pending {u : Store} (ht : u = t ∨ u = t.put .current (some (.regular contents)))
    (hg : t = s.saved previous ∨ ∃ e, t = (s.saved previous).put .previousGood e)
    (h : Agree u s') : PendingRecovery s s' contents previous := by
  have h1 := hb.previousRecovery
  have h2 := hb.absentRecovery
  have hc := h.files _ lasting_current
  have h3 := h.files _ lasting_previousRecovery
  have h4 := h.files _ lasting_absentRecovery
  refine ⟨hb.original, ?_, ?_, ?_⟩
  all_goals
    rcases ht with rfl | rfl <;> rcases hg with rfl | ⟨e, rfl⟩ <;> cases previous <;>
      simp_all [Store.saved, Store.put, recoveryName, otherRecovery]

end Saved

/-- The store after a complete change of payload. -/
def Store.replaced (s : Store) (previous : Option Bytes) (old contents : Bytes) : Store :=
  (((s.saved previous).put .previousGood (some (.regular old))).put .current
    (some (.regular contents))).put (recoveryName previous) none

/-- What a change of payload ends in. -/
inductive Replacement (s : Store) (old contents : Bytes) : Option String × Disk → Prop
  | replaced {d : Disk} (previous : Option Bytes)
      (h : Agree (s.replaced previous old contents) d.store) : Replacement s old contents (none, d)
  | unchanged {d : Disk} (message : String) (h : Agree s d.store) :
      Replacement s old contents (some message, d)
  | pending {d : Disk} (message : String) (previous : Option Bytes)
      (h : PendingRecovery s d.store contents previous) :
      Replacement s old contents (some message, d)

/-- Dropping the recovery file after everything else is back undoes the change, or stays pending. -/
theorem dropRecovery_replacement (hb : Before s previous)
    (ht : t = s.saved previous ∨
      t = (s.saved previous).put .previousGood (previous.map .regular))
    (h : Agree t d.store) {error : String} :
    Replacement s old contents (dropRecovery d (recoveryName previous) error) := by
  unfold dropRecovery
  have hr := removeRecovery_changed d (recoveryName previous) error false
  generalize removeRecovery d (recoveryName previous) error false = r at hr ⊢
  cases hr with
  | done hd => exact .unchanged error (hb.undone ht ((h.put _ none).trans hd))
  | failed message hd =>
    refine .pending message previous (hb.pending (.inl rfl) ?_ (h.trans hd))
    rcases ht with rfl | rfl
    · exact .inl rfl
    · exact .inr ⟨_, rfl⟩

theorem publishCurrent_replacement (hb : Before s previous)
    (h : Agree ((s.saved previous).put .previousGood (some (.regular old))) d.store) :
    Replacement s old contents (publishCurrent d previous contents) := by
  unfold publishCurrent
  have hw := writeAtomic_changed d .current contents
  generalize writeAtomic d .current contents = r at hw ⊢
  cases hw with
  | @done d₁ ha =>
    have ha := (h.put .current _).trans ha
    have hr := removeRecovery_changed d₁ (recoveryName previous) "" true
    dsimp only
    generalize removeRecovery d₁ (recoveryName previous) "" true = r at hr ⊢
    cases hr with
    | done hd => exact .replaced previous ((ha.put _ none).trans hd)
    | failed message hd =>
      exact .pending message previous (hb.pending (.inr rfl) (.inr ⟨_, rfl⟩) (ha.trans hd))
  | @failed d₁ error ha =>
    -- `current.json` was not published: `previous_good.json` has to go back.
    have ha := h.trans ha
    have hr := restorePrevious_changed d₁ previous
    dsimp only
    generalize restorePrevious d₁ previous = r at hr ⊢
    cases hr with
    | done hr =>
      have hr := (ha.put .previousGood _).trans hr
      rw [put_put] at hr
      exact dropRecovery_replacement hb (.inr rfl) hr
    | failed message hr =>
      exact .pending _ previous (hb.pending (.inl rfl) (.inr ⟨_, rfl⟩) (ha.trans hr))

theorem savePrevious_replacement (hb : Before d.store previous) :
    Replacement d.store old contents (savePrevious d previous old contents) := by
  unfold savePrevious
  dsimp only
  have hw := writeAtomic_changed d (recoveryName previous) (recoveryContents previous)
  generalize writeAtomic d (recoveryName previous) (recoveryContents previous) = r at hw ⊢
  cases hw with
  | failed message h => exact .unchanged message h
  | @done d₁ h =>
    have hw := writeAtomic_changed d₁ .previousGood old
    dsimp only
    generalize writeAtomic d₁ .previousGood old = r at hw ⊢
    cases hw with
    | failed message hp => exact dropRecovery_replacement hb (.inl rfl) (h.trans hp)
    | done hp => exact publishCurrent_replacement hb ((h.put .previousGood _).trans hp)

theorem replaceCurrent_replacement (old contents : Bytes)
    (hp : d.store.files .previousRecovery = none) (ha : d.store.files .absentRecovery = none) :
    Replacement d.store old contents (replaceCurrent d old contents) := by
  unfold replaceCurrent
  obtain ⟨hs, hok⟩ := inspect_cases d .previousGood
  generalize d.inspect .previousGood = r at hs hok ⊢
  rcases r with ⟨message | status, d₁⟩
  · exact .unchanged _ (.of_eq hs)
  dsimp only at hs hok ⊢
  obtain ⟨hs', hok'⟩ := readPrevious_cases d₁ (hs ▸ hok status rfl)
  generalize readPrevious d₁ status = r at hs' hok' ⊢
  rcases r with ⟨message | previous, d₂⟩
  · exact .unchanged _ (.of_eq (hs'.trans hs))
  · have hs₂ : d₂.store = d.store := hs'.trans hs
    rw [← hs₂]
    refine savePrevious_replacement ⟨?_, ?_, ?_⟩
    · rw [hs₂, ← hs]
      exact hok' previous rfl
    · rw [hs₂, hp]
    · rw [hs₂, ha]

/-- The four lasting files of a store. -/
def Unchanged (s s' : Store) : Prop :=
  s'.files .current = s.files .current ∧ s'.files .previousGood = s.files .previousGood ∧
    s'.files .previousRecovery = s.files .previousRecovery ∧
    s'.files .absentRecovery = s.files .absentRecovery

theorem Agree.unchanged (h : Agree s s') : Unchanged s s' :=
  ⟨h.files _ lasting_current, h.files _ lasting_previousGood, h.files _ lasting_previousRecovery,
    h.files _ lasting_absentRecovery⟩

/-- Everything `PublishActivation` can do. -/
inductive Publication (parse : Bytes → Option Json) (s : Store) (payloadId contents : Bytes) :
    Option String × Disk → Prop
  | first {d : Disk} (hr : s.files .previousRecovery = none ∧ s.files .absentRecovery = none)
      (hc : ∀ old, s.files .current = some (.regular old) → old ≠ [] →
        manifestId parse old = .ok payloadId)
      (h : Agree (s.put .current (some (.regular contents))) d.store) :
      Publication parse s payloadId contents (none, d)
  | replaced {d : Disk} (old : Bytes) (previous : Option Bytes)
      (hr : s.files .previousRecovery = none ∧ s.files .absentRecovery = none)
      (hc : s.files .current = some (.regular old))
      (h : Agree (s.replaced previous old contents) d.store) :
      Publication parse s payloadId contents (none, d)
  | unchanged {d : Disk} (message : String) (h : Agree s d.store) :
      Publication parse s payloadId contents (some message, d)
  | pending {d : Disk} (message : String) (previous : Option Bytes)
      (h : PendingRecovery s d.store contents previous) :
      Publication parse s payloadId contents (some message, d)

theorem publishActivation_publication (parse : Bytes → Option Json) (d : Disk)
    (payloadId contents : Bytes) :
    Publication parse d.store payloadId contents
      (publishActivation parse d payloadId contents) := by
  unfold publishActivation
  obtain ⟨hs, hn⟩ := noPendingRecovery_cases d
  generalize noPendingRecovery d = r at hs hn ⊢
  rcases r with ⟨_ | message, d₁⟩
  rotate_left
  · exact .unchanged message (.of_eq hs)
  dsimp only at hs hn ⊢
  have hrec := hn rfl
  obtain ⟨hs', hm⟩ := readManifest_cases parse d₁ .current true
  generalize readManifest parse d₁ .current true = r at hs' hm ⊢
  rcases r with ⟨message | current, d₂⟩
  · exact .unchanged _ (.of_eq (hs'.trans hs))
  dsimp only at hs' hm ⊢
  have hs₂ : d₂.store = d.store := hs'.trans hs
  have hcur := hm current rfl
  rw [hs] at hcur
  split
  · next hsame =>
    have hw := writeAtomic_changed d₂ .current contents
    rw [hs₂] at hw
    generalize writeAtomic d₂ .current contents = r at hw ⊢
    cases hw with
    | failed message h => exact .unchanged message h
    | done h =>
      refine .first hrec (fun old ho hne => ?_) h
      rcases hcur with ⟨_, ⟨_, hc⟩ | hc⟩ | ⟨hne', hc, hid⟩
      · rw [hc] at ho
        cases ho
      · rw [hc] at ho
        cases ho
        exact absurd rfl hne
      · rw [hc] at ho
        cases ho
        have he : current.payloadId = payloadId := by simpa [hne'] using hsame
        rw [hid, he]
  · next hdiff =>
    have hne : current.contents ≠ [] := by
      intro he
      simp [he] at hdiff
    rcases hcur with ⟨he, _⟩ | ⟨_, hc, _⟩
    · exact absurd (congrArg Manifest.contents he) hne
    · have hr := replaceCurrent_replacement current.contents contents (hs₂ ▸ hrec.1)
        (hs₂ ▸ hrec.2)
      rw [hs₂] at hr
      generalize replaceCurrent d₂ current.contents contents = r at hr ⊢
      cases hr with
      | replaced previous h => exact .replaced _ previous hrec hc h
      | unchanged message h => exact .unchanged message h
      | pending message previous h => exact .pending message previous h

/-! Pending recovery blocks the store. -/

/-- Calls that may come later. -/
inductive Call
  | publish (payloadId contents : Bytes)
  | collect (keep : List Bytes)

def exec (parse : Bytes → Option Json) (d : Disk) : Call → GarbageResult × Disk
  | .publish payloadId contents =>
    match publishActivation parse d payloadId contents with
    | (error, d) => ({ error }, d)
  | .collect keep => collectGarbage parse d keep

/-- Calls against one store, each on a system of its own. -/
def storeLTS (parse : Bytes → Option Json) (s : Store) : LTS Store Call where
  initial t := t = s
  step t call u := ∃ d : Disk, d.store = t ∧ u = (exec parse d call).2.store

def Store.HasRecovery (s : Store) : Prop :=
  s.files .previousRecovery ≠ none ∨ s.files .absentRecovery ≠ none

/-- An error, nothing removed and no file touched. -/
def Refused (s : Store) (r : GarbageResult × Disk) : Prop :=
  r.1.error.isSome = true ∧ r.1.removed = [] ∧ r.2.store = s

theorem noPendingRecovery_refuses (h : d.store.HasRecovery) :
    (noPendingRecovery d).1.isSome = true := by
  obtain ⟨_, hn⟩ := noPendingRecovery_cases d
  cases hr : (noPendingRecovery d).1 with
  | some _ => rfl
  | none =>
    obtain ⟨hp, ha⟩ := hn hr
    rcases h with h | h
    · exact absurd hp h
    · exact absurd ha h

theorem exec_refused (parse : Bytes → Option Json) (h : d.store.HasRecovery) (call : Call) :
    Refused d.store (exec parse d call) := by
  cases call with
  | publish payloadId contents =>
    have hr := noPendingRecovery_refuses h
    have hs := (noPendingRecovery_cases d).1
    unfold exec publishActivation
    generalize noPendingRecovery d = r at hr hs ⊢
    rcases r with ⟨_ | message, d₁⟩
    · cases hr
    · exact ⟨rfl, rfl, hs⟩
  | collect keep =>
    have hl := lock_store d
    unfold exec collectGarbage
    generalize lock d = r at hl ⊢
    rcases r with ⟨_ | message, d₁⟩
    rotate_left
    · exact ⟨rfl, rfl, hl⟩
    dsimp only at hl ⊢
    have hr := noPendingRecovery_refuses (hl ▸ h)
    have hs := (noPendingRecovery_cases d₁).1
    generalize noPendingRecovery d₁ = r at hr hs ⊢
    rcases r with ⟨_ | message, d₂⟩
    · cases hr
    · exact ⟨rfl, rfl, hs.trans hl⟩

theorem run_refused {calls : List Call} (h : (storeLTS parse s').Run s calls t)
    (hs : s.HasRecovery) : t = s := by
  induction h with
  | refl => rfl
  | @cons _ _ _ call _ hstep _ ih =>
    obtain ⟨d, rfl, rfl⟩ := hstep
    have hstore := (exec_refused parse hs call).2.2
    rw [hstore] at ih
    exact ih hs

theorem PendingRecovery.hasRecovery (h : PendingRecovery s s' contents previous) :
    s'.HasRecovery := by
  have hsaved := h.saved
  cases previous with
  | none => exact .inr (by simp_all [recoveryName])
  | some _ => exact .inl (by simp_all [recoveryName])

/-- Whatever the store held and whichever steps fail: success means the new manifest is current, the
old one is kept and no recovery is pending; failure means nothing changed, or that one recovery file
tells what was there and blocks every later publication and collection. -/
theorem publication_or_recovery (parse : Bytes → Option Json) (d : Disk)
    (payloadId contents : Bytes) :
    ((publishActivation parse d payloadId contents).1 = none →
      let s' := (publishActivation parse d payloadId contents).2.store
      s'.files .current = some (.regular contents) ∧ s'.files .previousRecovery = none ∧
        s'.files .absentRecovery = none ∧
        ∀ old oldId, d.store.files .current = some (.regular old) → old ≠ [] →
          manifestId parse old = .ok oldId → oldId ≠ payloadId →
          s'.files .previousGood = some (.regular old)) ∧
    ((publishActivation parse d payloadId contents).1 ≠ none →
      let s' := (publishActivation parse d payloadId contents).2.store
      Unchanged d.store s' ∨
        (∃ previous, PendingRecovery d.store s' contents previous) ∧
          ∀ calls t, (storeLTS parse s').Run s' calls t →
            t = s' ∧ ∀ (d' : Disk) (call : Call), d'.store = t →
              Refused t (exec parse d' call)) := by
  have hp := publishActivation_publication parse d payloadId contents
  generalize publishActivation parse d payloadId contents = r at hp ⊢
  cases hp with
  | first hr hc h =>
    refine ⟨fun _ => ⟨?_, ?_, ?_, ?_⟩, fun hn => absurd rfl hn⟩
    · simpa [Store.put] using h.files _ lasting_current
    · simpa [Store.put, hr.1] using h.files _ lasting_previousRecovery
    · simpa [Store.put, hr.2] using h.files _ lasting_absentRecovery
    · intro old oldId ho hne hid hdiff
      rw [hc old ho hne] at hid
      exact absurd (Except.ok.inj hid).symm hdiff
  | replaced old previous hr hc h =>
    have hcur := h.files _ lasting_current
    have hprev := h.files _ lasting_previousGood
    have h1 := h.files _ lasting_previousRecovery
    have h2 := h.files _ lasting_absentRecovery
    refine ⟨fun _ => ⟨?_, ?_, ?_, ?_⟩, fun hn => absurd rfl hn⟩
    · cases previous <;> simp_all [Store.replaced, Store.saved, Store.put, recoveryName]
    · cases previous <;> simp_all [Store.replaced, Store.saved, Store.put, recoveryName]
    · cases previous <;> simp_all [Store.replaced, Store.saved, Store.put, recoveryName]
    · intro old' oldId ho _ _ _
      rw [hc] at ho
      cases ho
      cases previous <;> simp_all [Store.replaced, Store.saved, Store.put, recoveryName]
  | unchanged message h => exact ⟨nofun, fun _ => .inl h.unchanged⟩
  | pending message previous h =>
    refine ⟨nofun, fun _ => .inr ⟨⟨previous, h⟩, fun calls t hrun => ?_⟩⟩
    obtain rfl := run_refused hrun h.hasRecovery
    refine ⟨rfl, ?_⟩
    rintro d' call hd
    rw [← hd]
    exact exec_refused parse (hd ▸ h.hasRecovery) call

def oldPayloadId : Bytes := bytes "2627-0123456789abcdef0123456789abcdef01234567"

def newPayloadId : Bytes := bytes "2628-0123456789abcdef0123456789abcdef01234567"

def oldManifest : Bytes := bytes "old"

/-- The JSON library on the old manifest. -/
def parseOldManifest (text : Bytes) : Option Json :=
  if text = oldManifest then
    some (.object [(bytes "payload_id", .string oldPayloadId),
      (bytes "payload_path", .string (bytes "payloads/" ++ oldPayloadId)),
      (bytes "schema_version", .unsigned 1)])
  else none

/-- A store whose current manifest is the old one, on a system that answers its calls so. -/
def manifestDisk (faults : Nat → Option String) : Disk where
  store :=
    { files := fun n => if n = .current then some (.regular oldManifest) else none
      payloads := []
      quarantine := [] }
  root := "/store"
  pid := 1
  generation := 0
  seconds := 1700000000
  faults := faults
  wreck := id

/-- The rename onto `current.json` fails, and so does the removal of the new
`previous_good.json`. -/
def renameFaults (n : Nat) : Option String :=
  if n = 17 ∨ n = 19 then some "Input/output error" else none

theorem publication_or_recovery_pending :
    let d := manifestDisk renameFaults
    let s' := (publishActivation parseOldManifest d newPayloadId (bytes "new")).2.store
    PendingRecovery d.store s' (bytes "new") none ∧
      (∀ calls t, (storeLTS parseOldManifest s').Run s' calls t → t = s') ∧
      (publishActivation parseOldManifest (manifestDisk fun _ => none) newPayloadId
        (bytes "new")).2.store.files .previousGood = some (.regular oldManifest) := by
  intro d s'
  have hmarker : (s'.files .absentRecovery).isSome = true := by decide +kernel
  have hfailed : (publishActivation parseOldManifest d newPayloadId (bytes "new")).1 ≠ none := by
    decide +kernel
  have hdone : (publishActivation parseOldManifest (manifestDisk fun _ => none) newPayloadId
      (bytes "new")).1 = none := by
    decide +kernel
  have hold : manifestId parseOldManifest oldManifest = .ok oldPayloadId := by
    decide +kernel
  obtain ⟨hsuccess, -⟩ :=
    publication_or_recovery parseOldManifest (manifestDisk fun _ => none) newPayloadId (bytes "new")
  obtain ⟨-, -, -, hkept⟩ := hsuccess hdone
  rcases (publication_or_recovery parseOldManifest d newPayloadId (bytes "new")).2 hfailed with
    ⟨-, -, -, hnone⟩ | ⟨⟨previous, hpending⟩, hblocked⟩
  · rw [hnone] at hmarker
    cases hmarker
  · obtain rfl : previous = none := by
      have horiginal : none = previous.map Entry.regular := hpending.original
      simpa using horiginal.symm
    exact ⟨hpending, fun calls t hrun => (hblocked calls t hrun).1,
      hkept oldManifest oldPayloadId rfl (by decide) hold (by decide)⟩

end Nightcap.Payload
