import Nightcap.Payload.Integrity

/-! `Stage`: a prepared payload is copied into the store, and what its failures leave behind. -/
namespace Nightcap.Payload

open Utf8 Ascii FileTree Disk

def samePayloadContent (left right : Metadata) : Bool :=
  left.librarySha256 == right.librarySha256 && left.baseApkSha256 == right.baseApkSha256 &&
    left.splitApkSha256 == right.splitApkSha256 && left.assetTreeSha256 == right.assetTreeSha256 &&
    left.assetFileCount == right.assetFileCount

def timestampSuffix (d : Disk) : Bytes := ofNat d.seconds ++ bytes "-" ++ ofNat d.pid

def quarantineName (d : Disk) (payloadId : Bytes) : Bytes :=
  payloadId ++ bytes "-" ++ timestampSuffix d

def isDirectory : Entry → Bool
  | .directory _ => true
  | _ => false

/-- Moves the collision to the quarantine. -/
def moveToQuarantine (d : Disk) (payloadId : Bytes) (e : Entry) : Option String × Disk :=
  match d.ask with
  | (some message, d) => (some ("cannot quarantine corrupt payload collision: " ++ message), d)
  | (none, d) =>
    if e.renames (d.store.quarantine.lookup (quarantineName d payloadId)) then
      (none, { d with store := { d.store with
        payloads := Directory.erase d.store.payloads payloadId
        quarantine := Directory.set d.store.quarantine (quarantineName d payloadId) e } })
    else (some "cannot quarantine corrupt payload collision: Directory not empty", d)

/-- `QuarantinePayloadCollision`; permissions are no part of an entry here, so the unlocking of a
read-only directory is only a call that may fail. -/
def quarantinePayloadCollision (d : Disk) (payloadId : Bytes) (e : Entry) : Option String × Disk :=
  match d.ask with
  | (some message, d) => (some ("cannot create corrupt payload quarantine: " ++ message), d)
  | (none, d) =>
    match d.ask with
    | (some message, d) => (some ("cannot inspect corrupt payload collision: " ++ message), d)
    | (none, d) =>
      if isDirectory e then
        match d.ask with
        | (some message, d) => (some ("cannot unlock corrupt payload collision: " ++ message), d)
        | (none, d) => moveToQuarantine d payloadId e
      else moveToQuarantine d payloadId e

def copyFailed : String := "cannot copy payload into immutable store"

mutual

/-- The copy of an entry, if it got that far, and why it stopped. -/
def copyEntry : Entry → Disk → (Option String × Option Entry) × Disk
  | .regular contents, d =>
    match d.ask with
    | (none, d) => ((none, some (.regular contents)), d)
    | (some _, d) =>
      -- `CloneOrCopyFile` failed; `copy_file` is the fallback.
      match d.ask with
      | (none, d) => ((none, some (.regular contents)), d)
      | (some _, d) => ((some copyFailed, none), d)
  | .directory entries, d =>
    match d.ask with
    | (some _, d) => ((some copyFailed, none), d)
    | (none, d) =>
      match copyEntries entries d with
      | ((error, copied), d) => ((error, some (.directory copied)), d)
  | .symlink _, d => ((some "payload tree contains an unsafe entry", none), d)
  | .special, d => ((some "payload tree contains an unsafe entry", none), d)

def copyEntries : List (Bytes × Entry) → Disk → (Option String × Directory) × Disk
  | [], d => ((none, []), d)
  | (name, e) :: entries, d =>
    match d.ask with
    | (some _, d) => ((some copyFailed, []), d)
    | (none, d) =>
      match copyEntry e d with
      | ((some error, copied), d) => ((some error, (copied.map (name, ·)).toList), d)
      | ((none, copied), d) =>
        match copyEntries entries d with
        | ((error, more), d) => ((error, (copied.map (name, ·)).toList ++ more), d)

end

def putPayload (d : Disk) (name : Bytes) (e : Entry) : Disk :=
  { d with store := { d.store with payloads := Directory.set d.store.payloads name e } }

/-- `CopyTree` into a new directory of the store. -/
def copyTree (d : Disk) (source : Option Entry) (staging : Bytes) : Option String × Disk :=
  match d.ask with
  | (some _, d) => (some "cannot create immutable payload staging directory", d)
  | (none, d) =>
    if (d.store.payloads.lookup staging).isSome then
      (some "cannot create immutable payload staging directory", d)
    else
      match source with
      | some (.directory entries) =>
        match copyEntries entries d with
        | ((some error, copied), d) => (some error, putPayload d staging (.directory copied))
        | ((none, copied), d) =>
          match d.ask with
          | (some _, d) =>
            (some "cannot make staged payload immutable", putPayload d staging (.directory copied))
          | (none, d) => (none, putPayload d staging (.directory copied))
      | _ => (some copyFailed, putPayload d staging (.directory []))

structure PayloadStoreResult where
  payloadId : Bytes := []
  versionName : Bytes := []
  versionCode : UInt64 := 0
  buildId : Bytes := []
  error : Option String := none

section

variable (lib : Libraries) (guest : Guest)

/-- A check of a tree on a disk whose calls may fail. -/
def onDisk (check : Option Entry → Except String PayloadIntegrity) (d : Disk)
    (tree : Option Entry) : Except String PayloadIntegrity × Disk :=
  match d.ask with
  | (some message, d) => (.error message, d)
  | (none, d) => (check tree, d)

def stagingName (d : Disk) (payloadId : Bytes) : Bytes :=
  bytes ".stage-" ++ payloadId ++ bytes "-" ++ ofNat d.pid

/-- Gives up on the staging directory; a failed removal is ignored. -/
def discard (d : Disk) (staging : Bytes) (error : String) : Option String × Disk :=
  (some error, (removePayloadTree d .payloads staging).2)

/-- The final rename of `Stage`. -/
def publishStaged (d : Disk) (staging payloadId : Bytes) : Option String × Disk :=
  match d.ask with
  | (some _, d) => (some "cannot publish immutable payload", d)
  | (none, d) =>
    match d.store.payloads.lookup staging with
    | none => (some "cannot publish immutable payload", d)
    | some e =>
      if e.renames (d.store.payloads.lookup payloadId) then
        (none, { d with store := { d.store with
          payloads := Directory.set (Directory.erase d.store.payloads staging) payloadId e } })
      else (some "cannot publish immutable payload", d)

/-- The second half of `Stage`, once nothing stands in the way. -/
def stageCopy (d : Disk) (prepared : Option Entry) (payloadId : Bytes) : Option String × Disk :=
  let staging := stagingName d payloadId
  match copyTree (removePayloadTree d .payloads staging).2 prepared staging with
  | (some error, d) => discard d staging error
  | (none, d) =>
    match onDisk (verifyPreparedPayload lib guest) d (d.store.payloads.lookup staging) with
    | (.error error, d) => discard d staging error
    | (.ok staged, d) =>
      if staged.payloadId = payloadId then publishStaged d staging payloadId
      else discard d staging "staged payload identity changed"

/-- Whether `payloads/<id>` already holds what was prepared. -/
def holdsSame (existing : Option Entry) (verified : PayloadIntegrity) : Bool :=
  match verifyPreparedPayload lib guest existing with
  | .ok found =>
    found.payloadId == verified.payloadId && samePayloadContent found.metadata verified.metadata
  | .error _ => false

/-- `Stage` after the prepared payload has been inspected. -/
def stageVerified (d : Disk) (prepared : Option Entry) (verified : PayloadIntegrity) :
    Option String × Disk :=
  match d.ask with
  | (some _, d) => stageCopy lib guest d prepared verified.payloadId
  | (none, d) =>
    match d.store.payloads.lookup verified.payloadId with
    | none => stageCopy lib guest d prepared verified.payloadId
    | some e =>
      if !resolves (some e) then stageCopy lib guest d prepared verified.payloadId
      else if holdsSame lib guest (some e) verified then (none, d)
      else
        match quarantinePayloadCollision d verified.payloadId e with
        | (some error, d) => (some error, d)
        | (none, d) => stageCopy lib guest d prepared verified.payloadId

def stage (d : Disk) (prepared : Option Entry) : PayloadStoreResult × Disk :=
  match lock d with
  | (some error, d) => ({ error := some error }, d)
  | (none, d) =>
    match onDisk (inspectPreparedPayload lib guest) d prepared with
    | (.error error, d) => ({ error := some error }, d)
    | (.ok verified, d) =>
      match stageVerified lib guest d prepared verified with
      | (error, d) =>
        ({ payloadId := verified.payloadId
           versionName := verified.metadata.versionName
           versionCode := verified.metadata.versionCode
           buildId := verified.metadata.buildId
           error }, d)

end

/-! What a failed call leaves of the payloads. -/

variable {lib : Libraries} {guest : Guest} {d d' d'' : Disk} {prepared : Option Entry} {e : Entry}
  {name staging payloadId : Bytes} {s : Store} {error : String} {k : Nat}

/-- Every payload but one is where it was. -/
def KeepsBut (name : Bytes) (d d' : Disk) : Prop :=
  ∀ other, other ≠ name → d'.store.payloads.lookup other = d.store.payloads.lookup other

theorem KeepsBut.of_store (h : d'.store = d.store) : KeepsBut name d d' := by
  intro other _
  rw [h]

theorem KeepsBut.trans (h : KeepsBut name d d') (h' : KeepsBut name d' d'') :
    KeepsBut name d d'' := by
  intro other hne
  exact (h' other hne).trans (h other hne)

theorem keepsBut_putPayload (d : Disk) (name : Bytes) (e : Entry) :
    KeepsBut name d (putPayload d name e) :=
  fun _ hne => Directory.lookup_set_ne hne

theorem removePayloadTree_keepsBut (d : Disk) (name : Bytes) :
    KeepsBut name d (removePayloadTree d .payloads name).2 := by
  unfold removePayloadTree
  split
  · exact .of_store rfl
  · split
    · next h =>
      intro other hne
      rw [← store_of_ask h]
      exact Directory.lookup_set_ne hne
    · next h =>
      intro other hne
      rw [← store_of_ask h]
      exact Directory.lookup_erase_ne hne

mutual

theorem copyEntry_store (e : Entry) (d : Disk) : (copyEntry e d).2.store = d.store := by
  cases e with
  | regular contents =>
    rw [copyEntry]
    split
    · next h => exact store_of_ask h
    · next h =>
      split
      · next h' => exact (store_of_ask h').trans (store_of_ask h)
      · next h' => exact (store_of_ask h').trans (store_of_ask h)
  | directory entries =>
    rw [copyEntry]
    split
    · next h => exact store_of_ask h
    · next d' h => exact (copyEntries_store entries d').trans (store_of_ask h)
  | symlink target => rw [copyEntry]
  | special => rw [copyEntry]

theorem copyEntries_store (entries : List (Bytes × Entry)) (d : Disk) :
    (copyEntries entries d).2.store = d.store := by
  cases entries with
  | nil => rw [copyEntries]
  | cons entry entries =>
    obtain ⟨name, e⟩ := entry
    rw [copyEntries]
    split
    · next h => exact store_of_ask h
    · next d₁ h =>
      have he := copyEntry_store e d₁
      split
      · next hc => exact (by simpa [hc] using he : _ = d₁.store).trans (store_of_ask h)
      · next d₂ hc =>
        have hs : d₂.store = d₁.store := by simpa [hc] using he
        exact (copyEntries_store entries d₂).trans (hs.trans (store_of_ask h))

end

theorem copyTree_keepsBut (d : Disk) (source : Option Entry) (staging : Bytes) :
    KeepsBut staging d (copyTree d source staging).2 := by
  unfold copyTree
  split
  · next h => exact .of_store (store_of_ask h)
  · next d₁ h =>
    have h₁ : KeepsBut staging d d₁ := .of_store (store_of_ask h)
    split
    · exact h₁
    · split
      · next entries =>
        have hs := copyEntries_store entries d₁
        split
        · next hc =>
          rw [hc] at hs
          exact h₁.trans ((KeepsBut.of_store hs).trans (keepsBut_putPayload _ _ _))
        · next hc =>
          rw [hc] at hs
          have h₂ := h₁.trans (.of_store hs)
          split
          · next h' =>
            exact h₂.trans ((KeepsBut.of_store (store_of_ask h')).trans (keepsBut_putPayload _ _ _))
          · next h' =>
            exact h₂.trans ((KeepsBut.of_store (store_of_ask h')).trans (keepsBut_putPayload _ _ _))
      · exact h₁.trans (keepsBut_putPayload _ _ _)

theorem onDisk_store (check : Option Entry → Except String PayloadIntegrity) (d : Disk)
    (tree : Option Entry) : (onDisk check d tree).2.store = d.store := by
  unfold onDisk
  split
  · next h => exact store_of_ask h
  · next h => exact store_of_ask h

theorem publishStaged_failed (h : (publishStaged d staging payloadId).1 ≠ none) :
    (publishStaged d staging payloadId).2.store = d.store := by
  unfold publishStaged at h ⊢
  split
  · next ha => exact store_of_ask ha
  · next ha =>
    split
    · exact store_of_ask ha
    · next hl =>
      split
      · next hr => simp [ha, hl, hr] at h
      · exact store_of_ask ha

/-- A copy that fails touches the staging directory only. -/
theorem stageCopy_failed (h : (stageCopy lib guest d prepared payloadId).1 ≠ none) :
    KeepsBut (stagingName d payloadId) d (stageCopy lib guest d prepared payloadId).2 := by
  have hr := removePayloadTree_keepsBut d (stagingName d payloadId)
  have hc := hr.trans (copyTree_keepsBut _ prepared _)
  unfold stageCopy at h ⊢
  dsimp only at h ⊢
  split
  · next hcopy =>
    rw [hcopy] at hc
    exact hc.trans (removePayloadTree_keepsBut _ _)
  · next d₁ hcopy =>
    rw [hcopy] at hc h
    dsimp only at hc h
    have hv := onDisk_store (verifyPreparedPayload lib guest) d₁
      (d₁.store.payloads.lookup (stagingName d payloadId))
    split
    · next ho =>
      rw [ho] at hv
      exact hc.trans ((KeepsBut.of_store hv).trans (removePayloadTree_keepsBut _ _))
    · next ho =>
      rw [ho] at hv h
      dsimp only at hv h
      split
      · next hid =>
        rw [if_pos hid] at h
        exact hc.trans ((KeepsBut.of_store hv).trans (.of_store (publishStaged_failed h)))
      · exact hc.trans ((KeepsBut.of_store hv).trans (removePayloadTree_keepsBut _ _))

/-- Either nothing moved, or the collision has left the payloads. -/
inductive Quarantined (d : Disk) (payloadId : Bytes) : Option String × Disk → Prop
  | failed {d' : Disk} (message : String) (h : d'.store = d.store) :
    Quarantined d payloadId (some message, d')
  | moved {d' : Disk} (h : d'.store.payloads = Directory.erase d.store.payloads payloadId) :
    Quarantined d payloadId (none, d')

theorem moveToQuarantine_quarantined (hs : d'.store = d.store) :
    Quarantined d payloadId (moveToQuarantine d' payloadId e) := by
  unfold moveToQuarantine
  split
  · next h => exact .failed _ ((store_of_ask h).trans hs)
  · next h =>
    have hs' := (store_of_ask h).trans hs
    split
    · exact .moved (by rw [hs'])
    · exact .failed _ hs'

theorem quarantinePayloadCollision_quarantined (d : Disk) (payloadId : Bytes) (e : Entry) :
    Quarantined d payloadId (quarantinePayloadCollision d payloadId e) := by
  unfold quarantinePayloadCollision
  split
  · next h => exact .failed _ (store_of_ask h)
  · next h =>
    split
    · next h' => exact .failed _ ((store_of_ask h').trans (store_of_ask h))
    · next h' =>
      have hs := (store_of_ask h').trans (store_of_ask h)
      split
      · split
        · next h'' => exact .failed _ ((store_of_ask h'').trans hs)
        · next h'' => exact moveToQuarantine_quarantined ((store_of_ask h'').trans hs)
      · exact moveToQuarantine_quarantined hs

/-- The payload a manifest of the store names. -/
def Named (lib : Libraries) (s : Store) (payloadId : Bytes) : Prop :=
  ∃ n, (n = FileName.current ∨ n = FileName.previousGood) ∧ ∃ contents,
    s.files n = some (.regular contents) ∧ contents.length ≤ kMaximumManifest ∧
      manifestId lib.parse contents = .ok payloadId

/-- No failure of `Stage` touches a payload that a manifest names. -/
def StageKeepsNamed (lib : Libraries) (guest : Guest) (s : Store)
    (prepared : Option Entry) : Prop :=
  ∀ d : Disk, d.store = s → (stage lib guest d prepared).1.error ≠ none →
    ∀ payloadId, Named lib s payloadId →
      (stage lib guest d prepared).2.store.payloads.lookup payloadId = s.payloads.lookup payloadId

/-- The prepared payload has the identity of a named one whose directory stands in its way. -/
def CollidesWithNamed (lib : Libraries) (guest : Guest) (s : Store)
    (prepared : Option Entry) : Prop :=
  ∃ verified, inspectPreparedPayload lib guest prepared = .ok verified ∧
    Named lib s verified.payloadId ∧ resolves (s.payloads.lookup verified.payloadId) = true ∧
      holdsSame lib guest (s.payloads.lookup verified.payloadId) verified = false

theorem validPayloadId_head (h : validPayloadId payloadId = true) :
    ∃ b rest, payloadId = b :: rest ∧ isDigit b = true := by
  cases payloadId with
  | nil => simp [validPayloadId] at h
  | cons b rest =>
    refine ⟨b, rest, rfl, ?_⟩
    by_cases hb : is '-' b = true
    · simp [validPayloadId, hb] at h
    · simp only [validPayloadId, List.takeWhile_cons, List.dropWhile_cons] at h
      cases hr : rest.dropWhile (!is '-' ·) with
      | nil => simp_all
      | cons c build => simp_all

theorem Named.valid (h : Named lib s payloadId) : validPayloadId payloadId = true := by
  obtain ⟨n, _, contents, _, _, hid⟩ := h
  unfold manifestId at hid
  repeat' split at hid
  all_goals try cases hid
  simp_all

/-- A named payload is never a staging directory. -/
theorem Named.ne_stagingName (h : Named lib s name) : name ≠ stagingName d payloadId := by
  obtain ⟨b, rest, rfl, hb⟩ := validPayloadId_head h.valid
  intro hne
  have hdot : b = 46 := (List.cons.inj hne).1
  rw [hdot] at hb
  exact absurd hb (by decide)

theorem stageVerified_keeps {verified : PayloadIntegrity}
    (hok : Named lib d.store verified.payloadId →
      resolves (d.store.payloads.lookup verified.payloadId) = true →
      holdsSame lib guest (d.store.payloads.lookup verified.payloadId) verified = true)
    (h : (stageVerified lib guest d prepared verified).1 ≠ none) (hn : Named lib d.store name) :
    (stageVerified lib guest d prepared verified).2.store.payloads.lookup name =
      d.store.payloads.lookup name := by
  unfold stageVerified at h ⊢
  cases ha : d.ask with
  | mk r d₁ =>
    have hs : d₁.store = d.store := store_of_ask ha
    rw [ha] at h
    rw [← hs] at hok hn ⊢
    cases r with
    | some message => exact stageCopy_failed h name hn.ne_stagingName
    | none =>
      cases hl : d₁.store.payloads.lookup verified.payloadId with
      | none =>
        simp only [hl] at h ⊢
        exact stageCopy_failed h name hn.ne_stagingName
      | some e =>
        simp only [hl] at h ⊢ hok
        split at h
        · next hr =>
          rw [if_pos hr]
          exact stageCopy_failed h name hn.ne_stagingName
        · next hr =>
          rw [if_neg hr]
          split at h
          · next hsame => exact absurd rfl h
          · next hsame =>
            rw [if_neg hsame]
            have hne : name ≠ verified.payloadId := by
              rintro rfl
              exact hsame (hok hn (by simpa using hr))
            have hq := quarantinePayloadCollision_quarantined d₁ verified.payloadId e
            generalize quarantinePayloadCollision d₁ verified.payloadId e = q at hq h ⊢
            cases hq with
            | failed message hst =>
              dsimp only
              rw [hst]
            | moved hm =>
              refine (stageCopy_failed h name hn.ne_stagingName).trans ?_
              rw [hm]
              exact Directory.lookup_erase_ne hne

theorem stage_keeps (hok : ¬ CollidesWithNamed lib guest s prepared) :
    StageKeepsNamed lib guest s prepared := by
  rintro d rfl h name hn
  have hlock := lock_store d
  unfold stage at h ⊢
  cases hl : lock d with
  | mk r d₁ =>
    rw [hl] at h hlock
    rw [← hlock] at hn hok ⊢
    cases r with
    | some error => rfl
    | none =>
      have hdisk := onDisk_store (inspectPreparedPayload lib guest) d₁ prepared
      cases ho : onDisk (inspectPreparedPayload lib guest) d₁ prepared with
      | mk r d₂ =>
        simp only [ho] at h hdisk ⊢
        rw [← hdisk] at hn hok ⊢
        cases r with
        | error error => rfl
        | ok verified =>
          refine stageVerified_keeps (fun hv hr => ?_) h hn
          by_contra hsame
          refine hok ⟨verified, ?_, hv, hr, by simpa using hsame⟩
          unfold onDisk at ho
          split at ho
          · cases ho
          · exact (Prod.mk.inj ho).1

/-! The way a collision loses the named payload. -/

/-- A system that fails for good after `k` calls. -/
def failAfter (k n : Nat) : Option String := if n < k then none else some "Input/output error"

theorem ask_failAfter_succ (h : d.faults = failAfter (k + 1)) :
    d.ask = (none, { d with faults := failAfter k }) := by
  have hf : (fun n => failAfter (k + 1) (n + 1)) = failAfter k := by
    funext n
    simp [failAfter]
  rw [ask, h, hf]
  rfl

theorem ask_failAfter_zero (h : d.faults = failAfter 0) :
    d.ask = (some "Input/output error", { d with faults := failAfter 0 }) := by
  rw [ask, h]
  rfl

theorem removePayloadTree_faults (name : Bytes) (h : d.faults = failAfter 0) :
    (removePayloadTree d .payloads name).2.faults = failAfter 0 := by
  unfold removePayloadTree
  split
  · exact h
  · rw [ask_failAfter_zero h]
    rfl

theorem stageCopy_fails (lib : Libraries) (guest : Guest)
    (prepared : Option Entry) (payloadId : Bytes)
    (h : d.faults = failAfter 0) :
    (stageCopy lib guest d prepared payloadId).1 ≠ none := by
  have hf := removePayloadTree_faults (stagingName d payloadId) h
  simp [stageCopy, copyTree, ask_failAfter_zero hf, discard]

/-- There is always a second at which the quarantine has room. -/
theorem exists_seconds (quarantine : Directory) (payloadId : Bytes) (pid : Nat) : ∃ seconds,
    quarantine.lookup
      (payloadId ++ bytes "-" ++ (ofNat seconds ++ bytes "-" ++ ofNat pid)) = none := by
  have hinj : Function.Injective fun seconds =>
      payloadId ++ bytes "-" ++ (ofNat seconds ++ bytes "-" ++ ofNat pid) := by
    intro a b hab
    simp only [List.append_assoc, List.append_cancel_left_eq] at hab
    exact ofNat_injective (List.append_cancel_right hab)
  obtain ⟨_, ⟨seconds, rfl⟩, hnot⟩ :=
    (Set.infinite_range_of_injective hinj).exists_notMem_finset (quarantine.map Prod.fst).toFinset
  refine ⟨seconds, List.lookup_eq_none_iff.2 fun p hp => ?_⟩
  by_contra hb
  have heq := by simpa using hb
  exact hnot (by simpa [heq] using ⟨p.2, hp⟩)

/-- The calls `QuarantinePayloadCollision` makes for an entry. -/
def quarantineCalls (e : Entry) : Nat := if isDirectory e then 4 else 3

theorem moveToQuarantine_succeeds (h : d.faults = failAfter (k + 1))
    (hfree : d.store.quarantine.lookup (quarantineName d payloadId) = none) :
    ∃ d', moveToQuarantine d payloadId e = (none, d') ∧ d'.faults = failAfter k ∧
      d'.store.payloads = Directory.erase d.store.payloads payloadId := by
  have hq : d.store.quarantine.lookup
      (quarantineName { d with faults := failAfter k } payloadId) = none := hfree
  have hrename : e.renames none = true := by cases e <;> rfl
  rw [moveToQuarantine, ask_failAfter_succ h]
  dsimp only
  rw [hq, hrename, if_pos rfl]
  exact ⟨_, rfl, rfl, rfl⟩

theorem quarantine_succeeds (h : d.faults = failAfter (k + quarantineCalls e))
    (hfree : d.store.quarantine.lookup (quarantineName d payloadId) = none) :
    ∃ d', quarantinePayloadCollision d payloadId e = (none, d') ∧ d'.faults = failAfter k ∧
      d'.store.payloads = Directory.erase d.store.payloads payloadId := by
  by_cases hd : isDirectory e = true
  · rw [quarantineCalls, if_pos hd] at h
    rw [quarantinePayloadCollision, ask_failAfter_succ (k := k + 3) h]
    dsimp only
    rw [ask_failAfter_succ (k := k + 2) rfl]
    dsimp only
    rw [if_pos hd, ask_failAfter_succ (k := k + 1) rfl]
    exact moveToQuarantine_succeeds (d := { d with faults := failAfter (k + 1) }) rfl hfree
  · rw [quarantineCalls, if_neg hd] at h
    rw [quarantinePayloadCollision, ask_failAfter_succ (k := k + 2) h]
    dsimp only
    rw [ask_failAfter_succ (k := k + 1) rfl]
    dsimp only
    rw [if_neg hd]
    exact moveToQuarantine_succeeds (d := { d with faults := failAfter (k + 1) }) rfl hfree

/-- The quarantine succeeds and everything after it fails. -/
theorem stageVerified_loses {verified : PayloadIntegrity} (prepared : Option Entry)
    (hl : d.store.payloads.lookup verified.payloadId = some e)
    (hn : Named lib d.store verified.payloadId) (hr : resolves (some e) = true)
    (hsame : holdsSame lib guest (some e) verified = false)
    (hfree : d.store.quarantine.lookup (quarantineName d verified.payloadId) = none)
    (hf : d.faults = failAfter (quarantineCalls e + 1)) :
    (stageVerified lib guest d prepared verified).1 ≠ none ∧
      (stageVerified lib guest d prepared verified).2.store.payloads.lookup
        verified.payloadId = none := by
  obtain ⟨d', hd', hfaults, hp⟩ := quarantine_succeeds (k := 0) (e := e)
    (d := { d with faults := failAfter (quarantineCalls e) }) (by simp) hfree
  have hstage : stageVerified lib guest d prepared verified =
      stageCopy lib guest d' prepared verified.payloadId := by
    rw [stageVerified, ask_failAfter_succ hf]
    dsimp only
    rw [hl]
    simp [hr, hsame, hd']
  have hfails := stageCopy_fails lib guest prepared verified.payloadId hfaults
  rw [hstage]
  refine ⟨hfails, (stageCopy_failed hfails _ hn.ne_stagingName).trans ?_⟩
  rw [hp]
  exact Directory.lookup_erase_self

theorem collision_loses (h : CollidesWithNamed lib guest s prepared) :
    ¬ StageKeepsNamed lib guest s prepared := by
  obtain ⟨verified, hi, hn, hr, hsame⟩ := h
  cases hl : s.payloads.lookup verified.payloadId with
  | none => simp [hl, resolves] at hr
  | some e =>
    rw [hl] at hr hsame
    obtain ⟨seconds, hfree⟩ := exists_seconds s.quarantine verified.payloadId 1
    let d : Disk :=
      { store := s, root := "", pid := 1, generation := 0, seconds := seconds
        faults := failAfter (quarantineCalls e + 4), wreck := id }
    obtain ⟨herror, hlost⟩ := stageVerified_loses prepared
      (d := { d with faults := failAfter (quarantineCalls e + 1) }) hl hn hr hsame hfree rfl
    have hstage : (stage lib guest d prepared).1.error =
          (stageVerified lib guest { d with faults := failAfter (quarantineCalls e + 1) } prepared
            verified).1 ∧
        (stage lib guest d prepared).2 =
          (stageVerified lib guest { d with faults := failAfter (quarantineCalls e + 1) } prepared
            verified).2 := by
      rw [stage, lock, ask_failAfter_succ (d := d) (k := quarantineCalls e + 3) rfl]
      dsimp only
      rw [ask_failAfter_succ (k := quarantineCalls e + 2) rfl]
      dsimp only
      rw [onDisk, ask_failAfter_succ (k := quarantineCalls e + 1) rfl]
      dsimp only
      rw [hi]
      exact ⟨rfl, rfl⟩
    intro hk
    have hkept := hk d rfl (hstage.1 ▸ herror) _ hn
    rw [hstage.2, hlost, hl] at hkept
    cases hkept

/-- `Stage` keeps the named payloads through every failure unless the prepared payload collides
with one of them: the collision is moved away before its replacement is known to be good. -/
theorem stage_keeps_named_iff (lib : Libraries) (guest : Guest) (s : Store)
    (prepared : Option Entry) :
    StageKeepsNamed lib guest s prepared ↔ ¬ CollidesWithNamed lib guest s prepared :=
  ⟨fun hk hc => collision_loses hc hk, stage_keeps⟩

/-! A store in use, and an update with the identity of its current payload. -/

def emptyDigest : Bytes :=
  [227, 176, 196, 66, 152, 252, 28, 20, 154, 251, 244, 200, 153, 111, 185, 36, 39, 174, 65, 228,
    100, 155, 147, 76, 164, 149, 153, 27, 120, 82, 184, 85]

def fixtureLine : Bytes := formatHex emptyDigest ++ bytes "  content/fixture" ++ [0]

def fixtureDigest : Bytes :=
  [157, 186, 146, 1, 209, 24, 232, 224, 194, 93, 55, 57, 166, 11, 203, 82, 155, 231, 238, 95, 54,
    243, 222, 133, 121, 38, 181, 167, 89, 46, 6, 51]

def sampleBuildId : Bytes := bytes "1686400865ae0e408cd7bd67de7a439625c6fd13"

def sampleId : Bytes := bytes "2628-" ++ sampleBuildId

/-- The metadata of a payload with empty files and these assets. -/
def sampleMetadata (treeDigest : Bytes) (count : String) : Bytes :=
  bytes "\x7b\"schema_version\":1,\"package\":\"com.roblox.client\"," ++
    bytes "\"version_name\":\"2.727.1199\"," ++
    bytes "\"version_code\":2628,\"elf_build_id\":\"" ++ sampleBuildId ++
    bytes "\",\"sha256\":\x7b\"libroblox\":\"" ++ formatHex emptyDigest ++
    bytes "\",\"base_apk\":\"" ++ formatHex emptyDigest ++
    bytes "\",\"x86_64_split_apk\":\"" ++ formatHex emptyDigest ++
    bytes "\"\x7d,\"assets\":\x7b\"file_count\":" ++ bytes count ++
    bytes ",\"sha256_tree\":\"" ++ formatHex treeDigest ++ bytes "\"\x7d\x7d"

def sampleDocument (treeDigest : Bytes) (count : UInt64) : Json :=
  .object
    [(bytes "assets", .object [(bytes "file_count", .unsigned count),
        (bytes "sha256_tree", .string (formatHex treeDigest))]),
      (bytes "elf_build_id", .string sampleBuildId),
      (bytes "package", .string (bytes "com.roblox.client")),
      (bytes "schema_version", .unsigned 1),
      (bytes "sha256", .object [(bytes "base_apk", .string (formatHex emptyDigest)),
        (bytes "libroblox", .string (formatHex emptyDigest)),
        (bytes "x86_64_split_apk", .string (formatHex emptyDigest))]),
      (bytes "version_code", .unsigned 2628),
      (bytes "version_name", .string (bytes "2.727.1199"))]

def sampleManifest : Bytes :=
  bytes "\x7b\"schema_version\":1,\"payload_id\":\"" ++ sampleId ++
    bytes "\",\"payload_path\":\"payloads/" ++ sampleId ++ bytes "\"\x7d"

/-- The parser and the hash on the texts of the sample. -/
def sampleLibraries : Libraries where
  parse text :=
    if text = sampleManifest then
      some (.object [(bytes "payload_id", .string sampleId),
        (bytes "payload_path", .string (bytes "payloads/" ++ sampleId)),
        (bytes "schema_version", .unsigned 1)])
    else if text = sampleMetadata fixtureDigest "1" then some (sampleDocument fixtureDigest 1)
    else if text = sampleMetadata emptyDigest "0" then some (sampleDocument emptyDigest 0)
    else none
  sha256 contents := if contents = fixtureLine then fixtureDigest else emptyDigest

def samplePayload (metadata : Bytes) (content : Directory) : Entry :=
  .directory
    [(bytes "libroblox.so", .regular []),
      (bytes "sober_apk", .directory
        [(bytes "base.apk", .regular []), (bytes "split_config.x86_64.apk", .regular [])]),
      (bytes "assets", .directory [(bytes "content", .directory content)]),
      (bytes "roblox_payload.json", .regular metadata)]

/-- The running payload has one asset. -/
def installedPayload : Entry :=
  samplePayload (sampleMetadata fixtureDigest "1") [(bytes "fixture", .regular [])]

/-- The update has none. -/
def preparedPayload : Entry := samplePayload (sampleMetadata emptyDigest "0") []

/-- A store that runs the payload, on a disk that fails once the collision is moved away. -/
def failingDisk : Disk where
  store :=
    { files := fun n => if n = .current then some (.regular sampleManifest) else none
      payloads := [(sampleId, installedPayload)]
      quarantine := [] }
  root := "/store"
  pid := 1
  generation := 0
  seconds := 1700000000
  faults := failAfter 8
  wreck := id

theorem named_sampleId : Named sampleLibraries failingDisk.store sampleId :=
  ⟨.current, .inl rfl, sampleManifest, rfl, by decide +kernel, by decide +kernel⟩

/-- Both payloads are sound, the update fails, and the payload that was running is gone. -/
theorem stage_loses_current :
    Named sampleLibraries failingDisk.store sampleId ∧
      (verifyPreparedPayload sampleLibraries .x86_64
        (failingDisk.store.payloads.lookup sampleId)).map (·.payloadId) = .ok sampleId ∧
      (verifyPreparedPayload sampleLibraries .x86_64 (some preparedPayload)).map (·.payloadId) =
        .ok sampleId ∧
      (stage sampleLibraries .x86_64 failingDisk (some preparedPayload)).1.error =
        some "cannot create immutable payload staging directory" ∧
      (stage sampleLibraries .x86_64 failingDisk
        (some preparedPayload)).2.store.payloads.lookup sampleId = none :=
  ⟨named_sampleId, by decide +kernel, by decide +kernel, by decide +kernel,
    Option.isNone_iff_eq_none.1 (by decide +kernel)⟩

end Nightcap.Payload
