import Nightcap.Payload.Activation
import Nightcap.Payload.Publication

/-! The payloads a store keeps: garbage collection spares them, and what becomes current was
verified. -/
namespace Nightcap.Payload

open Utf8 Ascii FileTree Disk

variable {env : Environment} {catalog : Catalog} {s : Store} {d d' : Disk} {n : FileName}
  {payloadId contents name : Bytes} {targets : List (Area × Bytes)} {parse : Bytes → Option Json}

/-- The payload a manifest file names. -/
def Names (parse : Bytes → Option Json) (s : Store) (n : FileName) (payloadId : Bytes) : Prop :=
  ∃ contents, s.files n = some (.regular contents) ∧ contents ≠ [] ∧
    manifestId parse contents = .ok payloadId

/-- A manifest file that is absent, empty, or tells its payload. -/
def Readable (parse : Bytes → Option Json) : Option Entry → Prop
  | none => True
  | some (.regular contents) => contents = [] ∨
      contents.length ≤ kMaximumManifest ∧ ∃ payloadId, manifestId parse contents = .ok payloadId
  | some _ => False

/-! Garbage collection. -/

theorem listDirectories_store (wanted : Bytes → Bool) (entries : Directory) (d : Disk) :
    (listDirectories d wanted entries).2.store = d.store := by
  induction entries generalizing d with
  | nil => rfl
  | cons entry entries ih =>
    obtain ⟨name, e⟩ := entry
    unfold listDirectories
    split
    · next h => exact store_of_ask h
    · next d₁ h =>
      have hs := ih d₁
      split
      next found failed d₂ hl =>
        rw [hl] at hs
        split <;> exact hs.trans (store_of_ask h)

theorem listDirectories_wanted (wanted : Bytes → Bool) (entries : Directory) (d : Disk) :
    ∀ name ∈ (listDirectories d wanted entries).1.1, wanted name = true := by
  induction entries generalizing d with
  | nil => nofun
  | cons entry entries ih =>
    obtain ⟨name, e⟩ := entry
    unfold listDirectories
    split
    · nofun
    · next d₁ h =>
      have hs := ih d₁
      split
      next found failed d₂ hl =>
        rw [hl] at hs
        split
        · dsimp only
          split
          · next hw =>
            intro other hm
            cases hm with
            | head => exact hw
            | tail _ hm => exact hs other hm
          · exact hs
        · exact hs

theorem removePayloadTree_keeps {area : Area} (h : (area, name) ≠ (.payloads, payloadId)) :
    (removePayloadTree d area name).2.store.payloads.lookup payloadId =
      d.store.payloads.lookup payloadId := by
  cases area with
  | payloads =>
    have hne : payloadId ≠ name := by
      rintro rfl
      exact h rfl
    exact removePayloadTree_keepsBut d name payloadId hne
  | quarantine =>
    unfold removePayloadTree
    split
    · rfl
    · split
      all_goals
        next ha =>
          rw [← store_of_ask ha]
          rfl

theorem removeSuperseded_keeps {result : GarbageResult} (h : (Area.payloads, payloadId) ∉ targets) :
    (removeSuperseded d result targets).2.store.payloads.lookup payloadId =
      d.store.payloads.lookup payloadId := by
  induction targets generalizing d result with
  | nil => rfl
  | cons target targets ih =>
    obtain ⟨area, name⟩ := target
    rw [List.mem_cons, not_or] at h
    obtain ⟨hne, hnot⟩ := h
    have hk := @removePayloadTree_keeps d payloadId _ _ (Ne.symm hne)
    unfold removeSuperseded
    split
    all_goals
      next hr =>
        rw [hr] at hk
        exact (ih hnot).trans hk

theorem not_collectable {retained : List Bytes} (hv : validPayloadId payloadId = true)
    (hr : payloadId ∈ retained) : collectable retained payloadId = false := by
  obtain ⟨b, rest, rfl, hb⟩ := validPayloadId_head hv
  have hdot : (46 == b) = false := by
    refine beq_false_of_ne ?_
    rintro rfl
    exact absurd hb (by decide)
  have hstage : (bytes ".stage-").isPrefixOf (b :: rest) = false := by
    change (46 == b && _) = false
    rw [hdot, Bool.false_and]
  simp [collectable, hr, hstage]

/-- What a manifest file that could be read, or is absent, says. -/
def ReadAs (parse : Bytes → Option Json) (s : Store) (n : FileName) (m : Manifest) : Prop :=
  m = ⟨[], []⟩ ∧ (s.files n = none ∨ s.files n = some (.regular [])) ∨
    m.contents ≠ [] ∧ m.contents.length ≤ kMaximumManifest ∧
      s.files n = some (.regular m.contents) ∧ manifestId parse m.contents = .ok m.payloadId

theorem readManifest_readAs {missingOk : Bool} {m : Manifest}
    (h : readManifest parse d n missingOk = (.ok m, d')) : d'.store = d.store ∧
      ReadAs parse d.store n m := by
  obtain ⟨hs, hm⟩ := readManifest_cases parse d n missingOk
  have hb : m.contents.length ≤ kMaximumManifest := readManifest_bounded (congrArg Prod.fst h)
  rw [h] at hs hm
  refine ⟨hs, ?_⟩
  rcases hm m rfl with ⟨he, ⟨_, hf⟩ | hf⟩ | ⟨hne, hf, hid⟩
  · exact .inl ⟨he, .inl hf⟩
  · exact .inl ⟨he, .inr hf⟩
  · exact .inr ⟨hne, hb, hf, hid⟩

theorem ReadAs.readable {m : Manifest} (h : ReadAs parse s n m) : Readable parse (s.files n) := by
  rcases h with ⟨_, hf | hf⟩ | ⟨_, hb, hf, hid⟩
  · rw [hf]
    trivial
  · rw [hf]
    exact .inl rfl
  · rw [hf]
    exact .inr ⟨hb, _, hid⟩

theorem ReadAs.names {m : Manifest} (h : ReadAs parse s n m) (hn : Names parse s n payloadId) :
    m.payloadId = payloadId := by
  obtain ⟨contents, hf, hne, hid⟩ := hn
  rcases h with ⟨_, hf' | hf'⟩ | ⟨_, _, hf', hid'⟩
  · rw [hf] at hf'
    cases hf'
  · rw [hf] at hf'
    cases hf'
    exact absurd rfl hne
  · rw [hf] at hf'
    cases hf'
    exact Except.ok.inj (hid'.symm.trans hid)

/-- What `CollectGarbage` comes to. -/
inductive Collection (parse : Bytes → Option Json) (s : Store) (keep : List Bytes) :
    GarbageResult × Disk → Prop
  | refused {d : Disk} (error : String) (h : d.store = s) :
      Collection parse s keep ({ error := some error }, d)
  | swept {result : GarbageResult} {d : Disk} (current previous : Manifest)
      (hrecovery : s.files .previousRecovery = none ∧ s.files .absentRecovery = none)
      (hcurrent : ReadAs parse s .current current)
      (hprevious : ReadAs parse s .previousGood previous)
      (herror : result.error = none)
      (h : ∀ payloadId, validPayloadId payloadId = true →
        payloadId ∈ keep ∨ payloadId = current.payloadId ∨ payloadId = previous.payloadId →
        d.store.payloads.lookup payloadId = s.payloads.lookup payloadId) :
      Collection parse s keep (result, d)

theorem removeSuperseded_error {result : GarbageResult} :
    (removeSuperseded d result targets).1.error = result.error := by
  induction targets generalizing d result with
  | nil => rfl
  | cons target targets ih =>
    obtain ⟨area, name⟩ := target
    unfold removeSuperseded
    split <;> exact ih

theorem collectGarbage_collection (parse : Bytes → Option Json) (d : Disk) (keep : List Bytes) :
    Collection parse d.store keep (collectGarbage parse d keep) := by
  unfold collectGarbage
  have hl := lock_store d
  generalize lock d = r at hl ⊢
  rcases r with ⟨_ | message, d₁⟩
  rotate_left
  · exact .refused message hl
  obtain ⟨hs, hn⟩ := noPendingRecovery_cases d₁
  dsimp only at hl hs hn ⊢
  generalize noPendingRecovery d₁ = r at hs hn ⊢
  rcases r with ⟨_ | message, d₂⟩
  rotate_left
  · exact .refused message (hs.trans hl)
  have hrecovery := hn rfl
  dsimp only at hs ⊢
  cases hc : readManifest parse d₂ .current true with
  | mk current d₃ =>
    have hs₃ := (readManifest_cases parse d₂ .current true).1
    rw [hc] at hs₃
    cases current with
    | error message => exact .refused message (hs₃.trans (hs.trans hl))
    | ok current =>
      obtain ⟨-, hcurrent⟩ := readManifest_readAs hc
      dsimp only
      cases hp : readManifest parse d₃ .previousGood true with
      | mk previous d₄ =>
        have hs₄ := (readManifest_cases parse d₃ .previousGood true).1
        rw [hp] at hs₄
        cases previous with
        | error message => exact .refused message (hs₄.trans (hs₃.trans (hs.trans hl)))
        | ok previous =>
          obtain ⟨-, hprevious⟩ := readManifest_readAs hp
          dsimp only at hs₃ hs₄ ⊢
          have hstore : d₄.store = d.store := hs₄.trans (hs₃.trans (hs.trans hl))
          generalize hw : collectable _ = wanted
          have hls := listDirectories_store wanted d₄.store.payloads d₄
          have hlw := listDirectories_wanted wanted d₄.store.payloads d₄
          generalize listDirectories d₄ wanted d₄.store.payloads = r at hls hlw ⊢
          rcases r with ⟨⟨found, _ | _⟩, d₅⟩
          rotate_left
          · exact .refused _ (hls.trans hstore)
          have hqs := listDirectories_store (fun _ => true) d₅.store.quarantine d₅
          dsimp only at hls hlw ⊢
          generalize listDirectories d₅ (fun _ => true) d₅.store.quarantine = r at hqs ⊢
          rcases r with ⟨⟨quarantined, failed⟩, d₆⟩
          rw [hs, hl] at hcurrent
          rw [hs₃, hs, hl] at hprevious
          refine .swept current previous (hl ▸ hrecovery) hcurrent hprevious removeSuperseded_error
            fun payloadId hv hkept => ?_
          dsimp only at hqs ⊢
          rw [removeSuperseded_keeps, hqs, hls, hstore]
          -- what is kept was not found
          rw [List.mem_append, not_or]
          refine ⟨fun hm => ?_, fun hm => ?_⟩
          · obtain ⟨name, hfound, he⟩ := List.mem_map.1 hm
            obtain rfl := (Prod.mk.inj he).2
            have hwanted := hlw name hfound
            rw [← hw, not_collectable hv] at hwanted
            · cases hwanted
            · have hne : name ≠ [] := by
                obtain ⟨b, rest, rfl, _⟩ := validPayloadId_head hv
                nofun
              rcases hkept with hk | rfl | rfl
              · exact List.mem_append_left _ hk
              · exact List.mem_append_right _ (by simp [hne])
              · exact List.mem_append_right _ (by simp [hne])
          · obtain ⟨name, _, he⟩ := List.mem_map.1 hm
            cases (Prod.mk.inj he).1

/-! Activation. -/

variable {payload : PayloadIntegrity} {extra : List (Bytes × Json)}
  {seconds : Nat} {generation : Bytes}

theorem lookup_activationFields (payload : PayloadIntegrity) (seconds : Nat) :
    (activationFields payload seconds).lookup (bytes "schema_version") = some (.integer 1) ∧
    (activationFields payload seconds).lookup (bytes "payload_id") = some
    (.string payload.payloadId) ∧
    (activationFields payload seconds).lookup (bytes "payload_path") =
      some (.string (bytes "payloads/" ++ payload.payloadId)) :=
  ⟨rfl, rfl, rfl⟩

/-- An activation manifest, read back, names its payload. -/
theorem manifestId_activation
    (hn : ((activationFields payload seconds ++ extra).map Prod.fst).Nodup)
    (hparse : parse contents = some
      (Json.ofFields (activationFields payload seconds ++ extra)).reread)
    (hv : validPayloadId payload.payloadId = true) :
    manifestId parse contents = .ok payload.payloadId := by
  obtain ⟨fields, hfields, hlookup⟩ := Json.reread_ofFields hn
  obtain ⟨hschema, hid, hpath⟩ := lookup_activationFields payload seconds
  have hfield {key : Bytes} {v : Json}
      (h : (activationFields payload seconds).lookup key = some v) :
      fields.lookup key = some v.reread := by
    rw [hlookup, List.lookup_append, h]
    rfl
  rw [manifestId, hparse, hfields]
  simp only [hfield hschema, hfield hid, hfield hpath, Json.reread]
  have hone : Int64.toUInt64 1 = 1 := rfl
  simp [isOne, hv, hone]

/-- Calls that neither change the store nor wait for the clock. -/
structure Idle (d d' : Disk) : Prop where
  store : d'.store = d.store
  seconds : d'.seconds = d.seconds

theorem Idle.trans {d'' : Disk} (h : Idle d d') (h' : Idle d' d'') : Idle d d'' :=
  ⟨h'.store.trans h.store, h'.seconds.trans h.seconds⟩

theorem idle_ask {r : Option String} (h : d.ask = (r, d')) : Idle d d' := by
  simp only [ask, Prod.mk.injEq] at h
  rw [← h.2]
  exact ⟨rfl, rfl⟩

theorem idle_lock {r : Option String} (h : lock d = (r, d')) : Idle d d' := by
  unfold lock at h
  split at h
  · next ha =>
    cases h
    exact idle_ask ha
  · next ha =>
    split at h
    all_goals
      next hb =>
        cases h
        exact (idle_ask ha).trans (idle_ask hb)

theorem onDisk_ok {check : Option Entry → Except String PayloadIntegrity} {tree : Option Entry}
    (h : onDisk check d tree = (.ok payload, d')) : Idle d d' ∧ check tree = .ok payload := by
  unfold onDisk at h
  split at h
  · cases h
  · next ha =>
    obtain ⟨hc, rfl⟩ := Prod.mk.inj h
    exact ⟨idle_ask ha, hc⟩

theorem verifiedPayload_ok (h : verifiedPayload env d payloadId = (.ok payload, d')) :
    Idle d d' ∧ payload.payloadId = payloadId ∧
      verifyPreparedPayload env.libraries env.guest (d.store.payloads.lookup payloadId) =
        .ok payload := by
  unfold verifiedPayload at h
  split at h
  · cases h
  · next ho =>
    obtain ⟨hi, hc⟩ := onDisk_ok ho
    split at h
    · next he =>
      cases h
      exact ⟨hi, he, hc⟩
    · cases h

/-- What is verified under the lock is what the store holds. -/
theorem verifiedPayload_locked {d₁ : Disk} {r : Option String} (hl : lock d = (r, d₁))
    (hp : verifiedPayload env d₁ payloadId = (.ok payload, d')) :
    Idle d d' ∧ payload.payloadId = payloadId ∧
      verifyPreparedPayload env.libraries env.guest (d.store.payloads.lookup payloadId) =
        .ok payload := by
  obtain ⟨hi, hid, hverified⟩ := verifiedPayload_ok hp
  rw [(idle_lock hl).store] at hverified
  exact ⟨(idle_lock hl).trans hi, hid, hverified⟩

/-- A payload was verified, and a manifest that was printed for it published. -/
structure Published (env : Environment) (d d' : Disk) (payload : PayloadIntegrity)
    (manifest : Json) : Prop where
  valid : validPayloadId payload.payloadId = true
  verified :
    verifyPreparedPayload env.libraries env.guest (d.store.payloads.lookup payload.payloadId) =
    .ok payload
  published : ∃ contents d₁, env.json.dump manifest = some contents ∧ d₁.store = d.store ∧
    publishActivation env.json.parse d₁ payload.payloadId contents = (none, d')

theorem promote_ok {result : PayloadStoreResult}
    (h : promote env catalog d payloadId = some (result, d'))
    (hok : result.ok = true) : ∃ payload, payload.payloadId = payloadId ∧
      Published env d d' payload (activationManifest payload d.seconds) := by
  unfold promote at h
  split at h
  · cases h
    cases hok
  · next hv =>
    split at h
    · cases h
      cases hok
    · next d₁ hl =>
      split at h
      · cases h
        cases hok
      · next payload d₂ hp =>
        obtain ⟨hidle, rfl, hverified⟩ := verifiedPayload_locked hl hp
        split at h
        · cases h
          cases hok
        · split at h
          · cases h
          · next contents hdump =>
            split at h
            next error d₃ hpub =>
              cases h
              have hnone : error = none := by
                cases error with
                | none => rfl
                | some message => cases hok
              subst hnone
              rw [hidle.seconds] at hdump
              exact ⟨payload, rfl, by simpa using hv, hverified,
                contents, d₂, hdump, hidle.store, hpub⟩

theorem promoteProbation_ok {result : PayloadStoreResult} {p : Probation}
    (h : promoteProbation env catalog d payloadId p = some (result, d')) (hok : result.ok = true)
    (happroved : (createCandidateApproval p).ok = true) : ∃ payload, payload.payloadId = payloadId ∧
      Published env d d' payload
        (probationActivationManifest payload (createCandidateApproval p).generation d.seconds) := by
  unfold promoteProbation at h
  split at h
  · cases h
    cases hok
  · next hv =>
    split at h
    · cases h
      cases hok
    · next d₁ hl =>
      split at h
      · cases h
        cases hok
      · next payload d₂ hp =>
        obtain ⟨hidle, rfl, hverified⟩ := verifiedPayload_locked hl hp
        split at h
        · cases h
          cases hok
        · simp only [happroved, Bool.not_true, Bool.false_eq_true, if_false] at h
          split at h
          · cases h
          · next contents hdump =>
            split at h
            · cases h
              cases hok
            · split at h
              · cases h
                cases hok
              · next d₃ hpub =>
                cases h
                rw [hidle.seconds] at hdump
                have hvalid : validPayloadId payload.payloadId = true := by
                  simp only [Bool.or_eq_true, Bool.not_eq_true', not_or, Bool.not_eq_false] at hv
                  exact hv.1
                exact ⟨payload, rfl, hvalid, hverified, contents, d₂, hdump, hidle.store, hpub⟩

/-- `current.json` names a payload whose directory has passed its checks and is as it was then. -/
structure CurrentVerified (env : Environment) (s t : Store) (payloadId : Bytes) : Prop where
  names : Names env.json.parse t .current payloadId
  verified : ∃ payload, payload.payloadId = payloadId ∧
    verifyPreparedPayload env.libraries env.guest (s.payloads.lookup payloadId) = .ok payload
  payloads : t.payloads = s.payloads

/-- A successful publication: the manifest it replaces, if it names another payload, is kept. -/
theorem Publication.done {r : Option String × Disk} (h : Publication parse s payloadId contents r)
    (hr : r.1 = none) : r.2.store.payloads = s.payloads ∧
      r.2.store.files .current = some (.regular contents) ∧
      ∀ old oldId, s.files .current = some (.regular old) → old ≠ [] →
        manifestId parse old = .ok oldId →
        oldId ≠ payloadId → r.2.store.files .previousGood = some (.regular old) := by
  cases h with
  | first _ hc h =>
    have hcurrent := h.files _ lasting_current
    refine ⟨h.payloads, by simpa [Store.put] using hcurrent, ?_⟩
    intro old oldId ho hne hid hdiff
    exact absurd (Except.ok.inj (hid.symm.trans (hc old ho hne))) hdiff
  | replaced old previous _ hc h =>
    have hcurrent := h.files _ lasting_current
    have hprevious := h.files _ lasting_previousGood
    refine ⟨h.payloads.trans ?_, ?_, ?_⟩
    · rfl
    · cases previous <;> simp_all [Store.replaced, Store.saved, Store.put, recoveryName]
    · intro old' oldId ho _ _ _
      rw [hc] at ho
      cases ho
      cases previous <;> simp_all [Store.replaced, Store.saved, Store.put, recoveryName]
  | unchanged message h => cases hr
  | pending message previous h => cases hr

theorem Published.currentVerified {manifest : Json} (h : Published env d d' payload manifest)
    (hj : env.json.FaithfulAt manifest)
    (hid : ∀ contents, env.json.parse contents = some manifest.reread →
      manifestId env.json.parse contents = .ok payload.payloadId) :
    CurrentVerified env d.store d'.store payload.payloadId := by
  obtain ⟨contents, d₁, hdump, hs, hpub⟩ := h.published
  have hp := publishActivation_publication env.json.parse d₁ payload.payloadId contents
  rw [hpub, hs] at hp
  obtain ⟨hpayloads, hcurrent, -⟩ := hp.done rfl
  have hparse := hj.2 contents hdump
  refine ⟨⟨contents, hcurrent, ?_, hid contents hparse⟩, ⟨payload, rfl, h.verified⟩, hpayloads⟩
  rintro rfl
  rw [env.parse_nil] at hparse
  cases hparse

theorem activationKeys_nodup : ((activationFields payload seconds).map Prod.fst).Nodup := by
  change [bytes "schema_version", bytes "payload_id", bytes "payload_path", bytes "version_name",
    bytes "version_code", bytes "elf_build_id", bytes "payload_sha256",
    bytes "activated_at_epoch"].Nodup
  decide +kernel

theorem probationKeys_nodup :
    ((activationFields payload seconds ++ approvalFields payload generation).map
      Prod.fst).Nodup := by
  change [bytes "schema_version", bytes "payload_id", bytes "payload_path", bytes "version_name",
    bytes "version_code", bytes "elf_build_id", bytes "payload_sha256", bytes "activated_at_epoch",
    bytes "approval_path", bytes "host_abi_profile_path", bytes "compatibility_manifest_path"].Nodup
  decide +kernel

/-- What `Rollback` writes is what `previous_good.json` says. -/
theorem rollback_ok {result : PayloadStoreResult} {validation : Option Message}
    (h : rollback env catalog d validation = (result, d')) (hok : result.ok = true) :
    ∃ m payload, ReadAs env.json.parse d.store .previousGood m ∧ payload.payloadId = m.payloadId ∧
      m.payloadId ≠ [] ∧
      verifyPreparedPayload env.libraries env.guest (d.store.payloads.lookup m.payloadId) =
        .ok payload ∧
      Agree (d.store.put .current (some (.regular m.contents))) d'.store := by
  unfold rollback at h
  split at h
  · cases h
    cases hok
  · next d₁ hl =>
    have hs₁ := (idle_lock hl).store
    split at h
    · cases h
      cases hok
    · next m d₂ hr =>
      obtain ⟨hs₂, hread⟩ := readManifest_readAs hr
      rw [hs₁] at hs₂ hread
      split at h
      · cases h
        cases hok
      · next payload d₃ ho =>
        obtain ⟨hi, hverified⟩ := onDisk_ok ho
        have hs₃ := hi.store.trans hs₂
        split at h
        · cases h
          cases hok
        · split at h
          · cases h
            cases hok
          · next hsame =>
            have hid : payload.payloadId = m.payloadId := not_not.1 hsame
            split at h
            next error d₄ hw =>
              cases h
              have hnone : error = none := by
                cases error with
                | none => rfl
                | some message => cases hok
              subst hnone
              have hne : m.payloadId ≠ [] := by
                intro he
                rw [← hid] at he
                simp [PayloadStoreResult.of, PayloadStoreResult.ok, he] at hok
              have hchanged := writeAtomic_changed d₃ .current m.contents
              rw [hw, hs₃] at hchanged
              refine ⟨m, payload, hread, hid, hne, ?_, ?_⟩
              · rw [payloadTree, hs₂] at hverified
                simpa [hne] using hverified
              · cases hchanged with
                | done ha => exact ha

/-! The store over its operations. -/

theorem Names.valid (h : Names parse s n payloadId) : validPayloadId payloadId = true := by
  obtain ⟨contents, _, _, hid⟩ := h
  unfold manifestId at hid
  repeat' split at hid
  all_goals try cases hid
  simp_all

theorem Collection.spares {keep : List Bytes} {r : GarbageResult × Disk}
    (h : Collection parse s keep r) (hn : Names parse s .current payloadId ∨
      Names parse s .previousGood payloadId ∨ payloadId ∈ keep ∧ validPayloadId payloadId = true) :
    r.2.store.payloads.lookup payloadId = s.payloads.lookup payloadId := by
  cases h with
  | refused error hs => rw [hs]
  | swept current previous _ hcurrent hprevious _ hkeeps =>
    rcases hn with hn | hn | ⟨hk, hv⟩
    · exact hkeeps payloadId hn.valid (.inr (.inl (hcurrent.names hn).symm))
    · exact hkeeps payloadId hn.valid (.inr (.inr (hprevious.names hn).symm))
    · exact hkeeps payloadId hv (.inl hk)

theorem Collection.fails {keep : List Bytes} {r : GarbageResult × Disk}
    (h : Collection parse s keep r)
    (hbad : ¬ Readable parse (s.files .current) ∨ ¬ Readable parse (s.files .previousGood) ∨
      s.HasRecovery) : r.1.error.isSome = true := by
  cases h with
  | refused error _ => rfl
  | swept current previous hrecovery hcurrent hprevious _ _ =>
    rcases hbad with hc | hp | hr | hr
    · exact absurd hcurrent.readable hc
    · exact absurd hprevious.readable hp
    · exact absurd hrecovery.1 hr
    · exact absurd hrecovery.2 hr

theorem Collection.nothing {keep : List Bytes} {r : GarbageResult × Disk}
    (h : Collection parse s keep r) (herror : r.1.error.isSome = true) :
    r.1.removed = [] ∧ r.2.store = s := by
  cases h with
  | refused error hs => exact ⟨rfl, hs⟩
  | swept current previous _ _ _ hnone _ =>
    rw [hnone] at herror
    cases herror

theorem rollback_currentVerified {result : PayloadStoreResult} {validation : Option Message}
    (h : rollback env catalog d validation = (result, d')) (hok : result.ok = true) :
    ∃ payloadId, CurrentVerified env d.store d'.store payloadId := by
  obtain ⟨m, payload, hread, hid, hne, hverified, ha⟩ := rollback_ok h hok
  rcases hread with ⟨rfl, _⟩ | ⟨hcontents, _, _, hm⟩
  · exact absurd rfl hne
  · have hcurrent := ha.files _ lasting_current
    refine ⟨m.payloadId, ⟨m.contents, ?_, hcontents, hm⟩, ⟨payload, hid, hverified⟩, ha.payloads⟩
    simpa [Store.put] using hcurrent

theorem rollback_restores {result result' : PayloadStoreResult}
    {d₁ d₂ d₃ : Disk} {old oldId : Bytes}
    {catalog' : Catalog} {validation : Option Message}
    (h : promote env catalog d payloadId = some (result, d₁)) (hok : result.ok = true)
    (hold : d.store.files .current = some (.regular old)) (hne : old ≠ [])
    (hid : manifestId env.json.parse old = .ok oldId) (hdiff : oldId ≠ payloadId)
    (hs : d₂.store = d₁.store) (hr : rollback env catalog' d₂ validation = (result', d₃))
    (hok' : result'.ok = true) : d₃.store.files .current = some (.regular old) := by
  obtain ⟨payload, rfl, hpub⟩ := promote_ok h hok
  obtain ⟨contents, d₀, _, hs₀, hp⟩ := hpub.published
  have hdone := publishActivation_publication env.json.parse d₀ payload.payloadId contents
  rw [hp, hs₀] at hdone
  have hprevious := (hdone.done rfl).2.2 old oldId hold hne hid hdiff
  obtain ⟨m, _, hread, _, hnil, _, ha⟩ := rollback_ok hr hok'
  rcases hread with ⟨rfl, _⟩ | ⟨_, _, hfile, _⟩
  · exact absurd rfl hnil
  · rw [hs] at hfile
    have hm : m.contents = old := by
      have := hfile.symm.trans hprevious
      simpa using this
    have hcurrent := ha.files _ lasting_current
    rw [← hm]
    simpa [Store.put] using hcurrent

/-- The JSON library keeps its promise at the manifest of the payload that is found. -/
def Prints (env : Environment) (d : Disk) (payloadId : Bytes)
    (manifest : PayloadIntegrity → Json) : Prop :=
  ∀ payload, verifyPreparedPayload env.libraries env.guest (d.store.payloads.lookup payloadId) =
    .ok payload → env.json.FaithfulAt (manifest payload)

/-- From any state of a store, whatever fails: a collection spares the payloads that a manifest
names or that are to be kept, and removes nothing when a manifest cannot be read or a recovery is
pending; a promotion or a rollback that succeeds leaves a manifest of a payload it has verified; and
a rollback after the promotion of another payload brings the manifest before it back. -/
theorem payloads_kept (env : Environment) (d : Disk) :
    (∀ keep, let r := collectGarbage env.json.parse d keep
      (∀ payloadId, Names env.json.parse d.store .current payloadId ∨
          Names env.json.parse d.store .previousGood payloadId ∨
          payloadId ∈ keep ∧ validPayloadId payloadId = true →
        r.2.store.payloads.lookup payloadId = d.store.payloads.lookup payloadId) ∧
      (¬ Readable env.json.parse (d.store.files .current) ∨
          ¬ Readable env.json.parse (d.store.files .previousGood) ∨ d.store.HasRecovery →
        r.1.error.isSome = true) ∧
      (r.1.error.isSome = true → r.1.removed = [] ∧ r.2.store = d.store)) ∧
    (∀ catalog payloadId result d', promote env catalog d payloadId = some (result, d') →
      result.ok = true → Prints env d payloadId (activationManifest · d.seconds) →
      CurrentVerified env d.store d'.store payloadId) ∧
    (∀ catalog payloadId p result d',
      promoteProbation env catalog d payloadId p = some (result, d') →
      result.ok = true → (createCandidateApproval p).ok = true →
      Prints env d payloadId
        (probationActivationManifest · (createCandidateApproval p).generation d.seconds) →
      CurrentVerified env d.store d'.store payloadId) ∧
    (∀ catalog validation result d', rollback env catalog d validation = (result, d') →
      result.ok = true → ∃ payloadId, CurrentVerified env d.store d'.store payloadId) ∧
    (∀ catalog payloadId result d₁, promote env catalog d payloadId = some (result, d₁) →
      result.ok = true → ∀ old oldId, d.store.files .current = some (.regular old) → old ≠ [] →
      manifestId env.json.parse old = .ok oldId → oldId ≠ payloadId →
      ∀ catalog' validation d₂ result' d₃, d₂.store = d₁.store →
        rollback env catalog' d₂ validation = (result', d₃) → result'.ok = true →
        d₃.store.files .current = some (.regular old)) := by
  refine ⟨fun keep => ?_, ?_, ?_, ?_, ?_⟩
  · have hc := collectGarbage_collection env.json.parse d keep
    exact ⟨fun _ hn => hc.spares hn, hc.fails, hc.nothing⟩
  · intro catalog payloadId result d' h hok hj
    obtain ⟨payload, rfl, hpub⟩ := promote_ok h hok
    refine hpub.currentVerified (hj payload hpub.verified) fun contents hparse => ?_
    rw [activationManifest, ← List.append_nil (activationFields payload d.seconds)] at hparse
    refine manifestId_activation ?_ hparse hpub.valid
    rw [List.append_nil]
    exact activationKeys_nodup
  · intro catalog payloadId p result d' h hok happroved hj
    obtain ⟨payload, rfl, hpub⟩ := promoteProbation_ok h hok happroved
    refine hpub.currentVerified (hj payload hpub.verified) fun contents hparse => ?_
    exact manifestId_activation probationKeys_nodup hparse hpub.valid
  · intro catalog validation result d' h hok
    exact rollback_currentVerified h hok
  · intro catalog payloadId result d₁ h hok old oldId hold hne hid hdiff catalog' validation
      d₂ result' d₃ hs hr hok'
    exact rollback_restores h hok hold hne hid hdiff hs hr hok'

/-- A runtime whose build ID is no SHA-1 gets no approval, and the promotion succeeds without it. -/
theorem promoteProbation_unapproved {p : Probation} {buildId : Bytes} {d₁ d₂ : Disk}
    (hv : validPayloadId payloadId = true) (hruntime : p.runtimeBinary ≠ [])
    (hlogs : p.canaryLogs.1 ≠ [] ∧ p.canaryLogs.2 ≠ [] ∧ p.canaryLogs.1 ≠ p.canaryLogs.2)
    (hcandidate : p.candidate = none) (hfingerprint : p.fingerprint = none)
    (hbuildId : p.runtimeBuildId = .ok buildId) (hsha1 : lowerHex buildId 40 = false)
    (hl : lock d = (none, d₁)) (hp : verifiedPayload env d₁ payloadId = (.ok payload, d₂))
    (hsupported : exactSupported catalog payload.metadata ≠ none) :
    ∃ result, promoteProbation env catalog d payloadId p = some (result, d₂) ∧ result.ok = true ∧
      d₂.store = d.store := by
  obtain ⟨hi, hid, -⟩ := verifiedPayload_ok hp
  have happroval : createCandidateApproval p = {} := by
    simp [createCandidateApproval, hlogs, hcandidate, hfingerprint, hbuildId, hsha1]
  have hne : payloadId ≠ [] := by
    obtain ⟨b, rest, rfl, _⟩ := validPayloadId_head hv
    nofun
  obtain ⟨message, hunsupported⟩ := Option.ne_none_iff_exists'.1 hsupported
  refine ⟨{ payloadId, error := none }, ?_, ?_, ((idle_lock hl).trans hi).store⟩
  · unfold promoteProbation
    rw [if_neg (by simp [hv, hruntime]), hl]
    simp [hp, hunsupported, happroval, CandidateApproval.ok]
  · simp [PayloadStoreResult.ok, hne]

/-! Two payloads in a store; the second one is an update of the first. -/

def updateId : Bytes := bytes "2629-" ++ sampleBuildId

/-- The metadata of the update, an otherwise equal payload. -/
def updateMetadata : Bytes :=
  bytes "\x7b\"schema_version\":1,\"package\":\"com.roblox.client\"," ++
    bytes "\"version_name\":\"2.728.10\"," ++
    bytes "\"version_code\":2629,\"elf_build_id\":\"" ++ sampleBuildId ++
    bytes "\",\"sha256\":\x7b\"libroblox\":\"" ++ formatHex emptyDigest ++
    bytes "\",\"base_apk\":\"" ++ formatHex emptyDigest ++
    bytes "\",\"x86_64_split_apk\":\"" ++ formatHex emptyDigest ++
    bytes "\"\x7d,\"assets\":\x7b\"file_count\":0,\"sha256_tree\":\"" ++ formatHex emptyDigest ++
    bytes "\"\x7d\x7d"

def updateDocument : Json :=
  .object
    [(bytes "assets", .object [(bytes "file_count", .unsigned 0),
        (bytes "sha256_tree", .string (formatHex emptyDigest))]),
      (bytes "elf_build_id", .string sampleBuildId),
      (bytes "package", .string (bytes "com.roblox.client")),
      (bytes "schema_version", .unsigned 1),
      (bytes "sha256", .object [(bytes "base_apk", .string (formatHex emptyDigest)),
        (bytes "libroblox", .string (formatHex emptyDigest)),
        (bytes "x86_64_split_apk", .string (formatHex emptyDigest))]),
      (bytes "version_code", .unsigned 2629),
      (bytes "version_name", .string (bytes "2.728.10"))]

def updateIntegrity : PayloadIntegrity where
  payloadId := updateId
  metadata :=
    { packageName := bytes "com.roblox.client", versionName := bytes "2.728.10", versionCode := 2629
      buildId := sampleBuildId, librarySha256 := formatHex emptyDigest
      baseApkSha256 := formatHex emptyDigest, splitApkSha256 := formatHex emptyDigest
      assetTreeSha256 := formatHex emptyDigest, assetFileCount := 0 }

/-- What `dump(2)` prints for the update's manifest. -/
def updateManifest : Bytes :=
  bytes "\x7b\n  \"activated_at_epoch\": 1700000000,\n  \"elf_build_id\": \"" ++ sampleBuildId ++
    bytes "\",\n  \"payload_id\": \"" ++ updateId ++
    bytes "\",\n  \"payload_path\": \"payloads/" ++ updateId ++
    bytes "\",\n  \"payload_sha256\": \"" ++ formatHex emptyDigest ++
    bytes "\",\n  \"schema_version\": 1,\n  \"version_code\": 2629,\n" ++
    bytes "  \"version_name\": \"2.728.10\"\n\x7d\n"

def pairEnvironment : Environment where
  guest := .x86_64
  json :=
    { dump := fun _ => some updateManifest
      parse := fun text =>
        if text = updateManifest then some (activationManifest updateIntegrity 1700000000).reread
        else if text = updateMetadata then some updateDocument
        else sampleLibraries.parse text }
  sha256 := sampleLibraries.sha256
  parse_nil := by
    have h : ([] : Bytes) ≠ updateManifest ∧ ([] : Bytes) ≠ updateMetadata ∧
        ([] : Bytes) ≠ sampleManifest ∧
        ([] : Bytes) ≠ sampleMetadata fixtureDigest "1" ∧
        ([] : Bytes) ≠ sampleMetadata emptyDigest "0" := by
      decide +kernel
    simp [sampleLibraries, h]

def pairCatalog : Catalog := .ok [⟨bytes "2.728.10", 2629, sampleBuildId⟩]

/-- A store of both payloads with these manifests. -/
def pairDisk (current previous : Option Entry) : Disk where
  store :=
    { files := fun n =>
        if n = .current then current else if n = .previousGood then previous else none
      payloads := [(sampleId, preparedPayload), (updateId, samplePayload updateMetadata [])]
      quarantine := [] }
  root := "/store"
  pid := 1
  generation := 0
  seconds := 1700000000
  faults := fun _ => none
  wreck := id

def regularContents : Option Entry → Option Bytes
  | some (.regular contents) => some contents
  | _ => none

/-- The update is promoted in a store with these manifests, and rolled back at once: whether both
calls succeed, and what is current in the end. -/
def promotedAndRolledBack (current previous : Option Entry) : Option (Bool × Bool × Option Bytes) :=
  (promote pairEnvironment pairCatalog (pairDisk current previous) updateId).map fun r =>
    match rollback pairEnvironment pairCatalog r.2 none with
    | (result, d) => (r.1.ok, result.ok, regularContents (d.store.files .current))

/-- Promoted while it is current already, the update is not current after the rollback. A collection
in a store whose `current.json` is there but empty removes the payloads. -/
theorem rollback_after_repromotion :
    Names pairEnvironment.json.parse (pairDisk (some (.regular updateManifest))
      (some (.regular sampleManifest))).store .current updateId ∧
    promotedAndRolledBack (some (.regular updateManifest)) (some (.regular sampleManifest)) =
      some (true, true, some sampleManifest) ∧
    manifestId pairEnvironment.json.parse sampleManifest = .ok sampleId ∧ sampleId ≠ updateId ∧
    (collectGarbage pairEnvironment.json.parse (pairDisk (some (.regular [])) none) []).1.removed =
      [sampleId, updateId] :=
  ⟨⟨updateManifest, rfl, by decide +kernel, by decide +kernel⟩,
    by decide +kernel, by decide +kernel, by decide +kernel, by decide +kernel⟩

theorem prints_updateManifest :
    Prints pairEnvironment (pairDisk (some (.regular sampleManifest)) none)
    updateId (activationManifest · 1700000000) := by
  intro payload hverified
  have hupdate : verifyPreparedPayload pairEnvironment.libraries pairEnvironment.guest
      ((pairDisk (some (.regular sampleManifest)) none).store.payloads.lookup updateId) =
        .ok updateIntegrity := by decide +kernel
  obtain rfl := Except.ok.inj (hverified.symm.trans hupdate)
  refine ⟨⟨fun _ => ?_, fun _ => rfl⟩, fun text htext => ?_⟩
  · have hascii (b : Bytes) (h : b.all (· < 128) = true) : WellFormed b :=
      wellFormed_of_ascii (by simpa using h)
    refine Json.textual_ofFields ?_
    simp only [activationFields, Json.TextualFields, Json.Textual]
    refine ⟨?_, trivial, ?_, ?_, ?_, ?_, ?_, ?_, ?_, trivial, ?_, ?_, ?_, ?_, ?_, trivial, trivial⟩
    all_goals exact hascii _ (by decide +kernel)
  · obtain rfl := Option.some.inj htext
    simp [pairEnvironment]

theorem payloads_kept_update : ∃ result d₁,
    promote pairEnvironment pairCatalog (pairDisk (some (.regular sampleManifest)) none) updateId =
      some (result, d₁) ∧ result.ok = true ∧
    CurrentVerified pairEnvironment
      (pairDisk (some (.regular sampleManifest)) none).store d₁.store updateId ∧
    (rollback pairEnvironment pairCatalog d₁ none).1.ok = true ∧
    (rollback pairEnvironment pairCatalog d₁ none).2.store.files .current =
      some (.regular sampleManifest) := by
  have heval : promotedAndRolledBack (some (.regular sampleManifest)) none =
      some (true, true, some sampleManifest) := by decide +kernel
  obtain ⟨⟨result, d₁⟩, hp, hboth⟩ := Option.map_eq_some_iff.1 heval
  obtain ⟨hok, hrest⟩ := Prod.mk.inj hboth
  have hok' := (Prod.mk.inj hrest).1
  obtain ⟨-, hpromote, -, -, hrollback⟩ :=
    payloads_kept pairEnvironment (pairDisk (some (.regular sampleManifest)) none)
  refine ⟨result, d₁, hp, hok, hpromote _ _ _ _ hp hok prints_updateManifest, hok', ?_⟩
  exact hrollback _ _ _ _ hp hok sampleManifest sampleId rfl (by decide +kernel) (by decide +kernel)
    (by decide +kernel) _ _ _ _ _ rfl rfl hok'

end Nightcap.Payload
