import Nightcap.Update.Coordinator

/-! What a run of the updater leaves in `current.json`, and when it breaks its word. -/
namespace Nightcap.Update

def Event.replaced : Event → Option Activation
  | .promoted a => some a
  | .rolledBack a => some a
  | .persisted a => some a
  | _ => none

def Event.runnable : Event → Option PayloadId
  | .examined id => id
  | _ => none

/-- A canary of the payload that succeeded. -/
def Event.passes (id : PayloadId) : Event → Bool
  | .canary payloadId ok => ok && payloadId == some id
  | _ => false

/-- Every activation that was written to `current.json`. -/
def World.replacements (w : World) : List Activation := w.history.filterMap Event.replaced

/-- The payload that was found current and runnable. -/
def World.runnable (w : World) : Option PayloadId := w.history.findSome? Event.runnable

/-- The candidates of a run that gets as far as planning. -/
def candidatesOf (e : Env) (request : UpdateRequest) (current : Option Activation) :
    List UpdateCandidatePlan :=
  match preferredSupportedProfile e.catalog.profiles with
  | none => []
  | some preferred =>
    let active := readCurrent current e.current
    let latest := preferDownloaded e request e.catalog.profiles active e.stored.latestDownloaded
      (checkLatest e request {}).1
    planUpdateCandidates e.catalog.profiles preferred latest active
      (readInstalled e active { current })

/-- A promotion that the run may make: of a candidate, after the canaries it needs. -/
def Probed (e : Env) (request : UpdateRequest) (current : Option Activation) (a : Activation)
    (before : List Event) : Prop :=
  ∃ plan ∈ candidatesOf e request current,
    a.payloadId.versionCode = plan.identity.versionCode ∧
    (plan.exactSupported = false → request.runCanary = true) ∧
    before.countP (Event.passes a.payloadId) =
      if plan.exactSupported then (if request.runCanary then 1 else 0) else 2

/-- What a run promises about `current.json`. -/
structure Kept (e : Env) (request : UpdateRequest) (current : Option Activation)
    (result : UpdateResult) (w : World) : Prop where
  failed : result.error ≠ "" → w.current = current
  untouched : request.downloadOnly = true ∨ request.forceRunLatest = true → w.replacements = []
  once : w.replacements.length ≤ 1
  either : ∀ ev ∈ w.history, ev.replaced ≠ none → ∃ a, ev = .rolledBack a ∨ ev = .promoted a
  replaced : w.current = (w.replacements.getLast?).or current
  rolledBack : ∀ a, .rolledBack a ∈ w.history →
    e.config.automatic = false ∧ request.startupPreflight = true ∧ w.runnable = none
  promoted : ∀ a, .promoted a ∈ w.history →
    ∃ before, w.history = before ++ [.promoted a] ∧ Probed e request current a before
  newer : ∀ a id, .promoted a ∈ w.history → w.runnable = some id →
    id.versionCode < a.payloadId.versionCode
  changed : result.changed = true ↔
    ∃ a ∈ w.replacements, w.current = some a ∧ w.runnable ≠ some a.payloadId

/-- The run gets as far as the payload that is current. -/
structure Begun (e : Env) : Prop where
  lock : e.lock = none
  config : e.config.error.isEmpty = true
  source : e.config.source = "apk-pure" ∨ e.config.source = "auto"
  catalog : e.catalog.error.isEmpty = true
  profiles : e.catalog.profiles ≠ []

/-- With automatic updates off, a startup without a runnable payload rolls back. -/
structure RollsBack (e : Env) (request : UpdateRequest) (current : Option Activation)
    (a : Activation) : Prop where
  begun : Begun e
  disabled : e.config.automatic = false
  startup : request.startupPreflight = true
  activating : request.downloadOnly = false ∧ request.forceRunLatest = false
  unrunnable : (readCurrent current e.current).ok = false
  rollback : e.rollback = .ok a

/-- The rollback is to a payload that turns out not to be runnable either. -/
def Stranded (e : Env) (request : UpdateRequest) (current : Option Activation) : Prop :=
  ∃ a, RollsBack e request current a ∧ (readCurrent (some a) e.rolledBack).ok = false

/-- A payload passes its verification, and its manifest has no hash yet. -/
def Rehashed (current : Option Activation) (v : Verification) : Prop :=
  ∃ a versionName librarySha256, current = some a ∧ a.payloadSha256 = none ∧
    v = .verified versionName librarySha256

/-- One of the two verifications of the run writes the hash into `current.json`. -/
def Rewritten (e : Env) (request : UpdateRequest) (current : Option Activation) : Prop :=
  (Begun e ∧ request.downloadOnly = false ∧ Rehashed current e.current) ∨
    ∃ a, RollsBack e request current a ∧ Rehashed (some a) e.rolledBack

variable {e : Env} {a : Attempt} {request : UpdateRequest} {r r' : Run} {w w' : World}
  {es : List Event} {plan : UpdateCandidatePlan} {plans : List UpdateCandidatePlan}
  {candidate : Candidate} {current installed : PayloadStoreResult} {id : PayloadId}
  {code : UInt64} {blocked : String} {tried : Tried}

/-- Events that leave `current.json` alone, all canaries among them of payloads of one version. -/
def Quiet (code : UInt64) (es : List Event) : Prop :=
  ∀ ev ∈ es, ev.replaced = none ∧ ev.runnable = none ∧
    ∀ id, ev.passes id = true → id.versionCode = code

theorem Quiet.nil (code : UInt64) : Quiet code [] := by simp [Quiet]

theorem Quiet.append {es' : List Event} (h : Quiet code es) (h' : Quiet code es') :
    Quiet code (es ++ es') := by
  intro ev hev
  rcases List.mem_append.1 hev with hev | hev
  · exact h ev hev
  · exact h' ev hev

/-- A run of canaries: what it adds to the history. -/
theorem runCanaries_spec (canary : Nat → CanaryResult) (candidate : Candidate)
    (hid : candidate.staged.payloadId = some id) (index runs : Nat) (w : World) :
    ∃ es, (runCanaries canary candidate index runs w).2 = { w with history := w.history ++ es } ∧
      Quiet id.versionCode es ∧
      ((runCanaries canary candidate index runs w).1.passed = true →
        es.countP (Event.passes id) = runs) := by
  induction runs generalizing index w with
  | zero => exact ⟨[], by simp [runCanaries], .nil _, fun _ => rfl⟩
  | succ runs ih =>
    have hq : Quiet id.versionCode [.canary candidate.staged.payloadId (canary index).ok] := by
      intro ev hev
      obtain rfl := List.mem_singleton.1 hev
      refine ⟨rfl, rfl, fun id' hp => ?_⟩
      simp only [Event.passes, hid, Bool.and_eq_true, beq_iff_eq, Option.some.injEq] at hp
      rw [hp.2]
    cases hok : (canary index).ok with
    | false =>
      refine ⟨_, ?_, hq, ?_⟩
      · simp [runCanaries, hok, World.record]
      · simp [runCanaries, hok]
    | true =>
      obtain ⟨es, hw, hqs, hc⟩ := ih (index + 1)
        (w.record (.canary candidate.staged.payloadId true))
      rw [hok] at hq
      refine ⟨.canary candidate.staged.payloadId true :: es, ?_, hq.append hqs, ?_⟩
      · simp only [runCanaries, hok, Bool.not_true, Bool.false_eq_true, if_false]
        rw [hw]
        simp [World.record]
      · simp only [runCanaries, hok, Bool.not_true, Bool.false_eq_true, if_false]
        intro hp
        have hpass : Event.passes id (.canary candidate.staged.payloadId true) = true := by
          simp [Event.passes, hid]
        rw [List.countP_cons_of_pos hpass, hc hp]

/-- How many canaries a candidate needs. -/
def canariesOf (exactSupported runCanary : Bool) : Nat :=
  if exactSupported then (if runCanary then 1 else 0) else 2

theorem runCandidateCanaries_spec (canary : Nat → CanaryResult) (candidate : Candidate)
    (hid : candidate.staged.payloadId = some id) (runCanary : Bool) (w : World) :
    ∃ es, (runCandidateCanaries canary candidate runCanary w).2 =
        { w with history := w.history ++ es } ∧
      Quiet id.versionCode es ∧
      ((runCandidateCanaries canary candidate runCanary w).1.passed = true →
        (candidate.exactSupported = false → runCanary = true) ∧
        es.countP (Event.passes id) = canariesOf candidate.exactSupported runCanary) := by
  unfold runCandidateCanaries
  cases runCanary with
  | false =>
    refine ⟨[], ?_, .nil _, ?_⟩ <;> cases candidate.exactSupported <;> simp [canariesOf]
  | true =>
    obtain ⟨es, hw, hq, hc⟩ := runCanaries_spec canary candidate hid 0
      (if candidate.exactSupported then 1 else 2) w
    refine ⟨es, hw, hq, fun hp => ⟨fun _ => rfl, ?_⟩⟩
    rw [hc hp]
    cases candidate.exactSupported <;> rfl

/-- What trying a candidate may do: nothing to `current.json`, or its promotion at the very end. -/
inductive Tries (request : UpdateRequest) (id : PayloadId) (exact : Bool) (w : World) :
    Option Activation → World → Prop
  | refused {es : List Event} (hq : Quiet id.versionCode es) :
      Tries request id exact w none { w with history := w.history ++ es }
  | promoted {es : List Event} {a : Activation} (hq : Quiet id.versionCode es)
      (ha : a.payloadId = id) (hp : exact = false → request.runCanary = true)
      (hc : es.countP (Event.passes id) = canariesOf exact request.runCanary) :
      Tries request id exact w (some a)
        { current := some a, history := w.history ++ es ++ [.promoted a] }

/-- More quiet events before a try belong to it. -/
theorem Tries.after {exact : Bool} {o : Option Activation} (hq : Quiet id.versionCode es)
    (hc : es.countP (Event.passes id) = 0)
    (h : Tries request id exact { w with history := w.history ++ es } o w') :
    Tries request id exact w o w' := by
  cases h with
  | refused hq' =>
    have ht : Tries request id exact w none _ := .refused (hq.append hq')
    simpa using ht
  | promoted hq' ha hp hc' =>
    rename_i es' a
    have hcount : (es ++ es').countP (Event.passes id) = canariesOf exact request.runCanary := by
      rw [List.countP_append, hc, hc', Nat.zero_add]
    have ht : Tries request id exact w (some a) _ := .promoted (hq.append hq') ha hp hcount
    simpa using ht

theorem storePromote_spec (promotion : Except Failure Promotion) (candidate : Candidate)
    (hid : candidate.staged.payloadId = some id) (w : World) :
    ((storePromote promotion candidate w).1.ok = false ∧
      (storePromote promotion candidate w).2 = w) ∨
    ∃ a, a.payloadId = id ∧ (storePromote promotion candidate w).1.ok = true ∧
      (storePromote promotion candidate w).1.payloadId = some id ∧
      (storePromote promotion candidate w).2 = w.promote a := by
  unfold storePromote
  rw [hid]
  cases promotion with
  | error error => exact .inl ⟨by simp [PayloadStoreResult.ok, error.2], rfl⟩
  | ok p =>
    cases candidate.exactSupported with
    | true => exact .inr ⟨_, rfl, rfl, rfl, rfl⟩
    | false => exact .inr ⟨_, rfl, rfl, rfl, rfl⟩

theorem quiet_promoting (code : UInt64) (candidate : Candidate) :
    Quiet code [.promoting candidate] := by
  intro ev hev
  obtain rfl := List.mem_singleton.1 hev
  exact ⟨rfl, rfl, fun _ hp => nomatch hp⟩

theorem quiet_derived (code : UInt64) (payloadId : Option PayloadId) (ok : Bool) :
    Quiet code [.derived payloadId ok] := by
  intro ev hev
  obtain rfl := List.mem_singleton.1 hev
  exact ⟨rfl, rfl, fun _ hp => nomatch hp⟩

/-- A promotion either reports success, or leaves `current.json` alone. -/
theorem promoteCandidate_spec (a : Attempt) (request : UpdateRequest) (candidate : Candidate)
    (hid : candidate.staged.payloadId = some id) (w : World) :
    ∃ o, Tries request id candidate.exactSupported w o (promoteCandidate a request candidate w).2 ∧
      (o = none → ((promoteCandidate a request candidate w).1.error.isEmpty &&
        (promoteCandidate a request candidate w).1.promoted.ok) = false) ∧
      (o ≠ none → (promoteCandidate a request candidate w).1.error = "" ∧
        (promoteCandidate a request candidate w).1.promoted.ok = true ∧
        (promoteCandidate a request candidate w).1.promoted.payloadId = some id) := by
  obtain ⟨es, hw, hq, hc⟩ := runCandidateCanaries_spec a.canary candidate hid request.runCanary
    (w.record (.promoting candidate))
  have hp := quiet_promoting id.versionCode candidate
  have hp0 : [Event.promoting candidate].countP (Event.passes id) = 0 := rfl
  cases hpass : (runCandidateCanaries a.canary candidate request.runCanary
      (w.record (.promoting candidate))).1.passed with
  | false =>
    refine ⟨none, ?_, ?_, fun h => absurd rfl h⟩
    · simp only [promoteCandidate, hpass, Bool.not_false, if_true]
      rw [hw]
      exact .after hp hp0 (.refused hq)
    · intro _
      simp only [promoteCandidate, hpass, Bool.not_false, if_true]
      exact Bool.and_false _
  | true =>
    obtain ⟨hrun, hcount⟩ := hc hpass
    rcases storePromote_spec a.promotion candidate hid (runCandidateCanaries a.canary candidate
      request.runCanary (w.record (.promoting candidate))).2 with
        ⟨hok, hs⟩ | ⟨act, ha, hok, hpid, hs⟩
    · refine ⟨none, ?_, ?_, fun h => absurd rfl h⟩
      · simp only [promoteCandidate, hpass, Bool.not_true, Bool.false_eq_true, if_false]
        rw [hs, hw]
        exact .after hp hp0 (.refused hq)
      · intro _
        simp only [promoteCandidate, hpass, Bool.not_true, Bool.false_eq_true, if_false, hok,
          Bool.and_false]
    · refine ⟨some act, ?_, (nomatch ·), fun _ => ?_⟩
      · simp only [promoteCandidate, hpass, Bool.not_true, Bool.false_eq_true, if_false]
        rw [hs, hw]
        exact .after hp hp0 (.promoted hq ha hrun hcount)
      · simp only [promoteCandidate, hpass, Bool.not_true,
          Bool.false_eq_true, if_false, hok, if_true]
        exact ⟨trivial, trivial, hpid⟩

theorem deriveCandidate_spec (a : Attempt) (candidate : Candidate) (w : World) (code : UInt64) :
    ∃ es, (deriveCandidate a candidate w).2 = { w with history := w.history ++ es } ∧
      Quiet code es ∧ (∀ id, es.countP (Event.passes id) = 0) ∧
      (deriveCandidate a candidate w).1.1.staged = candidate.staged ∧
      (deriveCandidate a candidate w).1.1.exactSupported = candidate.exactSupported := by
  unfold deriveCandidate
  split_ifs with h1 h2 h3
  · exact ⟨[], by simp, .nil _, fun _ => rfl, rfl, rfl⟩
  · exact ⟨_, rfl, quiet_derived _ _ _, fun _ => rfl, rfl, rfl⟩
  · exact ⟨_, rfl, quiet_derived _ _ _, fun _ => rfl, rfl, rfl⟩
  · exact ⟨[], by simp, .nil _, fun _ => rfl, rfl, rfl⟩

/-- How trying one plan may end. -/
inductive TriedPlan (request : UpdateRequest) (current : PayloadStoreResult)
    (plan : UpdateCandidatePlan) (r : Run) (w : World) : Tried → World → Prop
  | blocked {es : List Event} {r' : Run} {reason : String}
      (hq : Quiet plan.identity.versionCode es) (hr : r'.result = r.result) :
      TriedPlan request current plan r w (.blocked r' reason) { w with history := w.history ++ es }
  | ready {r' : Run} (hd : request.downloadOnly = true)
      (hc : r'.result.changed = r.result.changed) (he : r'.result.error = r.result.error) :
      TriedPlan request current plan r w (.over r') w
  | installed {es : List Event} {a : Activation} {r' : Run} (hd : request.downloadOnly = false)
      (hq : Quiet plan.identity.versionCode es)
      (ha : a.payloadId.versionCode = plan.identity.versionCode)
      (hp : plan.exactSupported = false → request.runCanary = true)
      (hn : es.countP (Event.passes a.payloadId) =
        canariesOf plan.exactSupported request.runCanary)
      (hc : r'.result.changed = (!current.ok || current.payloadId != some a.payloadId))
      (he : r'.result.error = r.result.error) :
      TriedPlan request current plan r w (.over r')
        { current := some a, history := w.history ++ es ++ [.promoted a] }

theorem activate_spec (e : Env) (a : Attempt) (current : PayloadStoreResult)
    (hd : request.downloadOnly = false)
    (hid : candidate.staged.payloadId = some id)
    (hcode : id.versionCode = plan.identity.versionCode)
    (hex : candidate.exactSupported = plan.exactSupported)
    (blocked : String) (r : Run) (w : World) :
    TriedPlan request current plan r w
      (activate e a request current plan candidate blocked r w).1
      (activate e a request current plan candidate blocked r w).2 := by
  obtain ⟨es, hw, hq, hc0, hstaged, hexact⟩ :=
    deriveCandidate_spec a candidate w plan.identity.versionCode
  unfold activate
  generalize hdc : deriveCandidate a candidate w = d at hw hstaged hexact
  obtain ⟨⟨candidate', error⟩, w₁⟩ := d
  dsimp only at hw hstaged hexact ⊢
  subst hw
  cases herr : error.isEmpty with
  | false =>
    simp only [herr, Bool.false_eq_true, if_false, Bool.false_and]
    exact .blocked hq rfl
  | true =>
    rw [← hstaged] at hid
    obtain ⟨o, ht, hnone, hsome⟩ := promoteCandidate_spec a request candidate' hid
      { w with history := w.history ++ es }
    rw [← hcode] at hq
    have ht := ht.after hq (hc0 id)
    simp only [if_true]
    generalize promoteCandidate a request candidate' { w with history := w.history ++ es } = out
      at ht hnone hsome
    obtain ⟨outcome, w₂⟩ := out
    dsimp only at ht hnone hsome ⊢
    cases ht with
    | refused hq' =>
      rw [hnone rfl]
      rw [hcode] at hq'
      exact .blocked hq' rfl
    | promoted hq' ha hp hn =>
      obtain ⟨he, hok, hpid⟩ := hsome (nomatch ·)
      rw [hcode] at hq'
      subst ha
      rw [hexact, hex] at hp hn
      have hempty : outcome.error.isEmpty = true := by rw [he]; rfl
      simp only [hempty, hok, Bool.and_self, if_true]
      refine .installed hd hq' hcode hp hn ?_ rfl
      rw [hpid]

theorem matching_spec {entry : PayloadEntry} {identity : ExpectedPayloadIdentity}
    {staged : PayloadStoreResult} (h : entry.matching identity = some staged) :
    ∃ id, staged.payloadId = some id ∧ id.versionCode = identity.versionCode := by
  unfold PayloadEntry.matching at h
  split at h
  · split at h
    · rename_i id versionName _ _ hm
      obtain rfl : { payloadId := some id, versionName } = staged := by simpa using h
      exact ⟨id, rfl, hm.2.2.1⟩
    · cases h
  · cases h

theorem findStagedCandidate_spec {listing : PayloadListing} {identity : ExpectedPayloadIdentity}
    {exact verified : Bool} (h : (findStagedCandidate listing identity exact verified).ok = true) :
    (findStagedCandidate listing identity exact verified).exactSupported = exact ∧
    ∃ id, (findStagedCandidate listing identity exact verified).staged.payloadId = some id ∧
      id.versionCode = identity.versionCode := by
  unfold findStagedCandidate at h ⊢
  split at h
  · rename_i staged hm
    split_ifs at h ⊢ with hf
    · cases h
    · have hmem : staged ∈ listing.entries.filterMap (·.matching identity) := by simp [hm]
      obtain ⟨entry, -, he⟩ := List.mem_filterMap.1 hmem
      exact ⟨rfl, matching_spec he⟩
  · cases h

/-- A candidate that was prepared is of the version that was planned. -/
theorem prepareCandidate_spec
    (hre : plan.reuseInstalled = true → installed.ok = true ∧
      installed.versionCode = plan.identity.versionCode)
    (h : (prepareCandidate a installed plan).ok = true) :
    (prepareCandidate a installed plan).exactSupported = plan.exactSupported ∧
    ∃ id, (prepareCandidate a installed plan).staged.payloadId = some id ∧
      id.versionCode = plan.identity.versionCode := by
  unfold prepareCandidate at h ⊢
  cases hr : plan.reuseInstalled with
  | true =>
    obtain ⟨hok, hcode⟩ := hre hr
    simp only [PayloadStoreResult.ok, Bool.and_eq_true] at hok
    obtain ⟨id, hid⟩ := Option.isSome_iff_exists.1 hok.2
    refine ⟨rfl, id, hid, ?_⟩
    rwa [PayloadStoreResult.versionCode, hid] at hcode
  | false =>
    simp only [hr, Bool.false_eq_true, if_false] at h ⊢
    unfold stagedOrDownloaded at h ⊢
    dsimp only at h ⊢
    split_ifs at h ⊢ with hs
    · exact findStagedCandidate_spec hs
    · cases hd : a.download with
      | refused error =>
        rw [hd] at h
        simp [downloadCandidate, Candidate.ok, PayloadStoreResult.ok] at h
      | unstaged error =>
        rw [hd] at h
        simp [downloadCandidate, Candidate.ok, error.2] at h
      | staged buildId => exact ⟨rfl, _, rfl, rfl⟩

theorem rememberDownloaded_result (r : Run) (candidate : Candidate) :
    (rememberDownloaded r candidate).result = r.result := by
  unfold rememberDownloaded
  split_ifs <;> rfl

theorem tryPlan_spec (e : Env) (a : Attempt) (request : UpdateRequest)
    (current : PayloadStoreResult)
    (hre : plan.reuseInstalled = true → installed.ok = true ∧
      installed.versionCode = plan.identity.versionCode) (blocked : String) (r : Run) (w : World) :
    TriedPlan request current plan r w
      (tryPlan e a request current installed plan blocked r w).1
      (tryPlan e a request current installed plan blocked r w).2 := by
  have hquiet (r' : Run) (reason : String) (hr : r'.result = r.result) :
      TriedPlan request current plan r w (.blocked r' reason) w := by
    have ht : TriedPlan request current plan r w (.blocked r' reason) _ := .blocked (.nil _) hr
    simpa using ht
  have hrem := rememberDownloaded_result r (prepareCandidate a installed plan)
  unfold tryPlan
  dsimp only
  split_ifs with h1 h2 h3
  · exact hquiet _ _ rfl
  · have hd : request.downloadOnly = true := by
      simp only [Bool.and_eq_true] at h2
      exact h2.1
    refine .ready hd ?_ ?_
    · simp only [Run.savePhase, Run.keep, hrem]
    · simp only [Run.savePhase, Run.keep, hrem]
  · exact hquiet _ _ hrem
  · have hok : (prepareCandidate a installed plan).ok = true := by simpa using h1
    have hd : request.downloadOnly = false := by
      rw [Bool.not_eq_true] at h2 h3
      rw [h3, Bool.not_false, Bool.and_true] at h2
      exact h2
    obtain ⟨hex, id, hid, hcode⟩ := prepareCandidate_spec hre hok
    have ht := activate_spec e a current hd hid hcode hex blocked
      ((rememberDownloaded r (prepareCandidate a installed plan)).savePhase "verifying") w
    generalize activate e a request current plan (prepareCandidate a installed plan) blocked
      ((rememberDownloaded r (prepareCandidate a installed plan)).savePhase "verifying")
        w = out at ht
    obtain ⟨tried, w'⟩ := out
    dsimp only at ht ⊢
    have hres : ((rememberDownloaded r (prepareCandidate a installed plan)).savePhase
      "verifying").result = r.result := hrem
    cases ht with
    | blocked hq hr => exact .blocked hq (hr.trans hres)
    | ready hd hc he => exact .ready hd (hc.trans (by rw [hres])) (he.trans (by rw [hres]))
    | installed hd hq ha hp hn hc he =>
      exact .installed hd hq ha hp hn hc (he.trans (by rw [hres]))

/-- Events of trying the plans that leave `current.json` alone. -/
def Idle (plans : List UpdateCandidatePlan) (es : List Event) : Prop :=
  ∀ ev ∈ es, ev.replaced = none ∧ ev.runnable = none ∧
    ∀ id, ev.passes id = true → ∃ plan ∈ plans, id.versionCode = plan.identity.versionCode

theorem Quiet.idle (h : Quiet plan.identity.versionCode es) (hp : plan ∈ plans) :
    Idle plans es := by
  intro ev hev
  obtain ⟨h1, h2, h3⟩ := h ev hev
  exact ⟨h1, h2, fun id hid => ⟨plan, hp, h3 id hid⟩⟩

theorem Idle.nil (plans : List UpdateCandidatePlan) : Idle plans [] := nofun

theorem Idle.append {es' : List Event} (h : Idle plans es) (h' : Idle plans es') :
    Idle plans (es ++ es') := by
  intro ev hev
  rcases List.mem_append.1 hev with hev | hev
  · exact h ev hev
  · exact h' ev hev

theorem Idle.mono {plans' : List UpdateCandidatePlan} (h : Idle plans es)
    (hs : ∀ plan ∈ plans, plan ∈ plans') : Idle plans' es := by
  intro ev hev
  obtain ⟨h1, h2, h3⟩ := h ev hev
  refine ⟨h1, h2, fun id hid => ?_⟩
  obtain ⟨plan, hp, hc⟩ := h3 id hid
  exact ⟨plan, hs plan hp, hc⟩

/-- No canary of another version counts. -/
theorem Quiet.countP_eq_zero (h : Quiet code es) (hne : id.versionCode ≠ code) :
    es.countP (Event.passes id) = 0 := by
  rw [List.countP_eq_zero]
  intro ev hev hp
  exact hne ((h ev hev).2.2 id hp)

/-- How the loop over the plans may end. -/
inductive TriedPlans (request : UpdateRequest) (current : PayloadStoreResult)
    (plans : List UpdateCandidatePlan) (r : Run) (w : World) : Tried → World → Prop
  | blocked {es : List Event} {r' : Run} {reason : String} (hq : Idle plans es)
      (hr : r'.result = r.result) :
      TriedPlans request current plans r w (.blocked r' reason)
        { w with history := w.history ++ es }
  | ready {es : List Event} {r' : Run} (hd : request.downloadOnly = true) (hq : Idle plans es)
      (hc : r'.result.changed = r.result.changed) (he : r'.result.error = r.result.error) :
      TriedPlans request current plans r w (.over r') { w with history := w.history ++ es }
  | installed {es : List Event} {a : Activation} {r' : Run} {plan : UpdateCandidatePlan}
      (hd : request.downloadOnly = false) (hplan : plan ∈ plans) (hq : Idle plans es)
      (ha : a.payloadId.versionCode = plan.identity.versionCode)
      (hp : plan.exactSupported = false → request.runCanary = true)
      (hn : es.countP (Event.passes a.payloadId) =
        canariesOf plan.exactSupported request.runCanary)
      (hc : r'.result.changed = (!current.ok || current.payloadId != some a.payloadId))
      (he : r'.result.error = r.result.error) :
      TriedPlans request current plans r w (.over r')
        { current := some a, history := w.history ++ es ++ [.promoted a] }

theorem tryPlans_spec (e : Env) (request : UpdateRequest) (current : PayloadStoreResult)
    (attempt : Nat)
    (hre : ∀ plan ∈ plans, plan.reuseInstalled = true → installed.ok = true ∧
      installed.versionCode = plan.identity.versionCode)
    (hnd : (plans.map (·.identity.versionCode)).Nodup) (blocked : String) (r : Run) (w : World) :
    TriedPlans request current plans r w
      (tryPlans e request current installed attempt plans blocked r w).1
      (tryPlans e request current installed attempt plans blocked r w).2 := by
  induction plans generalizing attempt blocked r w with
  | nil =>
    have ht : TriedPlans request current [] r w (.blocked r blocked) _ :=
      .blocked (Idle.nil _) rfl
    simpa [tryPlans] using ht
  | cons plan plans ih =>
    rw [List.map_cons, List.nodup_cons] at hnd
    have ht := tryPlan_spec e (e.attempt attempt) request current
      (hre plan List.mem_cons_self) blocked r w
    have hsub : ∀ p ∈ plans, p ∈ plan :: plans := fun p hp => List.mem_cons_of_mem _ hp
    unfold tryPlans
    generalize tryPlan e (e.attempt attempt) request current installed plan blocked r w = out at ht
    obtain ⟨tried, w₁⟩ := out
    dsimp only at ht
    cases ht with
    | ready hd hc he =>
      have ht : TriedPlans request current (plan :: plans) r w _ _ :=
        .ready hd (Idle.nil _) hc he
      simpa using ht
    | installed hd hq ha hp hn hc he =>
      exact .installed hd List.mem_cons_self (hq.idle List.mem_cons_self) ha hp hn hc he
    | blocked hq hr =>
      rename_i es r₁ reason
      have hi : Idle (plan :: plans) es := hq.idle List.mem_cons_self
      have hrest := ih (attempt + 1) (fun p hp => hre p (hsub p hp)) hnd.2 reason r₁
        { w with history := w.history ++ es }
      dsimp only
      generalize tryPlans e request current installed (attempt + 1) plans reason r₁
        { w with history := w.history ++ es } = out at hrest
      obtain ⟨tried, w₂⟩ := out
      dsimp only at hrest
      cases hrest with
      | blocked hq' hr' =>
        rename_i es' r₂ reason'
        have ht : TriedPlans request current (plan :: plans) r w (.blocked r₂ reason') _ :=
          .blocked (hi.append (hq'.mono hsub)) (hr'.trans hr)
        simpa using ht
      | ready hd hq' hc he =>
        have ht : TriedPlans request current (plan :: plans) r w _ _ :=
          .ready hd (hi.append (hq'.mono hsub)) (hc.trans (by rw [hr])) (he.trans (by rw [hr]))
        simpa using ht
      | installed hd hplan hq' ha hp hn hc he =>
        rename_i es' a r₂ p
        have hne : a.payloadId.versionCode ≠ plan.identity.versionCode := by
          intro hcode
          apply hnd.1
          rw [← hcode, ha]
          exact List.mem_map_of_mem hplan
        have hcount : (es ++ es').countP (Event.passes a.payloadId) =
            canariesOf p.exactSupported request.runCanary := by
          rw [List.countP_append, hq.countP_eq_zero hne, hn, Nat.zero_add]
        have ht : TriedPlans request current (plan :: plans) r w _ _ :=
          .installed hd (hsub p hplan) (hi.append (hq'.mono hsub)) ha hp hcount hc
            (he.trans (by rw [hr]))
        simpa using ht

/-- What is planned is newer than what runs, of two different versions at most, and only the
installed payload itself is used again. -/
theorem planUpdateCandidates_spec (profiles : List SupportedPayloadProfile)
    (preferred : SupportedPayloadProfile) (latest : Option ProviderVersion)
    (current installed : PayloadStoreResult) :
    ((planUpdateCandidates profiles preferred latest current installed).map
      (·.identity.versionCode)).Nodup ∧
    ∀ plan ∈ planUpdateCandidates profiles preferred latest current installed,
      (current.ok = true → current.versionCode < plan.identity.versionCode) ∧
      (plan.reuseInstalled = true → installed.ok = true ∧
        installed.versionCode = plan.identity.versionCode) := by
  have hlatest (v : ProviderVersion) :
      (latestPlan profiles v installed).reuseInstalled = true → installed.ok = true ∧
        installed.versionCode = (latestPlan profiles v installed).identity.versionCode := by
    intro h
    simp only [latestPlan, Bool.and_eq_true, beq_iff_eq] at h
    exact ⟨h.1.1.1.1, h.1.1.2⟩
  unfold planUpdateCandidates
  dsimp only
  have hcode : current.ok = true →
      (if current.ok then current.versionCode else 0) = current.versionCode := fun h => if_pos h
  generalize (if current.ok then current.versionCode else 0) = runnableCode at hcode
  have hbound {c : UInt64} (h : (!current.ok || decide (runnableCode < c)) = true) :
      current.ok = true → current.versionCode < c := by
    intro hok
    rw [hok, hcode hok] at h
    simpa using h
  cases latest with
  | none =>
    dsimp only
    split_ifs with h1
    · refine ⟨List.nodup_singleton _, fun plan hp => ?_⟩
      obtain rfl := List.mem_singleton.1 hp
      exact ⟨hbound h1, nofun⟩
    · exact ⟨List.nodup_nil, nofun⟩
  | some v =>
    dsimp only
    cases h1 : v.ok && (!current.ok || decide (runnableCode < v.versionCode)) with
    | false =>
      simp only [Bool.false_eq_true, if_false]
      split_ifs with h2
      · refine ⟨List.nodup_singleton _, fun plan hp => ?_⟩
        obtain rfl := List.mem_singleton.1 hp
        exact ⟨hbound h2, nofun⟩
      · exact ⟨List.nodup_nil, nofun⟩
    | true =>
      have hnewer : current.ok = true →
          current.versionCode < (latestPlan profiles v installed).identity.versionCode := by
        simp only [Bool.and_eq_true] at h1
        exact hbound h1.2
      have hone : ([latestPlan profiles v installed].map (·.identity.versionCode)).Nodup ∧
          ∀ plan ∈ [latestPlan profiles v installed],
            (current.ok = true → current.versionCode < plan.identity.versionCode) ∧
            (plan.reuseInstalled = true → installed.ok = true ∧
              installed.versionCode = plan.identity.versionCode) := by
        refine ⟨List.nodup_singleton _, fun plan hp => ?_⟩
        obtain rfl := List.mem_singleton.1 hp
        exact ⟨hnewer, hlatest v⟩
      simp only [if_true]
      split_ifs with h2 h3
      · refine ⟨?_, fun plan hp => ?_⟩
        · simpa [exactPayloadIdentity] using h3
        · rcases List.mem_append.1 hp with hp | hp
          · exact hone.2 plan hp
          · obtain rfl := List.mem_singleton.1 hp
            exact ⟨hbound h2, nofun⟩
      · exact hone
      · exact hone

/-- How the search for something newer may end. -/
inductive Installs (request : UpdateRequest) (current : PayloadStoreResult)
    (plans : List UpdateCandidatePlan) (r : Run) (w : World) : Run → World → Prop
  | idle {es : List Event} {r' : Run} (hq : ∀ ev ∈ es, ev.replaced = none)
      (hc : r'.result.changed = r.result.changed) :
      Installs request current plans r w r' { w with history := w.history ++ es }
  | installed {es : List Event} {a : Activation} {r' : Run} {plan : UpdateCandidatePlan}
      (hd : request.downloadOnly = false) (hplan : plan ∈ plans) (hq : Idle plans es)
      (ha : a.payloadId.versionCode = plan.identity.versionCode)
      (hp : plan.exactSupported = false → request.runCanary = true)
      (hn : es.countP (Event.passes a.payloadId) =
        canariesOf plan.exactSupported request.runCanary)
      (hc : r'.result.changed = (!current.ok || current.payloadId != some a.payloadId))
      (he : r'.result.error = r.result.error) :
      Installs request current plans r w r'
        { current := some a, history := w.history ++ es ++ [.promoted a] }

theorem Installs.same (hc : r'.result.changed = r.result.changed) :
    Installs request current plans r w r' w := by
  have h : Installs request current plans r w r' _ := .idle (List.forall_mem_nil _) hc
  simpa using h

theorem concludeBlocked_changed (current : PayloadStoreResult) (latest : Option ProviderVersion)
    (blocked : String) (r : Run) :
    (concludeBlocked current latest blocked r).result.changed = r.result.changed := by
  unfold concludeBlocked
  split_ifs
  · rfl
  · dsimp only
    split
    · split_ifs <;> rfl
    · rfl

theorem installCandidates_spec (e : Env) (request : UpdateRequest)
    (preferred : SupportedPayloadProfile) (current installed : PayloadStoreResult)
    (latest : Option ProviderVersion) (r : Run) (w : World) :
    Installs request current
      (planUpdateCandidates e.catalog.profiles preferred latest current installed) r w
      (installCandidates e request preferred current installed latest r w).1
      (installCandidates e request preferred current installed latest r w).2 := by
  obtain ⟨hnd, hplans⟩ :=
    planUpdateCandidates_spec e.catalog.profiles preferred latest current installed
  have ht := tryPlans_spec e request current 0
    (fun plan hp => (hplans plan hp).2) hnd "" r w
  unfold installCandidates
  dsimp only
  split_ifs with h1 h2
  · exact .same rfl
  · exact .same rfl
  · split
    · exact .same rfl
    · generalize tryPlans e request current installed 0
        (planUpdateCandidates e.catalog.profiles preferred latest current installed) "" r
          w = out at ht
      obtain ⟨tried, w'⟩ := out
      dsimp only at ht
      cases ht with
      | blocked hq hr =>
        refine .idle (fun ev hev => (hq ev hev).1) ?_
        rw [concludeBlocked_changed, hr]
      | ready hd hq hc he => exact .idle (fun ev hev => (hq ev hev).1) hc
      | installed hd hplan hq ha hp hn hc he => exact .installed hd hplan hq ha hp hn hc he

theorem checkLatest_spec (e : Env) (request : UpdateRequest) (r : Run) :
    (checkLatest e request r).1 = (checkLatest e request {}).1 ∧
      (checkLatest e request r).2.result.changed = r.result.changed ∧
      (checkLatest e request r).2.result.error = r.result.error ∧
      (checkLatest e request r).2.state.latestDownloaded = r.state.latestDownloaded := by
  unfold checkLatest
  dsimp only
  split_ifs <;> exact ⟨rfl, rfl, rfl, rfl⟩

theorem discover_spec (e : Env) (request : UpdateRequest) (preferred : SupportedPayloadProfile)
    (current installed : PayloadStoreResult) (r : Run) (w : World) :
    Installs request current
      (planUpdateCandidates e.catalog.profiles preferred
        (preferDownloaded e request e.catalog.profiles current r.state.latestDownloaded
          (checkLatest e request {}).1) current installed) r w
      (discover e request preferred current installed r w).1
      (discover e request preferred current installed r w).2 := by
  obtain ⟨h1, hchanged, herror, h2⟩ := checkLatest_spec e request r
  unfold discover
  generalize checkLatest e request r = out at h1 hchanged herror h2
  obtain ⟨latest, r₁⟩ := out
  dsimp only at h1 hchanged herror h2 ⊢
  rw [h1, h2]
  split_ifs
  · exact .same hchanged
  · exact .same hchanged
  · exact .same hchanged
  · have ht :=
      installCandidates_spec e request preferred current installed
        (preferDownloaded e request e.catalog.profiles current
          r.state.latestDownloaded (checkLatest e request {}).1) r₁ w
    generalize installCandidates e request preferred current installed (preferDownloaded e request
      e.catalog.profiles current r.state.latestDownloaded (checkLatest e request {}).1) r₁
        w = out at ht
    obtain ⟨r', w'⟩ := out
    dsimp only at ht ⊢
    cases ht with
    | idle hq hc => exact .idle hq (hc.trans hchanged)
    | installed hd hplan hq ha hp hn hc he =>
      exact .installed hd hplan hq ha hp hn hc (he.trans herror)

/-- How a run may end. -/
inductive Outcome (e : Env) (request : UpdateRequest) (current : Option Activation) :
    UpdateResult → World → Prop
  | idle {es : List Event} {result : UpdateResult} (hq : ∀ ev ∈ es, ev.replaced = none)
      (hc : result.changed = false) : Outcome e request current result { current, history := es }
  | rolledBack {a : Activation} {result : UpdateResult}
      (hm : e.config.automatic = false ∧ request.startupPreflight = true)
      (hd : request.downloadOnly = false ∧ request.forceRunLatest = false)
      (hc : result.changed = true) (he : result.error = "") :
      Outcome e request current result
        { current := some a, history := [.examined none, .rolledBack a] }
  | stranded {result : UpdateResult} {w : World} (hs : Stranded e request current) :
      Outcome e request current result w
  | rewritten {result : UpdateResult} {w : World} (hr : Rewritten e request current) :
      Outcome e request current result w
  | promoted {es : List Event} {a : Activation} {result : UpdateResult} {plan : UpdateCandidatePlan}
      (hd : request.downloadOnly = false ∧ request.forceRunLatest = false)
      (hplan : plan ∈ candidatesOf e request current)
      (hq : Idle (candidatesOf e request current) es)
      (ha : a.payloadId.versionCode = plan.identity.versionCode)
      (hp : plan.exactSupported = false → request.runCanary = true)
      (hn : es.countP (Event.passes a.payloadId) =
        canariesOf plan.exactSupported request.runCanary)
      (hc : result.changed = (!(readCurrent current e.current).ok ||
        (readCurrent current e.current).payloadId != some a.payloadId))
      (he : result.error = "") :
      Outcome e request current result
        { current := some a
          history := .examined (readCurrent current e.current).runnable :: es ++ [.promoted a] }

theorem runnable_of_not_ok {r : PayloadStoreResult} (h : r.ok = false) : r.runnable = none := by
  simp [PayloadStoreResult.runnable, h]

/-- Nothing but the first look at the current payload. -/
theorem Outcome.examined {current : Option Activation} {result : UpdateResult}
    (hc : result.changed = false) (o : Option PayloadId) :
    Outcome e request current result { current, history := [.examined o] } := by
  refine .idle ?_ hc
  intro ev hev
  obtain rfl := List.mem_singleton.1 hev
  rfl

/-! What a verification writes. -/

theorem verifyCurrent_of_not_rehashed {v : Verification} (h : ¬ Rehashed w.current v) :
    verifyCurrent v w = (readCurrent w.current v, w) := by
  unfold verifyCurrent
  congr 1
  split
  · rename_i a versionName librarySha256 hcurrent
    unfold persistPayloadSha256
    split
    · rfl
    · rename_i hnone
      exact absurd ⟨a, _, _, hcurrent, hnone, rfl⟩ h
  · rfl

theorem verifyCurrent_of_rehashed {v : Verification} (h : Rehashed w.current v) :
    ∃ a, verifyCurrent v w = (readCurrent w.current v, w.persist a) := by
  obtain ⟨a, versionName, librarySha256, hcurrent, hnone, rfl⟩ := h
  refine ⟨{ a with payloadSha256 := some librarySha256 }, ?_⟩
  simp [verifyCurrent, hcurrent, persistPayloadSha256, hnone]

/-- Only a payload that can be run gets its hash. -/
theorem Rehashed.ok {current : Option Activation} {v : Verification} (h : Rehashed current v) :
    (readCurrent current v).ok = true := by
  obtain ⟨a, versionName, librarySha256, rfl, hnone, rfl⟩ := h
  simp [readCurrent, hnone, PayloadStoreResult.ok]

theorem not_rehashed {current : Option Activation} {v : Verification}
    (h : (readCurrent current v).ok = false) : ¬ Rehashed current v :=
  fun hr => Bool.false_ne_true (h.symm.trans hr.ok)

theorem automaticDisabled_spec {current : Option Activation} {r : Run} (hb : Begun e)
    (ha : e.config.automatic = false)
    (hr : request.startupPreflight = true ∨ request.downloadOnly = true)
    (hf : request.forceRunLatest = false) (hrc : r.result.changed = false)
    (hre : r.result.error = "") (hrewritten : ¬ Rewritten e request current) :
    Outcome e request current
      (automaticDisabled e request (readCurrent current e.current) r
        { current, history := [.examined (readCurrent current e.current).runnable] }).1.result
      (automaticDisabled e request (readCurrent current e.current) r
        { current, history := [.examined (readCurrent current e.current).runnable] }).2 := by
  unfold automaticDisabled
  dsimp only
  split_ifs with h1
  · refine .examined ?_ _
    exact hrc
  · simp only [Bool.or_eq_true, not_or, Bool.not_eq_true] at h1
    obtain ⟨hok, hd⟩ := h1
    have hst : request.startupPreflight = true := by simpa [hd] using hr
    rw [runnable_of_not_ok hok]
    cases hrb : e.rollback with
    | error m =>
      refine .examined ?_ _
      exact hrc
    | ok a =>
      have hback : RollsBack e request current a := ⟨hb, ha, hst, ⟨hd, hf⟩, hok, hrb⟩
      have hnot : ¬ Rehashed (World.rollback { current, history := [.examined none] } a).current
          e.rolledBack := fun h => hrewritten (.inr ⟨a, hback, h⟩)
      have hcur : (World.rollback { current, history := [.examined none] } a).current =
          some a := rfl
      dsimp only
      rw [verifyCurrent_of_not_rehashed hnot]
      dsimp only
      rw [hcur]
      cases hv : (readCurrent (some a) e.rolledBack).ok with
      | true => exact .rolledBack ⟨ha, hst⟩ ⟨hd, hf⟩ rfl hre
      | false => exact .stranded ⟨a, hback, hv⟩

theorem preferred_ne_nil {profiles : List SupportedPayloadProfile}
    {preferred : SupportedPayloadProfile}
    (h : preferredSupportedProfile profiles = some preferred) : profiles ≠ [] := by
  rintro rfl
  cases h

theorem runUnsafeLatest_changed (e : Env) (request : UpdateRequest)
    (profiles : List SupportedPayloadProfile) :
    (runUnsafeLatest e request profiles).changed = false := by
  unfold runUnsafeLatest
  split
  · rfl
  · split
    · rfl
    · cases e.workspace with
      | some error => rfl
      | none =>
        dsimp only
        split_ifs <;> rfl

/-- The first look at the current payload, when it writes nothing. -/
theorem examine_of_not_rewritten {current : Option Activation} (hb : Begun e)
    (h : ¬ Rewritten e request current) :
    (if request.downloadOnly then (readCurrent current e.current, ({ current } : World))
      else verifyCurrent e.current { current }) = (readCurrent current e.current, { current }) := by
  cases hd : request.downloadOnly with
  | true => rfl
  | false =>
    have hnot : ¬ Rehashed current e.current := fun hr => h (.inl ⟨hb, hd, hr⟩)
    exact verifyCurrent_of_not_rehashed (w := { current }) hnot

theorem update_spec {current : Option Activation} {preferred : SupportedPayloadProfile} {r : Run}
    (hb : Begun e) (hp : preferredSupportedProfile e.catalog.profiles = some preferred)
    (hst : r.state.latestDownloaded = e.stored.latestDownloaded)
    (hrc : r.result.changed = false) (hre : r.result.error = "")
    (hrewritten : ¬ Rewritten e request current) :
    Outcome e request current (update e request preferred r { current }).1.result
      (update e request preferred r { current }).2 := by
  unfold update
  dsimp only
  rw [examine_of_not_rewritten hb hrewritten]
  dsimp only
  split_ifs with h1 h2
  · refine .examined ?_ _
    exact runUnsafeLatest_changed e request _
  · simp only [Bool.and_eq_true, Bool.not_eq_true', Bool.or_eq_true] at h2
    exact automaticDisabled_spec hb h2.1 h2.2 (by simpa using h1) hrc hre hrewritten
  · have hplans : planUpdateCandidates e.catalog.profiles preferred
        (preferDownloaded e request e.catalog.profiles (readCurrent current e.current)
          r.state.latestDownloaded (checkLatest e request {}).1) (readCurrent current e.current)
        (readInstalled e (readCurrent current e.current)
          (World.record { current } (.examined (readCurrent current e.current).runnable))) =
        candidatesOf e request current := by
      simp only [candidatesOf, hp, hst]
      rfl
    have ht := discover_spec e request preferred (readCurrent current e.current)
      (readInstalled e (readCurrent current e.current)
        (World.record { current } (.examined (readCurrent current e.current).runnable))) r
      (World.record { current } (.examined (readCurrent current e.current).runnable))
    rw [hplans] at ht
    generalize discover e request preferred (readCurrent current e.current)
      (readInstalled e (readCurrent current e.current)
        (World.record { current } (.examined (readCurrent current e.current).runnable))) r
      (World.record { current } (.examined (readCurrent current e.current).runnable)) = out at ht
    obtain ⟨r', w'⟩ := out
    dsimp only at ht ⊢
    cases ht with
    | idle hq hc' =>
      refine .idle ?_ (hc'.trans hrc)
      intro ev hev
      rcases List.mem_cons.1 hev with rfl | hev
      · rfl
      · exact hq ev hev
    | installed hd hplan hq ha hpr hn hc' he =>
      exact .promoted ⟨hd, by simpa using h1⟩ hplan hq ha hpr hn hc' (he.trans hre)

theorem preferred_of_ne_nil {profiles : List SupportedPayloadProfile} (h : profiles ≠ []) :
    ∃ preferred, preferredSupportedProfile profiles = some preferred := by
  have hsome (best : SupportedPayloadProfile) (rest : List SupportedPayloadProfile) :
      ∃ preferred, rest.foldl (fun best profile =>
        match best with
        | none => some profile
        | some b => if b.versionCode < profile.versionCode then some profile else some b)
        (some best) = some preferred := by
    induction rest generalizing best with
    | nil => exact ⟨best, rfl⟩
    | cons profile rest ih =>
      rw [List.foldl_cons]
      dsimp only
      split_ifs
      · exact ih profile
      · exact ih best
  cases profiles with
  | nil => exact absurd rfl h
  | cons profile rest => exact hsome profile rest

theorem underLock_of_begun (request : UpdateRequest) (w : World) (hb : Begun e) :
    ∃ preferred r, preferredSupportedProfile e.catalog.profiles = some preferred ∧
      r.state.latestDownloaded = e.stored.latestDownloaded ∧ r.result.changed = false ∧
      r.result.error = "" ∧ underLock e request w = update e request preferred r w := by
  obtain ⟨preferred, hp⟩ := preferred_of_ne_nil hb.profiles
  have hsource : (e.config.source != "apk-pure" && e.config.source != "auto") = false := by
    rcases hb.source with hs | hs <;> simp [hs]
  unfold underLock
  simp only [hb.config, hsource, hb.catalog, hp, Bool.not_true, Bool.false_eq_true, if_false]
  exact ⟨preferred, _, rfl, rfl, rfl, rfl, rfl⟩

/-- A run that ends before it looks at the current payload. -/
theorem underLock_of_not_begun (request : UpdateRequest) (w : World) (hl : e.lock = none)
    (h : ¬ Begun e) :
    (underLock e request w).1.result.changed = false ∧ (underLock e request w).2 = w := by
  unfold underLock
  dsimp only
  split_ifs with h1 h2 h3
  · exact ⟨rfl, rfl⟩
  · exact ⟨rfl, rfl⟩
  · exact ⟨rfl, rfl⟩
  · split
    · exact ⟨rfl, rfl⟩
    · rename_i preferred hp
      have hs : e.config.source = "apk-pure" ∨ e.config.source = "auto" := by
        by_contra hc
        rw [not_or] at hc
        simp [hc] at h2
      exact absurd ⟨hl, by simpa using h1, hs, by simpa using h3, preferred_ne_nil hp⟩ h

theorem underLock_spec (request : UpdateRequest) (current : Option Activation)
    (hl : e.lock = none) :
    Outcome e request current (underLock e request { current }).1.result
      (underLock e request { current }).2 := by
  by_cases hrewritten : Rewritten e request current
  · exact .rewritten hrewritten
  · by_cases hb : Begun e
    · obtain ⟨preferred, r, hp, hst, hrc, hre, heq⟩ := underLock_of_begun request { current } hb
      rw [heq]
      exact update_spec hb hp hst hrc hre hrewritten
    · obtain ⟨hc, hw⟩ := underLock_of_not_begun request { current } hl hb
      rw [hw]
      exact .idle nofun hc

/-- Every run ends in one of these ways. -/
theorem runUpdate_outcome (e : Env) (request : UpdateRequest) (current : Option Activation) :
    Outcome e request current (runUpdate e request { current }).1.1
      (runUpdate e request { current }).2 := by
  unfold runUpdate
  cases hl : e.lock with
  | some error => exact .idle nofun rfl
  | none =>
    have ho := underLock_spec request current hl
    dsimp only
    generalize underLock e request { current } = out at ho
    obtain ⟨r, w⟩ := out
    dsimp only at ho ⊢
    have hf : (finish e r w).1.changed = r.result.changed := rfl
    have he : (finish e r w).1.error = r.result.error := rfl
    generalize finish e r w = f at hf he
    obtain ⟨result, state⟩ := f
    dsimp only at hf he ⊢
    cases ho with
    | idle hq hc => exact .idle hq (hf.trans hc)
    | rolledBack hm hd hc he' => exact .rolledBack hm hd (hf.trans hc) (he.trans he')
    | stranded hs => exact .stranded hs
    | rewritten hr => exact .rewritten hr
    | promoted hd hplan hq ha hp hn hc he' =>
      exact .promoted hd hplan hq ha hp hn (hf.trans hc) (he.trans he')

theorem replacements_idle (current : Option Activation) (h : ∀ ev ∈ es, ev.replaced = none) :
    (World.mk current es).replacements = [] := by
  rw [World.replacements, List.filterMap_eq_nil_iff]
  exact h

theorem Idle.replaced (h : Idle plans es) : ∀ ev ∈ es, ev.replaced = none :=
  fun ev hev => (h ev hev).1

/-- What a promotion leaves in the history. -/
theorem promoted_replacements (current : Option Activation) (o : Option PayloadId)
    (a : Activation) (h : Idle plans es) :
    (World.mk current (.examined o :: es ++ [.promoted a])).replacements = [a] ∧
      (World.mk current (.examined o :: es ++ [.promoted a])).runnable = o := by
  have hrep : es.filterMap Event.replaced = [] := List.filterMap_eq_nil_iff.2 h.replaced
  have hrun : es.findSome? Event.runnable = none :=
    List.findSome?_eq_none_iff.2 fun ev hev => (h ev hev).2.1
  refine ⟨?_, ?_⟩
  · rw [World.replacements, List.cons_append, List.filterMap_cons, List.filterMap_append, hrep]
    rfl
  · rw [World.runnable, List.cons_append, List.findSome?_cons, List.findSome?_append, hrun]
    cases o <;> rfl

/-- A candidate is newer than what runs. -/
theorem candidatesOf_newer {current : Option Activation}
    (hp : plan ∈ candidatesOf e request current)
    (hr : (readCurrent current e.current).runnable = some id) :
    id.versionCode < plan.identity.versionCode := by
  unfold candidatesOf at hp
  split at hp
  · cases hp
  · rename_i preferred _
    have hn := ((planUpdateCandidates_spec _ _ _ _ _).2 plan hp).1
    unfold PayloadStoreResult.runnable at hr
    split_ifs at hr with hok
    · have hv : (readCurrent current e.current).versionCode = id.versionCode := by
        rw [PayloadStoreResult.versionCode, hr]
      rw [← hv]
      exact hn hok

theorem Outcome.kept {current : Option Activation} {result : UpdateResult}
    (h : Outcome e request current result w) (hs : ¬ Stranded e request current)
    (hr : ¬ Rewritten e request current) : Kept e request current result w := by
  cases h with
  | stranded hs' => exact absurd hs' hs
  | rewritten hr' => exact absurd hr' hr
  | idle hq hc =>
    rename_i es
    have hr := replacements_idle current hq
    have hnone (ev : Event) (hev : ev ∈ es) (a : Activation) : ev.replaced ≠ some a := by
      rw [hq ev hev]
      exact (nomatch ·)
    refine ⟨fun _ => rfl, fun _ => hr, ?_, fun ev hev h => absurd (hq ev hev) h, ?_, ?_, ?_, ?_, ?_⟩
    · rw [hr]
      exact Nat.zero_le _
    · rw [hr]
      rfl
    · exact fun a ha => absurd rfl (hnone _ ha a)
    · exact fun a ha => absurd rfl (hnone _ ha a)
    · exact fun a _ ha => absurd rfl (hnone _ ha a)
    · rw [hr, hc]
      simp
  | rolledBack hm hd hc he =>
    rename_i a
    refine ⟨fun h => absurd he h, ?_, Nat.le_refl _, ?_, rfl, fun b _ =>
      ⟨hm.1, hm.2, rfl⟩, ?_, ?_, ?_⟩
    · rintro (h | h)
      · rw [hd.1] at h
        cases h
      · rw [hd.2] at h
        cases h
    · intro ev hev h
      rcases List.mem_cons.1 hev with rfl | hev
      · exact absurd rfl h
      · exact ⟨a, .inl (List.mem_singleton.1 hev)⟩
    · intro b hb
      simp at hb
    · intro b _ hb
      simp at hb
    · rw [hc]
      exact ⟨fun _ => ⟨a, List.mem_singleton_self a, rfl, (nomatch ·)⟩, fun _ => rfl⟩
  | promoted hd hplan hq ha hp hn hc he =>
    rename_i es a plan
    obtain ⟨hr, hrun⟩ := promoted_replacements (some a)
      (readCurrent current e.current).runnable a hq
    have hrolled (b : Activation) : Event.rolledBack b ∉
        .examined (readCurrent current e.current).runnable :: es ++ [.promoted a] := by
      intro hb
      have hb : Event.rolledBack b ∈ es := by simpa using hb
      exact nomatch (hq.replaced _ hb)
    have hprom (b : Activation) (hb : Event.promoted b ∈
        .examined (readCurrent current e.current).runnable :: es ++ [.promoted a]) : b = a := by
      rcases List.mem_append.1 hb with hb | hb
      · rcases List.mem_cons.1 hb with hb | hb
        · cases hb
        · exact nomatch (hq.replaced _ hb)
      · cases List.mem_singleton.1 hb
        rfl
    refine ⟨fun h => absurd he h, ?_, ?_, ?_, ?_, fun b hb => absurd hb (hrolled b), ?_, ?_, ?_⟩
    · rintro (h | h)
      · rw [hd.1] at h
        cases h
      · rw [hd.2] at h
        cases h
    · rw [hr]
      exact Nat.le_refl _
    · intro ev hev h
      rcases List.mem_append.1 hev with hev | hev
      · rcases List.mem_cons.1 hev with rfl | hev
        · exact absurd rfl h
        · exact absurd (hq.replaced ev hev) h
      · exact ⟨a, .inr (List.mem_singleton.1 hev)⟩
    · rw [hr]
      rfl
    · intro b hb
      obtain rfl := hprom b hb
      refine ⟨_, rfl, plan, hplan, ha, hp, ?_⟩
      rw [List.countP_cons_of_neg Bool.false_ne_true, hn]
      rfl
    · intro b id hb hid
      obtain rfl := hprom b hb
      rw [hrun] at hid
      rw [ha]
      exact candidatesOf_newer hplan hid
    · rw [hr, hrun, hc, PayloadStoreResult.runnable]
      cases (readCurrent current e.current).ok <;> simp

theorem runUpdate_world (request : UpdateRequest) (w : World) (hl : e.lock = none) :
    (runUpdate e request w).1.1.changed = (underLock e request w).1.result.changed ∧
      (runUpdate e request w).2 = (underLock e request w).2 := by
  unfold runUpdate
  rw [hl]
  exact ⟨rfl, rfl⟩

/-- A run that rolls back ends with its second verification. -/
theorem RollsBack.run {current : Option Activation} {act : Activation}
    (h : RollsBack e request current act) :
    (runUpdate e request { current }).1.1.changed = (readCurrent (some act) e.rolledBack).ok ∧
      (runUpdate e request { current }).2 = (verifyCurrent e.rolledBack
        { current := some act, history := [.examined none, .rolledBack act] }).2 := by
  obtain ⟨hb, ha, hst, ⟨hd, hf⟩, hok, hrb⟩ := h
  obtain ⟨preferred, r, hp, -, hrc, -, heq⟩ := underLock_of_begun request { current } hb
  obtain ⟨hchanged, hworld⟩ := runUpdate_world request { current } hb.lock
  have hnot := verifyCurrent_of_not_rehashed (w := { current }) (not_rehashed hok)
  have hworld' : World.rollback { current, history := [.examined none] } act =
      { current := some act, history := [.examined none, .rolledBack act] } := rfl
  have hrecord : World.record { current } (.examined none) =
      { current, history := [.examined none] } := rfl
  have hread : ∀ w : World, (verifyCurrent e.rolledBack w).1 = readCurrent w.current e.rolledBack :=
    fun _ => rfl
  rw [hchanged, hworld, heq]
  simp only [update, hd, hf, hnot, ha, hst, automaticDisabled, hok, hrb, runnable_of_not_ok hok,
    hrecord, hworld', hread, Bool.not_false, Bool.or_self, Bool.true_or, Bool.and_self,
    Bool.false_eq_true, if_false, if_true]
  split_ifs with hv
  · exact ⟨hv.symm, rfl⟩
  · exact ⟨hrc.trans (Bool.not_eq_true _ ▸ hv).symm, rfl⟩

/-- A rollback that strands: nothing is said to have changed, and `current.json` names another
payload. -/
theorem Stranded.not_kept {current : Option Activation} (h : Stranded e request current) :
    ¬ Kept e request current (runUpdate e request { current }).1.1
      (runUpdate e request { current }).2 := by
  intro hk
  obtain ⟨a, hback, hv⟩ := h
  obtain ⟨hc, hw⟩ := hback.run
  rw [verifyCurrent_of_not_rehashed (not_rehashed hv)] at hw
  have hchanged := hk.changed
  rw [hc, hv, hw] at hchanged
  exact Bool.false_ne_true
    (hchanged.2 ⟨a, List.mem_singleton_self a, rfl, (nomatch ·)⟩)

theorem discover_history (preferred : SupportedPayloadProfile) (r : Run) :
    w.history <+: (discover e request preferred current installed r w).2.history := by
  have hspec := discover_spec e request preferred current installed r w
  generalize discover e request preferred current installed r w = out at hspec
  obtain ⟨r', w'⟩ := out
  dsimp only at hspec ⊢
  cases hspec with
  | idle => exact List.prefix_append _ _
  | installed =>
    dsimp only
    rw [List.append_assoc]
    exact List.prefix_append _ _

theorem automaticDisabled_of_ok (h : current.ok = true) (r : Run) :
    (automaticDisabled e request current r w).2 = w := by
  unfold automaticDisabled
  rw [h]
  rfl

/-- The hash that is written shows in the history of the run. -/
theorem Rewritten.persisted {current : Option Activation} (h : Rewritten e request current) :
    ∃ a, Event.persisted a ∈ (runUpdate e request { current }).2.history := by
  rcases h with ⟨hb, hd, hrehashed⟩ | ⟨a, hback, hrehashed⟩
  · obtain ⟨a, hverify⟩ := verifyCurrent_of_rehashed (w := { current }) hrehashed
    obtain ⟨preferred, r, -, -, -, -, heq⟩ := underLock_of_begun request { current } hb
    have hok := hrehashed.ok
    refine ⟨a, ?_⟩
    rw [(runUpdate_world request { current } hb.lock).2, heq]
    simp only [update, hd, hverify, Bool.false_eq_true, if_false]
    split_ifs
    · exact List.mem_cons_self
    · rw [automaticDisabled_of_ok hok]
      exact List.mem_cons_self
    · exact (discover_history preferred r).subset List.mem_cons_self
  · obtain ⟨act, hverify⟩ := verifyCurrent_of_rehashed
      (w := { current := some a, history := [.examined none, .rolledBack a] }) hrehashed
    refine ⟨act, ?_⟩
    rw [hback.run.2, hverify]
    exact List.mem_append_right _ (List.mem_singleton_self _)

/-- Nothing but a rollback or a promotion may replace `current.json`. -/
theorem Rewritten.not_kept {current : Option Activation} (h : Rewritten e request current) :
    ¬ Kept e request current (runUpdate e request { current }).1.1
      (runUpdate e request { current }).2 := by
  intro hk
  obtain ⟨a, hmem⟩ := h.persisted
  obtain ⟨b, hb | hb⟩ := hk.either _ hmem (Option.some_ne_none a)
  · cases hb
  · cases hb

/-- A store whose `previous_good.json` no longer describes the payload it names. -/
def strandedEnv : Env where
  lock := none
  stored := {}
  config := { automatic := false }
  catalog := { profiles := [⟨"2.1", 100, "aa"⟩] }
  current := .unread ⟨"payload is not an exact default-supported profile", by decide⟩
  installed := .unread ⟨"no current payload", by decide⟩
  latest := {}
  rollback := .ok { payloadId := ⟨100, "aa"⟩ }
  rolledBack := .identified "2.1" ⟨"active payload manifest is invalid", by decide⟩
  downloadedListing := {}
  workspace := none
  referencePayloadIds := []
  keepOldPayloads := false
  garbage := {}
  attempt _ :=
    { listing := {}, verified := false, download := .refused "offline", rejectedForRuntime := false
      reference := {}, derivation := {}, canary := fun _ => {}
      promotion := .ok ⟨"2.1", "cc", "", ""⟩ }
  launch := {}
  active := .unread ⟨"no current payload", by decide⟩

theorem stranded_not_kept : ¬ Kept strandedEnv { startupPreflight := true }
    (some { payloadId := ⟨200, "bb"⟩ })
    (runUpdate strandedEnv { startupPreflight := true }
      { current := some { payloadId := ⟨200, "bb"⟩ } }).1.1
    (runUpdate strandedEnv { startupPreflight := true }
      { current := some { payloadId := ⟨200, "bb"⟩ } }).2 := by
  have hbegun : Begun strandedEnv := ⟨rfl, rfl, .inl rfl, rfl, by decide⟩
  have hs : Stranded strandedEnv { startupPreflight := true }
      (some { payloadId := ⟨200, "bb"⟩ }) :=
    ⟨_, ⟨hbegun, rfl, rfl, ⟨rfl, rfl⟩, by decide, rfl⟩, by decide⟩
  exact hs.not_kept

/-- A run keeps its word about `current.json` unless it rolls back to a payload that it then finds
not to be runnable, or a verification writes the hash of the payload into it. -/
theorem runUpdate_kept_iff (e : Env) (request : UpdateRequest) (current : Option Activation) :
    Kept e request current (runUpdate e request { current }).1.1
      (runUpdate e request { current }).2 ↔
        ¬ Stranded e request current ∧ ¬ Rewritten e request current := by
  refine ⟨fun hk => ⟨fun hs => hs.not_kept hk, fun hr => hr.not_kept hk⟩, fun h => ?_⟩
  exact (runUpdate_outcome e request current).kept h.1 h.2

end Nightcap.Update
