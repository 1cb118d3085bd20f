import Nightcap.Launch.Broker
import Nightcap.Launch.Uri

/-! Launch requests come through their own documents unchanged. -/
namespace Nightcap.Launch

open Utf8 Ascii

variable {json : Json.Library} {env : LaunchEnvironment} {text uri : Bytes}
  {fields : List (Bytes × Json)} {launch : LaunchFields} {request : RobloxExperienceLaunchRequest}

/-! Reading a document. -/

theorem readFields_ok {φ α : Type} [DecidableEq φ] {read : φ → Except Status α} {names : List φ}
    {values result : φ → α} (h : readFields read names values = .ok result) (f : φ) :
    (f ∈ names → read f = .ok (result f)) ∧ (f ∉ names → result f = values f) := by
  induction names generalizing values with
  | nil =>
    obtain rfl := Except.ok.inj h
    exact ⟨nofun, fun _ => rfl⟩
  | cons g names ih =>
    unfold readFields at h
    cases hg : read g with
    | error status => simp [hg] at h
    | ok value =>
      rw [hg] at h
      obtain ⟨hin, hout⟩ := ih h
      by_cases hf : f ∈ names
      · exact ⟨fun _ => hin hf, fun hnot => absurd (List.mem_cons_of_mem _ hf) hnot⟩
      · rw [hout hf]
        by_cases hfg : f = g
        · subst hfg
          exact ⟨fun _ => by rw [hg, Function.update_self],
            fun hnot => absurd List.mem_cons_self hnot⟩
        · rw [Function.update_of_ne hfg]
          refine ⟨fun hmem => ?_, fun _ => rfl⟩
          rcases List.mem_cons.1 hmem with heq | hmem
          · exact absurd heq hfg
          · exact absurd hmem hf

theorem readFields_congr {φ α : Type} [DecidableEq φ] {read read' : φ → Except Status α}
    (h : ∀ f, read f = read' f) {names : List φ} {values : φ → α} :
    readFields read names values = readFields read' names values := by
  rw [funext h]

theorem toUInt64_le {n : Int64} (h : 0 ≤ n) :
    ¬ n.toUInt64.toNat > Int64.maxValue.toInt.toNat := by
  have hsigned : (0 : Int) ≤ n.toBitVec.toInt := Int64.le_iff_toInt_le.1 h
  have hmax : Int64.maxValue.toInt.toNat = 2 ^ 63 - 1 := by decide
  have hbits : n.toUInt64.toNat = n.toBitVec.toNat := rfl
  rw [hmax, hbits]
  rw [BitVec.toInt_eq_toNat_cond] at hsigned
  split at hsigned <;> omega

theorem readOptionalInteger_reread (f : IntegerField) :
    readOptionalInteger (Json.rereadFields fields) f = readOptionalInteger fields f := by
  unfold readOptionalInteger
  rw [Json.lookup_rereadFields]
  cases fields.lookup (bytes f.name) with
  | none => rfl
  | some value =>
    cases value with
    | integer n =>
      rw [Option.map_some, Json.reread]
      by_cases hn : 0 ≤ n
      · simp only [if_pos hn, if_neg (toUInt64_le hn)]
        rfl
      · simp only [if_neg hn]
    | _ => rfl

theorem readOptionalString_reread (f : StringField) :
    readOptionalString (Json.rereadFields fields) f = readOptionalString fields f := by
  unfold readOptionalString
  rw [Json.lookup_rereadFields]
  cases fields.lookup (bytes f.name) with
  | none => rfl
  | some value =>
    cases value with
    | integer n =>
      rw [Option.map_some, Json.reread]
      by_cases hn : 0 ≤ n
      · simp only [if_pos hn]
      · simp only [if_neg hn]
    | _ => rfl

/-- A document read back holds the same request. -/
theorem readRequest_reread : readRequest (Json.rereadFields fields) = readRequest fields := by
  unfold readRequest
  rw [readFields_congr readOptionalInteger_reread, readFields_congr readOptionalString_reread]

theorem parseExperienceLaunch_ok (h : parseExperienceLaunch json text = .ok request) :
    ∃ fields parsed, json.parse text = some (.object fields) ∧ readRequest fields = .ok parsed ∧
      json.dump (.object fields) = some request.canonicalJson ∧
      request.canonicalJson.length ≤ kMaximumExperienceLaunchJsonBytes ∧
      request = { parsed with canonicalJson := request.canonicalJson } := by
  unfold parseExperienceLaunch at h
  split_ifs at h with hsize
  cases hparse : json.parse text with
  | none => simp [hparse] at h
  | some document =>
    cases document with
    | object fields =>
      simp only [hparse] at h
      cases hread : readRequest fields with
      | error status => simp [hread] at h
      | ok parsed =>
        simp only [hread] at h
        cases hdump : json.dump (.object fields) with
        | none => simp [hdump] at h
        | some canonicalJson =>
          simp only [hdump] at h
          split_ifs at h with hlarge
          obtain rfl := Except.ok.inj h
          exact ⟨fields, parsed, rfl, hread, hdump, Nat.le_of_not_lt hlarge, rfl⟩
    | _ => simp [hparse] at h

/-- A place to join, and no negative identifier. -/
def RobloxExperienceLaunchRequest.Valid (request : RobloxExperienceLaunchRequest) : Prop :=
  0 < request.integers .placeId ∧ ∀ f, 0 ≤ request.integers f

theorem readRequest_ok {parsed : RobloxExperienceLaunchRequest}
    (h : readRequest fields = .ok parsed) : parsed.Valid ∧
      (∀ f ∈ integerFields, readOptionalInteger fields f = .ok (parsed.integers f)) ∧
      ∀ f ∈ kStringFields, readOptionalString fields f = .ok (parsed.strings f) := by
  unfold readRequest at h
  cases hints : readFields (readOptionalInteger fields) integerFields fun _ => 0 with
  | error status =>
    rw [hints] at h
    cases h
  | ok integers =>
    cases hstrings : readFields (readOptionalString fields) kStringFields fun _ => [] with
    | error status =>
      rw [hints, hstrings] at h
      cases h
    | ok strings =>
      rw [hints, hstrings] at h
      simp only [bind, Except.bind] at h
      split_ifs at h with hplace hneg
      obtain rfl := Except.ok.inj h
      simp only [not_or, Int64.not_lt, Int64.not_le] at hplace hneg
      refine ⟨⟨hplace, ?_⟩, fun f => (readFields_ok hints f).1, fun f =>
        (readFields_ok hstrings f).1⟩
      intro f
      cases f with
      | placeId => exact Int64.le_of_lt hplace
      | userId => exact hneg.1
      | conversationId => exact hneg.2.1
      | referredByPlayerId => exact hneg.2.2

/-- A request that was read reads back from its canonical document. -/
theorem parseExperienceLaunch_canonical (hempty : json.parse [] = none)
    (hjson : ∀ document, json.RoundTrips document)
    (h : parseExperienceLaunch json text = .ok request) :
    parseExperienceLaunch json request.canonicalJson = .ok request := by
  obtain ⟨fields, parsed, _, hread, hdump, hlength, hrequest⟩ := parseExperienceLaunch_ok h
  obtain ⟨hparse, hdump'⟩ := hjson _ _ hdump
  rw [Json.reread] at hparse hdump'
  have hne : request.canonicalJson ≠ [] := by
    intro hnil
    rw [hnil, hempty] at hparse
    cases hparse
  unfold parseExperienceLaunch
  rw [if_neg (not_or.2 ⟨hne, Nat.not_lt.2 hlength⟩), hparse]
  simp only [readRequest_reread, hread, hdump', if_neg (Nat.not_lt.2 hlength)]
  rw [← hrequest]

/-! Requests built from a URI. -/

/-- The key of a field, in the order the document is read. -/
def keyName : IntegerField ⊕ StringField → Bytes
  | .inl f => bytes f.name
  | .inr f => bytes f.name

def keyFields : List (IntegerField ⊕ StringField) :=
  integerFields.map .inl ++ kStringFields.map .inr

theorem mem_integerFields (f : IntegerField) : f ∈ integerFields := by
  cases f <;> decide

theorem mem_kStringFields (f : StringField) : f ∈ kStringFields := by
  cases f <;> decide

theorem mem_keyFields (f : IntegerField ⊕ StringField) : f ∈ keyFields := by
  cases f with
  | inl f => exact List.mem_append_left _ (List.mem_map_of_mem (mem_integerFields f))
  | inr f => exact List.mem_append_right _ (List.mem_map_of_mem (mem_kStringFields f))

theorem keyNames_nodup : (keyFields.map keyName).Nodup := by decide +kernel

/-- No two fields share a key. -/
theorem keyName_injective : Function.Injective keyName := fun f g h =>
  List.inj_on_of_nodup_map keyNames_nodup (mem_keyFields f) (mem_keyFields g) h

/-- The fields a document has. -/
def presentFields (launch : LaunchFields) : List (IntegerField ⊕ StringField) :=
  .inl .placeId :: ((optionalIntegers.filter fun f => 0 < launch.integers f).map .inl ++
    (optionalStrings.filter fun f => launch.strings f ≠ []).map .inr)

def valueOf (launch : LaunchFields) : IntegerField ⊕ StringField → Json
  | .inl f => .integer (launch.integers f)
  | .inr f => .string (launch.strings f)

theorem documentFields_eq :
    documentFields launch = (presentFields launch).map fun f => (keyName f, valueOf launch f) := by
  simp [documentFields, presentFields, keyName, valueOf, Function.comp_def]

theorem presentFields_sublist : (presentFields launch).Sublist keyFields := by
  have hintegers : (optionalIntegers.filter fun f =>
      0 < launch.integers f).Sublist optionalIntegers :=
    List.filter_sublist
  have hstrings : (optionalStrings.filter fun f => launch.strings f ≠ []).Sublist kStringFields :=
    List.filter_sublist.trans (by decide)
  exact ((hintegers.map Sum.inl).append (hstrings.map Sum.inr)).cons_cons (Sum.inl .placeId)

theorem documentFields_nodup : ((documentFields launch).map Prod.fst).Nodup := by
  rw [documentFields_eq, List.map_map]
  exact keyNames_nodup.sublist (presentFields_sublist.map keyName)

section Lookup

variable {fs : List (Bytes × Json)} {f : IntegerField ⊕ StringField}

/-- A document that was read back has the fields that are present. -/
theorem lookup_present
    (hfs : ∀ key, fs.lookup key = ((documentFields launch).lookup key).map Json.reread)
    (hf : f ∈ presentFields launch) : fs.lookup (keyName f) = some (valueOf launch f).reread := by
  have hmem : (keyName f, valueOf launch f) ∈ documentFields launch := by
    rw [documentFields_eq]
    exact List.mem_map_of_mem hf
  rw [hfs, Json.lookup_of_mem documentFields_nodup hmem]
  rfl

theorem lookup_absent
    (hfs : ∀ key, fs.lookup key = ((documentFields launch).lookup key).map Json.reread)
    (hf : f ∉ presentFields launch) : fs.lookup (keyName f) = none := by
  have hnot : keyName f ∉ (documentFields launch).map Prod.fst := by
    rw [documentFields_eq, List.map_map]
    intro hin
    obtain ⟨g, hg, heq⟩ := List.mem_map.1 hin
    exact hf (keyName_injective heq ▸ hg)
  rw [hfs, Json.lookup_of_notMem hnot]
  rfl

theorem mem_presentFields_inl {f : IntegerField} (hf : f ∈ optionalIntegers) :
    .inl f ∈ presentFields launch ↔ 0 < launch.integers f := by
  have hne : f ≠ .placeId := by
    rintro rfl
    exact absurd hf (by decide)
  simp [presentFields, hne, hf]

theorem mem_presentFields_inr {f : StringField} (hf : f ∈ optionalStrings) :
    .inr f ∈ presentFields launch ↔ launch.strings f ≠ [] := by
  simp [presentFields, hf]

theorem readOptionalInteger_document {f : IntegerField} {n : Int64}
    (hfs : ∀ key, fs.lookup key = ((documentFields launch).lookup key).map Json.reread)
    (hf : f ∈ optionalIntegers) (h : readOptionalInteger fs f = .ok n) :
    0 < n ↔ 0 < launch.integers f := by
  have hmem := @mem_presentFields_inl launch _ hf
  unfold readOptionalInteger at h
  by_cases hpos : 0 < launch.integers f
  · have hle : 0 ≤ launch.integers f := Int64.le_of_lt hpos
    have hlook := lookup_present hfs (hmem.2 hpos)
    rw [keyName, valueOf, Json.reread, if_pos hle] at hlook
    simp only [hlook, if_neg (toUInt64_le hle)] at h
    obtain rfl := Except.ok.inj h
    exact Iff.rfl
  · have hlook := lookup_absent hfs (fun hin => hpos (hmem.1 hin))
    rw [keyName] at hlook
    simp only [hlook] at h
    obtain rfl := Except.ok.inj h
    exact iff_of_false (by decide) hpos

theorem readOptionalString_document {f : StringField} {value : Bytes}
    (hfs : ∀ key, fs.lookup key = ((documentFields launch).lookup key).map Json.reread)
    (hf : f ∈ optionalStrings) (h : readOptionalString fs f = .ok value) :
    value = launch.strings f := by
  have hmem := @mem_presentFields_inr launch _ hf
  unfold readOptionalString at h
  by_cases hne : launch.strings f = []
  · have hlook := lookup_absent hfs (fun hin => hmem.1 hin hne)
    rw [keyName] at hlook
    simp only [hlook] at h
    rw [hne]
    exact (Except.ok.inj h).symm
  · have hlook : fs.lookup (bytes f.name) = some (.string (launch.strings f)) :=
      lookup_present hfs (hmem.2 hne)
    simp only [hlook] at h
    split_ifs at h
    exact (Except.ok.inj h).symm

end Lookup

/-- The join selectors of a request. -/
def RobloxExperienceLaunchRequest.selectors (request : RobloxExperienceLaunchRequest) : List Bool :=
  [decide (0 < request.integers .userId), decide (0 < request.integers .conversationId),
    request.strings .accessCode ≠ [] || request.strings .linkCode ≠ [],
    decide (request.strings .gameInstanceId ≠ []),
    decide (request.strings .reservedServerAccessCode ≠ [])]

/-- A request built from fields names whom to join as they do. -/
theorem selectors_document {fs : List (Bytes × Json)}
    (hfs : ∀ key, fs.lookup key = ((documentFields launch).lookup key).map Json.reread)
    (h : readRequest fs = .ok request) : request.selectors = selectors launch := by
  obtain ⟨_, hintegers, hstrings⟩ := readRequest_ok h
  have hint : ∀ f ∈ optionalIntegers, (0 < request.integers f ↔ 0 < launch.integers f) :=
    fun f hf => readOptionalInteger_document hfs hf (hintegers f (mem_integerFields f))
  have hstr : ∀ f ∈ optionalStrings, request.strings f = launch.strings f :=
    fun f hf => readOptionalString_document hfs hf (hstrings f (mem_kStringFields f))
  rw [RobloxExperienceLaunchRequest.selectors, selectors, privateJoin,
    decide_eq_decide.2 (hint .userId (by decide)),
    decide_eq_decide.2 (hint .conversationId (by decide)), hstr .accessCode (by decide),
    hstr .linkCode (by decide), hstr .gameInstanceId (by decide),
    hstr .reservedServerAccessCode (by decide)]

theorem validateSelector_ok (h : validateSelector launch = .ok ()) :
    (selectors launch).count true ≤ 1 := by
  unfold validateSelector at h
  by_contra hcount
  simp only [if_pos (Nat.lt_of_not_le hcount)] at h
  cases h

/-- A request from a URI is read from the document of fields whose selectors were validated. -/
theorem parseLaunchUri_ok (h : parseLaunchUri env uri = .ok request) :
    ∃ launch text, validateSelector launch = .ok () ∧
      env.json.dump (documentOf launch) = some text ∧
      parseExperienceLaunch env.json text = .ok request := by
  unfold parseLaunchUri at h
  cases hfields : parseUriFields env uri with
  | error status => simp [hfields] at h
  | ok fields =>
    simp only [hfields] at h
    unfold makeRequest at h
    cases hresolve : resolveFields env fields with
    | error status => simp [hresolve] at h
    | ok launch =>
      simp only [hresolve] at h
      cases hvalid : validateSelector launch with
      | error status => simp [hvalid] at h
      | ok =>
        simp only [hvalid] at h
        cases hdump : env.json.dump (documentOf launch) with
        | none => simp [hdump] at h
        | some text =>
          simp only [hdump] at h
          exact ⟨launch, text, hvalid, hdump, h⟩

theorem selectors_uri (hjson : ∀ document, env.json.RoundTrips document)
    (h : parseLaunchUri env uri = .ok request) : request.selectors.count true ≤ 1 := by
  obtain ⟨launch, text, hvalid, hdump, hread⟩ := parseLaunchUri_ok h
  obtain ⟨fields, parsed, hparse, hparsed, _, _, hrequest⟩ := parseExperienceLaunch_ok hread
  obtain ⟨fs, hreread, hfs⟩ := Json.reread_ofFields (@documentFields_nodup launch)
  have hdocument := (hjson _ _ hdump).1
  rw [documentOf, hreread, hparse] at hdocument
  obtain rfl := Json.object.inj (Option.some.inj hdocument)
  have hsame : request.selectors = parsed.selectors := by
    rw [hrequest]
    rfl
  rw [hsame, selectors_document hfs hparsed]
  exact validateSelector_ok hvalid

/-! The wire. -/

/-- Launch requests as the broker sees them. -/
def launchRequests (json : Json.Library) : Requests RobloxExperienceLaunchRequest where
  canonicalJson := (·.canonicalJson)
  parse text := (parseExperienceLaunch json text).toOption

/-- A request that reads back from its own text, alone or through the broker of another process. -/
structure Survives (json : Json.Library) (request : RobloxExperienceLaunchRequest) : Prop where
  reads : parseExperienceLaunch json request.canonicalJson = .ok request
  normalizes : normalizeRequest (launchRequests json) request = .ok request
  arrives : receiveRequest (launchRequests json)
    ⟨true, true, some (kWirePrefix ++ request.canonicalJson)⟩ = .ok request

theorem survives (h : parseExperienceLaunch json request.canonicalJson = .ok request) :
    Survives json request := by
  have hne : request.canonicalJson ≠ [] := by
    intro hnil
    simp [parseExperienceLaunch, hnil] at h
  obtain ⟨_, _, _, _, _, hlength, _⟩ := parseExperienceLaunch_ok h
  have hpos : 0 < request.canonicalJson.length := List.length_pos_iff.2 hne
  refine ⟨h, ?_, ?_⟩
  · simp [normalizeRequest, launchRequests, hne, h, Except.toOption]
  · have hsize : ¬ kWirePrefix.length + kMaximumExperienceLaunchJsonBytes <
        kWirePrefix.length + request.canonicalJson.length := by omega
    have hshort : ¬ kWirePrefix.length + request.canonicalJson.length ≤ kWirePrefix.length := by
      omega
    simp [receiveRequest, launchRequests, h, Except.toOption, hsize, hshort]

theorem parseExperienceLaunch_valid (h : parseExperienceLaunch json text = .ok request) :
    request.Valid := by
  obtain ⟨_, parsed, _, hread, _, _, hrequest⟩ := parseExperienceLaunch_ok h
  rw [hrequest]
  exact (readRequest_ok hread).1

theorem parseRobloxExperienceLaunchJson_ok {old : RobloxExperienceLaunchRequest}
    (h : parseRobloxExperienceLaunchJson json text old = (.ok (), request)) :
    parseExperienceLaunch json text = .ok request := by
  unfold parseRobloxExperienceLaunchJson at h
  split at h
  · cases h
  · rename_i parsed hparse
    rw [hparse, (Prod.mk.inj h).2]

theorem parseRobloxLaunchUri_ok {old : RobloxExperienceLaunchRequest}
    (h : parseRobloxLaunchUri env uri old = (.ok (), request)) :
    parseLaunchUri env uri = .ok request := by
  unfold parseRobloxLaunchUri at h
  split at h
  · cases h
  · rename_i parsed hparse
    rw [hparse, (Prod.mk.inj h).2]

/-- Every request that is accepted, from a document or from a URI, names a place, survives the wire,
and joins in one way if it came from a URI; a rejected input leaves the default request. -/
theorem requests_survive (env : LaunchEnvironment) (hempty : env.json.parse [] = none)
    (hjson : ∀ document, env.json.RoundTrips document) :
    (∀ text old request, parseRobloxExperienceLaunchJson env.json text old = (.ok (), request) →
      request.Valid ∧ Survives env.json request) ∧
    (∀ uri old request, parseRobloxLaunchUri env uri old = (.ok (), request) →
      request.Valid ∧ Survives env.json request ∧ request.selectors.count true ≤ 1) ∧
    (∀ text old request failure,
      parseRobloxExperienceLaunchJson env.json text old = (.error failure, request) →
        request = {}) ∧
    (∀ uri old request failure,
      parseRobloxLaunchUri env uri old = (.error failure, request) → request = {}) := by
  have hjsonLaunch : ∀ text request, parseExperienceLaunch env.json text = .ok request →
      request.Valid ∧ Survives env.json request := fun text request h =>
    ⟨parseExperienceLaunch_valid h, survives (parseExperienceLaunch_canonical hempty hjson h)⟩
  refine ⟨?_, ?_, ?_, ?_⟩
  · intro text old request h
    exact hjsonLaunch text request (parseRobloxExperienceLaunchJson_ok h)
  · intro uri old request h
    have hparse := parseRobloxLaunchUri_ok h
    obtain ⟨_, text, _, _, hread⟩ := parseLaunchUri_ok hparse
    obtain ⟨hvalid, hsurvives⟩ := hjsonLaunch text request hread
    exact ⟨hvalid, hsurvives, selectors_uri hjson hparse⟩
  · intro text old request failure h
    unfold parseRobloxExperienceLaunchJson at h
    split at h
    · exact (Prod.mk.inj h).2.symm
    · cases h
  · intro uri old request failure h
    unfold parseRobloxLaunchUri at h
    split at h
    · exact (Prod.mk.inj h).2.symm
    · cases h

theorem requests_survive_place : ∃ request,
    parseRobloxLaunchUri placeEnvironment (bytes "roblox://placeId=1818") {} = (.ok (), request) ∧
      request.Valid ∧ Survives placeJson request ∧ request.selectors.count true ≤ 1 := by
  have hok :
      (parseLaunchUri placeEnvironment (bytes "roblox://placeId=1818")).toOption.isSome = true := by
    decide +kernel
  cases h : parseLaunchUri placeEnvironment (bytes "roblox://placeId=1818") with
  | error failure =>
    rw [h] at hok
    cases hok
  | ok request =>
    have hparse : parseRobloxLaunchUri placeEnvironment (bytes "roblox://placeId=1818") {} =
        (.ok (), request) := by
      simp only [parseRobloxLaunchUri, h]
    exact ⟨request, hparse,
      (requests_survive placeEnvironment (by decide) placeJson_roundTrips).2.1 _ _ _ hparse⟩

end Nightcap.Launch
