import Nightcap.Launch.Uri
import Nightcap.Lib.Framing

/-! What a player launch keeps of its outer fields: nothing but the mode and the launcher URL. -/
namespace Nightcap.Launch

open Utf8 Ascii Framing

variable {env : LaunchEnvironment} {uri uri' payload payload' field field' key value : Bytes}
  {fields fields' : List Bytes} {sep : UInt8} {count : Nat} {seen seen' : ClassicFields}

theorem splitFirst_append (h : sep ∉ key) :
    splitFirst sep (key ++ sep :: value) = some (key, value) := by
  induction key with
  | nil => simp [splitFirst]
  | cons b key ih =>
    rw [List.mem_cons, not_or] at h
    rw [List.cons_append, splitFirst, if_neg (Ne.symm h.1), ih h.2]
    rfl

/-- Two fields that differ in nothing but a value that is never decoded. -/
inductive SameField : Bytes → Bytes → Prop
  | refl (field : Bytes) : SameField field field
  | value {key value value' : Bytes} (hkey : chr ':' ∉ key)
      (hmode : lower key ≠ bytes "launchmode") (hurl : lower key ≠ bytes "placelauncherurl") :
      SameField (key ++ chr ':' :: value) (key ++ chr ':' :: value')

/-- Two player launches that differ in the values of outer fields that are neither the mode nor the
launcher URL. -/
def SameLaunch (uri uri' : Bytes) : Prop :=
  ∃ scheme fields fields', chr ':' ∉ scheme ∧ lower scheme = bytes "roblox-player" ∧
    (∀ field ∈ fields, chr '+' ∉ field) ∧ (∀ field ∈ fields', chr '+' ∉ field) ∧
    List.Forall₂ SameField fields fields' ∧
    uri = scheme ++ chr ':' :: joined (chr '+') fields ∧
    uri' = scheme ++ chr ':' :: joined (chr '+') fields'

theorem SameField.symm (h : SameField field field') : SameField field' field := by
  cases h with
  | refl => exact .refl _
  | value hkey hmode hurl => exact .value hkey hmode hurl

theorem SameLaunch.symm (h : SameLaunch uri uri') : SameLaunch uri' uri := by
  obtain ⟨scheme, fields, fields', hcolon, hscheme, hplus, hplus', hsame, huri, huri'⟩ := h
  exact ⟨scheme, fields', fields, hcolon, hscheme, hplus', hplus,
    hsame.flip.imp fun _ _ h => h.symm,
    huri', huri⟩

/-- A value that is never decoded does not matter to the loop. -/
theorem readClassicField_same (h : SameField field field') :
    readClassicField field' seen = readClassicField field seen := by
  cases h with
  | refl => rfl
  | @value key _ _ hkey hmode hurl =>
    unfold readClassicField
    rw [splitFirst_append hkey, splitFirst_append hkey]
    cases key with
    | nil => rfl
    | cons b key => simp only [if_neg hmode, if_neg hurl]

theorem SameField.version (h : SameField field field') (hv : field = bytes "1") :
    field' = bytes "1" := by
  cases h with
  | refl => exact hv
  | value =>
    have hin : chr ':' ∈ bytes "1" := hv ▸ List.mem_append_right _ List.mem_cons_self
    exact absurd hin (by decide)

def fieldTooLarge : Status := invalidArgument "Roblox player launch field is too large"

/-- A launch that is read is read the same with other values, unless one of them is too large. -/
theorem readClassicFields_same (hs : List.Forall₂ SameField fields fields')
    (h : readClassicFields count fields seen = .ok seen') :
    readClassicFields count fields' seen = .ok seen' ∨
      (readClassicFields count fields' seen = .error fieldTooLarge ∧
        ∃ field ∈ fields', kMaximumClassicFieldBytes < field.length) := by
  induction hs generalizing count seen with
  | nil => exact .inl h
  | @cons field field' rest rest' hfield _ ih =>
    unfold readClassicFields at h ⊢
    by_cases hcount : count + 1 > kMaximumParameterCount
    · rw [if_pos hcount] at h
      cases h
    rw [if_neg hcount] at h ⊢
    by_cases hlarge : field'.length > kMaximumClassicFieldBytes
    · rw [if_pos hlarge]
      exact .inr ⟨rfl, field', List.mem_cons_self, hlarge⟩
    by_cases hlarge' : field.length > kMaximumClassicFieldBytes
    · rw [if_pos hlarge'] at h
      cases h
    rw [if_neg hlarge'] at h
    rw [if_neg hlarge]
    have hlift : ∀ {c s}, readClassicFields c rest s = .ok seen' →
        readClassicFields c rest' s = .ok seen' ∨
          (readClassicFields c rest' s = .error fieldTooLarge ∧
            ∃ f ∈ field' :: rest', kMaximumClassicFieldBytes < f.length) := by
      intro c s h
      rcases ih h with h | ⟨h, f, hf, hl⟩
      · exact .inl h
      · exact .inr ⟨h, f, List.mem_cons_of_mem _ hf, hl⟩
    by_cases hzero : count = 0
    · rw [if_pos hzero] at h ⊢
      by_cases hv : field = bytes "1"
      · rw [if_neg (not_not.2 hv)] at h
        rw [if_neg (not_not.2 (hfield.version hv))]
        exact hlift h
      · rw [if_pos hv] at h
        cases h
    · rw [if_neg hzero] at h ⊢
      rw [readClassicField_same hfield]
      cases hread : readClassicField field seen with
      | error status =>
        rw [hread] at h
        cases h
      | ok next =>
        rw [hread] at h
        exact hlift h

theorem joined_eq_intercalate : joined sep fields = [sep].intercalate fields := by
  induction fields with
  | nil => rfl
  | cons field rest ih =>
    by_cases hrest : rest = []
    · subst hrest
      simp [joined]
    · rw [joined_cons hrest, ih, List.intercalate_cons_of_ne_nil hrest]
      simp

theorem splitOn_joined (hf : ∀ field ∈ fields, sep ∉ field) (hne : fields ≠ []) :
    (joined sep fields).splitOn sep = fields := by
  rw [joined_eq_intercalate, List.splitOn_intercalate sep hf hne]

/-- Why a player launch may be refused for a value that is never decoded. -/
inductive RefusedForSize (uri : Bytes) : Status → Prop
  | uri (h : uri.length > kMaximumRobloxLaunchUriBytes ∨ containsControlBytes uri = true ∨
      isValidUtf8 uri = false) : RefusedForSize uri uriInvalid
  | field {scheme : Bytes} {fields : List Bytes} {field : Bytes}
      (huri : uri = scheme ++ chr ':' :: joined (chr '+') fields) (hin : field ∈ fields)
      (hl : kMaximumClassicFieldBytes < field.length) : RefusedForSize uri fieldTooLarge

theorem SameField.nil (h : SameField field []) : field = [] := by
  generalize he : ([] : Bytes) = empty at h
  cases h with
  | refl => rfl
  | value => simp at he

/-- A payload cannot become empty. -/
theorem joined_ne_nil (hs : List.Forall₂ SameField fields fields')
    (h : joined sep fields ≠ []) : joined sep fields' ≠ [] := by
  intro hnil
  apply h
  cases hs with
  | nil => rfl
  | @cons field field' rest rest' hfield hrest =>
    cases hrest with
    | nil =>
      obtain rfl : field' = [] := hnil
      exact hfield.nil
    | cons => simp [joined] at hnil

theorem parseClassic_same {launch : LaunchFields} (hs : List.Forall₂ SameField fields fields')
    (hplus : ∀ field ∈ fields, chr '+' ∉ field) (hplus' : ∀ field ∈ fields', chr '+' ∉ field)
    (h : parseClassic env (joined (chr '+') fields) = .ok launch) :
    parseClassic env (joined (chr '+') fields') = .ok launch ∨
      (parseClassic env (joined (chr '+') fields') = .error fieldTooLarge ∧
        ∃ field ∈ fields', kMaximumClassicFieldBytes < field.length) := by
  have hpayload : joined (chr '+') fields ≠ [] := by
    intro hnil
    simp [parseClassic, hnil] at h
  have hne : fields ≠ [] := by
    rintro rfl
    exact hpayload rfl
  have hne' : fields' ≠ [] := by
    rintro rfl
    exact hne (List.forall₂_nil_right_iff.1 hs)
  unfold parseClassic at h
  rw [if_neg hpayload, splitOn_joined hplus hne] at h
  cases hread : readClassicFields 0 fields {} with
  | error status => simp [hread] at h
  | ok seen =>
    rw [hread] at h
    have hpayload' := joined_ne_nil hs hpayload
    unfold parseClassic
    rw [if_neg hpayload', splitOn_joined hplus' hne']
    rcases readClassicFields_same hs hread with hread' | ⟨hread', f, hf, hl⟩
    · rw [hread']
      exact .inl h
    · rw [hread']
      exact .inr ⟨rfl, f, hf, hl⟩

theorem parseUriFields_same {launch : LaunchFields} (hs : SameLaunch uri uri')
    (h : parseUriFields env uri = .ok launch) :
    parseUriFields env uri' = .ok launch ∨
      ∃ status, parseUriFields env uri' = .error status ∧ RefusedForSize uri' status := by
  obtain ⟨scheme, fields, fields', hcolon, hscheme, hplus, hplus', hsame, rfl, rfl⟩ := hs
  unfold parseUriFields at h ⊢
  split_ifs at h with hfit
  rw [splitFirst_append hcolon] at h
  by_cases hfit' : kMaximumRobloxLaunchUriBytes <
        (scheme ++ chr ':' :: joined (chr '+') fields').length ∨
      containsControlBytes (scheme ++ chr ':' :: joined (chr '+') fields') = true ∨
      isValidUtf8 (scheme ++ chr ':' :: joined (chr '+') fields') = false
  · rw [if_pos (.inr hfit')]
    exact .inr ⟨uriInvalid, rfl, .uri hfit'⟩
  · rw [if_neg (by simpa using hfit'), splitFirst_append hcolon]
    cases scheme with
    | nil => cases h
    | cons b scheme =>
      simp only [if_pos hscheme] at h ⊢
      rcases parseClassic_same hsame hplus hplus' h with h | ⟨h, f, hf, hl⟩
      · exact .inl h
      · exact .inr ⟨fieldTooLarge, h, .field rfl hf hl⟩

theorem parseLaunchUri_same {request : RobloxExperienceLaunchRequest} (hs : SameLaunch uri uri')
    (h : parseLaunchUri env uri = .ok request) :
    parseLaunchUri env uri' = .ok request ∨
      ∃ status, parseLaunchUri env uri' = .error (.refused status) ∧
        RefusedForSize uri' status := by
  unfold parseLaunchUri at h ⊢
  cases hfields : parseUriFields env uri with
  | error status => simp [hfields] at h
  | ok launch =>
    rw [hfields] at h
    rcases parseUriFields_same hs hfields with hfields' | ⟨status, hfields', hsize⟩
    · rw [hfields']
      exact .inl h
    · rw [hfields']
      exact .inr ⟨status, rfl, hsize⟩

/-- The ticket and the other outer values of a player launch leave no trace: two launches that
differ in them alone give the same request, or one of them is refused for its size or its
encoding. -/
theorem outer_values_ignored (env : LaunchEnvironment) (hs : SameLaunch uri uri') :
    (∀ request request', parseLaunchUri env uri = .ok request →
      parseLaunchUri env uri' = .ok request' → request' = request) ∧
    (∀ request failure, parseLaunchUri env uri = .ok request →
      parseLaunchUri env uri' = .error failure →
      ∃ status, failure = .refused status ∧ RefusedForSize uri' status) ∧
    (∀ request failure, parseLaunchUri env uri' = .ok request →
      parseLaunchUri env uri = .error failure →
      ∃ status, failure = .refused status ∧ RefusedForSize uri status) := by
  refine ⟨?_, ?_, ?_⟩
  · intro request request' h h'
    rcases parseLaunchUri_same hs h with heq | ⟨status, heq, _⟩
    · exact Except.ok.inj (h'.symm.trans heq)
    · cases heq.symm.trans h'
  · intro request failure h h'
    rcases parseLaunchUri_same hs h with heq | ⟨status, heq, hsize⟩
    · cases heq.symm.trans h'
    · exact ⟨status, Except.error.inj (h'.symm.trans heq), hsize⟩
  · intro request failure h h'
    rcases parseLaunchUri_same hs.symm h with heq | ⟨status, heq, hsize⟩
    · cases heq.symm.trans h'
    · exact ⟨status, Except.error.inj (h'.symm.trans heq), hsize⟩

def launchWithTicket (ticket : Bytes) : Bytes :=
  bytes "roblox-player" ++ chr ':' :: joined (chr '+')
    [bytes "1", bytes "launchmode:play", bytes "gameinfo" ++ chr ':' :: ticket,
      bytes ("placelauncherurl:https%3A%2F%2Fwww.roblox.com%2FGame%2FPlaceLauncher.ashx" ++
        "%3Frequest%3DRequestGame%26placeId%3D1818")]

theorem sameLaunch_withTicket {ticket ticket' : Bytes} (h : chr '+' ∉ ticket)
    (h' : chr '+' ∉ ticket') : SameLaunch (launchWithTicket ticket) (launchWithTicket ticket') := by
  refine ⟨_, _, _, by decide, by decide, ?_, ?_, ?_, rfl, rfl⟩
  · simp only [List.forall_mem_cons]
    refine ⟨by decide, by decide, ?_, by decide +kernel, nofun⟩
    exact List.not_mem_append (by decide) (List.not_mem_cons_of_ne_of_not_mem (by decide) h)
  · simp only [List.forall_mem_cons]
    refine ⟨by decide, by decide, ?_, by decide +kernel, nofun⟩
    exact List.not_mem_append (by decide) (List.not_mem_cons_of_ne_of_not_mem (by decide) h')
  · refine .cons (.refl _) (.cons (.refl _) (.cons ?_ (.cons (.refl _) .nil)))
    exact .value (by decide) (by decide) (by decide)

/-- A launch is accepted with one ticket, and gives the same request with another. -/
theorem outer_values_ignored_ticket : ∃ request,
    parseLaunchUri placeEnvironment (launchWithTicket (bytes "AAA")) = .ok request ∧
      ∀ request', parseLaunchUri placeEnvironment (launchWithTicket (bytes "B%zz")) = .ok request' →
        request' = request := by
  have hok : (parseLaunchUri placeEnvironment (launchWithTicket (bytes "AAA"))).toOption.isSome =
      true := by
    decide +kernel
  have hs : SameLaunch (launchWithTicket (bytes "AAA")) (launchWithTicket (bytes "B%zz")) :=
    sameLaunch_withTicket (by decide) (by decide)
  cases h : parseLaunchUri placeEnvironment (launchWithTicket (bytes "AAA")) with
  | error failure =>
    rw [h] at hok
    cases hok
  | ok request =>
    exact ⟨request, rfl, fun request' =>
      (outer_values_ignored placeEnvironment hs).1 request request' h⟩

end Nightcap.Launch
