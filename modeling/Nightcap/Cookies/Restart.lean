import Nightcap.Cookies.Persistence

/-! Calls made of UTF-8 text at an ordinary time leave jars that survive a restart. -/
namespace Nightcap.Cookies

open Utf8 Ascii Transition

variable {jar : Jar} {c cookie : Cookie} {json : Json.Library} {origin : ParsedUrl} {now : Int64}
  {header : Bytes} {attributes : Attributes} {calls : List Call}

/-- The largest value `Max-Age` can have: twelve digits. -/
def kMaximumMaxAge : Int := 999999999999

/-- A clock reading to which every `Max-Age` can be added. -/
def SaneTime (now : Int64) : Prop := 0 ≤ now ∧ now.toInt + kMaximumMaxAge < 2 ^ 63

/-- A call made of UTF-8 text at an ordinary time. -/
structure Call.Textual (call : Call) : Prop where
  url : WellFormed call.url
  setCookies : ∀ header ∈ call.setCookies, WellFormed header
  now : SaneTime call.now

theorem is_lt {x : Char} (hx : x.toNat < 128) (b : UInt8) (h : is x b = true) : b < 128 := by
  obtain rfl : b = chr x := by simpa [is] using h
  rw [chr, UInt8.lt_iff_toNat_lt, UInt8.toNat_ofNat']
  exact (Nat.mod_le _ _).trans_lt hx

theorem isHostEnd_lt (b : UInt8) (h : isHostEnd b = true) : b < 128 := by
  simp only [isHostEnd, Bool.or_eq_true] at h
  rcases h with (h | h) | h <;> exact is_lt (by decide) b h

theorem isQueryStart_lt (b : UInt8) (h : isQueryStart b = true) : b < 128 := by
  simp only [isQueryStart, Bool.or_eq_true] at h
  rcases h with h | h <;> exact is_lt (by decide) b h

/-! URLs. -/

theorem wellFormed_slash : WellFormed [chr '/'] := wellFormed_ascii (by decide)

theorem wellFormed_after_scheme {url : Bytes} {k : Nat} (h : WellFormed url)
    (hk : find (bytes "://") url = some k) : WellFormed (url.drop (k + 3)) := by
  have hs : url = url.take k ++ chr ':' :: ([chr '/', chr '/'] ++ url.drop (k + 3)) := by
    simpa [bytes] using find_eq_some hk
  have hrest := (wellFormed_split (hs ▸ h) (by decide)).2
  exact (wellFormed_slash.append wellFormed_slash).of_append_left hrest

theorem wellFormed_parseUrl {url : Bytes} (h : WellFormed url) :
    WellFormed (parseUrl url).host ∧ WellFormed (parseUrl url).path := by
  unfold parseUrl
  split
  · exact ⟨wellFormed_nil, wellFormed_nil⟩
  · next k hk =>
    have hrest := wellFormed_after_scheme h hk
    refine ⟨?_, ?_⟩
    · refine wellFormed_lower (wellFormed_takeWhile_not (is_lt (by decide)) ?_)
      refine wellFormed_rtakeWhile_not (is_lt (by decide)) ?_
      exact wellFormed_takeWhile_not isHostEnd_lt hrest
    · dsimp only
      split
      · exact wellFormed_slash
      · next b tail hd =>
        split_ifs
        · have hb := (dropWhile_not_cons hd).1
          refine wellFormed_takeWhile_not isQueryStart_lt ?_
          exact (wellFormed_ascii (isHostEnd_lt b hb)).append
            (wellFormed_dropWhile_not isHostEnd_lt hrest hd)
        · exact wellFormed_slash

theorem wellFormed_defaultPath {path : Bytes} (h : WellFormed path) :
    WellFormed (defaultPath path) := by
  unfold defaultPath
  dsimp only
  split_ifs
  · exact wellFormed_slash
  · exact wellFormed_slash
  · by_cases hn : path.rdropWhile (!is '/' ·) = []
    · simp [hn]
    · have hs := List.rdropWhile_append_rtakeWhile (p := (!is '/' ·)) (l := path)
      have hb := List.rdropWhile_last_not (!is '/' ·) path hn
      rw [← List.dropLast_append_getLast hn, List.append_assoc] at hs
      exact (wellFormed_split (hs ▸ h) (is_lt (x := '/') (by decide) _ (by simpa using hb))).1

/-! Expiry times. -/

theorem toInt_ofInt {n : Int} (hl : -2 ^ 63 ≤ n) (hh : n < 2 ^ 63) : (Int64.ofInt n).toInt = n :=
  Int64.toInt_ofInt_of_le (by simpa using hl) (by simpa using hh)

theorem parseMaxAge_le {value : Bytes} {m : Int64} (h : parseMaxAge value = some m) :
    m.toInt ≤ kMaximumMaxAge := by
  unfold parseMaxAge at h
  dsimp only at h
  split_ifs at h with hneg hd hd
  all_goals
    rw [Bool.and_eq_true, decide_eq_true_eq] at hd
    have hlt := (decimal_lt hd.1).trans_le (Nat.pow_le_pow_right (by decide) hd.2)
    obtain rfl := Option.some.inj h
    rw [toInt_ofInt (by omega) (by omega), kMaximumMaxAge]
    omega

/-- Two or four digits make a year below 10000. -/
theorem dateToken_year {fields : DateFields} {token : Bytes} (h : ∀ y ∈ fields.year, y < 10000) :
    ∀ y ∈ (dateToken fields token).year, y < 10000 := by
  have hyear : ∀ year, year < 10000 → ∀ y ∈ some year, y < 10000 := by
    rintro year hlt y ⟨⟩
    exact hlt
  unfold dateToken
  split_ifs with h1 h2 h3 h4 h5
  · exact h
  · exact h
  · exact h
  · simp only [Bool.and_eq_true] at h4
    have hlt := decimal_lt h4.1.1
    rw [h5] at hlt
    refine hyear _ ?_
    split_ifs <;> omega
  · simp only [Bool.and_eq_true, Bool.or_eq_true, beq_iff_eq] at h4
    have hlt := decimal_lt h4.1.1
    rw [h4.2.resolve_left h5] at hlt
    exact hyear _ hlt
  · exact h
  · exact h

theorem timegm_lt {year month day hour minute second : Nat} (hy : year < 10000) (hd : day ≤ 31)
    (hh : hour ≤ 23) (hm : minute ≤ 59) (hs : second ≤ 60) :
    timegm year month day hour minute second < 2 ^ 63 := by
  have hsum : ((monthLengths year).take month).sum ≤ 366 := by
    calc ((monthLengths year).take month).sum ≤ (monthLengths year).sum :=
          (List.take_sublist month _).sum_le_sum (by simp)
      _ ≤ 366 := by
        unfold monthLengths
        split <;> simp
  unfold timegm
  dsimp only
  omega

theorem parseCookieDate_nonneg {text : Bytes} {e : Int64} (h : parseCookieDate text = some e) :
    0 ≤ e := by
  unfold parseCookieDate at h
  have hy : ∀ y ∈ ((text.splitOnP fun b => is ' ' b || is ',' b || is '-' b).foldl dateToken
      {}).year, y < 10000 :=
    List.foldlRecOn _ _ (motive := fun f : DateFields => ∀ y ∈ f.year, y < 10000) (by simp)
      fun f hf token _ => dateToken_year hf
  dsimp only at h
  split at h
  · next day month year hour minute second _ _ hyear _ =>
    split_ifs at h with hr
    obtain rfl := Option.some.inj h
    have hlt : timegm year month day hour minute second < 2 ^ 63 :=
      timegm_lt (hy year hyear) (by omega) (by omega) (by omega) (by omega)
    have hge : 0 ≤ timegm year month day hour minute second := by
      unfold timegm
      dsimp only
      omega
    rw [Int64.le_iff_toInt_le, toInt_ofInt (by omega) hlt]
    exact hge
  · cases h

theorem add_nonneg {now m : Int64} (hn : SaneTime now) (hm : ¬ m ≤ 0)
    (hle : m.toInt ≤ kMaximumMaxAge) : 0 ≤ now + m := by
  have h0 := Int64.le_iff_toInt_le.1 hn.1
  have h1 := hn.2
  rw [Int64.le_iff_toInt_le] at hm ⊢
  rw [Int64.toInt_add, Int.bmod_eq_of_le]
  · simp at h0 hm ⊢
    omega
  · simp at h0 hm ⊢
    omega
  · omega

/-! One header, one call, one run. -/

/-- Attributes read from UTF-8 text. -/
structure Attributes.Textual (attributes : Attributes) : Prop where
  domain : WellFormed attributes.domain
  path : WellFormed attributes.path
  maxAge : ∀ m ∈ attributes.maxAge, m.toInt ≤ kMaximumMaxAge
  expires : 0 ≤ attributes.expires

theorem wellFormed_itemValue {item : Bytes} (h : WellFormed item) :
    WellFormed (match item.dropWhile (!is '=' ·) with
      | [] => []
      | _ :: tail => trim tail) := by
  split
  · exact wellFormed_nil
  · next hd => exact wellFormed_trim (wellFormed_dropWhile_not (is_lt (by decide)) h hd)

theorem applyAttribute_textual (ha : attributes.Textual) {item : Bytes} (h : WellFormed item) :
    (applyAttribute attributes item).Textual := by
  have hv := wellFormed_itemValue h
  unfold applyAttribute
  dsimp only
  split_ifs
  · exact { ha with
      domain := wellFormed_dropWhile (is_lt (by decide)) (wellFormed_lower hv) }
  · exact { ha with path := hv }
  · exact { ha with }
  · split
    · next m hm =>
      exact { ha with
        maxAge := by
          rintro _ ⟨⟩
          exact parseMaxAge_le hm }
    · exact ha
  · split
    · next e he => exact { ha with expires := parseCookieDate_nonneg he }
    · exact { ha with }
  · exact ha

theorem headerAttributes_textual (h : WellFormed header) : (headerAttributes header).Textual := by
  have hempty : ({} : Attributes).Textual :=
    ⟨wellFormed_nil, wellFormed_nil, by simp, by decide⟩
  unfold headerAttributes
  split
  · exact hempty
  · next hd =>
    have hrest := wellFormed_dropWhile_not (is_lt (by decide)) h hd
    refine List.foldlRecOn _ _ (motive := Attributes.Textual) hempty ?_
    intro attributes ha item hi
    exact applyAttribute_textual ha
      (wellFormed_trim (wellFormed_splitOnP (is_lt (by decide)) hrest item hi))

theorem headerPair_textual {name value : Bytes} (h : WellFormed header)
    (hp : headerPair header = some (name, value)) : WellFormed value := by
  unfold headerPair at hp
  dsimp only at hp
  split at hp
  · cases hp
  · next hd =>
    obtain ⟨rfl, rfl⟩ := Prod.mk.inj (Option.some.inj hp)
    have hpair := wellFormed_trim (wellFormed_takeWhile_not (is_lt (x := ';') (by decide)) h)
    exact wellFormed_trim (wellFormed_dropWhile_not (is_lt (by decide)) hpair hd)

theorem withExpiry_writable (ha : attributes.Textual) (hn : SaneTime now) (hc : Writable c) :
    Writable (withExpiry attributes now c).1 := by
  unfold withExpiry
  split
  · next m hm =>
    split_ifs with hle
    · exact hc
    · exact { hc with expires := add_nonneg hn hle (ha.maxAge m hm) }
  · split_ifs
    · exact { hc with expires := ha.expires }
    · exact hc

/-- What a UTF-8 header yields can be written. -/
theorem parseSetCookie_writable (h : WellFormed header) (hh : WellFormed origin.host)
    (hp : WellFormed origin.path) (hn : SaneTime now) {remove : Bool}
    (hc : parseSetCookie origin now header = some (cookie, remove)) : Writable cookie := by
  obtain ⟨name, value, hpair, _, _, he⟩ := parseSetCookie_eq_some hc
  have ha := headerAttributes_textual h
  have hs : Writable (scopedCookie origin (headerAttributes header) name value) := by
    refine ⟨headerPair_textual h hpair, ?_, ?_, Int64.le_refl 0⟩
    · unfold scopedCookie
      dsimp only
      split_ifs
      · exact hh
      · exact ha.domain
    · unfold scopedCookie
      dsimp only
      split_ifs
      · exact wellFormed_defaultPath hp
      · exact ha.path
  have hw := withExpiry_writable ha hn hs
  rwa [he] at hw

theorem apply_writable {call : Call} (hc : call.Textual) (h : ∀ c ∈ jar, Writable c) :
    ∀ c ∈ (apply jar call.url call.setCookies call.now).1, Writable c := by
  obtain ⟨hh, hp⟩ := wellFormed_parseUrl hc.url
  have hloop : ∀ c ∈ (call.setCookies.foldl (applyHeader (parseUrl call.url) call.now)
      (jar, false)).1, Writable c := by
    refine List.foldlRecOn _ _ (motive := fun state : Jar × Bool => ∀ c ∈ state.1, Writable c)
      h ?_
    intro state hs header hm c hc'
    unfold applyHeader at hc'
    split at hc'
    · exact hs c hc'
    · next cookie remove hset =>
      rcases (storeCookie_stored state.1 cookie remove).mem hc' with hc' | rfl
      · exact hs c hc'
      · exact parseSetCookie_writable (hc.setCookies header hm) hh hp hc.now hset
  intro c hm
  unfold apply at hm
  dsimp only at hm
  split_ifs at hm
  · exact h c hm
  · unfold sweep at hm
    split_ifs at hm
    · exact hloop c (List.mem_of_mem_filter hm)
    · exact hloop c hm

theorem run_writable {jar' : Jar} (hr : jarLTS.Run jar calls jar')
    (hc : ∀ call ∈ calls, call.Textual)
    (h : ∀ c ∈ jar, Writable c) : ∀ c ∈ jar', Writable c := by
  induction hr with
  | refl => exact h
  | cons hs _ ih =>
    rw [List.forall_mem_cons] at hc
    obtain rfl := Option.some.inj hs
    exact ih hc.2 (apply_writable hc.1 h)

/-- A reachable jar survives a restart exactly when all of its cookies can be written, and they can
be after calls made of UTF-8 text. -/
theorem restart_keeps_jar (hr : jarLTS.Run [] calls jar) (hj : json.FaithfulAt (document jar)) :
    (RoundTrips json jar ↔ ∀ c ∈ jar, Writable c) ∧
      ((∀ call ∈ calls, call.Textual) → RoundTrips json jar) := by
  have hiff := roundTrips_iff (sound_reachable ⟨[], calls, rfl, hr⟩) hj
  exact ⟨hiff, fun hc => hiff.2 (run_writable hr hc (by simp))⟩

def sampleCookie : Cookie :=
  { name := bytes "a", value := bytes "b", domain := bytes "www.roblox.com", path := bytes "/",
    hostOnly := true }

/-- The text `dump` prints for the jar of that cookie. -/
def sampleText : Bytes :=
  bytes ("\x7b\"cookies\":[\x7b\"domain\":\"www.roblox.com\",\"expires\":0,\"host_only\":true," ++
    "\"name\":\"a\",\"path\":\"/\",\"secure\":false,\"value\":\"b\"\x7d],\"version\":1\x7d")

def sampleLibrary : Json.Library where
  dump _ := some sampleText
  parse text := if text = sampleText then some (document [sampleCookie]).reread else none

theorem sampleLibrary_faithful : sampleLibrary.FaithfulAt (document [sampleCookie]) := by
  have hv : WellFormed sampleCookie.value ∧ WellFormed sampleCookie.domain ∧
      WellFormed sampleCookie.path :=
    ⟨wellFormed_of_ascii (by decide +kernel), wellFormed_of_ascii (by decide +kernel),
      wellFormed_of_ascii (by decide +kernel)⟩
  have hs : Sound [sampleCookie] := ⟨by decide, by decide, by decide, by decide⟩
  refine ⟨⟨fun _ => (textual_document hs).2 (by simpa using hv), fun _ => rfl⟩, ?_⟩
  intro text ht
  obtain rfl := Option.some.inj ht
  simp [sampleLibrary]

def sampleCall : Call := ⟨bytes "https://www.roblox.com/", [bytes "a=b; path=/"], 5⟩

theorem sampleCall_run : jarLTS.Run [] [sampleCall] [sampleCookie] :=
  .single (show some _ = some _ by decide)

theorem restart_keeps_jar_sample : RoundTrips sampleLibrary [sampleCookie] :=
  (restart_keeps_jar sampleCall_run sampleLibrary_faithful).2 (by
    intro call hc
    obtain rfl := List.mem_singleton.1 hc
    refine ⟨wellFormed_of_ascii (by decide +kernel), ?_, by decide, by decide⟩
    intro header hh
    obtain rfl := List.mem_singleton.1 hh
    exact wellFormed_of_ascii (by decide +kernel))

theorem not_wellFormed_continuation : ¬ WellFormed [0x80] := by
  rintro ⟨cs, hcs⟩
  cases cs with
  | nil => simp at hcs
  | cons x cs =>
    have hx := congrArg List.toByteArray hcs
    rw [encode_cons, List.toByteArray_append] at hx
    have hd :=
      ByteArray.utf8DecodeChar?_utf8EncodeChar_append (b := (encode cs).toByteArray) (c := x)
    have hn : [0x80].toByteArray.utf8DecodeChar? 0 = none := by decide
    rw [hx, hn] at hd
    cases hd

/-- `Set-Cookie: a=\x80` is stored, and the jar then cannot be written. -/
theorem restart_loses_jar : ¬ ∀ (json : Json.Library) (calls : List Call) (jar : Jar),
    jarLTS.Run [] calls jar → json.FaithfulAt (document jar) → RoundTrips json jar := by
  intro hall
  let bad : Cookie := { sampleCookie with value := [0x80] }
  have hrun : jarLTS.Run [] [⟨bytes "https://www.roblox.com/", [bytes "a=" ++ [0x80]], 5⟩] [bad] :=
    .single (show some _ = some _ by decide)
  have hdoc : ¬ (document [bad]).Textual := by
    rw [textual_document (sound_reachable ⟨[], _, rfl, hrun⟩)]
    intro h
    exact not_wellFormed_continuation (h bad (by simp)).1
  obtain ⟨text, hs, _⟩ := hall ⟨fun _ => none, fun _ => none⟩ _ _ hrun
    ⟨by simp [hdoc], by simp⟩
  cases hs

end Nightcap.Cookies
