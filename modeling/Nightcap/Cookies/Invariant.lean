import Nightcap.Cookies.Jar

/-! What holds of every jar that `Apply` calls can reach. -/
namespace Nightcap.Cookies

open Utf8 Ascii Transition

variable {jar jar' : Jar} {cookie c : Cookie} {remove : Bool} {origin : ParsedUrl} {now : Int64}
  {header : Bytes} {headers : List Bytes} {host domain : Bytes}

/-- One `Apply` call. -/
structure Call where
  url : Bytes
  setCookies : List Bytes
  now : Int64

/-- The jars reached from an empty one, a call at a time. -/
def jarLTS : LTS Jar Call :=
  .ofFun [] fun jar call => some (apply jar call.url call.setCookies call.now).1

/-- `host` is `domain` or lies below it. -/
def InDomain (host domain : Bytes) : Prop :=
  host = domain ∨ ∃ sub, host = sub ++ chr '.' :: domain

def key (cookie : Cookie) : Bytes × Bytes × Bytes := (cookie.name, cookie.domain, cookie.path)

theorem sameCookie_iff : sameCookie cookie c = true ↔ key cookie = key c := by
  simp [sameCookie, key, and_assoc]

theorem inDomain_of_suffix (hl : domain.length < host.length)
    (hd : host.drop (host.length - domain.length) = domain)
    (hdot : host[host.length - domain.length - 1]? = some (chr '.')) :
    host = host.take (host.length - domain.length - 1) ++ chr '.' :: domain := by
  have hk : host.length - domain.length - 1 < host.length := by omega
  have hs := List.take_append_drop (host.length - domain.length - 1) host
  rw [List.drop_eq_getElem_cons hk] at hs
  rw [List.getElem?_eq_getElem hk, Option.some.injEq] at hdot
  rw [hdot, show host.length - domain.length - 1 + 1 = host.length - domain.length by omega, hd]
    at hs
  exact hs.symm

theorem domainMatches_iff (hd : domain ≠ []) :
    domainMatches host domain = true ↔ InDomain host domain := by
  unfold domainMatches InDomain
  constructor
  · intro h
    split_ifs at h with h1 h2
    · exact .inl (by simpa using h2)
    · simp only [gt_iff_lt, Bool.and_eq_true, decide_eq_true_eq, beq_iff_eq] at h
      exact .inr ⟨_, inDomain_of_suffix h.1.1 h.1.2 h.2⟩
  · rintro (rfl | ⟨sub, rfl⟩)
    · simp [hd]
    · have hl : (sub ++ chr '.' :: domain).length - domain.length = sub.length + 1 := by
        simp only [List.length_append, List.length_cons]
        omega
      have hne : sub ++ chr '.' :: domain ≠ domain := by
        intro he
        have := congrArg List.length he
        simp only [List.length_append, List.length_cons] at this
        omega
      rw [hl]
      simp [hd, hne]
      omega

theorem kSite_ne_nil : kSite ≠ [] := by decide

/-! One header. -/

theorem lower_eq_iff {s : Bytes} : lower s = s ↔ ∀ b ∈ s, toLower b = b := by
  induction s with
  | nil => simp [lower]
  | cons b s ih => simpa [lower] using fun _ => ih

theorem applyAttribute_lowered {attributes : Attributes}
    (h : lower attributes.domain = attributes.domain) (item : Bytes) :
    lower (applyAttribute attributes item).domain = (applyAttribute attributes item).domain := by
  unfold applyAttribute
  dsimp only
  split_ifs
  · rw [lower_eq_iff]
    intro b hb
    exact lower_eq_iff.1 lower_lower b ((List.dropWhile_suffix _).subset hb)
  · exact h
  · exact h
  · split <;> exact h
  · split <;> exact h
  · exact h

theorem headerAttributes_lowered (header : Bytes) :
    lower (headerAttributes header).domain = (headerAttributes header).domain := by
  unfold headerAttributes
  split
  · rfl
  · unfold applyAttributes
    refine List.foldlRecOn _ _ (motive := fun a : Attributes => lower a.domain = a.domain) rfl ?_
    intro attributes h item _
    exact applyAttribute_lowered h _

/-- Expiry changes nothing but `expires`. -/
theorem withExpiry_eq (attributes : Attributes) (now : Int64) (cookie : Cookie) :
    ∃ e, (withExpiry attributes now cookie).1 = { cookie with expires := e } := by
  unfold withExpiry
  split
  · split_ifs
    · exact ⟨cookie.expires, rfl⟩
    · exact ⟨_, rfl⟩
  · split_ifs
    · exact ⟨_, rfl⟩
    · exact ⟨cookie.expires, rfl⟩

theorem parseSetCookie_eq_some (h : parseSetCookie origin now header = some (cookie, remove)) :
    ∃ name value, headerPair header = some (name, value) ∧
      domainMatches origin.host (scopedCookie origin (headerAttributes header) name value).domain ∧
      storableCookie (scopedCookie origin (headerAttributes header) name value) = true ∧
      withExpiry (headerAttributes header) now
        (scopedCookie origin (headerAttributes header) name value) = (cookie, remove) := by
  unfold parseSetCookie at h
  split at h
  · cases h
  · next name value hp =>
    dsimp only at h
    split_ifs at h with hd hs
    exact ⟨name, value, hp, by simpa using hd, by simpa using hs, Option.some.inj h⟩

/-- Every cookie a header yields may be stored, belongs to the origin, and is filed in lower
case. -/
theorem parseSetCookie_spec (h : parseSetCookie origin now header = some (cookie, remove))
    (ho : lower origin.host = origin.host) :
    storableCookie cookie = true ∧ domainMatches origin.host cookie.domain = true ∧
      lower cookie.domain = cookie.domain := by
  obtain ⟨name, value, _, hd, hs, he⟩ := parseSetCookie_eq_some h
  obtain ⟨e, hc⟩ := withExpiry_eq (headerAttributes header) now
    (scopedCookie origin (headerAttributes header) name value)
  rw [he] at hc
  subst hc
  refine ⟨hs, hd, ?_⟩
  unfold scopedCookie
  dsimp only
  split_ifs
  · exact ho
  · exact headerAttributes_lowered header

/-- Everything storing one cookie can do to the jar. -/
inductive Stored (jar : Jar) (cookie : Cookie) : Bool → Jar × Bool → Prop
  | unchanged {remove : Bool} : Stored jar cookie remove (jar, false)
  | removed : Stored jar cookie true (jar.eraseP (sameCookie · cookie), true)
  | replaced (h : ∃ c ∈ jar, sameCookie c cookie = true) :
      Stored jar cookie false (jar.eraseP (sameCookie · cookie) ++ [cookie], true)
  | evicted (h : ∀ c ∈ jar, sameCookie c cookie = false) (hl : jar.length ≥ kMaximumCookies) :
      Stored jar cookie false (jar.drop 1 ++ [cookie], true)
  | added (h : ∀ c ∈ jar, sameCookie c cookie = false) (hl : jar.length < kMaximumCookies) :
      Stored jar cookie false (jar ++ [cookie], true)

theorem storeCookie_stored (jar : Jar) (cookie : Cookie) (remove : Bool) :
    Stored jar cookie remove (storeCookie jar cookie remove) := by
  unfold storeCookie
  have he := @List.eraseP_eq_eraseIdx _ jar (sameCookie · cookie)
  cases hf : jar.findIdx? (sameCookie · cookie) with
  | some i =>
    simp only [hf] at he
    have hmem : ∃ c ∈ jar, sameCookie c cookie = true := by
      obtain ⟨hi, hs, _⟩ := List.findIdx?_eq_some_iff_getElem.1 hf
      exact ⟨jar[i], List.getElem_mem hi, hs⟩
    cases remove
    · simp only [Bool.false_eq_true, if_false, ← he]
      split
      · exact .unchanged
      · exact .replaced hmem
    · simp only [if_true, ← he]
      exact .removed
  | none =>
    have hmem : ∀ c ∈ jar, sameCookie c cookie = false := by
      simpa using List.findIdx?_eq_none_iff.1 hf
    cases remove
    · simp only [Bool.false_eq_true, if_false]
      split
      · next hl => exact .evicted hmem hl
      · next hl => exact .added hmem (by omega)
    · exact .unchanged

/-- The storage rules: bounded, one cookie per name, domain and path, each of them storable. -/
structure Sound (jar : Jar) : Prop where
  bounded : jar.length ≤ kMaximumCookies
  distinct : (jar.map key).Nodup
  storable : ∀ c ∈ jar, storableCookie c = true
  lowered : ∀ c ∈ jar, lower c.domain = c.domain

theorem Sound.sublist (h : Sound jar) (hs : jar'.Sublist jar) : Sound jar' where
  bounded := hs.length_le.trans h.bounded
  distinct := h.distinct.sublist (hs.map key)
  storable c hc := h.storable c (hs.subset hc)
  lowered c hc := h.lowered c (hs.subset hc)

theorem Sound.append (h : Sound jar) (hl : jar.length < kMaximumCookies)
    (hk : ∀ c ∈ jar, key c ≠ key cookie) (hs : storableCookie cookie = true)
    (hd : lower cookie.domain = cookie.domain) : Sound (jar ++ [cookie]) where
  bounded := by simpa using hl
  distinct := by
    rw [List.map_append, List.nodup_append]
    refine ⟨h.distinct, by simp, ?_⟩
    rintro k hk' k' hk'' rfl
    obtain ⟨c, hc, rfl⟩ := List.mem_map.1 hk'
    exact hk c hc (by simpa using hk'')
  storable c hc := by
    rcases List.mem_append.1 hc with hc | hc
    · exact h.storable c hc
    · rwa [List.mem_singleton.1 hc]
  lowered c hc := by
    rcases List.mem_append.1 hc with hc | hc
    · exact h.lowered c hc
    · rwa [List.mem_singleton.1 hc]

/-- With distinct keys, erasing the first match erases the only one. -/
theorem key_ne_of_mem_eraseP (h : (jar.map key).Nodup)
    (hc : c ∈ jar.eraseP (sameCookie · cookie)) : key c ≠ key cookie := by
  induction jar with
  | nil => simp at hc
  | cons a jar ih =>
    rw [List.map_cons, List.nodup_cons] at h
    rw [List.eraseP_cons] at hc
    by_cases ha : sameCookie a cookie = true
    · simp only [ha, cond_true] at hc
      rw [← sameCookie_iff.1 ha]
      intro he
      exact h.1 (he ▸ List.mem_map_of_mem hc)
    · simp only [Bool.not_eq_true] at ha
      simp only [ha, cond_false, List.mem_cons] at hc
      rcases hc with rfl | hc
      · intro he
        rw [sameCookie_iff.2 he] at ha
        exact absurd ha (by simp)
      · exact ih h.2 hc

theorem length_eraseP_lt (h : ∃ c ∈ jar, sameCookie c cookie = true) :
    (jar.eraseP (sameCookie · cookie)).length < jar.length := by
  obtain ⟨c, hc, hs⟩ := h
  have hl := List.length_eraseP_of_mem (p := (sameCookie · cookie)) hc hs
  have hpos := List.length_pos_of_mem hc
  omega

theorem Stored.sound {r : Jar × Bool} (h : Stored jar cookie remove r) (hj : Sound jar)
    (hs : storableCookie cookie = true) (hd : lower cookie.domain = cookie.domain) :
    Sound r.1 := by
  have hkey : ∀ jar' : Jar, jar'.Sublist jar → (∀ c ∈ jar, sameCookie c cookie = false) →
      ∀ c ∈ jar', key c ≠ key cookie := by
    intro jar' hsub hno c hc he
    rw [← sameCookie_iff, hno c (hsub.subset hc)] at he
    exact absurd he (by simp)
  cases h with
  | unchanged => exact hj
  | removed => exact hj.sublist List.eraseP_sublist
  | replaced hex =>
    refine (hj.sublist List.eraseP_sublist).append ?_ (fun c hc => ?_) hs hd
    · exact (length_eraseP_lt hex).trans_le hj.bounded
    · exact key_ne_of_mem_eraseP hj.distinct hc
  | evicted hno hl =>
    refine (hj.sublist (List.drop_sublist 1 jar)).append ?_ (hkey _ (List.drop_sublist 1 jar) hno)
      hs hd
    have hb := hj.bounded
    simp only [List.length_drop, kMaximumCookies] at *
    omega
  | added hno hl => exact hj.append hl (hkey _ (List.Sublist.refl jar) hno) hs hd

theorem Stored.unchanged_of_false {r : Jar × Bool} (h : Stored jar cookie remove r)
    (hr : r.2 = false) : r.1 = jar := by
  cases h <;> simp_all

theorem Stored.mem {r : Jar × Bool} (h : Stored jar cookie remove r) (hc : c ∈ r.1) :
    c ∈ jar ∨ c = cookie := by
  cases h with
  | unchanged => exact .inl hc
  | removed => exact .inl (List.mem_of_mem_eraseP hc)
  | replaced =>
    rcases List.mem_append.1 hc with hc | hc
    · exact .inl (List.mem_of_mem_eraseP hc)
    · exact .inr (List.mem_singleton.1 hc)
  | evicted =>
    rcases List.mem_append.1 hc with hc | hc
    · exact .inl (List.mem_of_mem_drop hc)
    · exact .inr (List.mem_singleton.1 hc)
  | added =>
    rcases List.mem_append.1 hc with hc | hc
    · exact .inl hc
    · exact .inr (List.mem_singleton.1 hc)

/-! A whole call. -/

theorem parseUrl_lowered (url : Bytes) : lower (parseUrl url).host = (parseUrl url).host := by
  unfold parseUrl
  split
  · rfl
  · exact lower_lower

/-- The state of the header loop: sound, unchanged unless flagged, and every new cookie matches
the origin. -/
structure Loop (origin : ParsedUrl) (jar : Jar) (state : Jar × Bool) : Prop where
  sound : Sound state.1
  unchanged : state.2 = false → state.1 = jar
  admits : ∀ c ∈ state.1, c ∉ jar → domainMatches origin.host c.domain = true

theorem Loop.start (h : Sound jar) : Loop origin jar (jar, false) :=
  ⟨h, fun _ => rfl, fun _ hc hn => absurd hc hn⟩

theorem Loop.applyHeader (ho : lower origin.host = origin.host) {state : Jar × Bool}
    (h : Loop origin jar state) (now : Int64) (header : Bytes) :
    Loop origin jar (applyHeader origin now state header) := by
  unfold Cookies.applyHeader
  split
  · exact h
  · next cookie remove hp =>
    obtain ⟨hs, hd, hl⟩ := parseSetCookie_spec hp ho
    have hst := storeCookie_stored state.1 cookie remove
    refine ⟨hst.sound h.sound hs hl, ?_, ?_⟩
    · intro hf
      simp only [Bool.or_eq_false_iff] at hf
      exact (hst.unchanged_of_false hf.2).trans (h.unchanged hf.1)
    · intro c hc hn
      rcases hst.mem hc with hc | rfl
      · exact h.admits c hc hn
      · exact hd

theorem Loop.sweep {state : Jar × Bool} (h : Loop origin jar state) (now : Int64) :
    Loop origin jar (sweep now state) := by
  unfold Cookies.sweep
  split_ifs
  · refine ⟨h.sound.sublist List.filter_sublist, by simp, ?_⟩
    intro c hc hn
    exact h.admits c (List.mem_of_mem_filter hc) hn
  · exact h

theorem apply_loop (h : Sound jar) (url : Bytes) (setCookies : List Bytes) (now : Int64) :
    Loop (parseUrl url) jar (apply jar url setCookies now) := by
  unfold apply
  dsimp only
  split_ifs
  · exact .start h
  · apply Loop.sweep
    refine List.foldlRecOn _ _ (motive := Loop (parseUrl url) jar) (.start h) ?_
    intro state hs header _
    exact hs.applyHeader (parseUrl_lowered url) now header

theorem sound_reachable (h : jarLTS.Reachable jar) : Sound jar := by
  refine h.invariant (I := Sound) ?_ ?_
  · rintro s rfl
    exact ⟨Nat.zero_le _, by simp, by simp, by simp⟩
  · intro s call t ht hs
    obtain rfl := Option.some.inj ht
    exact (apply_loop hs call.url call.setCookies call.now).sound

theorem storableCookie_iff : storableCookie c = true ↔ validName c.name = true ∧
    validValue c.value = true ∧ c.name.length + 1 + c.value.length ≤ kMaximumCookieBytes ∧
    domainMatches c.domain kSite = true ∧ c.path.head? = some (chr '/') := by
  simp [storableCookie, and_assoc]

theorem name_ne_credential (h : storableCookie c = true) : c.name ≠ kCredentialName := by
  have hn := (storableCookie_iff.1 h).1
  intro he
  simp [validName, he] at hn

theorem acceptsOrigin_iff : acceptsOrigin origin = true ↔
    origin.scheme = bytes "https" ∧ InDomain origin.host kSite := by
  rw [← domainMatches_iff kSite_ne_nil]
  simp [acceptsOrigin]

/-- In every reachable jar the storage rules hold, and the next call, whatever it is, keeps foreign
origins out, admits only cookies that match its host, and reports every change. -/
theorem reachable_jar_rules (h : jarLTS.Reachable jar) :
    (jar.length ≤ 180 ∧ (jar.map fun c => (c.name, c.domain, c.path)).Nodup ∧
      ∀ c ∈ jar, storableCookie c = true ∧ c.name ≠ bytes ".ROBLOSECURITY" ∧
        InDomain c.domain (bytes "roblox.com")) ∧
    ∀ url setCookies now,
      (¬ ((parseUrl url).scheme = bytes "https" ∧
          InDomain (parseUrl url).host (bytes "roblox.com")) →
        apply jar url setCookies now = (jar, false)) ∧
      (∀ c ∈ (apply jar url setCookies now).1, c ∉ jar →
        domainMatches (parseUrl url).host c.domain = true) ∧
      ((apply jar url setCookies now).2 = false → (apply jar url setCookies now).1 = jar) := by
  have hs := sound_reachable h
  refine ⟨⟨hs.bounded, hs.distinct, fun c hc => ?_⟩, fun url setCookies now => ⟨?_, ?_, ?_⟩⟩
  · have hst := hs.storable c hc
    exact ⟨hst, name_ne_credential hst,
      (domainMatches_iff kSite_ne_nil).1 (storableCookie_iff.1 hst).2.2.2.1⟩
  · intro hn
    have ha : acceptsOrigin (parseUrl url) = false := by
      rw [← Bool.not_eq_true]
      exact fun ha => hn (acceptsOrigin_iff.1 ha)
    simp [apply, ha]
  · exact (apply_loop hs url setCookies now).admits
  · exact (apply_loop hs url setCookies now).unchanged

/-- A jar of one cookie, reached by one call, keeps the rules. -/
theorem reachable_jar_rules_single :
    (apply [] (bytes "https://www.roblox.com/") [bytes "a=b; path=/"] 5).1.length = 1 ∧
    (apply [] (bytes "https://www.roblox.com/") [bytes "a=b; path=/"] 5).1.length ≤ 180 :=
  ⟨by decide, (reachable_jar_rules
    ⟨[], [⟨bytes "https://www.roblox.com/", [bytes "a=b; path=/"], 5⟩], rfl, .single rfl⟩).1.1⟩

end Nightcap.Cookies
