import Nightcap.Cookies.Invariant
import Nightcap.Lib.Json

/-! `Serialize` and `Parse`: which jars survive a restart. -/
namespace Nightcap.Cookies

open Utf8 Ascii Transition

variable {jar : Jar} {c cookie : Cookie} {json : Json.Library}

def cookieJson (cookie : Cookie) : Json :=
  .ofFields [(bytes "name", .string cookie.name), (bytes "value", .string cookie.value),
    (bytes "domain", .string cookie.domain), (bytes "path", .string cookie.path),
    (bytes "host_only", .bool cookie.hostOnly), (bytes "secure", .bool cookie.secure),
    (bytes "expires", .integer cookie.expires)]

def document (jar : Jar) : Json :=
  .ofFields [(bytes "version", .integer 1), (bytes "cookies", .array (jar.map cookieJson))]

/-- `none` is the error `dump` raises. -/
def serialize (json : Json.Library) (jar : Jar) : Option Bytes := json.dump (document jar)

/-- Reads an optional field; `none` when it is present with the wrong type. -/
def readString (entry : Json) (k : Bytes) (default : Bytes) : Option Bytes :=
  match entry.field? k with
  | none => some default
  | some (.string s) => some s
  | some _ => none

def readBool (entry : Json) (k : Bytes) (default : Bool) : Option Bool :=
  match entry.field? k with
  | none => some default
  | some (.bool b) => some b
  | some _ => none

def readTime (entry : Json) (k : Bytes) (default : Int64) : Option Int64 :=
  match entry.field? k with
  | none => some default
  | some (.unsigned n) => if n.toNat > 2 ^ 63 - 1 then none else some n.toInt64
  | some (.integer n) => if 0 ≤ n then some n else none
  | some _ => none

def readCookie (entry : Json) : Option Cookie := do
  let name ← readString entry (bytes "name") []
  let value ← readString entry (bytes "value") []
  let domain ← readString entry (bytes "domain") []
  let path ← readString entry (bytes "path") []
  let hostOnly ← readBool entry (bytes "host_only") false
  let secure ← readBool entry (bytes "secure") false
  let expires ← readTime entry (bytes "expires") 0
  return { name, value, domain := lower domain, path, hostOnly, secure, expires }

def parseEntry (jar : Jar) (entry : Json) : Jar :=
  match entry with
  | .object fields =>
    if jar.length ≥ kMaximumCookies then jar
    else
      match readCookie (.object fields) with
      | none => jar
      | some cookie => if storableCookie cookie then jar ++ [cookie] else jar
  | _ => jar

def parse (json : Json.Library) (text : Bytes) : Jar :=
  match json.parse text with
  | some (.object fields) =>
    match fields.lookup (bytes "cookies") with
    | some (.array list) => list.foldl parseEntry []
    | _ => []
  | _ => []

/-- The jar comes back from its own serialisation, cookie for cookie. -/
def RoundTrips (json : Json.Library) (jar : Jar) : Prop :=
  ∃ text, serialize json jar = some text ∧ parse json text = jar

/-- What the JSON form can hold of a cookie. -/
structure Writable (cookie : Cookie) : Prop where
  value : WellFormed cookie.value
  domain : WellFormed cookie.domain
  path : WellFormed cookie.path
  expires : 0 ≤ cookie.expires

theorem cookieJson_eq (cookie : Cookie) : cookieJson cookie =
    .object [(bytes "domain", .string cookie.domain), (bytes "expires", .integer cookie.expires),
      (bytes "host_only", .bool cookie.hostOnly), (bytes "name", .string cookie.name),
      (bytes "path", .string cookie.path), (bytes "secure", .bool cookie.secure),
      (bytes "value", .string cookie.value)] := by
  rfl

theorem document_eq (jar : Jar) : document jar =
    .object [(bytes "cookies", .array (jar.map cookieJson)), (bytes "version", .integer 1)] := by
  rfl

theorem validName_ascii {name : Bytes} (h : validName name = true) : WellFormed name := by
  refine wellFormed_of_ascii fun b hb => ?_
  have hall := (Bool.and_eq_true _ _ ▸ h).2
  have := List.all_eq_true.1 hall b hb
  simp only [Bool.not_eq_true', Bool.or_eq_false_iff, decide_eq_false_iff_not] at this
  have h7 := this.1.1.1.2
  simp only [ge_iff_le, UInt8.le_iff_toNat_le, UInt8.lt_iff_toNat_lt] at h7 ⊢
  simp at h7 ⊢
  omega

theorem textual_cookieJson (h : storableCookie c = true) : (cookieJson c).Textual ↔
    WellFormed c.value ∧ WellFormed c.domain ∧ WellFormed c.path := by
  have hn := validName_ascii (storableCookie_iff.1 h).1
  have hk : ∀ s ∈ ["domain", "expires", "host_only", "name", "path", "secure", "value"],
      WellFormed (bytes s) := by
    intro s hs
    refine wellFormed_of_ascii ?_
    revert s
    decide +kernel
  simp only [List.forall_mem_cons] at hk
  simp only [cookieJson_eq, Json.Textual, Json.TextualFields, hk, hn, true_and, and_true]
  tauto

/-- The fields of a cookie's JSON form, read back. -/
theorem field?_reread (c : Cookie) :
    let entry := (cookieJson c).reread
    entry.field? (bytes "name") = some (.string c.name) ∧
    entry.field? (bytes "value") = some (.string c.value) ∧
    entry.field? (bytes "domain") = some (.string c.domain) ∧
    entry.field? (bytes "path") = some (.string c.path) ∧
    entry.field? (bytes "host_only") = some (.bool c.hostOnly) ∧
    entry.field? (bytes "secure") = some (.bool c.secure) ∧
    entry.field? (bytes "expires") = some (Json.reread (.integer c.expires)) := by
  simp only [cookieJson_eq, Json.reread, Json.rereadFields]
  exact ⟨rfl, rfl, rfl, rfl, rfl, rfl, rfl⟩

theorem readTime_reread {entry : Json} {k : Bytes} {e : Int64}
    (h : entry.field? k = some (Json.reread (.integer e))) :
    readTime entry k 0 = if 0 ≤ e then some e else none := by
  rw [readTime, h, Json.reread]
  by_cases he : 0 ≤ e
  · have hn : ¬ e.toUInt64.toNat > 2 ^ 63 - 1 := by
      rw [Int64.toNat_toUInt64_of_le he, Int64.toNatClampNeg]
      have h1 := e.toInt_lt
      omega
    simp only [he, if_true, if_neg hn, Int64.toInt64_toUInt64]
  · simp only [he, if_false]

theorem readCookie_reread (hd : lower c.domain = c.domain) :
    readCookie (cookieJson c).reread = if 0 ≤ c.expires then some c else none := by
  obtain ⟨hn, hv, hdom, hp, hh, hs, he⟩ := field?_reread c
  simp only [readCookie, readString, readBool, hn, hv, hdom, hp, hh, hs, readTime_reread he,
    Option.bind_eq_bind, Option.bind_some, hd]
  split_ifs <;> rfl

theorem reread_object (c : Cookie) : ∃ fields, (cookieJson c).reread = .object fields := by
  exact ⟨_, by rw [cookieJson_eq, Json.reread]⟩

theorem parseEntry_reread (hs : storableCookie c = true) (hd : lower c.domain = c.domain)
    (hl : jar.length < kMaximumCookies) :
    parseEntry jar (cookieJson c).reread = jar ++ [c].filter (0 ≤ ·.expires) := by
  obtain ⟨fields, hf⟩ := reread_object c
  have hr := readCookie_reread hd
  rw [hf] at hr
  rw [hf, parseEntry, if_neg (by omega), hr]
  by_cases he : 0 ≤ c.expires <;> simp [he, hs]

theorem foldl_parseEntry {jar : Jar} (hs : Sound jar) {kept : Jar}
    (hl : kept.length + jar.length ≤ kMaximumCookies) :
    (jar.map fun c => (cookieJson c).reread).foldl parseEntry kept =
      kept ++ jar.filter (0 ≤ ·.expires) := by
  induction jar generalizing kept with
  | nil => simp
  | cons c jar ih =>
    have hc : c ∈ c :: jar := List.mem_cons_self
    rw [List.length_cons] at hl
    rw [List.map_cons, List.foldl_cons,
      parseEntry_reread (hs.storable c hc) (hs.lowered c hc) (by omega), ih]
    · rw [List.append_assoc, ← List.filter_append, List.singleton_append]
    · exact hs.sublist (List.sublist_cons_self c jar)
    · have hf := List.length_filter_le (0 ≤ ·.expires) [c]
      simp only [List.length_append, List.length_singleton] at hf ⊢
      omega

theorem textual_document (h : Sound jar) : (document jar).Textual ↔
    ∀ c ∈ jar, WellFormed c.value ∧ WellFormed c.domain ∧ WellFormed c.path := by
  have hk : WellFormed (bytes "cookies") ∧ WellFormed (bytes "version") :=
    ⟨wellFormed_of_ascii (by decide +kernel), wellFormed_of_ascii (by decide +kernel)⟩
  simp only [document_eq, Json.Textual, Json.TextualFields, hk, true_and, and_true,
    Json.textualList_iff, List.forall_mem_map]
  exact forall₂_congr fun c hc => textual_cookieJson (h.storable c hc)

theorem parse_document (h : Sound jar) {text : Bytes}
    (hp : json.parse text = some (document jar).reread) :
    parse json text = jar.filter (0 ≤ ·.expires) := by
  have hl : ((bytes "cookies", Json.array (Json.rereadList (jar.map cookieJson))) ::
      Json.rereadFields [(bytes "version", .integer 1)]).lookup (bytes "cookies") =
      some (.array (Json.rereadList (jar.map cookieJson))) := rfl
  rw [parse, hp, document_eq, Json.reread, Json.rereadFields, Json.reread]
  dsimp only
  rw [hl, Json.rereadList_eq, List.map_map]
  exact foldl_parseEntry h (by simpa using h.bounded)

/-- A sound jar survives a restart exactly when all of its cookies can be written. -/
theorem roundTrips_iff (h : Sound jar) (hj : json.FaithfulAt (document jar)) :
    RoundTrips json jar ↔ ∀ c ∈ jar, Writable c := by
  rw [Json.Library.FaithfulAt, textual_document h] at hj
  constructor
  · rintro ⟨text, hs, hp⟩ c hc
    obtain ⟨hv, hd, hpath⟩ := hj.1.1 (by rw [serialize] at hs; simp [hs]) c hc
    rw [parse_document h (hj.2 text hs), List.filter_eq_self] at hp
    exact ⟨hv, hd, hpath, by simpa using hp c hc⟩
  · intro hw
    obtain ⟨text, hs⟩ := Option.isSome_iff_exists.1
      (hj.1.2 fun c hc => ⟨(hw c hc).value, (hw c hc).domain, (hw c hc).path⟩)
    refine ⟨text, hs, ?_⟩
    rw [parse_document h (hj.2 text hs), List.filter_eq_self]
    exact fun c hc => by simpa using (hw c hc).expires

end Nightcap.Cookies
