import Nightcap.Cookies.Invariant
import Nightcap.Lib.Newest

/-! The cookies the game starts with: one header, the newest cookie of each name, in the order they
were set. -/
namespace Nightcap.Cookies

open Utf8 Ascii Transition Newest

variable {jar : Jar} {cookie c d : Cookie} {now : Int64} {calls : List Call} {log : List Cookie}
  {header piece : Bytes} {origin : ParsedUrl}

/-- The loop over the jar from its end. -/
def pickNewer (now : Int64) (picked : List Cookie) (cookie : Cookie) : List Cookie :=
  if expired cookie now then picked
  else if picked.any fun newer => newer.name == cookie.name then picked
  else picked ++ [cookie]

def pick (jar : Jar) (now : Int64) : List Cookie := jar.reverse.foldl (pickNewer now) []

def appendPair (header : Bytes) (cookie : Cookie) : Bytes :=
  (if header = [] then [] else header ++ bytes "; ") ++ cookie.name ++ chr '=' :: cookie.value

def startupHeader (jar : Jar) (now : Int64) : Bytes := (pick jar now).reverse.foldl appendPair []

def combineRobloxStartupCookies (credential jarHeader : Bytes) : Bytes :=
  (if credential ≠ [] ∧ jarHeader ≠ [] then credential ++ bytes "; " else credential) ++ jarHeader

/-! Reading a header. -/

/-- A text split on `; `. -/
def pieces : Bytes → List Bytes
  | [] => [[]]
  | [b] => [[b]]
  | b :: c :: text =>
    if b = chr ';' ∧ c = chr ' ' then [] :: pieces text
    else
      match pieces (c :: text) with
      | [] => [[b]]
      | piece :: rest => (b :: piece) :: rest

/-- A piece split on its first `=`. -/
def pairOf (piece : Bytes) : Bytes × Bytes :=
  (piece.takeWhile (· != chr '='), (piece.dropWhile (· != chr '=')).drop 1)

/-- No text has no pairs. -/
def cookiePairs (header : Bytes) : List (Bytes × Bytes) :=
  if header = [] then [] else (pieces header).map pairOf

theorem pieces_ne_nil (text : Bytes) : pieces text ≠ [] := by
  match text with
  | [] | [_] => simp [pieces]
  | b :: c :: text =>
    rw [pieces]
    split
    · exact List.cons_ne_nil _ _
    · split <;> exact List.cons_ne_nil _ _

/-- A separator splits, whatever stands before and behind it. -/
theorem pieces_append (x y : Bytes) : pieces (x ++ bytes "; " ++ y) = pieces x ++ pieces y := by
  induction x using pieces.induct with
  | case1 => rfl
  | case2 b =>
    change pieces (b :: chr ';' :: (chr ' ' :: y)) = [b] :: pieces y
    rw [pieces, if_neg (by simp [chr])]
    rfl
  | case3 b c text hsep ih =>
    rw [List.cons_append, List.cons_append, List.cons_append, List.cons_append,
      pieces, if_pos hsep, ih,
      pieces, if_pos hsep]
    rfl
  | case4 b c text hsep hnil => exact absurd hnil (pieces_ne_nil _)
  | case5 b c text hsep piece rest hpieces ih =>
    rw [List.cons_append, List.cons_append, List.cons_append, List.cons_append, pieces, if_neg hsep,
      pieces, if_neg hsep, hpieces]
    rw [List.cons_append, List.cons_append, hpieces] at ih
    rw [ih]
    rfl

theorem pieces_eq (h : chr ';' ∉ piece) : pieces piece = [piece] := by
  induction piece with
  | nil => rfl
  | cons b text ih =>
    rw [List.mem_cons, not_or] at h
    cases text with
    | nil => rfl
    | cons c text => rw [pieces, if_neg fun hsep => h.1 hsep.1.symm, ih h.2]

theorem pairOf_eq {name value : Bytes} (h : chr '=' ∉ name) :
    pairOf (name ++ chr '=' :: value) = (name, value) := by
  have hname : ∀ b ∈ name, (b != chr '=') = true := by
    intro b hb
    rw [bne_iff_ne]
    rintro rfl
    exact h hb
  rw [pairOf, List.takeWhile_append_of_pos hname, List.dropWhile_append_of_pos hname]
  simp

theorem cookiePairs_append {x y : Bytes} (hx : x ≠ []) (hy : y ≠ []) :
    cookiePairs (x ++ bytes "; " ++ y) = cookiePairs x ++ cookiePairs y := by
  have hne : x ++ bytes "; " ++ y ≠ [] := by simp [hx]
  rw [cookiePairs, if_neg hne, cookiePairs, if_neg hx, cookiePairs, if_neg hy, pieces_append,
    List.map_append]

/-- Neither a name nor a value that may be stored has what the header is split on. -/
theorem storable_separators (h : storableCookie c = true) :
    chr '=' ∉ c.name ∧ chr ';' ∉ c.name ++ chr '=' :: c.value := by
  obtain ⟨hname, hvalue, _⟩ := storableCookie_iff.1 h
  simp only [validName, Bool.and_eq_true, List.all_eq_true] at hname
  simp only [validValue, List.all_eq_true] at hvalue
  have hnone : ∀ b ∈ c.name, b ≠ chr '=' ∧ b ≠ chr ';' := by
    intro b hb
    have hok := hname.2 b hb
    simp only [Bool.not_eq_true', Bool.or_eq_false_iff, is, beq_eq_false_iff_ne] at hok
    exact ⟨hok.1.1.2, hok.1.2⟩
  refine ⟨fun hmem => (hnone _ hmem).1 rfl, fun hmem => ?_⟩
  rcases List.mem_append.1 hmem with hmem | hmem
  · exact (hnone _ hmem).2 rfl
  · rcases List.mem_cons.1 hmem with heq | hmem
    · exact absurd heq (by decide)
    · have hok := hvalue _ hmem
      simp [is] at hok

theorem cookiePairs_appendPair (h : storableCookie c = true) :
    cookiePairs (appendPair header c) = cookiePairs header ++ [(c.name, c.value)] := by
  obtain ⟨hname, hpair⟩ := storable_separators h
  have hne : c.name ++ chr '=' :: c.value ≠ [] := by simp
  have hone : cookiePairs (c.name ++ chr '=' :: c.value) = [(c.name, c.value)] := by
    rw [cookiePairs, if_neg hne, pieces_eq hpair, List.map_singleton, pairOf_eq hname]
  unfold appendPair
  split
  · next hempty =>
    rw [hempty]
    exact hone
  · next hheader => rw [List.append_assoc, cookiePairs_append hheader hne, hone]

theorem cookiePairs_foldl {l : List Cookie} (h : ∀ c ∈ l, storableCookie c = true) :
    cookiePairs (l.foldl appendPair header) = cookiePairs header ++ l.map fun c =>
      (c.name, c.value) := by
  induction l generalizing header with
  | nil => simp
  | cons c l ih =>
    rw [List.forall_mem_cons] at h
    rw [List.foldl_cons, ih h.2, cookiePairs_appendPair h.1, List.append_assoc]
    rfl

theorem cookiePairs_combine (credential jarHeader : Bytes) :
    cookiePairs (combineRobloxStartupCookies credential jarHeader) =
      cookiePairs credential ++ cookiePairs jarHeader := by
  unfold combineRobloxStartupCookies
  split
  · next hboth => exact cookiePairs_append hboth.1 hboth.2
  · next hnone =>
    rw [not_and_or, not_not, not_not] at hnone
    rcases hnone with rfl | rfl
    · rfl
    · rw [List.append_nil, show cookiePairs [] = [] from rfl, List.append_nil]

/-! What is picked. -/

def live (jar : Jar) (now : Int64) : List Cookie := jar.filter (!expired · now)

theorem pick_cons (c : Cookie) (jar : Jar) (now : Int64) :
    pick (c :: jar) now = pickNewer now (pick jar now) c := by
  rw [pick, List.reverse_cons, List.foldl_append, List.foldl_cons, List.foldl_nil, pick]

/-- Backwards over the jar and forwards again: the last live cookie of each name, in order. -/
theorem pick_reverse (jar : Jar) (now : Int64) :
    (pick jar now).reverse = newest Cookie.name (live jar now) := by
  induction jar with
  | nil => rfl
  | cons c jar ih =>
    rw [pick_cons, pickNewer]
    split
    · next hexpired =>
      rw [ih, live, live, List.filter_cons_of_neg (by simp [hexpired])]
    · next hexpired =>
      have hlive : live (c :: jar) now = c :: live jar now := by
        rw [live, List.filter_cons_of_pos (by simpa using hexpired), live]
      rw [hlive]
      split
      · next hseen =>
        obtain ⟨d, hd, hname⟩ := List.any_eq_true.1 hseen
        rw [← List.mem_reverse, ih] at hd
        rw [ih, newest_of_mem ⟨d, (newest_sublist _).subset hd, beq_iff_eq.1 hname⟩]
      · next hseen =>
        rw [List.reverse_append, ih, newest_of_not_mem]
        · rfl
        · intro d hd hname
          obtain ⟨e, he, hname'⟩ := exists_newest ⟨d, hd, hname⟩
          rw [← ih, List.mem_reverse] at he
          exact hseen (List.any_eq_true.2 ⟨e, he, beq_iff_eq.2 hname'⟩)

/-! The order in which cookies were set. -/

/-- The cookie a header sets, if it does. -/
def setOf (origin : ParsedUrl) (now : Int64) (header : Bytes) : Option Cookie :=
  match parseSetCookie origin now header with
  | some (cookie, false) => some cookie
  | _ => none

/-- The cookies a call sets, one after the other. -/
def Call.settings (call : Call) : List Cookie :=
  if acceptsOrigin (parseUrl call.url) then
    call.setCookies.filterMap (setOf (parseUrl call.url) call.now)
  else []

def settings (calls : List Call) : List Cookie := calls.flatMap Call.settings

/-- The jar has what was set last, in that order. -/
def InOrder (log : List Cookie) (jar : Jar) : Prop := jar.Sublist (newest key log)

theorem eq_of_sameContents (h : sameContents c d = true) : c = d := by
  cases c
  cases d
  simp_all [sameContents, sameCookie]

theorem InOrder.snoc {jar' : Jar} (h : InOrder log jar) (hsub : jar'.Sublist jar)
    (hkeys : ∀ c ∈ jar', key c ≠ key cookie) : InOrder (log ++ [cookie]) (jar' ++ [cookie]) :=
  snoc_sublist (hsub.trans h) hkeys

/-- A cookie that is set goes to the end, or it is there already. -/
theorem storeCookie_inOrder (h : InOrder log jar) (hdistinct : (jar.map key).Nodup) :
    InOrder (log ++ [cookie]) (storeCookie jar cookie false).1 := by
  unfold storeCookie
  have herase := @List.eraseP_eq_eraseIdx _ jar (sameCookie · cookie)
  cases hfound : jar.findIdx? (sameCookie · cookie) with
  | some i =>
    simp only [hfound] at herase
    have hothers : ∀ c ∈ jar.eraseIdx i, key c ≠ key cookie := by
      intro c hc
      rw [← herase] at hc
      exact key_ne_of_mem_eraseP hdistinct hc
    have hmoved := h.snoc (List.eraseIdx_sublist ..) hothers
    simp only [Bool.false_eq_true, if_false]
    split
    · next hsame =>
      simp only [Bool.and_eq_true, Option.any_eq_true, beq_iff_eq] at hsame
      obtain ⟨⟨c, hc, hcontents⟩, hlast⟩ := hsame
      obtain rfl := eq_of_sameContents hcontents
      obtain ⟨hi, rfl⟩ := List.getElem?_eq_some_iff.1 hc
      rwa [List.eraseIdx_eq_take_drop_succ, List.drop_of_length_le (by omega), List.append_nil,
        List.take_append_getElem, hlast, List.take_length] at hmoved
    · exact hmoved
  | none =>
    have hothers : ∀ c ∈ jar, key c ≠ key cookie := by
      intro c hc hkey
      have hno := List.findIdx?_eq_none_iff.1 hfound c hc
      rw [sameCookie_iff.2 hkey] at hno
      cases hno
    simp only [Bool.false_eq_true, if_false]
    split
    · exact h.snoc (List.drop_sublist 1 jar) fun c hc => hothers c (List.mem_of_mem_drop hc)
    · exact h.snoc (List.Sublist.refl _) hothers

theorem storeCookie_removed : (storeCookie jar cookie true).1.Sublist jar := by
  unfold storeCookie
  split
  · exact List.eraseIdx_sublist ..
  · exact List.Sublist.refl _

theorem applyHeader_inOrder {state : Jar × Bool} {header : Bytes} (h : InOrder log state.1)
    (hdistinct : (state.1.map key).Nodup) :
    InOrder (log ++ (setOf origin now header).toList) (applyHeader origin now state header).1 := by
  unfold applyHeader setOf
  cases parseSetCookie origin now header with
  | none => simpa using h
  | some parsed =>
    obtain ⟨cookie, remove⟩ := parsed
    cases remove with
    | true =>
      rw [Option.toList_none, List.append_nil]
      exact storeCookie_removed.trans h
    | false => exact storeCookie_inOrder h hdistinct

theorem headers_inOrder {state : Jar × Bool} {headers : List Bytes} (hloop : Loop origin jar state)
    (hlower : lower origin.host = origin.host) (h : InOrder log state.1) :
    InOrder (log ++ headers.filterMap (setOf origin now))
      (headers.foldl (applyHeader origin now) state).1 := by
  induction headers generalizing state log with
  | nil => simpa using h
  | cons header headers ih =>
    have hone : InOrder (log ++ (setOf origin now header).toList)
        (applyHeader origin now state header).1 :=
      applyHeader_inOrder h hloop.sound.distinct
    have hall := ih (hloop.applyHeader hlower now header) hone
    rw [List.foldl_cons, List.filterMap_cons]
    cases hset : setOf origin now header with
    | none => simpa [hset] using hall
    | some cookie => simpa [hset] using hall

theorem apply_inOrder (call : Call) (hsound : Sound jar) (h : InOrder log jar) :
    InOrder (log ++ call.settings) (apply jar call.url call.setCookies call.now).1 := by
  unfold apply Call.settings
  dsimp only
  cases acceptsOrigin (parseUrl call.url) with
  | true =>
    have hloop : Loop (parseUrl call.url) jar (jar, false) := .start hsound
    have hall : InOrder (log ++ call.setCookies.filterMap (setOf (parseUrl call.url) call.now))
        (call.setCookies.foldl (applyHeader (parseUrl call.url) call.now) (jar, false)).1 :=
      headers_inOrder hloop (parseUrl_lowered call.url) h
    simp only [Bool.not_true, Bool.false_eq_true, if_false, if_true]
    unfold sweep
    split
    · exact List.filter_sublist.trans hall
    · exact hall
  | false => simpa using h

/-- A run of calls leaves in the jar, in order, some of what they set last. -/
theorem run_inOrder (h : jarLTS.Run [] calls jar) : InOrder (settings calls) jar := by
  have hrun : ∀ {start : Jar} {calls : List Call} {jar : Jar} {log : List Cookie},
      jarLTS.Run start calls jar → Sound start → InOrder log start →
        InOrder (log ++ settings calls) jar := by
    intro start calls jar log h
    induction h generalizing log with
    | refl =>
      intro _ horder
      simpa [settings] using horder
    | cons hstep _ ih =>
      intro hsound horder
      obtain rfl := Option.some.inj hstep
      have hnext := ih (apply_loop hsound _ _ _).sound (apply_inOrder _ hsound horder)
      rwa [List.append_assoc] at hnext
  have hempty : Sound [] := sound_reachable ⟨[], [], rfl, .refl _⟩
  have hall : InOrder ([] ++ settings calls) jar := hrun h hempty .slnil
  exact hall

/-! The header. -/

/-- `c` is what the header has for its name: every other live cookie of the name was set before
it. -/
def Latest (calls : List Call) (jar : Jar) (now : Int64) (c : Cookie) : Prop :=
  c ∈ live jar now ∧
    ∀ d ∈ live jar now, d.name = c.name → d ≠ c → Before key (settings calls) d c

theorem live_pairwise (h : jarLTS.Run [] calls jar) (now : Int64) :
    (live jar now).Pairwise (Before key (settings calls)) :=
  (newest_pairwise _).sublist (List.filter_sublist.trans (run_inOrder h))

theorem mem_newest_iff (h : jarLTS.Run [] calls jar) :
    c ∈ newest Cookie.name (live jar now) ↔ Latest calls jar now c := by
  have hpairwise := live_pairwise h now
  rw [mem_newest]
  constructor
  · rintro ⟨before, after, hlive, hafter⟩
    refine ⟨by rw [hlive]; simp, ?_⟩
    intro d hd hname hne
    rw [hlive] at hd hpairwise
    rcases List.mem_append.1 hd with hd | hd
    · exact (List.pairwise_append.1 hpairwise).2.2 d hd c List.mem_cons_self
    · rcases List.mem_cons.1 hd with rfl | hd
      · exact absurd rfl hne
      · exact absurd hname (hafter d hd)
  · rintro ⟨hmem, hlatest⟩
    obtain ⟨before, after, hlive⟩ := List.append_of_mem hmem
    refine ⟨before, after, hlive, ?_⟩
    intro d hd hname
    rw [hlive] at hpairwise hlatest
    have hlater : Before key (settings calls) c d :=
      List.rel_of_pairwise_cons (List.pairwise_append.1 hpairwise).2.1 hd
    have hne : d ≠ c := by
      rintro rfl
      exact hlater.ne rfl
    exact hlater.asymm (hlatest d (by simp [hd]) hname hne)

/-- The header says, in the order they were set, what the latest live cookie of each name is, and
nothing else; behind a credential it says the same. -/
theorem startupHeader_latest (h : jarLTS.Run [] calls jar) (now : Int64) :
    ∃ picked : List Cookie,
      cookiePairs (startupHeader jar now) = picked.map (fun c => (c.name, c.value)) ∧
      (picked.map Cookie.name).Nodup ∧ picked.Pairwise (Before key (settings calls)) ∧
      (∀ c, c ∈ picked ↔ Latest calls jar now c) ∧
      (∀ c ∈ jar, expired c now = false → ∃ d ∈ picked, d.name = c.name) ∧
      ∀ credential, cookiePairs (combineRobloxStartupCookies credential (startupHeader jar now)) =
        cookiePairs credential ++ picked.map fun c => (c.name, c.value) := by
  have hsound := sound_reachable ⟨[], calls, rfl, h⟩
  have hstorable : ∀ c ∈ newest Cookie.name (live jar now), storableCookie c = true := fun c hc =>
    hsound.storable c (List.mem_of_mem_filter ((newest_sublist _).subset hc))
  have hpairs : cookiePairs (startupHeader jar now) =
      (newest Cookie.name (live jar now)).map fun c => (c.name, c.value) := by
    rw [startupHeader, pick_reverse, cookiePairs_foldl hstorable]
    rfl
  refine ⟨newest Cookie.name (live jar now), hpairs, newest_nodup _,
    (live_pairwise h now).sublist (newest_sublist _), fun _ => mem_newest_iff h, ?_, ?_⟩
  · intro c hc hexpired
    exact exists_newest ⟨c, List.mem_filter.2 ⟨hc, by simpa using hexpired⟩, rfl⟩
  · intro credential
    rw [cookiePairs_combine, hpairs]

/-- Three cookies, two of one name; the newer of these comes last. -/
theorem startupHeader_latest_three : ∃ call : Call, ∃ picked : List Cookie,
    startupHeader (apply [] call.url call.setCookies call.now).1 6 = bytes "b=1; a=2" ∧
      cookiePairs (startupHeader (apply [] call.url call.setCookies call.now).1 6) =
        picked.map (fun c => (c.name, c.value)) ∧ (picked.map Cookie.name).Nodup := by
  let call : Call :=
    ⟨bytes "https://www.roblox.com/", [bytes "a=3; path=/x", bytes "b=1", bytes "a=2"], 5⟩
  have hrun : jarLTS.Run [] [call] (apply [] call.url call.setCookies call.now).1 := .single rfl
  obtain ⟨picked, hpairs, hnodup, _⟩ := startupHeader_latest hrun 6
  exact ⟨call, picked, by decide, hpairs, hnodup⟩

end Nightcap.Cookies
